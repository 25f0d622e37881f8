import Llmsnap.Go.Runtime
import Llmsnap.Go.Float64
import Llmsnap.Go.Strconv
import Llmsnap.Go.Bytes
import Llmsnap.Go.Strings
import Llmsnap.Gjson
import Llmsnap.Gin
import Llmsnap.Proxy.ParseMetrics
import Llmsnap.Proxy.StreamScan
import Llmsnap.Proxy.StreamReference
import Llmsnap.Proxy.Monitor
import Llmsnap.Proxy.Goroutines
import Llmsnap.Proxy.MonitorConcurrent
import Llmsnap.Proxy.MonitorProgress
import Llmsnap.Proxy.MonitorNegative
import Llmsnap.Proxy.WrapHandler
import Llmsnap.Proxy.Requests
import Llmsnap.Proxy.RequestsConcurrent
import Llmsnap.Config.ModelFilters
import Llmsnap.Config.ModelConfig
