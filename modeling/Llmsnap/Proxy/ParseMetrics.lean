import Llmsnap.Gjson

/-! # Token metrics from `usage` and `timings`

`parseMetrics` of `proxy/metrics_monitor.go` fills a `TokenMetrics` record from the `usage` and
`timings` members of an upstream response. Its defaults mark unknown data (`-1` cached tokens,
`-1.0` rates); the `usage` block reads OpenAI and Anthropic token counts, and a `timings` member,
as llama-server sends it, overrides the counts and supplies rates and duration.

* **`parseMetrics`** — the function, block by block as the source has it;
* **`parseMetrics_fields`** — each field in closed form: which member it comes from, in which
  order of precedence, and its default;
* **`parseMetrics_tokensPerSecond`** — a rate computed from the counts is a positive finite
  `float64`, so `TokensPerSecond` is `-1.0` exactly when no rate is known;
* **`parseMetrics_tokensPerSecond_accurate`** — and it is the exact rate to a relative `2 ^ -50`. -/

namespace Llmsnap.Proxy

open Go Gjson

/-- `TokenMetrics`: the token statistics of one upstream request. -/
structure TokenMetrics where
  /-- `ID`, assigned by the monitor. -/
  id : Int
  /-- `Timestamp`: when `parseMetrics` built the metrics. -/
  timestamp : Time
  /-- `Model`: the model the request was served by. -/
  model : String
  /-- `CachedTokens`: prompt tokens taken from the cache; `-1` when unknown. -/
  cachedTokens : Int
  /-- `InputTokens`: prompt tokens processed. -/
  inputTokens : Int
  /-- `OutputTokens`: tokens generated. -/
  outputTokens : Int
  /-- `PromptPerSecond`: prompt tokens processed per second; `-1.0` when unknown. -/
  promptPerSecond : Float64
  /-- `TokensPerSecond`: tokens generated per second; `-1.0` when unknown. -/
  tokensPerSecond : Float64
  /-- `DurationMs`: how long the request took, in milliseconds. -/
  durationMs : Int
  deriving DecidableEq, Repr

/-- `float64(outputTokens) / (float64(durationMs) / 1000.0)`: tokens per second over a duration
in milliseconds. -/
def tokenRate (outputTokens durationMs : Int) : Float64 :=
  (Float64.ofInt outputTokens).div ((Float64.ofInt durationMs).div (.finite 1000))

/-- The local variables `parseMetrics` accumulates its result in, each named as in the source and
becoming the `TokenMetrics` field of that name. -/
structure Locals where
  cachedTokens : Int
  outputTokens : Int
  inputTokens : Int
  tokensPerSecond : Float64
  promptPerSecond : Float64
  durationMs : Int

/-- The default values: unknown cached tokens and rates, no tokens, and `durationMs` measured
from the request's start (`since` is `time.Since(start)`). -/
def Locals.init (since : Duration) : Locals :=
  ⟨-1, 0, 0, Float64.negOne, Float64.negOne, since.milliseconds⟩

/-- The block `if usage.Exists() { … }`: `prompt_tokens` (chat completions) or `input_tokens`
(messages), `completion_tokens` or `output_tokens`, and `cache_read_input_tokens`. -/
def readUsage (usage : Result) (v : Locals) : Locals :=
  if usage.exists then
    { v with
      inputTokens :=
        if (usage.get "prompt_tokens").exists then (usage.get "prompt_tokens").int
        else if (usage.get "input_tokens").exists then (usage.get "input_tokens").int
        else v.inputTokens
      outputTokens :=
        if (usage.get "completion_tokens").exists then (usage.get "completion_tokens").int
        else if (usage.get "output_tokens").exists then (usage.get "output_tokens").int
        else v.outputTokens
      cachedTokens :=
        if (usage.get "cache_read_input_tokens").exists then
          (usage.get "cache_read_input_tokens").int
        else v.cachedTokens }
  else v

/-- The block `if timings.Exists() { … }`: llama-server's timing data replaces the counts and
supplies the rates and the duration. -/
def readTimings (timings : Result) (v : Locals) : Locals :=
  if timings.exists then
    { inputTokens := (timings.get "prompt_n").int
      outputTokens := (timings.get "predicted_n").int
      promptPerSecond := (timings.get "prompt_per_second").float
      tokensPerSecond := (timings.get "predicted_per_second").float
      durationMs := ((timings.get "prompt_ms").float.add (timings.get "predicted_ms").float).toInt
      cachedTokens :=
        if (timings.get "cache_n").exists then (timings.get "cache_n").int else v.cachedTokens }
  else v

/-- Calculate `tokensPerSecond` from the counts when the backend does not provide it. -/
def fillRate (v : Locals) : Locals :=
  if v.tokensPerSecond.beq Float64.negOne && 0 < v.outputTokens && 0 < v.durationMs then
    { v with tokensPerSecond := tokenRate v.outputTokens v.durationMs }
  else v

/-- **`parseMetrics(modelID, start, usage, timings)`.** The clock is read where the source reads
it: `since` is `time.Since(start)`, `now` the `time.Now()` of the `Timestamp`. The error result is
never taken. -/
def parseMetrics (modelID : String) (since : Duration) (now : Time) (usage timings : Result) :
    Except String TokenMetrics :=
  let v := fillRate (readTimings timings (readUsage usage (Locals.init since)))
  .ok { id := 0
        timestamp := now
        model := modelID
        cachedTokens := v.cachedTokens
        inputTokens := v.inputTokens
        outputTokens := v.outputTokens
        promptPerSecond := v.promptPerSecond
        tokensPerSecond := v.tokensPerSecond
        durationMs := v.durationMs }

/-! ### Each field in closed form -/

/-- `fillRate` touches only `tokensPerSecond`. -/
theorem fillRate_eq (v : Locals) :
    fillRate v = { v with tokensPerSecond :=
      (if v.tokensPerSecond.beq Float64.negOne ∧ 0 < v.outputTokens ∧ 0 < v.durationMs then
        tokenRate v.outputTokens v.durationMs
      else v.tokensPerSecond) } := by
  simp only [fillRate, Bool.and_eq_true, decide_eq_true_eq, and_assoc]
  split_ifs <;> rfl

/-- The `timings` block, its `cache_n` test read as `intOr`. -/
theorem readTimings_eq (timings : Result) (v : Locals) :
    readTimings timings v =
      if timings.exists then
        { inputTokens := (timings.get "prompt_n").int
          outputTokens := (timings.get "predicted_n").int
          promptPerSecond := (timings.get "prompt_per_second").float
          tokensPerSecond := (timings.get "predicted_per_second").float
          durationMs :=
            ((timings.get "prompt_ms").float.add (timings.get "predicted_ms").float).toInt
          cachedTokens := (timings.get "cache_n").intOr v.cachedTokens }
      else v := rfl

/-- The `usage` block, with its presence test folded into the lookups: a `usage` that does not
exist selects nothing. -/
theorem readUsage_eq (usage : Result) (v : Locals) :
    readUsage usage v =
      { v with
        inputTokens :=
          ((usage.get "prompt_tokens").orElse (usage.get "input_tokens")).intOr v.inputTokens
        outputTokens :=
          ((usage.get "completion_tokens").orElse (usage.get "output_tokens")).intOr v.outputTokens
        cachedTokens := (usage.get "cache_read_input_tokens").intOr v.cachedTokens } := by
  unfold readUsage
  split
  · simp only [Result.orElse, Result.intOr]
    split_ifs <;> simp_all
  · simp [Result.get_of_not_exists (Bool.eq_false_iff.mpr ‹_›)]

/-- **Where each field of `parseMetrics` comes from.** A `timings` member that exists, `null` and
objects lacking some keys included, supplies the token counts, the rates and the duration, a
missing key reading as `0`; without it the counts come from `usage` by precedence and the
duration from the clock. Cached tokens come from `timings.cache_n`, else
`usage.cache_read_input_tokens`, else `-1`. The rate is recomputed from the counts exactly when the
reported one equals `-1.0` and both counts are positive. -/
theorem parseMetrics_fields (modelID : String) (since : Duration) (now : Time)
    (usage timings : Result) :
    ∃ tm, parseMetrics modelID since now usage timings = .ok tm ∧
      tm.id = 0 ∧ tm.timestamp = now ∧ tm.model = modelID ∧
      tm.inputTokens = (if timings.exists then timings.get "prompt_n"
        else (usage.get "prompt_tokens").orElse (usage.get "input_tokens")).int ∧
      tm.outputTokens = (if timings.exists then timings.get "predicted_n"
        else (usage.get "completion_tokens").orElse (usage.get "output_tokens")).int ∧
      tm.cachedTokens =
        ((timings.get "cache_n").orElse (usage.get "cache_read_input_tokens")).intOr (-1) ∧
      tm.promptPerSecond =
        (if timings.exists then (timings.get "prompt_per_second").float else Float64.negOne) ∧
      tm.durationMs = (if timings.exists then
        ((timings.get "prompt_ms").float.add (timings.get "predicted_ms").float).toInt
        else since.milliseconds) ∧
      tm.tokensPerSecond =
        (let reported :=
          if timings.exists then (timings.get "predicted_per_second").float else Float64.negOne
        if reported.beq Float64.negOne ∧ 0 < tm.outputTokens ∧ 0 < tm.durationMs then
          tokenRate tm.outputTokens tm.durationMs
        else reported) := by
  refine ⟨_, rfl, rfl, rfl, rfl, ?_⟩
  by_cases ht : timings.exists
  · simp [fillRate_eq, readUsage_eq, readTimings_eq, Locals.init, ht, Result.intOr_orElse]
  · simp [fillRate_eq, readUsage_eq, readTimings_eq, Locals.init, ht, Result.intOr_orElse,
      Result.intOr_zero, Result.get_of_not_exists]

/-- A `timings` object without `prompt_n` beside a `usage` with `prompt_tokens`: the input count is
`0`, not `usage.prompt_tokens`. -/
theorem parseMetrics_prompt_n_absent :
    ∃ tm, parseMetrics "m" ⟨0⟩ ⟨0⟩ ⟨some (.object [("prompt_tokens", .string "100")])⟩
        ⟨some (.object [])⟩ = .ok tm ∧
      tm.inputTokens = 0 ∧
      ((⟨some (.object [])⟩ : Result).get "prompt_n").exists = false ∧
      ((⟨some (.object [("prompt_tokens", .string "100")])⟩ : Result).get "prompt_tokens").int =
        100 :=
  ⟨_, rfl, by decide, by decide, by decide⟩

/-! ### The computed rate -/

/-- **The rate from two positive `int64` counts is a positive finite `float64`**: the counts
convert to at least `1/2`, the duration in seconds to at least `1/4000`, and every quotient stays
in the normal range, where rounding keeps a value within a factor of two. -/
theorem tokenRate_pos {outputTokens durationMs : ℤ} (h1 : 0 < outputTokens)
    (h2 : outputTokens < 2 ^ 63) (h3 : 0 < durationMs) (h4 : durationMs < 2 ^ 63) :
    ∃ r, tokenRate outputTokens durationMs = .finite r ∧ 0 < r := by
  have ho1 : (1 : ℚ) ≤ outputTokens := by exact_mod_cast h1
  have ho2 : (outputTokens : ℚ) < 2 ^ 63 := by exact_mod_cast h2
  have hd1 : (1 : ℚ) ≤ durationMs := by exact_mod_cast h3
  have hd2 : (durationMs : ℚ) < 2 ^ 63 := by exact_mod_cast h4
  have hsmall : (1 : ℚ) / 2 ^ 100 * 4000 ≤ 1 / 2 := by norm_num
  have hbig : (2 : ℚ) ^ 63 * 4000 ≤ 2 ^ 100 := by norm_num
  obtain ⟨a, ha, ha1, ha2⟩ := @Float64.ofRat_of_bounds outputTokens (by linarith) (by linarith)
  obtain ⟨b, hb, hb1, hb2⟩ := @Float64.ofRat_of_bounds durationMs (by linarith) (by linarith)
  obtain ⟨c, hc, hc1, hc2⟩ := @Float64.ofRat_of_bounds (b / 1000)
    (by rw [le_div_iff₀ (by norm_num)]; linarith) (by rw [div_le_iff₀ (by norm_num)]; linarith)
  have hc0 : 0 < c := by linarith
  obtain ⟨r, hr, hr1, -⟩ := @Float64.ofRat_of_bounds (a / c)
    (by rw [le_div_iff₀ hc0]; linarith) (by rw [div_le_iff₀ hc0]; linarith)
  refine ⟨r, ?_, lt_of_le_of_lt (div_nonneg (div_pos (by linarith) hc0).le zero_le_two) hr1⟩
  simp only [tokenRate, Float64.ofInt, ha, hb, Float64.div, if_neg (show (1000 : ℚ) ≠ 0 by norm_num),
    hc, if_neg hc0.ne', hr]

/-- Before the rate is filled in, the output count and the duration are `int64` values. -/
theorem readTimings_readUsage_lt {since : Duration} (hsince : since.ns < 2 ^ 63)
    (usage timings : Result) :
    (readTimings timings (readUsage usage (Locals.init since))).outputTokens < 2 ^ 63 ∧
      (readTimings timings (readUsage usage (Locals.init since))).durationMs < 2 ^ 63 := by
  rw [readTimings_eq, readUsage_eq]
  split
  · exact ⟨Result.int_lt _, Float64.toInt_lt _⟩
  · exact ⟨Result.intOr_lt _ (by simp only [Locals.init]; decide), Duration.milliseconds_lt hsince⟩

/-- **`TokensPerSecond` is `-1.0` exactly when no rate is known.** It is the reported rate
(`timings.predicted_per_second`, else `-1.0`) or a positive finite rate computed from the counts,
and it is `-1.0` exactly when the reported rate is `-1.0` and the output count or the duration is
not positive. `since` is a `time.Duration`, an `int64` of nanoseconds. -/
theorem parseMetrics_tokensPerSecond (modelID : String) (since : Duration) (now : Time)
    (usage timings : Result) (hsince : since.ns < 2 ^ 63) :
    let reported := if timings.exists then (timings.get "predicted_per_second").float
      else Float64.negOne
    ∃ tm, parseMetrics modelID since now usage timings = .ok tm ∧
      (tm.tokensPerSecond = reported ∨ ∃ r, tm.tokensPerSecond = .finite r ∧ 0 < r) ∧
      (tm.tokensPerSecond.beq Float64.negOne = true ↔
        reported.beq Float64.negOne = true ∧ (tm.outputTokens ≤ 0 ∨ tm.durationMs ≤ 0)) := by
  dsimp only
  obtain ⟨hout, hdur⟩ := readTimings_readUsage_lt hsince usage timings
  have hrep : (readTimings timings (readUsage usage (Locals.init since))).tokensPerSecond =
      if timings.exists then (timings.get "predicted_per_second").float else Float64.negOne := by
    rw [readTimings_eq, readUsage_eq]
    split <;> rfl
  refine ⟨_, rfl, ?_⟩
  simp only [fillRate_eq]
  rw [← hrep]
  generalize readTimings timings (readUsage usage (Locals.init since)) = v at hout hdur ⊢
  split_ifs with hc
  · -- The rate is computed from the counts: positive, so not `-1.0`.
    obtain ⟨r, hr, hpos⟩ := tokenRate_pos hc.2.1 hout hc.2.2 hdur
    rw [hr]
    refine ⟨.inr ⟨r, rfl, hpos⟩, ?_⟩
    simp only [Float64.negOne, Float64.beq_finite, decide_eq_true_eq]
    exact ⟨fun h => by linarith, fun h => by omega⟩
  · -- The reported rate stands, as the counts do not allow another.
    refine ⟨.inl rfl, fun h => ⟨h, ?_⟩, fun h => h.1⟩
    by_contra hneg
    exact hc ⟨h, by omega, by omega⟩

/-- A `vLLM` response: `usage` with ten completion tokens and no `timings`, two seconds in. -/
theorem parseMetrics_tokensPerSecond_vllm :
    (⟨2000000000⟩ : Duration).ns < 2 ^ 63 ∧
    ∃ tm, parseMetrics "m" ⟨2000000000⟩ ⟨0⟩
        ⟨some (.object [("completion_tokens", .number "10")])⟩ Result.empty = .ok tm ∧
      (tm.tokensPerSecond = (if Result.empty.exists then
          (Result.empty.get "predicted_per_second").float else Float64.negOne) ∨
        ∃ r, tm.tokensPerSecond = .finite r ∧ 0 < r) ∧
      (tm.tokensPerSecond.beq Float64.negOne = true ↔
        (if Result.empty.exists then (Result.empty.get "predicted_per_second").float
          else Float64.negOne).beq Float64.negOne = true ∧
        (tm.outputTokens ≤ 0 ∨ tm.durationMs ≤ 0)) :=
  ⟨by decide, parseMetrics_tokensPerSecond _ _ _ _ _ (by decide)⟩

/-! ### The accuracy of the computed rate -/

/-- An `int64` count converts to a `float64` within one rounding, between `1/2` and `2 ^ 64`. -/
theorem ofInt_bounds {n : ℤ} (h1 : 0 < n) (h2 : n < 2 ^ 63) :
    ∃ m, Float64.ofInt n = .finite m ∧ (n : ℚ) * (1 - 1 / 2 ^ 53) ≤ m ∧
      m ≤ n * (1 + 1 / 2 ^ 53) ∧ 1 / 2 ≤ m ∧ m ≤ 2 ^ 64 := by
  have hn1 : (1 : ℚ) ≤ n := by exact_mod_cast h1
  have hn2 : (n : ℚ) ≤ 2 ^ 63 := by exact_mod_cast h2.le
  obtain ⟨m, hm, hm1, hm2⟩ := @Float64.ofRat_bounds_of_bounds n
    (le_trans (by norm_num) hn1) (le_trans hn2 (by norm_num))
  exact ⟨m, hm, hm1, hm2, by linarith only [hm1, hn1], by linarith only [hm2, hn2]⟩

/-- **The rate from two positive `int64` counts is the exact rate to `2 ^ -50`**: four roundings,
each within `2 ^ -53`, put `float64(outputTokens) / (float64(durationMs) / 1000.0)` between
`(1 - u)² / (1 + u)²` and `(1 + u)² / (1 - u)²` times `outputTokens · 1000 / durationMs`,
`u = 2 ^ -53`. -/
theorem tokenRate_accurate {outputTokens durationMs : ℤ} (h1 : 0 < outputTokens)
    (h2 : outputTokens < 2 ^ 63) (h3 : 0 < durationMs) (h4 : durationMs < 2 ^ 63) :
    ∃ r, tokenRate outputTokens durationMs = .finite r ∧
      |r - outputTokens * 1000 / durationMs| ≤ outputTokens * 1000 / durationMs / 2 ^ 50 := by
  obtain ⟨a, ha, ha1, ha2, ha3, ha4⟩ := ofInt_bounds h1 h2
  obtain ⟨b, hb, hb1, hb2, hb3, hb4⟩ := ofInt_bounds h3 h4
  have ho : (0 : ℚ) < outputTokens := by exact_mod_cast h1
  have hd : (0 : ℚ) < durationMs := by exact_mod_cast h3
  set o : ℚ := (outputTokens : ℚ)
  set d : ℚ := (durationMs : ℚ)
  obtain ⟨c, hc, hc1, hc2⟩ := @Float64.ofRat_bounds_of_bounds (b / 1000)
    (by rw [le_div_iff₀ (by norm_num)]; linarith only [hb3])
    (by rw [div_le_iff₀ (by norm_num)]; linarith only [hb4])
  have hc3 : 1 / 4000 ≤ c := by linarith only [hc1, hb3]
  have hc4 : c ≤ 2 ^ 64 := by linarith only [hc2, hb4]
  have hc0 : 0 < c := by linarith only [hc3]
  obtain ⟨r, hr, hr1, hr2⟩ := @Float64.ofRat_bounds_of_bounds (a / c)
    (by rw [le_div_iff₀ hc0]; linarith only [ha3, hc4])
    (by rw [div_le_iff₀ hc0]; linarith only [ha4, hc3])
  refine ⟨r, ?_, ?_⟩
  · simp only [tokenRate, ha, hb, Float64.div, if_neg (show (1000 : ℚ) ≠ 0 by norm_num), hc,
      if_neg hc0.ne', hr]
  -- The quotient `a / c` between its bounds from the counts, each off by at most two roundings.
  have hup : a / c ≤ o * (1 + 1 / 2 ^ 53) / (d * (1 - 1 / 2 ^ 53) / 1000 * (1 - 1 / 2 ^ 53)) :=
    div_le_div₀ (by positivity) ha2 (by positivity) <| (mul_le_mul_of_nonneg_right
      (div_le_div_of_nonneg_right hb1 (by norm_num)) (by norm_num)).trans hc1
  have hlow : o * (1 - 1 / 2 ^ 53) / (d * (1 + 1 / 2 ^ 53) / 1000 * (1 + 1 / 2 ^ 53)) ≤ a / c :=
    div_le_div₀ (by linarith only [ha3]) ha1 hc0 <| hc2.trans (mul_le_mul_of_nonneg_right
      (div_le_div_of_nonneg_right hb2 (by norm_num)) (by norm_num))
  have hR : 0 ≤ o * 1000 / d := by positivity
  refine abs_sub_le_iff.mpr ⟨sub_le_iff_le_add.mpr ?_, sub_le_comm.mp ?_⟩
  · calc r ≤ a / c * (1 + 1 / 2 ^ 53) := hr2
      _ ≤ _ := mul_le_mul_of_nonneg_right hup (by norm_num)
      _ = o * 1000 / d * ((1 + 1 / 2 ^ 53) ^ 2 / (1 - 1 / 2 ^ 53) ^ 2) := by ring
      _ ≤ o * 1000 / d * (1 + 1 / 2 ^ 50) := mul_le_mul_of_nonneg_left (by norm_num) hR
      _ = o * 1000 / d / 2 ^ 50 + o * 1000 / d := by ring
  · calc o * 1000 / d - o * 1000 / d / 2 ^ 50 = o * 1000 / d * (1 - 1 / 2 ^ 50) := by ring
      _ ≤ o * 1000 / d * ((1 - 1 / 2 ^ 53) ^ 2 / (1 + 1 / 2 ^ 53) ^ 2) :=
        mul_le_mul_of_nonneg_left (by norm_num) hR
      _ = _ := by ring
      _ ≤ a / c * (1 - 1 / 2 ^ 53) := mul_le_mul_of_nonneg_right hlow (by norm_num)
      _ ≤ r := hr1

/-- **A computed `TokensPerSecond` is the exact rate to `2 ^ -50`.** When no rate is reported
(`timings` absent, or its `predicted_per_second` equal to `-1.0`) and both counts are positive, the
rate `parseMetrics` stores is within a relative `2 ^ -50` of `OutputTokens / (DurationMs / 1000)`
computed exactly. `since` is a `time.Duration`, an `int64` of nanoseconds. -/
theorem parseMetrics_tokensPerSecond_accurate (modelID : String) (since : Duration) (now : Time)
    (usage timings : Result) (hsince : since.ns < 2 ^ 63) :
    ∃ tm, parseMetrics modelID since now usage timings = .ok tm ∧
      ((if timings.exists then (timings.get "predicted_per_second").float
          else Float64.negOne).beq Float64.negOne = true →
        0 < tm.outputTokens → 0 < tm.durationMs →
        ∃ r, tm.tokensPerSecond = .finite r ∧
          |r - tm.outputTokens * 1000 / tm.durationMs| ≤
            (tm.outputTokens : ℚ) * 1000 / tm.durationMs / 2 ^ 50) := by
  obtain ⟨hout, hdur⟩ := readTimings_readUsage_lt hsince usage timings
  have hrep : (readTimings timings (readUsage usage (Locals.init since))).tokensPerSecond =
      if timings.exists then (timings.get "predicted_per_second").float else Float64.negOne := by
    rw [readTimings_eq, readUsage_eq]
    split <;> rfl
  refine ⟨_, rfl, fun hneg hpos hdpos => ?_⟩
  rw [← hrep] at hneg
  simp only [fillRate_eq] at hpos hdpos ⊢
  rw [if_pos ⟨hneg, hpos, hdpos⟩]
  exact tokenRate_accurate hpos hout hdpos hdur

/-- The `vLLM` response of `parseMetrics_tokensPerSecond_vllm`: ten tokens in two seconds. -/
theorem parseMetrics_tokensPerSecond_accurate_vllm :
    (⟨2000000000⟩ : Duration).ns < 2 ^ 63 ∧
    ∃ tm, parseMetrics "m" ⟨2000000000⟩ ⟨0⟩
        ⟨some (.object [("completion_tokens", .number "10")])⟩ Result.empty = .ok tm ∧
      ((if Result.empty.exists then (Result.empty.get "predicted_per_second").float
          else Float64.negOne).beq Float64.negOne = true →
        0 < tm.outputTokens → 0 < tm.durationMs →
        ∃ r, tm.tokensPerSecond = .finite r ∧
          |r - tm.outputTokens * 1000 / tm.durationMs| ≤
            (tm.outputTokens : ℚ) * 1000 / tm.durationMs / 2 ^ 50) :=
  ⟨by decide, parseMetrics_tokensPerSecond_accurate _ _ _ _ _ (by decide)⟩

end Llmsnap.Proxy
