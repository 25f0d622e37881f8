import Llmsnap.Config.ModelFilters

/-! # A model's configuration and its YAML hook

`ModelConfig.UnmarshalYAML` fills a model's configuration from its defaults and the YAML node, then
checks the HTTP sleep and wake settings: an endpoint needs its partner, a method defaults to `POST`
when its endpoint is set, and a method must upper-case to `GET`, `POST`, `PUT` or `PATCH`, to which
it is normalised. The configuration is stored before the checks, so a rejected one stays stored.

* **`ModelConfig.defaults`** — the defaults, which depend on `runtime.GOOS`;
* **`ModelConfig.validate`** — the checks and normalisation after `*m = ModelConfig(defaults)`;
* **`ModelConfig.unmarshalYAML`** — the hook, given the YAML decoder `unmarshal`;
* **`unmarshalYAML_valid_iff`** — which decoded configurations it accepts, what it stores, and that
  the stored configuration passes the checks again unchanged;
* **`unmarshalYAML_error`** — what a rejection returns and leaves stored. -/

namespace Llmsnap.Config

open Go

/-- `ModelConfig`. `Macros` and `Metadata` are left out: `UnmarshalYAML` passes them through from
the decoder and nothing modelled reads them. -/
structure ModelConfig where
  /-- `Cmd`: the command that starts the model's server. -/
  cmd : String
  /-- `CmdStop`: the command that stops it. -/
  cmdStop : String
  /-- `Proxy`: the address requests for the model are forwarded to. -/
  proxy : String
  /-- `Aliases`: other names the model is requested by. -/
  aliases : List String
  /-- `Env`: the environment entries of the server's process. -/
  env : List String
  /-- `CheckEndpoint`: the path polled until the server is healthy. -/
  checkEndpoint : String
  /-- `UnloadAfter` (`yaml:"ttl"`): the idle time after which the model is unloaded. -/
  unloadAfter : Int
  /-- `Unlisted`: the model is left out of the model list. -/
  unlisted : Bool
  /-- `UseModelName`: the model name sent upstream in place of the requested one. -/
  useModelName : String
  /-- `SleepEndpoint`: the HTTP endpoint that puts the server to sleep; `""` for none. -/
  sleepEndpoint : String
  /-- `SleepMethod`: the HTTP method of the sleep request. -/
  sleepMethod : String
  /-- `SleepBody`: the body of the sleep request. -/
  sleepBody : String
  /-- `SleepTimeout`: the time the sleep request is given. -/
  sleepTimeout : Int
  /-- `WakeEndpoint`: the HTTP endpoint that wakes the server; `""` for none. -/
  wakeEndpoint : String
  /-- `WakeMethod`: the HTTP method of the wake request. -/
  wakeMethod : String
  /-- `WakeBody`: the body of the wake request. -/
  wakeBody : String
  /-- `WakeTimeout`: the time the wake request is given. -/
  wakeTimeout : Int
  /-- `Name`: the name `/v1/models` lists the model under. -/
  name : String
  /-- `Description`: the description `/v1/models` lists. -/
  description : String
  /-- `ConcurrencyLimit`: the limit on requests to the model processed at once. -/
  concurrencyLimit : Int
  /-- `Filters`: how requests to the model are rewritten. -/
  filters : ModelFilters
  /-- `SendLoadingState`, a `*bool` overriding the global setting: `none` is `nil`. -/
  sendLoadingState : Option Bool
  deriving DecidableEq, Repr

namespace ModelConfig

/-- The `defaults` of `UnmarshalYAML`; on Windows `cmdStop` is `taskkill /f /t /pid ${PID}`. The
fields the literal leaves out are Go's zero values. -/
def defaults (goos : String) : ModelConfig where
  cmd := ""
  cmdStop := if goos = "windows" then "taskkill /f /t /pid ${PID}" else ""
  proxy := "http://localhost:${PORT}"
  aliases := []
  env := []
  checkEndpoint := "/health"
  unloadAfter := 0
  unlisted := false
  useModelName := ""
  sleepEndpoint := ""
  sleepMethod := ""
  sleepBody := ""
  sleepTimeout := 0
  wakeEndpoint := ""
  wakeMethod := ""
  wakeBody := ""
  wakeTimeout := 0
  name := ""
  description := ""
  concurrencyLimit := 0
  filters := ⟨""⟩
  sendLoadingState := none

/-- `validMethods`: the HTTP methods a sleep or wake request may use. -/
def validMethods : List String := ["GET", "POST", "PUT", "PATCH"]

/-- `if endpoint != "" && method == "" { method = "POST" }`. -/
def defaultMethod (endpoint method : String) : String :=
  if endpoint ≠ "" ∧ method = "" then "POST" else method

/-- The negation of `method != "" && !validMethods[strings.ToUpper(method)]`. -/
def methodValid (upperRune : Char → Char) (method : String) : Prop :=
  method = "" ∨ Strings.toUpper upperRune method ∈ validMethods

instance (upperRune : Char → Char) (method : String) : Decidable (methodValid upperRune method) :=
  inferInstanceAs (Decidable (_ ∨ _))

/-- `if method != "" { method = strings.ToUpper(method) }`. -/
def normalizeMethod (upperRune : Char → Char) (method : String) : String :=
  if method ≠ "" then Strings.toUpper upperRune method else method

/-- The block that sets each method to `POST` when its endpoint is set and it is empty. -/
def withDefaultMethods (m : ModelConfig) : ModelConfig :=
  { m with
    sleepMethod := defaultMethod m.sleepEndpoint m.sleepMethod
    wakeMethod := defaultMethod m.wakeEndpoint m.wakeMethod }

/-- The method checks, then the normalisation to upper case. -/
def checkMethods (upperRune : Char → Char) (m : ModelConfig) : ModelConfig × Option String :=
  if ¬methodValid upperRune m.sleepMethod then
    (m, some ("invalid sleepMethod: " ++ m.sleepMethod ++ " (must be GET, POST, PUT, or PATCH)"))
  else if ¬methodValid upperRune m.wakeMethod then
    (m, some ("invalid wakeMethod: " ++ m.wakeMethod ++ " (must be GET, POST, PUT, or PATCH)"))
  else
    ({ m with
      sleepMethod := normalizeMethod upperRune m.sleepMethod
      wakeMethod := normalizeMethod upperRune m.wakeMethod }, none)

/-- **The checks after `*m = ModelConfig(defaults)`**, given `unicode.ToUpper` as `upperRune`: the
configuration as stored, and the error returned. -/
def validate (upperRune : Char → Char) (m : ModelConfig) : ModelConfig × Option String :=
  if m.sleepEndpoint ≠ "" ∧ m.wakeEndpoint = "" then
    (m, some "wakeEndpoint required when sleepEndpoint is configured")
  else if m.wakeEndpoint ≠ "" ∧ m.sleepEndpoint = "" then
    (m, some "sleepEndpoint required when wakeEndpoint is configured")
  else checkMethods upperRune (withDefaultMethods m)

/-- **`(*ModelConfig).UnmarshalYAML(unmarshal)`** on the configuration `m`, `goos` being
`runtime.GOOS` and `unmarshal` the decoder, which fills a `rawModelConfig` from the node over the
defaults: the configuration `m` afterwards, and the error returned. -/
def unmarshalYAML (goos : String) (upperRune : Char → Char)
    (unmarshal : ModelConfig → Except String ModelConfig) (m : ModelConfig) :
    ModelConfig × Option String :=
  match unmarshal (defaults goos) with
  | .error e => (m, some e)
  | .ok raw => validate upperRune raw

/-! ### The method of one endpoint -/

variable {upperRune : Char → Char}

/-- The four methods are upper case already. -/
theorem toUpper_of_mem_validMethods (upperRune : Char → Char) {x : String} (h : x ∈ validMethods) :
    Strings.toUpper upperRune x = x := by
  simp only [validMethods, List.mem_cons, List.not_mem_nil, or_false] at h
  rcases h with rfl | rfl | rfl | rfl <;> rfl

/-- The `POST` default changes nothing about whether the method is valid. -/
theorem methodValid_defaultMethod (endpoint method : String) :
    methodValid upperRune (defaultMethod endpoint method) ↔ methodValid upperRune method := by
  unfold defaultMethod
  split_ifs with h
  · simp only [methodValid, h.2, true_or, iff_true]
    exact .inr (by rw [toUpper_of_mem_validMethods upperRune (by simp [validMethods])]; simp [validMethods])
  · rfl

theorem normalizeMethod_of_ne {method : String} (h : method ≠ "") :
    normalizeMethod upperRune method = Strings.toUpper upperRune method := if_pos h

/-- A valid method, normalised, is empty or one of the four. -/
theorem normalizeMethod_mem {method : String} (h : methodValid upperRune method) :
    normalizeMethod upperRune method = "" ∨ normalizeMethod upperRune method ∈ validMethods := by
  by_cases hne : method = ""
  · exact .inl (by simp [normalizeMethod, hne])
  · exact .inr (normalizeMethod_of_ne hne ▸ h.resolve_left hne)

/-- A normalised valid method is upper case and stays valid. -/
theorem normalizeMethod_upper {method : String} (h : methodValid upperRune method) :
    (normalizeMethod upperRune method ≠ "" →
      Strings.toUpper upperRune (normalizeMethod upperRune method) =
        normalizeMethod upperRune method) ∧
    methodValid upperRune (normalizeMethod upperRune method) ∧
    normalizeMethod upperRune (normalizeMethod upperRune method) =
      normalizeMethod upperRune method := by
  rcases normalizeMethod_mem h with h0 | hmem
  · rw [h0]
    exact ⟨fun h => absurd rfl h, .inl rfl, rfl⟩
  · have hup := toUpper_of_mem_validMethods upperRune hmem
    have hne : normalizeMethod upperRune method ≠ "" := fun h => by
      rw [h] at hmem; simp [validMethods] at hmem
    exact ⟨fun _ => hup, .inr (hup.symm ▸ hmem), by rw [normalizeMethod_of_ne hne, hup]⟩

/-! ### The checks -/

/-- The method checks pass exactly when both methods are valid. -/
theorem checkMethods_eq_none_iff (m : ModelConfig) :
    (checkMethods upperRune m).2 = none ↔
      methodValid upperRune m.sleepMethod ∧ methodValid upperRune m.wakeMethod := by
  unfold checkMethods
  split_ifs <;> simp_all

/-- **The checks pass exactly** when both endpoints are set or neither, and each method is empty or
upper-cases to one of the four. -/
theorem validate_eq_none_iff (m : ModelConfig) :
    (validate upperRune m).2 = none ↔
      (m.sleepEndpoint = "" ↔ m.wakeEndpoint = "") ∧
      methodValid upperRune m.sleepMethod ∧ methodValid upperRune m.wakeMethod := by
  unfold validate
  split_ifs with h1 h2
  · simp only [reduceCtorEq, false_iff]; tauto
  · simp only [reduceCtorEq, false_iff]; tauto
  · rw [checkMethods_eq_none_iff, withDefaultMethods, methodValid_defaultMethod,
      methodValid_defaultMethod]
    tauto

/-- **What the checks store when they pass**: each method defaulted to `POST` under a set endpoint,
then normalised. -/
theorem validate_of_eq_none {m : ModelConfig} (h : (validate upperRune m).2 = none) :
    (validate upperRune m).1 = { m with
      sleepMethod := normalizeMethod upperRune (defaultMethod m.sleepEndpoint m.sleepMethod)
      wakeMethod := normalizeMethod upperRune (defaultMethod m.wakeEndpoint m.wakeMethod) } := by
  revert h
  unfold validate checkMethods withDefaultMethods
  split_ifs <;> simp

/-- A method defaulted under a set endpoint is not empty. -/
theorem defaultMethod_ne_empty {endpoint : String} (h : endpoint ≠ "") (method : String) :
    defaultMethod endpoint method ≠ "" := by
  unfold defaultMethod
  split_ifs with hd
  · simp
  · tauto

/-- A method that is set whenever its endpoint is keeps its value. -/
theorem defaultMethod_of_ne {endpoint method : String} (h : endpoint ≠ "" → method ≠ "") :
    defaultMethod endpoint method = method :=
  if_neg fun hd => h hd.1 hd.2

/-- The method stored for one endpoint: set under a set endpoint, one of the four or empty, upper
case, and kept as it is by the default and the normalisation. -/
theorem storedMethod_spec {endpoint method : String}
    (h : methodValid upperRune (defaultMethod endpoint method)) :
    let stored := normalizeMethod upperRune (defaultMethod endpoint method)
    (endpoint ≠ "" → stored ∈ validMethods) ∧
    (stored ≠ "" → Strings.toUpper upperRune stored = stored) ∧
    normalizeMethod upperRune (defaultMethod endpoint stored) = stored ∧
    methodValid upperRune stored := by
  intro stored
  obtain ⟨hup, hvalid, hidem⟩ := normalizeMethod_upper h
  have hset : endpoint ≠ "" → stored ≠ "" := fun he => by
    simp only [stored, normalizeMethod_of_ne (defaultMethod_ne_empty he method), ne_eq,
      Strings.toUpper_eq_empty]
    exact defaultMethod_ne_empty he method
  exact ⟨fun he => (normalizeMethod_mem h).resolve_left (hset he), hup,
    by rw [defaultMethod_of_ne hset, hidem], hvalid⟩

/-- **A configuration the checks accept is stored in a form they accept unchanged**, with one of the
four methods under every set endpoint and every method upper case. -/
theorem validate_stored {m : ModelConfig} (h : (validate upperRune m).2 = none) :
    let c := (validate upperRune m).1
    (c.sleepEndpoint ≠ "" → c.sleepMethod ∈ validMethods) ∧
    (c.wakeEndpoint ≠ "" → c.wakeMethod ∈ validMethods) ∧
    (c.sleepMethod ≠ "" → Strings.toUpper upperRune c.sleepMethod = c.sleepMethod) ∧
    (c.wakeMethod ≠ "" → Strings.toUpper upperRune c.wakeMethod = c.wakeMethod) ∧
    validate upperRune c = (c, none) := by
  intro c
  obtain ⟨hends, hs, hw⟩ := (validate_eq_none_iff m).mp h
  obtain ⟨hs1, hs2, hs3, hs4⟩ := storedMethod_spec ((methodValid_defaultMethod _ _).mpr hs)
  obtain ⟨hw1, hw2, hw3, hw4⟩ := storedMethod_spec ((methodValid_defaultMethod _ _).mpr hw)
  have hc : c = _ := validate_of_eq_none h
  have hc' : (validate upperRune c).2 = none := by
    rw [validate_eq_none_iff, hc]
    exact ⟨hends, hs4, hw4⟩
  rw [hc] at hc' ⊢
  refine ⟨hs1, hw1, hs2, hw2, Prod.ext ?_ hc'⟩
  rw [validate_of_eq_none hc']
  simp only [hs3, hw3]

/-- **`UnmarshalYAML` on a node the decoder reads as `r`** returns `nil` exactly when both endpoints
of `r` are set or neither and each of its methods is empty or upper-cases to `GET`, `POST`, `PUT` or
`PATCH`. The configuration it then stores has one of the four methods under every set endpoint and
every method upper case, and the checks pass on it again and change nothing. -/
theorem unmarshalYAML_valid_iff (goos : String) (upperRune : Char → Char)
    (unmarshal : ModelConfig → Except String ModelConfig) (m r : ModelConfig)
    (hr : unmarshal (defaults goos) = .ok r) :
    let result := unmarshalYAML goos upperRune unmarshal m
    (result.2 = none ↔
      (r.sleepEndpoint = "" ↔ r.wakeEndpoint = "") ∧
      (r.sleepMethod = "" ∨ Strings.toUpper upperRune r.sleepMethod ∈ validMethods) ∧
      (r.wakeMethod = "" ∨ Strings.toUpper upperRune r.wakeMethod ∈ validMethods)) ∧
    (result.2 = none →
      (result.1.sleepEndpoint ≠ "" → result.1.sleepMethod ∈ validMethods) ∧
      (result.1.wakeEndpoint ≠ "" → result.1.wakeMethod ∈ validMethods) ∧
      (result.1.sleepMethod ≠ "" →
        Strings.toUpper upperRune result.1.sleepMethod = result.1.sleepMethod) ∧
      (result.1.wakeMethod ≠ "" →
        Strings.toUpper upperRune result.1.wakeMethod = result.1.wakeMethod) ∧
      validate upperRune result.1 = (result.1, none)) := by
  have hres : unmarshalYAML goos upperRune unmarshal m = validate upperRune r := by
    simp only [unmarshalYAML, hr]
  simp only [hres]
  exact ⟨validate_eq_none_iff r, validate_stored⟩

/-- Both endpoints set by the node, the wake method in lower case and the sleep method left out:
the configuration is accepted, stored with `POST` for sleeping and `PUT` for waking. -/
theorem unmarshalYAML_valid_iff_endpoints :
    (fun (d : ModelConfig) => (Except.ok
        { d with sleepEndpoint := "/sleep", wakeEndpoint := "/wake", wakeMethod := "put" } :
          Except String ModelConfig)) (defaults "linux") =
      .ok { defaults "linux" with
        sleepEndpoint := "/sleep", wakeEndpoint := "/wake", wakeMethod := "put" } ∧
    let result := unmarshalYAML "linux" id
      (fun d => .ok { d with sleepEndpoint := "/sleep", wakeEndpoint := "/wake", wakeMethod := "put" })
      (defaults "linux")
    (result.2 = none ↔
      ("/sleep" = "" ↔ "/wake" = "") ∧
      ("" = "" ∨ Strings.toUpper id "" ∈ validMethods) ∧
      ("put" = "" ∨ Strings.toUpper id "put" ∈ validMethods)) ∧
    (result.2 = none →
      (result.1.sleepEndpoint ≠ "" → result.1.sleepMethod ∈ validMethods) ∧
      (result.1.wakeEndpoint ≠ "" → result.1.wakeMethod ∈ validMethods) ∧
      (result.1.sleepMethod ≠ "" → Strings.toUpper id result.1.sleepMethod = result.1.sleepMethod) ∧
      (result.1.wakeMethod ≠ "" → Strings.toUpper id result.1.wakeMethod = result.1.wakeMethod) ∧
      validate id result.1 = (result.1, none)) :=
  ⟨rfl, unmarshalYAML_valid_iff "linux" id
    (fun d => .ok { d with sleepEndpoint := "/sleep", wakeEndpoint := "/wake", wakeMethod := "put" })
    (defaults "linux") _ rfl⟩

example :
    let result := unmarshalYAML "linux" id
      (fun d => .ok { d with sleepEndpoint := "/sleep", wakeEndpoint := "/wake", wakeMethod := "put" })
      (defaults "linux")
    (result.1.sleepMethod, result.1.wakeMethod, result.2) = ("POST", "PUT", none) := rfl

example :
    (unmarshalYAML "linux" id (fun d =>
        .ok { d with sleepEndpoint := "/sleep", wakeEndpoint := "/wake", wakeMethod := "delete" })
      (defaults "linux")).1.sleepMethod = "POST" := rfl

end ModelConfig

end Llmsnap.Config
