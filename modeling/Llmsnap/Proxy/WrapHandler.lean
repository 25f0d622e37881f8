import Llmsnap.Gin
import Llmsnap.Proxy.Monitor
import Llmsnap.Proxy.StreamReference

/-! # Metrics from a wrapped handler

`wrapHandler` runs the proxy handler `next` on a `responseBodyCopier`, which passes every write on
to gin's writer and keeps a copy of the bytes, and then reads token metrics off the copy: from the
last `data:` payload of a server-sent-event stream, or from the whole body as JSON. A failure after
`next` returned is only logged, since the response is already on its way.

* **`WriterCall`** — what a handler does with the `http.ResponseWriter` it is given;
* **`ResponseBodyCopier`** — the recorder, and **`runHandler`** the state a handler leaves it in;
* **`wrapHandler`** — the function, with the monitor, its events and its warnings as `World`;
* **`wrapHandler_records_iff`** — it returns `next`'s error, and records exactly one metric
  exactly when the status is `200`, the body is not empty and holds JSON;
* **`wrapHandler_one_outcome`** — every request ends in exactly one of: `next`'s error, one
  warning, or one insert. -/

namespace Llmsnap.Proxy

open Go Go.Bytes Gjson

/-- A call a handler makes on the `http.ResponseWriter` it is given. -/
inductive WriterCall where
  /-- `Header().Set(key, value)`. -/
  | headerSet (key value : String)
  /-- `Header().Add(key, value)`. -/
  | headerAdd (key value : String)
  /-- `Header().Del(key)`. -/
  | headerDel (key : String)
  /-- `WriteHeader(code)`. -/
  | writeHeader (code : Int)
  /-- `Write(chunk)`; the client connection took all of it without an error when `delivered`. -/
  | write (chunk : Bytes) (delivered : Bool)
  /-- `WriteHeaderNow()`, and what `Flush()` and `WriteString(s)` do: both are promoted from gin's
  writer, so the header goes out and the bytes, if any, go past the copy. -/
  | writeHeaderNow

/-- `responseBodyCopier`: gin's writer and a copy of the body. Its two times are clock readings,
and `wrapHandler` receives the one it uses as an argument. -/
structure ResponseBodyCopier where
  /-- The embedded `gin.ResponseWriter`. -/
  writer : Gin.ResponseWriter
  /-- `body`: the bytes written through the copier. -/
  body : Bytes

/-- `newBodyCopier(w, requestTime)`: nothing copied yet. -/
def newBodyCopier (w : Gin.ResponseWriter) : ResponseBodyCopier := ⟨w, []⟩

namespace ResponseBodyCopier

/-- `Write(b)`: `io.MultiWriter(w, bodyBuffer)` writes to gin's writer first, and to the buffer only
when that took all of `b` without an error. -/
def write (r : ResponseBodyCopier) (b : Bytes) (delivered : Bool) : ResponseBodyCopier :=
  ⟨r.writer.writeHeaderNow, if delivered then r.body ++ b else r.body⟩

/-- A handler's call on the copier; `Header()` and `WriteHeader` reach gin's writer. -/
def apply (r : ResponseBodyCopier) : WriterCall → ResponseBodyCopier
  | .headerSet k v => { r with writer := { r.writer with header := r.writer.header.set k v } }
  | .headerAdd k v => { r with writer := { r.writer with header := r.writer.header.add k v } }
  | .headerDel k => { r with writer := { r.writer with header := r.writer.header.del k } }
  | .writeHeader code => { r with writer := r.writer.writeHeader code }
  | .write b delivered => r.write b delivered
  | .writeHeaderNow => { r with writer := r.writer.writeHeaderNow }

end ResponseBodyCopier

/-- The copier after a handler's calls, in order. -/
def runHandler (w : Gin.ResponseWriter) (calls : List WriterCall) : ResponseBodyCopier :=
  calls.foldl ResponseBodyCopier.apply (newBodyCopier w)

/-- A warning `wrapHandler` logs through `mp.logger.Warnf`. -/
inductive MetricsWarning where
  /-- `metrics skipped, HTTP status=%d, path=%s, error=%s`, the body as the error. -/
  | status (code : Int) (path : String) (body : Bytes)
  /-- `metrics skipped, empty body`. -/
  | emptyBody
  /-- `error processing streaming response: %v, path=%s`. -/
  | streaming (err : String) (path : String)
  /-- `error parsing metrics: %v, path=%s`. -/
  | parsing (err : String) (path : String)
  /-- `metrics skipped, invalid JSON in response body path=%s`. -/
  | invalidJSON (path : String)

/-- What `wrapHandler` changes besides the response: the monitor, the events it published, and the
warnings it logged. -/
structure World where
  /-- The monitor's fields. -/
  mon : MetricsMonitor
  /-- The `TokenMetricsEvent`s published, in order. -/
  events : List TokenMetricsEvent
  /-- The warnings logged, in order. -/
  warnings : List MetricsWarning

/-- A warning logged. -/
def World.warn (w : World) (x : MetricsWarning) : World := { w with warnings := w.warnings ++ [x] }

/-- `mp.addMetrics(tm)`, taken whole: the mutex makes it atomic. -/
def World.addMetrics (w : World) (tm : TokenMetrics) : Except Panic World :=
  (fun r => { w with mon := r.1, events := w.events ++ [r.2] }) <$> w.mon.addMetrics tm

/-- The body of `wrapHandler` once `next` returned `nil`, on the recorder `r`: `http.StatusOK` is
`200`; `since` and `now` are the readings of the clock `parseMetrics` takes. -/
def recordMetrics (decode : Decoder) (modelID path : String) (since : Duration) (now : Time)
    (r : ResponseBodyCopier) (w : World) : Except Panic (World × Option String) :=
  if r.writer.status ≠ 200 then .ok (w.warn (.status r.writer.status path r.body), none)
  else if r.body.length = 0 then .ok (w.warn .emptyBody, none)
  else if Strings.contains (r.writer.header.get "Content-Type") "text/event-stream" then
    processStreamingResponse decode modelID since now r.body >>= fun
      | .error e => .ok (w.warn (.streaming e path), none)
      | .ok tm => (fun w' => (w', none)) <$> w.addMetrics tm
  else
    match decode r.body with
    | some doc =>
      match parseMetrics modelID since now ((parseBytes doc).get "usage")
          ((parseBytes doc).get "timings") with
      | .error e => .ok (w.warn (.parsing e path), none)
      | .ok tm => (fun w' => (w', none)) <$> w.addMetrics tm
    | none => .ok (w.warn (.invalidJSON path), none)

/-- **`wrapHandler(modelID, writer, request, next)`**, with `next` given by the calls it makes on the
recorder and the error it returns; `path` is `request.URL.Path`. -/
def wrapHandler (decode : Decoder) (modelID path : String) (since : Duration) (now : Time)
    (writer : Gin.ResponseWriter) (next : List WriterCall × Option String) (w : World) :
    Except Panic (World × Option String) :=
  let recorder := runHandler writer next.1
  match next.2 with
  | some err => .ok (w, some err)
  | none => recordMetrics decode modelID path since now recorder w

/-! ### When a metric is recorded -/

/-- **The body holds a JSON payload**, line by line: on some line split off at `'\n'`, the trimmed
line starts with `data:`, and its trimmed rest is neither empty nor `[DONE]` and is valid JSON. -/
def HasJSONPayload (decode : Decoder) (body : Bytes) : Prop :=
  ∃ line ∈ split body newline,
    hasPrefix (trimSpace line) (asciiBytes "data:") ∧
    trimSpace ((trimSpace line).drop 5) ≠ [] ∧
    trimSpace ((trimSpace line).drop 5) ≠ asciiBytes "[DONE]" ∧
    (decode (trimSpace ((trimSpace line).drop 5))).isSome

/-- A line yields a payload exactly when it reads as `HasJSONPayload` asks. -/
theorem lineDoc_isSome_iff (decode : Decoder) (raw : Bytes) :
    (lineDoc decode raw).isSome ↔
      hasPrefix (trimSpace raw) (asciiBytes "data:") ∧
      trimSpace ((trimSpace raw).drop 5) ≠ [] ∧
      trimSpace ((trimSpace raw).drop 5) ≠ asciiBytes "[DONE]" ∧
      (decode (trimSpace ((trimSpace raw).drop 5))).isSome := by
  unfold lineDoc
  dsimp only
  split_ifs with hp hd
  · rcases hd with hd | hd <;> simp [hd]
  · simp_all
  · simp_all

/-- The forward reading keeps a payload exactly when the body holds one. -/
theorem hasJSONPayload_iff (decode : Decoder) (body : Bytes) :
    HasJSONPayload decode body ↔ streamPayloads decode body ≠ [] := by
  rw [streamPayloads_eq, Ne, List.filterMap_eq_nil_iff]
  push_neg
  exact exists_congr fun line => and_congr_right fun _ =>
    (lineDoc_isSome_iff decode line).symm.trans Option.isSome_iff_ne_none

/-- **A stream with a payload yields metrics; one without yields the error.** -/
theorem processStreamingResponse_result (decode : Decoder) (modelID : String) (since : Duration)
    (now : Time) (body : Bytes) :
    (streamPayloads decode body ≠ [] →
      ∃ tm, processStreamingResponse decode modelID since now body = .ok (.ok tm)) ∧
    (streamPayloads decode body = [] →
      processStreamingResponse decode modelID since now body =
        .ok (.error "no valid JSON data found in stream")) := by
  obtain ⟨st, hst, hd⟩ := scanLoop_body decode body
  simp only [processStreamingResponse, hst, bind, Except.bind]
  cases st with
  | found usage timings =>
    refine ⟨fun _ => ⟨_, rfl⟩, fun h => ?_⟩
    simp [h, ScanStep.decision] at hd
  | next pos f =>
    simp only [ScanStep.decision] at hd
    split at hd
    · simp at hd
    · simp only [Prod.mk.injEq, true_and] at hd
      subst hd
      refine ⟨fun h => ?_, fun h => by rw [h]; rfl⟩
      cases hp : streamPayloads decode body with
      | nil => exact absurd hp h
      | cons => exact ⟨_, rfl⟩

/-- **The recorded case**: status `200`, a body, and JSON in it (a payload line for an event stream,
the whole body otherwise) lead to exactly one `addMetrics`. -/
theorem recordMetrics_of_json {decode : Decoder} {modelID path : String} {since : Duration}
    {now : Time} {r : ResponseBodyCopier} (w : World) (h200 : r.writer.status = 200)
    (hne : r.body ≠ [])
    (hjson : if Strings.contains (r.writer.header.get "Content-Type") "text/event-stream" then
      HasJSONPayload decode r.body else (decode r.body).isSome) :
    ∃ tm, recordMetrics decode modelID path since now r w =
      (fun w' => (w', none)) <$> w.addMetrics tm := by
  have hlen : r.body.length ≠ 0 := fun h => hne (List.length_eq_zero.mp h)
  unfold recordMetrics
  rw [if_neg (not_not.mpr h200), if_neg hlen]
  split_ifs at hjson ⊢ with hsse
  · obtain ⟨tm, htm⟩ := (processStreamingResponse_result decode modelID since now r.body).1
      ((hasJSONPayload_iff _ _).mp hjson)
    exact ⟨tm, by rw [htm]; rfl⟩
  · obtain ⟨doc, hdoc⟩ := Option.isSome_iff_exists.mp hjson
    exact ⟨_, by rw [hdoc]; rfl⟩

/-- **Every other case only logs a warning**: the monitor and its events stay as they were. -/
theorem recordMetrics_of_not_json {decode : Decoder} {modelID path : String} {since : Duration}
    {now : Time} {r : ResponseBodyCopier} (w : World)
    (h : ¬ (r.writer.status = 200 ∧ r.body ≠ [] ∧
      if Strings.contains (r.writer.header.get "Content-Type") "text/event-stream" then
        HasJSONPayload decode r.body else (decode r.body).isSome)) :
    ∃ x, recordMetrics decode modelID path since now r w = .ok (w.warn x, none) := by
  unfold recordMetrics
  by_cases h200 : r.writer.status = 200
  · by_cases hlen : r.body.length = 0
    · exact ⟨.emptyBody, by simp only [h200, hlen, ne_eq, not_true_eq_false, if_false, if_true]⟩
    · have hj := fun hj => h ⟨h200, fun hb => hlen (by simp [hb]), hj⟩
      simp only [h200, hlen, ne_eq, not_true_eq_false, if_false]
      split_ifs at hj ⊢ with hsse
      · rw [(processStreamingResponse_result decode modelID since now r.body).2
          (not_not.mp (mt (hasJSONPayload_iff _ _).mpr hj))]
        exact ⟨_, rfl⟩
      · rw [Option.not_isSome_iff_eq_none.mp hj]
        exact ⟨_, rfl⟩
  · exact ⟨.status r.writer.status path r.body, by simp only [h200, ne_eq, not_false_eq_true, if_true]⟩

/-- **What `wrapHandler` records**, for every handler `next`: it returns `next`'s error. With an
error it changes nothing. Without one, it makes exactly one `addMetrics` call when the recorded
status is `200`, the copied body is not empty, and the body holds JSON (a `data:` payload line for
an event stream, the whole body otherwise); in every other case it only logs a warning, and the
monitor and its events stay as they were. -/
theorem wrapHandler_records_iff (decode : Decoder) (modelID path : String) (since : Duration)
    (now : Time) (writer : Gin.ResponseWriter) (calls : List WriterCall) (err : Option String)
    (w : World) :
    let recorder := runHandler writer calls
    let records := recorder.writer.status = 200 ∧ recorder.body ≠ [] ∧
      if Strings.contains (recorder.writer.header.get "Content-Type") "text/event-stream" then
        HasJSONPayload decode recorder.body else (decode recorder.body).isSome
    (∀ e, err = some e →
      wrapHandler decode modelID path since now writer (calls, err) w = .ok (w, some e)) ∧
    (err = none → records →
      ∃ tm, wrapHandler decode modelID path since now writer (calls, err) w =
        (fun w' => (w', none)) <$> w.addMetrics tm) ∧
    (err = none → ¬ records →
      ∃ x, wrapHandler decode modelID path since now writer (calls, err) w =
        .ok (w.warn x, none)) := by
  intro recorder records
  refine ⟨fun e he => by subst he; rfl, fun herr h => ?_, fun herr h => ?_⟩
  · subst herr
    exact recordMetrics_of_json w h.1 h.2.1 h.2.2
  · subst herr
    exact recordMetrics_of_not_json w h

/-- A `201 Created` response with a JSON body records no metric: the status must be `200`. -/
theorem wrapHandler_created_not_recorded :
    let decode : Decoder := fun b => if b = asciiBytes "[]" then some (.array []) else none
    let recorder := runHandler ⟨200, false, []⟩ [.writeHeader 201, .write (asciiBytes "[]") true]
    (200 ≤ recorder.writer.status ∧ recorder.writer.status < 300) ∧ recorder.body ≠ [] ∧
      Strings.contains (recorder.writer.header.get "Content-Type") "text/event-stream" = false ∧
      (decode recorder.body).isSome ∧
      wrapHandler decode "m" "/v1/chat/completions" ⟨0⟩ ⟨0⟩ ⟨200, false, []⟩
          ([.writeHeader 201, .write (asciiBytes "[]") true], none) ⟨newMetricsMonitor 10, [], []⟩ =
        .ok (⟨newMetricsMonitor 10, [], [.status 201 "/v1/chat/completions" (asciiBytes "[]")]⟩,
          none) :=
  ⟨by decide, by decide, by decide, by decide, rfl⟩

/-! ### One outcome per request -/

/-- The world after one insert into a monitor of capacity `≥ 0`: the metric numbered `nextID`
joins the ring and its event is published. -/
def World.afterInsert (w : World) (tm : TokenMetrics) : World :=
  { w with
    mon := { w.mon with
      metrics := some (window w.mon.maxMetrics (w.mon.metrics.elems ++ [{ tm with id := w.mon.nextID }]))
      nextID := w.mon.nextID + 1 }
    events := w.events ++ [⟨{ tm with id := w.mon.nextID }⟩] }

theorem World.addMetrics_eq_afterInsert {w : World} (h0 : 0 ≤ w.mon.maxMetrics)
    (hlen : (w.mon.metrics.elems.length : Int) ≤ w.mon.maxMetrics) (tm : TokenMetrics) :
    w.addMetrics tm = .ok (w.afterInsert tm) := by
  simp only [World.addMetrics, addMetrics_of_nonneg h0 hlen]
  rfl

/-- **Once `next` returned `nil`, exactly one thing happens** when the capacity is not negative and
the ring within it: one warning is logged, or one metric is inserted and published. -/
theorem recordMetrics_outcome (decode : Decoder) (modelID path : String) (since : Duration)
    (now : Time) (r : ResponseBodyCopier) {w : World} (h0 : 0 ≤ w.mon.maxMetrics)
    (hlen : (w.mon.metrics.elems.length : Int) ≤ w.mon.maxMetrics) :
    ∃ w', recordMetrics decode modelID path since now r w = .ok (w', none) ∧
      ((∃ x, w' = w.warn x) ∨ ∃ tm, w' = w.afterInsert tm) := by
  by_cases hrec : r.writer.status = 200 ∧ r.body ≠ [] ∧
      if Strings.contains (r.writer.header.get "Content-Type") "text/event-stream" then
        HasJSONPayload decode r.body else (decode r.body).isSome
  · obtain ⟨tm, htm⟩ :=
      @recordMetrics_of_json decode modelID path since now r w hrec.1 hrec.2.1 hrec.2.2
    exact ⟨_, by rw [htm, World.addMetrics_eq_afterInsert h0 hlen]; rfl, .inr ⟨tm, rfl⟩⟩
  · obtain ⟨x, hx⟩ := @recordMetrics_of_not_json decode modelID path since now r w hrec
    exact ⟨_, hx, .inl ⟨x, rfl⟩⟩

/-- **Every request has exactly one outcome** when the capacity is not negative and the ring holds
no more than it, as in every monitor `newMetricsMonitor` and `addMetrics` build: `wrapHandler`
never panics and returns `next`'s error; with an error the world is unchanged, and without one
either exactly one warning is logged or exactly one metric is inserted and published. -/
theorem wrapHandler_one_outcome (decode : Decoder) (modelID path : String) (since : Duration)
    (now : Time) (writer : Gin.ResponseWriter) (next : List WriterCall × Option String) (w : World)
    (h0 : 0 ≤ w.mon.maxMetrics) (hlen : (w.mon.metrics.elems.length : Int) ≤ w.mon.maxMetrics) :
    ∃ w', wrapHandler decode modelID path since now writer next w = .ok (w', next.2) ∧
      ((next.2.isSome ∧ w' = w) ∨
        (next.2 = none ∧ ((∃ x, w' = w.warn x) ∨ ∃ tm, w' = w.afterInsert tm))) := by
  obtain ⟨calls, err⟩ := next
  cases err with
  | some e => exact ⟨w, rfl, .inl ⟨rfl, rfl⟩⟩
  | none =>
    obtain ⟨w', h, hw'⟩ :=
      recordMetrics_outcome decode modelID path since now (runHandler writer calls) h0 hlen
    exact ⟨w', h, .inr ⟨rfl, hw'⟩⟩

/-- A handler that writes a JSON completion with its `usage`, against a monitor of capacity `2`
that holds one metric already: the request inserts the second. -/
theorem wrapHandler_one_outcome_insert :
    (0 : Int) ≤ (⟨⟨some [⟨0, ⟨0⟩, "m", -1, 3, 4, .negOne, .negOne, 10⟩], 2, 1⟩,
      [⟨⟨0, ⟨0⟩, "m", -1, 3, 4, .negOne, .negOne, 10⟩⟩], []⟩ : World).mon.maxMetrics ∧
    ((⟨⟨some [⟨0, ⟨0⟩, "m", -1, 3, 4, .negOne, .negOne, 10⟩], 2, 1⟩,
      [⟨⟨0, ⟨0⟩, "m", -1, 3, 4, .negOne, .negOne, 10⟩⟩], []⟩ : World).mon.metrics.elems.length :
        Int) ≤
      (⟨⟨some [⟨0, ⟨0⟩, "m", -1, 3, 4, .negOne, .negOne, 10⟩], 2, 1⟩,
        [⟨⟨0, ⟨0⟩, "m", -1, 3, 4, .negOne, .negOne, 10⟩⟩], []⟩ : World).mon.maxMetrics ∧
    ∃ w', wrapHandler (fun _ => some (.object [("usage", .object [("prompt_tokens", .number "5"),
          ("completion_tokens", .number "7")])])) "m" "/v1/chat/completions" ⟨2000000000⟩ ⟨0⟩
        ⟨200, false, []⟩
        ([.write (asciiBytes
            "\x7b\"usage\":\x7b\"prompt_tokens\":5,\"completion_tokens\":7\x7d\x7d") true],
          none)
        ⟨⟨some [⟨0, ⟨0⟩, "m", -1, 3, 4, .negOne, .negOne, 10⟩], 2, 1⟩,
          [⟨⟨0, ⟨0⟩, "m", -1, 3, 4, .negOne, .negOne, 10⟩⟩], []⟩ = .ok (w', none) ∧
      (((none : Option String).isSome ∧ w' = ⟨⟨some [⟨0, ⟨0⟩, "m", -1, 3, 4, .negOne, .negOne, 10⟩],
          2, 1⟩, [⟨⟨0, ⟨0⟩, "m", -1, 3, 4, .negOne, .negOne, 10⟩⟩], []⟩) ∨
        ((none : Option String) = none ∧
          ((∃ x, w' = World.warn ⟨⟨some [⟨0, ⟨0⟩, "m", -1, 3, 4, .negOne, .negOne, 10⟩], 2, 1⟩,
              [⟨⟨0, ⟨0⟩, "m", -1, 3, 4, .negOne, .negOne, 10⟩⟩], []⟩ x) ∨
            ∃ tm, w' = World.afterInsert ⟨⟨some [⟨0, ⟨0⟩, "m", -1, 3, 4, .negOne, .negOne, 10⟩],
              2, 1⟩, [⟨⟨0, ⟨0⟩, "m", -1, 3, 4, .negOne, .negOne, 10⟩⟩], []⟩ tm))) :=
  ⟨by decide, by decide, wrapHandler_one_outcome _ _ _ _ _ _ (_, none) _ (by decide) (by decide)⟩

end Llmsnap.Proxy
