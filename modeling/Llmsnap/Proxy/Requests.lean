import Llmsnap.Proxy.WrapHandler

/-! # Requests through the metrics middleware

Every proxied request goes through `wrapHandler`, and the activity page reads what the monitor
kept: the ring, its IDs and the published events. Concurrent requests share only the monitor,
and meet only in `addMetrics`, whose calls `Llmsnap.Proxy.MonitorConcurrent` reduces to a
sequence; here the requests are served one after another.

* **`Request`** — what one call of `wrapHandler` is given;
* **`serveAll`** — a sequence of requests served in turn;
* **`World.Coherent`** — the events numbered `0, 1, …`, `nextID` counting them, and the ring
  holding the last `maxMetrics` of them;
* **`serveAll_coherent`** — every sequence of requests keeps the world coherent, and each request
  that `next` did not fail adds exactly one event or one warning. -/

namespace Llmsnap.Proxy

open Go Gjson

/-- One request `wrapHandler` serves: the model, `request.URL.Path`, the clock readings, gin's
writer, and what the proxy handler `next` does on the recorder and returns. -/
structure Request where
  /-- `modelID`: the model the request is served by. -/
  modelID : String
  /-- `request.URL.Path`: the request's path, which the warnings name. -/
  path : String
  /-- `time.Since(start)` when `parseMetrics` reads the clock. -/
  since : Duration
  /-- `time.Now()` for the `Timestamp`. -/
  now : Time
  /-- gin's `ResponseWriter`. -/
  writer : Gin.ResponseWriter
  /-- The calls `next` makes on the recorder, and its error. -/
  next : List WriterCall × Option String

/-- One request served: the world after it; the error goes back to gin. -/
def serve (decode : Decoder) (w : World) (req : Request) : Except Panic World :=
  (·.1) <$> wrapHandler decode req.modelID req.path req.since req.now req.writer req.next w

/-- Requests served one after another. -/
def serveAll (decode : Decoder) (w : World) (reqs : List Request) : Except Panic World :=
  reqs.foldlM (serve decode) w

/-- **What the activity page reads is consistent**: the published events carry the IDs
`0, 1, …` in order, `nextID` counts them, and the ring holds the last `maxMetrics` of them. -/
structure World.Coherent (maxMetrics : Int) (w : World) : Prop where
  /-- The capacity never changes. -/
  maxMetrics_eq : w.mon.maxMetrics = maxMetrics
  /-- The `k`-th event carries `ID` `k`. -/
  ids_eq : ∀ (k : Nat) (e : TokenMetricsEvent), w.events[k]? = some e → e.metrics.id = k
  /-- `nextID` counts the events. -/
  nextID_eq : w.mon.nextID = w.events.length
  /-- The ring is the last `maxMetrics` events. -/
  ring_eq : w.mon.metrics.elems = window maxMetrics (w.events.map (·.metrics))

variable {maxMetrics : Int} {w : World}

theorem World.coherent_start (maxMetrics : Int) (warnings : List MetricsWarning) :
    World.Coherent maxMetrics ⟨newMetricsMonitor maxMetrics, [], warnings⟩ where
  maxMetrics_eq := rfl
  ids_eq _ _ h := by simp at h
  nextID_eq := rfl
  ring_eq := by simp [newMetricsMonitor, Slice.elems]

/-- A warning leaves the monitor and the events alone. -/
theorem World.Coherent.warn (hw : w.Coherent maxMetrics) (x : MetricsWarning) :
    (w.warn x).Coherent maxMetrics :=
  { hw with }

/-- An insert numbers its metric with `nextID`, the count of the events so far. -/
theorem World.Coherent.afterInsert (hw : w.Coherent maxMetrics) (tm : TokenMetrics) :
    (w.afterInsert tm).Coherent maxMetrics where
  maxMetrics_eq := hw.maxMetrics_eq
  ids_eq k e h := by
    simp only [World.afterInsert] at h
    by_cases hk : k < w.events.length
    · rw [List.getElem?_append_left hk] at h
      exact hw.ids_eq k e h
    · rw [List.getElem?_append_right (by omega)] at h
      cases hkl : k - w.events.length with
      | zero =>
        simp only [hkl, List.getElem?_cons_zero, Option.some.injEq] at h
        subst h
        simp only [hw.nextID_eq]
        omega
      | succ n => simp [hkl] at h
  nextID_eq := by simp [World.afterInsert, hw.nextID_eq]
  ring_eq := by
    simp only [World.afterInsert, Slice.elems_some, List.map_append, List.map_cons, List.map_nil]
    rw [hw.ring_eq, hw.maxMetrics_eq, ← window_concat]

/-- **One request keeps the world coherent**, never panics, and adds one event or one warning
exactly when `next` did not fail. -/
theorem World.Coherent.serve_step (h0 : 0 ≤ maxMetrics) (hw : w.Coherent maxMetrics) (decode : Decoder)
    (req : Request) :
    ∃ w', serve decode w req = .ok w' ∧ w'.Coherent maxMetrics ∧
      w'.events.length + w'.warnings.length =
        w.events.length + w.warnings.length + (if req.next.2.isNone then 1 else 0) := by
  obtain ⟨modelID, path, since, now, writer, calls, err⟩ := req
  cases err with
  | some e => exact ⟨w, rfl, hw, by simp⟩
  | none =>
    obtain ⟨w', h, hw'⟩ := recordMetrics_outcome decode modelID path since now
      (runHandler writer calls) (by rw [hw.maxMetrics_eq]; exact h0)
      (by rw [hw.ring_eq, hw.maxMetrics_eq]; exact length_window_le h0 _)
    refine ⟨w', by simp only [serve, wrapHandler, h]; rfl, ?_⟩
    rcases hw' with ⟨x, rfl⟩ | ⟨tm, rfl⟩
    · exact ⟨hw.warn x, by simp [World.warn]; omega⟩
    · exact ⟨hw.afterInsert tm, by simp [World.afterInsert]; omega⟩

/-- **Every sequence of requests keeps the world coherent**, by induction on the requests. -/
theorem World.Coherent.serve_all (h0 : 0 ≤ maxMetrics) (decode : Decoder) :
    ∀ (reqs : List Request) {w : World}, w.Coherent maxMetrics →
      ∃ w', serveAll decode w reqs = .ok w' ∧ w'.Coherent maxMetrics ∧
        w'.events.length + w'.warnings.length =
          w.events.length + w.warnings.length + (reqs.filter (·.next.2.isNone)).length
  | [], w, hw => ⟨w, rfl, hw, by simp⟩
  | req :: reqs, w, hw => by
    obtain ⟨w₁, h₁, hw₁, hlen₁⟩ := hw.serve_step h0 decode req
    obtain ⟨w₂, h₂, hw₂, hlen₂⟩ := World.Coherent.serve_all h0 decode reqs hw₁
    refine ⟨w₂, by simp only [serveAll, List.foldlM_cons, h₁]; exact h₂, hw₂, ?_⟩
    rw [hlen₂, hlen₁, List.filter_cons]
    by_cases hn : req.next.2.isNone <;> simp [hn]
    omega

/-- Metrics already numbered by position are their own numbering. -/
theorem withIDs_of_ids {l : List TokenMetrics} (h : ∀ (k : Nat) (m : TokenMetrics), l[k]? = some m → m.id = k) :
    withIDs l = l := by
  refine List.ext_getElem (by simp) fun k h1 h2 => ?_
  have hk := h k l[k] (List.getElem?_eq_getElem h2)
  simp only [withIDs, List.getElem_mapIdx]
  rw [← hk]

/-- **The metrics pipeline over any sequence of requests.** For every capacity `maxMetrics ≥ 0` and
every sequence of requests, whatever their handlers do, serving them from a new monitor never
panics; the published events carry the IDs `0, 1, …` in order, `nextID` counts them, and the ring
holds the last `min(n, maxMetrics)` of the `n` events with the IDs `n - min(n, maxMetrics), …,
n - 1`; and each request whose handler returned no error added exactly one event or one warning. -/
theorem serveAll_coherent (decode : Decoder) {maxMetrics : Int} (h0 : 0 ≤ maxMetrics)
    (reqs : List Request) :
    ∃ w, serveAll decode ⟨newMetricsMonitor maxMetrics, [], []⟩ reqs = .ok w ∧
      (∀ (k : Nat) (e : TokenMetricsEvent), w.events[k]? = some e → e.metrics.id = k) ∧
      w.mon.nextID = w.events.length ∧
      w.mon.metrics.elems = window maxMetrics (w.events.map (·.metrics)) ∧
      w.mon.metrics.elems.map (·.id) =
        (List.range' (w.events.length - maxMetrics.toNat)
          (min w.events.length maxMetrics.toNat)).map (↑) ∧
      w.events.length + w.warnings.length = (reqs.filter (·.next.2.isNone)).length := by
  obtain ⟨w, h, hw, hlen⟩ := (World.coherent_start maxMetrics []).serve_all h0 decode reqs
  have hids : withIDs (w.events.map (·.metrics)) = w.events.map (·.metrics) :=
    withIDs_of_ids fun k m hm => by
      rw [List.getElem?_map, Option.map_eq_some'] at hm
      obtain ⟨e, he, rfl⟩ := hm
      exact hw.ids_eq k e he
  refine ⟨w, h, hw.ids_eq, hw.nextID_eq, hw.ring_eq, ?_, by simpa using hlen⟩
  rw [hw.ring_eq, ← hids, window_withIDs_ids, List.length_map]

/-- At capacity `1`, two requests whose body `{}` decodes to a completion with its `usage`, so that
the second insert drops the first from the ring; a request answered with `500`, logged; and one
whose `next` failed. -/
theorem serveAll_coherent_trimmed :
    (0 : Int) ≤ 1 ∧
    ∃ w, serveAll
        (fun _ => some (.object [("usage", .object [("completion_tokens", .number "7")])]))
        ⟨newMetricsMonitor 1, [], []⟩
        [⟨"m", "/v1/completions", ⟨2000000000⟩, ⟨0⟩, ⟨200, false, []⟩,
           ([.write [123, 125] true], none)⟩,
         ⟨"m", "/v1/completions", ⟨1000000000⟩, ⟨5⟩, ⟨200, false, []⟩,
           ([.write [123, 125] true], none)⟩,
         ⟨"m", "/v1/completions", ⟨0⟩, ⟨9⟩, ⟨200, false, []⟩,
           ([.writeHeader 500, .write [123, 125] true], none)⟩,
         ⟨"m", "/v1/completions", ⟨0⟩, ⟨9⟩, ⟨200, false, []⟩, ([], some "upstream")⟩] = .ok w ∧
      (∀ (k : Nat) (e : TokenMetricsEvent), w.events[k]? = some e → e.metrics.id = k) ∧
      w.mon.nextID = w.events.length ∧
      w.mon.metrics.elems = window 1 (w.events.map (·.metrics)) ∧
      w.mon.metrics.elems.map (·.id) =
        (List.range' (w.events.length - (1 : Int).toNat)
          (min w.events.length (1 : Int).toNat)).map (↑) ∧
      w.events.length + w.warnings.length =
        (([⟨"m", "/v1/completions", ⟨2000000000⟩, ⟨0⟩, ⟨200, false, []⟩,
             ([.write [123, 125] true], none)⟩,
           ⟨"m", "/v1/completions", ⟨1000000000⟩, ⟨5⟩, ⟨200, false, []⟩,
             ([.write [123, 125] true], none)⟩,
           ⟨"m", "/v1/completions", ⟨0⟩, ⟨9⟩, ⟨200, false, []⟩,
             ([.writeHeader 500, .write [123, 125] true], none)⟩,
           ⟨"m", "/v1/completions", ⟨0⟩, ⟨9⟩, ⟨200, false, []⟩, ([], some "upstream")⟩] :
            List Request).filter (·.next.2.isNone)).length :=
  ⟨by decide, serveAll_coherent _ (by decide) _⟩

end Llmsnap.Proxy
