import Mathlib.Data.List.Basic
import Llmsnap.Proxy.ParseMetrics

/-! # The metrics ring

`metricsMonitor` of `proxy/metrics_monitor.go` keeps the last `maxMetrics` token metrics it was
given, numbers them from `0`, and publishes each one as a `TokenMetricsEvent`. Every method holds
the monitor's mutex for its whole body. This file gives the methods as they run once the lock is
held, and what a sequence of whole calls computes; `Llmsnap.Proxy.MonitorConcurrent` interleaves
the statements of concurrent calls and reduces every interleaving to such a sequence.

* **`MetricsMonitor.addMetrics`**, **`getMetrics`**, **`getMetricsJSON`** — the three methods;
* **`runCalls`** — a sequence of calls, each taken whole, with what each one emits or returns;
* **`Coherent`** — what a sequence leaves behind: the emitted events numbered `0, 1, …` in
  insertion order, the ring holding the last `maxMetrics` of them, and every read returning the
  ring of its time;
* **`runCalls_coherent`** — every sequence of calls from `newMetricsMonitor` is coherent when
  `maxMetrics ≥ 0`; with a negative capacity the first insert panics (`trimMetrics_of_neg`). -/

namespace Llmsnap.Proxy

open Go

/-- `TokenMetricsEvent`: what `addMetrics` publishes with `event.Emit`. -/
structure TokenMetricsEvent where
  /-- `Metrics`: the metric inserted, numbered with its `ID`. -/
  metrics : TokenMetrics
  deriving DecidableEq, Repr

/-- The fields of `metricsMonitor` that its methods read and write. The mutex is modelled in
`Llmsnap.Proxy.MonitorConcurrent` by the goroutines that hold it; the logger serves `wrapHandler`
only. -/
structure MetricsMonitor where
  /-- `metrics`: `nil` until the first insert. -/
  metrics : Slice TokenMetrics
  /-- `maxMetrics`: how many metrics the ring keeps. -/
  maxMetrics : Int
  /-- `nextID`: the `ID` the next insert receives. -/
  nextID : Int
  deriving DecidableEq, Repr

/-- `newMetricsMonitor(logger, maxMetrics)`: no metrics, numbering from `0`. -/
def newMetricsMonitor (maxMetrics : Int) : MetricsMonitor := ⟨none, maxMetrics, 0⟩

namespace MetricsMonitor

/-- `if len(mp.metrics) > mp.maxMetrics { mp.metrics = mp.metrics[len(mp.metrics)-mp.maxMetrics:] }`.
The subtraction is on Go's 64-bit `int` and wraps. A negative `maxMetrics` puts the low bound out of
range, past the end or, where the subtraction wraps, below zero: the slice expression panics. -/
def trimMetrics (mp : MetricsMonitor) : Except Panic MetricsMonitor := do
  let l := mp.metrics.elems
  if mp.maxMetrics < l.length then
    let kept ← slice l (wrapInt64 (l.length - mp.maxMetrics)) l.length
    pure { mp with metrics := some kept }
  else pure mp

/-- **`addMetrics(metric)`** with the lock held: number the metric with `nextID`, append it, drop
the oldest beyond `maxMetrics`, and publish it. -/
def addMetrics (mp : MetricsMonitor) (metric : TokenMetrics) :
    Except Panic (MetricsMonitor × TokenMetricsEvent) := do
  let metric := { metric with id := mp.nextID }
  let mp := { mp with nextID := mp.nextID + 1 }
  let mp := { mp with metrics := some (mp.metrics.elems ++ [metric]) }
  let mp ← mp.trimMetrics
  pure (mp, ⟨metric⟩)

/-- `getMetrics()`: a copy of the ring, in a fresh slice that is never `nil`. -/
def getMetrics (mp : MetricsMonitor) : List TokenMetrics := mp.metrics.elems

/-- `getMetricsJSON()`: `json.Marshal(mp.metrics)`. The encoder is a parameter; it sees whether
the slice is `nil`, which `encoding/json` writes as `null`. -/
def getMetricsJSON (marshal : Slice TokenMetrics → Except String Bytes) (mp : MetricsMonitor) :
    Except String Bytes :=
  marshal mp.metrics

end MetricsMonitor

/-! ### Sequences of calls -/

/-- A call of one of the monitor's methods. -/
inductive Call where
  /-- `addMetrics(metric)`. -/
  | addMetrics (metric : TokenMetrics)
  /-- `getMetrics()`. -/
  | getMetrics
  /-- `getMetricsJSON()`. -/
  | getMetricsJSON
  deriving DecidableEq, Repr

/-- What a call makes visible outside the monitor. -/
inductive Obs where
  /-- `event.Emit(TokenMetricsEvent{Metrics: metric})`. -/
  | emit (event : TokenMetricsEvent)
  /-- The slice `getMetrics` returns. -/
  | snapshot (metrics : List TokenMetrics)
  /-- What `getMetricsJSON` returns. -/
  | json (result : Except String Bytes)

variable (marshal : Slice TokenMetrics → Except String Bytes)

/-- One call, whole, with what it makes visible. -/
def MetricsMonitor.call (mp : MetricsMonitor) : Call → Except Panic (MetricsMonitor × Obs)
  | .addMetrics metric => (fun r => (r.1, .emit r.2)) <$> mp.addMetrics metric
  | .getMetrics => pure (mp, .snapshot mp.getMetrics)
  | .getMetricsJSON => pure (mp, .json (mp.getMetricsJSON marshal))

/-- One call appended to a run: the monitor it leaves and the observations so far. -/
def record (st : MetricsMonitor × List Obs) (c : Call) : Except Panic (MetricsMonitor × List Obs) :=
  (fun r => (r.1, st.2 ++ [r.2])) <$> st.1.call marshal c

/-- **A sequence of calls**, each run whole, from the monitor `mp`: the monitor it leaves and what
the calls made visible, in order. -/
def runCalls (mp : MetricsMonitor) (calls : List Call) : Except Panic (MetricsMonitor × List Obs) :=
  calls.foldlM (record marshal) (mp, [])

theorem runCalls_append (mp : MetricsMonitor) (calls : List Call) (c : Call) :
    runCalls marshal mp (calls ++ [c]) = runCalls marshal mp calls >>= (record marshal · c) := by
  simp [runCalls, List.foldlM_append]

/-! ### What a run leaves behind -/

/-- The metrics published by `event.Emit`, in order. -/
def emitted (hist : List Obs) : List TokenMetrics :=
  hist.filterMap fun | .emit e => some e.metrics | _ => none

/-- The metrics given to `addMetrics`, in the order of the calls. -/
def inserted (calls : List Call) : List TokenMetrics :=
  calls.filterMap fun | .addMetrics m => some m | _ => none

/-- The `k`-th metric with its `ID` replaced by `k`. -/
def withIDs (l : List TokenMetrics) : List TokenMetrics :=
  l.mapIdx fun k m => { m with id := k }

/-- The last `min(len(l), maxMetrics)` elements of `l`. -/
def window {α : Type} (maxMetrics : Int) (l : List α) : List α :=
  l.drop (l.length - maxMetrics.toNat)

@[simp] theorem emitted_nil : emitted [] = [] := rfl

@[simp] theorem emitted_concat (hist : List Obs) (o : Obs) :
    emitted (hist ++ [o]) = emitted hist ++ (match o with | .emit e => [e.metrics] | _ => []) := by
  cases o <;> simp [emitted]

@[simp] theorem inserted_concat (calls : List Call) (c : Call) :
    inserted (calls ++ [c]) = inserted calls ++ (match c with | .addMetrics m => [m] | _ => []) := by
  cases c <;> simp [inserted]

@[simp] theorem length_withIDs (l : List TokenMetrics) : (withIDs l).length = l.length :=
  List.length_mapIdx

@[simp] theorem window_nil {α : Type} (maxMetrics : Int) : window maxMetrics ([] : List α) = [] := by
  simp [window]

/-- Keeping the last `maxMetrics` after each append is keeping the last `maxMetrics` of all. -/
theorem window_concat {α : Type} (maxMetrics : Int) (l : List α) (x : α) :
    window maxMetrics (l ++ [x]) = window maxMetrics (window maxMetrics l ++ [x]) := by
  simp only [window, List.length_append, List.length_singleton, List.length_drop,
    List.drop_append_eq_append_drop, List.drop_drop]
  congr 2 <;> omega

/-- The kept metrics carry the consecutive IDs `m - min(m, maxMetrics), …, m - 1`. -/
theorem window_withIDs_ids (maxMetrics : Int) (l : List TokenMetrics) :
    (window maxMetrics (withIDs l)).map (·.id) =
      (List.range' (l.length - maxMetrics.toNat) (min l.length maxMetrics.toNat)).map (↑) := by
  apply List.ext_getElem
  · simp [window]; omega
  · intro i h1 h2
    simp [window, withIDs, List.getElem_drop]

/-- **What every read of a run returns**, given the metrics emitted before it: `getMetrics` the
ring of that time, `getMetricsJSON` the encoding of it, `nil` before the first insert. -/
def Obs.Fresh (maxMetrics : Int) (before : List TokenMetrics) : Obs → Prop
  | .emit _ => True
  | .snapshot l => l = window maxMetrics before
  | .json r => r = marshal (if before = [] then none else some (window maxMetrics before))

/-- **The state of a run of `calls` from `newMetricsMonitor maxMetrics`**, with what it made
visible: the events carry the inserted metrics numbered in insertion order, `nextID` counts the
inserts, the ring is `nil` before the first insert and then the last `maxMetrics` events, and every
read returned the ring of its time. -/
structure Coherent (maxMetrics : Int) (calls : List Call) (mp : MetricsMonitor) (hist : List Obs) :
    Prop where
  /-- The capacity never changes. -/
  maxMetrics_eq : mp.maxMetrics = maxMetrics
  /-- `nextID` counts the inserts. -/
  nextID_eq : mp.nextID = (inserted calls).length
  /-- The events carry the inserted metrics, numbered from `0` in insertion order. -/
  emitted_eq : emitted hist = withIDs (inserted calls)
  /-- The ring is `nil` before the first insert, then the last `maxMetrics` events. -/
  metrics_eq : mp.metrics = if emitted hist = [] then none else some (window maxMetrics (emitted hist))
  /-- Every read returned the ring of its time. -/
  fresh : ∀ pre o post, hist = pre ++ o :: post → o.Fresh marshal maxMetrics (emitted pre)

/-- An element of `hist ++ [x]` is `x` or an element of `hist`, with what stands before it. -/
theorem eq_or_mem_of_append_cons_eq_concat {α : Type} {pre post hist : List α} {o x : α}
    (h : pre ++ o :: post = hist ++ [x]) :
    (pre = hist ∧ o = x) ∨ ∃ post', hist = pre ++ o :: post' := by
  rcases List.eq_nil_or_concat post with rfl | ⟨post', y, rfl⟩
  · obtain ⟨h1, h2⟩ := List.append_inj' h rfl
    exact .inl ⟨h1, List.head_eq_of_cons_eq h2⟩
  · have h' : (pre ++ o :: post') ++ [y] = hist ++ [x] := by simpa using h
    exact .inr ⟨post', (List.append_inj' h' rfl).1.symm⟩

/-- A window holds at most `maxMetrics` elements. -/
theorem length_window_le {α : Type} {maxMetrics : Int} (h0 : 0 ≤ maxMetrics) (l : List α) :
    ((window maxMetrics l).length : Int) ≤ maxMetrics := by
  simp only [window, List.length_drop]
  omega

/-- With `maxMetrics ≥ 0` the trim keeps the last `maxMetrics` metrics of a non-`nil` ring one
longer than the capacity at most, as the ring is after an append. -/
theorem trimMetrics_some {maxMetrics : Int} (h0 : 0 ≤ maxMetrics) {l : List TokenMetrics}
    (hl : (l.length : Int) ≤ maxMetrics + 1) (nextID : Int) :
    (MetricsMonitor.mk (some l) maxMetrics nextID).trimMetrics =
      .ok ⟨some (window maxMetrics l), maxMetrics, nextID⟩ := by
  unfold MetricsMonitor.trimMetrics
  simp only [Slice.elems_some]
  split_ifs with h
  · rw [wrapInt64_of_mem (by omega) (by omega), slice_of_le (by omega) (by omega) le_rfl]
    simp only [bind, Except.bind, pure, Except.pure, Int.toNat_natCast, List.take_length, window]
    congr 4
    omega
  · rw [window, Nat.sub_eq_zero_of_le (by omega), List.drop_zero]
    rfl

/-- **The spec of `addMetrics`** for `maxMetrics ≥ 0` and a ring within its capacity: the metric
numbered with `nextID` is appended, the ring keeps its last `maxMetrics` entries, and the numbered
metric is published. -/
theorem addMetrics_of_nonneg {mp : MetricsMonitor} (h0 : 0 ≤ mp.maxMetrics)
    (hlen : (mp.metrics.elems.length : Int) ≤ mp.maxMetrics) (metric : TokenMetrics) :
    mp.addMetrics metric =
      .ok ({ mp with
              metrics := some (window mp.maxMetrics (mp.metrics.elems ++ [{ metric with id := mp.nextID }]))
              nextID := mp.nextID + 1 },
           ⟨{ metric with id := mp.nextID }⟩) := by
  have hl : ((mp.metrics.elems ++ [{ metric with id := mp.nextID }]).length : Int) ≤
      mp.maxMetrics + 1 := by
    simp only [List.length_append, List.length_singleton]
    omega
  simp only [MetricsMonitor.addMetrics, bind, Except.bind, trimMetrics_some h0 hl]
  rfl

/-- With a negative `int64` capacity the trim's low bound `1 - maxMetrics` is out of range for a
ring of one metric: past its end, or below zero where the subtraction wraps
(`maxMetrics = math.MinInt64`). -/
theorem wrapInt64_one_sub_out_of_range {maxMetrics : Int} (hlo : -2 ^ 63 ≤ maxMetrics)
    (hneg : maxMetrics < 0) : wrapInt64 (1 - maxMetrics) < 0 ∨ 1 < wrapInt64 (1 - maxMetrics) := by
  unfold wrapInt64
  omega

/-- **The first insert into a monitor of negative capacity panics**: the ring of the one metric
appended is longer than the capacity, and the trim's slice expression is out of range. -/
theorem trimMetrics_of_neg {mp : MetricsMonitor} (hlo : -2 ^ 63 ≤ mp.maxMetrics)
    (hneg : mp.maxMetrics < 0) {m : TokenMetrics} (hm : mp.metrics = some [m]) :
    mp.trimMetrics = .error (.sliceBounds (wrapInt64 (1 - mp.maxMetrics)) 1 1) := by
  have hout := wrapInt64_one_sub_out_of_range hlo hneg
  simp only [MetricsMonitor.trimMetrics, hm, Slice.elems_some, List.length_singleton, Nat.cast_one,
    if_pos (show mp.maxMetrics < 1 by omega), Go.slice, bind, Except.bind]
  rw [if_neg (by omega)]

/-- The ring of a coherent run is the last `maxMetrics` events, `nil` being empty. -/
theorem Coherent.elems_eq {maxMetrics : Int} {calls : List Call} {mp : MetricsMonitor}
    {hist : List Obs} (hc : Coherent marshal maxMetrics calls mp hist) :
    mp.metrics.elems = window mp.maxMetrics (emitted hist) := by
  rw [hc.metrics_eq, hc.maxMetrics_eq]
  split <;> simp [*]

/-- The ring of a coherent run holds at most `maxMetrics` metrics. -/
theorem Coherent.length_le {maxMetrics : Int} {calls : List Call} {mp : MetricsMonitor}
    {hist : List Obs} (hc : Coherent marshal maxMetrics calls mp hist) (h0 : 0 ≤ mp.maxMetrics) :
    (mp.metrics.elems.length : Int) ≤ mp.maxMetrics := by
  rw [hc.elems_eq]
  exact length_window_le h0 _

/-- A read that returns what `Obs.Fresh` says keeps every read of the run fresh. -/
theorem Coherent.fresh_concat {maxMetrics : Int} {calls : List Call} {mp : MetricsMonitor}
    {hist : List Obs} (hc : Coherent marshal maxMetrics calls mp hist) {o : Obs}
    (ho : o.Fresh marshal maxMetrics (emitted hist)) :
    ∀ pre o' post, hist ++ [o] = pre ++ o' :: post → o'.Fresh marshal maxMetrics (emitted pre) := by
  intro pre o' post h
  rcases eq_or_mem_of_append_cons_eq_concat h.symm with ⟨rfl, rfl⟩ | ⟨post', hp⟩
  · exact ho
  · exact hc.fresh pre o' post' hp

/-- **One more call keeps a run coherent**, and never panics when `maxMetrics ≥ 0`. -/
theorem Coherent.step {maxMetrics : Int} (h0 : 0 ≤ maxMetrics) {calls : List Call}
    {mp : MetricsMonitor} {hist : List Obs} (hc : Coherent marshal maxMetrics calls mp hist)
    (c : Call) :
    ∃ r, record marshal (mp, hist) c = .ok r ∧ Coherent marshal maxMetrics (calls ++ [c]) r.1 r.2 := by
  cases c with
  | addMetrics m =>
    rw [← hc.maxMetrics_eq] at h0
    simp only [record, MetricsMonitor.call, addMetrics_of_nonneg h0 (hc.length_le marshal h0)]
    refine ⟨_, rfl, hc.maxMetrics_eq, by simp [hc.nextID_eq], ?_, ?_, hc.fresh_concat marshal trivial⟩
    · simp only [emitted_concat, inserted_concat, hc.emitted_eq, withIDs, List.mapIdx_concat,
        hc.nextID_eq]
    · simp [hc.maxMetrics_eq, hc.elems_eq, ← window_concat]
  | getMetrics =>
    refine ⟨_, rfl, hc.maxMetrics_eq, by simp [hc.nextID_eq], by simp [hc.emitted_eq],
      by simp [hc.metrics_eq], hc.fresh_concat marshal ?_⟩
    simp [Obs.Fresh, MetricsMonitor.getMetrics, hc.elems_eq, hc.maxMetrics_eq]
  | getMetricsJSON =>
    refine ⟨_, rfl, hc.maxMetrics_eq, by simp [hc.nextID_eq], by simp [hc.emitted_eq],
      by simp [hc.metrics_eq], hc.fresh_concat marshal ?_⟩
    simp [Obs.Fresh, MetricsMonitor.getMetricsJSON, hc.metrics_eq]

/-- **Every sequence of calls from `newMetricsMonitor maxMetrics`, `maxMetrics ≥ 0`, runs without
panicking and is coherent.** -/
theorem runCalls_coherent {maxMetrics : Int} (h0 : 0 ≤ maxMetrics) (calls : List Call) :
    ∃ mp hist, runCalls marshal (newMetricsMonitor maxMetrics) calls = .ok (mp, hist) ∧
      Coherent marshal maxMetrics calls mp hist := by
  induction calls using List.reverseRecOn with
  | nil => exact ⟨_, _, rfl, ⟨rfl, rfl, rfl, rfl, fun pre o post h => by simp at h⟩⟩
  | append_singleton calls c ih =>
    obtain ⟨mp, hist, hrun, hc⟩ := ih
    obtain ⟨r, hr, hc'⟩ := hc.step marshal h0 c
    exact ⟨r.1, r.2, by rw [runCalls_append, hrun]; exact hr, hc'⟩

end Llmsnap.Proxy
