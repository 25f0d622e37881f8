import Llmsnap.Proxy.Requests
import Llmsnap.Proxy.MonitorConcurrent

/-! # Concurrent requests are served as if one after another

Each request runs `wrapHandler` on a goroutine of its own, and these goroutines share only the
monitor. Once `next` returned, `wrapHandler` reads its own recorder and decides, before it takes any
lock, whether to log a warning or to insert a metric; only the insert takes `mp.mu`. A goroutine
serving requests in turn therefore calls the monitor once for each request that inserts, and the
goroutines meet only in `addMetrics`, whose interleavings `Llmsnap.Proxy.MonitorConcurrent` models
statement by statement. The logger has a lock of its own and its lines are left out here.

* **`recordDecision`** — the body of `wrapHandler` after `next`, without its effect: the warning or
  the metric, read off the recorder alone (`recordMetrics_eq_decision`);
* **`Request.calls`** — the monitor call a request makes;
* **`serveAll_runCalls`** — serving requests in turn is running their calls on the monitor, the
  events being what the calls emit;
* **`weave`** — the requests of all goroutines merged in the order their inserts took the lock;
* **`serveConcurrent_eq_serveAll`** — every run of goroutines serving requests, once each has
  served its own, leaves the monitor and the events that serving all the requests one after another
  leaves, in an order that keeps each goroutine's requests in its own order. -/

namespace Llmsnap.Proxy

open Go Gjson

/-! ### The decision before the lock -/

/-- **What `wrapHandler` decides once `next` returned `nil`**, read off the recorder alone: the
warning to log (`Except.error`) or the metric to give `addMetrics` (`Except.ok`). The branches are
those of `recordMetrics`. -/
def recordDecision (decode : Decoder) (modelID path : String) (since : Duration) (now : Time)
    (r : ResponseBodyCopier) : Except Panic (Except MetricsWarning TokenMetrics) :=
  if r.writer.status ≠ 200 then .ok (.error (.status r.writer.status path r.body))
  else if r.body.length = 0 then .ok (.error .emptyBody)
  else if Strings.contains (r.writer.header.get "Content-Type") "text/event-stream" then
    processStreamingResponse decode modelID since now r.body >>= fun
      | .error e => .ok (.error (.streaming e path))
      | .ok tm => .ok (.ok tm)
  else
    match decode r.body with
    | some doc =>
      match parseMetrics modelID since now ((parseBytes doc).get "usage")
          ((parseBytes doc).get "timings") with
      | .error e => .ok (.error (.parsing e path))
      | .ok tm => .ok (.ok tm)
    | none => .ok (.error (.invalidJSON path))

/-- A decision carried out: the warning logged, or `mp.addMetrics(tm)`. -/
def World.apply (w : World) : Except MetricsWarning TokenMetrics → Except Panic World
  | .error x => .ok (w.warn x)
  | .ok tm => w.addMetrics tm

/-- **`recordMetrics` decides, then acts**: the world is read by the action only. -/
theorem recordMetrics_eq_decision (decode : Decoder) (modelID path : String) (since : Duration)
    (now : Time) (r : ResponseBodyCopier) (w : World) :
    recordMetrics decode modelID path since now r w =
      (fun w' => (w', none)) <$> (recordDecision decode modelID path since now r >>= w.apply) := by
  unfold recordMetrics recordDecision
  split_ifs
  · rfl
  · rfl
  · cases processStreamingResponse decode modelID since now r.body with
    | error p => rfl
    | ok res => cases res <;> rfl
  · cases decode r.body with
    | none => rfl
    | some doc =>
      cases parseMetrics modelID since now ((parseBytes doc).get "usage")
        ((parseBytes doc).get "timings") <;> rfl

/-- The decision never panics: the scan of an event stream stays in bounds. -/
theorem recordDecision_ok (decode : Decoder) (modelID path : String) (since : Duration)
    (now : Time) (r : ResponseBodyCopier) :
    ∃ d, recordDecision decode modelID path since now r = .ok d := by
  unfold recordDecision
  split_ifs
  · exact ⟨_, rfl⟩
  · exact ⟨_, rfl⟩
  · by_cases hp : streamPayloads decode r.body = []
    · rw [(processStreamingResponse_result decode modelID since now r.body).2 hp]
      exact ⟨_, rfl⟩
    · obtain ⟨tm, htm⟩ := (processStreamingResponse_result decode modelID since now r.body).1 hp
      rw [htm]
      exact ⟨_, rfl⟩
  · split
    · split <;> exact ⟨_, rfl⟩
    · exact ⟨_, rfl⟩

/-- **The monitor call a request makes**: `addMetrics` with the metric `wrapHandler` decided on,
when `next` returned `nil` and the decision is an insert; none otherwise. -/
def Request.calls (decode : Decoder) (req : Request) : List Call :=
  match req.next.2, recordDecision decode req.modelID req.path req.since req.now
      (runHandler req.writer req.next.1) with
  | none, .ok (.ok tm) => [.addMetrics tm]
  | _, _ => []

/-- A request calls the monitor at most once. -/
theorem Request.calls_length_le (decode : Decoder) (req : Request) :
    (req.calls decode).length ≤ 1 := by
  unfold Request.calls
  split <;> simp

/-! ### Requests in turn are their calls in turn -/

variable (marshal : Slice TokenMetrics → Except String Bytes)

/-- What the monitor's calls see of a world: the monitor, and the events as emitted. -/
def World.view (w : World) : MetricsMonitor × List Obs := (w.mon, w.events.map .emit)

/-- **One request served is its call run on the monitor.** -/
theorem serve_runCalls (decode : Decoder) (w : World) (req : Request) :
    (req.calls decode).foldlM (record marshal) w.view = World.view <$> serve decode w req := by
  obtain ⟨modelID, path, since, now, writer, calls, err⟩ := req
  cases err with
  | some e => rfl
  | none =>
    obtain ⟨d, hd⟩ := recordDecision_ok decode modelID path since now (runHandler writer calls)
    simp only [Request.calls, serve, wrapHandler, recordMetrics_eq_decision, hd]
    cases d with
    | error x => rfl
    | ok tm =>
      simp only [List.foldlM_cons, List.foldlM_nil, record, MetricsMonitor.call, World.view,
        bind, Except.bind, World.apply, World.addMetrics]
      cases w.mon.addMetrics tm with
      | error p => rfl
      | ok r => simp [World.view, Functor.map, Except.map, pure, Except.pure]

/-- **Requests served in turn are their calls run in turn**, from any world. -/
theorem serveAll_runCalls (decode : Decoder) :
    ∀ (reqs : List Request) (w : World),
      (reqs.flatMap (Request.calls decode)).foldlM (record marshal) w.view =
        World.view <$> serveAll decode w reqs
  | [], _ => rfl
  | req :: reqs, w => by
    rw [List.flatMap_cons, List.foldlM_append, serve_runCalls]
    simp only [serveAll, List.foldlM_cons]
    cases serve decode w req with
    | error p => rfl
    | ok w₁ => exact serveAll_runCalls decode reqs w₁

/-! ### The requests in the order of the lock -/

variable {α : Type}

/-- The elements of goroutine `i`, in order, out of a list tagged with goroutine numbers. -/
def ofGoroutine (tagged : List (Nat × α)) (i : Nat) : List α :=
  (tagged.filter (·.1 == i)).map (·.2)

/-- A goroutine's elements up to and including the first that calls the monitor, and the rest. -/
def splitAtCall (calls : α → List Call) : List α → List α × List α
  | [] => ([], [])
  | a :: as =>
    if calls a = [] then
      let p := splitAtCall calls as
      (a :: p.1, p.2)
    else ([a], as)

/-- Every goroutine's elements, tagged, goroutine by goroutine from number `i`. -/
def tagFrom : Nat → List (List α) → List (Nat × α)
  | _, [] => []
  | i, p :: ps => p.map (i, ·) ++ tagFrom (i + 1) ps

/-- **The elements merged in the order of the lock**: for each call that took the lock, made by
goroutine `i`, goroutine `i`'s elements up to the one that made it; then those left, goroutine by
goroutine. -/
def weave (calls : α → List Call) : List (List α) → List Nat → List (Nat × α)
  | progs, [] => tagFrom 0 progs
  | progs, i :: locks =>
    let p := splitAtCall calls (progs[i]?.getD [])
    p.1.map (i, ·) ++ weave calls (progs.set i p.2) locks

@[simp] theorem ofGoroutine_append (l l' : List (Nat × α)) (i : Nat) :
    ofGoroutine (l ++ l') i = ofGoroutine l i ++ ofGoroutine l' i := by
  simp [ofGoroutine]

@[simp] theorem ofGoroutine_map (l : List α) (i j : Nat) :
    ofGoroutine (l.map (i, ·)) j = if i = j then l else [] := by
  by_cases h : i = j <;> simp [ofGoroutine, h, List.filter_map, Function.comp_def]

theorem splitAtCall_append (calls : α → List Call) :
    ∀ l : List α, (splitAtCall calls l).1 ++ (splitAtCall calls l).2 = l
  | [] => rfl
  | a :: as => by
    unfold splitAtCall
    split_ifs
    · simp [splitAtCall_append calls as]
    · rfl

/-- Split at its first call, a goroutine's elements keep that call before the split and the rest
after it. -/
theorem splitAtCall_calls {calls : α → List Call} (h1 : ∀ a, (calls a).length ≤ 1) {c : Call}
    {cs : List Call} :
    ∀ {l : List α}, l.flatMap calls = c :: cs →
      (splitAtCall calls l).1.flatMap calls = [c] ∧ (splitAtCall calls l).2.flatMap calls = cs
  | [], h => by simp at h
  | a :: as, h => by
    unfold splitAtCall
    split_ifs with ha
    · rw [List.flatMap_cons, ha, List.nil_append] at h
      simpa [ha] using splitAtCall_calls h1 h
    · obtain ⟨c', hc'⟩ : ∃ c', calls a = [c'] :=
        List.length_eq_one.mp (le_antisymm (h1 a) (List.length_pos.mpr ha))
      rw [List.flatMap_cons, hc', List.singleton_append, List.cons.injEq] at h
      simp [hc', h.1, h.2]

theorem ofGoroutine_tagFrom :
    ∀ (k : Nat) (ps : List (List α)) (j : Nat),
      ofGoroutine (tagFrom k ps) j = if k ≤ j then ps[j - k]?.getD [] else []
  | _, [], _ => by simp [tagFrom, ofGoroutine]
  | k, p :: ps, j => by
    rw [tagFrom, ofGoroutine_append, ofGoroutine_map, ofGoroutine_tagFrom (k + 1) ps j]
    by_cases hkj : k = j
    · subst hkj; simp
    · by_cases hk : k + 1 ≤ j
      · rw [if_neg hkj, if_pos hk, if_pos (by omega), List.nil_append,
          show j - k = (j - (k + 1)) + 1 by omega, List.getElem?_cons_succ]
      · rw [if_neg hkj, if_neg hk, if_neg (by omega), List.nil_append]

/-- **Each goroutine's elements read back from the merge, in order**, whatever the order of the
lock. -/
theorem ofGoroutine_weave (calls : α → List Call) :
    ∀ (progs : List (List α)) (locks : List Nat) (j : Nat),
      ofGoroutine (weave calls progs locks) j = progs[j]?.getD []
  | progs, [], j => by
    rw [weave, ofGoroutine_tagFrom, if_pos (Nat.zero_le j), Nat.sub_zero]
  | progs, i :: locks, j => by
    rw [weave, ofGoroutine_append, ofGoroutine_map, ofGoroutine_weave calls _ locks j,
      List.getElem?_set']
    by_cases hij : i = j
    · subst hij
      cases progs[i]? with
      | none => simp [splitAtCall]
      | some p => simpa using splitAtCall_append calls p
    · simp [hij]

/-- Elements that call nothing, merged, call nothing. -/
theorem tagFrom_calls {calls : α → List Call} :
    ∀ (k : Nat) {ps : List (List α)}, (∀ p ∈ ps, p.flatMap calls = []) →
      (tagFrom k ps).flatMap (fun x => calls x.2) = []
  | _, [], _ => rfl
  | k, p :: ps, h => by
    have hp := h p (List.mem_cons_self _ _)
    rw [tagFrom, List.flatMap_append,
      tagFrom_calls (k + 1) fun q hq => h q (List.mem_cons_of_mem _ hq)]
    simpa [List.flatMap_map, Function.comp_def] using hp

/-- **The merge makes the calls in the order of the lock**, when each goroutine's elements make the
calls of that goroutine that took the lock, and each element makes at most one. -/
theorem weave_calls {calls : α → List Call} (h1 : ∀ a, (calls a).length ≤ 1) :
    ∀ (order : List (Nat × Call)) (progs : List (List α)),
      (∀ j, (progs[j]?.getD []).flatMap calls = issued order j) →
      (weave calls progs (order.map (·.1))).flatMap (fun x => calls x.2) = order.map (·.2)
  | [], progs, h => by
    refine tagFrom_calls 0 fun p hp => ?_
    obtain ⟨j, hj⟩ := List.mem_iff_getElem?.mp hp
    simpa [hj, issued] using h j
  | (i, c) :: order, progs, h => by
    have hi := h i
    rw [issued_cons, if_pos rfl] at hi
    obtain ⟨hpre, hpost⟩ := splitAtCall_calls h1 hi
    simp only [List.map_cons, weave, List.flatMap_append]
    rw [← List.singleton_append]
    refine congrArg₂ (· ++ ·) (by simpa [List.flatMap_map, Function.comp_def] using hpre) ?_
    refine weave_calls h1 order _ fun j => ?_
    rw [List.getElem?_set']
    by_cases hij : i = j
    · subst hij
      cases hp : progs[i]? with
      | none => simp [hp] at hi
      | some p => simpa [hp] using hpost
    · simpa [hij, issued_cons] using h j

/-! ### Every interleaving is a sequence of requests -/

variable {marshal} {maxMetrics : Int} {programs : List (List Call)} {s : System}

/-- Once every goroutine has made all its calls, the calls of each that took effect are its
program. -/
theorem System.Linearizable.issued_of_done (hs : s.Linearizable marshal maxMetrics programs)
    (hdone : ∀ g ∈ s.goroutines, g.pc = .idle ∧ g.program = []) (j : Nat) :
    issued s.order j = programs[j]?.getD [] := by
  by_cases hj : j < programs.length
  · rw [List.getElem?_eq_getElem hj, Option.getD_some]
    have hjs : j < s.goroutines.length := hs.length_eq ▸ hj
    have hcalls := hs.calls_eq j _ (List.getElem?_eq_getElem hjs)
    obtain ⟨hpc, hprog⟩ := hdone _ (List.getElem_mem hjs)
    rw [hpc, hprog, List.getElem?_eq_getElem hj] at hcalls
    simpa [Pc.pending] using hcalls
  · rw [List.getElem?_eq_none (by omega)]
    simp only [issued, Option.getD_none, List.map_eq_nil_iff, List.filter_eq_nil_iff, beq_iff_eq]
    exact fun x hx hxj => hj (hxj ▸ hs.order_lt x hx)

/-- **Concurrent requests are served as if one after another.** For every capacity
`maxMetrics ≥ 0`, all goroutines each serving its own requests in turn, and every schedule, the run
never panics; and once every goroutine has served all its requests, there is a sequence of all the
requests, each goroutine's in its own order, that `serveAll` serves from a new monitor without
panicking, leaving the same monitor (ring, `nextID`, `nil` or not) and the events as emitted. -/
theorem serveConcurrent_eq_serveAll (decode : Decoder)
    (marshal : Slice TokenMetrics → Except String Bytes) {maxMetrics : Int} (h0 : 0 ≤ maxMetrics)
    (progs : List (List Request)) (schedule : List Nat) :
    ∃ s, (System.start maxMetrics (progs.map (·.flatMap (Request.calls decode)))).run marshal
        schedule = .ok s ∧
      ((∀ g ∈ s.goroutines, g.pc = .idle ∧ g.program = []) →
        ∃ reqs : List (Nat × Request), (∀ j, ofGoroutine reqs j = progs[j]?.getD []) ∧
          ∃ w, serveAll decode ⟨newMetricsMonitor maxMetrics, [], []⟩ (reqs.map (·.2)) = .ok w ∧
            w.mon = s.mon ∧ w.events.map .emit = s.history) := by
  obtain ⟨s, hrun, hs⟩ := (System.linearizable_start maxMetrics _).run h0 schedule
  refine ⟨s, hrun, fun hdone => ?_⟩
  let reqs := weave (Request.calls decode) progs (s.order.map (·.1))
  have hcalls : (reqs.map (·.2)).flatMap (Request.calls decode) = s.order.map (·.2) := by
    rw [List.flatMap_map]
    refine weave_calls (Request.calls_length_le decode) s.order progs fun j => ?_
    rw [hs.issued_of_done hdone j, List.getElem?_map]
    cases progs[j]? <;> rfl
  have hq := hs.completes.quiescent fun i g hi => by
    rw [(hdone g (List.getElem?_mem hi)).1]
    decide
  rw [runCalls, ← hcalls] at hq
  have hsim : ((reqs.map (·.2)).flatMap (Request.calls decode)).foldlM (record marshal)
      (newMetricsMonitor maxMetrics, []) =
        World.view <$> serveAll decode ⟨newMetricsMonitor maxMetrics, [], []⟩ (reqs.map (·.2)) :=
    serveAll_runCalls marshal decode (reqs.map fun x : Nat × Request => x.2)
      ⟨newMetricsMonitor maxMetrics, [], []⟩
  rw [← hq] at hsim
  refine ⟨reqs, ofGoroutine_weave _ progs _, ?_⟩
  cases hw : serveAll decode ⟨newMetricsMonitor maxMetrics, [], []⟩ (reqs.map (·.2)) with
  | error p => rw [hw] at hsim; cases hsim
  | ok w =>
    simp only [hw, Functor.map, Except.map, World.view, Except.ok.injEq, Prod.mk.injEq] at hsim
    exact ⟨w, rfl, hsim.1.symm, hsim.2.symm⟩

/-- At capacity `1`, goroutine `0` serves a request that inserts, and goroutine `1` one that
inserts and one whose `next` fails; the schedule lets goroutine `1`'s insert take the lock first and
goroutine `0`'s wait for it. -/
theorem serveConcurrent_eq_serveAll_two :
    (0 : Int) ≤ 1 ∧
    ∃ s, System.run (fun _ => .ok [])
        (System.start 1
          (([[⟨"a", "/v1/completions", ⟨2000000000⟩, ⟨0⟩, ⟨200, false, []⟩,
                ([.write [123, 125] true], none)⟩],
              [⟨"b", "/v1/completions", ⟨1000000000⟩, ⟨0⟩, ⟨200, false, []⟩,
                ([.write [123, 125] true], none)⟩,
               ⟨"b", "/v1/completions", ⟨0⟩, ⟨0⟩, ⟨200, false, []⟩, ([], some "upstream")⟩]] :
              List (List Request)).map (·.flatMap (Request.calls
                (fun _ => some (.object [("usage", .object [("completion_tokens", .number "7")])]))))))
        [1, 0, 1, 0, 1, 0, 1, 0, 1, 0, 1, 0, 1, 0, 1, 0, 1, 0, 1, 0, 0, 0, 0, 0, 0, 0] = .ok s ∧
      ((∀ g ∈ s.goroutines, g.pc = .idle ∧ g.program = []) →
        ∃ reqs : List (Nat × Request), (∀ j, ofGoroutine reqs j =
            ([[⟨"a", "/v1/completions", ⟨2000000000⟩, ⟨0⟩, ⟨200, false, []⟩,
                ([.write [123, 125] true], none)⟩],
              [⟨"b", "/v1/completions", ⟨1000000000⟩, ⟨0⟩, ⟨200, false, []⟩,
                ([.write [123, 125] true], none)⟩,
               ⟨"b", "/v1/completions", ⟨0⟩, ⟨0⟩, ⟨200, false, []⟩, ([], some "upstream")⟩]] :
              List (List Request))[j]?.getD []) ∧
          ∃ w, serveAll
              (fun _ => some (.object [("usage", .object [("completion_tokens", .number "7")])]))
              ⟨newMetricsMonitor 1, [], []⟩ (reqs.map (·.2)) = .ok w ∧
            w.mon = s.mon ∧ w.events.map .emit = s.history) :=
  ⟨by decide, serveConcurrent_eq_serveAll _ _ (by decide) _ _⟩

end Llmsnap.Proxy
