import Llmsnap.Proxy.Monitor

/-! # Goroutines calling the metrics monitor

Goroutines call `addMetrics`, `getMetrics` and `getMetricsJSON` on one `metricsMonitor`. Each call
takes `mp.mu` (`Lock` in `addMetrics`, `RLock` in the readers), runs its statements one at a time,
and releases the lock in its deferred `Unlock`. A run interleaves the statements of all goroutines
in whatever order a scheduler picks; a goroutine whose lock is taken waits.

`sync.RWMutex` prefers writers. `Lock` first takes the writers' mutex `rw.w` and announces itself
to readers; from then on a reader entering `RLock` queues, and the writer waits for the readers
already in to leave. Its `Unlock` lets the queued readers in before the next writer can announce
itself. Taking `rw.w` and announcing are one step here, as no reader can tell them apart.

* **`addStmt`** — one statement of `addMetrics` with the lock held;
* **`releaseReaders`** — the readers queued behind a writer, let in by its `Unlock`;
* **`System.step`** — goroutine `i` runs its next statement; **`System.run`** a whole schedule;
* **`finishAdd`** — the rest of a critical section, which from its first statement is
  `MetricsMonitor.addMetrics` (`finishAdd_setID`). -/

namespace Llmsnap.Proxy

open Go

/-- A statement of `addMetrics` after `mp.mu.Lock()`. -/
inductive AddPc where
  /-- `metric.ID = mp.nextID`. -/
  | setID
  /-- `mp.nextID++`. -/
  | incr
  /-- `mp.metrics = append(mp.metrics, metric)`. -/
  | append
  /-- `if len(mp.metrics) > mp.maxMetrics { … }`. -/
  | trim
  /-- `event.Emit(TokenMetricsEvent{Metrics: metric})`. -/
  | emit
  /-- The deferred `mp.mu.Unlock()`. -/
  | unlock
  deriving DecidableEq, Repr

namespace AddPc

/-- The statement after `p`; none after the unlock. -/
def next : AddPc → Option AddPc
  | setID => some incr
  | incr => some append
  | append => some trim
  | trim => some emit
  | emit => some unlock
  | unlock => none

/-- The statements from `p` to the end of `addMetrics`. -/
def rest : AddPc → List AddPc
  | setID => [setID, incr, append, trim, emit, unlock]
  | incr => [incr, append, trim, emit, unlock]
  | append => [append, trim, emit, unlock]
  | trim => [trim, emit, unlock]
  | emit => [emit, unlock]
  | unlock => [unlock]

theorem rest_eq (p : AddPc) : p.rest = p :: (p.next.map rest).getD [] := by
  cases p <;> rfl

end AddPc

/-- **The statement `p` of `addMetrics`** on the local `metric`, the monitor and what was made
visible so far. Only the trim can panic. -/
def addStmt (metric : TokenMetrics) (mon : MetricsMonitor) (hist : List Obs) :
    AddPc → Except Panic (TokenMetrics × MetricsMonitor × List Obs)
  | .setID => pure ({ metric with id := mon.nextID }, mon, hist)
  | .incr => pure (metric, { mon with nextID := mon.nextID + 1 }, hist)
  | .append => pure (metric, { mon with metrics := some (mon.metrics.elems ++ [metric]) }, hist)
  | .trim => (fun mon => (metric, mon, hist)) <$> mon.trimMetrics
  | .emit => pure (metric, mon, hist ++ [.emit ⟨metric⟩])
  | .unlock => pure (metric, mon, hist)

/-- A method that takes the read lock. -/
inductive Reader where
  /-- `getMetrics`, which copies the ring. -/
  | getMetrics
  /-- `getMetricsJSON`, which encodes the ring. -/
  | getMetricsJSON
  deriving DecidableEq, Repr

/-- The call a reader makes. -/
def Reader.call : Reader → Call
  | .getMetrics => .getMetrics
  | .getMetricsJSON => .getMetricsJSON

variable (marshal : Slice TokenMetrics → Except String Bytes)

/-- What a reader returns, copied or encoded under the read lock. -/
def Reader.read (mon : MetricsMonitor) : Reader → Obs
  | .getMetrics => .snapshot mon.getMetrics
  | .getMetricsJSON => .json (mon.getMetricsJSON marshal)

/-- A read under the lock is the read as a whole call. -/
theorem record_reader_call (mon : MetricsMonitor) (hist : List Obs) (r : Reader) :
    record marshal (mon, hist) r.call = .ok (mon, hist ++ [r.read marshal mon]) := by
  cases r <;> rfl

/-- Where a goroutine is. -/
inductive Pc where
  /-- Outside the monitor; its next call is the head of its program. -/
  | idle
  /-- At `mp.mu.Lock()` in `addMetrics(metric)`, before it takes the writers' mutex. -/
  | lock (metric : TokenMetrics)
  /-- In `Lock`, announced to readers: new readers queue, and it waits for those already in. -/
  | wlock (metric : TokenMetrics)
  /-- Holding the lock in `addMetrics`, at statement `stmt`, with its local `metric`. -/
  | add (stmt : AddPc) (metric : TokenMetrics)
  /-- At `mp.mu.RLock()`. -/
  | rlock (reader : Reader)
  /-- In `RLock`, queued behind an announced writer until its `Unlock`. -/
  | rwait (reader : Reader)
  /-- Holding the read lock, before the ring is copied or encoded. -/
  | read (reader : Reader)
  /-- Holding the read lock, at the deferred `mp.mu.RUnlock()`, with the value to return. -/
  | runlock (result : Obs)

namespace Pc

/-- How a goroutine holds `mp.mu`: `2` for writing, `1` for reading, `0` not at all. -/
def level : Pc → Nat
  | add _ _ => 2
  | read _ | runlock _ => 1
  | _ => 0

/-- A writer between its announcement and its `Unlock`: it holds the writers' mutex `rw.w`. -/
def writing : Pc → Bool
  | wlock _ | add _ _ => true
  | _ => false

/-- The call a goroutine has started and that has not taken effect yet. -/
def pending : Pc → List Call
  | lock m | wlock m => [.addMetrics m]
  | rlock r | rwait r | read r => [r.call]
  | _ => []

/-- A queued reader let in: it holds the read lock. -/
def release : Pc → Pc
  | rwait r => read r
  | pc => pc

theorem level_le_two (pc : Pc) : pc.level ≤ 2 := by
  cases pc <;> simp [level]

theorem level_eq_two_iff {pc : Pc} : pc.level = 2 ↔ ∃ p m, pc = add p m := by
  cases pc <;> simp [level]

/-- A goroutine inside `addMetrics` holds the writers' mutex. -/
theorem writing_of_level {pc : Pc} (h : pc.level = 2) : pc.writing = true := by
  obtain ⟨p, m, rfl⟩ := level_eq_two_iff.mp h
  rfl

@[simp] theorem pending_release (pc : Pc) : pc.release.pending = pc.pending := by
  cases pc <;> rfl

@[simp] theorem writing_release (pc : Pc) : pc.release.writing = pc.writing := by
  cases pc <;> rfl

/-- Letting a reader in gives it the read lock and no more. -/
theorem level_release {pc : Pc} (h : pc.level ≠ 2) : pc.release.level ≠ 2 := by
  cases pc <;> simp_all [release, level]

end Pc

/-- Where a goroutine goes to make the call `c`. -/
def Call.entry : Call → Pc
  | .addMetrics m => .lock m
  | .getMetrics => .rlock .getMetrics
  | .getMetricsJSON => .rlock .getMetricsJSON

@[simp] theorem Call.entry_level (c : Call) : c.entry.level = 0 := by
  cases c <;> rfl

@[simp] theorem Call.entry_pending (c : Call) : c.entry.pending = [c] := by
  cases c <;> rfl

/-- Where a goroutine goes after the statement `p` of `addMetrics`. -/
def AddPc.after (p : AddPc) (metric : TokenMetrics) : Pc :=
  match p.next with
  | some q => .add q metric
  | none => .idle

/-- A goroutine: where it is, and the calls it has still to make. -/
structure Goroutine where
  /-- Where it is. -/
  pc : Pc
  /-- The calls still to make, in order. -/
  program : List Call

/-- `rw.Unlock()` lets in every reader queued behind the writer: from then on each holds the read
lock, and the next writer to announce itself waits for them. -/
def releaseReaders (gs : List Goroutine) : List Goroutine :=
  gs.map fun g => { g with pc := g.pc.release }

/-- The monitor shared by the goroutines. -/
structure System where
  /-- The monitor's fields. -/
  mon : MetricsMonitor
  /-- The goroutines, by number. -/
  goroutines : List Goroutine
  /-- What the calls made visible, in order: the events emitted and the values the reads returned. -/
  history : List Obs
  /-- The calls that took effect, in the order they did, each with the goroutine that made it: an
  `addMetrics` when it takes the lock, a read when it reads the ring. No statement reads it. -/
  order : List (Nat × Call)

/-- **Goroutine `i` runs its next statement.** A goroutine that waits for the mutex, has made all
its calls, or does not exist leaves the system as it is. `Lock` announces the writer once no other
writer holds `rw.w`, and enters once no goroutine holds the mutex; `RLock` queues behind an
announced writer; the writer's deferred `Unlock` lets the queued readers in. -/
def System.step (s : System) (i : Nat) : Except Panic System :=
  match s.goroutines[i]? with
  | none => pure s
  | some ⟨pc, program⟩ =>
    match pc, program with
    | .idle, [] => pure s
    | .idle, c :: cs => pure { s with goroutines := s.goroutines.set i ⟨c.entry, cs⟩ }
    | .lock m, program =>
      if ∀ g ∈ s.goroutines, g.pc.writing = false then
        pure { s with goroutines := s.goroutines.set i ⟨.wlock m, program⟩ }
      else pure s
    | .wlock m, program =>
      if ∀ g ∈ s.goroutines, g.pc.level = 0 then
        pure { s with
          goroutines := s.goroutines.set i ⟨.add .setID m, program⟩
          order := s.order ++ [(i, .addMetrics m)] }
      else pure s
    | .add p m, program => do
      let (m, mon, history) ← addStmt m s.mon s.history p
      let goroutines := s.goroutines.set i ⟨p.after m, program⟩
      pure { s with
        mon := mon
        history := history
        goroutines := if p = .unlock then releaseReaders goroutines else goroutines }
    | .rlock r, program =>
      let pc := if ∀ g ∈ s.goroutines, g.pc.writing = false then Pc.read r else .rwait r
      pure { s with goroutines := s.goroutines.set i ⟨pc, program⟩ }
    | .rwait _, _ => pure s
    | .read r, program =>
      pure { s with
        goroutines := s.goroutines.set i ⟨.runlock (r.read marshal s.mon), program⟩
        history := s.history ++ [r.read marshal s.mon]
        order := s.order ++ [(i, r.call)] }
    | .runlock _, program => pure { s with goroutines := s.goroutines.set i ⟨.idle, program⟩ }

/-- **A run**: the goroutines named by `schedule` each run one statement, in turn. -/
def System.run (s : System) (schedule : List Nat) : Except Panic System :=
  schedule.foldlM (System.step marshal) s

/-- `newMetricsMonitor(maxMetrics)` and goroutines about to make the calls of `programs`. -/
def System.start (maxMetrics : Int) (programs : List (List Call)) : System :=
  ⟨newMetricsMonitor maxMetrics, programs.map (⟨.idle, ·⟩), [], []⟩

/-! ### A critical section completes as `addMetrics` -/

/-- The rest of `addMetrics` from statement `p`: the monitor and history once the lock is
released. -/
def finishAdd (p : AddPc) (metric : TokenMetrics) (mon : MetricsMonitor) (hist : List Obs) :
    Except Panic (MetricsMonitor × List Obs) :=
  (fun r => r.2) <$> p.rest.foldlM (fun r q => addStmt r.1 r.2.1 r.2.2 q) (metric, mon, hist)

/-- **From its first statement, the critical section is the call `addMetrics(metric)`.** -/
theorem finishAdd_setID (metric : TokenMetrics) (mon : MetricsMonitor) (hist : List Obs) :
    finishAdd .setID metric mon hist = record marshal (mon, hist) (.addMetrics metric) := by
  simp only [finishAdd, AddPc.rest, List.foldlM_cons, List.foldlM_nil, addStmt, record,
    MetricsMonitor.call, MetricsMonitor.addMetrics, pure_bind]
  cases MetricsMonitor.trimMetrics _ <;> rfl

/-- One statement taken, the critical section goes on from the next, or has ended. -/
theorem finishAdd_of_addStmt {p : AddPc} {m m' : TokenMetrics} {mon mon' : MetricsMonitor}
    {hist hist' : List Obs} (h : addStmt m mon hist p = .ok (m', mon', hist')) :
    finishAdd p m mon hist =
      match p.next with
      | some q => finishAdd q m' mon' hist'
      | none => .ok (mon', hist') := by
  rw [finishAdd, AddPc.rest_eq, List.foldlM_cons, h]
  cases p.next <;> rfl

/-- A statement that panics ends the critical section with the panic. -/
theorem finishAdd_of_addStmt_error {p : AddPc} {m : TokenMetrics} {mon : MetricsMonitor}
    {hist : List Obs} {e : Panic} (h : addStmt m mon hist p = .error e) :
    finishAdd p m mon hist = .error e := by
  rw [finishAdd, AddPc.rest_eq, List.foldlM_cons, h]
  rfl

/-- A statement only adds to what was made visible. -/
theorem addStmt_history_extends {p : AddPc} {m m' : TokenMetrics} {mon mon' : MetricsMonitor}
    {hist hist' : List Obs} (h : addStmt m mon hist p = .ok (m', mon', hist')) : hist <+: hist' := by
  cases p <;> simp only [addStmt, pure, Except.pure, Except.ok.injEq, Prod.mk.injEq] at h
  case trim =>
    cases ht : mon.trimMetrics <;> simp only [ht, Functor.map, Except.map, reduceCtorEq,
      Except.ok.injEq, Prod.mk.injEq] at h
    exact h.2.2 ▸ List.prefix_refl hist
  all_goals obtain ⟨-, -, rfl⟩ := h; simp

/-- The rest of a critical section only adds to what was made visible. -/
theorem finishAdd_history_extends {p : AddPc} {m : TokenMetrics} {mon mon' : MetricsMonitor}
    {hist hist' : List Obs} (h : finishAdd p m mon hist = .ok (mon', hist')) : hist <+: hist' := by
  suffices ∀ (qs : List AddPc) r r',
      qs.foldlM (fun r q => addStmt r.1 r.2.1 r.2.2 q) r = .ok r' → r.2.2 <+: r'.2.2 by
    unfold finishAdd at h
    cases hf : p.rest.foldlM (fun r q => addStmt r.1 r.2.1 r.2.2 q) (m, mon, hist) with
    | error e => simp [hf, Functor.map, Except.map] at h
    | ok r' =>
      simp only [hf, Functor.map, Except.map, Except.ok.injEq] at h
      simpa [h] using this _ _ _ hf
  intro qs
  induction qs with
  | nil => intro r r' h; cases h; exact List.prefix_refl _
  | cons q qs ih =>
    intro r r' h
    rw [List.foldlM_cons] at h
    cases hq : addStmt r.1 r.2.1 r.2.2 q with
    | error e => simp [hq, bind, Except.bind] at h
    | ok r₁ =>
      simp only [hq, bind, Except.bind] at h
      exact (addStmt_history_extends hq).trans (ih _ _ h)

end Llmsnap.Proxy
