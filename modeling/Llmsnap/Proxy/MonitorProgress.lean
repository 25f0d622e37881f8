import Mathlib.Algebra.Order.BigOperators.Group.List
import Llmsnap.Proxy.MonitorConcurrent

/-! # The monitor's mutex never deadlocks

Whatever state a schedule has led to, some goroutine can always run a statement that brings its
program nearer to its end: the writer inside `addMetrics` or a reader holding the read lock, if
any; else the writer that announced itself, for whom the mutex is now free; else any goroutine
with calls left, for whom no writer is ahead. A reader queued behind a writer is never the only
one left, since a writer is ahead of it (`Queued`). So every run can be continued until every
goroutine has made all its calls, under `sync.RWMutex`'s preference for writers.

* **`Goroutine.work`** — the statements a goroutine has still to run, at most nine a call;
* **`System.step_work`** — a step a goroutine can take lowers the work of the system;
* **`System.Linearizable.progress`** — in every state with work left, some goroutine can take one;
* **`addMetrics_concurrent_can_finish`** — every run can be continued to the end of every
  program. -/

namespace Llmsnap.Proxy

open Go

/-- The statements left before a goroutine at `pc` is idle again. A queued reader has as many left
as one let in, so the writer's `Unlock` lowers the work by its own statement. -/
def Pc.remaining : Pc → Nat
  | .idle => 0
  | .lock _ => 8
  | .wlock _ => 7
  | .add p _ => p.rest.length
  | .rlock _ => 3
  | .rwait _ | .read _ => 2
  | .runlock _ => 1

/-- **The statements a goroutine has still to run**: those of the call it is in, and nine for
each call left, which bounds the statements of a call from its entry. -/
def Goroutine.work (g : Goroutine) : Nat := 9 * g.program.length + g.pc.remaining

/-- The statements left in all goroutines. -/
def System.work (s : System) : Nat := (s.goroutines.map Goroutine.work).sum

/-- A goroutine with no work left has made all its calls. -/
theorem Goroutine.work_eq_zero {g : Goroutine} : g.work = 0 ↔ g.pc = .idle ∧ g.program = [] := by
  obtain ⟨pc, program⟩ := g
  cases pc with
  | add p m => cases p <;> simp [work, Pc.remaining, AddPc.rest]
  | _ => simp [work, Pc.remaining]

/-- A goroutine that holds the mutex has statements left. -/
theorem Pc.remaining_pos {pc : Pc} (h : pc.level ≠ 0) : 0 < pc.remaining := by
  cases pc with
  | add p m => cases p <;> simp [remaining, AddPc.rest]
  | _ => simp_all [level, remaining]

/-- Letting the queued readers in leaves the work of every goroutine as it was. -/
theorem work_releaseReaders (gs : List Goroutine) :
    (releaseReaders gs).map Goroutine.work = gs.map Goroutine.work := by
  refine List.map_map _ _ _ ▸ List.map_congr_left fun g _ => ?_
  obtain ⟨pc, program⟩ := g
  cases pc <;> rfl

/-- A system with no work left is one where every goroutine has made all its calls. -/
theorem System.work_eq_zero {s : System} :
    s.work = 0 ↔ ∀ g ∈ s.goroutines, g.pc = .idle ∧ g.program = [] := by
  simp only [System.work, List.sum_eq_zero_iff, List.mem_map, forall_exists_index, and_imp,
    forall_apply_eq_imp_iff₂, Goroutine.work_eq_zero]

/-- Replacing one goroutine by one with less work lowers the total. -/
theorem sum_map_set_lt (f : Goroutine → Nat) {x g : Goroutine} (hx : f x < f g) :
    ∀ {l : List Goroutine} {i : Nat}, l[i]? = some g →
      ((l.set i x).map f).sum < (l.map f).sum := by
  intro l
  induction l with
  | nil => simp
  | cons a l ih =>
    intro i h
    cases i with
    | zero =>
      obtain rfl : a = g := by simpa using h
      simpa using hx
    | succ i => simpa using ih (by simpa using h)

variable {marshal : Slice TokenMetrics → Except String Bytes} {maxMetrics : Int}
  {programs : List (List Call)}

/-- An element of the goroutines is one of them by number. -/
theorem forall_mem_goroutines {gs : List Goroutine} {P : Goroutine → Prop}
    (h : ∀ (j : Nat) (g : Goroutine), gs[j]? = some g → P g) : ∀ g ∈ gs, P g := fun g hg => by
  obtain ⟨j, hj⟩ := List.mem_iff_getElem?.mp hg
  exact h j g hj

/-- **A step goroutine `i` can take lowers the work of the system**: it has work left, it is not
queued behind a writer, and if it is at `Lock` no writer holds the writers' mutex, if it has
announced itself nobody holds the mutex. A statement of `addMetrics` never panics, since the step
that runs it is one of a linearizable system. -/
theorem System.step_work (h0 : 0 ≤ maxMetrics) {s : System}
    (hs : s.Linearizable marshal maxMetrics programs) {i : Nat} {g : Goroutine}
    (hg : s.goroutines[i]? = some g) (hw : 0 < g.work)
    (hlock : ∀ m, g.pc = .lock m → ∀ g ∈ s.goroutines, g.pc.writing = false)
    (hwlock : ∀ m, g.pc = .wlock m → ∀ g ∈ s.goroutines, g.pc.level = 0)
    (hrwait : ∀ r, g.pc ≠ .rwait r) :
    ∃ s', s.step marshal i = .ok s' ∧ s'.Linearizable marshal maxMetrics programs ∧
      s'.work < s.work := by
  obtain ⟨s', hstep, hs'⟩ := hs.step h0 i
  refine ⟨s', hstep, hs', ?_⟩
  have hset : ∀ g', g'.work < g.work → ((s.goroutines.set i g').map Goroutine.work).sum < s.work :=
    fun g' hlt => sum_map_set_lt _ hlt hg
  obtain ⟨pc, prog⟩ := g
  unfold System.step at hstep
  simp only [hg] at hstep
  cases pc with
  | idle =>
    cases prog with
    | nil => simp [Goroutine.work, Pc.remaining] at hw
    | cons c cs =>
      cases hstep
      exact hset _ (by cases c <;> simp [Goroutine.work, Pc.remaining, Call.entry] <;> omega)
  | lock m =>
    simp only [if_pos (hlock m rfl)] at hstep
    cases hstep
    exact hset _ (by simp [Goroutine.work, Pc.remaining])
  | wlock m =>
    simp only [if_pos (hwlock m rfl)] at hstep
    cases hstep
    exact hset _ (by simp [Goroutine.work, Pc.remaining, AddPc.rest])
  | add p m =>
    cases hst : addStmt m s.mon s.history p with
    | error e => simp [hst, bind, Except.bind] at hstep
    | ok r =>
      simp only [hst, bind, Except.bind, pure, Except.pure, Except.ok.injEq] at hstep
      subst hstep
      have hlt : (⟨p.after r.1, prog⟩ : Goroutine).work < (⟨.add p m, prog⟩ : Goroutine).work := by
        cases p <;> simp [Goroutine.work, Pc.remaining, AddPc.after, AddPc.next, AddPc.rest]
      split
      · simpa only [System.work, work_releaseReaders] using hset _ hlt
      · exact hset _ hlt
  | rlock r =>
    cases hstep
    exact hset _ (by split <;> simp [Goroutine.work, Pc.remaining])
  | rwait r => exact absurd rfl (hrwait r)
  | read _ | runlock _ =>
    cases hstep
    exact hset _ (by simp [Goroutine.work, Pc.remaining])

/-- **Some goroutine can always move** while work is left: the writer or a reader holding the
mutex, else the writer that announced itself, else any goroutine with calls left; a reader queued
behind a writer is never the only one left. -/
theorem System.Linearizable.progress (h0 : 0 ≤ maxMetrics) {s : System}
    (hs : s.Linearizable marshal maxMetrics programs) (hleft : 0 < s.work) :
    ∃ i s', s.step marshal i = .ok s' ∧ s'.Linearizable marshal maxMetrics programs ∧
      s'.work < s.work := by
  have move : ∀ (i : Nat) (g : Goroutine), s.goroutines[i]? = some g → 0 < g.work →
      (∀ m, g.pc = .lock m → ∀ g ∈ s.goroutines, g.pc.writing = false) →
      (∀ m, g.pc = .wlock m → ∀ g ∈ s.goroutines, g.pc.level = 0) → (∀ r, g.pc ≠ .rwait r) →
      ∃ i s', s.step marshal i = .ok s' ∧ s'.Linearizable marshal maxMetrics programs ∧
        s'.work < s.work := fun i g hg hw hlock hwlock hrwait =>
    ⟨i, System.step_work h0 hs hg hw hlock hwlock hrwait⟩
  by_cases hheld : ∃ (i : Nat) (g : Goroutine), s.goroutines[i]? = some g ∧ g.pc.level ≠ 0
  · -- The writer, or a reader holding the read lock: its next statement needs no lock.
    obtain ⟨i, g, hg, hl⟩ := hheld
    have hw : 0 < g.work := by
      unfold Goroutine.work
      have := Pc.remaining_pos hl
      omega
    exact move i g hg hw (fun m hm => absurd (by rw [hm]; rfl) hl)
      (fun m hm => absurd (by rw [hm]; rfl) hl) fun r hr => hl (by rw [hr]; rfl)
  have hfree : ∀ g ∈ s.goroutines, g.pc.level = 0 :=
    forall_mem_goroutines fun j g hj => Classical.byContradiction fun h => hheld ⟨j, g, hj, h⟩
  by_cases hann : ∃ (i : Nat) (g : Goroutine) (m : TokenMetrics),
      s.goroutines[i]? = some g ∧ g.pc = .wlock m
  · -- The writer that announced itself: nobody holds the mutex, so it enters.
    obtain ⟨i, g, m, hg, hm⟩ := hann
    exact move i g hg (by simp [Goroutine.work, hm, Pc.remaining])
      (fun _ h => by rw [hm] at h; cases h) (fun _ _ => hfree) fun _ h => by rw [hm] at h; cases h
  · -- No writer at all: nobody is queued, and any goroutine with work left moves.
    have hnowriter : ∀ g ∈ s.goroutines, g.pc.writing = false :=
      forall_mem_goroutines fun j g hj => by
        cases hpc : g.pc with
        | wlock m => exact absurd ⟨j, g, m, hj, hpc⟩ hann
        | add p m =>
          have := hfree g (List.getElem?_mem hj)
          simp [hpc, Pc.level] at this
        | _ => rfl
    obtain ⟨g, hmem, hw⟩ : ∃ g ∈ s.goroutines, g.work ≠ 0 := by
      have hsome : ¬∀ g ∈ s.goroutines, g.work = 0 := fun hall => by
        have := System.work_eq_zero.mpr fun g hg => Goroutine.work_eq_zero.mp (hall g hg)
        omega
      push_neg at hsome
      exact hsome
    obtain ⟨i, hg⟩ := List.mem_iff_getElem?.mp hmem
    refine move i g hg (Nat.pos_of_ne_zero hw) (fun _ _ => hnowriter)
      (fun m hm => absurd ⟨i, g, m, hg, hm⟩ hann) fun r hr => ?_
    obtain ⟨w, hwm, hww⟩ := hs.queued g hmem r hr
    rw [hnowriter w hwm] at hww
    cases hww

/-- **Every linearizable state can be run to the end of every program**, by induction on the
work left. -/
theorem System.Linearizable.finish (h0 : 0 ≤ maxMetrics) (n : Nat) :
    ∀ {s : System}, s.work ≤ n → s.Linearizable marshal maxMetrics programs →
      ∃ schedule s', s.run marshal schedule = .ok s' ∧
        ∀ g ∈ s'.goroutines, g.pc = .idle ∧ g.program = [] := by
  induction n with
  | zero => exact fun hn _ => ⟨[], _, rfl, System.work_eq_zero.mp (by omega)⟩
  | succ n ih =>
    intro s hn hs
    by_cases hleft : 0 < s.work
    · obtain ⟨i, s₁, hstep, hs₁, hlt⟩ := hs.progress h0 hleft
      obtain ⟨schedule, s', hrun, hdone⟩ := ih (by omega) hs₁
      exact ⟨i :: schedule, s', by simp only [System.run, List.foldlM_cons, hstep]; exact hrun,
        hdone⟩
    · exact ⟨[], s, rfl, System.work_eq_zero.mp (by omega)⟩

/-- **No schedule can deadlock the monitor.** For every capacity `maxMetrics ≥ 0`, all goroutine
programs and every schedule, the run reaches a state from which some further schedule lets every
goroutine make all its calls, with the mutex preferring writers as `sync.RWMutex` does. -/
theorem addMetrics_concurrent_can_finish (marshal : Slice TokenMetrics → Except String Bytes)
    {maxMetrics : Int} (h0 : 0 ≤ maxMetrics) (programs : List (List Call)) (schedule : List Nat) :
    ∃ s, (System.start maxMetrics programs).run marshal schedule = .ok s ∧
      ∃ rest s', s.run marshal rest = .ok s' ∧
        ∀ g ∈ s'.goroutines, g.pc = .idle ∧ g.program = [] := by
  obtain ⟨s, hrun, hs⟩ := (System.linearizable_start maxMetrics programs).run h0 schedule
  exact ⟨s, hrun, hs.finish h0 s.work le_rfl⟩

/-- At capacity `1`, goroutine `1` holds the read lock, goroutine `0` has announced its insert and
waits for it, and goroutine `2` has queued its read behind the writer. -/
theorem addMetrics_concurrent_can_finish_queued :
    (0 : Int) ≤ 1 ∧
    ∃ s, (System.start 1 [[.addMetrics ⟨0, ⟨0⟩, "a", -1, 10, 5, .negOne, .negOne, 100⟩],
          [.getMetrics], [.getMetricsJSON]]).run (fun _ => .ok []) [1, 1, 0, 0, 2, 2] = .ok s ∧
      ∃ rest s', s.run (fun _ => .ok []) rest = .ok s' ∧
        ∀ g ∈ s'.goroutines, g.pc = .idle ∧ g.program = [] :=
  ⟨by decide, addMetrics_concurrent_can_finish _ (by decide) _ _⟩

end Llmsnap.Proxy
