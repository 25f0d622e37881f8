import Llmsnap.Proxy.MonitorConcurrent

/-! # A monitor of negative capacity

`newMetricsMonitor` takes any `int` as `maxMetrics`. With a negative one, the trim of the first
insert slices its ring of one metric from `len(mp.metrics) - mp.maxMetrics = 1 - maxMetrics`, out of
range whatever the value (`wrapInt64_one_sub_out_of_range`), and the goroutine panics there. Until
then the ring stays `nil`: every read before the panic finds it empty, and no event is published.

* **`System.NegativeRun`** — what every run keeps: only empty reads, no writer past the trim, and a
  ring that holds a metric only while its writer is at the trim;
* **`System.NegativeRun.step`** — one statement keeps it, or is that trim and panics;
* **`addMetrics_concurrent_of_neg`** — every run, whatever the programs and the schedule. -/

namespace Llmsnap.Proxy

open Go

variable (marshal : Slice TokenMetrics → Except String Bytes)

/-- **A run with the negative capacity `maxMetrics`**: the mutex excludes, every read found the ring
empty and nothing was published, and no writer is past the trim. The ring is `nil`, but while a
writer is at the trim with the one metric it appended. -/
structure System.NegativeRun (maxMetrics : Int) (s : System) : Prop where
  exclusive : Exclusive s.goroutines
  maxMetrics_eq : s.mon.maxMetrics = maxMetrics
  reads : ∀ o ∈ s.history, o = .snapshot [] ∨ o = .json (marshal none)
  before_trim : ∀ g ∈ s.goroutines, ∀ p m, g.pc = .add p m → p ≠ .emit ∧ p ≠ .unlock
  ring : (s.mon.metrics = none ∧ ∀ g ∈ s.goroutines, ∀ m, g.pc ≠ .add .trim m) ∨
    ∃ m, s.mon.metrics = some [m] ∧ ∃ g ∈ s.goroutines, ∃ m', g.pc = .add .trim m'

variable {marshal} {maxMetrics : Int} {s : System}

/-- While a goroutine other than the writer at the trim holds the mutex, the ring is `nil`. -/
theorem System.NegativeRun.ring_none (hn : s.NegativeRun marshal maxMetrics) {i : Nat}
    {g : Goroutine} (hg : s.goroutines[i]? = some g) (h : g.pc.level ≠ 0)
    (ht : ∀ m, g.pc ≠ .add .trim m) : s.mon.metrics = none := by
  rcases hn.ring with ⟨hnone, -⟩ | ⟨-, -, w, hw, m, hwt⟩
  · exact hnone
  · obtain ⟨k, hk⟩ := List.mem_iff_getElem?.mp hw
    by_cases hki : k = i
    · subst hki
      rw [hg] at hk
      cases hk
      exact absurd hwt (ht m)
    · exact absurd (hn.exclusive k i w g hki hk hg (by simp [hwt, Pc.level])) h

/-- Goroutine `i` moves from `g`, not at the trim, to `g'`, outside `addMetrics` or before its
append, the ring and the capacity unchanged and only empty reads made visible: the run keeps its
shape if the mutex still excludes. -/
theorem System.NegativeRun.set (hn : s.NegativeRun marshal maxMetrics) {i : Nat}
    {g g' : Goroutine} {s' : System} (hg : s.goroutines[i]? = some g)
    (hgs : s'.goroutines = s.goroutines.set i g') (hx : Exclusive (s.goroutines.set i g'))
    (ht : ∀ m, g.pc ≠ .add .trim m)
    (hnew : ∀ p m, g'.pc = .add p m → p = .setID ∨ p = .incr ∨ p = .append)
    (hmon : s'.mon.metrics = s.mon.metrics ∧ s'.mon.maxMetrics = s.mon.maxMetrics)
    (hreads : ∀ o ∈ s'.history, o = .snapshot [] ∨ o = .json (marshal none)) :
    s'.NegativeRun marshal maxMetrics where
  exclusive := hgs ▸ hx
  maxMetrics_eq := hmon.2.trans hn.maxMetrics_eq
  reads := hreads
  before_trim x hx p m hp := by
    rw [hgs] at hx
    rcases List.mem_or_eq_of_mem_set hx with hx | rfl
    · exact hn.before_trim x hx p m hp
    · rcases hnew p m hp with rfl | rfl | rfl <;> decide
  ring := by
    rw [hmon.1, hgs]
    rcases hn.ring with ⟨hnone, hno⟩ | ⟨m, hsome, hw⟩
    · refine .inl ⟨hnone, fun x hx m hm => ?_⟩
      rcases List.mem_or_eq_of_mem_set hx with hx | rfl
      · exact hno x hx m hm
      · rcases hnew _ _ hm with h | h | h <;> cases h
    · exact .inr ⟨m, hsome, exists_mem_set hg (fun ⟨m', h⟩ => absurd h (ht m')) hw⟩

/-- **One statement with a negative capacity** keeps the shape of the run, or is the trim of the
writer's one metric and panics with the low bound `1 - maxMetrics`. -/
theorem System.NegativeRun.step (hlo : -2 ^ 63 ≤ maxMetrics) (hneg : maxMetrics < 0)
    (hn : s.NegativeRun marshal maxMetrics) (i : Nat) :
    match s.step marshal i with
    | .ok s' => s'.NegativeRun marshal maxMetrics
    | .error e => e = .sliceBounds (wrapInt64 (1 - maxMetrics)) 1 1 := by
  unfold System.step
  cases hg : s.goroutines[i]? with
  | none => exact hn
  | some g =>
    obtain ⟨pc, prog⟩ := g
    have hmem := List.getElem?_mem hg
    cases pc with
    | idle =>
      cases prog with
      | nil => exact hn
      | cons c cs =>
        exact hn.set hg rfl (hn.exclusive.set_of_le hg (by simp)) (fun _ h => by cases h)
          (fun _ _ h => by cases c <;> cases h) ⟨rfl, rfl⟩ hn.reads
    | lock m =>
      by_cases hfree : ∀ g ∈ s.goroutines, g.pc.writing = false
      · simp only [if_pos hfree]
        exact hn.set hg rfl (hn.exclusive.set_of_le hg le_rfl) (fun _ h => by cases h)
          (fun _ _ h => by cases h) ⟨rfl, rfl⟩ hn.reads
      · simp only [if_neg hfree]
        exact hn
    | wlock m =>
      by_cases hfree : ∀ g ∈ s.goroutines, g.pc.level = 0
      · simp only [if_pos hfree]
        exact hn.set hg rfl (hn.exclusive.set_of_free hfree i _) (fun _ h => by cases h)
          (fun _ _ h => by cases h; simp) ⟨rfl, rfl⟩ hn.reads
      · simp only [if_neg hfree]
        exact hn
    | add p m =>
      cases p with
      | setID | incr =>
        exact hn.set hg rfl (hn.exclusive.set_of_le hg le_rfl) (fun _ h => by cases h)
          (fun _ _ h => by cases h; simp) ⟨rfl, rfl⟩ hn.reads
      | append =>
        -- The writer appends to the `nil` ring and holds the one metric at the trim.
        have hnone := hn.ring_none hg (by simp [Pc.level]) fun _ h => by cases h
        exact
          { exclusive := hn.exclusive.set_of_le hg le_rfl
            maxMetrics_eq := hn.maxMetrics_eq
            reads := hn.reads
            before_trim := fun x hx p m' hp => by
              rcases List.mem_or_eq_of_mem_set hx with hx | rfl
              · exact hn.before_trim x hx p m' hp
              · cases hp; decide
            ring := .inr ⟨m, by simp [hnone], _,
              List.mem_set _ _ (List.getElem?_eq_some_iff.mp hg).1 _, m, rfl⟩ }
      | trim =>
        -- The writer at the trim holds the one metric it appended, and the slice panics.
        obtain ⟨m', hm'⟩ : ∃ m', s.mon.metrics = some [m'] := by
          rcases hn.ring with ⟨-, hno⟩ | ⟨m', hm', -⟩
          · exact absurd rfl (hno _ hmem m)
          · exact ⟨m', hm'⟩
        have htrim := trimMetrics_of_neg (hn.maxMetrics_eq ▸ hlo) (hn.maxMetrics_eq ▸ hneg) hm'
        rw [hn.maxMetrics_eq] at htrim
        simp only [addStmt, htrim]
        rfl
      | emit => exact absurd rfl (hn.before_trim _ hmem _ _ rfl).1
      | unlock => exact absurd rfl (hn.before_trim _ hmem _ _ rfl).2
    | rlock r =>
      by_cases hfree : ∀ g ∈ s.goroutines, g.pc.writing = false
      · have hnw : ∀ g ∈ s.goroutines, g.pc.level ≠ 2 := fun g hg h2 => by
          simpa [Pc.writing_of_level h2] using hfree g hg
        simp only [if_pos hfree]
        exact hn.set hg rfl (hn.exclusive.set_of_no_writer hnw i (by simp [Pc.level]))
          (fun _ h => by cases h) (fun _ _ h => by cases h) ⟨rfl, rfl⟩ hn.reads
      · simp only [if_neg hfree]
        exact hn.set hg rfl (hn.exclusive.set_of_le hg le_rfl) (fun _ h => by cases h)
          (fun _ _ h => by cases h) ⟨rfl, rfl⟩ hn.reads
    | rwait r => exact hn
    | read r =>
      -- The reader finds the `nil` ring.
      have hnone := hn.ring_none hg (by simp [Pc.level]) fun _ h => by cases h
      have hread :
          r.read marshal s.mon = .snapshot [] ∨ r.read marshal s.mon = .json (marshal none) := by
        cases r
        · exact .inl (by simp [Reader.read, MetricsMonitor.getMetrics, hnone])
        · exact .inr (by simp [Reader.read, MetricsMonitor.getMetricsJSON, hnone])
      exact hn.set hg rfl (hn.exclusive.set_of_le hg le_rfl) (fun _ h => by cases h)
        (fun _ _ h => by cases h) ⟨rfl, rfl⟩
        fun o ho =>
          (List.mem_append.mp ho).elim (hn.reads o) fun h => List.mem_singleton.mp h ▸ hread
    | runlock o =>
      exact hn.set hg rfl (hn.exclusive.set_of_le hg (by simp [Pc.level])) (fun _ h => by cases h)
        (fun _ _ h => by cases h) ⟨rfl, rfl⟩ hn.reads

/-- **Every run with a negative capacity** keeps the shape of the run, or panics at a trim. -/
theorem System.NegativeRun.run (hlo : -2 ^ 63 ≤ maxMetrics) (hneg : maxMetrics < 0)
    (hn : s.NegativeRun marshal maxMetrics) (schedule : List Nat) :
    match s.run marshal schedule with
    | .ok s' => s'.NegativeRun marshal maxMetrics
    | .error e => e = .sliceBounds (wrapInt64 (1 - maxMetrics)) 1 1 := by
  induction schedule generalizing s with
  | nil => exact hn
  | cons i is ih =>
    have h := hn.step hlo hneg i
    simp only [System.run, List.foldlM_cons]
    cases hst : s.step marshal i with
    | error e => rw [hst] at h; exact h
    | ok s₁ => rw [hst] at h; exact ih h

end Llmsnap.Proxy
