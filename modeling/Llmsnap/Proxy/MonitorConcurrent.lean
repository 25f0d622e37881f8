import Llmsnap.Proxy.Goroutines

/-! # Every interleaving of the monitor's calls is a sequence of whole calls

The mutex of `metricsMonitor` makes its methods atomic: whatever order the scheduler runs the
goroutines' statements in, the calls take effect one after another, `addMetrics` when it takes the
lock and a read when it reads the ring, and the shared state is what `runCalls` computes from that
sequence. Each goroutine's calls appear in it in program order, none lost and none twice.

* **`Exclusive`** — `mp.mu` excludes: a goroutine that holds it for writing holds it alone;
* **`Queued`** — a reader queued in `RLock` has a writer ahead of it;
* **`Completes`** — the shared state, the critical section in progress run to its end, is what
  `runCalls` computes from the calls that took effect;
* **`System.Linearizable`** — both, with each goroutine's calls accounted for;
* **`System.Linearizable.run`** — every schedule keeps the system linearizable and never panics;
* **`addMetrics_concurrent_ring`** — the ring, the IDs and the events of every interleaving;
* **`addMetrics_concurrent_all_emitted`** — once every goroutine is done, every insert of every
  program emitted its event exactly once. -/

namespace Llmsnap.Proxy

open Go

/-- The calls of goroutine `i` that took effect, in order. -/
def issued (order : List (Nat × Call)) (i : Nat) : List Call :=
  (order.filter (·.1 == i)).map (·.2)

@[simp] theorem issued_concat (order : List (Nat × Call)) (i j : Nat) (c : Call) :
    issued (order ++ [(i, c)]) j = issued order j ++ (if i = j then [c] else []) := by
  by_cases h : i = j <;> simp [issued, h]

theorem issued_cons (x : Nat × Call) (order : List (Nat × Call)) (j : Nat) :
    issued (x :: order) j = if x.1 = j then x.2 :: issued order j else issued order j := by
  by_cases h : x.1 = j <;> simp [issued, h]

/-- Adding `a` in front of the part of index `k` of a concatenation is a permutation of it. -/
theorem flatten_map_update_perm {α : Type} (f : Nat → List α) (a : α) {k : Nat} :
    ∀ {L : List Nat}, L.Nodup → k ∈ L →
      (L.map fun j => if k = j then a :: f j else f j).flatten.Perm (a :: (L.map f).flatten)
  | j :: L, hnd, hk => by
    obtain ⟨hj, hnd⟩ := List.nodup_cons.mp hnd
    by_cases hkj : k = j
    · subst hkj
      have hrest : (L.map fun j => if k = j then a :: f j else f j) = L.map f :=
        List.map_congr_left fun i hi => if_neg (by rintro rfl; exact hj hi)
      simp [hrest]
    · have hk : k ∈ L := (List.mem_cons.mp hk).resolve_left hkj
      simp only [List.map_cons, List.flatten_cons, if_neg hkj]
      exact ((flatten_map_update_perm f a hnd hk).append_left (f j)).trans List.perm_middle

/-- **The calls that took effect are those of the goroutines, interleaved**: with every index below
`n`, the sequence is a permutation of the goroutines' calls, goroutine by goroutine. -/
theorem order_perm_issued {n : Nat} :
    ∀ {order : List (Nat × Call)}, (∀ x ∈ order, x.1 < n) →
      (order.map (·.2)).Perm ((List.range n).map (issued order)).flatten
  | [], _ => by simp [issued]
  | x :: order, h => by
    have ih := order_perm_issued fun y hy => h y (List.mem_cons_of_mem _ hy)
    rw [List.map_cons, show issued (x :: order) = _ from funext (issued_cons x order)]
    exact (ih.cons x.2).trans (flatten_map_update_perm _ _ (List.nodup_range n)
      (List.mem_range.mpr (h x (List.mem_cons_self _ _)))).symm

/-- A goroutine's new state read back, or another's old one. -/
theorem getElem?_set_eq_some {α : Type} {l : List α} {i j : Nat} {a b : α}
    (h : (l.set i a)[j]? = some b) : (j = i ∧ b = a) ∨ (j ≠ i ∧ l[j]? = some b) := by
  rw [List.getElem?_set] at h
  by_cases hij : i = j
  · subst hij
    simp only [if_true, Option.ite_none_right_eq_some, Option.some.injEq] at h
    exact .inl ⟨rfl, h.2.symm⟩
  · rw [if_neg hij] at h
    exact .inr ⟨Ne.symm hij, h⟩

/-! ### Mutual exclusion -/

/-- **Mutual exclusion of `mp.mu`**: while a goroutine holds it for writing, no other holds it. -/
def Exclusive (gs : List Goroutine) : Prop :=
  ∀ (i j : Nat) (gi gj : Goroutine), i ≠ j → gs[i]? = some gi → gs[j]? = some gj →
    gi.pc.level = 2 → gj.pc.level = 0

/-- Goroutine `i` takes the state `g`: the mutex still excludes if it does between `g` and every
other goroutine. -/
theorem Exclusive.set {gs : List Goroutine} (hx : Exclusive gs) {i : Nat} {g : Goroutine}
    (hg : ∀ j gj, j ≠ i → gs[j]? = some gj →
      (g.pc.level = 2 → gj.pc.level = 0) ∧ (gj.pc.level = 2 → g.pc.level = 0)) :
    Exclusive (gs.set i g) := by
  intro a b ga gb hab ha hb
  rcases getElem?_set_eq_some ha with ⟨rfl, rfl⟩ | ⟨hai, ha'⟩ <;>
    rcases getElem?_set_eq_some hb with ⟨rfl, rfl⟩ | ⟨hbi, hb'⟩
  · exact absurd rfl hab
  · exact (hg b gb hbi hb').1
  · exact (hg a ga hai ha').2
  · exact hx a b ga gb hab ha' hb'

/-- A goroutine that holds the mutex no more than before keeps it exclusive. -/
theorem Exclusive.set_of_le {gs : List Goroutine} (hx : Exclusive gs) {i : Nat} {g₀ g : Goroutine}
    (hi : gs[i]? = some g₀) (hle : g.pc.level ≤ g₀.pc.level) : Exclusive (gs.set i g) :=
  hx.set fun j gj hji hj =>
    ⟨fun h2 => hx i j g₀ gj (Ne.symm hji) hi hj (by have := g₀.pc.level_le_two; omega),
     fun h2 => by have := hx j i gj g₀ hji hj hi h2; omega⟩

/-- With nobody holding the mutex, a goroutine may take it in any way. -/
theorem Exclusive.set_of_free {gs : List Goroutine} (hx : Exclusive gs)
    (hfree : ∀ g ∈ gs, g.pc.level = 0) (i : Nat) (g : Goroutine) : Exclusive (gs.set i g) :=
  hx.set fun j gj _ hj =>
    ⟨fun _ => hfree gj (List.getElem?_mem hj),
     fun h2 => by have := hfree gj (List.getElem?_mem hj); omega⟩

/-- With no writer inside, a goroutine may take the mutex for reading. -/
theorem Exclusive.set_of_no_writer {gs : List Goroutine} (hx : Exclusive gs)
    (hnw : ∀ g ∈ gs, g.pc.level ≠ 2) (i : Nat) {g : Goroutine} (h : g.pc.level ≠ 2) :
    Exclusive (gs.set i g) :=
  hx.set fun _ gj _ hj =>
    ⟨fun h2 => absurd h2 h, fun h2 => absurd h2 (hnw gj (List.getElem?_mem hj))⟩

/-! ### Readers queued behind a writer -/

/-- **A queued reader has a writer ahead of it**: while a goroutine waits in `RLock` behind an
announced writer, some goroutine is that writer, announced or inside `addMetrics`. -/
def Queued (gs : List Goroutine) : Prop :=
  ∀ g ∈ gs, ∀ r, g.pc = .rwait r → ∃ w ∈ gs, w.pc.writing = true

/-- Some goroutine still satisfies `P` when goroutine `i` does, if it did. -/
theorem exists_mem_set {gs : List Goroutine} {i : Nat} {g g' : Goroutine} {P : Goroutine → Prop}
    (hg : gs[i]? = some g) (hw : P g → P g') (h : ∃ w ∈ gs, P w) : ∃ w ∈ gs.set i g', P w := by
  obtain ⟨w, hwm, hww⟩ := h
  obtain ⟨k, hk⟩ := List.mem_iff_getElem?.mp hwm
  by_cases hki : i = k
  · subst hki
    rw [hg] at hk
    cases hk
    exact ⟨g', List.mem_set _ _ (List.getElem?_eq_some_iff.mp hg).1 _, hw hww⟩
  · exact ⟨w, List.mem_iff_getElem?.mpr ⟨k, by rwa [List.getElem?_set_ne hki]⟩, hww⟩

/-- Goroutine `i` takes the state `g'`: readers stay queued behind a writer if `i` keeps being the
writer it was, and queues only behind one. -/
theorem Queued.set {gs : List Goroutine} (hq : Queued gs) {i : Nat} {g g' : Goroutine}
    (hg : gs[i]? = some g) (hw : g.pc.writing = true → g'.pc.writing = true)
    (hnew : ∀ r, g'.pc = .rwait r → ∃ w ∈ gs, w.pc.writing = true) : Queued (gs.set i g') := by
  intro x hx r hr
  rcases List.mem_or_eq_of_mem_set hx with hx | rfl
  · exact exists_mem_set hg hw (hq x hx r hr)
  · exact exists_mem_set hg hw (hnew r hr)

/-- Once the queued readers are let in, none is queued. -/
theorem queued_releaseReaders (gs : List Goroutine) : Queued (releaseReaders gs) := by
  intro x hx r hr
  obtain ⟨y, -, rfl⟩ := List.mem_map.mp hx
  cases hy : y.pc <;> simp [hy, Pc.release] at hr

/-! ### The shared state is the sequence's -/

/-- **The calls that took effect determine the shared state**: the critical section in progress,
if any, run to its end leaves `r`; with none in progress the state is `r` itself. -/
structure Completes (gs : List Goroutine) (mon : MetricsMonitor) (hist : List Obs)
    (r : Except Panic (MetricsMonitor × List Obs)) : Prop where
  /-- The goroutine inside `addMetrics` finishes it at `r`. -/
  writer : ∀ (i : Nat) (g : Goroutine) (p : AddPc) (m : TokenMetrics), gs[i]? = some g →
    g.pc = .add p m → finishAdd p m mon hist = r
  /-- Between critical sections the state is `r`. -/
  quiescent : (∀ (i : Nat) (g : Goroutine), gs[i]? = some g → g.pc.level ≠ 2) → .ok (mon, hist) = r

/-- A goroutine that neither was nor is inside `addMetrics` keeps the shared state complete. -/
theorem Completes.set_of_level {gs : List Goroutine} {mon : MetricsMonitor} {hist : List Obs}
    {r : Except Panic (MetricsMonitor × List Obs)} (hc : Completes gs mon hist r) {i : Nat}
    {g₀ g : Goroutine} (hi : gs[i]? = some g₀) (h₀ : g₀.pc.level ≠ 2) (h : g.pc.level ≠ 2) :
    Completes (gs.set i g) mon hist r where
  writer a ga p m ha hp := by
    rcases getElem?_set_eq_some ha with ⟨-, rfl⟩ | ⟨-, ha⟩
    · simp [hp, Pc.level] at h
    · exact hc.writer a ga p m ha hp
  quiescent hq := hc.quiescent fun a ga ha => by
    by_cases hai : a = i
    · subst hai; rw [hi] at ha; cases ha; exact h₀
    · exact hq a ga (by rwa [List.getElem?_set_ne (Ne.symm hai)])

/-- A writer holding the exclusive lock is the only goroutine inside `addMetrics`. -/
theorem Exclusive.not_writer {gs : List Goroutine} (hx : Exclusive gs) {i : Nat} {g₀ : Goroutine}
    (hi : gs[i]? = some g₀) (h₀ : g₀.pc.level ≠ 0) {j : Nat} {g : Goroutine} (hj : gs[j]? = some g)
    (hji : j ≠ i) : g.pc.level ≠ 2 :=
  fun h2 => h₀ (hx j i g g₀ hji hj hi h2)

/-! ### The invariant of every run -/

variable (marshal : Slice TokenMetrics → Except String Bytes)

/-- **The invariant of every run from `System.start maxMetrics programs`**: the mutex excludes, the
shared state is what the calls that took effect compute in the order they did, and each goroutine's
calls are those that took effect, then the one in progress, then those still to make. -/
structure System.Linearizable (maxMetrics : Int) (programs : List (List Call)) (s : System) :
    Prop where
  exclusive : Exclusive s.goroutines
  completes : Completes s.goroutines s.mon s.history
    (runCalls marshal (newMetricsMonitor maxMetrics) (s.order.map (·.2)))
  length_eq : s.goroutines.length = programs.length
  calls_eq : ∀ (i : Nat) (g : Goroutine), s.goroutines[i]? = some g →
    some (issued s.order i ++ g.pc.pending ++ g.program) = programs[i]?
  order_lt : ∀ x ∈ s.order, x.1 < programs.length
  queued : Queued s.goroutines

variable {marshal} {maxMetrics : Int} {programs : List (List Call)} {s : System}

theorem System.linearizable_start (maxMetrics : Int) (programs : List (List Call)) :
    (System.start maxMetrics programs).Linearizable marshal maxMetrics programs where
  exclusive i j gi gj _ hi _ h2 := by
    simp only [System.start, List.getElem?_map, Option.map_eq_some'] at hi
    obtain ⟨_, -, rfl⟩ := hi
    simp [Pc.level] at h2
  completes :=
    { writer := fun i g p m hi hp => by
        simp only [System.start, List.getElem?_map, Option.map_eq_some'] at hi
        obtain ⟨_, -, rfl⟩ := hi
        cases hp
      quiescent := fun _ => rfl }
  length_eq := by simp [System.start]
  calls_eq i g hi := by
    simp only [System.start, List.getElem?_map, Option.map_eq_some'] at hi
    obtain ⟨prog, hp, rfl⟩ := hi
    simp [System.start, issued, Pc.pending, hp]
  order_lt := by simp [System.start]
  queued g hg r hr := by
    obtain ⟨_, -, rfl⟩ := List.mem_map.mp hg
    cases hr

/-- A call of an existing goroutine takes effect: its index is one of the programs'. -/
theorem System.Linearizable.order_lt_concat (hs : s.Linearizable marshal maxMetrics programs)
    {i : Nat} {g : Goroutine} (hg : s.goroutines[i]? = some g) (c : Call) :
    ∀ x ∈ s.order ++ [(i, c)], x.1 < programs.length := by
  intro x hx
  rcases List.mem_append.mp hx with hx | hx
  · exact hs.order_lt x hx
  · rw [List.mem_singleton.mp hx, ← hs.length_eq]
    exact (List.getElem?_eq_some_iff.mp hg).1

/-- A goroutine whose calls still to take effect stay the same keeps every goroutine's calls
accounted for. -/
theorem System.Linearizable.calls_eq_set (hs : s.Linearizable marshal maxMetrics programs)
    {i : Nat} {g g' : Goroutine} (hg : s.goroutines[i]? = some g)
    (hcalls : g'.pc.pending ++ g'.program = g.pc.pending ++ g.program) :
    ∀ (j : Nat) (gj : Goroutine), (s.goroutines.set i g')[j]? = some gj →
      some (issued s.order j ++ gj.pc.pending ++ gj.program) = programs[j]? := by
  intro j gj hj
  rcases getElem?_set_eq_some hj with ⟨rfl, rfl⟩ | ⟨-, hj⟩
  · rw [← hs.calls_eq _ _ hg, List.append_assoc, hcalls, List.append_assoc]
  · exact hs.calls_eq j gj hj

/-- A goroutine's pending call `c` taking effect keeps every goroutine's calls accounted for. -/
theorem System.Linearizable.calls_eq_concat (hs : s.Linearizable marshal maxMetrics programs)
    {i : Nat} {g g' : Goroutine} {c : Call} (hg : s.goroutines[i]? = some g)
    (hc : g.pc.pending = [c]) (hc' : g'.pc.pending = []) (hprog : g'.program = g.program) :
    ∀ (j : Nat) (gj : Goroutine), (s.goroutines.set i g')[j]? = some gj →
      some (issued (s.order ++ [(i, c)]) j ++ gj.pc.pending ++ gj.program) = programs[j]? := by
  intro j gj hj
  rcases getElem?_set_eq_some hj with ⟨rfl, rfl⟩ | ⟨hji, hj⟩
  · rw [← hs.calls_eq _ _ hg]; simp [hc, hc', hprog]
  · rw [← hs.calls_eq _ _ hj]; simp [Ne.symm hji]

/-- Calling: an idle goroutine starts its next call. -/
theorem System.Linearizable.issue (hs : s.Linearizable marshal maxMetrics programs) {i : Nat}
    {c : Call} {cs : List Call} (hg : s.goroutines[i]? = some ⟨.idle, c :: cs⟩) :
    { s with goroutines := s.goroutines.set i ⟨c.entry, cs⟩ }.Linearizable marshal maxMetrics
      programs where
  exclusive := hs.exclusive.set_of_le hg (Call.entry_level c).le
  completes := hs.completes.set_of_level hg (by simp [Pc.level]) (by simp)
  length_eq := by simp [hs.length_eq]
  calls_eq := hs.calls_eq_set hg (by rw [Call.entry_pending]; rfl)
  order_lt := hs.order_lt
  queued := hs.queued.set hg (fun h => by cases h) fun r hr => by cases c <;> cases hr

/-- `mp.mu.Lock()` with the writers' mutex free: the writer announces itself. -/
theorem System.Linearizable.announce (hs : s.Linearizable marshal maxMetrics programs) {i : Nat}
    {m : TokenMetrics} {prog : List Call} (hg : s.goroutines[i]? = some ⟨.lock m, prog⟩) :
    { s with goroutines := s.goroutines.set i ⟨.wlock m, prog⟩ }.Linearizable marshal maxMetrics
      programs where
  exclusive := hs.exclusive.set_of_le hg le_rfl
  completes := hs.completes.set_of_level hg (by simp [Pc.level]) (by simp [Pc.level])
  length_eq := by simp [hs.length_eq]
  calls_eq := hs.calls_eq_set hg rfl
  order_lt := hs.order_lt
  queued := hs.queued.set hg (fun h => by cases h) fun r hr => by cases hr

/-- `mp.mu.Lock()` once no goroutine holds the mutex: the insert takes effect. -/
theorem System.Linearizable.lock (hs : s.Linearizable marshal maxMetrics programs) {i : Nat}
    {m : TokenMetrics} {prog : List Call} (hg : s.goroutines[i]? = some ⟨.wlock m, prog⟩)
    (hfree : ∀ g ∈ s.goroutines, g.pc.level = 0) :
    { s with goroutines := s.goroutines.set i ⟨.add .setID m, prog⟩
             order := s.order ++ [(i, Call.addMetrics m)] }.Linearizable marshal maxMetrics programs where
  exclusive := hs.exclusive.set_of_free hfree i _
  completes := by
    have hq := hs.completes.quiescent fun a ga ha => by
      have := hfree ga (List.getElem?_mem ha); omega
    refine ⟨fun a ga p m' ha hp => ?_, fun hq' => ?_⟩
    · rcases getElem?_set_eq_some ha with ⟨-, rfl⟩ | ⟨-, ha⟩
      · cases hp
        simp only [List.map_append, List.map_cons, List.map_nil, runCalls_append, ← hq]
        exact finishAdd_setID marshal _ _ _
      · have := hfree ga (List.getElem?_mem ha)
        simp [hp, Pc.level] at this
    · have := hq' i ⟨.add .setID m, prog⟩
        (List.getElem?_set_self (List.getElem?_eq_some_iff.mp hg).1)
      simp [Pc.level] at this
  length_eq := by simp [hs.length_eq]
  calls_eq := hs.calls_eq_concat hg rfl rfl rfl
  order_lt := hs.order_lt_concat hg _
  queued := hs.queued.set hg (fun _ => rfl) fun r hr => by cases hr

/-- A statement of the critical section before the unlock: the state stays complete. -/
theorem System.Linearizable.add (hs : s.Linearizable marshal maxMetrics programs) {i : Nat}
    {p : AddPc} {m m' : TokenMetrics} {prog : List Call} {mon' : MetricsMonitor}
    {hist' : List Obs} (hg : s.goroutines[i]? = some ⟨.add p m, prog⟩) (hp : p ≠ .unlock)
    (hst : addStmt m s.mon s.history p = .ok (m', mon', hist')) :
    { s with mon := mon', history := hist',
             goroutines := s.goroutines.set i ⟨p.after m', prog⟩ }.Linearizable marshal maxMetrics
      programs where
  exclusive := hs.exclusive.set_of_le hg (Pc.level_le_two _)
  completes := by
    have hw := hs.completes.writer i _ p m hg rfl
    rw [finishAdd_of_addStmt hst] at hw
    refine ⟨fun a ga q m'' ha hq => ?_, fun hq => ?_⟩
    · rcases getElem?_set_eq_some ha with ⟨-, rfl⟩ | ⟨hai, ha⟩
      · simp only [AddPc.after] at hq hw ⊢
        split at hq <;> simp_all
      · exact absurd (by simp [hq, Pc.level])
          (hs.exclusive.not_writer hg (by simp [Pc.level]) ha hai)
    · have := hq i _ (List.getElem?_set_self (List.getElem?_eq_some_iff.mp hg).1)
      simp only [AddPc.after] at this hw
      split at this <;> simp_all [Pc.level]
  length_eq := by simp [hs.length_eq]
  calls_eq := hs.calls_eq_set hg (by simp only [AddPc.after]; split <;> rfl)
  order_lt := hs.order_lt
  queued := hs.queued.set hg (fun _ => by cases p <;> first | rfl | exact absurd rfl hp)
    fun r hr => by cases p <;> cases hr

/-- A goroutine's readers let in: as their calls have not taken effect, nothing else changes. -/
theorem getElem?_releaseReaders (gs : List Goroutine) (j : Nat) :
    (releaseReaders gs)[j]? = gs[j]?.map fun g => { g with pc := g.pc.release } :=
  List.getElem?_map _ _ _

/-- **The deferred `mp.mu.Unlock()`**: the writer leaves, and the readers queued behind it hold the
read lock. -/
theorem System.Linearizable.unlock (hs : s.Linearizable marshal maxMetrics programs) {i : Nat}
    {m : TokenMetrics} {prog : List Call} (hg : s.goroutines[i]? = some ⟨.add .unlock m, prog⟩) :
    { s with goroutines := releaseReaders (s.goroutines.set i ⟨.idle, prog⟩) }.Linearizable marshal
      maxMetrics programs := by
  -- Nobody holds the mutex for writing once the writer has left.
  have hnw : ∀ (j : Nat) (g : Goroutine),
      (releaseReaders (s.goroutines.set i ⟨.idle, prog⟩))[j]? = some g → g.pc.level ≠ 2 := by
    intro j g hj
    rw [getElem?_releaseReaders, Option.map_eq_some'] at hj
    obtain ⟨g₀, hj, rfl⟩ := hj
    refine Pc.level_release ?_
    rcases getElem?_set_eq_some hj with ⟨-, rfl⟩ | ⟨hji, hj⟩
    · simp [Pc.level]
    · exact hs.exclusive.not_writer hg (by simp [Pc.level]) hj hji
  have hq := hs.completes.writer i _ .unlock m hg rfl
  rw [finishAdd_of_addStmt (show addStmt m s.mon s.history .unlock = .ok (m, s.mon, s.history)
    from rfl)] at hq
  refine ⟨fun a b ga gb _ ha _ h2 => absurd h2 (hnw a ga ha),
    ⟨fun a ga p m' ha hp => absurd (by simp [hp, Pc.level]) (hnw a ga ha), fun _ => hq⟩,
    by simp [releaseReaders, hs.length_eq], fun j gj hj => ?_, hs.order_lt,
    queued_releaseReaders _⟩
  rw [getElem?_releaseReaders, Option.map_eq_some'] at hj
  obtain ⟨g₀, hj, rfl⟩ := hj
  simpa using @System.Linearizable.calls_eq_set _ _ _ _ hs _ _ ⟨.idle, prog⟩ hg rfl j g₀ hj

/-- `mp.mu.RLock()`: with no writer, a reader enters. -/
theorem System.Linearizable.rlock (hs : s.Linearizable marshal maxMetrics programs) {i : Nat}
    {r : Reader} {prog : List Call} (hg : s.goroutines[i]? = some ⟨.rlock r, prog⟩)
    (hnw : ∀ g ∈ s.goroutines, g.pc.level ≠ 2) :
    { s with goroutines := s.goroutines.set i ⟨.read r, prog⟩ }.Linearizable marshal maxMetrics
      programs where
  exclusive := hs.exclusive.set_of_no_writer hnw i (by simp [Pc.level])
  completes := hs.completes.set_of_level hg (by simp [Pc.level]) (by simp [Pc.level])
  length_eq := by simp [hs.length_eq]
  calls_eq := hs.calls_eq_set hg rfl
  order_lt := hs.order_lt
  queued := hs.queued.set hg (fun h => by cases h) fun r hr => by cases hr

/-- `mp.mu.RLock()` behind an announced writer: the reader queues. -/
theorem System.Linearizable.queue (hs : s.Linearizable marshal maxMetrics programs) {i : Nat}
    {r : Reader} {prog : List Call} (hg : s.goroutines[i]? = some ⟨.rlock r, prog⟩)
    (hw : ∃ g ∈ s.goroutines, g.pc.writing = true) :
    { s with goroutines := s.goroutines.set i ⟨.rwait r, prog⟩ }.Linearizable marshal maxMetrics
      programs where
  exclusive := hs.exclusive.set_of_le hg le_rfl
  completes := hs.completes.set_of_level hg (by simp [Pc.level]) (by simp [Pc.level])
  length_eq := by simp [hs.length_eq]
  calls_eq := hs.calls_eq_set hg rfl
  order_lt := hs.order_lt
  queued := hs.queued.set hg (fun h => by cases h) fun _ _ => hw

/-- The copy or the encoding under the read lock: the read takes effect. -/
theorem System.Linearizable.read (hs : s.Linearizable marshal maxMetrics programs) {i : Nat}
    {r : Reader} {prog : List Call} (hg : s.goroutines[i]? = some ⟨.read r, prog⟩) :
    { s with goroutines := s.goroutines.set i ⟨.runlock (r.read marshal s.mon), prog⟩
             history := s.history ++ [r.read marshal s.mon]
             order := s.order ++ [(i, r.call)] }.Linearizable marshal maxMetrics programs where
  exclusive := hs.exclusive.set_of_le hg le_rfl
  completes := by
    have hnw : ∀ (a : Nat) (ga : Goroutine), s.goroutines[a]? = some ga → ga.pc.level ≠ 2 :=
      fun a ga ha => by
        by_cases hai : a = i
        · subst hai; rw [hg] at ha; cases ha; simp [Pc.level]
        · exact hs.exclusive.not_writer hg (by simp [Pc.level]) ha hai
    have hq := hs.completes.quiescent hnw
    refine ⟨fun a ga p m ha hp => ?_, fun _ => ?_⟩
    · rcases getElem?_set_eq_some ha with ⟨-, rfl⟩ | ⟨-, ha⟩
      · cases hp
      · exact absurd (by simp [hp, Pc.level]) (hnw a ga ha)
    · simp only [List.map_append, List.map_cons, List.map_nil, runCalls_append, ← hq]
      exact (record_reader_call marshal _ _ r).symm
  length_eq := by simp [hs.length_eq]
  calls_eq := hs.calls_eq_concat hg rfl rfl rfl
  order_lt := hs.order_lt_concat hg _
  queued := hs.queued.set hg (fun h => by cases h) fun r hr => by cases hr

/-- The deferred `mp.mu.RUnlock()`: the reader leaves. -/
theorem System.Linearizable.runlock (hs : s.Linearizable marshal maxMetrics programs) {i : Nat}
    {o : Obs} {prog : List Call} (hg : s.goroutines[i]? = some ⟨.runlock o, prog⟩) :
    { s with goroutines := s.goroutines.set i ⟨.idle, prog⟩ }.Linearizable marshal maxMetrics
      programs where
  exclusive := hs.exclusive.set_of_le hg (by simp [Pc.level])
  completes := hs.completes.set_of_level hg (by simp [Pc.level]) (by simp [Pc.level])
  length_eq := by simp [hs.length_eq]
  calls_eq := hs.calls_eq_set hg rfl
  order_lt := hs.order_lt
  queued := hs.queued.set hg (fun h => by cases h) fun r hr => by cases hr

/-- **One statement of any goroutine keeps the system linearizable**, and with `maxMetrics ≥ 0`
never panics. -/
theorem System.Linearizable.step (h0 : 0 ≤ maxMetrics)
    (hs : s.Linearizable marshal maxMetrics programs) (i : Nat) :
    ∃ s', s.step marshal i = .ok s' ∧ s'.Linearizable marshal maxMetrics programs := by
  unfold System.step
  cases hg : s.goroutines[i]? with
  | none => exact ⟨s, rfl, hs⟩
  | some g =>
    obtain ⟨pc, prog⟩ := g
    cases pc with
    | idle =>
      cases prog with
      | nil => exact ⟨s, rfl, hs⟩
      | cons c cs => exact ⟨_, rfl, hs.issue hg⟩
    | lock m =>
      by_cases hfree : ∀ g ∈ s.goroutines, g.pc.writing = false
      · exact ⟨_, by simp only [if_pos hfree]; rfl, hs.announce hg⟩
      · exact ⟨s, by simp only [if_neg hfree]; rfl, hs⟩
    | wlock m =>
      by_cases hfree : ∀ g ∈ s.goroutines, g.pc.level = 0
      · exact ⟨_, by simp only [if_pos hfree]; rfl, hs.lock hg hfree⟩
      · exact ⟨s, by simp only [if_neg hfree]; rfl, hs⟩
    | add p m =>
      obtain ⟨mon, hist, hrun, -⟩ := runCalls_coherent marshal h0 (s.order.map (·.2))
      have hw := hs.completes.writer i _ p m hg rfl
      cases hst : addStmt m s.mon s.history p with
      | error e => rw [finishAdd_of_addStmt_error hst, hrun] at hw; cases hw
      | ok r =>
        obtain ⟨m', mon', hist'⟩ := r
        by_cases hp : p = .unlock
        · subst hp
          obtain ⟨rfl, rfl, rfl⟩ : m' = m ∧ mon' = s.mon ∧ hist' = s.history := by
            simpa [addStmt, pure, Except.pure] using hst.symm
          exact ⟨_, by simp only [hst]; rfl, hs.unlock hg⟩
        · exact ⟨_, by simp only [hst, if_neg hp]; rfl, hs.add hg hp hst⟩
    | rlock r =>
      by_cases hfree : ∀ g ∈ s.goroutines, g.pc.writing = false
      · exact ⟨_, by simp only [if_pos hfree]; rfl, hs.rlock hg fun g hg h2 => by
          simpa [Pc.writing_of_level h2] using hfree g hg⟩
      · exact ⟨_, by simp only [if_neg hfree]; rfl, hs.queue hg (by simpa using hfree)⟩
    | rwait r => exact ⟨s, rfl, hs⟩
    | read r => exact ⟨_, rfl, hs.read hg⟩
    | runlock o => exact ⟨_, rfl, hs.runlock hg⟩

/-- **Every schedule keeps the system linearizable**, and with `maxMetrics ≥ 0` never panics. -/
theorem System.Linearizable.run (h0 : 0 ≤ maxMetrics)
    (hs : s.Linearizable marshal maxMetrics programs) (schedule : List Nat) :
    ∃ s', s.run marshal schedule = .ok s' ∧ s'.Linearizable marshal maxMetrics programs := by
  induction schedule generalizing s with
  | nil => exact ⟨s, rfl, hs⟩
  | cons i is ih =>
    obtain ⟨s₁, h₁, hs₁⟩ := hs.step h0 i
    obtain ⟨s₂, h₂, hs₂⟩ := ih hs₁
    exact ⟨s₂, by simp only [System.run, List.foldlM_cons, h₁]; exact h₂, hs₂⟩

/-- **A linearizable state against the sequence of its calls**: what the calls made visible is a
prefix of what the sequence makes visible, and between critical sections the state is the
sequence's. -/
theorem System.Linearizable.sequential (h0 : 0 ≤ maxMetrics)
    (hs : s.Linearizable marshal maxMetrics programs) :
    ∃ mon hist, Coherent marshal maxMetrics (s.order.map (·.2)) mon hist ∧ s.history <+: hist ∧
      ((∀ g ∈ s.goroutines, g.pc.level ≠ 2) → s.mon = mon ∧ s.history = hist) := by
  obtain ⟨mon, hist, hrun, hc⟩ := runCalls_coherent marshal h0 (s.order.map (·.2))
  refine ⟨mon, hist, hc, ?_, fun hq => ?_⟩
  · by_cases hw : ∃ (i : Nat) (g : Goroutine) (p : AddPc) (m : TokenMetrics),
        s.goroutines[i]? = some g ∧ g.pc = .add p m
    · obtain ⟨i, g, p, m, hi, hp⟩ := hw
      exact finishAdd_history_extends ((hs.completes.writer i g p m hi hp).trans hrun)
    · have hq := hs.completes.quiescent fun i g hi h2 => by
        obtain ⟨p, m, hp⟩ := Pc.level_eq_two_iff.mp h2
        exact hw ⟨i, g, p, m, hi, hp⟩
      rw [hrun] at hq
      cases hq
      exact List.prefix_refl _
  · have hq := hs.completes.quiescent fun i g hi => hq g (List.getElem?_mem hi)
    rw [hrun] at hq
    cases hq
    exact ⟨rfl, rfl⟩

/-! ### The metrics ring under any interleaving -/

/-- **The metrics ring under concurrent calls.** For every capacity `maxMetrics ≥ 0`, all goroutine
programs and every schedule of their statements, the run never panics, and:
* the `k`-th event emitted carries the `k`-th metric to take the lock, with `ID` `k`;
* every read returned the last `min(m, maxMetrics)` of the `m` events emitted before it;
* between critical sections every insert has emitted its event, `nextID` counts them, and the ring
  holds the last `min(m, maxMetrics)` of them, with the IDs `m - min(m, maxMetrics), …, m - 1`;
* each goroutine's calls took effect in its program order, none lost and none twice. -/
theorem addMetrics_concurrent_ring (marshal : Slice TokenMetrics → Except String Bytes)
    {maxMetrics : Int} (h0 : 0 ≤ maxMetrics) (programs : List (List Call)) (schedule : List Nat) :
    ∃ s, (System.start maxMetrics programs).run marshal schedule = .ok s ∧
      emitted s.history <+: withIDs (inserted (s.order.map (·.2))) ∧
      (∀ pre o post, s.history = pre ++ o :: post → o.Fresh marshal maxMetrics (emitted pre)) ∧
      ((∀ g ∈ s.goroutines, g.pc.level ≠ 2) →
        emitted s.history = withIDs (inserted (s.order.map (·.2))) ∧
        s.mon.nextID = (emitted s.history).length ∧
        s.mon.metrics.elems = window maxMetrics (emitted s.history) ∧
        s.mon.metrics.elems.map (·.id) =
          (List.range' ((emitted s.history).length - maxMetrics.toNat)
            (min (emitted s.history).length maxMetrics.toNat)).map (↑)) ∧
      (∀ (i : Nat) (g : Goroutine), s.goroutines[i]? = some g →
        some (issued s.order i ++ g.pc.pending ++ g.program) = programs[i]?) := by
  obtain ⟨s, hrun, hs⟩ := (System.linearizable_start maxMetrics programs).run h0 schedule
  obtain ⟨mon, hist, hc, ⟨t, ht⟩, hq⟩ := hs.sequential h0
  refine ⟨s, hrun, ?_, fun pre o post h => hc.fresh pre o (post ++ t) (by simp [← ht, h]),
    fun hq' => ?_, hs.calls_eq⟩
  · rw [← hc.emitted_eq]
    exact List.IsPrefix.filterMap _ ⟨t, ht⟩
  · obtain ⟨rfl, rfl⟩ := hq hq'
    have hw := hc.elems_eq
    rw [hc.maxMetrics_eq] at hw
    refine ⟨hc.emitted_eq, by rw [hc.nextID_eq, hc.emitted_eq, length_withIDs], hw, ?_⟩
    rw [hw, hc.emitted_eq, window_withIDs_ids, length_withIDs]

/-- Two goroutines at capacity `1`: one inserts and reads the ring, the other inserts, encodes the
ring and inserts again, their statements interleaved until both are done. -/
theorem addMetrics_concurrent_ring_interleaved :
    (0 : Int) ≤ 1 ∧
    ∃ s, (System.start 1
          [[.addMetrics ⟨0, ⟨0⟩, "a", -1, 3, 4, .negOne, .negOne, 10⟩, .getMetrics],
          [.addMetrics ⟨0, ⟨0⟩, "b", -1, 5, 6, .negOne, .negOne, 20⟩, .getMetricsJSON,
           .addMetrics ⟨0, ⟨0⟩, "c", -1, 7, 8, .negOne, .negOne, 30⟩]]).run
        (fun _ => .ok []) [0, 0, 1, 1, 0, 1, 0, 0, 0, 0, 0, 0, 0, 1, 1, 1, 1, 1, 1, 1, 1, 0, 0, 0,
          0, 1, 1, 1, 1, 1, 1, 1, 1, 1, 1, 1, 1, 1, 1, 1] = .ok s ∧
      emitted s.history <+: withIDs (inserted (s.order.map (·.2))) ∧
      (∀ pre o post, s.history = pre ++ o :: post → o.Fresh (fun _ => .ok []) 1 (emitted pre)) ∧
      ((∀ g ∈ s.goroutines, g.pc.level ≠ 2) →
        emitted s.history = withIDs (inserted (s.order.map (·.2))) ∧
        s.mon.nextID = (emitted s.history).length ∧
        s.mon.metrics.elems = window 1 (emitted s.history) ∧
        s.mon.metrics.elems.map (·.id) =
          (List.range' ((emitted s.history).length - (1 : Int).toNat)
            (min (emitted s.history).length (1 : Int).toNat)).map (↑)) ∧
      (∀ (i : Nat) (g : Goroutine), s.goroutines[i]? = some g →
        some (issued s.order i ++ g.pc.pending ++ g.program) =
          ([[.addMetrics ⟨0, ⟨0⟩, "a", -1, 3, 4, .negOne, .negOne, 10⟩, .getMetrics],
            [.addMetrics ⟨0, ⟨0⟩, "b", -1, 5, 6, .negOne, .negOne, 20⟩, .getMetricsJSON,
             .addMetrics ⟨0, ⟨0⟩, "c", -1, 7, 8, .negOne, .negOne, 30⟩]] : List (List Call))[i]?) :=
  ⟨by decide, addMetrics_concurrent_ring _ (by decide) _ _⟩

/-- **No insert is lost or made twice.** Once every goroutine has made all its calls, the calls of
each that took effect are its program, and the calls that took effect are an interleaving of all the
programs. The metrics inserted, in the order the inserts took the lock, are those the programs
give to `addMetrics`, each once; the events carry them in that order, numbered `0, 1, …`. -/
theorem addMetrics_concurrent_all_emitted (marshal : Slice TokenMetrics → Except String Bytes)
    {maxMetrics : Int} (h0 : 0 ≤ maxMetrics) (programs : List (List Call)) (schedule : List Nat) :
    ∃ s, (System.start maxMetrics programs).run marshal schedule = .ok s ∧
      ((∀ g ∈ s.goroutines, g.pc = .idle ∧ g.program = []) →
        (List.range programs.length).map (issued s.order) = programs ∧
        (s.order.map (·.2)).Perm programs.flatten ∧
        (inserted (s.order.map (·.2))).Perm (inserted programs.flatten) ∧
        emitted s.history = withIDs (inserted (s.order.map (·.2)))) := by
  obtain ⟨s, hrun, hs⟩ := (System.linearizable_start maxMetrics programs).run h0 schedule
  refine ⟨s, hrun, fun hdone => ?_⟩
  have hprog : (List.range programs.length).map (issued s.order) = programs := by
    refine List.ext_getElem (by simp) fun i h1 h2 => ?_
    have hi : i < s.goroutines.length := hs.length_eq ▸ h2
    have hcalls := hs.calls_eq i _ (List.getElem?_eq_getElem hi)
    rw [(hdone _ (List.getElem_mem hi)).1, (hdone _ (List.getElem_mem hi)).2,
      List.getElem?_eq_getElem h2] at hcalls
    simpa [Pc.pending] using hcalls
  have hperm : (s.order.map (·.2)).Perm programs.flatten := hprog ▸ order_perm_issued hs.order_lt
  obtain ⟨mon, hist, hc, -, hq⟩ := hs.sequential h0
  obtain ⟨-, rfl⟩ := hq fun g hg => by simp [(hdone g hg).1, Pc.level]
  exact ⟨hprog, hperm, hperm.filterMap _, hc.emitted_eq⟩

/-- The two goroutines of `addMetrics_concurrent_ring_interleaved`, at capacity `1`, run until
both are done. -/
theorem addMetrics_concurrent_all_emitted_interleaved :
    (0 : Int) ≤ 1 ∧
    ∃ s, (System.start 1
          [[.addMetrics ⟨0, ⟨0⟩, "a", -1, 3, 4, .negOne, .negOne, 10⟩, .getMetrics],
           [.addMetrics ⟨0, ⟨0⟩, "b", -1, 5, 6, .negOne, .negOne, 20⟩, .getMetricsJSON,
            .addMetrics ⟨0, ⟨0⟩, "c", -1, 7, 8, .negOne, .negOne, 30⟩]]).run
        (fun _ => .ok []) [0, 0, 1, 1, 0, 1, 0, 0, 0, 0, 0, 0, 0, 1, 1, 1, 1, 1, 1, 1, 1, 0, 0, 0,
          0, 1, 1, 1, 1, 1, 1, 1, 1, 1, 1, 1, 1, 1, 1, 1] = .ok s ∧
      ((∀ g ∈ s.goroutines, g.pc = .idle ∧ g.program = []) →
        (List.range 2).map (issued s.order) =
          [[.addMetrics ⟨0, ⟨0⟩, "a", -1, 3, 4, .negOne, .negOne, 10⟩, .getMetrics],
           [.addMetrics ⟨0, ⟨0⟩, "b", -1, 5, 6, .negOne, .negOne, 20⟩, .getMetricsJSON,
            .addMetrics ⟨0, ⟨0⟩, "c", -1, 7, 8, .negOne, .negOne, 30⟩]] ∧
        (s.order.map (·.2)).Perm
          ([[.addMetrics ⟨0, ⟨0⟩, "a", -1, 3, 4, .negOne, .negOne, 10⟩, .getMetrics],
            [.addMetrics ⟨0, ⟨0⟩, "b", -1, 5, 6, .negOne, .negOne, 20⟩, .getMetricsJSON,
             .addMetrics ⟨0, ⟨0⟩, "c", -1, 7, 8, .negOne, .negOne, 30⟩]] :
            List (List Call)).flatten ∧
        (inserted (s.order.map (·.2))).Perm (inserted
          ([[.addMetrics ⟨0, ⟨0⟩, "a", -1, 3, 4, .negOne, .negOne, 10⟩, .getMetrics],
            [.addMetrics ⟨0, ⟨0⟩, "b", -1, 5, 6, .negOne, .negOne, 20⟩, .getMetricsJSON,
             .addMetrics ⟨0, ⟨0⟩, "c", -1, 7, 8, .negOne, .negOne, 30⟩]] :
            List (List Call)).flatten) ∧
        emitted s.history = withIDs (inserted (s.order.map (·.2)))) :=
  ⟨by decide, addMetrics_concurrent_all_emitted _ (by decide) _ _⟩

end Llmsnap.Proxy
