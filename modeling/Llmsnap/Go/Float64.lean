import Mathlib.Data.List.Basic
import Mathlib.Data.Rat.Floor
import Llmsnap.Go.Runtime

/-! # `float64`

An IEEE 754 binary64 value as Go's `float64` computes with it: a finite value is kept as the
rational it denotes, and every operation rounds its exact result to the nearest binary64 value,
ties to even (`Float64.ofRat`). The sign of zero is not kept.

* **`Float64.add`**, **`Float64.div`** — `+` and `/` with the IEEE rules for infinities and NaN;
* **`Float64.beq`** — Go's `==` (NaN equals nothing);
* **`Float64.toInt`** — the conversion `int(f)`;
* **`ofRat_of_normal`** — in the normal range rounding gives a finite value within a factor of
  two, from the binade bounds of **`log2Floor`** (`log2Floor_spec`);
* **`ofRat_rel_of_normal`** — and within a relative `2 ^ -53` of the exact value. -/

namespace Llmsnap.Go

/-- An IEEE 754 binary64 value, Go's `float64`. -/
inductive Float64 where
  /-- A finite value, by the rational it denotes. -/
  | finite (value : ℚ)
  /-- `+Inf` or, when `negative`, `-Inf`. -/
  | inf (negative : Bool)
  /-- Not a number. -/
  | nan
  deriving DecidableEq, Repr

namespace Float64

/-- The integer nearest `x`, ties to the even one. -/
def roundHalfEven (x : ℚ) : ℤ :=
  let f := ⌊x⌋
  if x - f < 1 / 2 then f
  else if 1 / 2 < x - f then f + 1
  else if f % 2 = 0 then f else f + 1

/-- `⌊log₂ a⌋` for `a > 0`: with `a = n / d` it is `log₂ n − log₂ d` or one less. -/
def log2Floor (a : ℚ) : ℤ :=
  let k : ℤ := (Nat.log2 a.num.natAbs : ℤ) - Nat.log2 a.den
  if (2 : ℚ) ^ k ≤ a then k else k - 1

/-- **Round a rational to binary64**, to nearest with ties to even. One unit in the last place is
`2 ^ (max e (-1022) - 52)` for the binade `e` of the value (subnormals below `2 ^ -1022`), and a
magnitude that rounds to `2 ^ 1024` or more overflows to an infinity. -/
def ofRat (q : ℚ) : Float64 :=
  if q = 0 then finite 0
  else
    let ulp : ℚ := 2 ^ (max (log2Floor |q|) (-1022) - 52)
    let m : ℚ := roundHalfEven (|q| / ulp) * ulp
    if (2 : ℚ) ^ 1024 ≤ m then inf (q < 0) else finite (if q < 0 then -m else m)

/-- The conversion `float64(n)` of an integer. -/
def ofInt (n : ℤ) : Float64 := ofRat n

/-- The constant `-1.0`. -/
def negOne : Float64 := finite (-1)

/-- `a + b`. -/
def add : Float64 → Float64 → Float64
  | finite a, finite b => ofRat (a + b)
  | inf s, inf t => if s = t then inf s else nan
  | inf s, finite _ | finite _, inf s => inf s
  | _, _ => nan

/-- `a / b`. A zero divisor counts as `+0`. -/
def div : Float64 → Float64 → Float64
  | finite a, finite b =>
      if b = 0 then (if a = 0 then nan else inf (a < 0)) else ofRat (a / b)
  | inf s, finite b => inf (s != decide (b < 0))
  | finite _, inf _ => finite 0
  | _, _ => nan

/-- Go's `a == b` on `float64`: NaN equals nothing. -/
def beq : Float64 → Float64 → Bool
  | finite a, finite b => a = b
  | inf s, inf t => s = t
  | _, _ => false

@[simp] theorem beq_finite (a b : ℚ) : beq (finite a) (finite b) = decide (a = b) := rfl

/-- `-1.0 == -1.0`. -/
@[simp] theorem negOne_beq_negOne : negOne.beq negOne = true := by simp [negOne]

/-- The conversion `int(f)` as the gc compiler does it on amd64: truncation toward zero, and
`math.MinInt64` (what `CVTTSD2SQ` returns) for NaN, the infinities and values out of range. -/
def toInt : Float64 → ℤ
  | finite a =>
      let t := a.num.tdiv a.den
      if -2 ^ 63 ≤ t ∧ t < 2 ^ 63 then t else -2 ^ 63
  | _ => -2 ^ 63

/-- `int(f)` lies below the `int64` bound. -/
theorem toInt_lt (f : Float64) : f.toInt < 2 ^ 63 := by
  cases f with
  | finite a =>
    unfold toInt
    dsimp only
    split_ifs with h
    · exact h.2
    · omega
  | _ => simp only [toInt]; omega

/-! ### Rounding in the normal range -/

/-- `Nat.log2 n` is the binade of `n`. -/
theorem log2_bounds {n : ℕ} (hn : n ≠ 0) :
    (2 : ℚ) ^ (Nat.log2 n : ℤ) ≤ n ∧ (n : ℚ) < 2 ^ ((Nat.log2 n : ℤ) + 1) := by
  constructor
  · rw [zpow_natCast]
    exact_mod_cast Nat.log2_self_le hn
  · rw [show ((Nat.log2 n : ℤ) + 1) = ((Nat.log2 n + 1 : ℕ) : ℤ) by push_cast; ring, zpow_natCast]
    exact_mod_cast Nat.lt_log2_self

/-- **`log2Floor a` is the binade of `a`**: `2 ^ k ≤ a < 2 ^ (k + 1)`. With `a = n / d`, the
binades of `n` and `d` put `a` strictly between `2 ^ (k - 1)` and `2 ^ (k + 1)` for
`k = log₂ n − log₂ d`, and the test `2 ^ k ≤ a` picks the half. -/
theorem log2Floor_spec {a : ℚ} (ha : 0 < a) :
    (2 : ℚ) ^ log2Floor a ≤ a ∧ a < 2 ^ (log2Floor a + 1) := by
  unfold log2Floor
  dsimp only
  have hnum : 0 < a.num := Rat.num_pos.mpr ha
  have hn0 : a.num.natAbs ≠ 0 := by omega
  have hdpos : (0 : ℚ) < a.den := by exact_mod_cast Nat.pos_of_ne_zero a.den_nz
  have hmul : a * a.den = a.num.natAbs := by
    rw [Nat.cast_natAbs, Int.cast_abs, abs_of_pos (by exact_mod_cast hnum), Rat.mul_den_eq_num]
  obtain ⟨hn1, hn2⟩ := log2_bounds hn0
  obtain ⟨hd1, hd2⟩ := log2_bounds a.den_nz
  set ln : ℤ := (Nat.log2 a.num.natAbs : ℤ)
  set ld : ℤ := (Nat.log2 a.den : ℤ)
  have hlow : (2 : ℚ) ^ (ln - ld - 1) < a := by
    rw [← mul_lt_mul_right hdpos, hmul]
    calc (2 : ℚ) ^ (ln - ld - 1) * a.den < 2 ^ (ln - ld - 1) * 2 ^ (ld + 1) :=
          mul_lt_mul_of_pos_left hd2 (zpow_pos two_pos _)
      _ = 2 ^ ln := by rw [← zpow_add₀ two_ne_zero]; ring_nf
      _ ≤ a.num.natAbs := hn1
  have hhigh : a < 2 ^ (ln - ld + 1) := by
    rw [← mul_lt_mul_right hdpos, hmul]
    calc (a.num.natAbs : ℚ) < 2 ^ (ln + 1) := hn2
      _ = 2 ^ (ln - ld + 1) * 2 ^ ld := by rw [← zpow_add₀ two_ne_zero]; ring_nf
      _ ≤ 2 ^ (ln - ld + 1) * a.den := mul_le_mul_of_nonneg_left hd1 (zpow_pos two_pos _).le
  split_ifs with h
  · exact ⟨h, hhigh⟩
  · exact ⟨hlow.le, by rw [sub_add_cancel]; exact not_le.mp h⟩

/-- Rounding to an integer moves down to the floor or up to the next integer. -/
theorem roundHalfEven_bounds (x : ℚ) :
    ⌊x⌋ ≤ roundHalfEven x ∧ roundHalfEven x ≤ ⌊x⌋ + 1 := by
  unfold roundHalfEven
  dsimp only
  split_ifs <;> omega

/-- **A value in the normal range rounds to a finite value within a factor of two**: in binade
`e`, the value is between `2 ^ 52` and `2 ^ 53` units of `2 ^ (e - 52)`, and so is its rounding. -/
theorem ofRat_of_normal {q : ℚ} (hlo : (2 : ℚ) ^ (-1022 : ℤ) ≤ q) (hhi : q < 2 ^ (1023 : ℤ)) :
    ∃ m, ofRat q = finite m ∧ q / 2 < m ∧ m ≤ 2 * q := by
  have hq : 0 < q := lt_of_lt_of_le (zpow_pos two_pos _) hlo
  obtain ⟨he1, he2⟩ := log2Floor_spec hq
  have hemin : -1022 ≤ log2Floor q := by
    have := (zpow_lt_zpow_iff_right₀ one_lt_two).mp (lt_of_le_of_lt hlo he2)
    omega
  have hemax : log2Floor q ≤ 1022 := by
    have := (zpow_lt_zpow_iff_right₀ one_lt_two).mp (lt_of_le_of_lt he1 hhi)
    omega
  set e := log2Floor q
  have hulp : (0 : ℚ) < 2 ^ (e - 52) := zpow_pos two_pos _
  have hx1 : ((2 ^ 52 : ℤ) : ℚ) ≤ q / 2 ^ (e - 52) := by
    rw [le_div_iff₀ hulp]
    calc ((2 ^ 52 : ℤ) : ℚ) * 2 ^ (e - 52) = 2 ^ ((52 : ℤ) + (e - 52)) := by
          rw [zpow_add₀ two_ne_zero]; norm_cast
      _ = 2 ^ e := by ring_nf
      _ ≤ q := he1
  have hx2 : q / 2 ^ (e - 52) < ((2 ^ 53 : ℤ) : ℚ) := by
    rw [div_lt_iff₀ hulp]
    calc q < 2 ^ (e + 1) := he2
      _ = 2 ^ ((53 : ℤ) + (e - 52)) := by ring_nf
      _ = ((2 ^ 53 : ℤ) : ℚ) * 2 ^ (e - 52) := by rw [zpow_add₀ two_ne_zero]; norm_cast
  have hfl1 := Int.le_floor.mpr hx1
  have hfl2 := Int.floor_lt.mpr hx2
  obtain ⟨hr1, hr2⟩ := roundHalfEven_bounds (q / 2 ^ (e - 52))
  set r := roundHalfEven (q / 2 ^ (e - 52))
  have hm1 : (2 : ℚ) ^ e ≤ r * 2 ^ (e - 52) := by
    calc (2 : ℚ) ^ e = ((2 ^ 52 : ℤ) : ℚ) * 2 ^ (e - 52) := by
          rw [show ((2 ^ 52 : ℤ) : ℚ) = 2 ^ (52 : ℤ) by norm_cast, ← zpow_add₀ two_ne_zero]; ring_nf
      _ ≤ r * 2 ^ (e - 52) := mul_le_mul_of_nonneg_right (by exact_mod_cast (by omega)) hulp.le
  have hm2 : (r : ℚ) * 2 ^ (e - 52) ≤ 2 ^ (e + 1) := by
    calc (r : ℚ) * 2 ^ (e - 52) ≤ ((2 ^ 53 : ℤ) : ℚ) * 2 ^ (e - 52) :=
          mul_le_mul_of_nonneg_right (by exact_mod_cast (by omega)) hulp.le
      _ = 2 ^ (e + 1) := by
          rw [show ((2 ^ 53 : ℤ) : ℚ) = 2 ^ (53 : ℤ) by norm_cast, ← zpow_add₀ two_ne_zero]; ring_nf
  have hfin : ¬ (2 : ℚ) ^ 1024 ≤ r * 2 ^ (e - 52) := by
    have h1024 : (2 : ℚ) ^ (1024 : ℕ) = 2 ^ (1024 : ℤ) := (zpow_natCast 2 1024).symm
    have : (2 : ℚ) ^ (e + 1) < 2 ^ (1024 : ℤ) := zpow_lt_zpow_right₀ one_lt_two (by omega)
    rw [h1024]
    linarith
  have h2e : (2 : ℚ) ^ (e + 1) = 2 * 2 ^ e := by rw [zpow_add_one₀ two_ne_zero]; ring
  refine ⟨r * 2 ^ (e - 52), ?_, by linarith, by linarith⟩
  unfold ofRat
  rw [if_neg hq.ne', abs_of_pos hq, max_eq_left hemin]
  dsimp only
  rw [if_neg hfin, if_neg (not_lt.mpr hq.le)]

/-- `ofRat_of_normal` between `2 ^ -100` and `2 ^ 100`. -/
theorem ofRat_of_bounds {q : ℚ} (hlo : 1 / 2 ^ 100 ≤ q) (hhi : q ≤ 2 ^ 100) :
    ∃ m, ofRat q = finite m ∧ q / 2 < m ∧ m ≤ 2 * q := by
  refine ofRat_of_normal (le_trans ?_ hlo) (lt_of_le_of_lt hhi ?_)
  · calc (2 : ℚ) ^ (-1022 : ℤ) ≤ 2 ^ (-100 : ℤ) := zpow_le_zpow_right₀ one_le_two (by norm_num)
      _ = 1 / 2 ^ 100 := by rw [zpow_neg, one_div, ← zpow_natCast]; rfl
  · calc (2 : ℚ) ^ 100 = 2 ^ (100 : ℤ) := (zpow_natCast 2 100).symm
      _ < 2 ^ (1023 : ℤ) := zpow_lt_zpow_right₀ one_lt_two (by norm_num)

/-! ### The relative error of one rounding -/

/-- A power of two at or below `q` is at or below its binade. -/
theorem le_log2Floor {q : ℚ} {k : ℤ} (h : (2 : ℚ) ^ k ≤ q) : k ≤ log2Floor q := by
  have hq := lt_of_lt_of_le (zpow_pos two_pos _) h
  have := (zpow_lt_zpow_iff_right₀ one_lt_two).mp (lt_of_le_of_lt h (log2Floor_spec hq).2)
  omega

/-- A power of two above `q > 0` is above its binade. -/
theorem log2Floor_lt {q : ℚ} {k : ℤ} (hq : 0 < q) (h : q < 2 ^ k) : log2Floor q < k :=
  (zpow_lt_zpow_iff_right₀ one_lt_two).mp (lt_of_le_of_lt (log2Floor_spec hq).1 h)

/-- Rounding to an integer moves by at most one half: below the midpoint, and at it with an even
floor, down by the fractional part; otherwise up by one minus it. -/
theorem abs_roundHalfEven_sub_le (x : ℚ) : |(roundHalfEven x : ℚ) - x| ≤ 1 / 2 := by
  have h1 := sub_nonneg.mpr (Int.floor_le x)
  have h2 := sub_pos.mpr (Int.lt_floor_add_one x)
  unfold roundHalfEven
  dsimp only
  split_ifs with ha hb
  · rw [abs_sub_comm, abs_of_nonneg h1]; exact ha.le
  · push_cast; rw [abs_of_pos h2]; linarith only [hb]
  · rw [abs_sub_comm, abs_of_nonneg h1]; exact not_lt.mp hb
  · push_cast; rw [abs_of_pos h2]; linarith only [ha]

/-- **In the normal range `ofRat` rounds to the grid of the binade**: a multiple of `2 ^ (e - 52)`
for the binade `e` of `q`, which stays below `2 ^ 1024`. -/
theorem ofRat_eq_of_normal {q : ℚ} (hlo : (2 : ℚ) ^ (-1022 : ℤ) ≤ q) (hhi : q < 2 ^ (1023 : ℤ)) :
    ofRat q = finite (roundHalfEven (q / 2 ^ (log2Floor q - 52)) * 2 ^ (log2Floor q - 52)) := by
  have hq : 0 < q := lt_of_lt_of_le (zpow_pos two_pos _) hlo
  have hemin := le_log2Floor hlo
  have hemax := log2Floor_lt hq hhi
  set e := log2Floor q
  have hu : (0 : ℚ) < 2 ^ (e - 52) := zpow_pos two_pos _
  have hr := (abs_le.mp (abs_roundHalfEven_sub_le (q / 2 ^ (e - 52)))).2
  have hm : (roundHalfEven (q / 2 ^ (e - 52)) : ℚ) * 2 ^ (e - 52) ≤ q + 2 ^ (e - 52) / 2 := by
    have := mul_le_mul_of_nonneg_right hr hu.le
    rwa [sub_mul, div_mul_cancel₀ _ hu.ne', sub_le_iff_le_add, one_div_mul_eq_div, add_comm] at this
  have hfin : ¬ (2 : ℚ) ^ 1024 ≤ roundHalfEven (q / 2 ^ (e - 52)) * 2 ^ (e - 52) := by
    have hu' : (2 : ℚ) ^ (e - 52) ≤ 2 ^ (1023 : ℤ) := zpow_le_zpow_right₀ one_le_two (by omega)
    refine not_le.mpr ?_
    calc _ ≤ q + 2 ^ (e - 52) / 2 := hm
      _ < 2 ^ (1023 : ℤ) + 2 ^ (1023 : ℤ) :=
        add_lt_add_of_lt_of_le hhi ((half_le_self hu.le).trans hu')
      _ = 2 ^ 1024 := by rw [← two_mul, ← zpow_natCast, ← zpow_one_add₀ two_ne_zero]; rfl
  unfold ofRat
  rw [if_neg hq.ne', abs_of_pos hq, max_eq_left hemin]
  dsimp only
  rw [if_neg hfin, if_neg (not_lt.mpr hq.le)]

/-- **One rounding in the normal range is off by at most `2 ^ -53` of the value**: half a unit in
the last place, which is `2 ^ (e - 53)` for a value of at least `2 ^ e`. -/
theorem ofRat_rel_of_normal {q : ℚ} (hlo : (2 : ℚ) ^ (-1022 : ℤ) ≤ q) (hhi : q < 2 ^ (1023 : ℤ)) :
    ∃ m, ofRat q = finite m ∧ |m - q| ≤ q / 2 ^ 53 := by
  refine ⟨_, ofRat_eq_of_normal hlo hhi, ?_⟩
  have hq : 0 < q := lt_of_lt_of_le (zpow_pos two_pos _) hlo
  have he := (log2Floor_spec hq).1
  set e := log2Floor q
  have hu : (0 : ℚ) < 2 ^ (e - 52) := zpow_pos two_pos _
  calc |(roundHalfEven (q / 2 ^ (e - 52)) : ℚ) * 2 ^ (e - 52) - q|
      = |(roundHalfEven (q / 2 ^ (e - 52)) : ℚ) - q / 2 ^ (e - 52)| * 2 ^ (e - 52) := by
        rw [← abs_of_pos hu, ← abs_mul, abs_of_pos hu, sub_mul, div_mul_cancel₀ _ hu.ne']
    _ ≤ 1 / 2 * 2 ^ (e - 52) := mul_le_mul_of_nonneg_right (abs_roundHalfEven_sub_le _) hu.le
    _ = 2 ^ e / 2 ^ 53 := by
        rw [zpow_sub₀ two_ne_zero, show (2 : ℚ) ^ (52 : ℤ) = 2 ^ 52 from zpow_natCast 2 52]
        ring
    _ ≤ q / 2 ^ 53 := div_le_div_of_nonneg_right he (by positivity)

/-- `ofRat_rel_of_normal` between `2 ^ -100` and `2 ^ 100`, as bounds on the rounded value. -/
theorem ofRat_bounds_of_bounds {q : ℚ} (hlo : 1 / 2 ^ 100 ≤ q) (hhi : q ≤ 2 ^ 100) :
    ∃ m, ofRat q = finite m ∧ q * (1 - 1 / 2 ^ 53) ≤ m ∧ m ≤ q * (1 + 1 / 2 ^ 53) := by
  obtain ⟨m, hm, hrel⟩ :=
    ofRat_rel_of_normal (le_trans (by norm_num) hlo) (lt_of_le_of_lt hhi (by norm_num))
  obtain ⟨h1, h2⟩ := abs_le.mp hrel
  exact ⟨m, hm, by linarith, by linarith⟩

/-! ### Integers -/

/-- An integer rounds to itself. -/
theorem roundHalfEven_intCast (k : ℤ) : roundHalfEven k = k := by
  simp [roundHalfEven]

/-- A nonzero value rounds as its magnitude does, with its sign. -/
theorem ofRat_of_ne_zero {q : ℚ} (hq : q ≠ 0) :
    ofRat q = match ofRat |q| with
      | finite m => finite (if q < 0 then -m else m)
      | inf _ => inf (q < 0)
      | nan => nan := by
  have ha : |q| ≠ 0 := abs_ne_zero.mpr hq
  unfold ofRat
  simp only [if_neg hq, if_neg ha, abs_abs, not_lt.mpr (abs_nonneg q), if_false]
  split_ifs <;> rfl

/-- **An integer below `2 ^ 53` is a `float64`**: it rounds to itself. -/
theorem ofRat_natCast {n : ℕ} (h0 : 0 < n) (h : n < 2 ^ 53) : ofRat n = finite n := by
  have hn1 : (1 : ℚ) ≤ n := by exact_mod_cast h0
  have hn2 : (n : ℚ) < 2 ^ 53 := by exact_mod_cast h
  have hlo : (2 : ℚ) ^ (-1022 : ℤ) ≤ n := le_trans (by norm_num) hn1
  have hhi : (n : ℚ) < 2 ^ (1023 : ℤ) := lt_of_lt_of_le hn2 (by norm_num)
  rw [ofRat_eq_of_normal hlo hhi]
  have he0 : 0 ≤ log2Floor (n : ℚ) := le_log2Floor (by rw [zpow_zero]; exact hn1)
  have he52 : log2Floor (n : ℚ) < 53 :=
    log2Floor_lt (lt_of_lt_of_le one_pos hn1)
      (lt_of_lt_of_le hn2 (by norm_num : (2 : ℚ) ^ 53 ≤ 2 ^ (53 : ℤ)))
  set e := log2Floor (n : ℚ)
  have hk : (n : ℚ) / 2 ^ (e - 52) = ((n * 2 ^ (52 - e).toNat : ℕ) : ℤ) := by
    push_cast
    rw [← zpow_natCast, Int.toNat_of_nonneg (by omega), div_eq_mul_inv, ← zpow_neg, neg_sub]
  rw [hk, roundHalfEven_intCast]
  congr 1
  push_cast
  rw [← zpow_natCast, Int.toNat_of_nonneg (by omega), mul_assoc, ← zpow_add₀ two_ne_zero]
  simp


/-- An integer at or above `2 ^ 53` rounds to a value at or above `2 ^ 53`. -/
theorem ofRat_natCast_ge {n : ℕ} (h1 : 2 ^ 53 ≤ n) (h2 : n ≤ 2 ^ 63) :
    ∃ m, ofRat n = finite m ∧ 2 ^ 53 ≤ m := by
  have hn1 : (2 : ℚ) ^ 53 ≤ n := by exact_mod_cast h1
  have hn2 : (n : ℚ) ≤ 2 ^ 63 := by exact_mod_cast h2
  have hlo : (2 : ℚ) ^ (-1022 : ℤ) ≤ n := le_trans (by norm_num) hn1
  have hhi : (n : ℚ) < 2 ^ (1023 : ℤ) := lt_of_le_of_lt hn2 (by norm_num)
  refine ⟨_, ofRat_eq_of_normal hlo hhi, ?_⟩
  have he1 := (log2Floor_spec (lt_of_lt_of_le (by norm_num) hn1)).1
  have he53 : 53 ≤ log2Floor (n : ℚ) :=
    le_log2Floor (le_trans (by norm_num : (2 : ℚ) ^ (53 : ℤ) ≤ 2 ^ 53) hn1)
  set e := log2Floor (n : ℚ)
  have hu : (0 : ℚ) < 2 ^ (e - 52) := zpow_pos two_pos _
  have h2e : (2 : ℚ) ^ e = 2 ^ (52 : ℕ) * 2 ^ (e - 52) := by
    rw [← zpow_natCast, ← zpow_add₀ two_ne_zero]; congr 1; omega
  have hx : ((2 ^ 52 : ℤ) : ℚ) ≤ n / 2 ^ (e - 52) := by
    rw [le_div_iff₀ hu, show ((2 ^ 52 : ℤ) : ℚ) = 2 ^ 52 by norm_num, ← h2e]
    exact he1
  have hr : (2 ^ 52 : ℤ) ≤ roundHalfEven (n / 2 ^ (e - 52)) :=
    (Int.le_floor.mpr hx).trans (roundHalfEven_bounds _).1
  calc (2 : ℚ) ^ 53 ≤ 2 ^ e := by
        rw [← zpow_natCast]; exact zpow_le_zpow_right₀ one_le_two (by omega)
    _ = ((2 ^ 52 : ℤ) : ℚ) * 2 ^ (e - 52) := by rw [h2e]; norm_num
    _ ≤ roundHalfEven (n / 2 ^ (e - 52)) * 2 ^ (e - 52) :=
        mul_le_mul_of_nonneg_right (by exact_mod_cast hr) hu.le

end Float64

end Llmsnap.Go
