import Mathlib.Order.Basic
import Mathlib.Tactic.Common
import Mathlib.Algebra.Group.Int

/-! # Go run-time values used by the model

The parts of Go's run time that `proxy/metrics_monitor.go` and `proxy/config` lean on:

* **`Bytes`** — a `[]byte` by its contents;
* **`slice s lo hi`** — the slice expression `s[lo:hi]` with its bounds check, the only operation
  of the modelled code that can panic (`Panic`);
* **`Slice α`** — a slice value that may be `nil`, as `json.Marshal` tells the two apart;
* **`wrapInt64`** — two's-complement wrap-around of `int64` arithmetic;
* **`Time`** and **`Duration`** — readings of the clock, passed in where the code calls `time.Now`.

Go's `int` is 64 bits wide; counters and lengths are `Int` here, and `wrapInt64` is applied where
the code's arithmetic can reach the bound on input data. -/

namespace Llmsnap.Go

/-- A Go byte slice `[]byte`, by its contents. -/
abbrev Bytes := List UInt8

/-- A run-time panic of the modelled code. -/
inductive Panic where
  /-- `runtime error: slice bounds out of range [lo:hi] with length len`. -/
  | sliceBounds (lo hi len : Int)
  deriving DecidableEq, Repr

/-- **The slice expression `s[lo:hi]`.** Go checks `0 ≤ lo ≤ hi ≤ cap(s)`; the capacity of a slice
is not modelled, so the check is made against `len(s)`, which is the stricter of the two. -/
def slice {α : Type} (s : List α) (lo hi : Int) : Except Panic (List α) :=
  if 0 ≤ lo ∧ lo ≤ hi ∧ hi ≤ s.length then .ok ((s.take hi.toNat).drop lo.toNat)
  else .error (.sliceBounds lo hi s.length)

theorem slice_of_le {α : Type} {s : List α} {lo hi : Int} (h0 : 0 ≤ lo) (h1 : lo ≤ hi)
    (h2 : hi ≤ s.length) : slice s lo hi = .ok ((s.take hi.toNat).drop lo.toNat) :=
  if_pos ⟨h0, h1, h2⟩

/-- A slice expression that does not panic had its bounds in order. -/
theorem slice_ok_iff {α : Type} {s : List α} {lo hi : Int} :
    (∃ r, slice s lo hi = .ok r) ↔ 0 ≤ lo ∧ lo ≤ hi ∧ hi ≤ s.length := by
  unfold slice
  split <;> simp_all

/-- A Go slice value: `none` is the `nil` slice, `some l` a non-nil slice holding `l`. -/
abbrev Slice (α : Type) := Option (List α)

/-- The elements of a slice; `nil` has none. -/
def Slice.elems {α : Type} (s : Slice α) : List α := s.getD []

@[simp] theorem Slice.elems_none {α : Type} : Slice.elems (none : Slice α) = [] := rfl

@[simp] theorem Slice.elems_some {α : Type} (l : List α) : Slice.elems (some l) = l := rfl

/-- Two's-complement wrap-around of an integer into the `int64` range. -/
def wrapInt64 (x : Int) : Int := (x + 2 ^ 63) % 2 ^ 64 - 2 ^ 63

/-- A value already in the `int64` range is its own wrap-around. -/
theorem wrapInt64_of_mem {x : Int} (h0 : -2 ^ 63 ≤ x) (h1 : x < 2 ^ 63) : wrapInt64 x = x := by
  unfold wrapInt64
  rw [Int.emod_eq_of_lt (by omega) (by omega)]
  omega

/-- A wrapped value lies below the `int64` bound. -/
theorem wrapInt64_lt (x : Int) : wrapInt64 x < 2 ^ 63 := by
  unfold wrapInt64
  omega

/-- A `time.Time` reading, as nanoseconds on the monotonic clock. -/
structure Time where
  /-- Nanoseconds. -/
  ns : Int
  deriving DecidableEq, Repr

/-- A `time.Duration`: a signed count of nanoseconds. -/
structure Duration where
  /-- Nanoseconds. -/
  ns : Int
  deriving DecidableEq, Repr

/-- `Duration.Milliseconds`: whole milliseconds, truncated toward zero. -/
def Duration.milliseconds (d : Duration) : Int := d.ns.tdiv 1000000

/-- A `time.Duration` is an `int64` of nanoseconds, and its milliseconds stay below the bound. -/
theorem Duration.milliseconds_lt {d : Duration} (h : d.ns < 2 ^ 63) : d.milliseconds < 2 ^ 63 := by
  unfold Duration.milliseconds
  by_cases h0 : 0 ≤ d.ns
  · rw [Int.tdiv_eq_ediv h0 (by omega)]
    omega
  · have hneg : d.ns.tdiv 1000000 = -((-d.ns).tdiv 1000000) := by rw [Int.neg_tdiv, Int.neg_neg]
    have := Int.tdiv_nonneg (show 0 ≤ -d.ns by omega) (show (0 : Int) ≤ 1000000 by omega)
    omega

end Llmsnap.Go
