import Mathlib.Data.List.DropRight
import Mathlib.Data.List.Infix
import Mathlib.Data.String.Basic
import Llmsnap.Go.Bytes

/-! # Package `strings`, and `slices.Sort` on strings

A Go `string` read from YAML is valid UTF-8, so it is a Lean `String`; Go compares strings byte by
byte, and on valid UTF-8 that is the code-point order Lean's `String` carries.

* **`trimSpace`** — `strings.TrimSpace`;
* **`split`** / **`join`** — `strings.Split` and `strings.Join` for a one-character separator;
* **`contains`** — `strings.Contains`;
* **`toUpper`** — `strings.ToUpper`, whose non-ASCII path maps `unicode.ToUpper` over the runes;
* **`sort`** — `slices.Sort` on a `[]string`. -/

namespace Llmsnap.Go.Strings

/-- `strings.TrimSpace`: drop the `unicode.IsSpace` runes at both ends. -/
def trimSpace (s : String) : String := ⟨(s.toList.dropWhile isSpace).rdropWhile isSpace⟩

/-- `strings.Split(s, sep)` for a one-character `sep`: the pieces between the separators. -/
def split (s : String) (sep : Char) : List String := (s.toList.splitOn sep).map String.mk

/-- `strings.Join(elems, sep)` for a one-character `sep`. -/
def join (elems : List String) (sep : Char) : String := ⟨[sep].intercalate (elems.map String.toList)⟩

/-- `strings.Contains(s, substr)`. -/
def contains (s substr : String) : Bool := decide (substr.toList <:+: s.toList)

/-- `strings.ToUpper`, given the rune mapping `unicode.ToUpper` as `upperRune`: an ASCII string is
upper-cased byte by byte, any other string rune by rune. -/
def toUpper (upperRune : Char → Char) (s : String) : String :=
  if s.toList.all (·.toNat < 0x80) then ⟨s.toList.map Char.toUpper⟩ else ⟨s.toList.map upperRune⟩

/-- `slices.Sort` on a `[]string`: ascending order. -/
def sort (xs : List String) : List String := xs.mergeSort fun a b => decide (a ≤ b)

/-! ### `trimSpace` -/

/-- Trimming the right end keeps a left end that is not white space. -/
theorem dropWhile_rdropWhile {p : Char → Bool} {l : List Char} (h : l.dropWhile p = l) :
    (l.rdropWhile p).dropWhile p = l.rdropWhile p := by
  obtain ⟨t, ht⟩ := List.rdropWhile_prefix p l
  cases hr : l.rdropWhile p with
  | nil => rfl
  | cons a r =>
    rw [hr] at ht
    have ha : ¬p a := by
      have h0 := List.dropWhile_eq_self_iff.mp h (by rw [← ht]; simp)
      simpa [← ht] using h0
    simp [List.dropWhile_cons, ha]

/-- `strings.TrimSpace` is idempotent. -/
@[simp] theorem trimSpace_trimSpace (s : String) : trimSpace (trimSpace s) = trimSpace s := by
  rw [String.ext_iff]
  exact (congrArg _ (dropWhile_rdropWhile (List.dropWhile_idempotent _ _))).trans
    (List.rdropWhile_idempotent _ _)

/-- What `trimSpace` keeps is a piece of its argument. -/
theorem trimSpace_infix (s : String) : (trimSpace s).toList <:+: s.toList :=
  (List.rdropWhile_prefix _ _).isInfix.trans (List.dropWhile_suffix _).isInfix

/-! ### `split` and `join` -/

/-- No piece of `l.splitOn c` holds `c`. -/
theorem not_mem_of_mem_splitOn {α : Type} [DecidableEq α] {c : α} :
    ∀ {l q : List α}, q ∈ l.splitOn c → c ∉ q
  | [], q, hq => by simp_all [List.splitOn_nil]
  | x :: l, q, hq => by
    have ih := @not_mem_of_mem_splitOn α _ c l
    simp only [List.splitOn, List.splitOnP_cons] at hq ih
    split at hq
    · rcases List.mem_cons.mp hq with rfl | hq
      · exact List.not_mem_nil c
      · exact ih hq
    · obtain ⟨p, ps, hp⟩ := List.exists_cons_of_ne_nil (List.splitOnP_ne_nil (· == c) l)
      rw [hp] at hq ih
      simp only [List.modifyHead_cons, List.mem_cons] at hq
      rcases hq with rfl | hq
      · rename_i hx
        simp only [List.mem_cons, not_or]
        exact ⟨fun h => hx (beq_iff_eq.mpr h.symm), ih (List.mem_cons_self _ _)⟩
      · exact ih (List.mem_cons_of_mem _ hq)

/-- No piece of a split holds the separator. -/
theorem not_mem_of_mem_split {s p : String} {c : Char} (hp : p ∈ split s c) : c ∉ p.toList := by
  simp only [split, List.mem_map] at hp
  obtain ⟨q, hq, rfl⟩ := hp
  exact not_mem_of_mem_splitOn hq

/-- Splitting a join gives the joined strings back, when none holds the separator. -/
theorem split_join {xs : List String} {c : Char} (hc : ∀ x ∈ xs, c ∉ x.toList) (hne : xs ≠ []) :
    split (join xs c) c = xs := by
  simp only [split, join, String.toList]
  rw [List.splitOn_intercalate _ c (by simpa using hc) (by simpa using hne), List.map_map]
  exact List.map_id'' (fun _ => rfl) _

/-- Joining nothing gives the empty string. -/
@[simp] theorem join_nil (c : Char) : join [] c = "" := by rw [String.ext_iff]; rfl

/-! ### `toUpper` -/

/-- Upper-casing maps rune to rune, so only the empty string becomes empty. -/
@[simp] theorem toUpper_eq_empty {upperRune : Char → Char} {s : String} :
    toUpper upperRune s = "" ↔ s = "" := by
  obtain ⟨l⟩ := s
  unfold toUpper
  cases l <;> split_ifs <;> simp [String.ext_iff]

/-! ### `sort` -/

@[simp] theorem sort_nil : sort [] = [] := List.mergeSort_nil

/-- `slices.Sort` permutes its argument. -/
theorem sort_perm (xs : List String) : List.Perm (sort xs) xs := List.mergeSort_perm _ _

/-- `slices.Sort` leaves its argument in ascending order. -/
theorem sort_sorted (xs : List String) : (sort xs).Pairwise (· ≤ ·) := by
  refine (@List.sorted_mergeSort String (fun a b => decide (a ≤ b)) ?_ ?_ xs).imp
    (of_decide_eq_true ·)
  · exact fun a b c hab hbc => decide_eq_true (le_trans (of_decide_eq_true hab) (of_decide_eq_true hbc))
  · exact fun a b => by rcases le_total a b with h | h <;> simp [h]

/-- Sorting a list already in ascending order leaves it as it is. -/
theorem sort_of_sorted {xs : List String} (h : xs.Pairwise (· ≤ ·)) : sort xs = xs :=
  List.mergeSort_of_sorted (h.imp (decide_eq_true ·))

end Llmsnap.Go.Strings
