import Mathlib.Data.List.Basic
import Llmsnap.Go.Runtime

/-! # Package `bytes`, and `unicode.IsSpace`

The functions of Go's `bytes` package that `processStreamingResponse` calls, on `Bytes`:

* **`lastIndexByte`** — `bytes.LastIndexByte`, the last index of a byte or `-1`;
* **`trimSpace`** — `bytes.TrimSpace`, which strips white-space runes at both ends, decoding
  UTF-8 as `utf8.DecodeRune` and `utf8.DecodeLastRune` do;
* **`hasPrefix`** — `bytes.HasPrefix`;
* **`split`** — `bytes.Split` on a one-byte separator.

The white-space runes are those of `unicode.IsSpace` (`spaceRunes`), shared with `strings`. -/

namespace Llmsnap.Go

/-- The code points `unicode.IsSpace` accepts: `'\t'`, `'\n'`, `'\v'`, `'\f'`, `'\r'`, `' '`,
U+0085, U+00A0, and the `White_Space` runes above Latin-1. -/
def spaceRunes : List ℕ :=
  [0x09, 0x0A, 0x0B, 0x0C, 0x0D, 0x20, 0x85, 0xA0, 0x1680, 0x2000, 0x2001, 0x2002, 0x2003,
    0x2004, 0x2005, 0x2006, 0x2007, 0x2008, 0x2009, 0x200A, 0x2028, 0x2029, 0x202F, 0x205F, 0x3000]

/-- `unicode.IsSpace`: the rune is one of `spaceRunes`. -/
def isSpace (c : Char) : Bool := c.toNat ∈ spaceRunes

/-- The ASCII bytes of a string literal such as `"data:"`. -/
def asciiBytes (s : String) : Bytes := s.toList.map fun c => c.toNat.toUInt8

namespace Bytes

/-- `bytes.LastIndexByte(s, c)`: the index of the last `c` in `s`, or `-1`. -/
def lastIndexByte : Bytes → UInt8 → Int
  | [], _ => -1
  | b :: s, c =>
      let i := lastIndexByte s c
      if 0 ≤ i then i + 1 else if b = c then 0 else -1

/-- **What `lastIndexByte` finds.** Either `c` is absent and the answer is `-1`, or `s` splits at
its last `c`, whose index is the answer. -/
theorem lastIndexByte_spec (s : Bytes) (c : UInt8) :
    (c ∉ s ∧ lastIndexByte s c = -1) ∨
      ∃ l r, s = l ++ c :: r ∧ c ∉ r ∧ lastIndexByte s c = l.length := by
  induction s with
  | nil => simp [lastIndexByte]
  | cons b s ih =>
    rcases ih with ⟨hc, hi⟩ | ⟨l, r, rfl, hr, hi⟩
    · by_cases hb : b = c
      · subst hb
        exact .inr ⟨[], s, rfl, hc, by simp [lastIndexByte, hi]⟩
      · exact .inl ⟨by simp [hc, Ne.symm hb], by simp [lastIndexByte, hi, hb]⟩
    · refine .inr ⟨b :: l, r, rfl, hr, ?_⟩
      simp only [lastIndexByte, hi, List.length_cons]
      split <;> omega

/-- The UTF-8 encodings of the white-space runes. -/
def spaceEncodings : List Bytes :=
  spaceRunes.map fun n => String.utf8EncodeChar (Char.ofNat n)

theorem spaceEncodings_pos : ∀ e ∈ spaceEncodings, 0 < e.length := by decide

/-- `bytes.TrimLeftFunc(s, unicode.IsSpace)`: `utf8.DecodeRune` reads a white-space rune exactly
when `s` starts with its encoding. -/
def trimLeftSpace (s : Bytes) : Bytes :=
  match h : spaceEncodings.find? (·.isPrefixOf s) with
  | some e => trimLeftSpace (s.drop e.length)
  | none => s
termination_by s.length
decreasing_by
  have hpos := spaceEncodings_pos e (List.mem_of_find?_eq_some h)
  have hp := List.find?_some h
  have hle := (List.isPrefixOf_iff_prefix.mp hp).length_le
  simp only [List.length_drop]
  omega

/-- `bytes.TrimRightFunc(s, unicode.IsSpace)`: `utf8.DecodeLastRune` reads a white-space rune
exactly when `s` ends with its encoding. -/
def trimRightSpace (s : Bytes) : Bytes :=
  match h : spaceEncodings.find? (·.isSuffixOf s) with
  | some e => trimRightSpace (s.take (s.length - e.length))
  | none => s
termination_by s.length
decreasing_by
  have hpos := spaceEncodings_pos e (List.mem_of_find?_eq_some h)
  have hp := List.find?_some h
  have hle := (List.isSuffixOf_iff_suffix.mp hp).length_le
  simp only [List.length_take]
  omega

/-- **`bytes.TrimSpace`**: its ASCII fast path and its `TrimFunc(s, unicode.IsSpace)` fallback
strip the same runes, left end first. -/
def trimSpace (s : Bytes) : Bytes := trimRightSpace (trimLeftSpace s)

@[simp] theorem trimSpace_nil : trimSpace [] = [] := by
  have hl : spaceEncodings.find? (·.isPrefixOf []) = none := by decide
  have hr : spaceEncodings.find? (·.isSuffixOf []) = none := by decide
  unfold trimSpace trimLeftSpace
  split
  · simp_all
  · unfold trimRightSpace
    split <;> simp_all

/-- `bytes.HasPrefix(s, prefix)`. -/
def hasPrefix (s pre : Bytes) : Bool := pre.isPrefixOf s

/-- `bytes.Split(s, []byte{sep})`: the pieces between the separators, `n + 1` of them for `n`
separators. -/
def split (s : Bytes) (sep : UInt8) : List Bytes := s.splitOn sep

/-- Without a separator `split` gives the whole slice. -/
theorem split_of_not_mem {s : Bytes} {c : UInt8} (h : c ∉ s) : split s c = [s] :=
  List.splitOnP_eq_single _ _ fun x hx hxc => h (by simpa using (beq_iff_eq.mp hxc) ▸ hx)

/-- Splitting at one separator: the pieces of the two sides, concatenated. -/
theorem split_append_cons (l r : Bytes) (c : UInt8) :
    split (l ++ c :: r) c = split l c ++ split r c := by
  induction l with
  | nil => simp [split, List.splitOn, List.splitOnP_cons]
  | cons x l ih =>
    simp only [split, List.splitOn] at ih ⊢
    rw [List.cons_append, List.splitOnP_cons, List.splitOnP_cons, ih]
    split
    · rfl
    · obtain ⟨p, ps, hp⟩ := List.exists_cons_of_ne_nil (List.splitOnP_ne_nil (· == c) l)
      simp [hp]

end Bytes

end Llmsnap.Go
