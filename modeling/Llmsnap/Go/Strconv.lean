import Llmsnap.Go.Float64

/-! # `strconv.ParseFloat`

`gjson` reads a number, and the float value of a string, with `strconv.ParseFloat(s, 64)` and
drops its error. `ParseFloat` tries `special` (the infinities and NaN) and otherwise `readFloat`,
which reads a decimal or hexadecimal literal at the start of `s`, digit separators `_` included;
what follows the literal makes `s` a syntax error, for which the value is `0`.

The conversions after `readFloat` (`atofHex`, the Eisel–Lemire algorithm and the `decimal`
fallback) keep at most 19 decimal or 16 hexadecimal digits in a `uint64` and carry the rest as a
truncation flag; what they compute is the literal's exact value rounded to nearest, ties to even,
which is how it is given here: `readFloat` returns the exact value and `Float64.ofRat` rounds it.

* **`special`** — `inf`, `infinity` and `nan` in any case, a sign allowed before the infinities
  only;
* **`readFloat`** — the literal: sign, `0x` prefix, mantissa (`readMantissa`), exponent
  (`readExponent`, whose digits stop counting at `10000`) and the `underscoreOK` check;
* **`parseFloat`** — `ParseFloat` with its error dropped;
* **`parseFloat_digits`**, **`parseFloat_neg_digits`** — a run of decimal digits, signed or not,
  is its value rounded. -/

namespace Llmsnap.Go

/-- The value of a decimal digit string. -/
def digitsValue (ds : List Char) : ℕ :=
  ds.foldl (fun acc c => 10 * acc + (c.toNat - '0'.toNat)) 0

namespace Strconv

/-- `lower(c)`: `c | ('x' - 'X')`, which folds an ASCII letter to lower case. -/
def lower (c : Char) : ℕ := c.toNat ||| ('x'.toNat - 'X'.toNat)

/-- An optional sign: whether it is `-`, and what follows it. -/
def readSign : List Char → Bool × List Char
  | c :: t => if c = '+' then (false, t) else if c = '-' then (true, t) else (false, c :: t)
  | [] => (false, [])

/-- `s[i] == '0' && lower(s[i+1]) == 'x'` with `i+2 < len(s)`: a hexadecimal mantissa follows. -/
def hexPrefix : List Char → Bool × List Char
  | c :: x :: u =>
    if c = '0' ∧ lower x = 'x'.toNat ∧ u ≠ [] then (true, u) else (false, c :: x :: u)
  | s => (false, s)

/-- The value of `c` as a digit of the mantissa: `'0'`–`'9'`, and `a`–`f` in either case when it
is hexadecimal. -/
def digitVal (hex : Bool) (c : Char) : Option ℕ :=
  if c.isDigit then some (c.toNat - '0'.toNat)
  else if hex ∧ 'a'.toNat ≤ lower c ∧ lower c ≤ 'f'.toNat then some (lower c - 'a'.toNat + 10)
  else none

/-- What `readFloat`'s mantissa loop has read. -/
structure Mantissa where
  /-- The value of the digits, the point ignored. -/
  value : ℕ
  /-- How many digits were read: `sawdigits` is that there are any. -/
  digits : ℕ
  /-- How many of them follow the point. -/
  fracDigits : ℕ
  /-- Whether the point was read. -/
  sawdot : Bool
  /-- Whether an `_` was read. -/
  underscores : Bool
  deriving DecidableEq, Repr

/-- **The mantissa loop of `readFloat`**, in base 16 when `hex` and 10 otherwise: digits, `_` and
one `.`, up to the first other character or a second `.`. -/
def readMantissa (hex : Bool) (m : Mantissa) : List Char → Mantissa × List Char
  | [] => (m, [])
  | c :: t =>
    if c = '_' then readMantissa hex { m with underscores := true } t
    else if c = '.' then
      if m.sawdot then (m, c :: t) else readMantissa hex { m with sawdot := true } t
    else
      match digitVal hex c with
      | some d =>
        readMantissa hex
          { m with
            value := (if hex then 16 else 10) * m.value + d
            digits := m.digits + 1
            fracDigits := if m.sawdot then m.fracDigits + 1 else m.fracDigits } t
      | none => (m, c :: t)

example : readMantissa true ⟨0, 0, 0, false, false⟩ "1.8p1".toList =
    (⟨24, 2, 1, true, false⟩, "p1".toList) := by decide

/-- The exponent's digit loop from the value `e`: digits and `_`, a digit counted only while
`e < 10000`. The value, whether an `_` was read, and what follows. -/
def readExpDigits (e : ℕ) (underscores : Bool) : List Char → ℕ × Bool × List Char
  | [] => (e, underscores, [])
  | c :: t =>
    if c = '_' then readExpDigits e true t
    else if c.isDigit then
      readExpDigits (if e < 10000 then e * 10 + (c.toNat - '0'.toNat) else e) underscores t
    else (e, underscores, c :: t)

/-- **The exponent after the mantissa**: `e` in either case (`p` after `0x`, where it is required),
an optional sign, and digits, the first right after the sign. The exponent, whether an `_` was
read, and what follows; `none` where `readFloat` fails. -/
def readExponent (hex underscores : Bool) : List Char → Option (ℤ × Bool × List Char)
  | c :: t =>
    if lower c = (if hex then 'p' else 'e').toNat then
      match readSign t with
      | (neg, d :: u) =>
        if d.isDigit then
          let (e, underscores, rest) := readExpDigits 0 underscores (d :: u)
          some (if neg then -(e : ℤ) else e, underscores, rest)
        else none
      | (_, []) => none
    else if hex then none
    else some (0, underscores, c :: t)
  | [] => if hex then none else some (0, underscores, [])

/-- The loop of `underscoreOK` from the class `saw` of the last character: `'0'` a digit or the
base prefix, `'_'` an underscore, `'^'` the start and `'!'` anything else. -/
def underscoreLoop (hex : Bool) : Char → List Char → Bool
  | saw, [] => saw ≠ '_'
  | saw, c :: t =>
    if c.isDigit ∨ (hex ∧ 'a'.toNat ≤ lower c ∧ lower c ≤ 'f'.toNat) then underscoreLoop hex '0' t
    else if c = '_' then saw = '0' && underscoreLoop hex '_' t
    else saw ≠ '_' && underscoreLoop hex '!' t

/-- `underscoreOK(s)`: every `_` of `s` stands between digits, or between the base prefix and a
digit. -/
def underscoreOK (s : List Char) : Bool :=
  let s := (readSign s).2
  match s with
  | '0' :: b :: t =>
    if lower b = 'b'.toNat ∨ lower b = 'o'.toNat ∨ lower b = 'x'.toNat then
      underscoreLoop (lower b = 'x'.toNat) '0' t
    else underscoreLoop false '^' s
  | _ => underscoreLoop false '^' s

example : underscoreOK "1_000".toList ∧ !underscoreOK "1__0".toList ∧ underscoreOK "0x_1p0".toList ∧
    !underscoreOK "_1".toList := by decide

/-- **`readFloat(s)`**: the literal at the start of `s`, as whether it is negated, its exact value
(the mantissa's digits times a power of 10, or of 2 after `0x`), and what follows it; `none` where
`readFloat` reports `!ok`. -/
def readFloat (s : List Char) : Option (Bool × ℚ × List Char) :=
  let (neg, t) := readSign s
  let (hex, t) := hexPrefix t
  let (m, t) := readMantissa hex ⟨0, 0, 0, false, false⟩ t
  if m.digits = 0 then none
  else
    match readExponent hex m.underscores t with
    | none => none
    | some (e, underscores, rest) =>
      if underscores ∧ !underscoreOK (s.take (s.length - rest.length)) then none
      else
        let value : ℚ :=
          if hex then m.value * 2 ^ (e - 4 * m.fracDigits) else m.value * 10 ^ (e - m.fracDigits)
        some (neg, value, rest)

/-- `inf` or `infinity`, the whole of `t` in any case: the infinity of sign `neg`. -/
def infinity (neg : Bool) (t : List Char) : Option Float64 :=
  let low := t.map Char.toLower
  if low = "inf".toList ∨ low = "infinity".toList then some (.inf neg) else none

/-- `special(s)` as `ParseFloat` takes it, on the whole of `s`: a sign and an infinity, an
infinity, or `nan`. After a sign only the infinities are tried, so `+nan` and `-nan` are syntax
errors. -/
def special : List Char → Option Float64
  | [] => none
  | c :: t =>
    if c = '+' ∨ c = '-' then infinity (c = '-') t
    else if c.toLower = 'i' then infinity false (c :: t)
    else if (c :: t).map Char.toLower = "nan".toList then some .nan
    else none

example : special "-nan".toList = none ∧ special "-Inf".toList = some (.inf true) ∧
    special "NaN".toList = some .nan := by decide

end Strconv

open Strconv in
/-- **`strconv.ParseFloat(s, 64)` with its error dropped**, as `gjson` calls it: a special value,
or else the literal `readFloat` reads when it is the whole of `s`, rounded to binary64 (beyond the
range an infinity, which `ParseFloat` returns with its range error); anything else is a syntax
error, for which the value is `0`. -/
def parseFloat (s : String) : Float64 :=
  match special s.toList with
  | some f => f
  | none =>
    match readFloat s.toList with
    | some (neg, v, []) => .ofRat (if neg then -v else v)
    | _ => .finite 0

/-! ### Decimal integer literals -/

/-- `Char.isDigit` on the code point. -/
theorem isDigit_iff_toNat (c : Char) : c.isDigit = true ↔ 48 ≤ c.toNat ∧ c.toNat ≤ 57 := by
  simp only [Char.isDigit, ge_iff_le, Bool.and_eq_true, decide_eq_true_eq, UInt32.le_def,
    BitVec.le_def]
  exact Iff.rfl

/-- A digit has no lower case of its own. -/
theorem toLower_of_isDigit {c : Char} (h : c.isDigit = true) : c.toLower = c := by
  rw [isDigit_iff_toNat] at h
  simp only [Char.toLower]
  rw [if_neg (by omega)]

/-- A digit is none of the characters the parsers test for first. -/
theorem ne_of_isDigit {c : Char} (h : c.isDigit = true) :
    c ≠ '-' ∧ c ≠ '+' ∧ c ≠ '.' ∧ c ≠ '_' ∧ c ≠ 'i' ∧ c ≠ 'n' := by
  refine ⟨?_, ?_, ?_, ?_, ?_, ?_⟩ <;> rintro rfl <;> simp at h

namespace Strconv

/-- `lower` leaves a digit as it is. -/
theorem lower_of_isDigit {c : Char} (h : c.isDigit = true) : lower c = c.toNat := by
  have key : ∀ n < 58, 48 ≤ n → n ||| ('x'.toNat - 'X'.toNat) = n := by decide
  rw [isDigit_iff_toNat] at h
  exact key _ (by omega) h.1

/-- A literal that starts with a digit has no sign. -/
theorem readSign_of_isDigit {c : Char} (h : c.isDigit = true) (t : List Char) :
    readSign (c :: t) = (false, c :: t) := by
  obtain ⟨h1, h2, -⟩ := ne_of_isDigit h
  simp [readSign, h1, h2]

/-- Decimal digits carry no `0x` prefix. -/
theorem hexPrefix_of_digits {s : List Char} (hd : ∀ c ∈ s, c.isDigit = true) :
    hexPrefix s = (false, s) := by
  match s, hd with
  | [], _ | [_], _ => rfl
  | c :: x :: u, hd =>
    have hx : lower x ≠ 'x'.toNat := by
      rw [lower_of_isDigit (hd x (by simp)), show 'x'.toNat = 120 from rfl]
      have := (isDigit_iff_toNat x).mp (hd x (by simp))
      omega
    simp only [hexPrefix, hx, false_and, and_false, if_false]

/-- **A run of decimal digits is read whole** by the mantissa loop before any point. -/
theorem readMantissa_digits {ds : List Char} (hd : ∀ c ∈ ds, c.isDigit = true) :
    ∀ (value digits fracDigits : ℕ) (underscores : Bool),
      readMantissa false ⟨value, digits, fracDigits, false, underscores⟩ ds =
        (⟨ds.foldl (fun acc c => 10 * acc + (c.toNat - '0'.toNat)) value, digits + ds.length,
          fracDigits, false, underscores⟩, []) := by
  induction ds with
  | nil => intro _ _ _ _; rfl
  | cons c t ih =>
    intro value digits fracDigits underscores
    have hc := hd c (List.mem_cons_self _ _)
    obtain ⟨-, -, hdot, hus, -⟩ := ne_of_isDigit hc
    have hval : digitVal false c = some (c.toNat - '0'.toNat) := if_pos hc
    simp only [readMantissa, if_neg hus, if_neg hdot, hval, Bool.false_eq_true, if_false]
    rw [ih fun c' h => hd c' (List.mem_cons_of_mem _ h)]
    simp only [List.foldl_cons, List.length_cons, Prod.mk.injEq, Mantissa.mk.injEq, and_true,
      true_and]
    omega

/-- **A run of decimal digits, after an optional `-`**, is the literal of its value, negated or
not. -/
theorem readFloat_digits {ds : List Char} (hne : ds ≠ []) (hd : ∀ c ∈ ds, c.isDigit = true)
    (neg : Bool) :
    readFloat (if neg then '-' :: ds else ds) = some (neg, (digitsValue ds : ℚ), []) := by
  obtain ⟨c, t, rfl⟩ := List.exists_cons_of_ne_nil hne
  have hsign : readSign (if neg then '-' :: c :: t else c :: t) = (neg, c :: t) := by
    cases neg
    · exact readSign_of_isDigit (hd c (List.mem_cons_self _ _)) t
    · rfl
  have hm := readMantissa_digits hd 0 0 0 false
  simp only [readFloat, hsign, hexPrefix_of_digits hd, hm]
  simp [readExponent, digitsValue]

end Strconv

open Strconv

/-- No special value is a run of digits, signed or not. -/
theorem special_of_digits {ds : List Char} (hne : ds ≠ []) (hd : ∀ c ∈ ds, c.isDigit = true)
    (neg : Bool) : special (if neg then '-' :: ds else ds) = none := by
  obtain ⟨c, t, rfl⟩ := List.exists_cons_of_ne_nil hne
  have hc := hd c (List.mem_cons_self _ _)
  obtain ⟨h1, h2, -, -, hi, hn⟩ := ne_of_isDigit hc
  cases neg
  · simp only [Bool.false_eq_true, if_false, special, h1, h2, or_self, toLower_of_isDigit hc, hi,
      List.map_cons]
    simp [hn]
  · simp only [if_true, special, infinity, List.map_cons, toLower_of_isDigit hc]
    simp [hi]

/-- **`strconv.ParseFloat` of a run of digits** rounds its value. -/
theorem parseFloat_digits {ds : List Char} (hne : ds ≠ []) (hd : ∀ c ∈ ds, c.isDigit = true) :
    parseFloat ⟨ds⟩ = Float64.ofRat (digitsValue ds) := by
  have h := readFloat_digits hne hd false
  have hs := special_of_digits hne hd false
  simp only [Bool.false_eq_true, if_false] at h hs
  simp [parseFloat, show (⟨ds⟩ : String).toList = ds from rfl, hs, h]

/-- `strconv.ParseFloat` of `-` and a run of digits rounds the negated value. -/
theorem parseFloat_neg_digits {ds : List Char} (hne : ds ≠ []) (hd : ∀ c ∈ ds, c.isDigit = true) :
    parseFloat ⟨'-' :: ds⟩ = Float64.ofRat (-(digitsValue ds : ℚ)) := by
  have h := readFloat_digits hne hd true
  have hs := special_of_digits hne hd true
  simp only [if_true] at h hs
  simp [parseFloat, show (⟨'-' :: ds⟩ : String).toList = '-' :: ds from rfl, hs, h]

end Llmsnap.Go
