import Llmsnap.Go.Strconv

/-! # `gjson` results

The part of `github.com/tidwall/gjson` the metrics monitor uses, over JSON values as `gjson` reads
them:

* **`Json`** — a parsed JSON value; a number keeps its literal text, as `Result.Raw` does;
* **`Decoder`** — `gjson.ValidBytes` with `gjson.ParseBytes`: the value a byte string encodes, if
  it is valid JSON. The byte-level parser is not modelled: every statement holds for any decoder;
* **`Result`** with **`exists`**, **`get`**, **`int`** and **`float`** — `Result.Exists`,
  `Result.Get` on a plain key, `Result.Int` and `Result.Float`.

The keys the monitor looks up (`usage`, `prompt_n`, …) hold no `gjson` path syntax, so `Get`
selects an object member by name.

* **`Result.int_integer_literal`** — `Int()` reads every `int64` integer literal exactly, through
  the `float64` value below `2 ^ 53` and through the text above. -/

namespace Llmsnap.Gjson

open Go

/-- A JSON value as `gjson` parses it. -/
inductive Json where
  /-- The literal `null`. -/
  | null
  /-- `true` or `false`. -/
  | bool (b : Bool)
  /-- A number, by its literal text. -/
  | number (raw : String)
  /-- A string, unescaped. -/
  | string (s : String)
  /-- An array. -/
  | array (items : List Json)
  /-- An object, its members in document order. -/
  | object (members : List (String × Json))
  deriving Repr

/-- `gjson.ValidBytes` and `gjson.ParseBytes`: the JSON value `b` encodes, if `b` is valid. -/
abbrev Decoder := Bytes → Option Json

/-- A `gjson.Result`: what a path selected. -/
structure Result where
  /-- The selected value; `none` for `Result{}`, the result of a path that matched nothing. -/
  value : Option Json
  deriving Repr

namespace Result

/-- `Result{}`. -/
def empty : Result := ⟨none⟩

/-- `Result.Exists()`: a `null` that is present exists. -/
def «exists» (r : Result) : Bool := r.value.isSome

/-- `Result.Get(key)` for a plain key: the first member named `key` of an object. -/
def get (r : Result) (key : String) : Result :=
  match r.value with
  | some (.object members) => ⟨(members.find? (·.1 = key)).map (·.2)⟩
  | _ => empty

/-- `gjson`'s `parseInt`: an optional `-` and at least one digit, all of `s`, in `int64`
arithmetic. -/
def parseInt (s : String) : Option Int :=
  let (neg, ds) := match s.toList with
    | '-' :: t => (true, t)
    | l => (false, l)
  if ds ≠ [] ∧ ds.all Char.isDigit then
    some (wrapInt64 (if neg then -(digitsValue ds : Int) else digitsValue ds))
  else none

/-- `gjson`'s `safeInt`: `int64(f)` when `f` lies within `±(2^53 − 1)`; NaN fails neither
comparison. -/
def safeInt : Float64 → Option Int
  | .finite q => if q < -9007199254740991 ∨ 9007199254740991 < q then none
      else some (Float64.finite q).toInt
  | .inf _ => none
  | .nan => some Float64.nan.toInt

/-- `Result.Int()`: `1` for `true`, a string by `parseInt`, a number by `safeInt` on its float
value, else by `parseInt` on its literal, else by `int64` of its float value; `0` otherwise. -/
def int (r : Result) : Int :=
  match r.value with
  | some (.bool true) => 1
  | some (.string s) => (parseInt s).getD 0
  | some (.number raw) =>
      match safeInt (parseFloat raw) with
      | some i => i
      | none => (parseInt raw).getD (parseFloat raw).toInt
  | _ => 0

/-- `Result.Float()`: `1` for `true`, a string or a number by `strconv.ParseFloat`; `0`
otherwise. -/
def float (r : Result) : Float64 :=
  match r.value with
  | some (.bool true) => .finite 1
  | some (.string s) => parseFloat s
  | some (.number raw) => parseFloat raw
  | _ => .finite 0

/-- The first of two results that exists: `r`, the source of higher precedence, when present. -/
def orElse (r s : Result) : Result := if r.exists then r else s

/-- `Int()` of a result that exists, else the default `d`. -/
def intOr (r : Result) (d : Int) : Int := if r.exists then r.int else d

@[simp] theorem exists_empty : empty.exists = false := rfl

@[simp] theorem get_empty (key : String) : empty.get key = empty := rfl

@[simp] theorem int_empty : empty.int = 0 := rfl

@[simp] theorem float_empty : empty.float = .finite 0 := rfl

/-- A result that does not exist is `Result{}`. -/
theorem eq_empty_of_not_exists {r : Result} (h : r.exists = false) : r = empty := by
  cases r with
  | mk v => cases v <;> simp_all [«exists», empty]

/-- Every key of a result that does not exist selects nothing. -/
theorem get_of_not_exists {r : Result} (h : r.exists = false) (key : String) :
    r.get key = empty := by
  rw [eq_empty_of_not_exists h, get_empty]

@[simp] theorem orElse_empty (r : Result) : empty.orElse r = r := rfl

/-- `Int()` of the first existing result. -/
theorem int_orElse (r s : Result) : (r.orElse s).int = if r.exists then r.int else s.int := by
  unfold orElse; split <;> rfl

/-- A default behind the first existing result is a default behind each. -/
theorem intOr_orElse (r s : Result) (d : Int) : (r.orElse s).intOr d = r.intOr (s.intOr d) := by
  unfold orElse intOr; split <;> rfl

/-- `0` is the `Int()` of a result that does not exist. -/
theorem intOr_zero (r : Result) : r.intOr 0 = r.int := by
  unfold intOr
  split
  · rfl
  · rename_i h
    rw [eq_empty_of_not_exists (Bool.eq_false_iff.mpr h), int_empty]

@[simp] theorem intOr_empty (d : Int) : empty.intOr d = d := rfl

/-- What `parseInt` returns lies below the `int64` bound. -/
theorem parseInt_lt {s : String} {i : Int} (h : parseInt s = some i) : i < 2 ^ 63 := by
  unfold parseInt at h
  split at h
  split_ifs at h <;> exact Option.some.inj h ▸ wrapInt64_lt _

/-- What `safeInt` returns lies below the `int64` bound. -/
theorem safeInt_lt {f : Float64} {i : Int} (h : safeInt f = some i) : i < 2 ^ 63 := by
  cases f with
  | finite q =>
    simp only [safeInt] at h
    split_ifs at h
    cases h
    exact Float64.toInt_lt _
  | inf => cases h
  | nan => cases h; exact Float64.toInt_lt _

/-- **`Int()` is an `int64`**: every value it returns lies below `2 ^ 63`. -/
theorem int_lt (r : Result) : r.int < 2 ^ 63 := by
  unfold int
  split
  · omega
  · cases h : parseInt _ with
    | none => simp only [Option.getD_none]; omega
    | some i => exact parseInt_lt h
  · split
    · exact safeInt_lt ‹_›
    · cases h : parseInt _ with
      | none => exact Float64.toInt_lt _
      | some i => exact parseInt_lt h
  · omega

/-- A default below the bound keeps `intOr` below it. -/
theorem intOr_lt (r : Result) {d : Int} (hd : d < 2 ^ 63) : r.intOr d < 2 ^ 63 := by
  unfold intOr
  split
  · exact int_lt r
  · exact hd

/-! ### Integer literals -/

/-- `gjson`'s `parseInt` reads an optionally negative run of digits as its value, wrapped to
`int64`. -/
theorem parseInt_digits {ds : List Char} (hne : ds ≠ []) (hd : ∀ c ∈ ds, c.isDigit = true)
    (neg : Bool) :
    parseInt ⟨if neg then '-' :: ds else ds⟩ =
      some (wrapInt64 (if neg then -(digitsValue ds : ℤ) else digitsValue ds)) := by
  have hall : ds.all Char.isDigit = true := List.all_eq_true.mpr hd
  cases neg with
  | true => simp [parseInt, hne, hall, String.toList]
  | false =>
    obtain ⟨c, t, rfl⟩ := List.exists_cons_of_ne_nil hne
    have hc := ne_of_isDigit (hd c (List.mem_cons_self _ _))
    unfold parseInt
    simp only [show (⟨c :: t⟩ : String).toList = c :: t from rfl, Bool.false_eq_true, if_false]
    split_ifs with h1 h2
    · split <;> simp_all
    · split <;> simp_all
    · revert h1
      split <;> simp_all

/-- The `int(f)` of an integer in the `int64` range is the integer. -/
theorem toInt_intCast {n : ℤ} (h0 : -2 ^ 63 ≤ n) (h1 : n < 2 ^ 63) :
    (Float64.finite n).toInt = n := by
  simp only [Float64.toInt, Rat.intCast_num, Rat.intCast_den, Nat.cast_one, Int.tdiv_one]
  exact if_pos ⟨h0, h1⟩

/-- `safeInt` keeps an integer within `±(2 ^ 53 - 1)`. -/
theorem safeInt_intCast {n : ℤ} (h0 : -9007199254740991 ≤ n) (h1 : n ≤ 9007199254740991) :
    safeInt (.finite n) = some n := by
  have h0' : (-9007199254740991 : ℚ) ≤ n := by exact_mod_cast h0
  have h1' : (n : ℚ) ≤ 9007199254740991 := by exact_mod_cast h1
  simp only [safeInt]
  rw [if_neg (by push_neg; exact ⟨h0', h1'⟩), toInt_intCast (by omega) (by omega)]

/-- `safeInt` rejects a value of magnitude `2 ^ 53` or more. -/
theorem safeInt_of_le_abs {m : ℚ} (h : 2 ^ 53 ≤ |m|) : safeInt (.finite m) = none := by
  simp only [safeInt]
  rw [if_pos]
  rcases le_abs'.mp h with h | h
  · exact .inl (by linarith)
  · exact .inr (by linarith)

/-- **`Result.Int()` reads every `int64` integer literal exactly**: below `2 ^ 53` through its
`float64` value, which is exact there, and from `2 ^ 53` on through `parseInt` on the text, since
`safeInt` rejects the rounded value. -/
theorem int_integer_literal {ds : List Char} (hne : ds ≠ []) (hd : ∀ c ∈ ds, c.isDigit = true)
    (neg : Bool) (h0 : -2 ^ 63 ≤ (if neg then -(digitsValue ds : ℤ) else digitsValue ds))
    (h1 : (if neg then -(digitsValue ds : ℤ) else digitsValue ds) < 2 ^ 63) :
    (⟨some (.number ⟨if neg then '-' :: ds else ds⟩)⟩ : Result).int =
      if neg then -(digitsValue ds : ℤ) else digitsValue ds := by
  have hpf : parseFloat ⟨if neg then '-' :: ds else ds⟩ =
      Float64.ofRat (if neg then -(digitsValue ds : ℚ) else digitsValue ds) := by
    cases neg
    · exact parseFloat_digits hne hd
    · exact parseFloat_neg_digits hne hd
  have hN : digitsValue ds ≤ 2 ^ 63 := by
    cases neg <;> simp only [Bool.false_eq_true, if_true, if_false] at h0 h1 <;> omega
  simp only [int, hpf]
  by_cases hsmall : digitsValue ds < 2 ^ 53
  · have hexact : Float64.ofRat (if neg then -(digitsValue ds : ℚ) else digitsValue ds) =
        .finite ((if neg then -(digitsValue ds : ℤ) else digitsValue ds : ℤ) : ℚ) := by
      rcases Nat.eq_zero_or_pos (digitsValue ds) with h | h
      · cases neg <;> simp [h, Float64.ofRat]
      · cases neg
        · simpa using Float64.ofRat_natCast h hsmall
        · rw [if_pos rfl, Float64.ofRat_of_ne_zero (neg_ne_zero.mpr (by exact_mod_cast h.ne')),
            abs_neg, Nat.abs_cast, Float64.ofRat_natCast h hsmall]
          simp [h]
    rw [hexact, safeInt_intCast (by split <;> omega) (by split <;> omega)]
  · obtain ⟨m, hm, hm53⟩ := Float64.ofRat_natCast_ge (not_lt.mp hsmall) hN
    have hlarge : Float64.ofRat (if neg then -(digitsValue ds : ℚ) else digitsValue ds) =
        .finite (if neg then -m else m) := by
      cases neg
      · exact hm
      · have hpos : (0 : ℚ) < digitsValue ds := by exact_mod_cast (by omega : 0 < digitsValue ds)
        rw [if_pos rfl, Float64.ofRat_of_ne_zero (neg_ne_zero.mpr hpos.ne'), abs_neg,
          abs_of_pos hpos, hm]
        simp [hpos]
    rw [hlarge,
      safeInt_of_le_abs (by split <;> simp [abs_of_nonneg (by linarith : (0 : ℚ) ≤ m), hm53]),
      parseInt_digits hne hd neg, Option.getD_some, wrapInt64_of_mem h0 h1]

/-- `9007199254740993`, that is `2 ^ 53 + 1`, which no `float64` holds, read through its text. -/
theorem int_integer_literal_above_float :
    "9007199254740993".toList ≠ [] ∧ (∀ c ∈ "9007199254740993".toList, c.isDigit = true) ∧
    -2 ^ 63 ≤ (if false then -(digitsValue "9007199254740993".toList : ℤ)
      else digitsValue "9007199254740993".toList) ∧
    (if false then -(digitsValue "9007199254740993".toList : ℤ)
      else digitsValue "9007199254740993".toList) < 2 ^ 63 ∧
    (⟨some (.number ⟨if false then '-' :: "9007199254740993".toList
        else "9007199254740993".toList⟩)⟩ : Result).int =
      if false then -(digitsValue "9007199254740993".toList : ℤ)
      else digitsValue "9007199254740993".toList :=
  ⟨by decide, by decide, by decide, by decide,
    int_integer_literal (by decide) (by decide) false (by decide) (by decide)⟩

end Result

/-- The result of `gjson.ParseBytes(b)` after `gjson.ValidBytes(b)` held. -/
def parseBytes (doc : Json) : Result := ⟨some doc⟩

end Llmsnap.Gjson
