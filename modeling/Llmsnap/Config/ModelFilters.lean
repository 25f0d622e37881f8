import Mathlib.Data.List.Sort
import Llmsnap.Go.Strings

/-! # The request filters of a model

`ModelFilters` of `proxy/config` names, in `stripParams`, the top-level keys the proxy removes from a
request body before it forwards the request. `SanitizedStripParams` turns the comma-separated
setting into a clean key list.

* **`ModelFilters.unmarshalYAML`** — the YAML hook, which falls back to the legacy key
  `strip_params`;
* **`cleanParams`** — the loop of `SanitizedStripParams`, with its `seen` map;
* **`ModelFilters.sanitizedStripParams`** — the keys, trimmed, without `""`, `model` and repeats,
  sorted;
* **`sanitizedStripParams_spec`** — the result is strictly increasing, holds exactly the trimmed
  pieces other than `""` and `model`, and is a fixed point of joining and sanitising again. -/

namespace Llmsnap.Config

open Go

/-- `ModelFilters`: how requests to a model are rewritten before they are forwarded. -/
structure ModelFilters where
  /-- `StripParams` (`yaml:"stripParams"`): the comma-separated request parameters to remove. -/
  stripParams : String
  deriving DecidableEq, Repr

/-- `ModelFilters.UnmarshalYAML`, given what `unmarshal` makes of the node as the new struct
(`stripParams`, default `""`) and as the legacy one (`strip_params`). The legacy key is read only
when the new one is empty. -/
def ModelFilters.unmarshalYAML (decoded legacy : Except String String) :
    Except String ModelFilters := do
  let stripParams ← decoded
  if stripParams = "" then
    match legacy with
    | .error e => .error ("failed to unmarshal legacy filters.strip_params: " ++ e)
    | .ok legacyStripParams => pure ⟨legacyStripParams⟩
  else pure ⟨stripParams⟩

/-- The loop `for _, param := range params` of `SanitizedStripParams`; the map `seen` is the list of
the keys it holds. -/
def cleanParams : List String → List String → List String → List String
  | [], _, cleaned => cleaned
  | param :: params, seen, cleaned =>
    let trimmed := Strings.trimSpace param
    if trimmed = "model" ∨ trimmed = "" ∨ trimmed ∈ seen then cleanParams params seen cleaned
    else cleanParams params (trimmed :: seen) (cleaned ++ [trimmed])

/-- **`SanitizedStripParams()`**: `nil` for an empty setting; otherwise the pieces between the
commas, trimmed, without `""`, the protected key `model` and repeats, sorted. The error is always
`nil`. -/
def ModelFilters.sanitizedStripParams (f : ModelFilters) : Except String (Slice String) :=
  if f.stripParams = "" then .ok none
  else .ok (some (Strings.sort (cleanParams (Strings.split f.stripParams ',') [] [])))

/-! ### The loop -/

/-- A key the loop may keep: neither `""` nor `model`. -/
def Keepable (x : String) : Prop := x ≠ "" ∧ x ≠ "model"

/-- **The loop keeps each keepable trimmed piece once**: from a state where `seen` holds exactly the
kept keys, all distinct and keepable, the result holds the kept keys and the keepable trimmed
pieces still to come, each once. -/
theorem cleanParams_spec :
    ∀ (params seen cleaned : List String), (∀ x, x ∈ seen ↔ x ∈ cleaned) → cleaned.Nodup →
      (cleanParams params seen cleaned).Nodup ∧
      ∀ x, x ∈ cleanParams params seen cleaned ↔
        x ∈ cleaned ∨ ∃ p ∈ params, Strings.trimSpace p = x ∧ Keepable x
  | [], seen, cleaned, _, hnd => ⟨hnd, fun x => by simp [cleanParams]⟩
  | param :: params, seen, cleaned, hseen, hnd => by
    simp only [cleanParams]
    split_ifs with hskip
    · obtain ⟨hnd', hmem⟩ := cleanParams_spec params seen cleaned hseen hnd
      refine ⟨hnd', fun x => (hmem x).trans ?_⟩
      constructor
      · rintro (h | ⟨p, hp, hpx⟩)
        · exact .inl h
        · exact .inr ⟨p, List.mem_cons_of_mem _ hp, hpx⟩
      · rintro (h | ⟨p, hp, rfl, hk⟩)
        · exact .inl h
        · rcases List.mem_cons.mp hp with rfl | hp
          · rcases hskip with h | h | h
            · exact absurd h hk.2
            · exact absurd h hk.1
            · exact .inl ((hseen _).mp h)
          · exact .inr ⟨p, hp, rfl, hk⟩
    · have hnew : Strings.trimSpace param ∉ cleaned := fun h => hskip (.inr (.inr ((hseen _).mpr h)))
      obtain ⟨hnd', hmem⟩ := cleanParams_spec params (Strings.trimSpace param :: seen)
        (cleaned ++ [Strings.trimSpace param])
        (fun x => by simp [hseen, or_comm]) (hnd.append (List.nodup_singleton _) (by simpa using hnew))
      refine ⟨hnd', fun x => (hmem x).trans ?_⟩
      simp only [List.mem_append, List.mem_cons, List.not_mem_nil, or_false]
      constructor
      · rintro ((h | rfl) | ⟨p, hp, hpx⟩)
        · exact .inl h
        · exact .inr ⟨param, .inl rfl, rfl, fun h => hskip (.inr (.inl h)), fun h => hskip (.inl h)⟩
        · exact .inr ⟨p, .inr hp, hpx⟩
      · rintro (h | ⟨p, rfl | hp, rfl, hk⟩)
        · exact .inl (.inl h)
        · exact .inl (.inr rfl)
        · exact .inr ⟨p, hp, rfl, hk⟩

/-- Keys already clean, distinct and unseen pass the loop unchanged, in order. -/
theorem cleanParams_of_clean :
    ∀ (keys seen cleaned : List String), keys.Nodup →
      (∀ x ∈ keys, Strings.trimSpace x = x ∧ Keepable x ∧ x ∉ seen) →
      cleanParams keys seen cleaned = cleaned ++ keys
  | [], _, _, _, _ => by simp [cleanParams]
  | key :: keys, seen, cleaned, hnd, hk => by
    obtain ⟨htrim, ⟨hne, hmodel⟩, hseen⟩ := hk key (List.mem_cons_self _ _)
    have hskip : ¬(key = "model" ∨ key = "" ∨ key ∈ seen) := by tauto
    rw [cleanParams, htrim, if_neg hskip, cleanParams_of_clean keys (key :: seen), List.append_assoc]
    · rfl
    · exact (List.nodup_cons.mp hnd).2
    · intro x hx
      obtain ⟨h1, h2, h3⟩ := hk x (List.mem_cons_of_mem _ hx)
      refine ⟨h1, h2, fun h => ?_⟩
      rcases List.mem_cons.mp h with rfl | h
      · exact (List.nodup_cons.mp hnd).1 hx
      · exact h3 h

/-! ### `SanitizedStripParams` -/

/-- The empty setting is one empty piece, which the loop drops. -/
theorem cleanParams_split_empty : cleanParams (Strings.split "" ',') [] [] = [] := rfl

/-- The keys of `SanitizedStripParams`, `nil` read as no keys: the sorted output of the loop. -/
theorem sanitizedStripParams_elems (f : ModelFilters) :
    f.sanitizedStripParams.map Slice.elems =
      .ok (Strings.sort (cleanParams (Strings.split f.stripParams ',') [] [])) := by
  unfold ModelFilters.sanitizedStripParams
  split_ifs with h
  · rw [h, cleanParams_split_empty, Strings.sort_nil]; rfl
  · rfl

/-- **`SanitizedStripParams` never fails and returns a clean key list**: strictly increasing in Go's
string order, holding exactly the trimmed pieces of the setting other than `""` and `model`. No key
holds a comma, and joining the keys with commas and sanitising again gives them back. -/
theorem sanitizedStripParams_spec (f : ModelFilters) :
    ∃ keys, f.sanitizedStripParams = .ok keys ∧
      keys.elems.Sorted (· < ·) ∧
      (∀ x, x ∈ keys.elems ↔
        ∃ p ∈ Strings.split f.stripParams ',', Strings.trimSpace p = x ∧ x ≠ "" ∧ x ≠ "model") ∧
      (∀ x ∈ keys.elems, ',' ∉ x.toList) ∧
      (ModelFilters.mk (Strings.join keys.elems ',')).sanitizedStripParams.map Slice.elems =
        .ok keys.elems := by
  obtain ⟨hnd, hmem⟩ :=
    cleanParams_spec (Strings.split f.stripParams ',') [] [] (fun _ => Iff.rfl) List.nodup_nil
  have hperm := Strings.sort_perm (cleanParams (Strings.split f.stripParams ',') [] [])
  obtain ⟨r, hr⟩ : ∃ r, f.sanitizedStripParams = .ok r := by
    unfold ModelFilters.sanitizedStripParams
    split_ifs <;> exact ⟨_, rfl⟩
  have hre := sanitizedStripParams_elems f
  rw [hr] at hre
  have hre := Except.ok.inj hre
  have hkeys : ∀ x, x ∈ r.elems ↔ ∃ p ∈ Strings.split f.stripParams ',',
      Strings.trimSpace p = x ∧ Keepable x := fun x => by
    rw [hre, hperm.mem_iff, hmem]
    simp
  have hcomma : ∀ x ∈ r.elems, ',' ∉ x.toList := by
    intro x hx
    obtain ⟨p, hp, rfl, -⟩ := (hkeys x).mp hx
    exact fun hc => Strings.not_mem_of_mem_split hp ((Strings.trimSpace_infix p).subset hc)
  refine ⟨r, hr, hre ▸ List.Sorted.lt_of_le (Strings.sort_sorted _) (hperm.nodup_iff.mpr hnd), hkeys,
    hcomma, ?_⟩
  rw [sanitizedStripParams_elems]
  by_cases hk : r.elems = []
  · rw [hk, Strings.join_nil, cleanParams_split_empty, Strings.sort_nil]
  · rw [Strings.split_join hcomma hk, cleanParams_of_clean _ [] [] (hre ▸ hperm.nodup_iff.mpr hnd),
      List.nil_append, hre, Strings.sort_of_sorted (Strings.sort_sorted _)]
    intro x hx
    obtain ⟨p, -, rfl, hkp⟩ := (hkeys _).mp hx
    exact ⟨Strings.trimSpace_trimSpace p, hkp, List.not_mem_nil _⟩

end Llmsnap.Config
