import Llmsnap.Go.Bytes
import Llmsnap.Proxy.ParseMetrics

/-! # The backward scan of a streamed response

`processStreamingResponse` looks for token metrics in a server-sent-event body without splitting
it: it walks the body from its end, one line at a time, and stops at the last `data:` line whose
JSON payload has `usage` or `timings`.

* **`scanStep`** — one iteration of the loop, with Go's bounds checks on `body[:pos]` and
  `body[lineStart:pos]`;
* **`scanLoop`** — the loop `for pos > 0`, well founded because every iteration moves `pos` down
  (`scanStep_next_lt`);
* **`processStreamingResponse`** — the loop and the decision after it;
* **`processStreamingResponse_in_bounds`** — the loop's bounds: every position the loop visits
  lies in `-1 … len(body)`, every slice it takes is in range, and it never panics. -/

namespace Llmsnap.Proxy

open Go Go.Bytes Gjson

/-- `'\n'`. -/
def newline : UInt8 := 10

/-- What an iteration of the scan ends with. -/
inductive ScanStep where
  /-- The loop goes on (or ends) at `pos` with the flag `foundValidJSON`. -/
  | next (pos : Int) (foundValidJSON : Bool)
  /-- `return parseMetrics(modelID, start, usage, timings)` for a payload with metrics. -/
  | found (usage timings : Result)

/-- `lineStart` from `body[:pos]`: one past the last newline, or `0` without one. -/
def lineStartIn (head : Bytes) : Int :=
  let i := lastIndexByte head newline
  if i = -1 then 0 else i + 1

/-- The body of the loop once the line is cut: the trimmed `line` and the next `pos`. A `data:`
line's payload, trimmed, when neither empty nor `[DONE]`, is decoded, and one with `usage` or
`timings` ends the loop. -/
def scanLine (decode : Decoder) (line : Bytes) (pos : Int) (foundValidJSON : Bool) :
    Except Panic ScanStep := do
  if line.length = 0 then return .next pos foundValidJSON
  -- SSE payload always follows "data:"
  let pre := asciiBytes "data:"
  if !hasPrefix line pre then return .next pos foundValidJSON
  let data := trimSpace (← slice line pre.length line.length)
  if data.length = 0 then return .next pos foundValidJSON
  if data = asciiBytes "[DONE]" then return .next pos foundValidJSON
  match decode data with
  | some doc =>
    let usage := (parseBytes doc).get "usage"
    let timings := (parseBytes doc).get "timings"
    if usage.exists || timings.exists then return .found usage timings
    return .next pos true
  | none => return .next pos foundValidJSON

/-- **One iteration of the scan** at `pos`: the line `body[lineStart:pos]`, trimmed, and the
position `lineStart - 1` before its newline. -/
def scanStep (decode : Decoder) (body : Bytes) (pos : Int) (foundValidJSON : Bool) :
    Except Panic ScanStep := do
  -- Find the previous newline (or start of body)
  let lineStart := lineStartIn (← slice body 0 pos)
  let line := trimSpace (← slice body lineStart pos)
  scanLine decode line (lineStart - 1) foundValidJSON

/-! ### One iteration -/

/-- `lineStart` lies within `body[:pos]`. -/
theorem lineStartIn_bounds (head : Bytes) :
    0 ≤ lineStartIn head ∧ lineStartIn head ≤ head.length := by
  unfold lineStartIn
  rcases lastIndexByte_spec head newline with ⟨-, h⟩ | ⟨l, r, rfl, -, h⟩ <;> simp only [h]
  · simp
  · simp; omega

/-- The decoded payload of a line of the body: the trimmed line starts with `data:`, and its
trimmed rest is neither empty nor `[DONE]` and is valid JSON. -/
def lineDoc (decode : Decoder) (raw : Bytes) : Option Json :=
  let line := trimSpace raw
  if hasPrefix line (asciiBytes "data:") then
    let data := trimSpace (line.drop 5)
    if data = [] ∨ data = asciiBytes "[DONE]" then none else decode data
  else none

/-- A payload carries metrics when its `usage` or its `timings` exists. -/
def hasMetrics (doc : Json) : Bool :=
  ((parseBytes doc).get "usage").exists || ((parseBytes doc).get "timings").exists

/-- What the scan makes of the line `raw` before moving to `pos`. -/
def lineOutcome (decode : Decoder) (raw : Bytes) (pos : Int) (foundValidJSON : Bool) : ScanStep :=
  match lineDoc decode raw with
  | some doc =>
    if hasMetrics doc then .found ((parseBytes doc).get "usage") ((parseBytes doc).get "timings")
    else .next pos true
  | none => .next pos foundValidJSON

/-- **What the body of the loop does with a line**: it classifies the line as `lineOutcome`
does, and never panics. -/
theorem scanLine_eq (decode : Decoder) (raw : Bytes) (pos : Int) (found : Bool) :
    scanLine decode (trimSpace raw) pos found = .ok (lineOutcome decode raw pos found) := by
  unfold scanLine lineOutcome lineDoc
  generalize trimSpace raw = line
  have hpre : (asciiBytes "data:").length = 5 := rfl
  by_cases hp : hasPrefix line (asciiBytes "data:") = true
  · have h5 : 5 ≤ line.length := hpre ▸ (List.isPrefixOf_iff_prefix.mp hp).length_le
    have hs : slice line 5 line.length = .ok (line.drop 5) := by
      rw [slice_of_le (by omega) (by omega) le_rfl]; simp
    have hne : line ≠ [] := by rintro rfl; simp at h5
    simp only [hp, hs, hpre, hne, bind, Except.bind, pure, Except.pure, Bool.not_true,
      List.length_eq_zero, if_false, Bool.false_eq_true, Nat.cast_ofNat, if_true]
    by_cases hd : trimSpace (line.drop 5) = [] ∨ trimSpace (line.drop 5) = asciiBytes "[DONE]"
    · rcases hd with hd | hd <;> simp [hd]
    · simp only [hd, if_false]
      rw [not_or] at hd
      simp only [hd.1, hd.2, if_false]
      cases decode (trimSpace (line.drop 5)) with
      | none => rfl
      | some doc =>
        simp only [hasMetrics, Bool.or_eq_true]
        split <;> rfl
  · have hp' : hasPrefix line (asciiBytes "data:") = false := by simpa using hp
    simp [hp']
    rfl

/-- **`scanStep` on a position within the body** reads the line before `pos`, from `lineStart`
on, and moves to `lineStart - 1`. -/
theorem scanStep_eq {decode : Decoder} {body : Bytes} {pos : Int} (found : Bool) (h0 : 0 ≤ pos)
    (hlen : pos ≤ body.length) :
    scanStep decode body pos found =
      .ok (lineOutcome decode ((body.take pos.toNat).drop (lineStartIn (body.take pos.toNat)).toNat)
        (lineStartIn (body.take pos.toNat) - 1) found) := by
  obtain ⟨hs0, hs1⟩ := lineStartIn_bounds (body.take pos.toNat)
  have hl : ((body.take pos.toNat).length : Int) = pos := by simp; omega
  simp only [scanStep, slice_of_le le_rfl h0 hlen, bind, Except.bind, Int.toNat_zero, List.drop_zero,
    slice_of_le hs0 (hs1.trans_eq hl) hlen, scanLine_eq]

/-- An iteration that does not panic had `pos` within the body. -/
theorem scanStep_bounds {decode : Decoder} {body : Bytes} {pos : Int} {found : Bool}
    {st : ScanStep} (h : scanStep decode body pos found = .ok st) :
    0 ≤ pos ∧ pos ≤ body.length := by
  by_contra hb
  have hs : slice body 0 pos = .error (.sliceBounds 0 pos body.length) := by
    unfold Go.slice; rw [if_neg (by tauto)]
  simp [scanStep, hs, bind, Except.bind] at h

/-- A line sends the loop to the position it was given. -/
theorem lineOutcome_next {decode : Decoder} {raw : Bytes} {pos pos' : Int} {found found' : Bool}
    (h : lineOutcome decode raw pos found = .next pos' found') : pos' = pos := by
  unfold lineOutcome at h
  split at h
  · split at h <;> cases h; rfl
  · cases h; rfl

/-- **Every iteration moves `pos` down**, to `-1` at the least. This is what makes `scanLoop`
terminate. -/
theorem scanStep_next_lt {decode : Decoder} {body : Bytes} {pos pos' : Int} {found found' : Bool}
    (h : scanStep decode body pos found = .ok (.next pos' found')) : -1 ≤ pos' ∧ pos' < pos := by
  obtain ⟨h0, hlen⟩ := scanStep_bounds h
  rw [scanStep_eq found h0 hlen] at h
  have hp := lineOutcome_next (Except.ok.inj h)
  obtain ⟨hs0, hs1⟩ := lineStartIn_bounds (body.take pos.toNat)
  simp only [List.length_take] at hs1
  omega

/-- **The loop `for pos > 0`**, from `pos` with the flag `foundValidJSON`; it ends with the
position and flag it stops at, or with a payload that has metrics. -/
def scanLoop (decode : Decoder) (body : Bytes) (pos : Int) (foundValidJSON : Bool) :
    Except Panic ScanStep :=
  if 0 < pos then
    match h : scanStep decode body pos foundValidJSON with
    | .ok (.next pos' found') => scanLoop decode body pos' found'
    | .ok (.found usage timings) => .ok (.found usage timings)
    | .error e => .error e
  else .ok (.next pos foundValidJSON)
termination_by pos.toNat
decreasing_by
  have := scanStep_next_lt h
  omega

/-- An iteration that goes on is followed by the loop from where it leads. -/
theorem scanLoop_next {decode : Decoder} {body : Bytes} {pos pos' : Int} {found found' : Bool}
    (hpos : 0 < pos) (hs : scanStep decode body pos found = .ok (.next pos' found')) :
    scanLoop decode body pos found = scanLoop decode body pos' found' := by
  rw [scanLoop, if_pos hpos]
  split <;> simp_all

/-- An iteration that finds metrics ends the loop. -/
theorem scanLoop_found {decode : Decoder} {body : Bytes} {pos : Int} {found : Bool}
    {usage timings : Result} (hpos : 0 < pos)
    (hs : scanStep decode body pos found = .ok (.found usage timings)) :
    scanLoop decode body pos found = .ok (.found usage timings) := by
  rw [scanLoop, if_pos hpos]
  split <;> simp_all

/-- At `pos ≤ 0` the loop is over. -/
theorem scanLoop_stop (decode : Decoder) (body : Bytes) {pos : Int} (found : Bool)
    (hpos : ¬0 < pos) : scanLoop decode body pos found = .ok (.next pos found) := by
  rw [scanLoop, if_neg hpos]

/-- **`processStreamingResponse(modelID, start, body)`**: scan from the end of the body; the last
payload with metrics is parsed, else a body with valid JSON data still counts with unknown values,
else the error. -/
def processStreamingResponse (decode : Decoder) (modelID : String) (since : Duration) (now : Time)
    (body : Bytes) : Except Panic (Except String TokenMetrics) := do
  match ← scanLoop decode body body.length false with
  | .found usage timings => return parseMetrics modelID since now usage timings
  | .next _ foundValidJSON =>
    -- If we found valid JSON but no usage/timings, still track the activity with unknown values
    if foundValidJSON then return parseMetrics modelID since now .empty .empty
    return .error "no valid JSON data found in stream"

/-! ### The loop stays within the body -/

/-- The states `(pos, foundValidJSON)` the loop of `processStreamingResponse` enters: it starts at
the end of the body, and an iteration at `pos > 0` that goes on leads to the next. -/
inductive ScanReach (decode : Decoder) (body : Bytes) : Int → Bool → Prop
  /-- `pos := len(body)`, `foundValidJSON := false`. -/
  | start : ScanReach decode body body.length false
  /-- One iteration of the loop. -/
  | step {pos pos' : Int} {found found' : Bool} : ScanReach decode body pos found → 0 < pos →
      scanStep decode body pos found = .ok (.next pos' found') → ScanReach decode body pos' found'

/-- Every position the loop enters lies in `-1 … len(body)`. -/
theorem ScanReach.bounds {decode : Decoder} {body : Bytes} {pos : Int} {found : Bool}
    (h : ScanReach decode body pos found) : -1 ≤ pos ∧ pos ≤ body.length := by
  induction h with
  | start => omega
  | step _ _ hs ih =>
    have := scanStep_next_lt hs
    omega

/-- From a state it enters, the loop runs to its end without a panic. -/
theorem scanLoop_ok {decode : Decoder} {body : Bytes} {pos : Int} {found : Bool}
    (h : ScanReach decode body pos found) : ∃ st, scanLoop decode body pos found = .ok st := by
  induction pos, found using scanLoop.induct decode body with
  | case1 pos found hpos pos' found' hs ih =>
    rw [scanLoop_next hpos hs]
    exact ih (.step h hpos hs)
  | case2 pos found hpos usage timings hs => exact ⟨_, scanLoop_found hpos hs⟩
  | case3 pos found hpos e hs =>
    rw [scanStep_eq found hpos.le h.bounds.2] at hs
    cases hs
  | case4 pos found hpos => exact ⟨_, scanLoop_stop decode body found hpos⟩

/-- **The scan stays within the body.** At every position `pos > 0` the loop enters, the slices
`body[:pos]` and `body[lineStart:pos]` have `0 ≤ lineStart ≤ pos ≤ len(body)`, the iteration does
not panic, and it moves on to a position of at least `-1` that is strictly smaller as a natural
number. `processStreamingResponse` therefore returns, on every body, without a panic. -/
theorem processStreamingResponse_in_bounds (decode : Decoder) (modelID : String)
    (since : Duration) (now : Time) (body : Bytes) :
    (∀ pos found, ScanReach decode body pos found → 0 < pos →
      0 ≤ lineStartIn (body.take pos.toNat) ∧ lineStartIn (body.take pos.toNat) ≤ pos ∧
        pos ≤ body.length ∧
      (∃ st, scanStep decode body pos found = .ok st) ∧
      ∀ pos' found', scanStep decode body pos found = .ok (.next pos' found') →
        -1 ≤ pos' ∧ pos'.toNat < pos.toNat) ∧
    ∃ r, processStreamingResponse decode modelID since now body = .ok r := by
  refine ⟨fun pos found h hpos => ?_, ?_⟩
  · have hlen := h.bounds.2
    obtain ⟨hs0, hs1⟩ := lineStartIn_bounds (body.take pos.toNat)
    simp only [List.length_take] at hs1
    refine ⟨hs0, by omega, hlen, ⟨_, scanStep_eq found hpos.le hlen⟩, fun pos' found' hs => ?_⟩
    have := scanStep_next_lt hs
    omega
  · obtain ⟨st, hst⟩ := scanLoop_ok (@ScanReach.start decode body)
    simp only [processStreamingResponse, hst, bind, Except.bind]
    cases st with
    | found => exact ⟨_, rfl⟩
    | next _ f => cases f <;> exact ⟨_, rfl⟩

end Llmsnap.Proxy
