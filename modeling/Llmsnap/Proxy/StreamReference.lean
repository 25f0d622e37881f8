import Llmsnap.Proxy.StreamScan

/-! # The backward scan against a forward reading

`processStreamingResponse` scans its body from the end so as not to split it. This file states
what the scan is meant to compute as a forward reading of the body, split on `'\n'` with
`bytes.Split`, and proves that the scan computes exactly that, on every body.

* **`streamReference`** — the forward reading: trim every line, keep the `data:` lines, trim their
  payloads, drop empty ones and `[DONE]`, keep the valid JSON, and parse the metrics of the last
  payload that has `usage` or `timings`;
* **`scanLinesRev`** — the decision the scan takes over the lines, last line first;
* **`processStreamingResponse_eq_reference`** — the scan and the reading agree. -/

namespace Llmsnap.Proxy

open Go Go.Bytes Gjson

/-- The payloads a forward reading keeps, in body order. -/
def streamPayloads (decode : Decoder) (body : Bytes) : List Json :=
  let lines := (split body newline).map trimSpace
  let payloads := (lines.filter (hasPrefix · (asciiBytes "data:"))).map fun l => trimSpace (l.drop 5)
  (payloads.filter fun p => p ≠ [] ∧ p ≠ asciiBytes "[DONE]").filterMap decode

/-- **The forward reading of a streamed body.** The metrics of the last payload with `usage` or
`timings`; else, when some payload was valid JSON, metrics with every member unknown; else the
error. -/
def streamReference (decode : Decoder) (modelID : String) (since : Duration) (now : Time)
    (body : Bytes) : Except String TokenMetrics :=
  let docs := streamPayloads decode body
  match docs.reverse.find? hasMetrics with
  | some doc => parseMetrics modelID since now ((parseBytes doc).get "usage")
      ((parseBytes doc).get "timings")
  | none =>
    if docs.isEmpty then .error "no valid JSON data found in stream"
    else parseMetrics modelID since now .empty .empty

/-- The payloads of the forward reading are the lines' `lineDoc`s. -/
theorem streamPayloads_eq (decode : Decoder) (body : Bytes) :
    streamPayloads decode body = (split body newline).filterMap (lineDoc decode) := by
  simp only [streamPayloads]
  induction split body newline with
  | nil => rfl
  | cons seg segs ih =>
    simp only [List.map_cons, List.filter_cons, List.filterMap_cons, lineDoc]
    split
    · by_cases hd : trimSpace ((trimSpace seg).drop 5) = [] ∨
          trimSpace ((trimSpace seg).drop 5) = asciiBytes "[DONE]"
      · rcases hd with hd | hd <;> simpa [hd] using ih
      · rw [not_or] at hd
        simp only [List.map_cons, List.filter_cons, hd.1, hd.2, ne_eq, not_false_eq_true, and_self,
          decide_True, if_true, List.filterMap_cons, ih, or_self, if_false]
    · exact ih

/-! ### The scan as a fold over the lines, last first -/

/-- What a scan ends with: the `usage` and `timings` of a payload with metrics, or nothing and
whether some payload was valid JSON. -/
def ScanStep.decision : ScanStep → Option (Result × Result) × Bool
  | .found usage timings => (some (usage, timings), true)
  | .next _ foundValidJSON => (none, foundValidJSON)

/-- The scan's decision over lines given last first. -/
def scanLinesRev (decode : Decoder) : List Bytes → Bool → Option (Result × Result) × Bool
  | [], found => (none, found)
  | line :: lines, found =>
    match lineDoc decode line with
    | some doc =>
      if hasMetrics doc then
        (some ((parseBytes doc).get "usage", (parseBytes doc).get "timings"), true)
      else scanLinesRev decode lines true
    | none => scanLinesRev decode lines found

/-- A line the scan goes past leaves the rest of the fold to the remaining lines. -/
theorem scanLinesRev_cons_of_next {decode : Decoder} {line : Bytes} {pos pos' : Int}
    {found found' : Bool} (lines : List Bytes)
    (h : lineOutcome decode line pos found = .next pos' found') :
    scanLinesRev decode (line :: lines) found = scanLinesRev decode lines found' := by
  unfold lineOutcome at h
  simp only [scanLinesRev]
  split at h
  · rename_i doc hdoc
    split at h
    · cases h
    · cases h; simp [hdoc, *]
  · rename_i hdoc
    cases h; simp [hdoc]

/-- A line with metrics decides the fold. -/
theorem scanLinesRev_cons_of_found {decode : Decoder} {line : Bytes} {pos : Int} {found : Bool}
    {usage timings : Result} (lines : List Bytes)
    (h : lineOutcome decode line pos found = .found usage timings) :
    scanLinesRev decode (line :: lines) found = (some (usage, timings), true) := by
  unfold lineOutcome at h
  simp only [scanLinesRev]
  split at h
  · rename_i doc hdoc
    split at h
    · cases h; simp [hdoc, *]
    · cases h
  · cases h

/-- **The fold is a search**: the first payload with metrics among the lines, else whether any
line had a payload. -/
theorem scanLinesRev_eq (decode : Decoder) (lines : List Bytes) (found : Bool) :
    scanLinesRev decode lines found =
      match (lines.filterMap (lineDoc decode)).find? hasMetrics with
      | some doc => (some ((parseBytes doc).get "usage", (parseBytes doc).get "timings"), true)
      | none => (none, found || !(lines.filterMap (lineDoc decode)).isEmpty) := by
  induction lines generalizing found with
  | nil => simp [scanLinesRev]
  | cons line lines ih =>
    simp only [scanLinesRev, List.filterMap_cons]
    cases lineDoc decode line with
    | none => exact ih found
    | some doc =>
      by_cases hm : hasMetrics doc
      · simp [hm]
      · simp [hm, ih]

/-! ### The loop reads the lines of `body[:pos]` from the end -/

/-- The lines of `body[:pos]`, or none when `pos` lies before the body. -/
def linesBefore (body : Bytes) (pos : Int) : List Bytes :=
  if pos < 0 then [] else split (body.take pos.toNat) newline

/-- **One iteration takes off the last line**: the lines before `pos` are those before
`lineStart - 1`, then `body[lineStart:pos]`. -/
theorem linesBefore_step {body : Bytes} {pos : Int} (h0 : 0 < pos) (hlen : pos ≤ body.length) :
    linesBefore body pos =
      linesBefore body (lineStartIn (body.take pos.toNat) - 1) ++
        [(body.take pos.toNat).drop (lineStartIn (body.take pos.toNat)).toNat] := by
  have hpos : ¬pos < 0 := by omega
  simp only [linesBefore, hpos, if_false, lineStartIn]
  rcases lastIndexByte_spec (body.take pos.toNat) newline with ⟨hn, hi⟩ | ⟨l, r, hlr, hr, hi⟩
  · simp [hi, split_of_not_mem hn]
  · have hlt : l.length < pos.toNat := by
      have := congrArg List.length hlr
      simp only [List.length_take, List.length_append, List.length_cons] at this
      omega
    have hl : body.take l.length = l := by
      have := congrArg (List.take l.length) hlr
      rwa [List.take_take, min_eq_left hlt.le, List.take_left] at this
    rw [hi, if_neg (by omega), if_neg (by omega), show (l.length : Int) + 1 - 1 = l.length by omega,
      Int.toNat_natCast, hl, hlr, split_append_cons, split_of_not_mem hr]
    simp

/-- An empty line carries no payload. -/
theorem lineDoc_nil (decode : Decoder) : lineDoc decode [] = none := by
  simp only [lineDoc, trimSpace_nil, hasPrefix]
  rfl

/-- **The loop reads the lines of `body[:pos]` from the end**: from any position within the body
it ends with the decision the fold takes on those lines, last first. At `pos = 0` the one line
left is empty and carries nothing. -/
theorem scanLoop_decision (decode : Decoder) (body : Bytes) (pos : Int) (found : Bool)
    (h1 : -1 ≤ pos) (h2 : pos ≤ body.length) :
    ∃ st, scanLoop decode body pos found = .ok st ∧
      st.decision = scanLinesRev decode (linesBefore body pos).reverse found := by
  induction pos, found using scanLoop.induct decode body with
  | case1 pos found hpos pos' found' hs ih =>
    have hlt := scanStep_next_lt hs
    obtain ⟨st, hst, hd⟩ := ih (by omega) (by omega)
    refine ⟨st, (scanLoop_next hpos hs).trans hst, ?_⟩
    rw [scanStep_eq found hpos.le h2] at hs
    rw [linesBefore_step hpos h2, List.reverse_append, List.reverse_singleton, List.singleton_append,
      scanLinesRev_cons_of_next _ (Except.ok.inj hs), hd, lineOutcome_next (Except.ok.inj hs)]
  | case2 pos found hpos usage timings hs =>
    refine ⟨_, scanLoop_found hpos hs, ?_⟩
    rw [scanStep_eq found hpos.le h2] at hs
    rw [linesBefore_step hpos h2, List.reverse_append, List.reverse_singleton, List.singleton_append,
      scanLinesRev_cons_of_found _ (Except.ok.inj hs)]
    rfl
  | case3 pos found hpos e hs =>
    rw [scanStep_eq found hpos.le h2] at hs
    cases hs
  | case4 pos found hpos =>
    refine ⟨_, scanLoop_stop decode body found hpos, ?_⟩
    rcases (by omega : pos = -1 ∨ pos = 0) with rfl | rfl
    · rfl
    · simp [linesBefore, split, List.splitOn_nil, scanLinesRev, lineDoc_nil, ScanStep.decision]

/-- **The loop over the whole body** ends at the last payload with metrics, or runs out, having
seen a payload or not. -/
theorem scanLoop_body (decode : Decoder) (body : Bytes) :
    ∃ st, scanLoop decode body body.length false = .ok st ∧
      st.decision =
        match (streamPayloads decode body).reverse.find? hasMetrics with
        | some doc => (some ((parseBytes doc).get "usage", (parseBytes doc).get "timings"), true)
        | none => (none, !(streamPayloads decode body).isEmpty) := by
  obtain ⟨st, hst, hd⟩ := scanLoop_decision decode body body.length false (by omega) le_rfl
  have hlines : linesBefore body body.length = split body newline := by
    simp [linesBefore]
  have hrev : ∀ l : List Json, l.reverse.isEmpty = l.isEmpty := fun l => by cases l <;> simp
  rw [hlines, scanLinesRev_eq, List.filterMap_reverse, Bool.false_or, hrev, ← streamPayloads_eq] at hd
  exact ⟨st, hst, hd⟩

/-- **The backward scan computes the forward reading**, on every body: the same metrics from the
same payload, or the same error. -/
theorem processStreamingResponse_eq_reference (decode : Decoder) (modelID : String)
    (since : Duration) (now : Time) (body : Bytes) :
    processStreamingResponse decode modelID since now body =
      .ok (streamReference decode modelID since now body) := by
  obtain ⟨st, hst, hd⟩ := scanLoop_body decode body
  simp only [processStreamingResponse, hst, bind, Except.bind, streamReference]
  generalize streamPayloads decode body = docs at hd ⊢
  cases hf : docs.reverse.find? hasMetrics with
  | some doc =>
    rw [hf] at hd
    cases st with
    | found usage timings =>
      simp only [ScanStep.decision, Prod.mk.injEq, Option.some.injEq, and_true] at hd
      rw [hd.1, hd.2]
      rfl
    | next => simp [ScanStep.decision] at hd
  | none =>
    rw [hf] at hd
    cases st with
    | found => simp [ScanStep.decision] at hd
    | next pos f =>
      simp only [ScanStep.decision, Prod.mk.injEq, true_and] at hd
      subst hd
      cases docs with
      | nil => rfl
      | cons doc docs => simp; rfl

end Llmsnap.Proxy
