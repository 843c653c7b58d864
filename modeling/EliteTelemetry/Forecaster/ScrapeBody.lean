/-
  EliteTelemetry.Forecaster.ScrapeBody — the body of a scrape (`fetch` and `forEachMetricLine` of
  `pkg/forecaster/scraper.go`).

  `fetch` reads at most 256 KiB of the answer and tells its caller nothing of what it left, nor that
  the transfer broke off once a byte has arrived. The loop over the lines takes the end of what it is
  given for the end of a line. So every line before the cut is a line of the body the server sent
  (`lines_cut`), and the last one may be the beginning of one.

  What is used are complete lines exactly if the cut falls on the end of a line or what stands
  before it is not read at all; names and values are those of the body exactly if the beginning is
  read as the whole line is (`used_lines_complete_iff`). A value cut between its digits is a number
  too (`a_cut_value_is_used`).
-/

import EliteTelemetry.Forecaster.Exposition

namespace EliteTelemetry.Forecaster

open EliteTelemetry.Lib.NumberText

/-! ## Reading the answer -/

inductive ReadErr
  | eof
  | unexpectedEOF
  | other (text : String)
  deriving DecidableEq

def ReadErr.text : ReadErr → String
  | .eof => "EOF"
  | .unexpectedEOF => "unexpected EOF"
  | .other text => text

inductive ScrapeResponse
  | failed (err : String)
  /-- `arrived` bytes of the body that is sent arrive. -/
  | answered (statusCode : Int) (body : List UInt8) (arrived : Nat) (ending : ReadErr)

def readFull (size : Nat) (body : List UInt8) (ending : ReadErr) : List UInt8 × Option ReadErr :=
  let buf := body.take size
  if size ≤ buf.length then (buf, none)
  else if buf ≠ [] ∧ ending = .eof then (buf, some .unexpectedEOF)
  else (buf, some ending)

def scrapeBufCap : Nat := 256 * 1024

def fetch : ScrapeResponse → Except String (List UInt8)
  | .failed err => .error err
  | .answered statusCode body arrived ending =>
    if statusCode ≠ 200 then .error ("status " ++ toString statusCode)
    else
      let read := readFull scrapeBufCap (body.take arrived) ending
      match read.2.filter (· ∉ [.unexpectedEOF, .eof]) with
      | some err => if read.1 = [] then .error err.text else .ok read.1
      | none => .ok read.1

theorem readFull_body (size : Nat) (body : List UInt8) (ending : ReadErr) :
    (readFull size body ending).1 = body.take size := by
  simp only [readFull]
  split
  · rfl
  · split <;> rfl

def readEnd (arrived : Nat) : Nat := min scrapeBufCap arrived

theorem fetch_body {statusCode : Int} {body : List UInt8} {arrived : Nat} {ending : ReadErr} {got : List UInt8}
    (h : fetch (.answered statusCode body arrived ending) = .ok got) : got = body.take (readEnd arrived) := by
  simp only [fetch] at h
  split at h
  · cases h
  · rw [readEnd, ← List.take_take, ← readFull_body scrapeBufCap (body.take arrived) ending]
    split at h
    · split at h
      · cases h
      · exact (Except.ok.inj h).symm
    · exact (Except.ok.inj h).symm

/-- A body that arrives as a whole is read up to the size of the buffer. -/
theorem fetch_ok (body : List UInt8) : fetch (.answered 200 body body.length .eof) = .ok (body.take scrapeBufCap) := by
  have herr : (readFull scrapeBufCap body .eof).2.filter (· ∉ [.unexpectedEOF, .eof]) = none := by
    simp only [readFull]
    split
    · rfl
    · split <;> rfl
  simp only [fetch, List.take_length]
  rw [if_neg (by decide), herr, readFull_body]

/-! ## The lines -/

/-- What one line gives: blank lines and comments nothing. -/
def usedLine (line : List UInt8) : Option (List UInt8 × ℚ) :=
  if line = [] ∨ line.head? = some '#'.toUInt8 then none else parseMetricLineBytes line

/-- The loop: `line` holds what was passed over since the last line ended. -/
def forEachMetricLine {σ : Type} (fn : σ → List UInt8 × ℚ → σ) (line : List UInt8) : List UInt8 → σ → σ
  | [], s => (usedLine line).elim s (fn s)
  | b :: body, s =>
    if b = '\n'.toUInt8 then forEachMetricLine fn [] body ((usedLine line).elim s (fn s))
    else forEachMetricLine fn (line ++ [b]) body s

def lines (body : List UInt8) : List (List UInt8) := body.splitOn '\n'.toUInt8

def metricLines (body : List UInt8) : List (List UInt8 × ℚ) := (lines body).filterMap usedLine

@[simp] theorem lines_nil : lines [] = [[]] := List.splitOn_nil _

theorem lines_newline (body : List UInt8) : lines ('\n'.toUInt8 :: body) = [] :: lines body := by
  simp [lines, List.splitOn, List.splitOnP_cons_eq_if_modifyHead]

theorem lines_cons {b : UInt8} (hb : b ≠ '\n'.toUInt8) (body : List UInt8) :
    lines (b :: body) = (lines body).modifyHead (b :: ·) := by
  simp [lines, List.splitOn, List.splitOnP_cons_eq_if_modifyHead, hb]

theorem foldl_used {σ : Type} (fn : σ → List UInt8 × ℚ → σ) (line : List UInt8) (rest : List (List UInt8)) (s : σ) :
    ((line :: rest).filterMap usedLine).foldl fn s =
      (rest.filterMap usedLine).foldl fn ((usedLine line).elim s (fn s)) := by
  cases hline : usedLine line with
  | none => rw [List.filterMap_cons_none hline, Option.elim_none]
  | some x => rw [List.filterMap_cons_some hline, List.foldl_cons, Option.elim_some]

theorem modifyHead_nil_append (ls : List (List UInt8)) : ls.modifyHead ([] ++ ·) = ls := by cases ls <;> rfl

theorem forEachMetricLine_from {σ : Type} (fn : σ → List UInt8 × ℚ → σ) (line body : List UInt8) (s : σ) :
    forEachMetricLine fn line body s = (((lines body).modifyHead (line ++ ·)).filterMap usedLine).foldl fn s := by
  induction body generalizing line s with
  | nil =>
    rw [lines_nil, List.modifyHead_cons, List.append_nil, foldl_used]
    rfl
  | cons b body ih =>
    unfold forEachMetricLine
    by_cases hb : b = '\n'.toUInt8
    · rw [if_pos hb, hb, lines_newline, List.modifyHead_cons, List.append_nil, foldl_used, ih, modifyHead_nil_append]
    · have hjoin : ((line ++ [b]) ++ ·) = ((line ++ ·) ∘ (b :: ·)) := by
        funext x
        simp
      rw [if_neg hb, lines_cons hb, List.modifyHead_modifyHead, ih, hjoin]

theorem forEachMetricLine_eq {σ : Type} (fn : σ → List UInt8 × ℚ → σ) (body : List UInt8) (s : σ) :
    forEachMetricLine fn [] body s = (metricLines body).foldl fn s := by
  rw [forEachMetricLine_from, modifyHead_nil_append, metricLines]

/-! ## The cut -/

def notNewline (b : UInt8) : Bool := b ≠ '\n'.toUInt8

/-- The line the cut falls into, up to the cut. -/
def cutLine (n : Nat) (body : List UInt8) : List UInt8 := (body.take n).rtakeWhile notNewline

def cutRest (n : Nat) (body : List UInt8) : List UInt8 := (body.drop n).takeWhile notNewline

theorem newline_not_mem {l : List UInt8} (h : ∀ b ∈ l, notNewline b = true) : '\n'.toUInt8 ∉ l := by
  intro hm
  exact absurd (h _ hm) (by decide)

theorem eq_newline_of_not {b : UInt8} (h : notNewline b = false) : b = '\n'.toUInt8 := by
  simpa [notNewline] using h

/-- The lines of a text that goes on: those that ended, and those from the last one on. -/
theorem lines_append (a : List UInt8) :
    ∃ ended, ∀ b, lines (a ++ b) = ended ++ lines (a.rtakeWhile notNewline ++ b) := by
  induction a using List.reverseRecOn with
  | nil => exact ⟨[], fun b => rfl⟩
  | append_singleton a x ih =>
    cases hx : notNewline x with
    | true =>
      obtain ⟨ended, hended⟩ := ih
      refine ⟨ended, fun b => ?_⟩
      rw [List.rtakeWhile_concat_pos _ _ _ hx, List.append_assoc, List.append_assoc, hended]
    | false =>
      refine ⟨lines a, fun b => ?_⟩
      rw [List.rtakeWhile_concat_neg _ _ _ (by simp [hx]), eq_newline_of_not hx, List.append_assoc]
      exact List.splitOn_append_cons_self _ _

theorem lines_first (l : List UInt8) : ∃ after, lines l = l.takeWhile notNewline :: after := by
  induction l with
  | nil => exact ⟨[], rfl⟩
  | cons x l ih =>
    cases hx : notNewline x with
    | true =>
      obtain ⟨after, hafter⟩ := ih
      refine ⟨after, ?_⟩
      rw [lines_cons (of_decide_eq_true hx), hafter, List.takeWhile_cons_of_pos hx]
      rfl
    | false =>
      refine ⟨lines l, ?_⟩
      rw [List.takeWhile_cons_of_neg (by simp [hx]), eq_newline_of_not hx, lines_newline]

/-- Before the cut, the lines of what is read are those of the body. -/
theorem lines_cut (n : Nat) (body : List UInt8) :
    ∃ ended after, lines (body.take n) = ended ++ [cutLine n body] ∧
      lines body = ended ++ (cutLine n body ++ cutRest n body) :: after := by
  have hpiece : ∀ b ∈ cutLine n body, notNewline b = true := fun b hb => List.mem_rtakeWhile_imp hb
  obtain ⟨ended, hended⟩ := lines_append (body.take n)
  obtain ⟨after, hafter⟩ := lines_first (cutLine n body ++ body.drop n)
  rw [List.takeWhile_append_of_pos hpiece] at hafter
  refine ⟨ended, after, ?_, ?_⟩
  · have htaken := hended []
    rw [List.append_nil, List.append_nil] at htaken
    rw [htaken]
    exact congrArg _ (List.splitOn_eq_singleton (newline_not_mem hpiece))
  · have hall := hended (body.drop n)
    rw [List.take_append_drop] at hall
    rw [hall]
    exact congrArg _ hafter

/-! ## What is used -/

/-- Every line used is a line of the body. -/
def CompleteLines (body got : List UInt8) : Prop :=
  ∀ (i : Nat) (line : List UInt8), (lines got)[i]? = some line → (usedLine line).isSome = true →
    (lines body)[i]? = some line

/-- Every name and value used is that of the body's line in the same place. -/
def SameReadings (body got : List UInt8) : Prop :=
  ∀ (i : Nat) (line : List UInt8) (x : List UInt8 × ℚ), (lines got)[i]? = some line → usedLine line = some x →
    ∃ full, (lines body)[i]? = some full ∧ usedLine full = some x

theorem line_of_cut {n : Nat} {body : List UInt8} {i : Nat} {line : List UInt8}
    (h : (lines (body.take n))[i]? = some line) :
    (lines body)[i]? = some line ∨
      line = cutLine n body ∧ (lines body)[i]? = some (cutLine n body ++ cutRest n body) := by
  obtain ⟨ended, after, hgot, hbody⟩ := lines_cut n body
  rw [hgot] at h
  rw [hbody]
  by_cases hi : i < ended.length
  · rw [List.getElem?_append_left hi] at h ⊢
    exact .inl h
  · rw [List.getElem?_append_right (by omega)] at h ⊢
    cases hzero : i - ended.length with
    | zero =>
      rw [hzero] at h
      exact .inr ⟨(Option.some.inj h).symm, rfl⟩
    | succ k =>
      rw [hzero] at h
      cases h

theorem cut_line_at (n : Nat) (body : List UInt8) :
    ∃ i : Nat, (lines (body.take n))[i]? = some (cutLine n body) ∧
      (lines body)[i]? = some (cutLine n body ++ cutRest n body) := by
  obtain ⟨ended, after, hgot, hbody⟩ := lines_cut n body
  refine ⟨ended.length, ?_, ?_⟩
  · rw [hgot, List.getElem?_concat_length]
  · rw [hbody, List.getElem?_append_right le_rfl]
    simp

theorem completeLines_iff (n : Nat) (body : List UInt8) :
    CompleteLines body (body.take n) ↔ cutRest n body = [] ∨ usedLine (cutLine n body) = none := by
  constructor
  · intro h
    obtain ⟨i, hgot, hbody⟩ := cut_line_at n body
    by_cases hused : usedLine (cutLine n body) = none
    · exact .inr hused
    · have hsame := h i _ hgot (Option.isSome_iff_ne_none.mpr hused)
      rw [hbody, Option.some_inj, List.append_right_eq_self] at hsame
      exact .inl hsame
  · intro h i line hline hused
    rcases line_of_cut hline with hbody | ⟨rfl, hbody⟩
    · exact hbody
    · rcases h with hrest | hnone
      · rw [hbody, hrest, List.append_nil]
      · rw [hnone] at hused
        cases hused

theorem sameReadings_iff (n : Nat) (body : List UInt8) :
    SameReadings body (body.take n) ↔
      ∀ x, usedLine (cutLine n body) = some x → usedLine (cutLine n body ++ cutRest n body) = some x := by
  constructor
  · intro h x hx
    obtain ⟨i, hgot, hbody⟩ := cut_line_at n body
    obtain ⟨full, hfull, hread⟩ := h i _ x hgot hx
    rw [hbody] at hfull
    cases hfull
    exact hread
  · intro h i line x hline hx
    rcases line_of_cut hline with hbody | ⟨rfl, hbody⟩
    · exact ⟨line, hbody, hx⟩
    · exact ⟨_, hbody, h x hx⟩

/-- When a scrape uses complete lines only, and when only names and values of the body. -/
theorem used_lines_complete_iff {statusCode : Int} {body : List UInt8} {arrived : Nat} {ending : ReadErr}
    {got : List UInt8} (h : fetch (.answered statusCode body arrived ending) = .ok got) :
    (CompleteLines body got ↔
        cutRest (readEnd arrived) body = [] ∨ usedLine (cutLine (readEnd arrived) body) = none) ∧
      (SameReadings body got ↔
        ∀ x, usedLine (cutLine (readEnd arrived) body) = some x →
          usedLine (cutLine (readEnd arrived) body ++ cutRest (readEnd arrived) body) = some x) := by
  rw [fetch_body h]
  exact ⟨completeLines_iff _ body, sameReadings_iff _ body⟩

/-! ## Bodies that are cut -/

theorem cut_of_length {pre piece : List UInt8} (hlen : (pre ++ '\n'.toUInt8 :: piece).length = scrapeBufCap)
    (hpiece : ∀ b ∈ piece, notNewline b = true) (rest : List UInt8) :
    cutLine scrapeBufCap (pre ++ '\n'.toUInt8 :: piece ++ rest) = piece ∧
      cutRest scrapeBufCap (pre ++ '\n'.toUInt8 :: piece ++ rest) = rest.takeWhile notNewline := by
  unfold cutLine cutRest
  rw [← hlen, List.take_left, List.drop_left]
  refine ⟨?_, rfl⟩
  have hrev : ∀ b ∈ piece.reverse, notNewline b = true := fun b hb => hpiece b (List.mem_reverse.mp hb)
  rw [List.rtakeWhile, List.reverse_append, List.reverse_cons, List.append_assoc, List.takeWhile_append_of_pos hrev,
    List.singleton_append, List.takeWhile_cons_of_neg (by decide), List.append_nil, List.reverse_reverse]

def blankLines : List UInt8 := List.replicate (scrapeBufCap - 5) '\n'.toUInt8

def longBody (rest : List UInt8) : List UInt8 := blankLines ++ '\n'.toUInt8 :: ascii "a 12" ++ rest

theorem length_blankLines : (blankLines ++ '\n'.toUInt8 :: ascii "a 12").length = scrapeBufCap := by
  rw [List.length_append, blankLines, List.length_replicate]
  rfl

theorem readEnd_longBody (rest : List UInt8) : readEnd (longBody rest).length = scrapeBufCap := by
  unfold readEnd longBody
  rw [List.length_append, length_blankLines]
  exact Nat.min_eq_left (Nat.le_add_right _ _)

theorem cut_longBody (rest : List UInt8) :
    cutLine scrapeBufCap (longBody rest) = ascii "a 12" ∧
      cutRest scrapeBufCap (longBody rest) = rest.takeWhile notNewline :=
  cut_of_length length_blankLines (List.all_eq_true.mp (by decide)) rest

/-- The buffer ends with a line, and the next one is left out. -/
theorem used_lines_complete_cut :
    ∃ got, fetch (.answered 200 (longBody (ascii "\nb 345")) (longBody (ascii "\nb 345")).length .eof) = .ok got ∧
      CompleteLines (longBody (ascii "\nb 345")) got := by
  refine ⟨_, fetch_ok _, (used_lines_complete_iff (fetch_ok _)).1.mpr (.inl ?_)⟩
  rw [readEnd_longBody, (cut_longBody _).2]
  decide

/-- The value used is the beginning of the one sent. -/
theorem a_cut_value_is_used :
    ∃ got, fetch (.answered 200 (longBody (ascii "345")) (longBody (ascii "345")).length .eof) = .ok got ∧
      ¬CompleteLines (longBody (ascii "345")) got ∧ ¬SameReadings (longBody (ascii "345")) got ∧
      usedLine (cutLine scrapeBufCap (longBody (ascii "345"))) = some (ascii "a", 12) ∧
      usedLine (cutLine scrapeBufCap (longBody (ascii "345")) ++ cutRest scrapeBufCap (longBody (ascii "345"))) =
        some (ascii "a", 12345) := by
  obtain ⟨hline, hrest⟩ := cut_longBody (ascii "345")
  have hcut : usedLine (cutLine scrapeBufCap (longBody (ascii "345"))) = some (ascii "a", 12) := by
    rw [hline]
    decide +kernel
  have hfull :
      usedLine (cutLine scrapeBufCap (longBody (ascii "345")) ++ cutRest scrapeBufCap (longBody (ascii "345"))) =
        some (ascii "a", 12345) := by
    rw [hline, hrest]
    decide +kernel
  refine ⟨_, fetch_ok _, fun h => ?_, fun h => ?_, hcut, hfull⟩
  · rcases (completeLines_iff _ _).mp h with h | h
    · rw [hrest] at h
      exact absurd h (by decide)
    · rw [hcut] at h
      cases h
  · have hsame := (sameReadings_iff _ _).mp h _ hcut
    rw [hfull] at hsame
    exact absurd hsame (by decide +kernel)

end EliteTelemetry.Forecaster
