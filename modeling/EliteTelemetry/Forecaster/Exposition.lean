/-
  EliteTelemetry.Forecaster.Exposition — one line of a Prometheus exposition
  (`parseMetricLineBytes` of `pkg/forecaster/scraper.go`).

  A line is a name, labels in braces or none, a value, and a timestamp or none (`Line`). The
  reader does not follow that grammar. It takes what stands behind the last space for the value
  and cuts what stands before it at the first brace. Whatever the labels hold, this finds the
  name and the value of a line without a timestamp (`parseMetricLineBytes_text`); of one with a
  timestamp it returns the timestamp as the value, and where there are no labels the value as a
  part of the name.

  So a line is read right exactly if it has no timestamp and a value that is read right, or has
  labels and a timestamp of the same value (`line_read_iff`).
-/

import EliteTelemetry.Forecaster.FloatText
import Mathlib.Data.List.DropRight

namespace EliteTelemetry.Forecaster

open EliteTelemetry.Lib.NumberText

/-! ## The reader -/

/-- None stands for -1. -/
def lastIndexByte : List UInt8 → UInt8 → Option Nat
  | [], _ => none
  | x :: xs, c =>
    match lastIndexByte xs c with
    | some i => some (i + 1)
    | none => if x = c then some 0 else none

def indexByte (b : List UInt8) (c : UInt8) : Option Nat := b.findIdx? (· = c)

def isBlank (b : UInt8) : Bool := b = ' '.toUInt8 || b = '\t'.toUInt8

def trimSpaceLeft (b : List UInt8) : List UInt8 := b.dropWhile isBlank

def trimSpaceRight (b : List UInt8) : List UInt8 := b.rdropWhile isBlank

def cutAt (b : List UInt8) (c : UInt8) : List UInt8 :=
  match indexByte b c with
  | some i => b.take i
  | none => b

def parseMetricLineBytes (line : List UInt8) : Option (List UInt8 × ℚ) :=
  let line := if line.getLast? = some '\r'.toUInt8 then line.dropLast else line
  match lastIndexByte line ' '.toUInt8 with
  | none => none
  | some 0 => none
  | some (space + 1) =>
    let valBytes := cutAt (trimSpaceLeft (line.drop (space + 2))) ' '.toUInt8
    match parseFloatBytes valBytes with
    | none => none
    | some v =>
      let name := cutAt (trimSpaceRight (line.take (space + 1))) '\x7b'.toUInt8
      if name = [] then none else some (name, v)

variable {b : List UInt8} {c : UInt8}

theorem lastIndexByte_none (h : c ∉ b) : lastIndexByte b c = none := by
  induction b with
  | nil => rfl
  | cons x xs ih =>
    have hx : x ≠ c := fun heq => h (by simp [heq])
    simp [lastIndexByte, ih fun hm => h (by simp [hm]), hx]

theorem lastIndexByte_append {pre post : List UInt8} (h : c ∉ post) :
    lastIndexByte (pre ++ c :: post) c = some pre.length := by
  induction pre with
  | nil => simp [lastIndexByte, lastIndexByte_none h]
  | cons x xs ih => simp [lastIndexByte, ih]

theorem indexByte_none (h : c ∉ b) : indexByte b c = none := by
  unfold indexByte
  rw [List.findIdx?_eq_none_iff]
  intro x hx
  exact decide_eq_false fun heq => h (heq ▸ hx)

theorem cutAt_of_not_mem (h : c ∉ b) : cutAt b c = b := by
  unfold cutAt
  rw [indexByte_none h]

theorem cutAt_append {pre post : List UInt8} (h : c ∉ pre) : cutAt (pre ++ c :: post) c = pre := by
  have hpre : pre.findIdx? (· = c) = none := indexByte_none h
  have hsome : indexByte (pre ++ c :: post) c = some pre.length := by
    unfold indexByte
    rw [List.findIdx?_append, hpre]
    simp [List.findIdx?_cons]
  unfold cutAt
  rw [hsome]
  simp

theorem trimSpaceLeft_of_head (h : ∀ x ∈ b.head?, isBlank x = false) : trimSpaceLeft b = b := by
  cases b with
  | nil => rfl
  | cons x xs => exact List.dropWhile_cons_of_neg (by simp [h x (by simp)])

theorem trimSpaceRight_of_last (h : ∀ x ∈ b.getLast?, isBlank x = false) : trimSpaceRight b = b := by
  unfold trimSpaceRight
  rw [List.rdropWhile_eq_self_iff]
  intro hne hblank
  rw [h _ (List.getLast?_eq_getLast_of_ne_nil hne)] at hblank
  cases hblank

theorem isBlank_of_class {p : UInt8 → Bool} (hspace : p ' '.toUInt8 = false) (htab : p '\t'.toUInt8 = false) {b : UInt8}
    (h : p b = true) : isBlank b = false := by
  by_contra hb
  rcases Bool.or_eq_true_iff.mp (Bool.not_eq_false _ ▸ hb) with hb | hb
  · rw [of_decide_eq_true hb, hspace] at h
    cases h
  · rw [of_decide_eq_true hb, htab] at h
    cases h

theorem isBlank_of_mem_text {p : Parts} (hp : p.Proper) {b : UInt8} (h : b ∈ p.text) : isBlank b = false :=
  isBlank_of_class rfl rfl (isNumberByte_of_mem_text hp h)

/-- What the reader makes of a number behind a space, and of what stands before it. -/
theorem parseMetricLineBytes_number {front : List UInt8} (hne : front ≠ [])
    (hlast : ∀ x ∈ front.getLast?, isBlank x = false) {p : Parts} (hp : p.Proper) :
    parseMetricLineBytes (front ++ ' '.toUInt8 :: p.text) =
      if cutAt front '\x7b'.toUInt8 = [] then none else some (cutAt front '\x7b'.toUInt8, readValue p) := by
  have hspace : ' '.toUInt8 ∉ p.text := not_mem_text hp (by decide)
  have hcr : (front ++ ' '.toUInt8 :: p.text).getLast? ≠ some '\r'.toUInt8 := by
    intro h
    rw [List.getLast?_append_of_ne_nil _ (List.cons_ne_nil _ _), List.getLast?_cons_of_ne_nil (text_ne_nil hp)] at h
    exact not_mem_text hp (by decide) (List.mem_of_getLast? h)
  have hfloat : parseFloatBytes p.text = some (readValue p) :=
    parseFloatBytes_eq_some_iff.mpr ⟨⟨p, hp⟩, [], (List.append_nil _).symm, stops_nil p, rfl⟩
  have hhead : ∀ x ∈ p.text.head?, isBlank x = false := by
    intro x hx
    exact isBlank_of_mem_text hp (List.mem_of_head? hx)
  obtain ⟨n, hn⟩ : ∃ n, front.length = n + 1 := Nat.exists_eq_succ_of_ne_zero (by simpa using hne)
  have hdrop : (front ++ ' '.toUInt8 :: p.text).drop (n + 2) = p.text := by
    rw [show n + 2 = front.length + 1 by omega, List.drop_append]
    simp
  have htake : (front ++ ' '.toUInt8 :: p.text).take (n + 1) = front := by
    rw [← hn, List.take_left]
  simp only [parseMetricLineBytes, if_neg hcr, lastIndexByte_append hspace, hn, hdrop, htake,
    trimSpaceLeft_of_head hhead, trimSpaceRight_of_last hlast, cutAt_of_not_mem hspace, hfloat]

/-! ## The grammar -/

def isNameStart (b : UInt8) : Bool :=
  'a'.toUInt8 ≤ b && b ≤ 'z'.toUInt8 || 'A'.toUInt8 ≤ b && b ≤ 'Z'.toUInt8 || b = '_'.toUInt8

def isLabelNameByte (b : UInt8) : Bool := isNameStart b || isDigit b

def isNameByte (b : UInt8) : Bool := isLabelNameByte b || b = ':'.toUInt8

inductive LabelChar
  | plain (b : UInt8) (h : b ∉ ascii "\"\\\n")
  | backslash
  | quote
  | newline

def LabelChar.text : LabelChar → List UInt8
  | .plain b _ => [b]
  | .backslash => ascii "\\\\"
  | .quote => ascii "\\\""
  | .newline => ascii "\\n"

structure Label where
  name : List UInt8
  name_ne_nil : name ≠ []
  name_start : ∀ b ∈ name.head?, isNameStart b = true
  name_bytes : ∀ b ∈ name, isLabelNameByte b = true
  value : List LabelChar

def Label.text (l : Label) : List UInt8 := l.name ++ ascii "=\"" ++ l.value.flatMap LabelChar.text ++ ascii "\""

def labelsText (ls : List Label) : List UInt8 :=
  '\x7b'.toUInt8 :: ((ascii ",").intercalate (ls.map Label.text) ++ ['\x7d'.toUInt8])

structure Timestamp where
  sign : Sign
  digits : List UInt8
  digits_ne_nil : digits ≠ []
  digits_ok : ∀ d ∈ digits, isDigit d = true

def Timestamp.parts (t : Timestamp) : Parts := ⟨t.sign, t.digits, none, none⟩

theorem Timestamp.proper (t : Timestamp) : t.parts.Proper :=
  ⟨t.digits_ok, fun ds hds => (by cases hds), .inl t.digits_ne_nil, fun e he => (by cases he)⟩

structure Line where
  name : List UInt8
  name_ne_nil : name ≠ []
  name_start : ∀ b ∈ name.head?, isNameStart b = true ∨ b = ':'.toUInt8
  name_bytes : ∀ b ∈ name, isNameByte b = true
  labels : Option (List Label)
  value : Number
  timestamp : Option Timestamp

def Line.front (l : Line) : List UInt8 := l.name ++ (l.labels.map labelsText).getD []

def Line.text (l : Line) : List UInt8 :=
  match l.timestamp with
  | none => l.front ++ ' '.toUInt8 :: l.value.1.text
  | some t => (l.front ++ ' '.toUInt8 :: l.value.1.text) ++ ' '.toUInt8 :: t.parts.text

/-! ## Reading a line -/

theorem brace_not_mem_name (l : Line) : '\x7b'.toUInt8 ∉ l.name := by
  intro h
  have := l.name_bytes _ h
  exact absurd this (by decide)

theorem cutAt_front (l : Line) : cutAt l.front '\x7b'.toUInt8 = l.name := by
  unfold Line.front
  cases l.labels with
  | none =>
    rw [Option.map_none, Option.getD_none, List.append_nil]
    exact cutAt_of_not_mem (brace_not_mem_name l)
  | some ls => exact cutAt_append (brace_not_mem_name l)

/-- Where a value stands before the last number, the cut finds the name only with labels. -/
theorem cutAt_front_value (l : Line) :
    cutAt (l.front ++ ' '.toUInt8 :: l.value.1.text) '\x7b'.toUInt8 =
      if l.labels.isSome then l.name else l.name ++ ' '.toUInt8 :: l.value.1.text := by
  unfold Line.front
  cases l.labels with
  | none =>
    have hnone : '\x7b'.toUInt8 ∉ l.name ++ ' '.toUInt8 :: l.value.1.text := by
      intro h
      rcases List.mem_append.mp h with h | h
      · exact brace_not_mem_name l h
      · rcases List.mem_cons.mp h with h | h
        · exact absurd h (by decide)
        · exact not_mem_text l.value.2 (by decide) h
    simpa using cutAt_of_not_mem hnone
  | some ls =>
    rw [Option.map_some, Option.getD_some, List.append_assoc]
    exact cutAt_append (brace_not_mem_name l)

theorem front_ne_nil (l : Line) : l.front ≠ [] := List.append_ne_nil_of_left_ne_nil l.name_ne_nil _

theorem front_last (l : Line) : ∀ x ∈ l.front.getLast?, isBlank x = false := by
  intro x hx
  unfold Line.front at hx
  cases hl : l.labels with
  | none =>
    rw [hl, Option.map_none, Option.getD_none, List.append_nil] at hx
    exact isBlank_of_class rfl rfl (l.name_bytes x (List.mem_of_getLast? hx))
  | some ls =>
    have hbrace : (l.name ++ labelsText ls).getLast? = some '\x7d'.toUInt8 := by
      rw [labelsText, List.getLast?_append_of_ne_nil _ (List.cons_ne_nil _ _), ← List.cons_append,
        List.getLast?_concat]
    rw [hl, Option.map_some, Option.getD_some, hbrace] at hx
    cases hx
    decide

theorem front_value_last (l : Line) :
    ∀ x ∈ (l.front ++ ' '.toUInt8 :: l.value.1.text).getLast?, isBlank x = false := by
  intro x hx
  rw [List.getLast?_append_of_ne_nil _ (List.cons_ne_nil _ _),
    List.getLast?_cons_of_ne_nil (text_ne_nil l.value.2)] at hx
  exact isBlank_of_mem_text l.value.2 (List.mem_of_getLast? hx)

def Line.reading (l : Line) : List UInt8 × ℚ :=
  match l.timestamp with
  | none => (l.name, readValue l.value.1)
  | some t => (if l.labels.isSome then l.name else l.name ++ ' '.toUInt8 :: l.value.1.text, t.parts.value)

theorem parseMetricLineBytes_text (l : Line) : parseMetricLineBytes l.text = some l.reading := by
  unfold Line.text Line.reading
  cases l.timestamp with
  | none =>
    rw [parseMetricLineBytes_number (front_ne_nil l) (front_last l) l.value.2, cutAt_front, if_neg l.name_ne_nil]
  | some t =>
    have hvalue : readValue t.parts = t.parts.value := (readValue_eq_iff t.parts).mpr (.inr (Nat.two_pow_pos 63))
    have hname : (if l.labels.isSome then l.name else l.name ++ ' '.toUInt8 :: l.value.1.text) ≠ [] := by
      split
      · exact l.name_ne_nil
      · exact List.append_ne_nil_of_left_ne_nil l.name_ne_nil _
    have hne : l.front ++ ' '.toUInt8 :: l.value.1.text ≠ [] := List.append_ne_nil_of_left_ne_nil (front_ne_nil l) _
    rw [parseMetricLineBytes_number hne (front_value_last l) t.proper, cutAt_front_value, if_neg hname, hvalue]

def plainLine : Line where
  name := ascii "a"
  name_ne_nil := by decide
  name_start := fun _ h => .inl (Option.mem_some.mp h ▸ by decide)
  name_bytes := List.all_eq_true.mp (by decide)
  labels := none
  value := ⟨⟨.none, ascii "5", none, none⟩, List.all_eq_true.mp (by decide), fun ds hds => (by cases hds),
    .inl (by decide), fun e he => (by cases he)⟩
  timestamp := some ⟨.none, ascii "1000", by decide, List.all_eq_true.mp (by decide)⟩

def labelledLine : Line :=
  { plainLine with
    labels := some [⟨ascii "b", by decide, fun _ h => Option.mem_some.mp h ▸ (by decide),
      List.all_eq_true.mp (by decide), [.plain 'c'.toUInt8 (by decide), .quote]⟩] }

end EliteTelemetry.Forecaster
