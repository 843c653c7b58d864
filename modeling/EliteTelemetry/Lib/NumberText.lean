/-
  EliteTelemetry.Lib.NumberText — decimal numbers with a fraction and an exponent, as bytes.

  A number is `[+-]? (digits [. digits*] | . digits) ([eE] [+-]? digits)?`. `Number` is one in
  its parts; `text` writes it down and `value` is what it denotes, a rational. `readParts` takes as
  much of a text as can belong to a number, whether or not there are digits enough for one.
  It finds the number that a text begins with, if that cannot go on with what stands behind it
  (`Stops`, `readParts_append`), and it finds no other (`text_readParts`, `readParts_stops`).
-/

import Mathlib.Algebra.Order.Field.Basic
import Mathlib.Data.List.TakeWhile
import Mathlib.Data.Rat.Defs

namespace EliteTelemetry.Lib.NumberText

def ascii (s : String) : List UInt8 := s.toList.map Char.toUInt8

/-! ## Digits -/

def isDigit (b : UInt8) : Bool := '0'.toUInt8 ≤ b && b ≤ '9'.toUInt8

def digit (b : UInt8) : Nat := (b - '0'.toUInt8).toNat

def digitsFrom (n : Nat) (ds : List UInt8) : Nat := ds.foldl (fun n d => n * 10 + digit d) n

def NoDigit (bs : List UInt8) : Prop := ∀ b ∈ bs.head?, isDigit b = false

theorem noDigit_dropWhile (bs : List UInt8) : NoDigit (bs.dropWhile isDigit) := by
  intro b hb
  cases hrest : bs.dropWhile isDigit with
  | nil => simp [hrest] at hb
  | cons c cs =>
    have hc : isDigit c = false := by
      simpa [hrest] using List.head_dropWhile_not isDigit (by simp [hrest] : bs.dropWhile isDigit ≠ [])
    obtain rfl : c = b := by simpa [hrest] using hb
    exact hc

variable {rest bs : List UInt8} {b : UInt8}

theorem takeWhile_digits {ds : List UInt8} (hds : ∀ d ∈ ds, isDigit d = true) (hrest : NoDigit rest) :
    (ds ++ rest).takeWhile isDigit = ds ∧ (ds ++ rest).dropWhile isDigit = rest := by
  rw [List.takeWhile_append_of_pos hds, List.dropWhile_append_of_pos hds]
  cases rest with
  | nil => simp
  | cons b bs => simp [hrest b (by simp)]

/-! ## Numbers and their parts -/

inductive Sign where
  | none
  | plus
  | minus
  deriving DecidableEq, Repr

def Sign.text : Sign → List UInt8
  | .none => []
  | .plus => ['+'.toUInt8]
  | .minus => ['-'.toUInt8]

structure Exponent where
  /-- Whether it is marked by an `E`. -/
  upper : Bool
  sign : Sign
  digits : List UInt8
  deriving DecidableEq, Repr

def Exponent.marker (e : Exponent) : UInt8 := if e.upper then 'E'.toUInt8 else 'e'.toUInt8

theorem Exponent.marker_cases (e : Exponent) : e.marker = 'e'.toUInt8 ∨ e.marker = 'E'.toUInt8 := by
  unfold marker
  split
  · exact .inr rfl
  · exact .inl rfl

def Exponent.text (e : Exponent) : List UInt8 := e.marker :: (e.sign.text ++ e.digits)

structure Parts where
  sign : Sign
  int : List UInt8
  /-- The digits behind the point, if there is one. -/
  frac : Option (List UInt8)
  exponent : Option Exponent
  deriving DecidableEq, Repr

namespace Parts

def fracText (p : Parts) : List UInt8 := (p.frac.map ('.'.toUInt8 :: ·)).getD []

def exponentText (p : Parts) : List UInt8 := (p.exponent.map Exponent.text).getD []

def text (p : Parts) : List UInt8 := p.sign.text ++ (p.int ++ (p.fracText ++ p.exponentText))

structure Proper (p : Parts) : Prop where
  int : ∀ d ∈ p.int, isDigit d = true
  frac : ∀ ds ∈ p.frac, ∀ d ∈ ds, isDigit d = true
  someDigit : p.int ≠ [] ∨ ∃ ds ∈ p.frac, ds ≠ []
  exponent : ∀ e ∈ p.exponent, (∀ d ∈ e.digits, isDigit d = true) ∧ e.digits ≠ []

def HasDigits (p : Parts) : Prop :=
  (p.int ≠ [] ∨ p.frac.any (!·.isEmpty) = true) ∧ p.exponent.all (!·.digits.isEmpty) = true

instance (p : Parts) : Decidable p.HasDigits := inferInstanceAs (Decidable (_ ∧ _))

def mantissa (p : Parts) : ℚ :=
  digitsFrom 0 p.int + digitsFrom 0 (p.frac.getD []) / 10 ^ (p.frac.getD []).length

def magnitude (p : Parts) : Nat := (p.exponent.map fun e => digitsFrom 0 e.digits).getD 0

def negativeExponent (p : Parts) : Bool := p.exponent.any (·.sign = .minus)

def value (p : Parts) : ℚ :=
  (if p.sign = .minus then -1 else 1) * p.mantissa *
    (10 : ℚ) ^ (if p.negativeExponent then -(p.magnitude : ℤ) else p.magnitude)

/-- The number cannot go on with what stands behind it. -/
def Stops (p : Parts) (rest : List UInt8) : Prop :=
  ∀ b ∈ rest.head?, isDigit b = false ∧ (p.frac = none → p.exponent = none → b ≠ '.'.toUInt8) ∧
    (p.exponent = none → b ≠ 'e'.toUInt8 ∧ b ≠ 'E'.toUInt8)

end Parts

abbrev Number := { p : Parts // p.Proper }

/-! ## The bytes of a number -/

def isNumberByte (b : UInt8) : Bool := isDigit b || (ascii "+-.eE").contains b

theorem isNumberByte_of_digits {ds : List UInt8} (hds : ∀ d ∈ ds, isDigit d = true) (h : b ∈ ds) :
    isNumberByte b = true := by
  simp [isNumberByte, hds b h]

theorem isNumberByte_of_sign {s : Sign} (h : b ∈ s.text) : isNumberByte b = true := by
  cases s with
  | none => cases h
  | plus =>
    rw [List.mem_singleton.mp h]
    decide
  | minus =>
    rw [List.mem_singleton.mp h]
    decide

variable {p : Parts}

theorem isNumberByte_of_frac (hp : p.Proper) (h : b ∈ p.fracText) : isNumberByte b = true := by
  unfold Parts.fracText at h
  cases hf : p.frac with
  | none => simp [hf] at h
  | some ds =>
    rw [hf] at h
    rcases List.mem_cons.mp h with rfl | h
    · decide
    · exact isNumberByte_of_digits (hp.frac ds hf) h

theorem isNumberByte_of_exponent (hp : p.Proper) (h : b ∈ p.exponentText) : isNumberByte b = true := by
  unfold Parts.exponentText at h
  cases he : p.exponent with
  | none => simp [he] at h
  | some e =>
    rw [he] at h
    rcases List.mem_cons.mp h with hmarker | h
    · rcases e.marker_cases with he | he
      · rw [hmarker, he]
        decide
      · rw [hmarker, he]
        decide
    · rcases List.mem_append.mp h with h | h
      · exact isNumberByte_of_sign h
      · exact isNumberByte_of_digits (hp.exponent e he).1 h

theorem isNumberByte_of_mem_text (hp : p.Proper) (h : b ∈ p.text) : isNumberByte b = true := by
  rcases List.mem_append.mp h with h | h
  · exact isNumberByte_of_sign h
  rcases List.mem_append.mp h with h | h
  · exact isNumberByte_of_digits hp.int h
  rcases List.mem_append.mp h with h | h
  · exact isNumberByte_of_frac hp h
  · exact isNumberByte_of_exponent hp h

theorem not_mem_text (hp : p.Proper) (hb : isNumberByte b = false) : b ∉ p.text := by
  intro h
  rw [isNumberByte_of_mem_text hp h] at hb
  cases hb

theorem text_ne_nil (hp : p.Proper) : p.text ≠ [] := by
  unfold Parts.text Parts.fracText
  rcases hp.someDigit with hint | ⟨ds, hds, -⟩
  · simp [hint]
  · have hfrac : p.frac = some ds := hds
    simp [hfrac]

/-! ## Reading -/

def readSign : List UInt8 → Sign × List UInt8
  | [] => (.none, [])
  | b :: bs => if b = '+'.toUInt8 then (.plus, bs) else if b = '-'.toUInt8 then (.minus, bs) else (.none, b :: bs)

def readFrac : List UInt8 → Option (List UInt8) × List UInt8
  | [] => (none, [])
  | b :: bs => if b = '.'.toUInt8 then (some (bs.takeWhile isDigit), bs.dropWhile isDigit) else (none, b :: bs)

def readExponent : List UInt8 → Option Exponent × List UInt8
  | [] => (none, [])
  | b :: bs =>
    if b = 'e'.toUInt8 ∨ b = 'E'.toUInt8 then
      let s := readSign bs
      (some ⟨b = 'E'.toUInt8, s.1, s.2.takeWhile isDigit⟩, s.2.dropWhile isDigit)
    else (none, b :: bs)

/-- The parts a text begins with, and what is left of it. -/
def readParts (bs : List UInt8) : Parts × List UInt8 :=
  let s := readSign bs
  let f := readFrac (s.2.dropWhile isDigit)
  let e := readExponent f.2
  (⟨s.1, s.2.takeWhile isDigit, f.1, e.1⟩, e.2)

theorem text_readSign (bs : List UInt8) : (readSign bs).1.text ++ (readSign bs).2 = bs := by
  cases bs with
  | nil => rfl
  | cons b bs =>
    simp only [readSign]
    split
    · next h => simp [Sign.text, h]
    · split
      · next h => simp [Sign.text, h]
      · rfl

theorem text_readFrac (bs : List UInt8) :
    ((readFrac bs).1.map ('.'.toUInt8 :: ·)).getD [] ++ (readFrac bs).2 = bs := by
  cases bs with
  | nil => rfl
  | cons b bs =>
    simp only [readFrac]
    split
    · next h => simp [h]
    · rfl

theorem text_readExponent (bs : List UInt8) :
    ((readExponent bs).1.map Exponent.text).getD [] ++ (readExponent bs).2 = bs := by
  cases bs with
  | nil => rfl
  | cons b bs =>
    simp only [readExponent]
    split
    · next h =>
      have hmarker : (if b = 'E'.toUInt8 then 'E'.toUInt8 else 'e'.toUInt8) = b := by
        split
        · next he => exact he.symm
        · next he => exact (h.resolve_right he).symm
      simp [Exponent.text, Exponent.marker, hmarker, text_readSign]
    · rfl

theorem text_readParts (bs : List UInt8) : (readParts bs).1.text ++ (readParts bs).2 = bs := by
  have hsign := text_readSign bs
  have hfrac := text_readFrac ((readSign bs).2.dropWhile isDigit)
  have hexponent := text_readExponent (readFrac ((readSign bs).2.dropWhile isDigit)).2
  simp only [readParts, Parts.text, Parts.fracText, Parts.exponentText, List.append_assoc]
  rw [hexponent, hfrac, List.takeWhile_append_dropWhile, hsign]

theorem readFrac_stops (h : NoDigit bs) :
    NoDigit (readFrac bs).2 ∧ ((readFrac bs).1 = none → '.'.toUInt8 ∉ (readFrac bs).2.head?) := by
  cases bs with
  | nil => exact ⟨h, fun _ => by simp [readFrac]⟩
  | cons b bs =>
    simp only [readFrac]
    split
    · exact ⟨noDigit_dropWhile bs, fun hnone => by cases hnone⟩
    · next hb => exact ⟨h, fun _ => by simpa using hb⟩

theorem readExponent_stops (h : NoDigit bs) :
    NoDigit (readExponent bs).2 ∧
      ((readExponent bs).1 = none → (readExponent bs).2 = bs ∧ 'e'.toUInt8 ∉ bs.head? ∧ 'E'.toUInt8 ∉ bs.head?) := by
  cases bs with
  | nil => exact ⟨h, fun _ => by simp [readExponent]⟩
  | cons b bs =>
    simp only [readExponent]
    split
    · exact ⟨noDigit_dropWhile _, fun hnone => by cases hnone⟩
    · next hb =>
      rw [not_or] at hb
      exact ⟨h, fun _ => ⟨rfl, by simpa using hb.1, by simpa using hb.2⟩⟩

theorem readParts_stops (bs : List UInt8) : (readParts bs).1.Stops (readParts bs).2 := by
  obtain ⟨hfrac, hpoint⟩ := readFrac_stops (noDigit_dropWhile (readSign bs).2)
  obtain ⟨hexponent, hmarker⟩ := readExponent_stops hfrac
  intro b hb
  refine ⟨hexponent b hb, fun hnone hnone' heq => ?_, fun hnone => ⟨fun heq => ?_, fun heq => ?_⟩⟩
  · have hrest := (hmarker hnone').1
    subst heq
    exact hpoint hnone (hrest ▸ hb)
  · obtain ⟨hrest, he, -⟩ := hmarker hnone
    subst heq
    exact he (hrest ▸ hb)
  · obtain ⟨hrest, -, he⟩ := hmarker hnone
    subst heq
    exact he (hrest ▸ hb)

theorem readFrac_digits {ds : List UInt8} (h : (readFrac bs).1 = some ds) : ∀ d ∈ ds, isDigit d = true := by
  cases bs with
  | nil => cases h
  | cons b bs =>
    simp only [readFrac] at h
    split at h
    · cases h
      exact fun d hd => List.mem_takeWhile_imp hd
    · cases h

theorem readExponent_digits {e : Exponent} (h : (readExponent bs).1 = some e) : ∀ d ∈ e.digits, isDigit d = true := by
  cases bs with
  | nil => cases h
  | cons b bs =>
    simp only [readExponent] at h
    split at h
    · cases h
      exact fun d hd => List.mem_takeWhile_imp hd
    · cases h

/-- What is read has its digits in their places; the question is whether there are any. -/
theorem readParts_proper_iff (bs : List UInt8) : (readParts bs).1.Proper ↔ (readParts bs).1.HasDigits := by
  unfold Parts.HasDigits
  simp only [Option.any_eq_true, Option.all_eq_true, Bool.not_eq_true', List.isEmpty_eq_false_iff]
  constructor
  · intro h
    exact ⟨h.someDigit, fun e he => (h.exponent e he).2⟩
  · intro h
    obtain ⟨hsome, hexponent⟩ := h
    exact ⟨fun d hd => List.mem_takeWhile_imp hd, fun ds hds => readFrac_digits hds, hsome,
      fun e he => ⟨readExponent_digits he, hexponent e he⟩⟩

theorem readSign_append {s : Sign} (h : '+'.toUInt8 ∉ rest.head? ∧ '-'.toUInt8 ∉ rest.head?) :
    readSign (s.text ++ rest) = (s, rest) := by
  cases s with
  | none =>
    cases rest with
    | nil => rfl
    | cons b bs =>
      have hplus : b ≠ '+'.toUInt8 := fun heq => h.1 (by simp [heq])
      have hminus : b ≠ '-'.toUInt8 := fun heq => h.2 (by simp [heq])
      simp [readSign, Sign.text, hplus, hminus]
  | plus => rfl
  | minus => rfl

theorem noSign_of_head (h : isDigit b = true ∨ b = '.'.toUInt8) :
    '+'.toUInt8 ∉ (b :: bs).head? ∧ '-'.toUInt8 ∉ (b :: bs).head? := by
  have hne : ∀ c : UInt8, isDigit c = false → c ≠ '.'.toUInt8 → c ∉ (b :: bs).head? := by
    intro c hc hpoint hmem
    obtain rfl : b = c := by simpa using hmem
    rcases h with h | h
    · rw [h] at hc
      cases hc
    · exact hpoint h
  exact ⟨hne _ (by decide) (by decide), hne _ (by decide) (by decide)⟩

theorem readExponent_append (hp : p.Proper) (hrest : p.Stops rest) :
    readExponent (p.exponentText ++ rest) = (p.exponent, rest) := by
  unfold Parts.exponentText
  cases he : p.exponent with
  | none =>
    cases rest with
    | nil => rfl
    | cons b bs =>
      obtain ⟨hlower, hupper⟩ := (hrest b (by simp)).2.2 he
      simp [readExponent, hlower, hupper]
  | some e =>
    obtain ⟨hdigits, hne⟩ := hp.exponent e he
    obtain ⟨d, ds, hds⟩ := List.exists_cons_of_ne_nil hne
    obtain ⟨htake, hdrop⟩ := takeWhile_digits hdigits fun b hb => (hrest b hb).1
    have hsign : readSign (e.sign.text ++ (e.digits ++ rest)) = (e.sign, e.digits ++ rest) := by
      refine readSign_append ?_
      rw [hds]
      exact noSign_of_head (.inl (hdigits d (by simp [hds])))
    have hupper : decide (e.marker = 'E'.toUInt8) = e.upper := by
      unfold Exponent.marker
      cases e.upper <;> decide
    simp only [Option.map_some, Option.getD_some, Exponent.text, List.cons_append, List.append_assoc, readExponent,
      if_pos e.marker_cases, hsign, htake, hdrop, hupper]

theorem noDigit_exponentText (hrest : p.Stops rest) : NoDigit (p.exponentText ++ rest) := by
  unfold Parts.exponentText
  cases p.exponent with
  | none => exact fun b hb => (hrest b hb).1
  | some e =>
    intro b hb
    obtain rfl : e.marker = b := by simpa [Exponent.text] using hb
    rcases e.marker_cases with he | he
    · rw [he]
      decide
    · rw [he]
      decide

theorem readFrac_append (hp : p.Proper) (hrest : p.Stops rest) :
    readFrac (p.fracText ++ (p.exponentText ++ rest)) = (p.frac, p.exponentText ++ rest) := by
  unfold Parts.fracText
  cases hf : p.frac with
  | some ds =>
    obtain ⟨htake, hdrop⟩ := takeWhile_digits (hp.frac ds hf) (noDigit_exponentText hrest)
    simp only [Option.map_some, Option.getD_some, List.cons_append, readFrac, if_true, htake, hdrop]
  | none =>
    -- what comes next is no point: the marker of the exponent, or the rest
    have hpoint : '.'.toUInt8 ∉ (p.exponentText ++ rest).head? := by
      unfold Parts.exponentText
      cases he : p.exponent with
      | none => exact fun hb => (hrest _ hb).2.1 hf he rfl
      | some e =>
        intro hb
        have hmarker : e.marker = '.'.toUInt8 := by simpa [Exponent.text] using hb
        rcases e.marker_cases with h | h
        · exact absurd (h.symm.trans hmarker) (by decide)
        · exact absurd (h.symm.trans hmarker) (by decide)
    simp only [Option.map_none, Option.getD_none, List.nil_append]
    cases htail : p.exponentText ++ rest with
    | nil => rfl
    | cons b bs =>
      have hb : b ≠ '.'.toUInt8 := fun heq => hpoint (by simp [htail, heq])
      simp [readFrac, hb]

theorem noDigit_fracText (hrest : p.Stops rest) : NoDigit (p.fracText ++ (p.exponentText ++ rest)) := by
  unfold Parts.fracText
  cases p.frac with
  | none => exact noDigit_exponentText hrest
  | some ds =>
    intro b hb
    obtain rfl : '.'.toUInt8 = b := by simpa using hb
    decide

/-- A number is read back, if what stands behind it does not go on with it. -/
theorem readParts_append (hp : p.Proper) (hrest : p.Stops rest) : readParts (p.text ++ rest) = (p, rest) := by
  obtain ⟨htake, hdrop⟩ := takeWhile_digits hp.int (noDigit_fracText hrest)
  have hsign : readSign (p.text ++ rest) = (p.sign, p.int ++ (p.fracText ++ (p.exponentText ++ rest))) := by
    unfold Parts.text
    rw [List.append_assoc, List.append_assoc, List.append_assoc]
    refine readSign_append ?_
    cases hint : p.int with
    | cons d ds => exact noSign_of_head (.inl (hp.int d (by simp [hint])))
    | nil =>
      obtain ⟨ds, hds, -⟩ := hp.someDigit.resolve_left fun hne => hne hint
      have hfrac : p.frac = some ds := hds
      simp only [Parts.fracText, hfrac]
      exact noSign_of_head (.inr rfl)
  simp only [readParts, hsign, htake, hdrop, readFrac_append hp hrest, readExponent_append hp hrest]

end EliteTelemetry.Lib.NumberText
