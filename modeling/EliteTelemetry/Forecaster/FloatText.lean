/-
  EliteTelemetry.Forecaster.FloatText — the scraper's own reader of numbers
  (`parseFloatBytes` of `pkg/forecaster/scraper.go`).

  It runs through the bytes once: a sign, digits, a point and digits, an exponent. It never
  asks whether the bytes end there, so every text that begins with a number is read as that
  number (`parseFloatBytes_eq_some_iff`). The exponent is added up in an `int`, and one of 2^63
  or more wraps round; the power of ten is a loop up to it, so a negative one counts as zero.

  `parseFloatBytes_right_iff` says for which texts it is right: those that begin with no number,
  and the numbers whose exponent fits or has nothing to scale.
-/

import EliteTelemetry.Lib.NumberText
import Mathlib.Tactic.Positivity
import Mathlib.Tactic.FieldSimp

namespace EliteTelemetry.Forecaster

open EliteTelemetry.Lib.NumberText

/-! ## The reader -/

def digitLoop {σ : Type} (f : σ → UInt8 → σ) : List UInt8 → σ → σ × List UInt8
  | [], s => (s, [])
  | b :: bs, s => if isDigit b then digitLoop f bs (f s b) else (s, b :: bs)

def intStep (s : ℚ × Bool) (b : UInt8) : ℚ × Bool := (s.1 * 10 + digit b, true)

def fracStep (s : ℚ × ℚ × Bool) (b : UInt8) : ℚ × ℚ × Bool := (s.1 * 10 + digit b, s.2.1 * 10, true)

def expStep (s : Int64 × Bool) (b : UInt8) : Int64 × Bool := (s.1 * 10 + .ofNat (digit b), true)

def takeSign : List UInt8 → Bool × List UInt8
  | [] => (false, [])
  | b :: bs => if b = '+'.toUInt8 then (false, bs) else if b = '-'.toUInt8 then (true, bs) else (false, b :: bs)

def powLoop10 (exp : Int64) : ℚ := (· * 10)^[exp.toInt.toNat] 1

/-- The part behind the digits: an exponent, or what the reader does not look at. -/
def scale (val : ℚ) : List UInt8 → Option ℚ
  | [] => some val
  | b :: bs =>
    if b = 'e'.toUInt8 ∨ b = 'E'.toUInt8 then
      let s := takeSign bs
      let e := digitLoop expStep s.2 (0, false)
      if e.1.2 then some (if s.1 then val / powLoop10 e.1.1 else val * powLoop10 e.1.1) else none
    else some val

def takeFrac (haveDigit : Bool) : List UInt8 → (ℚ × ℚ × Bool) × List UInt8
  | [] => ((0, 1, haveDigit), [])
  | b :: bs => if b = '.'.toUInt8 then digitLoop fracStep bs (0, 1, haveDigit) else ((0, 1, haveDigit), b :: bs)

def parseFloatBytes (b : List UInt8) : Option ℚ :=
  if b = [] then none
  else
    let s := takeSign b
    if s.2 = [] then none
    else
      let i := digitLoop intStep s.2 (0, false)
      let f := takeFrac i.1.2 i.2
      if f.1.2.2 then scale ((if s.1 then -1 else 1) * (i.1.1 + f.1.1 / f.1.2.1)) f.2 else none

/-! ## What it does with the parts of a number -/

theorem digitLoop_eq {σ : Type} (f : σ → UInt8 → σ) (bs : List UInt8) (s : σ) :
    digitLoop f bs s = ((bs.takeWhile isDigit).foldl f s, bs.dropWhile isDigit) := by
  induction bs generalizing s with
  | nil => rfl
  | cons b bs ih =>
    unfold digitLoop
    split
    · next h => rw [ih, List.takeWhile_cons_of_pos h, List.dropWhile_cons_of_pos h, List.foldl_cons]
    · next h => rw [List.takeWhile_cons_of_neg h, List.dropWhile_cons_of_neg h, List.foldl_nil]

theorem takeSign_eq (bs : List UInt8) : takeSign bs = (decide ((readSign bs).1 = .minus), (readSign bs).2) := by
  cases bs with
  | nil => rfl
  | cons b bs =>
    simp only [takeSign, readSign]
    split
    · rfl
    · split <;> rfl

theorem digitsFrom_cons (n : Nat) (d : UInt8) (ds : List UInt8) :
    digitsFrom n (d :: ds) = digitsFrom (n * 10 + digit d) ds := rfl

theorem foldl_intStep (ds : List UInt8) (n : Nat) (seen : Bool) :
    ds.foldl intStep ((n : ℚ), seen) = ((digitsFrom n ds : ℚ), seen || !ds.isEmpty) := by
  induction ds generalizing n seen with
  | nil => simp [digitsFrom]
  | cons d ds ih =>
    have hstep : intStep ((n : ℚ), seen) d = (((n * 10 + digit d : Nat) : ℚ), true) := by simp [intStep]
    rw [List.foldl_cons, hstep, ih, digitsFrom_cons]
    simp

theorem foldl_fracStep (ds : List UInt8) (n : Nat) (div : ℚ) (seen : Bool) :
    ds.foldl fracStep ((n : ℚ), div, seen) = ((digitsFrom n ds : ℚ), div * 10 ^ ds.length, seen || !ds.isEmpty) := by
  induction ds generalizing n div seen with
  | nil => simp [digitsFrom]
  | cons d ds ih =>
    have hstep : fracStep ((n : ℚ), div, seen) d = (((n * 10 + digit d : Nat) : ℚ), div * 10, true) := by
      simp [fracStep]
    rw [List.foldl_cons, hstep, ih, digitsFrom_cons, List.length_cons, pow_succ', mul_assoc]
    simp

theorem foldl_expStep (ds : List UInt8) (n : Nat) (seen : Bool) :
    ds.foldl expStep (Int64.ofNat n, seen) = (Int64.ofNat (digitsFrom n ds), seen || !ds.isEmpty) := by
  induction ds generalizing n seen with
  | nil => simp [digitsFrom]
  | cons d ds ih =>
    have hstep : expStep (Int64.ofNat n, seen) d = (Int64.ofNat (n * 10 + digit d), true) := by
      simp [expStep, Int64.ofNat_add, Int64.ofNat_mul]
    rw [List.foldl_cons, hstep, ih, digitsFrom_cons]
    simp

theorem powLoop10_eq (exp : Int64) : powLoop10 exp = 10 ^ exp.toInt.toNat := by
  unfold powLoop10
  generalize exp.toInt.toNat = k
  induction k with
  | zero => rfl
  | succ k ih => rw [Function.iterate_succ_apply', ih, pow_succ]

/-- How often the loop multiplies for an exponent of `n`. -/
def rounds (n : Nat) : Nat := (Int64.ofNat n).toInt.toNat

def readValue (p : Parts) : ℚ :=
  let val := (if p.sign = .minus then -1 else 1) * p.mantissa
  if p.negativeExponent then val / 10 ^ rounds p.magnitude else val * 10 ^ rounds p.magnitude

theorem scale_eq (val : ℚ) (bs : List UInt8) :
    scale val bs =
      match (readExponent bs).1 with
      | none => some val
      | some e =>
        if e.digits = [] then none
        else some (if e.sign = .minus then val / 10 ^ rounds (digitsFrom 0 e.digits)
          else val * 10 ^ rounds (digitsFrom 0 e.digits)) := by
  cases bs with
  | nil => rfl
  | cons b bs =>
    simp only [scale, readExponent]
    split
    · have hzero : ((0 : Int64), false) = (Int64.ofNat 0, false) := rfl
      simp only [takeSign_eq, digitLoop_eq, hzero, foldl_expStep, powLoop10_eq, Bool.false_or, decide_eq_true_eq]
      generalize (readSign bs).2.takeWhile isDigit = ds
      cases ds with
      | nil => rfl
      | cons d ds => rfl
    · rfl

theorem takeFrac_eq (seen : Bool) (bs : List UInt8) :
    takeFrac seen bs =
      ((((digitsFrom 0 ((readFrac bs).1.getD []) : Nat) : ℚ), 10 ^ ((readFrac bs).1.getD []).length,
        seen || (readFrac bs).1.any (!·.isEmpty)), (readFrac bs).2) := by
  cases bs with
  | nil => simp [takeFrac, readFrac, digitsFrom]
  | cons b bs =>
    simp only [takeFrac, readFrac]
    split
    · have hzero : ((0 : ℚ), (1 : ℚ), seen) = (((0 : Nat) : ℚ), 1, seen) := by simp
      rw [digitLoop_eq, hzero, foldl_fracStep]
      simp
    · simp [digitsFrom]

/-- Where digits are wanting nothing is read; else the parts are. -/
theorem parseFloatBytes_read (b : List UInt8) :
    parseFloatBytes b = if (readParts b).1.HasDigits then some (readValue (readParts b).1) else none := by
  have hzero : ((0 : ℚ), false) = (((0 : Nat) : ℚ), false) := by simp
  by_cases hb : b = []
  · subst hb
    rfl
  · by_cases hs : (readSign b).2 = []
    · have hread : readParts b = (⟨(readSign b).1, [], none, none⟩, []) := by
        simp [readParts, hs, readFrac, readExponent]
      rw [hread]
      simp [parseFloatBytes, hb, takeSign_eq, hs, Parts.HasDigits]
    · have hread : (readParts b).1 = ⟨(readSign b).1, (readSign b).2.takeWhile isDigit,
          (readFrac ((readSign b).2.dropWhile isDigit)).1,
          (readExponent (readFrac ((readSign b).2.dropWhile isDigit)).2).1⟩ := rfl
      simp only [parseFloatBytes, if_neg hb, takeSign_eq, if_neg hs, digitLoop_eq, hzero, foldl_intStep, takeFrac_eq,
        scale_eq, hread]
      generalize (readSign b).2.takeWhile isDigit = int
      generalize readFrac ((readSign b).2.dropWhile isDigit) = frac
      generalize (readExponent frac.2).1 = exponent
      have hseen : (false || !int.isEmpty || frac.1.any (!·.isEmpty)) = true ↔
          int ≠ [] ∨ frac.1.any (!·.isEmpty) = true := by
        simp
      by_cases hdigits : int ≠ [] ∨ frac.1.any (!·.isEmpty) = true
      · rw [if_pos (hseen.mpr hdigits)]
        cases exponent with
        | none =>
          have hhas : Parts.HasDigits ⟨(readSign b).1, int, frac.1, none⟩ := ⟨hdigits, rfl⟩
          rw [if_pos hhas]
          simp [readValue, Parts.mantissa, Parts.negativeExponent, Parts.magnitude, rounds]
        | some e =>
          by_cases he : e.digits = []
          · simp [he, Parts.HasDigits]
          · have hhas : Parts.HasDigits ⟨(readSign b).1, int, frac.1, some e⟩ := ⟨hdigits, by simpa using he⟩
            rw [if_pos hhas]
            simp [he, readValue, Parts.mantissa, Parts.negativeExponent, Parts.magnitude]
      · rw [if_neg (mt hseen.mp hdigits), if_neg fun h : Parts.HasDigits _ => hdigits h.1]

theorem parseFloatBytes_eq_some_iff {b : List UInt8} {v : ℚ} :
    parseFloatBytes b = some v ↔ ∃ (n : Number) (rest : List UInt8), b = n.1.text ++ rest ∧ n.1.Stops rest ∧
      v = readValue n.1 := by
  rw [parseFloatBytes_read]
  constructor
  · intro h
    split at h
    · next hdigits =>
      refine ⟨⟨(readParts b).1, (readParts_proper_iff b).mpr hdigits⟩, (readParts b).2, (text_readParts b).symm,
        readParts_stops b, ?_⟩
      exact (Option.some.inj h).symm
    · cases h
  · intro h
    obtain ⟨n, rest, rfl, hstops, rfl⟩ := h
    have hread := readParts_append n.2 hstops
    have hdigits := (readParts_proper_iff (n.1.text ++ rest)).mp (by rw [hread]; exact n.2)
    rw [if_pos hdigits, hread]

/-! ## What it is worth -/

theorem rounds_lt (n : Nat) : rounds n < 2 ^ 63 := by
  have := (Int64.ofNat n).toInt_lt
  unfold rounds
  omega

theorem rounds_eq_iff (n : Nat) : rounds n = n ↔ n < 2 ^ 63 := by
  constructor
  · intro h
    rw [← h]
    exact rounds_lt n
  · intro h
    unfold rounds
    rw [Int64.toInt_ofNat_of_lt h]
    rfl

/-- The value is the right one where the exponent fits, or there is nothing to scale. -/
theorem readValue_eq_iff (p : Parts) : readValue p = p.value ↔ p.mantissa = 0 ∨ p.magnitude < 2 ^ 63 := by
  have hsign : (if p.sign = .minus then -1 else 1 : ℚ) ≠ 0 := by split <;> norm_num
  have hzero : (if p.sign = .minus then -1 else 1) * p.mantissa = 0 ↔ p.mantissa = 0 := by
    rw [mul_eq_zero, or_iff_right hsign]
  have hpow : (10 : ℚ) ^ rounds p.magnitude = 10 ^ p.magnitude ↔ rounds p.magnitude = p.magnitude :=
    pow_right_inj₀ (by norm_num) (by norm_num)
  rw [← rounds_eq_iff, ← hpow, ← hzero]
  unfold readValue Parts.value
  generalize (if p.sign = .minus then -1 else 1) * p.mantissa = val
  simp only
  split
  · rw [zpow_neg, zpow_natCast, div_eq_mul_inv, mul_eq_mul_left_iff, inv_inj, or_comm]
  · rw [zpow_natCast, mul_eq_mul_left_iff, or_comm]

/-- The text is read for what it is: its value if it is a number, and nothing if it is none. -/
def ReadRight (b : List UInt8) : Prop :=
  (∀ n : Number, n.1.text = b → parseFloatBytes b = some n.1.value) ∧
    ((∀ n : Number, n.1.text ≠ b) → parseFloatBytes b = none)

theorem stops_nil (p : Parts) : p.Stops [] := fun b hb => by cases hb

/-- A text is read right exactly where a number it begins with is all of it, and has an exponent
    below 2^63 or nothing but zeros before it. -/
theorem parseFloatBytes_right_iff (b : List UInt8) :
    ReadRight b ↔ ∀ (n : Number) (rest : List UInt8), b = n.1.text ++ rest → n.1.Stops rest →
      rest = [] ∧ (n.1.mantissa = 0 ∨ n.1.magnitude < 2 ^ 63) := by
  constructor
  · intro ⟨hnumber, hnone⟩ n rest hb hstops
    have hread := parseFloatBytes_eq_some_iff.mpr ⟨n, rest, hb, hstops, rfl⟩
    by_cases hall : ∃ m : Number, m.1.text = b
    · obtain ⟨m, hm⟩ := hall
      -- the two numbers are read from one text, so they are one
      have hmn : (m.1, []) = (n.1, rest) := by
        rw [← readParts_append m.2 (stops_nil m.1), ← readParts_append n.2 hstops, List.append_nil, hm, hb]
      obtain ⟨hparts, hrest⟩ := Prod.mk.inj hmn
      refine ⟨hrest.symm, (readValue_eq_iff n.1).mp (Option.some.inj ?_)⟩
      rw [← hread, hnumber m hm, hparts]
    · rw [hnone fun m hm => hall ⟨m, hm⟩] at hread
      cases hread
  · intro h
    refine ⟨fun n hn => ?_, fun hnone => ?_⟩
    · obtain ⟨-, hvalue⟩ := h n [] (by rw [List.append_nil, hn]) (stops_nil n.1)
      rw [← (readValue_eq_iff n.1).mpr hvalue]
      exact parseFloatBytes_eq_some_iff.mpr ⟨n, [], by rw [List.append_nil, hn], stops_nil n.1, rfl⟩
    · by_contra hsome
      obtain ⟨v, hv⟩ := Option.ne_none_iff_exists'.mp hsome
      obtain ⟨n, rest, hb, hstops, -⟩ := parseFloatBytes_eq_some_iff.mp hv
      obtain ⟨rfl, -⟩ := h n rest hb hstops
      exact hnone n (by rw [hb, List.append_nil])

def hugeNumber : Parts := ⟨.none, ascii "1", none, some ⟨false, .none, ascii "18446744073709551617"⟩⟩

/-- What stands behind a number is passed over, and an exponent of 2^64 + 1 counts as one. -/
theorem a_number_with_more_is_read :
    parseFloatBytes (ascii "12x") = some 12 ∧ ¬ReadRight (ascii "12x") ∧
      hugeNumber.text = ascii "1e18446744073709551617" ∧
      parseFloatBytes (ascii "1e18446744073709551617") = some 10 ∧ ¬ReadRight (ascii "1e18446744073709551617") := by
  have hmore : parseFloatBytes (ascii "12x") = some 12 := by decide +kernel
  have hhuge : parseFloatBytes (ascii "1e18446744073709551617") = some 10 := by decide +kernel
  have htext : hugeNumber.text = ascii "1e18446744073709551617" := by decide +kernel
  refine ⟨hmore, fun h => ?_, htext, hhuge, fun h => ?_⟩
  · have hnone := h.2 fun n hn => by
      have hread := readParts_append n.2 (stops_nil n.1)
      rw [List.append_nil, hn] at hread
      have hrest : (readParts (ascii "12x")).2 = [] := congrArg Prod.snd hread
      exact absurd hrest (by decide +kernel)
    rw [hmore] at hnone
    cases hnone
  · have hproper : hugeNumber.Proper := by
      refine ⟨by decide +kernel, fun ds hds => (by cases hds), .inl (by decide +kernel), fun e he => ?_⟩
      cases he
      exact ⟨by decide +kernel, by decide +kernel⟩
    have hvalue : readValue hugeNumber = hugeNumber.value := by
      have hread : readValue hugeNumber = 10 := by decide +kernel
      have hright := h.1 ⟨hugeNumber, hproper⟩ htext
      rw [hhuge] at hright
      exact hread.trans (Option.some.inj hright)
    rcases (readValue_eq_iff hugeNumber).mp hvalue with hzero | hfits
    · exact absurd hzero (by decide +kernel)
    · exact absurd hfits (by decide +kernel)

end EliteTelemetry.Forecaster
