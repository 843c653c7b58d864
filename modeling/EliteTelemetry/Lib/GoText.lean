/-
  EliteTelemetry.Lib.GoText — Go's `strconv` and `strings` on short texts.

  A parser answers with a number also where it fails, and a caller that drops the error goes
  on with that number: 0 for a text that is no number, the bound for one that is too large.
  In base 10 a text parses as it stands exactly if it is a decimal number within the bound
  (`parseUint_decimal_iff`), and a number written in a base is read back in it
  (`parseUint_toDigits`).
-/

import Mathlib.Algebra.Group.Nat.Defs
import Mathlib.Data.List.Basic

namespace EliteTelemetry.Lib.GoText

/-! ## Numbers -/

inductive NumError where
  | invalidSyntax
  | outOfRange
  deriving DecidableEq, Repr

def digitValue (c : Char) : Option Nat :=
  if c.isDigit then some (c.toNat - '0'.toNat)
  else if 'a' ≤ c ∧ c ≤ 'z' then some (c.toNat - 'a'.toNat + 10)
  else if 'A' ≤ c ∧ c ≤ 'Z' then some (c.toNat - 'A'.toNat + 10)
  else none

/-- The digits of a number below `bound`, after those that give `n`; underscores are passed
    over where they are allowed. -/
def parseDigits (base bound : Nat) (underscores : Bool) : List Char → Nat → Nat × Option NumError
  | [], n => (n, none)
  | c :: cs, n =>
    if c = '_' ∧ underscores then parseDigits base bound underscores cs n
    else
      match digitValue c with
      | none => (0, some .invalidSyntax)
      | some d =>
        if base ≤ d then (0, some .invalidSyntax)
        else if bound ≤ n * base + d then (bound - 1, some .outOfRange)
        else parseDigits base bound underscores cs (n * base + d)

def underscoreOK (afterDigit : Bool) : List Char → Bool
  | [] => true
  | '_' :: cs => afterDigit && cs.head?.any (· ≠ '_') && underscoreOK false cs
  | _ :: cs => underscoreOK true cs

/-- What base 0 makes of a text: the base its beginning stands for, whether that beginning
    counts as a digit, and the digits. -/
def basePrefix : List Char → Nat × Bool × List Char
  | '0' :: x :: c :: cs =>
    if x.toLower = 'b' then (2, true, c :: cs)
    else if x.toLower = 'o' then (8, true, c :: cs)
    else if x.toLower = 'x' then (16, true, c :: cs)
    else (8, true, x :: c :: cs)
  | '0' :: cs => (8, true, cs)
  | cs => (10, false, cs)

def parseUint (cs : List Char) (base bitSize : Nat) : Nat × Option NumError :=
  if cs = [] then (0, some .invalidSyntax)
  else if base = 0 then
    let (base, afterDigit, digits) := basePrefix cs
    let (n, err) := parseDigits base (2 ^ bitSize) true digits 0
    if err = none ∧ underscoreOK afterDigit digits = false then (0, some .invalidSyntax) else (n, err)
  else parseDigits base (2 ^ bitSize) false cs 0

def sign : List Char → Bool × List Char
  | '+' :: cs => (false, cs)
  | '-' :: cs => (true, cs)
  | cs => (false, cs)

def parseInt (cs : List Char) (base bitSize : Nat) : Int × Option NumError :=
  let (neg, digits) := sign cs
  let (un, err) := parseUint digits base bitSize
  let cutoff := 2 ^ (bitSize - 1)
  if err = some .invalidSyntax then (0, err)
  else if neg = false ∧ cutoff ≤ un then (cutoff - 1, some .outOfRange)
  else if neg = true ∧ cutoff < un then (-cutoff, some .outOfRange)
  else (if neg then -un else un, none)

def atoi (cs : List Char) : Int × Option NumError := parseInt cs 10 64

theorem digitValue_lt_ten_iff {c : Char} {d : Nat} :
    digitValue c = some d ∧ d < 10 ↔ c.isDigit = true ∧ d = c.toNat - '0'.toNat := by
  unfold digitValue
  by_cases hdigit : c.isDigit = true
  · rw [if_pos hdigit]
    have hle : c.toNat ≤ '9'.toNat := (Char.isDigit_iff_toNat.mp hdigit).2
    have h0 : '0'.toNat = 48 := rfl
    have h9 : '9'.toNat = 57 := rfl
    constructor
    · rintro ⟨hd, -⟩
      exact ⟨hdigit, (Option.some.inj hd).symm⟩
    · rintro ⟨-, rfl⟩
      exact ⟨rfl, by omega⟩
  · rw [if_neg hdigit]
    refine iff_of_false ?_ fun h => hdigit h.1
    rintro ⟨hd, hlt⟩
    -- a letter is worth ten or more
    split at hd
    · have := Option.some.inj hd
      omega
    · split at hd
      · have := Option.some.inj hd
        omega
      · exact absurd hd (by simp)

theorem le_ofDigitChars (cs : List Char) (n : Nat) : n ≤ Nat.ofDigitChars 10 cs n := by
  induction cs generalizing n with
  | nil => simp
  | cons c cs ih =>
    rw [Nat.ofDigitChars_cons]
    have := ih (10 * n + (c.toNat - '0'.toNat))
    omega

variable {cs : List Char} {n v bitSize base : Nat}

/-- The digits of a decimal number are read to their end if the number is in bounds; a part
    of it is then in bounds too. -/
theorem parseDigits_decimal_iff {bound : Nat} (hn : n < bound) :
    parseDigits 10 bound false cs n = (v, none) ↔
      (∀ c ∈ cs, c.isDigit = true) ∧ v = Nat.ofDigitChars 10 cs n ∧ v < bound := by
  induction cs generalizing n with
  | nil =>
    rw [parseDigits, Nat.ofDigitChars_nil]
    constructor
    · intro h
      obtain rfl := (Prod.mk.inj h).1
      exact ⟨by simp, rfl, hn⟩
    · rintro ⟨-, rfl, -⟩
      rfl
  | cons c cs ih =>
    rw [parseDigits, if_neg (by simp), Nat.ofDigitChars_cons, List.forall_mem_cons]
    by_cases hdigit : c.isDigit = true
    · obtain ⟨hvalue, hlt⟩ := digitValue_lt_ten_iff.mpr ⟨hdigit, rfl⟩
      rw [hvalue]
      simp only [if_neg (by omega : ¬10 ≤ c.toNat - '0'.toNat), hdigit, true_and, Nat.mul_comm n 10]
      by_cases hbound : bound ≤ 10 * n + (c.toNat - '0'.toNat)
      · rw [if_pos hbound]
        refine iff_of_false (by simp) ?_
        rintro ⟨-, rfl, hv⟩
        have := le_ofDigitChars cs (10 * n + (c.toNat - '0'.toNat))
        omega
      · rw [if_neg hbound]
        exact ih (by omega)
    · refine iff_of_false ?_ fun h => hdigit h.1.1
      cases hvalue : digitValue c with
      | none => simp
      | some d =>
        have hd : 10 ≤ d := by
          by_contra hlt
          exact hdigit (digitValue_lt_ten_iff.mp ⟨hvalue, by omega⟩).1
        simp [hd]

def Decimal (cs : List Char) : Prop := cs ≠ [] ∧ ∀ c ∈ cs, c.isDigit = true

instance (cs : List Char) : Decidable (Decimal cs) := inferInstanceAs (Decidable (_ ∧ _))

theorem parseUint_decimal_iff :
    parseUint cs 10 bitSize = (v, none) ↔ Decimal cs ∧ v = Nat.ofDigitChars 10 cs 0 ∧ v < 2 ^ bitSize := by
  unfold parseUint Decimal
  by_cases hnil : cs = []
  · simp [hnil]
  · rw [if_neg hnil, if_neg (by decide), parseDigits_decimal_iff (Nat.two_pow_pos bitSize), and_assoc]
    exact (and_iff_right hnil).symm

/-! ## Numbers that are written out -/

def Digits (base : Nat) (cs : List Char) : Prop := ∀ c ∈ cs, ∃ d < base, digitValue c = some d

instance (base : Nat) (cs : List Char) : Decidable (Digits base cs) :=
  decidable_of_iff (cs.all (fun c => (digitValue c).any (· < base)) = true)
    (by simp [Digits, Option.any_eq_true, and_comm])

def digitsValue (base : Nat) (cs : List Char) (n : Nat) : Nat :=
  cs.foldl (fun n c => n * base + (digitValue c).getD 0) n

/-- The number written in decimal, or in hexadecimal after `0x`, with digits of either case and
    with or without zeros in front. -/
inductive Written (n : Nat) : List Char → Prop
  | decimal : Written n (Nat.toDigits 10 n)
  | hex {digits : List Char} : digits ≠ [] → Digits 16 digits → digitsValue 16 digits 0 = n →
      Written n ('0' :: 'x' :: digits)

theorem le_digitsValue (hbase : 0 < base) (cs : List Char) (n : Nat) : n ≤ digitsValue base cs n := by
  induction cs generalizing n with
  | nil => exact Nat.le_refl n
  | cons c cs ih =>
    have hstep : n ≤ n * base + (digitValue c).getD 0 := Nat.le_add_right_of_le (Nat.le_mul_of_pos_right n hbase)
    exact Nat.le_trans hstep (ih _)

theorem digitValue_underscore : digitValue '_' = none := by decide

theorem parseDigits_of_digits {bound : Nat} (hbase : 0 < base) {underscores : Bool} (hcs : Digits base cs)
    (hbound : digitsValue base cs n < bound) :
    parseDigits base bound underscores cs n = (digitsValue base cs n, none) := by
  induction cs generalizing n with
  | nil => rfl
  | cons c cs ih =>
    obtain ⟨d, hd, hvalue⟩ := hcs c (by simp)
    have hne : c ≠ '_' := by
      intro hc
      rw [hc, digitValue_underscore] at hvalue
      exact absurd hvalue (by simp)
    have hcons : digitsValue base (c :: cs) n = digitsValue base cs (n * base + d) := by
      simp [digitsValue, hvalue]
    rw [hcons] at hbound ⊢
    -- the part read so far is no more than the whole
    have hpart := le_digitsValue hbase cs (n * base + d)
    rw [parseDigits, if_neg (fun h => hne h.1), hvalue]
    simp only [if_neg (Nat.not_le.mpr hd), if_neg (show ¬bound ≤ n * base + d by omega)]
    exact ih (fun c hc => hcs c (by simp [hc])) hbound

theorem parseDigits_lt {bound : Nat} {underscores : Bool} (hn : n < bound)
    (h : parseDigits base bound underscores cs n = (v, none)) : v < bound := by
  induction cs generalizing n with
  | nil =>
    obtain rfl := (Prod.mk.inj h).1
    exact hn
  | cons c cs ih =>
    unfold parseDigits at h
    split at h
    · exact ih hn h
    · split at h
      · simp at h
      · split at h
        · simp at h
        · split at h
          · simp at h
          · exact ih (by omega) h

theorem parseUint_lt (hbase : base ≠ 0) (h : parseUint cs base bitSize = (v, none)) : v < 2 ^ bitSize := by
  unfold parseUint at h
  rw [if_neg hbase] at h
  split at h
  · simp at h
  · exact parseDigits_lt (Nat.two_pow_pos bitSize) h

theorem underscoreOK_of_not_mem (h : '_' ∉ cs) (afterDigit : Bool) : underscoreOK afterDigit cs = true := by
  induction cs generalizing afterDigit with
  | nil => rfl
  | cons c cs ih =>
    have hne : c ≠ '_' := fun hc => h (by simp [hc])
    unfold underscoreOK
    split
    · rfl
    · next heq => exact absurd (List.cons.inj heq).1 hne
    · next heq =>
      obtain ⟨-, rfl⟩ := List.cons.inj heq
      exact ih (fun hm => h (by simp [hm])) true

theorem Digits.no_underscore (h : Digits base cs) : '_' ∉ cs := by
  intro hm
  obtain ⟨d, -, hd⟩ := h '_' hm
  rw [digitValue_underscore] at hd
  exact absurd hd (by simp)

theorem parseUint_of_digits {digits : List Char} {afterDigit : Bool} (hcs : cs ≠ []) (hbase : 0 < base)
    (hpre : basePrefix cs = (base, afterDigit, digits)) (hdigits : Digits base digits)
    (hbound : digitsValue base digits 0 < 2 ^ bitSize) :
    parseUint cs 0 bitSize = (digitsValue base digits 0, none) := by
  unfold parseUint
  rw [if_neg hcs, if_pos rfl, hpre]
  simp only [parseDigits_of_digits hbase hdigits hbound, underscoreOK_of_not_mem hdigits.no_underscore]
  rfl

theorem digitValue_digitChar {d : Nat} (hd : d < 16) : digitValue d.digitChar = some d := by
  have hall : ∀ d < 16, digitValue (Nat.digitChar d) = some d := by decide
  exact hall d hd

theorem toDigits_spec (hbase : 1 < base) (hle : base ≤ 16) (n : Nat) :
    Digits base (Nat.toDigits base n) ∧ digitsValue base (Nat.toDigits base n) 0 = n := by
  induction n using Nat.strongRecOn with
  | ind n ih =>
    by_cases hlt : n < base
    · have hvalue := digitValue_digitChar (Nat.lt_of_lt_of_le hlt hle)
      rw [Nat.toDigits_of_lt_base hlt]
      exact ⟨by simpa [Digits, hvalue] using hlt, by simp [digitsValue, hvalue]⟩
    · have hlast : n % base < base := Nat.mod_lt n (by omega)
      have hvalue := digitValue_digitChar (Nat.lt_of_lt_of_le hlast hle)
      obtain ⟨hdigits, hn⟩ := ih (n / base) (Nat.div_lt_self (by omega) hbase)
      rw [Nat.toDigits_of_base_le hbase (by omega)]
      constructor
      · intro c hc
        rcases List.mem_append.mp hc with hc | hc
        · exact hdigits c hc
        · exact ⟨n % base, hlast, by rw [List.mem_singleton.mp hc, hvalue]⟩
      · unfold digitsValue at hn ⊢
        rw [List.foldl_append, hn]
        simp [hvalue, Nat.div_add_mod']

theorem digits_toDigits (n : Nat) : Digits 10 (Nat.toDigits 10 n) := (toDigits_spec (by decide) (by decide) n).1

theorem digitsValue_toDigits (n : Nat) : digitsValue 10 (Nat.toDigits 10 n) 0 = n :=
  (toDigits_spec (by decide) (by decide) n).2

theorem parseUint_toDigits (hbase : 1 < base) (hle : base ≤ 16) (hn : n < 2 ^ bitSize) :
    parseUint (Nat.toDigits base n) base bitSize = (n, none) := by
  obtain ⟨hdigits, hvalue⟩ := toDigits_spec hbase hle n
  rw [parseUint, if_neg Nat.toDigits_ne_nil, if_neg (by omega),
    parseDigits_of_digits (by omega) hdigits (by rwa [hvalue]), hvalue]

theorem sign_of_digits (h : Digits base cs) : sign cs = (false, cs) := by
  unfold sign
  split
  · obtain ⟨d, -, hd⟩ := h '+' (by simp)
    rw [show digitValue '+' = none by decide] at hd
    exact absurd hd (by simp)
  · obtain ⟨d, -, hd⟩ := h '-' (by simp)
    rw [show digitValue '-' = none by decide] at hd
    exact absurd hd (by simp)
  · rfl

theorem atoi_repr (hn : n < 2 ^ 63) : atoi n.repr.toList = ((n : Int), none) := by
  have hparse : parseUint (Nat.toDigits 10 n) 10 64 = (n, none) :=
    parseUint_toDigits (by decide) (by decide) (by omega)
  rw [Nat.toList_repr, atoi, parseInt, sign_of_digits (digits_toDigits n)]
  simp only [hparse]
  rw [if_neg (by simp), if_neg (fun h => absurd h.2 (by omega)), if_neg (by simp)]
  rfl

theorem toDigits_head_ne_zero (hn : 0 < n) : ∃ c cs, Nat.toDigits 10 n = c :: cs ∧ c ≠ '0' := by
  induction n using Nat.strongRecOn with
  | ind n ih =>
    by_cases hlt : n < 10
    · refine ⟨_, [], Nat.toDigits_of_lt_base hlt, ?_⟩
      match n with
      | 1 | 2 | 3 | 4 | 5 | 6 | 7 | 8 | 9 => decide
    · obtain ⟨c, cs, hdigits, hc⟩ := ih (n / 10) (by omega) (by omega)
      refine ⟨c, cs ++ [(n % 10).digitChar], ?_, hc⟩
      rw [Nat.toDigits_of_base_le (by decide) (by omega), hdigits]
      rfl

theorem parseUint_written (h : Written n cs) (hn : n < 2 ^ bitSize) : parseUint cs 0 bitSize = (n, none) := by
  cases h with
  | decimal =>
    rcases Nat.eq_zero_or_pos n with rfl | hpos
    · have hpre : basePrefix (Nat.toDigits 10 0) = (8, true, []) := rfl
      exact parseUint_of_digits Nat.toDigits_ne_nil (by decide) hpre (by simp [Digits]) hn
    · obtain ⟨c, cs, hdigits, hc⟩ := toDigits_head_ne_zero hpos
      have hpre : basePrefix (Nat.toDigits 10 n) = (10, false, Nat.toDigits 10 n) := by
        rw [hdigits]
        unfold basePrefix
        split
        · next heq => exact absurd (List.cons.inj heq).1 hc
        · next heq => exact absurd (List.cons.inj heq).1 hc
        · rfl
      have hvalue := digitsValue_toDigits n
      rw [parseUint_of_digits Nat.toDigits_ne_nil (by decide) hpre (digits_toDigits n) (by rwa [hvalue]), hvalue]
  | @hex digits hne hdigits hvalue =>
    obtain ⟨c, cs, rfl⟩ := List.exists_cons_of_ne_nil hne
    subst hvalue
    exact parseUint_of_digits (by simp) (by decide) rfl hdigits hn

theorem sign_written (h : Written n cs) : sign cs = (false, cs) := by
  cases h with
  | decimal => exact sign_of_digits (digits_toDigits n)
  | hex => rfl

/-- A signed type has half the room: a number beyond it is read as the largest there is. -/
theorem parseInt_written (h : Written n cs) (hn : n < 2 ^ bitSize) :
    (parseInt cs 0 bitSize).1 = (min n (2 ^ (bitSize - 1) - 1) : Nat) := by
  have hpos := Nat.two_pow_pos (bitSize - 1)
  unfold parseInt
  rw [sign_written h]
  simp only [parseUint_written h hn]
  generalize 2 ^ (bitSize - 1) = cutoff at hpos ⊢
  by_cases hcut : cutoff ≤ n
  · rw [if_neg (by simp), if_pos ⟨trivial, hcut⟩, Nat.min_eq_right (by omega)]
    show (cutoff : Int) - 1 = _
    omega
  · rw [if_neg (by simp), if_neg (fun h => hcut h.2), if_neg (by simp), Nat.min_eq_left (by omega)]
    rfl

/-! ## Texts -/

def split (sep : Char) (s : String) : List String := (s.toList.splitOn sep).map String.ofList

def isSpace (c : Char) : Bool :=
  (0x09 ≤ c.toNat && c.toNat ≤ 0x0d) || (0x2000 ≤ c.toNat && c.toNat ≤ 0x200a) ||
    [0x20, 0x85, 0xa0, 0x1680, 0x2028, 0x2029, 0x202f, 0x205f, 0x3000].contains c.toNat

def fields (s : String) : List String :=
  ((s.toList.splitOnP isSpace).filter (· ≠ [])).map String.ofList

def Word (s : String) : Prop := s ≠ "" ∧ ∀ c ∈ s.toList, isSpace c = false

instance (s : String) : Decidable (Word s) :=
  decidable_of_iff (s ≠ "" ∧ s.toList.all (!isSpace ·) = true) (by simp [Word])

def spaced (w : String) (rest : List (Char × String)) : List Char :=
  w.toList ++ rest.flatMap fun x => x.1 :: x.2.toList

theorem splitOnP_spaced {w : String} {rest : List (Char × String)} (hw : Word w)
    (hrest : ∀ x ∈ rest, isSpace x.1 = true ∧ Word x.2) :
    (spaced w rest).splitOnP isSpace = (w :: rest.map Prod.snd).map String.toList := by
  induction rest generalizing w with
  | nil => simpa [spaced] using List.splitOnP_eq_singleton hw.2
  | cons x rest ih =>
    obtain ⟨hspace, hword⟩ := hrest x List.mem_cons_self
    have hcons : spaced w (x :: rest) = w.toList ++ x.1 :: spaced x.2 rest := by simp [spaced]
    rw [hcons, List.splitOnP_append_cons_of_forall_mem hw.2 x.1 hspace,
      ih hword fun y hy => hrest y (List.mem_cons_of_mem _ hy)]
    rfl

/-- Words with one space between each two are the fields of the text. -/
theorem fields_spaced {w : String} {rest : List (Char × String)} (hw : Word w)
    (hrest : ∀ x ∈ rest, isSpace x.1 = true ∧ Word x.2) :
    fields (String.ofList (spaced w rest)) = w :: rest.map Prod.snd := by
  have hwords : ∀ v ∈ w :: rest.map Prod.snd, Word v := by
    intro v hv
    rcases List.mem_cons.mp hv with rfl | hv
    · exact hw
    · obtain ⟨x, hx, rfl⟩ := List.mem_map.mp hv
      exact (hrest x hx).2
  unfold fields
  rw [String.toList_ofList, splitOnP_spaced hw hrest, List.filter_eq_self.mpr, List.map_map]
  · simp [Function.comp_def]
  · intro cs hcs
    obtain ⟨v, hv, rfl⟩ := List.mem_map.mp hcs
    simpa using (hwords v hv).1

theorem fields_intercalate {words : List String} (h : ∀ w ∈ words, Word w) :
    fields (String.intercalate " " words) = words := by
  have hspaced : ∀ w ws, (String.intercalate " " (w :: ws)).toList = spaced w (ws.map (' ', ·)) := by
    intro w ws
    induction ws generalizing w with
    | nil => simp [spaced]
    | cons w' ws ih =>
      have hspace : (" " : String).toList = [' '] := by decide
      rw [String.intercalate_cons_cons, String.toList_append, String.toList_append, hspace, ih w']
      simp [spaced]
  cases words with
  | nil => decide
  | cons w ws =>
    have htext : String.intercalate " " (w :: ws) = String.ofList (spaced w (ws.map (' ', ·))) := by
      rw [← hspaced w ws, String.ofList_toList]
    rw [htext, fields_spaced (h w List.mem_cons_self)]
    · simp [Function.comp_def]
    · intro x hx
      obtain ⟨v, hv, rfl⟩ := List.mem_map.mp hx
      exact ⟨rfl, h v (List.mem_cons_of_mem _ hv)⟩

theorem split_pair {sep : Char} {s t : String} (hs : sep ∉ s.toList) (ht : sep ∉ t.toList) :
    split sep (s ++ String.singleton sep ++ t) = [s, t] := by
  unfold split
  rw [String.toList_append, String.toList_append, String.toList_singleton, List.append_assoc, List.singleton_append,
    List.splitOn_append_cons_self_of_not_mem hs, List.splitOn_eq_singleton ht]
  simp

/-- `strings.EqualFold` where one of the two is ASCII without `k` and `s`, the letters that
    others than ASCII fold to. -/
def equalFold (s t : String) : Bool := s.toList.map Char.toLower == t.toList.map Char.toLower

end EliteTelemetry.Lib.GoText
