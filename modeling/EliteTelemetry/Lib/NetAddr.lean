/-
  EliteTelemetry.Lib.NetAddr — addresses as Go's `net` and `net/url` read them.

  Texts are lists of characters. `splitHostPort` and `parseIP` are `net.SplitHostPort` and
  `net.ParseIP`; `urlParse` is what `url.Parse` makes of the scheme and the authority of a
  text, where `rejects` is any further reason it has to refuse the text (a port that is no
  number, a control character, a bad escape). The host of a URL stands between its user
  information and its path, query or fragment (`urlParse_parts`, `urlParse_some`).
-/

import Mathlib.Data.List.Infix
import Mathlib.Data.List.TakeWhile

namespace EliteTelemetry.Lib.NetAddr

abbrev Text := List Char

/-! ## Pieces of texts -/

def before (c : Char) (s : Text) : Text := s.takeWhile (· ≠ c)

/-- What stands after the last `c`; all of it where there is none. -/
def afterLast (c : Char) (s : Text) : Text := (s.reverse.takeWhile (· ≠ c)).reverse

def trimPrefixOf (p s : Text) : Text := if p.isPrefixOf s then s.drop p.length else s

def trimBrackets (s : Text) : Text :=
  ((s.dropWhile (fun c => c = '[' ∨ c = ']')).reverse.dropWhile (fun c => c = '[' ∨ c = ']')).reverse

variable {c : Char} {s host : Text}

theorem before_eq_self (h : c ∉ s) : before c s = s := by
  unfold before
  rw [List.takeWhile_eq_self_iff]
  intro x hx
  have hne : x ≠ c := fun he => h (he ▸ hx)
  simpa using hne

theorem afterLast_eq_self (h : c ∉ s) : afterLast c s = s := by
  have hrev : before c s.reverse = s.reverse := before_eq_self (by simpa using h)
  exact (congrArg List.reverse hrev).trans s.reverse_reverse

theorem before_append (h : c ∉ s) (t : Text) : before c (s ++ t) = s ++ before c t := by
  refine List.takeWhile_append_of_pos fun x hx => ?_
  have hne : x ≠ c := fun he => h (he ▸ hx)
  simpa using hne

theorem afterLast_append (s : Text) {t : Text} (h : c ∉ t) : afterLast c (s ++ c :: t) = t := by
  have hrev : (s ++ c :: t).reverse = t.reverse ++ c :: s.reverse := by simp
  have hlast : before c (t.reverse ++ c :: s.reverse) = t.reverse := by
    rw [before_append (by simpa using h)]
    simp [before]
  show (before c (s ++ c :: t).reverse).reverse = t
  rw [hrev, hlast, List.reverse_reverse]

/-- A text is what stands before the first `c` and, where there is one, the rest from there. -/
theorem before_split (c : Char) (s : Text) : ∃ t, s = before c s ++ t ∧ (t = [] ∨ ∃ t', t = c :: t') := by
  refine ⟨s.dropWhile (· ≠ c), (List.takeWhile_append_dropWhile).symm, ?_⟩
  cases h : s.dropWhile (· ≠ c) with
  | nil => exact .inl rfl
  | cons d t =>
    have hd := List.head?_dropWhile_not (fun x => decide (x ≠ c)) s
    rw [h] at hd
    have hdc : d = c := by simpa using hd
    exact .inr ⟨t, by rw [hdc]⟩

theorem not_mem_before (c : Char) (s : Text) : c ∉ before c s := by
  intro h
  simpa using List.mem_takeWhile_imp (p := (· ≠ c)) h

theorem mem_of_mem_before {d : Char} (h : d ∈ before c s) : d ∈ s := (List.takeWhile_prefix _).subset h

theorem afterLast_split (c : Char) (s : Text) :
    c ∉ afterLast c s ∧ ∃ t, s = t ++ afterLast c s ∧ (t = [] ∨ ∃ t', t = t' ++ [c]) := by
  obtain ⟨t, ht, htail⟩ := before_split c s.reverse
  refine ⟨?_, t.reverse, ?_, ?_⟩
  · have := not_mem_before c s.reverse
    simpa [afterLast, before] using this
  · have hrev := congrArg List.reverse ht
    simpa [afterLast, before] using hrev
  · rcases htail with rfl | ⟨t', rfl⟩
    · exact .inl rfl
    · exact .inr ⟨t'.reverse, by simp⟩

theorem mem_trimBrackets (h : c ∈ s) (h1 : c ≠ '[') (h2 : c ≠ ']') : c ∈ trimBrackets s := by
  have hkeep : ∀ t : Text, c ∈ t → c ∈ t.dropWhile fun c => c = '[' ∨ c = ']' := by
    intro t ht
    rw [← List.takeWhile_append_dropWhile (p := fun c => decide (c = '[' ∨ c = ']')) (l := t)] at ht
    refine (List.mem_append.mp ht).resolve_left fun hin => ?_
    have := List.mem_takeWhile_imp hin
    simp [h1, h2] at this
  unfold trimBrackets
  rw [List.mem_reverse]
  exact hkeep _ (List.mem_reverse.mpr (hkeep _ h))

/-! ## `net` -/

def splitHostPort (s : Text) : Option (Text × Text) :=
  if ':' ∉ s then none
  else
    let port := afterLast ':' s
    let host := s.take (s.length - port.length - 1)
    match s with
    | '[' :: t =>
      -- The first ']' stands just before the last ':'.
      let inner := before ']' t
      if host = '[' :: inner ++ [']'] ∧ '[' ∉ t ∧ ']' ∉ port then some (inner, port) else none
    | _ => if ':' ∈ host ∨ '[' ∈ s ∨ ']' ∈ s then none else some (host, port)

def parseOctet (s : Text) : Option UInt8 :=
  if s = [] ∨ (1 < s.length ∧ s.head? = some '0') ∨ ¬ s.all Char.isDigit then none
  else
    let n := s.foldl (fun n c => n * 10 + (c.toNat - '0'.toNat)) 0
    if n ≤ 255 then some (.ofNat n) else none

def parseIPv4 (s : Text) : Option (List UInt8) :=
  match s.splitOn '.' with
  | [a, b, c, d] => do pure [← parseOctet a, ← parseOctet b, ← parseOctet c, ← parseOctet d]
  | _ => none

def hexValue (c : Char) : Option Nat :=
  if c.isDigit then some (c.toNat - '0'.toNat)
  else if 'a' ≤ c ∧ c ≤ 'f' then some (c.toNat - 'a'.toNat + 10)
  else if 'A' ≤ c ∧ c ≤ 'F' then some (c.toNat - 'A'.toNat + 10)
  else none

def parseGroups : Nat → Text → List UInt8 → Option Nat → Option (List UInt8 × Option Nat)
  | 0, s, ip, ellipsis => if s = [] then some (ip, ellipsis) else none
  | fuel + 1, s, ip, ellipsis =>
    let digits := s.takeWhile fun c => (hexValue c).isSome
    let rest := s.drop digits.length
    let acc := digits.foldl (fun n c => n * 16 + (hexValue c).getD 0) 0
    if digits = [] ∨ 4 < digits.length then none
    else
      match rest with
      | '.' :: _ =>
        if (ellipsis = none ∧ ip.length ≠ 12) ∨ 12 < ip.length then none
        else (parseIPv4 s).map fun v4 => (ip ++ v4, ellipsis)
      | [] => some (ip ++ [.ofNat (acc / 256), .ofNat (acc % 256)], ellipsis)
      | ':' :: ':' :: s =>
        if ellipsis ≠ none then none
        else
          let ip := ip ++ [.ofNat (acc / 256), .ofNat (acc % 256)]
          if s = [] then some (ip, some ip.length) else parseGroups fuel s ip (some ip.length)
      | ':' :: c :: s => parseGroups fuel (c :: s) (ip ++ [.ofNat (acc / 256), .ofNat (acc % 256)]) ellipsis
      | _ => none

def parseIPv6 (s : Text) : Option (List UInt8) :=
  let groups := match s with
    | [':', ':'] => some ([], some 0)
    | ':' :: ':' :: s => parseGroups 8 s [] (some 0)
    | s => parseGroups 8 s [] none
  match groups with
  | none => none
  | some (ip, none) => if ip.length = 16 then some ip else none
  | some (ip, some at') =>
    if ip.length < 16 then some (ip.take at' ++ List.replicate (16 - ip.length) 0 ++ ip.drop at') else none

def parseIP (s : Text) : Option (List UInt8) :=
  match s.find? fun c => c = '.' ∨ c = ':' ∨ c = '%' with
  | some '.' => (parseIPv4 s).map fun v4 => List.replicate 10 0 ++ [255, 255] ++ v4
  | some ':' => if '%' ∈ s then none else parseIPv6 s
  | _ => none

def isLoopback (ip : List UInt8) : Bool :=
  if ip.take 12 = List.replicate 10 0 ++ [255, 255] then ip[12]? == some 127
  else ip == List.replicate 15 0 ++ [1]

/-- The host part of an address: that of `SplitHostPort` or, where there is no port, all of
    it, without brackets. -/
def hostPart (addr : Text) : Text :=
  trimBrackets (match splitHostPort addr with
    | some (host, _) => host
    | none => addr)

/-- Someone outside may reach a listener on this host: it is empty, or an address that is not
    a loopback one. -/
def Exposed (host : Text) : Prop := host = [] ∨ ∃ ip, parseIP host = some ip ∧ isLoopback ip = false

instance (host : Text) : Decidable (Exposed host) :=
  match h : parseIP host with
  | none => decidable_of_iff (host = []) (by simp [Exposed, h])
  | some ip => decidable_of_iff (host = [] ∨ isLoopback ip = false) (by simp [Exposed, h])

/-- A character that stands in addresses: a hexadecimal digit, a point or a colon. -/
def AddrChar (c : Char) : Prop := (hexValue c).isSome ∨ c = '.' ∨ c = ':'

instance (c : Char) : Decidable (AddrChar c) := inferInstanceAs (Decidable (_ ∨ _))

theorem addrChar_of_isDigit (h : c.isDigit = true) : AddrChar c := .inl (by simp [hexValue, h])

theorem addrChar_join (hc : AddrChar c) {t u : Text} (ht : ∀ d ∈ t, AddrChar d) (hu : ∀ d ∈ u, AddrChar d) :
    ∀ d ∈ t ++ c :: u, AddrChar d := by
  intro d hd
  rcases List.mem_append.mp hd with hd | hd
  · exact ht d hd
  · rcases List.mem_cons.mp hd with rfl | hd
    · exact hc
    · exact hu d hd

theorem parseOctet_isDigit {n : UInt8} (h : parseOctet s = some n) : ∀ c ∈ s, c.isDigit = true := by
  unfold parseOctet at h
  split at h
  · cases h
  · rename_i hno
    rw [not_or, not_or, not_not] at hno
    exact List.all_eq_true.mp hno.2.2

theorem parseIPv4_addrChar {ip : List UInt8} (h : parseIPv4 s = some ip) : ∀ c ∈ s, AddrChar c := by
  unfold parseIPv4 at h
  split at h
  · rename_i a b d e hsplit
    simp only [Option.bind_eq_bind, Option.bind_eq_some_iff] at h
    obtain ⟨_, ha, _, hb, _, hd, _, he, -⟩ := h
    have hs : s = a ++ '.' :: (b ++ '.' :: (d ++ '.' :: e)) := by
      have hjoin : ['.'].intercalate (s.splitOn '.') = s := List.intercalate_splitOn '.'
      rw [hsplit] at hjoin
      simpa [List.intercalate] using hjoin.symm
    have hoctet : ∀ {t : Text} {n : UInt8}, parseOctet t = some n → ∀ c ∈ t, AddrChar c := fun ht c hc =>
      addrChar_of_isDigit (parseOctet_isDigit ht c hc)
    have hdot : AddrChar '.' := .inr (.inl rfl)
    rw [hs]
    exact addrChar_join hdot (hoctet ha) (addrChar_join hdot (hoctet hb) (addrChar_join hdot (hoctet hd) (hoctet he)))
  · cases h

theorem parseGroups_addrChar {fuel : Nat} {ip : List UInt8} {at' : Option Nat} {r : List UInt8 × Option Nat}
    (h : parseGroups fuel s ip at' = some r) : ∀ c ∈ s, AddrChar c := by
  have hcolon : AddrChar ':' := .inr (.inr rfl)
  induction fuel generalizing s ip at' with
  | zero =>
    unfold parseGroups at h
    split at h
    · rename_i hs
      simp [hs]
    · cases h
  | succ fuel ih =>
    have hs := List.prefix_iff_eq_append.mp (List.takeWhile_prefix (l := s) fun c => (hexValue c).isSome)
    have hdigits : ∀ c ∈ s.takeWhile fun c => (hexValue c).isSome, AddrChar c := fun c hc =>
      .inl (List.mem_takeWhile_imp (p := fun c => (hexValue c).isSome) hc)
    unfold parseGroups at h
    simp only at h
    split at h
    · cases h
    · generalize s.takeWhile (fun c => (hexValue c).isSome) = digits at *
      split at h
      · rename_i hrest
        split at h
        · cases h
        · obtain ⟨v4, hv4, -⟩ := Option.map_eq_some_iff.mp h
          exact parseIPv4_addrChar hv4
      · rename_i hrest
        rw [hrest, List.append_nil] at hs
        rwa [← hs]
      · rename_i t hrest
        rw [hrest] at hs
        have ht : ∀ c ∈ t, AddrChar c := by
          split at h
          · cases h
          · split at h
            · rename_i hnil
              simp [hnil]
            · exact ih h
        rw [← hs]
        exact addrChar_join hcolon hdigits (addrChar_join (t := []) hcolon (by simp) ht)
      · rename_i d t hrest
        rw [hrest] at hs
        rw [← hs]
        exact addrChar_join hcolon hdigits (ih h)
      · cases h

theorem parseIP_addrChar {ip : List UInt8} (h : parseIP s = some ip) : ∀ c ∈ s, AddrChar c := by
  have hcolon : AddrChar ':' := .inr (.inr rfl)
  unfold parseIP at h
  split at h
  · obtain ⟨v4, hv4, -⟩ := Option.map_eq_some_iff.mp h
    exact parseIPv4_addrChar hv4
  · split at h
    · cases h
    · unfold parseIPv6 at h
      simp only at h
      split at h
      · cases h
      all_goals
        rename_i hgroups
        split at hgroups
        · simp [hcolon]
        · simpa [hcolon] using parseGroups_addrChar hgroups
        · exact parseGroups_addrChar hgroups
  · cases h

/-- What stands before the last colon is the host, brackets apart. -/
theorem mem_of_splitHostPort {t p port : Text} (hp : ':' ∉ p) (h : splitHostPort (t ++ ':' :: p) = some (host, port))
    (hc : c ∈ t) (h1 : c ≠ '[') (h2 : c ≠ ']') : c ∈ host := by
  have hhost : (t ++ ':' :: p).take ((t ++ ':' :: p).length - (afterLast ':' (t ++ ':' :: p)).length - 1) = t := by
    rw [afterLast_append t hp, List.length_append, List.length_cons]
    have hlen : t.length + (p.length + 1) - p.length - 1 = t.length := by omega
    rw [hlen, List.take_left]
  unfold splitHostPort at h
  simp only [hhost] at h
  split at h
  · cases h
  · split at h
    · split at h
      · rename_i hin
        obtain ⟨rfl, -⟩ := Prod.mk.inj (Option.some.inj h)
        rw [hin.1] at hc
        simpa [h1, h2] using hc
      · cases h
    · split at h
      · cases h
      · obtain ⟨rfl, -⟩ := Prod.mk.inj (Option.some.inj h)
        exact hc

/-- A character stays in the host part where a colon follows it, or none comes before it. -/
theorem mem_hostPart (h1 : c ≠ '[') (h2 : c ≠ ']') (h3 : c ≠ ':') {a b : Text} (h : ':' ∈ b ∨ ':' ∉ a) :
    c ∈ hostPart (a ++ c :: b) := by
  unfold hostPart
  refine mem_trimBrackets ?_ h1 h2
  split
  · rename_i host port hsplit
    by_cases hb : ':' ∈ b
    · obtain ⟨hp, t, ht, hlast⟩ := afterLast_split ':' b
      rcases hlast with rfl | ⟨t', rfl⟩
      · rw [List.nil_append] at ht
        exact absurd (ht ▸ hb) hp
      · have htext : a ++ c :: b = (a ++ c :: t') ++ ':' :: afterLast ':' b := by
          conv_lhs => rw [ht]
          simp
        rw [htext] at hsplit
        exact mem_of_splitHostPort hp hsplit (by simp) h1 h2
    · have hno : ':' ∉ a ++ c :: b := by simp [h.resolve_left hb, hb, h3.symm]
      simp [splitHostPort, hno] at hsplit
  · simp

theorem not_exposed_of_mem (hmem : c ∈ host) (hc : ¬ AddrChar c) : ¬ Exposed host := by
  rintro (rfl | ⟨ip, hip, -⟩)
  · cases hmem
  · exact hc (parseIP_addrChar hip c hmem)

/-! ## `net/url` -/

def getScheme (s : Text) : Option (Text × Text) :=
  let scheme := s.takeWhile fun c => c.isAlphanum ∨ c = '+' ∨ c = '-' ∨ c = '.'
  match scheme, s.drop scheme.length with
  | [], ':' :: _ => none
  | c :: cs, ':' :: rest => if c.isAlpha then some (c :: cs, rest) else some ([], s)
  | _, _ => some ([], s)

structure Url where
  scheme : Text
  host : Text
  deriving DecidableEq, Repr

def urlParse (rejects : Text → Bool) (raw : Text) : Option Url :=
  if rejects raw then none
  else
    match getScheme (before '#' raw) with
    | none => none
    | some (scheme, rest) =>
      let rest := before '?' rest
      let host := if ['/', '/'].isPrefixOf rest then afterLast '@' (before '/' (rest.drop 2)) else []
      some ⟨scheme.map Char.toLower, host⟩

/-- A text with nothing in it that ends the host of a URL, or comes before it. -/
def Plain (s : Text) : Prop := '/' ∉ s ∧ '?' ∉ s ∧ '#' ∉ s ∧ '@' ∉ s

instance (s : Text) : Decidable (Plain s) := inferInstanceAs (Decidable (_ ∧ _))

/-- What may stand before the host of a URL: nothing, or user information and `@`. -/
def UserInfo (s : Text) : Prop := s = [] ∨ ∃ u, s = u ++ ['@'] ∧ '/' ∉ u ∧ '?' ∉ u ∧ '#' ∉ u

/-- What may stand behind it: nothing, or a path, a query or a fragment. -/
def Tail (s : Text) : Prop := s = [] ∨ ∃ c t, s = c :: t ∧ (c = '/' ∨ c = '?' ∨ c = '#')

def authorityHost (s : Text) : Text := afterLast '@' (before '/' (before '?' (before '#' s)))

theorem authorityHost_parts {user tail : Text} (hu : UserInfo user) (hh : Plain host) (ht : Tail tail) :
    authorityHost (user ++ host ++ tail) = host := by
  obtain ⟨hslash, hquery, hhash, hat⟩ := hh
  have hx : '/' ∉ user ++ host ∧ '?' ∉ user ++ host ∧ '#' ∉ user ++ host := by
    rcases hu with rfl | ⟨u, rfl, h1, h2, h3⟩ <;> simp [*]
  have hend : before '/' (before '?' (before '#' tail)) = [] := by
    rcases ht with rfl | ⟨c, t, rfl, rfl | rfl | rfl⟩ <;> simp [before]
  rw [authorityHost, before_append hx.2.2, before_append hx.2.1, before_append hx.1, hend, List.append_nil]
  rcases hu with rfl | ⟨u, rfl, -⟩
  · exact afterLast_eq_self hat
  · rw [List.append_assoc]
    exact afterLast_append u hat

theorem exists_parts (s : Text) :
    ∃ user tail, s = user ++ authorityHost s ++ tail ∧ UserInfo user ∧ Plain (authorityHost s) ∧ Tail tail := by
  obtain ⟨hash, hhash, hhash'⟩ := before_split '#' s
  obtain ⟨query, hquery, hquery'⟩ := before_split '?' (before '#' s)
  obtain ⟨path, hpath, hpath'⟩ := before_split '/' (before '?' (before '#' s))
  obtain ⟨hat, user, huser, huser'⟩ := afterLast_split '@' (before '/' (before '?' (before '#' s)))
  have hsub : ∀ c ∈ before '/' (before '?' (before '#' s)), c ≠ '/' ∧ c ≠ '?' ∧ c ≠ '#' := by
    intro c hc
    refine ⟨?_, ?_, ?_⟩ <;> rintro rfl
    · exact not_mem_before _ _ hc
    · exact not_mem_before _ _ (mem_of_mem_before hc)
    · exact not_mem_before _ _ (mem_of_mem_before (mem_of_mem_before hc))
  refine ⟨user, path ++ (query ++ hash), ?_, ?_, ?_, ?_⟩
  · conv_lhs => rw [hhash, hquery, hpath, huser]
    simp [authorityHost]
  · rcases huser' with rfl | ⟨u, rfl⟩
    · exact .inl rfl
    · have hin : ∀ c ∈ u, c ≠ '/' ∧ c ≠ '?' ∧ c ≠ '#' := fun c hc => hsub c (by rw [huser]; simp [hc])
      exact .inr ⟨u, rfl, fun h => (hin _ h).1 rfl, fun h => (hin _ h).2.1 rfl, fun h => (hin _ h).2.2 rfl⟩
  · have hin : ∀ c ∈ authorityHost s, c ≠ '/' ∧ c ≠ '?' ∧ c ≠ '#' := fun c hc =>
      hsub c (by rw [huser]; exact List.mem_append_right _ hc)
    exact ⟨fun h => (hin _ h).1 rfl, fun h => (hin _ h).2.1 rfl, fun h => (hin _ h).2.2 rfl, hat⟩
  · rcases hpath' with rfl | ⟨t, rfl⟩
    · rcases hquery' with rfl | ⟨t, rfl⟩
      · rcases hhash' with rfl | ⟨t, rfl⟩
        · exact .inl rfl
        · exact .inr ⟨'#', t, rfl, .inr (.inr rfl)⟩
      · exact .inr ⟨'?', _, rfl, .inr (.inl rfl)⟩
    · exact .inr ⟨'/', _, rfl, .inl rfl⟩

theorem isAlpha_of_toLower (h : c.toLower.isAlpha = true) : c.isAlpha = true := by
  unfold Char.toLower at h
  split at h
  · rename_i hupper
    have hup : c.isUpper = true := decide_eq_true hupper
    show (c.isUpper || c.isLower) = true
    rw [hup, Bool.true_or]
  · exact h

theorem getScheme_of_alpha (hne : s ≠ []) (h : ∀ c ∈ s, c.isAlpha = true) (rest : Text) :
    getScheme (s ++ ':' :: rest) = some (s, rest) := by
  have htake : (s ++ ':' :: rest).takeWhile (fun c => c.isAlphanum ∨ c = '+' ∨ c = '-' ∨ c = '.') = s := by
    rw [List.takeWhile_append_of_pos fun c hc => by simp [Char.isAlphanum, h c hc]]
    simp
  unfold getScheme
  simp only [htake, List.drop_left]
  obtain ⟨c, cs, rfl⟩ := List.exists_cons_of_ne_nil hne
  simp [h c (by simp)]

theorem getScheme_some {sch rest : Text} (h : getScheme s = some (sch, rest)) :
    sch = [] ∨ s = sch ++ ':' :: rest := by
  have hs := List.prefix_iff_eq_append.mp
    (List.takeWhile_prefix (l := s) fun c => c.isAlphanum ∨ c = '+' ∨ c = '-' ∨ c = '.')
  unfold getScheme at h
  simp only at h
  split at h
  · cases h
  · rename_i c cs rest' hc hrest
    split at h
    · obtain ⟨rfl, rfl⟩ := Prod.mk.inj (Option.some.inj h)
      rw [hrest, hc] at hs
      exact .inr hs.symm
    · exact .inl (Prod.mk.inj (Option.some.inj h)).1.symm
  · exact .inl (Prod.mk.inj (Option.some.inj h)).1.symm

theorem urlParse_parts {rejects : Text → Bool} {s user host tail : Text} (hs : s.map Char.toLower = "tcp".toList)
    (hu : UserInfo user) (hh : Plain host) (ht : Tail tail)
    (hr : rejects (s ++ "://".toList ++ (user ++ host ++ tail)) = false) :
    urlParse rejects (s ++ "://".toList ++ (user ++ host ++ tail)) = some ⟨"tcp".toList, host⟩ := by
  have halpha : ∀ c ∈ s, c.isAlpha = true := by
    intro c hc
    have hlower : c.toLower ∈ "tcp".toList := hs ▸ List.mem_map_of_mem hc
    exact isAlpha_of_toLower (List.all_eq_true.mp (by decide : "tcp".toList.all Char.isAlpha = true) _ hlower)
  have hne : s ≠ [] := by
    rintro rfl
    cases hs
  have hhash : before '#' (s ++ "://".toList ++ (user ++ host ++ tail)) =
      s ++ ':' :: '/' :: '/' :: before '#' (user ++ host ++ tail) := by
    have hno : '#' ∉ s ++ "://".toList := by
      simp only [List.mem_append, not_or]
      exact ⟨fun h => absurd (halpha _ h) (by decide), by decide⟩
    rw [before_append hno, List.append_assoc]
    rfl
  have hquery : before '?' ('/' :: '/' :: before '#' (user ++ host ++ tail)) =
      '/' :: '/' :: before '?' (before '#' (user ++ host ++ tail)) := by simp [before]
  unfold urlParse
  rw [hr, hhash, getScheme_of_alpha hne halpha]
  simp only [hquery, hs]
  have hhost := authorityHost_parts hu hh ht
  unfold authorityHost at hhost
  simpa using hhost

/-- The host of a URL with a scheme is that of its authority, or there is none. -/
theorem urlParse_some {rejects : Text → Bool} {raw sch : Text} (h : urlParse rejects raw = some ⟨sch, host⟩)
    (hne : sch ≠ []) :
    host = [] ∨ ∃ s t, s.map Char.toLower = sch ∧ raw = s ++ "://".toList ++ t ∧ host = authorityHost t := by
  obtain ⟨hash, hraw, hhash⟩ := before_split '#' raw
  unfold urlParse at h
  split at h
  · cases h
  · split at h
    · cases h
    · rename_i s rest hscheme
      obtain ⟨rfl, hhost⟩ := Url.mk.inj (Option.some.inj h)
      have htext := (getScheme_some hscheme).resolve_left fun hs => hne (by rw [hs]; rfl)
      obtain ⟨query, hrest, hquery⟩ := before_split '?' rest
      split at hhost
      · rename_i hslashes
        obtain ⟨t, ht⟩ := List.isPrefixOf_iff_prefix.mp hslashes
        have hq : '?' ∉ t := fun hin => not_mem_before '?' rest (by rw [← ht]; simp [hin])
        have hh : '#' ∉ t ++ query := by
          refine fun hin => not_mem_before '#' raw ?_
          rw [htext, hrest, ← ht]
          simp only [List.mem_append, List.mem_cons]
          exact .inr (.inr (by simpa using hin))
        refine .inr ⟨s, t ++ query ++ hash, rfl, ?_, ?_⟩
        · conv_lhs => rw [hraw, htext, hrest, ← ht]
          simp
        · have hend : before '#' hash = [] := by rcases hhash with rfl | ⟨_, rfl⟩ <;> simp [before]
          have hend' : before '?' query = [] := by rcases hquery with rfl | ⟨_, rfl⟩ <;> simp [before]
          rw [authorityHost, before_append hh, hend, List.append_nil, before_append hq, hend', List.append_nil, ← hhost,
            ← ht]
          rfl
      · exact .inl hhost.symm

end EliteTelemetry.Lib.NetAddr
