/-
  EliteTelemetry.Exporter.Kallsyms — the kernel symbol of an address
  (`pkg/exporter/bpfutil/kallsyms.go`: `getAllSyms`, `locationCache`, `GetSymPtFromBpfLocation`).

  The symbols are read from `/proc/kallsyms` and sorted by address; of symbols at one address any
  may come first (`SortedFrom`). An address is looked up by halving, with a repair of the last
  step, and the answer is kept in a cache, of which only `CacheApi` is asked.

  - `readSyms_written`: the symbols are read back from the text of the file.
  - `search_ok`, `search_error`: the search finds a symbol with the greatest start not above the
    address, and none only below all symbols.
  - `Faithful.lookup`: the cache holds what the search gives, so it changes no answer.
  - `lookup_right_iff`, `lookup_right_of_text`: the answer is right exactly if the address is below
    all symbols or less than 2^63 above the one found. The offset is an `int`, and a greater one
    comes out negative (`an_offset_below_zero`), as it does for every address of the kernel where
    the kernel hides addresses and every symbol starts at zero.
-/

import EliteTelemetry.Lib.Bisect
import EliteTelemetry.Lib.Caches
import EliteTelemetry.Lib.HexText
import EliteTelemetry.Lib.LineScanner

namespace EliteTelemetry.Exporter.Kallsyms

open EliteTelemetry.Lib EliteTelemetry.Lib.Bisect EliteTelemetry.Lib.GoText EliteTelemetry.Lib.HexText
open EliteTelemetry.Lib.LineScanner

structure KernelSymbol where
  start : UInt64
  symboltype : String
  symbol : String
  mod : String
  offset : Int64
  deriving DecidableEq

/-! ## Reading and sorting -/

/-- One line; the outer none is an index out of range. -/
def readSym (line : String) : Option (Option KernelSymbol) :=
  match fields line with
  | [] => none
  | addr :: rest =>
    match parseUint addr.toList 16 64 with
    | (_, some _) => some none
    | (pt, none) =>
      match rest with
      | [symboltype, symbol, mod] => some (some ⟨.ofNat pt, symboltype, symbol, mod, 0⟩)
      | symboltype :: symbol :: _ => some (some ⟨.ofNat pt, symboltype, symbol, "kernel", 0⟩)
      | _ => none

def readLines : List (List UInt8) → Option (List KernelSymbol)
  | [] => some []
  | line :: rest =>
    match readSym (String.ofList (chars line)) with
    | none => none
    | some ks => (readLines rest).map (ks.toList ++ ·)

def readSyms (content : List UInt8) : Option (List KernelSymbol) := readLines (scan content).1

/-- What `sort.Slice` may leave of a list. -/
structure SortedFrom (syms table : List KernelSymbol) : Prop where
  perm : table.Perm syms
  sorted : table.Pairwise (·.start ≤ ·.start)

def GetAllSyms (content : List UInt8) (table : List KernelSymbol) : Prop :=
  ∃ syms, readSyms content = some syms ∧ SortedFrom syms table

/-! ## The text of the symbols -/

def symText (addr symboltype symbol : String) (mod : Option String) : List Char :=
  spaced addr ((' ', symboltype) :: (' ', symbol) :: (mod.map ('\t', ·)).toList)

structure SymLine where
  addr : String
  symboltype : String
  symbol : String
  mod : Option String
  start : UInt64
  addr_word : Word addr
  symboltype_word : Word symboltype
  symbol_word : Word symbol
  mod_word : ∀ m ∈ mod, Word m
  addr_parses : parseUint addr.toList 16 64 = (start.toNat, none)
  ascii : ∀ c ∈ symText addr symboltype symbol mod, c.toNat < 128
  short : (symText addr symboltype symbol mod).length < maxScanTokenSize

namespace SymLine

def text (l : SymLine) : List Char := symText l.addr l.symboltype l.symbol l.mod

def sym (l : SymLine) : KernelSymbol := ⟨l.start, l.symboltype, l.symbol, l.mod.getD "kernel", 0⟩

theorem rest_words (l : SymLine) :
    ∀ x ∈ (' ', l.symboltype) :: (' ', l.symbol) :: (l.mod.map ('\t', ·)).toList,
      isSpace x.1 = true ∧ Word x.2 := by
  intro x hx
  rcases List.mem_cons.mp hx with rfl | hx
  · exact ⟨rfl, l.symboltype_word⟩
  rcases List.mem_cons.mp hx with rfl | hx
  · exact ⟨rfl, l.symbol_word⟩
  · obtain ⟨m, hm, rfl⟩ := Option.map_eq_some_iff.mp (Option.mem_toList.mp hx)
    exact ⟨rfl, l.mod_word m hm⟩

theorem readSym_text (l : SymLine) : readSym (String.ofList l.text) = some (some l.sym) := by
  unfold readSym text symText
  rw [fields_spaced l.addr_word l.rest_words]
  simp only [l.addr_parses, List.map_cons, UInt64.ofNat_toNat]
  unfold sym
  cases l.mod with
  | none => rfl
  | some m => rfl

theorem mem_text {l : SymLine} {c : Char} (hc : c ∈ l.text) : isSpace c = false ∨ c = ' ' ∨ c = '\t' := by
  rcases List.mem_append.mp hc with hc | hc
  · exact .inl (l.addr_word.2 c hc)
  · obtain ⟨x, hx, hcx⟩ := List.mem_flatMap.mp hc
    rcases List.mem_cons.mp hcx with rfl | hcx
    · rcases List.mem_cons.mp hx with rfl | hx
      · exact .inr (.inl rfl)
      rcases List.mem_cons.mp hx with rfl | hx
      · exact .inr (.inl rfl)
      · obtain ⟨m, -, rfl⟩ := Option.map_eq_some_iff.mp (Option.mem_toList.mp hx)
        exact .inr (.inr rfl)
    · exact .inl ((l.rest_words x hx).2.2 c hcx)

theorem lineEnd_not_mem (l : SymLine) {b : UInt8} (hb : b = newline ∨ b = carriageReturn) : b ∉ bytesOf l.text := by
  intro hm
  obtain ⟨c, hc, rfl⟩ := List.mem_map.mp hm
  have hnat := toNat_toUInt8 (Nat.lt_trans (l.ascii c hc) (by decide))
  have hvalue : c.toNat = 10 ∨ c.toNat = 13 := by
    rw [← hnat]
    rcases hb with hb | hb
    · exact .inl (by rw [hb]; rfl)
    · exact .inr (by rw [hb]; rfl)
  have hspace : isSpace c = true := by
    unfold isSpace
    rcases hvalue with h | h <;> simp [h]
  rcases mem_text hc with h | rfl | rfl
  · rw [hspace] at h
    cases h
  · exact absurd hvalue (by decide)
  · exact absurd hvalue (by decide)

theorem scannable (l : SymLine) : Scannable (bytesOf l.text) :=
  ⟨l.lineEnd_not_mem (.inl rfl), by simpa [bytesOf, text] using l.short⟩

theorem dropCR_text (l : SymLine) : dropCR (bytesOf l.text) = bytesOf l.text :=
  if_neg fun h => l.lineEnd_not_mem (.inr rfl) (List.mem_of_getLast? h)

end SymLine

theorem readLines_text (ls : List SymLine) :
    readLines (ls.map fun l => bytesOf l.text) = some (ls.map SymLine.sym) := by
  induction ls with
  | nil => rfl
  | cons l ls ih =>
    have hchars : chars (bytesOf l.text) = l.text :=
      chars_bytesOf fun c hc => Nat.lt_trans (l.ascii c hc) (by decide)
    rw [List.map_cons, readLines, hchars, l.readSym_text, ih]
    rfl

theorem readSyms_written (ls : List SymLine) :
    readSyms (written (ls.map fun l => bytesOf l.text)) = some (ls.map SymLine.sym) := by
  have hscan : (scan (written (ls.map fun l => bytesOf l.text))).1 = ls.map fun l => bytesOf l.text := by
    rw [scan_written, List.map_map]
    · exact List.map_congr_left fun l _ => l.dropCR_text
    · intro line hline
      obtain ⟨l, -, rfl⟩ := List.mem_map.mp hline
      exact l.scannable
  unfold readSyms
  rw [hscan, readLines_text]

/-! ## Looking up -/

/-- `kallsyms[i].start`; every index used is in range. -/
def startAt (table : List KernelSymbol) (i : Nat) : UInt64 := (table[i]?.map (·.start)).getD 0

def findSymbol (table : List KernelSymbol) (pt : UInt64) : Option Nat :=
  match bisect (startAt table) pt table.length 0 (table.length - 1) with
  | (some mid, _) => some mid
  | (none, i) =>
    let found := if 1 ≤ i ∧ startAt table (i - 1) < pt ∧ pt < startAt table i then some (i - 1) else none
    if startAt table i ≤ pt then some i else found

inductive LookupFault where
  /-- `load kallsyms: ` and the error. -/
  | load (err : String)
  /-- `addr not found`. -/
  | notFound
  /-- An index out of range: the table is empty. -/
  | panics
  deriving DecidableEq, Repr

def search (table : List KernelSymbol) (pt : UInt64) : Except LookupFault KernelSymbol :=
  if table = [] then .error .panics
  else
    match (findSymbol table pt).bind (table[·]?) with
    | none => .error .notFound
    | some s => .ok ⟨s.start, s.symbol, s.symbol, s.mod, (pt - s.start).toInt64⟩

variable {C : Type} {api : CacheApi C UInt64 KernelSymbol}

/-- With the table, or why it was not loaded. -/
def getSymPtFromBpfLocation (api : CacheApi C UInt64 KernelSymbol) (kallsyms : Except String (List KernelSymbol))
    (now : Nat) (pt : UInt64) (locationCache : C) : Except LookupFault KernelSymbol × C :=
  match kallsyms with
  | .error err => (.error (.load err), locationCache)
  | .ok table =>
    match api.get now pt locationCache with
    | (some sym, locationCache) => (.ok sym, locationCache)
    | (none, locationCache) =>
      match search table pt with
      | .error fault => (.error fault, locationCache)
      | .ok ks => (.ok ks, api.add now pt ks locationCache)

def afterLookups (api : CacheApi C UInt64 KernelSymbol) (table : List KernelSymbol)
    (lookups : List (Nat × UInt64)) : C :=
  lookups.foldl (fun cache l => (getSymPtFromBpfLocation api (.ok table) l.1 l.2 cache).2) api.new

/-! ## The search -/

theorem startAt_of_getElem? {table : List KernelSymbol} {i : Nat} {s : KernelSymbol} (h : table[i]? = some s) :
    startAt table i = s.start := by
  unfold startAt
  rw [h]
  rfl

theorem startAt_mem {table : List KernelSymbol} {s : KernelSymbol} (hs : s ∈ table) :
    ∃ m ≤ table.length - 1, startAt table m = s.start := by
  obtain ⟨m, hm, hget⟩ := List.getElem_of_mem hs
  exact ⟨m, by omega, startAt_of_getElem? (List.getElem?_eq_some_iff.mpr ⟨hm, hget⟩)⟩

theorem ordered_of_sorted {table : List KernelSymbol} (hne : table ≠ [])
    (h : table.Pairwise (·.start ≤ ·.start)) : Ordered (startAt table) (table.length - 1) := by
  have hpos := List.length_pos_iff.mpr hne
  intro a b hab hb
  have ha : a < table.length := by omega
  have hb : b < table.length := by omega
  rw [startAt_of_getElem? (List.getElem?_eq_getElem ha), startAt_of_getElem? (List.getElem?_eq_getElem hb)]
  rcases Nat.lt_or_eq_of_le hab with hlt | rfl
  · exact List.pairwise_iff_getElem.mp h a b ha hb hlt
  · exact UInt64.le_refl _

section Sorted

variable {table : List KernelSymbol} {pt : UInt64} (hne : table ≠ []) (hsorted : table.Pairwise (·.start ≤ ·.start))

include hne hsorted

theorem findSymbol_spec (pt : UInt64) :
    match findSymbol table pt with
    | some k => IsLast (startAt table) pt (table.length - 1) k
    | none => ∀ m ≤ table.length - 1, pt < startAt table m := by
  have hordered := ordered_of_sorted hne hsorted
  have hstart : Bracket (startAt table) pt (table.length - 1) 0 (table.length - 1) :=
    ⟨Nat.zero_le _, Nat.le_refl _, fun k hk => absurd hk (Nat.not_lt_zero k), .inl rfl⟩
  have hbracket := bisect_bracket hordered hstart (show table.length - 1 - 0 ≤ table.length by omega)
  unfold findSymbol
  revert hbracket
  generalize bisect (startAt table) pt table.length 0 (table.length - 1) = stopped
  obtain ⟨met, i⟩ := stopped
  intro hbracket
  rcases hbracket with ⟨k, hk, hlast⟩ | ⟨hnone, hplace⟩
  · cases hk
    exact hlast
  · cases hnone
    dsimp only at hplace ⊢
    by_cases hle : startAt table i ≤ pt
    · rw [if_pos hle]
      exact hplace.at_place hordered hle
    · have hlt : pt < startAt table i := UInt64.not_le.mp hle
      rw [if_neg hle]
      cases i with
      | zero => exact fun m hm => key_lt_of_lt_first hordered hlt hm
      | succ i =>
        have hbelow : startAt table i < pt := hplace.below i (Nat.lt_succ_self i)
        rw [if_pos ⟨Nat.succ_le_succ (Nat.zero_le i), hbelow, hlt⟩]
        exact hplace.before_place hordered hlt

/-- What is found is a symbol with the greatest start not above the address. -/
theorem search_ok {sym : KernelSymbol} (h : search table pt = .ok sym) :
    ∃ s ∈ table, s.start ≤ pt ∧ (∀ t ∈ table, t.start ≤ pt → t.start ≤ s.start) ∧
      sym = ⟨s.start, s.symbol, s.symbol, s.mod, (pt - s.start).toInt64⟩ := by
  have hspec := findSymbol_spec hne hsorted pt
  unfold search at h
  rw [if_neg hne] at h
  split at h
  · cases h
  · next s hs =>
    obtain ⟨k, hk, hget⟩ := Option.bind_eq_some_iff.mp hs
    rw [hk] at hspec
    have hlast : IsLast (startAt table) pt (table.length - 1) k := hspec
    have hstart := startAt_of_getElem? hget
    refine ⟨s, List.mem_of_getElem? hget, hstart ▸ hlast.le_key, fun t ht htle => ?_, (Except.ok.inj h).symm⟩
    obtain ⟨m, hm, hmstart⟩ := startAt_mem ht
    rw [← hmstart, ← hstart]
    exact hlast.greatest m hm (hmstart ▸ htle)

theorem search_error {fault : LookupFault} (h : search table pt = .error fault) :
    fault = .notFound ∧ ∀ s ∈ table, pt < s.start := by
  have hspec := findSymbol_spec hne hsorted pt
  have hpos := List.length_pos_iff.mpr hne
  unfold search at h
  rw [if_neg hne] at h
  split at h
  · next hnone =>
    refine ⟨(Except.error.inj h).symm, fun s hs => ?_⟩
    cases hfind : findSymbol table pt with
    | none =>
      rw [hfind] at hspec
      obtain ⟨m, hm, hmstart⟩ := startAt_mem hs
      exact hmstart ▸ hspec m hm
    | some k =>
      -- a place that is found is in range
      rw [hfind] at hspec hnone
      have hlast : IsLast (startAt table) pt (table.length - 1) k := hspec
      have hrange := hlast.le_last
      have hout : table.length ≤ k := List.getElem?_eq_none_iff.mp hnone
      omega
  · cases h

end Sorted

/-! ## The answers -/

def Faithful (api : CacheApi C UInt64 KernelSymbol) (table : List KernelSymbol) (cache : C) : Prop :=
  api.Holds (fun pt sym => search table pt = .ok sym) cache

theorem Faithful.lookup {table : List KernelSymbol} {cache : C} (h : Faithful api table cache) (now : Nat)
    (pt : UInt64) :
    (getSymPtFromBpfLocation api (.ok table) now pt cache).1 = search table pt ∧
      Faithful api table (getSymPtFromBpfLocation api (.ok table) now pt cache).2 := by
  obtain ⟨hvalue, hkept⟩ := CacheApi.Holds.of_get h now pt
  unfold getSymPtFromBpfLocation
  revert hvalue hkept
  generalize api.get now pt cache = got
  obtain ⟨found, kept⟩ := got
  intro hvalue hkept
  cases found with
  | some sym => exact ⟨(hvalue sym rfl).symm, hkept⟩
  | none =>
    dsimp only
    cases hsearch : search table pt with
    | error fault => exact ⟨rfl, hkept⟩
    | ok sym => exact ⟨rfl, hkept.add now hsearch⟩

theorem faithful_new (api : CacheApi C UInt64 KernelSymbol) (table : List KernelSymbol) : Faithful api table api.new :=
  api.holds_new _

theorem afterLookups_faithful (api : CacheApi C UInt64 KernelSymbol) (table : List KernelSymbol)
    (lookups : List (Nat × UInt64)) : Faithful api table (afterLookups api table lookups) :=
  List.foldlRecOn _ _ (faithful_new api table) fun _ hcache l _ => (hcache.lookup l.1 l.2).2

/-- The answer is right for the symbols as they were read. -/
def Right (syms : List KernelSymbol) (pt : UInt64) : Except LookupFault KernelSymbol → Prop
  | .ok sym =>
    (∃ s ∈ syms, sym.start = s.start ∧ sym.symbol = s.symbol ∧ sym.mod = s.mod) ∧ sym.start ≤ pt ∧
      (∀ s ∈ syms, s.start ≤ pt → s.start ≤ sym.start) ∧ sym.offset.toInt = (pt.toNat : ℤ) - sym.start.toNat
  | .error fault => fault = .notFound ∧ ∀ s ∈ syms, pt < s.start

/-- The greatest start not above the address is less than 2^63 below it, if there is one. -/
def OffsetFits (syms : List KernelSymbol) (pt : UInt64) : Prop :=
  ∀ s ∈ syms, s.start ≤ pt → (∀ t ∈ syms, t.start ≤ pt → t.start ≤ s.start) → pt.toNat - s.start.toNat < 2 ^ 63

theorem offset_eq_iff {a pt : UInt64} (h : a ≤ pt) :
    (pt - a).toInt64.toInt = (pt.toNat : ℤ) - a.toNat ↔ pt.toNat - a.toNat < 2 ^ 63 := by
  have hle : a.toNat ≤ pt.toNat := UInt64.le_iff_toNat_le.mp h
  have hsub : (pt - a).toNat = pt.toNat - a.toNat := UInt64.toNat_sub_of_le pt a h
  have hconv : (pt - a).toInt64 = Int64.ofNat (pt.toNat - a.toNat) := by
    rw [← hsub, ← UInt64.toInt64_ofNat', UInt64.ofNat_toNat]
  rw [hconv]
  constructor
  · intro heq
    have hlt := (Int64.ofNat (pt.toNat - a.toNat)).toInt_lt
    omega
  · intro hlt
    rw [Int64.toInt_ofNat_of_lt hlt]
    omega

theorem right_iff {syms table : List KernelSymbol} (hne : syms ≠ []) (hsort : SortedFrom syms table) (pt : UInt64) :
    Right syms pt (search table pt) ↔ OffsetFits syms pt := by
  have hmem : ∀ s, s ∈ table ↔ s ∈ syms := fun s => hsort.perm.mem_iff
  have htable : table ≠ [] := fun hnil => hne (by simpa [hnil] using hsort.perm.symm)
  cases hsearch : search table pt with
  | error fault =>
    obtain ⟨hfault, hbelow⟩ := search_error htable hsort.sorted hsearch
    refine iff_of_true ⟨hfault, fun s hs => hbelow s ((hmem s).mpr hs)⟩ fun s hs hle => ?_
    exact absurd hle (UInt64.not_le.mpr (hbelow s ((hmem s).mpr hs)))
  | ok sym =>
    obtain ⟨s, hs, hle, hgreatest, rfl⟩ := search_ok htable hsort.sorted hsearch
    have hgreatest' : ∀ t ∈ syms, t.start ≤ pt → t.start ≤ s.start := fun t ht => hgreatest t ((hmem t).mpr ht)
    constructor
    · intro hright t ht htle htgreatest
      have hstart : t.start = s.start :=
        UInt64.le_antisymm (hgreatest' t ht htle) (htgreatest s ((hmem s).mp hs) hle)
      rw [hstart]
      exact (offset_eq_iff hle).mp hright.2.2.2
    · intro hfits
      exact ⟨⟨s, (hmem s).mp hs, rfl, rfl, rfl⟩, hle, hgreatest',
        (offset_eq_iff hle).mpr (hfits s ((hmem s).mp hs) hle hgreatest')⟩

/-- After any lookups an address gets the answer it would get first, and that is right exactly if
    its offset fits an `int`. -/
theorem lookup_right_iff (api : CacheApi C UInt64 KernelSymbol) {syms table : List KernelSymbol} (hne : syms ≠ [])
    (hsort : SortedFrom syms table) (lookups : List (Nat × UInt64)) (now : Nat) (pt : UInt64) :
    (getSymPtFromBpfLocation api (.ok table) now pt (afterLookups api table lookups)).1 =
        (getSymPtFromBpfLocation api (.ok table) now pt api.new).1 ∧
      (Right syms pt (getSymPtFromBpfLocation api (.ok table) now pt (afterLookups api table lookups)).1 ↔
        OffsetFits syms pt) := by
  rw [((afterLookups_faithful api table lookups).lookup now pt).1, ((faithful_new api table).lookup now pt).1]
  exact ⟨rfl, right_iff hne hsort pt⟩

theorem lookup_right_of_text (api : CacheApi C UInt64 KernelSymbol) {ls : List SymLine} (hne : ls ≠ [])
    {table : List KernelSymbol} (hload : GetAllSyms (written (ls.map fun l => bytesOf l.text)) table)
    (lookups : List (Nat × UInt64)) (now : Nat) (pt : UInt64) :
    Right (ls.map SymLine.sym) pt
        (getSymPtFromBpfLocation api (.ok table) now pt (afterLookups api table lookups)).1 ↔
      OffsetFits (ls.map SymLine.sym) pt := by
  obtain ⟨syms, hsyms, hsort⟩ := hload
  rw [readSyms_written] at hsyms
  cases hsyms
  rw [((afterLookups_faithful api table lookups).lookup now pt).1]
  exact right_iff (by simpa using hne) hsort pt

def locationApi : CacheApi (Lru UInt64 KernelSymbol 100) UInt64 KernelSymbol := Lru.api

/-- Two symbols of the kernel's own, one of them under two names, and one of a module, as they are read. -/
def bootSyms : List KernelSymbol :=
  [⟨0xffffffff81000000, "T", "_text", "kernel", 0⟩, ⟨0xffffffff81000000, "T", "startup_64", "kernel", 0⟩,
   ⟨0xffffffffc0200000, "t", "veth_xmit", "[veth]", 0⟩, ⟨0xffffffff81a00000, "T", "tcp_v4_rcv", "kernel", 0⟩]

def bootTable : List KernelSymbol :=
  [⟨0xffffffff81000000, "T", "startup_64", "kernel", 0⟩, ⟨0xffffffff81000000, "T", "_text", "kernel", 0⟩,
   ⟨0xffffffff81a00000, "T", "tcp_v4_rcv", "kernel", 0⟩, ⟨0xffffffffc0200000, "t", "veth_xmit", "[veth]", 0⟩]

theorem sortedFrom_bootSyms : SortedFrom bootSyms bootTable := ⟨by decide, by decide⟩

/-- An address is looked up after others, after itself and below all symbols. -/
theorem lookup_right_again :
    Right bootSyms 0xffffffff81a00010
      (getSymPtFromBpfLocation locationApi (.ok bootTable) 4 0xffffffff81a00010
        (afterLookups locationApi bootTable
          [(1, 0xffffffff81a00010), (2, 0xffffffffc0200040), (3, 0xffffffff80000000)])).1 := by
  refine (lookup_right_iff locationApi (by decide) sortedFrom_bootSyms _ 4 _).2.mpr fun s hs _ _ => ?_
  revert s
  decide

/-- A symbol as it is read where the kernel hides its addresses. -/
def hiddenSym : KernelSymbol := ⟨0, "T", "_text", "kernel", 0⟩

theorem an_offset_below_zero :
    (getSymPtFromBpfLocation locationApi (.ok [hiddenSym]) 0 0xffffffff81000000 locationApi.new).1 =
        .ok ⟨0, "_text", "_text", "kernel", -0x7f000000⟩ ∧
      ¬Right [hiddenSym] 0xffffffff81000000
        (getSymPtFromBpfLocation locationApi (.ok [hiddenSym]) 0 0xffffffff81000000 locationApi.new).1 := by
  have hanswer : (getSymPtFromBpfLocation locationApi (.ok [hiddenSym]) 0 0xffffffff81000000 locationApi.new).1 =
      .ok ⟨0, "_text", "_text", "kernel", -0x7f000000⟩ := by
    decide +kernel
  refine ⟨hanswer, fun h => ?_⟩
  rw [hanswer] at h
  exact absurd h.2.2.2 (by decide)

end EliteTelemetry.Exporter.Kallsyms
