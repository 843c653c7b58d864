/-
  EliteTelemetry.Lib.Cidr — blocks of addresses, as Go's `net` reads and compares them.

  `parseCIDR` gives a masked address and a mask, and `contains` compares what is left of two
  addresses under the mask, byte by byte. `InBlock` says in bits what that comes to: an
  address is in the block `a/n` if it is of the same family and its first `n` bits are those
  of `a` (`contains_iff`). An IPv4 address is one however it is written.
-/

import EliteTelemetry.Lib.NetAddr

namespace EliteTelemetry.Lib.Cidr

open EliteTelemetry.Lib.NetAddr

/-! ## `net` -/

def v4InV6Prefix : List UInt8 := List.replicate 10 0 ++ [255, 255]

def to4 (ip : List UInt8) : Option (List UInt8) :=
  if ip.length = 4 then some ip
  else if ip.length = 16 ∧ ip.take 12 = v4InV6Prefix then some (ip.drop 12)
  else none

def byteMask (ones : Nat) : UInt8 := if 8 ≤ ones then 255 else ~~~((255 : UInt8) >>> .ofNat ones)

def cidrMask : Nat → Nat → List UInt8
  | 0, _ => []
  | len + 1, ones => byteMask ones :: cidrMask len (ones - 8)

def masked (mask ip : List UInt8) : List UInt8 := List.zipWith (· &&& ·) ip mask

structure IPNet where
  ip : List UInt8
  mask : List UInt8
  deriving DecidableEq, Repr

def dtoi (s : Text) : Option Nat :=
  if s = [] ∨ ¬s.all Char.isDigit then none
  else
    let n := s.foldl (fun n c => n * 10 + (c.toNat - '0'.toNat)) 0
    if n < 0xffffff then some n else none

/-- `netip.ParseAddr`: 4 or 16 bytes. A text with a zone is none. -/
def parseAddr (s : Text) : Option (List UInt8) :=
  match s.find? fun c => c = '.' ∨ c = ':' ∨ c = '%' with
  | some '.' => parseIPv4 s
  | some ':' => if '%' ∈ s then none else parseIPv6 s
  | _ => none

def readCIDR (s : Text) : Option (List UInt8 × Nat) :=
  let addr := before '/' s
  if '/' ∉ s then none
  else
    match parseAddr addr, dtoi (s.drop (addr.length + 1)) with
    | some ip, some n => if n ≤ 8 * ip.length then some (ip, n) else none
    | _, _ => none

def network (block : List UInt8 × Nat) : IPNet :=
  let mask := cidrMask block.1.length block.2
  { ip := masked mask block.1, mask := mask }

def parseCIDR (s : Text) : Option IPNet := (readCIDR s).map network

def IPNet.networkNumberAndMask (net : IPNet) : List UInt8 × List UInt8 :=
  match to4 net.ip with
  | some ip => (ip, if net.mask.length = 16 then net.mask.drop 12 else net.mask)
  | none => (net.ip, net.mask)

def IPNet.contains (net : IPNet) (ip : List UInt8) : Bool :=
  let number := net.networkNumberAndMask.1
  let mask := net.networkNumberAndMask.2
  let ip := (to4 ip).getD ip
  ip.length = number.length ∧ masked mask number = masked mask ip

def IPNet.numberAndMask (net : IPNet) : Option (List UInt8 × List UInt8) :=
  match to4 net.ip with
  | some ip =>
    if net.mask.length = 4 then some (ip, net.mask)
    else if net.mask.length = 16 then some (ip, net.mask.drop 12)
    else none
  | none => if net.ip.length = 16 ∧ net.mask.length = 16 then some (net.ip, net.mask) else none

/-- `IPNet.Contains`, of any block. Without a network number it contains the address nil. -/
def IPNet.covers (net : IPNet) (ip : List UInt8) : Bool :=
  let fit := net.numberAndMask.getD ([], [])
  let ip := (to4 ip).getD ip
  ip.length = fit.1.length ∧ masked fit.2 fit.1 = masked fit.2 ip

/-! ## Blocks in bits -/

def byteBits (b : UInt8) : List Bool := (List.range 8).map fun i => b.toNat.testBit (7 - i)

def bits (ip : List UInt8) : List Bool := ip.flatMap byteBits

def leadingOnes (b : UInt8) : Nat := ((byteBits b).takeWhile id).length

def simpleMaskLength : List UInt8 → Option Nat
  | [] => some 0
  | b :: mask =>
    if b = 255 then (simpleMaskLength mask).map (8 + ·)
    else if (byteBits b).drop (leadingOnes b) = List.replicate (8 - leadingOnes b) false ∧ mask.all (· = 0) then
      some (leadingOnes b)
    else none

def maskOnes (mask : List UInt8) : Nat := (simpleMaskLength mask).getD 0

def short (ip : List UInt8) : List UInt8 := (to4 ip).getD ip

/-- A block of IPv4 addresses that is written as one of IPv6 addresses, in the short form. -/
def shortBlock (block : List UInt8 × Nat) : List UInt8 × Nat :=
  if block.1.length = 16 ∧ block.1.take 12 = v4InV6Prefix ∧ 96 ≤ block.2 then (block.1.drop 12, block.2 - 96) else block

/-- The address is of the block's family and begins with the bits of the block. -/
def InBlock (block : List UInt8 × Nat) (ip : List UInt8) : Prop :=
  (short ip).length = (shortBlock block).1.length ∧
    (bits (short ip)).take (shortBlock block).2 = (bits (shortBlock block).1).take (shortBlock block).2

/-! ## Masks and bits -/

@[simp] theorem length_byteBits (b : UInt8) : (byteBits b).length = 8 := by simp [byteBits]

theorem byteBits_inj {a b : UInt8} (h : byteBits a = byteBits b) : a = b := by
  refine UInt8.toNat_inj.mp (Nat.eq_of_testBit_eq fun i => ?_)
  by_cases hi : i < 8
  · have hbit := congrArg (·[7 - i]?) h
    simp only [byteBits, List.getElem?_map, List.getElem?_range (show 7 - i < 8 by omega), Option.map_some,
      Option.some.injEq, show 7 - (7 - i) = i by omega] at hbit
    exact hbit
  · have hlarge : ∀ c : UInt8, c.toNat.testBit i = false := fun c =>
      Nat.testBit_lt_two_pow (c.toNat_lt.trans_le (Nat.pow_le_pow_right (by omega) (by omega : 8 ≤ i)))
    rw [hlarge, hlarge]

theorem testBit_byteMask (n : Nat) {i : Nat} (hi : i < 8) : (byteMask n).toNat.testBit (7 - i) = decide (i < n) := by
  have hshort : ∀ (j i : Fin 8), (byteMask j).toNat.testBit (7 - i) = decide (i < j) := by decide
  have hones : ∀ i : Fin 8, (255 : UInt8).toNat.testBit (7 - i) = true := by decide
  by_cases hn : n < 8
  · exact hshort ⟨n, hn⟩ ⟨i, hi⟩
  · rw [byteMask, if_pos (by omega), decide_eq_true (by omega)]
    exact hones ⟨i, hi⟩

theorem byteBits_masked (b : UInt8) (n : Nat) :
    byteBits (b &&& byteMask n) = (byteBits b).take n ++ List.replicate (8 - n) false := by
  refine List.ext_getElem (by simp; omega) fun i hi _ => ?_
  rw [length_byteBits] at hi
  have hmask := testBit_byteMask n hi
  by_cases hn : i < n
  · rw [List.getElem_append_left (by simp; omega)]
    simp [byteBits, hmask, hn]
  · rw [List.getElem_append_right (by simp; omega)]
    simp [byteBits, hmask, hn]

theorem and_byteMask_eq_iff (a b : UInt8) (n : Nat) :
    a &&& byteMask n = b &&& byteMask n ↔ (byteBits a).take n = (byteBits b).take n := by
  refine ⟨fun h => ?_, fun h => byteBits_inj ?_⟩
  · have hbits := congrArg byteBits h
    rw [byteBits_masked, byteBits_masked] at hbits
    exact List.append_cancel_right hbits
  · rw [byteBits_masked, byteBits_masked, h]

@[simp] theorem length_cidrMask (len n : Nat) : (cidrMask len n).length = len := by
  induction len generalizing n with
  | zero => rfl
  | succ len ih => simp [cidrMask, ih]

@[simp] theorem length_masked (mask ip : List UInt8) : (masked mask ip).length = min ip.length mask.length := by
  simp [masked]

theorem masked_eq_iff {a b : List UInt8} (hlen : a.length = b.length) (n : Nat) :
    masked (cidrMask a.length n) a = masked (cidrMask a.length n) b ↔ (bits a).take n = (bits b).take n := by
  induction a generalizing b n with
  | nil =>
    obtain rfl : b = [] := List.eq_nil_of_length_eq_zero hlen.symm
    simp
  | cons x a ih =>
    obtain ⟨y, b, rfl⟩ := List.exists_cons_of_length_pos (l := b) (by simp at hlen; omega)
    have hbits : ∀ (z : UInt8) (c : List UInt8), (bits (z :: c)).take n = (byteBits z).take n ++ (bits c).take (n - 8) := by
      intro z c
      simp [bits, List.take_append]
    have hhead := and_byteMask_eq_iff x y n
    have htail := ih (b := b) (by simpa using hlen) (n - 8)
    have happend : (byteBits x).take n ++ (bits a).take (n - 8) = (byteBits y).take n ++ (bits b).take (n - 8) ↔
        (byteBits x).take n = (byteBits y).take n ∧ (bits a).take (n - 8) = (bits b).take (n - 8) :=
      ⟨fun h => List.append_inj h (by simp), fun h => by rw [h.1, h.2]⟩
    rw [hbits, hbits, happend, ← hhead, ← htail]
    simp [masked, cidrMask]

/-! ## What a block contains -/

theorem masked_masked (mask ip : List UInt8) : masked mask (masked mask ip) = masked mask ip := by
  induction ip generalizing mask with
  | nil => rfl
  | cons b ip ih =>
    cases mask with
    | nil => rfl
    | cons m mask =>
      have htail := ih mask
      unfold masked at htail
      simp [masked, htail, UInt8.and_assoc]

variable {ip : List UInt8} {s : Text}

theorem masked_append {mask : List UInt8} (hlen : ip.length = mask.length) (mask' ip' : List UInt8) :
    masked (mask ++ mask') (ip ++ ip') = masked mask ip ++ masked mask' ip' :=
  List.zipWith_append hlen

theorem masked_all {n : Nat} (hn : 8 * ip.length ≤ n) : masked (cidrMask ip.length n) ip = ip := by
  induction ip generalizing n with
  | nil => rfl
  | cons b ip ih =>
    simp only [List.length_cons] at hn
    have hbyte : byteMask n = 255 := if_pos (by omega)
    have htail := ih (n := n - 8) (by omega)
    unfold masked at htail
    have hb : b &&& 255 = b := UInt8.and_neg_one
    simp [masked, cidrMask, htail, hbyte, hb]

theorem cidrMask_add (len len' n : Nat) : cidrMask (len + len') n = cidrMask len n ++ cidrMask len' (n - 8 * len) := by
  induction len generalizing n with
  | zero => simp [cidrMask]
  | succ len ih =>
    rw [Nat.add_right_comm, cidrMask, ih, cidrMask, List.cons_append]
    congr 3
    omega

theorem masked_eq_v4InV6Prefix (hlen : ip.length = 12) (n : Nat) :
    masked (cidrMask 12 n) ip = v4InV6Prefix ↔ ip = v4InV6Prefix ∧ 96 ≤ n := by
  have hlong : ∀ n : Fin 96, masked (cidrMask 12 n) v4InV6Prefix ≠ v4InV6Prefix := by decide +kernel
  by_cases hn : 96 ≤ n
  · have hall := masked_all (show 8 * ip.length ≤ n by omega)
    rw [hlen] at hall
    simp [hall, hn]
  · refine iff_of_false (fun h => ?_) (fun h => hn h.2)
    have hfix := masked_masked (cidrMask 12 n) ip
    rw [h] at hfix
    exact hlong ⟨n, by omega⟩ hfix

/-- What a block compares addresses with: its address in the short form, under its mask. -/
theorem networkNumberAndMask_network {block : List UInt8 × Nat} (hlen : block.1.length = 4 ∨ block.1.length = 16) :
    (network block).networkNumberAndMask =
      (masked (cidrMask (shortBlock block).1.length (shortBlock block).2) (shortBlock block).1,
        cidrMask (shortBlock block).1.length (shortBlock block).2) := by
  obtain ⟨addr, n⟩ := block
  simp only at hlen
  unfold IPNet.networkNumberAndMask network to4 shortBlock
  rcases hlen with hlen | hlen
  · simp [hlen]
  · obtain ⟨front, v4, rfl, hfront⟩ : ∃ front v4, addr = front ++ v4 ∧ front.length = 12 :=
      ⟨addr.take 12, addr.drop 12, by simp, by simp [hlen]⟩
    have hv4 : v4.length = 4 := by simp [hfront] at hlen; omega
    have hsplit : masked (cidrMask 16 n) (front ++ v4) = masked (cidrMask 12 n) front ++ masked (cidrMask 4 (n - 96)) v4 := by
      rw [show (16 : Nat) = 12 + 4 from rfl, cidrMask_add, masked_append (by simp [hfront])]
    have hfront' : (masked (cidrMask 12 n) front).length = 12 := by simp [hfront]
    have hmask : (cidrMask 16 n).drop 12 = cidrMask 4 (n - 96) := by
      rw [show (16 : Nat) = 12 + 4 from rfl, cidrMask_add, List.drop_left' (by simp)]
    have htake : (masked (cidrMask 16 n) (front ++ v4)).take 12 = masked (cidrMask 12 n) front := by
      rw [hsplit, List.take_left' hfront']
    have hdrop : (masked (cidrMask 16 n) (front ++ v4)).drop 12 = masked (cidrMask 4 (n - 96)) v4 := by
      rw [hsplit, List.drop_left' hfront']
    simp only [hlen, htake, hdrop, masked_eq_v4InV6Prefix hfront, List.take_left' hfront, List.drop_left' hfront]
    by_cases hshort : front = v4InV6Prefix ∧ 96 ≤ n
    · simp [hshort, show v4InV6Prefix.length = 12 from rfl, hv4, hmask]
    · simp [hshort, hlen]

theorem contains_network {block : List UInt8 × Nat} (hlen : block.1.length = 4 ∨ block.1.length = 16) (ip : List UInt8) :
    (network block).contains ip = true ↔ InBlock block ip := by
  unfold IPNet.contains InBlock
  rw [networkNumberAndMask_network hlen]
  have hlength : (masked (cidrMask (shortBlock block).1.length (shortBlock block).2) (shortBlock block).1).length =
      (shortBlock block).1.length := by simp
  simp only [hlength, decide_eq_true_eq, masked_masked]
  refine and_congr_right fun hip => ?_
  rw [masked_eq_iff hip.symm]
  exact eq_comm

/-! ## Blocks that are read -/

theorem length_parseIPv4 (h : parseIPv4 s = some ip) : ip.length = 4 := by
  unfold parseIPv4 at h
  split at h
  · simp only [bind, Option.bind_eq_some_iff, pure, Option.some.injEq] at h
    obtain ⟨a, -, b, -, c, -, d, -, rfl⟩ := h
    rfl
  · simp at h

theorem length_parseIPv6 (h : parseIPv6 s = some ip) : ip.length = 16 := by
  unfold parseIPv6 at h
  simp only at h
  split at h
  · simp at h
  · split at h
    · next hlen =>
      obtain rfl := Option.some.inj h
      exact hlen
    · simp at h
  · split at h
    · next hlen =>
      obtain rfl := Option.some.inj h
      simp only [List.length_append, List.length_take, List.length_replicate, List.length_drop]
      omega
    · simp at h

theorem length_readCIDR {block : List UInt8 × Nat} (h : readCIDR s = some block) :
    block.1.length = 4 ∨ block.1.length = 16 := by
  have hparse : ∀ {t : Text} {ip : List UInt8}, parseAddr t = some ip → ip.length = 4 ∨ ip.length = 16 := by
    intro t ip ht
    unfold parseAddr at ht
    split at ht
    · exact .inl (length_parseIPv4 ht)
    · split at ht
      · simp at ht
      · exact .inr (length_parseIPv6 ht)
    · simp at ht
  unfold readCIDR at h
  simp only at h
  split at h
  · simp at h
  · split at h
    · next hip _ =>
      split at h
      · obtain rfl := Option.some.inj h
        exact hparse hip
      · simp at h
    · simp at h

/-- An address is in the block of a text exactly if it is of the family of the address that
    the text gives and begins with the same bits, as many as it says. -/
theorem contains_iff {net : IPNet} (h : parseCIDR s = some net) (ip : List UInt8) :
    net.contains ip = true ↔ ∃ block, readCIDR s = some block ∧ InBlock block ip := by
  unfold parseCIDR at h
  obtain ⟨block, hread, rfl⟩ := Option.map_eq_some_iff.mp h
  rw [contains_network (length_readCIDR hread)]
  simp [hread]

-- 10.0.0.0/8 and the same block as IPv6 addresses
example :
    let lengthOf := fun s : String => (parseCIDR s.toList).map (·.ip.length)
    let holds := fun s ip : String => (parseCIDR s.toList).map (·.contains ((parseIP ip.toList).getD []))
    lengthOf "10.0.0.0/8" = some 4 ∧ lengthOf "::ffff:10.0.0.0/104" = some 16 ∧
      holds "10.0.0.0/8" "10.200.0.1" = some true ∧ holds "::ffff:10.0.0.0/104" "10.200.0.1" = some true ∧
      holds "::/0" "10.200.0.1" = some false ∧ holds "10.0.0.0/33" "10.200.0.1" = none := by
  decide +kernel

end EliteTelemetry.Lib.Cidr
