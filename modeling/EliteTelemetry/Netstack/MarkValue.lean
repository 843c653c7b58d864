/-
  EliteTelemetry.Netstack.MarkValue — the value of a mark match
  (`parseMarkValue` and `Mark.Match` of `pkg/skoop/netstack/iptables.go`).

  A mark match is written `value` or `value/mask`, and matches the marks that are the value
  under the mask. Marks are 32-bit numbers without a sign, but the code reads both texts as
  signed ones and drops the error: a number of 2^31 or more is read as 2^31 - 1
  (`parseMark_written`).

  So a match is what its text says, for every mark, exactly if the mask is below 2^31 and the
  value is too, or is out of the mask's reach either way (`mark_match_iff`).
-/

import EliteTelemetry.Netstack.Matchers

namespace EliteTelemetry.Netstack

open EliteTelemetry.Lib.GoText EliteTelemetry.Skoop

def signedCut (n : UInt32) : UInt32 := if n < 0x80000000 then n else 0x7fffffff

/-! ## Reading the text -/

theorem signedCut_toNat (n : UInt32) : (signedCut n).toNat = min n.toNat (2 ^ 31 - 1) := by
  unfold signedCut
  split
  · next h =>
    rw [UInt32.lt_iff_toNat_lt] at h
    exact (Nat.min_eq_left (Nat.le_sub_one_of_lt h)).symm
  · next h =>
    rw [UInt32.lt_iff_toNat_lt] at h
    exact (Nat.min_eq_right (Nat.le_trans (by decide) (Nat.not_lt.mp h))).symm

theorem parseMark_written {n : UInt32} {s : String} (h : Written n.toNat s.toList) : parseMark s = signedCut n := by
  have hread := parseInt_written h n.toNat_lt
  rw [← UInt32.toNat_inj, signedCut_toNat, parseMark, hread]
  have hlt : min n.toNat (2 ^ 31 - 1) < 2 ^ 32 := Nat.lt_of_le_of_lt (Nat.min_le_left ..) n.toNat_lt
  rw [Int.emod_eq_of_lt (by omega) (by exact_mod_cast hlt), Int.toNat_natCast, UInt32.toNat_ofNat',
    Nat.mod_eq_of_lt hlt]

theorem slash_not_mem_written {n : Nat} {cs : List Char} (h : Written n cs) : '/' ∉ cs := by
  have hdigits : ∀ {base : Nat} {ds : List Char}, Digits base ds → '/' ∉ ds := by
    intro base ds hds hm
    obtain ⟨d, -, hd⟩ := hds '/' hm
    rw [show digitValue '/' = none by decide] at hd
    exact absurd hd (by simp)
  cases h with
  | decimal => exact hdigits (digits_toDigits n)
  | hex _ hds _ => simpa using hdigits hds

theorem parseMarkValue_value {v : UInt32} {s : String} (h : Written v.toNat s.toList) :
    parseMarkValue s = (signedCut v, 0xffffffff) := by
  have hsplit : split '/' s = [s] := by
    rw [split, List.splitOn_eq_singleton (slash_not_mem_written h)]
    simp
  unfold parseMarkValue
  rw [hsplit]
  simp only [parseMark_written h]

theorem parseMarkValue_masked {v m : UInt32} {s t : String} (hs : Written v.toNat s.toList)
    (ht : Written m.toNat t.toList) : parseMarkValue (s ++ "/" ++ t) = (signedCut v, signedCut m) := by
  have hsplit : split '/' (s ++ "/" ++ t) = [s, t] := by
    have htext : (s ++ "/" ++ t).toList = s.toList ++ '/' :: t.toList := by simp
    rw [split, htext, List.splitOn_append_cons_self_of_not_mem (slash_not_mem_written hs),
      List.splitOn_eq_singleton (slash_not_mem_written ht)]
    simp
  unfold parseMarkValue
  rw [hsplit]
  simp only [parseMark_written hs, parseMark_written ht]

/-! ## The marks that match -/

theorem and_allOnes (k : UInt32) : k &&& 0xffffffff = k := UInt32.and_neg_one

theorem signedCut_of_lt {n : UInt32} (h : n < 0x80000000) : signedCut n = n := if_pos h

theorem signedCut_of_not_lt {n : UInt32} (h : ¬n < 0x80000000) : signedCut n = 0x7fffffff := if_neg h

theorem value_exact_iff (v : UInt32) : (∀ k : UInt32, signedCut v = k ↔ k = v) ↔ v < 0x80000000 := by
  refine ⟨fun h => ?_, fun h k => by rw [signedCut_of_lt h, eq_comm]⟩
  by_contra hv
  have hsame := (h (signedCut v)).mp rfl
  rw [signedCut_of_not_lt hv] at hsame
  exact hv (hsame ▸ by decide)

theorem and_le (k m : UInt32) : (k &&& m).toNat ≤ m.toNat := by
  rw [UInt32.toNat_and]
  exact Nat.and_le_right

/-- A mask beyond 2^31 loses its highest bit: some mark with that bit matches no more, or one
    without it matches now. -/
theorem not_exact_of_large_mask (v : UInt32) {m : UInt32} (hm : ¬m < 0x80000000) :
    ∃ k : UInt32, signedCut v = k &&& 0x7fffffff ∧ k &&& m ≠ v := by
  rw [UInt32.lt_iff_toNat_lt, show (0x80000000 : UInt32).toNat = 2 ^ 31 from rfl] at hm
  have hm32 := m.toNat_lt
  by_cases hv : v < 0x80000000
  · rw [UInt32.lt_iff_toNat_lt, show (0x80000000 : UInt32).toNat = 2 ^ 31 from rfl] at hv
    -- the value with the highest bit set
    have hk : (UInt32.ofNat (2 ^ 31 + v.toNat)).toNat = 2 ^ 31 + v.toNat := by
      rw [UInt32.toNat_ofNat']
      exact Nat.mod_eq_of_lt (by omega)
    refine ⟨.ofNat (2 ^ 31 + v.toNat), ?_, fun h => ?_⟩
    · rw [← UInt32.toNat_inj, signedCut_toNat, UInt32.toNat_and, hk,
        show (0x7fffffff : UInt32).toNat = 2 ^ 31 - 1 from rfl, Nat.and_two_pow_sub_one_eq_mod]
      omega
    · have hbit := congrArg (fun n : UInt32 => n.toNat.testBit 31) h
      simp only [UInt32.toNat_and, Nat.testBit_and, hk] at hbit
      rw [Nat.testBit_two_pow_add_eq, Nat.testBit_lt_two_pow hv, Bool.not_false, Bool.true_and,
        Nat.testBit_eq_decide_div_mod_eq, decide_eq_false_iff_not] at hbit
      omega
  · refine ⟨0x7fffffff, by rw [signedCut_of_not_lt hv]; decide, fun h => hv ?_⟩
    have hle := and_le m 0x7fffffff
    rw [UInt32.and_comm, h] at hle
    rw [UInt32.lt_iff_toNat_lt]
    exact Nat.lt_of_le_of_lt hle (by decide)

theorem masked_exact_iff (v m : UInt32) :
    (∀ k : UInt32, signedCut v = k &&& signedCut m ↔ k &&& m = v) ↔
      m < 0x80000000 ∧ (v < 0x80000000 ∨ m ≠ 0x7fffffff) := by
  constructor
  · intro h
    by_cases hm : m < 0x80000000
    · refine ⟨hm, ?_⟩
      by_contra hnot
      obtain ⟨hv, rfl⟩ : ¬v < 0x80000000 ∧ m = 0x7fffffff := by simpa using hnot
      have hsame := (h 0x7fffffff).mp (by rw [signedCut_of_not_lt hv, signedCut_of_lt hm]; decide)
      exact hv (hsame ▸ by decide)
    · obtain ⟨k, hcut, hne⟩ := not_exact_of_large_mask v hm
      rw [← signedCut_of_not_lt hm] at hcut
      exact absurd ((h k).mp hcut) hne
  · intro ⟨hm, hor⟩ k
    rw [signedCut_of_lt hm]
    by_cases hv : v < 0x80000000
    · rw [signedCut_of_lt hv, eq_comm]
    · -- no mark has 2^31 - 1 or more under the mask
      have hreach := and_le k m
      have hm31 := UInt32.lt_iff_toNat_lt.mp hm
      have hv31 := Nat.not_lt.mp (fun h => hv (UInt32.lt_iff_toNat_lt.mpr h))
      rw [signedCut_of_not_lt hv]
      refine iff_of_false (fun h => hor.elim hv fun hne => hne ?_) (fun h => ?_)
      · rw [← h] at hreach
        rw [← UInt32.toNat_inj]
        exact Nat.le_antisymm (Nat.le_sub_one_of_lt hm31) hreach
      · rw [h] at hreach
        omega

/-- A mark match matches exactly the marks its text is about for values and masks below 2^31,
    and for values that no mark comes to, either way. -/
theorem mark_match_iff {v m : UInt32} {s t : String} (hs : Written v.toNat s.toList) (ht : Written m.toNat t.toList) :
    ((∀ packet, matchMark s packet = true ↔ packet.mark &&& 0xffffffff = v) ↔ v < 0x80000000) ∧
      ((∀ packet, matchMark (s ++ "/" ++ t) packet = true ↔ packet.mark &&& m = v) ↔
        m < 0x80000000 ∧ (v < 0x80000000 ∨ m ≠ 0x7fffffff)) := by
  have hmarks : ∀ p : UInt32 → Prop, (∀ packet : Packet, p packet.mark) ↔ ∀ k, p k :=
    fun p => ⟨fun h k => h ⟨[], 0, [], 0, .tcp, k⟩, fun h packet => h packet.mark⟩
  unfold matchMark
  simp only [parseMarkValue_value hs, parseMarkValue_masked hs ht, beq_iff_eq, and_allOnes]
  exact ⟨(hmarks fun k => signedCut v = k ↔ k = v).trans (value_exact_iff v),
    (hmarks fun k => signedCut v = k &&& signedCut m ↔ k &&& m = v).trans (masked_exact_iff v m)⟩

/-- The mark kube-proxy gives to packets that are to be masqueraded. -/
theorem mark_match_masquerade :
    (∀ packet, matchMark "0x4000" packet = true ↔ packet.mark &&& 0xffffffff = 0x4000) ∧
      ∀ packet, matchMark "0x4000/0x4000" packet = true ↔ packet.mark &&& 0x4000 = 0x4000 := by
  have htext : Written (0x4000 : UInt32).toNat "0x4000".toList := by
    have hlist : "0x4000".toList = '0' :: 'x' :: ['4', '0', '0', '0'] := by decide
    rw [hlist]
    exact .hex (by decide) (by decide) (by decide)
  obtain ⟨hvalue, hmasked⟩ := mark_match_iff htext htext
  exact ⟨hvalue.mpr (by decide), hmasked.mpr (by decide)⟩

/-- The highest bit of the mark as value and mask: the mark that has it does not match, and the
    mark that has all others does. -/
theorem the_highest_bit_of_a_mark_is_misread :
    let packet := fun k : UInt32 => (⟨[], 0, [], 0, .tcp, k⟩ : Packet)
    (0x80000000 : UInt32) &&& 0x80000000 = 0x80000000 ∧
      matchMark "0x80000000/0x80000000" (packet 0x80000000) = false ∧
      (0x7fffffff : UInt32) &&& 0x80000000 ≠ 0x80000000 ∧
      matchMark "0x80000000/0x80000000" (packet 0x7fffffff) = true := by
  decide +kernel

end EliteTelemetry.Netstack
