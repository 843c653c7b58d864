/-
  EliteTelemetry.Lib.ByteOrder — fields of a byte memory, as a little-endian host loads them
  and as the network has them.

  A memory is a function from offsets to bytes. `Holds` says which bytes stand at an offset;
  it splits where a record is put together from its fields (`holds_append`). `load16` is the
  host's load; a field in network order is its value with the bytes swapped
  (`swap16_load16`), and swapping twice gives the value back.
-/

import Mathlib.Algebra.Group.Nat.Defs

namespace EliteTelemetry.Lib.ByteOrder

/-! ## Bytes at an offset -/

def read (m : Nat → UInt8) (off : Nat) : Nat → List UInt8
  | 0 => []
  | n + 1 => m off :: read m (off + 1) n

def Holds (m : Nat → UInt8) (off : Nat) : List UInt8 → Prop
  | [] => True
  | b :: bs => m off = b ∧ Holds m (off + 1) bs

@[simp] theorem holds_nil (m : Nat → UInt8) (off : Nat) : Holds m off [] ↔ True := Iff.rfl

@[simp] theorem holds_cons (m : Nat → UInt8) (off : Nat) (b : UInt8) (bs : List UInt8) :
    Holds m off (b :: bs) ↔ m off = b ∧ Holds m (off + 1) bs := Iff.rfl

instance (m : Nat → UInt8) : (off : Nat) → (bs : List UInt8) → Decidable (Holds m off bs)
  | _, [] => isTrue trivial
  | off, b :: bs =>
    have := instDecidableHolds m (off + 1) bs
    inferInstanceAs (Decidable (m off = b ∧ Holds m (off + 1) bs))

theorem holds_append (m : Nat → UInt8) (off : Nat) (bs cs : List UInt8) :
    Holds m off (bs ++ cs) ↔ Holds m off bs ∧ Holds m (off + bs.length) cs := by
  induction bs generalizing off with
  | nil => simp
  | cons b bs ih =>
    rw [List.cons_append, holds_cons, ih, holds_cons, and_assoc, List.length_cons, Nat.add_assoc, Nat.add_comm 1]

theorem read_of_holds {m : Nat → UInt8} {off : Nat} {bs : List UInt8} (h : Holds m off bs) :
    read m off bs.length = bs := by
  induction bs generalizing off with
  | nil => rfl
  | cons b bs ih =>
    obtain ⟨hb, hbs⟩ := h
    rw [List.length_cons, read, hb, ih hbs]

/-! ## Fields of two and four bytes -/

def load16 (m : Nat → UInt8) (off : Nat) : UInt16 := UInt16.ofNat ((m off).toNat + 256 * (m (off + 1)).toNat)

def load32 (m : Nat → UInt8) (off : Nat) : UInt32 :=
  UInt32.ofNat ((m off).toNat + 256 * ((m (off + 1)).toNat + 256 * ((m (off + 2)).toNat + 256 * (m (off + 3)).toNat)))

def netValue16 (m : Nat → UInt8) (off : Nat) : UInt16 := UInt16.ofNat (256 * (m off).toNat + (m (off + 1)).toNat)

def netBytes16 (x : UInt16) : List UInt8 := [UInt8.ofNat (x.toNat / 256), UInt8.ofNat x.toNat]

def swap16 (x : UInt16) : UInt16 := UInt16.ofNat (256 * (x.toNat % 256) + x.toNat / 256)

theorem netValue16_of_holds {m : Nat → UInt8} {off : Nat} {x : UInt16} (h : Holds m off (netBytes16 x)) :
    netValue16 m off = x := by
  have hx := x.toNat_lt
  obtain ⟨h0, h1, -⟩ := h
  refine UInt16.toNat_inj.mp ?_
  rw [netValue16, h0, h1, UInt16.toNat_ofNat', UInt8.toNat_ofNat', UInt8.toNat_ofNat']
  omega

theorem toNat_swap16 (x : UInt16) : (swap16 x).toNat = 256 * (x.toNat % 256) + x.toNat / 256 := by
  have hx := x.toNat_lt
  unfold swap16
  rw [UInt16.toNat_ofNat']
  omega

theorem swap16_swap16 (x : UInt16) : swap16 (swap16 x) = x := by
  have hx := x.toNat_lt
  refine UInt16.toNat_inj.mp ?_
  rw [toNat_swap16, toNat_swap16]
  omega

theorem swap16_load16 (m : Nat → UInt8) (off : Nat) : swap16 (load16 m off) = netValue16 m off := by
  have h0 := (m off).toNat_lt
  have h1 := (m (off + 1)).toNat_lt
  refine UInt16.toNat_inj.mp ?_
  have hload : (load16 m off).toNat = (m off).toNat + 256 * (m (off + 1)).toNat := by
    unfold load16
    rw [UInt16.toNat_ofNat']
    omega
  have hnet : (netValue16 m off).toNat = 256 * (m off).toNat + (m (off + 1)).toNat := by
    unfold netValue16
    rw [UInt16.toNat_ofNat']
    omega
  rw [toNat_swap16, hload, hnet]
  omega

theorem load16_eq (m : Nat → UInt8) (off : Nat) : load16 m off = swap16 (netValue16 m off) := by
  rw [← swap16_load16, swap16_swap16]

/-- A load is compared with a constant in network order to compare the field's value. -/
theorem load16_eq_swap16_iff (m : Nat → UInt8) (off : Nat) (x : UInt16) :
    load16 m off = swap16 x ↔ netValue16 m off = x := by
  rw [load16_eq]
  constructor
  · intro h
    rw [← swap16_swap16 (netValue16 m off), h, swap16_swap16]
  · intro h
    rw [h]

end EliteTelemetry.Lib.ByteOrder
