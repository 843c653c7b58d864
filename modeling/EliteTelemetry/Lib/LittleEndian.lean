/-
  EliteTelemetry.Lib.LittleEndian — numbers as bytes, least significant first.

  `bytes k n` is the k-byte form of n and `value` reads one back; `slice` cuts a field out
  of a record. A record is the concatenation of its fields' bytes, so a field is read back
  by cutting at the length of what stands before it (`slice_append`).
-/

import Mathlib.Algebra.Group.Nat.Defs

namespace EliteTelemetry.Lib.LittleEndian

def bytes : Nat → Nat → List UInt8
  | 0, _ => []
  | k + 1, n => UInt8.ofNat n :: bytes k (n / 256)

def value : List UInt8 → Nat
  | [] => 0
  | b :: bs => b.toNat + 256 * value bs

def slice (bs : List UInt8) (lo hi : Nat) : List UInt8 := (bs.drop lo).take (hi - lo)

@[simp] theorem bytes_length (k n : Nat) : (bytes k n).length = k := by
  induction k generalizing n with
  | zero => rfl
  | succ k ih => simp [bytes, ih]

theorem value_bytes (k n : Nat) : value (bytes k n) = n % 256 ^ k := by
  induction k generalizing n with
  | zero => simp [bytes, value, Nat.mod_one]
  | succ k ih =>
    simp only [bytes, value, ih, UInt8.toNat_ofNat']
    show n % 256 + 256 * (n / 256 % 256 ^ k) = n % 256 ^ (k + 1)
    rw [Nat.pow_succ', Nat.mod_mul]

theorem value_bytes_of_lt {k n : Nat} (h : n < 256 ^ k) : value (bytes k n) = n := by
  rw [value_bytes, Nat.mod_eq_of_lt h]

theorem bytes_inj {k m n : Nat} (hm : m < 256 ^ k) (hn : n < 256 ^ k) : bytes k m = bytes k n ↔ m = n := by
  refine ⟨fun h => ?_, fun h => h ▸ rfl⟩
  have hvalue := congrArg value h
  rwa [value_bytes_of_lt hm, value_bytes_of_lt hn] at hvalue

theorem value_lt {bs : List UInt8} {k : Nat} (h : bs.length ≤ k) : value bs < 256 ^ k := by
  induction bs generalizing k with
  | nil => exact Nat.pow_pos (by decide)
  | cons b bs ih =>
    obtain ⟨k, rfl⟩ : ∃ m, k = m + 1 := ⟨k - 1, by simp at h; omega⟩
    have hrest := ih (k := k) (by simpa using h)
    have hb := b.toNat_lt
    rw [value, Nat.pow_succ]
    omega

theorem slice_append {pre field post : List UInt8} {lo hi : Nat} (hlo : pre.length = lo)
    (hhi : lo + field.length = hi) : slice (pre ++ (field ++ post)) lo hi = field := by
  subst hlo hhi
  simp [slice]

/-! ## The order of a machine -/

inductive Order where
  | little
  | big
  deriving DecidableEq, Repr

def Order.bytes : Order → Nat → Nat → List UInt8
  | .little, k, n => LittleEndian.bytes k n
  | .big, k, n => (LittleEndian.bytes k n).reverse

def Order.value : Order → List UInt8 → Nat
  | .little, bs => LittleEndian.value bs
  | .big, bs => LittleEndian.value bs.reverse

@[simp] theorem Order.bytes_length (o : Order) (k n : Nat) : (o.bytes k n).length = k := by
  cases o <;> simp [Order.bytes]

theorem Order.value_bytes_of_lt (o : Order) {k n : Nat} (h : n < 256 ^ k) : o.value (o.bytes k n) = n := by
  cases o with
  | little => exact LittleEndian.value_bytes_of_lt h
  | big =>
    show LittleEndian.value (LittleEndian.bytes k n).reverse.reverse = n
    rw [List.reverse_reverse, LittleEndian.value_bytes_of_lt h]

end EliteTelemetry.Lib.LittleEndian
