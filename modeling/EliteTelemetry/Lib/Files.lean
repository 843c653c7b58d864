/-
  EliteTelemetry.Lib.Files — files with contents, and operations on them that may fail.

  A file system is the contents of each path, if there is a file. Every operation comes with
  what goes wrong in it; it also fails where the file it needs is not there. A copy opens
  its source, truncates its destination and writes; it may fail after any number of bytes,
  and then the destination holds just these.
-/

import Mathlib.Logic.Function.Basic

namespace EliteTelemetry.Lib.Files

abbrev Bytes := List UInt8

variable {P : Type} [DecidableEq P]

abbrev FS (P : Type) := P → Option Bytes

inductive CopyFault where
  | none
  | openSrc
  | openDst
  /-- The copy fails after this many bytes. -/
  | write (n : Nat)
  deriving DecidableEq, Repr

def remove (fault : Bool) (p : P) (fs : FS P) : FS P := if fault then fs else Function.update fs p none

/-- Whether it succeeded, and the files after it. A rename of a file to itself does nothing. -/
def rename (fault : Bool) (a b : P) (fs : FS P) : Bool × FS P :=
  if fault || (fs a).isNone then (false, fs)
  else if a = b then (true, fs)
  else (true, Function.update (Function.update fs b (fs a)) a none)

/-- Whether it succeeded, and the files after it. A file copied to itself is read after it has
    been truncated. -/
def copyFile (fault : CopyFault) (a b : P) (fs : FS P) : Bool × FS P :=
  if (fs a).isNone then (false, fs)
  else
    let data := if a = b then [] else (fs a).getD []
    match fault with
    | .openSrc => (false, fs)
    | .openDst => (false, fs)
    | .write n => (false, Function.update fs b (some (data.take n)))
    | .none => (true, Function.update fs b (some data))

inductive WriteFault where
  | none
  | opening
  /-- The write fails after this many bytes. -/
  | write (n : Nat)
  deriving DecidableEq, Repr

def writeFile (fault : WriteFault) (p : P) (data : Bytes) (fs : FS P) : Bool × FS P :=
  match fault with
  | .none => (true, Function.update fs p (some data))
  | .opening => (false, fs)
  | .write n => (false, Function.update fs p (some (data.take n)))

def CopyFault.opens : CopyFault → Bool
  | .openSrc => false
  | .openDst => false
  | .write _ => true
  | .none => true

variable {data : Bytes} {p : P}

section Lemmas

variable {fs : FS P} {a b : P}

theorem remove_of_ne (fault : Bool) (h : a ≠ p) : remove fault p fs a = fs a := by
  unfold remove
  split
  · rfl
  · exact Function.update_of_ne h _ _

theorem remove_self (fault : Bool) (p : P) : remove fault p fs p = if fault then fs p else none := by
  unfold remove
  split
  · rfl
  · exact Function.update_self _ _ _

theorem rename_ok (ha : fs a = some data) (hab : a ≠ b) :
    rename false a b fs = (true, Function.update (Function.update fs b (some data)) a none) := by
  simp [rename, ha, hab]

theorem rename_self (ha : fs a = some data) : rename false a a fs = (true, fs) := by
  simp [rename, ha]

theorem rename_fault (a b : P) (fs : FS P) : rename true a b fs = (false, fs) := by simp [rename]

theorem rename_fails {fault : Bool} (h : (rename fault a b fs).1 = false) : (rename fault a b fs).2 = fs := by
  unfold rename at h ⊢
  split
  · rfl
  · next hgo =>
    rw [if_neg hgo] at h
    split at h <;> cases h

theorem rename_missing (fault : Bool) (ha : fs a = none) : rename fault a b fs = (false, fs) := by simp [rename, ha]

theorem writeFile_of_ne (fault : WriteFault) (h : a ≠ p) (data : Bytes) : (writeFile fault p data fs).2 a = fs a := by
  cases fault with
  | none => exact Function.update_of_ne h _ _
  | opening => rfl
  | write n => exact Function.update_of_ne h _ _

theorem writeFile_succeeds {fault : WriteFault} (h : (writeFile fault p data fs).1 = true) :
    (writeFile fault p data fs).2 = Function.update fs p (some data) := by
  cases fault with
  | none => rfl
  | opening => cases h
  | write n => cases h

theorem copyFile_missing (fault : CopyFault) (ha : fs a = none) : copyFile fault a b fs = (false, fs) := by
  simp [copyFile, ha]

theorem copyFile_ok (ha : fs a = some data) (hab : a ≠ b) :
    copyFile .none a b fs = (true, Function.update fs b (some data)) := by
  simp [copyFile, ha, hab]

theorem copyFile_write (n : Nat) (ha : fs a = some data) (hab : a ≠ b) :
    copyFile (.write n) a b fs = (false, Function.update fs b (some (data.take n))) := by
  simp [copyFile, ha, hab]

theorem copyFile_unopened {fault : CopyFault} (h : fault.opens = false) (a b : P) (fs : FS P) :
    copyFile fault a b fs = (false, fs) := by
  unfold copyFile
  split
  · rfl
  · cases fault with
    | openSrc => rfl
    | openDst => rfl
    | write n => cases h
    | none => cases h

theorem copyFile_of_ne (fault : CopyFault) (h : p ≠ b) : (copyFile fault a b fs).2 p = fs p := by
  unfold copyFile
  split
  · rfl
  · cases fault <;> simp [h]

theorem copyFile_fst (fault : CopyFault) (ha : fs a = some data) :
    (copyFile fault a b fs).1 = true ↔ fault = .none := by
  cases fault <;> simp [copyFile, ha]

end Lemmas

end EliteTelemetry.Lib.Files
