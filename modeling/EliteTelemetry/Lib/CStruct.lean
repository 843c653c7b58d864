/-
  EliteTelemetry.Lib.CStruct — a C struct of integer members as bytes in memory.

  Each member stands at the next multiple of its width, and zeros fill the gaps. `layout` is
  the struct as a whole. `put` writes bytes over others, as a program does that fills in a
  struct by offsets: at the offset of a member it changes that member (`put_layout`), and
  there the member is read (`slice_layout`). A struct of zeros filled in from the left is the
  sequence of what was written (`put_behind`, `put_zeros`).
-/

import EliteTelemetry.Lib.LittleEndian

namespace EliteTelemetry.Lib.CStruct

open EliteTelemetry.Lib.LittleEndian

/-- An integer member: its width in bytes, which is its alignment too, and its value. -/
structure Member where
  width : Nat
  value : Nat
  deriving DecidableEq, Repr

/-- The bytes left free before a member of width `w` where `start` bytes precede. -/
def gap (start w : Nat) : Nat := (w - start % w) % w

def place : Nat → List Member → List UInt8
  | _, [] => []
  | start, m :: ms =>
    List.replicate (gap start m.width) 0 ++ (bytes m.width m.value ++ place (start + gap start m.width + m.width) ms)

/-- Where the member at position `i` stands, counted from `start`, by the widths of all. -/
def offset : Nat → List Nat → Nat → Nat
  | _, [], _ => 0
  | start, w :: _, 0 => gap start w
  | start, w :: ws, i + 1 => gap start w + w + offset (start + gap start w + w) ws i

def layout (ms : List Member) : List UInt8 :=
  place 0 ms ++ List.replicate (gap (place 0 ms).length ((ms.map (·.width)).foldr max 1)) 0

def put (bs : List UInt8) (at' : Nat) (new : List UInt8) : List UInt8 :=
  bs.take at' ++ (new ++ bs.drop (at' + new.length))

/-! ## Filling in by offsets -/

theorem put_behind {pre post new : List UInt8} {at' : Nat} (h : pre.length ≤ at') :
    put (pre ++ post) at' new = pre ++ put post (at' - pre.length) new := by
  have hdrop : at' + new.length - pre.length = at' - pre.length + new.length := by omega
  unfold put
  rw [List.take_append, List.take_of_length_le h, List.drop_append, List.drop_of_length_le (by omega), hdrop]
  simp

theorem put_zeros {new : List UInt8} {n at' : Nat} (h : at' ≤ n) :
    put (List.replicate n 0) at' new =
      List.replicate at' 0 ++ (new ++ List.replicate (n - (at' + new.length)) 0) := by
  unfold put
  rw [List.take_replicate, Nat.min_eq_left h, List.drop_replicate]

/-! ## A member in its place -/

variable {ms : List Member} {m : Member} {i : Nat}

theorem place_cut (start : Nat) (h : ms[i]? = some m) :
    ∃ pre post, pre.length = offset start (ms.map (·.width)) i ∧
      ∀ v, place start (ms.set i ⟨m.width, v⟩) = pre ++ (bytes m.width v ++ post) := by
  induction ms generalizing start i with
  | nil => simp at h
  | cons first rest ih =>
    cases i with
    | zero =>
      obtain rfl : first = m := by simpa using h
      refine ⟨List.replicate (gap start first.width) 0, place (start + gap start first.width + first.width) rest, ?_, ?_⟩
      · simp [offset]
      · intro v
        rfl
    | succ i =>
      obtain ⟨pre, post, hpre, hcut⟩ :=
        ih (start + gap start first.width + first.width) (i := i) (by simpa using h)
      refine ⟨List.replicate (gap start first.width) 0 ++ (bytes first.width first.value ++ pre), post, ?_, ?_⟩
      · simp [offset, hpre, Nat.add_assoc]
      · intro v
        simp only [List.set_cons_succ, place, hcut, List.append_assoc]

theorem set_self (h : ms[i]? = some m) : ms.set i ⟨m.width, m.value⟩ = ms := by
  obtain ⟨hi, rfl⟩ := List.getElem?_eq_some_iff.mp h
  exact List.set_getElem_self hi

theorem width_set (h : ms[i]? = some m) (v : Nat) : (ms.set i ⟨m.width, v⟩).map (·.width) = ms.map (·.width) := by
  have hself := congrArg (List.map (·.width)) (set_self h)
  rw [List.map_set] at hself
  rw [List.map_set, hself]

theorem layout_cut (h : ms[i]? = some m) :
    ∃ pre post, pre.length = offset 0 (ms.map (·.width)) i ∧
      ∀ v, layout (ms.set i ⟨m.width, v⟩) = pre ++ (bytes m.width v ++ post) := by
  obtain ⟨pre, post, hpre, hcut⟩ := place_cut 0 h
  have hlen : ∀ v, (place 0 (ms.set i ⟨m.width, v⟩)).length = (place 0 ms).length := by
    intro v
    have hself := hcut m.value
    rw [set_self h] at hself
    rw [hcut, hself]
    simp
  refine ⟨pre, post ++ List.replicate (gap (place 0 ms).length ((ms.map (·.width)).foldr max 1)) 0, hpre, fun v => ?_⟩
  unfold layout
  rw [hlen, width_set h, hcut]
  simp only [List.append_assoc]

/-- Bytes written at the offset of a member are that member's new value. -/
theorem put_layout (h : ms[i]? = some m) (v : Nat) :
    put (layout ms) (offset 0 (ms.map (·.width)) i) (bytes m.width v) = layout (ms.set i ⟨m.width, v⟩) := by
  obtain ⟨pre, post, hpre, hcut⟩ := layout_cut h
  have hself := hcut m.value
  rw [set_self h] at hself
  rw [hself, hcut, ← hpre]
  simp [put]

theorem slice_layout (h : ms[i]? = some m) :
    slice (layout ms) (offset 0 (ms.map (·.width)) i) (offset 0 (ms.map (·.width)) i + m.width) =
      bytes m.width m.value := by
  obtain ⟨pre, post, hpre, hcut⟩ := layout_cut h
  have hself := hcut m.value
  rw [set_self h] at hself
  rw [hself]
  exact slice_append hpre (by simp)

end EliteTelemetry.Lib.CStruct
