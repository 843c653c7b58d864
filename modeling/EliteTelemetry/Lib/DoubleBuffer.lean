/-
  EliteTelemetry.Lib.DoubleBuffer — two slots with one writer and any number of readers.

  The writer fills the slot that is not current, one field at a time, and then makes it current.
  A reader takes note of which slot is current and copies it, one field at a time, while the
  writer goes on. Nothing keeps the writer off a slot that is being copied: the next value goes
  to the other slot, the one after that to this one again.

  So a reader gets the value that was current when it began, whole, if no more than one write
  has been begun since (`Inv.copied_whole`), whatever the order of the steps.
-/

import Mathlib.Logic.Function.Basic

namespace EliteTelemetry.Lib.DoubleBuffer

structure Fields (F S : Type) where
  all : List F
  /-- The second value with a field of the first. -/
  copy : F → S → S → S
  /-- Two values have the same field. -/
  Agree : F → S → S → Prop
  agree_copy : ∀ f src dst, Agree f (copy f src dst) src
  agree_copy_of_ne : ∀ f g src dst x, g ≠ f → Agree g dst x → Agree g (copy f src dst) x
  eq_of_agree : ∀ a b, (∀ f ∈ all, Agree f a b) → a = b

inductive Reader (F S : Type) where
  | idle
  /-- It copies a slot that held the value number `nr` when it began, and has these fields left. -/
  | copying (slot : Bool) (nr : Nat) (copied : S) (left : List F)
  deriving DecidableEq, Repr

structure Buffer (F S : Type) where
  slots : Bool → S
  idx : Bool
  /-- The value that is being written, and the fields left. -/
  writer : Option (S × List F)
  readers : Nat → Reader F S
  published : List S

inductive Read (F : Type) where
  | load
  | field (f : F)
  | finish

inductive Step (F S : Type) where
  | beginWrite (s : S)
  | writeField (f : F)
  | publish
  | read (r : Nat) (e : Read F)

namespace Buffer

variable {F S : Type}

def start (first : S) : Buffer F S := ⟨fun _ => first, false, none, fun _ => .idle, []⟩

def values (first : S) (b : Buffer F S) : List S := first :: b.published

def begun (b : Buffer F S) : Nat := b.published.length + if b.writer.isSome then 1 else 0

def setReader (b : Buffer F S) (r : Nat) (reader : Reader F S) : Buffer F S :=
  { b with readers := Function.update b.readers r reader }

variable [DecidableEq F]

def readStep (fields : Fields F S) (blank : S) (b : Buffer F S) : Reader F S → Read F → Option (Reader F S)
  | .idle, .load => some (.copying b.idx b.published.length blank fields.all)
  | .copying slot nr copied left, .field f =>
    if f ∈ left then some (.copying slot nr (fields.copy f (b.slots slot) copied) (left.erase f)) else none
  | .copying _ _ _ [], .finish => some .idle
  | _, _ => none

def step (fields : Fields F S) (blank : S) (b : Buffer F S) : Step F S → Option (Buffer F S)
  | .beginWrite s =>
    match b.writer with
    | none => some { b with writer := some (s, fields.all) }
    | some _ => none
  | .writeField f =>
    match b.writer with
    | some (s, left) =>
      if f ∈ left then
        some { b with
          slots := Function.update b.slots (!b.idx) (fields.copy f s (b.slots (!b.idx))),
          writer := some (s, left.erase f) }
      else none
    | none => none
  | .publish =>
    match b.writer with
    | some (s, []) => some { b with idx := !b.idx, writer := none, published := b.published ++ [s] }
    | _ => none
  | .read r e => (b.readStep fields blank (b.readers r) e).map (b.setReader r)

/-! ## The invariant -/

variable {fields : Fields F S} {first blank : S} {b b' : Buffer F S}

/-- A copy is good so far: its slot still holds the value it held at first, and what has been copied is
    of it. -/
structure Good (fields : Fields F S) (first : S) (b : Buffer F S) (slot : Bool) (nr : Nat) (copied : S)
    (left : List F) : Prop where
  slot_eq : slot = if b.published.length = nr then b.idx else !b.idx
  value : (b.values first)[nr]? = some (b.slots slot)
  agree : ∀ f ∈ fields.all, f ∉ left → fields.Agree f copied (b.slots slot)

structure Inv (fields : Fields F S) (first : S) (b : Buffer F S) : Prop where
  current : (b.values first)[b.published.length]? = some (b.slots b.idx)
  written : ∀ s left, b.writer = some (s, left) → ∀ f ∈ fields.all, f ∉ left → fields.Agree f (b.slots (!b.idx)) s
  reading : ∀ r slot nr copied left, b.readers r = .copying slot nr copied left →
    nr ≤ b.published.length ∧ (b.begun ≤ nr + 1 → Good fields first b slot nr copied left)

omit [DecidableEq F] in
theorem inv_start : Inv fields first (start first) where
  current := rfl
  written := by
    intro s left h
    cases h
  reading := by
    intro r slot nr copied left h
    cases h

omit [DecidableEq F] in
theorem Inv.beginWrite (h : Inv fields first b) (hw : b.writer = none) (s : S) :
    Inv fields first { b with writer := some (s, fields.all) } where
  current := h.current
  written := by
    intro s' left heq f hf hleft
    obtain ⟨rfl, rfl⟩ : s = s' ∧ fields.all = left := by simpa using heq
    exact absurd hf hleft
  reading := by
    intro r slot nr copied left hr
    obtain ⟨hnr, hgood⟩ := h.reading r slot nr copied left hr
    refine ⟨hnr, fun hle => ?_⟩
    have hle' : b.begun ≤ nr + 1 := by
      simp only [begun, hw, Option.isSome_some, Option.isSome_none, if_true, Bool.false_eq_true, if_false] at hle ⊢
      omega
    obtain ⟨hslot, hvalue, hagree⟩ := hgood hle'
    exact ⟨hslot, hvalue, hagree⟩

theorem Inv.writeField (h : Inv fields first b) {s : S} {left : List F} (hw : b.writer = some (s, left)) (f : F) :
    Inv fields first { b with
      slots := Function.update b.slots (!b.idx) (fields.copy f s (b.slots (!b.idx))),
      writer := some (s, left.erase f) } where
  current := by
    have hne : b.idx ≠ !b.idx := by cases b.idx <;> decide
    show _ = some (Function.update b.slots (!b.idx) _ b.idx)
    rw [Function.update_of_ne hne]
    exact h.current
  written := by
    intro s' left' heq g hg hleft
    obtain ⟨rfl, rfl⟩ : s = s' ∧ left.erase f = left' := by simpa using heq
    show fields.Agree g (Function.update b.slots (!b.idx) _ (!b.idx)) s
    rw [Function.update_self]
    by_cases hgf : g = f
    · rw [hgf]
      exact fields.agree_copy f s _
    · refine fields.agree_copy_of_ne f g s _ s hgf (h.written s left hw g hg ?_)
      exact fun hmem => hleft ((List.mem_erase_of_ne hgf).mpr hmem)
  reading := by
    intro r slot nr copied left' hr
    obtain ⟨hnr, hgood⟩ := h.reading r slot nr copied left' hr
    refine ⟨hnr, fun hle => ?_⟩
    -- the write has been begun, so the reader's slot is the current one
    have hlen : b.published.length = nr := by
      simp only [begun, Option.isSome_some, if_true] at hle
      omega
    have hle' : b.begun ≤ nr + 1 := by
      simp only [begun, hw, Option.isSome_some, if_true]
      omega
    obtain ⟨hslot, hvalue, hagree⟩ := hgood hle'
    rw [if_pos hlen] at hslot
    have hsame : Function.update b.slots (!b.idx) (fields.copy f s (b.slots (!b.idx))) slot = b.slots slot := by
      refine Function.update_of_ne ?_ _ _
      rw [hslot]
      cases b.idx <;> decide
    refine ⟨by rw [hslot]; exact (if_pos hlen).symm, ?_, ?_⟩
    · show _ = some (Function.update b.slots (!b.idx) _ slot)
      rw [hsame]
      exact hvalue
    · show ∀ g ∈ fields.all, g ∉ left' → fields.Agree g copied (Function.update b.slots (!b.idx) _ slot)
      rw [hsame]
      exact hagree

omit [DecidableEq F] in
theorem Inv.publish (h : Inv fields first b) {s : S} (hw : b.writer = some (s, [])) :
    Inv fields first { b with idx := !b.idx, writer := none, published := b.published ++ [s] } where
  current := by
    have hslot : b.slots (!b.idx) = s :=
      fields.eq_of_agree _ _ fun f hf => h.written s [] hw f hf List.not_mem_nil
    show (first :: (b.published ++ [s]))[(b.published ++ [s]).length]? = some (b.slots (!b.idx))
    rw [hslot]
    simp
  written := by
    intro s' left heq
    cases heq
  reading := by
    intro r slot nr copied left hr
    obtain ⟨hnr, hgood⟩ := h.reading r slot nr copied left hr
    refine ⟨Nat.le_trans hnr (by simp), fun hle => ?_⟩
    have hlen : b.published.length = nr := by
      simp only [begun, List.length_append, List.length_singleton] at hle
      omega
    have hle' : b.begun ≤ nr + 1 := by
      simp only [begun, hw, Option.isSome_some, if_true]
      omega
    obtain ⟨hslot, hvalue, hagree⟩ := hgood hle'
    rw [if_pos hlen] at hslot
    refine ⟨?_, ?_, hagree⟩
    · show slot = if (b.published ++ [s]).length = nr then !b.idx else !!b.idx
      rw [if_neg (by simp only [List.length_append, List.length_singleton]; omega), Bool.not_not, hslot]
    · show (first :: (b.published ++ [s]))[nr]? = _
      rw [← List.cons_append, List.getElem?_append_left (by simp only [List.length_cons]; omega)]
      exact hvalue

omit [DecidableEq F] in
theorem Inv.setReader (h : Inv fields first b) {r : Nat} {reader : Reader F S}
    (hreader : ∀ slot nr copied left, reader = .copying slot nr copied left →
      nr ≤ b.published.length ∧ (b.begun ≤ nr + 1 → Good fields first b slot nr copied left)) :
    Inv fields first (b.setReader r reader) where
  current := h.current
  written := h.written
  reading := by
    intro r' slot nr copied left hr'
    have hreading : nr ≤ b.published.length ∧ (b.begun ≤ nr + 1 → Good fields first b slot nr copied left) := by
      by_cases heq : r' = r
      · subst heq
        exact hreader slot nr copied left (by simpa [Buffer.setReader] using hr')
      · exact h.reading r' slot nr copied left (by simpa [Buffer.setReader, heq] using hr')
    refine ⟨hreading.1, fun hle => ?_⟩
    obtain ⟨hslot, hvalue, hagree⟩ := hreading.2 hle
    exact ⟨hslot, hvalue, hagree⟩

theorem Inv.readStep (h : Inv fields first b) {r nr : Nat} {e : Read F} {slot : Bool} {copied : S} {left : List F}
    (hread : b.readStep fields blank (b.readers r) e = some (.copying slot nr copied left)) :
    nr ≤ b.published.length ∧ (b.begun ≤ nr + 1 → Good fields first b slot nr copied left) := by
  unfold Buffer.readStep at hread
  split at hread
  · cases hread
    exact ⟨Nat.le_refl _, fun _ => ⟨(if_pos rfl).symm, h.current, fun f hf hleft => absurd hf hleft⟩⟩
  · rename_i slot nr copied left f hr
    split at hread
    · cases hread
      obtain ⟨hnr, hgood⟩ := h.reading r slot nr copied left hr
      refine ⟨hnr, fun hle => ?_⟩
      obtain ⟨hslot, hvalue, hagree⟩ := hgood hle
      refine ⟨hslot, hvalue, fun g hg hleft => ?_⟩
      by_cases hgf : g = f
      · rw [hgf]
        exact fields.agree_copy f _ _
      · refine fields.agree_copy_of_ne f g _ _ _ hgf (hagree g hg ?_)
        exact fun hmem => hleft ((List.mem_erase_of_ne hgf).mpr hmem)
    · cases hread
  · cases hread
  · cases hread

theorem inv_step (b : Buffer F S) (e : Step F S) (b' : Buffer F S) (hstep : b.step fields blank e = some b')
    (h : Inv fields first b) : Inv fields first b' := by
  cases e with
  | beginWrite s =>
    simp only [step] at hstep
    split at hstep
    · rename_i hw
      cases hstep
      exact h.beginWrite hw s
    · cases hstep
  | writeField f =>
    simp only [step] at hstep
    split at hstep
    · rename_i s left hw
      split at hstep
      · cases hstep
        exact h.writeField hw f
      · cases hstep
    · cases hstep
  | publish =>
    simp only [step] at hstep
    split at hstep
    · rename_i s hw
      cases hstep
      exact h.publish hw
    · cases hstep
  | read r e =>
    obtain ⟨reader, hreader, rfl⟩ := Option.map_eq_some_iff.mp hstep
    refine h.setReader fun slot nr copied left heq => ?_
    subst heq
    exact h.readStep hreader

omit [DecidableEq F] in
/-- A reader that has copied every field has the value that was current when it began, if no more than
    one write has been begun since. -/
theorem Inv.copied_whole (h : Inv fields first b) {r nr : Nat} {slot : Bool} {copied : S}
    (hr : b.readers r = .copying slot nr copied []) (hle : b.begun ≤ nr + 1) :
    (b.values first)[nr]? = some copied := by
  obtain ⟨-, hvalue, hagree⟩ := (h.reading r slot nr copied [] hr).2 hle
  rw [hvalue, fields.eq_of_agree copied _ fun f hf => hagree f hf List.not_mem_nil]

end Buffer

end EliteTelemetry.Lib.DoubleBuffer
