/-
  EliteTelemetry.Lib.Fallible — loops over a list whose body may fail.

  A loop ends at the first failure. One that looks for an element and fails nowhere has come
  to such an element or been through all (`anyM_true`, `anyM_false`), and it finds any there
  is exactly if nothing fails before the first (`anyM_true_iff_failsLate`). One that collects
  fails nowhere exactly if its body does not (`exists_mapM_ok_iff`), and has then collected
  what the body gives (`forall_of_mapM_ok`).
-/

import Mathlib.Data.List.Basic

namespace EliteTelemetry.Lib.Fallible

variable {ε α β : Type}

theorem bind_ok {x : Except ε α} {f : α → Except ε β} {b : β} (h : (x >>= f) = .ok b) :
    ∃ a, x = .ok a ∧ f a = .ok b := by
  cases x with
  | error err => exact absurd h (by simp [bind, Except.bind])
  | ok a => exact ⟨a, rfl, h⟩

/-! ## Loops that look for an element -/

variable {l : List α} {f : α → Except ε Bool}

theorem anyM_cons {a : α} {b : Bool} (h : (a :: l).anyM f = .ok b) :
    f a = .ok true ∧ b = true ∨ f a = .ok false ∧ l.anyM f = .ok b := by
  rw [List.anyM] at h
  obtain ⟨c, hfa, hc⟩ := bind_ok h
  cases c with
  | true => exact .inl ⟨hfa, (Except.ok.inj hc).symm⟩
  | false => exact .inr ⟨hfa, hc⟩

theorem anyM_true (h : l.anyM f = .ok true) : ∃ a ∈ l, f a = .ok true := by
  induction l with
  | nil => exact absurd (Except.ok.inj h) (by simp)
  | cons a l ih =>
    rcases anyM_cons h with ⟨hfa, -⟩ | ⟨-, hrest⟩
    · exact ⟨a, by simp, hfa⟩
    · obtain ⟨x, hx, hfx⟩ := ih hrest
      exact ⟨x, by simp [hx], hfx⟩

theorem anyM_false (h : l.anyM f = .ok false) : ∀ a ∈ l, f a = .ok false := by
  induction l with
  | nil => simp
  | cons a l ih =>
    rcases anyM_cons h with ⟨-, habsurd⟩ | ⟨hfa, hrest⟩
    · exact absurd habsurd (by simp)
    · exact List.forall_mem_cons.mpr ⟨hfa, ih hrest⟩

theorem anyM_ok (h : ∀ a ∈ l, ∃ b, f a = .ok b) : ∃ b, l.anyM f = .ok b := by
  induction l with
  | nil => exact ⟨false, rfl⟩
  | cons a l ih =>
    obtain ⟨b, hfa⟩ := h a (by simp)
    rw [List.anyM, hfa]
    cases b with
    | true => exact ⟨true, rfl⟩
    | false => exact ih fun x hx => h x (by simp [hx])

/-- A loop whose body answers whether an element has a property answers whether one has. -/
theorem anyM_iff {p : α → Prop} {b : Bool} (hf : ∀ a ∈ l, ∀ b, f a = .ok b → (b = true ↔ p a)) (h : l.anyM f = .ok b) :
    b = true ↔ ∃ a ∈ l, p a := by
  cases b with
  | true =>
    obtain ⟨a, ha, hfa⟩ := anyM_true h
    exact iff_of_true rfl ⟨a, ha, (hf a ha true hfa).mp rfl⟩
  | false =>
    refine iff_of_false (by simp) fun hex => ?_
    obtain ⟨a, ha, hp⟩ := hex
    exact absurd ((hf a ha false (anyM_false h a ha)).mpr hp) (by simp)

/-- Nothing fails before the first element that is looked for. -/
def FailsLate (f : α → Except ε Bool) (l : List α) : Prop :=
  ∀ before a after, l = before ++ a :: after → f a = .ok true → (∀ x ∈ before, f x ≠ .ok true) →
    ∀ x ∈ before, f x = .ok false

theorem anyM_true_before {before rest : List α} (h : (before ++ rest).anyM f = .ok true)
    (hno : ∀ x ∈ before, f x ≠ .ok true) : ∀ x ∈ before, f x = .ok false := by
  induction before with
  | nil => simp
  | cons x before ih =>
    rw [List.forall_mem_cons] at hno
    rcases anyM_cons h with ⟨hx, -⟩ | ⟨hx, hrest⟩
    · exact absurd hx hno.1
    · exact List.forall_mem_cons.mpr ⟨hx, ih hrest hno.2⟩

theorem anyM_append_of_false {before : List α} (h : ∀ x ∈ before, f x = .ok false) (rest : List α) :
    (before ++ rest).anyM f = rest.anyM f := by
  induction before with
  | nil => rfl
  | cons x before ih =>
    rw [List.forall_mem_cons] at h
    rw [List.cons_append, List.anyM, h.1]
    exact ih h.2

open Classical in
/-- A loop answers yes whenever there is an element it looks for exactly if nothing fails
    before the first of them. -/
theorem anyM_true_iff_failsLate : (l.anyM f = .ok true ↔ ∃ a ∈ l, f a = .ok true) ↔ FailsLate f l := by
  constructor
  · intro h before a after hl hfa hno
    have hyes : (before ++ a :: after).anyM f = .ok true := hl ▸ h.mpr ⟨a, by simp [hl], hfa⟩
    exact anyM_true_before hyes hno
  · intro h
    refine ⟨anyM_true, fun hex => ?_⟩
    obtain ⟨b, hb⟩ : ∃ b, l.find? (fun x => f x = .ok true) = some b :=
      Option.isSome_iff_exists.mp (by simpa using hex)
    obtain ⟨hfb, before, after, rfl, hno⟩ := List.find?_eq_some_iff_append.mp hb
    have hpassed := h before b after rfl (by simpa using hfb) (by simpa using hno)
    rw [anyM_append_of_false hpassed, List.anyM, of_decide_eq_true hfb]
    rfl

/-! ## Loops that collect -/

theorem mapM_cons_ok {f : α → Except ε β} {a : α} {bs : List β} (h : (a :: l).mapM f = .ok bs) :
    ∃ b rest, f a = .ok b ∧ l.mapM f = .ok rest ∧ bs = b :: rest := by
  rw [List.mapM_cons] at h
  obtain ⟨b, hfa, hb⟩ := bind_ok h
  obtain ⟨rest, hrest, hbs⟩ := bind_ok hb
  exact ⟨b, rest, hfa, hrest, (Except.ok.inj hbs).symm⟩

theorem exists_mapM_ok_iff {f : α → Except ε β} : (∃ bs, l.mapM f = .ok bs) ↔ ∀ a ∈ l, ∃ b, f a = .ok b := by
  induction l with
  | nil => simp [pure, Except.pure]
  | cons a l ih =>
    rw [List.forall_mem_cons, ← ih]
    constructor
    · intro ⟨bs, h⟩
      obtain ⟨b, rest, hfa, hrest, -⟩ := mapM_cons_ok h
      exact ⟨⟨b, hfa⟩, rest, hrest⟩
    · intro ⟨⟨b, hfa⟩, rest, hrest⟩
      refine ⟨b :: rest, ?_⟩
      rw [List.mapM_cons, hfa, hrest]
      rfl

theorem forall_of_mapM_ok {f : α → Except ε β} {bs : List β} (h : l.mapM f = .ok bs) (p : β → Prop) :
    (∀ b ∈ bs, p b) ↔ ∀ a ∈ l, ∃ b, f a = .ok b ∧ p b := by
  induction l generalizing bs with
  | nil =>
    obtain rfl := Except.ok.inj h
    simp
  | cons a l ih =>
    obtain ⟨b, rest, hfa, hrest, rfl⟩ := mapM_cons_ok h
    rw [List.forall_mem_cons, List.forall_mem_cons, ih hrest, hfa]
    refine and_congr_left fun _ => ⟨fun hp => ⟨b, rfl, hp⟩, fun ⟨b', hb', hp⟩ => ?_⟩
    exact Except.ok.inj hb' ▸ hp

theorem getElem?_of_mapM_ok {f : α → Except ε β} {bs : List β} (h : l.mapM f = .ok bs) {k : Nat} {b : β}
    (hk : bs[k]? = some b) : ∃ a, l[k]? = some a ∧ f a = .ok b := by
  induction l generalizing bs k with
  | nil =>
    obtain rfl := Except.ok.inj h
    cases hk
  | cons a l ih =>
    obtain ⟨b', rest, hfa, hrest, rfl⟩ := mapM_cons_ok h
    cases k with
    | zero =>
      obtain rfl := Option.some.inj hk
      exact ⟨a, rfl, hfa⟩
    | succ k => exact ih hrest hk

theorem mapM_ok_self {f : α → Except ε α} (h : ∀ a ∈ l, f a = .ok a) : l.mapM f = .ok l := by
  induction l with
  | nil => rfl
  | cons a l ih =>
    rw [List.mapM_cons, h a (by simp), ih fun x hx => h x (by simp [hx])]
    rfl

end EliteTelemetry.Lib.Fallible
