/-
  EliteTelemetry.Lib.StableSort — looking for the first element of a sorted list.

  A search that sorts a list, keeps the order of those that are equally good, and then takes
  the first element with a property, takes the best of those that have it, and of several the
  one that stood first (`First`, `find?_sliceStable_eq_some_iff`).
-/

import Mathlib.Data.List.Sort

namespace EliteTelemetry.Lib.StableSort

variable {α : Type}

def sliceStable (less : α → α → Prop) [DecidableRel less] (l : List α) : List α :=
  l.insertionSort fun a b => ¬less b a

/-- What `sort` asks of `less`: to be equally good is an equivalence. -/
structure StrictWeak (less : α → α → Prop) : Prop where
  asymm : ∀ a b, less a b → ¬less b a
  trans : ∀ a b c, ¬less b a → ¬less c b → ¬less c a

/-- The best of the elements with the property: those before it are worse, and those behind it
    are not better. -/
def First (less : α → α → Prop) (p : α → Prop) (l : List α) (a : α) : Prop :=
  ∃ before after, l = before ++ a :: after ∧ p a ∧ (∀ b ∈ before, p b → less a b) ∧ ∀ b ∈ after, p b → ¬less b a

variable {less : α → α → Prop} {p : α → Prop} {l : List α} {a b : α}

/-! ## The first element -/

theorem First.mem (h : First less p l a) : a ∈ l := by
  obtain ⟨before, after, rfl, -⟩ := h
  simp

theorem First.holds (h : First less p l a) : p a := by
  obtain ⟨_, _, -, ha, -⟩ := h
  exact ha

theorem First.not_less (hless : StrictWeak less) (h : First less p l a) (hb : b ∈ l) (hp : p b) : ¬less b a := by
  obtain ⟨before, after, rfl, -, hbefore, hafter⟩ := h
  rcases List.mem_append.mp hb with hb | hb
  · exact hless.asymm _ _ (hbefore b hb hp)
  · rcases List.mem_cons.mp hb with rfl | hb
    · exact fun hself => hless.asymm _ _ hself hself
    · exact hafter b hb hp

theorem first_cons_iff {x : α} :
    First less p (x :: l) a ↔
      (x = a ∧ p x ∧ ∀ b ∈ l, p b → ¬less b x) ∨ (First less p l a ∧ (p x → less a x)) := by
  constructor
  · intro ⟨before, after, hl, ha, hbefore, hafter⟩
    cases before with
    | nil =>
      obtain ⟨rfl, rfl⟩ := List.cons.inj hl
      exact .inl ⟨rfl, ha, hafter⟩
    | cons y before =>
      obtain ⟨rfl, rfl⟩ := List.cons.inj hl
      exact .inr ⟨⟨before, after, rfl, ha, fun b hb => hbefore b (List.mem_cons_of_mem _ hb), hafter⟩,
        hbefore x List.mem_cons_self⟩
  · intro h
    rcases h with ⟨rfl, ha, hafter⟩ | ⟨⟨before, after, rfl, ha, hbefore, hafter⟩, hx⟩
    · exact ⟨[], l, rfl, ha, by simp, hafter⟩
    · refine ⟨x :: before, after, rfl, ha, fun b hb hp => ?_, hafter⟩
      rcases List.mem_cons.mp hb with rfl | hb
      · exact hx hp
      · exact hbefore b hb hp

theorem First.unique (h : First less p l a) (h' : First less p l b) : a = b := by
  induction l with
  | nil => exact absurd h.mem (by simp)
  | cons x l ih =>
    rcases first_cons_iff.mp h with ⟨rfl, hx, hrest⟩ | ⟨hl, hworse⟩
    · rcases first_cons_iff.mp h' with ⟨rfl, -⟩ | ⟨hl', hworse'⟩
      · rfl
      · exact absurd (hworse' hx) (hrest b hl'.mem hl'.holds)
    · rcases first_cons_iff.mp h' with ⟨rfl, hx, hrest⟩ | ⟨hl', -⟩
      · exact absurd (hworse hx) (hrest a hl.mem hl.holds)
      · exact ih hl hl'

/-- Of a part of the list: the first of the elements that are also in the part. -/
theorem first_filter_iff {q : α → Bool} :
    First less p (l.filter q) a ↔ First less (fun x => q x = true ∧ p x) l a := by
  induction l with
  | nil => exact ⟨fun h => absurd h.mem (by simp), fun h => absurd h.mem (by simp)⟩
  | cons x l ih =>
    by_cases hq : q x = true
    · rw [List.filter_cons_of_pos hq, first_cons_iff, first_cons_iff, ih]
      simp [hq, and_imp]
    · rw [List.filter_cons_of_neg hq, ih, first_cons_iff]
      simp [hq]

/-! ## Searching -/

/-- What an insertion changes for a search: the new element is found if it has the property and
    what was found does not go before it. -/
theorem find?_orderedInsert {r : α → α → Prop} [DecidableRel r] (htrans : ∀ a b c, r a b → r b c → r a c)
    (found : α → Bool) (x : α) {s : List α} (hs : s.Pairwise r) :
    (s.orderedInsert r x).find? found =
      if found x = true ∧ ∀ b, s.find? found = some b → r x b then some x else s.find? found := by
  induction s with
  | nil => by_cases hx : found x = true <;> simp [hx]
  | cons y s ih =>
    obtain ⟨hy, hs⟩ := List.pairwise_cons.mp hs
    by_cases hxy : r x y
    · rw [List.orderedInsert_cons_of_le r s hxy]
      have hall : ∀ b, (y :: s).find? found = some b → r x b := by
        intro b hb
        rcases List.mem_cons.mp (List.mem_of_find?_eq_some hb) with rfl | hb
        · exact hxy
        · exact htrans _ _ _ hxy (hy b hb)
      by_cases hx : found x = true
      · rw [List.find?_cons_of_pos hx, if_pos ⟨hx, hall⟩]
      · rw [List.find?_cons_of_neg hx, if_neg fun h => hx h.1]
    · rw [List.orderedInsert_of_not_le r s hxy]
      by_cases hfound : found y = true
      · rw [List.find?_cons_of_pos hfound, List.find?_cons_of_pos hfound, if_neg]
        exact fun h => hxy (h.2 y rfl)
      · rw [List.find?_cons_of_neg hfound, List.find?_cons_of_neg hfound, ih hs]

variable [DecidableRel less]

theorem mem_sliceStable : a ∈ sliceStable less l ↔ a ∈ l := List.mem_insertionSort _

theorem pairwise_sliceStable (hless : StrictWeak less) (l : List α) :
    (sliceStable less l).Pairwise fun a b => ¬less b a := by
  have : Std.Total fun a b => ¬less b a := by
    refine ⟨fun a b => ?_⟩
    by_cases h : less b a
    · exact .inr (hless.asymm _ _ h)
    · exact .inl h
  have : IsTrans α fun a b => ¬less b a := ⟨hless.trans⟩
  exact List.pairwise_insertionSort _ l

variable {found : α → Bool}

theorem first_of_find? (hless : StrictWeak less) (h : (sliceStable less l).find? found = some a) :
    First less (found · = true) l a := by
  induction l generalizing a with
  | nil => exact absurd h (by simp [sliceStable])
  | cons x l ih =>
    have hinsert : (sliceStable less (x :: l)).find? found = _ :=
      find?_orderedInsert hless.trans found x (pairwise_sliceStable hless l)
    rw [hinsert] at h
    rw [first_cons_iff]
    split at h
    · next hx =>
      obtain rfl := Option.some.inj h
      refine .inl ⟨rfl, hx.1, fun b hb hp => ?_⟩
      -- what was found is not better than `x`, and nothing is better than what was found
      cases hfind : (sliceStable less l).find? found with
      | none => exact absurd hp (List.find?_eq_none.mp hfind b (mem_sliceStable.mpr hb))
      | some c => exact hless.trans _ _ _ (hx.2 c hfind) ((ih hfind).not_less hless hb hp)
    · next hx =>
      refine .inr ⟨ih h, fun hp => ?_⟩
      by_contra hnot
      refine hx ⟨hp, fun b hb => ?_⟩
      obtain rfl := Option.some.inj (h.symm.trans hb)
      exact hnot

/-- The search in the sorted list finds the best element with the property. -/
theorem find?_sliceStable_eq_some_iff (hless : StrictWeak less) :
    (sliceStable less l).find? found = some a ↔ First less (found · = true) l a := by
  refine ⟨first_of_find? hless, fun h => ?_⟩
  cases hfind : (sliceStable less l).find? found with
  | none => exact absurd h.holds (List.find?_eq_none.mp hfind a (mem_sliceStable.mpr h.mem))
  | some b => rw [(first_of_find? hless hfind).unique h]

end EliteTelemetry.Lib.StableSort
