/-
  EliteTelemetry.Lib.WorkList — loops that take the first item of a queue and append what it
  leads to, until the queue is empty.

  `drain` is such a loop with a bound on the items, which stops where an item cannot be
  expanded. A queue is drained exactly if its first item expands and the rest, with what the
  first leads to behind it, is drained (`drains_cons_iff`).

  Every item that is led to is taken in the end, for new items go behind the others. So the loop
  ends exactly if some item that is led to cannot be expanded, or no item of the queue leads on
  for ever (`ends_iff`).
-/

import Mathlib.Data.List.Basic
import Mathlib.Logic.Relation

namespace EliteTelemetry.Lib.WorkList

variable {α ε : Type} (expand : α → Except ε (List α))

/-- The items in the order they are taken; none where the bound is too low. -/
def drain : Nat → List α → Option (Except ε (List α))
  | _, [] => some (.ok [])
  | 0, _ :: _ => none
  | fuel + 1, a :: queue =>
    match expand a with
    | .error err => some (.error err)
    | .ok next => (drain fuel (queue ++ next)).map (·.map (a :: ·))

def Drains (queue items : List α) : Prop := ∃ fuel, drain expand fuel queue = some (.ok items)

variable {expand}

theorem drains_nil : Drains expand [] [] := ⟨0, rfl⟩

variable {queue items : List α} {a : α}

theorem drains_cons_iff :
    Drains expand (a :: queue) items ↔
      ∃ next rest, expand a = .ok next ∧ Drains expand (queue ++ next) rest ∧ items = a :: rest := by
  constructor
  · intro ⟨fuel, h⟩
    cases fuel with
    | zero => simp [drain] at h
    | succ fuel =>
      cases ha : expand a with
      | error err => simp [drain, ha] at h
      | ok next =>
        simp only [drain, ha, Option.map_eq_some_iff] at h
        obtain ⟨result, hrest, hmap⟩ := h
        cases result with
        | error err => simp [Except.map] at hmap
        | ok rest => exact ⟨next, rest, rfl, ⟨fuel, hrest⟩, (Except.ok.inj hmap).symm⟩
  · intro ⟨next, rest, ha, ⟨fuel, hrest⟩, hitems⟩
    refine ⟨fuel + 1, ?_⟩
    simp [drain, ha, hrest, hitems, Except.map]

theorem exists_drains_cons_iff {next : List α} (h : expand a = .ok next) :
    (∃ items, Drains expand (a :: queue) items) ↔ ∃ items, Drains expand (queue ++ next) items := by
  refine ⟨fun ⟨items, hdrains⟩ => ?_, fun ⟨items, hdrains⟩ => ⟨_, drains_cons_iff.mpr ⟨next, items, h, hdrains, rfl⟩⟩⟩
  obtain ⟨next', rest, hnext', hrest, -⟩ := drains_cons_iff.mp hdrains
  obtain rfl := Except.ok.inj (h.symm.trans hnext')
  exact ⟨rest, hrest⟩

theorem Drains.expands (h : Drains expand queue items) : ∀ a ∈ items, ∃ next, expand a = .ok next := by
  obtain ⟨fuel, hfuel⟩ := h
  induction items generalizing queue fuel with
  | nil => simp
  | cons first rest ih =>
    cases queue with
    | nil => simp [drain] at hfuel
    | cons a queue =>
      obtain ⟨next, rest', ha, ⟨fuel', hrest⟩, hitems⟩ := drains_cons_iff.mp ⟨fuel, hfuel⟩
      obtain ⟨rfl, rfl⟩ := List.cons.inj hitems
      exact List.forall_mem_cons.mpr ⟨⟨next, ha⟩, ih fuel' hrest⟩

theorem not_drains_of_error {err : ε} (h : expand a = .error err) : ¬Drains expand (a :: queue) items := by
  intro hdrains
  obtain ⟨next, -, ha, -⟩ := drains_cons_iff.mp hdrains
  rw [h] at ha
  cases ha

/-! ## When the loop ends -/

theorem drain_succ {fuel : Nat} {r : Except ε (List α)} (h : drain expand fuel queue = some r) :
    drain expand (fuel + 1) queue = some r := by
  induction fuel generalizing queue r with
  | zero =>
    cases queue with
    | nil => exact h
    | cons a queue => cases h
  | succ fuel ih =>
    cases queue with
    | nil => exact h
    | cons a queue =>
      unfold drain at h ⊢
      cases ha : expand a with
      | error err => simpa only [ha] using h
      | ok next =>
        simp only [ha, Option.map_eq_some_iff] at h ⊢
        obtain ⟨r', hr', rfl⟩ := h
        exact ⟨r', ih hr', rfl⟩

variable (expand) in
/-- The second item expands, and leads to the first. -/
def Leads (b a : α) : Prop := ∃ next, expand a = .ok next ∧ b ∈ next

variable (expand) in
def Reaches (a b : α) : Prop := Relation.ReflTransGen (fun a b => Leads expand b a) a b

variable (expand) in
def Ends (queue : List α) : Prop := ∃ fuel r, drain expand fuel queue = some r

theorem ends_of_error {err : ε} (h : expand a = .error err) (queue : List α) : Ends expand (a :: queue) :=
  ⟨1, .error err, by simp only [drain, h]⟩

theorem ends_of_ok {next : List α} (h : expand a = .ok next) (hends : Ends expand (queue ++ next)) :
    Ends expand (a :: queue) := by
  obtain ⟨fuel, r, hr⟩ := hends
  exact ⟨fuel + 1, r.map (a :: ·), by simp only [drain, h, hr, Option.map_some]⟩

/-- A queue ends if it ends from one of its items on, whatever is behind that. -/
theorem ends_of_mem (h : ∀ rest, Ends expand (a :: rest)) (ha : a ∈ queue) : Ends expand queue := by
  obtain ⟨before, rest, rfl⟩ := List.append_of_mem ha
  clear ha
  induction before generalizing rest with
  | nil => exact h rest
  | cons c before ih =>
    cases hc : expand c with
    | error err => exact ends_of_error hc _
    | ok next => exact ends_of_ok hc (by simpa using ih (rest ++ next))

theorem ends_of_fails {b : α} (h : Reaches expand a b) (hb : ∀ next, expand b ≠ .ok next) (ha : a ∈ queue) :
    Ends expand queue := by
  induction h using Relation.ReflTransGen.head_induction_on generalizing queue with
  | refl =>
    cases hb' : expand b with
    | error err => exact ends_of_mem (ends_of_error hb') ha
    | ok next => exact absurd hb' (hb next)
  | head hstep _ ih =>
    obtain ⟨next, hnext, hmem⟩ := hstep
    exact ends_of_mem (fun rest => ends_of_ok hnext (ih (List.mem_append_right rest hmem))) ha

/-- A list of items may be put behind a queue that ends if each of them may be put anywhere. -/
theorem ends_append {next : List α}
    (h : ∀ b ∈ next, ∀ front back, Ends expand (front ++ back) → Ends expand (front ++ b :: back))
    (hqueue : Ends expand queue) : Ends expand (queue ++ next) := by
  induction next with
  | nil => simpa using hqueue
  | cons b next ih => exact h b List.mem_cons_self queue next (ih fun c hc => h c (List.mem_cons_of_mem b hc))

/-- An item that does not lead on for ever may be put anywhere into a queue that ends. -/
theorem ends_insert (hacc : Acc (Leads expand) a) :
    ∀ front back, Ends expand (front ++ back) → Ends expand (front ++ a :: back) := by
  induction hacc with
  | intro a _ ih =>
    intro front back h
    obtain ⟨fuel, r, hr⟩ := h
    -- the item waits for those before it
    induction front generalizing fuel back r with
    | nil =>
      cases ha : expand a with
      | error err => exact ends_of_error ha back
      | ok next => exact ends_of_ok ha (ends_append (fun b hb => ih b ⟨next, ha, hb⟩) ⟨fuel, r, hr⟩)
    | cons c front ih' =>
      cases hc : expand c with
      | error err => exact ends_of_error hc _
      | ok next =>
        cases fuel with
        | zero => cases hr
        | succ fuel =>
          simp only [List.cons_append, drain, hc, Option.map_eq_some_iff, List.append_assoc] at hr
          obtain ⟨r', hr', -⟩ := hr
          exact ends_of_ok hc (by simpa using ih' (back ++ next) fuel r' hr')

theorem ends_of_acc (h : ∀ a ∈ queue, Acc (Leads expand) a) : Ends expand queue := by
  have hnil : Ends expand [] := ⟨0, .ok [], rfl⟩
  exact ends_append (fun b hb => ends_insert (h b hb)) hnil

theorem acc_of_drains (h : Drains expand queue items) : ∀ a ∈ queue, Acc (Leads expand) a := by
  induction items generalizing queue with
  | nil =>
    cases queue with
    | nil => simp
    | cons a queue =>
      obtain ⟨_, _, _, _, hitems⟩ := drains_cons_iff.mp h
      cases hitems
  | cons first rest ih =>
    cases queue with
    | nil => simp
    | cons a queue =>
      obtain ⟨next, rest', hnext, hrest, hitems⟩ := drains_cons_iff.mp h
      obtain ⟨rfl, rfl⟩ := List.cons.inj hitems
      have hall := ih hrest
      refine List.forall_mem_cons.mpr ⟨⟨first, fun b hb => ?_⟩, fun b hb => hall b (List.mem_append_left next hb)⟩
      obtain ⟨next', hnext', hmem⟩ := hb
      obtain rfl := Except.ok.inj (hnext.symm.trans hnext')
      exact hall b (List.mem_append_right queue hmem)

theorem reaches_of_error {fuel : Nat} {err : ε} (h : drain expand fuel queue = some (.error err)) :
    ∃ a ∈ queue, ∃ b, Reaches expand a b ∧ ∀ next, expand b ≠ .ok next := by
  induction fuel generalizing queue with
  | zero => cases queue <;> simp [drain] at h
  | succ fuel ih =>
    cases queue with
    | nil => simp [drain] at h
    | cons a queue =>
      cases ha : expand a with
      | error err' =>
        refine ⟨a, List.mem_cons_self, a, .refl, fun next hnext => ?_⟩
        rw [ha] at hnext
        cases hnext
      | ok next =>
        simp only [drain, ha, Option.map_eq_some_iff] at h
        obtain ⟨result, hrest, hmap⟩ := h
        cases result with
        | ok rest => simp [Except.map] at hmap
        | error err' =>
          obtain rfl := Except.error.inj hmap
          obtain ⟨b, hb, c, hc, hfails⟩ := ih hrest
          rcases List.mem_append.mp hb with hb | hb
          · exact ⟨b, List.mem_cons_of_mem a hb, c, hc, hfails⟩
          · exact ⟨a, List.mem_cons_self, c, .head ⟨next, ha, hb⟩ hc, hfails⟩

/-- The loop ends exactly if some item that is led to fails, or no item of the queue leads on for ever. -/
theorem ends_iff :
    Ends expand queue ↔
      (∃ a ∈ queue, ∃ b, Reaches expand a b ∧ ∀ next, expand b ≠ .ok next) ∨ ∀ a ∈ queue, Acc (Leads expand) a := by
  constructor
  · intro ⟨fuel, r, hr⟩
    cases r with
    | error err => exact .inl (reaches_of_error hr)
    | ok items => exact .inr (acc_of_drains ⟨fuel, hr⟩)
  · intro h
    rcases h with ⟨a, ha, b, hb, hnext⟩ | hacc
    · exact ends_of_fails hb hnext ha
    · exact ends_of_acc hacc

end EliteTelemetry.Lib.WorkList
