/-
  EliteTelemetry.Lib.Recursion — procedures that call themselves, and when they return.

  A procedure is given by its body: for each argument the tree of what it does, which is to
  return, or to call itself and go on with what that returned. `eval` runs such a tree with a
  bound on the calls.

  A call returns exactly if the calls made from it, and from these, come to an end
  (`terminates_iff_acc`). Ways along a relation from whose points only finitely many go on all
  end exactly if none of these points leads back to itself (`acc_iff_no_cycle`).
-/

import Mathlib.Data.Set.Finite.Basic

namespace EliteTelemetry.Lib.Recursion

open Relation

/-- What is done in a call: return, or call again and go on with the result. -/
inductive Proc (α β : Type) where
  | ret (b : β)
  | call (a : α) (next : β → Proc α β)

variable {α β : Type} (body : α → Proc α β)

def eval : Nat → Proc α β → Option β
  | _, .ret b => some b
  | 0, .call _ _ => none
  | fuel + 1, .call a next =>
    match eval fuel (body a) with
    | some b => eval fuel (next b)
    | none => none

def Returns (p : Proc α β) (b : β) : Prop := ∃ fuel, eval body fuel p = some b

def Terminates (a : α) : Prop := ∃ b, Returns body (body a) b

/-- A call with the argument is made: those before it have returned. -/
inductive Makes : Proc α β → α → Prop
  | here (a : α) (next : β → Proc α β) : Makes (.call a next) a
  | later {a a' : α} {next : β → Proc α β} {b : β} (hb : Returns body (body a) b) (h : Makes (next b) a') :
    Makes (.call a next) a'

def Calls (a a' : α) : Prop := Makes body (body a) a'

variable {body}

/-! ## Runs -/

variable {p : Proc α β} {a : α} {b : β}

theorem eval_mono {fuel fuel' : Nat} (hle : fuel ≤ fuel') (h : eval body fuel p = some b) :
    eval body fuel' p = some b := by
  induction fuel generalizing fuel' p b with
  | zero =>
    cases p with
    | ret c => simpa [eval] using h
    | call a next => simp [eval] at h
  | succ fuel ih =>
    cases p with
    | ret c => simpa [eval] using h
    | call a next =>
      obtain ⟨fuel', rfl⟩ : ∃ m, fuel' = m + 1 := ⟨fuel' - 1, by omega⟩
      rw [eval] at h ⊢
      cases hcall : eval body fuel (body a) with
      | none => simp [hcall] at h
      | some c =>
        rw [hcall] at h
        rw [ih (by omega) hcall]
        exact ih (by omega) h

theorem returns_ret (b : β) : Returns body (.ret b) b := ⟨0, by simp [eval]⟩

theorem Returns.unique {c : β} (hb : Returns body p b) (hc : Returns body p c) : b = c := by
  obtain ⟨m, hm⟩ := hb
  obtain ⟨n, hn⟩ := hc
  have hb' := eval_mono (Nat.le_max_left m n) hm
  have hc' := eval_mono (Nat.le_max_right m n) hn
  exact Option.some.inj (hb'.symm.trans hc')

theorem returns_call {next : β → Proc α β} {c : β} (ha : Returns body (body a) b) (hnext : Returns body (next b) c) :
    Returns body (.call a next) c := by
  obtain ⟨m, hm⟩ := ha
  obtain ⟨n, hn⟩ := hnext
  refine ⟨max m n + 1, ?_⟩
  rw [eval, eval_mono (Nat.le_max_left m n) hm]
  exact eval_mono (Nat.le_max_right m n) hn

theorem not_makes_ret : ¬Makes body (.ret b) a := fun h => by cases h

theorem makes_call_iff {a' : α} {next : β → Proc α β} :
    Makes body (.call a next) a' ↔ a' = a ∨ ∃ b, Returns body (body a) b ∧ Makes body (next b) a' := by
  constructor
  · intro h
    cases h with
    | here => exact .inl rfl
    | later hb hlater => exact .inr ⟨_, hb, hlater⟩
  · intro h
    rcases h with rfl | ⟨b, hb, hlater⟩
    · exact .here _ _
    · exact .later hb hlater

/-! ## When a call returns -/

theorem makes_of_eval {fuel : Nat} (h : eval body fuel p = some b) (hmakes : Makes body p a) :
    ∃ fuel' < fuel, ∃ c, eval body fuel' (body a) = some c := by
  induction fuel generalizing p b with
  | zero => cases hmakes <;> simp [eval] at h
  | succ fuel ih =>
    cases hmakes with
    | here _ next =>
      rw [eval] at h
      cases hcall : eval body fuel (body a) with
      | none => simp [hcall] at h
      | some c => exact ⟨fuel, by omega, c, hcall⟩
    | later hb hlater =>
      rename_i a' next c
      rw [eval] at h
      cases hcall : eval body fuel (body a') with
      | none => simp [hcall] at h
      | some d =>
        obtain rfl : d = c := Returns.unique ⟨fuel, hcall⟩ hb
        rw [hcall] at h
        obtain ⟨fuel', hlt, hfuel⟩ := ih h hlater
        exact ⟨fuel', by omega, hfuel⟩

theorem returns_of_makes (h : ∀ a, Makes body p a → Terminates body a) : ∃ b, Returns body p b := by
  induction p with
  | ret b => exact ⟨b, returns_ret b⟩
  | call a next ih =>
    obtain ⟨b, hb⟩ := h a (.here a next)
    obtain ⟨c, hc⟩ := ih b fun a' hmakes => h a' (.later hb hmakes)
    exact ⟨c, returns_call hb hc⟩

theorem acc_of_eval {fuel : Nat} (h : eval body fuel (body a) = some b) : Acc (fun x y => Calls body y x) a := by
  induction fuel using Nat.strong_induction_on generalizing a b with
  | _ fuel ih =>
    refine Acc.intro a fun a' hcalls => ?_
    obtain ⟨fuel', hlt, c, hc⟩ := makes_of_eval h hcalls
    exact ih fuel' hlt hc

/-- A call returns exactly if the calls it leads to come to an end. -/
theorem terminates_iff_acc : Terminates body a ↔ Acc (fun x y => Calls body y x) a := by
  refine ⟨fun ⟨b, fuel, h⟩ => acc_of_eval h, fun hacc => ?_⟩
  induction hacc with
  | intro a _ ih => exact returns_of_makes ih

/-! ## Cycles -/

theorem acc_reflTransGen {r : α → α → Prop} {e : α} (hacc : Acc (fun x y => r y x) a) (h : ReflTransGen r a e) :
    Acc (fun x y => r y x) e := by
  induction h with
  | refl => exact hacc
  | tail _ hstep ih => exact ih.inv hstep

theorem acc_no_cycle {r : α → α → Prop} (hacc : Acc (fun x y => r y x) a) : ¬TransGen r a a := by
  induction hacc with
  | intro a _ ih =>
    intro hcycle
    -- The next one of the cycle is on it too.
    obtain ⟨e, hstep, hback⟩ := TransGen.head'_iff.mp hcycle
    exact ih e hstep (TransGen.tail' hback hstep)

/-- From a point from which only finitely many can go on, all ways end exactly if no point on
    them leads back to itself. -/
theorem acc_iff_no_cycle {r : α → α → Prop} (hfin : {e | ReflTransGen r a e ∧ ∃ e', r e e'}.Finite) :
    Acc (fun x y => r y x) a ↔ ¬∃ e, ReflTransGen r a e ∧ TransGen r e e := by
  refine ⟨fun hacc ⟨e, hreach, hcycle⟩ => acc_no_cycle (acc_reflTransGen hacc hreach) hcycle, fun hno => ?_⟩
  let Inner := {e // ReflTransGen r a e ∧ ∃ e', r e e'}
  have hfinite : Finite Inner := hfin.to_subtype
  let after : Inner → Inner → Prop := fun x y => TransGen r y.1 x.1
  have htrans : IsTrans Inner after := ⟨fun _ _ _ hxy hyz => hyz.trans hxy⟩
  have hirrefl : Std.Irrefl after := ⟨fun x hx => hno ⟨x.1, x.2.1, hx⟩⟩
  have hwf : WellFounded after := Finite.wellFounded_of_trans_of_irrefl after
  have hinner : ∀ x : Inner, Acc (fun x y => r y x) x.1 := by
    intro x
    induction x using hwf.induction with
    | _ x ih =>
      refine Acc.intro _ fun e hstep => ?_
      by_cases he : ∃ e', r e e'
      · exact ih ⟨e, x.2.1.tail hstep, he⟩ (TransGen.single hstep)
      · exact Acc.intro _ fun e' he' => absurd ⟨e', he'⟩ he
  by_cases ha : ∃ e', r a e'
  · exact hinner ⟨a, .refl, ha⟩
  · exact Acc.intro _ fun e' he' => absurd ⟨e', he'⟩ ha

end EliteTelemetry.Lib.Recursion
