/-
  EliteTelemetry.Lib.BpfMaps — the hash maps a BPF program shares with other programs.

  A `Table` is a hash map. With `max` entries it takes a new key only while it has room
  (`update`); a key that is there is always overwritten.

  A `PerCpu` table has one set of keys for all CPUs and, under each key, a value slot for
  every CPU. A program reads and writes the slot of the CPU it runs on. A key that is put in
  anew has zero in the other CPUs' slots, and a key that is deleted is gone for all of them.
-/

import Mathlib.Algebra.BigOperators.Group.Finset.Piecewise
import Mathlib.Data.List.AList

namespace EliteTelemetry.Lib.BpfMaps

universe u v w

variable {K : Type u} {V : Type v} {C : Type w}

/-! ## Hash maps -/

abbrev Table (K : Type u) (V : Type v) := AList fun _ : K => V

variable {k j : K} {max : Nat}

namespace Table

theorem keys_length_le {t : Table K V} {js : List K} (h : ∀ k ∈ t, k ∈ js) : t.keys.length ≤ js.length :=
  (List.subperm_of_subset t.keys_nodup fun k hk => h k (AList.mem_keys.mpr hk)).length_le

theorem pairwise_entries_iff (t : Table K V) (R : K → K → Prop) (hR : ∀ j k, R j k → R k j) :
    (t.entries.Pairwise fun a b => R a.1 b.1) ↔ ∀ j ∈ t, ∀ k ∈ t, j ≠ k → R j k := by
  constructor
  · intro h j hj k hk hne
    obtain ⟨v, hv⟩ := List.mem_keys.mp (AList.mem_keys.mp hj)
    obtain ⟨w, hw⟩ := List.mem_keys.mp (AList.mem_keys.mp hk)
    have : Std.Symm fun a b : Sigma fun _ : K => V => R a.1 b.1 := ⟨fun _ _ => hR _ _⟩
    exact h.forall hv hw fun heq => hne (congrArg Sigma.fst heq)
  · intro h
    refine (List.nodupKeys_iff_pairwise.mp t.nodupKeys).imp_of_mem fun ha hb hne => ?_
    exact h _ (AList.mem_keys.mpr (List.mem_keys_of_mem ha)) _ (AList.mem_keys.mpr (List.mem_keys_of_mem hb)) hne

variable [DecidableEq K]

/-- There is room for the key: it is there already, or fewer than `max` keys are. -/
def Room (max : Nat) (t : Table K V) (k : K) : Prop := k ∈ t ∨ t.keys.length < max

instance (max : Nat) (t : Table K V) (k : K) : Decidable (t.Room max k) :=
  inferInstanceAs (Decidable (_ ∨ _))

/-- `bpf_map_update_elem` with `BPF_ANY`; without room it fails and changes nothing. -/
def update (max : Nat) (t : Table K V) (k : K) (v : V) : Table K V := if t.Room max k then t.insert k v else t

theorem update_of_room {t : Table K V} (h : t.Room max k) (v : V) :
    t.update max k v = t.insert k v := if_pos h

theorem update_of_not_room {t : Table K V} (h : ¬ t.Room max k) (v : V) :
    t.update max k v = t := if_neg h

theorem mem_update {t : Table K V} {v : V} : j ∈ t.update max k v ↔ j ∈ t ∨ j = k ∧ t.Room max k := by
  by_cases hr : t.Room max k
  · rw [update_of_room hr, AList.mem_insert]
    tauto
  · rw [update_of_not_room hr]
    tauto

theorem keys_length_update_of_mem {t : Table K V} (h : k ∈ t) (v : V) :
    (t.update max k v).keys.length = t.keys.length := by
  have hpos : 0 < t.keys.length := List.length_pos_of_mem (AList.mem_keys.mp h)
  rw [update_of_room (Or.inl h), AList.keys_insert, List.length_cons, List.length_erase_of_mem (AList.mem_keys.mp h)]
  omega

theorem keys_length_update_of_new {t : Table K V} (h : k ∉ t) (hr : t.keys.length < max) (v : V) :
    (t.update max k v).keys.length = t.keys.length + 1 := by
  rw [update_of_room (Or.inr hr), AList.keys_insert, List.length_cons,
    List.erase_of_not_mem fun hk => h (AList.mem_keys.mpr hk)]

theorem flatMap_entries_at {β : Type*} (t : Table K V) (k : K) (g : V → List β) :
    (t.entries.flatMap fun e => if e.1 = k then g e.2 else []) = ((AList.lookup k t).map g).getD [] := by
  suffices h : ∀ l : List (Sigma fun _ : K => V), l.NodupKeys →
      (l.flatMap fun e => if e.1 = k then g e.2 else []) = ((l.dlookup k).map g).getD [] from h _ t.nodupKeys
  intro l hl
  induction l with
  | nil => rfl
  | cons e l ih =>
    obtain ⟨k', v⟩ := e
    obtain ⟨hnew, hl⟩ := List.nodupKeys_cons.mp hl
    rw [List.flatMap_cons, ih hl]
    by_cases hk : k' = k
    · subst hk
      rw [List.dlookup_eq_none.mpr hnew, List.dlookup_cons_eq]
      simp
    · rw [List.dlookup_cons_ne _ _ (Ne.symm hk), if_neg hk, List.nil_append]

end Table

/-! ## Per-CPU hash maps -/

abbrev PerCpu (K : Type u) (C : Type w) (V : Type v) := Table K (C → V)

namespace PerCpu

variable [DecidableEq K]

def slot (t : PerCpu K C V) (c : C) (k : K) : Option V := (AList.lookup k t).map (· c)

def set [DecidableEq C] [Zero V] (t : PerCpu K C V) (c : C) (k : K) (v : V) : PerCpu K C V :=
  t.insert k (Function.update ((AList.lookup k t).getD fun _ => 0) c v)

def setNew [DecidableEq C] [Zero V] (t : PerCpu K C V) (c : C) (k : K) (v : V) : PerCpu K C V :=
  if k ∈ t then t else t.set c k v

def delete (t : PerCpu K C V) (k : K) : PerCpu K C V := t.erase k

variable (t : PerCpu K C V)

theorem mem_iff_slot (c : C) (k : K) : k ∈ t ↔ (t.slot c k).isSome = true := by
  rw [slot, Option.isSome_map, AList.lookup_isSome]

theorem slot_set_self [DecidableEq C] [Zero V] (c d : C) (k : K) (v : V) :
    (t.set c k v).slot d k = some (if d = c then v else (t.slot d k).getD 0) := by
  unfold slot set
  rw [AList.lookup_insert, Option.map_some, Function.update_apply]
  split
  · rfl
  · cases AList.lookup k t <;> rfl

theorem mem_set [DecidableEq C] [Zero V] (c : C) (v : V) : j ∈ t.set c k v ↔ j = k ∨ j ∈ t :=
  AList.mem_insert t

theorem slot_set_of_ne [DecidableEq C] [Zero V] (c d : C) (v : V) (h : j ≠ k) :
    (t.set c k v).slot d j = t.slot d j := by
  unfold slot set
  rw [AList.lookup_insert_ne h]

theorem setNew_of_mem [DecidableEq C] [Zero V] {t : PerCpu K C V} (h : k ∈ t) (c : C) (v : V) :
    t.setNew c k v = t := if_pos h

theorem setNew_of_not_mem [DecidableEq C] [Zero V] {t : PerCpu K C V} (h : k ∉ t) (c : C) (v : V) :
    t.setNew c k v = t.set c k v := if_neg h

@[simp] theorem slot_delete_self (d : C) (k : K) : (t.delete k).slot d k = none := by
  rw [slot, delete, AList.lookup_erase, Option.map_none]

theorem slot_delete_of_ne (d : C) (h : j ≠ k) : (t.delete k).slot d j = t.slot d j := by
  rw [slot, delete, AList.lookup_erase_ne h, slot]

/-! ### Sums over the CPUs -/

section Totals

variable [DecidableEq C] [Fintype C] [AddCommMonoid V]

/-- What a reader that adds the slots up gets for a key, and 0 for one that is not there. -/
def total (k : K) : V := ∑ c, (t.slot c k).getD 0

omit [DecidableEq C] in
theorem total_empty (k : K) : total (∅ : PerCpu K C V) k = 0 := Finset.sum_const_zero

omit [DecidableEq C] in
theorem total_of_lookup {t : PerCpu K C V} {values : C → V} (h : AList.lookup k t = some values) :
    t.total k = ∑ c, values c := by
  refine Finset.sum_congr rfl fun c _ => ?_
  rw [slot, h, Option.map_some, Option.getD_some]

/-- A CPU that adds to its own slot adds to the total, whether the key was there or not. -/
theorem total_set_add (c : C) (k : K) (v : V) :
    (t.set c k ((t.slot c k).getD 0 + v)).total k = t.total k + v := by
  have hslot : ∀ d, ((t.set c k ((t.slot c k).getD 0 + v)).slot d k).getD 0 =
      (t.slot d k).getD 0 + if d = c then v else 0 := by
    intro d
    rw [slot_set_self, Option.getD_some]
    split
    · rename_i h
      rw [h]
    · rw [add_zero]
  unfold total
  rw [Finset.sum_congr rfl fun d _ => hslot d, Finset.sum_add_distrib, Finset.sum_ite_eq', if_pos (Finset.mem_univ c)]

theorem total_set_of_ne (c : C) (v : V) (h : j ≠ k) : (t.set c k v).total j = t.total j := by
  refine Finset.sum_congr rfl fun d _ => ?_
  rw [slot_set_of_ne t c d v h]

end Totals

end PerCpu

end EliteTelemetry.Lib.BpfMaps
