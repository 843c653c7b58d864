/-
  EliteTelemetry.Lib.FirstWins — maps filled by insertions that never overwrite.

  After a list of assignments a key has the value it had before, or else the first one the
  list gives it (`lookup_fill`). So a map that is filled as it stands ends up as an empty one
  would exactly if all it held is what the list gives (`fill_same_iff`).
-/

import Mathlib.Data.List.AList

namespace EliteTelemetry.Lib.FirstWins

universe u v

variable {K : Type u} {V : Type v} [DecidableEq K]

abbrev Map (K : Type u) (V : Type v) := AList fun _ : K => V

def Same (t t' : Map K V) : Prop := ∀ k, t.lookup k = t'.lookup k

def add (t : Map K V) (k : K) (v : V) : Map K V := if k ∈ t then t else t.insert k v

def fill (t : Map K V) (kvs : List (K × V)) : Map K V := kvs.foldl (fun t kv => add t kv.1 kv.2) t

/-- The value that the list gives to the key first. -/
def first (kvs : List (K × V)) (k : K) : Option V := (kvs.find? fun kv => kv.1 = k).map (·.2)

theorem fill_append (t : Map K V) (kvs kvs' : List (K × V)) : fill t (kvs ++ kvs') = fill (fill t kvs) kvs' :=
  List.foldl_append

/-- A loop that adds keys with one value to a map inside a larger state. -/
theorem foldl_add {S : Type*} (get : S → Map K V) (set : S → Map K V → S) (hget : ∀ s t, get (set s t) = t)
    (hset : ∀ s t t', set (set s t) t' = set s t') (hself : ∀ s, set s (get s) = s) (s : S) (ks : List K) (v : V) :
    ks.foldl (fun s k => set s (add (get s) k v)) s = set s (fill (get s) (ks.map (·, v))) := by
  induction ks generalizing s with
  | nil => exact (hself s).symm
  | cons k ks ih =>
    rw [List.foldl_cons, ih, hget, hset]
    rfl

theorem first_cons (k k' : K) (v : V) (kvs : List (K × V)) :
    first ((k', v) :: kvs) k = if k' = k then some v else first kvs k := by
  unfold first
  rw [List.find?_cons]
  by_cases h : k' = k
  · simp [h]
  · simp [h]

theorem lookup_add (t : Map K V) (k k' : K) (v : V) :
    (add t k' v).lookup k = (t.lookup k).or (if k' = k then some v else none) := by
  unfold add
  by_cases hmem : k' ∈ t
  · rw [if_pos hmem]
    by_cases hk : k' = k
    · subst hk
      obtain ⟨w, hw⟩ := Option.isSome_iff_exists.mp (AList.lookup_isSome.mpr hmem)
      simp [hw]
    · simp [hk]
  · rw [if_neg hmem]
    by_cases hk : k' = k
    · subst hk
      rw [AList.lookup_insert, AList.lookup_eq_none.mpr hmem]
      simp
    · rw [AList.lookup_insert_ne (Ne.symm hk)]
      simp [hk]

theorem lookup_fill (t : Map K V) (kvs : List (K × V)) (k : K) :
    (fill t kvs).lookup k = (t.lookup k).or (first kvs k) := by
  induction kvs generalizing t with
  | nil => simp [fill, first]
  | cons kv kvs ih =>
    obtain ⟨k', v⟩ := kv
    show (fill (add t k' v) kvs).lookup k = _
    rw [ih, lookup_add, first_cons, Option.or_assoc]
    by_cases hk : k' = k <;> simp [hk]

/-- Filling a map as it stands gives what filling an empty one gives exactly if each value it
    held is the one the list gives its key. -/
theorem fill_same_iff (t : Map K V) (kvs : List (K × V)) :
    Same (fill t kvs) (fill ∅ kvs) ↔ ∀ k v, t.lookup k = some v → first kvs k = some v := by
  unfold Same
  refine forall_congr' fun k => ?_
  rw [lookup_fill, lookup_fill, AList.lookup_empty, Option.none_or]
  cases t.lookup k with
  | none => simp
  | some w =>
    rw [Option.some_or]
    refine ⟨fun h v hv => ?_, fun h => (h w rfl).symm⟩
    rw [← h, hv]

end EliteTelemetry.Lib.FirstWins
