/-
  EliteTelemetry.Lib.Caches — caches that are used through what is known of them.

  `CacheApi` is of a cache that may drop what is in it, whatever it drops and when: it has what was
  put into it and nothing else, and what it finds under a key it has under that key. What holds of
  every entry that is put in then holds of every one that is found (`Holds.of_get`). `Lru.api` is one
  of them: the entries stand with the most recently used first, one for a key; a new one over the size
  drops the last.

  `ExpiringApi` is of a cache that finds what was last set under a key until that expires;
  `ExpiringApi.table` is one.
-/

import Mathlib.Data.List.AList

namespace EliteTelemetry.Lib

/-- A cache whose calls are made at a time of the clock. -/
structure CacheApi (C K V : Type) where
  new : C
  add : Nat → K → V → C → C
  get : Nat → K → C → Option V × C
  Has : C → K → V → Prop
  not_has_new : ∀ k v, ¬Has new k v
  has_of_add : ∀ {now k v c k' v'}, Has (add now k v c) k' v' → (k' = k ∧ v' = v) ∨ Has c k' v'
  has_of_get : ∀ {now k c k' v'}, Has (get now k c).2 k' v' → Has c k' v'
  has_of_found : ∀ {now k c v}, (get now k c).1 = some v → Has c k v

namespace CacheApi

variable {C K V : Type} {api : CacheApi C K V} {P : K → V → Prop} {c : C}

def Holds (api : CacheApi C K V) (P : K → V → Prop) (c : C) : Prop := ∀ k v, api.Has c k v → P k v

theorem holds_new (api : CacheApi C K V) (P : K → V → Prop) : api.Holds P api.new :=
  fun k v h => absurd h (api.not_has_new k v)

theorem Holds.add (h : api.Holds P c) (now : Nat) {k : K} {v : V} (hv : P k v) : api.Holds P (api.add now k v c) := by
  intro k' v' hhas
  rcases api.has_of_add hhas with ⟨rfl, rfl⟩ | hhas
  · exact hv
  · exact h k' v' hhas

theorem Holds.of_get (h : api.Holds P c) (now : Nat) (k : K) :
    (∀ v, (api.get now k c).1 = some v → P k v) ∧ api.Holds P (api.get now k c).2 :=
  ⟨fun v hv => h k v (api.has_of_found hv), fun k' v' hhas => h k' v' (api.has_of_get hhas)⟩

end CacheApi

structure Lru (K V : Type) (size : Nat) where
  entries : List (K × V)
  nodup : (entries.map Prod.fst).Nodup
  length_le : entries.length ≤ size

namespace Lru

variable {K V : Type} {size : Nat}

def empty : Lru K V size := ⟨[], List.nodup_nil, Nat.zero_le _⟩

variable [DecidableEq K]

def front (k : K) (v : V) (entries : List (K × V)) : List (K × V) := (k, v) :: entries.filter (·.1 ≠ k)

theorem front_nodup {entries : List (K × V)} (h : (entries.map Prod.fst).Nodup) (k : K) (v : V) :
    ((front k v entries).map Prod.fst).Nodup := by
  unfold front
  rw [List.map_cons, List.nodup_cons]
  refine ⟨fun hmem => ?_, h.sublist (List.filter_sublist.map _)⟩
  obtain ⟨e, he, hk⟩ := List.mem_map.mp hmem
  exact absurd hk (by simpa using (List.mem_filter.mp he).2)

def add (k : K) (v : V) (c : Lru K V size) : Lru K V size where
  entries := (front k v c.entries).take size
  nodup := (front_nodup c.nodup k v).sublist ((List.take_sublist _ _).map _)
  length_le := List.length_take_le _ _

def get (k : K) (c : Lru K V size) : Option V × Lru K V size :=
  match c.entries.find? (·.1 = k) with
  | none => (none, c)
  | some e => (some e.2, c.add k e.2)

theorem mem_of_add {k : K} {v : V} {c : Lru K V size} {e : K × V} (h : e ∈ (c.add k v).entries) :
    e = (k, v) ∨ e ∈ c.entries :=
  (List.mem_cons.mp (List.mem_of_mem_take h)).imp_right List.mem_of_mem_filter

theorem mem_of_find? {k : K} {c : Lru K V size} {e : K × V} (h : c.entries.find? (·.1 = k) = some e) :
    (k, e.2) ∈ c.entries := by
  have hk : e.1 = k := by simpa using List.find?_some h
  exact hk ▸ List.mem_of_find?_eq_some h

def api : CacheApi (Lru K V size) K V where
  new := empty
  add _ := add
  get _ := get
  Has c k v := (k, v) ∈ c.entries
  not_has_new _ _ h := by cases h
  has_of_add h := (mem_of_add h).imp_left Prod.mk.inj
  has_of_get {_ k c _ _} h := by
    unfold get at h
    split at h
    · exact h
    · next e he =>
      rcases mem_of_add h with heq | hmem
      · exact heq ▸ mem_of_find? he
      · exact hmem
  has_of_found {_ k c v} h := by
    unfold get at h
    split at h
    · cases h
    · next e he =>
      cases h
      exact mem_of_find? he

end Lru

/-- What is set at a time for a duration, or for ever, has not expired. -/
def live (start : Nat) (duration : Option Nat) (now : Nat) : Bool := duration.all fun d => now ≤ start + d

structure ExpiringApi (C K V : Type) where
  new : C
  set : Nat → K → V → Option Nat → C → C
  get : Nat → K → C → Option V
  get_new : ∀ now k, get now k new = none
  get_set_self : ∀ now start k v duration c,
    get now k (set start k v duration c) = if live start duration now then some v else none
  get_set_ne : ∀ now start {k k'} v duration c, k' ≠ k → get now k' (set start k v duration c) = get now k' c

def ExpiringApi.table {K V : Type} [DecidableEq K] : ExpiringApi (AList fun _ : K => V × Nat × Option Nat) K V where
  new := ∅
  set start k v duration c := c.insert k (v, start, duration)
  get now k c := (c.lookup k).bind fun (v, start, duration) => if live start duration now then some v else none
  get_new _ _ := rfl
  get_set_self now start k v duration c := by rw [AList.lookup_insert, Option.bind_some]
  get_set_ne now start k k' v duration c hne := by rw [AList.lookup_insert_ne hne]

end EliteTelemetry.Lib
