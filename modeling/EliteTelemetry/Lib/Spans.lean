/-
  EliteTelemetry.Lib.Spans — a table of records that are opened, written to and closed.

  The way BPF programs time things: one program puts a record under a key, others look it up
  and write to it in place, one deletes it. The table has room for `max` keys; a record that
  finds none is not put in, and what comes for its key before the next one finds nothing.

  What is under a key after a run is told by the run alone: the key was last opened with room,
  has not been closed since, and the record is what the writes since then have made of it
  (`lookup_after_iff`).
-/

import EliteTelemetry.Lib.BpfMaps

namespace EliteTelemetry.Lib.Spans

open EliteTelemetry.Lib.BpfMaps

universe u v

variable {K : Type u} {V : Type v} [DecidableEq K]

/-- What a program does to the table. -/
inductive Op (K : Type u) (V : Type v) where
  | opens (k : K) (v : V)
  | writes (k : K) (f : V → V)
  | closes (k : K)

def write (t : Table K V) (k : K) (f : V → V) : Table K V :=
  match t.lookup k with
  | none => t
  | some v => t.insert k (f v)

def apply (max : Nat) (t : Table K V) : Op K V → Table K V
  | .opens k v => t.update max k v
  | .writes k f => write t k f
  | .closes k => t.erase k

def after (max : Nat) (ops : List (Op K V)) : Table K V := ops.foldl (apply max) ∅

def Ends (k : K) : Op K V → Prop
  | .opens j _ => j = k
  | .writes _ _ => False
  | .closes j => j = k

def written (k : K) (v : V) : Op K V → V
  | .writes j f => if j = k then f v else v
  | _ => v

def writtenBy (k : K) (v : V) (ops : List (Op K V)) : V := ops.foldl (written k) v

/-! ## One operation -/

theorem after_snoc (max : Nat) (ops : List (Op K V)) (op : Op K V) :
    after max (ops ++ [op]) = apply max (after max ops) op := by
  simp [after]

theorem lookup_write_self (t : Table K V) (k : K) (f : V → V) :
    (write t k f).lookup k = (t.lookup k).map f := by
  unfold write
  cases h : t.lookup k with
  | none => simpa using h
  | some v => simp

variable {k : K} {max : Nat}

theorem lookup_write_of_ne (t : Table K V) {j : K} (h : j ≠ k) (f : V → V) : (write t k f).lookup j = t.lookup j := by
  unfold write
  cases t.lookup k with
  | none => rfl
  | some v => exact AList.lookup_insert_ne h

theorem lookup_apply_of_not_ends {t : Table K V} {op : Op K V} (h : ¬Ends k op) :
    (apply max t op).lookup k = (t.lookup k).map (written k · op) := by
  cases op with
  | opens j v =>
    have hne : k ≠ j := fun hkj => h hkj.symm
    by_cases hroom : t.Room max j
    · rw [apply, Table.update_of_room hroom, AList.lookup_insert_ne hne]
      exact (Option.map_id' ..).symm
    · rw [apply, Table.update_of_not_room hroom]
      exact (Option.map_id' ..).symm
  | writes j f =>
    by_cases hjk : j = k
    · subst hjk
      simp [apply, lookup_write_self, written]
    · simp [apply, lookup_write_of_ne t (Ne.symm hjk), written, hjk]
  | closes j =>
    have hne : k ≠ j := fun hkj => h hkj.symm
    rw [apply, AList.lookup_erase_ne hne]
    exact (Option.map_id' ..).symm

theorem lookup_apply_opens {t : Table K V} {v : V} :
    (apply max t (.opens k v)).lookup k = if t.Room max k then some v else none := by
  by_cases hroom : t.Room max k
  · rw [apply, Table.update_of_room hroom, AList.lookup_insert, if_pos hroom]
  · rw [apply, Table.update_of_not_room hroom, if_neg hroom]
    exact AList.lookup_eq_none.mpr fun hmem => hroom (.inl hmem)

theorem lookup_apply_closes {t : Table K V} : (apply max t (.closes k)).lookup k = none :=
  AList.lookup_erase k t

/-! ## Runs -/

/-- The key was opened with room and has not been closed, or opened again, since. -/
structure OpenedAt (max : Nat) (k : K) (ops before : List (Op K V)) (v : V) (since : List (Op K V)) : Prop where
  split : ops = before ++ .opens k v :: since
  room : (after max before).Room max k
  notEnded : ∀ op ∈ since, ¬Ends k op

theorem OpenedAt.snoc {ops before since : List (Op K V)} {v : V} (h : OpenedAt max k ops before v since) {op : Op K V}
    (hop : ¬Ends k op) :
    OpenedAt max k (ops ++ [op]) before v (since ++ [op]) where
  split := by simp [h.split]
  room := h.room
  notEnded := by
    intro op' hop'
    rcases List.mem_append.mp hop' with hmem | hmem
    · exact h.notEnded op' hmem
    · rw [List.mem_singleton.mp hmem]
      exact hop

/-- What one more operation leaves open was opened before it and is not ended by it, or is opened
    by it. -/
theorem OpenedAt.of_snoc {ops before since : List (Op K V)} {v : V} {op : Op K V}
    (h : OpenedAt max k (ops ++ [op]) before v since) :
    (∃ since', since = since' ++ [op] ∧ ¬Ends k op ∧ OpenedAt max k ops before v since') ∨
      (op = .opens k v ∧ since = [] ∧ before = ops) := by
  rcases List.eq_nil_or_concat since with rfl | ⟨since', last, rfl⟩
  · have hsplit : ops ++ [op] = before ++ [.opens k v] := h.split
    obtain ⟨hops, hop⟩ := List.append_inj' hsplit rfl
    exact .inr ⟨by simpa using hop, rfl, hops.symm⟩
  · have hsplit : ops ++ [op] = (before ++ .opens k v :: since') ++ [last] := by simpa using h.split
    obtain ⟨hops, hop⟩ := List.append_inj' hsplit rfl
    obtain rfl : op = last := by simpa using hop
    refine .inl ⟨since', List.concat_eq_append .., h.notEnded op (by simp), hops, h.room, ?_⟩
    intro op' hop'
    exact h.notEnded op' (by simp [hop'])

theorem lookup_after_iff (max : Nat) (ops : List (Op K V)) (k : K) (w : V) :
    (after max ops).lookup k = some w ↔
      ∃ before v since, OpenedAt max k ops before v since ∧ w = writtenBy k v since := by
  induction ops using List.reverseRecOn generalizing w with
  | nil =>
    constructor
    · intro h
      cases h
    · intro ⟨before, v, since, h, _⟩
      exact absurd h.split (by simp)
  | append_singleton ops op ih =>
    rw [after_snoc]
    constructor
    · intro h
      by_cases hends : Ends k op
      · cases op with
        | opens j v =>
          obtain rfl : j = k := hends
          rw [lookup_apply_opens] at h
          split at h
          · rename_i hroom
            refine ⟨ops, v, [], ⟨rfl, hroom, by simp⟩, ?_⟩
            exact (Option.some.inj h).symm
          · cases h
        | writes j f => exact hends.elim
        | closes j =>
          obtain rfl : j = k := hends
          rw [lookup_apply_closes] at h
          cases h
      · rw [lookup_apply_of_not_ends hends, Option.map_eq_some_iff] at h
        obtain ⟨w', hw', rfl⟩ := h
        obtain ⟨before, v, since, hopened, rfl⟩ := (ih w').mp hw'
        exact ⟨before, v, since ++ [op], hopened.snoc hends, by simp [writtenBy]⟩
    · intro ⟨before, v, since, hopened, hw⟩
      rcases hopened.of_snoc with ⟨since', rfl, hends, hopened'⟩ | ⟨rfl, rfl, rfl⟩
      · rw [lookup_apply_of_not_ends hends, (ih _).mpr ⟨before, v, since', hopened', rfl⟩, hw]
        simp [writtenBy]
      · rw [lookup_apply_opens, if_pos hopened.room, hw]
        rfl

/-- `lookup_after_iff` for events that each do one thing to the table or nothing. -/
theorem lookup_after_filterMap_iff {E : Type*} (max : Nat) (op : E → Option (Op K V)) (es : List E) (k : K) (w : V) :
    (after max (es.filterMap op)).lookup k = some w ↔
      ∃ before start v since, es = before ++ start :: since ∧ op start = some (.opens k v) ∧
        (after max (before.filterMap op)).Room max k ∧ (∀ e ∈ since, ∀ o, op e = some o → ¬Ends k o) ∧
        w = writtenBy k v (since.filterMap op) := by
  rw [lookup_after_iff]
  constructor
  · intro ⟨before, v, since, hopened, hw⟩
    obtain ⟨es₁, es₂, rfl, rfl, hcons⟩ := List.filterMap_eq_append_iff.mp hopened.split
    obtain ⟨idle, start, rest, rfl, hidle, hstart, rfl⟩ := List.filterMap_eq_cons_iff.mp hcons
    have hbefore : (es₁ ++ idle).filterMap op = es₁.filterMap op := by
      rw [List.filterMap_append, List.filterMap_eq_nil_iff.mpr hidle, List.append_nil]
    refine ⟨es₁ ++ idle, start, v, rest, by simp, hstart, hbefore ▸ hopened.room, ?_, hw⟩
    intro e he o ho
    exact hopened.notEnded o (List.mem_filterMap.mpr ⟨e, he, ho⟩)
  · intro ⟨before, start, v, since, hes, hstart, hroom, hnotEnded, hw⟩
    refine ⟨before.filterMap op, v, since.filterMap op, ⟨?_, hroom, ?_⟩, hw⟩
    · rw [hes, List.filterMap_append, List.filterMap_cons_some hstart]
    · intro o ho
      obtain ⟨e, he, heo⟩ := List.mem_filterMap.mp ho
      exact hnotEnded e he o heo

end EliteTelemetry.Lib.Spans
