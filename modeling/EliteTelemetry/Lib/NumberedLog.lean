/-
  EliteTelemetry.Lib.NumberedLog — an append-only log whose entries are numbered from one.

  A replica that has applied the first `r` entries holds `replay` of them; what it still has
  to be sent, up to the `b`-th, is `segment h r b`. The lemmas say how both move when the log
  grows, when a sender takes the next entry, and when a receiver applies one.
-/

import Mathlib.Data.List.Basic

namespace EliteTelemetry.Lib.NumberedLog

universe u v

variable {α : Type u} {β : Type v} {rev : α → Nat} {h : List α}

/-- The entry at place `k` has number `k + 1`. -/
def Numbered (rev : α → Nat) (h : List α) : Prop := ∀ k x, h[k]? = some x → rev x = k + 1

theorem numbered_nil : Numbered rev ([] : List α) := by
  intro k x hx
  simp at hx

variable {l : List α} {k b : Nat} {x : α}

theorem Numbered.snoc (hn : Numbered rev h) (hx : rev x = h.length + 1) : Numbered rev (h ++ [x]) := by
  intro k y hy
  by_cases hk : k < h.length
  · rw [List.getElem?_append_left hk] at hy
    exact hn k y hy
  · rw [List.getElem?_append_right (by omega)] at hy
    obtain ⟨hlt, rfl⟩ := List.getElem?_eq_some_iff.mp hy
    simp only [List.length_singleton] at hlt
    simp only [List.getElem_singleton]
    omega

theorem getElem?_of_drop (hd : h.drop k = x :: l) : h[k]? = some x := by
  have := congrArg (·[0]?) hd
  simpa using this

theorem lt_of_getElem? (hx : h[k]? = some x) : k < h.length :=
  (List.getElem?_eq_some_iff.mp hx).1

theorem drop_succ (hd : h.drop k = x :: l) : h.drop (k + 1) = l := by
  rw [← List.drop_drop, hd]
  rfl

theorem drop_snoc (hk : k ≤ h.length) (x : α) : (h ++ [x]).drop k = h.drop k ++ [x] :=
  List.drop_append_of_le_length hk

theorem Numbered.map_eq (hn : Numbered rev h) : h.map rev = List.range' 1 h.length := by
  apply List.ext_getElem
  · simp
  · intro k hk _
    rw [List.length_map] at hk
    have hrev := hn k h[k] (List.getElem?_eq_getElem hk)
    rw [List.getElem_map, List.getElem_range', hrev]
    omega

/-- Of the entries numbered up to `r` there are the first `r`, in their order. -/
theorem Numbered.filter_le (hn : Numbered rev h) (r : Nat) : h.filter (fun x => rev x ≤ r) = h.take r := by
  have hmem : ∀ (l : List α) (P : α → Bool), (∀ x ∈ l, P x = true) → l.filter P = l :=
    fun l P hP => List.filter_eq_self.mpr hP
  have htake : (h.take r).filter (fun x => rev x ≤ r) = h.take r := by
    refine hmem _ _ ?_
    intro x hx
    obtain ⟨k, hk⟩ := List.mem_iff_getElem?.mp hx
    have hkr : k < r := by
      have := lt_of_getElem? hk
      simp only [List.length_take] at this
      omega
    rw [List.getElem?_take_of_lt hkr] at hk
    have := hn k x hk
    simp only [decide_eq_true_eq]
    omega
  have hdrop : (h.drop r).filter (fun x => rev x ≤ r) = [] := by
    rw [List.filter_eq_nil_iff]
    intro x hx
    obtain ⟨k, hk⟩ := List.mem_iff_getElem?.mp hx
    rw [List.getElem?_drop] at hk
    have := hn _ x hk
    simp only [decide_eq_true_eq]
    omega
  conv_lhs => rw [← List.take_append_drop r h]
  rw [List.filter_append, htake, hdrop, List.append_nil]

/-! ## Replay -/

def replay (f : β → α → β) (init : β) (l : List α) : β := l.foldl f init

theorem replay_take_succ (f : β → α → β) (init : β) (hx : h[k]? = some x) :
    replay f init (h.take (k + 1)) = f (replay f init (h.take k)) x := by
  rw [List.take_add_one, hx]
  simp [replay]

/-! ## Segments -/

def segment (h : List α) (a b : Nat) : List α := (h.take b).drop a

@[simp] theorem segment_self (h : List α) (a : Nat) : segment h a a = [] := by
  simp [segment]

theorem segment_grow (hb : b ≤ h.length) (a : Nat) (t : List α) : segment (h ++ t) a b = segment h a b := by
  unfold segment
  rw [List.take_append_of_le_length hb]

theorem segment_snoc {a : Nat} (hab : a ≤ b) (hx : h[b]? = some x) : segment h a (b + 1) = segment h a b ++ [x] := by
  have hb := lt_of_getElem? hx
  unfold segment
  rw [List.take_add_one, hx, Option.toList_some, List.drop_append_of_le_length]
  rw [List.length_take]
  omega

theorem segment_cons {a : Nat} (hs : segment h a b = x :: l) : h[a]? = some x ∧ a < b ∧ segment h (a + 1) b = l := by
  unfold segment at hs ⊢
  have hx := getElem?_of_drop hs
  have hab : a < b := by
    have := lt_of_getElem? hx
    rw [List.length_take] at this
    omega
  rw [List.getElem?_take_of_lt hab] at hx
  exact ⟨hx, hab, drop_succ hs⟩

theorem segment_left {a : Nat} (hab : a ≤ b) (hb : b ≤ h.length) {r : List α} (hs : l ++ r = segment h a b) :
    a + l.length ≤ b ∧ l = segment h a (a + l.length) := by
  have hlen : l.length + r.length = b - a := by
    have := congrArg List.length hs
    simp only [segment, List.length_append, List.length_drop, List.length_take] at this
    omega
  refine ⟨by omega, ?_⟩
  calc l = (segment h a b).take l.length := by rw [← hs, List.take_left]
    _ = segment h a (a + l.length) := by
        unfold segment
        rw [List.take_drop, List.take_take, Nat.min_eq_left (by omega)]

end EliteTelemetry.Lib.NumberedLog
