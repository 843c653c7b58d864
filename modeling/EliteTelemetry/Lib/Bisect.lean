/-
  EliteTelemetry.Lib.Bisect — halving an interval of a sorted sequence.

  The interval has two ends, both in range. A value equal to the key ends the search; else the half
  that cannot hold it is dropped, until one place is left (`bisect_bracket`). Whatever is before
  that place is below the key, and the place itself is above it or the last one (`Bracket`). So the
  last value not above the key is at that place, at the one before it, or there is none
  (`Bracket.at_place`, `Bracket.before_place`, `key_lt_of_lt_first`).
-/

import Mathlib.Data.Nat.Basic

namespace EliteTelemetry.Lib.Bisect

def bisect {α : Type} [LT α] [DecidableLT α] (f : Nat → α) (key : α) : Nat → Nat → Nat → Option Nat × Nat
  | 0, i, _ => (none, i)
  | fuel + 1, i, j =>
    if i < j then
      let mid := i + (j - i) / 2
      if key < f mid then bisect f key fuel i mid
      else if f mid < key then bisect f key fuel (mid + 1) j
      else (some mid, i)
    else (none, i)

variable {α : Type} [LT α]

structure Bracket (f : Nat → α) (key : α) (last i j : Nat) : Prop where
  le : i ≤ j
  le_last : j ≤ last
  below : ∀ k < i, f k < key
  above : j = last ∨ key < f j

theorem Bracket.left {f : Nat → α} {key : α} {last i j mid : Nat} (h : Bracket f key last i j) (hlo : i ≤ mid)
    (hhi : mid < j) (hmid : key < f mid) : Bracket f key last i mid :=
  ⟨hlo, Nat.le_of_lt (Nat.lt_of_lt_of_le hhi h.le_last), h.below, .inr hmid⟩

variable [LE α]

def Ordered (f : Nat → α) (last : Nat) : Prop := ∀ a b, a ≤ b → b ≤ last → f a ≤ f b

structure IsLast (f : Nat → α) (key : α) (last k : Nat) : Prop where
  le_last : k ≤ last
  le_key : f k ≤ key
  greatest : ∀ m ≤ last, f m ≤ key → f m ≤ f k

variable [Std.IsLinearOrder α] {f : Nat → α} {key : α} {last : Nat}

omit [LT α] in
theorem isLast_of_eq {k : Nat} (hk : k ≤ last) (hle : f k ≤ key) (hge : key ≤ f k) : IsLast f key last k :=
  ⟨hk, hle, fun _ _ hm => Std.le_trans hm hge⟩

variable [Std.LawfulOrderLT α]

theorem Bracket.right (hf : Ordered f last) {i j mid : Nat} (h : Bracket f key last i j) (hhi : mid < j)
    (hmid : f mid < key) : Bracket f key last (mid + 1) j := by
  refine ⟨hhi, h.le_last, fun k hk => ?_, h.above⟩
  have hle := hf k mid (Nat.le_of_lt_succ hk) (Nat.le_of_lt (Nat.lt_of_lt_of_le hhi h.le_last))
  exact Std.lt_of_le_of_lt hle hmid

theorem Bracket.at_place (hf : Ordered f last) {i : Nat} (h : Bracket f key last i i) (hi : f i ≤ key) :
    IsLast f key last i := by
  rcases h.above with hlast | habove
  · exact ⟨h.le_last, hi, fun m hm _ => hf m i (hlast ▸ hm) h.le_last⟩
  · exact absurd hi (Std.not_le.mpr habove)

theorem Bracket.before_place (hf : Ordered f last) {i : Nat} (h : Bracket f key last (i + 1) (i + 1))
    (hi : key < f (i + 1)) : IsLast f key last i := by
  have hrange := h.le_last
  refine ⟨by omega, Std.le_of_lt (h.below i (by omega)), fun m hm hmkey => ?_⟩
  have hlt : m < i + 1 := by
    apply Nat.lt_of_not_le
    intro hge
    exact absurd (Std.le_trans (hf (i + 1) m hge hm) hmkey) (Std.not_le.mpr hi)
  exact hf m i (by omega) (by omega)

theorem key_lt_of_lt_first (hf : Ordered f last) (hi : key < f 0) {m : Nat} (hm : m ≤ last) : key < f m :=
  Std.lt_of_lt_of_le hi (hf 0 m (Nat.zero_le m) hm)

/-- With as many rounds as the interval is long, the search meets the key or is left with one
    place. -/
theorem bisect_bracket [DecidableLT α] (hf : Ordered f last) {fuel i j : Nat} (h : Bracket f key last i j)
    (hfuel : j - i ≤ fuel) :
    (∃ k, (bisect f key fuel i j).1 = some k ∧ IsLast f key last k) ∨
      ((bisect f key fuel i j).1 = none ∧
        Bracket f key last (bisect f key fuel i j).2 (bisect f key fuel i j).2) := by
  induction fuel generalizing i j with
  | zero =>
    have hij : i = j := Nat.le_antisymm h.le (by omega)
    subst hij
    exact .inr ⟨rfl, h⟩
  | succ fuel ih =>
    unfold bisect
    split
    · next hlt =>
      dsimp only
      split
      · next hmid => exact ih (h.left (by omega) (by omega) hmid) (by omega)
      · next hnot =>
        split
        · next hmid => exact ih (h.right hf (by omega) hmid) (by omega)
        · next hnot' =>
          have hrange := h.le_last
          exact .inl ⟨_, rfl, isLast_of_eq (by omega) (Std.not_lt.mp hnot) (Std.not_lt.mp hnot')⟩
    · next hnot =>
      have hij : i = j := Nat.le_antisymm h.le (by omega)
      subst hij
      exact .inr ⟨rfl, h⟩

end EliteTelemetry.Lib.Bisect
