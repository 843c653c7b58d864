/-
  EliteTelemetry.Lib.Limiter — the books of a rate limiter.

  A limiter opens with `rate` tokens. A refill at `now` adds at most `rate` tokens for
  each whole `unit` since the last one; an implementation may add less, because it
  saturates, or wraps. An admission takes one token. Whatever the order of the two, the
  admissions up to `t` are at most `rate` for the opening and for each whole `unit` since
  it (`admitted_le`): the whole units of the parts add up to at most those of the sum.

  The other way round, requests that keep to the rate find a token, if a limiter never goes
  longer than a `unit` without a refill to `rate` tokens or more. `Room` is what it takes: the
  tokens, and those given out since the last refill, are `rate` or more, and the requests of
  the unit since then are no more than that (`Room.pays`, `room_of_refill`).
-/

import Mathlib.Logic.Relation

namespace EliteTelemetry.Lib.Limiter

structure Books where
  tokens : Nat
  last : Nat
  admitted : Nat

variable {rate unit start : Nat}

inductive Step (rate unit : Nat) : Books → Books → Prop
  | refill (b : Books) (now tokens : Nat) : b.last ≤ now → tokens ≤ b.tokens + (now - b.last) / unit * rate →
      Step rate unit b ⟨tokens, now, b.admitted⟩
  | spend (b : Books) : 0 < b.tokens → Step rate unit b ⟨b.tokens - 1, b.last, b.admitted + 1⟩

abbrev Steps (rate unit : Nat) : Books → Books → Prop := Relation.ReflTransGen (Step rate unit)

/-- Tokens held and spent are covered by the opening and the whole units since. -/
structure Paid (rate unit start : Nat) (b : Books) : Prop where
  opened : start ≤ b.last
  covered : b.tokens + b.admitted ≤ rate * (1 + (b.last - start) / unit)

theorem open_paid : Paid rate unit start ⟨rate, start, 0⟩ := by
  refine ⟨Nat.le_refl _, ?_⟩
  simp

theorem step_paid {b b' : Books} (hs : Step rate unit b b') (hp : Paid rate unit start b) : Paid rate unit start b' := by
  obtain ⟨ho, hc⟩ := hp
  cases hs with
  | refill now tokens hle ht =>
    refine ⟨Nat.le_trans ho hle, ?_⟩
    -- whole units up to the last refill, and whole units since it
    have hdiv : (b.last - start) / unit + (now - b.last) / unit ≤ (now - start) / unit := by
      have := Nat.div_add_div_le_add_div (x := b.last - start) (y := now - b.last) (z := unit)
      rwa [show b.last - start + (now - b.last) = now - start by omega] at this
    calc tokens + b.admitted ≤ rate * (1 + (b.last - start) / unit) + (now - b.last) / unit * rate := by omega
      _ = rate * (1 + ((b.last - start) / unit + (now - b.last) / unit)) := by
          rw [Nat.mul_comm _ rate, ← Nat.mul_add, Nat.add_assoc]
      _ ≤ rate * (1 + (now - start) / unit) := Nat.mul_le_mul_left _ (by omega)
  | spend hpos =>
    refine ⟨ho, ?_⟩
    show b.tokens - 1 + (b.admitted + 1) ≤ rate * (1 + (b.last - start) / unit)
    omega

theorem steps_paid {b b' : Books} (hs : Steps rate unit b b') (hp : Paid rate unit start b) :
    Paid rate unit start b' := by
  induction hs with
  | refl => exact hp
  | tail _ h ih => exact step_paid h ih

theorem admitted_le {b : Books} (hp : Paid rate unit start b) {t : Nat} (ht : b.last ≤ t) :
    b.admitted ≤ rate * (1 + (t - start) / unit) := by
  have hmono : (b.last - start) / unit ≤ (t - start) / unit := Nat.div_le_div_right (by omega)
  calc b.admitted ≤ rate * (1 + (b.last - start) / unit) := by have := hp.covered; omega
    _ ≤ rate * (1 + (t - start) / unit) := Nat.mul_le_mul_left _ (by omega)

/-! ## Requests that keep to the rate -/

/-- At most `rate` requests in any `unit`, ends included. -/
def Conforms (rate unit : Nat) (times : List Nat) : Prop :=
  ∀ start, (times.filter fun t => start ≤ t ∧ t ≤ start + unit).length ≤ rate

theorem Conforms.sublist {times times' : List Nat} (h : Conforms rate unit times) (hsub : times'.Sublist times) :
    Conforms rate unit times' :=
  fun start => Nat.le_trans (hsub.filter _).length_le (h start)

/-- Of the `rate` tokens or more at the last refill `used` are gone, and the requests to come
    within a `unit` of it will not take more than there are. -/
structure Room (rate unit tokens last used : Nat) (times : List Nat) : Prop where
  covered : rate ≤ tokens + used
  window : used + (times.filter (· ≤ last + unit)).length ≤ rate

theorem Room.pays {tokens last used now : Nat} {times : List Nat} (h : Room rate unit tokens last used (now :: times))
    (hnow : now ≤ last + unit) : 0 < tokens ∧ Room rate unit (tokens - 1) last (used + 1) times := by
  have hwindow := h.window
  rw [List.filter_cons_of_pos (by simpa using hnow), List.length_cons] at hwindow
  have hcovered := h.covered
  exact ⟨by omega, by omega, by omega⟩

/-- A refill to `rate` tokens makes room for the requests from then on. -/
theorem room_of_refill {tokens now : Nat} {times : List Nat} (hconf : Conforms rate unit times)
    (hlater : ∀ t ∈ times, now ≤ t) (htokens : rate ≤ tokens) : Room rate unit tokens now 0 times := by
  refine ⟨by omega, ?_⟩
  have hsame : times.filter (· ≤ now + unit) = times.filter fun t => now ≤ t ∧ t ≤ now + unit := by
    refine List.filter_congr fun t ht => ?_
    simp [hlater t ht]
  rw [hsame, Nat.zero_add]
  exact hconf now

end EliteTelemetry.Lib.Limiter
