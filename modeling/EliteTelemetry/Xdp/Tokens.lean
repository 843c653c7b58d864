/-
  EliteTelemetry.Xdp.Tokens — the token bucket of one (source, tier) key.

  `token_consume` computes in 64 bits. The rate cannot wrap (`refillRate_lt`), but the
  credit `elapsed / 1e9 * rate` and its sum with the tokens can; what they lose by wrapping
  they only withhold (`refill_cases`). So each call is a refill and an admission of
  `Lib.Limiter` (`pay_steps`), and over any run of calls the bucket admits at most its
  rate for its creation and for each whole second since (`bucket_admits_at_rate`), never
  holding more than ten seconds' worth.
-/

import EliteTelemetry.Lib.Limiter
import EliteTelemetry.Xdp.Accounting
import Mathlib.Algebra.Group.Nat.Defs

namespace EliteTelemetry.Xdp

open EliteTelemetry.Lib.Machine
open EliteTelemetry.Lib.Limiter (Books Steps Paid)

/-! ## The rate -/

theorem mul_toUInt64_toNat (a b : UInt32) : (a.toUInt64 * b.toUInt64).toNat = a.toNat * b.toNat := by
  have h := Nat.mul_lt_mul_of_lt_of_lt a.toNat_lt b.toNat_lt
  rw [UInt64.toNat_mul, UInt32.toNat_toUInt64, UInt32.toNat_toUInt64, Nat.mod_eq_of_lt (by omega)]

theorem refillRate_toNat (val : PolicyValue) (tier : UInt8) :
    (refillRate val tier).toNat = max 1 ((tokenMu val).toNat * (tierPpm val tier).toNat / 1000000) := by
  have hs : ppmScale.toUInt64.toNat = 1000000 := by decide
  have hquot : ((tokenMu val).toUInt64 * (tierPpm val tier).toUInt64 / ppmScale.toUInt64).toNat =
      (tokenMu val).toNat * (tierPpm val tier).toNat / 1000000 := by
    rw [UInt64.toNat_div, mul_toUInt64_toNat, hs]
  simp only [refillRate]
  split
  · rename_i h
    rw [h] at hquot
    rw [← hquot]
    rfl
  · rename_i h
    rw [← UInt64.toNat_inj, hquot] at h
    simp only [UInt64.toNat_zero] at h
    rw [hquot]
    omega

theorem refillRate_lt (val : PolicyValue) (tier : UInt8) : (refillRate val tier).toNat < 2 ^ 45 := by
  have h := Nat.mul_lt_mul_of_lt_of_lt (tokenMu val).toNat_lt (tierPpm val tier).toNat_lt
  rw [refillRate_toNat]
  omega

theorem rate_mul_ten (rate : UInt64) (h : rate.toNat < 2 ^ 45) : (rate * 10).toNat = rate.toNat * 10 := by
  rw [UInt64.toNat_mul]
  exact Nat.mod_eq_of_lt (by simp only [UInt64.reduceToNat]; omega)

/-! ## One call -/

theorem elapsed_toNat {now last : UInt64} (h : last ≤ now) : (now - last).toNat = now.toNat - last.toNat :=
  UInt64.toNat_sub_of_le _ _ h

theorem refill_cases (rate now : UInt64) (b : TokenBucket) (hle : b.lastRefillNs ≤ now) :
    refill rate now b = b ∨
      (refill rate now b).lastRefillNs = now ∧
        (refill rate now b).tokens.toNat ≤
          b.tokens.toNat + (now.toNat - b.lastRefillNs.toNat) / 1000000000 * rate.toNat := by
  simp only [refill]
  split
  · right
    refine ⟨rfl, ?_⟩
    have hsum : (b.tokens + (now - b.lastRefillNs) / nsPerSec * rate).toNat ≤
        b.tokens.toNat + (now.toNat - b.lastRefillNs.toNat) / 1000000000 * rate.toNat := by
      rw [UInt64.toNat_add, UInt64.toNat_mul, UInt64.toNat_div, elapsed_toNat hle]
      show (_ + (_ / 1000000000 * _) % _) % _ ≤ _
      exact Nat.le_trans (Nat.mod_le _ _) (Nat.add_le_add_left (Nat.mod_le _ _) _)
    show (if rate * 10 < _ then _ else _ : UInt64).toNat ≤ _
    split
    · rename_i h
      rw [UInt64.lt_iff_toNat_lt] at h
      omega
    · exact hsum
  · exact Or.inl rfl

theorem refill_capped (rate now : UInt64) (b : TokenBucket) (hb : b.tokens ≤ rate * 10) :
    (refill rate now b).tokens ≤ rate * 10 := by
  simp only [refill]
  split
  · show (if rate * 10 < _ then _ else _ : UInt64) ≤ _
    split
    · exact UInt64.le_refl _
    · rename_i h
      exact UInt64.not_lt.mp h
  · exact hb

theorem charge_one (b : TokenBucket) :
    charge b 1 = (true, { b with tokens := b.tokens - 1 }) ∧ 1 ≤ b.tokens.toNat ∧
        (b.tokens - 1).toNat = b.tokens.toNat - 1 ∨
      charge b 1 = (false, b) ∧ b.tokens.toNat = 0 := by
  simp only [charge]
  by_cases h : (1 : UInt64) ≤ b.tokens
  · left
    rw [if_pos h]
    refine ⟨rfl, ?_, UInt64.toNat_sub_of_le _ _ h⟩
    simpa [UInt64.le_iff_toNat_le] using h
  · right
    rw [if_neg h]
    rw [UInt64.le_iff_toNat_le] at h
    simp only [UInt64.toNat_one] at h
    exact ⟨rfl, by omega⟩

@[simp] theorem setBucket_same (bs : Buckets) (k : SrcKey) (b : TokenBucket) : setBucket bs k b k = some b := by
  simp [setBucket]

theorem setBucket_ne (bs : Buckets) {k k' : SrcKey} (b : TokenBucket) (h : k' ≠ k) : setBucket bs k b k' = bs k' := by
  simp [setBucket, h]

theorem setBucket_setBucket (bs : Buckets) (k : SrcKey) (b b' : TokenBucket) :
    setBucket (setBucket bs k b) k b' = setBucket bs k b' := by
  funext k'
  simp only [setBucket]
  split <;> rfl

def pay (rate now : UInt64) (b : TokenBucket) : Bool × TokenBucket := charge (refill rate now b) 1

theorem tokenConsume_found (val : PolicyValue) (bs : Buckets) (k : SrcKey) (now : UInt64) (stored : Bool)
    {b : TokenBucket} (hb : bs k = some b) :
    tokenConsume val bs k.srcIp k.tier 1 now stored =
      ((pay (refillRate val k.tier) now b).1, setBucket bs k (pay (refillRate val k.tier) now b).2) := by
  simp [tokenConsume, hb, pay]

theorem tokenConsume_new (val : PolicyValue) (bs : Buckets) (k : SrcKey) (now : UInt64) (hb : bs k = none) :
    tokenConsume val bs k.srcIp k.tier 1 now true =
      ((pay (refillRate val k.tier) now ⟨refillRate val k.tier, now⟩).1,
        setBucket bs k (pay (refillRate val k.tier) now ⟨refillRate val k.tier, now⟩).2) := by
  simp [tokenConsume, hb, pay]

theorem tokenConsume_other (val : PolicyValue) (bs : Buckets) {k k' : SrcKey} (now : UInt64) (stored : Bool)
    (h : k' ≠ k) : (tokenConsume val bs k.srcIp k.tier 1 now stored).2 k' = bs k' := by
  simp only [tokenConsume]
  split
  · exact setBucket_ne bs _ h
  · split
    · exact setBucket_ne bs _ h
    · rfl

/-! ## The books of one bucket -/

def books (b : TokenBucket) (admitted : Nat) : Books := ⟨b.tokens.toNat, b.lastRefillNs.toNat, admitted⟩

theorem pay_steps (rate now : UInt64) (b : TokenBucket) (hle : b.lastRefillNs ≤ now) (n : Nat) :
    Steps rate.toNat 1000000000 (books b n) (books (pay rate now b).2 (n + if (pay rate now b).1 then 1 else 0)) := by
  have hrefill : Steps rate.toNat 1000000000 (books b n) (books (refill rate now b) n) := by
    rcases refill_cases rate now b hle with h | ⟨hlast, htok⟩
    · rw [h]
    · have hto : books (refill rate now b) n = ⟨(refill rate now b).tokens.toNat, now.toNat, n⟩ := by
        rw [books, hlast]
      rw [hto]
      exact Relation.ReflTransGen.single (.refill (books b n) now.toNat _ (UInt64.le_iff_toNat_le.mp hle) htok)
  rcases charge_one (refill rate now b) with ⟨h, hpos, hsub⟩ | ⟨h, -⟩
  · simp only [pay, h, if_true]
    have hto : books { refill rate now b with tokens := (refill rate now b).tokens - 1 } (n + 1) =
        ⟨(refill rate now b).tokens.toNat - 1, (refill rate now b).lastRefillNs.toNat, n + 1⟩ := by
      rw [books, hsub]
    rw [hto]
    exact hrefill.tail (.spend (books (refill rate now b) n) hpos)
  · simpa [pay, h] using hrefill

theorem pay_capped (rate now : UInt64) (b : TokenBucket) (hb : b.tokens ≤ rate * 10) :
    (pay rate now b).2.tokens ≤ rate * 10 := by
  have hr := refill_capped rate now b hb
  rcases charge_one (refill rate now b) with ⟨h, -, hsub⟩ | ⟨h, -⟩
  · rw [pay, h]
    rw [UInt64.le_iff_toNat_le] at hr ⊢
    show (_ - 1 : UInt64).toNat ≤ _
    omega
  · rw [pay, h]
    exact hr

theorem pay_last (rate now : UInt64) (b : TokenBucket) (hle : b.lastRefillNs ≤ now) :
    (pay rate now b).2.lastRefillNs = b.lastRefillNs ∨ (pay rate now b).2.lastRefillNs = now := by
  have hcharge : (pay rate now b).2.lastRefillNs = (refill rate now b).lastRefillNs := by
    rcases charge_one (refill rate now b) with ⟨h, -⟩ | ⟨h, -⟩ <;> simp [pay, h]
  rw [hcharge]
  rcases refill_cases rate now b hle with h | ⟨h, -⟩
  · rw [h]; exact Or.inl rfl
  · exact Or.inr h

/-! ## Runs -/

inductive BucketEv where
  | consume (k : SrcKey) (now : UInt64) (stored : Bool)
  | evict (k : SrcKey)
  deriving DecidableEq, Repr

/-- A call answers its key and what `token_consume` returned. -/
def bucketStep (val : PolicyValue) (bs : Buckets) : BucketEv → Option (SrcKey × Bool) × Buckets
  | .consume k now stored =>
    (some (k, (tokenConsume val bs k.srcIp k.tier 1 now stored).1), (tokenConsume val bs k.srcIp k.tier 1 now stored).2)
  | .evict k => (none, fun k' => if k' = k then none else bs k')

def BucketEv.time? : BucketEv → Option UInt64
  | .consume _ now _ => some now
  | .evict _ => none

def callTimes (evs : List BucketEv) : List UInt64 := evs.filterMap BucketEv.time?

/-- A bucket of `k` whose books, `n` admissions in, are covered since `start`. -/
structure Covered (val : PolicyValue) (k : SrcKey) (start : Nat) (bs : Buckets) (b : TokenBucket) (n : Nat) : Prop where
  found : bs k = some b
  paid : Paid (refillRate val k.tier).toNat 1000000000 start (books b n)
  capped : b.tokens ≤ refillRate val k.tier * 10

theorem consume_covered {val : PolicyValue} {k : SrcKey} {start : Nat} {bs : Buckets} {b : TokenBucket} {n : Nat}
    (h : Covered val k start bs b n) {now : UInt64} (hle : b.lastRefillNs ≤ now) (stored : Bool) :
    ∃ b', Covered val k start (tokenConsume val bs k.srcIp k.tier 1 now stored).2 b'
        (n + if (tokenConsume val bs k.srcIp k.tier 1 now stored).1 then 1 else 0) ∧ b'.lastRefillNs ≤ now := by
  rw [tokenConsume_found val bs k now stored h.found]
  refine ⟨(pay (refillRate val k.tier) now b).2, ⟨setBucket_same _ _ _, ?_, pay_capped _ _ _ h.capped⟩, ?_⟩
  · exact EliteTelemetry.Lib.Limiter.steps_paid (pay_steps _ now b hle n) h.paid
  · rcases pay_last (refillRate val k.tier) now b hle with e | e
    · rw [e]; exact hle
    · rw [e]; exact UInt64.le_refl _

/-- A run keeps `Covered`: the admissions counted are those the run answered for `k`. -/
theorem run_covered {val : PolicyValue} {k : SrcKey} {start : Nat} :
    ∀ (evs : List BucketEv) {bs : Buckets} {b : TokenBucket} {n : Nat}, Covered val k start bs b n →
      (∀ t ∈ callTimes evs, b.lastRefillNs ≤ t) → (callTimes evs).Pairwise (· ≤ ·) → BucketEv.evict k ∉ evs →
      ∃ b', Covered val k start (exec (bucketStep val) bs evs).2 b'
          (n + (exec (bucketStep val) bs evs).1.count (some (k, true))) ∧
        (b'.lastRefillNs ≤ b.lastRefillNs ∨ ∃ t ∈ callTimes evs, b'.lastRefillNs ≤ t) := by
  intro evs
  induction evs with
  | nil => intro bs b n h _ _ _; exact ⟨b, h, Or.inl (UInt64.le_refl _)⟩
  | cons e evs ih =>
    intro bs b n h hlast hsort hkeep
    have hkeep' : BucketEv.evict k ∉ evs := fun hm => hkeep (List.mem_cons_of_mem _ hm)
    cases e with
    | evict k' =>
      -- another key's bucket is dropped
      have hne : k ≠ k' := by intro e; subst e; exact hkeep List.mem_cons_self
      have h' : Covered val k start (bucketStep val bs (.evict k')).2 b n :=
        ⟨by simp [bucketStep, hne, h.found], h.paid, h.capped⟩
      obtain ⟨b', hb', hl'⟩ := ih h' hlast hsort hkeep'
      refine ⟨b', ?_, hl'⟩
      rwa [exec_cons, List.count_cons_of_ne (by simp [bucketStep])]
    | consume k' now stored =>
      have hsort' := List.pairwise_cons.mp hsort
      by_cases hk : k' = k
      · subst hk
        obtain ⟨b1, h1, hle1⟩ := consume_covered h (hlast now List.mem_cons_self) stored
        obtain ⟨b', hb', hl'⟩ := ih h1 (fun t ht => UInt64.le_trans hle1 (hsort'.1 t ht)) hsort'.2 hkeep'
        refine ⟨b', ?_, Or.inr ?_⟩
        · simp only [exec_cons, List.count_cons, bucketStep, beq_iff_eq, Option.some.injEq, Prod.mk.injEq, true_and]
          rwa [Nat.add_assoc, Nat.add_comm (ite _ _ _)] at hb'
        · rcases hl' with hl | ⟨t, ht, hl⟩
          · exact ⟨now, List.mem_cons_self, UInt64.le_trans hl hle1⟩
          · exact ⟨t, List.mem_cons_of_mem _ ht, hl⟩
      · have h' : Covered val k start (bucketStep val bs (.consume k' now stored)).2 b n :=
          ⟨by rw [bucketStep, tokenConsume_other val bs now stored (Ne.symm hk), h.found], h.paid, h.capped⟩
        obtain ⟨b', hb', hl'⟩ := ih h' (fun t ht => hlast t (List.mem_cons_of_mem _ ht)) hsort'.2 hkeep'
        refine ⟨b', ?_, ?_⟩
        · rwa [exec_cons, List.count_cons_of_ne (by simp [bucketStep, hk])]
        · rcases hl' with hl | ⟨t, ht, hl⟩
          · exact Or.inl hl
          · exact Or.inr ⟨t, List.mem_cons_of_mem _ ht, hl⟩

/-- From the call that creates a bucket at `t0` up to any later time `t`, whatever other
    keys do: the calls admitted are at most the rate for the creation and for each whole
    second since, and the bucket never holds more than ten seconds' worth. -/
theorem bucket_admits_at_rate (val : PolicyValue) (bs : Buckets) (k : SrcKey) (t0 t : UInt64) (evs : List BucketEv)
    (hnew : bs k = none) (hclock : (t0 :: callTimes evs ++ [t]).Pairwise (· ≤ ·)) (hkeep : BucketEv.evict k ∉ evs) :
    (exec (bucketStep val) bs (.consume k t0 true :: evs)).1.count (some (k, true)) ≤
        (refillRate val k.tier).toNat * (1 + (t.toNat - t0.toNat) / 1000000000) ∧
      ∃ b, (exec (bucketStep val) bs (.consume k t0 true :: evs)).2 k = some b ∧
        b.tokens.toNat ≤ 10 * (refillRate val k.tier).toNat := by
  have hrate := refillRate_lt val k.tier
  have hten := rate_mul_ten _ hrate
  have hclock' := List.pairwise_cons.mp hclock
  obtain ⟨hsort, -, hend⟩ := List.pairwise_append.mp hclock'.2
  -- the creating call sees the bucket it has just inserted
  let fresh : TokenBucket := ⟨refillRate val k.tier, t0⟩
  have hopen : Covered val k t0.toNat (setBucket bs k fresh) fresh 0 := by
    refine ⟨setBucket_same _ _ _, EliteTelemetry.Lib.Limiter.open_paid, ?_⟩
    rw [UInt64.le_iff_toNat_le, hten]
    show (refillRate val k.tier).toNat ≤ _
    omega
  have hsame : tokenConsume val bs k.srcIp k.tier 1 t0 true =
      tokenConsume val (setBucket bs k fresh) k.srcIp k.tier 1 t0 true := by
    rw [tokenConsume_new val bs k t0 hnew, tokenConsume_found val _ k t0 true hopen.found]
    simp [fresh, setBucket_setBucket]
  have hrun : exec (bucketStep val) bs (.consume k t0 true :: evs) =
      exec (bucketStep val) (setBucket bs k fresh) (.consume k t0 true :: evs) := by
    simp only [exec_cons, bucketStep, hsame]
  obtain ⟨b, hb, hlast⟩ := run_covered (.consume k t0 true :: evs) hopen
    (by
      intro u hu
      rcases List.mem_cons.mp hu with rfl | hu
      · exact UInt64.le_refl _
      · exact hclock'.1 u (List.mem_append_left _ hu))
    (List.pairwise_cons.mpr ⟨fun u hu => hclock'.1 u (List.mem_append_left _ hu), hsort⟩)
    (by simpa using hkeep)
  rw [hrun]
  refine ⟨?_, b, hb.found, ?_⟩
  · have hle : b.lastRefillNs ≤ t := by
      have ht0 : t0 ≤ t := hclock'.1 t (List.mem_append_right _ List.mem_cons_self)
      rcases hlast with h | ⟨u, hu, h⟩
      · exact UInt64.le_trans h ht0
      · rcases List.mem_cons.mp hu with rfl | hu
        · exact UInt64.le_trans h ht0
        · exact UInt64.le_trans h (hend u hu t List.mem_cons_self)
    have := EliteTelemetry.Lib.Limiter.admitted_le hb.paid (UInt64.le_iff_toNat_le.mp hle)
    simpa [books] using this
  · have := UInt64.le_iff_toNat_le.mp hb.capped
    omega

def tricklePolicy : PolicyValue := { calmPolicy with muTokensPerSec := 2 }

/-- Two tokens a second: of five calls in a little over a second at most four are admitted. -/
theorem bucket_admits_at_rate_trickle :
    let evs : List BucketEv := [.consume ⟨7, 0⟩ 20 true, .consume ⟨7, 0⟩ 30 true, .evict ⟨8, 0⟩,
      .consume ⟨7, 0⟩ 1000000011 true, .consume ⟨7, 0⟩ 1000000012 true]
    let r := exec (bucketStep tricklePolicy) (fun _ => none) (.consume ⟨7, 0⟩ 10 true :: evs)
    r.1.count (some (⟨7, 0⟩, true)) ≤ 4 ∧ ∃ b, r.2 ⟨7, 0⟩ = some b ∧ b.tokens.toNat ≤ 20 := by
  intro evs r
  have h := bucket_admits_at_rate tricklePolicy (fun _ => none) ⟨7, 0⟩ 10 1000000012 evs rfl (by decide) (by decide)
  rw [show (refillRate tricklePolicy (SrcKey.tier ⟨7, 0⟩)).toNat = 2 by decide] at h
  exact h

end EliteTelemetry.Xdp
