/-
  EliteTelemetry.Lib.Halting — machines that go on by themselves until they halt.

  A step gives the next state or a result. A machine `Ends` with a result, or not at all, and
  `Comes` to a state on its way. Two machines end alike if one is the image of the other
  (`ends_map`), if they differ only in states that are not come to (`ends_congr`), or if
  their states stay related step by step, but for single steps that one of them takes alone
  (`ends_simulates`). They come to the same place if they do the same before it (`comes_congr`).
-/

namespace EliteTelemetry.Lib.Halting

variable {σ τ β : Type}

inductive Next (σ β : Type) where
  | go (s : σ)
  | halt (b : β)
  deriving DecidableEq, Repr

def Next.map (f : σ → τ) : Next σ β → Next τ β
  | .go s => .go (f s)
  | .halt b => .halt b

def steps (step : σ → Next σ β) : Nat → σ → Next σ β
  | 0, s => .go s
  | n + 1, s =>
    match step s with
    | .go t => steps step n t
    | .halt b => .halt b

def Ends (step : σ → Next σ β) (s : σ) (b : β) : Prop := ∃ n, steps step n s = .halt b

def Comes (step : σ → Next σ β) (s : σ) (Q : σ → Prop) : Prop := ∃ n t, steps step n s = .go t ∧ Q t

variable {step : σ → Next σ β} {step' : τ → Next τ β} {s t : σ} {b c : β}

/-! ## One step -/

theorem steps_go (h : step s = .go t) (n : Nat) : steps step (n + 1) s = steps step n t := by
  simp only [steps, h]

theorem steps_halt (h : step s = .halt c) (n : Nat) : steps step (n + 1) s = .halt c := by
  simp only [steps, h]

theorem ends_of_go (h : step s = .go t) : Ends step s b ↔ Ends step t b := by
  constructor
  · intro ⟨n, hn⟩
    cases n with
    | zero => exact absurd hn (by simp [steps])
    | succ n => exact ⟨n, (steps_go h n).symm.trans hn⟩
  · intro ⟨n, hn⟩
    exact ⟨n + 1, (steps_go h n).trans hn⟩

theorem ends_of_halt (h : step s = .halt c) : Ends step s b ↔ b = c := by
  constructor
  · intro ⟨n, hn⟩
    cases n with
    | zero => exact absurd hn (by simp [steps])
    | succ n =>
      rw [steps_halt h] at hn
      exact (Next.halt.inj hn).symm
  · intro hb
    exact ⟨1, by rw [steps_halt h, hb]⟩

theorem ends_of_steps {n : Nat} (h : steps step n s = .go t) : Ends step s b ↔ Ends step t b := by
  induction n generalizing s with
  | zero => rw [Next.go.inj h]
  | succ n ih =>
    cases hs : step s with
    | go u =>
      rw [steps_go hs] at h
      rw [ends_of_go hs, ih h]
    | halt c =>
      rw [steps_halt hs] at h
      exact absurd h (by simp)

theorem comes_of_go {Q : σ → Prop} (h : step s = .go t) (hcomes : Comes step t Q) : Comes step s Q := by
  obtain ⟨n, u, hn, hu⟩ := hcomes
  exact ⟨n + 1, u, (steps_go h n).trans hn, hu⟩

/-! ## Two machines -/

section Map

variable {f : σ → τ} (h : ∀ s, step' (f s) = (step s).map f)
include h

theorem steps_map (n : Nat) (s : σ) : steps step' n (f s) = (steps step n s).map f := by
  induction n generalizing s with
  | zero => rfl
  | succ n ih =>
    cases hs : step s with
    | go t => rw [steps_go hs, steps_go (by rw [h, hs]; rfl), ih]
    | halt c =>
      rw [steps_halt hs, steps_halt (c := c) (by rw [h, hs]; rfl)]
      rfl

theorem ends_map (s : σ) : Ends step' (f s) b ↔ Ends step s b := by
  refine exists_congr fun n => ?_
  rw [steps_map h]
  cases steps step n s with
  | go t => simp [Next.map]
  | halt c => simp [Next.map]

theorem comes_map (s : σ) (Q : τ → Prop) : Comes step' (f s) Q ↔ Comes step s fun t => Q (f t) := by
  refine exists_congr fun n => ?_
  rw [steps_map h]
  cases steps step n s with
  | go t => simp [Next.map]
  | halt c => simp [Next.map]

end Map

/-- Machines that differ only in states the one does not come to. -/
theorem ends_congr {other : σ → Next σ β} {Q : σ → Prop} (hsame : ∀ s, ¬Q s → step s = other s)
    (hnot : ¬Comes step s Q) : Ends step s b ↔ Ends other s b := by
  have hsteps : ∀ n s, ¬Comes step s Q → steps step n s = steps other n s := by
    intro n
    induction n with
    | zero => exact fun s _ => rfl
    | succ n ih =>
      intro s hnot
      have hs : step s = other s := hsame s fun hQ => hnot ⟨0, s, rfl, hQ⟩
      cases ho : step s with
      | go t =>
        rw [steps_go ho, steps_go (hs.symm.trans ho)]
        exact ih t fun hcomes => hnot (comes_of_go ho hcomes)
      | halt c => rw [steps_halt ho, steps_halt (hs.symm.trans ho)]
  exact exists_congr fun n => by rw [hsteps n s hnot]

/-- Machines that do the same in states with an invariant, short of those with the property. -/
theorem comes_congr {other : σ → Next σ β} {Q I : σ → Prop} (hsame : ∀ s, I s → ¬Q s → step s = other s)
    (hkeep : ∀ s t, I s → ¬Q s → step s = .go t → I t) (hs : I s) : Comes step s Q ↔ Comes other s Q := by
  have hboth : ∀ n s, I s → (∀ t, steps step n s = .go t → Q t → Comes other s Q) ∧
      ∀ t, steps other n s = .go t → Q t → Comes step s Q := by
    intro n
    induction n with
    | zero =>
      intro s _
      exact ⟨fun t ht hQ => ⟨0, t, ht, hQ⟩, fun t ht hQ => ⟨0, t, ht, hQ⟩⟩
    | succ n ih =>
      intro s hI
      by_cases hQs : Q s
      · exact ⟨fun _ _ _ => ⟨0, s, rfl, hQs⟩, fun _ _ _ => ⟨0, s, rfl, hQs⟩⟩
      have hs := hsame s hI hQs
      cases ho : step s with
      | go u =>
        have ho' := hs.symm.trans ho
        obtain ⟨hto, hfrom⟩ := ih u (hkeep s u hI hQs ho)
        rw [steps_go ho, steps_go ho']
        exact ⟨fun t ht hQ => comes_of_go ho' (hto t ht hQ), fun t ht hQ => comes_of_go ho (hfrom t ht hQ)⟩
      | halt c =>
        rw [steps_halt ho, steps_halt (hs.symm.trans ho)]
        exact ⟨fun t ht => absurd ht (by simp), fun t ht => absurd ht (by simp)⟩
  constructor
  · intro ⟨n, t, ht, hQ⟩
    exact (hboth n s hs).1 t ht hQ
  · intro ⟨n, t, ht, hQ⟩
    exact (hboth n s hs).2 t ht hQ

/-- Both machines take a step and stay related, or both halt with one result. -/
def Together (step : σ → Next σ β) (step' : τ → Next τ β) (R : σ → τ → Prop) (s : σ) (t : τ) : Prop :=
  (∃ s' t', step s = .go s' ∧ step' t = .go t' ∧ R s' t') ∨ ∃ c, step s = .halt c ∧ step' t = .halt c

/-- Machines that go on together, where the second may take one step alone in between. -/
theorem ends_simulates {R : σ → τ → Prop}
    (hsim : ∀ s t, R s t → Together step step' R s t ∨ ∃ t', step' t = .go t' ∧ Together step step' R s t')
    {s : σ} {t : τ} (h : R s t) : Ends step s b ↔ Ends step' t b := by
  constructor
  · intro ⟨n, hn⟩
    induction n generalizing s t with
    | zero => exact absurd hn (by simp [steps])
    | succ n ih =>
      have htogether : ∀ t, Together step step' R s t → Ends step' t b := by
        intro t ht
        rcases ht with ⟨s', t', hs, ht, hR⟩ | ⟨c, hs, ht⟩
        · rw [ends_of_go ht]
          exact ih hR ((steps_go hs n).symm.trans hn)
        · rw [steps_halt hs] at hn
          exact (ends_of_halt ht).mpr (Next.halt.inj hn).symm
      rcases hsim s t h with ht | ⟨t', hgo, ht⟩
      · exact htogether t ht
      · exact (ends_of_go hgo).mpr (htogether t' ht)
  · intro ⟨n, hn⟩
    -- by the number of steps of the second, before and after the step it takes alone
    have hboth : ∀ n, (∀ s t, R s t → steps step' n t = .halt b → Ends step s b) ∧
        ∀ s t, Together step step' R s t → steps step' n t = .halt b → Ends step s b := by
      intro n
      induction n with
      | zero => exact ⟨fun s t _ hn => absurd hn (by simp [steps]), fun s t _ hn => absurd hn (by simp [steps])⟩
      | succ n ih =>
        have htogether : ∀ s t, Together step step' R s t → steps step' (n + 1) t = .halt b → Ends step s b := by
          intro s t ht hn
          rcases ht with ⟨s', t', hs, ht, hR⟩ | ⟨c, hs, ht⟩
          · rw [ends_of_go hs]
            exact ih.1 s' t' hR ((steps_go ht n).symm.trans hn)
          · rw [steps_halt ht] at hn
            exact (ends_of_halt hs).mpr (Next.halt.inj hn).symm
        refine ⟨fun s t hR hn => ?_, htogether⟩
        rcases hsim s t hR with ht | ⟨t', hgo, ht⟩
        · exact htogether s t ht hn
        · exact ih.2 s t' ht ((steps_go hgo n).symm.trans hn)
    exact (hboth n).1 s t h hn

end EliteTelemetry.Lib.Halting
