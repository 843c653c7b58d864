/-
  EliteTelemetry.Lib.Machine — runs of a machine that takes one event at a time.

  `exec` runs a step that answers every event and collects the answers. `along` says that
  a property of state and event holds at every step of a run: the way a condition on the
  steps of a run is stated here. `always` says that a property of states holds in every
  state a run reaches. `runs` runs a step that may be disabled, and `during` is `along` for it.
  `Becomes` compares functions of fuel, where one spends some and then does as another does.
-/

namespace EliteTelemetry.Lib.Machine

universe u v w

variable {σ : Type u} {ε : Type v} {ω : Type w}

/-! ## Machines that answer every event -/

def exec (step : σ → ε → ω × σ) : σ → List ε → List ω × σ
  | s, [] => ([], s)
  | s, e :: es => ((step s e).1 :: (exec step (step s e).2 es).1, (exec step (step s e).2 es).2)

/-- `P` holds of the state and the event at every step of the run. -/
def along (step : σ → ε → ω × σ) (P : σ → ε → Prop) : σ → List ε → Prop
  | _, [] => True
  | s, e :: es => P s e ∧ along step P (step s e).2 es

/-- `Q` holds of every state the run is in, from the first to the last. -/
def always (step : σ → ε → ω × σ) (Q : σ → Prop) : σ → List ε → Prop
  | s, [] => Q s
  | s, e :: es => Q s ∧ always step Q (step s e).2 es

variable {step : σ → ε → ω × σ}

@[simp] theorem exec_nil (s : σ) : exec step s ([] : List ε) = ([], s) := rfl

@[simp] theorem exec_cons (s : σ) (e : ε) (es : List ε) :
    exec step s (e :: es) = ((step s e).1 :: (exec step (step s e).2 es).1, (exec step (step s e).2 es).2) := rfl

@[simp] theorem along_nil (P : σ → ε → Prop) (s : σ) : along step P s [] ↔ True := Iff.rfl

@[simp] theorem along_cons (P : σ → ε → Prop) (s : σ) (e : ε) (es : List ε) :
    along step P s (e :: es) ↔ P s e ∧ along step P (step s e).2 es := Iff.rfl

theorem exec_length (s : σ) (es : List ε) : (exec step s es).1.length = es.length := by
  induction es generalizing s with
  | nil => rfl
  | cons e es ih => simp [ih]

theorem exec_append (s : σ) (es fs : List ε) :
    exec step s (es ++ fs) =
      ((exec step s es).1 ++ (exec step (exec step s es).2 fs).1, (exec step (exec step s es).2 fs).2) := by
  induction es generalizing s with
  | nil => rfl
  | cons e es ih => simp [ih]

variable {es : List ε} {s t : σ} {I Q : σ → Prop} {P : σ → ε → Prop}

theorem along_append (s : σ) (es fs : List ε) :
    along step P s (es ++ fs) ↔ along step P s es ∧ along step P (exec step s es).2 fs := by
  induction es generalizing s with
  | nil => simp
  | cons e es ih => simp [ih, and_assoc]

theorem along_of_forall (h : ∀ s, ∀ e ∈ es, P s e) (s : σ) : along step P s es := by
  induction es generalizing s with
  | nil => trivial
  | cons e es ih => exact ⟨h s e (by simp), ih (fun t f hf => h t f (by simp [hf])) _⟩

theorem along_and {Q : σ → ε → Prop} (s : σ) (es : List ε) :
    along step (fun s e => P s e ∧ Q s e) s es ↔ along step P s es ∧ along step Q s es := by
  induction es generalizing s with
  | nil => simp
  | cons e es ih => simp [ih, and_assoc, and_left_comm]

/-- Along a run means: after each of its beginnings, at the event that comes next. -/
theorem along_iff_beginnings (s : σ) (es : List ε) :
    along step P s es ↔ ∀ pre e, pre ++ [e] <+: es → P (exec step s pre).2 e := by
  induction es generalizing s with
  | nil =>
    refine ⟨fun _ pre e h => ?_, fun _ => trivial⟩
    simp at h
  | cons f es ih =>
    rw [along_cons, ih]
    constructor
    · rintro ⟨hf, hrest⟩ pre e h
      cases pre with
      | nil =>
        obtain ⟨rfl, -⟩ := List.cons_prefix_cons.mp h
        exact hf
      | cons g pre =>
        obtain ⟨rfl, hpre⟩ := List.cons_prefix_cons.mp h
        exact hrest pre e hpre
    · intro h
      refine ⟨h [] f (by simp), fun pre e hpre => ?_⟩
      exact h (f :: pre) e (List.cons_prefix_cons.mpr ⟨rfl, hpre⟩)

/-- A property of states that every allowed step keeps holds after every allowed run. -/
theorem exec_keeps (hI : ∀ s e, P s e → I s → I (step s e).2) (hs : I s) (hP : along step P s es) :
    I (exec step s es).2 := by
  induction es generalizing s with
  | nil => exact hs
  | cons e es ih => exact ih (hI s e hP.1 hs) hP.2

/-- Every answer of a run is as `Q` says exactly when every step met the condition that
    makes its answer so. -/
theorem exec_forall_iff {Q : ω → Prop} (h : ∀ s e, Q (step s e).1 ↔ P s e) (s : σ) (es : List ε) :
    (∀ o ∈ (exec step s es).1, Q o) ↔ along step P s es := by
  induction es generalizing s with
  | nil => simp
  | cons e es ih => simp [h, ih]

/-- Two properties of a run's steps agree on whole runs where, under an invariant that the
    steps meeting one of them keep, they agree on every step. -/
theorem along_iff_along {R : σ → ε → Prop} (hkeep : ∀ s e, I s → P s e → I (step s e).2)
    (hiff : ∀ s e, I s → (R s e ↔ P s e)) (hs : I s) (es : List ε) : along step R s es ↔ along step P s es := by
  induction es generalizing s with
  | nil => exact Iff.rfl
  | cons e es ih =>
    constructor
    · intro h
      have hP := (hiff s e hs).mp h.1
      exact ⟨hP, (ih (hkeep s e hs hP)).mp h.2⟩
    · intro h
      exact ⟨(hiff s e hs).mpr h.1, (ih (hkeep s e hs h.1)).mpr h.2⟩

theorem along_iff_along_of {A R : σ → ε → Prop} (hkeep : ∀ s e, I s → A s e → P s e → I (step s e).2)
    (hiff : ∀ s e, I s → A s e → (R s e ↔ P s e)) (hs : I s) (hA : along step A s es) :
    along step R s es ↔ along step P s es := by
  have hboth := along_iff_along (P := fun s e => A s e ∧ P s e) (R := fun s e => A s e ∧ R s e)
    (fun s e hi h => hkeep s e hi h.1 h.2) (fun s e hi => and_congr_right (hiff s e hi)) hs es
  rw [along_and, along_and] at hboth
  exact (and_iff_right hA).symm.trans (hboth.trans (and_iff_right hA))

/-- Every answer of an allowed run is as `Q` says, if under an invariant that the allowed
    steps keep each of their answers is. -/
theorem exec_answers {Q : ω → Prop} (h : ∀ s e, I s → P s e → Q (step s e).1 ∧ I (step s e).2) (hs : I s)
    (hP : along step P s es) : ∀ o ∈ (exec step s es).1, Q o := by
  induction es generalizing s with
  | nil => simp
  | cons e es ih =>
    obtain ⟨ho, hi⟩ := h s e hs hP.1
    intro o hmem
    rcases List.mem_cons.mp hmem with rfl | hmem
    · exact ho
    · exact ih hi hP.2 o hmem

/-- A machine whose every step answers as a step of another one does, seen through `out` and
    `out'`, answers whole runs as the other one does. -/
theorem exec_simulates {τ : Type u} {δ : Type v} {χ β : Type w} {step' : τ → δ → χ × τ} {R : σ → τ → Prop} {f : ε → δ}
    {out : ω → β} {out' : χ → β}
    (h : ∀ s t, R s t → ∀ e ∈ es, out (step s e).1 = out' (step' t (f e)).1 ∧ R (step s e).2 (step' t (f e)).2)
    {t : τ} (hst : R s t) : (exec step s es).1.map out = (exec step' t (es.map f)).1.map out' := by
  induction es generalizing s t with
  | nil => rfl
  | cons e es ih =>
    obtain ⟨ho, hR⟩ := h s t hst e (by simp)
    have hrest := ih (fun s t hst e he => h s t hst e (by simp [he])) hR
    simp [ho, hrest]

theorem always_head (h : always step Q s es) : Q s := by
  cases es with
  | nil => exact h
  | cons e es => exact h.1

/-- In a run whose steps are all as `A` says, `Q` holds in every state exactly when every step
    met `P`, where an invariant that gives `Q` is kept by the steps that meet `P` and `Q` is
    lost at one that does not. -/
theorem always_iff_along_of {A : σ → ε → Prop} (hQ : ∀ s, I s → Q s)
    (hkeep : ∀ s e, I s → A s e → P s e → I (step s e).2) (hbreak : ∀ s e, I s → A s e → ¬ P s e → ¬ Q (step s e).2)
    (hs : I s) (hA : along step A s es) : always step Q s es ↔ along step P s es := by
  induction es generalizing s with
  | nil => exact ⟨fun _ => trivial, fun _ => hQ s hs⟩
  | cons e es ih =>
    by_cases hP : P s e
    · have hi := ih (hkeep s e hs hA.1 hP) hA.2
      exact ⟨fun h => ⟨hP, hi.mp h.2⟩, fun h => ⟨hQ s hs, hi.mpr h.2⟩⟩
    · exact ⟨fun h => absurd (always_head h.2) (hbreak s e hs hA.1 hP), fun h => absurd h.1 hP⟩

theorem always_iff_along (hQ : ∀ s, I s → Q s) (hkeep : ∀ s e, I s → P s e → I (step s e).2)
    (hbreak : ∀ s e, I s → ¬ P s e → ¬ Q (step s e).2) (hs : I s) (es : List ε) :
    always step Q s es ↔ along step P s es :=
  always_iff_along_of (A := fun _ _ => True) hQ (fun s e hi _ => hkeep s e hi) (fun s e hi _ => hbreak s e hi) hs
    (along_of_forall (fun _ _ _ => trivial) s)

/-- An invariant that gives `Q` and is kept by the steps that meet `P` gives `Q` in every state. -/
theorem always_of_along (hQ : ∀ s, I s → Q s) (hkeep : ∀ s e, I s → P s e → I (step s e).2) (hs : I s)
    (hP : along step P s es) : always step Q s es := by
  induction es generalizing s with
  | nil => exact hQ s hs
  | cons e es ih => exact ⟨hQ s hs, ih (hkeep s e hs hP.1) hP.2⟩

/-- What holds of every step taken in a state with `Q` holds along a run that is always in one. -/
theorem along_of_always {R : σ → ε → Prop} (h : ∀ s e, Q s → R s e) (hQ : always step Q s es) :
    along step R s es := by
  induction es generalizing s with
  | nil => trivial
  | cons e es ih => exact ⟨h s e hQ.1, ih hQ.2⟩

/-! ## Machines whose steps may be disabled -/

def runs (step : σ → ε → Option σ) : σ → List ε → Option σ
  | s, [] => some s
  | s, e :: es => (step s e).bind fun t => runs step t es

/-- What holds at the start and is kept by every enabled step holds after every run. -/
theorem runs_keeps {step : σ → ε → Option σ} (hI : ∀ s e t, step s e = some t → I s → I t) (hs : I s)
    (h : runs step s es = some t) : I t := by
  induction es generalizing s with
  | nil =>
    cases h
    exact hs
  | cons e es ih =>
    obtain ⟨u, hu, ht⟩ := Option.bind_eq_some_iff.mp h
    exact ih (hI s e u hu hs) ht

def during (step : σ → ε → Option σ) (P : σ → ε → Prop) : σ → List ε → Prop
  | _, [] => True
  | s, e :: es => P s e ∧ ∀ t, step s e = some t → during step P t es

/-- What holds at the start and is kept by every enabled step that meets `P` holds after every
    run whose steps meet it. -/
theorem runs_keeps_during {step : σ → ε → Option σ} (hI : ∀ s e t, P s e → step s e = some t → I s → I t) (hs : I s)
    (hP : during step P s es) (h : runs step s es = some t) : I t := by
  induction es generalizing s with
  | nil =>
    cases h
    exact hs
  | cons e es ih =>
    obtain ⟨u, hu, ht⟩ := Option.bind_eq_some_iff.mp h
    exact ih (hI s e u hP.1 hu hs) (hP.2 u hu) ht

/-- `Q` holds after a run exactly when every step met `P`, where an invariant that gives `Q` is
    kept by the steps that meet `P`, and one that does not brings about what stays and
    excludes `Q`. -/
theorem runs_iff_during {step : σ → ε → Option σ} {B : σ → Prop} (hQ : ∀ s, I s → Q s)
    (hkeep : ∀ s e t, step s e = some t → I s → P s e → I t)
    (hbreak : ∀ s e t, step s e = some t → I s → ¬ P s e → B t) (hstay : ∀ s e t, step s e = some t → B s → B t)
    (hB : ∀ s, B s → ¬ Q s) (hs : I s) (h : runs step s es = some t) : Q t ↔ during step P s es := by
  induction es generalizing s with
  | nil =>
    cases h
    exact ⟨fun _ => trivial, fun _ => hQ _ hs⟩
  | cons e es ih =>
    obtain ⟨u, hu, hrest⟩ := Option.bind_eq_some_iff.mp h
    by_cases hP : P s e
    · rw [ih (hkeep s e u hu hs hP) hrest]
      refine ⟨fun hd => ⟨hP, fun t ht => ?_⟩, fun hd => hd.2 u hu⟩
      obtain rfl : u = t := Option.some.inj (hu.symm.trans ht)
      exact hd
    · have hbad : B t := runs_keeps hstay (hbreak s e u hu hs hP) hrest
      exact ⟨fun hq => absurd hq (hB t hbad), fun hd => absurd hd.1 hP⟩

theorem runs_append (step : σ → ε → Option σ) (s : σ) (es fs : List ε) :
    runs step s (es ++ fs) = (runs step s es).bind fun t => runs step t fs := by
  induction es generalizing s with
  | nil => rfl
  | cons e es ih => simp only [List.cons_append, runs, ih, Option.bind_assoc]

theorem runs_snoc {step : σ → ε → Option σ} {e : ε} :
    runs step s (es ++ [e]) = some t ↔ ∃ u, runs step s es = some u ∧ step u e = some t := by
  rw [runs_append, Option.bind_eq_some_iff]
  simp [runs]

/-- What holds after a run and can only begin with an event of `E` held before, or one of the
    events was one of `E`. -/
theorem runs_cause {step : σ → ε → Option σ} {F : σ → Prop} {E : ε → Prop}
    (hF : ∀ s e t, step s e = some t → F t → F s ∨ E e) (h : runs step s es = some t) (ht : F t) :
    F s ∨ ∃ e ∈ es, E e := by
  induction es generalizing s with
  | nil =>
    cases h
    exact .inl ht
  | cons e es ih =>
    obtain ⟨u, hu, hrest⟩ := Option.bind_eq_some_iff.mp h
    rcases ih hrest with hFu | ⟨e', he', hE⟩
    · rcases hF s e u hu hFu with hs | he
      · exact .inl hs
      · exact .inr ⟨e, List.mem_cons_self, he⟩
    · exact .inr ⟨e', List.mem_cons_of_mem _ he', hE⟩

/-- What an event of `E` begins and every step keeps holds after every run with such an event. -/
theorem runs_effect {step : σ → ε → Option σ} {F : σ → Prop} {E : ε → Prop}
    (hkeep : ∀ s e t, step s e = some t → F s → F t) (hE : ∀ s e t, step s e = some t → E e → F t)
    (h : runs step s es = some t) {e : ε} (he : e ∈ es) (hEe : E e) : F t := by
  induction es generalizing s with
  | nil => cases he
  | cons e' es ih =>
    obtain ⟨u, hu, hrest⟩ := Option.bind_eq_some_iff.mp h
    rcases List.mem_cons.mp he with rfl | he
    · exact runs_keeps hkeep (hE s e u hu hEe) hrest
    · exact ih hrest he

section Once

variable {step : σ → ε → Option σ} {F : σ → Prop} {E : ε → Prop}

/-- What forbids the events of `E` and is kept by every step keeps them out of the run. -/
theorem runs_never (hkeep : ∀ s e t, step s e = some t → F s → F t) (hE : ∀ s e t, step s e = some t → E e → ¬ F s)
    (hs : F s) (h : runs step s es = some t) {e : ε} (he : e ∈ es) : ¬ E e := by
  induction es generalizing s with
  | nil => cases he
  | cons e' es ih =>
    obtain ⟨u, hu, hrest⟩ := Option.bind_eq_some_iff.mp h
    rcases List.mem_cons.mp he with rfl | he
    · exact fun hEe => hE s e u hu hEe hs
    · exact ih (hkeep s e' u hu hs) hrest he

theorem runs_once (hkeep : ∀ s e t, step s e = some t → F s → F t)
    (hE : ∀ s e t, step s e = some t → E e → ¬ F s ∧ F t) (h : runs step s es = some t) {a b : ε} (ha : a ∈ es)
    (hb : b ∈ es) (hEa : E a) (hEb : E b) : a = b := by
  have hnever : ∀ s e t, step s e = some t → E e → ¬ F s := fun s e t hstep he => (hE s e t hstep he).1
  induction es generalizing s with
  | nil => cases ha
  | cons e es ih =>
    obtain ⟨u, hu, hrest⟩ := Option.bind_eq_some_iff.mp h
    rcases List.mem_cons.mp ha with rfl | hmem
    · rcases List.mem_cons.mp hb with rfl | hb
      · rfl
      · exact absurd hEb (runs_never hkeep hnever (hE s a u hu hEa).2 hrest hb)
    · rcases List.mem_cons.mp hb with rfl | hb
      · exact absurd hEa (runs_never hkeep hnever (hE s b u hu hEb).2 hrest hmem)
      · exact ih hrest hmem hb

end Once

/-! ## Functions of fuel -/

/-- After some fuel is spent, `run` is `rest` of what is left. -/
def Becomes (run rest : Nat → ω) : Prop := ∃ n, ∀ fuel, run (n + fuel) = rest fuel

theorem Becomes.refl (run : Nat → ω) : Becomes run run := ⟨0, fun fuel => by rw [Nat.zero_add]⟩

theorem Becomes.succ {run rest : Nat → ω} (h : ∀ fuel, run (fuel + 1) = rest fuel) : Becomes run rest :=
  ⟨1, fun fuel => by rw [Nat.add_comm, h]⟩

theorem Becomes.trans {run mid rest : Nat → ω} (h : Becomes run mid) (h' : Becomes mid rest) : Becomes run rest := by
  obtain ⟨n, hn⟩ := h
  obtain ⟨m, hm⟩ := h'
  exact ⟨n + m, fun fuel => by rw [Nat.add_assoc, hn, hm]⟩

/-- A result that comes after some fuel is the result for all greater fuel. -/
theorem Becomes.eventually {run : Nat → ω} {result : ω} (h : Becomes run fun _ => result) :
    ∃ n, ∀ fuel, n ≤ fuel → run fuel = result := by
  obtain ⟨n, hn⟩ := h
  refine ⟨n, fun fuel hle => ?_⟩
  obtain ⟨k, rfl⟩ := Nat.exists_eq_add_of_le hle
  exact hn k

end EliteTelemetry.Lib.Machine
