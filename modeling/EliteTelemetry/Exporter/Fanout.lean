/-
  EliteTelemetry.Exporter.Fanout — events on their way from the probes to the sinks
  (`EventProbeManager` of `pkg/exporter/cmd/eventserver.go`: `start`, `stop` and `consume`).

  The probes hand their events to one goroutine, the dispatcher, which goes through the sinks for
  each. A sink has a channel with room for 1024 events; where it is full the event is discarded
  for that sink. A consumer for each sink takes events out and passes them to `Write`, which may
  take any time, or never return. `stop` closes `done`; a goroutine that finds it closed in its
  select returns, whatever else is ready.

  A step is a completed channel operation, or a return of `Write`. Which step comes next is open.

  For each sink, what has been written, what is being written and what is waiting are events that
  the dispatcher took, in that order and each once; they are all of those it has offered exactly
  if at each offer fewer than 1024 more had been offered than the consumer had taken out
  (`lossless_iff`). What a sink gets does not depend on the other sinks: every run goes through
  without the steps of their consumers as well, and comes to the same for this sink
  (`others_make_no_difference`).
-/

import EliteTelemetry.Lib.Channel
import EliteTelemetry.Lib.Machine
import Mathlib.Data.List.FinRange

namespace EliteTelemetry.Exporter.Fanout

open EliteTelemetry.Lib.Channel EliteTelemetry.Lib.Machine

/-! ## The goroutines -/

inductive Consumer (E : Type) where
  | waiting
  | writing (evt : E)
  | returned
  deriving DecidableEq, Repr

structure SinkWrapper (E : Type) where
  ch : Chan E
  consumer : Consumer E
  wrote : List E

/-- Where the goroutine of `start` is: in its select, or with an event in the loop over the sinks,
    before the sink `next`. -/
inductive Dispatcher (E : Type) (n : Nat) where
  | selecting
  | sending (evt : E) (next : Fin n) (rest : List (Fin n))
  | returned
  deriving DecidableEq, Repr

structure EventProbeManager (E : Type) (n : Nat) where
  sinks : Fin n → SinkWrapper E
  dispatcher : Dispatcher E n
  done : Bool
  taken : List E

inductive ConsumerStep where
  | receive
  | writeReturns
  | returns
  deriving DecidableEq, Repr

inductive Step (E : Type) (n : Nat) where
  | take (evt : E)
  | offer
  | dispatcherReturns
  | consume (s : Fin n) (e : ConsumerStep)
  | stop
  deriving DecidableEq, Repr

variable {E : Type} {n : Nat}

def toSinks (evt : E) : List (Fin n) → Dispatcher E n
  | [] => .selecting
  | s :: rest => .sending evt s rest

/-- The send of the dispatcher. The channels are never closed, so it never panics. -/
def sendOrDiscard (c : Chan E) (evt : E) : Chan E :=
  match c.send evt with
  | .ok c' => c'
  | _ => c

def SinkWrapper.consume (done : Bool) (w : SinkWrapper E) : ConsumerStep → Option (SinkWrapper E)
  | .receive =>
    match w.consumer, w.ch.receive with
    | .waiting, .value evt c => some { w with ch := c, consumer := .writing evt }
    | _, _ => none
  | .writeReturns =>
    match w.consumer with
    | .writing evt => some { w with consumer := .waiting, wrote := w.wrote ++ [evt] }
    | _ => none
  | .returns =>
    match w.consumer with
    | .waiting => if done then some { w with consumer := .returned } else none
    | _ => none

namespace EventProbeManager

/-- What `newEventServer` makes, with its goroutines started. -/
def start : EventProbeManager E n :=
  ⟨fun _ => ⟨.make 1024, .waiting, []⟩, .selecting, false, []⟩

def setSink (m : EventProbeManager E n) (s : Fin n) (w : SinkWrapper E) : EventProbeManager E n :=
  { m with sinks := Function.update m.sinks s w }

def step (m : EventProbeManager E n) : Step E n → Option (EventProbeManager E n)
  | .take evt =>
    match m.dispatcher with
    | .selecting => some { m with dispatcher := toSinks evt (List.finRange n), taken := m.taken ++ [evt] }
    | _ => none
  | .offer =>
    match m.dispatcher with
    | .sending evt s rest =>
      some { m.setSink s { m.sinks s with ch := sendOrDiscard (m.sinks s).ch evt } with dispatcher := toSinks evt rest }
    | _ => none
  | .dispatcherReturns =>
    match m.dispatcher with
    | .selecting => if m.done then some { m with dispatcher := .returned } else none
    | _ => none
  | .consume s e => ((m.sinks s).consume m.done e).map (m.setSink s)
  -- a second `close` panics
  | .stop => if m.done then none else some { m with done := true }

/-! ### What a step does -/

variable {m m' : EventProbeManager E n} {s : Fin n}

theorem step_take {evt : E} (h : m.step (.take evt) = some m') :
    m.dispatcher = .selecting ∧
      m' = { m with dispatcher := toSinks evt (List.finRange n), taken := m.taken ++ [evt] } := by
  simp only [step] at h
  split at h
  · rename_i hd
    exact ⟨hd, (Option.some.inj h).symm⟩
  · cases h

theorem step_offer (h : m.step .offer = some m') :
    ∃ evt t rest, m.dispatcher = .sending evt t rest ∧
      m' = { m.setSink t { m.sinks t with ch := sendOrDiscard (m.sinks t).ch evt } with
        dispatcher := toSinks evt rest } := by
  simp only [step] at h
  split at h
  · rename_i evt t rest hd
    exact ⟨evt, t, rest, hd, (Option.some.inj h).symm⟩
  · cases h

theorem step_dispatcherReturns (h : m.step .dispatcherReturns = some m') :
    m.dispatcher = .selecting ∧ m.done = true ∧ m' = { m with dispatcher := .returned } := by
  simp only [step] at h
  split at h
  · rename_i hd
    split at h
    · rename_i hdone
      exact ⟨hd, hdone, (Option.some.inj h).symm⟩
    · cases h
  · cases h

theorem step_consume {e : ConsumerStep} (h : m.step (.consume s e) = some m') :
    ∃ w, (m.sinks s).consume m.done e = some w ∧ m' = m.setSink s w := by
  obtain ⟨w, hw, hm'⟩ := Option.map_eq_some_iff.mp h
  exact ⟨w, hw, hm'.symm⟩

theorem step_stop (h : m.step .stop = some m') : m.done = false ∧ m' = { m with done := true } := by
  simp only [step] at h
  split at h
  · cases h
  · rename_i hdone
    exact ⟨by simpa using hdone, (Option.some.inj h).symm⟩

@[simp] theorem sinks_setSink_self (m : EventProbeManager E n) (s : Fin n) (w : SinkWrapper E) :
    (m.setSink s w).sinks s = w := by
  simp [setSink]

theorem sinks_setSink_of_ne (m : EventProbeManager E n) {s t : Fin n} (w : SinkWrapper E) (h : s ≠ t) :
    (m.setSink t w).sinks s = m.sinks s := by
  simp [setSink, h]

end EventProbeManager

/-! ## What a sink gets -/

def Consumer.inHand : Consumer E → List E
  | .writing evt => [evt]
  | _ => []

namespace SinkWrapper

def received (w : SinkWrapper E) : List E := w.wrote ++ w.consumer.inHand

def given (w : SinkWrapper E) : List E := w.received ++ w.ch.buf

theorem consume_keeps {done : Bool} {w w' : SinkWrapper E} {e : ConsumerStep} (h : w.consume done e = some w') :
    w'.ch.cap = w.ch.cap ∧ w'.ch.closed = w.ch.closed ∧ w'.given = w.given := by
  cases e with
  | receive =>
    simp only [consume] at h
    split at h
    · rename_i evt c hconsumer hvalue
      cases h
      obtain ⟨hbuf, hclosed, hcap⟩ := Chan.receive_value hvalue
      exact ⟨hcap, hclosed, by simp [given, received, hconsumer, hbuf, Consumer.inHand]⟩
    · cases h
  | writeReturns =>
    simp only [consume] at h
    split at h
    · rename_i evt hconsumer
      cases h
      exact ⟨rfl, rfl, by simp [given, received, hconsumer, Consumer.inHand]⟩
    · cases h
  | returns =>
    simp only [consume] at h
    split at h
    · rename_i hconsumer
      split at h
      · cases h
        exact ⟨rfl, rfl, by simp [given, received, hconsumer, Consumer.inHand]⟩
      · cases h
    · cases h

end SinkWrapper

def Dispatcher.left : Dispatcher E n → List (Fin n)
  | .sending _ s rest => s :: rest
  | _ => []

@[simp] theorem left_toSinks (evt : E) (rest : List (Fin n)) : (toSinks evt rest).left = rest := by
  cases rest <;> rfl

variable {e : Step E n}

namespace EventProbeManager

/-- The events that the dispatcher has come to a sink with. -/
def offered (m : EventProbeManager E n) (s : Fin n) : List E :=
  if s ∈ m.dispatcher.left then m.taken.dropLast else m.taken

def OffersTo (m : EventProbeManager E n) (s : Fin n) : Prop := m.dispatcher.left.head? = some s

/-- At an offer to the sink, fewer than 1024 more have been offered than its consumer has taken out. -/
def KeepsUp (s : Fin n) (m : EventProbeManager E n) (e : Step E n) : Prop :=
  e = .offer → m.OffersTo s → (m.offered s).length < 1024 + (m.sinks s).received.length

structure Inv (m : EventProbeManager E n) : Prop where
  cap : ∀ s, (m.sinks s).ch.cap = 1024
  opened : ∀ s, (m.sinks s).ch.closed = false
  nodup : m.dispatcher.left.Nodup
  current : ∀ evt s rest, m.dispatcher = .sending evt s rest → m.taken.getLast? = some evt

theorem inv_start : Inv (start : EventProbeManager E n) where
  cap := fun _ => rfl
  opened := fun _ => rfl
  nodup := List.nodup_nil
  current := by
    intro evt s rest h
    cases h

theorem sendOrDiscard_eq {c : Chan E} (evt : E) (hopen : c.closed = false) :
    sendOrDiscard c evt = if c.buf.length < c.cap then { c with buf := c.buf ++ [evt] } else c := by
  unfold sendOrDiscard Chan.send
  split_ifs <;> simp_all

variable {m m' : EventProbeManager E n} {s : Fin n}

theorem toSinks_eq_sending {evt evt' : E} {t : Fin n} {sinks rest : List (Fin n)}
    (h : toSinks evt sinks = .sending evt' t rest) : evt = evt' := by
  cases sinks with
  | nil => cases h
  | cons s sinks =>
    cases h
    rfl

theorem Inv.setSink (h : Inv m) {w : SinkWrapper E} (hcap : w.ch.cap = 1024) (hopen : w.ch.closed = false) :
    Inv (m.setSink s w) where
  cap := by
    intro t
    by_cases ht : t = s
    · rw [ht, sinks_setSink_self, hcap]
    · rw [sinks_setSink_of_ne m w ht, h.cap t]
  opened := by
    intro t
    by_cases ht : t = s
    · rw [ht, sinks_setSink_self, hopen]
    · rw [sinks_setSink_of_ne m w ht, h.opened t]
  nodup := h.nodup
  current := h.current

theorem inv_step (m : EventProbeManager E n) (e : Step E n) (m' : EventProbeManager E n) (h : m.step e = some m')
    (hinv : Inv m) : Inv m' := by
  cases e with
  | take evt =>
    obtain ⟨hd, rfl⟩ := step_take h
    refine ⟨hinv.cap, hinv.opened, by simpa using List.nodup_finRange n, ?_⟩
    intro evt' t rest hsending
    rw [toSinks_eq_sending hsending]
    exact List.getLast?_concat
  | offer =>
    obtain ⟨evt, t, rest, hd, rfl⟩ := step_offer h
    have hch : (sendOrDiscard (m.sinks t).ch evt).cap = 1024 ∧ (sendOrDiscard (m.sinks t).ch evt).closed = false := by
      rw [sendOrDiscard_eq evt (hinv.opened t)]
      split
      · exact ⟨hinv.cap t, hinv.opened t⟩
      · exact ⟨hinv.cap t, hinv.opened t⟩
    have hset := hinv.setSink (s := t) (w := { m.sinks t with ch := sendOrDiscard (m.sinks t).ch evt }) hch.1 hch.2
    have hnodup : (t :: rest).Nodup := by simpa [hd, Dispatcher.left] using hinv.nodup
    refine ⟨hset.cap, hset.opened, by simpa using (List.nodup_cons.mp hnodup).2, ?_⟩
    intro evt' t' rest' hsending
    rw [← toSinks_eq_sending hsending]
    exact hinv.current evt t rest hd
  | dispatcherReturns =>
    obtain ⟨hd, hdone, rfl⟩ := step_dispatcherReturns h
    refine ⟨hinv.cap, hinv.opened, List.nodup_nil, ?_⟩
    intro evt t rest hsending
    cases hsending
  | consume t e =>
    obtain ⟨w, hw, rfl⟩ := step_consume h
    obtain ⟨hcap, hclosed, -⟩ := SinkWrapper.consume_keeps hw
    exact hinv.setSink (hcap.trans (hinv.cap t)) (hclosed.trans (hinv.opened t))
  | stop =>
    obtain ⟨hdone, rfl⟩ := step_stop h
    exact ⟨hinv.cap, hinv.opened, hinv.nodup, hinv.current⟩

theorem given_setSink {t : Fin n} {w : SinkWrapper E} (h : w.given = (m.sinks t).given) (s : Fin n) :
    ((m.setSink t w).sinks s).given = (m.sinks s).given := by
  by_cases hs : s = t
  · rw [hs, sinks_setSink_self, h]
  · rw [sinks_setSink_of_ne m w hs]

theorem offer_effect {evt : E} {rest : List (Fin n)} (hinv : Inv m) (hd : m.dispatcher = .sending evt s rest)
    (hm' : m' =
      { m.setSink s { m.sinks s with ch := sendOrDiscard (m.sinks s).ch evt } with dispatcher := toSinks evt rest }) :
    m'.offered s = m.offered s ++ [evt] ∧
      (m'.sinks s).given =
        if (m.sinks s).ch.buf.length < 1024 then (m.sinks s).given ++ [evt] else (m.sinks s).given := by
  have hsink : m'.sinks s = { m.sinks s with ch := sendOrDiscard (m.sinks s).ch evt } := by
    rw [hm']
    exact sinks_setSink_self m s _
  have hnodup : (s :: rest).Nodup := by simpa [hd, Dispatcher.left] using hinv.nodup
  have htaken : m.taken = m.taken.dropLast ++ [evt] :=
    (List.dropLast_append_getLast? evt (hinv.current evt s rest hd)).symm
  refine ⟨?_, ?_⟩
  · have hafter : m'.offered s = m.taken := by
      subst hm'
      simp [offered, setSink, (List.nodup_cons.mp hnodup).1]
    have hbefore : m.offered s = m.taken.dropLast := by simp [offered, hd, Dispatcher.left]
    rw [hafter, hbefore]
    exact htaken
  · rw [hsink, sendOrDiscard_eq evt (hinv.opened s), hinv.cap s]
    split
    · simp [SinkWrapper.given, SinkWrapper.received]
    · rfl

theorem step_effect (h : m.step e = some m') (hinv : Inv m) (s : Fin n) :
    (e = .offer ∧ m.OffersTo s ∧
        ∃ evt, m'.offered s = m.offered s ++ [evt] ∧
          (m'.sinks s).given =
            if (m.sinks s).ch.buf.length < 1024 then (m.sinks s).given ++ [evt] else (m.sinks s).given) ∨
      ((e = .offer → ¬m.OffersTo s) ∧ m'.offered s = m.offered s ∧ (m'.sinks s).given = (m.sinks s).given) := by
  cases e with
  | take evt =>
    obtain ⟨hd, rfl⟩ := step_take h
    refine .inr ⟨fun heq => (by cases heq), ?_, rfl⟩
    simp only [offered, left_toSinks, hd]
    simp [Dispatcher.left]
  | offer =>
    obtain ⟨evt, t, rest, hd, hm'⟩ := step_offer h
    by_cases hst : s = t
    · subst hst
      obtain ⟨hoffered, hgiven⟩ := offer_effect hinv hd hm'
      exact .inl ⟨rfl, by simp [OffersTo, hd, Dispatcher.left], evt, hoffered, hgiven⟩
    · subst hm'
      refine .inr ⟨fun _ => by simp [OffersTo, hd, Dispatcher.left, Ne.symm hst], ?_, ?_⟩
      · simp only [offered, setSink, left_toSinks, hd]
        simp [Dispatcher.left, hst]
      · exact congrArg SinkWrapper.given (sinks_setSink_of_ne m _ hst)
  | dispatcherReturns =>
    obtain ⟨hd, hdone, rfl⟩ := step_dispatcherReturns h
    refine .inr ⟨fun heq => (by cases heq), ?_, rfl⟩
    simp [offered, hd, Dispatcher.left]
  | consume t e =>
    obtain ⟨w, hw, rfl⟩ := step_consume h
    exact .inr ⟨fun heq => (by cases heq), rfl, given_setSink (SinkWrapper.consume_keeps hw).2.2 s⟩
  | stop =>
    obtain ⟨hdone, rfl⟩ := step_stop h
    exact .inr ⟨fun heq => (by cases heq), rfl, rfl⟩

/-! ### Runs -/

theorem offered_sublist (m : EventProbeManager E n) (s : Fin n) : (m.offered s).Sublist m.taken := by
  unfold offered
  split
  · exact List.dropLast_sublist m.taken
  · exact List.Sublist.refl m.taken

theorem given_sublist_step (h : m.step e = some m') (hinv : Inv m) (hsub : (m.sinks s).given.Sublist (m.offered s)) :
    (m'.sinks s).given.Sublist (m'.offered s) := by
  rcases step_effect h hinv s with ⟨-, -, evt, hoffered, hgiven⟩ | ⟨-, hoffered, hgiven⟩
  · rw [hoffered, hgiven]
    split
    · exact hsub.append (List.Sublist.refl [evt])
    · exact hsub.trans (List.sublist_append_left _ _)
  · rw [hoffered, hgiven]
    exact hsub

structure Whole (s : Fin n) (m : EventProbeManager E n) : Prop where
  inv : Inv m
  eq : (m.sinks s).given = m.offered s

structure Short (s : Fin n) (m : EventProbeManager E n) : Prop where
  inv : Inv m
  lt : (m.sinks s).given.length < (m.offered s).length

/-- As long as nothing was discarded, the sink keeps up exactly if its channel has room. -/
theorem Whole.keepsUp_iff (h : Whole s m) :
    KeepsUp s m e ↔ (e = .offer → m.OffersTo s → (m.sinks s).ch.buf.length < 1024) := by
  have hlength : (m.offered s).length = (m.sinks s).received.length + (m.sinks s).ch.buf.length := by
    rw [← h.eq, SinkWrapper.given, List.length_append]
  unfold KeepsUp
  rw [hlength]
  refine forall_congr' fun _ => forall_congr' fun _ => ?_
  omega

theorem Whole.step (h : m.step e = some m') (hw : Whole s m) (hkeeps : KeepsUp s m e) : Whole s m' := by
  refine ⟨inv_step m e m' h hw.inv, ?_⟩
  rcases step_effect h hw.inv s with ⟨he, hto, evt, hoffered, hgiven⟩ | ⟨-, hoffered, hgiven⟩
  · rw [hgiven, if_pos (hw.keepsUp_iff.mp hkeeps he hto), hoffered, hw.eq]
  · rw [hgiven, hoffered, hw.eq]

theorem Whole.short (h : m.step e = some m') (hw : Whole s m) (hkeeps : ¬KeepsUp s m e) : Short s m' := by
  refine ⟨inv_step m e m' h hw.inv, ?_⟩
  obtain ⟨he, hto, hfull⟩ : e = .offer ∧ m.OffersTo s ∧ ¬(m.sinks s).ch.buf.length < 1024 := by
    simpa only [hw.keepsUp_iff, Classical.not_imp] using hkeeps
  rcases step_effect h hw.inv s with ⟨-, -, evt, hoffered, hgiven⟩ | ⟨hnot, -, -⟩
  · rw [hgiven, if_neg hfull, hoffered, hw.eq]
    simp
  · exact absurd hto (hnot he)

theorem Short.step (h : m.step e = some m') (hs : Short s m) : Short s m' := by
  refine ⟨inv_step m e m' h hs.inv, ?_⟩
  have hlt := hs.lt
  rcases step_effect h hs.inv s with ⟨-, -, evt, hoffered, hgiven⟩ | ⟨-, hoffered, hgiven⟩
  · rw [hoffered, hgiven]
    split
    · simpa using hlt
    · simp only [List.length_append, List.length_singleton]
      omega
  · rw [hoffered, hgiven]
    exact hlt

/-- In every run, what a sink has been given are events that the dispatcher took, in that order and
    each once; and nothing has been discarded exactly if, at each offer, fewer than 1024 more had been
    offered than the consumer had taken out. -/
theorem lossless_iff {es : List (Step E n)} (h : runs step start es = some m) (s : Fin n) :
    (m.sinks s).given.Sublist m.taken ∧
      ((m.sinks s).given = m.offered s ↔ during step (KeepsUp s) start es) := by
  refine ⟨?_, ?_⟩
  · have hsub : Inv m ∧ (m.sinks s).given.Sublist (m.offered s) :=
      runs_keeps (I := fun m => Inv m ∧ (m.sinks s).given.Sublist (m.offered s))
        (fun m e m' hstep hi => ⟨inv_step m e m' hstep hi.1, given_sublist_step hstep hi.1 hi.2⟩)
        ⟨inv_start, List.Sublist.refl _⟩ h
    exact hsub.2.trans (offered_sublist m s)
  · exact runs_iff_during (I := Whole s) (B := Short s) (Q := fun m => (m.sinks s).given = m.offered s)
      (fun m hw => hw.eq) (fun m e m' hstep hw hk => hw.step hstep hk)
      (fun m e m' hstep hw hk => hw.short hstep hk) (fun m e m' hstep hs => hs.step hstep)
      (fun m hs heq => by have := hs.lt; rw [heq] at this; omega) ⟨inv_start, rfl⟩ h

def firstSink : Fin 2 := ⟨0, Nat.zero_lt_two⟩

def secondSink : Fin 2 := ⟨1, Nat.one_lt_two⟩

/-- The dispatcher takes an event and comes to both sinks with it; the consumer of the first writes it. -/
def oneEvent : List (Step Nat 2) :=
  [.take 7, .offer, .offer, .consume firstSink .receive, .consume firstSink .writeReturns]

theorem lossless_of_one_event : ∃ m, runs step start oneEvent = some m ∧ (m.sinks secondSink).given = [7] := by
  refine ⟨_, rfl, ?_⟩
  have hkeeps : during step (KeepsUp secondSink) start oneEvent := by
    refine ⟨fun h => (by cases h), fun m hm => ?_⟩
    cases hm
    refine ⟨fun _ _ => (by decide), fun m hm => ?_⟩
    cases hm
    refine ⟨fun _ _ => (by decide), fun m hm => ?_⟩
    cases hm
    refine ⟨fun h => (by cases h), fun m hm => ?_⟩
    cases hm
    exact ⟨fun h => (by cases h), fun m hm => trivial⟩
  have hruns : runs step start oneEvent = some _ := rfl
  exact ((lossless_iff hruns secondSink).2.mpr hkeeps).trans rfl

/-! ## The other sinks -/

/-- The step is one of the consumer of another sink. -/
def OfAnother (s : Fin n) : Step E n → Prop
  | .consume t _ => t ≠ s
  | _ => False

instance (s : Fin n) : (e : Step E n) → Decidable (OfAnother s e)
  | .consume t _ => inferInstanceAs (Decidable (t ≠ s))
  | .take _ | .offer | .dispatcherReturns | .stop => inferInstanceAs (Decidable False)

/-- The two are alike but for the wrappers of the other sinks. -/
def SameFor (s : Fin n) (m m' : EventProbeManager E n) : Prop :=
  m' = { m with sinks := m'.sinks } ∧ m'.sinks s = m.sinks s

theorem sameFor_of_another (he : OfAnother s e) {u : EventProbeManager E n} (h : m.step e = some u)
    (hsame : SameFor s m m') : SameFor s u m' := by
  cases e with
  | consume t e =>
    obtain ⟨w, -, rfl⟩ := step_consume h
    exact ⟨hsame.1, by rw [sinks_setSink_of_ne m w (Ne.symm he), hsame.2]⟩
  | _ => exact he.elim

theorem sameFor_of_step (he : ¬OfAnother s e) {u : EventProbeManager E n} (h : m.step e = some u)
    (hsame : SameFor s m m') : ∃ u', m'.step e = some u' ∧ SameFor s u u' := by
  obtain ⟨hm', hs⟩ := hsame
  generalize m'.sinks = g at hm' hs
  subst hm'
  -- the state after the step, with the other's wrappers
  suffices hstep : ∃ g', g' s = u.sinks s ∧ step { m with sinks := g } e = some { u with sinks := g' } by
    obtain ⟨g', hg', hstep⟩ := hstep
    exact ⟨_, hstep, rfl, hg'⟩
  cases e with
  | take evt =>
    obtain ⟨hd, rfl⟩ := step_take h
    exact ⟨g, hs, by simp only [step, hd]⟩
  | offer =>
    obtain ⟨evt, t, rest, hd, rfl⟩ := step_offer h
    refine ⟨Function.update g t { g t with ch := sendOrDiscard (g t).ch evt }, ?_, by simp only [step, hd, setSink]⟩
    by_cases hst : s = t
    · subst hst
      simp [setSink, hs]
    · simp [setSink, hst, hs]
  | dispatcherReturns =>
    obtain ⟨hd, hdone, rfl⟩ := step_dispatcherReturns h
    exact ⟨g, hs, by simp only [step, hd, hdone, if_true]⟩
  | consume t e =>
    obtain rfl : t = s := not_not.mp he
    obtain ⟨w, hw, rfl⟩ := step_consume h
    exact ⟨Function.update g t w, by simp, by simp [step, hs, hw, setSink]⟩
  | stop =>
    obtain ⟨hdone, rfl⟩ := step_stop h
    exact ⟨g, hs, by simp only [step, hdone, Bool.false_eq_true, if_false]⟩

theorem runs_sameFor {es : List (Step E n)} {u : EventProbeManager E n} (h : runs step m es = some u)
    (hsame : SameFor s m m') :
    ∃ u', runs step m' (es.filter fun e => ¬OfAnother s e) = some u' ∧ SameFor s u u' := by
  induction es generalizing m m' with
  | nil =>
    cases h
    exact ⟨m', rfl, hsame⟩
  | cons e es ih =>
    obtain ⟨v, hv, hrest⟩ := Option.bind_eq_some_iff.mp h
    by_cases he : OfAnother s e
    · obtain ⟨u', hu', hsame'⟩ := ih hrest (sameFor_of_another he hv hsame)
      exact ⟨u', by simpa [he] using hu', hsame'⟩
    · obtain ⟨v', hv', hsame'⟩ := sameFor_of_step he hv hsame
      obtain ⟨u', hu', hsame''⟩ := ih hrest hsame'
      refine ⟨u', ?_, hsame''⟩
      rw [List.filter_cons_of_pos (by simpa using he)]
      exact Option.bind_eq_some_iff.mpr ⟨v', hv', hu'⟩

/-- Every run goes through without the steps of the other sinks' consumers, and comes to the same for
    this sink and the dispatcher: a sink that is slow, or stuck, costs the others nothing. -/
theorem others_make_no_difference {es : List (Step E n)} (h : runs step start es = some m) (s : Fin n) :
    ∃ m', runs step start (es.filter fun e => ¬OfAnother s e) = some m' ∧ SameFor s m m' :=
  runs_sameFor h ⟨rfl, rfl⟩

theorem second_sink_without_the_first :
    ∃ m' : EventProbeManager Nat 2, runs step start [.take 7, .offer, .offer] = some m' ∧
      (m'.sinks secondSink).ch.buf = [7] := by
  have hruns : runs step start oneEvent = some _ := rfl
  obtain ⟨m', hm', hsame⟩ := others_make_no_difference hruns secondSink
  exact ⟨m', hm', congrArg (·.ch.buf) hsame.2⟩

end EventProbeManager

end EliteTelemetry.Exporter.Fanout
