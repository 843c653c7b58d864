/-
  EliteTelemetry.Controller.Tasks — results of tasks on their way to those who wait for them
  (`UploadTaskResult` and `waitTaskResult` of `pkg/controller/service/agent.go`).

  A wait makes a channel for one result and stores it under the task's id; it then takes what
  comes first, the result or the end of its context, and deletes the id when it returns. An
  upload looks the id up; if there is a channel it sends the result, closes the channel and
  answers with success. Each of these is an atomic step, and any number of waits and uploads
  run side by side.

  Two uploads that find the same channel crash the controller: the second sends to a closed
  channel, or closes it again. As long as no upload finds a channel that another one has
  found, no upload panics, and where all uploads have ended and none has panicked it was so;
  and no wait ever receives two results (`uploads_never_panic_iff`).
-/

import EliteTelemetry.Lib.Channel
import EliteTelemetry.Lib.Machine
import Mathlib.Data.List.Sublists

namespace EliteTelemetry.Controller

open EliteTelemetry.Lib.Channel
open EliteTelemetry.Lib.Machine

/-! ## The calls -/

/-- What `waitTaskResult` returns: a result, "task result channel closed", or `ctx.Err()`. -/
inductive Outcome (R : Type) where
  | result (r : R)
  | channelClosed
  | ctxErr
  deriving DecidableEq, Repr

inductive Wait (R : Type) where
  | idle
  | waiting (id : String)
  /-- The deferred `Delete` is still to come. -/
  | leaving (id : String) (o : Outcome R)
  | returned (o : Outcome R)
  deriving DecidableEq, Repr

inductive Upload (R : Type) where
  | idle
  /-- It has found the channel of this wait. -/
  | found (c : Nat) (r : R)
  | sent (c : Nat)
  | closed (c : Nat)
  /-- It has found no channel; the result of a ping is dropped, and the answer is nil. -/
  | missed
  deriving DecidableEq, Repr

def Upload.chan {R : Type} : Upload R → Option Nat
  | .idle => none
  | .found c _ => some c
  | .sent c => some c
  | .closed c => some c
  | .missed => none

/-- Calls are numbered, and a wait's channel has its number. -/
structure Tasks (R : Type) where
  resultWatchers : String → Option Nat
  chans : Nat → Chan R
  waits : Nat → Wait R
  uploads : Nat → Upload R
  ended : Nat → Bool
  crashed : Bool

inductive Event (R : Type) where
  /-- `make` and `Store`. -/
  | wait (w : Nat) (id : String)
  | cancel (w : Nat)
  /-- The select receives from the channel. -/
  | take (w : Nat)
  /-- The select takes the end of the context. -/
  | giveUp (w : Nat)
  /-- The deferred `Delete`. -/
  | leave (w : Nat)
  /-- `Load`. -/
  | upload (u : Nat) (id : String) (r : R)
  | send (u : Nat)
  | close (u : Nat)
  deriving DecidableEq, Repr

namespace Tasks

variable {R : Type} {es : List (Event R)} {w u c : Nat}

def new : Tasks R := ⟨fun _ => none, fun _ => .make 1, fun _ => .idle, fun _ => .idle, fun _ => false, false⟩

def setWait (s : Tasks R) (w : Nat) (x : Wait R) : Tasks R := { s with waits := Function.update s.waits w x }

def setUpload (s : Tasks R) (u : Nat) (x : Upload R) : Tasks R := { s with uploads := Function.update s.uploads u x }

def setChan (s : Tasks R) (c : Nat) (ch : Chan R) : Tasks R := { s with chans := Function.update s.chans c ch }

def store (s : Tasks R) (id : String) (c : Option Nat) : Tasks R :=
  { s with resultWatchers := Function.update s.resultWatchers id c }

/-- One step, none where it is not enabled. Nothing runs in a process that has crashed. -/
def step (s : Tasks R) (e : Event R) : Option (Tasks R) :=
  if s.crashed then none
  else
    match e with
    | .wait w id =>
      match s.waits w with
      | .idle => some (((s.setChan w (.make 1)).store id (some w)).setWait w (.waiting id))
      | _ => none
    | .cancel w => some { s with ended := Function.update s.ended w true }
    | .take w =>
      match s.waits w with
      | .waiting id =>
        match (s.chans w).receive with
        | .value r ch => some ((s.setChan w ch).setWait w (.leaving id (.result r)))
        | .closed => some (s.setWait w (.leaving id .channelClosed))
        | .blocks => none
      | _ => none
    | .giveUp w =>
      match s.waits w with
      | .waiting id => if s.ended w then some (s.setWait w (.leaving id .ctxErr)) else none
      | _ => none
    | .leave w =>
      match s.waits w with
      | .leaving id o => some ((s.store id none).setWait w (.returned o))
      | _ => none
    | .upload u id r =>
      match s.uploads u with
      | .idle =>
        match s.resultWatchers id with
        | some c => some (s.setUpload u (.found c r))
        | none => some (s.setUpload u .missed)
      | _ => none
    | .send u =>
      match s.uploads u with
      | .found c r =>
        match (s.chans c).send r with
        | .ok ch => some ((s.setChan c ch).setUpload u (.sent c))
        | .blocks => none
        | .panics => some { s with crashed := true }
      | _ => none
    | .close u =>
      match s.uploads u with
      | .sent c =>
        match (s.chans c).close with
        | some ch => some ((s.setChan c ch).setUpload u (.closed c))
        | none => some { s with crashed := true }
      | _ => none

inductive Move (s : Tasks R) : Event R → Tasks R → Prop where
  | wait (w : Nat) (id : String) (h : s.waits w = .idle) :
      Move s (.wait w id) (((s.setChan w (.make 1)).store id (some w)).setWait w (.waiting id))
  | cancel (w : Nat) : Move s (.cancel w) { s with ended := Function.update s.ended w true }
  | take (w : Nat) (id : String) (r : R) (ch : Chan R) (h : s.waits w = .waiting id)
      (hbuf : (s.chans w).buf = r :: ch.buf) (hclosed : ch.closed = (s.chans w).closed)
      (hcap : ch.cap = (s.chans w).cap) :
      Move s (.take w) ((s.setChan w ch).setWait w (.leaving id (.result r)))
  | takeClosed (w : Nat) (id : String) (h : s.waits w = .waiting id) (hbuf : (s.chans w).buf = [])
      (hclosed : (s.chans w).closed = true) : Move s (.take w) (s.setWait w (.leaving id .channelClosed))
  | giveUp (w : Nat) (id : String) (h : s.waits w = .waiting id) (hend : s.ended w = true) :
      Move s (.giveUp w) (s.setWait w (.leaving id .ctxErr))
  | leave (w : Nat) (id : String) (o : Outcome R) (h : s.waits w = .leaving id o) :
      Move s (.leave w) ((s.store id none).setWait w (.returned o))
  | find (u : Nat) (id : String) (r : R) (c : Nat) (h : s.uploads u = .idle) (hc : s.resultWatchers id = some c) :
      Move s (.upload u id r) (s.setUpload u (.found c r))
  | miss (u : Nat) (id : String) (r : R) (h : s.uploads u = .idle) (hc : s.resultWatchers id = none) :
      Move s (.upload u id r) (s.setUpload u .missed)
  | send (u c : Nat) (r : R) (h : s.uploads u = .found c r) (hopen : (s.chans c).closed = false) :
      Move s (.send u) ((s.setChan c { s.chans c with buf := (s.chans c).buf ++ [r] }).setUpload u (.sent c))
  | sendPanics (u c : Nat) (r : R) (h : s.uploads u = .found c r) (hclosed : (s.chans c).closed = true) :
      Move s (.send u) { s with crashed := true }
  | close (u c : Nat) (h : s.uploads u = .sent c) (hopen : (s.chans c).closed = false) :
      Move s (.close u) ((s.setChan c { s.chans c with closed := true }).setUpload u (.closed c))
  | closePanics (u c : Nat) (h : s.uploads u = .sent c) (hclosed : (s.chans c).closed = true) :
      Move s (.close u) { s with crashed := true }

section Moves

variable {s t : Tasks R} (halive : s.crashed = false)
include halive

theorem wait_move {id : String} (h : s.step (.wait w id) = some t) : Move s (.wait w id) t := by
  simp only [step, halive, Bool.false_eq_true, if_false] at h
  split at h
  · cases h
    exact .wait w id ‹_›
  · cases h

theorem take_move (h : s.step (.take w) = some t) : Move s (.take w) t := by
  simp only [step, halive, Bool.false_eq_true, if_false] at h
  split at h
  · rename_i id hw
    split at h
    · rename_i r ch hrecv
      cases h
      obtain ⟨hbuf, hclosed, hcap⟩ := Chan.receive_value hrecv
      exact .take w id r ch hw hbuf hclosed hcap
    · rename_i hrecv
      cases h
      obtain ⟨hbuf, hclosed⟩ := Chan.receive_closed hrecv
      exact .takeClosed w id hw hbuf hclosed
    · cases h
  · cases h

theorem giveUp_move (h : s.step (.giveUp w) = some t) : Move s (.giveUp w) t := by
  simp only [step, halive, Bool.false_eq_true, if_false] at h
  split at h
  · rename_i id hw
    split at h
    · cases h
      exact .giveUp w id hw ‹_›
    · cases h
  · cases h

theorem leave_move (h : s.step (.leave w) = some t) : Move s (.leave w) t := by
  simp only [step, halive, Bool.false_eq_true, if_false] at h
  split at h
  · rename_i id o hw
    cases h
    exact .leave w id o hw
  · cases h

theorem upload_move {id : String} {r : R} (h : s.step (.upload u id r) = some t) : Move s (.upload u id r) t := by
  simp only [step, halive, Bool.false_eq_true, if_false] at h
  split at h
  · rename_i hu
    split at h
    · rename_i c hc
      cases h
      exact .find u id r c hu hc
    · rename_i hc
      cases h
      exact .miss u id r hu hc
  · cases h

theorem send_move (h : s.step (.send u) = some t) : Move s (.send u) t := by
  simp only [step, halive, Bool.false_eq_true, if_false] at h
  split at h
  · rename_i c r hu
    split at h
    · rename_i ch hsend
      cases h
      obtain ⟨hopen, -, rfl⟩ := Chan.send_ok hsend
      exact .send u c r hu hopen
    · cases h
    · rename_i hsend
      cases h
      exact .sendPanics u c r hu (Chan.send_panics hsend)
  · cases h

theorem close_move (h : s.step (.close u) = some t) : Move s (.close u) t := by
  simp only [step, halive, Bool.false_eq_true, if_false] at h
  split at h
  · rename_i c hu
    split at h
    · rename_i ch hclose
      cases h
      obtain ⟨hopen, rfl⟩ := Chan.close_some hclose
      exact .close u c hu hopen
    · rename_i hclose
      cases h
      exact .closePanics u c hu (Chan.close_none hclose)
  · cases h

end Moves

theorem step_move {s t : Tasks R} {e : Event R} (h : s.step e = some t) : s.crashed = false ∧ Move s e t := by
  have halive : s.crashed = false := by
    cases hc : s.crashed with
    | false => rfl
    | true => simp [step, hc] at h
  refine ⟨halive, ?_⟩
  cases e with
  | wait w id => exact wait_move halive h
  | cancel w =>
    rw [step, if_neg (by simp [halive])] at h
    cases h
    exact .cancel w
  | take w => exact take_move halive h
  | giveUp w => exact giveUp_move halive h
  | leave w => exact leave_move halive h
  | upload u id r => exact upload_move halive h
  | send u => exact send_move halive h
  | close u => exact close_move halive h

/-! ## Panics -/

/-- What holds in every run: only channels of waits that have begun are stored or found, and
    a channel is closed if and only if one upload has closed it. -/
structure Sound (s : Tasks R) : Prop where
  stored : ∀ id c, s.resultWatchers id = some c → s.waits c ≠ .idle
  found : ∀ u c, (s.uploads u).chan = some c → s.waits c ≠ .idle
  closed : ∀ u c, s.uploads u = .closed c → (s.chans c).closed = true
  closer : ∀ c, (s.chans c).closed = true → ∃ u, s.uploads u = .closed c
  once : ∀ u v c, s.uploads u = .closed c → s.uploads v = .closed c → u = v

theorem new_sound : (new : Tasks R).Sound :=
  ⟨fun _ _ h => (by cases h), fun _ _ h => (by cases h), fun _ _ h => (by cases h), fun _ h => (by cases h),
    fun _ _ _ h => (by cases h)⟩

/-! ### What a step can change -/

section Step

variable {s t : Tasks R} {e : Event R} (h : Move s e t)
include h

theorem Move.waits (hc : s.waits c ≠ .idle) : t.waits c ≠ .idle := by
  cases h <;> simp only [setWait, setUpload, setChan, store, Function.update_apply] <;> grind

theorem Move.stored {id : String} (hc : t.resultWatchers id = some c) :
    s.resultWatchers id = some c ∨ e = .wait c id := by
  cases h <;> simp only [setWait, setUpload, setChan, store, Function.update_apply] at hc <;> grind

theorem Move.found (hc : (t.uploads u).chan = some c) :
    (s.uploads u).chan = some c ∨
      s.uploads u = .idle ∧ ∃ id r, e = .upload u id r ∧ s.resultWatchers id = some c := by
  cases h with
  | find v id r d hv hd =>
    by_cases huv : u = v
    · subst huv
      obtain rfl : d = c := by simpa [setUpload, Upload.chan] using hc
      exact .inr ⟨hv, id, r, rfl, hd⟩
    · exact .inl (by simpa [setUpload, huv] using hc)
  | _ => simp only [setWait, setUpload, setChan, store, Function.update_apply] at hc; grind [Upload.chan]

theorem Move.chan (hc : (s.uploads u).chan = some c) : (t.uploads u).chan = some c := by
  cases h <;> simp only [setWait, setUpload, setChan, store, Function.update_apply] <;> grind [Upload.chan]

theorem Move.closed (hc : s.uploads u = .closed c) : t.uploads u = .closed c := by
  cases h <;> simp only [setWait, setUpload, setChan, store, Function.update_apply] <;> grind

theorem Move.closes (hc : t.uploads u = .closed c) :
    s.uploads u = .closed c ∨ e = .close u ∧ s.uploads u = .sent c ∧ (s.chans c).closed = false := by
  cases h <;> simp only [setWait, setUpload, setChan, store, Function.update_apply] at hc <;> grind

theorem Move.chanClosed (hc : (t.chans c).closed = true) :
    (s.chans c).closed = true ∨ ∃ u, e = .close u ∧ t.uploads u = .closed c := by
  cases h <;> simp only [setWait, setUpload, setChan, store, Function.update_apply] at hc ⊢ <;> grind [Chan.make]

/-- A channel stays closed, unless a wait makes a new one, which is no wait that has begun. -/
theorem Move.staysClosed (hc : (s.chans c).closed = true) (hw : s.waits c ≠ .idle) : (t.chans c).closed = true := by
  cases h <;> simp only [setWait, setUpload, setChan, store, Function.update_apply] <;> grind

theorem Move.closeClosed (he : e = .close u) (hu : s.uploads u = .sent c) (hc : t.uploads u = .closed c) :
    (t.chans c).closed = true := by
  cases h <;> simp only [setWait, setUpload, setChan, store, Function.update_apply] at hc ⊢ <;> grind

end Step

theorem move_sound {s t : Tasks R} {e : Event R} (h : Move s e t) (hs : s.Sound) : t.Sound := by
  refine ⟨fun id c hc => ?_, fun u c hc => ?_, fun u c hc => ?_, fun c hc => ?_, fun u v c hu hv => ?_⟩
  · rcases h.stored hc with hc | rfl
    · exact h.waits (hs.stored id c hc)
    · cases h
      simp [setWait]
  · rcases h.found hc with hc | ⟨-, id, r, -, hc⟩
    · exact h.waits (hs.found u c hc)
    · exact h.waits (hs.stored id c hc)
  · rcases h.closes hc with hc' | ⟨he, hsent, -⟩
    · exact h.staysClosed (hs.closed u c hc') (hs.found u c (by rw [hc']; rfl))
    · exact h.closeClosed he hsent hc
  · rcases h.chanClosed hc with hc | ⟨u, -, hu⟩
    · obtain ⟨u, hu⟩ := hs.closer c hc
      exact ⟨u, h.closed hu⟩
    · exact ⟨u, hu⟩
  · rcases h.closes hu with hu | ⟨he, -, hopen⟩
    · rcases h.closes hv with hv | ⟨-, -, hopen⟩
      · exact hs.once u v c hu hv
      · rw [hs.closed u c hu] at hopen
        cases hopen
    · rcases h.closes hv with hv | ⟨he', -, -⟩
      · rw [hs.closed v c hv] at hopen
        cases hopen
      · cases he.symm.trans he'
        rfl

theorem sound_of_runs {s : Tasks R} (h : runs step new es = some s) : s.Sound :=
  runs_keeps (I := Sound) (fun _ _ _ hstep hs => move_sound (step_move hstep).2 hs) new_sound h

/-! ### Uploads that find a channel of their own -/

/-- An upload does not find a channel that another one has found. -/
def FindsOwn (s : Tasks R) : Event R → Prop
  | .upload _ id _ => ∀ c, s.resultWatchers id = some c → ∀ v, (s.uploads v).chan ≠ some c
  | _ => True

structure Apart (s : Tasks R) : Prop where
  sound : s.Sound
  own : ∀ u v c, (s.uploads u).chan = some c → (s.uploads v).chan = some c → u = v
  alive : s.crashed = false

theorem Apart.isOpen {s : Tasks R} (hs : s.Apart) (hu : (s.uploads u).chan = some c) (hne : s.uploads u ≠ .closed c) :
    (s.chans c).closed = false := by
  by_contra hclosed
  obtain ⟨v, hv⟩ := hs.sound.closer c (by simpa using hclosed)
  obtain rfl := hs.own u v c hu (by rw [hv]; rfl)
  exact hne hv

theorem move_alive {s t : Tasks R} {e : Event R} (h : Move s e t) (hs : s.Apart) : t.crashed = false := by
  cases h with
  | sendPanics u c r hu hclosed =>
    have hopen := hs.isOpen (u := u) (c := c) (by rw [hu]; rfl) (by rw [hu]; simp)
    rw [hclosed] at hopen
    cases hopen
  | closePanics u c hu hclosed =>
    have hopen := hs.isOpen (u := u) (c := c) (by rw [hu]; rfl) (by rw [hu]; simp)
    rw [hclosed] at hopen
    cases hopen
  | _ => exact hs.alive

theorem move_apart {s t : Tasks R} {e : Event R} (h : Move s e t) (hs : s.Apart) (he : s.FindsOwn e) : t.Apart := by
  refine ⟨move_sound h hs.sound, fun u v c hu hv => ?_, move_alive h hs⟩
  rcases h.found hu with hu | ⟨-, id, r, rfl, hid⟩
  · rcases h.found hv with hv | ⟨-, id, r, rfl, hid⟩
    · exact hs.own u v c hu hv
    · exact absurd hu (he c hid u)
  · rcases h.found hv with hv | ⟨-, _, _, he', -⟩
    · exact absurd hv (he c hid v)
    · cases he'
      rfl

/-- A channel has room for one result, and what is in it was sent by an upload. -/
structure Buffered (s : Tasks R) : Prop where
  cap : ∀ c, (s.chans c).cap = 1
  sender : ∀ c, (s.chans c).buf ≠ [] → ∃ u, s.uploads u = .sent c ∨ s.uploads u = .closed c

theorem Move.buf {s t : Tasks R} {e : Event R} (h : Move s e t) (hc : (t.chans c).buf ≠ []) :
    (s.chans c).buf ≠ [] ∨ ∃ u, t.uploads u = .sent c := by
  cases h <;> simp only [setWait, setUpload, setChan, store, Function.update_apply] at hc ⊢ <;> grind [Chan.make]

theorem Move.sent {s t : Tasks R} {e : Event R} (h : Move s e t) (hc : s.uploads u = .sent c) :
    t.uploads u = .sent c ∨ t.uploads u = .closed c := by
  cases h <;> simp only [setWait, setUpload, setChan, store, Function.update_apply] <;> grind

theorem move_buffered {s t : Tasks R} {e : Event R} (h : Move s e t) (hs : s.Buffered) : t.Buffered := by
  refine ⟨fun c => ?_, fun c hc => ?_⟩
  · have hcap := hs.cap c
    cases h <;> simp only [setWait, setUpload, setChan, store, Function.update_apply] <;> grind [Chan.make]
  · rcases h.buf hc with hc | ⟨u, hu⟩
    · obtain ⟨u, hu | hu⟩ := hs.sender c hc
      · exact ⟨u, h.sent hu⟩
      · exact ⟨u, .inr (h.closed hu)⟩
    · exact ⟨u, .inl hu⟩

theorem buffered_of_runs {s : Tasks R} (h : runs step new es = some s) : s.Buffered :=
  runs_keeps (I := Buffered) (fun _ _ _ hstep hs => move_buffered (step_move hstep).2 hs)
    ⟨fun _ => rfl, fun _ hc => absurd rfl hc⟩ h

def Finished (s : Tasks R) : Prop := ∀ u c, (s.uploads u).chan = some c → s.uploads u = .closed c

/-- No upload has a step to take: all have ended, or the process has. -/
def Settled (s : Tasks R) : Prop := ∀ u, s.step (.send u) = none ∧ s.step (.close u) = none

theorem not_settled_of_sent {s : Tasks R} (halive : s.crashed = false) (hu : s.uploads u = .sent c) :
    ¬ s.Settled := by
  intro h
  have := (h u).2
  simp only [step, halive, hu] at this
  cases hc : (s.chans c).close <;> simp [hc] at this

theorem finished_of_settled {s : Tasks R} (hs : s.Sound) (hb : s.Buffered) (halive : s.crashed = false) (h : s.Settled) :
    s.Finished := by
  intro u c hc
  cases hu : s.uploads u with
  | idle => simp [hu, Upload.chan] at hc
  | missed => simp [hu, Upload.chan] at hc
  | closed d => simpa [hu, Upload.chan] using hc
  | sent d => exact absurd h (not_settled_of_sent halive hu)
  | found d r =>
    have hsend := (h u).1
    simp only [step, halive, hu, Chan.send, hb.cap d] at hsend
    cases hclosed : (s.chans d).closed with
    | true => simp [hclosed] at hsend
    | false =>
      have hfull : (s.chans d).buf ≠ [] := by
        intro hempty
        simp [hclosed, hempty] at hsend
      obtain ⟨v, hv | hv⟩ := hb.sender d hfull
      · exact absurd h (not_settled_of_sent halive hv)
      · rw [hs.closed v d hv] at hclosed
        cases hclosed

/-- Where all uploads have ended, each has found a channel of its own. -/
theorem findsOwn_of_finished {s t : Tasks R} (h : runs step s es = some t) (ht : t.Sound) (hf : t.Finished) :
    during step FindsOwn s es := by
  induction es generalizing s with
  | nil => trivial
  | cons e es ih =>
    obtain ⟨s₁, hstep, hrest⟩ := Option.bind_eq_some_iff.mp h
    refine ⟨?_, fun s₂ hs₂ => ?_⟩
    · have hkept : ∀ u c, (s₁.uploads u).chan = some c → (t.uploads u).chan = some c := fun u c hc =>
        runs_keeps (I := fun s => (s.uploads u).chan = some c) (fun _ _ _ hstep hc => (step_move hstep).2.chan hc) hc hrest
      cases e with
      | upload u id r =>
        intro c hc v hv
        obtain ⟨-, hmove⟩ := step_move hstep
        -- Both have found the channel, so in the end both have closed it.
        have hv' := hf v c (hkept v c (hmove.chan hv))
        cases hmove with
        | find _ _ _ d hidle hd =>
          obtain rfl := Option.some.inj (hd.symm.trans hc)
          have hu' := hf u d (hkept u d (by simp [setUpload, Upload.chan]))
          obtain rfl := ht.once u v d hu' hv'
          rw [hidle] at hv
          cases hv
        | miss _ _ _ _ hnone =>
          rw [hnone] at hc
          cases hc
      | _ => trivial
    · cases hstep.symm.trans hs₂
      exact ih hrest

/-! ### One result for each wait -/

def isTake (w : Nat) : Event R → Bool
  | .take v => v == w
  | _ => false

def awaits (s : Tasks R) (w : Nat) : Bool :=
  match s.waits w with
  | .idle => true
  | .waiting _ => true
  | .leaving _ _ => false
  | .returned _ => false

theorem Move.awaits {s t : Tasks R} {e : Event R} (h : Move s e t) (hw : t.awaits w = true) :
    s.awaits w = true ∧ isTake w e = false := by
  unfold Tasks.awaits at hw ⊢
  cases h <;> simp only [setWait, setUpload, setChan, store, Function.update_apply] at hw <;> grind [isTake]

theorem Move.take_awaits {s t : Tasks R} {e : Event R} (h : Move s e t) (he : isTake w e = true) :
    s.awaits w = true := by
  unfold Tasks.awaits
  cases h <;> grind [isTake]

theorem countP_take_le {s t : Tasks R} (h : runs step s es = some t) (w : Nat) :
    es.countP (isTake w) ≤ (s.awaits w).toNat := by
  induction es generalizing s with
  | nil => simp
  | cons e es ih =>
    obtain ⟨s₁, hstep, hrest⟩ := Option.bind_eq_some_iff.mp h
    obtain ⟨-, hmove⟩ := step_move hstep
    have hle := ih hrest
    rw [List.countP_cons]
    cases h₁ : s₁.awaits w with
    | true =>
      obtain ⟨hs, he⟩ := hmove.awaits h₁
      rw [h₁] at hle
      simpa [hs, he] using hle
    | false =>
      rw [h₁] at hle
      by_cases he : isTake w e = true
      · rw [hmove.take_awaits he, if_pos he]
        simpa using hle
      · rw [if_neg he]
        exact Nat.le_trans hle (Nat.zero_le _)

/-- No upload panics in a run in which each finds a channel of its own, and where no upload has
    a step left to take, none has panicked exactly if the run was such a one. No wait
    receives twice. -/
theorem uploads_never_panic_iff (es : List (Event R)) (s : Tasks R) (h : runs step new es = some s) :
    (during step FindsOwn new es → s.crashed = false) ∧
      (s.Settled → (s.crashed = false ↔ during step FindsOwn new es)) ∧
      ∀ w, es.countP (isTake w) ≤ 1 := by
  have hnew : (new : Tasks R).Apart := ⟨new_sound, fun _ _ _ hu => (by cases hu), rfl⟩
  have hsafe : during step FindsOwn new es → s.crashed = false := fun hown =>
    (runs_keeps_during (I := Apart) (fun _ _ _ he hstep hs => move_apart (step_move hstep).2 hs he) hnew
      hown h).alive
  have hsound := sound_of_runs h
  refine ⟨hsafe, fun hsettled => ⟨fun halive => ?_, hsafe⟩, fun w => ?_⟩
  · exact findsOwn_of_finished h hsound (finished_of_settled hsound (buffered_of_runs h) halive hsettled)
  · exact Nat.le_trans (countP_take_le h w) (Bool.toNat_le _)

def calmRun : List (Event Nat) :=
  [.wait 0 "7", .upload 0 "7" 42, .send 0, .close 0, .take 0, .leave 0]

theorem calmRun_never_panics :
    ∃ s, runs step new calmRun = some s ∧ s.Settled ∧ (s.crashed = false ↔ during step FindsOwn new calmRun) := by
  have hsettled : ∀ s, runs step new calmRun = some s → s.Settled := by
    intro s h u
    obtain rfl := Option.some.inj h
    cases u with
    | zero => exact ⟨rfl, rfl⟩
    | succ u => exact ⟨rfl, rfl⟩
  exact ⟨_, rfl, hsettled _ rfl, (uploads_never_panic_iff calmRun _ rfl).2.1 (hsettled _ rfl)⟩

/-- Two uploads of one id that both come before the wait has received: the second one sends to
    the channel the first one has closed. -/
theorem retried_upload_crashes :
    (runs step new ([.wait 0 "7", .upload 0 "7" 42, .upload 1 "7" 42, .send 0, .take 0, .close 0, .send 1] :
      List (Event Nat))).map Tasks.crashed = some true := by
  decide

end Tasks

end EliteTelemetry.Controller
