/-
  EliteTelemetry.Controller.Ping — one ping among all tasks (`dispatchPingTask` of
  `pkg/controller/service/pingmesh.go`).

  `dispatchPingTask` hands the task to its agent and then starts the goroutine that waits for
  the result. The agent may be faster: its upload then finds no channel under the id, the
  result is dropped, and the wait ends with its context, which is reported as a latency of
  9999.9 ms. Handing the task over touches neither the channels nor the ids, so every order of
  the wait and the upload is a run, with those of all other tasks in between.

  The wait returns the result exactly where it had stored its channel when the upload looked
  the id up, and its select did not take the end of the context, which it may do also where
  the result is there (`ping_result_delivered_iff`).
-/

import EliteTelemetry.Controller.Tasks

namespace EliteTelemetry.Controller.Tasks

open EliteTelemetry.Lib.Channel
open EliteTelemetry.Lib.Machine

variable {R : Type}

/-- Ids are given out once: a task has one wait, and its agent uploads once. -/
structure EachOnce (es : List (Event R)) : Prop where
  waits : ∀ v w id, .wait v id ∈ es → .wait w id ∈ es → v = w
  uploads : ∀ u v id q r, .upload u id q ∈ es → .upload v id r ∈ es → u = v

theorem EachOnce.mono {es fs : List (Event R)} (h : EachOnce fs) (hsub : es ⊆ fs) : EachOnce es :=
  ⟨fun v w id hv hw => h.waits v w id (hsub hv) (hsub hw),
    fun u v id q r hu hv => h.uploads u v id q r (hsub hu) (hsub hv)⟩

def Before (a b : Event R) (es : List (Event R)) : Prop := ∃ pre post, es = pre ++ b :: post ∧ a ∈ pre

theorem Before.snoc {a b : Event R} {es : List (Event R)} (h : Before a b es) (e : Event R) : Before a b (es ++ [e]) := by
  obtain ⟨pre, post, rfl, ha⟩ := h
  exact ⟨pre, post ++ [e], by simp, ha⟩

theorem Before.mem {a b : Event R} {es : List (Event R)} (h : Before a b es) : a ∈ es ∧ b ∈ es := by
  obtain ⟨pre, post, rfl, ha⟩ := h
  exact ⟨List.mem_append_left _ ha, List.mem_append_right _ List.mem_cons_self⟩

/-! ## What a run tells of its events -/

variable {e : Event R} {c w u : Nat} {r : R} {id : String} {t : Tasks R}

section History

variable {s : Tasks R} {es : List (Event R)} (h : runs step new es = some s)
include h

theorem wait_of_stored (hc : s.resultWatchers id = some c) : .wait c id ∈ es := by
  have hcause := runs_cause (F := fun s => s.resultWatchers id = some c) (E := fun e => e = .wait c id)
    (fun s e t hstep => (step_move hstep).2.stored) h hc
  rcases hcause with hnew | ⟨e, he, rfl⟩
  · cases hnew
  · exact he

def Holds (id : String) : Wait R → Prop
  | .waiting id' => id' = id
  | .leaving id' _ => id' = id
  | _ => False

omit h in
theorem Move.holds {s : Tasks R} (h : Move s e t) (hc : Holds id (t.waits c)) :
    Holds id (s.waits c) ∨ e = .wait c id := by
  cases h <;> simp only [setWait, setUpload, setChan, store, Function.update_apply] at hc <;> grind [Holds]

theorem wait_of_holds (hc : Holds id (s.waits c)) : .wait c id ∈ es := by
  have hcause := runs_cause (F := fun s => Holds id (s.waits c)) (E := fun e => e = .wait c id)
    (fun s e t hstep => (step_move hstep).2.holds) h hc
  rcases hcause with hnew | ⟨e, he, rfl⟩
  · cases hnew
  · exact he

theorem waits_of_wait (hw : .wait w id ∈ es) : s.waits w ≠ .idle := by
  refine runs_effect (F := fun s => s.waits w ≠ .idle) (E := fun e => e = .wait w id)
    (fun s e t hstep => (step_move hstep).2.waits) ?_ h hw rfl
  intro s e t hstep he
  subst he
  cases (step_move hstep).2
  simp [setWait]

omit h in
theorem Move.uploads {s : Tasks R} (h : Move s e t) (hu : s.uploads u ≠ .idle) : t.uploads u ≠ .idle := by
  cases h <;> simp only [setWait, setUpload, setChan, store, Function.update_apply] <;> grind

omit h in
theorem Move.result {s : Tasks R} (h : Move s e t) (hu : t.uploads u = .found c r) :
    s.uploads u = .found c r ∨ ∃ id, e = .upload u id r := by
  cases h with
  | find v id q d hv hd =>
    by_cases huv : u = v
    · subst huv
      obtain ⟨-, rfl⟩ : d = c ∧ q = r := by simpa [setUpload] using hu
      exact .inr ⟨id, rfl⟩
    · exact .inl (by simpa [setUpload, huv] using hu)
  | _ => simp only [setWait, setUpload, setChan, store, Function.update_apply] at hu; grind

theorem upload_of_found (hu : s.uploads u = .found c r) : ∃ id, .upload u id r ∈ es := by
  have hcause := runs_cause (F := fun s => s.uploads u = .found c r) (E := fun e => ∃ id, e = .upload u id r)
    (fun s e t hstep => (step_move hstep).2.result) h hu
  rcases hcause with hnew | ⟨e, he, id, rfl⟩
  · cases hnew
  · exact ⟨id, he⟩

/-- An upload that has found a channel came after the wait for its id that made it. -/
theorem before_of_chan (hc : (s.uploads u).chan = some c) : ∃ id r, Before (.wait c id) (.upload u id r) es := by
  induction es using List.reverseRecOn generalizing s with
  | nil =>
    cases h
    cases hc
  | append_singleton es e ih =>
    obtain ⟨s₁, h₁, hstep⟩ := runs_snoc.mp h
    rcases (step_move hstep).2.found hc with hc | ⟨-, id, r, rfl, hid⟩
    · obtain ⟨id, r, hbefore⟩ := ih h₁ hc
      exact ⟨id, r, hbefore.snoc e⟩
    · exact ⟨id, r, es, [], rfl, wait_of_stored h₁ hid⟩

theorem wait_inj {id' : String} (hid : .wait w id ∈ es) (hid' : .wait w id' ∈ es) : id = id' := by
  have hsame : Event.wait w id = Event.wait (R := R) w id' := by
    refine runs_once (F := fun s => s.waits w ≠ .idle) (E := fun e => ∃ id, e = .wait w id)
      (fun s e t hstep => (step_move hstep).2.waits) ?_ h hid hid' ⟨id, rfl⟩ ⟨id', rfl⟩
    intro s e t hstep ⟨id, he⟩
    subst he
    cases (step_move hstep).2 with
    | wait _ _ hidle => exact ⟨fun hbegun => hbegun hidle, by simp [setWait]⟩
  exact (Event.wait.inj hsame).2

theorem upload_inj {id' : String} {r' : R} (hu : .upload u id r ∈ es) (hu' : .upload u id' r' ∈ es) :
    id = id' ∧ r = r' := by
  have hsame : Event.upload u id r = Event.upload u id' r' := by
    refine runs_once (F := fun s => s.uploads u ≠ .idle) (E := fun e => ∃ id r, e = .upload u id r)
      (fun s e t hstep => (step_move hstep).2.uploads) ?_ h hu hu' ⟨id, r, rfl⟩ ⟨id', r', rfl⟩
    intro s e t hstep ⟨id, r, he⟩
    subst he
    cases (step_move hstep).2 with
    | find _ _ _ _ hidle => exact ⟨fun hbegun => hbegun hidle, by simp [setUpload]⟩
    | miss _ _ _ hidle => exact ⟨fun hbegun => hbegun hidle, by simp [setUpload]⟩
  exact (Event.upload.inj hsame).2

/-- Where ids are given out once, no upload finds the channel of another task. -/
theorem apart_of_once (honce : EachOnce es) : s.Apart := by
  induction es using List.reverseRecOn generalizing s with
  | nil =>
    cases h
    exact ⟨new_sound, fun _ _ _ hu => (by cases hu), rfl⟩
  | append_singleton es e ih =>
    obtain ⟨s₁, h₁, hstep⟩ := runs_snoc.mp h
    obtain ⟨-, hmove⟩ := step_move hstep
    refine move_apart hmove (ih h₁ (honce.mono (List.subset_append_left _ _))) ?_
    cases e with
    | upload u id r =>
      intro c hc v hv
      obtain ⟨id', r', hbefore⟩ := before_of_chan h₁ hv
      obtain rfl := wait_inj h₁ hbefore.mem.1 (wait_of_stored h₁ hc)
      obtain rfl := honce.uploads u v id' r r' (by simp) (List.mem_append_left _ hbefore.mem.2)
      cases hmove with
      | find _ _ _ _ hidle => simp [hidle, Upload.chan] at hv
      | miss _ _ _ hidle => simp [hidle, Upload.chan] at hv
    | _ => trivial

def GaveUp : Wait R → Prop
  | .leaving _ o => o = .ctxErr
  | .returned o => o = .ctxErr
  | _ => False

omit h in
theorem Move.gaveUp_iff {s : Tasks R} (h : Move s e t) : GaveUp (t.waits w) ↔ GaveUp (s.waits w) ∨ e = .giveUp w := by
  cases h <;> simp only [setWait, setUpload, setChan, store, Function.update_apply] <;> grind [GaveUp]

theorem gaveUp_iff : GaveUp (s.waits w) ↔ .giveUp w ∈ es := by
  refine ⟨fun hs => ?_, fun hw => ?_⟩
  · have hcause := runs_cause (F := fun s => GaveUp (s.waits w)) (E := fun e => e = .giveUp w)
      (fun s e t hstep ht => (step_move hstep).2.gaveUp_iff.mp ht) h hs
    rcases hcause with hnew | ⟨e, he, rfl⟩
    · cases hnew
    · exact he
  · exact runs_effect (F := fun s => GaveUp (s.waits w)) (E := fun e => e = .giveUp w)
      (fun s e t hstep hs => (step_move hstep).2.gaveUp_iff.mpr (.inl hs))
      (fun s e t hstep he => (step_move hstep).2.gaveUp_iff.mpr (.inr he)) h hw rfl

end History

/-! ## The wait and the upload of one task -/

/-- Call `w` waits for this id, call `u` uploads this result for it, and no other call does
    either. -/
def OfTask (w u : Nat) (id : String) (r : R) : Event R → Prop
  | .wait v id' => v = w ↔ id' = id
  | .upload v id' q => (v = u ↔ id' = id) ∧ (v = u → q = r)
  | _ => True

theorem ofTask_of_once {s : Tasks R} {es : List (Event R)} (h : runs step new es = some s) (honce : EachOnce es)
    (hw : .wait w id ∈ es) (hu : .upload u id r ∈ es) : ∀ e ∈ es, OfTask w u id r e := by
  intro e he
  cases e with
  | wait v id' =>
    refine ⟨fun hv => ?_, fun hid => ?_⟩
    · subst hv
      exact wait_inj h he hw
    · subst hid
      exact honce.waits v w id' he hw
  | upload v id' q =>
    refine ⟨⟨fun hv => ?_, fun hid => ?_⟩, fun hv => ?_⟩
    · subst hv
      exact (upload_inj h he hu).1
    · subst hid
      exact honce.uploads v u id' q r he hu
    · subst hv
      exact (upload_inj h he hu).2
  | _ => trivial

structure Pair (w u : Nat) (id : String) (r : R) (s : Tasks R) : Prop where
  watcher : ∀ c, s.resultWatchers id = some c → c = w
  holder : ∀ v, (s.uploads v).chan = some w → v = u
  held : ∀ c, (s.uploads u).chan = some c → c = w
  result : ∀ c q, s.uploads u = .found c q → q = r
  holds : ∀ v, Holds id (s.waits v) → v = w

theorem pair_of_runs {s : Tasks R} {es : List (Event R)} (h : runs step new es = some s)
    (hes : ∀ e ∈ es, OfTask w u id r e) : s.Pair w u id r := by
  refine ⟨fun c hc => ?_, fun v hv => ?_, fun c hc => ?_, fun c q hq => ?_, fun v hv => ?_⟩
  · exact (hes _ (wait_of_stored h hc)).mpr rfl
  · obtain ⟨id', q, hbefore⟩ := before_of_chan h hv
    exact (hes _ hbefore.mem.2).1.mpr ((hes _ hbefore.mem.1).mp rfl)
  · obtain ⟨id', q, hbefore⟩ := before_of_chan h hc
    exact (hes _ hbefore.mem.1).mpr ((hes _ hbefore.mem.2).1.mp rfl)
  · obtain ⟨id', hu⟩ := upload_of_found h hq
    exact (hes _ hu).2 rfl
  · exact (hes _ (wait_of_holds h hv)).mpr rfl

/-- What is in the channel of the wait, by how far the upload has come. -/
def Carries (r : R) (ch : Chan R) : Upload R → Prop
  | .idle => ch.buf = [] ∧ ch.closed = false
  | .missed => ch.buf = [] ∧ ch.closed = false
  | .found _ _ => ch.buf = [] ∧ ch.closed = false
  | .sent _ => ch.buf = [r] ∧ ch.closed = false
  | .closed _ => ch.buf = [r] ∧ ch.closed = true

variable {ch : Chan R} {up : Upload R}

theorem carries_make (h : up.chan = none) : Carries r (Chan.make 1) up := by
  cases up <;> first | exact ⟨rfl, rfl⟩ | cases h

theorem Carries.cons {q : R} {rest : List R} (h : Carries r ch up) (hbuf : ch.buf = q :: rest) :
    q = r ∧ ∃ c, up.chan = some c := by
  cases up with
  | sent c => exact ⟨by simpa using congrArg List.head? (hbuf.symm.trans h.1), c, rfl⟩
  | closed c => exact ⟨by simpa using congrArg List.head? (hbuf.symm.trans h.1), c, rfl⟩
  | _ => cases hbuf.symm.trans h.1

theorem Carries.open_of_nil (h : Carries r ch up) (hbuf : ch.buf = []) : ch.closed = false := by
  cases up with
  | closed c => cases hbuf.symm.trans h.1
  | _ => exact h.2

/-- How the two calls stand to each other, by how far the wait has come: what is stored under the
    id, the channel of the wait, and the upload. -/
def Matched (w : Nat) (id : String) (r : R) (watcher : Option Nat) (ch : Chan R) (up : Upload R) : Wait R → Prop
  | .idle => watcher = none ∧ up.chan = none
  | .waiting id' => id' = id ∧ watcher = some w ∧ Carries r ch up
  | .leaving id' o => id' = id ∧ (o = .ctxErr ∨ o = .result r ∧ up.chan = some w)
  | .returned o => o = .ctxErr ∨ o = .result r ∧ up.chan = some w

theorem Matched.upload {watcher : Option Nat} {ch' : Chan R} {up' : Upload R} {x : Wait R}
    (h : Matched w id r watcher ch up x) (hnone : watcher = none → up.chan = none → up'.chan = none)
    (hchan : up.chan = some w → up'.chan = some w) (hcarries : watcher = some w → Carries r ch up → Carries r ch' up') :
    Matched w id r watcher ch' up' x := by
  cases x with
  | idle => exact ⟨h.1, hnone h.1 h.2⟩
  | waiting id' => exact ⟨h.1, h.2.1, hcarries h.2.1 h.2.2⟩
  | leaving id' o => exact ⟨h.1, h.2.imp_right fun ho => ⟨ho.1, hchan ho.2⟩⟩
  | returned o => exact h.imp_right fun ho => ⟨ho.1, hchan ho.2⟩

theorem Matched.stored {watcher : Option Nat} {x : Wait R} (h : Matched w id r watcher ch up x) (hbegun : x ≠ .idle)
    (hgave : ¬ GaveUp x) (hup : up.chan = none) : watcher = some w := by
  cases x with
  | idle => exact absurd rfl hbegun
  | waiting id' => exact h.2.1
  | leaving id' o =>
    rcases h.2 with ho | ⟨-, hchan⟩
    · exact absurd ho hgave
    · cases hup.symm.trans hchan
  | returned o =>
    rcases h with ho | ⟨-, hchan⟩
    · exact absurd ho hgave
    · cases hup.symm.trans hchan

def OfCalls (w u : Nat) : Event R → Prop
  | .wait v _ => v = w
  | .cancel _ => False
  | .take v => v = w
  | .giveUp v => v = w
  | .leave v => v = w
  | .upload v _ _ => v = u
  | .send v => v = u
  | .close v => v = u

theorem Move.frame {s : Tasks R} (h : Move s e t) (he : OfTask w u id r e) (hp : s.Pair w u id r)
    (hother : ¬ OfCalls w u e) :
    t.resultWatchers id = s.resultWatchers id ∧ t.chans w = s.chans w ∧ t.uploads u = s.uploads u ∧
      t.waits w = s.waits w := by
  obtain ⟨hwatcher, hholder, hheld, hresult, hholds⟩ := hp
  cases h <;> simp only [setWait, setUpload, setChan, store, Function.update_apply] <;>
    grind [OfCalls, OfTask, Holds, Upload.chan]

theorem move_matched {s : Tasks R} (h : Move s e t) (he : OfTask w u id r e) (hp : s.Pair w u id r)
    (hs : Matched w id r (s.resultWatchers id) (s.chans w) (s.uploads u) (s.waits w)) :
    Matched w id r (t.resultWatchers id) (t.chans w) (t.uploads u) (t.waits w) := by
  by_cases hown : OfCalls w u e
  · cases h with
    | wait v id' hv =>
      obtain rfl : v = w := hown
      obtain rfl := he.mp rfl
      rw [hv] at hs
      simpa [setWait, setChan, store, Matched] using carries_make hs.2
    | cancel v => cases hown
    | take v id' q ch hv hbuf hclosed hcap =>
      obtain rfl : v = w := hown
      rw [hv] at hs
      obtain ⟨hid, -, hcarries⟩ := hs
      obtain ⟨rfl, c, hc⟩ := hcarries.cons hbuf
      obtain rfl := hp.held c hc
      simpa [setWait, setChan, Matched] using ⟨hid, hc⟩
    | takeClosed v id' hv hbuf hclosed =>
      obtain rfl : v = w := hown
      rw [hv] at hs
      cases hclosed.symm.trans (hs.2.2.open_of_nil hbuf)
    | giveUp v id' hv hend =>
      obtain rfl : v = w := hown
      rw [hv] at hs
      simpa [setWait, Matched] using hs.1
    | leave v id' o hv =>
      obtain rfl : v = w := hown
      rw [hv] at hs
      simpa [setWait, store, Matched] using hs.2
    | find v id' q c hv hc =>
      obtain rfl : v = u := hown
      obtain rfl := he.1.mp rfl
      obtain rfl := hp.watcher c hc
      rw [hv] at hs
      simp only [setUpload, Function.update_self]
      exact hs.upload (fun hnone => (by cases hnone.symm.trans hc)) (fun _ => rfl) (fun _ hcarries => hcarries)
    | miss v id' q hv hc =>
      obtain rfl : v = u := hown
      obtain rfl := he.1.mp rfl
      rw [hv] at hs
      simp only [setUpload, Function.update_self]
      exact hs.upload (fun _ _ => rfl) (fun hchan => (by cases hchan)) (fun hsome => (by cases hsome.symm.trans hc))
    | send v c q hv hopen =>
      obtain rfl : v = u := hown
      obtain rfl := hp.held c (by rw [hv]; rfl)
      obtain rfl := hp.result c q hv
      rw [hv] at hs
      simp only [setUpload, setChan, Function.update_self]
      exact hs.upload (fun _ hnone => (by cases hnone)) (fun _ => rfl) (fun _ hcarries => (by simpa [Carries] using hcarries))
    | close v c hv hopen =>
      obtain rfl : v = u := hown
      obtain rfl := hp.held c (by rw [hv]; rfl)
      rw [hv] at hs
      simp only [setUpload, setChan, Function.update_self]
      exact hs.upload (fun _ hnone => (by cases hnone)) (fun _ => rfl) (fun _ hcarries => ⟨hcarries.1, rfl⟩)
    | sendPanics v c q hv hclosed => exact hs
    | closePanics v c hv hclosed => exact hs
  · obtain ⟨hwatcher, hchan, hupload, hwait⟩ := h.frame he hp hown
    rw [hwatcher, hchan, hupload, hwait]
    exact hs

theorem matched_of_runs {s : Tasks R} {es : List (Event R)} (h : runs step new es = some s)
    (hes : ∀ e ∈ es, OfTask w u id r e) :
    Matched w id r (s.resultWatchers id) (s.chans w) (s.uploads u) (s.waits w) := by
  induction es using List.reverseRecOn generalizing s with
  | nil =>
    cases h
    exact ⟨rfl, rfl⟩
  | append_singleton es e ih =>
    obtain ⟨s₁, h₁, hstep⟩ := runs_snoc.mp h
    have hpre : ∀ e ∈ es, OfTask w u id r e := fun e he => hes e (List.mem_append_left _ he)
    exact move_matched (step_move hstep).2 (hes e (by simp)) (pair_of_runs h₁ hpre) (ih h₁ hpre)

/-- An upload that looks while the wait is in its select finds the channel. -/
theorem chan_of_before {s : Tasks R} {es : List (Event R)} (h : runs step new es = some s)
    (hes : ∀ e ∈ es, OfTask w u id r e) (hbefore : Before (.wait w id) (.upload u id r) es) (hctx : .giveUp w ∉ es) :
    (s.uploads u).chan = some w := by
  obtain ⟨pre, post, rfl, hw⟩ := hbefore
  rw [List.append_cons, runs_append, Option.bind_eq_some_iff] at h
  obtain ⟨s₂, h₂, hpost⟩ := h
  obtain ⟨s₁, h₁, hstep⟩ := runs_snoc.mp h₂
  refine runs_keeps (I := fun s => (s.uploads u).chan = some w) (fun _ _ _ hstep hc => (step_move hstep).2.chan hc) ?_
    hpost
  have hmatched := matched_of_runs h₁ fun e he => hes e (List.mem_append_left _ he)
  have hgaveUp : ¬ GaveUp (s₁.waits w) := fun hgave => hctx (List.mem_append_left _ ((gaveUp_iff h₁).mp hgave))
  have hwatcher : s₁.uploads u = .idle → s₁.resultWatchers id = some w := fun hidle =>
    hmatched.stored (waits_of_wait h₁ hw) hgaveUp (by rw [hidle]; rfl)
  cases (step_move hstep).2 with
  | find _ _ _ c hidle hc =>
    obtain rfl := Option.some.inj (hc.symm.trans (hwatcher hidle))
    simp [setUpload, Upload.chan]
  | miss _ _ _ hidle hc => cases hc.symm.trans (hwatcher hidle)

structure Quiet (w u : Nat) (s : Tasks R) : Prop where
  take : s.step (.take w) = none
  leave : s.step (.leave w) = none
  send : s.step (.send u) = none
  close : s.step (.close u) = none

/-- A wait whose channel the upload has found has returned by then. -/
theorem Quiet.returned {s : Tasks R} (hq : Quiet w u s) (halive : s.crashed = false) (hcap : (s.chans w).cap = 1)
    {watcher : Option Nat} (hs : Matched w id r watcher (s.chans w) (s.uploads u) (s.waits w))
    (hchan : (s.uploads u).chan = some w) : ∃ o, s.waits w = .returned o := by
  obtain ⟨htake, hleave, hsend, hclose⟩ := hq
  simp only [step, halive, Bool.false_eq_true, if_false] at htake hleave hsend hclose
  cases hwait : s.waits w with
  | idle =>
    rw [hwait] at hs
    cases hchan.symm.trans hs.2
  | waiting id' =>
    rw [hwait] at hs
    obtain ⟨-, -, hcarries⟩ := hs
    cases hup : s.uploads u with
    | idle => simp [hup, Upload.chan] at hchan
    | missed => simp [hup, Upload.chan] at hchan
    | found c q =>
      obtain rfl : c = w := by simpa [hup, Upload.chan] using hchan
      rw [hup] at hcarries
      simp [hup, Chan.send, hcarries.1, hcarries.2, hcap] at hsend
    | sent c =>
      rw [hup] at hclose
      cases hc : (s.chans c).close <;> simp [hc] at hclose
    | closed c =>
      rw [hup] at hcarries
      simp [hwait, Chan.receive, hcarries.1] at htake
  | leaving id' o => simp [hwait] at hleave
  | returned o => exact ⟨o, rfl⟩

/-- In every run in which each task has one wait and one upload: once neither has a step left to
    take, the wait has returned the result exactly if it stored its channel before the upload
    looked, and has not taken the end of its context. -/
theorem ping_result_delivered_iff (es : List (Event R)) (s : Tasks R) (h : runs step new es = some s)
    (honce : EachOnce es) (w u : Nat) (id : String) (r : R) (hw : .wait w id ∈ es) (hu : .upload u id r ∈ es)
    (hquiet : Quiet w u s) :
    s.waits w = .returned (.result r) ↔ Before (.wait w id) (.upload u id r) es ∧ .giveUp w ∉ es := by
  have hes := ofTask_of_once h honce hw hu
  have hmatched := matched_of_runs h hes
  refine ⟨fun hreturned => ⟨?_, fun hctx => ?_⟩, fun ⟨hbefore, hctx⟩ => ?_⟩
  · rw [hreturned] at hmatched
    have hchan : (s.uploads u).chan = some w := by simpa [Matched] using hmatched
    obtain ⟨id', q, hbefore⟩ := before_of_chan h hchan
    obtain rfl := wait_inj h hbefore.mem.1 hw
    obtain ⟨-, rfl⟩ := upload_inj h hbefore.mem.2 hu
    exact hbefore
  · have hgave := (gaveUp_iff h).mpr hctx
    rw [hreturned] at hgave
    cases hgave
  · have halive := (apart_of_once h honce).alive
    obtain ⟨o, ho⟩ := hquiet.returned halive ((buffered_of_runs h).cap w) hmatched (chan_of_before h hes hbefore hctx)
    have hgave := mt (gaveUp_iff h).mp hctx
    rw [ho] at hmatched hgave ⊢
    rcases hmatched with hctxErr | ⟨rfl, -⟩
    · exact absurd hctxErr hgave
    · rfl

theorem calmRun_delivers : ∃ s, runs step new calmRun = some s ∧ s.waits 0 = .returned (.result 42) := by
  have honce : EachOnce calmRun := ⟨by simp [calmRun], by simp +contextual [calmRun]⟩
  refine ⟨_, rfl, (ping_result_delivered_iff calmRun _ rfl honce 0 0 "7" 42 ?_ ?_ ⟨rfl, rfl, rfl, rfl⟩).mpr ⟨?_, ?_⟩⟩
  · simp [calmRun]
  · simp [calmRun]
  · exact ⟨[.wait 0 "7"], [.send 0, .close 0, .take 0, .leave 0], rfl, by simp⟩
  · simp [calmRun]

/-- Two runs in which the upload comes before the end of the context and the wait returns
    `ctx.Err()`: the agent uploads before the goroutine has stored its channel, and the
    select takes the end of the context where the result is there too. -/
theorem early_upload_dropped :
    (runs step new ([.upload 0 "7" 42, .wait 0 "7", .cancel 0, .giveUp 0, .leave 0] : List (Event Nat))).map
        (fun s => (s.uploads 0, s.waits 0)) = some (.missed, .returned .ctxErr) ∧
      (runs step new ([.wait 0 "7", .upload 0 "7" 42, .send 0, .close 0, .cancel 0, .giveUp 0, .leave 0] :
        List (Event Nat))).map (fun s => (s.uploads 0, s.waits 0)) = some (.closed 0, .returned .ctxErr) := by
  decide

end EliteTelemetry.Controller.Tasks
