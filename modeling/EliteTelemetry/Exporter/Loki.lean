/-
  EliteTelemetry.Exporter.Loki — log entries on their way to Loki (`Ingester` of
  `pkg/exporter/loki/client.go`: `Send`, `Watch`, `Close` and `startLoop`).

  Any number of goroutines put entries into a channel with room for 5000. One goroutine, the
  loop, takes them out into a batch and passes it to `send` when 10000 are together, when the
  timer has fired, and when it returns. `Close` hands a value over on `quit` and waits until the
  loop has returned; the loop takes it when the select picks that case, whatever else is ready.

  A step is a completed channel operation with what the loop does up to its next select. Which
  step comes next is open. What `send` makes of a batch is outside.

  In every state the entries passed on are the first of those accepted, in that order and each
  once. On `quit` the loop passes on its batch but not what is in the channel. So, once the loop
  has returned, the entries that `Send` accepted before `Close` was called have been passed on
  exactly if the loop had taken them all out when it took `quit` (`passed_iff_takenOut`).
-/

import EliteTelemetry.Lib.Channel
import EliteTelemetry.Lib.Machine
import Mathlib.Data.List.Infix

namespace EliteTelemetry.Exporter.Loki

open EliteTelemetry.Lib.Channel
open EliteTelemetry.Lib.Machine

/-! ## Entries -/

structure Entry where
  seconds : Int
  nanos : Int
  line : String
  deriving DecidableEq, Repr

def newEntry (unixNano : Int) (line : String) : Entry :=
  { seconds := unixNano.tdiv 1000000000, nanos := unixNano.tmod 1000000000, line := line }

structure PodEvent where
  eventType : String
  podName : String
  podNamespace : String
  eventBody : String
  deriving DecidableEq, Repr

def PodEvent.line (evt : PodEvent) : String :=
  "type=" ++ evt.eventType ++ " pod=" ++ evt.podName ++ " namespace=" ++ evt.podNamespace ++ " " ++ evt.eventBody

/-! ## The ingester -/

def logEntriesChanSize : Nat := 5000
def batchEntriesNumber : Nat := 10000

structure Ingester where
  entries : Chan Entry
  batch : List Entry
  batchSize : Nat
  /-- There is a value in `maxWait.C`. -/
  fired : Bool
  /-- Calls of `Close` that are about to hand over on `quit`. -/
  closing : Nat
  running : Bool
  /-- The batches passed to `send`, oldest first. -/
  sent : List (List Entry)
  /-- The entries whose channel send has completed, oldest first. -/
  accepted : List Entry
  /-- How many these are up to the last one of `Send`. -/
  ofSend : Nat
  /-- How many these were when `Close` was first called. -/
  before : Option Nat
  deriving DecidableEq, Repr

inductive Event where
  | send (data : String) (now : Int)
  | watch (evt : PodEvent) (now : Int)
  | fire
  | close
  | entry
  | maxWait
  | quit
  deriving DecidableEq, Repr

variable {e : Event} {s t : Ingester}

namespace Ingester

def new : Ingester :=
  { entries := .make logEntriesChanSize, batch := [], batchSize := 0, fired := false, closing := 0, running := true
    sent := [], accepted := [], ofSend := 0, before := none }

def accept (s : Ingester) (e : Entry) : Option Ingester :=
  match s.entries.send e with
  | .ok c => some { s with entries := c, accepted := s.accepted ++ [e] }
  | _ => none

def flush (s : Ingester) : Ingester := { s with sent := s.sent ++ [s.batch], batch := [], batchSize := 0 }

def flushSome (s : Ingester) : Ingester := if 0 < s.batchSize then s.flush else s

def append (s : Ingester) (e : Entry) : Ingester :=
  let s := { s with batch := s.batch ++ [e], batchSize := s.batchSize + 1 }
  if batchEntriesNumber ≤ s.batchSize then { s.flush with fired := false } else s

def step (s : Ingester) : Event → Option Ingester
  | .send data now => (s.accept (newEntry now data)).map fun s => { s with ofSend := s.accepted.length }
  | .watch evt now => s.accept (newEntry now evt.line)
  | .fire => some { s with fired := true }
  | .close => some { s with closing := s.closing + 1, before := some (s.before.getD s.ofSend) }
  | .entry =>
    if s.running then
      match s.entries.receive with
      | .value e c => some ({ s with entries := c }.append e)
      | _ => none
    else none
  | .maxWait => if s.running ∧ s.fired then some { s.flushSome with fired := false } else none
  | .quit =>
    if s.running ∧ 0 < s.closing then some { s.flushSome with closing := s.closing - 1, running := false } else none

def received (s : Ingester) : Nat := s.accepted.length - s.entries.buf.length

/-- Entries are passed on in the order they were accepted, each once; and once the loop has
    returned, those that `Send` accepted before `Close` was called have been. -/
structure Passed (s : Ingester) : Prop where
  inOrder : s.sent.flatten <+: s.accepted
  all : s.running = false → ∀ n, s.before = some n → n ≤ s.sent.flatten.length

/-- A step that takes `quit` comes when the loop has taken out what `Send` accepted before
    `Close` was called. -/
def TakenOut (s : Ingester) (e : Event) : Prop := e = .quit → ∀ n, s.before = some n → n ≤ s.received

/-! ## What a step keeps -/

structure Inv (s : Ingester) : Prop where
  /-- An entry has been passed on, is in the batch or is in the channel. -/
  split : s.accepted = s.sent.flatten ++ (s.batch ++ s.entries.buf)
  size : s.batchSize = s.batch.length
  called : 0 < s.closing → ∃ n, s.before = some n
  returned : s.running = false → s.batch = [] ∧ ∃ n, s.before = some n

theorem inv_new : Inv new := ⟨rfl, rfl, by simp [new], by simp [new]⟩

theorem accept_eq {e : Entry} (h : s.accept e = some t) :
    t = { s with entries := { s.entries with buf := s.entries.buf ++ [e] }, accepted := s.accepted ++ [e] } := by
  unfold accept at h
  split at h
  · rename_i c hsend
    obtain ⟨-, -, rfl⟩ := Chan.send_ok hsend
    exact (Option.some.inj h).symm
  · cases h

theorem send_eq {data : String} {now : Int} (h : s.step (.send data now) = some t) :
    ∃ u, s.accept (newEntry now data) = some u ∧ t = { u with ofSend := u.accepted.length } := by
  obtain ⟨u, hu, ht⟩ := Option.map_eq_some_iff.mp h
  exact ⟨u, hu, ht.symm⟩

theorem entry_eq (h : s.step .entry = some t) :
    s.running = true ∧ ∃ e c, s.entries.buf = e :: c.buf ∧ t = { s with entries := c }.append e := by
  simp only [step] at h
  split at h
  · split at h
    · rename_i hr _ e c hrecv
      exact ⟨hr, e, c, (Chan.receive_value hrecv).1, (Option.some.inj h).symm⟩
    · cases h
  · cases h

theorem maxWait_eq (h : s.step .maxWait = some t) : s.running = true ∧ t = { s.flushSome with fired := false } := by
  simp only [step] at h
  split at h
  · rename_i hr
    exact ⟨hr.1, (Option.some.inj h).symm⟩
  · cases h

theorem quit_eq (h : s.step .quit = some t) :
    s.running = true ∧ 0 < s.closing ∧ t = { s.flushSome with closing := s.closing - 1, running := false } := by
  simp only [step] at h
  split at h
  · rename_i hq
    exact ⟨hq.1, hq.2, (Option.some.inj h).symm⟩
  · cases h

theorem Inv.accept {e : Entry} (hi : Inv s) (h : s.accept e = some t) : Inv t := by
  obtain rfl := accept_eq h
  refine ⟨?_, hi.size, hi.called, hi.returned⟩
  show s.accepted ++ [e] = s.sent.flatten ++ (s.batch ++ (s.entries.buf ++ [e]))
  rw [hi.split]
  simp

theorem flushSome_sent (hi : Inv s) : s.flushSome.sent.flatten = s.sent.flatten ++ s.batch := by
  unfold flushSome
  split
  · simp [flush]
  · have hempty : s.batch = [] := by
      have := hi.size
      exact List.eq_nil_of_length_eq_zero (by omega)
    simp [hempty]

theorem flushSome_batch (hi : Inv s) : s.flushSome.batch = [] ∧ s.flushSome.batchSize = 0 := by
  unfold flushSome
  split
  · exact ⟨rfl, rfl⟩
  · have := hi.size
    exact ⟨List.eq_nil_of_length_eq_zero (by omega), by omega⟩

theorem flushSome_frame (s : Ingester) :
    s.flushSome.accepted = s.accepted ∧ s.flushSome.entries = s.entries ∧ s.flushSome.before = s.before ∧
      s.flushSome.closing = s.closing ∧ s.flushSome.running = s.running := by
  unfold flushSome
  split <;> exact ⟨rfl, rfl, rfl, rfl, rfl⟩

theorem Inv.flushSome (hi : Inv s) : Inv s.flushSome := by
  obtain ⟨haccepted, hentries, hbefore, hclosing, hrunning⟩ := s.flushSome_frame
  obtain ⟨hbatch, hsize⟩ := flushSome_batch hi
  constructor
  · rw [haccepted, hentries, flushSome_sent hi, hbatch, hi.split]
    simp
  · rw [hbatch, hsize]
    rfl
  · rw [hclosing, hbefore]
    exact hi.called
  · rw [hrunning, hbefore]
    exact fun h => ⟨hbatch, (hi.returned h).2⟩

theorem Inv.append {e : Entry} {c : Chan Entry} (hi : Inv s) (hr : s.running = true)
    (hbuf : s.entries.buf = e :: c.buf) : Inv ({ s with entries := c }.append e) := by
  have hsplit : s.accepted = s.sent.flatten ++ (s.batch ++ [e] ++ c.buf) := by
    rw [hi.split, hbuf]
    simp
  simp only [Ingester.append]
  split
  · refine ⟨?_, rfl, hi.called, fun h => absurd (hr.symm.trans h) (by simp)⟩
    show s.accepted = (s.sent ++ [s.batch ++ [e]]).flatten ++ ([] ++ c.buf)
    rw [hsplit]
    simp
  · refine ⟨hsplit, ?_, hi.called, fun h => absurd (hr.symm.trans h) (by simp)⟩
    show s.batchSize + 1 = (s.batch ++ [e]).length
    rw [hi.size]
    simp

theorem step_inv (h : s.step e = some t) (hi : Inv s) : Inv t := by
  cases e with
  | send data now =>
    obtain ⟨u, hu, rfl⟩ := send_eq h
    have hi := hi.accept hu
    exact ⟨hi.split, hi.size, hi.called, hi.returned⟩
  | watch evt now => exact hi.accept h
  | fire =>
    cases h
    exact ⟨hi.split, hi.size, hi.called, hi.returned⟩
  | close =>
    cases h
    exact ⟨hi.split, hi.size, fun _ => ⟨_, rfl⟩, fun hr => ⟨(hi.returned hr).1, _, rfl⟩⟩
  | entry =>
    obtain ⟨hr, e, c, hbuf, rfl⟩ := entry_eq h
    exact hi.append hr hbuf
  | maxWait =>
    obtain ⟨-, rfl⟩ := maxWait_eq h
    have hf := hi.flushSome
    exact ⟨hf.split, hf.size, hf.called, hf.returned⟩
  | quit =>
    obtain ⟨-, hclosing, rfl⟩ := quit_eq h
    have hf := hi.flushSome
    have hcalled : ∃ n, s.flushSome.before = some n := by
      rw [s.flushSome_frame.2.2.1]
      exact hi.called hclosing
    exact ⟨hf.split, hf.size, fun _ => hcalled, fun _ => ⟨(flushSome_batch hi).1, hcalled⟩⟩

theorem step_running (h : s.step e = some t) (he : e ≠ .quit) : t.running = s.running := by
  cases e with
  | send data now =>
    obtain ⟨u, hu, rfl⟩ := send_eq h
    rw [accept_eq hu]
  | watch evt now => rw [accept_eq h]
  | fire =>
    cases h
    rfl
  | close =>
    cases h
    rfl
  | entry =>
    obtain ⟨-, e, c, -, rfl⟩ := entry_eq h
    simp only [append]
    split <;> rfl
  | maxWait =>
    obtain ⟨-, rfl⟩ := maxWait_eq h
    exact s.flushSome_frame.2.2.2.2
  | quit => exact absurd rfl he

theorem step_returned (h : s.step e = some t) (hi : Inv s) (hr : s.running = false) :
    e ≠ .quit ∧ t.sent = s.sent ∧ t.before = s.before := by
  cases e with
  | send data now =>
    obtain ⟨u, hu, rfl⟩ := send_eq h
    rw [accept_eq hu]
    simp
  | watch evt now =>
    rw [accept_eq h]
    simp
  | fire =>
    cases h
    simp
  | close =>
    obtain ⟨-, n, hn⟩ := hi.returned hr
    cases h
    simp [hn]
  | entry => exact absurd ((entry_eq h).1.symm.trans hr) (by simp)
  | maxWait => exact absurd ((maxWait_eq h).1.symm.trans hr) (by simp)
  | quit => exact absurd ((quit_eq h).1.symm.trans hr) (by simp)

theorem step_quit (h : s.step .quit = some t) (hi : Inv s) :
    t.running = false ∧ t.before = s.before ∧ t.sent.flatten.length = s.received := by
  obtain ⟨-, -, rfl⟩ := quit_eq h
  refine ⟨rfl, s.flushSome_frame.2.2.1, ?_⟩
  show s.flushSome.sent.flatten.length = s.received
  rw [flushSome_sent hi, received, hi.split]
  simp only [List.length_append]
  omega

/-! ## Whole runs -/

theorem Inv.inOrder (hi : Inv s) : s.sent.flatten <+: s.accepted := by
  rw [hi.split]
  exact List.prefix_append _ _

def Lost (s : Ingester) : Prop := s.running = false ∧ ∃ n, s.before = some n ∧ s.sent.flatten.length < n

theorem step_passed (h : s.step e = some t) (hi : Inv s) (hp : Passed s) (htaken : TakenOut s e) : Passed t := by
  refine ⟨(step_inv h hi).inOrder, fun hr n hn => ?_⟩
  by_cases he : e = .quit
  · subst he
    obtain ⟨-, hbefore, hsent⟩ := step_quit h hi
    rw [hsent]
    exact htaken rfl n (hbefore ▸ hn)
  · have hrs : s.running = false := (step_running h he).symm.trans hr
    obtain ⟨-, hsent, hbefore⟩ := step_returned h hi hrs
    rw [hsent]
    exact hp.all hrs n (hbefore ▸ hn)

theorem step_loses (h : s.step e = some t) (hi : Inv s) (hleft : ¬ TakenOut s e) : Lost t := by
  simp only [TakenOut, not_forall, not_le] at hleft
  obtain ⟨rfl, n, hn, hlt⟩ := hleft
  obtain ⟨hr, hbefore, hsent⟩ := step_quit h hi
  exact ⟨hr, n, hbefore.trans hn, hsent ▸ hlt⟩

theorem step_lost (h : s.step e = some t) (hi : Inv s) (hl : Lost s) : Lost t := by
  obtain ⟨hr, n, hn, hlt⟩ := hl
  obtain ⟨he, hsent, hbefore⟩ := step_returned h hi hr
  exact ⟨(step_running h he).trans hr, n, hbefore.trans hn, hsent ▸ hlt⟩

/-- After every run: the entries that `Send` accepted before `Close` was called have been passed
    on, in order and each once, exactly if the loop took `quit` after it had taken them all out. -/
theorem passed_iff_takenOut {s : Ingester} {es : List Event} (h : runs step new es = some s) :
    Passed s ↔ during step TakenOut new es := by
  refine runs_iff_during (I := fun s => Inv s ∧ Passed s) (B := fun s => Inv s ∧ Lost s) (fun s hs => hs.2) ?_ ?_ ?_ ?_
    ⟨inv_new, List.prefix_rfl, by simp [new]⟩ h
  · intro s e t hstep hs htaken
    exact ⟨step_inv hstep hs.1, step_passed hstep hs.1 hs.2 htaken⟩
  · intro s e t hstep hs hleft
    exact ⟨step_inv hstep hs.1, step_loses hstep hs.1 hleft⟩
  · intro s e t hstep hs
    exact ⟨step_inv hstep hs.1, step_lost hstep hs.1 hs.2⟩
  · intro s hs hp
    obtain ⟨hr, n, hn, hlt⟩ := hs.2
    exact absurd (hp.all hr n hn) (not_le.mpr hlt)

/-- Each entry is taken out before `Close` is called. -/
theorem passed_after_taking :
    ∃ s, runs step new [.send "a" 0, .entry, .close, .quit] = some s ∧ s.running = false ∧ Passed s := by
  refine ⟨_, rfl, rfl, (@passed_iff_takenOut _ [.send "a" 0, .entry, .close, .quit] rfl).mpr ?_⟩
  refine ⟨fun h => (by cases h), fun t ht => ?_⟩
  cases ht
  refine ⟨fun h => (by cases h), fun t ht => ?_⟩
  cases ht
  refine ⟨fun h => (by cases h), fun t ht => ?_⟩
  cases ht
  refine ⟨fun _ n hn => ?_, fun _ _ => trivial⟩
  cases hn
  decide

/-- An entry is accepted, `Close` is called, and the select picks `quit` while the entry is in
    the channel. -/
theorem an_accepted_entry_is_never_sent :
    ∃ s, runs step new [.send "a" 0, .close, .quit] = some s ∧ s.running = false ∧ s.before = some 1 ∧
      s.accepted = [newEntry 0 "a"] ∧ s.sent = [] ∧ ¬Passed s := by
  refine ⟨_, rfl, rfl, rfl, rfl, rfl, fun hp => ?_⟩
  exact absurd (hp.all rfl 1 rfl) (by decide)

end Ingester

end EliteTelemetry.Exporter.Loki
