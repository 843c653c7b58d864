/-
  EliteTelemetry.Probes.SocketLatency — the socket-latency probe (`bpf/socketlatency.c`).

  A record of times is kept for each socket from its creation to its end. A receive and a
  write note their time in it; a read compares its own with the last receive's, a send with
  the last write's, and a delay over a millisecond is counted in `insp_sklat_metric`, one over
  a hundred is also reported.

  The time of a receive stays in the record after a read has counted its delay, and so does
  the time of a write after a send: every later read (send) counts the same delay again. In
  every run in which that does not happen (`Once`), the counts of a socket's slow reads never
  exceed its receives, nor those of its slow sends its writes (`delays_counted_once`).
-/

import EliteTelemetry.Lib.Machine
import Mathlib.Logic.Function.Basic

namespace EliteTelemetry.Probes.SocketLatency

open EliteTelemetry.Lib.Machine

/-! ## The programs -/

def latThreshNs : UInt64 := 1000 * 1000

def latThreshNs100Ms : UInt64 := 100 * 1000 * 1000

inductive Action where
  | read
  | write
  deriving DecidableEq, Repr

inductive Bucket where
  | ms100
  | ms1
  deriving DecidableEq, Repr

structure SklatKey where
  createat : UInt64
  lastreceive : UInt64
  lastread : UInt64
  lastwrite : UInt64
  lastsend : UInt64
  deriving DecidableEq, Repr

structure MetricKey where
  netns : UInt32
  pid : UInt32
  cpu : UInt32
  bucket : Bucket
  action : Action
  deriving DecidableEq, Repr

structure Call (S : Type) where
  sk : S
  ts : UInt64
  netns : UInt32
  pid : UInt32
  cpu : UInt32
  deriving DecidableEq, Repr

inductive Event (S : Type) where
  | create (c : Call S)
  | receive (c : Call S)
  | read (c : Call S)
  | write (c : Call S)
  | send (c : Call S)
  | destroy (c : Call S)
  deriving DecidableEq, Repr

structure Report (S : Type) where
  sk : S
  latency : UInt64
  direction : Action
  deriving DecidableEq, Repr

structure Answer (S : Type) where
  counted : Option MetricKey
  report : Option (Report S)
  deriving DecidableEq, Repr

def Answer.nothing {S : Type} : Answer S := ⟨none, none⟩

section Model

variable {S : Type} [DecidableEq S]

structure Maps (S : Type) where
  entry : S → Option SklatKey
  metric : MetricKey → Option UInt64

namespace Maps

def empty : Maps S := ⟨fun _ => none, fun _ => none⟩

def setEntry (m : Maps S) (sk : S) (ski : Option SklatKey) : Maps S := { m with entry := Function.update m.entry sk ski }

def count (m : Maps S) (key : MetricKey) : Maps S :=
  match m.metric key with
  | some v => { m with metric := Function.update m.metric key (some (v + 1)) }
  | none => { m with metric := Function.update m.metric key (some 1) }

/-- What `sock_read` and `sock_send` do with the time of the receive or write before: count a
    delay over a millisecond, report one over a hundred. -/
def delay (m : Maps S) (c : Call S) (last : UInt64) (action : Action) : Answer S × Maps S :=
  if 0 < last ∧ latThreshNs < c.ts - last then
    let slow := latThreshNs100Ms < c.ts - last
    let key := ⟨c.netns, c.pid, c.cpu, if slow then .ms100 else .ms1, action⟩
    (⟨some key, if slow then some ⟨c.sk, c.ts - last, action⟩ else none⟩, m.count key)
  else (.nothing, m)

def sockCreate (m : Maps S) (c : Call S) : Answer S × Maps S := (.nothing, m.setEntry c.sk (some ⟨c.ts, 0, 0, 0, 0⟩))

def sockReceive (m : Maps S) (c : Call S) : Answer S × Maps S :=
  match m.entry c.sk with
  | none => (.nothing, m)
  | some ski => (.nothing, m.setEntry c.sk (some { ski with lastreceive := c.ts }))

def sockRead (m : Maps S) (c : Call S) : Answer S × Maps S :=
  match m.entry c.sk with
  | none => (.nothing, m)
  | some ski =>
    ((m.delay c ski.lastreceive .read).1,
      (m.delay c ski.lastreceive .read).2.setEntry c.sk (some { ski with lastread := c.ts }))

def sockWrite (m : Maps S) (c : Call S) : Answer S × Maps S :=
  match m.entry c.sk with
  | none => (.nothing, m)
  | some ski => (.nothing, m.setEntry c.sk (some { ski with lastwrite := c.ts }))

def sockSend (m : Maps S) (c : Call S) : Answer S × Maps S :=
  match m.entry c.sk with
  | none => (.nothing, m)
  | some ski =>
    ((m.delay c ski.lastwrite .write).1,
      (m.delay c ski.lastwrite .write).2.setEntry c.sk (some { ski with lastsend := c.ts }))

def sockDestroy (m : Maps S) (c : Call S) : Answer S × Maps S := (.nothing, m.setEntry c.sk none)

def step (m : Maps S) : Event S → Answer S × Maps S
  | .create c => m.sockCreate c
  | .receive c => m.sockReceive c
  | .read c => m.sockRead c
  | .write c => m.sockWrite c
  | .send c => m.sockSend c
  | .destroy c => m.sockDestroy c

end Maps

/-! ## Delays -/

def Event.call : Event S → Call S
  | .create c | .receive c | .read c | .write c | .send c | .destroy c => c

/-- The event begins a delay of the socket: a receive the wait for a read, a write the wait
    for a send. -/
def Event.begins (e : Event S) (a : Action) (sk : S) : Bool :=
  match e with
  | .receive c => a = .read ∧ c.sk = sk
  | .write c => a = .write ∧ c.sk = sk
  | _ => false

def Event.ends (e : Event S) (a : Action) (sk : S) : Bool :=
  match e with
  | .read c => a = .read ∧ c.sk = sk
  | .send c => a = .write ∧ c.sk = sk
  | _ => false

def SklatKey.last (ski : SklatKey) : Action → UInt64
  | .read => ski.lastreceive
  | .write => ski.lastwrite

namespace Maps

def armed (m : Maps S) (a : Action) (sk : S) : Bool :=
  match m.entry sk with
  | none => false
  | some ski => 0 < ski.last a

def late (m : Maps S) (e : Event S) (a : Action) (sk : S) : Bool :=
  e.ends a sk &&
    match m.entry sk with
    | none => false
    | some ski => decide (0 < ski.last a) && decide (latThreshNs < e.call.ts - ski.last a)

end Maps

/-- How many delays of the socket the events begin. -/
def begun (a : Action) (sk : S) (es : List (Event S)) : Nat := es.countP (·.begins a sk)

/-- How often the events count a delay of the socket. -/
def counts (m : Maps S) (a : Action) (sk : S) (es : List (Event S)) : Nat :=
  (es.zip (exec Maps.step m es).1).countP fun ea => ea.1.ends a sk && ea.2.counted.isSome

/-- The maps, and which delays had a late end since they began. -/
structure Watched (S : Type) where
  maps : Maps S
  ended : Action → S → Bool

namespace Watched

def start : Watched S := ⟨.empty, fun _ _ => false⟩

def step (w : Watched S) (e : Event S) : Answer S × Watched S :=
  ((w.maps.step e).1, ⟨(w.maps.step e).2, fun a sk => !e.begins a sk && (w.ended a sk || w.maps.late e a sk)⟩)

/-- The event is not the second late end of a delay. -/
def Once (w : Watched S) (e : Event S) : Prop := ∀ a sk, w.maps.late e a sk = true → w.ended a sk = false

def due (w : Watched S) (a : Action) (sk : S) : Bool := w.maps.armed a sk && !w.ended a sk

end Watched

/-! ## What one step counts -/

omit [DecidableEq S] in
theorem delay_entry (m : Maps S) (c : Call S) (last : UInt64) (a : Action) : (m.delay c last a).2.entry = m.entry := by
  unfold Maps.delay
  split
  · simp only [Maps.count]
    split <;> rfl
  · rfl

omit [DecidableEq S] in
theorem delay_counted (m : Maps S) (c : Call S) (last : UInt64) (a : Action) :
    (m.delay c last a).1.counted.isSome = (decide (0 < last) && decide (latThreshNs < c.ts - last)) := by
  rw [← Bool.decide_and]
  unfold Maps.delay
  split
  · rename_i h
    exact (decide_eq_true h).symm
  · rename_i h
    exact (decide_eq_false h).symm

variable {a : Action} {m : Maps S} {sk : S}

theorem sockRead_of_entry {c : Call S} {ski : SklatKey} (h : m.entry c.sk = some ski) :
    m.sockRead c =
      ((m.delay c ski.lastreceive .read).1,
        (m.delay c ski.lastreceive .read).2.setEntry c.sk (some { ski with lastread := c.ts })) := by
  simp only [Maps.sockRead, h]

theorem sockSend_of_entry {c : Call S} {ski : SklatKey} (h : m.entry c.sk = some ski) :
    m.sockSend c =
      ((m.delay c ski.lastwrite .write).1,
        (m.delay c ski.lastwrite .write).2.setEntry c.sk (some { ski with lastsend := c.ts })) := by
  simp only [Maps.sockSend, h]

theorem step_counted (m : Maps S) (e : Event S) (a : Action) (sk : S) :
    (e.ends a sk && (m.step e).1.counted.isSome) = m.late e a sk := by
  unfold Maps.late
  cases e with
  | read c =>
    by_cases h : a = .read ∧ c.sk = sk
    · obtain ⟨rfl, rfl⟩ := h
      refine congrArg _ ?_
      cases he : m.entry c.sk with
      | none => simp [Maps.step, Maps.sockRead, he, Answer.nothing]
      | some ski =>
        rw [Maps.step, sockRead_of_entry he]
        exact delay_counted m c ski.lastreceive .read
    · simp [Event.ends, h]
  | send c =>
    by_cases h : a = .write ∧ c.sk = sk
    · obtain ⟨rfl, rfl⟩ := h
      refine congrArg _ ?_
      cases he : m.entry c.sk with
      | none => simp [Maps.step, Maps.sockSend, he, Answer.nothing]
      | some ski =>
        rw [Maps.step, sockSend_of_entry he]
        exact delay_counted m c ski.lastwrite .write
    · simp [Event.ends, h]
  | create c => rfl
  | receive c => rfl
  | write c => rfl
  | destroy c => rfl

/-- A record that is written anew with the beginning it had is as armed as before. -/
theorem armed_setEntry {m' : Maps S} {x : S} {new : Option SklatKey} (hm : m'.entry = m.entry)
    (hnew : x = sk → ∀ ski', new = some ski' → 0 < ski'.last a → m.armed a sk = true)
    (h : (m'.setEntry x new).armed a sk = true) : m.armed a sk = true := by
  unfold Maps.armed Maps.setEntry at h
  by_cases hsk : sk = x
  · subst hsk
    simp only [Function.update_self] at h
    cases new with
    | none => simp at h
    | some ski' => exact hnew rfl ski' rfl (of_decide_eq_true h)
  · simp only [Function.update_of_ne hsk, hm] at h
    exact h

/-- So is one that is written over with another that has the same beginning. -/
theorem armed_of_rewritten {m' : Maps S} {x : S} {ski new : SklatKey} (hm : m'.entry = m.entry)
    (he : m.entry x = some ski) (hlast : x = sk → new.last a = ski.last a)
    (h : (m'.setEntry x (some new)).armed a sk = true) : m.armed a sk = true := by
  refine armed_setEntry hm ?_ h
  intro hsk ski' hnew hpos
  cases hnew
  subst hsk
  rw [hlast rfl] at hpos
  simpa [Maps.armed, he] using hpos

theorem armed_step {e : Event S} (hb : e.begins a sk = false) (h : (m.step e).2.armed a sk = true) :
    m.armed a sk = true := by
  cases e with
  | create c =>
    refine armed_setEntry rfl ?_ h
    intro _ ski' hnew hpos
    cases hnew
    cases a <;> exact absurd hpos (UInt64.lt_irrefl 0)
  | receive c =>
    cases he : m.entry c.sk with
    | none => simpa [Maps.step, Maps.sockReceive, he] using h
    | some ski =>
      simp only [Maps.step, Maps.sockReceive, he] at h
      refine armed_of_rewritten rfl he (fun hsk => ?_) h
      cases a with
      | read => simp [Event.begins, hsk] at hb
      | write => rfl
  | read c =>
    cases he : m.entry c.sk with
    | none => simpa [Maps.step, Maps.sockRead, he] using h
    | some ski =>
      rw [Maps.step, sockRead_of_entry he] at h
      exact armed_of_rewritten (delay_entry m c _ _) he (fun _ => by cases a <;> rfl) h
  | write c =>
    cases he : m.entry c.sk with
    | none => simpa [Maps.step, Maps.sockWrite, he] using h
    | some ski =>
      simp only [Maps.step, Maps.sockWrite, he] at h
      refine armed_of_rewritten rfl he (fun hsk => ?_) h
      cases a with
      | read => rfl
      | write => simp [Event.begins, hsk] at hb
  | send c =>
    cases he : m.entry c.sk with
    | none => simpa [Maps.step, Maps.sockSend, he] using h
    | some ski =>
      rw [Maps.step, sockSend_of_entry he] at h
      exact armed_of_rewritten (delay_entry m c _ _) he (fun _ => by cases a <;> rfl) h
  | destroy c =>
    refine armed_setEntry rfl ?_ h
    intro _ ski' hnew _
    cases hnew

theorem late_armed {e : Event S} (h : m.late e a sk = true) : e.begins a sk = false ∧ m.armed a sk = true := by
  unfold Maps.late at h
  obtain ⟨hends, h⟩ := Bool.and_eq_true_iff.mp h
  constructor
  · cases e <;> simp_all [Event.begins, Event.ends]
  · unfold Maps.armed
    cases he : m.entry sk with
    | none => simp [he] at h
    | some ski =>
      simp only [he, Bool.and_eq_true] at h
      exact h.1

/-- A step that counts a delay takes one that was due; only a beginning makes one due. -/
theorem Watched.step_due {w : Watched S} {e : Event S} (ho : w.Once e) (a : Action) (sk : S) :
    (w.maps.late e a sk).toNat + ((w.step e).2.due a sk).toNat ≤ (w.due a sk).toNat + (e.begins a sk).toNat := by
  cases hl : w.maps.late e a sk with
  | true =>
    obtain ⟨hb, harmed⟩ := late_armed hl
    have hnow : w.due a sk = true := by simp [Watched.due, harmed, ho a sk hl]
    have hafter : (w.step e).2.due a sk = false := by simp [Watched.due, Watched.step, hb, hl]
    simp [hnow, hafter]
  | false =>
    cases hb : e.begins a sk with
    | true =>
      have := Bool.toNat_le ((w.step e).2.due a sk)
      simp
      omega
    | false =>
      have hdue : (w.step e).2.due a sk = true → w.due a sk = true := by
        intro h
        simp only [Watched.due, Watched.step, hb, hl, Bool.or_false, Bool.not_false, Bool.true_and,
          Bool.and_eq_true] at h ⊢
        exact ⟨armed_step hb h.1, h.2⟩
      cases hd : (w.step e).2.due a sk with
      | true => simp [hdue hd]
      | false => simp

/-! ## Runs -/

theorem counts_cons (m : Maps S) (a : Action) (sk : S) (e : Event S) (es : List (Event S)) :
    counts m a sk (e :: es) = counts (m.step e).2 a sk es + (m.late e a sk).toNat := by
  unfold counts
  rw [exec_cons, List.zip_cons_cons, List.countP_cons]
  congr 1
  dsimp only
  rw [step_counted]
  cases m.late e a sk <;> rfl

theorem begun_cons (a : Action) (sk : S) (e : Event S) (es : List (Event S)) :
    begun a sk (e :: es) = begun a sk es + (e.begins a sk).toNat := by
  unfold begun
  rw [List.countP_cons]
  cases e.begins a sk <;> rfl

/-- The counts of a run are paid for by what was due before it and what it begins. -/
theorem Watched.run_due {w : Watched S} {es : List (Event S)} (ho : along step Once w es) (a : Action) (sk : S) :
    counts w.maps a sk es ≤ (w.due a sk).toNat + begun a sk es := by
  induction es generalizing w with
  | nil => exact Nat.zero_le _
  | cons e es ih =>
    have hrest := ih ho.2
    have hstep := step_due ho.1 a sk
    have hmaps : (w.step e).2.maps = (w.maps.step e).2 := rfl
    rw [counts_cons, begun_cons]
    rw [hmaps] at hrest
    omega

/-- In every run in which no delay has a second late end: at every point of it, the slow reads
    of a socket counted so far are at most its receives, and the slow sends its writes. -/
theorem delays_counted_once (es : List (Event S)) (ho : along Watched.step Watched.Once (.start : Watched S) es) :
    ∀ pre, pre <+: es → ∀ sk,
      counts .empty .read sk pre ≤ begun .read sk pre ∧ counts .empty .write sk pre ≤ begun .write sk pre := by
  rintro pre ⟨rest, rfl⟩ sk
  have hpre := ((along_append _ pre rest).mp ho).1
  have hread := Watched.run_due hpre .read sk
  have hwrite := Watched.run_due hpre .write sk
  have hnone : ∀ a, (Watched.start : Watched S).due a sk = false := fun a => rfl
  rw [hnone, Bool.toNat_false, Nat.zero_add] at hread hwrite
  exact ⟨hread, hwrite⟩

end Model

def hit (sk us : Nat) : Call Nat := ⟨sk, UInt64.ofNat (us * 1000), 1, 7, 0⟩

def readLate : List (Event Nat) := [.create (hit 1 10), .receive (hit 1 20), .read (hit 1 2020)]

theorem delays_counted_once_readLate :
    along Watched.step Watched.Once .start readLate ∧ counts .empty .read 1 readLate = 1 ∧
      counts .empty .read 1 readLate ≤ begun .read 1 readLate := by
  have ho : along Watched.step Watched.Once .start readLate := by
    refine ⟨?_, ?_, ?_, trivial⟩
    · intro a sk h
      rfl
    · intro a sk h
      rfl
    · intro a sk h
      simp [Watched.step, Watched.start, Maps.late, Event.ends]
  exact ⟨ho, by decide, (delays_counted_once readLate ho readLate (List.prefix_refl _) 1).1⟩

def readTwice : List (Event Nat) := readLate ++ [.read (hit 1 2030)]

theorem a_second_read_counts_the_same_delay :
    readTwice.Pairwise (·.call.ts < ·.call.ts) ∧ counts .empty .read 1 readTwice = 2 ∧ begun .read 1 readTwice = 1 := by
  decide

end EliteTelemetry.Probes.SocketLatency
