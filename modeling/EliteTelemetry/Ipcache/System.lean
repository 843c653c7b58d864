/-
  EliteTelemetry.Ipcache.System — the controller's service, its watch streams and the agents,
  one step at a time (`ipcache.go`, and `syncIPCache` of `pkg/exporter/task-agent/agent.go`).

  The parties: the informer's callbacks calling `logChange`, one at a time under its lock;
  the goroutine of `syncControl`; one handler per watch stream; and the agents. A step is
  what one of them does between two points where another may come in: a critical section, a
  channel operation, a message. `step` is none where the event is not enabled.

  A stream delivers what was sent on it in order; the receiver may lose the connection at
  any time and with it what it had not received. `history` records the changes numbered so
  far; no step reads it.
-/

import EliteTelemetry.Ipcache.Agent

namespace EliteTelemetry.Ipcache

/-! ## State -/

/-- A `logChange` holding the lock: the entries to come, and the change it is sending. -/
structure LogJob where
  op : OpCode
  entries : List CacheEntry
  held : Option ChangeLog
  deriving DecidableEq, Repr

/-- Where `syncControl` stands. A flag: this sync is the ticker's. -/
inductive Control where
  | select
  /-- Received `cl`, about to close back-pressured clients. -/
  | closing (cl : ChangeLog)
  /-- About to compact; with a change just received, or at the end of the ticker's case. -/
  | compacting (next : Option ChangeLog)
  /-- About to append to `pendingLogs`. -/
  | pending (cl : ChangeLog)
  | copyUpToDate (ticker : Bool)
  | upToDate (ticker : Bool) (todo : List Nat)
  | sending (ticker : Bool) (n : Nat) (rest : List ChangeLog) (todo : List Nat)
  | copyStale
  | stale (todo : List Nat)
  | sendingStale (n index : Nat) (todo : List Nat)
  | panicked
  deriving DecidableEq, Repr

structure Service where
  period : String
  revision : Nat
  snapshot : CacheSnapshot
  log : List ChangeLog
  logChan : List ChangeLog
  job : Option LogJob
  control : Control
  pendingLogs : List ChangeLog
  maxSyncedRevision : Nat
  /-- The clients, by their streams. -/
  clients : List Nat

inductive Code where
  | ok
  | invalidArgument
  | dataLoss
  deriving DecidableEq, Repr

inductive StreamPhase where
  | requested
  | serving
  | finished (code : Code)
  deriving DecidableEq, Repr

structure Stream where
  /-- The agent that opened it; none: any other client. -/
  owner : Option Nat
  period : String
  revision : Nat
  phase : StreamPhase
  client : Client
  /-- Taken from the channel, not sent yet. -/
  hand : Option ChangeLog
  /-- Sent, not received yet. -/
  wire : List ChangeLog
  deriving DecidableEq, Repr

def newStream (owner : Option Nat) (period : String) (revision : Nat) : Stream :=
  ⟨owner, period, revision, .requested, newClient revision, none, []⟩

structure ListResponse where
  period : String
  revision : Nat
  entries : List CacheEntry
  deriving DecidableEq, Repr

inductive AgentPhase where
  | reconn (relist : Bool)
  | listing
  | listed (resp : ListResponse)
  | watch (relist : Bool) (period : String) (revision : Nat)
  | receiving (n : Nat)
  deriving DecidableEq, Repr

structure Agent where
  cache : IPCache
  phase : AgentPhase
  deriving DecidableEq

def freshAgent : Agent := ⟨emptyIPCache, .reconn false⟩

structure Sys where
  svc : Service
  streams : Nat → Stream
  nextStream : Nat
  agents : Nat → Agent
  history : List ChangeLog

def init (period : String) (agents : Nat → Agent) : Sys where
  svc := ⟨period, 0, ⟨0, ∅⟩, [], [], none, .select, [], 0, []⟩
  streams := fun _ => { newStream none "" 0 with phase := .finished .ok }
  nextStream := 0
  agents := agents
  history := []

namespace Sys

def setStream (s : Sys) (n : Nat) (st : Stream) : Sys := { s with streams := Function.update s.streams n st }
def setAgent (s : Sys) (i : Nat) (a : Agent) : Sys := { s with agents := Function.update s.agents i a }
def setControl (s : Sys) (c : Control) : Sys := { s with svc := { s.svc with control := c } }

def client (s : Sys) (n : Nat) : Client := (s.streams n).client
def setClient (s : Sys) (n : Nat) (c : Client) : Sys := s.setStream n { s.streams n with client := c }

def mapClients (s : Sys) (f : Client → Client) : Sys :=
  { s with
    streams := fun n => if n ∈ s.svc.clients then { s.streams n with client := f (s.client n) } else s.streams n }

/-! ## Changes -/

def logChange (s : Sys) (op : OpCode) (es : List CacheEntry) : Option Sys :=
  if es = [] then some s
  else if s.svc.job.isNone then some { s with svc := { s.svc with job := some ⟨op, es, none⟩ } }
  else none

def logAdd (s : Sys) : Option Sys :=
  match s.svc.job with
  | some ⟨op, e :: es, none⟩ =>
    let cl : ChangeLog := ⟨s.svc.revision + 1, op, e⟩
    some { s with
      svc := { s.svc with revision := s.svc.revision + 1, job := some ⟨op, es, some cl⟩ },
      history := s.history ++ [cl] }
  | _ => none

def logSend (s : Sys) : Option Sys :=
  match s.svc.job with
  | some ⟨op, es, some cl⟩ =>
    if s.svc.logChan.length < logBufferSize then
      some { s with
        svc := { s.svc with
          logChan := s.svc.logChan ++ [cl], job := if es = [] then none else some ⟨op, es, none⟩ } }
    else none
  | _ => none

/-! ## The control loop -/

def receive (s : Sys) : Option Sys :=
  match s.svc.control, s.svc.logChan with
  | .select, cl :: rest =>
    let log := s.svc.log ++ [cl]
    let next :=
      if maxRetainedLogEntries < log.length then .closing cl
      else if compactThreshold < log.length then .compacting (some cl)
      else .pending cl
    some { s with svc := { s.svc with log := log, logChan := rest, control := next } }
  | _, _ => none

def ticker (s : Sys) : Option Sys :=
  match s.svc.control with
  | .select => some (s.setControl (if s.svc.pendingLogs = [] then .copyStale else .copyUpToDate true))
  | _ => none

def compact (s : Sys) (next : Option ChangeLog) : Sys :=
  let r := compactLog s.svc.revision (s.svc.clients.map s.client) s.svc.snapshot s.svc.log
  let c := match next with
    | some cl => Control.pending cl
    | none => .select
  { s with svc := { s.svc with snapshot := r.1, log := r.2, control := c } }

def pend (s : Sys) (cl : ChangeLog) : Sys :=
  let pendingLogs := s.svc.pendingLogs ++ [cl]
  let next := if maxSyncBatchSize < pendingLogs.length then .copyUpToDate false else .select
  { s with svc := { s.svc with pendingLogs := pendingLogs, control := next } }

/-- `copyClients`: closed clients' channels are closed and the clients dropped; of the others
    those in one of the states are returned. -/
def copyClients (s : Sys) (filter : List ClientState) (next : List Nat → Control) : Sys :=
  let ns := s.svc.clients.filter fun n => !(s.client n).closed
  let s' := s.mapClients fun c => if c.closed then { c with chClosed := true } else c
  { s' with svc := { s'.svc with clients := ns, control := next (ns.filter fun n => (s.client n).state ∈ filter) } }

def lastRevision (pendingLogs : List ChangeLog) (otherwise : Nat) : Nat :=
  match pendingLogs.getLast? with
  | some cl => cl.revision
  | none => otherwise

def synced (s : Sys) (ticker : Bool) : Sys :=
  { s with
    svc := { s.svc with
      maxSyncedRevision := lastRevision s.svc.pendingLogs s.svc.maxSyncedRevision
      pendingLogs := []
      control := if ticker then .copyStale else .select } }

def sendUpToDate (s : Sys) (ticker : Bool) (n : Nat) (rest : List ChangeLog) (todo : List Nat) : Sys :=
  let c := s.client n
  match rest with
  | [] => (s.setClient n { c with state := .uptodate }).setControl (.upToDate ticker todo)
  | cl :: rest =>
    if c.chClosed then s.setControl .panicked
    else if c.room then (s.setClient n (c.sent cl)).setControl (.sending ticker n rest todo)
    else (s.setClient n { c with state := .blocking }).setControl (.upToDate ticker todo)

def sendStale (s : Sys) (n index : Nat) (todo : List Nat) : Sys :=
  let c := s.client n
  match s.svc.log[index]? with
  | none => s.setControl (.stale todo)
  | some cl =>
    if c.chClosed then s.setControl .panicked
    else if c.room then
      if cl.revision = s.svc.maxSyncedRevision then
        (s.setClient n { c.sent cl with state := .uptodate }).setControl (.stale todo)
      else if s.svc.maxSyncedRevision < cl.revision then
        -- the source: impossible
        (s.setClient n { c.sent cl with state := .stale }).setControl (.stale todo)
      else (s.setClient n (c.sent cl)).setControl (.sendingStale n (index + 1) todo)
    else (s.setClient n { c with state := .blocking }).setControl (.stale todo)

def controlStep (s : Sys) : Option Sys :=
  match s.svc.control with
  | .select | .panicked => none
  | .closing cl => some ((s.mapClients Client.backpressured).setControl (.compacting (some cl)))
  | .compacting next => some (s.compact next)
  | .pending cl => some (s.pend cl)
  | .copyUpToDate ticker => some (s.copyClients [.uptodate] (.upToDate ticker))
  | .upToDate ticker [] => some (s.synced ticker)
  | .upToDate ticker (n :: todo) =>
    if (s.client n).revision ≠ s.svc.maxSyncedRevision then some (s.setControl .panicked)
    else some (s.setControl (.sending ticker n s.svc.pendingLogs todo))
  | .sending ticker n rest todo => some (s.sendUpToDate ticker n rest todo)
  | .copyStale => some (s.copyClients [.stale, .blocking] .stale)
  | .stale [] => some (s.setControl (.compacting none))
  | .stale (n :: todo) =>
    match findNext s.svc.log (s.client n).revision with
    | none => some (s.setControl .panicked)
    | some index =>
      if index = -1 then some (s.setControl (.stale todo))
      else some (s.setControl (.sendingStale n index.toNat todo))
  | .sendingStale n index todo => some (s.sendStale n index todo)

/-! ## Watch handlers -/

def register (s : Sys) (n : Nat) : Option Sys :=
  let st := s.streams n
  if n < s.nextStream ∧ st.phase = .requested then
    if st.period ≠ s.svc.period then some (s.setStream n { st with phase := .finished .invalidArgument })
    else if st.revision < s.svc.snapshot.revision then some (s.setStream n { st with phase := .finished .dataLoss })
    else
      let s' := s.setStream n { st with phase := .serving, client := newClient st.revision }
      some { s' with svc := { s'.svc with clients := s'.svc.clients ++ [n] } }
  else none

def take (s : Sys) (n : Nat) : Option Sys :=
  let st := s.streams n
  match st.phase, st.hand, st.client.ch with
  | .serving, none, cl :: ch => some (s.setStream n { st with hand := some cl, client := { st.client with ch := ch } })
  | _, _, _ => none

def send (s : Sys) (n : Nat) : Option Sys :=
  let st := s.streams n
  match st.phase, st.hand with
  | .serving, some cl => some (s.setStream n { st with hand := none, wire := st.wire ++ [cl] })
  | _, _ => none

def leave (s : Sys) (n : Nat) : Sys :=
  let st := s.streams n
  s.setStream n { st with hand := none, phase := .finished .ok, client := { st.client with closed := true } }

def sendFail (s : Sys) (n : Nat) : Option Sys :=
  if (s.streams n).phase = .serving ∧ (s.streams n).hand.isSome then some (s.leave n) else none

def disconnect (s : Sys) (n : Nat) : Option Sys :=
  if (s.streams n).phase = .serving ∧ (s.streams n).hand.isNone then some (s.leave n) else none

def channelClosed (s : Sys) (n : Nat) : Option Sys :=
  let st := s.streams n
  if st.phase = .serving ∧ st.hand.isNone ∧ st.client.ch = [] ∧ st.client.chClosed then
    some (s.setStream n { st with phase := .finished .dataLoss })
  else none

/-! ## Agents -/

def setPhase (s : Sys) (i : Nat) (ph : AgentPhase) : Sys := s.setAgent i { s.agents i with phase := ph }

def connect (s : Sys) (i : Nat) : Option Sys :=
  let a := s.agents i
  match a.phase with
  | .reconn relist =>
    if relist ∨ a.cache.period = "" then some (s.setPhase i .listing)
    else some (s.setPhase i (.watch false a.cache.period a.cache.revision))
  | _ => none

def listCache (s : Sys) (i : Nat) (es : List CacheEntry) : Option Sys :=
  if (s.agents i).phase = .listing ∧ Lists es s.svc.snapshot.entries then
    some (s.setPhase i (.listed ⟨s.svc.period, s.svc.snapshot.revision, es⟩))
  else none

def relisted (s : Sys) (i : Nat) : Option Sys :=
  match (s.agents i).phase with
  | .listed resp =>
    some (s.setAgent i ⟨updateIPCache resp.period resp.revision (resp.entries.filterMap entry2IPInfo),
      .watch true resp.period resp.revision⟩)
  | _ => none

def openStream (s : Sys) (st : Stream) : Sys :=
  { s with streams := Function.update s.streams s.nextStream st, nextStream := s.nextStream + 1 }

def watchCache (s : Sys) (i : Nat) : Option Sys :=
  match (s.agents i).phase with
  | .watch _ period revision =>
    some ((s.openStream (newStream (some i) period revision)).setPhase i (.receiving s.nextStream))
  | _ => none

def callFails (s : Sys) (i : Nat) : Option Sys :=
  match (s.agents i).phase with
  | .listing => some (s.setPhase i (.reconn true))
  | .watch relist _ _ => some (s.setPhase i (.reconn relist))
  | _ => none

def recv (s : Sys) (i : Nat) : Option Sys :=
  let a := s.agents i
  match a.phase with
  | .receiving n =>
    match (s.streams n).wire with
    | cl :: wire =>
      let s' := s.setStream n { s.streams n with wire := wire }
      match applyIPCacheChange a.cache cl with
      | some cache => some (s'.setAgent i { a with cache := cache })
      | none => some (s'.setAgent i freshAgent)
    | [] => none
  | _ => none

/-- `Recv` fails: with the handler's status once everything sent was received, or because
    the connection is lost. The statuses `DataLoss` and `InvalidArgument` ask for a relist. -/
def recvErr (s : Sys) (i : Nat) (relist : Bool) : Option Sys :=
  match (s.agents i).phase with
  | .receiving n =>
    let st := s.streams n
    let asked := st.wire = [] ∧ (st.phase = .finished .dataLoss ∨ st.phase = .finished .invalidArgument)
    if relist = true ∧ ¬ asked then none
    else some (s.setPhase i (.reconn relist))
  | _ => none

end Sys

/-! ## The system -/

inductive Event where
  | logChange (op : OpCode) (es : List CacheEntry)
  | logAdd
  | logSend
  | receive
  | ticker
  | control
  | register (n : Nat)
  | take (n : Nat)
  | send (n : Nat)
  | sendFail (n : Nat)
  | disconnect (n : Nat)
  | channelClosed (n : Nat)
  | connect (i : Nat)
  | listCache (i : Nat) (es : List CacheEntry)
  | relisted (i : Nat)
  | watchCache (i : Nat)
  | callFails (i : Nat)
  | recv (i : Nat)
  | recvErr (i : Nat) (relist : Bool)
  | restart (i : Nat)
  /-- A watch by someone else, for any period and revision. -/
  | otherWatch (period : String) (revision : Nat)
  deriving DecidableEq, Repr

def Event.ofService : Event → Bool
  | .logChange _ _ | .logAdd | .logSend | .receive | .ticker | .control | .register _ | .take _ | .send _ | .sendFail _
  | .disconnect _ | .channelClosed _ | .listCache _ _ => true
  | _ => false

def react (s : Sys) : Event → Option Sys
  | .logChange op es => s.logChange op es
  | .logAdd => s.logAdd
  | .logSend => s.logSend
  | .receive => s.receive
  | .ticker => s.ticker
  | .control => s.controlStep
  | .register n => s.register n
  | .take n => s.take n
  | .send n => s.send n
  | .sendFail n => s.sendFail n
  | .disconnect n => s.disconnect n
  | .channelClosed n => s.channelClosed n
  | .connect i => s.connect i
  | .listCache i es => s.listCache i es
  | .relisted i => s.relisted i
  | .watchCache i => s.watchCache i
  | .callFails i => s.callFails i
  | .recv i => s.recv i
  | .recvErr i relist => s.recvErr i relist
  | .restart i => some (s.setAgent i freshAgent)
  | .otherWatch period revision => some (s.openStream (newStream none period revision))

/-- A service that panicked takes no more steps. -/
def step (s : Sys) (e : Event) : Option Sys :=
  if s.svc.control = .panicked ∧ e.ofService then none else react s e

theorem react_of_step {s t : Sys} {e : Event} (h : step s e = some t) : react s e = some t := by
  unfold step at h
  split_ifs at h
  exact h

/-! ## What the handlers and the agents can do -/

structure Alike (c d : Client) : Prop where
  revision : d.revision = c.revision
  state : d.state = c.state
  chClosed : d.chClosed = c.chClosed

theorem Alike.refl (c : Client) : Alike c c := ⟨rfl, rfl, rfl⟩

def Event.aside : Event → Bool
  | .take _ | .send _ | .sendFail _ | .disconnect _ | .channelClosed _ | .connect _ | .listCache _ _ | .relisted _
  | .watchCache _ | .callFails _ | .recv _ | .recvErr _ _ | .restart _ | .otherWatch _ _ => true
  | _ => false

/-- What such a step changes: one agent, one stream whose client stays alike, a stream opened. -/
inductive Aside (s : Sys) : Sys → Prop where
  | agent (i : Nat) (a : Agent) : Aside s (s.setAgent i a)
  | stream {n : Nat} {st : Stream} (h : Alike (s.client n) st.client) : Aside s (s.setStream n st)
  | received {n : Nat} {st : Stream} (h : Alike (s.client n) st.client) (i : Nat) (a : Agent) :
      Aside s ((s.setStream n st).setAgent i a)
  | opened (st : Stream) : Aside s (s.openStream st)
  | watched (st : Stream) (i : Nat) (a : Agent) : Aside s ((s.openStream st).setAgent i a)

theorem leave_aside (s : Sys) (n : Nat) : Aside s (s.leave n) := .stream ⟨rfl, rfl, rfl⟩

theorem react_aside {s t : Sys} {e : Event} (h : react s e = some t) (he : e.aside = true) : Aside s t := by
  cases e with
  | take n =>
    simp only [react, Sys.take] at h
    split at h <;> cases h
    exact .stream ⟨rfl, rfl, rfl⟩
  | send n =>
    simp only [react, Sys.send] at h
    split at h <;> cases h
    exact .stream (Alike.refl _)
  | sendFail n =>
    simp only [react, Sys.sendFail] at h
    split_ifs at h
    cases h
    exact leave_aside s n
  | disconnect n =>
    simp only [react, Sys.disconnect] at h
    split_ifs at h
    cases h
    exact leave_aside s n
  | channelClosed n =>
    simp only [react, Sys.channelClosed] at h
    split_ifs at h
    cases h
    exact .stream (Alike.refl _)
  | connect i =>
    simp only [react, Sys.connect] at h
    split at h
    · split_ifs at h <;> cases h <;> exact .agent _ _
    · cases h
  | listCache i es =>
    simp only [react, Sys.listCache] at h
    split_ifs at h
    cases h
    exact .agent _ _
  | relisted i =>
    simp only [react, Sys.relisted] at h
    split at h <;> cases h
    exact .agent _ _
  | watchCache i =>
    simp only [react, Sys.watchCache] at h
    split at h <;> cases h
    exact .watched _ _ _
  | callFails i =>
    simp only [react, Sys.callFails] at h
    split at h <;> cases h <;> exact .agent _ _
  | recv i =>
    simp only [react, Sys.recv] at h
    split at h
    · split at h
      · split at h
        all_goals
          cases h
          refine .received ?_ _ _
          exact Alike.refl _
      · cases h
    · cases h
  | recvErr i relist =>
    simp only [react, Sys.recvErr] at h
    split at h
    · split_ifs at h
      cases h
      exact .agent _ _
    · cases h
  | restart i =>
    cases h
    exact .agent _ _
  | otherWatch period revision =>
    cases h
    exact .opened _
  | _ => cases he

end EliteTelemetry.Ipcache
