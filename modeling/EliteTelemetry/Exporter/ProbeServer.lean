/-
  EliteTelemetry.Exporter.ProbeServer — the server that keeps an exporter's probes in step
  with its configuration (`DynamicProbeServer` of `pkg/exporter/cmd/server.go`, its two
  managers in `eventserver.go` and `metricserver.go`, and `probe/proto.go`).

  A `Reload` compares the new configuration with the one it recorded last, creates the
  probes that are new or changed, stops those that are gone or changed, records the new
  configuration and starts what it created. It holds the server's lock throughout, so it is
  one step. It returns early on an error of a creation or of a stop; an error of a start is
  only logged.

  A call comes with what its environment decides: which creations, starts and stops succeed,
  and the order in which Go ranges over its two maps of configurations.
-/

import Mathlib.Data.List.Sort

namespace EliteTelemetry.Exporter

/-! ## Probes -/

inductive ProbeState where
  | stopped
  | starting
  | running
  | stopping
  | failed
  deriving DecidableEq, Repr

inductive ProbeError where
  | invalidProbeState
  /-- Whatever the probe itself returned. -/
  | inner
  deriving DecidableEq, Repr

structure Probe where
  name : String
  /-- Which of the instances created under the name: a pointer in the source. -/
  serial : Nat
  state : ProbeState
  /-- Its last `Start` returned an error; no code reads this. -/
  startFailed : Bool
  deriving DecidableEq, Repr

namespace Probe

def new (name : String) (serial : Nat) : Probe := ⟨name, serial, .stopped, false⟩

def start (p : Probe) (ok : Bool) : Option ProbeError × Probe :=
  if p.state ≠ .stopped then (some .invalidProbeState, { p with startFailed := true })
  else if ok then (none, { p with state := .running, startFailed := false })
  else (some .inner, { p with state := .failed, startFailed := true })

def stop (p : Probe) (ok : Bool) : Option ProbeError × Probe :=
  if p.state ≠ .running then (some .invalidProbeState, p)
  else if ok then (none, { p with state := .stopped })
  else (some .inner, { p with state := .failed })

end Probe

/-! ## Configurations -/

/-- `ProbeConfig`. `==` of the arguments stands for `reflect.DeepEqual`, which need not be
    reflexive. -/
structure ProbeConfig (α : Type) where
  name : String
  args : α
  deriving BEq, DecidableEq, Repr

variable {α : Type}

def names (configs : List (ProbeConfig α)) : List String := configs.map (·.name)

def putConfig (m : List (ProbeConfig α)) (c : ProbeConfig α) : List (ProbeConfig α) :=
  m.filter (·.name ≠ c.name) ++ [c]

/-- The entries of the map a list of configurations makes: the last of a name counts. -/
def toMap (configs : List (ProbeConfig α)) : List (ProbeConfig α) := configs.foldl putConfig []

def lookup (configs : List (ProbeConfig α)) (name : String) : Option (ProbeConfig α) :=
  (toMap configs).find? (·.name = name)

def ranged (order : String → Nat) (configs : List (ProbeConfig α)) : List (ProbeConfig α) :=
  (toMap configs).insertionSort fun a b => order a.name ≤ order b.name

structure Call (α : Type) where
  config : List (ProbeConfig α)
  lastOrder : String → Nat
  configOrder : String → Nat
  createOk : String → Bool
  startOk : String → Bool
  stopOk : String → Bool

section Changes

variable [BEq α]

def isNew (last : List (ProbeConfig α)) (c : ProbeConfig α) : Bool := (lookup last c.name).isNone

def isChanged (last : List (ProbeConfig α)) (c : ProbeConfig α) : Bool := (lookup last c.name).any fun l => !(l == c)

def toAdd (last : List (ProbeConfig α)) (call : Call α) : List (ProbeConfig α) :=
  (ranged call.configOrder call.config).filter fun c => isNew last c || isChanged last c

def toClose (last : List (ProbeConfig α)) (call : Call α) : List String :=
  (names (ranged call.lastOrder last)).filter (fun n => (lookup call.config n).isNone) ++
    names ((ranged call.configOrder call.config).filter (isChanged last))

end Changes

/-! ## The server -/

inductive Manager where
  | events
  | metrics
  deriving DecidableEq, Repr

/-- A registered collector: the metrics probe itself. Its descriptors are its name's. -/
structure Collector where
  name : String
  serial : Nat
  deriving DecidableEq, Repr

def Probe.collector (p : Probe) : Collector := ⟨p.name, p.serial⟩

structure Server (α : Type) where
  manager : Manager
  lastConfig : List (ProbeConfig α)
  probes : String → Option Probe
  /-- Instances the map no longer holds. -/
  replaced : List Probe
  created : Nat
  /-- The collectors in the Prometheus registry. -/
  registry : List Collector
  panicked : Bool

def newServer (manager : Manager) : Server α := ⟨manager, [], fun _ => none, [], 0, [], false⟩

namespace Server

section Managers

variable (s : Server α)

def store (p : Probe) : Server α := { s with probes := Function.update s.probes p.name (some p) }

def unregister (name : String) : Server α := { s with registry := s.registry.filter (·.name ≠ name) }

def stopProbe (p : Probe) (ok : Bool) : Option ProbeError × Server α :=
  if p.state = .stopped ∨ p.state = .stopping ∨ p.state = .failed then (none, s)
  else
    let (err, p) := p.stop ok
    match err, s.manager with
    | some e, _ => (some e, s.store p)
    | none, .events => (none, s.store p)
    | none, .metrics => (none, (s.store p).unregister p.name)

inductive StartResult where
  | started
  | error (e : ProbeError)
  | panic
  deriving DecidableEq, Repr

def mustRegister (p : Probe) : StartResult × Server α :=
  if s.registry.any (·.name = p.name) then (.panic, { s with panicked := true })
  else (.started, { s with registry := p.collector :: s.registry })

def startProbe (p : Probe) (ok : Bool) : StartResult × Server α :=
  let (err, p) := p.start ok
  match err, s.manager with
  | some e, _ => (.error e, s.store p)
  | none, .events => (.started, s.store p)
  | none, .metrics => (s.store p).mustRegister p

def place (p : Probe) : Server α := { s.store p with replaced := (s.probes p.name).toList ++ s.replaced }

end Managers

def createProbes (ok : String → Bool) : Server α → List (ProbeConfig α) → Except String (List Probe) × Server α
  | s, [] => (.ok [], s)
  | s, c :: cs =>
    if ok c.name then
      let r := createProbes ok { s with created := s.created + 1 } cs
      (r.1.map (Probe.new c.name s.created :: ·), r.2)
    else (.error c.name, s)

def stopProbes (ok : String → Bool) : Server α → List String → Option String × Server α
  | s, [] => (none, s)
  | s, n :: ns =>
    match s.probes n with
    | none => stopProbes ok s ns
    | some p =>
      match s.stopProbe p (ok n) with
      | (some _, s) => (some n, s)
      | (none, s) => stopProbes ok s ns

/-- The loop of `StartProbe` calls: the names whose error was logged, or none where a
    registration panicked. -/
def startProbes (ok : String → Bool) : Server α → List Probe → Option (List String) × Server α
  | s, [] => (some [], s)
  | s, p :: ps =>
    match (s.place p).startProbe p (ok p.name) with
    | (.panic, s) => (none, s)
    | (.error _, s) =>
      let r := startProbes ok s ps
      (r.1.map (p.name :: ·), r.2)
    | (.started, s) => startProbes ok s ps

inductive Answer where
  /-- Nil; `failed` are the probes whose start failed. -/
  | done (failed : List String)
  | createError (name : String)
  | stopError (name : String)
  | panic
  deriving DecidableEq, Repr

def reload [BEq α] (s : Server α) (call : Call α) : Answer × Server α :=
  match createProbes call.createOk s (toAdd s.lastConfig call) with
  | (.error n, s') => (.createError n, s')
  | (.ok toAddProbes, s') =>
    match stopProbes call.stopOk s' (toClose s.lastConfig call) with
    | (some n, s') => (.stopError n, s')
    | (none, s') =>
      match startProbes call.startOk { s' with lastConfig := call.config } toAddProbes with
      | (some failed, s') => (.done failed, s')
      | (none, s') => (.panic, s')

/-- One call on a live process: after a panic there are no more. -/
def step [BEq α] (s : Server α) (call : Call α) : Answer × Server α := if s.panicked then (.panic, s) else s.reload call

end Server

end EliteTelemetry.Exporter
