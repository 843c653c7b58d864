/-
  EliteTelemetry.Netstack.Iptables — tracing a packet through a table of chains
  (`pkg/skoop/netstack/iptables.go`: `rule.match`, `xTable.tracePacket`; `netfilter.go`: the
  hooks and verdicts; `pkg/skoop/utils/stack.go`).

  A table is its chains, each under its name. A packet comes with everything a matcher may
  look at, so a matcher is a function of the packet, with an error or an answer.

  `tracePacket` keeps a stack of frames, a chain and a position each. `scan` is its inner
  loop, over the rules of the frame it has popped from the frame's position on; it ends with
  a result or with the frames to go on with. `loop` is the outer one and takes fuel: it
  gives out only where the code goes on for ever, or for longer than the fuel lasts.

  Two of its steps are not what they look like. A call pushes the frame to come back to, and
  the chain in that frame is the hook's, whichever chain the call was made from. And the type
  switch names `RejectTarget`, while the parser makes a `*RejectTarget`, so a REJECT rule is
  an unsupported target.
-/

import Mathlib.Data.List.Basic

namespace EliteTelemetry.Netstack

/-! ## Hooks and verdicts -/

inductive NFHook where
  | preRouting
  | input
  | forward
  | output
  | postRouting
  | other (n : UInt8)
  deriving DecidableEq, Repr

def NFHook.string : NFHook → String
  | .preRouting => "PREROUTING"
  | .input => "INPUT"
  | .forward => "FORWARD"
  | .output => "OUTPUT"
  | .postRouting => "POSTROUTING"
  | .other _ => "INVALID"

inductive Verdict where
  | accept
  | drop
  deriving DecidableEq, Repr

inductive XTablesVerdict where
  | accept
  | drop
  | reject
  | return_
  | continue_
  | other (n : UInt64)
  deriving DecidableEq, Repr

/-! ## Tables -/

inductive Target where
  | nop
  | accept
  | drop
  /-- `*RejectTarget`: what the parser makes of REJECT. -/
  | reject
  /-- `RejectTarget`, not a pointer: made nowhere. -/
  | rejectValue
  | masquerade
  | return_
  | call (chain : String)
  | goto (chain : String)
  /-- An `ExtensionTarget`, and what its `Do` answers. -/
  | extension (answer : Except String XTablesVerdict)
  deriving Repr

def Target.unsupported : Target → String
  | .reject => "unsupported target (*netstack.RejectTarget)&\x7b\x7d"
  | .masquerade => "unsupported target (*netstack.MasqueradeTarget)&\x7b\x7d"
  | _ => ""

structure Match (P : Type) where
  matcher : P → Except String Bool
  invert : Bool

structure Rule (P : Type) where
  conditions : List (Match P)
  target : Target
  /-- What `String` makes of the rule. -/
  text : String

structure IptChain (P : Type) where
  name : String
  policy : Verdict
  rules : List (Rule P)

structure XTable (P : Type) where
  name : String
  chains : List (IptChain P)

inductive TraceError where
  | rule (text message : String)
  | extension (message : String)
  deriving DecidableEq, Repr

abbrev Trace := List String

inductive Result where
  | done (verdict : Verdict) (trace : Trace) (err : Option TraceError)
  | panic
  deriving DecidableEq, Repr

variable {P : Type}

namespace Match

def run (m : Match P) (p : P) : Except String Bool := (m.matcher p).map fun v => if m.invert then !v else v

end Match

namespace Rule

def run (r : Rule P) (p : P) : Except String Bool := go r.conditions
where
  go : List (Match P) → Except String Bool
    | [] => .ok true
    | m :: ms =>
      match m.run p with
      | .error e => .error e
      | .ok false => .ok false
      | .ok true => go ms

end Rule

namespace XTable

def chain (xt : XTable P) (name : String) : Option (IptChain P) := xt.chains.find? (·.name = name)

/-! ## The trace of a packet -/

structure Frame (P : Type) where
  chain : IptChain P
  pos : Nat

inductive Scan (P : Type) where
  | stop (verdict : Verdict) (trace : Trace) (err : Option TraceError)
  | panic
  /-- `break chain`, or the end of the rules: the frames left, the next one first. -/
  | next (stack : List (Frame P)) (trace : Trace)

section Trace

variable (xt : XTable P) (hook : IptChain P) (p : P)

/-- A line of the trace; the chain it names is the hook's. -/
def line (r : Rule P) : String := xt.name ++ " " ++ hook.name ++ " " ++ r.text

/-- The inner loop, with `rules` from the position `pos` on. A chain that is not there is a
    nil pointer, read as soon as its frame is popped. -/
def scan (stack : List (Frame P)) : List (Rule P) → Nat → Trace → Scan P
  | [], _, trace => .next stack trace
  | r :: rules, pos, trace =>
    match r.run p with
    | .error e => .stop .drop trace (some (.rule r.text e))
    | .ok false => scan stack rules (pos + 1) trace
    | .ok true =>
      let trace := trace ++ [xt.line hook r]
      match r.target with
      | .accept => .stop .accept trace none
      | .drop | .rejectValue => .stop .drop trace none
      | .nop => scan stack rules (pos + 1) trace
      | .return_ => .next stack trace
      | .call name =>
        match xt.chain name with
        | none => .panic
        -- the frame to come back to is in the hook's chain
        | some c => .next (⟨c, 0⟩ :: ⟨hook, pos + 1⟩ :: stack) trace
      | .goto name =>
        match xt.chain name with
        | none => .panic
        | some c => .next (⟨c, 0⟩ :: stack) trace
      | .extension (.error e) => .stop .drop trace (some (.extension e))
      | .extension (.ok .accept) => .stop .accept trace none
      | .extension (.ok .drop) | .extension (.ok .reject) => .stop .drop trace none
      | .extension (.ok .continue_) => scan stack rules (pos + 1) trace
      | .extension (.ok .return_) => .next stack trace
      | .extension (.ok (.other _)) => .panic
      | .reject | .masquerade => .stop .drop trace (some (.rule r.text r.target.unsupported))

def buildTrace (trace : Trace) (frame : Frame P) : Trace :=
  match frame.chain.rules[frame.pos]? with
  | none => trace
  | some r => trace ++ [xt.line hook r]

/-- The deferred function: unless the packet is accepted, the trace goes on with the frames
    that are left. -/
def deferred (verdict : Verdict) (trace : Trace) (frames : List (Frame P)) : Trace :=
  if verdict = .accept then trace else frames.foldl (xt.buildTrace hook) trace

def loop : Nat → Option (Frame P) → List (Frame P) → Trace → Option Result
  | 0, _, _, _ => none
  | _ + 1, frame, [], trace => some (.done hook.policy (xt.deferred hook hook.policy trace frame.toList) none)
  | fuel + 1, _, frame :: stack, trace =>
    match xt.scan hook p stack (frame.chain.rules.drop frame.pos) frame.pos trace with
    | .stop verdict trace err => some (.done verdict (xt.deferred hook verdict trace (frame :: stack)) err)
    | .panic => some .panic
    | .next stack trace => loop fuel (some frame) stack trace

end Trace

def tracePacket (xt : XTable P) (fuel : Nat) (hook : NFHook) (p : P) : Option Result :=
  match xt.chain hook.string with
  | none => some .panic
  | some chain => xt.loop chain p fuel none [⟨chain, 0⟩] []

end XTable

end EliteTelemetry.Netstack
