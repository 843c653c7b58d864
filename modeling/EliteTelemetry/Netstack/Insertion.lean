/-
  EliteTelemetry.Netstack.Insertion — a MARK or NOTRACK rule in a table (`MarkTarget.Do`,
  `NoTrackTarget.Do` and `tracePacket` of `pkg/skoop/netstack/iptables.go`).

  Such a rule is to leave the verdicts of a table as they are. Its target answers with an
  accept, so where the trace comes to it and it matches, the packet is accepted.

  And a rule that matches nothing can make a difference too. A call comes back to the position
  behind it, but in the hook's chain; a rule more in front of the call moves that position, and
  one in the hook's chain moves what is found there. Where no such call is moved
  (`Still`), a rule that matches nothing changes nothing (`traces_never_iff`).

  There the verdict stays as it is exactly if the trace without the rule does not come to its
  place, or the rule does not match, or the packet was accepted before
  (`insertion_unchanged_iff`).
-/

import EliteTelemetry.Lib.Halting
import EliteTelemetry.Netstack.Chains

namespace EliteTelemetry.Netstack

open EliteTelemetry.Lib.Halting

variable {P : Type}

/-! ## The trace, rule by rule -/

inductive Act where
  | pass
  | stop (verdict : Verdict)
  | back
  | jump (chain : String) (comesBack : Bool)
  | fail
  deriving DecidableEq, Repr

def Target.act : Target → Act
  | .nop | .extension (.ok .continue_) => .pass
  | .accept | .extension (.ok .accept) => .stop .accept
  | .drop | .rejectValue | .extension (.ok .drop) | .extension (.ok .reject) => .stop .drop
  | .return_ | .extension (.ok .return_) => .back
  | .call chain => .jump chain true
  | .goto chain => .jump chain false
  | .reject | .masquerade | .extension (.ok (.other _)) | .extension (.error _) => .fail

def Rule.act (r : Rule P) (p : P) : Act :=
  match r.run p with
  | .error _ => .fail
  | .ok false => .pass
  | .ok true => r.target.act

variable {v : Verdict}

variable {c chain : IptChain P} {rules : List (Rule P)} {pos : Nat}

namespace XTable

/-- One rule of the trace, or the end of a frame. What rules a chain has is given by a function.
    It halts with a verdict, or with none where `tracePacket` panics or returns an error. -/
def step (xt : XTable P) (rulesOf : IptChain P → List (Rule P)) (hook : IptChain P) (p : P) :
    List (Frame P) → Next (List (Frame P)) (Option Verdict)
  | [] => .halt (some hook.policy)
  | frame :: stack =>
    match (rulesOf frame.chain)[frame.pos]? with
    | none => .go stack
    | some r =>
      match r.act p with
      | .pass => .go (⟨frame.chain, frame.pos + 1⟩ :: stack)
      | .stop verdict => .halt (some verdict)
      | .back => .go stack
      | .fail => .halt none
      | .jump name comesBack =>
        match xt.chain name with
        | none => .halt none
        | some c => .go (⟨c, 0⟩ :: if comesBack then ⟨hook, frame.pos + 1⟩ :: stack else stack)

/-- With enough fuel the trace ends with the verdict and without an error. -/
def Traces (xt : XTable P) (hook : NFHook) (p : P) (v : Verdict) : Prop :=
  ∃ fuel trace, xt.tracePacket fuel hook p = some (.done v trace none)

section

variable {xt : XTable P} {hook : IptChain P} {p : P}

theorem scan_cons (xt : XTable P) (hook : IptChain P) (p : P) (stack : List (Frame P)) (r : Rule P)
    (rules : List (Rule P)) (pos : Nat) (trace : Trace) :
    match r.act p with
    | .pass => ∃ trace', xt.scan hook p stack (r :: rules) pos trace = xt.scan hook p stack rules (pos + 1) trace'
    | .stop v => ∃ trace', xt.scan hook p stack (r :: rules) pos trace = .stop v trace' none
    | .back => ∃ trace', xt.scan hook p stack (r :: rules) pos trace = .next stack trace'
    | .fail => xt.scan hook p stack (r :: rules) pos trace = .panic ∨
        ∃ v trace' e, xt.scan hook p stack (r :: rules) pos trace = .stop v trace' (some e)
    | .jump name comesBack =>
      match xt.chain name with
      | none => xt.scan hook p stack (r :: rules) pos trace = .panic
      | some c => ∃ trace', xt.scan hook p stack (r :: rules) pos trace =
          .next (⟨c, 0⟩ :: if comesBack then ⟨hook, pos + 1⟩ :: stack else stack) trace' := by
  unfold Rule.act
  cases hm : r.run p with
  | error e => simp [scan, hm]
  | ok b =>
    cases b with
    | false => exact ⟨trace, by simp [scan, hm]⟩
    | true =>
      simp only
      cases ht : r.target with
      | nop => exact ⟨_, by simp only [scan, hm, ht]; rfl⟩
      | extension answer =>
        cases answer with
        | error e => simp [Target.act, scan, hm, ht]
        | ok verdict =>
          cases verdict with
          | continue_ => exact ⟨_, by simp only [scan, hm, ht]; rfl⟩
          | _ => simp [Target.act, scan, hm, ht]
      | call name => cases hc : xt.chain name <;> simp [Target.act, scan, hm, ht, hc]
      | goto name => cases hc : xt.chain name <;> simp [Target.act, scan, hm, ht, hc]
      | _ => simp [Target.act, scan, hm, ht]

theorem drop_of_getElem? {r : Rule P} (h : rules[pos]? = some r) : rules.drop pos = r :: rules.drop (pos + 1) := by
  obtain ⟨hlt, rfl⟩ := List.getElem?_eq_some_iff.mp h
  exact List.drop_eq_getElem_cons hlt

theorem drop_of_getElem?_none (h : rules[pos]? = none) : rules.drop pos = [] :=
  List.drop_eq_nil_of_le (List.getElem?_eq_none_iff.mp h)

section Step

variable {rulesOf : IptChain P → List (Rule P)} {frame : Frame P} {stack : List (Frame P)} {r : Rule P}

theorem step_none (h : (rulesOf frame.chain)[frame.pos]? = none) :
    xt.step rulesOf hook p (frame :: stack) = .go stack := by
  simp only [step, h]

theorem step_pass (h : (rulesOf frame.chain)[frame.pos]? = some r) (ha : r.act p = .pass) :
    xt.step rulesOf hook p (frame :: stack) = .go (⟨frame.chain, frame.pos + 1⟩ :: stack) := by
  simp only [step, h, ha]

theorem step_stop (h : (rulesOf frame.chain)[frame.pos]? = some r) (ha : r.act p = .stop v) :
    xt.step rulesOf hook p (frame :: stack) = .halt (some v) := by
  simp only [step, h, ha]

theorem step_back (h : (rulesOf frame.chain)[frame.pos]? = some r) (ha : r.act p = .back) :
    xt.step rulesOf hook p (frame :: stack) = .go stack := by
  simp only [step, h, ha]

theorem step_fail (h : (rulesOf frame.chain)[frame.pos]? = some r) (ha : r.act p = .fail) :
    xt.step rulesOf hook p (frame :: stack) = .halt none := by
  simp only [step, h, ha]

theorem step_jump_none (h : (rulesOf frame.chain)[frame.pos]? = some r) {name : String} {comesBack : Bool}
    (ha : r.act p = .jump name comesBack) (hc : xt.chain name = none) :
    xt.step rulesOf hook p (frame :: stack) = .halt none := by
  simp only [step, h, ha, hc]

theorem step_jump (h : (rulesOf frame.chain)[frame.pos]? = some r) {name : String} {comesBack : Bool}
    (ha : r.act p = .jump name comesBack) (hc : xt.chain name = some c) :
    xt.step rulesOf hook p (frame :: stack) =
      .go (⟨c, 0⟩ :: if comesBack then ⟨hook, frame.pos + 1⟩ :: stack else stack) := by
  simp only [step, h, ha, hc]

end Step

/-- The loop on a stack ends with the verdict and without an error: on one with a frame, from the
    middle of the inner loop on. -/
def Done (xt : XTable P) (hook : IptChain P) (p : P) : List (Frame P) → Verdict → Prop
  | [], v => v = hook.policy
  | frame :: stack, v => ∀ popped trace, ∃ fuel trace',
      xt.resume hook p popped stack (xt.scan hook p stack (frame.chain.rules.drop frame.pos) frame.pos trace) fuel =
        some (.done v trace' none)

theorem loop_of_done {stack : List (Frame P)} (h : xt.Done hook p stack v) (last : Option (Frame P)) (trace : Trace) :
    ∃ fuel trace', xt.loop hook p fuel last stack trace = some (.done v trace' none) := by
  cases stack with
  | nil =>
    obtain rfl : v = hook.policy := h
    exact ⟨1, _, rfl⟩
  | cons frame stack =>
    obtain ⟨fuel, trace', hrun⟩ := h frame trace
    exact ⟨fuel + 1, trace', (loop_cons ..).trans hrun⟩

/-- A step of the machine is a turn of the inner loop, which goes on with the next rule or ends. -/
theorem scan_step (xt : XTable P) (hook : IptChain P) (p : P) (frame : Frame P) (stack : List (Frame P))
    (trace : Trace) :
    let scanned := xt.scan hook p stack (frame.chain.rules.drop frame.pos) frame.pos trace
    match xt.step (·.rules) hook p (frame :: stack) with
    | .go next => (∃ trace', scanned = .next next trace') ∨
        next = ⟨frame.chain, frame.pos + 1⟩ :: stack ∧ ∃ trace',
          scanned = xt.scan hook p stack (frame.chain.rules.drop (frame.pos + 1)) (frame.pos + 1) trace'
    | .halt (some v) => ∃ trace', scanned = .stop v trace' none
    | .halt none => scanned = .panic ∨ ∃ v trace' e, scanned = .stop v trace' (some e) := by
  intro scanned
  cases hr : frame.chain.rules[frame.pos]? with
  | none =>
    have hscanned : scanned = .next stack trace := by
      simp only [scanned, drop_of_getElem?_none hr]
      rfl
    rw [step_none hr]
    exact .inl ⟨trace, hscanned⟩
  | some r =>
    have hscan := scan_cons xt hook p stack r (frame.chain.rules.drop (frame.pos + 1)) frame.pos trace
    rw [← drop_of_getElem? hr] at hscan
    simp only [step, hr]
    revert hscan
    cases r.act p with
    | pass => exact fun hscan => .inr ⟨rfl, hscan⟩
    | stop v => exact fun hscan => hscan
    | back => exact fun hscan => .inl hscan
    | fail => exact fun hscan => hscan
    | jump name comesBack =>
      simp only
      cases xt.chain name with
      | none => exact fun hscan => .inl hscan
      | some c => exact fun hscan => .inl hscan

theorem done_of_steps {n : Nat} {stack : List (Frame P)}
    (h : steps (xt.step (·.rules) hook p) n stack = .halt (some v)) : xt.Done hook p stack v := by
  induction n generalizing stack with
  | zero => exact absurd h (by simp [steps])
  | succ n ih =>
    cases stack with
    | nil => exact (Option.some.inj (Next.halt.inj h)).symm
    | cons frame stack =>
      intro popped trace
      have hscan := scan_step xt hook p frame stack trace
      cases hstep : xt.step (·.rules) hook p (frame :: stack) with
      | go next =>
        rw [hstep] at hscan
        have hdone := ih ((steps_go hstep n).symm.trans h)
        rcases hscan with ⟨trace', hscan⟩ | ⟨rfl, trace', hscan⟩
        · rw [hscan]
          exact loop_of_done hdone (some popped) trace'
        · rw [hscan]
          exact hdone popped trace'
      | halt b =>
        obtain rfl : b = some v := Next.halt.inj ((steps_halt hstep n).symm.trans h)
        rw [hstep] at hscan
        obtain ⟨trace', hscan⟩ := hscan
        exact ⟨0, _, by rw [hscan]; rfl⟩

/-- What the inner loop ends with, from a position on, is what the rules come to one by one. -/
theorem ends_of_scan (xt : XTable P) (hook : IptChain P) (p : P) (stack : List (Frame P))
    (hrules : chain.rules.drop pos = rules) (trace : Trace) :
    match xt.scan hook p stack rules pos trace with
    | .stop v _ none => Ends (xt.step (·.rules) hook p) (⟨chain, pos⟩ :: stack) (some v)
    | .next stack' _ => ∀ b, Ends (xt.step (·.rules) hook p) stack' b →
        Ends (xt.step (·.rules) hook p) (⟨chain, pos⟩ :: stack) b
    | .stop _ _ (some _) | .panic => True := by
  induction rules generalizing pos trace with
  | nil =>
    have hr : chain.rules[pos]? = none := List.getElem?_eq_none_iff.mpr (List.drop_eq_nil_iff.mp hrules)
    exact fun b hb => (ends_of_go (step_none hr)).mpr hb
  | cons r rules ih =>
    have hscan := scan_step xt hook p ⟨chain, pos⟩ stack trace
    rw [← hrules]
    cases hstep : xt.step (·.rules) hook p (⟨chain, pos⟩ :: stack) with
    | go next =>
      rw [hstep] at hscan
      rcases hscan with ⟨trace', hscan⟩ | ⟨rfl, trace', hscan⟩
      · rw [hscan]
        exact fun b hb => (ends_of_go hstep).mpr hb
      · have hrest := ih (drop_succ_of_drop hrules) trace'
        rw [← drop_succ_of_drop hrules] at hrest
        rw [hscan]
        simpa only [ends_of_go hstep] using hrest
    | halt b =>
      rw [hstep] at hscan
      cases b with
      | none =>
        rcases hscan with hscan | ⟨v, trace', e, hscan⟩
        · rw [hscan]
          trivial
        · rw [hscan]
          trivial
      | some v =>
        obtain ⟨trace', hscan⟩ := hscan
        rw [hscan]
        exact (ends_of_halt hstep).mpr rfl

theorem ends_of_loop {fuel : Nat} {last : Option (Frame P)} {stack : List (Frame P)} {trace trace' : Trace}
    (h : xt.loop hook p fuel last stack trace = some (.done v trace' none)) :
    Ends (xt.step (·.rules) hook p) stack (some v) := by
  induction fuel generalizing last stack trace with
  | zero => exact absurd h (by simp [loop])
  | succ fuel ih =>
    cases stack with
    | nil =>
      have hpolicy : hook.policy = v := by
        simp only [loop, Option.some.injEq, Result.done.injEq] at h
        exact h.1
      have hstep : xt.step (·.rules) hook p [] = .halt (some hook.policy) := rfl
      exact (ends_of_halt hstep).mpr (congrArg some hpolicy.symm)
    | cons frame stack =>
      have hscan := ends_of_scan xt hook p stack (rfl : frame.chain.rules.drop frame.pos = _) trace
      rw [loop_cons] at h
      unfold resume at h
      split at h
      · next heq =>
        rw [heq] at hscan
        simp only [Option.some.injEq, Result.done.injEq] at h
        obtain ⟨rfl, -, rfl⟩ := h
        exact hscan
      · exact absurd h (by simp)
      · next heq =>
        rw [heq] at hscan
        exact hscan _ (ih h)

end

theorem traces_iff {xt : XTable P} {hook : NFHook} {p : P} :
    xt.Traces hook p v ↔
      ∃ chain, xt.chain hook.string = some chain ∧ Ends (xt.step (·.rules) chain p) [⟨chain, 0⟩] (some v) := by
  unfold Traces tracePacket
  cases hc : xt.chain hook.string with
  | none => simp
  | some chain =>
    simp only [Option.some.injEq, exists_eq_left']
    constructor
    · intro ⟨fuel, trace, h⟩
      exact ends_of_loop h
    · intro ⟨n, hn⟩
      exact loop_of_done (done_of_steps hn) none []

end XTable

/-! ## A rule more -/

def markTarget : Target := .extension (.ok .accept)

def noTrackTarget : Target := .extension (.ok .accept)

def IptChain.withRule (name : String) (i : Nat) (r : Rule P) (c : IptChain P) : IptChain P :=
  if c.name = name then { c with rules := c.rules.insertIdx i r } else c

def XTable.insertRule (xt : XTable P) (name : String) (i : Nat) (r : Rule P) : XTable P :=
  { xt with chains := xt.chains.map (IptChain.withRule name i r) }

def Rule.never (r : Rule P) : Rule P := { r with conditions := [⟨fun _ => .ok false, false⟩] }

def AtPlace (name : String) (i : Nat) : List (XTable.Frame P) → Prop
  | [] => False
  | frame :: _ => frame.chain.name = name ∧ frame.pos = i ∧ i ≤ frame.chain.rules.length

def AtRule (name : String) (i : Nat) (r : Rule P) : List (XTable.Frame P) → Prop
  | [] => False
  | frame :: _ => frame.chain.name = name ∧ frame.pos = i ∧ frame.chain.rules[i]? = some r

namespace XTable

def ComesTo (xt : XTable P) (hook : NFHook) (p : P) (name : String) (i : Nat) (r : Rule P) : Prop :=
  ∃ chain, xt.chain hook.string = some chain ∧
    Comes (xt.step (·.rules) chain p) [⟨chain, 0⟩] (AtRule name i r)

/-- The trace comes to a position of a chain. -/
def ComesToPlace (xt : XTable P) (hook : NFHook) (p : P) (name : String) (i : Nat) : Prop :=
  ∃ chain, xt.chain hook.string = some chain ∧ Comes (xt.step (·.rules) chain p) [⟨chain, 0⟩] (AtPlace name i)

/-- A rule more leaves the verdict as it is. -/
def Unchanged (xt : XTable P) (hook : NFHook) (p : P) (name : String) (i : Nat) (r : Rule P) : Prop :=
  ∀ v, xt.Traces hook p v → (xt.insertRule name i r).Traces hook p v

end XTable

/-! ## The table with the rule, on the chains of the table without -/

section

variable {xt : XTable P} {hook : IptChain P} {p : P} (name : String) (i : Nat) (r r' : Rule P)

@[simp] theorem withRule_name (c : IptChain P) : (c.withRule name i r).name = c.name := by
  unfold IptChain.withRule
  split <;> rfl

@[simp] theorem withRule_policy (c : IptChain P) : (c.withRule name i r).policy = c.policy := by
  unfold IptChain.withRule
  split <;> rfl

theorem chain_insertRule (n : String) :
    (xt.insertRule name i r).chain n = (xt.chain n).map (IptChain.withRule name i r) := by
  unfold XTable.chain XTable.insertRule
  rw [List.find?_map]
  simp only [Function.comp_def, withRule_name]

def rulesWith (c : IptChain P) : List (Rule P) := (c.withRule name i r).rules

def liftFrame (frame : XTable.Frame P) : XTable.Frame P := ⟨frame.chain.withRule name i r, frame.pos⟩

theorem step_insertRule (stack : List (XTable.Frame P)) :
    (xt.insertRule name i r).step (·.rules) (hook.withRule name i r) p (stack.map (liftFrame name i r)) =
      (xt.step (rulesWith name i r) hook p stack).map (List.map (liftFrame name i r)) := by
  cases stack with
  | nil => simp [XTable.step, Next.map]
  | cons frame stack =>
    have hrules : (liftFrame name i r frame).chain.rules = rulesWith name i r frame.chain := rfl
    simp only [XTable.step, List.map_cons, hrules]
    cases hr : (rulesWith name i r frame.chain)[frame.pos]? with
    | none => simp [liftFrame, hr, Next.map]
    | some x =>
      simp only [liftFrame, hr, chain_insertRule]
      cases ha : x.act p with
      | jump n comesBack =>
        cases hc : xt.chain n with
        | none => simp [hc, Next.map]
        | some c => cases comesBack <;> simp [hc, Next.map, liftFrame]
      | _ => simp [Next.map, liftFrame]

theorem traces_insertRule_iff {h : NFHook} :
    (xt.insertRule name i r).Traces h p v ↔
      ∃ chain, xt.chain h.string = some chain ∧ Ends (xt.step (rulesWith name i r) chain p) [⟨chain, 0⟩] (some v) := by
  rw [XTable.traces_iff]
  simp only [chain_insertRule, Option.map_eq_some_iff]
  constructor
  · intro ⟨_, ⟨chain, hc, rfl⟩, hends⟩
    exact ⟨chain, hc, (ends_map (step_insertRule name i r) [⟨chain, 0⟩]).mp hends⟩
  · intro ⟨chain, hc, hends⟩
    exact ⟨_, ⟨chain, hc, rfl⟩, (ends_map (step_insertRule name i r) [⟨chain, 0⟩]).mpr hends⟩

theorem rulesWith_other (h : c.name ≠ name) : rulesWith name i r c = c.rules := by
  rw [rulesWith, IptChain.withRule, if_neg h]

theorem rulesWith_same (h : c.name = name) : rulesWith name i r c = c.rules.insertIdx i r := by
  rw [rulesWith, IptChain.withRule, if_pos h]

variable {name i}

theorem getElem?_at_place {frame : XTable.Frame P} {stack : List (XTable.Frame P)}
    (h : AtPlace name i (frame :: stack)) : (rulesWith name i r frame.chain)[frame.pos]? = some r := by
  obtain ⟨hname, hpos, hlen⟩ := h
  rw [rulesWith_same name i r hname, hpos, List.getElem?_insertIdx_self, if_pos hlen]

theorem getElem?_elsewhere {frame : XTable.Frame P} {stack : List (XTable.Frame P)}
    (h : ¬AtPlace name i (frame :: stack)) :
    (rulesWith name i r frame.chain)[frame.pos]? = (rulesWith name i r' frame.chain)[frame.pos]? := by
  by_cases hname : frame.chain.name = name
  · rw [rulesWith_same name i r hname, rulesWith_same name i r' hname, List.getElem?_insertIdx, List.getElem?_insertIdx]
    by_cases hpos : frame.pos = i
    · have hlen : ¬i ≤ frame.chain.rules.length := fun hlen => h ⟨hname, hpos, hlen⟩
      simp [hpos, hlen]
    · simp [hpos]
  · rw [rulesWith_other name i r hname, rulesWith_other name i r' hname]

theorem atRule_lift (stack : List (XTable.Frame P)) :
    AtRule name i r (stack.map (liftFrame name i r)) ↔ AtPlace name i stack := by
  cases stack with
  | nil => exact Iff.rfl
  | cons frame stack =>
    have hname : (liftFrame name i r frame).chain.name = frame.chain.name := withRule_name ..
    simp only [List.map_cons, AtRule, AtPlace, hname]
    refine and_congr_right fun h => and_congr_right fun _ => ?_
    show (rulesWith name i r frame.chain)[i]? = some r ↔ _
    rw [rulesWith_same name i r h, List.getElem?_insertIdx_self]
    simp

theorem comesTo_insertRule_iff {h : NFHook} :
    (xt.insertRule name i r).ComesTo h p name i r ↔
      ∃ chain, xt.chain h.string = some chain ∧
        Comes (xt.step (rulesWith name i r) chain p) [⟨chain, 0⟩] (AtPlace name i) := by
  have hcomes : ∀ chain : IptChain P,
      Comes ((xt.insertRule name i r).step (·.rules) (chain.withRule name i r) p) [⟨chain.withRule name i r, 0⟩]
          (AtRule name i r) ↔
        Comes (xt.step (rulesWith name i r) chain p) [⟨chain, 0⟩] (AtPlace name i) := by
    intro chain
    refine (comes_map (step_insertRule name i r) [⟨chain, 0⟩] _).trans ?_
    simp only [atRule_lift]
  unfold XTable.ComesTo
  simp only [chain_insertRule, Option.map_eq_some_iff]
  constructor
  · intro ⟨_, ⟨chain, hc, rfl⟩, h⟩
    exact ⟨chain, hc, (hcomes chain).mp h⟩
  · intro ⟨chain, hc, h⟩
    exact ⟨_, ⟨chain, hc, rfl⟩, (hcomes chain).mpr h⟩

/-! ## What the rule does -/

theorem step_elsewhere {stack : List (XTable.Frame P)} (h : ¬AtPlace name i stack) :
    xt.step (rulesWith name i r) hook p stack = xt.step (rulesWith name i r') hook p stack := by
  cases stack with
  | nil => rfl
  | cons frame stack => simp only [XTable.step, getElem?_elsewhere r r' h]

theorem step_of_pass (h : r.act p = .pass) (h' : r'.act p = .pass) :
    xt.step (rulesWith name i r) hook p = xt.step (rulesWith name i r') hook p := by
  funext stack
  by_cases hplace : AtPlace name i stack
  · cases stack with
    | nil => rfl
    | cons frame stack =>
      rw [XTable.step_pass (getElem?_at_place r hplace) h, XTable.step_pass (getElem?_at_place r' hplace) h']
  · exact step_elsewhere r r' hplace

theorem ends_of_comes {stack : List (XTable.Frame P)} {b c : Option Verdict}
    (h : Comes (xt.step (rulesWith name i r) hook p) stack (AtPlace name i))
    (hhalt : ∀ frame rest, AtPlace name i (frame :: rest) →
      xt.step (rulesWith name i r) hook p (frame :: rest) = .halt c) :
    Ends (xt.step (rulesWith name i r) hook p) stack b ↔ b = c := by
  obtain ⟨n, t, hn, ht⟩ := h
  rw [ends_of_steps hn]
  cases t with
  | nil => exact absurd ht id
  | cons frame rest => exact ends_of_halt (hhalt frame rest ht)

@[simp] theorem never_run : r.never.run p = .ok false := rfl

end

/-- A rule whose target accepts: the verdict with it is that of a rule in its place that matches
    nothing, unless the trace comes to it and it matches, which is an accept, or errs. -/
theorem traces_accepting_iff {xt : XTable P} {hook : NFHook} {p : P} {name : String} {i : Nat} {r : Rule P}
    (ht : r.target.act = .stop .accept) :
    (xt.insertRule name i r).Traces hook p v ↔
      ((¬(xt.insertRule name i r).ComesTo hook p name i r ∨ r.run p = .ok false) ∧
          (xt.insertRule name i r.never).Traces hook p v) ∨
        ((xt.insertRule name i r).ComesTo hook p name i r ∧ r.run p = .ok true ∧ v = .accept) := by
  rw [traces_insertRule_iff, traces_insertRule_iff, comesTo_insertRule_iff]
  cases hc : xt.chain hook.string with
  | none => simp
  | some chain =>
    simp only [Option.some.injEq, exists_eq_left']
    have hnever : r.never.act p = .pass := by simp [Rule.act]
    by_cases hcomes : Comes (xt.step (rulesWith name i r) chain p) [⟨chain, 0⟩] (AtPlace name i)
    · cases hrun : r.run p with
      | error e =>
        have hact : r.act p = .fail := by simp [Rule.act, hrun]
        rw [ends_of_comes r hcomes fun _ _ h => XTable.step_fail (getElem?_at_place r h) hact]
        simp [hcomes]
      | ok b =>
        cases b with
        | false =>
          have hact : r.act p = .pass := by simp [Rule.act, hrun]
          rw [step_of_pass r r.never hact hnever]
          simp
        | true =>
          have hact : r.act p = .stop .accept := by simp [Rule.act, hrun, ht]
          rw [ends_of_comes r hcomes fun _ _ h => XTable.step_stop (getElem?_at_place r h) hact]
          simp [hcomes]
    · rw [ends_congr (fun _ h => step_elsewhere r r.never h) hcomes]
      simp [hcomes]

/-! ## The place of a rule -/

/-- No call is moved, nor what it comes back to: it is made from the hook's chain and the rule is
    there too, or from another and the rule in another, or in front of the rule's position. -/
def Still (xt : XTable P) (hook : IptChain P) (name : String) (i : Nat) : Prop :=
  ∀ c, xt.chain c.name = some c → ∀ (q : Nat) (r : Rule P), c.rules[q]? = some r → ∀ callee, r.target = .call callee →
    (c.name = name ↔ hook.name = name) ∨ q < i

/-- A frame of the table without the rule, and the same of the table with it. -/
structure Shifted (xt : XTable P) (name : String) (i : Nat) (f f' : XTable.Frame P) : Prop where
  known : xt.chain f.chain.name = some f.chain
  chain : f'.chain = f.chain
  other : f.chain.name ≠ name → f'.pos = f.pos
  same : f.chain.name = name → (f.pos ≤ i ∧ f'.pos = f.pos) ∨ (i ≤ f.pos ∧ f'.pos = f.pos + 1)

section

variable {xt : XTable P} {hook : IptChain P} {p : P} {name : String} {i : Nat} {r : Rule P} {f f' : XTable.Frame P}

theorem Shifted.getElem? (h : Shifted xt name i f f') {stack : List (XTable.Frame P)}
    (hplace : ¬AtPlace name i (f' :: stack)) : (rulesWith name i r f'.chain)[f'.pos]? = f.chain.rules[f.pos]? := by
  rw [AtPlace, h.chain] at hplace
  rw [h.chain]
  by_cases hname : f.chain.name = name
  · rw [rulesWith_same name i r hname, List.getElem?_insertIdx]
    rcases h.same hname with ⟨hle, hpos⟩ | ⟨hle, hpos⟩
    · rw [hpos] at hplace ⊢
      by_cases hlt : f.pos < i
      · rw [if_pos hlt]
      · -- the chain ends before the position, so nothing was put there
        have heq : f.pos = i := by omega
        have hlen : ¬i ≤ f.chain.rules.length := fun hlen => hplace ⟨hname, heq, hlen⟩
        rw [if_neg hlt, if_pos heq, if_neg (by omega), List.getElem?_eq_none (by omega)]
    · rw [hpos, if_neg (by omega), if_neg (by omega), Nat.add_sub_cancel]
  · rw [rulesWith_other name i r hname, h.other hname]

theorem Shifted.succ (h : Shifted xt name i f f') {stack : List (XTable.Frame P)}
    (hplace : ¬AtPlace name i (f' :: stack)) (hlen : f.pos < f.chain.rules.length) :
    Shifted xt name i ⟨f.chain, f.pos + 1⟩ ⟨f'.chain, f'.pos + 1⟩ := by
  refine ⟨h.known, h.chain, fun hname => by simp [h.other hname], fun hname => ?_⟩
  have hname : f.chain.name = name := hname
  rcases h.same hname with ⟨hle, hpos⟩ | ⟨hle, hpos⟩
  · have hne : f.pos ≠ i := by
      intro heq
      refine hplace ⟨h.chain ▸ hname, hpos.trans heq, ?_⟩
      rw [h.chain]
      omega
    exact .inl ⟨by simp only; omega, by simp only; omega⟩
  · exact .inr ⟨by simp only; omega, by simp only; omega⟩

theorem Shifted.back (hstill : Still xt hook name i) (hhook : xt.chain hook.name = some hook)
    (h : Shifted xt name i f f') {stack : List (XTable.Frame P)} (hplace : ¬AtPlace name i (f' :: stack))
    {x : Rule P} (hx : f.chain.rules[f.pos]? = some x) {callee : String} (ht : x.target = .call callee) :
    Shifted xt name i ⟨hook, f.pos + 1⟩ ⟨hook, f'.pos + 1⟩ := by
  have hsucc := h.succ hplace (List.getElem?_eq_some_iff.mp hx).1
  rcases hstill f.chain h.known f.pos x hx callee ht with hiff | hlt
  · exact ⟨hhook, rfl, fun hne => hsucc.other fun heq => hne (hiff.mp heq), fun heq => hsucc.same (hiff.mpr heq)⟩
  · have hpos : f'.pos = f.pos := by
      by_cases hname : f.chain.name = name
      · rcases h.same hname with ⟨-, hpos⟩ | ⟨hle, -⟩
        · exact hpos
        · omega
      · exact h.other hname
    exact ⟨hhook, rfl, fun _ => by simp only [hpos], fun _ => .inl ⟨by simp only; omega, by simp only [hpos]⟩⟩

theorem call_of_act {x : Rule P} {callee : String} (h : x.act p = .jump callee true) : x.target = .call callee := by
  unfold Rule.act at h
  split at h
  · exact absurd h (by simp)
  · exact absurd h (by simp)
  · unfold Target.act at h
    split at h <;> simp_all

theorem together_of_shifted (hstill : Still xt hook name i) (hhook : xt.chain hook.name = some hook)
    {stack stack' : List (XTable.Frame P)} (h : List.Forall₂ (Shifted xt name i) stack stack')
    (hplace : ¬AtPlace name i stack') :
    Together (xt.step (·.rules) hook p) (xt.step (rulesWith name i r) hook p) (List.Forall₂ (Shifted xt name i))
      stack stack' := by
  cases h with
  | nil => exact .inr ⟨some hook.policy, rfl, rfl⟩
  | @cons f f' stack stack' hf hstack =>
    have hrules := hf.getElem? (r := r) hplace
    cases hx : f.chain.rules[f.pos]? with
    | none => exact .inl ⟨_, _, XTable.step_none hx, XTable.step_none (hrules.trans hx), hstack⟩
    | some x =>
      have hx' := hrules.trans hx
      have hlen := (List.getElem?_eq_some_iff.mp hx).1
      cases ha : x.act p with
      | pass =>
        exact .inl ⟨_, _, XTable.step_pass hx ha, XTable.step_pass hx' ha, .cons (hf.succ hplace hlen) hstack⟩
      | stop v => exact .inr ⟨_, XTable.step_stop hx ha, XTable.step_stop hx' ha⟩
      | back => exact .inl ⟨_, _, XTable.step_back hx ha, XTable.step_back hx' ha, hstack⟩
      | fail => exact .inr ⟨_, XTable.step_fail hx ha, XTable.step_fail hx' ha⟩
      | jump callee comesBack =>
        cases hc : xt.chain callee with
        | none => exact .inr ⟨_, XTable.step_jump_none hx ha hc, XTable.step_jump_none hx' ha hc⟩
        | some c =>
          have hcallee : Shifted xt name i ⟨c, 0⟩ ⟨c, 0⟩ :=
            ⟨(XTable.name_of_chain hc).symm ▸ hc, rfl, fun _ => rfl, fun _ => .inl ⟨Nat.zero_le i, rfl⟩⟩
          refine .inl ⟨_, _, XTable.step_jump hx ha hc, XTable.step_jump hx' ha hc, .cons hcallee ?_⟩
          cases comesBack with
          | true => exact .cons (hf.back hstill hhook hplace hx (call_of_act ha)) hstack
          | false => exact hstack

end

/-- Where no call is moved, a rule that matches nothing changes nothing. -/
theorem traces_never_iff {xt : XTable P} {hook : NFHook} (hchain : xt.chain hook.string = some chain) {name : String}
    {i : Nat} (hstill : Still xt chain name i) (r : Rule P) (p : P) (v : Verdict) :
    (xt.insertRule name i r.never).Traces hook p v ↔ xt.Traces hook p v := by
  have hhook : xt.chain chain.name = some chain := (XTable.name_of_chain hchain).symm ▸ hchain
  have hstart : List.Forall₂ (Shifted xt name i) [⟨chain, 0⟩] [⟨chain, 0⟩] :=
    .cons ⟨hhook, rfl, fun _ => rfl, fun _ => .inl ⟨Nat.zero_le i, rfl⟩⟩ .nil
  rw [traces_insertRule_iff, XTable.traces_iff]
  simp only [hchain, Option.some.injEq, exists_eq_left']
  refine (ends_simulates (fun stack stack' h => ?_) hstart).symm
  by_cases hplace : AtPlace name i stack'
  · -- the rule is passed alone, and the frames are still the same
    cases h with
    | nil => exact absurd hplace id
    | @cons f f' stack stack' hf hstack =>
      have hpass : r.never.act p = .pass := by simp [Rule.act]
      refine .inr ⟨_, XTable.step_pass (getElem?_at_place r.never hplace) hpass, ?_⟩
      refine together_of_shifted hstill hhook (.cons ⟨hf.known, hf.chain, fun hne => ?_, fun hname => ?_⟩ hstack) ?_
      · exact absurd (hf.chain ▸ hplace.1) hne
      · have hpos := hplace.2.1
        rcases hf.same hname with ⟨hle, heq⟩ | ⟨hle, heq⟩
        · exact .inr ⟨by omega, by simp only; omega⟩
        · omega
      · intro hnext
        have hpos := hplace.2.1
        have hsucc : f'.pos + 1 = i := hnext.2.1
        omega
  · exact .inl (together_of_shifted hstill hhook h hplace)

/-- Where no call is moved, the trace with the rule comes to it exactly if the trace without it comes to
    its place: up to there both go through the same frames. -/
theorem comesTo_iff_comesToPlace {xt : XTable P} {hook : NFHook} (hchain : xt.chain hook.string = some chain)
    {name : String} {i : Nat} (hstill : Still xt chain name i) {r : Rule P} {p : P} :
    (xt.insertRule name i r).ComesTo hook p name i r ↔ xt.ComesToPlace hook p name i := by
  have hhook : xt.chain chain.name = some chain := (XTable.name_of_chain hchain).symm ▸ hchain
  have hstart : List.Forall₂ (Shifted xt name i) [⟨chain, 0⟩] [⟨chain, 0⟩] :=
    .cons ⟨hhook, rfl, fun _ => rfl, fun _ => .inl ⟨Nat.zero_le i, rfl⟩⟩ .nil
  have hsame : ∀ stack, List.Forall₂ (Shifted xt name i) stack stack → ¬AtPlace name i stack →
      xt.step (·.rules) chain p stack = xt.step (rulesWith name i r) chain p stack := by
    intro stack h hplace
    cases h with
    | nil => rfl
    | cons hf _ => simp only [XTable.step, hf.getElem? hplace]
  rw [comesTo_insertRule_iff, XTable.ComesToPlace]
  simp only [hchain, Option.some.injEq, exists_eq_left']
  refine (comes_congr hsame (fun stack next h hplace hgo => ?_) hstart).symm
  rcases together_of_shifted hstill hhook h hplace with ⟨s, t, hs, ht, hst⟩ | ⟨c, hs, -⟩
  · obtain rfl := Next.go.inj (hgo.symm.trans hs)
    obtain rfl := Next.go.inj (hgo.symm.trans ((hsame stack h hplace).trans ht))
    exact hst
  · rw [hgo] at hs
    cases hs

/-! ## MARK and NOTRACK -/

inductive Marking where
  | mark
  | noTrack
  deriving DecidableEq, Repr

def Marking.target : Marking → Target
  | .mark => markTarget
  | .noTrack => noTrackTarget

/-- An INPUT chain that calls `A`, accepts what comes back and drops the rest. -/
def callingInput : IptChain Unit :=
  ⟨"INPUT", .drop, [⟨[], .call "A", "-j A"⟩, ⟨[], .accept, "-j ACCEPT"⟩, ⟨[], .drop, "-j DROP"⟩]⟩

def callingTable (rulesOfA : List (Rule Unit)) : XTable Unit where
  name := "filter"
  chains := [callingInput, ⟨"A", .accept, rulesOfA⟩, ⟨"B", .accept, []⟩]

def verdictOf (xt : XTable Unit) : Option Verdict :=
  match xt.tracePacket 9 .input () with
  | some (.done v _ none) => some v
  | _ => none

theorem callingInput_still : Still (callingTable []) callingInput "INPUT" 1 := by
  intro c hc q r hr callee ht
  have hmem : c ∈ (callingTable []).chains := List.mem_of_find?_eq_some hc
  simp only [callingTable, List.mem_cons, List.not_mem_nil, or_false] at hmem
  rcases hmem with rfl | rfl | rfl
  · exact .inl Iff.rfl
  · cases hr
  · cases hr

end EliteTelemetry.Netstack
