/-
  EliteTelemetry.Netstack.Chains — chains as a recursive program, and `tracePacket` against it.

  `Runs` is what a table of chains means: the rules in order, a call runs its chain and comes
  back if that falls off its end or returns, a goto runs its chain in place of what is left.
  In a table without cycles every chain runs to one outcome (`runs_total`, `Runs.unique`).

  The code keeps the frames of the calls it is in on a stack. `reaches` is the simulation: as
  long as the only calls that come back are the hook chain's own, the loop does with a chain
  on top of any stack what the chain's outcome says, and then goes on with that stack. A call
  made from another chain that does come back (`Resumes`) is resumed in the hook's chain
  instead, at the position of the call in its own; what happens then is any other run, or
  one without end. Short of that, the code gives the table's verdict exactly where the run
  does not end in a REJECT (`tracePacket_correct_iff`).
-/

import EliteTelemetry.Lib.Machine
import EliteTelemetry.Netstack.Iptables
import Mathlib.Order.WellFounded
import Mathlib.Data.Set.Finite.Basic

namespace EliteTelemetry.Netstack

open EliteTelemetry.Lib.Machine

variable {P : Type}

/-! ## What a table means -/

inductive Outcome where
  | accept
  | drop
  | reject
  /-- They were all passed, or one of them returned. -/
  | fall
  deriving DecidableEq, Repr

def Outcome.verdict (policy : Verdict) : Outcome → Verdict
  | .accept => .accept
  | .drop | .reject => .drop
  | .fall => policy

namespace XTable

inductive Runs (xt : XTable P) (p : P) : List (Rule P) → Outcome → Prop
  | nil : Runs xt p [] .fall
  | skip {r rules o} : r.run p = .ok false → Runs xt p rules o → Runs xt p (r :: rules) o
  | nop {r rules o} : r.run p = .ok true → r.target = .nop → Runs xt p rules o → Runs xt p (r :: rules) o
  | accept {r rules} : r.run p = .ok true → r.target = .accept → Runs xt p (r :: rules) .accept
  | drop {r rules} : r.run p = .ok true → r.target = .drop → Runs xt p (r :: rules) .drop
  | reject {r rules} : r.run p = .ok true → r.target = .reject → Runs xt p (r :: rules) .reject
  | return_ {r rules} : r.run p = .ok true → r.target = .return_ → Runs xt p (r :: rules) .fall
  /-- The called chain decides. -/
  | callEnds {r rules name c o} : r.run p = .ok true → r.target = .call name → xt.chain name = some c →
      Runs xt p c.rules o → o ≠ .fall → Runs xt p (r :: rules) o
  /-- The call comes back. -/
  | callBack {r rules name c o} : r.run p = .ok true → r.target = .call name → xt.chain name = some c →
      Runs xt p c.rules .fall → Runs xt p rules o → Runs xt p (r :: rules) o
  | goto {r rules name c o} : r.run p = .ok true → r.target = .goto name → xt.chain name = some c →
      Runs xt p c.rules o → Runs xt p (r :: rules) o

def HookVerdict (xt : XTable P) (hook : IptChain P) (p : P) (v : Verdict) : Prop :=
  ∃ o, xt.Runs p hook.rules o ∧ o.verdict hook.policy = v

section Inversion

variable {xt : XTable P} {p : P} {r : Rule P} {rules : List (Rule P)} {name : String} {c : IptChain P} {o : Outcome}

theorem runs_skip_iff (hm : r.run p = .ok false) : xt.Runs p (r :: rules) o ↔ xt.Runs p rules o := by
  refine ⟨fun h => ?_, fun h => .skip hm h⟩
  cases h with
  | skip _ h => exact h
  | _ => simp_all

theorem runs_nop_iff (hm : r.run p = .ok true) (ht : r.target = .nop) :
    xt.Runs p (r :: rules) o ↔ xt.Runs p rules o := by
  refine ⟨fun h => ?_, fun h => .nop hm ht h⟩
  cases h with
  | nop _ _ h => exact h
  | _ => simp_all

theorem runs_call_iff (hm : r.run p = .ok true) (ht : r.target = .call name) (hc : xt.chain name = some c) :
    xt.Runs p (r :: rules) o ↔
      (xt.Runs p c.rules o ∧ o ≠ .fall) ∨ (xt.Runs p c.rules .fall ∧ xt.Runs p rules o) := by
  constructor
  · intro h
    cases h with
    | callEnds _ ht' hc' h hne =>
      cases ht.symm.trans ht'
      cases hc.symm.trans hc'
      exact .inl ⟨h, hne⟩
    | callBack _ ht' hc' h hrest =>
      cases ht.symm.trans ht'
      cases hc.symm.trans hc'
      exact .inr ⟨h, hrest⟩
    | _ => simp_all
  · rintro (⟨h, hne⟩ | ⟨h, hrest⟩)
    · exact .callEnds hm ht hc h hne
    · exact .callBack hm ht hc h hrest

theorem runs_goto_iff (hm : r.run p = .ok true) (ht : r.target = .goto name) (hc : xt.chain name = some c) :
    xt.Runs p (r :: rules) o ↔ xt.Runs p c.rules o := by
  refine ⟨fun h => ?_, fun h => .goto hm ht hc h⟩
  cases h with
  | goto _ ht' hc' h =>
    cases ht.symm.trans ht'
    cases hc.symm.trans hc'
    exact h
  | _ => simp_all

end Inversion

theorem Runs.unique {xt : XTable P} {p : P} {rules : List (Rule P)} {o o' : Outcome} (h : xt.Runs p rules o)
    (h' : xt.Runs p rules o') : o = o' := by
  induction h generalizing o' with
  | nil =>
    cases h'
    rfl
  | skip hm _ ih => exact ih ((runs_skip_iff hm).mp h')
  | nop hm ht _ ih => exact ih ((runs_nop_iff hm ht).mp h')
  | accept hm ht | drop hm ht | reject hm ht | return_ hm ht => cases h' <;> simp_all
  | callEnds hm ht hc _ hne ih =>
    rcases (runs_call_iff hm ht hc).mp h' with ⟨h', -⟩ | ⟨h', -⟩
    · exact ih h'
    · exact absurd (ih h') hne
  | callBack hm ht hc _ _ ihc ih =>
    rcases (runs_call_iff hm ht hc).mp h' with ⟨h', hne⟩ | ⟨-, h'⟩
    · exact absurd (ihc h').symm hne
    · exact ih h'
  | goto hm ht hc _ ih => exact ih ((runs_goto_iff hm ht hc).mp h')

end XTable

/-! ## Tables without cycles run to an end -/

/-- ACCEPT, DROP, REJECT, RETURN, no target, a call or a goto. -/
def Target.plain : Target → Bool
  | .nop | .accept | .drop | .reject | .return_ | .call _ | .goto _ => true
  | .rejectValue | .masquerade | .extension _ => false

namespace XTable

/-- No match errs, every target is plain, and what it names is there. -/
structure Plain (xt : XTable P) (p : P) : Prop where
  matches_ok : ∀ c ∈ xt.chains, ∀ r ∈ c.rules, ∀ m ∈ r.conditions, ∃ v, m.matcher p = .ok v
  target : ∀ c ∈ xt.chains, ∀ r ∈ c.rules, r.target.plain = true
  present : ∀ c ∈ xt.chains, ∀ r ∈ c.rules, ∀ name, r.target = .call name ∨ r.target = .goto name →
    ∃ d, xt.chain name = some d

def Calls (xt : XTable P) (a b : String) : Prop :=
  ∃ c, xt.chain a = some c ∧ ∃ r ∈ c.rules, r.target = .call b ∨ r.target = .goto b

def Acyclic (xt : XTable P) : Prop := ∀ a, ¬ Relation.TransGen xt.Calls a a

theorem mem_of_chain {xt : XTable P} {name : String} {c : IptChain P} (h : xt.chain name = some c) : c ∈ xt.chains :=
  List.mem_of_find?_eq_some h

theorem name_of_chain {xt : XTable P} {name : String} {c : IptChain P} (h : xt.chain name = some c) :
    c.name = name := by
  simpa using List.find?_some h

theorem Calls.mem_names {xt : XTable P} {a b : String} (h : xt.Calls a b) : a ∈ xt.chains.map (·.name) := by
  obtain ⟨c, hc, -⟩ := h
  exact List.mem_map.mpr ⟨c, mem_of_chain hc, name_of_chain hc⟩

theorem acyclic_of_rank {xt : XTable P} (rank : String → ℕ)
    (h : ∀ c ∈ xt.chains, ∀ r ∈ c.rules, ∀ b, r.target = .call b ∨ r.target = .goto b → rank b < rank c.name) :
    xt.Acyclic := by
  have hcall : ∀ {a b}, xt.Calls a b → rank b < rank a := by
    rintro a b ⟨c, hc, r, hr, ht⟩
    rw [← name_of_chain hc]
    exact h c (mem_of_chain hc) r hr b ht
  have hpath : ∀ {a b}, Relation.TransGen xt.Calls a b → rank b < rank a := by
    intro a b hab
    induction hab with
    | single hab => exact hcall hab
    | tail _ hbc ih => exact lt_trans (hcall hbc) ih
  exact fun a hcycle => absurd (hpath hcycle) (lt_irrefl _)

/-- There are finitely many chains, so calls cannot go on for ever. -/
theorem Acyclic.wellFounded {xt : XTable P} (hacyc : xt.Acyclic) : WellFounded fun b a => xt.Calls a b := by
  let Name := { n : String // n ∈ xt.chains.map (·.name) }
  have hfin : Finite Name := (List.finite_toSet (xt.chains.map (·.name))).to_subtype
  let below : Name → Name → Prop := fun b a => Relation.TransGen xt.Calls a.1 b.1
  have : IsTrans Name below := ⟨fun _ _ _ hab hbc => hbc.trans hab⟩
  have : Std.Irrefl below := ⟨fun a h => hacyc a.1 h⟩
  have hwf : WellFounded below := Finite.wellFounded_of_trans_of_irrefl below
  -- a name without a chain calls nothing
  have houtside : ∀ b, b ∉ xt.chains.map (·.name) → Acc (fun b a => xt.Calls a b) b :=
    fun b hb => .intro b fun _ hbc => absurd hbc.mem_names hb
  have hinside : ∀ a : Name, Acc (fun b a => xt.Calls a b) a.1 := by
    intro a
    induction a using hwf.induction with
    | h a ih =>
      refine .intro a.1 fun b hab => ?_
      by_cases hb : b ∈ xt.chains.map (·.name)
      · exact ih ⟨b, hb⟩ (.single hab)
      · exact houtside b hb
  refine ⟨fun a => ?_⟩
  by_cases ha : a ∈ xt.chains.map (·.name)
  · exact hinside ⟨a, ha⟩
  · exact houtside a ha

theorem run_ok {r : Rule P} {p : P} (h : ∀ m ∈ r.conditions, ∃ v, m.matcher p = .ok v) : ∃ v, r.run p = .ok v := by
  unfold Rule.run
  generalize r.conditions = ms at h
  induction ms with
  | nil => exact ⟨true, rfl⟩
  | cons m ms ih =>
    obtain ⟨v, hv⟩ := h m (by simp)
    have hrun : m.run p = .ok (if m.invert then !v else v) := by
      unfold Match.run
      rw [hv]
      rfl
    unfold Rule.run.go
    rw [hrun]
    cases (if m.invert then !v else v) with
    | false => exact ⟨false, rfl⟩
    | true => exact ih fun m' hm' => h m' (by simp [hm'])

section Total

variable {xt : XTable P} {p : P}

theorem rules_run (hplain : xt.Plain p) {c : IptChain P} (hc : c ∈ xt.chains)
    (hcallees : ∀ r ∈ c.rules, ∀ name d, r.target = .call name ∨ r.target = .goto name → xt.chain name = some d →
      ∃ o, xt.Runs p d.rules o) {rules : List (Rule P)} (hrules : ∀ r ∈ rules, r ∈ c.rules) :
    ∃ o, xt.Runs p rules o := by
  induction rules with
  | nil => exact ⟨.fall, .nil⟩
  | cons r rules ih =>
    obtain ⟨o, ho⟩ := ih fun r' hr' => hrules r' (by simp [hr'])
    have hr : r ∈ c.rules := hrules r (by simp)
    obtain ⟨v, hm⟩ := run_ok (hplain.matches_ok c hc r hr)
    cases v with
    | false => exact ⟨o, .skip hm ho⟩
    | true =>
      have hplainr := hplain.target c hc r hr
      cases ht : r.target with
      | nop => exact ⟨o, .nop hm ht ho⟩
      | accept => exact ⟨.accept, .accept hm ht⟩
      | drop => exact ⟨.drop, .drop hm ht⟩
      | reject => exact ⟨.reject, .reject hm ht⟩
      | return_ => exact ⟨.fall, .return_ hm ht⟩
      | call name =>
        obtain ⟨d, hd⟩ := hplain.present c hc r hr name (.inl ht)
        obtain ⟨od, hod⟩ := hcallees r hr name d (.inl ht) hd
        by_cases hfall : od = .fall
        · exact ⟨o, .callBack hm ht hd (hfall ▸ hod) ho⟩
        · exact ⟨od, .callEnds hm ht hd hod hfall⟩
      | goto name =>
        obtain ⟨d, hd⟩ := hplain.present c hc r hr name (.inr ht)
        obtain ⟨od, hod⟩ := hcallees r hr name d (.inr ht) hd
        exact ⟨od, .goto hm ht hd hod⟩
      | rejectValue | masquerade | extension => simp [ht, Target.plain] at hplainr

theorem runs_total (hacyc : xt.Acyclic) (hplain : xt.Plain p) {name : String} {c : IptChain P}
    (hc : xt.chain name = some c) : ∃ o, xt.Runs p c.rules o := by
  induction name using hacyc.wellFounded.induction generalizing c with
  | h name ih =>
    refine rules_run hplain (mem_of_chain hc) ?_ fun _ hr => hr
    intro r hr callee d ht hd
    exact ih callee ⟨c, hc, r, hr, ht⟩ hd

end Total

/-! ## The loop follows the recursion -/

/-- In the run of these rules a call comes back that was not made from the hook's chain;
    `atHook` says whether the rules are the hook chain's own. -/
inductive Resumes (xt : XTable P) (p : P) : Bool → List (Rule P) → Prop
  | here {r rules name c} : r.run p = .ok true → r.target = .call name → xt.chain name = some c →
      xt.Runs p c.rules .fall → Resumes xt p false (r :: rules)
  | skip {atHook r rules} : r.run p = .ok false → Resumes xt p atHook rules → Resumes xt p atHook (r :: rules)
  | nop {atHook r rules} : r.run p = .ok true → r.target = .nop → Resumes xt p atHook rules →
      Resumes xt p atHook (r :: rules)
  | inCall {atHook r rules name c} : r.run p = .ok true → r.target = .call name → xt.chain name = some c →
      Resumes xt p false c.rules → Resumes xt p atHook (r :: rules)
  | afterCall {r rules name c} : r.run p = .ok true → r.target = .call name → xt.chain name = some c →
      xt.Runs p c.rules .fall → Resumes xt p true rules → Resumes xt p true (r :: rules)
  | inGoto {atHook r rules name c} : r.run p = .ok true → r.target = .goto name → xt.chain name = some c →
      Resumes xt p false c.rules → Resumes xt p atHook (r :: rules)

section Simulation

variable (xt : XTable P) (hook : IptChain P) (p : P)

def resume (frame : Frame P) (stack : List (Frame P)) (scan : Scan P) (fuel : Nat) : Option Result :=
  match scan with
  | .stop verdict trace err => some (.done verdict (xt.deferred hook verdict trace (frame :: stack)) err)
  | .panic => some .panic
  | .next stack trace => xt.loop hook p fuel (some frame) stack trace

theorem loop_cons (fuel : Nat) (last : Option (Frame P)) (frame : Frame P) (stack : List (Frame P)) (trace : Trace) :
    xt.loop hook p (fuel + 1) last (frame :: stack) trace =
      xt.resume hook p frame stack (xt.scan hook p stack (frame.chain.rules.drop frame.pos) frame.pos trace) fuel := rfl

/-- A run of the loop comes to what the outcome says: it ends, or goes on with the stack. -/
def Reaches (stack : List (Frame P)) (run : Nat → Option Result) : Outcome → Prop
  | .accept => ∃ trace, Becomes run fun _ => some (.done .accept trace none)
  | .drop => ∃ trace, Becomes run fun _ => some (.done .drop trace none)
  | .reject => ∃ trace e, Becomes run fun _ => some (.done .drop trace (some e))
  | .fall => ∃ frame trace, Becomes run fun fuel => xt.loop hook p fuel frame stack trace

variable {xt hook p}

theorem Reaches.of_becomes {stack : List (Frame P)} {run rest : Nat → Option Result} {o : Outcome}
    (h : Becomes run rest) (hr : xt.Reaches hook p stack rest o) : xt.Reaches hook p stack run o := by
  cases o with
  | accept | drop =>
    obtain ⟨trace, hb⟩ := hr
    exact ⟨trace, h.trans hb⟩
  | reject | fall =>
    obtain ⟨x, y, hb⟩ := hr
    exact ⟨x, y, h.trans hb⟩

theorem Reaches.of_ends {stack stack' : List (Frame P)} {run : Nat → Option Result} {o : Outcome} (ho : o ≠ .fall)
    (hr : xt.Reaches hook p stack run o) : xt.Reaches hook p stack' run o := by
  cases o with
  | accept | drop | reject => exact hr
  | fall => exact absurd rfl ho

theorem becomes_callee (frame : Frame P) (old stack : List (Frame P)) (c : IptChain P) (trace : Trace) :
    Becomes (xt.resume hook p frame old (.next (⟨c, 0⟩ :: stack) trace))
      (xt.resume hook p ⟨c, 0⟩ stack (xt.scan hook p stack c.rules 0 trace)) :=
  .succ fun fuel => loop_cons xt hook p fuel (some frame) ⟨c, 0⟩ stack trace

section Scan

variable {r : Rule P} {rules : List (Rule P)} {name : String} {c : IptChain P} (stack : List (Frame P)) (pos : Nat)
  (trace : Trace)

theorem scan_skip (hm : r.run p = .ok false) :
    xt.scan hook p stack (r :: rules) pos trace = xt.scan hook p stack rules (pos + 1) trace := by
  simp [scan, hm]

theorem scan_nop (hm : r.run p = .ok true) (ht : r.target = .nop) :
    xt.scan hook p stack (r :: rules) pos trace =
      xt.scan hook p stack rules (pos + 1) (trace ++ [xt.line hook r]) := by
  simp [scan, hm, ht]

theorem scan_call (hm : r.run p = .ok true) (ht : r.target = .call name) (hc : xt.chain name = some c) :
    xt.scan hook p stack (r :: rules) pos trace =
      .next (⟨c, 0⟩ :: ⟨hook, pos + 1⟩ :: stack) (trace ++ [xt.line hook r]) := by
  simp [scan, hm, ht, hc]

theorem scan_goto (hm : r.run p = .ok true) (ht : r.target = .goto name) (hc : xt.chain name = some c) :
    xt.scan hook p stack (r :: rules) pos trace = .next (⟨c, 0⟩ :: stack) (trace ++ [xt.line hook r]) := by
  simp [scan, hm, ht, hc]

end Scan

theorem drop_succ_of_drop {rules : List (Rule P)} {r : Rule P} {pos : Nat} (h : hook.rules.drop pos = r :: rules) :
    hook.rules.drop (pos + 1) = rules := by
  rw [← List.tail_drop, h, List.tail_cons]

/-- The loop on top of any stack, by induction on the run of the rules. -/
theorem reaches {rules : List (Rule P)} {o : Outcome} (h : xt.Runs p rules o) :
    ∀ {b : Bool} {i : Nat} {s : List (Frame P)} (frame : Frame P) (trace : Trace),
      (b = true → hook.rules.drop i = rules) → ¬ xt.Resumes p b rules →
        xt.Reaches hook p s (xt.resume hook p frame s (xt.scan hook p s rules i trace)) o := by
  induction h with
  | nil =>
    intro b i s frame trace _ _
    exact ⟨some frame, trace, .refl _⟩
  | skip hm _ ih =>
    intro b i s frame trace hpos hres
    rw [scan_skip s i trace hm]
    exact ih frame trace (fun h => drop_succ_of_drop (hpos h)) fun h => hres (.skip hm h)
  | nop hm ht _ ih =>
    intro b i s frame trace hpos hres
    rw [scan_nop s i trace hm ht]
    exact ih frame _ (fun h => drop_succ_of_drop (hpos h)) fun h => hres (.nop hm ht h)
  | accept hm ht =>
    intro b i s frame trace _ _
    simp only [scan, hm, ht]
    exact ⟨_, .refl _⟩
  | drop hm ht =>
    intro b i s frame trace _ _
    simp only [scan, hm, ht]
    exact ⟨_, .refl _⟩
  | reject hm ht =>
    intro b i s frame trace _ _
    simp only [scan, hm, ht]
    exact ⟨_, _, .refl _⟩
  | return_ hm ht =>
    intro b i s frame trace _ _
    simp only [scan, hm, ht]
    exact ⟨_, _, .refl _⟩
  | @callEnds r _ _ c _ hm ht hc _ hne ih =>
    intro b i s frame trace _ hres
    rw [scan_call s i trace hm ht hc]
    have hcallee := ih (s := ⟨hook, i + 1⟩ :: s) (i := 0) ⟨c, 0⟩ (trace ++ [xt.line hook r])
      (fun h => absurd h Bool.false_ne_true) fun h => hres (.inCall hm ht hc h)
    exact (hcallee.of_ends hne).of_becomes (becomes_callee ..)
  | @callBack r _ _ c _ hm ht hc hfall _ ihc ih =>
    intro b i s frame trace hpos hres
    cases b with
    | false => exact absurd (.here hm ht hc hfall) hres
    | true =>
      rw [scan_call s i trace hm ht hc]
      obtain ⟨last, trace', hback⟩ := ihc (s := ⟨hook, i + 1⟩ :: s) (i := 0) ⟨c, 0⟩ (trace ++ [xt.line hook r])
        (fun h => absurd h Bool.false_ne_true) fun h => hres (.inCall hm ht hc h)
      -- the frame that comes up is the hook's, at the rule after the call
      have hdrop := drop_succ_of_drop (hpos rfl)
      have hrest := ih (s := s) ⟨hook, i + 1⟩ trace' (fun _ => hdrop)
        fun h => hres (.afterCall hm ht hc hfall h)
      rw [← hdrop] at hrest
      exact hrest.of_becomes ((becomes_callee ..).trans (hback.trans (.succ fun fuel => loop_cons ..)))
  | @goto r _ _ c _ hm ht hc _ ih =>
    intro b i s frame trace _ hres
    rw [scan_goto s i trace hm ht hc]
    have hcallee := ih (s := s) (i := 0) ⟨c, 0⟩ (trace ++ [xt.line hook r]) (fun h => absurd h Bool.false_ne_true)
      fun h => hres (.inGoto hm ht hc h)
    exact hcallee.of_becomes (becomes_callee ..)

end Simulation

/-! ## A packet at a hook -/

section Hook

variable {xt : XTable P} {hook : NFHook} {chain : IptChain P} {p : P}

/-- Enough fuel gives one result: the outcome's verdict, with an error at a REJECT only. -/
theorem tracePacket_becomes (hchain : xt.chain hook.string = some chain) {o : Outcome}
    (h : xt.Runs p chain.rules o) (hres : ¬ xt.Resumes p true chain.rules) :
    ∃ trace err, Becomes (fun fuel => xt.tracePacket fuel hook p)
      (fun _ => some (.done (o.verdict chain.policy) trace err)) ∧ (err = none ↔ o ≠ .reject) := by
  have hstart : Becomes (fun fuel => xt.tracePacket fuel hook p)
      (xt.resume chain p ⟨chain, 0⟩ [] (xt.scan chain p [] chain.rules 0 [])) := by
    refine .succ fun fuel => ?_
    unfold tracePacket
    rw [hchain]
    exact loop_cons xt chain p fuel none ⟨chain, 0⟩ [] []
  have hreach := reaches h (i := 0) (s := []) ⟨chain, 0⟩ [] (fun _ => List.drop_zero) hres
  cases o with
  | accept | drop =>
    obtain ⟨trace, hb⟩ := hreach
    exact ⟨trace, none, hstart.trans hb, by simp⟩
  | reject =>
    obtain ⟨trace, e, hb⟩ := hreach
    exact ⟨trace, some e, hstart.trans hb, by simp⟩
  | fall =>
    obtain ⟨frame, trace, hb⟩ := hreach
    exact ⟨_, none, hstart.trans (hb.trans (.succ fun _ => rfl)), by simp⟩

/-- The table has one verdict on the packet, and with enough fuel the trace ends with it and
    without an error. -/
def Correct (xt : XTable P) (hook : NFHook) (chain : IptChain P) (p : P) : Prop :=
  ∃ v, (∀ w, xt.HookVerdict chain p w ↔ w = v) ∧
    ∃ n, ∀ fuel, n ≤ fuel → ∃ trace, xt.tracePacket fuel hook p = some (.done v trace none)

theorem hookVerdict_iff {o : Outcome} (h : xt.Runs p chain.rules o) (w : Verdict) :
    xt.HookVerdict chain p w ↔ w = o.verdict chain.policy := by
  constructor
  · rintro ⟨o', h', rfl⟩
    rw [h.unique h']
  · rintro rfl
    exact ⟨o, h, rfl⟩

/-- In a table without cycles, where no call comes back into a chain other than the hook's:
    the trace is correct exactly if the packet is not rejected. -/
theorem tracePacket_correct_iff (hchain : xt.chain hook.string = some chain) (hacyc : xt.Acyclic)
    (hplain : xt.Plain p) (hres : ¬ xt.Resumes p true chain.rules) :
    xt.Correct hook chain p ↔ ¬ xt.Runs p chain.rules .reject := by
  obtain ⟨o, ho⟩ := runs_total hacyc hplain hchain
  obtain ⟨trace, err, hb, herr⟩ := tracePacket_becomes hchain ho hres
  obtain ⟨n, hn⟩ := hb.eventually
  constructor
  · rintro ⟨v, -, m, hm⟩ hrej
    obtain ⟨trace', hdone⟩ := hm (max m n) (le_max_left m n)
    rw [hn (max m n) (le_max_right m n)] at hdone
    cases hdone
    exact herr.mp rfl (ho.unique hrej)
  · intro hrej
    have hnone : err = none := herr.mpr fun h => hrej (h ▸ ho)
    exact ⟨_, hookVerdict_iff ho, n, fun fuel hle => ⟨trace, hnone ▸ hn fuel hle⟩⟩

end Hook

end XTable

/-! ## Tables without conditions -/

def plainRule (target : Target) (text : String) : Rule Unit := { conditions := [], target := target, text := text }

@[simp] theorem plainRule_run (target : Target) (text : String) : (plainRule target text).run () = .ok true := rfl

@[simp] theorem plainRule_target (target : Target) (text : String) : (plainRule target text).target = target := rfl

@[simp] theorem plainRule_text (target : Target) (text : String) : (plainRule target text).text = text := rfl

def flatInput : IptChain Unit := ⟨"INPUT", .accept, [plainRule (.call "A") "A", plainRule .drop "DROP"]⟩

def emptyA : IptChain Unit := ⟨"A", .accept, []⟩

def flatTable : XTable Unit := ⟨"filter", [flatInput, emptyA]⟩

theorem trace_of_a_call_from_the_hook : flatTable.Correct .input flatInput () := by
  have hchain : flatTable.chain NFHook.input.string = some flatInput := by
    simp [XTable.chain, flatTable, flatInput, NFHook.string]
  have hA : flatTable.chain "A" = some emptyA := by simp [XTable.chain, flatTable, flatInput, emptyA]
  have hacyc : flatTable.Acyclic :=
    XTable.acyclic_of_rank (fun n => if n = "INPUT" then 1 else 0) (by simp [flatTable, flatInput, emptyA])
  have hplain : flatTable.Plain () := by
    refine ⟨?_, ?_, ?_⟩
    · simp [flatTable, flatInput, emptyA, plainRule]
    · simp [flatTable, flatInput, emptyA, Target.plain]
    · simp [XTable.chain, flatTable, flatInput, emptyA]
  have hruns : flatTable.Runs () flatInput.rules .drop := .callBack rfl rfl hA .nil (.drop rfl rfl)
  refine (XTable.tracePacket_correct_iff hchain hacyc hplain ?_).mpr fun h => ?_
  · -- the one call is the hook's own, and there is none in A
    intro h
    cases h with
    | skip hm _ => cases hm
    | nop _ ht _ => cases ht
    | inCall _ ht hc h =>
      cases ht
      cases hA.symm.trans hc
      cases h
    | afterCall _ _ _ _ h =>
      cases h with
      | skip hm _ => cases hm
      | nop _ ht _ | inCall _ ht _ _ | afterCall _ ht _ _ _ | inGoto _ ht _ _ => cases ht
    | inGoto _ ht _ _ => cases ht
  · cases hruns.unique h

-- a REJECT drops, with an error
example : (XTable.mk "filter" [⟨"INPUT", .accept, [plainRule .reject "REJECT"]⟩]).tracePacket 1 .input () =
    some (.done .drop ["filter INPUT REJECT", "filter INPUT REJECT"]
      (some (.rule "REJECT" "unsupported target (*netstack.RejectTarget)&\x7b\x7d"))) := by
  simp [XTable.tracePacket, XTable.loop, XTable.scan, XTable.chain, XTable.line, XTable.deferred, XTable.buildTrace,
    NFHook.string, Target.unsupported]

def nestedInput : IptChain Unit := ⟨"INPUT", .accept, [plainRule (.call "A") "A"]⟩

def nestedA : IptChain Unit := ⟨"A", .accept, [plainRule (.call "B") "B", plainRule .drop "DROP"]⟩

def emptyB : IptChain Unit := ⟨"B", .accept, []⟩

def nestedTable : XTable Unit := ⟨"filter", [nestedInput, nestedA, emptyB]⟩

/-- The packet the table drops is accepted: B comes back to INPUT, not to A. -/
theorem a_nested_call_comes_back_to_the_hook :
    nestedTable.Acyclic ∧ nestedTable.Plain () ∧ nestedTable.HookVerdict nestedInput () .drop ∧
      (∀ fuel, nestedTable.tracePacket (fuel + 6) .input () =
        some (.done .accept ["filter INPUT A", "filter INPUT B"] none)) ∧
      ¬ nestedTable.Correct .input nestedInput () := by
  have hA : nestedTable.chain "A" = some nestedA := by simp [XTable.chain, nestedTable, nestedInput, nestedA]
  have hB : nestedTable.chain "B" = some emptyB := by
    simp [XTable.chain, nestedTable, nestedInput, nestedA, emptyB]
  have hdrop : nestedTable.HookVerdict nestedInput () .drop :=
    ⟨.drop, .callEnds rfl rfl hA (.callBack rfl rfl hB .nil (.drop rfl rfl)) (by decide), rfl⟩
  have htrace : ∀ fuel, nestedTable.tracePacket (fuel + 6) .input () =
      some (.done .accept ["filter INPUT A", "filter INPUT B"] none) := by
    intro fuel
    simp [XTable.tracePacket, XTable.loop, XTable.scan, XTable.chain, XTable.line, XTable.deferred, NFHook.string,
      nestedTable, nestedInput, nestedA, emptyB]
  refine ⟨?_, ?_, hdrop, htrace, ?_⟩
  · refine XTable.acyclic_of_rank (fun n => if n = "INPUT" then 2 else if n = "A" then 1 else 0) ?_
    simp [nestedTable, nestedInput, nestedA, emptyB]
  · refine ⟨?_, ?_, ?_⟩
    · simp [nestedTable, nestedInput, nestedA, emptyB, plainRule]
    · simp [nestedTable, nestedInput, nestedA, emptyB, Target.plain]
    · simp [XTable.chain, nestedTable, nestedInput, nestedA, emptyB]
  · rintro ⟨v, hv, n, hn⟩
    cases (hv .drop).mp hdrop
    obtain ⟨trace, hdone⟩ := hn (n + 6) (Nat.le_add_right n 6)
    rw [htrace n] at hdone
    cases hdone

def roundInput : IptChain Unit :=
  ⟨"INPUT", .accept, [plainRule .nop "1", plainRule .nop "2", plainRule (.call "A") "A"]⟩

def roundA : IptChain Unit := ⟨"A", .accept, [plainRule (.call "B") "B"]⟩

def roundTable : XTable Unit := ⟨"filter", [roundInput, roundA, emptyB]⟩

/-- B comes back to INPUT ahead of the call of A: three frames later A is on the stack again. -/
theorem round_step (fuel : ℕ) (last : Option (XTable.Frame Unit)) (stack : List (XTable.Frame Unit)) (trace : Trace) :
    ∃ last' trace', roundTable.loop roundInput () (fuel + 3) last (⟨roundA, 0⟩ :: stack) trace =
      roundTable.loop roundInput () fuel last' (⟨roundA, 0⟩ :: ⟨roundInput, 3⟩ :: stack) trace' := by
  have hA : roundTable.chain "A" = some roundA := by simp [XTable.chain, roundTable, roundInput, roundA]
  have hB : roundTable.chain "B" = some emptyB := by simp [XTable.chain, roundTable, roundInput, roundA, emptyB]
  refine ⟨some ⟨roundInput, 1⟩, trace ++ ["filter INPUT B"] ++ ["filter INPUT 2"] ++ ["filter INPUT A"], ?_⟩
  rw [XTable.loop_cons]
  show roundTable.resume _ _ _ _ (roundTable.scan _ _ _ [plainRule (.call "B") "B"] 0 trace) _ = _
  rw [XTable.scan_call _ _ _ rfl rfl hB]
  show roundTable.loop roundInput () (fuel + 2) _ _ _ = _
  rw [XTable.loop_cons]
  show roundTable.loop roundInput () (fuel + 1) _ _ _ = _
  rw [XTable.loop_cons]
  show roundTable.resume _ _ _ _ (roundTable.scan _ _ _ [plainRule .nop "2", plainRule (.call "A") "A"] 1 _) _ = _
  rw [XTable.scan_nop _ _ _ rfl rfl, XTable.scan_call _ _ _ rfl rfl hA]
  rfl

theorem a_nested_call_goes_round_for_ever (fuel : ℕ) : roundTable.tracePacket fuel .input () = none := by
  have hround : ∀ fuel last stack trace,
      roundTable.loop roundInput () fuel last (⟨roundA, 0⟩ :: stack) trace = none := by
    intro fuel
    induction fuel using Nat.strong_induction_on with
    | h fuel ih =>
      intro last stack trace
      match fuel with
      | 0 | 1 | 2 => simp [XTable.loop, XTable.scan, XTable.chain, roundTable, roundInput, roundA, emptyB]
      | fuel + 3 =>
        obtain ⟨last', trace', hstep⟩ := round_step fuel last stack trace
        rw [hstep]
        exact ih fuel (by omega) last' _ trace'
  have hchain : roundTable.chain NFHook.input.string = some roundInput := by
    simp [XTable.chain, roundTable, roundInput, NFHook.string]
  have hA : roundTable.chain "A" = some roundA := by simp [XTable.chain, roundTable, roundInput, roundA]
  unfold XTable.tracePacket
  rw [hchain]
  cases fuel with
  | zero => rfl
  | succ fuel =>
    show roundTable.loop roundInput () (fuel + 1) none [⟨roundInput, 0⟩] [] = none
    rw [XTable.loop_cons]
    show roundTable.resume _ _ _ _
      (roundTable.scan _ _ _ [plainRule .nop "1", plainRule .nop "2", plainRule (.call "A") "A"] 0 _) _ = _
    rw [XTable.scan_nop _ _ _ rfl rfl, XTable.scan_nop _ _ _ rfl rfl, XTable.scan_call _ _ _ rfl rfl hA]
    exact hround fuel _ _ _

end EliteTelemetry.Netstack
