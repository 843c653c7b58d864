/-
  EliteTelemetry.Skoop.NetworkPolicy — which NetworkPolicies deny a flow
  (`skoop/plugin/networkpolicy.go`).

  `checkEgress` and `checkIngress` go through the policies and collect each one that selects
  the pod and whose own verdict on the flow is to deny. A verdict is to deny unless one of
  the policy's rules has a port and a peer for the flow (`policyVerdict_allows_iff`).

  In Kubernetes policies add up: a pod that some policy selects is denied what none of the
  policies that select it allows. The checks say so exactly where the policies that select
  the pod agree on the flow (`policies_add_up_iff`); where one denies and another allows, the
  flow is reported as denied.
-/

import EliteTelemetry.Lib.Fallible
import EliteTelemetry.Skoop.Model

namespace EliteTelemetry.Skoop

open EliteTelemetry.Lib.Fallible

/-! ## Policies -/

abbrev Labels := List (String × String)

structure Selector where
  empty : Bool
  matchesLabels : Labels → Bool

structure Pod where
  namespaceName : String
  name : String
  labels : Labels
  deriving DecidableEq, Repr

inductive V1Protocol where
  | tcp
  | udp
  | sctp
  deriving DecidableEq, Repr

def toV1Protocol : Protocol → V1Protocol
  | .tcp => .tcp
  | .udp => .udp
  | .ipv4 => .tcp

/-- `NetworkPolicyPort`. `port` is the number of the port; a named port has number 0. -/
structure PolicyPort where
  protocol : Option V1Protocol
  port : Option Int
  endPort : Option Int
  deriving DecidableEq, Repr

structure IPBlock where
  cidr : String
  except : List String
  deriving DecidableEq, Repr

inductive PolicyType where
  | ingress
  | egress
  deriving DecidableEq, Repr

section Types

variable (S : Type)

structure Peer where
  podSelector : Option S
  namespaceSelector : Option S
  ipBlock : Option IPBlock

structure PolicyRule where
  ports : List PolicyPort
  peers : List (Peer S)

structure Policy where
  namespaceName : String
  name : String
  podSelector : S
  policyTypes : List PolicyType
  egress : List (PolicyRule S)
  ingress : List (PolicyRule S)

structure Lookups where
  asSelector : S → Except String Selector
  strCidrContainsIP : String → String → Except String Bool
  namespaceLabels : String → Except String Labels
  getPodFromIP : String → Except String (Option Pod)

end Types

/-! ## Verdicts -/

def toUInt16 (n : Int) : Nat := (n % 65536).toNat

def portMatches (port : UInt16) (protocol : Protocol) (p : PolicyPort) : Bool :=
  match p.port with
  | none => false
  | some first =>
    let last := p.endPort.getD first
    p.protocol.getD .tcp == toV1Protocol protocol && 0 < first && toUInt16 first ≤ port.toNat && port.toNat ≤ toUInt16 last

def containsPortWithProtocol (port : UInt16) (protocol : Protocol) (ports : List PolicyPort) : Bool :=
  ports.isEmpty || ports.any (portMatches port protocol)

section Verdicts

variable {S : Type} (look : Lookups S) (inClusterAddrEmitCidrRule : Bool)

def blockAllows (ip : String) (inCluster : Bool) : Option IPBlock → Except String Bool
  | none => .ok false
  | some block => do
    if inCluster && inClusterAddrEmitCidrRule then return false
    if ← look.strCidrContainsIP block.cidr ip then
      return !(← block.except.anyM (look.strCidrContainsIP · ip))
    return false

/-- A peer of a rule lets the flow through. `nsOf` is the name that the namespace of a pod is
    looked up by. -/
def peerAllows (nsOf : Pod → String) (policyNamespace : String) (peerPod : Option Pod) (ip : String) (peer : Peer S) :
    Except String Bool :=
  match peerPod, peer.podSelector, peer.namespaceSelector with
  | some pod, some podSelector, _ => do
    -- a pod of another namespace is out of the block's reach too
    if pod.namespaceName ≠ policyNamespace then return false
    let selector ← look.asSelector podSelector
    if selector.empty || selector.matchesLabels pod.labels then return true
    blockAllows look inClusterAddrEmitCidrRule ip true peer.ipBlock
  | some pod, none, some namespaceSelector => do
    let selector ← look.asSelector namespaceSelector
    if selector.empty then return true
    if selector.matchesLabels (← look.namespaceLabels (nsOf pod)) then return true
    blockAllows look inClusterAddrEmitCidrRule ip true peer.ipBlock
  | some _, none, none => blockAllows look inClusterAddrEmitCidrRule ip true peer.ipBlock
  | none, _, _ => blockAllows look inClusterAddrEmitCidrRule ip false peer.ipBlock

/-- A rule lets the flow through: its ports and one of its peers do. A rule without peers
    lets nothing through. -/
def ruleAllows (nsOf : Pod → String) (policyNamespace : String) (peerPod : Option Pod) (peer : Endpoint)
    (protocol : Protocol) (rule : PolicyRule S) : Except String Bool :=
  if containsPortWithProtocol peer.port protocol rule.ports then
    rule.peers.anyM (peerAllows look inClusterAddrEmitCidrRule nsOf policyNamespace peerPod peer.ip)
  else .ok false

def hasPolicyType (policy : Policy S) (pt : PolicyType) : Bool := policy.policyTypes.any (· == pt)

def policyVerdict (pt : PolicyType) (nsOf : Pod → String) (rules : Policy S → List (PolicyRule S)) (policy : Policy S)
    (peerPod : Option Pod) (peer : Endpoint) (protocol : Protocol) : Except String Bool := do
  if !hasPolicyType policy pt then return false
  return !(← (rules policy).anyM
    (ruleAllows look inClusterAddrEmitCidrRule nsOf policy.namespaceName peerPod peer protocol))

def checkEgressPolicyVerdict : Policy S → Option Pod → Endpoint → Protocol → Except String Bool :=
  policyVerdict look inClusterAddrEmitCidrRule .egress (·.namespaceName) (·.egress)

/-- The namespace of the source is looked up by the name of the pod, and the port that is
    compared with the policy's is the port of the source. -/
def checkIngressPolicyVerdict : Policy S → Option Pod → Endpoint → Protocol → Except String Bool :=
  policyVerdict look inClusterAddrEmitCidrRule .ingress (·.name) (·.ingress)

def policyMatchPod (policy : Policy S) (pod : Pod) : Except String Bool := do
  if policy.namespaceName ≠ pod.namespaceName then return false
  let selector ← look.asSelector policy.podSelector
  return selector.empty || selector.matchesLabels pod.labels

/-! ## The checks -/

def checkPolicies (podOf : Except String (Option Pod)) (verdict : Policy S → Option Pod → Except String Bool)
    (pod : Pod) : List (Policy S) → Except String (List (Policy S))
  | [] => .ok []
  | policy :: rest => do
    if ← policyMatchPod look policy pod then
      let peerPod ← podOf
      let deny ← verdict policy peerPod
      let denies ← checkPolicies podOf verdict pod rest
      return if deny then policy :: denies else denies
    checkPolicies podOf verdict pod rest

def checkEgress (policies : List (Policy S)) (pod : Pod) (dst : Endpoint) (protocol : Protocol) :
    Except String (List (Policy S)) :=
  checkPolicies look (look.getPodFromIP dst.ip)
    (fun policy dstPod => checkEgressPolicyVerdict look inClusterAddrEmitCidrRule policy dstPod dst protocol) pod policies

/-- The source's pod, whose lookup fails under a text of its own. -/
def srcPodOrNil (src : Endpoint) : Except String (Option Pod) :=
  (look.getPodFromIP src.ip).mapError fun err => "error get src pod(" ++ src.ip ++ ") from ip cache: " ++ err

def checkIngress (policies : List (Policy S)) (pod : Pod) (src : Endpoint) (protocol : Protocol) :
    Except String (List (Policy S)) :=
  checkPolicies look (srcPodOrNil look src)
    (fun policy srcPod => checkIngressPolicyVerdict look inClusterAddrEmitCidrRule policy srcPod src protocol) pod policies

/-! ## What a verdict means -/

def RuleLets (nsOf : Pod → String) (policyNamespace : String) (peerPod : Option Pod) (peer : Endpoint)
    (protocol : Protocol) (rule : PolicyRule S) : Prop :=
  containsPortWithProtocol peer.port protocol rule.ports = true ∧ ∃ x ∈ rule.peers,
    peerAllows look inClusterAddrEmitCidrRule nsOf policyNamespace peerPod peer.ip x = .ok true

theorem ruleAllows_ok {nsOf : Pod → String} {policyNamespace : String} {peerPod : Option Pod} {peer : Endpoint}
    {protocol : Protocol} {rule : PolicyRule S} {b : Bool}
    (h : ruleAllows look inClusterAddrEmitCidrRule nsOf policyNamespace peerPod peer protocol rule = .ok b) :
    b = true ↔ RuleLets look inClusterAddrEmitCidrRule nsOf policyNamespace peerPod peer protocol rule := by
  unfold ruleAllows at h
  unfold RuleLets
  by_cases hport : containsPortWithProtocol peer.port protocol rule.ports = true
  · rw [if_pos hport] at h
    refine (anyM_iff (fun x _ b hx => ?_) h).trans (and_iff_right hport).symm
    rw [hx, Except.ok.injEq]
  · rw [if_neg hport] at h
    obtain rfl := Except.ok.inj h
    simp [hport]

/-- A policy of the type allows a flow that one of its rules has a port and a peer for, and
    denies any other. -/
theorem policyVerdict_allows_iff {pt : PolicyType} {nsOf : Pod → String} {rules : Policy S → List (PolicyRule S)}
    {policy : Policy S} {peerPod : Option Pod} {peer : Endpoint} {protocol : Protocol} {deny : Bool}
    (htype : hasPolicyType policy pt = true)
    (h : policyVerdict look inClusterAddrEmitCidrRule pt nsOf rules policy peerPod peer protocol = .ok deny) :
    deny = false ↔ ∃ rule ∈ rules policy,
      RuleLets look inClusterAddrEmitCidrRule nsOf policy.namespaceName peerPod peer protocol rule := by
  unfold policyVerdict at h
  rw [htype] at h
  obtain ⟨b, hscan, hb⟩ := bind_ok h
  obtain rfl : (!b) = deny := Except.ok.inj hb
  rw [← anyM_iff (fun rule _ b => ruleAllows_ok look inClusterAddrEmitCidrRule) hscan]
  simp

theorem policyVerdict_type {pt : PolicyType} {nsOf : Pod → String} {rules : Policy S → List (PolicyRule S)}
    {policy : Policy S} {peerPod : Option Pod} {peer : Endpoint} {protocol : Protocol}
    (h : policyVerdict look inClusterAddrEmitCidrRule pt nsOf rules policy peerPod peer protocol = .ok true) :
    hasPolicyType policy pt = true := by
  by_contra htype
  unfold policyVerdict at h
  rw [Bool.not_eq_true] at htype
  rw [htype] at h
  exact absurd h (by simp [pure, Except.pure])

-- a policy for sources from the namespaces of a team: a pod from there is looked up under its own name
example :
    let look : Lookups Labels :=
      { asSelector := fun wanted => .ok { empty := false, matchesLabels := (· == wanted) }
        strCidrContainsIP := fun _ _ => .ok false
        namespaceLabels := fun name => if name = "shop" then .ok [("team", "a")] else .error "not found"
        getPodFromIP := fun _ => .ok none }
    let policy : Policy Labels :=
      { namespaceName := "default", name := "from-team", podSelector := [], policyTypes := [.ingress], egress := []
        ingress := [{ ports := [], peers := [⟨none, some [("team", "a")], none⟩] }] }
    let src : Endpoint := { ip := "10.1.2.3", port := 443 }
    checkIngressPolicyVerdict look false policy (some ⟨"shop", "cart-0", []⟩) src .tcp = .error "not found" ∧
      checkIngressPolicyVerdict look false policy (some ⟨"shop", "shop", []⟩) src .tcp = .ok false :=
  ⟨rfl, rfl⟩

/-! ## What a check means -/

section Checks

variable (podOf : Except String (Option Pod)) (verdict : Policy S → Option Pod → Except String Bool) (pod : Pod)

/-- The policy selects the pod, and the verdict on the peer that is looked up is `deny`. -/
def Rules (deny : Bool) (policy : Policy S) : Prop :=
  policyMatchPod look policy pod = .ok true ∧ ∃ peerPod, podOf = .ok peerPod ∧ verdict policy peerPod = .ok deny

structure NoLookupFails (policies : List (Policy S)) : Prop where
  selects : ∀ policy ∈ policies, ∃ b, policyMatchPod look policy pod = .ok b
  rules : ∀ policy ∈ policies, policyMatchPod look policy pod = .ok true →
    ∃ deny, Rules look podOf verdict pod deny policy

theorem Rules.unique {deny deny' : Bool} {policy : Policy S} (h : Rules look podOf verdict pod deny policy)
    (h' : Rules look podOf verdict pod deny' policy) : deny = deny' := by
  obtain ⟨-, peerPod, hpeer, hverdict⟩ := h
  obtain ⟨-, peerPod', hpeer', hverdict'⟩ := h'
  rw [hpeer] at hpeer'
  obtain rfl := Except.ok.inj hpeer'
  rw [hverdict] at hverdict'
  exact Except.ok.inj hverdict'

/-- A policy that selects the pod and denies is put in front of those the check collects after
    it; another leaves them as they are. -/
theorem checkPolicies_cons {first : Policy S} {rest denies : List (Policy S)}
    (h : NoLookupFails look podOf verdict pod (first :: rest))
    (hrest : checkPolicies look podOf verdict pod rest = .ok denies) :
    checkPolicies look podOf verdict pod (first :: rest) = .ok (first :: denies) ∧
        Rules look podOf verdict pod true first ∨
      checkPolicies look podOf verdict pod (first :: rest) = .ok denies ∧
        ¬Rules look podOf verdict pod true first := by
  obtain ⟨b, hb⟩ := h.selects first (by simp)
  cases b with
  | false =>
    refine .inr ⟨?_, fun hr => ?_⟩
    · rw [checkPolicies, hb]
      exact hrest
    · rw [Rules, hb] at hr
      exact absurd hr.1 (by simp)
  | true =>
    obtain ⟨deny, hr⟩ := h.rules first (by simp) hb
    have hrun : checkPolicies look podOf verdict pod (first :: rest) =
        .ok (if deny then first :: denies else denies) := by
      obtain ⟨-, peerPod, hpeer, hverdict⟩ := hr
      rw [checkPolicies, hb, hpeer]
      show (verdict first peerPod >>= fun deny => checkPolicies look (.ok peerPod) verdict pod rest >>= fun denies =>
        pure (if deny then first :: denies else denies)) = _
      rw [hverdict, ← hpeer, hrest]
      rfl
    cases deny with
    | true => exact .inl ⟨hrun, hr⟩
    | false => exact .inr ⟨hrun, fun hr' => absurd (Rules.unique look podOf verdict pod hr hr') (by simp)⟩

theorem noLookupFails_of_ok {policies denies : List (Policy S)}
    (h : checkPolicies look podOf verdict pod policies = .ok denies) : NoLookupFails look podOf verdict pod policies := by
  induction policies generalizing denies with
  | nil => exact ⟨by simp, by simp⟩
  | cons first rest ih =>
    obtain ⟨b, hb, hrun⟩ := bind_ok h
    cases b with
    | false =>
      have hrest := ih hrun
      refine ⟨List.forall_mem_cons.mpr ⟨⟨false, hb⟩, hrest.selects⟩, List.forall_mem_cons.mpr ⟨fun hsel => ?_, hrest.rules⟩⟩
      exact absurd (hb.symm.trans hsel) (by simp)
    | true =>
      obtain ⟨peerPod, hpeer, hrun⟩ := bind_ok hrun
      obtain ⟨deny, hverdict, hrun⟩ := bind_ok hrun
      obtain ⟨denies', hcheck, -⟩ := bind_ok hrun
      have hrest := ih hcheck
      exact ⟨List.forall_mem_cons.mpr ⟨⟨true, hb⟩, hrest.selects⟩,
        List.forall_mem_cons.mpr ⟨fun _ => ⟨deny, hb, peerPod, hpeer, hverdict⟩, hrest.rules⟩⟩

open Classical in
/-- The check collects the policies that select the pod and deny, in their order. -/
theorem checkPolicies_eq_filter {policies : List (Policy S)} (h : NoLookupFails look podOf verdict pod policies) :
    checkPolicies look podOf verdict pod policies =
      .ok (policies.filter fun policy => Rules look podOf verdict pod true policy) := by
  induction policies with
  | nil => rfl
  | cons first rest ih =>
    have hrest := ih ⟨fun policy hp => h.selects policy (by simp [hp]), fun policy hp => h.rules policy (by simp [hp])⟩
    rcases checkPolicies_cons look podOf verdict pod h hrest with ⟨hcheck, hr⟩ | ⟨hcheck, hr⟩
    · rw [hcheck, List.filter_cons_of_pos (by simpa using hr)]
    · rw [hcheck, List.filter_cons_of_neg (by simpa using hr)]

theorem checkPolicies_ok {policies : List (Policy S)} (h : NoLookupFails look podOf verdict pod policies) :
    ∃ denies, checkPolicies look podOf verdict pod policies = .ok denies ∧
      ∀ policy, policy ∈ denies ↔ policy ∈ policies ∧ Rules look podOf verdict pod true policy :=
  ⟨_, checkPolicies_eq_filter look podOf verdict pod h, by simp⟩

def Selects (pt : PolicyType) (policy : Policy S) : Prop :=
  hasPolicyType policy pt = true ∧ policyMatchPod look policy pod = .ok true

/-- Policies add up: `result` holds a policy exactly if one of the type selects the pod and
    none of those allows the flow. -/
def AddUp (result : Except String (List (Policy S))) (pt : PolicyType) (policies : List (Policy S)) : Prop :=
  ∃ denies, result = .ok denies ∧
    (denies ≠ [] ↔ (∃ policy ∈ policies, Selects look pod pt policy) ∧
      ∀ policy ∈ policies, Selects look pod pt policy → ¬Rules look podOf verdict pod false policy)

/-- The policies of the type that select the pod agree on the flow. -/
def Agree (lets : Policy S → Prop) (pt : PolicyType) (policies : List (Policy S)) : Prop :=
  ∀ p ∈ policies, ∀ q ∈ policies, Selects look pod pt p → Selects look pod pt q → (lets p ↔ lets q)

section Lets

variable {pt : PolicyType} {lets : Policy S → Prop} {policies : List (Policy S)}
  (hlets : ∀ policy deny, Selects look pod pt policy → Rules look podOf verdict pod deny policy →
    (deny = false ↔ lets policy))
  (h : NoLookupFails look podOf verdict pod policies)

include hlets h

theorem rules_false_iff {p : Policy S} (hp : p ∈ policies) (hsel : Selects look pod pt p) :
    Rules look podOf verdict pod false p ↔ lets p := by
  refine ⟨fun hr => (hlets p false hsel hr).mp rfl, fun hl => ?_⟩
  obtain ⟨deny, hr⟩ := h.rules p hp hsel.2
  exact (hlets p deny hsel hr).mpr hl ▸ hr

theorem rules_true_iff {p : Policy S} (hp : p ∈ policies) (hsel : Selects look pod pt p) :
    Rules look podOf verdict pod true p ↔ ¬lets p := by
  refine ⟨fun hr hl => absurd ((hlets p true hsel hr).mpr hl) (by simp), fun hl => ?_⟩
  obtain ⟨deny, hr⟩ := h.rules p hp hsel.2
  cases deny with
  | true => exact hr
  | false => exact absurd ((hlets p false hsel hr).mp rfl) hl

theorem rules_true_iff_selects
    (htype : ∀ policy, Rules look podOf verdict pod true policy → hasPolicyType policy pt = true) {p : Policy S}
    (hp : p ∈ policies) : Rules look podOf verdict pod true p ↔ Selects look pod pt p ∧ ¬lets p := by
  constructor
  · intro hr
    have hsel : Selects look pod pt p := ⟨htype p hr, hr.1⟩
    exact ⟨hsel, (rules_true_iff look podOf verdict pod hlets h hp hsel).mp hr⟩
  · intro ⟨hsel, hl⟩
    exact (rules_true_iff look podOf verdict pod hlets h hp hsel).mpr hl

/-- One of the policies that select the pod denies exactly if all of them do: they agree. -/
theorem addUp_checkPolicies_iff
    (htype : ∀ policy, Rules look podOf verdict pod true policy → hasPolicyType policy pt = true) :
    AddUp look podOf verdict pod (checkPolicies look podOf verdict pod policies) pt policies ↔
      Agree look pod lets pt policies := by
  obtain ⟨denies, hcheck, hmem⟩ := checkPolicies_ok look podOf verdict pod h
  have hdenies : denies ≠ [] ↔ ∃ p ∈ policies, Selects look pod pt p ∧ ¬lets p := by
    rw [ne_eq, List.eq_nil_iff_forall_not_mem, not_forall_not]
    refine exists_congr fun p => (hmem p).trans (and_congr_right fun hp => ?_)
    exact rules_true_iff_selects look podOf verdict pod hlets h htype hp
  have hnone : (∀ p ∈ policies, Selects look pod pt p → ¬Rules look podOf verdict pod false p) ↔
      ∀ p ∈ policies, Selects look pod pt p → ¬lets p :=
    forall₃_congr fun p hp hsel => not_congr (rules_false_iff look podOf verdict pod hlets h hp hsel)
  have haddUp : AddUp look podOf verdict pod (checkPolicies look podOf verdict pod policies) pt policies ↔
      ((∃ p ∈ policies, Selects look pod pt p ∧ ¬lets p) ↔
        (∃ p ∈ policies, Selects look pod pt p) ∧ ∀ p ∈ policies, Selects look pod pt p → ¬lets p) := by
    unfold AddUp
    rw [hcheck, ← hdenies, hnone]
    simp
  rw [haddUp]
  constructor
  · intro hiff p hp q hq hpsel hqsel
    have hspread : ∀ {p q}, p ∈ policies → q ∈ policies → Selects look pod pt p → Selects look pod pt q →
        lets p → lets q := by
      intro p q hp hq hpsel hqsel hpl
      by_contra hql
      exact (hiff.mp ⟨q, hq, hqsel, hql⟩).2 p hp hpsel hpl
    exact ⟨hspread hp hq hpsel hqsel, hspread hq hp hqsel hpsel⟩
  · intro hagree
    constructor
    · intro ⟨p, hp, hpsel, hpl⟩
      exact ⟨⟨p, hp, hpsel⟩, fun q hq hqsel hql => hpl ((hagree p hp q hq hpsel hqsel).mpr hql)⟩
    · intro ⟨⟨p, hp, hpsel⟩, hall⟩
      exact ⟨p, hp, hpsel, hall p hp hpsel⟩

end Lets

end Checks

/-- The peer's pod is looked up, and one of the policy's rules has a port and a peer for it. -/
def PolicyLets (nsOf : Pod → String) (rules : Policy S → List (PolicyRule S)) (peer : Endpoint) (protocol : Protocol)
    (policy : Policy S) : Prop :=
  ∃ peerPod, look.getPodFromIP peer.ip = .ok peerPod ∧ ∃ rule ∈ rules policy,
    RuleLets look inClusterAddrEmitCidrRule nsOf policy.namespaceName peerPod peer protocol rule

section PolicyVerdict

variable {pt : PolicyType} {nsOf : Pod → String} {rules : Policy S → List (PolicyRule S)}
  {podOf : Except String (Option Pod)} {peer : Endpoint} {protocol : Protocol} {pod : Pod} {policies : List (Policy S)}
  (hpod : ∀ peerPod, podOf = .ok peerPod ↔ look.getPodFromIP peer.ip = .ok peerPod)

include hpod

/-- A verdict of a policy of the type that selects the pod says whether the policy lets the flow through. -/
theorem rules_policyVerdict_iff {policy : Policy S} {deny : Bool} (hsel : Selects look pod pt policy)
    (h : Rules look podOf
      (fun policy peerPod => policyVerdict look inClusterAddrEmitCidrRule pt nsOf rules policy peerPod peer protocol)
      pod deny policy) :
    deny = false ↔ PolicyLets look inClusterAddrEmitCidrRule nsOf rules peer protocol policy := by
  obtain ⟨-, peerPod, hpeer, hverdict⟩ := h
  rw [policyVerdict_allows_iff look inClusterAddrEmitCidrRule hsel.1 hverdict]
  constructor
  · exact fun hrule => ⟨peerPod, (hpod peerPod).mp hpeer, hrule⟩
  · intro ⟨peerPod', hpeer', hrule⟩
    obtain rfl := Except.ok.inj (hpeer.symm.trans ((hpod peerPod').mpr hpeer'))
    exact hrule

open Classical in
theorem checkPolicies_policyVerdict {denies : List (Policy S)}
    (h : checkPolicies look podOf
      (fun policy peerPod => policyVerdict look inClusterAddrEmitCidrRule pt nsOf rules policy peerPod peer protocol)
      pod policies = .ok denies) :
    denies = policies.filter fun policy =>
      Selects look pod pt policy ∧ ¬PolicyLets look inClusterAddrEmitCidrRule nsOf rules peer protocol policy := by
  have hlookups := noLookupFails_of_ok look podOf _ pod h
  obtain rfl := Except.ok.inj (h.symm.trans (checkPolicies_eq_filter look podOf _ pod hlookups))
  refine List.filter_congr fun policy hp => decide_eq_decide.mpr ?_
  refine rules_true_iff_selects look podOf _ pod (fun _ _ => rules_policyVerdict_iff look inClusterAddrEmitCidrRule hpod)
    hlookups (fun policy hr => ?_) hp
  obtain ⟨-, peerPod, -, hverdict⟩ := hr
  exact policyVerdict_type look inClusterAddrEmitCidrRule hverdict

theorem addUp_policyVerdict_iff
    (h : NoLookupFails look podOf
      (fun policy peerPod => policyVerdict look inClusterAddrEmitCidrRule pt nsOf rules policy peerPod peer protocol)
      pod policies) :
    AddUp look podOf
        (fun policy peerPod => policyVerdict look inClusterAddrEmitCidrRule pt nsOf rules policy peerPod peer protocol)
        pod
        (checkPolicies look podOf
          (fun policy peerPod =>
            policyVerdict look inClusterAddrEmitCidrRule pt nsOf rules policy peerPod peer protocol) pod policies)
        pt policies ↔
      Agree look pod (PolicyLets look inClusterAddrEmitCidrRule nsOf rules peer protocol) pt policies := by
  refine addUp_checkPolicies_iff look podOf _ pod (fun _ _ => rules_policyVerdict_iff look inClusterAddrEmitCidrRule hpod)
    h fun policy hr => ?_
  obtain ⟨-, peerPod, -, hverdict⟩ := hr
  exact policyVerdict_type look inClusterAddrEmitCidrRule hverdict

end PolicyVerdict

theorem srcPodOrNil_ok (src : Endpoint) (srcPod : Option Pod) :
    srcPodOrNil look src = .ok srcPod ↔ look.getPodFromIP src.ip = .ok srcPod := by
  unfold srcPodOrNil
  cases look.getPodFromIP src.ip with
  | error err => simp [Except.mapError]
  | ok pod => rfl

/-- Where no lookup fails, policies add up for a flow exactly if those of the type that select
    the pod agree on it. -/
theorem policies_add_up_iff (policies : List (Policy S)) (pod : Pod) (peer : Endpoint) (protocol : Protocol) :
    (NoLookupFails look (look.getPodFromIP peer.ip)
        (fun policy dstPod => checkEgressPolicyVerdict look inClusterAddrEmitCidrRule policy dstPod peer protocol)
        pod policies →
      (AddUp look (look.getPodFromIP peer.ip)
          (fun policy dstPod => checkEgressPolicyVerdict look inClusterAddrEmitCidrRule policy dstPod peer protocol)
          pod (checkEgress look inClusterAddrEmitCidrRule policies pod peer protocol) .egress policies ↔
        Agree look pod
          (PolicyLets look inClusterAddrEmitCidrRule (·.namespaceName) (·.egress) peer protocol) .egress policies)) ∧
    (NoLookupFails look (srcPodOrNil look peer)
        (fun policy srcPod => checkIngressPolicyVerdict look inClusterAddrEmitCidrRule policy srcPod peer protocol)
        pod policies →
      (AddUp look (srcPodOrNil look peer)
          (fun policy srcPod => checkIngressPolicyVerdict look inClusterAddrEmitCidrRule policy srcPod peer protocol)
          pod (checkIngress look inClusterAddrEmitCidrRule policies pod peer protocol) .ingress policies ↔
        Agree look pod
          (PolicyLets look inClusterAddrEmitCidrRule (·.name) (·.ingress) peer protocol) .ingress policies)) :=
  ⟨addUp_policyVerdict_iff look inClusterAddrEmitCidrRule fun _ => Iff.rfl,
    addUp_policyVerdict_iff look inClusterAddrEmitCidrRule (srcPodOrNil_ok look peer)⟩

end Verdicts

/-! ## Two policies for one pod -/

def outside : Lookups Labels where
  asSelector wanted := .ok { empty := wanted.isEmpty, matchesLabels := fun labels => wanted.all (labels.contains ·) }
  strCidrContainsIP cidr ip := .ok (cidr == "10.0.0.0/8" && ip == "10.1.2.3")
  namespaceLabels _ := .ok []
  getPodFromIP _ := .ok none

def web : Pod := { namespaceName := "default", name := "web-0", labels := [("app", "web")] }

def denyAll : Policy Labels :=
  { namespaceName := "default", name := "deny-all", podSelector := [], policyTypes := [.egress], egress := [],
    ingress := [] }

def toBlock : Peer Labels :=
  { podSelector := none, namespaceSelector := none, ipBlock := some { cidr := "10.0.0.0/8", except := [] } }

def allowBlock : Policy Labels :=
  { namespaceName := "default", name := "allow-block", podSelector := [("app", "web")], policyTypes := [.egress],
    egress := [{ ports := [], peers := [toBlock] }], ingress := [] }

def allowAllBlock : Policy Labels := { allowBlock with name := "allow-all-block", podSelector := [] }

def inBlock : Endpoint := { ip := "10.1.2.3", port := 443 }

theorem outside_noLookupFails (policies : List (Policy Labels))
    (h : ∀ p ∈ policies, p = denyAll ∨ p = allowBlock ∨ p = allowAllBlock) :
    NoLookupFails outside (outside.getPodFromIP inBlock.ip)
      (fun policy dstPod => checkEgressPolicyVerdict outside false policy dstPod inBlock .tcp) web policies := by
  constructor
  · intro p hp
    rcases h p hp with rfl | rfl | rfl <;> exact ⟨true, by rfl⟩
  · intro p hp hsel
    rcases h p hp with rfl | rfl | rfl
    · exact ⟨true, hsel, none, rfl, by rfl⟩
    · exact ⟨false, hsel, none, rfl, by rfl⟩
    · exact ⟨false, hsel, none, rfl, by rfl⟩

/-- Two policies select the pod and allow it the block. -/
theorem policies_add_up_two :
    AddUp outside (outside.getPodFromIP inBlock.ip)
      (fun policy dstPod => checkEgressPolicyVerdict outside false policy dstPod inBlock .tcp) web
      (checkEgress outside false [allowBlock, allowAllBlock] web inBlock .tcp) .egress [allowBlock, allowAllBlock] := by
  refine ((policies_add_up_iff outside false [allowBlock, allowAllBlock] web inBlock .tcp).1
    (outside_noLookupFails _ (by simp))).mpr ?_
  intro p hp q hq _ _
  have hrules : ∀ policy ∈ [allowBlock, allowAllBlock],
      PolicyLets outside false (·.namespaceName) (·.egress) inBlock .tcp policy ↔
        PolicyLets outside false (·.namespaceName) (·.egress) inBlock .tcp allowBlock := by
    intro policy hpolicy
    rcases List.mem_pair.mp hpolicy with rfl | rfl <;> exact Iff.rfl
  exact (hrules p hp).trans (hrules q hq).symm

/-- The pod may reach the block, for the second policy allows it; the first is reported to
    deny it. -/
theorem an_allowed_flow_is_reported_as_denied :
    NoLookupFails outside (outside.getPodFromIP inBlock.ip)
      (fun policy dstPod => checkEgressPolicyVerdict outside false policy dstPod inBlock .tcp) web
      [denyAll, allowBlock] ∧
    Selects outside web .egress denyAll ∧ Selects outside web .egress allowBlock ∧
    checkEgressPolicyVerdict outside false allowBlock none inBlock .tcp = .ok false ∧
    checkEgress outside false [denyAll, allowBlock] web inBlock .tcp = .ok [denyAll] ∧
    ¬AddUp outside (outside.getPodFromIP inBlock.ip)
      (fun policy dstPod => checkEgressPolicyVerdict outside false policy dstPod inBlock .tcp) web
      (checkEgress outside false [denyAll, allowBlock] web inBlock .tcp) .egress [denyAll, allowBlock] := by
  have hcheck : checkEgress outside false [denyAll, allowBlock] web inBlock .tcp = .ok [denyAll] := by rfl
  have hsel : Selects outside web .egress allowBlock := ⟨by rfl, by rfl⟩
  have hallows : checkEgressPolicyVerdict outside false allowBlock none inBlock .tcp = .ok false := by rfl
  refine ⟨outside_noLookupFails _ (by simp), ⟨by rfl, by rfl⟩, hsel, hallows, hcheck, fun haddUp => ?_⟩
  obtain ⟨denies, hdenies, hiff⟩ := haddUp
  rw [hcheck] at hdenies
  obtain rfl := Except.ok.inj hdenies
  exact (hiff.mp (by simp)).2 allowBlock (by simp) hsel ⟨hsel.2, none, rfl, hallows⟩

end EliteTelemetry.Skoop
