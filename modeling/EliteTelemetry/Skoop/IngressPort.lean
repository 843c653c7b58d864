/-
  EliteTelemetry.Skoop.IngressPort — the port that ingress policies are compared with
  (`checkIngress` and `checkIngressPolicyVerdict` of `skoop/plugin/networkpolicy.go`).

  The ports of an ingress rule are ports of the pod. `checkIngress` is given the source only,
  and so the verdicts compare them with the port of the source.

  Checks of a flow to a pod report the same ingress policies from every source port exactly if
  each of these has a rule for the source that lists no ports, or has no entry with a number for
  the protocol in a rule for the source; and a policy whose rules are all for other ports than
  the pod's is reported from every source port exactly if the latter holds of it
  (`ingress_port_iff`).
-/

import EliteTelemetry.Skoop.PodPeers
import EliteTelemetry.Skoop.PolicyCheck

namespace EliteTelemetry.Skoop

open EliteTelemetry.Lib.Cidr
open EliteTelemetry.Lib.Fallible
open EliteTelemetry.Lib.Recursion

def TypedEndpoint.withPort (e : TypedEndpoint) (port : UInt16) : TypedEndpoint := ⟨⟨e.ip, port⟩, e.type⟩

/-! ## Whom a rule is for, as the verdicts read it -/

section Admits

variable {S : Type}

/-- The texts of the entry can be read, and the namespace is found that is looked up for the pod. -/
structure Peer.Reads (look : Lookups S) (nsOf : Pod → String) (peerPod : Option Pod) (x : Peer S) : Prop where
  podSelector : ∀ s, x.podSelector = some s → ∃ sel, look.asSelector s = .ok sel
  namespaceSelector : ∀ s, x.namespaceSelector = some s → ∃ sel, look.asSelector s = .ok sel
  found : ∀ pod, peerPod = some pod → x.namespaceSelector ≠ none →
    ∃ labels, look.namespaceLabels (nsOf pod) = .ok labels
  block : ∀ block, x.ipBlock = some block → block.Readable

variable (look : Lookups S) (inClusterAddrEmitCidrRule : Bool) (nsOf : Pod → String) (policyNamespace ip : String)

/-- The entry is for the peer: for one that is no pod by its block; for a pod by its selectors or, if it
    is not turned away for its namespace, by its block. -/
def Peer.Admits (peerPod : Option Pod) (x : Peer S) : Prop :=
  match peerPod with
  | none => x.Matches ip
  | some pod => x.SelectorsLet look nsOf policyNamespace pod ∨
      (x.podSelector = none ∨ pod.namespaceName = policyNamespace) ∧ inClusterAddrEmitCidrRule = false ∧ x.Matches ip

def PolicyRule.Admits (peerPod : Option Pod) (rule : PolicyRule S) : Prop :=
  ∃ x ∈ rule.peers, x.Admits look inClusterAddrEmitCidrRule nsOf policyNamespace ip peerPod

variable {look inClusterAddrEmitCidrRule nsOf policyNamespace ip} {peerPod : Option Pod} {x : Peer S}
  (hlook : look.strCidrContainsIP = strCidrContainsIP)

include hlook

theorem peerAllows_ok (h : x.Reads look nsOf peerPod) :
    ∃ b, peerAllows look inClusterAddrEmitCidrRule nsOf policyNamespace peerPod ip x = .ok b := by
  have hblock : ∀ inCluster, ∃ b, blockAllows look inClusterAddrEmitCidrRule ip inCluster x.ipBlock = .ok b :=
    fun _ => blockAllows_readable hlook h.block
  unfold peerAllows
  cases peerPod with
  | none => exact hblock false
  | some pod =>
    obtain ⟨b, hb⟩ := hblock true
    cases hp : x.podSelector with
    | some s =>
      obtain ⟨sel, hsel⟩ := h.podSelector s hp
      simp only [hsel, hb, bind, Except.bind, pure, Except.pure]
      split <;> [exact ⟨_, rfl⟩; split <;> exact ⟨_, rfl⟩]
    | none =>
      cases hn : x.namespaceSelector with
      | none => exact ⟨b, hb⟩
      | some s =>
        obtain ⟨sel, hsel⟩ := h.namespaceSelector s hn
        obtain ⟨labels, hlabels⟩ := h.found pod rfl (by simp [hn])
        simp only [hsel, hlabels, hb, bind, Except.bind, pure, Except.pure]
        split <;> [exact ⟨_, rfl⟩; split <;> exact ⟨_, rfl⟩]

theorem blockAllows_iff (inCluster : Bool) (h : ∀ block, x.ipBlock = some block → block.Readable) :
    blockAllows look inClusterAddrEmitCidrRule ip inCluster x.ipBlock = .ok true ↔
      (inCluster && inClusterAddrEmitCidrRule) = false ∧ x.Matches ip := by
  obtain ⟨b, hb⟩ : ∃ b, blockAllows look inClusterAddrEmitCidrRule ip inCluster x.ipBlock = .ok b :=
    blockAllows_readable hlook h
  rw [hb, Except.ok.injEq, blockAllows_ok hlook hb]

theorem peerAllows_iff_admits (h : x.Reads look nsOf peerPod) :
    peerAllows look inClusterAddrEmitCidrRule nsOf policyNamespace peerPod ip x = .ok true ↔
      x.Admits look inClusterAddrEmitCidrRule nsOf policyNamespace ip peerPod := by
  cases peerPod with
  | none =>
    have hblock : blockAllows look inClusterAddrEmitCidrRule ip false x.ipBlock = .ok true ↔ _ :=
      blockAllows_iff hlook false h.block
    rw [Bool.false_and] at hblock
    exact hblock.trans (and_iff_right rfl)
  | some pod =>
    have hblock : blockAllows look inClusterAddrEmitCidrRule ip true x.ipBlock = .ok true ↔ _ :=
      blockAllows_iff hlook true h.block
    rw [Bool.true_and] at hblock
    rw [peerAllows_pod_iff, Peer.Admits, Peer.BlockLets, hblock, Peer.SelectorsLet]
    -- The block is asked about a pod that the selectors have not let in.
    cases hp : x.podSelector with
    | some s =>
      have hsel := h.podSelector s hp
      simp only [hsel, reduceCtorEq, false_or, true_and]
      tauto
    | none =>
      cases hn : x.namespaceSelector with
      | none => simp
      | some s =>
        have hsel := h.namespaceSelector s hn
        have hlabels := h.found pod rfl (by simp [hn])
        simp only [hsel, hlabels, true_and, true_or]
        tauto

end Admits

/-! ## What a check of a flow to a pod reports -/

namespace NetworkPolicy

variable {S : Type} (np : NetworkPolicy S)

def podAt (c : IPCache) (ip : String) : Option Pod := (c.getPodFromIP ip).map (·.toPod)

/-- The cache is built and has the pods of the flow, and what the policies have for it can be read. -/
structure Readable (c : IPCache) (src dst : TypedEndpoint) : Prop where
  cache : np.ipCache = .ok c
  srcPod : src.type = .pod → podAt c src.ip ≠ none
  dstPod : podAt c dst.ip ≠ none
  selectors : ∀ policy ∈ np.policies, ∃ sel, np.asSelector policy.podSelector = .ok sel
  egress : ∀ policy ∈ np.policies, ∀ rule ∈ policy.egress, ∀ x ∈ rule.peers,
    x.Reads np.look (·.namespaceName) (podAt c dst.ip)
  ingress : ∀ policy ∈ np.policies, ∀ rule ∈ policy.ingress, ∀ x ∈ rule.peers,
    x.Reads np.look (·.name) (podAt c src.ip)
  ports : ∀ policy ∈ np.policies, ∀ rule ∈ policy.ingress, ∀ p ∈ rule.ports, p.Valid

/-- The policy is for ingress and selects the pod at the address. -/
def SelectsAt (c : IPCache) (ip : String) (policy : Policy S) : Prop :=
  policy ∈ np.policies ∧ ∃ pod, podAt c ip = some pod ∧ Selects np.look pod .ingress policy

/-- The ingress rule of the policy is for the source. -/
def IsFor (c : IPCache) (src : TypedEndpoint) (policy : Policy S) (rule : PolicyRule S) : Prop :=
  rule ∈ policy.ingress ∧
    rule.Admits np.look np.inClusterAddrEmitCidrRule (·.name) policy.namespaceName src.ip (podAt c src.ip)

/-- One is, and lists no ports. -/
def OpenTo (c : IPCache) (src : TypedEndpoint) (policy : Policy S) : Prop :=
  ∃ rule, np.IsFor c src policy rule ∧ rule.ports = []

/-- Each that is lists ports, and none of them with a number for the protocol. -/
def ClosedTo (c : IPCache) (src : TypedEndpoint) (protocol : Protocol) (policy : Policy S) : Prop :=
  ∀ rule, np.IsFor c src policy rule → rule.ports ≠ [] ∧ ∀ p ∈ rule.ports, ∀ n, p.port = some n → 0 < n →
    p.protocol.getD .tcp ≠ toV1Protocol protocol

/-- The rules for ingress all restrict the ports, and to others than this one. -/
def ForOtherPorts (port : UInt16) (protocol : Protocol) (policy : Policy S) : Prop :=
  ∀ rule ∈ policy.ingress, rule.ports ≠ [] ∧ ∀ p ∈ rule.ports, ¬p.Matches port protocol

variable {np} {c : IPCache} {src dst : TypedEndpoint} {protocol : Protocol}

theorem getPodFromIP_eq (hcache : np.ipCache = .ok c) (ip : String) : np.look.getPodFromIP ip = .ok (podAt c ip) := by
  simp only [look, hcache]
  rfl

theorem checkPolicies_answers {pt : PolicyType} {nsOf : Pod → String} {rules : Policy S → List (PolicyRule S)}
    {podOf : Except String (Option Pod)} {peerPod : Option Pod} {peer : Endpoint} (hpod : podOf = .ok peerPod)
    (hselectors : ∀ policy ∈ np.policies, ∃ sel, np.asSelector policy.podSelector = .ok sel)
    (hreads : ∀ policy ∈ np.policies, ∀ rule ∈ rules policy, ∀ x ∈ rule.peers, x.Reads np.look nsOf peerPod)
    (pod : Pod) :
    ∃ denies, checkPolicies np.look podOf
      (fun policy peerPod =>
        policyVerdict np.look np.inClusterAddrEmitCidrRule pt nsOf rules policy peerPod peer protocol)
      pod np.policies = .ok denies := by
  have hlook : np.look.strCidrContainsIP = strCidrContainsIP := rfl
  have hverdict : ∀ policy ∈ np.policies, ∃ deny,
      policyVerdict np.look np.inClusterAddrEmitCidrRule pt nsOf rules policy peerPod peer protocol = .ok deny := by
    intro policy hpolicy
    unfold policyVerdict
    split
    · exact ⟨false, rfl⟩
    · obtain ⟨b, hb⟩ : ∃ b, (rules policy).anyM (ruleAllows np.look np.inClusterAddrEmitCidrRule nsOf
          policy.namespaceName peerPod peer protocol) = .ok b := by
        refine anyM_ok fun rule hrule => ?_
        unfold ruleAllows
        split
        · exact anyM_ok fun x hx => peerAllows_ok hlook (hreads policy hpolicy rule hrule x hx)
        · exact ⟨false, rfl⟩
      rw [hb]
      exact ⟨_, rfl⟩
  have hmatch : ∀ policy ∈ np.policies, ∃ b, policyMatchPod np.look policy pod = .ok b := by
    intro policy hpolicy
    obtain ⟨sel, hsel⟩ := hselectors policy hpolicy
    have hsel : np.look.asSelector policy.podSelector = .ok sel := hsel
    unfold policyMatchPod
    rw [hsel]
    split <;> exact ⟨_, rfl⟩
  obtain ⟨denies, hdenies, -⟩ := checkPolicies_ok np.look podOf
    (fun policy peerPod =>
      policyVerdict np.look np.inClusterAddrEmitCidrRule pt nsOf rules policy peerPod peer protocol)
    pod ⟨hmatch, fun policy hpolicy hsel => by
      obtain ⟨deny, hdeny⟩ := hverdict policy hpolicy
      exact ⟨deny, hsel, peerPod, hpod, hdeny⟩⟩
  exact ⟨denies, hdenies⟩

theorem egressDenies_ok (h : np.Readable c src dst) : ∃ egress, np.egressDenies src dst protocol = .ok egress := by
  unfold egressDenies
  split
  · exact ⟨[], rfl⟩
  · rename_i htype
    obtain ⟨pod, hpod⟩ := Option.ne_none_iff_exists'.mp (h.srcPod (by simpa using htype))
    obtain ⟨denies, hdenies⟩ : ∃ denies, checkEgress np.look np.inClusterAddrEmitCidrRule np.policies pod
        dst.toEndpoint protocol = .ok denies :=
      checkPolicies_answers (getPodFromIP_eq h.cache dst.ip) h.selectors h.egress pod
    rw [getPodFromIP_eq h.cache, hpod]
    simp only [orReturn, Except.mapError, bind, Except.bind, forPod, hdenies]
    split <;> exact ⟨_, rfl⟩

/-- A rule for the source lists no ports, or has this one among its numbers. -/
def LetsFrom (np : NetworkPolicy S) (c : IPCache) (src : TypedEndpoint) (protocol : Protocol) (policy : Policy S)
    (port : UInt16) : Prop :=
  ∃ rule, np.IsFor c src policy rule ∧
    (rule.ports = [] ∨ ∃ p ∈ rule.ports, p.port ≠ none ∧ p.Matches port protocol)

theorem policyLets_iff (h : np.Readable c src dst) {policy : Policy S} (hpolicy : policy ∈ np.policies) :
    PolicyLets np.look np.inClusterAddrEmitCidrRule (·.name) (·.ingress) src.toEndpoint protocol policy ↔
      np.LetsFrom c src protocol policy src.port := by
  have hlook : np.look.strCidrContainsIP = strCidrContainsIP := rfl
  unfold PolicyLets LetsFrom IsFor RuleLets PolicyRule.Admits
  simp only [getPodFromIP_eq h.cache, Except.ok.injEq, exists_eq_left', containsPortWithProtocol_iff]
  refine exists_congr fun rule => ?_
  rw [and_assoc]
  refine and_congr_right fun hrule => ?_
  rw [and_comm]
  refine and_congr (exists_congr fun x => and_congr_right fun hx => ?_)
    (or_congr_right (exists_congr fun p => and_congr_right fun hp => ?_))
  · exact peerAllows_iff_admits hlook (h.ingress policy hpolicy rule hrule x hx)
  · exact PolicyPort.asRead_iff_numbered (h.ports policy hpolicy rule hrule p hp) src.port protocol

open Classical in
/-- The ingress policies reported are those of the pod that do not let the source port in. -/
theorem ingressDenies_eq_filter (h : np.Readable c src dst) (hdst : dst.type = .pod) :
    np.ingressDenies src dst protocol = .ok (np.policies.filter fun policy =>
      np.SelectsAt c dst.ip policy ∧ ¬np.LetsFrom c src protocol policy src.port) := by
  obtain ⟨pod, hpod⟩ := Option.ne_none_iff_exists'.mp h.dstPod
  have hsrc : srcPodOrNil np.look src.toEndpoint = .ok (podAt c src.ip) :=
    (srcPodOrNil_ok np.look src.toEndpoint _).mpr (getPodFromIP_eq h.cache src.ip)
  obtain ⟨denies, hdenies⟩ : ∃ denies, checkIngress np.look np.inClusterAddrEmitCidrRule np.policies pod
      src.toEndpoint protocol = .ok denies :=
    checkPolicies_answers hsrc h.selectors h.ingress pod
  have hfilter := checkPolicies_policyVerdict np.look np.inClusterAddrEmitCidrRule
    (srcPodOrNil_ok np.look src.toEndpoint) hdenies
  unfold ingressDenies
  rw [if_neg (by simp [hdst]), getPodFromIP_eq h.cache, hpod]
  simp only [orReturn, Except.mapError, bind, Except.bind, forPod, hdenies]
  rw [hfilter]
  refine congrArg Except.ok (List.filter_congr fun policy hp => decide_eq_decide.mpr ?_)
  rw [policyLets_iff h hp]
  refine and_congr_left fun _ => ⟨fun hsel => ⟨hp, pod, hpod, hsel⟩, fun hat => ?_⟩
  obtain ⟨-, pod', hpod', hsel⟩ := hat
  obtain rfl := Option.some.inj (hpod.symm.trans hpod')
  exact hsel

/-- A flow to a pod is checked against the policies and no further. -/
theorem checkNetworkPolicy_to_pod (hdst : dst.type = .pod) {egress ingress : List (Policy S)}
    (hegress : np.egressDenies src dst protocol = .ok egress)
    (hingress : np.ingressDenies src dst protocol = .ok ingress) (fuel : Nat) :
    np.checkNetworkPolicy fuel src dst protocol =
      some (.returned ((egress ++ ingress).map (denial src dst protocol)) none) := by
  have hdenies : np.denies src dst protocol = .ok (egress ++ ingress) := by
    rw [denies, hegress, hingress]
    rfl
  have hbackends : np.backends src dst protocol = .ok [] := backends_of_not_service (by simp [isService, hdst])
  unfold checkNetworkPolicy
  simp only [body, hdenies, hbackends, eachBackend, List.nil_append]
  cases fuel <;> rfl

/-! ## Which source ports are let in -/

theorem letsFrom_zero_iff (policy : Policy S) : np.LetsFrom c src protocol policy 0 ↔ np.OpenTo c src policy := by
  refine exists_congr fun rule => and_congr_right fun _ => or_iff_left ?_
  rintro ⟨p, -, hport, hmatch⟩
  exact hport (PolicyPort.port_of_matches_zero hmatch)

theorem letsFrom_of_openTo {policy : Policy S} (h : np.OpenTo c src policy) (port : UInt16) :
    np.LetsFrom c src protocol policy port := by
  obtain ⟨rule, hrule, hnil⟩ := h
  exact ⟨rule, hrule, .inl hnil⟩

/-- A number for the protocol lets in at least the port that it is. -/
theorem never_letsFrom_iff {policy : Policy S} (hvalid : ∀ rule ∈ policy.ingress, ∀ p ∈ rule.ports, p.Valid) :
    (∀ port, ¬np.LetsFrom c src protocol policy port) ↔ np.ClosedTo c src protocol policy := by
  constructor
  · intro hnever rule hrule
    refine ⟨fun hnil => hnever 0 ⟨rule, hrule, .inl hnil⟩, fun p hp n hn hpos hproto => ?_⟩
    obtain hzero | ⟨-, hle, hlast⟩ := hvalid rule hrule.1 p hp n hn
    · omega
    have hport : ((UInt16.ofNat n.toNat).toNat : Int) = n := by
      rw [UInt16.toNat_ofNat']
      omega
    refine hnever (UInt16.ofNat n.toNat) ⟨rule, hrule, .inr ⟨p, hp, by simp [hn], hproto, fun m hm => ?_⟩⟩
    obtain rfl := Option.some.inj (hn.symm.trans hm)
    omega
  · rintro hclosed port ⟨rule, hrule, hports⟩
    obtain ⟨hsome, hnumbers⟩ := hclosed rule hrule
    obtain ⟨p, hp, hport, hmatch⟩ := hports.resolve_left hsome
    obtain ⟨n, hn⟩ := Option.ne_none_iff_exists'.mp hport
    exact hnumbers p hp n hn (hmatch.2 n hn).1 hmatch.1

theorem same_letsFrom_iff {policy : Policy S} (hvalid : ∀ rule ∈ policy.ingress, ∀ p ∈ rule.ports, p.Valid) :
    (∀ port port', np.LetsFrom c src protocol policy port ↔ np.LetsFrom c src protocol policy port') ↔
      np.OpenTo c src policy ∨ np.ClosedTo c src protocol policy := by
  rw [← never_letsFrom_iff hvalid, ← @letsFrom_zero_iff S np c src protocol]
  constructor
  · intro hsame
    by_cases hopen : np.LetsFrom c src protocol policy 0
    · exact .inl hopen
    · exact .inr fun port hport => hopen ((hsame port 0).mp hport)
  · rintro (hopen | hnever) port port'
    · rw [letsFrom_zero_iff] at hopen
      exact iff_of_true (letsFrom_of_openTo hopen port) (letsFrom_of_openTo hopen port')
    · exact iff_of_false (hnever port) (hnever port')

end NetworkPolicy

/-! ## A pod whose web port is open -/

def webPod : ClusterPod := { web with hostNetwork := false, phase := .running, podIPs := ["10.0.0.5"] }

def webCache : IPCache := (IPCache.new.buildClusterIPCache ⟨.ok [webPod], .ok [], .ok []⟩).2

def guarded (rule : PolicyRule Labels) : NetworkPolicy Labels where
  serviceAddrSkipCidrRule := false
  inClusterAddrEmitCidrRule := false
  policies :=
    [{ namespaceName := "default", name := "guard", podSelector := [], policyTypes := [.ingress], egress := [],
       ingress := [rule] }]
  ipCache := .ok webCache
  asSelector := outside.asSelector
  namespaceLabels := outside.namespaceLabels
  process _ _ := some []

def anywhere : Peer Labels := ⟨none, none, some ⟨"0.0.0.0/0", []⟩⟩

def webShell : TypedEndpoint := ⟨⟨"10.0.0.5", 22⟩, .pod⟩

theorem guarded_readable {ports : List PolicyPort} (hports : ∀ p ∈ ports, p.Valid) :
    (guarded ⟨ports, [anywhere]⟩).Readable webCache client webShell := by
  have hcidr : (parseCIDR "0.0.0.0/0".toList).isSome = true := by decide +kernel
  have hpod : (NetworkPolicy.podAt webCache "10.0.0.5").isSome = true := by decide +kernel
  have hreads : ∀ x ∈ [anywhere], x.Reads (guarded ⟨ports, [anywhere]⟩).look (·.name)
      (NetworkPolicy.podAt webCache "192.0.2.7") := by
    intro x hx
    obtain rfl := List.mem_singleton.mp hx
    refine ⟨by simp [anywhere], by simp [anywhere], by simp [anywhere], fun block hblock cidr hmem => ?_⟩
    obtain rfl := Option.some.inj hblock
    obtain rfl := List.mem_singleton.mp hmem
    exact Option.isSome_iff_exists.mp hcidr
  constructor
  · rfl
  · exact fun h => absurd h (by decide)
  · exact Option.ne_none_iff_isSome.mpr hpod
  · intro policy _
    exact ⟨_, rfl⟩
  · intro policy hpolicy rule hrule
    obtain rfl := List.mem_singleton.mp hpolicy
    exact absurd hrule List.not_mem_nil
  · intro policy hpolicy rule hrule
    obtain rfl := List.mem_singleton.mp hpolicy
    obtain rfl := List.mem_singleton.mp hrule
    exact hreads
  · intro policy hpolicy rule hrule
    obtain rfl := List.mem_singleton.mp hpolicy
    obtain rfl := List.mem_singleton.mp hrule
    exact hports

theorem anywhere_matches : anywhere.Matches client.ip := by
  have hblock : strCidrContainsIP "0.0.0.0/0" client.ip = .ok true := by decide +kernel
  exact ⟨_, rfl, (strCidrContainsIP_ok hblock).mp rfl, by simp⟩

end EliteTelemetry.Skoop
