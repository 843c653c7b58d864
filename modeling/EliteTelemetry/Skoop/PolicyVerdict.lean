/-
  EliteTelemetry.Skoop.PolicyVerdict — the rules of a NetworkPolicy, for a peer that is no pod
  (`checkEgressPolicyVerdict`, `checkIngressPolicyVerdict`, `containsPortWithProtocol` and
  `strCidrContainsIP` of `skoop/plugin/networkpolicy.go`).

  A rule matches a flow if its ports and its peers do. No ports match every port, and an entry
  without a port every port of its protocol; no peers match every peer, and a block the
  addresses in it that are in none of its exceptions.

  The verdicts read a rule otherwise in two places: a rule without peers matches nothing, and
  an entry without a port matches nothing. (Numbers are cut to 16 bits before they are
  compared, which makes no difference to those the API server admits.) So for an address a
  verdict allows exactly the flows that some rule matches where the rules spell out what they
  allow it: a rule lists the address and no ports; or no rule for it has an entry of TCP or UDP
  without a port, and the ports of rules without peers are also in rules that list the address
  (`verdict_matches_iff`).
-/

import EliteTelemetry.Lib.Cidr
import EliteTelemetry.Skoop.NetworkPolicy

namespace EliteTelemetry.Skoop

open EliteTelemetry.Lib.Cidr
open EliteTelemetry.Lib.Fallible
open EliteTelemetry.Lib.NetAddr (parseIP)

def strCidrContainsIP (cidr ip : String) : Except String Bool :=
  match parseCIDR cidr.toList with
  | none => .error ("invalid CIDR address: " ++ cidr)
  | some subnet => .ok (subnet.contains ((parseIP ip.toList).getD []))

/-! ## When a rule matches -/

/-- The entry is for the protocol and, if it has a port, for a range with the port in it. A
    named port has number 0 and is for none. -/
def PolicyPort.Matches (port : UInt16) (protocol : Protocol) (p : PolicyPort) : Prop :=
  p.protocol.getD .tcp = toV1Protocol protocol ∧
    ∀ n, p.port = some n → 0 < n ∧ n ≤ port.toNat ∧ port.toNat ≤ p.endPort.getD n

def InCidr (cidr ip : String) : Prop :=
  ∃ block, readCIDR cidr.toList = some block ∧ InBlock block ((parseIP ip.toList).getD [])

/-- The address is in the block and outside all exceptions. -/
def IPBlock.Matches (ip : String) (block : IPBlock) : Prop :=
  InCidr block.cidr ip ∧ ∀ cidr ∈ block.except, ¬InCidr cidr ip

section

variable {S : Type}

/-- A peer that is no pod is matched by a block. -/
def Peer.Matches (ip : String) (x : Peer S) : Prop := ∃ block, x.ipBlock = some block ∧ block.Matches ip

def PolicyRule.Matches (peer : Endpoint) (protocol : Protocol) (rule : PolicyRule S) : Prop :=
  (rule.ports = [] ∨ ∃ p ∈ rule.ports, p.Matches peer.port protocol) ∧
    (rule.peers = [] ∨ ∃ x ∈ rule.peers, x.Matches peer.ip)

/-- The entry has a port, and its numbers as 16 bits are a range with the port in it. -/
def PolicyPort.AsRead (port : UInt16) (protocol : Protocol) (p : PolicyPort) : Prop :=
  ∃ n, p.port = some n ∧ p.protocol.getD .tcp = toV1Protocol protocol ∧
    0 < n ∧ toUInt16 n ≤ port.toNat ∧ port.toNat ≤ toUInt16 (p.endPort.getD n)

def PolicyRule.AsRead (peer : Endpoint) (protocol : Protocol) (rule : PolicyRule S) : Prop :=
  (rule.ports = [] ∨ ∃ p ∈ rule.ports, p.AsRead peer.port protocol) ∧ ∃ x ∈ rule.peers, x.Matches peer.ip

def PolicyRule.Lists (ip : String) (rule : PolicyRule S) : Prop := ∃ x ∈ rule.peers, x.Matches ip

/-- The numbers are those the API server admits; a port given by name has number 0. -/
def PolicyPort.Valid (p : PolicyPort) : Prop :=
  ∀ n, p.port = some n → n = 0 ∨ 0 < n ∧ n ≤ p.endPort.getD n ∧ p.endPort.getD n < 65536

/-- The texts of the block can be read. -/
def IPBlock.Readable (block : IPBlock) : Prop :=
  ∀ cidr ∈ block.cidr :: block.except, ∃ subnet, parseCIDR cidr.toList = some subnet

structure PolicyRule.Valid (rule : PolicyRule S) : Prop where
  ports : ∀ p ∈ rule.ports, p.Valid
  blocks : ∀ x ∈ rule.peers, ∀ block, x.ipBlock = some block → block.Readable

/-- The rules spell out what they allow an address: one lists it, and no ports. Or none that lists it,
    or lists no peers, has an entry without a port for a protocol that flows have, and each without
    peers lists ports which rules that list the address have too. -/
def SpelledOut (ip : String) (rules : List (PolicyRule S)) : Prop :=
  (∃ rule ∈ rules, rule.ports = [] ∧ rule.Lists ip) ∨
    ∀ rule ∈ rules,
      (rule.peers = [] ∨ rule.Lists ip → ∀ p ∈ rule.ports, p.port = none → p.protocol = some .sctp) ∧
      (rule.peers = [] → rule.ports ≠ [] ∧ ∀ p ∈ rule.ports, ∀ port protocol, p.Matches port protocol →
        ∃ other ∈ rules, other.Lists ip ∧ ∃ q ∈ other.ports, q.Matches port protocol)

end

/-! ## What the verdicts compute -/

variable {b : Bool} {p : PolicyPort}

theorem strCidrContainsIP_ok {cidr ip : String} (h : strCidrContainsIP cidr ip = .ok b) :
    b = true ↔ InCidr cidr ip := by
  unfold strCidrContainsIP at h
  cases hparse : parseCIDR cidr.toList with
  | none =>
    rw [hparse] at h
    simp at h
  | some subnet =>
    rw [hparse] at h
    obtain rfl := Except.ok.inj h
    exact contains_iff hparse _

theorem portMatches_iff (port : UInt16) (protocol : Protocol) (p : PolicyPort) :
    portMatches port protocol p = true ↔ p.AsRead port protocol := by
  unfold portMatches PolicyPort.AsRead
  cases p.port with
  | none => simp
  | some n => simp [and_assoc]

theorem containsPortWithProtocol_iff (port : UInt16) (protocol : Protocol) (ports : List PolicyPort) :
    containsPortWithProtocol port protocol ports = true ↔ ports = [] ∨ ∃ p ∈ ports, p.AsRead port protocol := by
  unfold containsPortWithProtocol
  rw [Bool.or_eq_true, List.isEmpty_iff, List.any_eq_true]
  simp only [portMatches_iff]

section Verdicts

variable {S : Type} {look : Lookups S} (hlook : look.strCidrContainsIP = strCidrContainsIP)
  {inClusterAddrEmitCidrRule : Bool} {nsOf : Pod → String} {peer : Endpoint} {protocol : Protocol}

include hlook

theorem blockAllows_ok {ip : String} {inCluster : Bool} {x : Peer S}
    (h : blockAllows look inClusterAddrEmitCidrRule ip inCluster x.ipBlock = .ok b) :
    b = true ↔ (inCluster && inClusterAddrEmitCidrRule) = false ∧ x.Matches ip := by
  unfold Peer.Matches
  cases hx : x.ipBlock with
  | none =>
    rw [hx] at h
    obtain rfl := Except.ok.inj h
    simp
  | some block =>
    rw [hx] at h
    unfold blockAllows at h
    rw [hlook] at h
    cases hemit : inCluster && inClusterAddrEmitCidrRule with
    | true =>
      rw [hemit] at h
      obtain rfl := Except.ok.inj h
      simp
    | false =>
      rw [hemit] at h
      obtain ⟨inCidr, hin, hrest⟩ := bind_ok h
      have hinCidr := strCidrContainsIP_ok hin
      cases inCidr with
      | false =>
        obtain rfl := Except.ok.inj hrest
        have hnot : ¬InCidr block.cidr ip := fun hc => absurd (hinCidr.mpr hc) (by simp)
        simp [IPBlock.Matches, hnot]
      | true =>
        obtain ⟨excepted, hscan, hb⟩ := bind_ok hrest
        obtain rfl := Except.ok.inj hb
        have hexcepted := anyM_iff (fun cidr _ b => strCidrContainsIP_ok) hscan
        have hin' : InCidr block.cidr ip := hinCidr.mp rfl
        simp only [Option.some.injEq, exists_eq_left', IPBlock.Matches, hin', true_and, Bool.not_eq_true']
        rw [← Bool.not_eq_true, hexcepted]
        simp

theorem peerAllows_none_ok {policyNamespace ip : String} {x : Peer S}
    (h : peerAllows look inClusterAddrEmitCidrRule nsOf policyNamespace none ip x = .ok b) :
    b = true ↔ x.Matches ip := by
  have hblock : blockAllows look inClusterAddrEmitCidrRule ip false x.ipBlock = .ok b := h
  rw [blockAllows_ok hlook hblock]
  simp

theorem ruleAllows_none_ok {policyNamespace : String} {rule : PolicyRule S}
    (h : ruleAllows look inClusterAddrEmitCidrRule nsOf policyNamespace none peer protocol rule = .ok b) :
    b = true ↔ rule.AsRead peer protocol := by
  unfold ruleAllows at h
  unfold PolicyRule.AsRead
  rw [← containsPortWithProtocol_iff]
  by_cases hport : containsPortWithProtocol peer.port protocol rule.ports = true
  · rw [if_pos hport] at h
    rw [anyM_iff (fun x _ b => peerAllows_none_ok hlook) h]
    simp [hport]
  · rw [if_neg hport] at h
    obtain rfl := Except.ok.inj h
    simp [hport]

/-- A verdict of a policy of the type allows the flow exactly if a rule matches as it is read. -/
theorem policyVerdict_none_allows_iff {pt : PolicyType} {rules : Policy S → List (PolicyRule S)} {policy : Policy S}
    {deny : Bool} (htype : hasPolicyType policy pt = true)
    (h : policyVerdict look inClusterAddrEmitCidrRule pt nsOf rules policy none peer protocol = .ok deny) :
    deny = false ↔ ∃ rule ∈ rules policy, rule.AsRead peer protocol := by
  unfold policyVerdict at h
  rw [htype] at h
  obtain ⟨b, hscan, hb⟩ := bind_ok h
  obtain rfl : (!b) = deny := Except.ok.inj hb
  rw [← anyM_iff (fun rule _ b => ruleAllows_none_ok hlook) hscan]
  simp

theorem blockAllows_readable {ip : String} {inCluster : Bool} {ipBlock : Option IPBlock}
    (h : ∀ block, ipBlock = some block → block.Readable) :
    ∃ b, blockAllows look inClusterAddrEmitCidrRule ip inCluster ipBlock = .ok b := by
  cases ipBlock with
  | none => exact ⟨false, rfl⟩
  | some block =>
    have hread : ∀ cidr ∈ block.cidr :: block.except, ∃ b, look.strCidrContainsIP cidr ip = .ok b := by
      intro cidr hcidr
      obtain ⟨subnet, hsubnet⟩ := h block rfl cidr hcidr
      rw [hlook, strCidrContainsIP, hsubnet]
      exact ⟨_, rfl⟩
    obtain ⟨hcidr, hexcept⟩ := List.forall_mem_cons.mp hread
    obtain ⟨inCidr, hin⟩ := hcidr
    obtain ⟨excepted, hscan⟩ := anyM_ok hexcept
    unfold blockAllows
    simp only [hin, hscan]
    split
    · exact ⟨_, rfl⟩
    · cases inCidr <;> exact ⟨_, rfl⟩

/-- A policy whose texts can be read allows the flow exactly if a rule matches as it is read. -/
theorem verdict_allows_iff {pt : PolicyType} {rules : Policy S → List (PolicyRule S)} {policy : Policy S}
    (htype : hasPolicyType policy pt = true) (hvalid : ∀ rule ∈ rules policy, rule.Valid) :
    policyVerdict look inClusterAddrEmitCidrRule pt nsOf rules policy none peer protocol = .ok false ↔
      ∃ rule ∈ rules policy, rule.AsRead peer protocol := by
  have hrule : ∀ rule ∈ rules policy, ∃ b,
      ruleAllows look inClusterAddrEmitCidrRule nsOf policy.namespaceName none peer protocol rule = .ok b := by
    intro rule hmem
    unfold ruleAllows
    split
    · exact anyM_ok fun x hx => blockAllows_readable hlook ((hvalid rule hmem).blocks x hx)
    · exact ⟨false, rfl⟩
  obtain ⟨b, hb⟩ := anyM_ok hrule
  have hverdict : policyVerdict look inClusterAddrEmitCidrRule pt nsOf rules policy none peer protocol = .ok !b := by
    unfold policyVerdict
    rw [htype, hb]
    rfl
  rw [← policyVerdict_none_allows_iff hlook htype hverdict, hverdict, Except.ok.injEq]

end Verdicts

/-! ## Rules that are spelled out -/

theorem toUInt16_of_fits {n : Int} (h : 0 ≤ n) (hn : n < 65536) : (toUInt16 n : Int) = n := by
  unfold toUInt16
  omega

theorem PolicyPort.asRead_iff_numbered (hvalid : p.Valid) (port : UInt16) (protocol : Protocol) :
    p.AsRead port protocol ↔ p.port ≠ none ∧ p.Matches port protocol := by
  unfold PolicyPort.AsRead PolicyPort.Matches
  cases hn : p.port with
  | none => simp
  | some n =>
    simp only [Option.some.injEq, forall_eq', exists_eq_left', ne_eq, reduceCtorEq, not_false_eq_true, true_and]
    refine and_congr_right fun _ => and_congr_right fun hpos => ?_
    obtain hzero | ⟨-, hle, hlast⟩ := hvalid n hn
    · omega
    · have hfirst' := toUInt16_of_fits (by omega : 0 ≤ n) (by omega)
      have hlast' := toUInt16_of_fits (by omega : 0 ≤ p.endPort.getD n) hlast
      omega

theorem PolicyPort.port_of_matches_zero {protocol : Protocol} (h : p.Matches 0 protocol) : p.port = none := by
  cases hn : p.port with
  | none => rfl
  | some n =>
    obtain ⟨hpos, hle, -⟩ := h.2 n hn
    have hle : n ≤ 0 := hle
    omega

theorem PolicyPort.protocol_of_matches {port : UInt16} {protocol : Protocol} (h : p.Matches port protocol) :
    p.protocol ≠ some .sctp := by
  intro hsctp
  have hproto := h.1
  rw [hsctp] at hproto
  cases protocol <;> simp [toV1Protocol] at hproto

/-- An entry without a port that is not for SCTP is for port 0 of a protocol that flows have. -/
theorem PolicyPort.exists_matches_zero (hport : p.port = none) (hsctp : p.protocol ≠ some .sctp) :
    ∃ protocol, p.Matches 0 protocol := by
  have hproto : ∃ protocol, p.protocol.getD .tcp = toV1Protocol protocol := by
    cases hp : p.protocol with
    | none => exact ⟨.tcp, rfl⟩
    | some v =>
      cases v with
      | tcp => exact ⟨.tcp, rfl⟩
      | udp => exact ⟨.udp, rfl⟩
      | sctp => exact absurd hp hsctp
  obtain ⟨protocol, hproto⟩ := hproto
  exact ⟨protocol, hproto, by simp [hport]⟩

section SpelledOut

variable {S : Type} {rules : List (PolicyRule S)} {ip : String}

theorem PolicyRule.asRead_iff {rule : PolicyRule S} (hvalid : rule.Valid) (peer : Endpoint) (protocol : Protocol) :
    rule.AsRead peer protocol ↔
      (rule.ports = [] ∨ ∃ p ∈ rule.ports, p.port ≠ none ∧ p.Matches peer.port protocol) ∧ rule.Lists peer.ip := by
  refine and_congr_left fun _ => or_congr_right (exists_congr fun p => and_congr_right fun hp => ?_)
  exact PolicyPort.asRead_iff_numbered (hvalid.ports p hp) peer.port protocol

theorem PolicyRule.matches_of_asRead {rule : PolicyRule S} (hvalid : rule.Valid) {peer : Endpoint} {protocol : Protocol}
    (h : rule.AsRead peer protocol) : rule.Matches peer protocol := by
  obtain ⟨hports, hlists⟩ := (PolicyRule.asRead_iff hvalid peer protocol).mp h
  refine ⟨hports.imp_right fun hp => ?_, .inr hlists⟩
  obtain ⟨p, hp, -, hmatch⟩ := hp
  exact ⟨p, hp, hmatch⟩

variable (hvalid : ∀ rule ∈ rules, rule.Valid)

include hvalid

theorem asRead_of_ports_nil {rule : PolicyRule S} (hrule : rule ∈ rules) (hnil : rule.ports = [])
    (hlists : rule.Lists ip) (port : UInt16) (protocol : Protocol) : ∃ rule ∈ rules, rule.AsRead ⟨ip, port⟩ protocol :=
  ⟨rule, hrule, (PolicyRule.asRead_iff (hvalid rule hrule) _ _).mpr ⟨.inl hnil, hlists⟩⟩

theorem spelledOut_of_read_right
    (hright : ∀ port protocol, (∃ rule ∈ rules, rule.Matches ⟨ip, port⟩ protocol) →
      ∃ rule ∈ rules, rule.AsRead ⟨ip, port⟩ protocol) : SpelledOut ip rules := by
  by_cases hopen : ∃ rule ∈ rules, rule.ports = [] ∧ rule.Lists ip
  · exact .inl hopen
  -- What matches is matched by a number of a rule that lists the address.
  have hlisted : ∀ rule ∈ rules, ∀ port protocol, rule.Matches ⟨ip, port⟩ protocol →
      ∃ other ∈ rules, other.Lists ip ∧ ∃ q ∈ other.ports, q.port ≠ none ∧ q.Matches port protocol := by
    intro rule hrule port protocol hmatch
    obtain ⟨other, hother, hread⟩ := hright port protocol ⟨rule, hrule, hmatch⟩
    obtain ⟨hports, hlists⟩ := (PolicyRule.asRead_iff (hvalid other hother) _ _).mp hread
    obtain hnil | hq := hports
    · exact absurd ⟨other, hother, hnil, hlists⟩ hopen
    · exact ⟨other, hother, hlists, hq⟩
  have hzero : ∀ rule ∈ rules, ∀ protocol, ¬rule.Matches ⟨ip, 0⟩ protocol := by
    intro rule hrule protocol hmatch
    obtain ⟨-, -, -, q, -, hport, hq⟩ := hlisted rule hrule 0 protocol hmatch
    exact hport (PolicyPort.port_of_matches_zero hq)
  refine .inr fun rule hrule => ⟨fun hpeers p hp hport => ?_, fun hpeers => ⟨fun hnil => ?_, ?_⟩⟩
  · by_contra hsctp
    obtain ⟨protocol, hmatch⟩ := PolicyPort.exists_matches_zero hport hsctp
    exact hzero rule hrule protocol ⟨.inr ⟨p, hp, hmatch⟩, hpeers⟩
  · exact hzero rule hrule .tcp ⟨.inl hnil, .inl hpeers⟩
  · intro p hp port protocol hmatch
    obtain ⟨other, hother, hlists, q, hq, -, hmatch'⟩ :=
      hlisted rule hrule port protocol ⟨.inr ⟨p, hp, hmatch⟩, .inl hpeers⟩
    exact ⟨other, hother, hlists, q, hq, hmatch'⟩

theorem SpelledOut.read (hspelled : SpelledOut ip rules) {rule : PolicyRule S} (hrule : rule ∈ rules) {port : UInt16}
    {protocol : Protocol} (h : rule.Matches ⟨ip, port⟩ protocol) : ∃ rule ∈ rules, rule.AsRead ⟨ip, port⟩ protocol := by
  obtain ⟨hports, hpeers⟩ := h
  rcases hspelled with ⟨other, hother, hnil, hlists⟩ | hall
  · exact asRead_of_ports_nil hvalid hother hnil hlists port protocol
  -- An entry that matches has a port, since SCTP matches nothing.
  have hnumbered : ∀ other ∈ rules, other.Lists ip → ∀ q ∈ other.ports, q.Matches port protocol →
      other.AsRead ⟨ip, port⟩ protocol := by
    intro other hother hlists q hq hmatch
    refine (PolicyRule.asRead_iff (hvalid other hother) _ _).mpr ⟨.inr ⟨q, hq, fun hnone => ?_, hmatch⟩, hlists⟩
    exact PolicyPort.protocol_of_matches hmatch ((hall other hother).1 (.inr hlists) q hq hnone)
  rcases hpeers with hnil | hlists
  · obtain ⟨hsome, hcovered⟩ := (hall rule hrule).2 hnil
    obtain ⟨p, hp, hmatch⟩ := hports.resolve_left hsome
    obtain ⟨other, hother, hlists, q, hq, hmatch'⟩ := hcovered p hp port protocol hmatch
    exact ⟨other, hother, hnumbered other hother hlists q hq hmatch'⟩
  · rcases hports with hnil | ⟨p, hp, hmatch⟩
    · exact asRead_of_ports_nil hvalid hrule hnil hlists port protocol
    · exact ⟨rule, hrule, hnumbered rule hrule hlists p hp hmatch⟩

/-- For an address, the rules are read right for all ports and protocols exactly if they are spelled out. -/
theorem read_right_iff :
    (∀ port protocol, (∃ rule ∈ rules, rule.AsRead ⟨ip, port⟩ protocol) ↔
        ∃ rule ∈ rules, rule.Matches ⟨ip, port⟩ protocol) ↔
      SpelledOut ip rules := by
  constructor
  · exact fun hright => spelledOut_of_read_right hvalid fun port protocol => (hright port protocol).mpr
  · intro hspelled port protocol
    constructor
    · intro ⟨rule, hrule, hread⟩
      exact ⟨rule, hrule, PolicyRule.matches_of_asRead (hvalid rule hrule) hread⟩
    · intro ⟨rule, hrule, hmatch⟩
      exact hspelled.read hvalid hrule hmatch

end SpelledOut

/-- The verdicts of a policy of the type on flows from or to an address that is no pod's allow exactly
    those that some rule matches, for all ports and protocols, where its rules spell out what they allow
    the address, and only there. -/
theorem verdict_matches_iff {S : Type} {look : Lookups S} (hlook : look.strCidrContainsIP = strCidrContainsIP)
    (inClusterAddrEmitCidrRule : Bool) (policy : Policy S) (ip : String) :
    (hasPolicyType policy .egress = true → (∀ rule ∈ policy.egress, rule.Valid) →
      ((∀ port protocol, checkEgressPolicyVerdict look inClusterAddrEmitCidrRule policy none ⟨ip, port⟩ protocol =
            .ok false ↔ ∃ rule ∈ policy.egress, rule.Matches ⟨ip, port⟩ protocol) ↔
        SpelledOut ip policy.egress)) ∧
    (hasPolicyType policy .ingress = true → (∀ rule ∈ policy.ingress, rule.Valid) →
      ((∀ port protocol, checkIngressPolicyVerdict look inClusterAddrEmitCidrRule policy none ⟨ip, port⟩ protocol =
            .ok false ↔ ∃ rule ∈ policy.ingress, rule.Matches ⟨ip, port⟩ protocol) ↔
        SpelledOut ip policy.ingress)) := by
  refine ⟨fun htype hvalid => ?_, fun htype hvalid => ?_⟩
  · rw [← read_right_iff hvalid]
    exact forall₂_congr fun port protocol => iff_congr (verdict_allows_iff hlook htype hvalid) Iff.rfl
  · rw [← read_right_iff hvalid]
    exact forall₂_congr fun port protocol => iff_congr (verdict_allows_iff hlook htype hvalid) Iff.rfl

/-! ## Two rules that are read otherwise -/

def noPods : Lookups Labels := { outside with strCidrContainsIP := strCidrContainsIP }

def onlyRule (rule : PolicyRule Labels) : Policy Labels :=
  { namespaceName := "default", name := "one", podSelector := [], policyTypes := [.egress], egress := [rule], ingress := [] }

def webPorts : PolicyRule Labels := { ports := [⟨none, some 443, some 8443⟩], peers := [toBlock] }

theorem webPorts_valid : ∀ rule ∈ (onlyRule webPorts).egress, rule.Valid := by
  have hcidr : (parseCIDR "10.0.0.0/8".toList).isSome = true := by decide +kernel
  intro rule hrule
  obtain rfl := List.mem_singleton.mp hrule
  constructor
  · simp [webPorts, PolicyPort.Valid]
  · intro x hx block hblock
    obtain rfl := List.mem_singleton.mp hx
    obtain rfl := Option.some.inj hblock
    intro cidr hcidr'
    obtain rfl := List.mem_singleton.mp hcidr'
    exact Option.isSome_iff_exists.mp hcidr

theorem verdict_matches_listed :
    hasPolicyType (onlyRule webPorts) .egress = true ∧
      ∀ port protocol, checkEgressPolicyVerdict noPods false (onlyRule webPorts) none ⟨"10.1.2.3", port⟩ protocol =
        .ok false ↔ ∃ rule ∈ (onlyRule webPorts).egress, rule.Matches ⟨"10.1.2.3", port⟩ protocol := by
  refine ⟨rfl, ((verdict_matches_iff rfl false (onlyRule webPorts) "10.1.2.3").1 rfl webPorts_valid).mpr (.inr ?_)⟩
  intro rule hrule
  obtain rfl := List.mem_singleton.mp hrule
  simp [webPorts]

/-- A rule without ports and peers matches every flow, and a rule for an entry that has only a
    protocol every flow of it to the block: both policies are taken to deny. -/
theorem rules_for_everything_deny :
    let all : PolicyRule Labels := { ports := [], peers := [] }
    let allUdp : PolicyRule Labels := { ports := [⟨some .udp, none, none⟩], peers := [toBlock] }
    all.Matches inBlock .udp ∧ checkEgressPolicyVerdict noPods false (onlyRule all) none inBlock .udp = .ok true ∧
      allUdp.Matches inBlock .udp ∧
      checkEgressPolicyVerdict noPods false (onlyRule allUdp) none inBlock .udp = .ok true := by
  have hblock : strCidrContainsIP "10.0.0.0/8" inBlock.ip = .ok true := by decide +kernel
  have hpeer : toBlock.Matches inBlock.ip := ⟨_, rfl, (strCidrContainsIP_ok hblock).mp rfl, by simp⟩
  refine ⟨⟨.inl rfl, .inl rfl⟩, rfl, ⟨.inr ⟨_, List.mem_singleton_self _, rfl, by simp⟩, .inr ?_⟩, by decide +kernel⟩
  exact ⟨_, List.mem_singleton_self _, hpeer⟩

end EliteTelemetry.Skoop
