/-
  EliteTelemetry.Skoop.PodPeers — the rules of a NetworkPolicy, for a peer that is a pod
  (`checkEgressPolicyVerdict` and `checkIngressPolicyVerdict` of
  `skoop/plugin/networkpolicy.go`).

  An entry with selectors is for the pods whose namespace and labels both suit: the namespace
  is the policy's own or, with a namespace selector, one whose labels satisfy it; the labels
  satisfy the pod selector, if there is one. A rule is for the pods that an entry of it is for.

  The verdicts read an entry otherwise in three places. A pod selector makes them forget the
  namespace selector beside it and ask for the policy's own namespace; the ingress verdict
  looks the namespace up under the name of the pod; and whom selectors turn away a block in the
  same entry may still let in. A lookup that fails ends the verdict without an answer, before
  the entries after it are looked at. An entry, and a rule, admit the pods they are for exactly
  where none of this makes a difference (`pod_peers_iff`).
-/

import EliteTelemetry.Skoop.NetworkPolicy

namespace EliteTelemetry.Skoop

open EliteTelemetry.Lib.Fallible

section PodPeers

variable {S : Type} (look : Lookups S)

/-! ## Whom an entry is for -/

def Satisfies (s : S) (labels : Labels) : Prop :=
  ∃ sel, look.asSelector s = .ok sel ∧ (sel.empty = true ∨ sel.matchesLabels labels = true)

def NamespaceSatisfies (s : S) (name : String) : Prop :=
  ∃ sel, look.asSelector s = .ok sel ∧
    (sel.empty = true ∨ ∃ labels, look.namespaceLabels name = .ok labels ∧ sel.matchesLabels labels = true)

def Peer.HasSelectors (x : Peer S) : Prop := x.podSelector ≠ none ∨ x.namespaceSelector ≠ none

def Peer.Selects (policyNamespace : String) (pod : Pod) (x : Peer S) : Prop :=
  (match x.namespaceSelector with
    | none => pod.namespaceName = policyNamespace
    | some s => NamespaceSatisfies look s pod.namespaceName) ∧
  ∀ s, x.podSelector = some s → Satisfies look s pod.labels

/-! ## Whom the verdicts let in by it -/

variable (inClusterAddrEmitCidrRule : Bool) (nsOf : Pod → String) (policyNamespace ip : String) (pod : Pod)

def Peer.SelectorsLet (x : Peer S) : Prop :=
  match x.podSelector, x.namespaceSelector with
  | some s, _ => pod.namespaceName = policyNamespace ∧ Satisfies look s pod.labels
  | none, some s => NamespaceSatisfies look s (nsOf pod)
  | none, none => False

/-- The selectors turn the pod away, with no lookup that fails and not for its namespace alone,
    and the block lets it in. -/
def Peer.BlockLets (x : Peer S) : Prop :=
  (match x.podSelector, x.namespaceSelector with
    | some s, _ =>
      pod.namespaceName = policyNamespace ∧ (∃ sel, look.asSelector s = .ok sel) ∧ ¬Satisfies look s pod.labels
    | none, some s =>
      (∃ sel, look.asSelector s = .ok sel) ∧ (∃ labels, look.namespaceLabels (nsOf pod) = .ok labels) ∧
        ¬NamespaceSatisfies look s (nsOf pod)
    | none, none => True) ∧
  blockAllows look inClusterAddrEmitCidrRule ip true x.ipBlock = .ok true

variable {look inClusterAddrEmitCidrRule nsOf policyNamespace ip pod}

theorem satisfies_iff {s : S} {sel : Selector} (h : look.asSelector s = .ok sel) (labels : Labels) :
    Satisfies look s labels ↔ sel.empty = true ∨ sel.matchesLabels labels = true := by
  simp [Satisfies, h]

theorem namespaceSatisfies_iff {s : S} {sel : Selector} (h : look.asSelector s = .ok sel) (name : String) :
    NamespaceSatisfies look s name ↔
      sel.empty = true ∨ ∃ labels, look.namespaceLabels name = .ok labels ∧ sel.matchesLabels labels = true := by
  simp [NamespaceSatisfies, h]

/-- With a pod selector, the policy's namespace is asked for and the namespace selector is not read. -/
theorem peerAllows_podSelector_iff (s : S) (namespaceSelector : Option S) (ipBlock : Option IPBlock) :
    let x : Peer S := ⟨some s, namespaceSelector, ipBlock⟩
    peerAllows look inClusterAddrEmitCidrRule nsOf policyNamespace (some pod) ip x = .ok true ↔
      x.SelectorsLet look nsOf policyNamespace pod ∨
        x.BlockLets look inClusterAddrEmitCidrRule nsOf policyNamespace ip pod := by
  unfold peerAllows Peer.SelectorsLet Peer.BlockLets
  generalize blockAllows look inClusterAddrEmitCidrRule ip true ipBlock = block
  simp only
  by_cases hns : pod.namespaceName = policyNamespace
  · cases hsel : look.asSelector s with
    | error e => simp [hns, Satisfies, hsel, bind, Except.bind]
    | ok sel =>
      have hiff := satisfies_iff hsel pod.labels
      by_cases hsat : Satisfies look s pod.labels
      · have hor : (sel.empty || sel.matchesLabels pod.labels) = true := by simpa using hiff.mp hsat
        simp [hns, hor, hsat, bind, Except.bind, pure, Except.pure]
      · have hor : (sel.empty || sel.matchesLabels pod.labels) = false := by
          rw [← Bool.not_eq_true, Bool.or_eq_true]
          exact fun h => hsat (hiff.mpr h)
        simp [hns, hor, hsat, bind, Except.bind]
  · simp [hns, pure, Except.pure]

/-- With a namespace selector alone, a namespace is looked up unless the selector is empty. -/
theorem peerAllows_namespaceSelector_iff (s : S) (ipBlock : Option IPBlock) :
    let x : Peer S := ⟨none, some s, ipBlock⟩
    peerAllows look inClusterAddrEmitCidrRule nsOf policyNamespace (some pod) ip x = .ok true ↔
      x.SelectorsLet look nsOf policyNamespace pod ∨
        x.BlockLets look inClusterAddrEmitCidrRule nsOf policyNamespace ip pod := by
  unfold peerAllows Peer.SelectorsLet Peer.BlockLets
  generalize blockAllows look inClusterAddrEmitCidrRule ip true ipBlock = block
  simp only
  cases hsel : look.asSelector s with
  | error e => simp [NamespaceSatisfies, hsel, bind, Except.bind]
  | ok sel =>
    rw [namespaceSatisfies_iff hsel]
    cases hempty : sel.empty with
    | true => simp [hempty, bind, Except.bind, pure, Except.pure]
    | false =>
      cases hlabels : look.namespaceLabels (nsOf pod) with
      | error e => simp [hempty, bind, Except.bind]
      | ok labels =>
        cases hmatch : sel.matchesLabels labels with
        | true => simp [hempty, hmatch, bind, Except.bind, pure, Except.pure]
        | false => simp [hempty, hmatch, bind, Except.bind]

theorem peerAllows_pod_iff (x : Peer S) :
    peerAllows look inClusterAddrEmitCidrRule nsOf policyNamespace (some pod) ip x = .ok true ↔
      x.SelectorsLet look nsOf policyNamespace pod ∨
        x.BlockLets look inClusterAddrEmitCidrRule nsOf policyNamespace ip pod := by
  obtain ⟨podSelector, namespaceSelector, ipBlock⟩ := x
  cases podSelector with
  | some s => exact peerAllows_podSelector_iff s namespaceSelector ipBlock
  | none =>
    cases namespaceSelector with
    | some s => exact peerAllows_namespaceSelector_iff s ipBlock
    | none => simp [peerAllows, Peer.SelectorsLet, Peer.BlockLets]

/-! ## Where that is the same -/

variable (look inClusterAddrEmitCidrRule nsOf policyNamespace ip pod)

/-- For the pod it makes no difference how the entry is read: a namespace selector beside a pod
    selector is for the pod's namespace exactly if that is the policy's own, one that stands
    alone is for the namespace that is looked up exactly if it is for the pod's, and a block
    lets in none but those the selectors are for. -/
def Peer.ReadRight (x : Peer S) : Prop :=
  (∀ p, x.podSelector = some p → ∀ n, x.namespaceSelector = some n → Satisfies look p pod.labels →
    (pod.namespaceName = policyNamespace ↔ NamespaceSatisfies look n pod.namespaceName)) ∧
  (x.podSelector = none → ∀ n, x.namespaceSelector = some n →
    ¬x.BlockLets look inClusterAddrEmitCidrRule nsOf policyNamespace ip pod →
    (NamespaceSatisfies look n (nsOf pod) ↔ NamespaceSatisfies look n pod.namespaceName)) ∧
  (x.BlockLets look inClusterAddrEmitCidrRule nsOf policyNamespace ip pod → x.Selects look policyNamespace pod)

variable {look inClusterAddrEmitCidrRule nsOf policyNamespace ip pod}

/-- An entry lets in the pods it is for exactly where it is read right. -/
theorem peer_selects_iff {x : Peer S} (hx : x.HasSelectors) :
    (peerAllows look inClusterAddrEmitCidrRule nsOf policyNamespace (some pod) ip x = .ok true ↔
        x.Selects look policyNamespace pod) ↔
      x.ReadRight look inClusterAddrEmitCidrRule nsOf policyNamespace ip pod := by
  obtain ⟨podSelector, namespaceSelector, ipBlock⟩ := x
  rw [peerAllows_pod_iff, Peer.ReadRight]
  generalize hB : (Peer.mk podSelector namespaceSelector ipBlock).BlockLets look inClusterAddrEmitCidrRule nsOf
    policyNamespace ip pod = B
  -- the block is only asked about pods that the selectors turn away
  cases podSelector with
  | some p =>
    have hblock : B → ¬Satisfies look p pod.labels := by
      rw [← hB]
      exact fun h => h.1.2.2
    cases namespaceSelector with
    | none =>
      simp only [Peer.SelectorsLet, Peer.Selects, Option.some.injEq, forall_eq', reduceCtorEq, IsEmpty.forall_iff,
        implies_true, true_and]
      grind
    | some n =>
      simp only [Peer.SelectorsLet, Peer.Selects, Option.some.injEq, forall_eq', reduceCtorEq, IsEmpty.forall_iff,
        true_and]
      grind
  | none =>
    cases namespaceSelector with
    | none => simp [Peer.HasSelectors] at hx
    | some n =>
      have hblock : B → ¬NamespaceSatisfies look n (nsOf pod) := by
        rw [← hB]
        exact fun h => h.1.2.2
      simp only [Peer.SelectorsLet, Peer.Selects, Option.some.injEq, forall_eq', reduceCtorEq, IsEmpty.forall_iff,
        implies_true, true_and, and_true, forall_const]
      grind

/-! ## Rules -/

def egressAdmits (look : Lookups S) (inClusterAddrEmitCidrRule : Bool) (policy : Policy S) (pod : Pod)
    (dst : Endpoint) (protocol : Protocol) (rule : PolicyRule S) : Prop :=
  checkEgressPolicyVerdict look inClusterAddrEmitCidrRule { policy with egress := [rule] } (some pod) dst protocol =
    .ok false

def ingressAdmits (look : Lookups S) (inClusterAddrEmitCidrRule : Bool) (policy : Policy S) (pod : Pod)
    (src : Endpoint) (protocol : Protocol) (rule : PolicyRule S) : Prop :=
  checkIngressPolicyVerdict look inClusterAddrEmitCidrRule { policy with ingress := [rule] } (some pod) src protocol =
    .ok false

/-- Each entry of the rule with selectors admits the pods it is for, and the rule those that
    one of its entries admits. -/
structure AdmitsAsSelected (look : Lookups S) (policyNamespace : String) (pod : Pod) (rule : PolicyRule S)
    (admits : PolicyRule S → Prop) : Prop where
  entry : ∀ x ∈ rule.peers, x.HasSelectors → (admits { rule with peers := [x] } ↔ x.Selects look policyNamespace pod)
  rule : admits rule ↔ ∃ x ∈ rule.peers, admits { rule with peers := [x] }

variable {peer : Endpoint} {protocol : Protocol}

theorem ruleAllows_pod (rule : PolicyRule S)
    (hports : containsPortWithProtocol peer.port protocol rule.ports = true) :
    ruleAllows look inClusterAddrEmitCidrRule nsOf policyNamespace (some pod) peer protocol rule =
      rule.peers.anyM (peerAllows look inClusterAddrEmitCidrRule nsOf policyNamespace (some pod) peer.ip) :=
  if_pos hports

theorem anyM_singleton_true {α : Type} (f : α → Except String Bool) (a : α) : [a].anyM f = f a := by
  rw [List.anyM]
  cases f a with
  | error e => rfl
  | ok b => cases b <;> rfl

theorem policyVerdict_single {pt : PolicyType} {rules : Policy S → List (PolicyRule S)} (policy : Policy S)
    {rule : PolicyRule S} (htype : hasPolicyType policy pt = true) (hrules : rules policy = [rule]) :
    policyVerdict look inClusterAddrEmitCidrRule pt nsOf rules policy (some pod) peer protocol = .ok false ↔
      ruleAllows look inClusterAddrEmitCidrRule nsOf policy.namespaceName (some pod) peer protocol rule = .ok true := by
  unfold policyVerdict
  rw [htype, hrules, anyM_singleton_true]
  cases ruleAllows look inClusterAddrEmitCidrRule nsOf policy.namespaceName (some pod) peer protocol rule with
  | error e => simp [bind, Except.bind]
  | ok b => cases b <;> simp [bind, Except.bind, pure, Except.pure]

theorem admitsAsSelected_iff {rule : PolicyRule S} {admits : PolicyRule S → Prop}
    (hports : containsPortWithProtocol peer.port protocol rule.ports = true)
    (hadmits : ∀ rule, admits rule ↔
      ruleAllows look inClusterAddrEmitCidrRule nsOf policyNamespace (some pod) peer protocol rule = .ok true) :
    AdmitsAsSelected look policyNamespace pod rule admits ↔
      (∀ x ∈ rule.peers, x.HasSelectors →
        x.ReadRight look inClusterAddrEmitCidrRule nsOf policyNamespace peer.ip pod) ∧
      FailsLate (peerAllows look inClusterAddrEmitCidrRule nsOf policyNamespace (some pod) peer.ip) rule.peers := by
  have hentry : ∀ x, admits { rule with peers := [x] } ↔
      peerAllows look inClusterAddrEmitCidrRule nsOf policyNamespace (some pod) peer.ip x = .ok true := by
    intro x
    rw [hadmits, ruleAllows_pod { rule with peers := [x] } hports, anyM_singleton_true]
  have hrule : admits rule ↔
      rule.peers.anyM (peerAllows look inClusterAddrEmitCidrRule nsOf policyNamespace (some pod) peer.ip) =
        .ok true := by
    rw [hadmits, ruleAllows_pod rule hports]
  have hexact : (admits rule ↔ ∃ x ∈ rule.peers, admits { rule with peers := [x] }) ↔
      FailsLate (peerAllows look inClusterAddrEmitCidrRule nsOf policyNamespace (some pod) peer.ip) rule.peers := by
    rw [← anyM_true_iff_failsLate, hrule]
    simp only [hentry]
  constructor
  · intro h
    exact ⟨fun x hx hsel => (peer_selects_iff hsel).mp ((hentry x).symm.trans (h.entry x hx hsel)), hexact.mp h.rule⟩
  · intro ⟨hread, hlate⟩
    exact ⟨fun x hx hsel => (hentry x).trans ((peer_selects_iff hsel).mpr (hread x hx hsel)), hexact.mpr hlate⟩

end PodPeers

/-- A rule with a port for the flow admits the pods it is for, in the egress verdict and in the
    ingress verdict, exactly where its entries are read right and no lookup fails before the
    first that admits. -/
theorem pod_peers_iff {S : Type} (look : Lookups S) (inClusterAddrEmitCidrRule : Bool) (policy : Policy S) (pod : Pod)
    (peer : Endpoint) (protocol : Protocol) (rule : PolicyRule S)
    (hports : containsPortWithProtocol peer.port protocol rule.ports = true) :
    (hasPolicyType policy .egress = true →
      (AdmitsAsSelected look policy.namespaceName pod rule
          (egressAdmits look inClusterAddrEmitCidrRule policy pod peer protocol) ↔
        (∀ x ∈ rule.peers, x.HasSelectors →
          x.ReadRight look inClusterAddrEmitCidrRule (·.namespaceName) policy.namespaceName peer.ip pod) ∧
        FailsLate (peerAllows look inClusterAddrEmitCidrRule (·.namespaceName) policy.namespaceName (some pod) peer.ip)
          rule.peers)) ∧
    (hasPolicyType policy .ingress = true →
      (AdmitsAsSelected look policy.namespaceName pod rule
          (ingressAdmits look inClusterAddrEmitCidrRule policy pod peer protocol) ↔
        (∀ x ∈ rule.peers, x.HasSelectors →
          x.ReadRight look inClusterAddrEmitCidrRule (·.name) policy.namespaceName peer.ip pod) ∧
        FailsLate (peerAllows look inClusterAddrEmitCidrRule (·.name) policy.namespaceName (some pod) peer.ip)
          rule.peers)) := by
  refine ⟨fun htype => admitsAsSelected_iff hports fun rule => ?_,
    fun htype => admitsAsSelected_iff hports fun rule => ?_⟩
  · exact policyVerdict_single { policy with egress := [rule] } htype rfl
  · exact policyVerdict_single { policy with ingress := [rule] } htype rfl

/-! ## A namespace of a team -/

/-- The selectors of `outside`, and two namespaces: `shop` is team a's. -/
def teams : Lookups Labels :=
  { outside with
    namespaceLabels := fun name =>
      if name = "shop" then .ok [("team", "a")] else if name = "default" then .ok [] else .error "not found" }

def cart : Pod := { namespaceName := "shop", name := "cart-0", labels := [("app", "cart")] }

def ofDefault : Policy Labels :=
  { namespaceName := "default", name := "peers", podSelector := [], policyTypes := [.egress, .ingress], egress := [],
    ingress := [] }

def onePeer (x : Peer Labels) : PolicyRule Labels := { ports := [], peers := [x] }

theorem readRight_podSelector (nsOf : Pod → String) (s : Labels) (pod : Pod) :
    (Peer.mk (some s) none none).ReadRight teams false nsOf "default" inBlock.ip pod := by
  refine ⟨by simp, by simp, fun h => ?_⟩
  exact absurd h.2 (by simp [blockAllows])

/-- An entry with a pod selector alone is read right, by both verdicts. -/
theorem pod_peers_of_the_namespace :
    let rule := onePeer ⟨some [("app", "web")], none, none⟩
    AdmitsAsSelected teams "default" web rule (egressAdmits teams false ofDefault web inBlock .tcp) ∧
      AdmitsAsSelected teams "default" web rule (ingressAdmits teams false ofDefault web inBlock .tcp) := by
  intro rule
  obtain ⟨hegress, hingress⟩ := pod_peers_iff teams false ofDefault web inBlock .tcp rule rfl
  have hlate : ∀ f : Peer Labels → Except String Bool, FailsLate f rule.peers := by
    intro f before x after hsplit _ _ y hy
    obtain rfl : before = [] := by
      have hlen := congrArg List.length hsplit
      simp [rule, onePeer] at hlen
      exact List.eq_nil_of_length_eq_zero (by omega)
    exact absurd hy (by simp)
  have hread : ∀ nsOf : Pod → String, ∀ x ∈ rule.peers, x.HasSelectors →
      x.ReadRight teams false nsOf "default" inBlock.ip web := by
    intro nsOf x hx _
    obtain rfl := List.mem_singleton.mp hx
    exact readRight_podSelector nsOf _ web
  exact ⟨(hegress rfl).mpr ⟨hread _, hlate _⟩, (hingress rfl).mpr ⟨hread _, hlate _⟩⟩

/-- The pod suits an entry for the carts of the namespaces of team a, and one for all their pods.
    The first turns it away, for it is of another namespace than the policy; the second fails
    in the ingress verdict, which looks for a namespace `cart-0`. -/
theorem a_pod_of_another_namespace_is_turned_away :
    let carts : Peer Labels := ⟨some [("app", "cart")], some [("team", "a")], none⟩
    let all : Peer Labels := ⟨none, some [("team", "a")], none⟩
    carts.Selects teams "default" cart ∧
      checkEgressPolicyVerdict teams false { ofDefault with egress := [onePeer carts] } (some cart) inBlock .tcp =
        .ok true ∧
      checkIngressPolicyVerdict teams false { ofDefault with ingress := [onePeer carts] } (some cart) inBlock .tcp =
        .ok true ∧
      all.Selects teams "default" cart ∧
      checkIngressPolicyVerdict teams false { ofDefault with ingress := [onePeer all] } (some cart) inBlock .tcp =
        .error "not found" := by
  have hnamespace : NamespaceSatisfies teams [("team", "a")] "shop" := ⟨_, rfl, .inr ⟨_, rfl, by decide⟩⟩
  have hlabels : Satisfies teams [("app", "cart")] cart.labels := ⟨_, rfl, .inr (by decide)⟩
  exact ⟨⟨hnamespace, by simpa using hlabels⟩, rfl, rfl, ⟨hnamespace, by simp⟩, rfl⟩

end EliteTelemetry.Skoop
