/-
  EliteTelemetry.Skoop.PolicyCheck — the suspicions of a flow from its NetworkPolicies
  (`CheckNetworkPolicy` of `skoop/plugin/networkpolicy.go`).

  A flow from a pod is checked against the egress policies that select it and a flow to a pod
  against its ingress policies. A flow to a service is checked again for each backend of the
  service, with the backend as the destination.

  A backend that has the address of the service itself is refused, but the addresses of the
  services on the way are not kept. With kube-proxy the backends are the ready addresses of the
  service's Endpoints. So a check returns, whatever the policies, exactly if from the service no
  services are reached that forward to one another in a circle (`checkNetworkPolicy_returns_iff`);
  two services that are each other's backends send it round for ever.

  The cluster is listed once: the same packet and service have the same backends throughout. The
  cache of addresses fails either at the first lookup or not at all.
-/

import EliteTelemetry.Lib.Recursion
import EliteTelemetry.Skoop.PolicyVerdict
import EliteTelemetry.Skoop.Service

namespace EliteTelemetry.Skoop

open EliteTelemetry.Lib.NetAddr (parseIP)
open EliteTelemetry.Lib.Recursion
open Relation (ReflTransGen TransGen)

/-! ## The check -/

structure TypedEndpoint extends Endpoint where
  type : EndpointType
  deriving DecidableEq, Repr

inductive SuspicionLevel where
  | info
  | warning
  | critical
  | fatal
  deriving DecidableEq, Repr

structure Suspicion where
  level : SuspicionLevel
  message : String
  deriving DecidableEq, Repr

/-- How a call ends: with what it returns, or with a nil dereference. -/
inductive Outcome where
  | returned (ret : List Suspicion) (err : Option String)
  | panicked
  deriving DecidableEq, Repr

structure NetworkPolicy (S : Type) where
  serviceAddrSkipCidrRule : Bool
  inClusterAddrEmitCidrRule : Bool
  policies : List (Policy S)
  /-- The cache, or the error of building it. -/
  ipCache : Except String IPCache
  asSelector : S → Except String Selector
  namespaceLabels : String → Except String Labels
  /-- `service.Process`, for no node; none where it panics. -/
  process : Packet → Option Service → Option (List Backend)

namespace NetworkPolicy

variable {S : Type} (np : NetworkPolicy S)

def look : Lookups S where
  asSelector := np.asSelector
  strCidrContainsIP := strCidrContainsIP
  namespaceLabels := np.namespaceLabels
  getPodFromIP ip := np.ipCache.map fun c => (c.getPodFromIP ip).map (·.toPod)

def orReturn {α : Type} (text : String) (x : Except String α) : Except Outcome α :=
  x.mapError fun err => .returned [] (some (text ++ err))

/-- A check for the pod that was looked up. Where there is none, the first policy is compared
    with the namespace of nil. -/
def forPod (text : String) (check : Pod → Except String (List (Policy S))) : Option Pod → Except Outcome (List (Policy S))
  | some pod => orReturn text (check pod)
  | none => if np.policies.isEmpty then .ok [] else .error .panicked

/-- The destination is checked again for each of its backends. -/
def isService (dst : TypedEndpoint) : Bool := dst.type = .service ∨ dst.type = .loadbalancer

def egressDenies (src dst : TypedEndpoint) (protocol : Protocol) : Except Outcome (List (Policy S)) := do
  if src.type ≠ .pod then return []
  let pod ← orReturn "error get pod from ip ipCache: " (np.look.getPodFromIP src.ip)
  if isService dst && np.serviceAddrSkipCidrRule then return []
  np.forPod "error check egress policies: "
    (checkEgress np.look np.inClusterAddrEmitCidrRule np.policies · dst.toEndpoint protocol) pod

def ingressDenies (src dst : TypedEndpoint) (protocol : Protocol) : Except Outcome (List (Policy S)) := do
  if dst.type ≠ .pod then return []
  let pod ← orReturn "error get pod from ip ipCache: " (np.look.getPodFromIP dst.ip)
  np.forPod "error check ingress policies: "
    (checkIngress np.look np.inClusterAddrEmitCidrRule np.policies · src.toEndpoint protocol) pod

def denies (src dst : TypedEndpoint) (protocol : Protocol) : Except Outcome (List (Policy S)) := do
  let egress ← np.egressDenies src dst protocol
  let ingress ← np.ingressDenies src dst protocol
  return egress ++ ingress

def denial (src dst : TypedEndpoint) (protocol : Protocol) (policy : Policy S) : Suspicion where
  level := .critical
  message := "network policy " ++ policy.namespaceName ++ "/" ++ policy.name ++ " deny the packet from " ++ src.ip ++
    " to(" ++ protocol.string ++ ") " ++ dst.ip ++ ":" ++ toString dst.port.toNat

def packet (src dst : TypedEndpoint) (protocol : Protocol) : Packet where
  src := (parseIP src.ip.toList).getD []
  sport := src.port
  dst := (parseIP dst.ip.toList).getD []
  dport := dst.port
  protocol := protocol
  mark := 0

def backends (src dst : TypedEndpoint) (protocol : Protocol) : Except Outcome (List Backend) := do
  if !isService dst then return []
  let cache ← orReturn ("error get service(" ++ dst.ip ++ ") from ip ipCache: ") np.ipCache
  match np.process (packet src dst protocol) (cache.getServiceFromIP dst.ip) with
  | some backends => return backends
  | none => throw .panicked

def endpointOf (backend : Backend) : Except String TypedEndpoint :=
  np.ipCache.map fun c => { ip := backend.ip, port := backend.port, type := c.getIPType backend.ip }

/-- The loop over the backends, and what is added to `ret` after it. -/
def eachBackend (src dst : TypedEndpoint) (protocol : Protocol) (denied : List (Policy S)) :
    List Backend → List Suspicion → Proc TypedEndpoint Outcome
  | [], ret => .ret (.returned (ret ++ denied.map (denial src dst protocol)) none)
  | backend :: rest, ret =>
    if backend.ip = dst.ip then .ret (.returned [] (some "service network loop"))
    else
      match np.endpointOf backend with
      | .error err => .ret (.returned [] (some err))
      | .ok next => .call next fun
        | .returned sub none => eachBackend src dst protocol denied rest (ret ++ sub)
        | .returned _ (some err) => .ret (.returned ret (some err))
        | .panicked => .ret .panicked

def body (src : TypedEndpoint) (protocol : Protocol) (dst : TypedEndpoint) : Proc TypedEndpoint Outcome :=
  match np.denies src dst protocol, np.backends src dst protocol with
  | .ok denied, .ok backends => np.eachBackend src dst protocol denied backends []
  | .error outcome, _ => .ret outcome
  | .ok _, .error outcome => .ret outcome

/-- `CheckNetworkPolicy`, with a bound on how deep it calls itself. -/
def checkNetworkPolicy (fuel : Nat) (src dst : TypedEndpoint) (protocol : Protocol) : Option Outcome :=
  eval (np.body src protocol) fuel (np.body src protocol dst)

end NetworkPolicy

/-! ## Services that lead to services -/

/-- `Process` of kube-proxy, for no node; it dereferences the service. -/
def KubeProxyServiceProcessor.processor (k : KubeProxyServiceProcessor) (packet : Packet) (svc : Option Service) :
    Option (List Backend) :=
  svc.map fun svc => k.process packet svc none

section Graph

variable (c : IPCache) (k : KubeProxyServiceProcessor)

/-- The service at the first address has the second among the ready addresses of its Endpoints. -/
def Resolves (a b : String) : Prop := ∃ svc, c.getServiceFromIP a = some svc ∧ b ∈ k.ready svc

/-- It does, and the first is no address of a pod or a node. -/
def Forwards (a b : String) : Prop := a ∉ c.podCache ∧ a ∉ c.nodeCache ∧ Resolves c k a b

/-- From the address, services forward to services in a circle. -/
def LeadsRound (a : String) : Prop :=
  ∃ b, ReflTransGen (Forwards c k) a b ∧ TransGen (Forwards c k) b b

variable {c k}

/-- Only the addresses of services forward, and they are finitely many. -/
theorem acc_forwards_iff (a : String) : Acc (fun x y => Forwards c k y x) a ↔ ¬LeadsRound c k a := by
  refine acc_iff_no_cycle (c.serviceCache.keys.finite_toSet.subset fun b hb => ?_)
  obtain ⟨-, b', -, -, svc, hsvc, -⟩ := hb
  exact AList.lookup_isSome.mp (Option.isSome_iff_exists.mpr ⟨svc, hsvc⟩)

theorem resolves_iff_process {a b : String} {svc : Service} (hsvc : c.getServiceFromIP a = some svc) (packet : Packet) :
    Resolves c k a b ↔ ∃ backend ∈ k.process packet svc none, backend.ip = b := by
  simp only [Resolves, hsvc, Option.some.injEq, exists_eq_left', ← k.process_ips packet svc, List.mem_map]

theorem isService_getIPType (ip : String) (port : UInt16) :
    NetworkPolicy.isService ⟨⟨ip, port⟩, c.getIPType ip⟩ = true ↔
      ip ∉ c.podCache ∧ ip ∉ c.nodeCache ∧ ∃ svc, c.getServiceFromIP ip = some svc := by
  unfold NetworkPolicy.isService IPCache.getIPType IPCache.getServiceFromIP
  by_cases hpod : ip ∈ c.podCache
  · simp [hpod]
  · by_cases hnode : ip ∈ c.nodeCache
    · simp [hpod, hnode]
    · cases hsvc : c.serviceCache.lookup ip with
      | none => simp [hpod, hnode]
      | some svc =>
        simp only [hpod, hnode, if_false]
        split <;> simp

end Graph

namespace NetworkPolicy

variable {S : Type} {np : NetworkPolicy S} {c : IPCache} {k : KubeProxyServiceProcessor} {src dst : TypedEndpoint}
  {protocol : Protocol}

/-- A call is made for a backend with another address than the service. -/
theorem makes_eachBackend {denied : List (Policy S)} {bs : List Backend} {ret : List Suspicion} {next : TypedEndpoint}
    (h : Makes (np.body src protocol) (np.eachBackend src dst protocol denied bs ret) next) :
    ∃ b ∈ bs, np.endpointOf b = .ok next := by
  induction bs generalizing ret with
  | nil => exact absurd h not_makes_ret
  | cons first rest ih =>
    rw [eachBackend] at h
    split at h
    · exact absurd h not_makes_ret
    · cases hfirst : np.endpointOf first with
      | error err =>
        rw [hfirst] at h
        exact absurd h not_makes_ret
      | ok e =>
        rw [hfirst, makes_call_iff] at h
        rcases h with rfl | ⟨outcome, -, hlater⟩
        · exact ⟨first, by simp, hfirst⟩
        · obtain ⟨b, hb, hnext⟩ : ∃ b ∈ rest, np.endpointOf b = .ok next := by
            split at hlater
            · exact ih hlater
            · exact absurd hlater not_makes_ret
            · exact absurd hlater not_makes_ret
          exact ⟨b, by simp [hb], hnext⟩

/-- Where each check that is made returns without an error, every backend is checked. -/
theorem eachBackend_good (good : TypedEndpoint → Prop) {denied : List (Policy S)} {bs : List Backend}
    (hgood : ∀ x, good x → ∃ sub, Returns (np.body src protocol) (np.body src protocol x) (.returned sub none))
    (hcache : np.ipCache = .ok c) (hother : ∀ b ∈ bs, b.ip ≠ dst.ip) (ret : List Suspicion)
    (h : ∀ x, Makes (np.body src protocol) (np.eachBackend src dst protocol denied bs ret) x → good x) :
    (∀ b ∈ bs, good ⟨⟨b.ip, b.port⟩, c.getIPType b.ip⟩) ∧
      ∃ ss, Returns (np.body src protocol) (np.eachBackend src dst protocol denied bs ret) (.returned ss none) := by
  induction bs generalizing ret with
  | nil => exact ⟨by simp, _, returns_ret _⟩
  | cons first rest ih =>
    have hnext : np.endpointOf first = .ok ⟨⟨first.ip, first.port⟩, c.getIPType first.ip⟩ := by
      rw [endpointOf, hcache]
      rfl
    rw [List.forall_mem_cons] at hother
    rw [eachBackend, if_neg hother.1, hnext] at h ⊢
    have hfirst := h _ (.here _ _)
    obtain ⟨sub, hsub⟩ := hgood _ hfirst
    obtain ⟨hrest, ss, hss⟩ := ih hother.2 (ret ++ sub) fun x hx => h x (.later hsub hx)
    exact ⟨List.forall_mem_cons.mpr ⟨hfirst, hrest⟩, ss, returns_call hsub hss⟩

theorem backends_of_not_service (h : ¬isService dst = true) : np.backends src dst protocol = .ok [] := by
  simp [backends, h, pure, Except.pure]

theorem denies_nil (hcache : np.ipCache = .ok c) (hnone : np.policies = []) : np.denies src dst protocol = .ok [] := by
  have hforPod : ∀ text (check : Pod → Except String (List (Policy S))), (∀ pod, check pod = .ok []) → ∀ pod,
      np.forPod text check pod = .ok [] := by
    intro text check hcheck pod
    cases pod with
    | none => simp [forPod, hnone]
    | some pod => simp [forPod, hcheck, orReturn, Except.mapError]
  have hegress : np.egressDenies src dst protocol = .ok [] := by
    unfold egressDenies
    split
    · rfl
    · simp only [look, hcache, orReturn, Except.mapError, Except.map, bind, Except.bind]
      split
      · rfl
      · exact hforPod _ _ (fun pod => by rw [hnone]; rfl) _
  have hingress : np.ingressDenies src dst protocol = .ok [] := by
    unfold ingressDenies
    split
    · rfl
    · simp only [look, hcache, orReturn, Except.mapError, Except.map, bind, Except.bind]
      exact hforPod _ _ (fun pod => by rw [hnone]; rfl) _
  rw [denies, hegress, hingress]
  rfl

theorem service_of_isService (htype : dst.type = c.getIPType dst.ip) (h : isService dst = true) :
    ∃ svc, c.getServiceFromIP dst.ip = some svc := by
  have hdst : dst = ⟨⟨dst.ip, dst.port⟩, c.getIPType dst.ip⟩ := by rw [← htype]
  rw [hdst] at h
  exact ((isService_getIPType dst.ip dst.port).mp h).2.2

section KubeProxy

variable (hcache : np.ipCache = .ok c) (hproc : np.process = k.processor)

include hcache hproc

theorem backends_of_service (h : isService dst = true) :
    np.backends src dst protocol =
      match c.getServiceFromIP dst.ip with
      | some svc => .ok (k.process (packet src dst protocol) svc none)
      | none => .error .panicked := by
  rw [backends, if_neg (by simp [h]), hcache, hproc]
  show (match k.processor (packet src dst protocol) (c.getServiceFromIP dst.ip) with
    | some backends => Except.ok backends
    | none => .error Outcome.panicked) = _
  cases c.getServiceFromIP dst.ip <;> rfl

/-- A call is made for the ready address of a service, with the type the cache has for it. -/
theorem calls_resolves {next : TypedEndpoint} (h : Calls (np.body src protocol) dst next) :
    isService dst = true ∧ Resolves c k dst.ip next.ip ∧ next.type = c.getIPType next.ip := by
  unfold Calls at h
  rw [body] at h
  split at h
  · rename_i denied bs hdenies hbackends
    obtain ⟨b, hb, hnext⟩ := makes_eachBackend h
    have hservice : isService dst = true := by
      by_contra hnot
      rw [backends_of_not_service hnot] at hbackends
      rw [← Except.ok.inj hbackends] at hb
      exact absurd hb List.not_mem_nil
    rw [endpointOf, hcache] at hnext
    obtain rfl := Except.ok.inj hnext
    rw [backends_of_service hcache hproc hservice] at hbackends
    split at hbackends
    · rename_i svc hsvc
      obtain rfl := Except.ok.inj hbackends
      exact ⟨hservice, (resolves_iff_process hsvc _).mpr ⟨b, hb, rfl⟩, rfl⟩
    · cases hbackends
  · exact absurd h not_makes_ret
  · exact absurd h not_makes_ret

/-- Where services do not forward for ever, no check calls for ever. -/
theorem acc_calls {a : String} (hacc : Acc (fun x y => Forwards c k y x) a) (port : UInt16) :
    Acc (fun x y => Calls (np.body src protocol) y x) ⟨⟨a, port⟩, c.getIPType a⟩ := by
  induction hacc generalizing port with
  | intro a _ ih =>
    refine Acc.intro _ fun next hcalls => ?_
    obtain ⟨hservice, hres, htype⟩ := calls_resolves hcache hproc hcalls
    obtain ⟨hpod, hnode, -⟩ := (isService_getIPType a port).mp hservice
    have hnext := ih next.ip ⟨hpod, hnode, hres⟩ next.port
    rwa [← htype] at hnext

theorem returns_of_not_leadsRound (h : isService dst = true → ∀ a, Resolves c k dst.ip a → ¬LeadsRound c k a) :
    ∃ fuel outcome, np.checkNetworkPolicy fuel src dst protocol = some outcome := by
  have hacc : Acc (fun x y => Calls (np.body src protocol) y x) dst := by
    refine Acc.intro _ fun next hcalls => ?_
    obtain ⟨hservice, hres, htype⟩ := calls_resolves hcache hproc hcalls
    have hnext : Acc (fun x y => Calls (np.body src protocol) y x) ⟨⟨next.ip, next.port⟩, c.getIPType next.ip⟩ :=
      acc_calls hcache hproc ((acc_forwards_iff next.ip).mpr (h hservice next.ip hres)) next.port
    rwa [← htype] at hnext
  obtain ⟨outcome, fuel, hcheck⟩ := terminates_iff_acc.mpr hacc
  exact ⟨fuel, outcome, hcheck⟩

variable (hself : ∀ a, ¬Resolves c k a a) (hnone : np.policies = [])

include hself hnone

/-- A check that ends, without policies, has been through all that is reached from the destination:
    none of it forwards for ever. A destination with the type the cache has for it is checked
    without an error. -/
theorem settles (hacc : Acc (fun x y => Calls (np.body src protocol) y x) dst) :
    (dst.type = c.getIPType dst.ip →
        ∃ ss, Returns (np.body src protocol) (np.body src protocol dst) (.returned ss none)) ∧
      (isService dst = true → ∀ b, Resolves c k dst.ip b → Acc (fun x y => Forwards c k y x) b) := by
  induction hacc with
  | intro dst _ ih =>
    have hdenies : np.denies src dst protocol = .ok [] := denies_nil hcache hnone
    by_cases hservice : isService dst = true
    · cases hsvc : c.getServiceFromIP dst.ip with
      | none =>
        refine ⟨fun htype => ?_, fun _ b hb => ?_⟩
        · obtain ⟨svc, hsome⟩ := service_of_isService htype hservice
          exact absurd (hsvc.symm.trans hsome) (by simp)
        · obtain ⟨svc, hsome, -⟩ := hb
          exact absurd (hsvc.symm.trans hsome) (by simp)
      | some svc =>
        have hbody : np.body src protocol dst = np.eachBackend src dst protocol []
            (k.process (packet src dst protocol) svc none) [] := by
          simp only [body, hdenies, backends_of_service hcache hproc hservice, hsvc]
        have hother : ∀ b ∈ k.process (packet src dst protocol) svc none, b.ip ≠ dst.ip := by
          intro b hb heq
          exact hself dst.ip ((resolves_iff_process hsvc _).mpr ⟨b, hb, heq⟩)
        obtain ⟨hall, hret⟩ := eachBackend_good
          (fun x => (∃ ss, Returns (np.body src protocol) (np.body src protocol x) (.returned ss none)) ∧
            (isService x = true → ∀ b, Resolves c k x.ip b → Acc (fun x y => Forwards c k y x) b))
          (fun x hx => hx.1) hcache hother [] fun x hx => by
            have hcalls : Calls (np.body src protocol) dst x := by rwa [Calls, hbody]
            obtain ⟨hends, hforwards⟩ := ih x hcalls
            exact ⟨hends (calls_resolves hcache hproc hcalls).2.2, hforwards⟩
        refine ⟨fun _ => hbody ▸ hret, fun _ b hb => ?_⟩
        obtain ⟨backend, hbackend, rfl⟩ := (resolves_iff_process hsvc (packet src dst protocol)).mp hb
        refine Acc.intro _ fun b' hforwards => ?_
        obtain ⟨hpod, hnode, svc, hsvc, hb'⟩ := hforwards
        exact (hall backend hbackend).2 ((isService_getIPType _ _).mpr ⟨hpod, hnode, svc, hsvc⟩) b' ⟨svc, hsvc, hb'⟩
    · refine ⟨fun _ => ⟨[], ?_⟩, fun h => absurd h hservice⟩
      simp only [body, hdenies, backends_of_not_service hservice]
      exact returns_ret _

end KubeProxy

end NetworkPolicy

/-! ## Two services for one another -/

def bareService (name ip : String) : Service :=
  { namespaceName := "default", name := name, type := .clusterIP, clusterIP := ip, clusterIPs := [ip], externalIPs := [],
    ports := [⟨"http", .tcp, 80, .number 80, 0⟩], externalTrafficPolicy := .cluster, lbIngress := [] }

/-- The Endpoints objects of the two services: green's has this address, and blue's green's. -/
def behind (ip : String) : KubeProxyServiceProcessor where
  clusterCIDR := none
  ipString _ := ""
  endpoints _ name := .ok [⟨[⟨if name = "blue" then "10.96.0.2" else ip, none⟩], [⟨"http", 80, .tcp⟩]⟩]

def blueGreenCache : IPCache :=
  (IPCache.new.buildClusterIPCache
    ⟨.ok [], .ok [], .ok [bareService "blue" "10.96.0.1", bareService "green" "10.96.0.2"]⟩).2

def blueGreen (ip : String) : NetworkPolicy Labels where
  serviceAddrSkipCidrRule := false
  inClusterAddrEmitCidrRule := false
  policies := []
  ipCache := .ok blueGreenCache
  asSelector _ := .error ""
  namespaceLabels _ := .error ""
  process := (behind ip).processor

def client : TypedEndpoint := ⟨⟨"192.0.2.7", 40000⟩, .external⟩

def blue : TypedEndpoint := ⟨⟨"10.96.0.1", 80⟩, .service⟩

theorem blueGreen_service {a : String} {svc : Service} (h : blueGreenCache.getServiceFromIP a = some svc) :
    a = "10.96.0.1" ∧ svc = bareService "blue" "10.96.0.1" ∨
      a = "10.96.0.2" ∧ svc = bareService "green" "10.96.0.2" := by
  have hentries : blueGreenCache.serviceCache.entries =
      [⟨"10.96.0.2", bareService "green" "10.96.0.2"⟩, ⟨"10.96.0.1", bareService "blue" "10.96.0.1"⟩] := by
    decide +kernel
  have hmem : (⟨a, svc⟩ : Sigma fun _ : String => Service) ∈ blueGreenCache.serviceCache.entries :=
    AList.mem_lookup_iff.mp h
  rw [hentries] at hmem
  simp only [List.mem_cons, Sigma.mk.injEq, heq_eq_eq, List.not_mem_nil, or_false] at hmem
  exact hmem.symm

theorem blueGreen_resolves {ip a b : String} (h : Resolves blueGreenCache (behind ip) a b) :
    a = "10.96.0.1" ∧ b = "10.96.0.2" ∨ a = "10.96.0.2" ∧ b = ip := by
  obtain ⟨svc, hsvc, hb⟩ := h
  rcases blueGreen_service hsvc with ⟨rfl, rfl⟩ | ⟨rfl, rfl⟩
  · exact .inl ⟨rfl, List.mem_singleton.mp hb⟩
  · exact .inr ⟨rfl, List.mem_singleton.mp hb⟩

end EliteTelemetry.Skoop
