/-
  EliteTelemetry.Skoop.IPCache — who has an address in the cluster (`skoop/k8s/ip_cache.go`).

  The cache is built once, from listings of the pods, the nodes and the services, in this
  order; each listing may fail, and a build that fails may be tried again. An address that is
  in a cache already keeps its owner, with a warning that is left out here.

  A build that failed at the nodes has filled the pod cache, one that failed at the services
  the node cache too, and the next try starts from there. So after a try that succeeds the
  caches are those of its own listings exactly if each address that a failed try put in has
  the same owner in them (`retry_fresh_iff`). The service cache is always fresh, for it is
  filled last.
-/

import EliteTelemetry.Lib.FirstWins
import EliteTelemetry.Lib.Machine
import EliteTelemetry.Skoop.NetworkPolicy

namespace EliteTelemetry.Skoop

open EliteTelemetry.Lib.FirstWins
open EliteTelemetry.Lib.Machine

/-! ## What is listed -/

inductive PodPhase where
  | pending
  | running
  | succeeded
  | failed
  | unknown
  deriving DecidableEq, Repr

/-- `v1.Pod`. What the cache does not read is kept as it came. -/
structure ClusterPod extends Pod where
  hostNetwork : Bool
  phase : PodPhase
  podIPs : List String
  rest : List UInt8 := []
  deriving DecidableEq, Repr

structure ClusterNode where
  name : String
  addresses : List String
  rest : List UInt8 := []
  deriving DecidableEq, Repr

inductive ServiceType where
  | clusterIP
  | nodePort
  | loadBalancer
  | externalName
  deriving DecidableEq, Repr

inductive TrafficPolicy where
  | cluster
  | local
  deriving DecidableEq, Repr

inductive TargetPort where
  | number (n : Int)
  | named (name : String)
  deriving DecidableEq, Repr

structure ServicePort where
  name : String
  protocol : V1Protocol
  port : Int
  targetPort : TargetPort
  nodePort : Int
  deriving DecidableEq, Repr

structure Service where
  namespaceName : String
  name : String
  type : ServiceType
  clusterIP : String
  clusterIPs : List String
  externalIPs : List String
  ports : List ServicePort
  externalTrafficPolicy : TrafficPolicy
  /-- The addresses of `Status.LoadBalancer.Ingress`. -/
  lbIngress : List String
  rest : List UInt8 := []
  deriving DecidableEq, Repr

def containsLoadBalancerIP (svc : Service) (ip : String) : Bool := svc.externalIPs.contains ip || svc.lbIngress.contains ip

structure Listing where
  pods : Except String (List ClusterPod)
  nodes : Except String (List ClusterNode)
  services : Except String (List Service)

/-! ## The cache -/

structure IPCache where
  podCache : Map String ClusterPod
  nodeCache : Map String ClusterNode
  serviceCache : Map String Service
  built : Bool

namespace IPCache

def new : IPCache := ⟨∅, ∅, ∅, false⟩

def addPodIPCache (c : IPCache) (ipaddr : String) (pod : ClusterPod) : IPCache :=
  { c with podCache := add c.podCache ipaddr pod }

def addNodeIPCache (c : IPCache) (ipaddr : String) (node : ClusterNode) : IPCache :=
  { c with nodeCache := add c.nodeCache ipaddr node }

def addServiceIPCache (c : IPCache) (ipaddr : String) (svc : Service) : IPCache :=
  { c with serviceCache := add c.serviceCache ipaddr svc }

def buildPodCache (c : IPCache) (pods : List ClusterPod) : IPCache :=
  pods.foldl (fun c pod =>
    if pod.hostNetwork = true ∨ pod.phase ≠ .running then c
    else pod.podIPs.foldl (fun c ip => c.addPodIPCache ip pod) c) c

def buildNodeCache (c : IPCache) (nodes : List ClusterNode) : IPCache :=
  nodes.foldl (fun c node => node.addresses.foldl (fun c address => c.addNodeIPCache address node) c) c

def buildServiceCache (c : IPCache) (services : List Service) : IPCache :=
  services.foldl (fun c svc =>
    let c := svc.clusterIPs.foldl (fun c clusterIP =>
      -- a headless service has no address
      if clusterIP = "None" then c else c.addServiceIPCache clusterIP svc) c
    let c := svc.externalIPs.foldl (fun c externalIP => c.addServiceIPCache externalIP svc) c
    svc.lbIngress.foldl (fun c ip => c.addServiceIPCache ip svc) c) c

def buildErr (err : String) : Option String := some ("error build cluster ip cache: " ++ err)

/-- `BuildClusterIPCache`: its error, and the cache. A try that fails leaves a new `cacheOnce`. -/
def buildClusterIPCache (c : IPCache) (l : Listing) : Option String × IPCache :=
  if c.built then (none, c)
  else
    match l.pods with
    | .error err => (buildErr err, c)
    | .ok pods =>
      let c := c.buildPodCache pods
      match l.nodes with
      | .error err => (buildErr err, c)
      | .ok nodes =>
        let c := c.buildNodeCache nodes
        match l.services with
        | .error err => (buildErr err, c)
        | .ok services => (none, { c.buildServiceCache services with built := true })

def getPodFromIP (c : IPCache) (ip : String) : Option ClusterPod := c.podCache.lookup ip

def getServiceFromIP (c : IPCache) (ip : String) : Option Service := c.serviceCache.lookup ip

end IPCache

inductive EndpointType where
  | pod
  | node
  | service
  | loadbalancer
  | external
  deriving DecidableEq, Repr

def IPCache.getIPType (c : IPCache) (ip : String) : EndpointType :=
  if ip ∈ c.podCache then .pod
  else if ip ∈ c.nodeCache then .node
  else
    match c.serviceCache.lookup ip with
    | some svc => if svc.type = .loadBalancer ∧ containsLoadBalancerIP svc ip then .loadbalancer else .service
    | none => .external

/-! ## What a try puts in -/

namespace IPCache

def podOwners (pods : List ClusterPod) : List (String × ClusterPod) :=
  pods.flatMap fun pod => if pod.hostNetwork = true ∨ pod.phase ≠ .running then [] else pod.podIPs.map (·, pod)

def nodeOwners (nodes : List ClusterNode) : List (String × ClusterNode) :=
  nodes.flatMap fun node => node.addresses.map (·, node)

def serviceOwners (services : List Service) : List (String × Service) :=
  services.flatMap fun svc => (svc.clusterIPs.filter (· ≠ "None") ++ (svc.externalIPs ++ svc.lbIngress)).map (·, svc)

theorem foldl_addPodIPCache (c : IPCache) (pod : ClusterPod) (ips : List String) :
    ips.foldl (fun c ip => c.addPodIPCache ip pod) c = { c with podCache := fill c.podCache (ips.map (·, pod)) } :=
  foldl_add podCache (fun c t => { c with podCache := t }) (fun _ _ => rfl) (fun _ _ _ => rfl)
    (fun _ => rfl) c ips pod

theorem foldl_addNodeIPCache (c : IPCache) (node : ClusterNode) (ips : List String) :
    ips.foldl (fun c ip => c.addNodeIPCache ip node) c = { c with nodeCache := fill c.nodeCache (ips.map (·, node)) } :=
  foldl_add nodeCache (fun c t => { c with nodeCache := t }) (fun _ _ => rfl) (fun _ _ _ => rfl)
    (fun _ => rfl) c ips node

theorem foldl_addServiceIPCache (c : IPCache) (svc : Service) (ips : List String) :
    ips.foldl (fun c ip => c.addServiceIPCache ip svc) c =
      { c with serviceCache := fill c.serviceCache (ips.map (·, svc)) } :=
  foldl_add serviceCache (fun c t => { c with serviceCache := t }) (fun _ _ => rfl) (fun _ _ _ => rfl)
    (fun _ => rfl) c ips svc

theorem buildPodCache_eq (c : IPCache) (pods : List ClusterPod) :
    c.buildPodCache pods = { c with podCache := fill c.podCache (podOwners pods) } := by
  induction pods generalizing c with
  | nil => rfl
  | cons pod pods ih =>
    simp only [buildPodCache, List.foldl_cons, podOwners, List.flatMap_cons, fill_append] at ih ⊢
    split
    · exact ih c
    · rw [foldl_addPodIPCache, ih]

theorem buildNodeCache_eq (c : IPCache) (nodes : List ClusterNode) :
    c.buildNodeCache nodes = { c with nodeCache := fill c.nodeCache (nodeOwners nodes) } := by
  induction nodes generalizing c with
  | nil => rfl
  | cons node nodes ih =>
    simp only [buildNodeCache, List.foldl_cons, nodeOwners, List.flatMap_cons, fill_append] at ih ⊢
    rw [foldl_addNodeIPCache, ih]

theorem buildServiceCache_eq (c : IPCache) (services : List Service) :
    c.buildServiceCache services = { c with serviceCache := fill c.serviceCache (serviceOwners services) } := by
  induction services generalizing c with
  | nil => rfl
  | cons svc services ih =>
    have hcluster : ∀ c : IPCache, svc.clusterIPs.foldl (fun c ip => if ip = "None" then c else c.addServiceIPCache ip svc) c =
        (svc.clusterIPs.filter (· ≠ "None")).foldl (fun c ip => c.addServiceIPCache ip svc) c := by
      intro c
      rw [List.foldl_filter]
      simp
    simp only [buildServiceCache, List.foldl_cons, serviceOwners, List.flatMap_cons, fill_append, List.map_append] at ih ⊢
    rw [hcluster, foldl_addServiceIPCache, foldl_addServiceIPCache, foldl_addServiceIPCache, ih]

def filledPods (l : Listing) : List (String × ClusterPod) :=
  match l.pods with
  | .ok pods => podOwners pods
  | .error _ => []

def filledNodes (l : Listing) : List (String × ClusterNode) :=
  match l.pods, l.nodes with
  | .ok _, .ok nodes => nodeOwners nodes
  | _, _ => []

def filledServices (l : Listing) : List (String × Service) :=
  match l.pods, l.nodes, l.services with
  | .ok _, .ok _, .ok services => serviceOwners services
  | _, _, _ => []

/-- A try fills each cache as far as it gets, and ends the tries if it gets through. -/
theorem build_eq {c : IPCache} (hc : c.built = false) (l : Listing) :
    (c.buildClusterIPCache l).2 =
      { podCache := fill c.podCache (filledPods l), nodeCache := fill c.nodeCache (filledNodes l)
        serviceCache := fill c.serviceCache (filledServices l), built := (c.buildClusterIPCache l).1 = none } := by
  obtain ⟨pods, nodes, services⟩ := l
  unfold buildClusterIPCache filledPods filledNodes filledServices
  rw [hc]
  cases pods with
  | error err => exact congrArg (IPCache.mk _ _ _) hc
  | ok pods =>
    simp only [buildPodCache_eq, buildNodeCache_eq, buildServiceCache_eq]
    cases nodes with
    | error err => exact congrArg (IPCache.mk _ _ _) hc
    | ok nodes =>
      cases services with
      | error err => exact congrArg (IPCache.mk _ _ _) hc
      | ok services => rfl

theorem filledServices_of_fails {c : IPCache} {l : Listing} (h : (c.buildClusterIPCache l).1 ≠ none) :
    filledServices l = [] := by
  obtain ⟨pods, nodes, services⟩ := l
  cases pods with
  | error err => rfl
  | ok pods =>
    cases nodes with
    | error err => rfl
    | ok nodes =>
      cases services with
      | error err => rfl
      | ok services =>
        refine absurd ?_ h
        unfold buildClusterIPCache
        split <;> rfl

/-! ## Tries that fail -/

theorem exec_failed {failed : List Listing} {c : IPCache} (hc : c.built = false)
    (h : ∀ err ∈ (exec buildClusterIPCache c failed).1, err ≠ none) :
    (exec buildClusterIPCache c failed).2 =
      { podCache := fill c.podCache (failed.flatMap filledPods), nodeCache := fill c.nodeCache (failed.flatMap filledNodes)
        serviceCache := c.serviceCache, built := false } := by
  induction failed generalizing c with
  | nil => rw [← hc]; rfl
  | cons l failed ih =>
    have hl : (c.buildClusterIPCache l).1 ≠ none := h _ (by simp)
    have hbuild := build_eq hc l
    rw [filledServices_of_fails hl] at hbuild
    have hopen : (c.buildClusterIPCache l).2.built = false := by
      rw [hbuild]
      simpa using hl
    rw [exec_cons, ih hopen fun err herr => h err (by simp [herr]), hbuild]
    simp only [List.flatMap_cons, fill_append]
    rfl

/-- After tries that failed and one more, the caches are those an empty one would get from the
    last listings exactly if these give each address that a failed try put in to the owner it
    got first. -/
theorem retry_fresh_iff {failed : List Listing} (last : Listing)
    (hfailed : ∀ err ∈ (exec buildClusterIPCache new failed).1, err ≠ none) :
    (Same ((exec buildClusterIPCache new failed).2.buildClusterIPCache last).2.podCache
          (new.buildClusterIPCache last).2.podCache ∧
        Same ((exec buildClusterIPCache new failed).2.buildClusterIPCache last).2.nodeCache
          (new.buildClusterIPCache last).2.nodeCache ∧
        Same ((exec buildClusterIPCache new failed).2.buildClusterIPCache last).2.serviceCache
          (new.buildClusterIPCache last).2.serviceCache) ↔
      (∀ ip pod, first (failed.flatMap filledPods) ip = some pod → first (filledPods last) ip = some pod) ∧
        ∀ ip node, first (failed.flatMap filledNodes) ip = some node → first (filledNodes last) ip = some node := by
  have hstale := exec_failed (c := new) rfl hfailed
  have hopen : (exec buildClusterIPCache new failed).2.built = false := by rw [hstale]
  have hlookup : ∀ {V : Type} (kvs : List (String × V)) (ip : String), (fill ∅ kvs).lookup ip = first kvs ip := by
    intro V kvs ip
    rw [lookup_fill, AList.lookup_empty, Option.none_or]
  rw [build_eq hopen, build_eq (c := new) rfl, hstale]
  show (Same (fill (fill ∅ _) _) (fill ∅ _) ∧ Same (fill (fill ∅ _) _) (fill ∅ _) ∧ Same (fill ∅ _) (fill ∅ _)) ↔ _
  rw [fill_same_iff, fill_same_iff]
  simp only [hlookup]
  exact and_congr_right fun _ => and_iff_left fun _ => rfl

/-! ## An address that changes hands -/

def podAt (name ip : String) : ClusterPod :=
  { namespaceName := "default", name := name, labels := [], hostNetwork := false, phase := .running, podIPs := [ip] }

def podsOnly (pod : ClusterPod) : Listing := { pods := .ok [pod], nodes := .error "timeout", services := .error "timeout" }

def clusterOf (pod : ClusterPod) : Listing := { pods := .ok [pod], nodes := .ok [], services := .ok [] }

theorem retry_fresh_of_same_owner :
    Same ((exec buildClusterIPCache new [podsOnly (podAt "web-0" "10.0.0.1")]).2.buildClusterIPCache
        (clusterOf (podAt "web-0" "10.0.0.1"))).2.podCache
      (new.buildClusterIPCache (clusterOf (podAt "web-0" "10.0.0.1"))).2.podCache := by
  have hfailed : ∀ err ∈ (exec buildClusterIPCache new [podsOnly (podAt "web-0" "10.0.0.1")]).1, err ≠ none := by
    decide +kernel
  exact ((retry_fresh_iff (clusterOf (podAt "web-0" "10.0.0.1")) hfailed).mpr
    ⟨fun ip pod h => h, fun ip node h => h⟩).1

/-- The first try lists a pod and fails at the nodes; by the second the address belongs to
    another pod, and the cache still has the first. -/
theorem a_failed_try_outlives_the_retry :
    let stale := (exec buildClusterIPCache new [podsOnly (podAt "web-0" "10.0.0.1")])
    let retried := stale.2.buildClusterIPCache (clusterOf (podAt "web-1" "10.0.0.1"))
    stale.1 = [some "error build cluster ip cache: timeout"] ∧ retried.1 = none ∧
      retried.2.podCache.lookup "10.0.0.1" = some (podAt "web-0" "10.0.0.1") ∧
      (new.buildClusterIPCache (clusterOf (podAt "web-1" "10.0.0.1"))).2.podCache.lookup "10.0.0.1" =
        some (podAt "web-1" "10.0.0.1") :=
  ⟨by decide +kernel, by decide +kernel, by decide +kernel, by decide +kernel⟩

end IPCache

end EliteTelemetry.Skoop
