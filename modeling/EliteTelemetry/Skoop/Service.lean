/-
  EliteTelemetry.Skoop.Service — the backends of a service (`KubeProxyServiceProcessor` of
  `skoop/service/service.go`).

  `Process` returns a backend for each ready address of the service's Endpoints object, all
  with one port, which it takes from the service: the target port of the service port that the
  packet goes to, or that of a node port. The ports that the subsets of the Endpoints object
  list are not read.

  The backends of a service port are the ready addresses of the subsets that have a port of
  its name and protocol, with the number it has there. So for a packet to the port they are
  what `Process` returns exactly if every subset with a ready address has such a port, and its
  number is that of the target port (`process_resolves_iff`). A target port that is given by
  name counts as 0 there.
-/

import EliteTelemetry.Skoop.IPCache

namespace EliteTelemetry.Skoop

/-! ## Endpoints -/

structure EndpointAddress where
  ip : String
  nodeName : Option String
  deriving DecidableEq, Repr

structure EndpointPort where
  name : String
  port : Int
  protocol : V1Protocol
  deriving DecidableEq, Repr

structure EndpointSubset where
  addresses : List EndpointAddress
  ports : List EndpointPort
  deriving DecidableEq, Repr

/-! ## Ports of a service -/

def portOf (n : Int) : UInt16 := .ofNat (toUInt16 n)

def TargetPort.intVal : TargetPort → Int
  | .number n => n
  | .named _ => 0

def sameProtocol : V1Protocol → Protocol → Bool
  | .tcp, .tcp => true
  | .udp, .udp => true
  | _, _ => false

def getTargetPort (svc : Service) (dport : UInt16) (protocol : Protocol) : UInt16 :=
  match svc.ports.find? fun p => p.port = (dport.toNat : Int) ∧ sameProtocol p.protocol protocol with
  | some p => portOf p.targetPort.intVal
  | none => 0

def serviceTargetPortByNodePort (svc : Service) (nodePort : UInt16) (protocol : Protocol) : UInt16 :=
  match svc.ports.find? fun p => sameProtocol p.protocol protocol ∧ p.nodePort = (nodePort.toNat : Int) with
  | some p => portOf p.targetPort.intVal
  | none => 0

def serviceLBIPs (svc : Service) : List String := if svc.type = .loadBalancer then svc.lbIngress else []

def isTrafficLocalService (svc : Service) : Bool := svc.externalTrafficPolicy = .local

/-! ## The processor -/

structure Backend where
  ip : String
  port : UInt16
  masquerade : Bool
  deriving DecidableEq, Repr

structure KubeProxyServiceProcessor where
  /-- Whether `clusterCIDR` contains an address, where it is set. -/
  clusterCIDR : Option (IP → Bool)
  ipString : IP → String
  /-- The subsets of the Endpoints object of a namespace and name. -/
  endpoints : String → String → Except String (List EndpointSubset)

namespace KubeProxyServiceProcessor

variable (k : KubeProxyServiceProcessor)

def byNodePort (packet : Packet) (svc : Service) (dst : String) (targetPort : UInt16) : Bool × UInt16 :=
  let targetPortByNodePort := serviceTargetPortByNodePort svc packet.dport packet.protocol
  if targetPortByNodePort ≠ 0 then (!isTrafficLocalService svc, targetPortByNodePort)
  else (svc.externalIPs.contains dst && !isTrafficLocalService svc, targetPort)

def shouldMasquerade (packet : Packet) (svc : Service) : Bool × UInt16 :=
  let targetPort := getTargetPort svc packet.dport packet.protocol
  let dst := k.ipString packet.dst
  if targetPort ≠ 0 ∧ (serviceLBIPs svc).contains dst then (!isTrafficLocalService svc, targetPort)
  else
    match k.clusterCIDR with
    | some contains =>
      if targetPort ≠ 0 ∧ dst = svc.clusterIP then (!contains packet.src, targetPort) else byNodePort packet svc dst targetPort
    | none => byNodePort packet svc dst targetPort

def isExternalTraffic (svc : Service) (node : Option ClusterNode) (pkt : Packet) : Bool :=
  containsLoadBalancerIP svc (k.ipString pkt.dst) ||
    match node with
    | none => false
    | some node => node.addresses.contains (k.ipString pkt.dst) && svc.ports.any (·.nodePort = pkt.dport.toNat)

def process (packet : Packet) (svc : Service) (node : Option ClusterNode) : List Backend :=
  let masqueradeAndPort := k.shouldMasquerade packet svc
  match k.endpoints svc.namespaceName svc.name with
  | .error _ => []
  | .ok subsets =>
    let localBackend := k.isExternalTraffic svc node packet && isTrafficLocalService svc
    subsets.flatMap fun ss =>
      (ss.addresses.filter fun addr =>
        match node with
        | some node => !(localBackend && addr.nodeName.getD "" ≠ node.name)
        | none => true).map
        fun addr => { ip := addr.ip, port := masqueradeAndPort.2, masquerade := masqueradeAndPort.1 }

def ready (svc : Service) : List String :=
  match k.endpoints svc.namespaceName svc.name with
  | .error _ => []
  | .ok subsets => subsets.flatMap fun ss => ss.addresses.map (·.ip)

theorem process_ips (packet : Packet) (svc : Service) : (k.process packet svc none).map (·.ip) = k.ready svc := by
  unfold process ready
  cases k.endpoints svc.namespaceName svc.name with
  | error err => rfl
  | ok subsets =>
    simp only [List.map_flatMap, List.map_map]
    refine List.flatMap_congr fun ss _ => ?_
    rw [List.filter_eq_self.mpr fun _ _ => rfl]
    rfl

end KubeProxyServiceProcessor

/-! ## The backends of a service port -/

def EndpointSubset.portFor (ss : EndpointSubset) (p : ServicePort) : Option EndpointPort :=
  ss.ports.find? fun e => e.name = p.name ∧ e.protocol = p.protocol

/-- The ready addresses of each subset that has the port, with its number there. -/
def backendsOf (subsets : List EndpointSubset) (p : ServicePort) : List (String × Int) :=
  subsets.flatMap fun ss =>
    match ss.portFor p with
    | some e => ss.addresses.map fun addr => (addr.ip, e.port)
    | none => []

def Backend.pair (b : Backend) : String × Int := (b.ip, b.port.toNat)

namespace KubeProxyServiceProcessor

variable {k : KubeProxyServiceProcessor} {packet : Packet} {svc : Service} {node : Option ClusterNode}
  {subsets : List EndpointSubset}

/-- Where all traffic goes to all nodes, each ready address is a backend with the one port. -/
theorem process_pairs (hpolicy : svc.externalTrafficPolicy = .cluster)
    (hep : k.endpoints svc.namespaceName svc.name = .ok subsets) :
    (k.process packet svc node).map Backend.pair =
      subsets.flatMap fun ss => ss.addresses.map fun addr => (addr.ip, ((k.shouldMasquerade packet svc).2.toNat : Int)) := by
  have hlocal : isTrafficLocalService svc = false := by simp [isTrafficLocalService, hpolicy]
  unfold process
  rw [hep]
  simp only [hlocal, Bool.and_false, Bool.false_and, Bool.not_false, List.map_flatMap, List.map_map]
  congr 1
  funext ss
  cases node with
  | none => rw [List.filter_eq_self.mpr fun _ _ => rfl]; rfl
  | some node => rw [List.filter_eq_self.mpr fun _ _ => rfl]; rfl

theorem backendsOf_length_le (p : ServicePort) (ss : EndpointSubset) :
    (backendsOf [ss] p).length ≤ ss.addresses.length := by
  simp only [backendsOf, List.flatMap_cons, List.flatMap_nil, List.append_nil]
  cases ss.portFor p <;> simp

theorem backendsOf_cons (ss : EndpointSubset) (rest : List EndpointSubset) (p : ServicePort) :
    backendsOf (ss :: rest) p = backendsOf [ss] p ++ backendsOf rest p := by
  simp [backendsOf]

/-- No subset has fewer backends than addresses where all together have as many. -/
theorem length_backendsOf_eq {p : ServicePort} {n : Int}
    (h : (backendsOf subsets p).length =
      (subsets.flatMap fun ss => ss.addresses.map fun addr => (addr.ip, n)).length) :
    ∀ ss ∈ subsets, (backendsOf [ss] p).length = ss.addresses.length := by
  have hle : ∀ rest : List EndpointSubset, (backendsOf rest p).length ≤
      (rest.flatMap fun ss => ss.addresses.map fun addr => (addr.ip, n)).length := by
    intro rest
    induction rest with
    | nil => simp [backendsOf]
    | cons ss rest ih =>
      have := backendsOf_length_le p ss
      rw [backendsOf_cons]
      simp only [List.flatMap_cons, List.length_append, List.length_map]
      omega
  induction subsets with
  | nil => simp
  | cons ss rest ih =>
    have hss := backendsOf_length_le p ss
    have hrest := hle rest
    rw [backendsOf_cons] at h
    simp only [List.flatMap_cons, List.length_append, List.length_map] at h
    refine List.forall_mem_cons.mpr ⟨by omega, ih ?_⟩
    omega

/-! ### The number that is taken from the service -/

theorem sameProtocol_iff {a b : V1Protocol} {protocol : Protocol} (ha : sameProtocol a protocol = true) :
    sameProtocol b protocol = true ↔ b = a := by
  cases a <;> cases b <;> cases protocol <;> simp_all [sameProtocol]

variable (k svc) in
/-- The service port whose target port is taken for packets to this one at the cluster address: itself,
    unless its number is also the node port of a port with a number for its target, and it has itself
    no number or the address is not known to be the cluster's. -/
def targetOf (p : ServicePort) : ServicePort :=
  match svc.ports.find? fun q => q.protocol = p.protocol ∧ q.nodePort = p.port with
  | some q =>
    if portOf q.targetPort.intVal ≠ 0 ∧
        (portOf p.targetPort.intVal = 0 ∨ k.clusterCIDR = none ∧ svc.clusterIP ∉ serviceLBIPs svc) then q
    else p
  | none => p

/-- A packet to a port of the service, at the cluster address. Ports differ in number or protocol. -/
structure AtPort (k : KubeProxyServiceProcessor) (packet : Packet) (svc : Service) (p : ServicePort) : Prop where
  dst : k.ipString packet.dst = svc.clusterIP
  mem : p ∈ svc.ports
  port : p.port = (packet.dport.toNat : Int)
  protocol : sameProtocol p.protocol packet.protocol = true
  unique : ∀ q ∈ svc.ports, q.port = p.port → q.protocol = p.protocol → q = p

theorem getTargetPort_of_atPort {p : ServicePort} (h : AtPort k packet svc p) :
    getTargetPort svc packet.dport packet.protocol = portOf p.targetPort.intVal := by
  unfold getTargetPort
  cases hfind : svc.ports.find? fun q =>
      q.port = (packet.dport.toNat : Int) ∧ sameProtocol q.protocol packet.protocol with
  | none =>
    have hno := List.find?_eq_none.mp hfind p h.mem
    simp [h.port, h.protocol] at hno
  | some q =>
    have hq := List.find?_some hfind
    simp only [decide_eq_true_eq] at hq
    rw [h.unique q (List.mem_of_find?_eq_some hfind) (hq.1.trans h.port.symm) ((sameProtocol_iff h.protocol).mp hq.2)]

theorem shouldMasquerade_port {p : ServicePort} (h : AtPort k packet svc p) :
    (k.shouldMasquerade packet svc).2 = portOf (targetOf k svc p).targetPort.intVal := by
  have hnode : serviceTargetPortByNodePort svc packet.dport packet.protocol =
      match svc.ports.find? fun q => q.protocol = p.protocol ∧ q.nodePort = p.port with
      | some q => portOf q.targetPort.intVal
      | none => 0 := by
    unfold serviceTargetPortByNodePort
    simp only [sameProtocol_iff h.protocol, h.port]
  unfold shouldMasquerade byNodePort targetOf
  rw [getTargetPort_of_atPort h, h.dst, hnode]
  simp only [List.contains_iff_mem]
  cases svc.ports.find? fun q => q.protocol = p.protocol ∧ q.nodePort = p.port with
  | none => cases k.clusterCIDR <;> simp only [ne_eq, not_true_eq_false, if_false] <;> split_ifs <;> rfl
  | some q =>
    by_cases hp : portOf p.targetPort.intVal = 0
    · by_cases hq : portOf q.targetPort.intVal = 0 <;> cases k.clusterCIDR <;> simp [hp, hq]
    · by_cases hlb : svc.clusterIP ∈ serviceLBIPs svc
      · simp [hp, hlb]
      · by_cases hq : portOf q.targetPort.intVal = 0 <;> cases k.clusterCIDR <;> simp [hp, hq, hlb]

/-- For a packet to a port of the service, at the cluster address, `Process` returns the backends of the
    port, one for each, exactly if every subset with a ready address has the port and its number there
    is, as 16 bits, the number of the target port: the port's own, or that of the port it is the node
    port of. A target port given by name has number 0. -/
theorem process_resolves_iff {p : ServicePort} (hpolicy : svc.externalTrafficPolicy = .cluster)
    (hep : k.endpoints svc.namespaceName svc.name = .ok subsets) (h : AtPort k packet svc p) :
    ((k.process packet svc node).map Backend.pair).Perm (backendsOf subsets p) ↔
      ∀ ss ∈ subsets, ss.addresses ≠ [] →
        ∃ e, ss.portFor p = some e ∧ e.port = ((portOf (targetOf k svc p).targetPort.intVal).toNat : Int) := by
  rw [process_pairs hpolicy hep, shouldMasquerade_port h]
  constructor
  · intro hperm ss hss hne
    have hlen := length_backendsOf_eq hperm.length_eq.symm ss hss
    cases hport : ss.portFor p with
    | none =>
      simp only [backendsOf, List.flatMap_cons, hport, List.flatMap_nil, List.append_nil, List.length_nil] at hlen
      exact absurd (List.eq_nil_of_length_eq_zero hlen.symm) hne
    | some e =>
      refine ⟨e, rfl, ?_⟩
      -- any address of the subset is returned with the port taken from the service
      obtain ⟨addr, haddr⟩ := List.exists_mem_of_ne_nil _ hne
      have hmem : (addr.ip, e.port) ∈ backendsOf subsets p := by
        refine List.mem_flatMap.mpr ⟨ss, hss, ?_⟩
        rw [hport]
        exact List.mem_map.mpr ⟨addr, haddr, rfl⟩
      obtain ⟨ss', -, hss'⟩ := List.mem_flatMap.mp (hperm.mem_iff.mpr hmem)
      obtain ⟨addr', -, heq⟩ := List.mem_map.mp hss'
      exact (congrArg Prod.snd heq).symm
  · intro h
    refine List.Perm.of_eq (List.flatMap_congr fun ss hss => ?_)
    by_cases hne : ss.addresses = []
    · rw [hne]
      cases ss.portFor p <;> rfl
    · obtain ⟨e, hport, hnum⟩ := h ss hss hne
      rw [hport, ← hnum]

end KubeProxyServiceProcessor

/-! ## A named target port -/

def http (target : TargetPort) : ServicePort :=
  { name := "http", protocol := .tcp, port := 80, targetPort := target, nodePort := 0 }

def webService (target : TargetPort) : Service :=
  { namespaceName := "default", name := "web", type := .clusterIP, clusterIP := "10.96.0.1", clusterIPs := ["10.96.0.1"]
    externalIPs := [], ports := [http target], externalTrafficPolicy := .cluster, lbIngress := [] }

def webEndpoints : List EndpointSubset :=
  [{ addresses := [⟨"10.0.0.1", none⟩], ports := [⟨"http", 8080, .tcp⟩] }]

def webProcessor : KubeProxyServiceProcessor :=
  { clusterCIDR := some fun _ => true, ipString := fun _ => "10.96.0.1", endpoints := fun _ _ => .ok webEndpoints }

def toWeb : Packet := { src := [10, 0, 0, 2], sport := 40000, dst := [10, 96, 0, 1], dport := 80, protocol := .tcp, mark := 0 }

theorem toWeb_atPort (target : TargetPort) :
    KubeProxyServiceProcessor.AtPort webProcessor toWeb (webService target) (http target) :=
  ⟨rfl, by simp [webService], rfl, rfl, fun q hq _ _ => List.mem_singleton.mp hq⟩

theorem process_resolves_number :
    ((webProcessor.process toWeb (webService (.number 8080)) none).map Backend.pair).Perm
      (backendsOf webEndpoints (http (.number 8080))) := by
  refine (KubeProxyServiceProcessor.process_resolves_iff rfl rfl (toWeb_atPort (.number 8080))).mpr ?_
  decide

/-- The pod is to be reached at port 8080, and the backend has port 0. -/
theorem a_named_target_port_is_lost :
    KubeProxyServiceProcessor.AtPort webProcessor toWeb (webService (.named "web")) (http (.named "web")) ∧
      backendsOf webEndpoints (http (.named "web")) = [("10.0.0.1", 8080)] ∧
      webProcessor.process toWeb (webService (.named "web")) none = [⟨"10.0.0.1", 0, false⟩] ∧
      ¬((webProcessor.process toWeb (webService (.named "web")) none).map Backend.pair).Perm
        (backendsOf webEndpoints (http (.named "web"))) :=
  ⟨toWeb_atPort (.named "web"), by decide +kernel, by decide +kernel, by decide +kernel⟩

end EliteTelemetry.Skoop
