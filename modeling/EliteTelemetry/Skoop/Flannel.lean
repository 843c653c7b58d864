/-
  EliteTelemetry.Skoop.Flannel — what the pods and nodes of a flannel network do with the packet of
  a diagnosis (`skoop/plugin/base.go`, `skoop/plugin/simple.go`, `skoop/plugin/flannel.go`, and
  `GetNetNodeFromID` of `skoop/nodemanager/net_node_manager.go`, `Diagnose` of
  `skoop/skoop/diagnose.go`).

  A pod sends over its veth to its node. A node takes a packet by the owner of its destination: to
  a pod of its own over the bridge, to another pod by way of that pod's node, to a service by way
  of each backend, to a node port by the service it belongs to. Between nodes a packet for a pod is
  put into one for the node where the backend is vxlan, and is taken out again there.

  Suspicions are left out: what is asserted of the host matters here only where it ends a call. So
  are the shim of the cloud's own network, which is nil in the generic provider, and the attributes
  of links, which are for display. Where the source takes the first entry of a map it is the first
  of the cache here.
-/

import EliteTelemetry.Lib.WorkList
import EliteTelemetry.Netstack.Routes
import EliteTelemetry.Skoop.Service

namespace EliteTelemetry.Skoop

/-! ## Nodes and node ports of the cache -/

namespace IPCache

open EliteTelemetry.Lib.FirstWins

def getNodeFromIP (c : IPCache) (ip : String) : Option ClusterNode := c.nodeCache.lookup ip

def getNodeFromName (c : IPCache) (name : String) : Option ClusterNode :=
  (c.nodeCache.entries.find? fun e => e.2.name = name).map (·.2)

/-- `GetServiceFromNodePort`. A port that is no node port has the number 0. -/
def getServiceFromNodePort (c : IPCache) (nodePort : UInt16) (protocol : Protocol) : Option Service :=
  (c.serviceCache.entries.find? fun e =>
    e.2.ports.any fun port => portOf port.nodePort = nodePort ∧ sameProtocol port.protocol protocol).map (·.2)

/-- A pod of a cache that was built in one try has a network of its own. -/
theorem hostNetwork_of_cached {l : Listing} {ip : String} {pod : ClusterPod}
    (h : (new.buildClusterIPCache l).2.getPodFromIP ip = some pod) : pod.hostNetwork = false := by
  have hfirst : first (filledPods l) ip = some pod := by
    unfold getPodFromIP at h
    rw [build_eq rfl, lookup_fill] at h
    exact h
  obtain ⟨⟨ip', pod'⟩, hfind, rfl⟩ := Option.map_eq_some_iff.mp hfirst
  have hmem := List.mem_of_find?_eq_some hfind
  unfold filledPods podOwners at hmem
  split at hmem
  · obtain ⟨pod, -, hpod⟩ := List.mem_flatMap.mp hmem
    split at hpod
    · cases hpod
    · rename_i hskip
      obtain ⟨_, -, heq⟩ := List.mem_map.mp hpod
      rw [← (Prod.mk.inj heq).2]
      simpa using fun hhost => hskip (.inl hhost)
  · cases hmem

end IPCache

namespace Flannel

open EliteTelemetry.Lib.AddrText EliteTelemetry.Lib.NetAddr EliteTelemetry.Netstack
open EliteTelemetry.Lib.Cidr (IPNet parseCIDR short cidrMask)
open EliteTelemetry.Lib.GoText (equalFold)
open EliteTelemetry.Lib.WorkList (drain)
open EliteTelemetry.Netstack.Routing (SimulateRouter SrcErr)

/-! ## Packets and links -/

inductive Frame where
  | plain (pkt : Packet)
  | encap (outer : Packet) (inner : Frame)
  deriving DecidableEq, Repr

namespace Frame

def head : Frame → Packet
  | .plain pkt => pkt
  | .encap outer _ => outer

def setSrc : Frame → IP → Frame
  | .plain pkt, src => .plain { pkt with src := src }
  | .encap outer inner, src => .encap { outer with src := src } inner

end Frame

inductive LinkType where
  | infra
  | veth
  deriving DecidableEq, Repr

inductive NetNodeType where
  | pod
  | node
  | external
  deriving DecidableEq, Repr

structure Hop where
  type : NetNodeType
  id : String
  deriving DecidableEq, Repr

structure Transmission where
  nextHop : Hop
  type : LinkType
  packet : Frame
  deriving DecidableEq, Repr

inductive Err where
  | nilPointer
  | failed (message : String)
  /-- `CannotBuildTransmissionError`. -/
  | cannotBuild (message : String)
  /-- The same, with the message `no route to host` and the error of the router. -/
  | cannotRoute (err : SrcErr)
  | route (err : RouteErr)
  | src (err : SrcErr)
  deriving DecidableEq, Repr

def ipOf (s : String) : IP := (parseIP s.toList).getD []

def ipEqual (a b : IP) : Bool := short a = short b

/-- `strings.EqualFold` with an ASCII text without `k`: the long s is the only other letter that folds
    to one of it. -/
def foldsTo (s t : String) : Bool := equalFold (String.ofList (s.toList.map fun c => if c = 'ſ' then 's' else c)) t

/-! ## The network -/

inductive FlannelBackendType where
  | hostGW
  | vxlan
  | alloc
  deriving DecidableEq, Repr

structure FlannelHostOptions where
  clusterCIDR : IPNet
  /-- `""` where it is to be looked up. -/
  iface : String
  cniMode : FlannelBackendType
  ipMasq : Bool

/-- What is read of a `v1.Node` beside its addresses: `Spec.PodCIDR` and two annotations of flannel. An
    address that is not set is `""`. -/
structure NodeSpec where
  podCIDR : String
  publicIP : String
  backendType : Option String

structure Interface where
  name : String
  addrs : List IPNet

structure NodeInfo where
  router : SimulateRouter
  interfaces : List Interface
  /-- What `LookupDefaultIfaceName` finds. -/
  defaultIface : String

structure Network where
  ipCache : IPCache
  nodeName : ClusterPod → String
  nodeSpec : ClusterNode → NodeSpec
  /-- What is collected of a node, and of the network namespace of a pod. -/
  collectNode : String → Except String NodeInfo
  collectPod : ClusterPod → Except String SimulateRouter
  serviceProcessor : KubeProxyServiceProcessor
  options : FlannelHostOptions
  /-- Pods with the network of their host are not put into the cache. -/
  cached : ∀ ip pod, ipCache.getPodFromIP ip = some pod → pod.hostNetwork = false

structure FlannelHost where
  nodeName : String
  router : SimulateRouter
  podCIDR : IPNet
  localVTEP : IP
  routes : List String

def getDefaultIPv4 (iface : Interface) : IPNet :=
  match iface.addrs.findSome? fun addr => (IP.to4 addr.ip).map fun ip => (⟨ip, addr.mask⟩ : IPNet) with
  | some net => net
  | none => ⟨[169, 254, 0, 1], cidrMask 4 32⟩

def cidrErr (s : String) : Err := .failed ("invalid CIDR address: " ++ s)

structure FlannelNodeInfo where
  backendType : FlannelBackendType
  nodeIP : IP
  deriving DecidableEq, Repr

def assertRoute (router : SimulateRouter) (pkt : Packet) : Except Err Unit :=
  match router.route pkt "" "" with
  | .error .noRouteToHost => .ok ()
  | .error err => .error (.route err)
  | .ok _ => .ok ()

def ack (pkt : Packet) : Packet :=
  { src := pkt.dst, sport := pkt.dport, dst := pkt.src, dport := pkt.sport, protocol := pkt.protocol, mark := 0 }

namespace Network

variable (net : Network)

def hostIface (info : NodeInfo) : String := if net.options.iface = "" then info.defaultIface else net.options.iface

def newFlannelHost (name : String) (info : NodeInfo) : Except Err FlannelHost :=
  match net.ipCache.getNodeFromName name with
  | none => .error .nilPointer
  | some node =>
    match parseCIDR (net.nodeSpec node).podCIDR.toList with
    | none => .error (cidrErr (net.nodeSpec node).podCIDR)
    | some podCIDR =>
      if net.hostIface info = "" then
        .error (.failed
          "cannot lookup default host interface, please manually specify it via --flannel-host-interface")
      else
        match info.interfaces.find? (·.name = net.hostIface info) with
        | none => .error (.failed ("can not find interface named " ++ net.hostIface info))
        | some dev =>
          .ok { nodeName := name, router := info.router, podCIDR := podCIDR
                localVTEP := ipOf (net.nodeSpec node).publicIP
                routes := [ipNetString podCIDR, ipNetString (getDefaultIPv4 dev)] }

/-! ### Routes of a host -/

def getDstNodeInfo (nodeName : String) : Except Err FlannelNodeInfo :=
  match net.ipCache.getNodeFromName nodeName with
  | none => .error (.failed ("node " ++ nodeName ++ " not found in k8s nodes"))
  | some node =>
    let spec := net.nodeSpec node
    match parseCIDR spec.podCIDR.toList with
    | none => .error (cidrErr spec.podCIDR)
    | some _ =>
      if spec.publicIP = "" then .error (.failed ("node " ++ nodeName ++ " does not have flannel public-ip annotation"))
      else
        match spec.backendType with
        | none => .error (.failed ("node " ++ nodeName ++ " does not have flannel backend-type annotation"))
        | some annotation =>
          .ok { backendType :=
                  if foldsTo annotation "vxlan" then .vxlan
                  else if foldsTo annotation "host-gw" then .hostGW
                  else net.options.cniMode
                nodeIP := ipOf spec.publicIP }

def getDstInfo (pkt : Packet) : Except Err (Option FlannelNodeInfo) :=
  match net.ipCache.getPodFromIP (ipString pkt.dst) with
  | none => .ok none
  | some pod => (net.getDstNodeInfo (net.nodeName pod)).map some

variable (h : FlannelHost)

/-- `route.Assert`. A key that is no block gives a nil block. -/
def parentAssert (pkt : Packet) : Except Err Unit :=
  match h.routes.mapM fun key => parseCIDR key.toList with
  | none => .error .nilPointer
  | some cidrs => if cidrs.any (·.covers pkt.dst) then assertRoute h.router pkt else .ok ()

def routeAssert (pkt : Packet) : Except Err Unit :=
  if h.podCIDR.covers pkt.dst ∨ net.options.clusterCIDR.covers pkt.dst = false then parentAssert h pkt
  else
    match net.getDstInfo pkt with
    | .error err => .error err
    | .ok none => .ok ()
    | .ok (some _) => assertRoute h.router pkt

def checkRoute (pkt : Packet) : Except Err Unit := do
  net.routeAssert h pkt
  net.routeAssert h (ack pkt)

/-- `AssertBackend`, as far as it fails: `AssertVxlanVtep` probes an interface that was found. -/
def assertBackend (frame : Frame) : Except Err Unit := (net.getDstInfo frame.head).map fun _ => ()

def encap (frame : Frame) : Except Err Frame :=
  (net.getDstInfo frame.head).map fun
    | none => frame
    | some info =>
      if info.backendType = .vxlan then
        .encap { src := h.localVTEP, sport := frame.head.sport, dst := info.nodeIP, dport := 8472, protocol := .udp,
                 mark := 0 } frame
      else frame

def decap : Frame → Except Err Frame
  | .plain pkt => .ok (.plain pkt)
  | .encap outer inner =>
    if ipEqual outer.dst h.localVTEP then .ok inner
    else .error (.failed ("encap dst " ++ ipString outer.dst ++ " not match local vtep " ++ ipString h.localVTEP))

/-! ### Masquerading -/

def doMasquerade (frame : Frame) : Except Err Frame :=
  match h.router.routeSrc frame.head "" "" with
  | .error err => .error (.src err)
  | .ok (ip, _) => .ok (frame.setSrc (ipOf ip))

def multicast : IPNet := ⟨[224, 0, 0, 0], cidrMask 4 4⟩

def masquerade (frame : Frame) : Except Err Frame :=
  let fromCluster := net.options.clusterCIDR.covers frame.head.src
  let toCluster := net.options.clusterCIDR.covers frame.head.dst
  if !net.options.ipMasq then .ok frame
  else if fromCluster && toCluster then .ok frame
  else if fromCluster && !multicast.covers frame.head.dst then doMasquerade h frame
  else if !fromCluster && h.podCIDR.covers frame.head.dst then .ok frame
  else if !fromCluster && toCluster then doMasquerade h frame
  else .ok frame

/-! ### Transmissions -/

def transmissionToNode (frame : Frame) (node : Option ClusterNode) : Except Err Transmission := do
  let pktOut ← net.masquerade h frame
  net.checkRoute h frame.head
  net.assertBackend pktOut
  let out ← net.encap h pktOut
  match node with
  | none => .error .nilPointer
  | some node => .ok { nextHop := ⟨.node, node.name⟩, type := .infra, packet := out }

def transmissionToPod (frame : Frame) (pod : ClusterPod) : Except Err Transmission :=
  if pod.hostNetwork = false ∧ net.nodeName pod = h.nodeName then do
    net.checkRoute h frame.head
    let pktOut ← net.masquerade h frame
    .ok { nextHop := ⟨.pod, ipString frame.head.dst⟩, type := .veth, packet := pktOut }
  else net.transmissionToNode h frame (net.ipCache.getNodeFromName (net.nodeName pod))

def transmissionToExternal (frame : Frame) : Except Err Transmission := do
  let pktOut ← net.masquerade h frame
  net.checkRoute h pktOut.head
  .ok { nextHop := ⟨.external, ipString pktOut.head.dst⟩, type := .infra, packet := pktOut }

def forwardTo (frame : Frame) (transmit : Frame → Except Err Transmission) : Except Err (List Transmission) := do
  let pkt ← decap h frame
  let transmission ← transmit pkt
  .ok [transmission]

/-! ### Services -/

def backendPacket (pkt : Packet) (backend : Backend) : Packet :=
  { src := pkt.src, sport := pkt.sport, dst := ipOf backend.ip, dport := backend.port, protocol := pkt.protocol
    mark := 0 }

def backendFrame (pkt : Packet) (backend : Backend) : Except Err Frame :=
  if backend.masquerade then doMasquerade h (.plain (backendPacket pkt backend))
  else .ok (.plain (backendPacket pkt backend))

def toBackend (pkt : Packet) (backend : Backend) : Except Err Transmission := do
  let pktOut ← backendFrame h pkt backend
  match net.ipCache.getIPType backend.ip with
  | .pod =>
    match net.ipCache.getPodFromIP backend.ip with
    | none => .error (.failed ("cannot find pod from ip " ++ backend.ip))
    | some pod => net.transmissionToPod h pktOut pod
  | .node =>
    match net.ipCache.getNodeFromIP backend.ip with
    | none => .error (.failed ("cannot find node from ip " ++ backend.ip))
    | some node => net.transmissionToNode h pktOut (some node)
  | _ => net.transmissionToExternal h pktOut

def toService (pkt : Packet) (svc : Service) : Except Err (List Transmission) :=
  let backends := net.serviceProcessor.process pkt svc (net.ipCache.getNodeFromName h.nodeName)
  if backends = [] then
    .error (.cannotBuild ("service " ++ svc.namespaceName ++ "/" ++ svc.name ++ " has no valid endpoint"))
  else backends.mapM (net.toBackend h pkt)

/-! ### What a host does with a packet -/

def serve : Frame → Except Err (List Transmission)
  | .encap outer inner => do
    let innerPacket ← decap h (.encap outer inner)
    match net.ipCache.getPodFromIP (ipString innerPacket.head.dst) with
    | none => .error (.failed ("inner packet pod " ++ ipString innerPacket.head.dst ++ " not found"))
    | some pod => forwardTo h (.encap outer inner) fun pkt => net.transmissionToPod h pkt pod
  | .plain pkt => do
    net.routeAssert h (ack pkt)
    .ok []

def hostReceive (frame : Frame) : Except Err (List Transmission) :=
  let pkt := frame.head
  let dstIP := ipString pkt.dst
  match net.ipCache.getIPType dstIP with
  | .pod =>
    match net.ipCache.getPodFromIP dstIP with
    | none => .error .nilPointer
    | some pod => forwardTo h frame fun pkt => net.transmissionToPod h pkt pod
  | .node =>
    match net.ipCache.getNodeFromIP dstIP with
    | none => .error .nilPointer
    | some host =>
      if host.name = h.nodeName then
        match net.ipCache.getServiceFromNodePort pkt.dport pkt.protocol with
        | some svc => net.toService h pkt svc
        | none => net.serve h frame
      else forwardTo h frame fun pkt => net.transmissionToNode h pkt (some host)
  | .service | .loadbalancer =>
    match net.ipCache.getServiceFromIP dstIP with
    | none => .error .nilPointer
    | some svc => net.toService h pkt svc
  | .external => forwardTo h frame (net.transmissionToExternal h)

def podReceive (router : SimulateRouter) (t : Transmission) : Except Err (List Transmission) :=
  if t.type ≠ .veth then .error (.failed "unexpect upstream type to receive, expect veth, but: infra")
  else do
    assertRoute router (ack t.packet.head)
    .ok []

/-! ### The network -/

def createNode (name : String) : Except Err FlannelHost :=
  match net.collectNode name with
  | .error err => .error (.failed ("error run collector for node: " ++ err))
  | .ok info =>
    match net.newFlannelHost name info with
    | .error (.failed message) => .error (.failed ("error create node: " ++ message))
    | r => r

def receive (t : Transmission) : Except Err (List Transmission) :=
  match t.nextHop.type with
  | .pod =>
    match net.ipCache.getPodFromIP t.nextHop.id with
    | none => .error (.failed ("k8s pod not found from ip " ++ t.nextHop.id))
    | some pod =>
      match net.collectPod pod with
      | .error err => .error (.failed ("error run collector for pod: " ++ err))
      | .ok router => podReceive router t
  | .node => do
    let h ← net.createNode t.nextHop.id
    net.hostReceive h t.packet
  -- `GenericNetNode.Receive`
  | .external => .ok []

/-! ### The source -/

def newPacket (dst : Endpoint) (protocol : Protocol) : Packet :=
  { src := [], sport := 0, dst := ipOf dst.ip, dport := dst.port, protocol := protocol, mark := 0 }

def podSend (pod : ClusterPod) (dst : Endpoint) (protocol : Protocol) : Except Err (List Transmission) :=
  match net.collectPod pod with
  | .error err => .error (.failed ("error run collector for pod: " ++ err))
  | .ok router =>
    match router.routeSrc (newPacket dst protocol) "" "" with
    | .error err => .error (.cannotRoute err)
    | .ok (addr, _) => do
      let pkt := { newPacket dst protocol with src := ipOf addr }
      assertRoute router pkt
      .ok [{ nextHop := ⟨.node, net.nodeName pod⟩, type := .veth, packet := .plain pkt }]

def sendTo (dst : Endpoint) (protocol : Protocol) (transmit : Frame → Except Err Transmission) :
    Except Err (List Transmission) :=
  match h.router.routeSrc (newPacket dst protocol) "" "" with
  | .error err => .error (.src err)
  | .ok (addr, _) => (transmit (.plain { newPacket dst protocol with src := ipOf addr })).map fun t => [t]

def sendToService (dst : Endpoint) (protocol : Protocol) (svc : Service) : Except Err (List Transmission) :=
  match h.router.routeSrc (newPacket dst protocol) "" "" with
  | .error (.route .noRouteToHost) => .error (.cannotRoute (.route .noRouteToHost))
  | .error err => .error (.src err)
  | .ok (addr, _) => net.toService h { newPacket dst protocol with src := ipOf addr } svc

def hostSend (dst : Endpoint) (protocol : Protocol) : Except Err (List Transmission) :=
  match net.ipCache.getIPType dst.ip with
  | .pod =>
    match net.ipCache.getPodFromIP dst.ip with
    | none => .error .nilPointer
    | some pod => sendTo h dst protocol fun pkt => net.transmissionToPod h pkt pod
  | .node =>
    match net.ipCache.getNodeFromIP dst.ip with
    | none => .error .nilPointer
    | some host => sendTo h dst protocol fun pkt => net.transmissionToNode h pkt (some host)
  | .service | .loadbalancer =>
    match net.ipCache.getServiceFromIP dst.ip with
    | none => .error .nilPointer
    | some svc => net.sendToService h dst protocol svc
  | .external => sendTo h dst protocol (net.transmissionToExternal h)

def send (src dst : Endpoint) (protocol : Protocol) : Except Err (List Transmission) :=
  match net.ipCache.getIPType src.ip with
  | .pod =>
    match net.ipCache.getPodFromIP src.ip with
    | none => .error (.failed ("k8s pod not found from ip " ++ src.ip))
    | some pod => net.podSend pod dst protocol
  | .node =>
    match net.ipCache.getNodeFromIP src.ip with
    | none => .error .nilPointer
    | some node => do
      let h ← net.createNode node.name
      net.hostSend h dst protocol
  -- `GenericNetNode.Send`
  | _ => .error (.cannotBuild "non pod/node address as source is not supported")

/-- `Diagnose`, with a bound on the links: the links in the order they are received. -/
def diagnose (fuel : Nat) (src dst : Endpoint) (protocol : Protocol) : Option (Except Err (List Transmission)) :=
  match net.send src dst protocol with
  | .error err => some (.error err)
  | .ok [] => some (.error (.failed "unexpected zero size transmission output"))
  | .ok (t :: ts) => drain net.receive fuel (t :: ts)

end Network

end Flannel

end EliteTelemetry.Skoop
