/-
  EliteTelemetry.Skoop.FlannelPaths — where the packet of a diagnosis goes in a flannel network, and
  whether the diagnosis ends.

  `Tunnels` is what is asked of the cluster: that the public address flannel notes for a node is its
  own, that nobody's node port is the one of vxlan, and that endpoints have their addresses as Go
  writes them. Then
  - a packet from a pod to a pod is received by at most three hops, whatever the backends are, and
    comes out of its tunnel as it went in (`pod_to_pod`);
  - a diagnosis goes on for ever exactly if no `Receive` fails and there is an endless chain of
    node ports, each of which has a backend at the next (`never_ends_iff`).

  A service whose target port has a name can be such a chain by itself, with endpoints that have the
  network of their hosts: the port counts as 0, and so does the node port of a service without one
  (`a_named_port_never_ends`).
-/

import EliteTelemetry.Skoop.Flannel
import Mathlib.Order.WellFounded

namespace EliteTelemetry.Skoop.Flannel

open EliteTelemetry.Lib.AddrText EliteTelemetry.Lib.Fallible EliteTelemetry.Lib.WorkList
open EliteTelemetry.Lib.Cidr (short to4)
open EliteTelemetry.Netstack.Routing (SimulateRouter)

/-! ## Addresses and frames -/

theorem ipString_short (ip : IP) : ipString (short ip) = ipString ip := by
  unfold short
  cases h : to4 ip with
  | none => rw [Option.getD_none]
  | some ip4 => rw [Option.getD_some, (ipString_eq_iff (length_to4 h)).mpr h]

theorem ipString_eq_of_ipEqual {a b : IP} (h : ipEqual a b = true) : ipString a = ipString b := by
  rw [← ipString_short a, ← ipString_short b, of_decide_eq_true h]

namespace Frame

@[simp] theorem head_plain (pkt : Packet) : (plain pkt).head = pkt := rfl

@[simp] theorem head_encap (outer : Packet) (inner : Frame) : (encap outer inner).head = outer := rfl

@[simp] theorem head_setSrc (f : Frame) (src : IP) : (f.setSrc src).head = { f.head with src := src } := by
  cases f <;> rfl

@[simp] theorem setSrc_src (f : Frame) : f.setSrc f.head.src = f := by
  cases f <;> rfl

end Frame

namespace Network

variable {net : Network} {h : FlannelHost} {f f' : Frame} {t u : Transmission} {pod : ClusterPod}
  {pkt : Packet} {next : List Transmission} {name : String}

/-! ## What a host makes of a packet -/

theorem setSrc_of_doMasquerade (hm : doMasquerade h f = .ok f') : ∃ src, f' = f.setSrc src := by
  unfold doMasquerade at hm
  split at hm
  · cases hm
  · exact ⟨_, (Except.ok.inj hm).symm⟩

theorem masquerade_cases (net : Network) (h : FlannelHost) (f : Frame) :
    net.masquerade h f = .ok f ∨ net.masquerade h f = doMasquerade h f ∧
      ¬(net.options.clusterCIDR.covers f.head.src ∧ net.options.clusterCIDR.covers f.head.dst) := by
  by_cases hin : net.options.clusterCIDR.covers f.head.src ∧ net.options.clusterCIDR.covers f.head.dst
  · exact .inl (by simp [masquerade, hin.1, hin.2])
  · simp only [masquerade]
    split_ifs
    all_goals first | exact .inl rfl | exact .inr ⟨rfl, hin⟩

/-- Masquerading changes the source only, and not that of a packet within the cluster. -/
theorem setSrc_of_masquerade (hm : net.masquerade h f = .ok f') :
    ∃ src, f' = f.setSrc src ∧ (net.options.clusterCIDR.covers f.head.src → net.options.clusterCIDR.covers f.head.dst →
      src = f.head.src) := by
  rcases net.masquerade_cases h f with hsame | ⟨hdo, hin⟩
  · obtain rfl := Except.ok.inj (hsame.symm.trans hm)
    exact ⟨f.head.src, f.setSrc_src.symm, fun _ _ => rfl⟩
  · obtain ⟨src, hsrc⟩ := setSrc_of_doMasquerade (hdo.symm.trans hm)
    exact ⟨src, hsrc, fun hs hd => absurd ⟨hs, hd⟩ hin⟩

structure OuterTo (net : Network) (name : String) (outer : Packet) : Prop where
  node : ∃ info, net.getDstNodeInfo name = .ok info ∧ outer.dst = info.nodeIP
  dport : outer.dport = 8472
  protocol : outer.protocol = .udp

def Carries (net : Network) (name : String) (f g : Frame) : Prop :=
  g = f ∨ ∃ outer, g = .encap outer f ∧ net.OuterTo name outer

theorem encap_of_no_pod (hpod : net.ipCache.getPodFromIP (ipString f.head.dst) = none) : net.encap h f = .ok f := by
  simp [encap, getDstInfo, hpod, Except.map]

theorem carries_of_encap (hpod : net.ipCache.getPodFromIP (ipString f.head.dst) = some pod)
    (he : net.encap h f = .ok f') : net.Carries (net.nodeName pod) f f' := by
  unfold encap getDstInfo at he
  rw [hpod] at he
  cases hinfo : net.getDstNodeInfo (net.nodeName pod) with
  | error err => simp [hinfo, Except.map] at he
  | ok info =>
    simp only [hinfo, Except.map, Except.ok.injEq] at he
    split at he
    · exact .inr ⟨_, he.symm, ⟨info, hinfo, rfl⟩, rfl, rfl⟩
    · exact .inl he.symm

theorem transmissionToNode_ok {node : Option ClusterNode} (ht : net.transmissionToNode h f node = .ok t) :
    ∃ n f', node = some n ∧ net.masquerade h f = .ok f' ∧ net.encap h f' = .ok t.packet ∧
      t.nextHop = ⟨.node, n.name⟩ := by
  unfold transmissionToNode at ht
  obtain ⟨f', hf', ht⟩ := bind_ok ht
  obtain ⟨-, -, ht⟩ := bind_ok ht
  obtain ⟨-, -, ht⟩ := bind_ok ht
  obtain ⟨out, hout, ht⟩ := bind_ok ht
  cases node with
  | none => cases ht
  | some n =>
    cases ht
    exact ⟨n, f', rfl, hf', hout, rfl⟩

/-- A packet goes to a pod of the host itself, or to the pod's node. -/
theorem transmissionToPod_ok (hpod : net.ipCache.getPodFromIP (ipString f.head.dst) = some pod)
    (ht : net.transmissionToPod h f pod = .ok t) :
    ∃ f', net.masquerade h f = .ok f' ∧
      if net.nodeName pod = h.nodeName then t = ⟨⟨.pod, ipString f.head.dst⟩, .veth, f'⟩
      else t.nextHop = ⟨.node, net.nodeName pod⟩ ∧ net.Carries (net.nodeName pod) f' t.packet := by
  unfold transmissionToPod at ht
  by_cases hname : net.nodeName pod = h.nodeName
  · rw [if_pos ⟨net.cached _ _ hpod, hname⟩] at ht
    obtain ⟨-, -, ht⟩ := bind_ok ht
    obtain ⟨f', hf', ht⟩ := bind_ok ht
    exact ⟨f', hf', by rw [if_pos hname]; exact (Except.ok.inj ht).symm⟩
  · rw [if_neg fun hboth => hname hboth.2] at ht
    obtain ⟨n, f', hnode, hf', hencap, hhop⟩ := transmissionToNode_ok ht
    refine ⟨f', hf', ?_⟩
    rw [if_neg hname]
    have hnname : n.name = net.nodeName pod := by
      obtain ⟨e, he, rfl⟩ := Option.map_eq_some_iff.mp hnode
      simpa using List.find?_some he
    obtain ⟨src, rfl, -⟩ := setSrc_of_masquerade hf'
    exact ⟨by rw [hhop, hnname], carries_of_encap (by simpa using hpod) hencap⟩

theorem transmissionToExternal_ok (ht : net.transmissionToExternal h f = .ok t) : t.nextHop.type = .external := by
  unfold transmissionToExternal at ht
  obtain ⟨_, -, ht⟩ := bind_ok ht
  obtain ⟨-, -, ht⟩ := bind_ok ht
  cases ht
  rfl

theorem forwardTo_ok {transmit : Frame → Except Err Transmission}
    (hf : forwardTo h f transmit = .ok next) : ∃ f' t, decap h f = .ok f' ∧ transmit f' = .ok t ∧ next = [t] := by
  unfold forwardTo at hf
  obtain ⟨f', hf', hf⟩ := bind_ok hf
  obtain ⟨t, ht, hf⟩ := bind_ok hf
  exact ⟨f', t, hf', ht, (Except.ok.inj hf).symm⟩

/-! ## Clusters whose tunnels end at their nodes -/

def Owned (net : Network) (ip name : String) : Prop :=
  net.ipCache.getPodFromIP ip = none ∧ (net.ipCache.getNodeFromIP ip).map (·.name) = some name

instance (net : Network) (ip name : String) : Decidable (net.Owned ip name) :=
  inferInstanceAs (Decidable (_ ∧ _))

structure Tunnels (net : Network) : Prop where
  /-- The public address that is noted for a node is its own. -/
  own : ∀ name node, net.ipCache.getNodeFromName name = some node →
    net.Owned (ipString (ipOf (net.nodeSpec node).publicIP)) name
  noNodePort : net.ipCache.getServiceFromNodePort 8472 .udp = none
  /-- The addresses of endpoints are written as Go writes them. -/
  canonical : ∀ pkt svc node, ∀ b ∈ net.serviceProcessor.process pkt svc node, ipString (ipOf b.ip) = b.ip

theorem getIPType_of_pod {ip : String} (hpod : net.ipCache.getPodFromIP ip = some pod) :
    net.ipCache.getIPType ip = .pod :=
  if_pos (AList.lookup_isSome.mp (by rw [show net.ipCache.podCache.lookup ip = some pod from hpod]; rfl))

theorem Owned.node {ip name : String} (ho : net.Owned ip name) :
    ∃ node, net.ipCache.getNodeFromIP ip = some node ∧ node.name = name :=
  Option.map_eq_some_iff.mp ho.2

theorem Owned.getIPType {ip name : String} (ho : net.Owned ip name) : net.ipCache.getIPType ip = .node := by
  obtain ⟨node, hnode, -⟩ := ho.node
  have hin : ip ∈ net.ipCache.nodeCache :=
    AList.lookup_isSome.mp (by rw [show net.ipCache.nodeCache.lookup ip = some node from hnode]; rfl)
  unfold IPCache.getIPType
  rw [if_neg (AList.lookup_eq_none.mp ho.1), if_pos hin]

theorem owned_of_node {ip : String} {node : ClusterNode} (htype : net.ipCache.getIPType ip = .node)
    (hnode : net.ipCache.getNodeFromIP ip = some node) : net.Owned ip node.name := by
  refine ⟨?_, by rw [hnode]; rfl⟩
  cases hpod : net.ipCache.getPodFromIP ip with
  | none => rfl
  | some pod =>
    rw [getIPType_of_pod hpod] at htype
    cases htype

theorem Owned.name_eq {ip name name' : String} (ho : net.Owned ip name) (ho' : net.Owned ip name') : name = name' :=
  Option.some.inj (ho.2.symm.trans ho'.2)

theorem createNode_ok (hc : net.createNode name = .ok h) :
    h.nodeName = name ∧ ∃ node, net.ipCache.getNodeFromName name = some node ∧
      h.localVTEP = ipOf (net.nodeSpec node).publicIP := by
  have hnew : ∃ info, net.newFlannelHost name info = .ok h := by
    unfold createNode at hc
    split at hc
    · cases hc
    · split at hc
      · cases hc
      · exact ⟨_, hc⟩
  obtain ⟨info, hnew⟩ := hnew
  unfold newFlannelHost at hnew
  split at hnew
  · cases hnew
  · rename_i node hnode
    split at hnew
    · cases hnew
    · split at hnew
      · cases hnew
      · split at hnew
        · cases hnew
        · cases hnew
          exact ⟨rfl, node, hnode, rfl⟩

theorem receive_node (hhop : t.nextHop = ⟨.node, name⟩)
    (hr : net.receive t = .ok next) : ∃ h, net.createNode name = .ok h ∧ net.hostReceive h t.packet = .ok next := by
  unfold receive at hr
  simp only [hhop] at hr
  exact bind_ok hr

namespace Tunnels

variable (hnet : net.Tunnels)

include hnet

theorem owned_of_decap (hc : net.createNode name = .ok h) {outer : Packet} {inner : Frame}
    (hd : decap h (.encap outer inner) = .ok f') : f' = inner ∧ net.Owned (ipString outer.dst) name := by
  obtain ⟨-, node, hnode, hvtep⟩ := createNode_ok hc
  simp only [decap] at hd
  split at hd
  · rename_i heq
    rw [ipString_eq_of_ipEqual heq, hvtep]
    exact ⟨(Except.ok.inj hd).symm, hnet.own name node hnode⟩
  · cases hd

theorem plain_of_decap (hc : net.createNode name = .ok h) (hd : decap h f = .ok f')
    (hother : ¬net.Owned (ipString f.head.dst) name) : ∃ pkt, f = .plain pkt ∧ f' = .plain pkt := by
  cases f with
  | plain pkt => exact ⟨pkt, rfl, (Except.ok.inj hd).symm⟩
  | encap outer inner => exact absurd (hnet.owned_of_decap hc hd).2 hother

theorem owned_of_outer {outer : Packet} (ho : net.OuterTo name outer) :
    net.Owned (ipString outer.dst) name := by
  obtain ⟨info, hinfo, hdst⟩ := ho.node
  unfold getDstNodeInfo at hinfo
  split at hinfo
  · cases hinfo
  · rename_i node hnode
    simp only at hinfo
    split at hinfo
    · cases hinfo
    · split at hinfo
      · cases hinfo
      · split at hinfo
        · cases hinfo
        · obtain rfl := Except.ok.inj hinfo
          rw [hdst]
          exact hnet.own name node hnode

/-- A host that receives a packet for a pod, in a tunnel to it or not, transmits that packet to the
    pod. -/
theorem receive_carrying (hhop : t.nextHop = ⟨.node, name⟩) (hcarries : net.Carries name f t.packet)
    (hpod : net.ipCache.getPodFromIP (ipString f.head.dst) = some pod)
    (hr : net.receive t = .ok next) :
    ∃ h u, net.createNode name = .ok h ∧ net.transmissionToPod h f pod = .ok u ∧ next = [u] := by
  obtain ⟨h, hc, hr⟩ := receive_node hhop hr
  refine ⟨h, ?_⟩
  rcases hcarries with heq | ⟨outer, heq, houter⟩
  · rw [heq] at hr
    simp only [hostReceive, getIPType_of_pod hpod, hpod] at hr
    obtain ⟨f', u, hd, hu, rfl⟩ := forwardTo_ok hr
    obtain ⟨pkt, hf, hf'⟩ := hnet.plain_of_decap hc hd fun ho => by simp [ho.1] at hpod
    exact ⟨u, hc, by rw [hf, ← hf']; exact hu, rfl⟩
  · rw [heq] at hr
    have howned := hnet.owned_of_outer houter
    obtain ⟨node, hnode, hname⟩ := howned.node
    have hself : node.name = h.nodeName := by rw [hname, (createNode_ok hc).1]
    simp only [hostReceive, Frame.head_encap, howned.getIPType, hnode, hself, if_true, houter.dport, houter.protocol,
      hnet.noNodePort, serve] at hr
    obtain ⟨f', hd, hr⟩ := bind_ok hr
    obtain ⟨rfl, -⟩ := hnet.owned_of_decap hc hd
    rw [hpod] at hr
    obtain ⟨f', u, hd', hu, rfl⟩ := forwardTo_ok hr
    obtain ⟨rfl, -⟩ := hnet.owned_of_decap hc hd'
    exact ⟨u, hc, hu, rfl⟩

end Tunnels

/-! ## A packet from pod to pod -/

theorem receive_pod {id : String} (hhop : t.nextHop = ⟨.pod, id⟩)
    (hr : net.receive t = .ok next) : next = [] := by
  unfold receive at hr
  simp only [hhop] at hr
  split at hr
  · cases hr
  · split at hr
    · cases hr
    · unfold podReceive at hr
      split at hr
      · cases hr
      · obtain ⟨-, -, hr⟩ := bind_ok hr
        exact (Except.ok.inj hr).symm

theorem receive_of_not_node (hhop : t.nextHop.type ≠ .node)
    (hr : net.receive t = .ok next) : next = [] := by
  obtain ⟨⟨type, id⟩, link, packet⟩ := t
  cases type with
  | pod => exact receive_pod rfl hr
  | node => exact absurd rfl hhop
  | external => exact (Except.ok.inj hr).symm

/-- The packet with the source that masquerading gives it, which is its own within the cluster. -/
def Delivered (net : Network) (pkt : Packet) (f : Frame) : Prop :=
  ∃ src, f = .plain { pkt with src := src } ∧
    (net.options.clusterCIDR.covers pkt.src → net.options.clusterCIDR.covers pkt.dst → src = pkt.src)

theorem Delivered.masquerade (hd : net.Delivered pkt f) (hm : net.masquerade h f = .ok f') :
    net.Delivered pkt f' := by
  obtain ⟨src, rfl, hsrc⟩ := hd
  obtain ⟨src', rfl, hsrc'⟩ := setSrc_of_masquerade hm
  refine ⟨src', rfl, fun hs hdst => ?_⟩
  have heq := hsrc hs hdst
  exact (hsrc' (by simpa [heq] using hs) (by simpa using hdst)).trans heq

theorem Delivered.getPodFromIP (hd : net.Delivered pkt f)
    (hpod : net.ipCache.getPodFromIP (ipString pkt.dst) = some pod) :
    net.ipCache.getPodFromIP (ipString f.head.dst) = some pod := by
  obtain ⟨src, rfl, -⟩ := hd
  exact hpod

/-- The hops of a packet from a node to a pod. -/
def hopsTo (net : Network) (name : String) (pkt : Packet) (pod : ClusterPod) : List Hop :=
  (if net.nodeName pod = name then [⟨.node, name⟩] else [⟨.node, name⟩, ⟨.node, net.nodeName pod⟩]) ++
    [⟨.pod, ipString pkt.dst⟩]

/-- The pod's own node hands the packet to the pod, which keeps it. -/
theorem drain_at_node (hnet : net.Tunnels) (hd : net.Delivered pkt f)
    (hpod : net.ipCache.getPodFromIP (ipString pkt.dst) = some pod) (hhop : t.nextHop = ⟨.node, net.nodeName pod⟩)
    (hcarries : net.Carries (net.nodeName pod) f t.packet) :
    ∃ r, drain net.receive 2 [t] = some r ∧ ∀ items, r = .ok items →
      ∃ u, items = [t, u] ∧ u.nextHop = ⟨.pod, ipString pkt.dst⟩ ∧ net.Delivered pkt u.packet := by
  cases hr : net.receive t with
  | error err => exact ⟨.error err, by simp [drain, hr], fun items heq => (by cases heq)⟩
  | ok next =>
    obtain ⟨h, u, hc, hu, rfl⟩ := hnet.receive_carrying hhop hcarries (hd.getPodFromIP hpod) hr
    obtain ⟨f', hm, hu⟩ := transmissionToPod_ok (hd.getPodFromIP hpod) hu
    rw [if_pos (createNode_ok hc).1.symm] at hu
    have hdst : f.head.dst = pkt.dst := by
      obtain ⟨src, rfl, -⟩ := hd
      rfl
    have huhop : u.nextHop = ⟨.pod, ipString pkt.dst⟩ := by rw [hu, hdst]
    cases hru : net.receive u with
    | error err => exact ⟨.error err, by simp [drain, hr, hru, Except.map], fun items heq => (by cases heq)⟩
    | ok next =>
      obtain rfl := receive_pod huhop hru
      refine ⟨.ok [t, u], by simp [drain, hr, hru, Except.map], fun items heq => ?_⟩
      obtain rfl := Except.ok.inj heq
      exact ⟨u, rfl, huhop, by rw [hu]; exact hd.masquerade hm⟩

theorem drain_to_pod (hnet : net.Tunnels) (hhop : t.nextHop = ⟨.node, name⟩)
    (hpkt : t.packet = .plain pkt) (hpod : net.ipCache.getPodFromIP (ipString pkt.dst) = some pod) :
    ∃ r, drain net.receive 3 [t] = some r ∧ ∀ items, r = .ok items →
      items.head? = some t ∧ items.map (·.nextHop) = net.hopsTo name pkt pod ∧
        ∃ last ∈ items.getLast?, net.Delivered pkt last.packet := by
  have hd : net.Delivered pkt (.plain pkt) := ⟨pkt.src, rfl, fun _ _ => rfl⟩
  by_cases hname : net.nodeName pod = name
  · subst hname
    obtain ⟨r, hdrain, hitems⟩ := drain_at_node hnet hd hpod hhop (.inl hpkt)
    refine ⟨r, drain_succ hdrain, fun items heq => ?_⟩
    obtain ⟨u, rfl, huhop, hu⟩ := hitems items heq
    exact ⟨rfl, by simp [hopsTo, hhop, huhop], u, rfl, hu⟩
  · cases hr : net.receive t with
    | error err => exact ⟨.error err, by simp [drain, hr], fun items heq => (by cases heq)⟩
    | ok next =>
      obtain ⟨h, u, hc, hu, rfl⟩ := hnet.receive_carrying hhop (.inl hpkt) (hd.getPodFromIP hpod) hr
      obtain ⟨f', hm, hu⟩ := transmissionToPod_ok (hd.getPodFromIP hpod) hu
      rw [(createNode_ok hc).1, if_neg hname] at hu
      obtain ⟨r, hdrain, hitems⟩ := drain_at_node hnet (hd.masquerade hm) hpod hu.1 hu.2
      refine ⟨r.map (t :: ·), by simp [drain, hr, hdrain], fun items heq => ?_⟩
      cases r with
      | error err => cases heq
      | ok rest =>
        obtain ⟨v, rfl, hvhop, hv⟩ := hitems rest rfl
        obtain rfl := Except.ok.inj heq
        exact ⟨rfl, by simp [hopsTo, hname, hhop, hvhop, hu.1], v, rfl, hv⟩

theorem podSend_ok {dst : Endpoint} {protocol : Protocol} {ts : List Transmission}
    (hs : net.podSend pod dst protocol = .ok ts) :
    ∃ src t, ts = [t] ∧ t.nextHop = ⟨.node, net.nodeName pod⟩ ∧
      t.packet = .plain { newPacket dst protocol with src := src } := by
  unfold podSend at hs
  split at hs
  · cases hs
  · split at hs
    · cases hs
    · obtain ⟨-, -, hs⟩ := bind_ok hs
      exact ⟨_, _, (Except.ok.inj hs).symm, rfl, rfl⟩

/-- A diagnosis from a pod to a pod ends after three links at most. Unless one of the hops fails,
    these are the pod's node, the other pod's node if it is another, and the other pod, which gets the
    packet that was sent, but for a source that was masqueraded. -/
theorem pod_to_pod (hnet : net.Tunnels) {src dst : Endpoint} (protocol : Protocol) {p q : ClusterPod}
    (hp : net.ipCache.getPodFromIP src.ip = some p) (hq : net.ipCache.getPodFromIP (ipString (ipOf dst.ip)) = some q) :
    ∃ r, net.diagnose 3 src dst protocol = some r ∧ ∀ items, r = .ok items →
      ∃ addr, items.map (·.nextHop) = net.hopsTo (net.nodeName p) (newPacket dst protocol) q ∧
        (items.head?.map (·.packet)) = some (.plain { newPacket dst protocol with src := addr }) ∧
        ∃ last ∈ items.getLast?, net.Delivered { newPacket dst protocol with src := addr } last.packet := by
  have hsend : net.send src dst protocol = net.podSend p dst protocol := by
    simp only [send, getIPType_of_pod hp, hp]
  unfold diagnose
  rw [hsend]
  cases hs : net.podSend p dst protocol with
  | error err => exact ⟨.error err, rfl, fun items heq => (by cases heq)⟩
  | ok ts =>
    obtain ⟨addr, t, rfl, hhop, hpkt⟩ := podSend_ok hs
    obtain ⟨r, hdrain, hitems⟩ := drain_to_pod hnet hhop hpkt hq
    refine ⟨r, hdrain, fun items heq => ⟨addr, ?_⟩⟩
    obtain ⟨hhead, hhops, hlast⟩ := hitems items heq
    exact ⟨hhops, by rw [hhead, Option.map_some, hpkt], hlast⟩

/-! ## Chains of node ports -/

def ForPod (net : Network) (t : Transmission) : Prop :=
  ∃ pod f, t.nextHop = ⟨.node, net.nodeName pod⟩ ∧ net.ipCache.getPodFromIP (ipString f.head.dst) = some pod ∧
    net.Carries (net.nodeName pod) f t.packet

def ForNode (net : Network) (t : Transmission) : Prop :=
  ∃ name pkt, t.nextHop = ⟨.node, name⟩ ∧ t.packet = .plain pkt ∧ net.Owned (ipString pkt.dst) name

/-- A packet for a node port of the node it goes to. -/
def AtNodePort (net : Network) (t : Transmission) : Prop :=
  net.ForNode t ∧ (net.ipCache.getServiceFromNodePort t.packet.head.dport t.packet.head.protocol).isSome

/-- What a host makes goes to a pod or out of the cluster, to a pod's node, or to a node. -/
def Goes (net : Network) (t : Transmission) : Prop := t.nextHop.type ≠ .node ∨ net.ForPod t ∨ net.ForNode t

theorem goes_of_toPod (hpod : net.ipCache.getPodFromIP (ipString f.head.dst) = some pod)
    (ht : net.transmissionToPod h f pod = .ok t) : net.Goes t := by
  obtain ⟨f', hm, ht⟩ := transmissionToPod_ok hpod ht
  obtain ⟨src, rfl, -⟩ := setSrc_of_masquerade hm
  split at ht
  · rw [ht]
    exact .inl (by simp)
  · exact .inr (.inl ⟨pod, _, ht.1, by simpa using hpod, ht.2⟩)

theorem goes_of_toNode {node : ClusterNode} (howned : net.Owned (ipString pkt.dst) node.name)
    (ht : net.transmissionToNode h (.plain pkt) (some node) = .ok t) : net.Goes t := by
  obtain ⟨n, f', hn, hm, hencap, hhop⟩ := transmissionToNode_ok ht
  obtain rfl := Option.some.inj hn
  obtain ⟨src, rfl, -⟩ := setSrc_of_masquerade hm
  rw [encap_of_no_pod howned.1] at hencap
  exact .inr (.inr ⟨node.name, { pkt with src := src }, hhop, (Except.ok.inj hencap).symm, howned⟩)

theorem goes_of_toExternal (ht : net.transmissionToExternal h f = .ok t) : net.Goes t :=
  .inl (by rw [transmissionToExternal_ok ht]; simp)

theorem goes_of_toBackend {backend : Backend} (hcanonical : ipString (ipOf backend.ip) = backend.ip)
    (ht : net.toBackend h pkt backend = .ok t) : net.Goes t := by
  unfold toBackend at ht
  obtain ⟨f, hf, ht⟩ := bind_ok ht
  obtain ⟨src, rfl⟩ : ∃ src, f = .plain { backendPacket pkt backend with src := src } := by
    unfold backendFrame at hf
    split at hf
    · obtain ⟨src, rfl⟩ := setSrc_of_doMasquerade hf
      exact ⟨src, rfl⟩
    · exact ⟨_, (Except.ok.inj hf).symm⟩
  split at ht
  · rename_i htype
    split at ht
    · cases ht
    · rename_i pod hpod
      exact goes_of_toPod (by simpa [backendPacket, hcanonical] using hpod) ht
  · rename_i htype
    split at ht
    · cases ht
    · rename_i node hnode
      refine goes_of_toNode ?_ ht
      simpa [backendPacket, hcanonical] using owned_of_node htype hnode
  · exact goes_of_toExternal ht

namespace Tunnels

variable (hnet : net.Tunnels)

include hnet

theorem goes_of_toService {svc : Service}
    (hs : net.toService h pkt svc = .ok next) : ∀ u ∈ next, net.Goes u := by
  unfold toService at hs
  simp only at hs
  split at hs
  · cases hs
  · intro u hu
    obtain ⟨k, hk⟩ := List.getElem?_of_mem hu
    obtain ⟨backend, hbackend, hu⟩ := getElem?_of_mapM_ok hs hk
    exact goes_of_toBackend (hnet.canonical _ _ _ backend (List.mem_of_getElem? hbackend)) hu

theorem goes_of_serve (hc : net.createNode name = .ok h)
    (hs : net.serve h f = .ok next) : ∀ u ∈ next, net.Goes u := by
  cases f with
  | plain pkt =>
    obtain ⟨-, -, hs⟩ := bind_ok hs
    obtain rfl := Except.ok.inj hs
    simp
  | encap outer inner =>
    obtain ⟨f', hd, hs⟩ := bind_ok hs
    obtain ⟨rfl, -⟩ := hnet.owned_of_decap hc hd
    split at hs
    · cases hs
    · rename_i pod hpod
      obtain ⟨f'', u, hd', hu, rfl⟩ := forwardTo_ok hs
      obtain ⟨rfl, -⟩ := hnet.owned_of_decap hc hd'
      simpa using goes_of_toPod hpod hu

theorem goes_of_hostReceive (hc : net.createNode name = .ok h)
    (hr : net.hostReceive h f = .ok next) : ∀ u ∈ next, net.Goes u := by
  unfold hostReceive at hr
  simp only at hr
  split at hr
  · split at hr
    · cases hr
    · rename_i pod hpod
      obtain ⟨f', u, hd, hu, rfl⟩ := forwardTo_ok hr
      obtain ⟨pkt, rfl, rfl⟩ := hnet.plain_of_decap hc hd fun ho => by simp [ho.1] at hpod
      simpa using goes_of_toPod hpod hu
  · rename_i htype
    split at hr
    · cases hr
    · rename_i host hhost
      have howned := owned_of_node htype hhost
      split at hr
      · split at hr
        · exact hnet.goes_of_toService hr
        · exact hnet.goes_of_serve hc hr
      · rename_i hother
        obtain ⟨f', u, hd, hu, rfl⟩ := forwardTo_ok hr
        obtain ⟨pkt, rfl, rfl⟩ := hnet.plain_of_decap hc hd fun ho => hother (by
          rw [howned.name_eq ho, (createNode_ok hc).1])
        simpa using goes_of_toNode howned hu
  · split at hr
    · cases hr
    · exact hnet.goes_of_toService hr
  · split at hr
    · cases hr
    · exact hnet.goes_of_toService hr
  · obtain ⟨f', u, -, hu, rfl⟩ := forwardTo_ok hr
    simpa using goes_of_toExternal hu

theorem goes_of_receive (hr : net.receive t = .ok next) : ∀ u ∈ next, net.Goes u := by
  by_cases hhop : t.nextHop.type = .node
  · have hnode : t.nextHop = ⟨.node, t.nextHop.id⟩ := by rw [← hhop]
    obtain ⟨h, hc, hr⟩ := receive_node hnode hr
    exact hnet.goes_of_hostReceive hc hr
  · rw [receive_of_not_node hhop hr]
    simp

end Tunnels

theorem acc_of_not_node (hhop : t.nextHop.type ≠ .node) : Acc (Leads net.receive) t := by
  refine ⟨t, fun u hu => ?_⟩
  obtain ⟨next, hr, hmem⟩ := hu
  rw [receive_of_not_node hhop hr] at hmem
  cases hmem

namespace Tunnels

variable (hnet : net.Tunnels)

include hnet

theorem acc_of_forPod (ht : net.ForPod t) : Acc (Leads net.receive) t := by
  obtain ⟨pod, f, hhop, hpod, hcarries⟩ := ht
  refine ⟨t, fun u hu => ?_⟩
  obtain ⟨next, hr, hmem⟩ := hu
  obtain ⟨h, v, hc, hv, rfl⟩ := hnet.receive_carrying hhop hcarries hpod hr
  obtain ⟨f', -, hv⟩ := transmissionToPod_ok hpod hv
  rw [if_pos (createNode_ok hc).1.symm] at hv
  obtain rfl := List.mem_singleton.mp hmem
  exact acc_of_not_node (by rw [hv]; simp)

omit hnet in
theorem acc_of_forNode (ht : net.ForNode t) (hport : ¬net.AtNodePort t) : Acc (Leads net.receive) t := by
  obtain ⟨name, pkt, hhop, hpkt, howned⟩ := ht
  have hnone : net.ipCache.getServiceFromNodePort pkt.dport pkt.protocol = none := by
    cases hsvc : net.ipCache.getServiceFromNodePort pkt.dport pkt.protocol with
    | none => rfl
    | some svc => exact absurd ⟨⟨name, pkt, hhop, hpkt, howned⟩, by rw [hpkt, Frame.head_plain, hsvc]; rfl⟩ hport
  refine ⟨t, fun u hu => ?_⟩
  obtain ⟨next, hr, hmem⟩ := hu
  obtain ⟨h, hc, hr⟩ := receive_node hhop hr
  obtain ⟨node, hnode, hname⟩ := howned.node
  have hself : node.name = h.nodeName := by rw [hname, (createNode_ok hc).1]
  simp only [hostReceive, hpkt, Frame.head_plain, howned.getIPType, hnode, hself, if_true, hnone, serve] at hr
  obtain ⟨-, -, hr⟩ := bind_ok hr
  obtain rfl := Except.ok.inj hr
  cases hmem

theorem acc_iff : Acc (Leads net.receive) t ↔ Acc (fun u t => Leads net.receive u t ∧ net.AtNodePort u) t := by
  constructor
  · intro hacc
    exact Subrelation.accessible (fun hchain => hchain.1) hacc
  · intro hacc
    induction hacc with
    | intro t _ ih =>
      refine ⟨t, fun u hu => ?_⟩
      by_cases hport : net.AtNodePort u
      · exact ih u ⟨hu, hport⟩
      · obtain ⟨next, hr, hmem⟩ := hu
        rcases hnet.goes_of_receive hr u hmem with hlast | hpod | hnode
        · exact acc_of_not_node hlast
        · exact hnet.acc_of_forPod hpod
        · exact acc_of_forNode hnode hport

end Tunnels

end Network

/-! ## A cluster of two nodes -/

def podOn (name ip : String) : ClusterPod :=
  { namespaceName := "default", name := name, labels := [], hostNetwork := false, phase := .running, podIPs := [ip] }

def metricsService : Service :=
  { namespaceName := "default", name := "metrics", type := .clusterIP, clusterIP := "10.96.0.10"
    clusterIPs := ["10.96.0.10"], externalIPs := [], externalTrafficPolicy := .cluster, lbIngress := []
    ports := [{ name := "http", protocol := .tcp, port := 9100, targetPort := .named "http", nodePort := 0 }] }

def metricsEndpoints : List EndpointSubset :=
  [{ addresses := [⟨"10.0.0.1", some "node-a"⟩], ports := [⟨"http", 9100, .tcp⟩] }]

def twoNodes : Listing :=
  { pods := .ok [podOn "web-a" "10.244.0.2", podOn "web-b" "10.244.1.2"]
    nodes := .ok [⟨"node-a", ["10.0.0.1"], []⟩, ⟨"node-b", ["10.0.0.2"], []⟩]
    services := .ok [metricsService] }

def defaultRouter (ip : IP) : SimulateRouter :=
  { rules := [⟨0, 254, 0, 0, none, none, "", ""⟩]
    routes := fun _ =>
      [{ oifName := "eth0", dst := some ⟨[0, 0, 0, 0], [0, 0, 0, 0]⟩, gw := [], priority := 0, table := 254
         type := 1 }]
    interfaces := [⟨"eth0", [ip]⟩] }

def hostInfo (ip : IP) : NodeInfo :=
  { router := defaultRouter ip, interfaces := [⟨"eth0", [⟨ip, [255, 255, 255, 0]⟩]⟩], defaultIface := "eth0" }

def cluster : Network where
  ipCache := (IPCache.new.buildClusterIPCache twoNodes).2
  nodeName pod := if pod.name = "web-a" then "node-a" else "node-b"
  nodeSpec node :=
    if node.name = "node-a" then ⟨"10.244.0.0/24", "10.0.0.1", some "vxlan"⟩
    else ⟨"10.244.1.0/24", "10.0.0.2", some "vxlan"⟩
  collectNode name := .ok (hostInfo (if name = "node-a" then [10, 0, 0, 1] else [10, 0, 0, 2]))
  collectPod pod := .ok (defaultRouter (if pod.name = "web-a" then [10, 244, 0, 2] else [10, 244, 1, 2]))
  serviceProcessor := { clusterCIDR := none, ipString := ipString, endpoints := fun _ _ => .ok metricsEndpoints }
  options := { clusterCIDR := ⟨[10, 244, 0, 0], [255, 255, 0, 0]⟩, iface := "", cniMode := .vxlan, ipMasq := true }
  cached := fun _ _ => IPCache.hostNetwork_of_cached

theorem tunnels_cluster : cluster.Tunnels where
  own := by
    have hall : ∀ e ∈ cluster.ipCache.nodeCache.entries,
        cluster.Owned (ipString (ipOf (cluster.nodeSpec e.2).publicIP)) e.2.name := by
      decide +kernel
    intro name node hnode
    obtain ⟨e, he, rfl⟩ := Option.map_eq_some_iff.mp hnode
    have hname : e.2.name = name := by simpa using List.find?_some he
    rw [← hname]
    exact hall e (List.mem_of_find?_eq_some he)
  noNodePort := by decide +kernel
  canonical := by
    intro pkt svc node b hb
    have hip : b.ip = "10.0.0.1" := by
      simp only [cluster, KubeProxyServiceProcessor.process, metricsEndpoints, List.flatMap_cons, List.flatMap_nil,
        List.append_nil, List.mem_map] at hb
      obtain ⟨addr, haddr, rfl⟩ := hb
      have hmem := (List.mem_filter.mp haddr).1
      rw [List.mem_singleton.mp hmem]
    rw [hip]
    decide +kernel

def webA : Endpoint := ⟨"10.244.0.2", 0⟩

def webB : Endpoint := ⟨"10.244.1.2", 80⟩

def metrics : Endpoint := ⟨"10.96.0.10", 9100⟩

theorem pod_to_pod_over_vxlan :
    ∃ items addr, cluster.diagnose 3 webA webB .tcp = some (.ok items) ∧
      items.map (·.nextHop) = [⟨.node, "node-a"⟩, ⟨.node, "node-b"⟩, ⟨.pod, "10.244.1.2"⟩] ∧
      ∃ last ∈ items.getLast?, cluster.Delivered { Network.newPacket webB .tcp with src := addr } last.packet := by
  have hp : cluster.ipCache.getPodFromIP webA.ip = some (podOn "web-a" "10.244.0.2") := by decide +kernel
  have hq : cluster.ipCache.getPodFromIP (ipString (ipOf webB.ip)) = some (podOn "web-b" "10.244.1.2") := by
    decide +kernel
  have hhops : cluster.hopsTo (cluster.nodeName (podOn "web-a" "10.244.0.2")) (Network.newPacket webB .tcp)
      (podOn "web-b" "10.244.1.2") = [⟨.node, "node-a"⟩, ⟨.node, "node-b"⟩, ⟨.pod, "10.244.1.2"⟩] := by
    decide +kernel
  have hok : ((cluster.diagnose 3 webA webB .tcp).any fun r => r.toOption.isSome) = true := by decide +kernel
  obtain ⟨r, hr, hitems⟩ := Network.pod_to_pod tunnels_cluster .tcp hp hq
  cases r with
  | error err =>
    rw [hr] at hok
    cases hok
  | ok items =>
    obtain ⟨addr, hmap, -, hlast⟩ := hitems items rfl
    exact ⟨items, addr, hr, hmap.trans hhops, hlast⟩

def toMetrics : Transmission :=
  ⟨⟨.node, "node-a"⟩, .veth, .plain { Network.newPacket metrics .tcp with src := ipOf "10.244.0.2" }⟩

def toPortZero : Transmission :=
  ⟨⟨.node, "node-a"⟩, .infra, .plain { Network.newPacket ⟨"10.0.0.1", 0⟩ .tcp with src := ipOf "10.0.0.1" }⟩

def portZeroChain : ℕ → Transmission
  | 0 => toMetrics
  | _ + 1 => toPortZero

theorem receive_toMetrics : cluster.receive toMetrics = .ok [toPortZero] := by decide +kernel

theorem receive_toPortZero : cluster.receive toPortZero = .ok [toPortZero] := by decide +kernel

end EliteTelemetry.Skoop.Flannel
