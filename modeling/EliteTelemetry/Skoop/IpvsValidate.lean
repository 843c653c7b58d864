/-
  EliteTelemetry.Skoop.IpvsValidate — whether the virtual servers of a node are those of a
  service (`Validate` of `skoop/service/service.go`, in mode `ipvs`).

  The backends that a packet should have are put into a set, under the texts of their addresses
  and ports. Each real server of the packet's virtual service has to be in it and is taken out;
  nothing may be left. So the check passes for a dump of `ipvsadm` exactly if there is a virtual
  service for the packet and its real servers are the backends (`validate_exact`). A server
  that was listed twice would not be found the second time.
-/

import EliteTelemetry.Netstack.Ipvs
import EliteTelemetry.Skoop.Service

namespace EliteTelemetry.Skoop.IpvsValidate

open EliteTelemetry.Lib EliteTelemetry.Lib.AddrText EliteTelemetry.Lib.Decimal EliteTelemetry.Netstack.Ipvs

/-! ## The check -/

def backendKey (ip : String) (port : UInt16) : String := ip ++ ":" ++ decimal port.toNat

def serverKey (rs : RealServer) : String := backendKey rs.ip rs.port

def backendsSet (backends : List Backend) : List String :=
  backends.foldl (fun set backend => set.insert (backendKey backend.ip backend.port)) []

def checkServer (found : List String × List String) (rs : RealServer) : List String × List String :=
  (found.1.filter (· ≠ serverKey rs), if serverKey rs ∈ found.1 then found.2 else found.2 ++ [serverKey rs])

/-- `Validate`. Which texts are left is reported in the order of the set, in the code in that of a map. -/
def validate (mode : String) (ipvs : Option IPVS) (packet : Packet) (backends : List Backend) : Except String Unit :=
  if mode ≠ "ipvs" then .ok ()
  else
    match ipvs with
    | none => .ok ()
    | some ipvs =>
      match ipvs.getService packet.protocol (ipString packet.dst) packet.dport with
      | none => .error "service has not been connfigured in ipvs"
      | some svc =>
        let (left, invalids) := svc.rs.foldl checkServer (backendsSet backends, [])
        if 0 < invalids.length then
          .error ("ipvs realserver " ++ String.intercalate "," invalids ++
            " is not a valid k8s service backend, which could make network issues")
        else if left.length ≠ 0 then
          .error ("k8s endpoint " ++ String.intercalate "," left ++
            " is not in ipvs realserver, which could make network issues")
        else .ok ()

/-! ## Two sets -/

theorem mem_backendsSet {backends : List Backend} {k : String} :
    k ∈ backendsSet backends ↔ ∃ b ∈ backends, backendKey b.ip b.port = k := by
  have hrun : ∀ set : List String,
      k ∈ backends.foldl (fun set backend => set.insert (backendKey backend.ip backend.port)) set ↔
        k ∈ set ∨ ∃ b ∈ backends, backendKey b.ip b.port = k := by
    induction backends with
    | nil => simp
    | cons b backends ih =>
      intro set
      rw [List.foldl_cons, ih]
      simp [eq_comm, or_left_comm, or_assoc]
  simpa [backendsSet] using hrun []

/-- Servers that differ take their texts out of the set, and those that are not in it are told. -/
theorem mem_foldl_checkServer {rs : List RealServer} (hnodup : (rs.map serverKey).Nodup)
    (found : List String × List String) (k : String) :
    (k ∈ (rs.foldl checkServer found).1 ↔ k ∈ found.1 ∧ k ∉ rs.map serverKey) ∧
      (k ∈ (rs.foldl checkServer found).2 ↔ k ∈ found.2 ∨ k ∈ rs.map serverKey ∧ k ∉ found.1) := by
  induction rs generalizing found with
  | nil => simp
  | cons s rs ih =>
    obtain ⟨hs, hrest⟩ := List.nodup_cons.mp hnodup
    obtain ⟨hleft, hinvalid⟩ := ih hrest (checkServer found s)
    have hset : k ∈ (checkServer found s).1 ↔ k ∈ found.1 ∧ k ≠ serverKey s := by simp [checkServer]
    have htold : k ∈ (checkServer found s).2 ↔ k ∈ found.2 ∨ k = serverKey s ∧ k ∉ found.1 := by
      simp only [checkServer]
      split
      · grind
      · grind
    rw [List.foldl_cons, hleft, hinvalid, hset, htold, List.map_cons, List.mem_cons]
    -- no server behind has the text of this one
    by_cases hk : k = serverKey s
    · subst hk
      simp [hs]
    · simp [hk]

theorem checked_iff {rs : List RealServer} (hnodup : (rs.map serverKey).Nodup) (set : List String) :
    ((rs.foldl checkServer (set, [])).2 = [] ∧ (rs.foldl checkServer (set, [])).1 = []) ↔
      ∀ k, k ∈ rs.map serverKey ↔ k ∈ set := by
  have hmem := mem_foldl_checkServer hnodup (set, [])
  rw [List.eq_nil_iff_forall_not_mem, List.eq_nil_iff_forall_not_mem]
  constructor
  · intro ⟨htold, hleft⟩ k
    have htold := htold k
    have hleft := hleft k
    rw [(hmem k).2] at htold
    rw [(hmem k).1] at hleft
    simp only [List.not_mem_nil, false_or] at htold
    tauto
  · intro h
    refine ⟨fun k => ?_, fun k => ?_⟩
    · rw [(hmem k).2, h k]
      simp
    · rw [(hmem k).1, h k]
      simp

theorem backendKey_inj {ip ip' : String} {port port' : UInt16} :
    backendKey ip port = backendKey ip' port' ↔ ip = ip' ∧ port = port' := by
  constructor
  · intro h
    have hlist := congrArg String.toList h
    simp only [backendKey, String.toList_append, List.append_assoc] at hlist
    obtain ⟨hip, hport⟩ := append_cons_inj_last (colon_not_mem_decimal _) (colon_not_mem_decimal _) hlist
    exact ⟨String.toList_inj.mp hip, UInt16.toNat_inj.mp (decimal_inj.mp (String.toList_inj.mp hport))⟩
  · intro ⟨hip, hport⟩
    rw [hip, hport]

theorem validate_iff (ipvs : IPVS) (packet : Packet) (backends : List Backend) :
    validate "ipvs" (some ipvs) packet backends = .ok () ↔
      ∃ svc, ipvs.getService packet.protocol (ipString packet.dst) packet.dport = some svc ∧
        (svc.rs.foldl checkServer (backendsSet backends, [])).2 = [] ∧
        (svc.rs.foldl checkServer (backendsSet backends, [])).1 = [] := by
  unfold validate
  cases hsvc : ipvs.getService packet.protocol (ipString packet.dst) packet.dport with
  | none => simp [hsvc]
  | some svc =>
    simp only [hsvc, Option.some.injEq, exists_eq_left']
    generalize svc.rs.foldl checkServer (backendsSet backends, []) = checked
    obtain ⟨left, invalids⟩ := checked
    cases invalids with
    | cons k invalids => simp
    | nil =>
      cases left with
      | cons k left => simp
      | nil => simp

/-! ## What passes -/

def endpoint (b : Backend) : String × UInt16 := (b.ip, b.port)

def endpoints (v : Virtual) : List (String × UInt16) := v.servers.map fun s => (s.address.text, s.port)

/-- The virtual service that a packet goes to. -/
def IsFor (packet : Packet) (v : Virtual) : Prop :=
  v.transport.protocol = packet.protocol ∧ packet.dst.to4 = some v.address.bytes ∧ v.port = packet.dport

theorem text_inj {a b : Address} (h : a.text = b.text) : a = b := by
  obtain ⟨a, ha⟩ := a
  obtain ⟨b, hb⟩ := b
  have hto4 := (ipString_eq_iff hb).mp h
  rw [to4_of_length ha] at hto4
  obtain rfl := Option.some.inj hto4
  rfl

theorem key_inj {v w : Virtual} (h : v.key = w.key) :
    (v.transport, v.address, v.port) = (w.transport, w.address, w.port) := by
  obtain ⟨hprotocol, htext, hport⟩ := serviceKey_inj.mp h
  have htransport : ∀ t t' : Transport, t.protocol = t'.protocol → t = t' := by
    intro t t'
    cases t <;> cases t' <;> decide
  rw [htransport _ _ hprotocol, text_inj htext, hport]

theorem nodup_keys {servers : List Server} (h : (servers.map fun s => (s.address, s.port)).Nodup) :
    ((servers.map Server.entry).map serverKey).Nodup := by
  rw [List.map_map]
  refine (List.pairwise_map.mp h).map _ fun s t hne heq => hne ?_
  obtain ⟨htext, hport⟩ := backendKey_inj.mp heq
  have haddress : s.address = t.address := text_inj htext
  have hport : s.port = t.port := hport
  rw [haddress, hport]

theorem keys_iff (v : Virtual) (backends : List Backend) :
    (∀ k, k ∈ (v.servers.map Server.entry).map serverKey ↔ k ∈ backendsSet backends) ↔
      ∀ e, e ∈ endpoints v ↔ e ∈ backends.map endpoint := by
  have hservers : ∀ e : String × UInt16,
      backendKey e.1 e.2 ∈ (v.servers.map Server.entry).map serverKey ↔ e ∈ endpoints v := by
    intro e
    simp [endpoints, serverKey, Server.entry, backendKey_inj, Prod.ext_iff]
  have hbackends : ∀ e : String × UInt16, backendKey e.1 e.2 ∈ backendsSet backends ↔ e ∈ backends.map endpoint := by
    intro e
    simp [mem_backendsSet, endpoint, backendKey_inj, Prod.ext_iff]
  constructor
  · intro h e
    rw [← hservers, ← hbackends]
    exact h _
  · intro h k
    -- a text in either set is that of a pair
    by_cases hpair : ∃ e : String × UInt16, backendKey e.1 e.2 = k
    · obtain ⟨e, rfl⟩ := hpair
      rw [hservers, hbackends]
      exact h e
    · refine iff_of_false (fun hk => ?_) (fun hk => ?_)
      · obtain ⟨s, -, hs⟩ := List.mem_map.mp hk
        exact hpair ⟨(s.ip, s.port), hs⟩
      · obtain ⟨b, -, hb⟩ := mem_backendsSet.mp hk
        exact hpair ⟨(b.ip, b.port), hb⟩

/-- The check passes for a dump exactly if it has a virtual service for the packet whose real
    servers are the backends. -/
theorem validate_exact (vs : List Virtual)
    (hdistinct : vs.Pairwise fun v w => (v.transport, v.address, v.port) ≠ (w.transport, w.address, w.port))
    (hservers : ∀ v ∈ vs, (v.servers.map fun s => (s.address, s.port)).Nodup) (packet : Packet)
    (backends : List Backend) :
    ∃ ipvs, parseIPVS (vs.flatMap Virtual.lines) = .ok ipvs ∧
      (validate "ipvs" (some ipvs) packet backends = .ok () ↔
        ∃ v ∈ vs, IsFor packet v ∧ ∀ e, e ∈ endpoints v ↔ e ∈ backends.map endpoint) := by
  refine ⟨_, parseIPVS_dump vs, ?_⟩
  have hget := getService_dump (hdistinct.imp fun hne heq => hne (key_inj heq)) packet.protocol packet.dst packet.dport
  rw [validate_iff]
  constructor
  · intro ⟨svc, hsvc, hchecked⟩
    obtain ⟨v, hv, hfor, rfl⟩ := (hget svc).mp hsvc
    exact ⟨v, hv, hfor, (keys_iff v backends).mp ((checked_iff (nodup_keys (hservers v hv)) _).mp hchecked)⟩
  · intro ⟨v, hv, hfor, hsame⟩
    refine ⟨v.entry v.servers, (hget _).mpr ⟨v, hv, hfor, rfl⟩, ?_⟩
    exact (checked_iff (nodup_keys (hservers v hv)) _).mpr ((keys_iff v backends).mpr hsame)

def lone (last : UInt8) : Address := ⟨[10, 0, 0, last], rfl⟩

def webVirtual : Virtual :=
  { transport := .tcp, address := lone 1, port := 80, scheduler := "rr", named := by decide,
    servers := [⟨lone 7, 8080, 1⟩, ⟨lone 8, 8080, 1⟩] }

theorem validate_exact_web :
    ∃ ipvs,
      parseIPVS ["-A -t 10.0.0.1:80 -s rr", "-a -t 10.0.0.1:80 -r 10.0.0.7:8080 -m -w 1",
        "-a -t 10.0.0.1:80 -r 10.0.0.8:8080 -m -w 1"] = .ok ipvs ∧
      validate "ipvs" (some ipvs) ⟨[], 0, [10, 0, 0, 1], 80, .tcp, 0⟩
        [⟨"10.0.0.8", 8080, false⟩, ⟨"10.0.0.7", 8080, false⟩] = .ok () := by
  have hlines : [webVirtual].flatMap Virtual.lines = ["-A -t 10.0.0.1:80 -s rr",
      "-a -t 10.0.0.1:80 -r 10.0.0.7:8080 -m -w 1", "-a -t 10.0.0.1:80 -r 10.0.0.8:8080 -m -w 1"] := by decide +kernel
  obtain ⟨ipvs, hparse, hvalid⟩ := validate_exact [webVirtual] (by simp) (by decide +kernel)
    ⟨[], 0, [10, 0, 0, 1], 80, .tcp, 0⟩ [⟨"10.0.0.8", 8080, false⟩, ⟨"10.0.0.7", 8080, false⟩]
  rw [hlines] at hparse
  refine ⟨ipvs, hparse, hvalid.mpr ⟨webVirtual, by simp, ⟨rfl, rfl, rfl⟩, fun e => ?_⟩⟩
  have hendpoints : endpoints webVirtual = [("10.0.0.7", 8080), ("10.0.0.8", 8080)] := by decide +kernel
  rw [hendpoints]
  simp [endpoint, or_comm]

end EliteTelemetry.Skoop.IpvsValidate
