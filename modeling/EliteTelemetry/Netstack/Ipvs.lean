/-
  EliteTelemetry.Netstack.Ipvs — the virtual services of a node, read from the dump of
  `ipvsadm -S -n` (`pkg/skoop/netstack/ipvs.go`).

  A line is a command: `-A` adds a virtual service, `-a` a real server to one. The services are
  kept under a text of their protocol, address and port, and a server is added to the service
  whose text its own line gives.

  The dump of masqueraded services over IPv4 is read back as it was printed: under the text of
  a service's protocol, address and port are its scheduler and its servers, in order
  (`parseIPVS_dump`, `getService_dump`).
-/

import EliteTelemetry.Lib.AddrText
import EliteTelemetry.Lib.GoFlag
import EliteTelemetry.Lib.GoText
import EliteTelemetry.Skoop.Model

namespace EliteTelemetry.Netstack.Ipvs

open EliteTelemetry.Lib EliteTelemetry.Lib.AddrText EliteTelemetry.Lib.Decimal EliteTelemetry.Lib.GoFlag
open EliteTelemetry.Skoop

/-! ## Reading a dump -/

structure RealServer where
  ip : String
  port : UInt16
  masquerade : Bool
  weight : Int
  deriving DecidableEq, Repr

structure IPVSService where
  protocol : Protocol
  ip : String
  port : UInt16
  scheduler : String
  rs : List RealServer
  deriving DecidableEq, Repr

abbrev IPVS := String → Option IPVSService

inductive LineErr where
  | flags (line : String) (err : FlagErr)
  | number (err : GoText.NumError)
  | other (message : String)
  | indexOutOfRange
  deriving DecidableEq, Repr

def serviceKey (protocol : Protocol) (ip : String) (port : UInt16) : String :=
  protocol.string ++ ":" ++ ip ++ ":" ++ decimal port.toNat

def IPVSService.service (s : IPVSService) : String := serviceKey s.protocol s.ip s.port

def IPVS.put (ipvs : IPVS) (key : String) (svc : IPVSService) : IPVS := fun k => if k = key then some svc else ipvs k

def IPVS.getService (ipvs : IPVS) (protocol : Protocol) (ip : String) (port : UInt16) : Option IPVSService :=
  ipvs (String.ofList (protocol.string.toList.map Char.toLower) ++ ":" ++ ip ++ ":" ++ decimal port.toNat)

def ipvsFlags (name : String) : Option Kind :=
  if name ∈ ["A", "a", "m"] then some .bool
  else if name ∈ ["t", "u", "s", "r", "w", "p"] then some .string
  else none

/-- An address and a port with a colon between them. Without a colon there is no second part to
    be looked at. -/
def addressAndPort (s : String) : Except LineErr (String × UInt16) :=
  match GoText.split ':' s with
  | ip :: port :: _ =>
    match GoText.atoi port.toList with
    | (_, some err) => .error (.number err)
    | (n, none) => .ok (ip, UInt16.ofInt n)
  | _ => .error .indexOutOfRange

def runLine (ipvs : IPVS) (flags : List (String × String)) : Except LineErr IPVS :=
  let addService := boolFlag flags "A"
  let addServer := boolFlag flags "a"
  if !addServer && !addService then .error (.other "unknown ipvs action")
  else
    let udpService := stringFlag flags "u"
    let protocol := if udpService ≠ "" then Protocol.udp else .tcp
    let service := if udpService ≠ "" then udpService else stringFlag flags "t"
    match addressAndPort service with
    | .error err => .error err
    | .ok (serviceIP, servicePort) =>
      if addService then
        let svc : IPVSService := ⟨protocol, serviceIP, servicePort, stringFlag flags "s", []⟩
        .ok (ipvs.put svc.service svc)
      else
        match addressAndPort (stringFlag flags "r") with
        | .error err => .error err
        | .ok (serverIP, serverPort) =>
          let weight := (GoText.atoi (stringFlag flags "w").toList).1
          let backend : RealServer := ⟨serverIP, serverPort, boolFlag flags "m", weight⟩
          let serviceName := protocol.string ++ ":" ++ service
          match ipvs serviceName with
          | none => .error (.other "service not exists")
          | some svc => .ok (ipvs.put serviceName { svc with rs := svc.rs ++ [backend] })

def parseOneLine (ipvs : IPVS) (line : String) : Except LineErr IPVS :=
  match GoFlag.parse ipvsFlags (GoText.fields line) with
  | .error err => .error (.flags line err)
  | .ok flags => runLine ipvs flags

def parseLines : IPVS → List String → Except LineErr IPVS
  | ipvs, [] => .ok ipvs
  | ipvs, line :: lines =>
    if line = "" then parseLines ipvs lines
    else
      match parseOneLine ipvs line with
      | .error err => .error err
      | .ok ipvs => parseLines ipvs lines

def parseIPVS (dump : List String) : Except LineErr IPVS := parseLines (fun _ => none) dump

/-! ## Printing one -/

structure Address where
  bytes : IP
  four : bytes.length = 4
  deriving DecidableEq

def Address.text (a : Address) : String := ipString a.bytes

inductive Transport where
  | tcp
  | udp
  deriving DecidableEq, Repr

def Transport.protocol : Transport → Protocol
  | .tcp => .tcp
  | .udp => .udp

def Transport.flag : Transport → String
  | .tcp => "-t"
  | .udp => "-u"

structure Server where
  address : Address
  port : UInt16
  weight : Nat
  deriving DecidableEq

structure Virtual where
  transport : Transport
  address : Address
  port : UInt16
  scheduler : String
  named : GoText.Word scheduler
  servers : List Server

def hostPort (a : Address) (port : UInt16) : String := a.text ++ ":" ++ decimal port.toNat

namespace Virtual

variable (v : Virtual)

def addLine : String :=
  String.intercalate " " ["-A", v.transport.flag, hostPort v.address v.port, "-s", v.scheduler]

def serverLine (server : Server) : String :=
  String.intercalate " "
    ["-a", v.transport.flag, hostPort v.address v.port, "-r", hostPort server.address server.port, "-m", "-w",
      decimal server.weight]

def lines : List String := v.addLine :: v.servers.map v.serverLine

def key : String := serviceKey v.transport.protocol v.address.text v.port

end Virtual

/-- A weight is read by `Atoi`, which stops at the largest number there is. -/
def Server.entry (s : Server) : RealServer := ⟨s.address.text, s.port, true, (GoText.atoi (decimal s.weight).toList).1⟩

def Virtual.entry (v : Virtual) (servers : List Server) : IPVSService :=
  ⟨v.transport.protocol, v.address.text, v.port, v.scheduler, servers.map Server.entry⟩

/-! ## What is printed is read back -/

theorem mem_text {a : Address} {c : Char} (h : c ∈ a.text.toList) : c.isDigit = true ∨ c = '.' := by
  rw [Address.text, ipString_of_to4 (to4_of_length a.four)] at h
  exact mem_dotted h

theorem colon_not_mem_text (a : Address) : ':' ∉ a.text.toList := by
  intro h
  rcases mem_text h with h | h
  · exact absurd h (by decide)
  · exact absurd h (by decide)

theorem colon_not_mem_decimal (n : Nat) : ':' ∉ (decimal n).toList := by
  intro h
  exact absurd (isDigit_of_mem_decimal h) (by decide)

theorem ofInt_toNat (port : UInt16) : UInt16.ofInt port.toNat = port := by
  have hport := port.toNat_lt
  have hmod : ((port.toNat : Int) % 2 ^ 16).toNat = port.toNat := by omega
  rw [UInt16.ofInt, hmod, UInt16.ofNat_toNat]

theorem addressAndPort_hostPort (a : Address) (port : UInt16) :
    addressAndPort (hostPort a port) = .ok (a.text, port) := by
  have hsplit : GoText.split ':' (hostPort a port) = [a.text, decimal port.toNat] :=
    GoText.split_pair (colon_not_mem_text a) (colon_not_mem_decimal _)
  have hport : GoText.atoi (decimal port.toNat).toList = ((port.toNat : Int), none) :=
    GoText.atoi_repr (port.toNat_lt.trans (by decide))
  unfold addressAndPort
  simp only [hsplit, hport, ofInt_toNat]

theorem isSpace_eq_false {c : Char} (h : c.isDigit = true ∨ c = '.' ∨ c = ':') : GoText.isSpace c = false := by
  have hrange : 46 ≤ c.toNat ∧ c.toNat ≤ 58 := by
    rcases h with h | rfl | rfl
    · simp only [Char.isDigit, Bool.and_eq_true, decide_eq_true_eq] at h
      have hlow : '0'.toNat ≤ c.toNat := h.1
      have hhigh : c.toNat ≤ '9'.toNat := h.2
      have hzero : '0'.toNat = 48 := rfl
      have hnine : '9'.toNat = 57 := rfl
      omega
    · decide
    · decide
  simp [GoText.isSpace]
  omega

theorem word_decimal (n : Nat) : GoText.Word (decimal n) := by
  refine ⟨?_, fun c hc => isSpace_eq_false (.inl (isDigit_of_mem_decimal hc))⟩
  intro hempty
  have hlist := congrArg String.toList hempty
  rw [decimal, Nat.toList_repr] at hlist
  exact Nat.toDigits_ne_nil hlist

theorem word_hostPort (a : Address) (port : UInt16) : GoText.Word (hostPort a port) := by
  constructor
  · intro hempty
    have hlist := congrArg String.toList hempty
    simp [hostPort] at hlist
  · intro c hc
    simp only [hostPort, String.toList_append, List.mem_append] at hc
    rcases hc with (hc | hc) | hc
    · exact isSpace_eq_false ((mem_text hc).imp_right .inl)
    · exact isSpace_eq_false (.inr (.inr (by simpa using hc)))
    · exact isSpace_eq_false (.inl (isDigit_of_mem_decimal hc))

theorem word_flag (t : Transport) : GoText.Word t.flag := by
  cases t with
  | tcp => decide
  | udp => decide

def Transport.name (t : Transport) : String := if t = .tcp then "t" else "u"

theorem parse_addLine (t : Transport) (service scheduler : String) :
    GoFlag.parse ipvsFlags ["-A", t.flag, service, "-s", scheduler] =
      .ok [("A", "true"), (t.name, service), ("s", scheduler)] := by
  cases t with
  | tcp => rfl
  | udp => rfl

theorem parse_serverLine (t : Transport) (service server weight : String) :
    GoFlag.parse ipvsFlags ["-a", t.flag, service, "-r", server, "-m", "-w", weight] =
      .ok [("a", "true"), (t.name, service), ("r", server), ("m", "true"), ("w", weight)] := by
  cases t with
  | tcp => rfl
  | udp => rfl

section

variable (v : Virtual) (ipvs : IPVS)

theorem fields_addLine :
    GoText.fields v.addLine = ["-A", v.transport.flag, hostPort v.address v.port, "-s", v.scheduler] := by
  refine GoText.fields_intercalate ?_
  simp only [List.forall_mem_cons]
  exact ⟨by decide, word_flag _, word_hostPort _ _, by decide, v.named, by simp⟩

theorem fields_serverLine (server : Server) :
    GoText.fields (v.serverLine server) =
      ["-a", v.transport.flag, hostPort v.address v.port, "-r", hostPort server.address server.port, "-m", "-w",
        decimal server.weight] := by
  refine GoText.fields_intercalate ?_
  simp only [List.forall_mem_cons]
  exact ⟨by decide, word_flag _, word_hostPort _ _, by decide, word_hostPort _ _, by decide, by decide, word_decimal _,
    by simp⟩

theorem parseOneLine_addLine : parseOneLine ipvs v.addLine = .ok (ipvs.put v.key (v.entry [])) := by
  have hservice : hostPort v.address v.port ≠ "" := (word_hostPort _ _).1
  rw [parseOneLine, fields_addLine, parse_addLine]
  cases htransport : v.transport with
  | tcp =>
    simp [runLine, boolFlag, stringFlag, List.lookup_cons, addressAndPort_hostPort, Transport.name, Virtual.key,
      Virtual.entry, IPVSService.service, Transport.protocol, htransport]
  | udp =>
    simp [runLine, boolFlag, stringFlag, List.lookup_cons, addressAndPort_hostPort, Transport.name, Virtual.key,
      Virtual.entry, IPVSService.service, Transport.protocol, htransport, hservice]

theorem parseOneLine_serverLine {ipvs : IPVS} {servers : List Server} (h : ipvs v.key = some (v.entry servers))
    (server : Server) :
    parseOneLine ipvs (v.serverLine server) = .ok (ipvs.put v.key (v.entry (servers ++ [server]))) := by
  have hservice : hostPort v.address v.port ≠ "" := (word_hostPort _ _).1
  have hname : v.transport.protocol.string ++ ":" ++ hostPort v.address v.port = v.key := by
    simp [hostPort, Virtual.key, serviceKey, String.append_assoc]
  rw [parseOneLine, fields_serverLine, parse_serverLine]
  cases htransport : v.transport with
  | tcp =>
    rw [htransport, Transport.protocol] at hname
    simp [runLine, boolFlag, stringFlag, List.lookup_cons, addressAndPort_hostPort, Transport.name, hname, h,
      Virtual.entry, Server.entry]
  | udp =>
    rw [htransport, Transport.protocol] at hname
    simp [runLine, boolFlag, stringFlag, List.lookup_cons, addressAndPort_hostPort, Transport.name, hname, h,
      Virtual.entry, Server.entry, hservice]

theorem parseLines_cons {line : String} (hline : GoText.fields line ≠ []) (lines : List String) :
    parseLines ipvs (line :: lines) =
      match parseOneLine ipvs line with
      | .error err => .error err
      | .ok ipvs => parseLines ipvs lines := by
  have hne : line ≠ "" := by
    intro hempty
    exact hline (by rw [hempty]; decide)
  rw [parseLines, if_neg hne]

@[simp] theorem put_put (key : String) (s s' : IPVSService) : (ipvs.put key s).put key s' = ipvs.put key s' := by
  funext k
  simp only [IPVS.put]
  split <;> rfl

theorem put_self {ipvs : IPVS} {key : String} {s : IPVSService} (h : ipvs key = some s) : ipvs.put key s = ipvs := by
  funext k
  by_cases hk : k = key
  · simp [IPVS.put, hk, h]
  · simp [IPVS.put, hk]

theorem parseLines_servers {ipvs : IPVS} {servers : List Server} (h : ipvs v.key = some (v.entry servers))
    (added : List Server) (rest : List String) :
    parseLines ipvs (added.map v.serverLine ++ rest) =
      parseLines (ipvs.put v.key (v.entry (servers ++ added))) rest := by
  induction added generalizing ipvs servers with
  | nil => rw [List.append_nil, put_self h, List.map_nil, List.nil_append]
  | cons server added ih =>
    rw [List.map_cons, List.cons_append, parseLines_cons _ (by rw [fields_serverLine]; simp),
      parseOneLine_serverLine v h]
    have hput : (ipvs.put v.key (v.entry (servers ++ [server]))) v.key = some (v.entry (servers ++ [server])) :=
      if_pos rfl
    simp only
    rw [ih hput, put_put, List.append_assoc, List.singleton_append]

theorem parseLines_service (rest : List String) :
    parseLines ipvs (v.lines ++ rest) = parseLines (ipvs.put v.key (v.entry v.servers)) rest := by
  rw [Virtual.lines, List.cons_append, parseLines_cons _ (by rw [fields_addLine]; simp), parseOneLine_addLine]
  have hput : (ipvs.put v.key (v.entry [])) v.key = some (v.entry []) := if_pos rfl
  simp only
  rw [parseLines_servers v hput, put_put, List.nil_append]

end

/-- The services under their texts, a later one in place of an earlier one with the same. -/
def kept (vs : List Virtual) (ipvs : IPVS) : IPVS := vs.foldl (fun ipvs v => ipvs.put v.key (v.entry v.servers)) ipvs

theorem parseIPVS_dump (vs : List Virtual) : parseIPVS (vs.flatMap Virtual.lines) = .ok (kept vs fun _ => none) := by
  have hrun : ∀ ipvs, parseLines ipvs (vs.flatMap Virtual.lines) = .ok (kept vs ipvs) := by
    induction vs with
    | nil => exact fun ipvs => rfl
    | cons v vs ih =>
      intro ipvs
      rw [List.flatMap_cons, parseLines_service, ih]
      rfl
  exact hrun _

/-! ## What is found under a text -/

theorem kept_of_not_mem {vs : List Virtual} {k : String} (h : ∀ v ∈ vs, v.key ≠ k) (ipvs : IPVS) :
    kept vs ipvs k = ipvs k := by
  induction vs generalizing ipvs with
  | nil => rfl
  | cons v vs ih =>
    have hput : ipvs.put v.key (v.entry v.servers) k = ipvs k := if_neg (h v List.mem_cons_self).symm
    exact (ih (fun x hx => h x (List.mem_cons_of_mem _ hx)) _).trans hput

theorem kept_of_mem {vs : List Virtual} (hkeys : vs.Pairwise (·.key ≠ ·.key)) {v : Virtual} (hv : v ∈ vs)
    (ipvs : IPVS) : kept vs ipvs v.key = some (v.entry v.servers) := by
  induction vs generalizing ipvs with
  | nil => exact absurd hv (by simp)
  | cons w vs ih =>
    obtain ⟨hw, hrest⟩ := List.pairwise_cons.mp hkeys
    rcases List.mem_cons.mp hv with rfl | hv
    · exact (kept_of_not_mem (fun x hx => (hw x hx).symm) _).trans (if_pos rfl)
    · exact ih hrest hv _

theorem serviceKey_inj {p p' : Protocol} {ip ip' : String} {port port' : UInt16} :
    serviceKey p ip port = serviceKey p' ip' port' ↔ p = p' ∧ ip = ip' ∧ port = port' := by
  constructor
  · intro h
    have hlist := congrArg String.toList h
    simp only [serviceKey, String.toList_append, List.append_assoc] at hlist
    have hcolon : ∀ q : Protocol, ':' ∉ q.string.toList := by
      intro q
      cases q <;> decide
    have hstring : ∀ q q' : Protocol, q.string = q'.string → q = q' := by
      intro q q'
      cases q <;> cases q' <;> decide
    obtain ⟨hp, hrest⟩ := append_cons_inj (hcolon p) (hcolon p') hlist
    obtain ⟨hip, hport⟩ := append_cons_inj_last (colon_not_mem_decimal _) (colon_not_mem_decimal _) hrest
    refine ⟨hstring _ _ (String.toList_inj.mp hp), String.toList_inj.mp hip, ?_⟩
    exact UInt16.toNat_inj.mp (decimal_inj.mp (String.toList_inj.mp hport))
  · intro ⟨hp, hip, hport⟩
    rw [hp, hip, hport]

theorem getService_eq (ipvs : IPVS) (protocol : Protocol) (ip : String) (port : UInt16) :
    ipvs.getService protocol ip port = ipvs (serviceKey protocol ip port) := by
  have hlower : String.ofList (protocol.string.toList.map Char.toLower) = protocol.string := by
    cases protocol <;> decide
  rw [IPVS.getService, hlower, serviceKey]

/-- A service that is read from the dump is found by its protocol, address and port, and nothing
    else is found. -/
theorem getService_dump {vs : List Virtual} (hkeys : vs.Pairwise (·.key ≠ ·.key)) (protocol : Protocol) (ip : IP)
    (port : UInt16) (svc : IPVSService) :
    (kept vs fun _ => none).getService protocol (ipString ip) port = some svc ↔
      ∃ v ∈ vs, (v.transport.protocol = protocol ∧ ip.to4 = some v.address.bytes ∧ v.port = port) ∧
        v.entry v.servers = svc := by
  have hkey : ∀ v : Virtual, v.key = serviceKey protocol (ipString ip) port ↔
      v.transport.protocol = protocol ∧ ip.to4 = some v.address.bytes ∧ v.port = port := by
    intro v
    rw [Virtual.key, serviceKey_inj, Address.text, eq_comm (a := ipString v.address.bytes),
      ipString_eq_iff v.address.four]
    rfl
  rw [getService_eq]
  constructor
  · intro h
    by_cases hmem : ∃ v ∈ vs, v.key = serviceKey protocol (ipString ip) port
    · obtain ⟨v, hv, hvkey⟩ := hmem
      rw [← hvkey, kept_of_mem hkeys hv] at h
      exact ⟨v, hv, (hkey v).mp hvkey, Option.some.inj h⟩
    · rw [kept_of_not_mem fun v hv hvkey => hmem ⟨v, hv, hvkey⟩] at h
      exact absurd h (by simp)
  · intro ⟨v, hv, hmatch, hsvc⟩
    rw [← (hkey v).mpr hmatch, kept_of_mem hkeys hv, hsvc]

end EliteTelemetry.Netstack.Ipvs
