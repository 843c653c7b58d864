/-
  EliteTelemetry.Netstack.Matchers — the match modules of a rule
  (`pkg/skoop/netstack/iptables.go`: the `Match` methods; `ipset.go`: the sets they look in).

  A matcher is a module with an option and a value, and answers for a packet between two
  interfaces. Some of them answer without a look at the packet: connection tracking, comments
  and statistics match whatever comes, a rpfilter that is loose too.

  Addresses against prefixes and the text of an address are Go's, and any functions here.
-/

import EliteTelemetry.Lib.GoText
import EliteTelemetry.Netstack.Iptables
import EliteTelemetry.Skoop.Model
import Mathlib.Algebra.Group.Int.Defs

namespace EliteTelemetry.Netstack

open EliteTelemetry.Lib EliteTelemetry.Skoop

/-! ## What a matcher is given -/

structure IPSet where
  name : String
  type : String
  members : List String
  deriving DecidableEq, Repr

abbrev IPSetManager := List IPSet

def IPSetManager.getIPSet (m : IPSetManager) (name : String) : Option IPSet := m.reverse.find? (·.name = name)

inductive RouteErr where
  | noRouteToHost
  | other (message : String)
  deriving DecidableEq, Repr

structure Route where
  type : Int
  oifName : String
  deriving DecidableEq, Repr

structure Router where
  route : Packet → String → String → Except RouteErr Route
  tableRoute : Int → Packet → Except RouteErr Route

structure Traced where
  packet : Packet
  iif : String
  oif : String
  ipset : Option IPSetManager
  router : Option Router

structure Net where
  ipMatchPrefix : IP → String → Except String Bool
  ipString : IP → String

def unsupported (message : String) : Except String Bool := .error ("unsupported " ++ message)

variable (net : Net)

/-! ## The modules -/

/-- A module's matcher. Every module has an option, and a value that is a text but for the
    ports of TCP and UDP. -/
inductive Matcher where
  | tcp (option : String) (value : UInt16)
  | udp (option : String) (value : UInt16)
  | ip (option value : String)
  | set (option value : String)
  | comment (option value : String)
  | multiport (option value : String)
  | mark (option value : String)
  | statistic (option value : String)
  | conntrack (option value : String)
  | addrtype (option value : String)
  | rpfilter (option value : String)
  deriving DecidableEq, Repr

def matchPort (protocol : Protocol) (option : String) (value : UInt16) (packet : Packet) : Except String Bool :=
  if packet.protocol ≠ protocol then .ok false
  else if option = "dport" then .ok (packet.dport == value)
  else if option = "sport" then .ok (packet.sport == value)
  else unsupported (protocol.string ++ " match option " ++ option)

def matchIP (option value : String) (t : Traced) : Except String Bool :=
  if option = "i" then .ok (value == t.iif)
  else if option = "o" then .ok (value == t.oif)
  else if option = "s" then net.ipMatchPrefix t.packet.src value
  else if option = "d" then net.ipMatchPrefix t.packet.dst value
  else if option = "p" then .ok (GoText.equalFold t.packet.protocol.string value)
  else unsupported ("match option " ++ option)

def flagIP (packet : Packet) (field : String) : IP :=
  if field = "src" then packet.src
  else if field = "dst" then packet.dst
  else List.replicate 10 0 ++ [255, 255, 0, 0, 0, 0]

def flagPort (packet : Packet) (field : String) : UInt16 :=
  if field = "src" then packet.sport
  else if field = "dst" then packet.dport
  else 0

/-- A flag by its position; one that is not there ends the program. -/
def flag (fields : List String) (i : Nat) : Except String String :=
  match fields[i]? with
  | some field => .ok field
  | none => .error ("runtime error: index out of range [" ++ i.repr ++ "] with length " ++ fields.length.repr)

def matchIPSet (ipset : IPSet) (flags : String) (packet : Packet) : Except String Bool := do
  let fields := GoText.split ',' flags
  if ipset.type = "hash:net" then
    return ipset.members.any fun m => (net.ipMatchPrefix (flagIP packet flags) m).toOption == some true
  else if ipset.type = "hash:ip,port" then
    let addr := flagIP packet (← flag fields 0)
    let port := flagPort packet (← flag fields 1)
    return ipset.members.contains
      (net.ipString addr ++ "," ++ packet.protocol.string ++ ":" ++ port.toNat.repr)
  else if ipset.type = "hash:ip,port,ip" then
    let addr := flagIP packet (← flag fields 0)
    let port := flagPort packet (← flag fields 1)
    let addr2 := flagIP packet (← flag fields 2)
    return ipset.members.contains
      (net.ipString addr ++ "," ++ packet.protocol.string ++ ":" ++ port.toNat.repr ++ "," ++ net.ipString addr2)
  else if ipset.type = "bitmap:port" then
    return ipset.members.contains (flagPort packet flags).toNat.repr
  else unsupported ("ipset type " ++ ipset.type ++ " of " ++ ipset.name)

def matchSet (value : String) (t : Traced) : Except String Bool :=
  match GoText.fields value with
  | [setName, flags] =>
    match t.ipset with
    | none => .error "cannot get ipset from context"
    | some manager =>
      match manager.getIPSet setName with
      | none => .ok false
      | some ipset => matchIPSet net ipset flags t.packet
  | _ => .error ("invalid set argument format " ++ value)

def atoi16 (s : String) : Nat := ((GoText.atoi s.toList).1 % 65536).toNat

def matchPorts (value : String) (port : UInt16) : Bool :=
  (GoText.split ',' value).any fun f =>
    match GoText.split ':' f with
    | first :: last :: _ => atoi16 first ≤ port.toNat && port.toNat ≤ atoi16 last
    | _ => port.toNat == atoi16 f

def matchMultiPort (option value : String) (packet : Packet) : Except String Bool :=
  if option = "dports" then .ok (matchPorts value packet.dport)
  else if option = "sports" then .ok (matchPorts value packet.sport)
  else if option = "ports" then .ok (matchPorts value packet.sport || matchPorts value packet.dport)
  else unsupported ("multiport option " ++ option)

/-- `uint32` of what `ParseInt` answers: a number of more than 31 bits is cut to them. -/
def parseMark (s : String) : UInt32 := UInt32.ofNat ((GoText.parseInt s.toList 0 32).1 % 2 ^ 32).toNat

def parseMarkValue (s : String) : UInt32 × UInt32 :=
  match GoText.split '/' s with
  | val :: mask :: _ => (parseMark val, parseMark mask)
  | _ => (parseMark s, 0xffffffff)

def matchMark (value : String) (packet : Packet) : Bool :=
  let (mark, mask) := parseMarkValue value
  mark == packet.mark &&& mask

def addrOf (option : String) (packet : Packet) : IP :=
  if option = "src-type" then packet.src else if option = "dst-type" then packet.dst else []

def rtnTypes : List (String × Int) :=
  [("UNICAST", 1), ("LOCAL", 2), ("BROADCAST", 3), ("ANYCAST", 4), ("BLACKHOLE", 6), ("UNREACHABLE", 7),
    ("PROHIBIT", 8)]

def noRouter : Except String Bool := .error "cannot get router from context, router: <nil>"

def rtnUnicast : Int := 1

def rtTableLocal : Int := 255

/-- The type is that of the route in the local table, which is looked up for the packet and so
    for its destination, whichever address the option is about. -/
def matchAddrType (option value : String) (t : Traced) : Except String Bool :=
  if option = "limit-iface-in" then .ok (t.iif == value)
  else if option = "limit-iface-out" then .ok (t.oif == value)
  else if value = "UNSPEC" then .ok (addrOf option t.packet).isUnspecified
  else if value = "MULTICAST" then .ok (addrOf option t.packet).isMulticast
  else
    match t.router with
    | none => noRouter
    | some router =>
      match router.tableRoute rtTableLocal t.packet with
      | .ok route => .ok (rtnTypes.lookup value == some route.type)
      | .error .noRouteToHost => .ok (rtnTypes.lookup value == some rtnUnicast)
      | .error (.other message) => .error message

def matchRPFilter (option : String) (t : Traced) : Except String Bool :=
  if option = "loose" then .ok true
  else
    match t.router with
    | none => noRouter
    | some router =>
      match router.route t.packet t.iif t.oif with
      | .ok route => .ok (if option = "invert" then route.oifName != t.iif else route.oifName == t.iif)
      | .error .noRouteToHost => .ok false
      | .error (.other message) => .error message

def Matcher.run : Matcher → Traced → Except String Bool
  | .tcp option value, t => matchPort .tcp option value t.packet
  | .udp option value, t => matchPort .udp option value t.packet
  | .ip option value, t => matchIP net option value t
  | .set _ value, t => matchSet net value t
  | .comment _ _, _ => .ok true
  | .multiport option value, t => matchMultiPort option value t.packet
  | .mark _ value, t => .ok (matchMark value t.packet)
  | .statistic _ _, _ => .ok true
  | .conntrack _ _, _ => .ok true
  | .addrtype option value, t => matchAddrType option value t
  | .rpfilter option _, t => matchRPFilter option t

end EliteTelemetry.Netstack
