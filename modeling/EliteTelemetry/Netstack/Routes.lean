/-
  EliteTelemetry.Netstack.Routes — the simulated router of a network namespace
  (`SimulateRouter` of `pkg/skoop/netstack/route.go`).

  A router keeps its rules in the order of their priorities and the routes of each table with
  the longest mask first. A packet gets the first route that contains its destination, of the
  first table that has one, of those its rules name: so it gets the route that the rules and
  routes say it should, whatever order they came in (`route_chosen`).

  `RouteSrc` looks for an IPv4 address on the interface of that route, and else on that of the
  default route. Then it returns the default route in place of the packet's, and where there is
  no default route it looks at it all the same (`the_missing_default_route_is_looked_at`). It
  does what it is for exactly if the packet's interface has an address, or the default route has
  none to offer (`routeSrc_right_iff`).
-/

import EliteTelemetry.Lib.AddrText
import EliteTelemetry.Lib.StableSort
import EliteTelemetry.Netstack.Matchers

namespace EliteTelemetry.Netstack.Routing

open EliteTelemetry.Lib.AddrText EliteTelemetry.Lib.StableSort EliteTelemetry.Skoop
open EliteTelemetry.Lib.Cidr (IPNet maskOnes)

/-! ## Rules and routes -/

structure Route where
  oifName : String
  dst : Option IPNet
  gw : IP
  priority : Int
  table : Int
  type : Int
  deriving DecidableEq, Repr

structure Rule where
  priority : Int
  table : Int
  mark : Int64
  mask : Int64
  src : Option IPNet
  dst : Option IPNet
  iifName : String
  oifName : String
  deriving DecidableEq

structure Interface where
  name : String
  addrs : List IP
  deriving DecidableEq, Repr

structure SimulateRouter where
  rules : List Rule
  routes : Int → List Route
  interfaces : List Interface

def nilPointer : RouteErr := .other "runtime error: invalid memory address or nil pointer dereference"

def rtTableMain : Int := 254

def Route.ones (route : Route) : Nat := (route.dst.map fun dst => maskOnes dst.mask).getD 0

def Route.contains (route : Route) (ip : IP) : Bool := route.dst.any (·.covers ip)

/-! ## The order they are kept in -/

def ruleLess (a b : Rule) : Prop := a.priority < b.priority

def routeLess (a b : Route) : Prop := if a.ones = b.ones then a.priority < b.priority else b.ones < a.ones

instance : DecidableRel ruleLess := fun a b => inferInstanceAs (Decidable (a.priority < b.priority))

instance : DecidableRel routeLess := fun a b =>
  inferInstanceAs (Decidable (if a.ones = b.ones then a.priority < b.priority else b.ones < a.ones))

def sortRule (rules : List Rule) : List Rule := sliceStable ruleLess rules

/-- The masks of two routes or more are compared, so none may be without one. -/
def sortRoutePanics (routes : List Route) : Bool := 2 ≤ routes.length ∧ routes.any (·.dst.isNone)

def sortRoute (routes : List Route) : List Route := sliceStable routeLess routes

def newSimulateRouter (rules : List Rule) (routes : List Route) (interfaces : List Interface) :
    Except RouteErr SimulateRouter :=
  let routeTableMap := fun table => routes.filter (·.table = table)
  if routes.any fun route => sortRoutePanics (routeTableMap route.table) then .error nilPointer
  else .ok { rules := sortRule rules, routes := fun table => sortRoute (routeTableMap table), interfaces }

/-! ## Routing -/

def matchRule (packet : Packet) (rule : Rule) (iif oif : String) : Bool :=
  if rule.src.any fun src => !src.covers packet.src then false
  else if rule.dst.any fun dst => !dst.covers packet.dst then false
  else if 0 < rule.mark ∧ (packet.mark.toUInt64.toInt64 ^^^ rule.mark) &&& rule.mask ≠ 0 then false
  else if rule.iifName ≠ "" ∧ rule.iifName ≠ iif then false
  else if rule.oifName ≠ "" ∧ rule.oifName ≠ oif then false
  else true

def lookup (dst : IP) : List Route → Except RouteErr (Option Route)
  | [] => .ok none
  | route :: routes =>
    match route.dst with
    | none => .error nilPointer
    | some block => if block.covers dst then .ok (some route) else lookup dst routes

namespace SimulateRouter

variable (r : SimulateRouter)

def lookupRoute (table : Int) (packet : Packet) : Except RouteErr (Option Route) := lookup packet.dst (r.routes table)

def routeBy (packet : Packet) (iif oif : String) : List Rule → Except RouteErr Route
  | [] => .error .noRouteToHost
  | rule :: rules =>
    if matchRule packet rule iif oif then
      match r.lookupRoute rule.table packet with
      | .error err => .error err
      | .ok (some route) => .ok route
      | .ok none => routeBy packet iif oif rules
    else routeBy packet iif oif rules

def route (packet : Packet) (iif oif : String) : Except RouteErr Route := r.routeBy packet iif oif r.rules

def defaultRoute (table : Int) : Option Route :=
  let table := if table = 0 then rtTableLocal else table
  (r.routes table).find? fun rt => rt.dst.all fun dst => ipNetString dst == "0.0.0.0/0"

def tableRoute (table : Int) (packet : Packet) : Except RouteErr Route :=
  match r.lookupRoute table packet with
  | .error err => .error err
  | .ok none => .error .noRouteToHost
  | .ok (some route) => .ok route

def router : Router where
  route packet iif oif := (r.route packet iif oif).map fun route => ⟨route.type, route.oifName⟩
  tableRoute table packet := (r.tableRoute table packet).map fun route => ⟨route.type, route.oifName⟩

end SimulateRouter

inductive SrcErr where
  | route (err : RouteErr)
  | nilRoute
  | noValidIP (message : String)
  deriving DecidableEq, Repr

def cannotFound (dst : IP) : SrcErr := .noValidIP ("cannot found valid ip for dst " ++ ipString dst ++ " route")

/-- The first IPv4 address of the interfaces a route leaves by, "" if there is none. The route is
    looked at for each interface. -/
def interfaceAddr : List Interface → Option Route → Except SrcErr String
  | [], _ => .ok ""
  | _ :: _, none => .error .nilRoute
  | oif :: interfaces, some rt =>
    if oif.name = rt.oifName then
      match oif.addrs.find? (·.to4.isSome) with
      | some addr => .ok (ipString addr)
      | none => interfaceAddr interfaces (some rt)
    else interfaceAddr interfaces (some rt)

def SimulateRouter.routeSrc (r : SimulateRouter) (packet : Packet) (iif oif : String) :
    Except SrcErr (String × Route) :=
  match r.route packet iif oif with
  | .error err => .error (.route err)
  | .ok route =>
    match interfaceAddr r.interfaces (some route) with
    | .error err => .error err
    | .ok dstRouteSrc =>
      if dstRouteSrc ≠ "" then .ok (dstRouteSrc, route)
      else
        let route := r.defaultRoute rtTableMain
        match interfaceAddr r.interfaces route, route with
        | .error err, _ => .error err
        | .ok dstRouteSrc, some route =>
          if dstRouteSrc = "" then .error (cannotFound packet.dst) else .ok (dstRouteSrc, route)
        -- only without interfaces, and then there is no address
        | .ok _, none => .error (cannotFound packet.dst)

/-! ## The route of a packet -/

/-- A longer mask is better and, of two that are as long, the lower priority number. -/
def Better (a b : Route) : Prop := b.ones < a.ones ∨ a.ones = b.ones ∧ a.priority < b.priority

section

variable (rules : List Rule) (routes : List Route) (packet : Packet) (iif oif : String)

def Route.For (packet : Packet) (table : Int) (route : Route) : Prop :=
  route.table = table ∧ route.contains packet.dst = true

def Chosen (route : Route) : Prop :=
  ∃ rule,
    First (fun a b => a.priority < b.priority)
        (fun rule => matchRule packet rule iif oif = true ∧ ∃ route ∈ routes, route.For packet rule.table) rules rule ∧
      First Better (·.For packet rule.table) routes route

end

theorem routeLess_iff (a b : Route) : routeLess a b ↔ Better a b := by
  unfold routeLess Better
  split
  · omega
  · omega

theorem strictWeak_ruleLess : StrictWeak ruleLess := by
  unfold ruleLess
  exact ⟨fun a b => by omega, fun a b c => by omega⟩

theorem strictWeak_better : StrictWeak Better := by
  unfold Better
  exact ⟨fun a b => by omega, fun a b c => by omega⟩

theorem strictWeak_routeLess : StrictWeak routeLess := by
  rw [show routeLess = Better from funext₂ fun a b => propext (routeLess_iff a b)]
  exact strictWeak_better

theorem lookup_eq {dst : IP} {routes : List Route} (h : ∀ route ∈ routes, route.dst.isSome = true) :
    lookup dst routes = .ok (routes.find? (·.contains dst)) := by
  induction routes with
  | nil => rfl
  | cons route routes ih =>
    obtain ⟨block, hblock⟩ := Option.isSome_iff_exists.mp (h route List.mem_cons_self)
    have hrest := ih fun x hx => h x (List.mem_cons_of_mem _ hx)
    have hcontains : route.contains dst = block.covers dst := by simp [Route.contains, hblock]
    by_cases hin : block.covers dst = true
    · simp [lookup, hblock, hin, hcontains]
    · simp [lookup, hblock, hin, hcontains, hrest]

variable {route : Route} {err : RouteErr}

/-- The loop over the rules takes the first that matches and whose table has a route. -/
theorem routeBy_eq_ok_iff {r : SimulateRouter} {packet : Packet} {found : Int → Option Route}
    (hfound : ∀ table, r.lookupRoute table packet = .ok (found table)) {iif oif : String} {rules : List Rule} :
    r.routeBy packet iif oif rules = .ok route ↔
      ∃ rule, rules.find? (fun rule => matchRule packet rule iif oif && (found rule.table).isSome) = some rule ∧
        found rule.table = some route := by
  induction rules with
  | nil => simp [SimulateRouter.routeBy]
  | cons rule rules ih =>
    by_cases hmatch : matchRule packet rule iif oif = true
    · cases hrule : found rule.table with
      | none => simp [SimulateRouter.routeBy, hmatch, hfound, hrule, ih]
      | some x => simp [SimulateRouter.routeBy, hmatch, hfound, hrule]
    · simp [SimulateRouter.routeBy, hmatch, ih]

theorem routeBy_error {r : SimulateRouter} {packet : Packet} {found : Int → Option Route}
    (hfound : ∀ table, r.lookupRoute table packet = .ok (found table)) {iif oif : String} {rules : List Rule}
    (h : r.routeBy packet iif oif rules = .error err) : err = .noRouteToHost := by
  induction rules with
  | nil => exact (Except.error.inj h).symm
  | cons rule rules ih =>
    unfold SimulateRouter.routeBy at h
    rw [hfound] at h
    split at h
    · split at h
      · next heq => exact absurd heq (by simp)
      · exact absurd h (by simp)
      · exact ih h
    · exact ih h

theorem first_routeLess_iff {p : Route → Prop} {routes : List Route} :
    First routeLess p routes route ↔ First Better p routes route := by
  rw [show routeLess = Better from funext₂ fun a b => propext (routeLess_iff a b)]

section

variable {rules : List Rule} {routes : List Route} {interfaces : List Interface}

def found (routes : List Route) (packet : Packet) (table : Int) : Option Route :=
  (sortRoute (routes.filter (·.table = table))).find? (·.contains packet.dst)

theorem found_eq_some_iff {packet : Packet} {table : Int} :
    found routes packet table = some route ↔ First Better (·.For packet table) routes route := by
  have hfirst : found routes packet table = some route ↔ _ := find?_sliceStable_eq_some_iff strictWeak_routeLess
  rw [hfirst, first_routeLess_iff, first_filter_iff]
  simp [Route.For]

theorem found_isSome_iff {packet : Packet} {table : Int} :
    (found routes packet table).isSome = true ↔ ∃ route ∈ routes, route.For packet table := by
  simp [found, sortRoute, mem_sliceStable, Route.For, and_assoc]

def routerOf (rules : List Rule) (routes : List Route) (interfaces : List Interface) : SimulateRouter :=
  ⟨sortRule rules, fun table => sortRoute (routes.filter (·.table = table)), interfaces⟩

section Dst

variable (hdst : ∀ route ∈ routes, route.dst.isSome = true)

include hdst

theorem newSimulateRouter_eq : newSimulateRouter rules routes interfaces = .ok (routerOf rules routes interfaces) := by
  refine if_neg ?_
  simp only [List.any_eq_true, sortRoutePanics, decide_eq_true_eq, not_exists, not_and]
  intro route _ _ x hx
  simp [Option.isSome_iff_ne_none.mp (hdst x (List.mem_filter.mp hx).1)]

theorem lookupRoute_routerOf (table : Int) (packet : Packet) :
    (routerOf rules routes interfaces).lookupRoute table packet = .ok (found routes packet table) := by
  refine lookup_eq fun route hroute => hdst route ?_
  exact (List.mem_filter.mp (mem_sliceStable.mp hroute)).1

variable {packet : Packet} {iif oif : String}

theorem route_routerOf_ok_iff {route : Route} :
    (routerOf rules routes interfaces).route packet iif oif = .ok route ↔ Chosen rules routes packet iif oif route := by
  rw [SimulateRouter.route, routeBy_eq_ok_iff fun table => lookupRoute_routerOf hdst table packet]
  refine exists_congr fun rule => ?_
  rw [routerOf, sortRule, find?_sliceStable_eq_some_iff strictWeak_ruleLess, found_eq_some_iff]
  simp only [Bool.and_eq_true, found_isSome_iff]
  rfl

theorem route_routerOf_error (h : (routerOf rules routes interfaces).route packet iif oif = .error err) :
    err = .noRouteToHost :=
  routeBy_error (fun table => lookupRoute_routerOf hdst table packet) h

end Dst

end

/-- Whatever rules and routes a router is made of, in whatever order, a packet gets the route it
    is to get, and no route to the host exactly if there is none. -/
theorem route_chosen (rules : List Rule) (routes : List Route) (interfaces : List Interface)
    (hdst : ∀ route ∈ routes, route.dst.isSome = true) (packet : Packet) (iif oif : String) :
    ∃ r, newSimulateRouter rules routes interfaces = .ok r ∧
      (∀ route, r.route packet iif oif = .ok route ↔ Chosen rules routes packet iif oif route) ∧
      (r.route packet iif oif = .error .noRouteToHost ↔ ¬∃ route, Chosen rules routes packet iif oif route) := by
  refine ⟨_, newSimulateRouter_eq hdst, fun route => route_routerOf_ok_iff hdst, fun h => ?_, fun h => ?_⟩
  · intro ⟨route, hchosen⟩
    rw [(route_routerOf_ok_iff hdst).mpr hchosen] at h
    exact absurd h (by simp)
  · cases hroute : (routerOf rules routes interfaces).route packet iif oif with
    | ok route => exact absurd ⟨route, (route_routerOf_ok_iff hdst).mp hroute⟩ h
    | error err => rw [route_routerOf_error hdst hroute]

/-! ### A table of its own for one source -/

def block (ip : IP) (ones : Nat) : Option IPNet := some ⟨ip, EliteTelemetry.Lib.Cidr.cidrMask 4 ones⟩

def toBlock (ip : IP) (ones : Nat) (table : Int) (oifName : String) : Route :=
  { oifName, dst := block ip ones, gw := [], priority := 0, table, type := rtnUnicast }

def everything (priority table : Int) : Rule :=
  { priority, table, mark := 0, mask := 0, src := none, dst := none, iifName := "", oifName := "" }

def oneSource : List Rule :=
  [everything 32766 rtTableMain, { everything 100 100 with src := block [192, 168, 0, 1] 32 }]

def ofTables : List Route :=
  [toBlock [0, 0, 0, 0] 0 rtTableMain "eth0", toBlock [10, 0, 0, 0] 16 100 "eth1", toBlock [10, 0, 0, 0] 24 100 "eth2"]

def fromSource (src dst : IP) : Packet := ⟨src, 0, dst, 0, .tcp, 0⟩

/-- The rule of the lower priority number comes first, and the longer mask in its table. -/
theorem route_chosen_of_the_source :
    let packet := fromSource [192, 168, 0, 1] [10, 0, 0, 7]
    Chosen oneSource ofTables packet "" "" (toBlock [10, 0, 0, 0] 24 100 "eth2") := by
  intro packet
  obtain ⟨r, hnew, hok, -⟩ := route_chosen oneSource ofTables [] (by decide) packet "" ""
  obtain rfl := Except.ok.inj hnew
  exact (hok _).mp (by decide +kernel)

/-! ## The source address for a packet -/

/-- The route leaves by an interface with an IPv4 address. -/
def SimulateRouter.HasIPv4 (r : SimulateRouter) (rt : Route) : Prop :=
  ∃ oif ∈ r.interfaces, oif.name = rt.oifName ∧ ∃ ip ∈ oif.addrs, ip.to4.isSome = true

/-- `RouteSrc` looks at no route that is not there, fails only where `Route` does or where neither
    the packet's route nor the default route leaves by an interface with an IPv4 address, and
    returns the packet's route. -/
structure SrcRight (r : SimulateRouter) (packet : Packet) (iif oif : String) : Prop where
  noNil : r.routeSrc packet iif oif ≠ .error .nilRoute
  fails : ∀ err, r.routeSrc packet iif oif = .error err → ∀ rt, r.route packet iif oif = .ok rt →
    ¬r.HasIPv4 rt ∧ ∀ d, r.defaultRoute rtTableMain = some d → ¬r.HasIPv4 d
  returns : ∀ src rt, r.routeSrc packet iif oif = .ok (src, rt) → r.route packet iif oif = .ok rt

theorem interfaceAddr_some (interfaces : List Interface) (rt : Route) :
    ∃ addr, interfaceAddr interfaces (some rt) = .ok addr ∧
      (addr ≠ "" ↔ ∃ oif ∈ interfaces, oif.name = rt.oifName ∧ ∃ ip ∈ oif.addrs, ip.to4.isSome = true) := by
  induction interfaces with
  | nil => exact ⟨"", rfl, by simp⟩
  | cons oif interfaces ih =>
    obtain ⟨addr, heq, haddr⟩ := ih
    unfold interfaceAddr
    by_cases hname : oif.name = rt.oifName
    · cases hfind : oif.addrs.find? (·.to4.isSome) with
      | some ip =>
        have hip := List.find?_some hfind
        obtain ⟨ip4, hip4⟩ := Option.isSome_iff_exists.mp hip
        refine ⟨ipString ip, by simp [hname], fun _ => ?_, fun _ => ipString_ne_empty hip4⟩
        exact ⟨oif, List.mem_cons_self, hname, ip, List.mem_of_find?_eq_some hfind, hip⟩
      | none =>
        refine ⟨addr, by simp [hname, heq], ?_⟩
        have hnone : ¬∃ ip ∈ oif.addrs, ip.to4.isSome = true := by simpa using hfind
        simp [haddr, hnone]
    · exact ⟨addr, by simp [hname, heq], by simp [haddr, hname]⟩

section

variable {r : SimulateRouter} {packet : Packet} {iif oif : String} {rt d : Route}

theorem routeSrc_of_hasIPv4 (hroute : r.route packet iif oif = .ok rt) (h : r.HasIPv4 rt) :
    ∃ src, r.routeSrc packet iif oif = .ok (src, rt) := by
  obtain ⟨addr, heq, haddr⟩ := interfaceAddr_some r.interfaces rt
  exact ⟨addr, by simp [SimulateRouter.routeSrc, hroute, heq, haddr.mpr h]⟩

/-- Without an address for the packet's route, all is left to the default route. -/
theorem routeSrc_of_not_hasIPv4 (hroute : r.route packet iif oif = .ok rt) (h : ¬r.HasIPv4 rt) :
    (∀ d, r.defaultRoute rtTableMain = some d → r.HasIPv4 d → ∃ src, r.routeSrc packet iif oif = .ok (src, d)) ∧
      (∀ d, r.defaultRoute rtTableMain = some d → ¬r.HasIPv4 d →
        r.routeSrc packet iif oif = .error (cannotFound packet.dst)) ∧
      (r.defaultRoute rtTableMain = none → r.interfaces = [] →
        r.routeSrc packet iif oif = .error (cannotFound packet.dst)) ∧
      (r.defaultRoute rtTableMain = none → r.interfaces ≠ [] → r.routeSrc packet iif oif = .error .nilRoute) := by
  obtain ⟨addr, heq, haddr⟩ := interfaceAddr_some r.interfaces rt
  obtain rfl : addr = "" := by
    by_contra hne
    exact h (haddr.mp hne)
  refine ⟨fun d hd hip => ?_, fun d hd hip => ?_, fun hd hifs => ?_, fun hd hifs => ?_⟩
  · obtain ⟨src, hsrc, hne⟩ := interfaceAddr_some r.interfaces d
    exact ⟨src, by simp [SimulateRouter.routeSrc, hroute, heq, hd, hsrc, hne.mpr hip]⟩
  · obtain ⟨src, hsrc, hne⟩ := interfaceAddr_some r.interfaces d
    obtain rfl : src = "" := by
      by_contra h
      exact hip (hne.mp h)
    simp [SimulateRouter.routeSrc, hroute, heq, hd, hsrc]
  · simp [SimulateRouter.routeSrc, hroute, hifs, interfaceAddr, hd]
  · obtain ⟨oif, rest, hcons⟩ := List.exists_cons_of_ne_nil hifs
    rw [hcons] at heq
    simp [SimulateRouter.routeSrc, hroute, hcons, heq, hd, interfaceAddr]

theorem srcRight_of_error (hroute : r.route packet iif oif = .error err) : SrcRight r packet iif oif := by
  have hsrc : r.routeSrc packet iif oif = .error (.route err) := by simp [SimulateRouter.routeSrc, hroute]
  refine ⟨?_, ?_, ?_⟩
  · simp [hsrc]
  · simp [hroute]
  · simp [hsrc]

theorem srcRight_of_hasIPv4 (hroute : r.route packet iif oif = .ok rt) (h : r.HasIPv4 rt) :
    SrcRight r packet iif oif := by
  obtain ⟨src, hsrc⟩ := routeSrc_of_hasIPv4 hroute h
  refine ⟨by simp [hsrc], by simp [hsrc], fun src' rt' h' => ?_⟩
  obtain ⟨-, rfl⟩ := Prod.mk.inj (Except.ok.inj (hsrc.symm.trans h'))
  exact hroute

theorem srcRight_of_nowhere (hroute : r.route packet iif oif = .ok rt) (h : ¬r.HasIPv4 rt)
    (hnone : ∀ d, r.defaultRoute rtTableMain = some d → ¬r.HasIPv4 d)
    (hifs : r.defaultRoute rtTableMain = none → r.interfaces = []) : SrcRight r packet iif oif := by
  obtain ⟨-, hsome, hempty, -⟩ := routeSrc_of_not_hasIPv4 hroute h
  have hsrc : r.routeSrc packet iif oif = .error (cannotFound packet.dst) := by
    cases hd : r.defaultRoute rtTableMain with
    | none => exact hempty hd (hifs hd)
    | some d => exact hsome d hd (hnone d hd)
  refine ⟨by simp [hsrc, cannotFound], fun _ _ rt' hrt' => ?_, by simp [hsrc]⟩
  obtain rfl := Except.ok.inj (hroute.symm.trans hrt')
  exact ⟨h, hnone⟩

end

/-- `RouteSrc` does what it is for exactly if the packet's route leaves by an interface with an IPv4
    address, or the default route is there to be looked at and does not. -/
theorem routeSrc_right_iff (r : SimulateRouter) (packet : Packet) (iif oif : String) :
    SrcRight r packet iif oif ↔
      ∀ rt, r.route packet iif oif = .ok rt → r.HasIPv4 rt ∨
        (∀ d, r.defaultRoute rtTableMain = some d → ¬r.HasIPv4 d) ∧
          (r.defaultRoute rtTableMain = none → r.interfaces = []) := by
  constructor
  · intro h rt hroute
    by_cases hip : r.HasIPv4 rt
    · exact .inl hip
    · obtain ⟨htaken, -, -, hnil⟩ := routeSrc_of_not_hasIPv4 hroute hip
      refine .inr ⟨fun d hd hdip => ?_, fun hd => ?_⟩
      · obtain ⟨src, hsrc⟩ := htaken d hd hdip
        -- the default route is returned, which has an address, so it is not the packet's
        obtain rfl := Except.ok.inj (hroute.symm.trans (h.returns _ _ hsrc))
        exact hip hdip
      · by_contra hifs
        exact h.noNil (hnil hd hifs)
  · intro h
    cases hroute : r.route packet iif oif with
    | error err => exact srcRight_of_error hroute
    | ok rt =>
      by_cases hip : r.HasIPv4 rt
      · exact srcRight_of_hasIPv4 hroute hip
      · obtain ⟨hnone, hifs⟩ := (h rt hroute).resolve_left hip
        exact srcRight_of_nowhere hroute hip hnone hifs

def unnumbered (others : List Route) : SimulateRouter where
  rules := [everything 32766 rtTableMain]
  routes table := if table = rtTableMain then toBlock [10, 0, 0, 0] 8 rtTableMain "eth1" :: others else []
  interfaces := [⟨"eth1", []⟩, ⟨"eth0", [[192, 168, 0, 2]]⟩]

/-- Without a default route it is looked at all the same, and with one the packet is said to
    leave by the default route's interface. -/
theorem the_missing_default_route_is_looked_at :
    let packet := fromSource [] [10, 0, 0, 7]
    let default := toBlock [0, 0, 0, 0] 0 rtTableMain "eth0"
    (unnumbered []).routeSrc packet "" "" = .error .nilRoute ∧
      (unnumbered [default]).route packet "" "" = .ok (toBlock [10, 0, 0, 0] 8 rtTableMain "eth1") ∧
      (unnumbered [default]).routeSrc packet "" "" = .ok ("192.168.0.2", default) := by
  decide +kernel

end EliteTelemetry.Netstack.Routing
