/-
  EliteTelemetry.Netstack.SourceMatch — the matches that ask about a packet's source
  (`AddrType.Match` and `RPFilter.Match` of `pkg/skoop/netstack/iptables.go`, with the router
  of `route.go`).

  The type of a source address, and whether its packets are expected on the interface they come
  in by, are matters of the source alone. But both matches hand the router the packet as it is,
  and a router routes to the destination: the type is that of the destination, and the reverse
  path is the path onwards (`a_source_is_local_if_the_destination_is`).

  So two packets from one source are told apart exactly where the routes tell their destinations
  apart in what is asked: the type of the best route in the local table, or the interface of the
  route that the rules and routes choose (`source_matches_iff`).
-/

import EliteTelemetry.Netstack.Routes

namespace EliteTelemetry.Netstack.Routing

open EliteTelemetry.Lib.AddrText EliteTelemetry.Lib.StableSort EliteTelemetry.Skoop

/-! ## What is asked of the destination -/

def SimulateRouter.traced (r : SimulateRouter) (ipset : Option IPSetManager) (packet : Packet) (iif oif : String) :
    Traced :=
  { packet, iif, oif, ipset, router := some r.router }

section

variable (rules : List Rule) (routes : List Route)

/-- The best route to the destination in the local table is of the type; without one there it is
    unicast. -/
def IsType (value : String) (packet : Packet) : Prop :=
  (∃ route, First Better (·.For packet rtTableLocal) routes route ∧ rtnTypes.lookup value = some route.type) ∨
    (¬∃ route ∈ routes, route.For packet rtTableLocal) ∧ rtnTypes.lookup value = some rtnUnicast

/-- There is a route for the packet, and it leaves by the interface the packet came in by. With the
    option to invert, by another. -/
def Passes (option : String) (packet : Packet) (iif oif : String) : Prop :=
  ∃ route, Chosen rules routes packet iif oif route ∧
    if option = "invert" then route.oifName ≠ iif else route.oifName = iif

end

/-! ## What the matches answer -/

theorem answers_eq_iff {a b : Except String Bool} {p q : Prop} (ha : ∃ x, a = .ok x ∧ (x = true ↔ p))
    (hb : ∃ y, b = .ok y ∧ (y = true ↔ q)) : a = b ↔ (p ↔ q) := by
  obtain ⟨x, rfl, hx⟩ := ha
  obtain ⟨y, rfl, hy⟩ := hb
  rw [← hx, ← hy, Except.ok.injEq, Bool.eq_iff_iff]

section

variable {rules : List Rule} {routes : List Route} {interfaces : List Interface}
  (hdst : ∀ route ∈ routes, route.dst.isSome = true) (ipset : Option IPSetManager) (packet : Packet) (iif oif : String)
  {value option : String}

include hdst

/-- The type match with the option for the source answers for the destination. -/
theorem matchAddrType_src (hspec : value ≠ "UNSPEC") (hmulti : value ≠ "MULTICAST") :
    ∃ x, matchAddrType "src-type" value ((routerOf rules routes interfaces).traced ipset packet iif oif) = .ok x ∧
      (x = true ↔ IsType routes value packet) := by
  have hlookup : (routerOf rules routes interfaces).lookupRoute rtTableLocal packet = _ :=
    lookupRoute_routerOf hdst rtTableLocal packet
  simp only [matchAddrType, SimulateRouter.traced, SimulateRouter.router, SimulateRouter.tableRoute, hlookup, hspec,
    hmulti, IsType, ← found_eq_some_iff, ← found_isSome_iff]
  cases found routes packet rtTableLocal with
  | none => exact ⟨_, rfl, by simp⟩
  | some route => exact ⟨_, rfl, by simp⟩

theorem matchRPFilter_strict (hstrict : option ≠ "loose") :
    ∃ x, matchRPFilter option ((routerOf rules routes interfaces).traced ipset packet iif oif) = .ok x ∧
      (x = true ↔ Passes rules routes option packet iif oif) := by
  simp only [matchRPFilter, SimulateRouter.traced, SimulateRouter.router, Passes, hstrict, if_false,
    ← @route_routerOf_ok_iff rules routes interfaces hdst]
  cases hroute : (routerOf rules routes interfaces).route packet iif oif with
  | error err =>
    obtain rfl := route_routerOf_error hdst hroute
    exact ⟨false, rfl, by simp⟩
  | ok route =>
    refine ⟨_, rfl, ?_⟩
    by_cases hinvert : option = "invert"
    · simp [hinvert]
    · simp [hinvert]

end

/-- Two packets from one source get the same answers of a router exactly where the best local routes to
    their destinations are both of the type that is asked for or neither, and where the routes that are
    chosen for them both leave by the interface, or neither. -/
theorem source_matches_iff (rules : List Rule) (routes : List Route) (interfaces : List Interface)
    (hdst : ∀ route ∈ routes, route.dst.isSome = true) (ipset : Option IPSetManager) (packet : Packet) (dst : IP)
    (dport : UInt16) (iif oif value option : String) :
    ∃ r, newSimulateRouter rules routes interfaces = .ok r ∧
      (matchAddrType "src-type" value (r.traced ipset packet iif oif) =
            matchAddrType "src-type" value (r.traced ipset { packet with dst, dport } iif oif) ↔
          value = "UNSPEC" ∨ value = "MULTICAST" ∨
            (IsType routes value packet ↔ IsType routes value { packet with dst, dport })) ∧
      (matchRPFilter option (r.traced ipset packet iif oif) =
            matchRPFilter option (r.traced ipset { packet with dst, dport } iif oif) ↔
          option = "loose" ∨
            (Passes rules routes option packet iif oif ↔
              Passes rules routes option { packet with dst, dport } iif oif)) := by
  refine ⟨_, newSimulateRouter_eq hdst, ?_, ?_⟩
  · by_cases hspec : value = "UNSPEC"
    · simp [matchAddrType, SimulateRouter.traced, hspec, addrOf]
    · by_cases hmulti : value = "MULTICAST"
      · simp [matchAddrType, SimulateRouter.traced, hmulti, addrOf]
      · rw [answers_eq_iff (matchAddrType_src hdst ipset packet iif oif hspec hmulti)
          (matchAddrType_src hdst ipset _ iif oif hspec hmulti)]
        simp [hspec, hmulti]
  · by_cases hloose : option = "loose"
    · simp [matchRPFilter, hloose]
    · rw [answers_eq_iff (matchRPFilter_strict hdst ipset packet iif oif hloose)
        (matchRPFilter_strict hdst ipset _ iif oif hloose)]
      simp [hloose]

/-! ## A host of its own network -/

def hostRules : List Rule := [everything 0 rtTableLocal, everything 32766 rtTableMain]

/-- The host is 10.0.0.5, and `eth0` is its interface in 10.0.0.0/24. -/
def hostRoutes : List Route :=
  [{ toBlock [10, 0, 0, 5] 32 rtTableLocal "lo" with type := 2 }, toBlock [10, 0, 0, 0] 24 rtTableMain "eth0"]

/-- Its neighbours are not in the local table: a source is as little local to the one as to the other. -/
theorem source_matches_neighbours :
    ∃ r, newSimulateRouter hostRules hostRoutes [] = .ok r ∧
      matchAddrType "src-type" "LOCAL" (r.traced none (fromSource [192, 168, 0, 1] [10, 0, 0, 6]) "eth0" "") =
        matchAddrType "src-type" "LOCAL" (r.traced none (fromSource [192, 168, 0, 1] [10, 0, 0, 7]) "eth0" "") := by
  obtain ⟨r, hr, htype, -⟩ := source_matches_iff hostRules hostRoutes [] (by decide) none
    (fromSource [192, 168, 0, 1] [10, 0, 0, 6]) [10, 0, 0, 7] 0 "eth0" "" "LOCAL" ""
  have hnot : ∀ dst, (∀ route ∈ hostRoutes, route.table = rtTableLocal → route.contains dst = false) →
      ¬IsType hostRoutes "LOCAL" (fromSource [192, 168, 0, 1] dst) := by
    rintro dst hno (⟨route, hfirst, -⟩ | ⟨-, hunicast⟩)
    · have hcontains : route.contains dst = true := hfirst.holds.2
      exact absurd (hcontains.symm.trans (hno route hfirst.mem hfirst.holds.1)) (by simp)
    · exact absurd hunicast (by decide)
  exact ⟨r, hr, htype.mpr (.inr (.inr (iff_of_false (hnot _ (by decide)) (hnot _ (by decide)))))⟩

/-- A packet that comes in by `eth0` for the host itself has a local source and fails the reverse
    path filter; one from the same source for its neighbour does neither. -/
theorem a_source_is_local_if_the_destination_is :
    let host := routerOf hostRules hostRoutes []
    let packet := fun dst => fromSource [192, 168, 0, 1] dst
    let isLocal := fun dst => matchAddrType "src-type" "LOCAL" (host.traced none (packet dst) "eth0" "")
    let expected := fun dst => matchRPFilter "" (host.traced none (packet dst) "eth0" "")
    newSimulateRouter hostRules hostRoutes [] = .ok host ∧
      isLocal [10, 0, 0, 5] = .ok true ∧ isLocal [10, 0, 0, 6] = .ok false ∧
      expected [10, 0, 0, 5] = .ok false ∧ expected [10, 0, 0, 6] = .ok true :=
  ⟨newSimulateRouter_eq (by decide), by decide +kernel⟩

end EliteTelemetry.Netstack.Routing
