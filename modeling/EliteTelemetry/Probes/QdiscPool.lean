/-
  EliteTelemetry.Probes.QdiscPool — the netlink connections of the qdisc probe (`Probe` of
  `probe/nlqdisc/nlqdiscstats.go`: `Start`, `Stop`, `getClient`, `getQdiscStats`, `dropClient`,
  `closeUnusedClients`, `close` and `getConn`).

  Any number of scrapes run at once. A scrape looks the client of a namespace up in a map; if
  there is none it dials, without the lock, and looks again: if the probe was stopped meanwhile,
  or another scrape was faster, it closes its own connection. A request that fails takes its
  client out of the map and closes it. `Stop` takes the whole map out and closes what was in it.

  A step is a section under the probe's lock, or a dial, a request or a close outside of it, and
  which comes next is open. A close waits while a request is under way on its client.

  Each connection that is open has one holder: the map, a call that has dialed, or a `Stop` that
  has not yet come to it (`inv_run`). But `getConn` returns without closing when an option cannot
  be set. So when no call and no `Stop` is under way, the connections that are open are those in
  the map and those that were lost in this way (`quiet_open_iff`).
-/

import EliteTelemetry.Lib.Machine
import Mathlib.Data.List.AList

namespace EliteTelemetry.Probes.QdiscPool

open EliteTelemetry.Lib.Machine

/-! ## The probe -/

/-- A map from network namespaces to clients. A client is named by the number of its connection. -/
abbrev Clients := AList fun _ : Nat => Nat

inductive Call where
  | idle
  | dialing (netns : Nat)
  | dialed (netns client : Nat)
  /-- It closes its own client, and goes on with another one or returns. -/
  | closing (client : Nat) (existing : Option (Nat × Nat))
  | requesting (netns client : Nat)
  | failed (netns client : Nat)
  deriving DecidableEq, Repr

inductive Dial where
  | ok
  | fails
  /-- The connection is made and an option cannot be set. -/
  | optionFails
  deriving DecidableEq, Repr

structure Probe where
  stopped : Bool
  clients : Clients
  /-- The connection is open: `conn` of the client is not nil, or it has no client. -/
  isOpen : Nat → Bool
  made : Nat
  calls : Nat → Call
  /-- What a call of `Stop` has taken out of the map and not yet closed. -/
  stopping : Nat → Clients
  /-- The connections that `getConn` returned without. -/
  lost : List Nat

inductive CallStep where
  /-- The first section of `getClient`. -/
  | lookup (netns : Nat)
  | dial (outcome : Dial)
  /-- The second section of `getClient`. -/
  | publish
  | closeOwn
  | execute (ok : Bool)
  | drop
  deriving DecidableEq, Repr

inductive Step where
  | start
  /-- The section of `Stop` under the lock, in its call `k`. -/
  | stop (k : Nat)
  /-- The call `k` of `Stop` comes to a client. -/
  | stopCloses (k netns : Nat)
  | call (t : Nat) (e : CallStep)
  | closeUnusedClients (active : List Nat)
  deriving DecidableEq, Repr

namespace Probe

def new : Probe := ⟨false, ∅, fun _ => false, 0, fun _ => .idle, fun _ => ∅, []⟩

def close (p : Probe) (c : Nat) : Probe := { p with isOpen := Function.update p.isOpen c false }

def setCall (p : Probe) (t : Nat) (call : Call) : Probe := { p with calls := Function.update p.calls t call }

def closeAt (p : Probe) (netns : Nat) : Probe :=
  match p.clients.lookup netns with
  | none => p
  | some c => { p.close c with clients := p.clients.erase netns }

def connect (p : Probe) : Probe := { p with isOpen := Function.update p.isOpen p.made true, made := p.made + 1 }

def getConn (p : Probe) (t netns : Nat) : Dial → Probe
  | .ok => p.connect.setCall t (.dialed netns p.made)
  | .fails => p.setCall t .idle
  | .optionFails => { p.connect.setCall t .idle with lost := p.made :: p.lost }

def lookupClient (p : Probe) (t netns : Nat) : Probe :=
  if p.stopped then p
  else
    match p.clients.lookup netns with
    | some c => p.setCall t (.requesting netns c)
    | none => p.setCall t (.dialing netns)

def publish (p : Probe) (t netns c : Nat) : Probe :=
  if p.stopped then p.setCall t (.closing c none)
  else
    match p.clients.lookup netns with
    | some existing => p.setCall t (.closing c (some (netns, existing)))
    | none => { p.setCall t (.requesting netns c) with clients := p.clients.insert netns c }

def resume : Option (Nat × Nat) → Call
  | some (netns, existing) => .requesting netns existing
  | none => .idle

def dropClient (p : Probe) (t netns c : Nat) : Probe :=
  if p.clients.lookup netns = some c then (p.closeAt netns).setCall t .idle else p.setCall t .idle

def closeUnusedClients (p : Probe) (active : List Nat) : Probe :=
  p.clients.keys.foldl (fun p netns => if netns ∈ active then p else p.closeAt netns) p

def callStep (p : Probe) (t : Nat) : Call → CallStep → Option Probe
  | .idle, .lookup netns => some (p.lookupClient t netns)
  | .dialing netns, .dial outcome => some (p.getConn t netns outcome)
  | .dialed netns c, .publish => some (p.publish t netns c)
  | .closing c existing, .closeOwn => some ((p.close c).setCall t (resume existing))
  -- without a connection there is no request
  | .requesting netns c, .execute ok => some (p.setCall t (if p.isOpen c && !ok then .failed netns c else .idle))
  | .failed netns c, .drop => some (p.dropClient t netns c)
  | _, _ => none

def step (p : Probe) : Step → Option Probe
  | .start => some { p with stopped := false }
  | .stop k =>
    if (p.stopping k).keys = [] then
      some { p with stopped := true, clients := ∅, stopping := Function.update p.stopping k p.clients }
    else none
  | .stopCloses k netns =>
    match (p.stopping k).lookup netns with
    | some c => some { p.close c with stopping := Function.update p.stopping k ((p.stopping k).erase netns) }
    | none => none
  | .call t e => p.callStep t (p.calls t) e
  | .closeUnusedClients active => some (p.closeUnusedClients active)

end Probe

/-! ## Who holds a connection -/

inductive Holder where
  | nobody
  | map (netns : Nat)
  | call (t : Nat)
  | stop (k netns : Nat)
  | lost
  deriving DecidableEq, Repr

def Call.own : Call → Option Nat
  | .dialed _ c => some c
  | .closing c _ => some c
  | _ => none

structure Holds (p : Probe) (h : Nat → Holder) : Prop where
  map : ∀ netns c, p.clients.lookup netns = some c ↔ h c = .map netns
  call : ∀ t c, (p.calls t).own = some c ↔ h c = .call t
  stop : ∀ k netns c, (p.stopping k).lookup netns = some c ↔ h c = .stop k netns
  lost : ∀ c, c ∈ p.lost ↔ h c = .lost
  isOpen : ∀ c, p.isOpen c = true ↔ h c ≠ .nobody
  unmade : ∀ c, p.made ≤ c → h c = .nobody
  stopped : p.stopped = true → ∀ netns, p.clients.lookup netns = none

theorem lookup_erase_eq (m : Clients) (netns n : Nat) :
    (m.erase netns).lookup n = if n = netns then none else m.lookup n := by
  split_ifs with h
  · rw [h, AList.lookup_erase]
  · rw [AList.lookup_erase_ne h]

/-- Every connection that is open has one holder. -/
def Inv (p : Probe) : Prop := ∃ h, Holds p h

theorem inv_new : Inv .new := by
  refine ⟨fun _ => .nobody, ?_, ?_, ?_, ?_, ?_, ?_, ?_⟩
  · simp [Probe.new]
  · simp [Probe.new, Call.own]
  · simp [Probe.new]
  · simp [Probe.new]
  · simp [Probe.new]
  · simp
  · simp [Probe.new]

namespace Holds

variable {p : Probe} {h : Nat → Holder}

theorem setCall (hp : Holds p h) {t : Nat} {call : Call} (hown : call.own = (p.calls t).own) :
    Holds (p.setCall t call) h where
  map := hp.map
  call := by
    intro t' c
    by_cases ht : t' = t
    · subst ht
      simpa [Probe.setCall, hown] using hp.call t' c
    · simpa [Probe.setCall, ht] using hp.call t' c
  stop := hp.stop
  lost := hp.lost
  isOpen := hp.isOpen
  unmade := hp.unmade
  stopped := hp.stopped

theorem closeAt (hp : Holds p h) (netns : Nat) : ∃ h', Holds (p.closeAt netns) h' := by
  cases hlookup : p.clients.lookup netns with
  | none => exact ⟨h, by simpa [Probe.closeAt, hlookup] using hp⟩
  | some c₀ =>
    have hp' : p.closeAt netns = { p.close c₀ with clients := p.clients.erase netns } := by
      simp [Probe.closeAt, hlookup]
    rw [hp']
    obtain ⟨hmap, hcall, hstop, hlost, hopen, hunmade, hstopped⟩ := hp
    refine ⟨Function.update h c₀ .nobody, ?_⟩
    constructor <;> simp only [Probe.close, lookup_erase_eq, Function.update_apply] <;> grind

theorem stopCloses (hp : Holds p h) {k netns c₀ : Nat} (hlookup : (p.stopping k).lookup netns = some c₀) :
    ∃ h', Holds { p.close c₀ with stopping := Function.update p.stopping k ((p.stopping k).erase netns) } h' := by
  obtain ⟨hmap, hcall, hstop, hlost, hopen, hunmade, hstopped⟩ := hp
  refine ⟨Function.update h c₀ .nobody, ?_⟩
  constructor <;> simp only [Probe.close, Function.update_apply] <;> grind [lookup_erase_eq]

theorem closeOwn (hp : Holds p h) {t c₀ : Nat} (hown : (p.calls t).own = some c₀) {call : Call}
    (hcall : call.own = none) :
    ∃ h', Holds ((p.close c₀).setCall t call) h' := by
  obtain ⟨hmap, hcalls, hstop, hlost, hopen, hunmade, hstopped⟩ := hp
  refine ⟨Function.update h c₀ .nobody, ?_⟩
  constructor <;> simp only [Probe.close, Probe.setCall, Function.update_apply] <;> grind

theorem dialed (hp : Holds p h) {t netns : Nat} (hown : (p.calls t).own = none) :
    ∃ h', Holds (p.connect.setCall t (.dialed netns p.made)) h' := by
  obtain ⟨hmap, hcalls, hstop, hlost, hopen, hunmade, hstopped⟩ := hp
  refine ⟨Function.update h p.made (.call t), ?_⟩
  constructor <;> simp only [Probe.connect, Probe.setCall, Function.update_apply] <;> grind [Call.own]

theorem lose (hp : Holds p h) {t : Nat} (hown : (p.calls t).own = none) :
    ∃ h', Holds { p.connect.setCall t .idle with lost := p.made :: p.lost } h' := by
  obtain ⟨hmap, hcalls, hstop, hlost, hopen, hunmade, hstopped⟩ := hp
  refine ⟨Function.update h p.made .lost, ?_⟩
  constructor <;> simp only [Probe.connect, Probe.setCall, Function.update_apply, List.mem_cons] <;> grind [Call.own]

theorem lookup_insert_eq (m : Clients) (netns c n : Nat) :
    (m.insert netns c).lookup n = if n = netns then some c else m.lookup n := by
  split_ifs with h
  · rw [h, AList.lookup_insert]
  · rw [AList.lookup_insert_ne h]

theorem put (hp : Holds p h) {t netns c₀ : Nat} (hown : (p.calls t).own = some c₀)
    (hnone : p.clients.lookup netns = none) (hrunning : p.stopped = false) :
    ∃ h', Holds { p.setCall t (.requesting netns c₀) with clients := p.clients.insert netns c₀ } h' := by
  obtain ⟨hmap, hcalls, hstop, hlost, hopen, hunmade, hstopped⟩ := hp
  refine ⟨Function.update h c₀ (.map netns), ?_⟩
  constructor <;> simp only [Probe.setCall, lookup_insert_eq, Function.update_apply] <;> grind [Call.own]

def handOver (k : Nat) : Holder → Holder
  | .map netns => .stop k netns
  | other => other

theorem takeOut (hp : Holds p h) {k : Nat} (hidle : ∀ netns, (p.stopping k).lookup netns = none) :
    Holds { p with stopped := true, clients := ∅, stopping := Function.update p.stopping k p.clients }
      fun c => handOver k (h c) where
  map := by
    intro netns c
    cases hc : h c <;> simp [handOver]
  call := by
    intro t c
    rw [hp.call t c]
    cases hc : h c <;> simp [handOver]
  stop := by
    intro k' netns c
    have hmap := hp.map netns c
    have hstop := hp.stop k' netns c
    show (Function.update p.stopping k p.clients k').lookup netns = some c ↔ _
    by_cases hk : k' = k
    · subst hk
      rw [hidle netns] at hstop
      rw [Function.update_self, hmap]
      cases hc : h c <;> simp_all [handOver]
    · rw [Function.update_of_ne hk, hstop]
      cases hc : h c <;> simp [handOver, Ne.symm hk]
  lost := by
    intro c
    rw [hp.lost c]
    cases hc : h c <;> simp [handOver]
  isOpen := by
    intro c
    rw [hp.isOpen c]
    cases hc : h c <;> simp [handOver]
  unmade := by
    intro c hc
    rw [hp.unmade c hc]
    rfl
  stopped := fun _ _ => rfl

end Holds

/-! ## Runs -/

theorem inv_closeUnusedClients {p : Probe} (hinv : Inv p) (active : List Nat) : Inv (p.closeUnusedClients active) := by
  unfold Probe.closeUnusedClients
  generalize p.clients.keys = keys
  induction keys generalizing p with
  | nil => exact hinv
  | cons netns keys ih =>
    rw [List.foldl_cons]
    apply ih
    split
    · exact hinv
    · obtain ⟨h, hp⟩ := hinv
      exact hp.closeAt netns

theorem inv_getConn {p : Probe} (hinv : Inv p) {t netns : Nat} (hcall : p.calls t = .dialing netns) (outcome : Dial) :
    Inv (p.getConn t netns outcome) := by
  obtain ⟨h, hp⟩ := hinv
  have hown : (p.calls t).own = none := by rw [hcall]; rfl
  cases outcome with
  | ok => exact hp.dialed hown
  | fails => exact ⟨h, hp.setCall (by rw [hown]; rfl)⟩
  | optionFails => exact hp.lose hown

theorem inv_publish {p : Probe} (hinv : Inv p) {t netns c : Nat} (hcall : p.calls t = .dialed netns c) :
    Inv (p.publish t netns c) := by
  obtain ⟨h, hp⟩ := hinv
  have hown : (p.calls t).own = some c := by rw [hcall]; rfl
  unfold Probe.publish
  split
  · exact ⟨h, hp.setCall (by rw [hown]; rfl)⟩
  · rename_i hrunning
    split
    · exact ⟨h, hp.setCall (by rw [hown]; rfl)⟩
    · rename_i hnone
      exact hp.put hown hnone (by simpa using hrunning)

theorem inv_dropClient {p : Probe} (hinv : Inv p) {t netns c : Nat} (hown : (p.calls t).own = none) :
    Inv (p.dropClient t netns c) := by
  obtain ⟨h, hp⟩ := hinv
  unfold Probe.dropClient
  split
  · obtain ⟨h', hp'⟩ := hp.closeAt netns
    refine ⟨h', hp'.setCall ?_⟩
    have hcalls : (p.closeAt netns).calls = p.calls := by
      unfold Probe.closeAt
      split <;> rfl
    rw [hcalls, hown]
    rfl
  · exact ⟨h, hp.setCall (by rw [hown]; rfl)⟩

theorem inv_callStep {p p' : Probe} (hinv : Inv p) {t : Nat} {e : CallStep}
    (hstep : p.callStep t (p.calls t) e = some p') : Inv p' := by
  obtain ⟨h, hp⟩ := hinv
  generalize hcall : p.calls t = call at hstep
  unfold Probe.callStep at hstep
  split at hstep
  · cases hstep
    unfold Probe.lookupClient
    split
    · exact ⟨h, hp⟩
    · split
      · exact ⟨h, hp.setCall (by rw [hcall]; rfl)⟩
      · exact ⟨h, hp.setCall (by rw [hcall]; rfl)⟩
  · cases hstep
    exact inv_getConn ⟨h, hp⟩ hcall _
  · cases hstep
    exact inv_publish ⟨h, hp⟩ hcall
  · cases hstep
    refine hp.closeOwn (by rw [hcall]; rfl) ?_
    unfold Probe.resume
    split <;> rfl
  · cases hstep
    refine ⟨h, hp.setCall ?_⟩
    rw [hcall]
    split <;> rfl
  · cases hstep
    exact inv_dropClient ⟨h, hp⟩ (by rw [hcall]; rfl)
  · cases hstep

theorem inv_step (p : Probe) (e : Step) (p' : Probe) (hstep : p.step e = some p') (hinv : Inv p) : Inv p' := by
  obtain ⟨h, hp⟩ := hinv
  cases e with
  | start =>
    cases hstep
    exact ⟨h, hp.map, hp.call, hp.stop, hp.lost, hp.isOpen, hp.unmade, fun hstopped => by cases hstopped⟩
  | stop k =>
    simp only [Probe.step] at hstep
    split at hstep
    · rename_i hkeys
      cases hstep
      refine ⟨_, hp.takeOut fun netns => ?_⟩
      rw [AList.lookup_eq_none, AList.mem_keys, hkeys]
      exact List.not_mem_nil
    · cases hstep
  | stopCloses k netns =>
    simp only [Probe.step] at hstep
    split at hstep
    · rename_i c hlookup
      cases hstep
      exact hp.stopCloses hlookup
    · cases hstep
  | call t e => exact inv_callStep ⟨h, hp⟩ hstep
  | closeUnusedClients active =>
    cases hstep
    exact inv_closeUnusedClients ⟨h, hp⟩ active

theorem inv_run {es : List Step} {p : Probe} (h : runs Probe.step .new es = some p) : Inv p :=
  runs_keeps inv_step inv_new h

namespace Probe

structure Quiet (p : Probe) : Prop where
  calls : ∀ t, (p.calls t).own = none
  stops : ∀ k netns, (p.stopping k).lookup netns = none

end Probe

/-- Whatever calls have run in whatever order: when none has a client of its own and no `Stop` is under
    way, the connections that are open are those in the map, each under one namespace, and those that
    were lost; and if the probe is stopped, none is in the map. -/
theorem quiet_open_iff {es : List Step} {p : Probe} (h : runs Probe.step .new es = some p) (hquiet : p.Quiet) :
    (∀ c, p.isOpen c = true ↔ (∃ netns, p.clients.lookup netns = some c) ∨ c ∈ p.lost) ∧
      (∀ c netns netns', p.clients.lookup netns = some c → p.clients.lookup netns' = some c → netns = netns') ∧
      (p.stopped = true → ∀ c, p.isOpen c = true ↔ c ∈ p.lost) := by
  obtain ⟨holder, hp⟩ := inv_run h
  have hopen : ∀ c, p.isOpen c = true ↔ (∃ netns, p.clients.lookup netns = some c) ∨ c ∈ p.lost := by
    intro c
    rw [hp.isOpen c, hp.lost c]
    simp only [hp.map]
    cases hc : holder c with
    | nobody => simp
    | map netns => simp
    | call t => exact absurd ((hp.call t c).mpr hc) (by simp [hquiet.calls t])
    | stop k netns => exact absurd ((hp.stop k netns c).mpr hc) (by simp [hquiet.stops k netns])
    | lost => simp
  refine ⟨hopen, ?_, ?_⟩
  · intro c netns netns' hlookup hlookup'
    rw [hp.map] at hlookup hlookup'
    rw [hlookup] at hlookup'
    cases hlookup'
    rfl
  · intro hstopped c
    rw [hopen c]
    simp [hp.stopped hstopped]

/-- Two scrapes dial for the same namespace; the second finds the client of the first. Then the probe is
    stopped. -/
def twoScrapes : List Step :=
  [.call 0 (.lookup 5), .call 1 (.lookup 5), .call 0 (.dial .ok), .call 1 (.dial .ok), .call 0 .publish,
    .call 1 .publish, .call 1 .closeOwn, .call 0 (.execute true), .call 1 (.execute true), .stop 0, .stopCloses 0 5]

def afterTwoScrapes : Probe := (runs Probe.step .new twoScrapes).getD .new

theorem nothing_open_after_two_scrapes :
    runs Probe.step .new twoScrapes = some afterTwoScrapes ∧ ∀ c, afterTwoScrapes.isOpen c = false := by
  have hruns : runs Probe.step .new twoScrapes = some afterTwoScrapes := rfl
  have hquiet : afterTwoScrapes.Quiet := by
    refine ⟨fun t => ?_, fun k netns => ?_⟩
    · rcases t with _ | _ | t <;> rfl
    · rcases k with _ | k <;> rfl
  refine ⟨hruns, fun c => Bool.eq_false_iff.mpr fun hc => ?_⟩
  exact List.not_mem_nil (((quiet_open_iff hruns hquiet).2.2 rfl c).mp hc)

end EliteTelemetry.Probes.QdiscPool
