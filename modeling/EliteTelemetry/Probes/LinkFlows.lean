/-
  EliteTelemetry.Probes.LinkFlows — the flow programs on the links of a pattern
  (`dynamicLinkFlowHelper` of `pkg/exporter/probe/flow/flow.go`).

  The helper listens to the link manager. It attaches a flow to a link that is announced
  under a name with its pattern, unless there is a flow for the index, and detaches the flow
  of a link that is deleted under such a name. Events come here as `handleUpdate` announces
  them, none is lost and every attachment succeeds; the links of the replay are announced as
  new ones are.

  A NEWLINK message also announces a new name for a link that is there. After each message
  there are flows on exactly the links with the pattern, and each on the link that owns its
  index, as long as no link is renamed from a name with the pattern to one without it
  (`flows_track_links_iff`). After such a renaming the flow stays, also when the link is
  deleted, and a later link of the same index gets none (`renamed_link_keeps_flow`).
-/

import EliteTelemetry.Nettop.LinkManager

namespace EliteTelemetry.Probes.LinkFlows

open EliteTelemetry.Lib.Machine
open EliteTelemetry.Nettop

/-- `ebpfFlow`: the link it was started on, and which of the owners of that link's index, in
    the order in which they came, this link was. -/
structure Flow where
  dev : Link
  owner : Nat
  deriving DecidableEq, Repr

abbrev Flows := Int → Option Flow

def hasPattern (pattern name : String) : Bool := pattern.toList.isPrefixOf name.toList

def tryStartLinkFlow (owners : Int → Nat) (flows : Flows) (link : Link) : Flows :=
  if (flows link.index).isSome then flows
  else Function.update flows link.index (some ⟨link, owners link.index⟩)

def tryStopLinkFlow (flows : Flows) (index : Int) : Flows :=
  if (flows index).isNone then flows else Function.update flows index none

def onLinkAdd (pattern : String) (owners : Int → Nat) (flows : Flows) (info : LinkInfo) : Flows :=
  if !hasPattern pattern info.name then flows
  else
    match info.link with
    | some link => tryStartLinkFlow owners flows link
    | none => flows

def onLinkDel (pattern : String) (flows : Flows) (info : LinkInfo) : Flows :=
  if !hasPattern pattern info.name then flows else tryStopLinkFlow flows info.index

theorem onLinkAdd_info (pattern : String) (owners : Int → Nat) (flows : Flows) (l : Link) (j : Int) :
    onLinkAdd pattern owners flows l.info j =
      if j = l.index ∧ hasPattern pattern l.name = true ∧ flows l.index = none then some ⟨l, owners l.index⟩
      else flows j := by
  unfold onLinkAdd tryStartLinkFlow
  cases hp : hasPattern pattern l.name with
  | false => simp [Link.info, hp]
  | true =>
    cases hf : flows l.index with
    | some flow => simp [Link.info, hp, hf]
    | none => by_cases hj : j = l.index <;> simp [Link.info, hp, hf, hj]

theorem onLinkDel_eq (pattern : String) (flows : Flows) (info : LinkInfo) (j : Int) :
    onLinkDel pattern flows info j =
      if j = info.index ∧ hasPattern pattern info.name = true then none else flows j := by
  unfold onLinkDel tryStopLinkFlow
  cases hp : hasPattern pattern info.name with
  | false => simp
  | true =>
    by_cases hj : j = info.index
    · subst hj
      cases hf : flows info.index <;> simp [hf]
    · cases hf : flows info.index <;> simp [hj]

/-! ## The host and the helper -/

/-- The live links, the number of owners each index has had, and the flows. -/
structure Host where
  links : Links
  owners : Int → Nat
  flows : Flows

namespace Host

def new : Host := ⟨.empty, fun _ => 0, fun _ => none⟩

def claim (h : Host) (u : LinkUpdate) (j : Int) : Nat :=
  if u.type = .newlink ∧ j = u.link.index ∧ h.links.find j = none then h.owners j + 1 else h.owners j

def notify (pattern : String) (owners : Int → Nat) (flows : Flows) : Option LinkEvent → Flows
  | none => flows
  | some (.added info) => onLinkAdd pattern owners flows info
  | some (.deleted info) => onLinkDel pattern flows info

/-- A message is handled by the manager, and what it announces by the helper. -/
def step (pattern : String) (h : Host) (u : LinkUpdate) : Option LinkEvent × Host :=
  let r := h.links.handleUpdate u
  (r.1, ⟨r.2, h.claim u, notify pattern (h.claim u) h.flows r.1⟩)

def Wanted (pattern : String) (h : Host) (i : Int) : Prop :=
  ∃ info, h.links.find i = some info ∧ hasPattern pattern info.name = true

/-- Right at an index: there is a flow if and only if it is wanted, and it is on the link that
    owns the index now. -/
structure TracksAt (pattern : String) (h : Host) (i : Int) : Prop where
  flow_iff : (∃ flow, h.flows i = some flow) ↔ h.Wanted pattern i
  owner : ∀ flow, h.flows i = some flow → flow.dev.index = i ∧ flow.owner = h.owners i

def Tracks (pattern : String) (h : Host) : Prop := ∀ i, h.TracksAt pattern i

/-- The message does not rename a live link from a name with the pattern to one without. -/
def KeepsPattern (pattern : String) (h : Host) (u : LinkUpdate) : Prop :=
  u.type = .newlink → h.Wanted pattern u.link.index → hasPattern pattern u.link.name = true

variable {pattern : String} {h : Host}

theorem TracksAt.congr {h' : Host} {i : Int} (hl : h'.links.find i = h.links.find i) (ho : h'.owners i = h.owners i)
    (hf : h'.flows i = h.flows i) (ht : h.TracksAt pattern i) : h'.TracksAt pattern i := by
  refine ⟨?_, ?_⟩
  · simpa only [Wanted, hl, hf] using ht.flow_iff
  · simpa only [ho, hf] using ht.owner

theorem TracksAt.flows_none {i : Int} (ht : h.TracksAt pattern i) (hw : ¬ h.Wanted pattern i) : h.flows i = none :=
  Option.eq_none_iff_forall_ne_some.mpr fun flow hf => hw (ht.flow_iff.mp ⟨flow, hf⟩)

theorem tracksAt_of_none {i : Int} (hf : h.flows i = none) (hw : ¬ h.Wanted pattern i) : h.TracksAt pattern i :=
  ⟨⟨fun ⟨_, h'⟩ => (by simp [hf] at h'), fun h' => absurd h' hw⟩, fun _ h' => (by simp [hf] at h')⟩

theorem step_tracksAt_other {u : LinkUpdate} {i : Int} (hi : i ≠ u.link.index) (ht : h.TracksAt pattern i) :
    (h.step pattern u).2.TracksAt pattern i := by
  obtain ⟨type, l⟩ := u
  refine ht.congr ?_ ?_ ?_
  · cases type
    · simpa [step, Links.handleUpdate, Links.find_insert, Link.info] using fun he => absurd he hi
    · simpa [step, Links.handleUpdate, Links.find_erase] using fun he => absurd he hi
    · rfl
  · simp [step, claim, hi]
  · cases type
    · simp [step, Links.handleUpdate, notify, onLinkAdd_info, hi]
    · have hidx := Links.getD_index h.links l.index l.name
      simp [step, Links.handleUpdate, notify, onLinkDel_eq, hidx, hi]
    · rfl

/-- A NEWLINK message leaves its own index right exactly where it keeps the pattern. -/
theorem newlink_tracksAt_iff {l : Link} (ht : h.TracksAt pattern l.index) :
    (h.step pattern ⟨.newlink, l⟩).2.TracksAt pattern l.index ↔ h.KeepsPattern pattern ⟨.newlink, l⟩ := by
  have hfind : (h.step pattern ⟨.newlink, l⟩).2.links.find l.index = some l.info := by
    simp [step, Links.handleUpdate, Links.find_insert, Link.info]
  have hwanted : (h.step pattern ⟨.newlink, l⟩).2.Wanted pattern l.index ↔ hasPattern pattern l.name = true := by
    simp [Wanted, hfind, Link.info]
  have hflows : (h.step pattern ⟨.newlink, l⟩).2.flows l.index =
      if hasPattern pattern l.name = true ∧ h.flows l.index = none then
        some ⟨l, h.claim ⟨.newlink, l⟩ l.index⟩ else h.flows l.index := by
    simp [step, Links.handleUpdate, notify, onLinkAdd_info]
  by_cases hp : hasPattern pattern l.name = true
  · refine ⟨fun _ _ _ => hp, fun _ => ?_⟩
    cases hf : h.flows l.index with
    | none =>
      have hnew : (h.step pattern ⟨.newlink, l⟩).2.flows l.index = some ⟨l, h.claim ⟨.newlink, l⟩ l.index⟩ := by
        rw [hflows, if_pos ⟨hp, hf⟩]
      refine ⟨⟨fun _ => hwanted.mpr hp, fun _ => ⟨_, hnew⟩⟩, fun flow hflow => ?_⟩
      obtain rfl := Option.some.inj (hnew.symm.trans hflow)
      exact ⟨rfl, rfl⟩
    | some flow =>
      -- The link is known, so it is the owner it was.
      obtain ⟨info, hinfo, -⟩ := ht.flow_iff.mp ⟨flow, hf⟩
      have hold : (h.step pattern ⟨.newlink, l⟩).2.flows l.index = some flow := by
        rw [hflows, if_neg (by simp [hf]), hf]
      refine ⟨⟨fun _ => hwanted.mpr hp, fun _ => ⟨_, hold⟩⟩, fun other hother => ?_⟩
      obtain rfl := Option.some.inj (hold.symm.trans hother)
      refine ⟨(ht.owner flow hf).1, (ht.owner flow hf).2.trans ?_⟩
      simp [step, claim, hinfo]
  · have hkept : (h.step pattern ⟨.newlink, l⟩).2.flows l.index = h.flows l.index := by
      rw [hflows, if_neg (fun hc => hp hc.1)]
    refine ⟨fun ht' _ hw => ?_, fun hk => ?_⟩
    · obtain ⟨flow, hflow⟩ := ht.flow_iff.mpr hw
      exact hwanted.mp (ht'.flow_iff.mp ⟨flow, hkept.trans hflow⟩)
    · have hw : ¬ h.Wanted pattern l.index := fun hw => hp (hk rfl hw)
      exact tracksAt_of_none (hkept.trans (ht.flows_none hw)) (fun hw' => hp (hwanted.mp hw'))

theorem dellink_tracksAt {l : Link} (ht : h.TracksAt pattern l.index) :
    (h.step pattern ⟨.dellink, l⟩).2.TracksAt pattern l.index := by
  have hfind : (h.step pattern ⟨.dellink, l⟩).2.links.find l.index = none := by
    simp [step, Links.handleUpdate, Links.find_erase]
  refine tracksAt_of_none ?_ (by simp [Wanted, hfind])
  by_cases hw : h.Wanted pattern l.index
  · obtain ⟨info, hinfo, hp⟩ := hw
    simp [step, Links.handleUpdate, notify, onLinkDel_eq, hinfo, hp, Links.find_index hinfo]
  · simp [step, Links.handleUpdate, notify, onLinkDel_eq, ht.flows_none hw]

/-- From a state that is right, a message leads to one that is right exactly where it keeps
    the pattern. -/
theorem step_tracks_iff (ht : h.Tracks pattern) (u : LinkUpdate) :
    (h.step pattern u).2.Tracks pattern ↔ h.KeepsPattern pattern u := by
  obtain ⟨type, l⟩ := u
  have hothers : (h.step pattern ⟨type, l⟩).2.TracksAt pattern l.index →
      (h.step pattern ⟨type, l⟩).2.Tracks pattern := by
    intro hl i
    by_cases hi : i = l.index
    · exact hi ▸ hl
    · exact step_tracksAt_other hi (ht i)
  cases type with
  | newlink =>
    have hiff := newlink_tracksAt_iff (ht l.index)
    exact ⟨fun h' => hiff.mp (h' l.index), fun hk => hothers (hiff.mpr hk)⟩
  | dellink => exact ⟨fun _ hc => (by cases hc), fun _ => hothers (dellink_tracksAt (ht l.index))⟩
  | other => exact ⟨fun _ hc => (by cases hc), fun _ => hothers ((ht l.index).congr rfl (by simp [step, claim]) rfl)⟩

theorem new_tracks (pattern : String) : new.Tracks pattern :=
  fun _ => tracksAt_of_none rfl fun ⟨_, hinfo, _⟩ => by cases hinfo

/-- After each message there are flows on exactly the links with the pattern, each on the link
    that owns its index, exactly where no message takes the pattern from a live link's name. -/
theorem flows_track_links_iff (pattern : String) (us : List LinkUpdate) :
    always (step pattern) (Tracks pattern) new us ↔ along (step pattern) (KeepsPattern pattern) new us :=
  always_iff_along (I := Tracks pattern) (fun _ ht => ht) (fun _ u ht hk => (step_tracks_iff ht u).mpr hk)
    (fun _ u ht hk ht' => hk ((step_tracks_iff ht u).mp ht')) (new_tracks pattern) us

/-- A link of the pattern is renamed, then deleted, and its index is given to another link of
    the pattern: the flow that is there is the first link's. -/
theorem renamed_link_keeps_flow :
    let h := (exec (step "eth") new [⟨.newlink, ⟨2, "eth0", []⟩⟩, ⟨.newlink, ⟨2, "wan0", []⟩⟩,
      ⟨.dellink, ⟨2, "wan0", []⟩⟩, ⟨.newlink, ⟨2, "eth1", []⟩⟩]).2
    h.flows 2 = some ⟨⟨2, "eth0", []⟩, 1⟩ ∧ h.links.find 2 = some (Link.info ⟨2, "eth1", []⟩) ∧ h.owners 2 = 2 ∧
      ¬ h.Tracks "eth" := by
  intro h
  have hflow : h.flows 2 = some ⟨⟨2, "eth0", []⟩, 1⟩ := by decide
  have howners : h.owners 2 = 2 := by decide
  refine ⟨hflow, by decide, howners, fun ht => ?_⟩
  have := ((ht 2).owner _ hflow).2
  rw [howners] at this
  cases this

end Host

end EliteTelemetry.Probes.LinkFlows
