/-
  EliteTelemetry.Nettop.LinkManager — the links of the host and their listeners
  (`pkg/exporter/nettop/linkmanager.go`).

  The manager keeps a map of the live links up to date with netlink messages. A listener is
  registered with a channel of its own, into which the links there are then are put as added;
  later changes follow in the same channel, and a goroutine hands its events to the listener
  one by one. All this happens under the manager's lock, except the goroutine's receives.
  A change is put into a channel without waiting, so where a channel is full the change is
  lost to its listener.

  A listener that has emptied its channel sees the map exactly, however the goroutines run,
  where no message that changes the map, be it in one attribute of a link, meets a full
  channel (`listeners_lossless_iff`). The channel has room for 1024 changes, so a slower
  listener loses some (`full_channel_loses_delete`).
-/

import EliteTelemetry.Lib.Machine
import Mathlib.Data.List.Induction
import Mathlib.Data.List.Nodup
import Mathlib.Logic.Function.Iterate

namespace EliteTelemetry.Nettop

open EliteTelemetry.Lib.Machine

/-! ## Links and messages -/

structure Link where
  index : Int
  name : String
  /-- The other attributes (the MTU, the flags, the addresses), as the message has them. -/
  attrs : List UInt8
  deriving DecidableEq, Repr

structure LinkInfo where
  index : Int
  name : String
  link : Option Link
  deriving DecidableEq, Repr

inductive LinkEvent where
  | added (info : LinkInfo)
  | deleted (info : LinkInfo)
  deriving DecidableEq, Repr

inductive Rtm where
  | newlink
  | dellink
  | other
  deriving DecidableEq, Repr

structure LinkUpdate where
  type : Rtm
  link : Link
  deriving DecidableEq, Repr

def Link.info (l : Link) : LinkInfo := ⟨l.index, l.name, some l⟩

structure Links where
  entries : List LinkInfo
  nodup : (entries.map LinkInfo.index).Nodup

namespace Links

def empty : Links := ⟨[], List.nodup_nil⟩

def find (l : Links) (i : Int) : Option LinkInfo := l.entries.find? fun info => info.index = i

def erase (l : Links) (i : Int) : Links :=
  ⟨l.entries.filter fun info => info.index ≠ i, l.nodup.sublist (List.filter_sublist.map _)⟩

def insert (l : Links) (info : LinkInfo) : Links :=
  ⟨info :: (l.erase info.index).entries, by
    refine List.nodup_cons.mpr ⟨fun h => ?_, (l.erase info.index).nodup⟩
    obtain ⟨other, hmem, hidx⟩ := List.mem_map.mp h
    simp [erase, hidx] at hmem⟩

theorem find_erase (l : Links) (i j : Int) : (l.erase i).find j = if j = i then none else l.find j := by
  unfold find erase
  rw [List.find?_filter]
  split
  · rename_i h
    exact List.find?_eq_none.mpr fun info _ => by simp [h]
  · rename_i h
    congr 1
    funext info
    by_cases hj : info.index = j
    · simp [hj, h]
    · simp [hj]

theorem find_insert (l : Links) (info : LinkInfo) (j : Int) :
    (l.insert info).find j = if j = info.index then some info else l.find j := by
  have hcons : (l.insert info).find j = if info.index = j then some info else (l.erase info.index).find j := by
    simp only [insert, find, List.find?_cons]
    split <;> simp_all
  rw [hcons]
  by_cases h : info.index = j
  · simp [h]
  · have hj : j ≠ info.index := fun he => h he.symm
    rw [if_neg h, if_neg hj, find_erase, if_neg hj]

/-- `handleUpdate` without the broadcast: what is to be announced, and the links after it. A
    link is deleted under the name the map has for it. -/
def handleUpdate (l : Links) (u : LinkUpdate) : Option LinkEvent × Links :=
  match u.type with
  | .newlink => (some (.added u.link.info), l.insert u.link.info)
  | .dellink =>
    let info := (l.find u.link.index).getD ⟨u.link.index, u.link.name, none⟩
    (some (.deleted info), l.erase u.link.index)
  | .other => (none, l)

def Changes (l : Links) (u : LinkUpdate) : Prop :=
  match u.type with
  | .newlink => l.find u.link.index ≠ some u.link.info
  | .dellink => l.find u.link.index ≠ none
  | .other => False

instance (l : Links) (u : LinkUpdate) : Decidable (l.Changes u) := by
  unfold Changes
  split <;> infer_instance

end Links

/-! ## What a listener makes of its events -/

/-- `LinkAdded` inserts or replaces the index, `LinkDeleted` removes it. -/
def LinkEvent.apply (f : Int → Option LinkInfo) : LinkEvent → Int → Option LinkInfo
  | .added info => Function.update f info.index (some info)
  | .deleted info => Function.update f info.index none

def view (evs : List LinkEvent) : Int → Option LinkInfo := evs.foldl LinkEvent.apply fun _ => none

theorem view_append_singleton (evs : List LinkEvent) (ev : LinkEvent) :
    view (evs ++ [ev]) = ev.apply (view evs) := by
  simp [view]

namespace Links

theorem find_index {l : Links} {i : Int} {info : LinkInfo} (h : l.find i = some info) : info.index = i := by
  simpa using List.find?_some h

theorem getD_index (l : Links) (i : Int) (name : String) : ((l.find i).getD ⟨i, name, none⟩).index = i := by
  cases h : l.find i with
  | none => rfl
  | some info => exact find_index h

theorem handleUpdate_find (l : Links) (u : LinkUpdate) :
    (l.handleUpdate u).2.find = match (l.handleUpdate u).1 with
      | none => l.find
      | some ev => ev.apply l.find := by
  unfold handleUpdate
  split
  · funext j
    simp [find_insert, LinkEvent.apply, Function.update_apply, Link.info]
  · funext j
    simp [find_erase, LinkEvent.apply, Function.update_apply, getD_index]
  · rfl

/-- A message leaves the map as it was exactly where it does not change its own index. -/
theorem handleUpdate_find_eq_iff (l : Links) (u : LinkUpdate) :
    (l.handleUpdate u).2.find = l.find ↔ ¬ l.Changes u := by
  unfold handleUpdate Changes
  split
  · refine ⟨fun h => ?_, fun h => ?_⟩
    · have hi := congrFun h u.link.index
      rw [find_insert] at hi
      simpa [Link.info] using hi.symm
    · funext j
      rw [find_insert]
      split
      · rename_i hj
        rw [hj]
        exact (not_not.mp h).symm
      · rfl
  · refine ⟨fun h => ?_, fun h => ?_⟩
    · have hi := congrFun h u.link.index
      rw [find_erase] at hi
      simpa using hi.symm
    · funext j
      rw [find_erase]
      split
      · rename_i hj
        rw [hj]
        exact (not_not.mp h).symm
      · rfl
  · simp

theorem foldl_added {infos : List LinkInfo} (hnodup : (infos.map LinkInfo.index).Nodup) (f : Int → Option LinkInfo) :
    (∀ info ∈ infos, ((infos.map LinkEvent.added).foldl LinkEvent.apply f) info.index = some info) ∧
      ∀ i, i ∉ infos.map LinkInfo.index → ((infos.map LinkEvent.added).foldl LinkEvent.apply f) i = f i := by
  induction infos generalizing f with
  | nil => simp
  | cons x infos ih =>
    obtain ⟨hx, hrest⟩ := List.nodup_cons.mp (List.map_cons ▸ hnodup)
    obtain ⟨hin, hout⟩ := ih hrest (LinkEvent.apply f (.added x))
    refine ⟨fun info hmem => ?_, fun i hi => ?_⟩
    · rcases List.mem_cons.mp hmem with rfl | hmem
      · exact (hout info.index hx).trans (by simp [LinkEvent.apply])
      · exact hin info hmem
    · rw [List.map_cons, List.mem_cons, not_or] at hi
      exact (hout i hi.2).trans (by simp [LinkEvent.apply, hi.1])

/-- The replay shows the map, in whatever order its entries come. -/
theorem view_replay (l : Links) {order : List LinkInfo} (h : order.Perm l.entries) :
    view (order.map LinkEvent.added) = l.find := by
  have hnodup : (order.map LinkInfo.index).Nodup := (h.map _).nodup_iff.mpr l.nodup
  obtain ⟨hin, hout⟩ := foldl_added hnodup fun _ => none
  funext i
  cases hfind : l.find i with
  | some info =>
    rw [← find_index hfind]
    exact hin info (h.mem_iff.mpr (List.mem_of_find?_eq_some hfind))
  | none =>
    refine hout i fun hi => ?_
    obtain ⟨info, hmem, hidx⟩ := List.mem_map.mp hi
    have := List.find?_eq_none.mp hfind info (h.mem_iff.mp hmem)
    simp [hidx] at this

end Links

/-! ## The manager -/

/-- `listenerEntry`, with the events its goroutine has handed to the listener so far. -/
structure Entry (K : Type) where
  listener : K
  ch : List LinkEvent
  cap : Nat
  received : List LinkEvent
  deriving DecidableEq, Repr

structure Manager (K : Type) where
  links : Links
  entries : List (Entry K)

namespace Entry

variable {K : Type} {e : Entry K}

def full (e : Entry K) : Bool := e.cap ≤ e.ch.length

def send (ev : LinkEvent) (e : Entry K) : Entry K := if e.full then e else { e with ch := e.ch ++ [ev] }

def receive (e : Entry K) : Entry K :=
  match e.ch with
  | [] => e
  | ev :: ch => { e with ch := ch, received := e.received ++ [ev] }

/-- What the listener will have seen when the channel is empty, if nothing is added to it. -/
def pendingView (e : Entry K) : Int → Option LinkInfo := view (e.received ++ e.ch)

theorem receive_pendingView (e : Entry K) : e.receive.pendingView = e.pendingView := by
  unfold receive pendingView
  split
  · rfl
  · rename_i h
    simp [h]

theorem send_pendingView (ev : LinkEvent) (h : e.full = false) :
    (e.send ev).pendingView = ev.apply e.pendingView := by
  unfold send pendingView
  rw [h, ← view_append_singleton]
  simp

theorem send_of_full (ev : LinkEvent) (h : e.full = true) : e.send ev = e := by
  unfold send
  rw [if_pos h]

theorem send_iterate (ev : LinkEvent) (n : Nat) (h : e.ch.length + n ≤ e.cap) :
    (send ev)^[n] e = { e with ch := e.ch ++ List.replicate n ev } := by
  induction n generalizing e with
  | zero => simp
  | succ n ih =>
    have hroom : e.full = false := by simp [full]; omega
    have hsend : e.send ev = { e with ch := e.ch ++ [ev] } := by simp [send, hroom]
    rw [Function.iterate_succ, Function.comp_apply, hsend, ih (by simp; omega)]
    simp [List.replicate_succ]

theorem receive_iterate (e : Entry K) :
    receive^[e.ch.length] e = { e with ch := [], received := e.received ++ e.ch } := by
  obtain ⟨listener, ch, cap, received⟩ := e
  induction ch generalizing received with
  | nil => simp
  | cons ev ch ih =>
    simp only [List.length_cons, Function.iterate_succ, Function.comp_apply, receive]
    rw [ih]
    simp

end Entry

inductive Event (K : Type) where
  | update (u : LinkUpdate)
  /-- `registerListener`; the links are replayed in this order, if it is one of theirs. -/
  | register (listener : K) (order : List LinkInfo)
  | unregister (listener : K)
  /-- The goroutine of the entry at this place receives. -/
  | dispatch (i : Nat)
  deriving DecidableEq, Repr

namespace Manager

variable {K : Type} [DecidableEq K] {e : Entry K} {m : Manager K}

def start (links : Links) : Manager K := ⟨links, []⟩

def replay (links : Links) (order : List LinkInfo) : List LinkInfo :=
  if order.Perm links.entries then order else links.entries

/-- The answer is the number of warnings about a full channel. -/
def step (m : Manager K) : Event K → Nat × Manager K
  | .update u =>
    let r := m.links.handleUpdate u
    match r.1 with
    | none => (0, { m with links := r.2 })
    | some ev => ((m.entries.filter Entry.full).length, ⟨r.2, m.entries.map (Entry.send ev)⟩)
  | .register l order =>
    let ch := (replay m.links order).map LinkEvent.added
    (0, { m with entries := m.entries ++ [⟨l, ch, m.links.entries.length + 1024, []⟩] })
  | .unregister l => (0, { m with entries := m.entries.eraseP fun e => e.listener = l })
  | .dispatch i => (0, { m with entries := m.entries.modify i Entry.receive })

def Exact (m : Manager K) : Prop := ∀ e ∈ m.entries, e.ch = [] → view e.received = m.links.find

/-- The invariant: each listener will have seen the map when its channel is empty. -/
def Lossless (m : Manager K) : Prop := ∀ e ∈ m.entries, e.pendingView = m.links.find

def Roomy (m : Manager K) : Event K → Prop
  | .update u => m.links.Changes u → ∀ e ∈ m.entries, e.ch.length < e.cap
  | .register _ _ => True
  | .unregister _ => True
  | .dispatch _ => True

omit [DecidableEq K] in
theorem Lossless.exact (h : m.Lossless) : m.Exact := by
  intro e he hch
  rw [← h e he, Entry.pendingView, hch, List.append_nil]

omit [DecidableEq K] in
theorem replay_perm (links : Links) (order : List LinkInfo) : (replay links order).Perm links.entries := by
  unfold replay
  split
  · assumption
  · exact List.Perm.refl _

theorem update_step (m : Manager K) (u : LinkUpdate) :
    (m.step (.update u)).2.links = (m.links.handleUpdate u).2 ∧
      (m.step (.update u)).2.entries = match (m.links.handleUpdate u).1 with
        | none => m.entries
        | some ev => m.entries.map (Entry.send ev) := by
  unfold step
  simp only
  split <;> simp [*]

omit [DecidableEq K] in
/-- What a message does to one listener that had the map in sight. -/
theorem send_pendingView_eq_iff {u : LinkUpdate} {ev : LinkEvent} (hev : (m.links.handleUpdate u).1 = some ev)
    (he : e.pendingView = m.links.find) :
    (e.send ev).pendingView = (m.links.handleUpdate u).2.find ↔ (m.links.Changes u → e.ch.length < e.cap) := by
  have hfind := m.links.handleUpdate_find u
  rw [hev] at hfind
  cases hfull : e.full with
  | false =>
    have hroom : e.ch.length < e.cap := by simpa [Entry.full] using hfull
    rw [Entry.send_pendingView ev hfull, he, hfind]
    exact ⟨fun _ _ => hroom, fun _ => rfl⟩
  | true =>
    have hroom : ¬ e.ch.length < e.cap := by simpa [Entry.full] using hfull
    rw [Entry.send_of_full ev hfull, he, eq_comm, Links.handleUpdate_find_eq_iff]
    exact ⟨fun h hc => absurd hc h, fun h hc => hroom (h hc)⟩

theorem not_changes_of_silent {l : Links} {u : LinkUpdate} (h : (l.handleUpdate u).1 = none) : ¬ l.Changes u := by
  rw [← Links.handleUpdate_find_eq_iff, Links.handleUpdate_find, h]

/-- Listeners that had the map in sight still have it after a message exactly where it found
    room in every channel, or changed nothing. -/
theorem update_lossless_iff (hm : m.Lossless) (u : LinkUpdate) :
    (m.step (.update u)).2.Lossless ↔ m.Roomy (.update u) := by
  obtain ⟨hlinks, hentries⟩ := update_step m u
  cases hev : (m.links.handleUpdate u).1 with
  | none =>
    have hfind := m.links.handleUpdate_find u
    have hsilent := not_changes_of_silent hev
    rw [hev] at hfind hentries
    refine ⟨fun _ hc => absurd hc hsilent, fun _ e he => ?_⟩
    rw [hentries] at he
    rw [hlinks, hfind]
    exact hm e he
  | some ev =>
    rw [hev] at hentries
    simp only [Lossless, hentries, hlinks, List.forall_mem_map]
    refine ⟨fun h hc e he => (send_pendingView_eq_iff hev (hm e he)).mp (h e he) hc, fun h e he => ?_⟩
    exact (send_pendingView_eq_iff hev (hm e he)).mpr fun hc => h hc e he

theorem step_lossless (hm : m.Lossless) {e : Event K} (h : m.Roomy e) : (m.step e).2.Lossless := by
  cases e with
  | update u => exact (update_lossless_iff hm u).mpr h
  | register l order =>
    intro e he
    rcases List.mem_append.mp he with he | he
    · exact hm e he
    · obtain rfl := List.mem_singleton.mp he
      exact Links.view_replay m.links (replay_perm m.links order)
  | unregister l => exact fun e he => hm e (List.mem_of_mem_eraseP he)
  | dispatch i =>
    intro e he
    obtain ⟨j, hj, rfl⟩ := List.getElem_of_mem he
    have hmem := hm _ (List.getElem_mem (by simpa [step] using hj : j < m.entries.length))
    simp only [step, List.getElem_modify]
    split
    · rw [Entry.receive_pendingView]
      exact hmem
    · exact hmem

/-! ## Whole histories -/

theorem exec_dispatches (m : Manager K) (i n : Nat) :
    (exec step m (List.replicate n (.dispatch i))).2 = { m with entries := m.entries.modify i (Entry.receive^[n]) } := by
  induction n generalizing m with
  | zero => simp
  | succ n ih =>
    rw [List.replicate_succ, exec_cons, ih]
    simp [step, List.modify_modify_eq, Function.iterate_succ]

/-- A listener that will not see the map has not seen it when its channel is empty. -/
theorem exists_not_exact (h : ¬ m.Lossless) : ∃ i n, ¬ (exec step m (List.replicate n (.dispatch i))).2.Exact := by
  obtain ⟨e, he, hne⟩ : ∃ e ∈ m.entries, e.pendingView ≠ m.links.find := by
    unfold Lossless at h
    push Not at h
    exact h
  obtain ⟨i, hi, rfl⟩ := List.getElem_of_mem he
  refine ⟨i, m.entries[i].ch.length, fun hex => hne ?_⟩
  rw [exec_dispatches] at hex
  have hmem : Entry.receive^[m.entries[i].ch.length] m.entries[i] ∈
      m.entries.modify i (Entry.receive^[m.entries[i].ch.length]) :=
    List.mem_iff_getElem.mpr ⟨i, by simpa using hi, by simp⟩
  have := hex _ hmem (by rw [Entry.receive_iterate])
  rwa [Entry.receive_iterate] at this

omit [DecidableEq K] in
theorem lossless_start (links : Links) : (start links : Manager K).Lossless := fun _ h => by cases h

/-- After any beginning of a history, followed by any receives, a listener with an empty
    channel has seen the map, exactly where every message that changes the map finds room in
    every channel. -/
theorem listeners_lossless_iff (links : Links) (es : List (Event K)) :
    (∀ pre ds, pre <+: es → (∀ d ∈ ds, ∃ i, d = .dispatch i) → (exec step (start links) (pre ++ ds)).2.Exact) ↔
      along step Roomy (start links) es := by
  have hkeep : ∀ (m : Manager K) e, m.Roomy e → m.Lossless → (m.step e).2.Lossless := fun m e h hm => step_lossless hm h
  constructor
  · intro h
    induction es using List.reverseRecOn with
    | nil => trivial
    | append_singleton es e ih =>
      have halong := ih fun pre ds hpre => h pre ds (hpre.trans (List.prefix_append es [e]))
      have hm := exec_keeps hkeep (lossless_start links) halong
      refine (along_append _ _ _).mpr ⟨halong, ?_, trivial⟩
      cases e with
      | update u =>
        -- If the message met a full channel, that listener is wrong once its channel is empty.
        by_contra hroom
        obtain ⟨i, n, hnot⟩ := exists_not_exact (mt (update_lossless_iff hm u).mp hroom)
        refine hnot ?_
        have := h (es ++ [.update u]) (List.replicate n (.dispatch i)) (List.prefix_refl _)
          (fun d hd => ⟨i, List.eq_of_mem_replicate hd⟩)
        simpa [exec_append] using this
      | register l order => trivial
      | unregister l => trivial
      | dispatch i => trivial
  · intro h pre ds hpre hds
    obtain ⟨rest, rfl⟩ := hpre
    have hroomy : ∀ m, ∀ d ∈ ds, (m : Manager K).Roomy d := by
      intro m d hd
      obtain ⟨i, rfl⟩ := hds d hd
      trivial
    exact (exec_keeps hkeep (lossless_start links) ((along_append _ _ _).mpr
      ⟨((along_append _ _ _).mp h).1, along_of_forall hroomy _⟩)).exact

theorem exec_newlinks (m : Manager K) (l : Link) (n : Nat) :
    (exec step m (List.replicate n (.update ⟨.newlink, l⟩))).2.entries =
      m.entries.map ((Entry.send (.added l.info))^[n]) := by
  induction n generalizing m with
  | zero => simp
  | succ n ih =>
    rw [List.replicate_succ, exec_cons, ih]
    simp [step, Links.handleUpdate, Function.iterate_succ]

def slowHistory (l : Link) (n : Nat) : List (Event Unit) :=
  (.register () [] :: List.replicate n (.update ⟨.newlink, l⟩)) ++
    (.update ⟨.dellink, l⟩ :: List.replicate n (.dispatch 0))

theorem slowHistory_loses (l : Link) {n : Nat} (hn : n = 1024) :
    ∃ e ∈ (exec step (start .empty) (slowHistory l n)).2.entries, e.ch = [] ∧
      view e.received l.index = some l.info ∧
      (exec step (start (K := Unit) .empty) (slowHistory l n)).2.links.find l.index = none := by
  have hentries : (exec step (start (K := Unit) .empty)
      (.register () [] :: List.replicate n (.update ⟨.newlink, l⟩))).2.entries =
        [⟨(), List.replicate n (.added l.info), n, []⟩] := by
    have hregister : ((start (K := Unit) .empty).step (.register () [])).2.entries = [⟨(), [], n, []⟩] := by
      rw [hn]
      rfl
    rw [exec_cons, exec_newlinks, hregister, List.map_singleton, Entry.send_iterate _ _ (by simp), List.nil_append]
  rw [slowHistory, exec_append]
  simp only
  generalize (exec step (start (K := Unit) .empty)
    (.register () [] :: List.replicate n (.update ⟨.newlink, l⟩))).2 = m at hentries ⊢
  obtain ⟨hlinks, hsend⟩ := update_step m ⟨.dellink, l⟩
  have hlost : (m.step (.update ⟨.dellink, l⟩)).2.entries = m.entries := by
    rw [hsend, hentries]
    simp [Links.handleUpdate, Entry.send, Entry.full]
  have hdrain := Entry.receive_iterate (K := Unit) ⟨(), List.replicate n (.added l.info), n, []⟩
  rw [List.length_replicate] at hdrain
  rw [exec_cons, exec_dispatches, hlinks, hlost, hentries]
  refine ⟨_, List.mem_singleton.mpr rfl, ?_, ?_, ?_⟩
  · rw [hdrain]
  · obtain ⟨k, hk⟩ : ∃ k, n = k + 1 := ⟨1023, hn⟩
    rw [hdrain, hk, List.nil_append, List.replicate_succ', view_append_singleton]
    simp [LinkEvent.apply, Link.info]
  · simp [Links.handleUpdate, Links.find_erase]

/-- A listener that handles nothing while a link is announced 1024 times misses its deletion. -/
theorem full_channel_loses_delete :
    ∃ e ∈ (exec step (start .empty) (slowHistory ⟨2, "eth0", []⟩ 1024)).2.entries, e.ch = [] ∧
      view e.received 2 = some (Link.info ⟨2, "eth0", []⟩) ∧
      (exec step (start (K := Unit) .empty) (slowHistory ⟨2, "eth0", []⟩ 1024)).2.links.find 2 = none :=
  slowHistory_loses ⟨2, "eth0", []⟩ rfl

end Manager

end EliteTelemetry.Nettop
