/-
  EliteTelemetry.Probes.TxLatency — the transmit-latency probe (`bpf/netiftxlatency.c`).

  Three programs share two maps keyed by the address of the skb. `net_dev_queue` puts the
  time into `insp_txq`; `net_dev_start_xmit` looks it up there, reports a long wait in the
  queueing discipline and puts the time into `insp_txs`; `net_dev_xmit` looks that up, reports
  a slow device and deletes the skb from `insp_txs`.

  Nothing deletes from `insp_txq`. So it is the first `maxEntries` skbs ever queued, whether
  they are still on their way or not (`Maps.step_txq`), and the maps hold only packets in flight
  exactly as long as none of these is transmitted (`txlatency_in_flight_iff`).
-/

import EliteTelemetry.Lib.BpfMaps
import EliteTelemetry.Lib.Machine

namespace EliteTelemetry.Probes.TxLatency

open EliteTelemetry.Lib.BpfMaps
open EliteTelemetry.Lib.Machine

/-! ## The programs -/

def maxEntries : Nat := 10000

def thresh : UInt64 := 100 * 1000 * 1000

inductive Action where
  | qdisc
  | xmit
  deriving DecidableEq, Repr

section Model

variable {S : Type} [DecidableEq S]

structure Maps (S : Type) where
  txq : Table S UInt64
  txs : Table S UInt64

inductive Event (S : Type) where
  | netDevQueue (skb : S) (ts : UInt64)
  | netDevStartXmit (skb : S) (ts : UInt64)
  | netDevXmit (skb : S) (ts : UInt64)
  deriving DecidableEq, Repr

/-- What `report_txlat_events` puts out, the skb standing for the fields read from it. -/
structure Report (S : Type) where
  skb : S
  latency : UInt64
  action : Action
  deriving DecidableEq, Repr

structure Answer (S : Type) where
  report : Option (Report S)
  refused : Bool
  deriving DecidableEq, Repr

def report (skb : S) (latency : UInt64) (action : Action) : Option (Report S) :=
  if thresh < latency then some ⟨skb, latency, action⟩ else none

namespace Maps

def empty : Maps S := ⟨∅, ∅⟩

def netDevQueue (m : Maps S) (skb : S) (ts : UInt64) : Answer S × Maps S :=
  (⟨none, !decide (m.txq.Room maxEntries skb)⟩, { m with txq := m.txq.update maxEntries skb ts })

def netDevStartXmit (m : Maps S) (skb : S) (ts : UInt64) : Answer S × Maps S :=
  match m.txq.lookup skb with
  | none => (⟨none, false⟩, m)
  | some t =>
    (⟨report skb (ts - t) .qdisc, !decide (m.txs.Room maxEntries skb)⟩,
      { m with txs := m.txs.update maxEntries skb ts })

def netDevXmit (m : Maps S) (skb : S) (ts : UInt64) : Answer S × Maps S :=
  match m.txs.lookup skb with
  | none => (⟨none, false⟩, m)
  | some t => (⟨report skb (ts - t) .xmit, false⟩, { m with txs := m.txs.erase skb })

def step (m : Maps S) : Event S → Answer S × Maps S
  | .netDevQueue skb ts => m.netDevQueue skb ts
  | .netDevStartXmit skb ts => m.netDevStartXmit skb ts
  | .netDevXmit skb ts => m.netDevXmit skb ts

end Maps

/-! ## Packets in flight -/

/-- The maps, and which skbs are where: queued and not started, or started and not yet
    transmitted. -/
structure Link (S : Type) where
  maps : Maps S
  queued : List S
  started : List S

namespace Link

def start : Link S := ⟨.empty, [], []⟩

def step (l : Link S) (e : Event S) : Answer S × Link S :=
  ((l.maps.step e).1,
    match e with
    | .netDevQueue skb _ => ⟨(l.maps.step e).2, skb :: l.queued, l.started⟩
    | .netDevStartXmit skb _ => ⟨(l.maps.step e).2, l.queued.erase skb, skb :: l.started⟩
    | .netDevXmit skb _ => ⟨(l.maps.step e).2, l.queued, l.started.erase skb⟩)

def inFlight (l : Link S) : List S := l.queued ++ l.started

/-- An skb is queued, started and transmitted in this order; its address is free again after. -/
def InOrder (l : Link S) : Event S → Prop
  | .netDevQueue skb _ => skb ∉ l.inFlight
  | .netDevStartXmit skb _ => skb ∈ l.queued
  | .netDevXmit skb _ => skb ∈ l.started

instance (l : Link S) : (e : Event S) → Decidable (l.InOrder e)
  | .netDevQueue skb _ => inferInstanceAs (Decidable (skb ∉ l.inFlight))
  | .netDevStartXmit skb _ => inferInstanceAs (Decidable (skb ∈ l.queued))
  | .netDevXmit skb _ => inferInstanceAs (Decidable (skb ∈ l.started))

/-- The maps hold only skbs in flight. -/
def Contained (l : Link S) : Prop := ∀ skb, skb ∈ l.maps.txq ∨ skb ∈ l.maps.txs → skb ∈ l.inFlight

/-- With room for more packets in flight, no update fails. -/
def Roomy (l : Link S) (e : Event S) : Prop := l.inFlight.length < maxEntries → (l.step e).1.refused = false

end Link

/-! ## What the queue's map holds -/

/-- Of the skbs queued, the first `maxEntries`: one more skb. -/
def noted (fs : List S) (skb : S) : List S := if skb ∈ fs ∨ maxEntries ≤ fs.length then fs else skb :: fs

def remember (fs : List S) : Event S → List S
  | .netDevQueue skb _ => noted fs skb
  | _ => fs

/-- The first `maxEntries` distinct skbs that the events queue. -/
def firstQueued (es : List (Event S)) : List S := es.foldl remember []

variable {e : Event S} {l : Link S} {fs : List S} {skb : S}

theorem remember_of_full (h : maxEntries ≤ fs.length) (e : Event S) : remember fs e = fs := by
  cases e with
  | netDevQueue skb ts => exact if_pos (Or.inr h)
  | netDevStartXmit skb ts => rfl
  | netDevXmit skb ts => rfl

/-- An skb queued is among the first, or these are all there can be. -/
theorem mem_noted_or_full (fs : List S) (skb : S) : skb ∈ noted fs skb ∨ maxEntries ≤ (noted fs skb).length := by
  unfold noted
  split_ifs with h
  · exact h
  · exact Or.inl List.mem_cons_self

theorem length_le_remember (fs : List S) (e : Event S) : fs.length ≤ (remember fs e).length := by
  cases e with
  | netDevQueue skb ts =>
    unfold remember noted
    dsimp only
    split_ifs
    · exact Nat.le_refl _
    · exact Nat.le_succ _
  | netDevStartXmit skb ts => exact Nat.le_refl _
  | netDevXmit skb ts => exact Nat.le_refl _

theorem remembered_of_full (h : maxEntries ≤ fs.length) (es : List (Event S)) : es.foldl remember fs = fs := by
  induction es with
  | nil => rfl
  | cons e es ih => rw [List.foldl_cons, remember_of_full h, ih]

theorem mem_remember (h : skb ∈ fs) (e : Event S) : skb ∈ remember fs e := by
  cases e with
  | netDevQueue new ts =>
    unfold remember noted
    dsimp only
    split_ifs
    · exact h
    · exact List.mem_cons_of_mem new h
  | netDevStartXmit new ts => exact h
  | netDevXmit new ts => exact h

theorem mem_remembered (h : skb ∈ fs) (es : List (Event S)) : skb ∈ es.foldl remember fs := by
  induction es generalizing fs with
  | nil => exact h
  | cons e es ih => exact ih (mem_remember h e)

structure Keyed (t : Table S UInt64) (fs : List S) : Prop where
  mem : ∀ skb, skb ∈ t ↔ skb ∈ fs
  length : t.keys.length = fs.length

theorem Keyed.noted {t : Table S UInt64} (h : Keyed t fs) (skb : S) (ts : UInt64) :
    Keyed (t.update maxEntries skb ts) (noted fs skb) := by
  unfold TxLatency.noted
  by_cases hmem : skb ∈ fs
  · rw [if_pos (Or.inl hmem)]
    have ht := (h.mem skb).mpr hmem
    refine ⟨fun j => ?_, (Table.keys_length_update_of_mem ht ts).trans h.length⟩
    rw [Table.mem_update, ← h.mem]
    constructor
    · rintro (hj | ⟨rfl, -⟩)
      · exact hj
      · exact ht
    · exact Or.inl
  · have ht := (h.mem skb).not.mpr hmem
    by_cases hfull : maxEntries ≤ fs.length
    · rw [if_pos (Or.inr hfull), Table.update_of_not_room]
      · exact h
      · rintro (hin | hlt)
        · exact ht hin
        · rw [h.length] at hlt
          omega
    · rw [if_neg (by simp [hmem, hfull])]
      have hkeys : t.keys.length < maxEntries := by
        rw [h.length]
        omega
      refine ⟨fun j => ?_, ?_⟩
      · rw [Table.mem_update, List.mem_cons, h.mem, or_comm]
        simp only [Table.Room, hkeys, or_true, and_true]
      · rw [Table.keys_length_update_of_new ht hkeys, h.length, List.length_cons]

theorem Maps.step_txq {m : Maps S} (h : Keyed m.txq fs) (e : Event S) : Keyed (m.step e).2.txq (remember fs e) := by
  cases e with
  | netDevQueue skb ts => exact h.noted skb ts
  | netDevStartXmit skb ts =>
    simp only [Maps.step, Maps.netDevStartXmit]
    split <;> exact h
  | netDevXmit skb ts =>
    simp only [Maps.step, Maps.netDevXmit]
    split <;> exact h

theorem Maps.step_keys (m : Maps S) (e : Event S) : Keyed (m.step e).2.txq (remember m.txq.keys e) :=
  step_txq ⟨fun _ => AList.mem_keys, rfl⟩ e

theorem Maps.mem_step_txs {m : Maps S} (h : skb ∈ (m.step e).2.txs) :
    (skb ∈ m.txs ∧ ∀ ts, e ≠ .netDevXmit skb ts) ∨ ∃ ts, e = .netDevStartXmit skb ts := by
  cases e with
  | netDevQueue new ts => exact Or.inl ⟨h, by simp⟩
  | netDevStartXmit new ts =>
    simp only [Maps.step, Maps.netDevStartXmit] at h
    split at h
    · exact Or.inl ⟨h, by simp⟩
    · rcases Table.mem_update.mp h with h | ⟨rfl, -⟩
      · exact Or.inl ⟨h, by simp⟩
      · exact Or.inr ⟨ts, rfl⟩
  | netDevXmit new ts =>
    simp only [Maps.step, Maps.netDevXmit] at h
    split at h
    · rename_i hnone
      refine Or.inl ⟨h, fun ts' he => ?_⟩
      cases he
      exact AList.lookup_eq_none.mp hnone h
    · obtain ⟨hne, h⟩ := AList.mem_erase.mp h
      refine Or.inl ⟨h, fun ts' he => ?_⟩
      cases he
      exact hne rfl

namespace Link

@[simp] theorem step_maps (l : Link S) (e : Event S) : (l.step e).2.maps = (l.maps.step e).2 := by
  cases e <;> rfl

omit [DecidableEq S] in
theorem start_keyed : Keyed (start : Link S).maps.txq [] := ⟨fun skb => by simp [start, Maps.empty], rfl⟩

/-! ## Runs in order -/

/-- In every run in order: what is being transmitted is in flight, and an skb in flight was
    put into `insp_txq` unless that was full. -/
structure Inv (l : Link S) : Prop where
  txs : ∀ skb ∈ l.maps.txs, skb ∈ l.started
  txq : ∀ skb ∈ l.inFlight, skb ∈ l.maps.txq ∨ maxEntries ≤ l.maps.txq.keys.length
  nodup : l.inFlight.Nodup

omit [DecidableEq S] in
theorem start_inv : Inv (start : Link S) := by
  refine ⟨fun skb h => ?_, fun skb h => ?_, List.nodup_nil⟩
  · exact absurd h (AList.notMem_empty skb)
  · cases h

omit [DecidableEq S] in
theorem mem_inFlight : skb ∈ l.inFlight ↔ skb ∈ l.queued ∨ skb ∈ l.started :=
  List.mem_append

/-- A transmission is the only step that takes an skb out of flight, and only its own. -/
theorem mem_inFlight_step (h : skb ∈ l.inFlight) (hne : ∀ ts, e ≠ .netDevXmit skb ts) :
    skb ∈ (l.step e).2.inFlight := by
  rw [mem_inFlight] at h ⊢
  cases e with
  | netDevQueue new ts => exact h.imp_left (List.mem_cons_of_mem new)
  | netDevStartXmit new ts =>
    by_cases he : skb = new
    · subst he
      exact Or.inr List.mem_cons_self
    · exact h.imp (List.mem_erase_of_ne he).mpr (List.mem_cons_of_mem new)
  | netDevXmit new ts =>
    have he : skb ≠ new := fun he => hne ts (he ▸ rfl)
    exact h.imp_right (List.mem_erase_of_ne he).mpr

theorem mem_inFlight_of_step (ho : l.InOrder e) (h : skb ∈ (l.step e).2.inFlight) :
    skb ∈ l.inFlight ∨ ∃ ts, e = .netDevQueue skb ts := by
  rw [mem_inFlight] at h ⊢
  cases e with
  | netDevQueue new ts =>
    rcases h with h | h
    · rcases List.mem_cons.mp h with rfl | h
      · exact Or.inr ⟨ts, rfl⟩
      · exact Or.inl (Or.inl h)
    · exact Or.inl (Or.inr h)
  | netDevStartXmit new ts =>
    rcases h with h | h
    · exact Or.inl (Or.inl (List.mem_of_mem_erase h))
    · rcases List.mem_cons.mp h with rfl | h
      · exact Or.inl (Or.inl ho)
      · exact Or.inl (Or.inr h)
  | netDevXmit new ts => exact Or.inl (h.imp_right List.mem_of_mem_erase)

theorem nodup_step (h : l.inFlight.Nodup) (ho : l.InOrder e) : (l.step e).2.inFlight.Nodup := by
  cases e with
  | netDevQueue skb ts => exact List.nodup_cons.mpr ⟨ho, h⟩
  | netDevStartXmit skb ts =>
    have hperm : (l.queued.erase skb ++ skb :: l.started).Perm l.inFlight := by
      refine List.perm_middle.trans ?_
      exact (List.perm_cons_erase ho).symm.append_right l.started
    exact hperm.nodup_iff.mpr h
  | netDevXmit skb ts =>
    exact h.sublist ((List.Sublist.refl l.queued).append List.erase_sublist)

theorem step_inv (hi : Inv l) (ho : l.InOrder e) : Inv (l.step e).2 := by
  refine ⟨fun skb h => ?_, fun skb h => ?_, nodup_step hi.nodup ho⟩
  · rw [step_maps] at h
    rcases Maps.mem_step_txs h with ⟨h, hne⟩ | ⟨ts, rfl⟩
    · have hs := hi.txs skb h
      cases e with
      | netDevQueue new ts => exact hs
      | netDevStartXmit new ts => exact List.mem_cons_of_mem new hs
      | netDevXmit new ts =>
        have he : skb ≠ new := fun he => hne ts (he ▸ rfl)
        exact (List.mem_erase_of_ne he).mpr hs
    · exact List.mem_cons_self
  · have hkeyed := l.maps.step_keys e
    rw [step_maps, hkeyed.mem, hkeyed.length]
    rcases mem_inFlight_of_step ho h with h | ⟨ts, rfl⟩
    · rcases hi.txq skb h with hq | hfull
      · exact Or.inl (mem_remember (AList.mem_keys.mp hq) e)
      · exact Or.inr (Nat.le_trans hfull (length_le_remember _ e))
    · exact mem_noted_or_full _ skb

/-- The skb a step transmits is not in `insp_txq`. -/
def Spares (l : Link S) (e : Event S) : Prop := ∀ skb ts, e = .netDevXmit skb ts → skb ∉ l.maps.txq

theorem step_contained (hi : Inv l) (hc : l.Contained) (ho : l.InOrder e) (hs : l.Spares e) :
    (l.step e).2.Contained := by
  intro skb h
  rcases h with h | h
  · rw [step_maps] at h
    cases e with
    | netDevQueue new ts =>
      rcases Table.mem_update.mp h with h | ⟨rfl, -⟩
      · exact mem_inFlight_step (hc skb (Or.inl h)) (by simp)
      · exact mem_inFlight.mpr (Or.inl List.mem_cons_self)
    | netDevStartXmit new ts =>
      have hsame := (l.maps.step_keys (.netDevStartXmit new ts)).mem skb
      exact mem_inFlight_step (hc skb (Or.inl (AList.mem_keys.mpr (hsame.mp h)))) (by simp)
    | netDevXmit new ts =>
      have hsame := (l.maps.step_keys (.netDevXmit new ts)).mem skb
      have hq : skb ∈ l.maps.txq := AList.mem_keys.mpr (hsame.mp h)
      exact mem_inFlight_step (hc skb (Or.inl hq)) fun ts' he => hs skb ts' he hq
  · exact mem_inFlight.mpr (Or.inr ((step_inv hi ho).txs skb h))

theorem step_breaks (hi : Inv l) (ho : l.InOrder e) (hs : ¬ l.Spares e) : ¬ (l.step e).2.Contained := by
  unfold Spares at hs
  push Not at hs
  obtain ⟨skb, ts, rfl, hq⟩ := hs
  intro hc
  have hstay : skb ∈ (l.step (.netDevXmit skb ts)).2.maps.txq := by
    rw [step_maps, (l.maps.step_keys _).mem]
    exact AList.mem_keys.mp hq
  have hnd := List.nodup_append.mp hi.nodup
  rcases mem_inFlight.mp (hc skb (Or.inl hstay)) with h | h
  · exact hnd.2.2 skb h skb ho rfl
  · exact (hnd.2.1.mem_erase_iff.mp h).1 rfl

/-- Maps that hold only what is in flight are not full before the link is. -/
theorem Contained.roomy (hc : l.Contained) (e : Event S) : l.Roomy e := by
  intro hlt
  have hq : l.maps.txq.keys.length < maxEntries :=
    Nat.lt_of_le_of_lt (Table.keys_length_le fun skb h => hc skb (Or.inl h)) hlt
  have hs : l.maps.txs.keys.length < maxEntries :=
    Nat.lt_of_le_of_lt (Table.keys_length_le fun skb h => hc skb (Or.inr h)) hlt
  cases e with
  | netDevQueue skb ts => simp [step, Maps.step, Maps.netDevQueue, Table.Room, hq]
  | netDevStartXmit skb ts =>
    simp only [step, Maps.step, Maps.netDevStartXmit]
    split
    · rfl
    · simp [Table.Room, hs]
  | netDevXmit skb ts =>
    simp only [step, Maps.step, Maps.netDevXmit]
    split <;> rfl

theorem along_spares_iff {es : List (Event S)} (hi : Inv l) (hk : Keyed l.maps.txq fs) (ho : along step InOrder l es) :
    along step Spares l es ↔ ∀ skb ts, .netDevXmit skb ts ∈ es → skb ∉ es.foldl remember fs := by
  induction es generalizing l fs with
  | nil => simp
  | cons e es ih =>
    have hk' : Keyed (l.step e).2.maps.txq (remember fs e) := by
      rw [step_maps]
      exact Maps.step_txq hk e
    have hrest := ih (step_inv hi ho.1) hk' ho.2
    have hhead : l.Spares e ↔ ∀ skb ts, e = .netDevXmit skb ts → skb ∉ (e :: es).foldl remember fs := by
      refine forall_congr' fun skb => forall_congr' fun ts => imp_congr_right ?_
      rintro rfl
      rw [hk.mem, List.foldl_cons]
      refine not_congr ⟨fun h => mem_remembered h es, fun h => ?_⟩
      -- an skb in flight that was not put in found the map full, and full it stays
      rcases hi.txq skb (mem_inFlight.mpr (Or.inr ho.1)) with hq | hfull
      · exact (hk.mem skb).mp hq
      · rw [hk.length] at hfull
        rw [remember_of_full hfull, remembered_of_full hfull] at h
        exact h
    rw [along_cons, hhead, hrest]
    constructor
    · rintro ⟨h1, h2⟩ skb ts hmem
      rcases List.mem_cons.mp hmem with he | hmem
      · exact h1 skb ts he.symm
      · exact h2 skb ts hmem
    · intro h
      exact ⟨fun skb ts he => h skb ts (he ▸ List.mem_cons_self), fun skb ts hmem => h skb ts (List.mem_cons_of_mem e hmem)⟩

/-- In every run in order: the maps hold only packets in flight in every state, and with fewer
    than `maxEntries` of these no update fails, exactly where no skb among the first
    `maxEntries` queued is transmitted. -/
theorem txlatency_in_flight_iff (es : List (Event S)) (ho : along step InOrder (start : Link S) es) :
    always step Contained (start : Link S) es ∧ along step Roomy (start : Link S) es ↔
      ∀ skb ts, .netDevXmit skb ts ∈ es → skb ∉ firstQueued es := by
  have hcont : always step Contained (start : Link S) es ↔ along step Spares (start : Link S) es := by
    refine always_iff_along_of (I := fun l => Inv l ∧ l.Contained) (fun l hl => hl.2) ?_ ?_ ⟨start_inv, ?_⟩ ho
    · exact fun l e hl ho hs => ⟨step_inv hl.1 ho, step_contained hl.1 hl.2 ho hs⟩
    · exact fun l e hl ho hs => step_breaks hl.1 ho hs
    · rintro skb (h | h) <;> exact absurd h (AList.notMem_empty skb)
  have hspares := along_spares_iff start_inv start_keyed ho
  constructor
  · intro h
    exact hspares.mp (hcont.mp h.1)
  · intro h
    have hc := hcont.mpr (hspares.mpr h)
    exact ⟨hc, along_of_always (fun l e hc => hc.roomy e) hc⟩

def underway : List (Event Nat) := [.netDevQueue 1 10, .netDevStartXmit 1 20]

theorem txlatency_in_flight_underway :
    along step InOrder start underway ∧ always step Contained start underway ∧ along step Roomy start underway := by
  have ho : along step InOrder start underway := ⟨by decide, by decide, trivial⟩
  refine ⟨ho, (txlatency_in_flight_iff underway ho).mpr ?_⟩
  intro skb ts h
  simp [underway] at h

def oneSent : List (Event Nat) := [.netDevQueue 1 10, .netDevStartXmit 1 20, .netDevXmit 1 30]

theorem a_sent_packet_stays_in_txq :
    along step InOrder start oneSent ∧ 1 ∉ (exec step start oneSent).2.inFlight ∧
      1 ∈ (exec step start oneSent).2.maps.txq ∧ ¬ always step Contained start oneSent := by
  refine ⟨⟨by decide, by decide, by decide, trivial⟩, by decide, by decide, ?_⟩
  rintro ⟨-, -, -, hc⟩
  exact absurd (hc 1 (by decide)) (by decide)

end Link

end Model

end EliteTelemetry.Probes.TxLatency
