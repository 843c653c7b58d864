/-
  EliteTelemetry.Ipcache.Sync — the control loop never panics.

  `syncUpToDateClients` panics where an up-to-date client is not at the revision synced
  last; `syncOne` has a branch its author marks impossible. Both rest on what the loop knows
  of the clients it works through (`SyncPhase`): outside a sync an up-to-date client is at
  `maxSyncedRevision`; while a batch goes out the clients still to do are there, and those
  done are at the batch's end; while the stale ones are served nothing is pending, so the
  log ends at `maxSyncedRevision`.

  A client of the list has an open channel, since only `copyClients` closes one and it drops
  the client with it: a send never meets a closed channel either. `sync_never_panics` puts
  the claims together over every run.
-/

import EliteTelemetry.Ipcache.Replication

namespace EliteTelemetry.Ipcache

open EliteTelemetry.Lib.NumberedLog EliteTelemetry.Lib.Machine

/-! ## The invariant -/

def UpToDateAt (clients : List Nat) (c : Nat → Client) (work : List Nat) (revision : Nat) : Prop :=
  ∀ n ∈ clients, n ∉ work → (c n).state = .uptodate → (c n).revision = revision

/-- What the loop knows of the clients, by its place. `last` is the end of the batch. -/
def SyncPhase (clients : List Nat) (c : Nat → Client) (pending : List ChangeLog) (synced last : Nat) : Control → Prop
  | .upToDate _ todo =>
    todo.Nodup ∧ (∀ n ∈ todo, n ∈ clients ∧ (c n).revision = synced) ∧ UpToDateAt clients c todo last
  | .sending _ n _ todo =>
    (n :: todo).Nodup ∧ n ∈ clients ∧ (∀ m ∈ todo, m ∈ clients ∧ (c m).revision = synced) ∧
      UpToDateAt clients c (n :: todo) last
  | .copyStale => pending = [] ∧ UpToDateAt clients c [] synced
  | .stale todo =>
    pending = [] ∧ todo.Nodup ∧ (∀ n ∈ todo, n ∈ clients ∧ (c n).state ≠ .uptodate) ∧ UpToDateAt clients c [] synced
  | .sendingStale n _ todo =>
    pending = [] ∧ (n :: todo).Nodup ∧ (∀ m ∈ n :: todo, m ∈ clients ∧ (c m).state ≠ .uptodate) ∧
      UpToDateAt clients c [] synced
  | .panicked => False
  | _ => UpToDateAt clients c [] synced

structure SyncInv (s : Sys) : Prop where
  nodup : s.svc.clients.Nodup
  chOpen : ∀ n ∈ s.svc.clients, (s.client n).chClosed = false
  phase : SyncPhase s.svc.clients s.client s.svc.pendingLogs s.svc.maxSyncedRevision
    (Sys.lastRevision s.svc.pendingLogs s.svc.maxSyncedRevision) s.svc.control

theorem init_sync (period : String) (agents : Nat → Agent) : SyncInv (init period agents) := by
  refine ⟨List.nodup_nil, ?_, ?_⟩
  · intro n hn
    cases hn
  · intro n hn
    cases hn

/-! ## Steps that leave the loop where it is -/

variable {ticker : Bool} {clients todo : List Nat} {n : Nat} {c : Nat → Client} {s t : Sys}

theorem UpToDateAt.mono {clients' : List Nat} {d : Nat → Client} {work : List Nat} {r : Nat}
    (h : UpToDateAt clients c work r)
    (hsub : ∀ n ∈ clients', n ∈ clients ∧ Alike (c n) (d n) ∨ (d n).state ≠ .uptodate) :
    UpToDateAt clients' d work r := by
  intro n hn hw hs
  rcases hsub n hn with ⟨hc, ha⟩ | hne
  · rw [ha.revision]
    exact h n hc hw (ha.state ▸ hs)
  · exact absurd hs hne

/-- The list may lose clients the loop is not working on, and gain stale ones. -/
theorem SyncPhase.frame {clients' : List Nat} {d : Nat → Client} {pending : List ChangeLog} {synced last : Nat}
    {ctl : Control} (h : SyncPhase clients c pending synced last ctl)
    (hold : ∀ n ∈ clients, n ∈ clients' ∧ Alike (c n) (d n))
    (hnew : ∀ n ∈ clients', n ∈ clients ∨ (d n).state ≠ .uptodate) :
    SyncPhase clients' d pending synced last ctl := by
  have hup : ∀ work r, UpToDateAt clients c work r → UpToDateAt clients' d work r := by
    intro work r hu
    refine hu.mono fun n hn => ?_
    rcases hnew n hn with hc | hne
    · exact Or.inl ⟨hc, (hold n hc).2⟩
    · exact Or.inr hne
  have hrev : ∀ todo : List Nat, (∀ n ∈ todo, n ∈ clients ∧ (c n).revision = synced) →
      ∀ n ∈ todo, n ∈ clients' ∧ (d n).revision = synced := by
    intro todo ht n hn
    obtain ⟨h1, h2⟩ := ht n hn
    exact ⟨(hold n h1).1, (hold n h1).2.revision.trans h2⟩
  have hst : ∀ todo : List Nat, (∀ n ∈ todo, n ∈ clients ∧ (c n).state ≠ .uptodate) →
      ∀ n ∈ todo, n ∈ clients' ∧ (d n).state ≠ .uptodate := by
    intro todo ht n hn
    obtain ⟨h1, h2⟩ := ht n hn
    exact ⟨(hold n h1).1, (hold n h1).2.state ▸ h2⟩
  cases ctl with
  | upToDate t todo => exact ⟨h.1, hrev todo h.2.1, hup _ _ h.2.2⟩
  | sending t n rest todo => exact ⟨h.1, (hold n h.2.1).1, hrev todo h.2.2.1, hup _ _ h.2.2.2⟩
  | copyStale => exact ⟨h.1, hup _ _ h.2⟩
  | stale todo => exact ⟨h.1, h.2.1, hst todo h.2.2.1, hup _ _ h.2.2.2⟩
  | sendingStale n index todo => exact ⟨h.1, h.2.1, hst _ h.2.2.1, hup _ _ h.2.2.2⟩
  | panicked => exact h
  | _ => exact hup _ _ h

structure SameLoop (s t : Sys) : Prop where
  clients : t.svc.clients = s.svc.clients
  pending : t.svc.pendingLogs = s.svc.pendingLogs
  synced : t.svc.maxSyncedRevision = s.svc.maxSyncedRevision
  control : t.svc.control = s.svc.control

theorem SyncInv.same (hs : SyncInv s) (hl : SameLoop s t) (hc : ∀ n ∈ s.svc.clients, Alike (s.client n) (t.client n)) :
    SyncInv t := by
  refine ⟨hl.clients ▸ hs.nodup, ?_, ?_⟩
  · intro n hn
    rw [hl.clients] at hn
    rw [(hc n hn).chClosed]
    exact hs.chOpen n hn
  · rw [hl.clients, hl.pending, hl.synced, hl.control]
    exact hs.phase.frame (fun n hn => ⟨hn, hc n hn⟩) fun n hn => Or.inl hn

theorem SyncInv.setStream (hs : SyncInv s) {st : Stream} (hc : Alike (s.client n) st.client) :
    SyncInv (s.setStream n st) := by
  refine hs.same ⟨rfl, rfl, rfl, rfl⟩ ?_
  intro m _
  by_cases hm : m = n
  · subst hm
    simpa [Sys.client, Sys.setStream] using hc
  · simpa [Sys.client, Sys.setStream, Function.update_of_ne hm] using Alike.refl _

theorem SyncInv.setAgent (hs : SyncInv s) (i : Nat) (a : Agent) : SyncInv (s.setAgent i a) :=
  hs.same ⟨rfl, rfl, rfl, rfl⟩ fun _ _ => Alike.refl _

theorem SyncInv.openStream (hs : SyncInv s) (hi : Inv s) (st : Stream) : SyncInv (s.openStream st) := by
  refine hs.same ⟨rfl, rfl, rfl, rfl⟩ ?_
  intro n hn
  have hlt := (hi.known n hn).1
  simpa [Sys.client, Sys.openStream, Function.update_of_ne (Nat.ne_of_lt hlt)] using Alike.refl _

theorem not_mem_of_requested (hi : Inv s) (h : (s.streams n).phase = .requested) :
    n ∉ s.svc.clients := fun hn => (hi.known n hn).2 h

theorem SyncInv.join (hs : SyncInv s) (hnot : n ∉ s.svc.clients) {st : Stream} (hstate : st.client.state ≠ .uptodate)
    (hch : st.client.chClosed = false) :
    SyncInv { s.setStream n st with svc := { s.svc with clients := s.svc.clients ++ [n] } } := by
  have hold : ∀ m ∈ s.svc.clients, Function.update s.streams n st m = s.streams m := fun m hm =>
    Function.update_of_ne (fun e : m = n => hnot (e ▸ hm)) _ _
  refine ⟨?_, ?_, ?_⟩
  · refine List.nodup_append.mpr ⟨hs.nodup, List.nodup_singleton _, ?_⟩
    intro a ha b hb
    rw [List.mem_singleton.mp hb]
    exact fun e => hnot (e ▸ ha)
  · intro m hm
    show (Function.update s.streams n st m).client.chClosed = false
    rcases List.mem_append.mp hm with hm | hm
    · rw [hold m hm]
      exact hs.chOpen m hm
    · rw [List.mem_singleton.mp hm, Function.update_self]
      exact hch
  · refine hs.phase.frame ?_ ?_
    · intro m hm
      refine ⟨List.mem_append_left _ hm, ?_⟩
      show Alike (s.client m) (Function.update s.streams n st m).client
      rw [hold m hm]
      exact Alike.refl _
    · intro m hm
      rcases List.mem_append.mp hm with hm | hm
      · exact Or.inl hm
      · refine Or.inr ?_
        show (Function.update s.streams n st m).client.state ≠ .uptodate
        rw [List.mem_singleton.mp hm, Function.update_self]
        exact hstate

theorem register_sync (hi : Inv s) (hs : SyncInv s) (h : s.register n = some t) : SyncInv t := by
  unfold Sys.register at h
  simp only at h
  by_cases hreq : n < s.nextStream ∧ (s.streams n).phase = .requested
  · rw [if_pos hreq] at h
    split_ifs at h
    · cases h
      exact hs.setStream (Alike.refl _)
    · cases h
      exact hs.setStream (Alike.refl _)
    · cases h
      exact hs.join (not_mem_of_requested hi hreq.2) (by simp [newClient]) rfl
  · rw [if_neg hreq] at h
    cases h

/-! ## The loop's steps -/

theorem SyncInv.setControl (hs : SyncInv s) {c : Control}
    (hc : SyncPhase s.svc.clients s.client s.svc.pendingLogs s.svc.maxSyncedRevision
      (Sys.lastRevision s.svc.pendingLogs s.svc.maxSyncedRevision) c) : SyncInv (s.setControl c) :=
  ⟨hs.nodup, hs.chOpen, hc⟩

theorem receive_sync (hs : SyncInv s) (h : s.receive = some t) : SyncInv t := by
  unfold Sys.receive at h
  split at h
  · rename_i cl rest hsel hchan
    cases h
    have hphase := hs.phase
    rw [hsel] at hphase
    refine ⟨hs.nodup, hs.chOpen, ?_⟩
    show SyncPhase _ _ _ _ _ (if _ then _ else if _ then _ else _)
    split_ifs
    · exact hphase
    · exact hphase
    · exact hphase
  · cases h

theorem ticker_sync (hs : SyncInv s) (h : s.ticker = some t) : SyncInv t := by
  unfold Sys.ticker at h
  split at h
  · rename_i hsel
    cases h
    have hphase := hs.phase
    rw [hsel] at hphase
    split_ifs with hnil
    · exact hs.setControl ⟨hnil, hphase⟩
    · exact hs.setControl hphase
  · cases h

theorem backpressured_alike (c : Client) : Alike c c.backpressured := by
  unfold Client.backpressured
  split_ifs
  · exact Alike.refl c
  · exact ⟨rfl, rfl, rfl⟩

theorem closing_sync (hs : SyncInv s) {cl : ChangeLog} (hsel : s.svc.control = .closing cl) :
    SyncInv ((s.mapClients Client.backpressured).setControl (.compacting (some cl))) := by
  have hmap : SyncInv (s.mapClients Client.backpressured) := by
    refine hs.same ⟨rfl, rfl, rfl, rfl⟩ ?_
    intro n hn
    simp only [Sys.client, Sys.mapClients, if_pos hn]
    exact backpressured_alike _
  have hphase := hmap.phase
  rw [show (s.mapClients Client.backpressured).svc.control = .closing cl from hsel] at hphase
  exact hmap.setControl hphase

theorem compact_sync (hs : SyncInv s) {next : Option ChangeLog} (hsel : s.svc.control = .compacting next) :
    SyncInv (s.compact next) := by
  have hphase := hs.phase
  rw [hsel] at hphase
  refine ⟨hs.nodup, hs.chOpen, ?_⟩
  cases next with
  | none => exact hphase
  | some cl => exact hphase

theorem pend_sync (hs : SyncInv s) {cl : ChangeLog} (hsel : s.svc.control = .pending cl) : SyncInv (s.pend cl) := by
  have hphase := hs.phase
  rw [hsel] at hphase
  unfold Sys.pend
  simp only
  split_ifs
  · exact ⟨hs.nodup, hs.chOpen, hphase⟩
  · exact ⟨hs.nodup, hs.chOpen, hphase⟩

theorem copyClients_client {filter : List ClientState} {next : List Nat → Control}
    (hopen : (s.client n).closed = false) : (s.copyClients filter next).client n = s.client n := by
  show (if n ∈ s.svc.clients then { s.streams n with
    client := if (s.client n).closed then { s.client n with chClosed := true } else s.client n }
    else s.streams n).client = _
  simp only [hopen, Bool.false_eq_true, if_false]
  split_ifs <;> rfl

theorem copyClients_sync (hs : SyncInv s) (filter : List ClientState) (next : List Nat → Control)
    (hnext : ∀ ns todo : List Nat, ns ⊆ s.svc.clients → todo.Nodup →
      (∀ n, n ∈ todo ↔ n ∈ ns ∧ (s.client n).state ∈ filter) →
      SyncPhase ns s.client s.svc.pendingLogs s.svc.maxSyncedRevision
        (Sys.lastRevision s.svc.pendingLogs s.svc.maxSyncedRevision) (next todo)) :
    SyncInv (s.copyClients filter next) := by
  have hsame : ∀ n ∈ s.svc.clients.filter (fun n => !(s.client n).closed),
      (s.copyClients filter next).client n = s.client n := fun n hn => copyClients_client (mem_of_open hn).2
  refine ⟨hs.nodup.filter _, ?_, ?_⟩
  · intro n hn
    rw [hsame n hn]
    exact hs.chOpen n (mem_of_open hn).1
  · refine (hnext _ _ (fun n hn => (mem_of_open hn).1) ((hs.nodup.filter _).filter _) ?_).frame ?_ fun n hn => Or.inl hn
    · intro n
      rw [List.mem_filter, decide_eq_true_eq]
    · intro n hn
      exact ⟨hn, by rw [hsame n hn]; exact Alike.refl _⟩

theorem copyUpToDate_sync (hs : SyncInv s) (hsel : s.svc.control = .copyUpToDate ticker) :
    SyncInv (s.copyClients [.uptodate] (.upToDate ticker)) := by
  have hphase := hs.phase
  rw [hsel] at hphase
  refine copyClients_sync hs _ _ ?_
  intro ns todo hsub hnd htodo
  refine ⟨hnd, ?_, ?_⟩
  · intro n hn
    obtain ⟨h1, h2⟩ := (htodo n).mp hn
    exact ⟨h1, hphase n (hsub h1) List.not_mem_nil (by simpa using h2)⟩
  · intro n hn hnot hst
    exact absurd ((htodo n).mpr ⟨hn, by simpa using hst⟩) hnot

theorem copyStale_sync (hs : SyncInv s) (hsel : s.svc.control = .copyStale) :
    SyncInv (s.copyClients [.stale, .blocking] .stale) := by
  have hphase := hs.phase
  rw [hsel] at hphase
  obtain ⟨hnil, hup⟩ := hphase
  refine copyClients_sync hs _ _ ?_
  intro ns todo hsub hnd htodo
  refine ⟨hnil, hnd, ?_, fun n hn => hup n (hsub hn)⟩
  intro n hn
  obtain ⟨h1, h2⟩ := (htodo n).mp hn
  refine ⟨h1, fun he => ?_⟩
  rw [he] at h2
  simp at h2

theorem synced_sync (hs : SyncInv s) (hsel : s.svc.control = .upToDate ticker []) : SyncInv (s.synced ticker) := by
  have hphase := hs.phase
  rw [hsel] at hphase
  refine ⟨hs.nodup, hs.chOpen, ?_⟩
  cases ticker with
  | true => exact ⟨rfl, hphase.2.2⟩
  | false => exact hphase.2.2

/-! ## Sends -/

theorem UpToDateAt.weaken {r : Nat} (h : UpToDateAt clients c [] r) (work : List Nat) :
    UpToDateAt clients c work r := fun n hn _ => h n hn List.not_mem_nil

/-- One client is worked on, and ends where the others are if it is up to date. -/
theorem UpToDateAt.update {work : List Nat} {r : Nat} {d : Client} (h : UpToDateAt clients c (n :: work) r)
    (hd : d.state = .uptodate → d.revision = r) : UpToDateAt clients (Function.update c n d) work r := by
  intro m hm hw hs
  by_cases hmn : m = n
  · subst hmn
    rw [Function.update_self] at hs ⊢
    exact hd hs
  · rw [Function.update_of_ne hmn] at hs ⊢
    exact h m hm (by simp [hmn, hw]) hs

theorem forall_update (P : Nat → Client → Prop) {d : Client} (hn : n ∉ todo) (h : ∀ m ∈ todo, P m (c m)) :
    ∀ m ∈ todo, P m (Function.update c n d m) := by
  intro m hm
  rw [Function.update_of_ne fun e : m = n => hn (e ▸ hm)]
  exact h m hm

theorem SyncInv.setClient (hs : SyncInv s) {d : Client} {c : Control} (hch : d.chClosed = (s.client n).chClosed)
    (hc : SyncPhase s.svc.clients (Function.update s.client n d) s.svc.pendingLogs s.svc.maxSyncedRevision
      (Sys.lastRevision s.svc.pendingLogs s.svc.maxSyncedRevision) c) : SyncInv ((s.setClient n d).setControl c) := by
  have hclient : ((s.setClient n d).setControl c).client = Function.update s.client n d := by
    funext m
    show ((s.setClient n d).streams m).client = _
    rw [setClient_eq]
  refine ⟨hs.nodup, ?_, ?_⟩
  · intro m hm
    rw [hclient]
    by_cases hmn : m = n
    · subst hmn
      rw [Function.update_self, hch]
      exact hs.chOpen m hm
    · rw [Function.update_of_ne hmn]
      exact hs.chOpen m hm
  · rw [hclient]
    exact hc

theorem sent_last (hi : Inv s) (hsel : s.svc.control = .sending ticker n [] todo) :
    (s.client n).revision = Sys.lastRevision s.svc.pendingLogs s.svc.maxSyncedRevision := by
  have hctl := hi.control
  have hpend := congrArg List.length hi.log.pendEq
  rw [hsel] at hctl hpend
  obtain ⟨-, -, hle, hrest⟩ := hctl
  have hle : (s.client n).revision ≤ s.history.length := hle
  have hrest := congrArg List.length hrest
  simp only [Control.inFlight, List.nil_append, List.append_nil, List.length_append, List.length_drop] at hrest hpend
  have hsynced := hi.log.syncedLe
  rw [hi.log.lastRevision_eq]
  omega

theorem sendUpToDate_sync (hi : Inv s) (hs : SyncInv s) {rest : List ChangeLog}
    (hsel : s.svc.control = .sending ticker n rest todo) : SyncInv (s.sendUpToDate ticker n rest todo) := by
  have hphase := hs.phase
  rw [hsel] at hphase
  obtain ⟨hnd, hn, htodo, hup⟩ := hphase
  obtain ⟨hnot, hnd'⟩ := List.nodup_cons.mp hnd
  have hrest : ∀ d : Client, ∀ m ∈ todo, m ∈ s.svc.clients ∧
      (Function.update s.client n d m).revision = s.svc.maxSyncedRevision := fun _ =>
    forall_update (fun m c => m ∈ s.svc.clients ∧ c.revision = s.svc.maxSyncedRevision) hnot htodo
  unfold Sys.sendUpToDate
  simp only
  cases rest with
  | nil =>
    refine hs.setClient rfl ⟨hnd', hrest _, hup.update ?_⟩
    intro _
    exact sent_last hi hsel
  | cons cl rest =>
    simp only
    split_ifs with hclosed
    · rw [hs.chOpen n hn] at hclosed
      cases hclosed
    · refine hs.setClient rfl ⟨hnd, hn, hrest _, ?_⟩
      intro m hm hw hst
      rw [Function.update_of_ne fun e : m = n => hw (e ▸ List.mem_cons_self)] at hst ⊢
      exact hup m hm hw hst
    · refine hs.setClient rfl ⟨hnd', hrest _, hup.update ?_⟩
      intro hst
      cases hst

/-- While nothing is pending or in flight the log ends at the revision synced last. -/
theorem log_le_synced (hi : Inv s) (hnil : s.svc.pendingLogs = []) (hfl : s.svc.control.inFlight = []) {index : Nat}
    {cl : ChangeLog} (hk : s.svc.log[index]? = some cl) : cl.revision ≤ s.svc.maxSyncedRevision := by
  have hrev := (hi.log.log_getElem? hk).2
  have hlt := lt_of_getElem? hk
  have hlog := congrArg List.length hi.log.logEq
  have hpend := congrArg List.length hi.log.pendEq
  have hsynced := hi.log.syncedLe
  have hsnap := hi.log.snapLe
  rw [hnil, hfl] at hpend
  simp only [List.nil_append, List.length_append, List.length_drop] at hlog hpend
  omega

theorem sendStale_sync (hi : Inv s) (hs : SyncInv s) {index : Nat} (hsel : s.svc.control = .sendingStale n index todo) :
    SyncInv (s.sendStale n index todo) := by
  have hphase := hs.phase
  rw [hsel] at hphase
  obtain ⟨hnil, hnd, htodo, hup⟩ := hphase
  obtain ⟨hnot, hnd'⟩ := List.nodup_cons.mp hnd
  obtain ⟨hn, hstate⟩ := htodo n List.mem_cons_self
  have htodo' : ∀ m ∈ todo, m ∈ s.svc.clients ∧ (s.client m).state ≠ .uptodate := fun m hm =>
    htodo m (List.mem_cons_of_mem n hm)
  have hrest : ∀ d : Client, ∀ m ∈ todo, m ∈ s.svc.clients ∧ (Function.update s.client n d m).state ≠ .uptodate := fun _ =>
    forall_update (fun m c => m ∈ s.svc.clients ∧ c.state ≠ .uptodate) hnot htodo'
  unfold Sys.sendStale
  simp only
  cases hk : s.svc.log[index]? with
  | none => exact hs.setControl ⟨hnil, hnd', htodo', hup⟩
  | some cl =>
    have hle := log_le_synced hi hnil (by rw [hsel]; rfl) hk
    simp only
    split_ifs with hclosed hroom heq hgt
    · rw [hs.chOpen n hn] at hclosed
      cases hclosed
    · refine hs.setClient rfl ⟨hnil, hnd', hrest _, (hup.weaken _).update ?_⟩
      intro _
      exact heq
    · omega
    · refine hs.setClient rfl ⟨hnil, hnd, ?_, (hup.weaken _).update ?_⟩
      · intro m hm
        rcases List.mem_cons.mp hm with rfl | hm
        · rw [Function.update_self]
          exact ⟨hn, hstate⟩
        · exact hrest _ m hm
      · intro hst
        exact absurd hst hstate
    · refine hs.setClient rfl ⟨hnil, hnd', hrest _, (hup.weaken _).update ?_⟩
      intro hst
      cases hst

theorem controlStep_sync (hi : Inv s) (hs : SyncInv s) (h : s.controlStep = some t) : SyncInv t := by
  have hphase := hs.phase
  cases hsel : s.svc.control with
  | select => simp [Sys.controlStep, hsel] at h
  | panicked => simp [Sys.controlStep, hsel] at h
  | closing cl =>
    simp only [Sys.controlStep, hsel, Option.some.injEq] at h
    subst h
    exact closing_sync hs hsel
  | compacting next =>
    simp only [Sys.controlStep, hsel, Option.some.injEq] at h
    subst h
    exact compact_sync hs hsel
  | pending cl =>
    simp only [Sys.controlStep, hsel, Option.some.injEq] at h
    subst h
    exact pend_sync hs hsel
  | copyUpToDate ticker =>
    simp only [Sys.controlStep, hsel, Option.some.injEq] at h
    subst h
    exact copyUpToDate_sync hs hsel
  | upToDate ticker todo =>
    rw [hsel] at hphase
    obtain ⟨hnd, htodo, hup⟩ := hphase
    cases todo with
    | nil =>
      simp only [Sys.controlStep, hsel, Option.some.injEq] at h
      subst h
      exact synced_sync hs hsel
    | cons n todo =>
      have hrev := htodo n List.mem_cons_self
      simp only [Sys.controlStep, hsel] at h
      rw [if_neg (by simpa using hrev.2)] at h
      cases h
      exact hs.setControl ⟨hnd, hrev.1, fun m hm => htodo m (List.mem_cons_of_mem n hm), hup⟩
  | sending ticker n rest todo =>
    simp only [Sys.controlStep, hsel, Option.some.injEq] at h
    subst h
    exact sendUpToDate_sync hi hs hsel
  | copyStale =>
    simp only [Sys.controlStep, hsel, Option.some.injEq] at h
    subst h
    exact copyStale_sync hs hsel
  | stale todo =>
    rw [hsel] at hphase
    obtain ⟨hnil, hnd, htodo, hup⟩ := hphase
    cases todo with
    | nil =>
      simp only [Sys.controlStep, hsel, Option.some.injEq] at h
      subst h
      exact hs.setControl hup
    | cons n todo =>
      have hctl := hi.control
      rw [hsel] at hctl
      have hsnap : s.svc.snapshot.revision ≤ (s.client n).revision := (hctl n List.mem_cons_self).2
      simp only [Sys.controlStep, hsel, hi.log.findNext_log hsnap] at h
      split_ifs at h
      all_goals
        cases h
        first
        | exact hs.setControl ⟨hnil, hnd, htodo, hup⟩
        | exact hs.setControl ⟨hnil, (List.nodup_cons.mp hnd).2, fun m hm => htodo m (List.mem_cons_of_mem n hm), hup⟩
  | sendingStale n index todo =>
    simp only [Sys.controlStep, hsel, Option.some.injEq] at h
    subst h
    exact sendStale_sync hi hs hsel

/-! ## Runs -/

theorem Aside.sync (h : Aside s t) (hi : Inv s) (hs : SyncInv s) : SyncInv t := by
  cases h with
  | agent i a => exact hs.setAgent i a
  | stream h => exact hs.setStream h
  | received h i a => exact (hs.setStream h).setAgent i a
  | opened st => exact hs.openStream hi st
  | watched st i a => exact (hs.openStream hi st).setAgent i a

theorem step_sync {e : Event} (h : step s e = some t) (hi : Inv s) (hs : SyncInv s) : SyncInv t := by
  replace h := react_of_step h
  cases e with
  | logChange op es =>
    simp only [react, Sys.logChange] at h
    split_ifs at h
    · cases h
      exact hs
    · cases h
      exact hs.same ⟨rfl, rfl, rfl, rfl⟩ fun _ _ => Alike.refl _
  | logAdd =>
    simp only [react, Sys.logAdd] at h
    split at h <;> cases h
    exact hs.same ⟨rfl, rfl, rfl, rfl⟩ fun _ _ => Alike.refl _
  | logSend =>
    simp only [react, Sys.logSend] at h
    split at h
    · split_ifs at h
      all_goals
        cases h
        exact hs.same ⟨rfl, rfl, rfl, rfl⟩ fun _ _ => Alike.refl _
    · cases h
  | receive => exact receive_sync hs h
  | ticker => exact ticker_sync hs h
  | control => exact controlStep_sync hi hs h
  | register n => exact register_sync hi hs h
  | _ => exact (react_aside h rfl).sync hi hs

/-- The revision received last: every one numbered but those the loop has still to receive. -/
def Sys.received (s : Sys) : Nat := s.history.length - s.svc.queued.length

theorem LogInv.log_revisions {h : List ChangeLog} {v : Service} (hl : LogInv h v) :
    v.log.map (·.revision) =
      List.range' (v.snapshot.revision + 1) (h.length - v.queued.length - v.snapshot.revision) := by
  have hlen := congrArg List.length hl.logEq
  have hsnap := hl.snapLe
  simp only [List.length_append, List.length_drop] at hlen
  apply List.ext_getElem
  · rw [List.length_map, List.length_range']
    omega
  · intro k hk _
    rw [List.length_map] at hk
    have hrev := (hl.log_getElem? (List.getElem?_eq_getElem hk)).2
    rw [List.getElem_map, List.getElem_range', hrev]
    omega

theorem init_fresh_inv (period : String) : Inv (init period fun _ => freshAgent) := by
  refine ⟨⟨numbered_nil, rfl, Nat.le_refl 0, rfl, rfl, Nat.le_refl 0, rfl⟩, ?_, ?_, trivial, ?_⟩
  · intro n hn
    cases hn
  · intro n hn
    cases hn
  · exact fun i => freshAgent_inv _ _ _ _ _

theorem runs_sync {period : String} {es : List Event} (hrun : runs step (init period fun _ => freshAgent) es = some s) :
    Inv s ∧ SyncInv s :=
  runs_keeps (I := fun s => Inv s ∧ SyncInv s) (fun _ _ _ h hi => ⟨step_inv h hi.1, step_sync h hi.1 hi.2⟩)
    ⟨init_fresh_inv period, init_sync _ _⟩ hrun

/-- In every state of every run: the loop has not panicked; where a batch is about to go out
    every open up-to-date client is at the revision synced last; what `syncOne` is about to
    send is not beyond it; no open client is behind the snapshot; and the log holds the
    revisions from the snapshot's to the last received. -/
theorem sync_never_panics (period : String) (es : List Event) (s : Sys)
    (hrun : runs step (init period fun _ => freshAgent) es = some s) :
    s.svc.control ≠ .panicked ∧
      (∀ ticker, s.svc.control = .copyUpToDate ticker → ∀ n ∈ s.svc.clients,
        (s.client n).closed = false → (s.client n).state = .uptodate → (s.client n).revision = s.svc.maxSyncedRevision) ∧
      (∀ n index todo cl, s.svc.control = .sendingStale n index todo → s.svc.log[index]? = some cl →
        cl.revision ≤ s.svc.maxSyncedRevision) ∧
      (∀ n ∈ s.svc.clients, (s.client n).closed = false → s.svc.snapshot.revision ≤ (s.client n).revision) ∧
      s.svc.log.map (·.revision) =
        List.range' (s.svc.snapshot.revision + 1) (s.received - s.svc.snapshot.revision) := by
  obtain ⟨hi, hs⟩ := runs_sync hrun
  refine ⟨?_, ?_, ?_, hi.retained, hi.log.log_revisions⟩
  · intro hsel
    have hphase := hs.phase
    rw [hsel] at hphase
    exact hphase
  · intro ticker hsel n hn _ hst
    have hphase := hs.phase
    rw [hsel] at hphase
    exact hphase n hn List.not_mem_nil hst
  · intro n index todo cl hsel hk
    have hphase := hs.phase
    rw [hsel] at hphase
    exact log_le_synced hi hphase.1 (by rw [hsel]; rfl) hk

theorem sync_never_panics_sample :
    ∃ s, runs step (init "p" fun _ => freshAgent) sampleRun = some s ∧ s.svc.control ≠ .panicked ∧
      s.svc.log.map (·.revision) =
        List.range' (s.svc.snapshot.revision + 1) (s.received - s.svc.snapshot.revision) := by
  have hrun := (Option.some_get sampleRun_enabled).symm
  have h := sync_never_panics "p" sampleRun _ hrun
  exact ⟨_, hrun, h.1, h.2.2.2.2⟩

end EliteTelemetry.Ipcache
