/-
  EliteTelemetry.Ipcache.Control — the service's own steps keep the invariant: `logChange`,
  and every step of `syncControl`.

  No step of the control loop changes the history, so each is settled by what it does to the
  log and its cuts (`LogInv`), to the clients (`Advances`) and to the loop's own place.
-/

import EliteTelemetry.Ipcache.Invariant

namespace EliteTelemetry.Ipcache

open EliteTelemetry.Lib.NumberedLog

/-! ## Compaction -/

/-- The snapshot is the replay of a first part of the history, the log goes on from there. -/
structure Cut (h queued : List ChangeLog) (snap : CacheSnapshot) (log : List ChangeLog) : Prop where
  le : snap.revision ≤ h.length
  entries : snap.entries = replayed (h.take snap.revision)
  log : log ++ queued = h.drop snap.revision

variable {h : List ChangeLog} {todo : List Nat} {n : Nat} {s t : Sys}

/-- Moving changes into the snapshot moves the cut, not beyond `m`. -/
theorem compactLoop_cut {queued : List ChangeLog} (hn : Numbered (·.revision) h) (m : Nat) (log : List ChangeLog) :
    ∀ snap, Cut h queued snap log →
      Cut h queued (compactLoop m snap log).1 (compactLoop m snap log).2 ∧
        (compactLoop m snap log).1.revision ≤ max snap.revision m := by
  induction log with
  | nil =>
    intro snap hc
    exact ⟨hc, Nat.le_max_left _ _⟩
  | cons cl log ih =>
    intro snap hc
    unfold compactLoop
    by_cases hm : m < cl.revision
    · rw [if_pos hm]
      exact ⟨hc, Nat.le_max_left _ _⟩
    · rw [if_neg hm]
      have hdrop : h.drop snap.revision = cl :: (log ++ queued) := hc.log.symm
      have hcl := getElem?_of_drop hdrop
      have hrev : cl.revision = snap.revision + 1 := hn _ _ hcl
      have hlt := lt_of_getElem? hcl
      have hcut : Cut h queued ⟨cl.revision, apply snap.entries cl⟩ log := by
        refine ⟨?_, ?_, ?_⟩
        · show cl.revision ≤ h.length
          omega
        · show apply snap.entries cl = replayed (h.take cl.revision)
          rw [hrev, hc.entries]
          exact (replay_take_succ apply ∅ hcl).symm
        · show log ++ queued = h.drop cl.revision
          rw [hrev]
          exact (drop_succ hdrop).symm
      obtain ⟨h1, h2⟩ := ih _ hcut
      refine ⟨h1, ?_⟩
      have hbound : max cl.revision m ≤ max snap.revision m := by omega
      exact Nat.le_trans h2 hbound

theorem compactLog_cut {queued : List ChangeLog} (hn : Numbered (·.revision) h) (revision : Nat)
    (clients : List Client) {snap : CacheSnapshot} {log : List ChangeLog} (hc : Cut h queued snap log) :
    Cut h queued (compactLog revision clients snap log).1 (compactLog revision clients snap log).2 ∧
      (compactLog revision clients snap log).1.revision ≤ max snap.revision (minRevision revision clients) := by
  unfold compactLog
  simp only
  split_ifs
  · exact ⟨hc, Nat.le_max_left _ _⟩
  · exact compactLoop_cut hn _ log snap hc

/-! ## Steps that leave the streams -/

theorem LogInv.move {v : Service} (hl : LogInv h v) {c : Control} (hc : c.inFlight = v.control.inFlight) :
    LogInv h { v with control := c } := by
  refine ⟨hl.numbered, hl.counter, hl.snapLe, hl.snapEq, hl.logEq, hl.syncedLe, ?_⟩
  show v.pendingLogs ++ c.inFlight ++ v.queued = h.drop v.maxSyncedRevision
  rw [hc]
  exact hl.pendEq

theorem inv_setControl (hi : Inv s) {c : Control} (hc : c.inFlight = s.svc.control.inFlight)
    (hctl : ControlInv s.history s.svc.queued s.svc.snapshot.revision (Registered s.nextStream s.streams)
      (fun n => (s.client n).revision) c) : Inv (s.setControl c) :=
  ⟨hi.log.move hc, hi.known, hi.retained, hctl, hi.agents⟩

theorem inv_requeue (hi : Inv s) (logChan : List ChangeLog) (job : Option LogJob)
    (hq : logChan ++ (job.bind (·.held)).toList = s.svc.queued) :
    Inv { s with svc := { s.svc with logChan := logChan, job := job } } := by
  have hq' : ({ s.svc with logChan := logChan, job := job } : Service).queued = s.svc.queued := hq
  refine ⟨⟨hi.log.numbered, hi.log.counter, hi.log.snapLe, hi.log.snapEq, ?_, hi.log.syncedLe, ?_⟩, hi.known,
    hi.retained, ?_, hi.agents⟩
  · rw [hq']
    exact hi.log.logEq
  · rw [hq']
    exact hi.log.pendEq
  · rw [hq']
    exact hi.control

theorem logChange_inv (hi : Inv s) {op : OpCode} {es : List CacheEntry} (h : s.logChange op es = some t) : Inv t := by
  unfold Sys.logChange at h
  split_ifs at h with he hj
  · cases h
    exact hi
  · cases h
    refine inv_requeue hi s.svc.logChan (some ⟨op, es, none⟩) ?_
    simp [Service.queued, Option.isNone_iff_eq_none.mp hj]

theorem logAdd_inv (hi : Inv s) (h : s.logAdd = some t) : Inv t := by
  unfold Sys.logAdd at h
  split at h
  · rename_i op e es hjob
    cases h
    have hl := hi.log
    have hrev : s.svc.revision + 1 = s.history.length + 1 := by rw [hl.counter]
    have hq : ∀ cl, ({ s.svc with revision := s.svc.revision + 1, job := some ⟨op, es, some cl⟩ } : Service).queued =
        s.svc.queued ++ [cl] := by
      intro cl
      simp [Service.queued, hjob]
    refine ⟨⟨hl.numbered.snoc hrev, ?_, ?_, ?_, ?_, ?_, ?_⟩, hi.known, hi.retained, ?_, ?_⟩
    · show s.svc.revision + 1 = _
      rw [List.length_append, hrev]
      rfl
    · show s.svc.snapshot.revision ≤ _
      rw [List.length_append]
      exact Nat.le_add_right_of_le hl.snapLe
    · show s.svc.snapshot.entries = replayed (List.take s.svc.snapshot.revision (s.history ++ _))
      rw [List.take_append_of_le_length hl.snapLe]
      exact hl.snapEq
    · show s.svc.log ++ Service.queued _ = List.drop s.svc.snapshot.revision (s.history ++ _)
      rw [hq, drop_snoc hl.snapLe, ← List.append_assoc, hl.logEq]
    · show s.svc.maxSyncedRevision ≤ _
      rw [List.length_append]
      exact Nat.le_add_right_of_le hl.syncedLe
    · show s.svc.pendingLogs ++ s.svc.control.inFlight ++ Service.queued _ =
        List.drop s.svc.maxSyncedRevision (s.history ++ _)
      rw [hq, drop_snoc hl.syncedLe, ← List.append_assoc, hl.pendEq]
    · rw [hq]
      exact hi.control.grow _
    · exact fun i => (hi.agents i).grow _
  · cases h

theorem logSend_inv (hi : Inv s) (h : s.logSend = some t) : Inv t := by
  unfold Sys.logSend at h
  split at h
  · rename_i op es cl hjob
    by_cases hroom : s.svc.logChan.length < logBufferSize
    · rw [if_pos hroom] at h
      cases h
      refine inv_requeue hi (s.svc.logChan ++ [cl]) _ ?_
      unfold Service.queued
      rw [hjob]
      split_ifs <;> simp
    · rw [if_neg hroom] at h
      cases h
  · cases h

theorem receive_inv (hi : Inv s) (h : s.receive = some t) : Inv t := by
  unfold Sys.receive at h
  split at h
  · rename_i cl rest hsel hchan
    cases h
    have hq : s.svc.queued = cl :: (rest ++ (s.svc.job.bind (·.held)).toList) := by
      simp [Service.queued, hchan]
    -- wherever the loop goes, it has the change in flight and no client in work
    obtain ⟨c, hc, hfl, htriv⟩ : ∃ c : Control,
        (if maxRetainedLogEntries < (s.svc.log ++ [cl]).length then Control.closing cl
          else if compactThreshold < (s.svc.log ++ [cl]).length then .compacting (some cl) else .pending cl) = c ∧
        c.inFlight = [cl] ∧ ∀ h q snap reg rev, ControlInv h q snap reg rev c := by
      split_ifs
      · exact ⟨_, rfl, rfl, fun _ _ _ _ _ => trivial⟩
      · exact ⟨_, rfl, rfl, fun _ _ _ _ _ => trivial⟩
      · exact ⟨_, rfl, rfl, fun _ _ _ _ _ => trivial⟩
    rw [hc]
    refine ⟨⟨hi.log.numbered, hi.log.counter, hi.log.snapLe, hi.log.snapEq, ?_, hi.log.syncedLe, ?_⟩, hi.known,
      hi.retained, htriv _ _ _ _ _, hi.agents⟩
    · have := hi.log.logEq
      rw [hq] at this
      rw [← this]
      simp [Service.queued]
    · have := hi.log.pendEq
      rw [hq, hsel] at this
      rw [← this]
      show s.svc.pendingLogs ++ c.inFlight ++ (rest ++ _) = s.svc.pendingLogs ++ [] ++ cl :: (rest ++ _)
      rw [hfl, List.append_nil, List.append_assoc]
      rfl
  · cases h

theorem ticker_inv (hi : Inv s) (h : s.ticker = some t) : Inv t := by
  unfold Sys.ticker at h
  split at h
  · rename_i hsel
    cases h
    split_ifs
    · exact inv_setControl hi (by rw [hsel]; rfl) trivial
    · exact inv_setControl hi (by rw [hsel]; rfl) trivial
  · cases h

theorem compact_inv (hi : Inv s) {next : Option ChangeLog} (hsel : s.svc.control = .compacting next) :
    Inv (s.compact next) := by
  have hl := hi.log
  have hpend := hl.pendEq
  obtain ⟨hcut, hle⟩ := compactLog_cut hl.numbered s.svc.revision (s.svc.clients.map s.client)
    ⟨hl.snapLe, hl.snapEq, hl.logEq⟩
  rw [hsel] at hpend
  refine ⟨⟨hl.numbered, hl.counter, hcut.le, hcut.entries, hcut.log, hl.syncedLe, ?_⟩, hi.known, ?_, ?_, hi.agents⟩
  · cases next with
    | none => exact hpend
    | some cl => exact hpend
  · -- an open client is not behind the least revision of the open ones
    intro n hn hopen
    have hmin := (minRevision_le s.svc.revision (s.svc.clients.map s.client)).2 (s.client n)
      (List.mem_map.mpr ⟨n, hn, rfl⟩) hopen
    have hret := hi.retained n hn hopen
    exact Nat.le_trans hle (Nat.max_le.mpr ⟨hret, hmin⟩)
  · cases next with
    | none => trivial
    | some cl => trivial

theorem pend_inv (hi : Inv s) {cl : ChangeLog} (hsel : s.svc.control = .pending cl) : Inv (s.pend cl) := by
  have hpend := hi.log.pendEq
  rw [hsel] at hpend
  unfold Sys.pend
  simp only
  split_ifs
  all_goals
    refine ⟨⟨hi.log.numbered, hi.log.counter, hi.log.snapLe, hi.log.snapEq, hi.log.logEq, hi.log.syncedLe, ?_⟩,
      hi.known, hi.retained, trivial, hi.agents⟩
    rw [← hpend]
    show s.svc.pendingLogs ++ [cl] ++ [] ++ s.svc.queued = _
    rw [List.append_nil]
    rfl

theorem LogInv.lastRevision_eq {v : Service} (hl : LogInv h v) :
    Sys.lastRevision v.pendingLogs v.maxSyncedRevision = v.maxSyncedRevision + v.pendingLogs.length := by
  unfold Sys.lastRevision
  rcases List.eq_nil_or_concat v.pendingLogs with hnil | ⟨ls, cl, hls⟩
  · rw [hnil]
    rfl
  · rw [List.concat_eq_append] at hls
    have hcl : h[v.maxSyncedRevision + ls.length]? = some cl := by
      rw [← List.getElem?_drop, ← hl.pendEq, hls]
      simp
    rw [hls, List.getLast?_concat, List.length_append]
    exact hl.numbered _ _ hcl

theorem synced_inv (hi : Inv s) {ticker : Bool} (hsel : s.svc.control = .upToDate ticker []) :
    Inv (s.synced ticker) := by
  have hl := hi.log
  have hpend := hl.pendEq
  rw [hsel, show (Control.upToDate ticker []).inFlight = [] from rfl, List.append_nil] at hpend
  have hlen := congrArg List.length hpend
  simp only [List.length_append, List.length_drop] at hlen
  have hle := hl.syncedLe
  have hlast := hl.lastRevision_eq
  have hdrop : s.svc.queued = s.history.drop (Sys.lastRevision s.svc.pendingLogs s.svc.maxSyncedRevision) := by
    rw [hlast, ← List.drop_drop, ← hpend, List.drop_left]
  unfold Sys.synced
  cases ticker
  all_goals
    refine ⟨⟨hl.numbered, hl.counter, hl.snapLe, hl.snapEq, hl.logEq, ?_, hdrop⟩, hi.known, hi.retained, trivial,
      hi.agents⟩
    show Sys.lastRevision s.svc.pendingLogs s.svc.maxSyncedRevision ≤ s.history.length
    omega

/-! ## Steps that move clients -/

theorem inv_advance (hi : Inv s) (clients : List Nat) (c : Control) {f : Nat → Client}
    (hadv : ∀ n, Advances s.history (s.client n) (f n)) (hsub : ∀ n ∈ clients, n ∈ s.svc.clients)
    (hc : c.inFlight = s.svc.control.inFlight)
    (hctl : ControlInv s.history s.svc.queued s.svc.snapshot.revision (Registered s.nextStream s.streams)
      (fun n => (f n).revision) c) :
    Inv { s with
      svc := { s.svc with clients := clients, control := c }
      streams := fun n => { s.streams n with client := f n } } := by
  refine ⟨(hi.log.move hc).clients clients, ?_, ?_, hctl, ?_⟩
  · intro n hn
    exact hi.known n (hsub n hn)
  · intro n hn hopen
    exact Nat.le_trans (hi.retained n (hsub n hn) ((hadv n).closed hopen)) (hadv n).le
  · intro i
    exact (hi.agents i).frame (Nat.le_refl _) fun n _ _ _ => (hadv n).carries _

theorem mapClients_eq (s : Sys) (f : Client → Client) :
    (s.mapClients f).streams = fun n =>
      { s.streams n with client := if n ∈ s.svc.clients then f (s.client n) else s.client n } := by
  funext n
  unfold Sys.mapClients
  simp only
  split_ifs <;> rfl

theorem setClient_eq (s : Sys) (n : Nat) (c : Client) :
    (s.setClient n c).streams = fun m => { s.streams m with client := Function.update s.client n c m } := by
  funext m
  by_cases hm : m = n
  · subst hm
    simp [Sys.setClient, Sys.setStream]
  · simp [Sys.setClient, Sys.setStream, Sys.client, Function.update_of_ne hm]

theorem inv_setClient (hi : Inv s) {d : Client} {c : Control} (hadv : Advances s.history (s.client n) d)
    (hc : c.inFlight = s.svc.control.inFlight)
    (hctl : ControlInv s.history s.svc.queued s.svc.snapshot.revision (Registered s.nextStream s.streams)
      (fun m => (Function.update s.client n d m).revision) c) : Inv ((s.setClient n d).setControl c) := by
  have hall : ∀ m, Advances s.history (s.client m) (Function.update s.client n d m) := by
    intro m
    by_cases hm : m = n
    · subst hm
      rw [Function.update_self]
      exact hadv
    · rw [Function.update_of_ne hm]
      exact Advances.refl _ _
  have hinv := inv_advance hi s.svc.clients c hall (fun m hm => hm) hc hctl
  rw [← setClient_eq] at hinv
  exact hinv

theorem closing_inv (hi : Inv s) {cl : ChangeLog} (hsel : s.svc.control = .closing cl) :
    Inv ((s.mapClients Client.backpressured).setControl (.compacting (some cl))) := by
  have hback : ∀ c : Client, Advances s.history c c.backpressured := by
    intro c
    unfold Client.backpressured
    split_ifs
    · exact Advances.refl _ _
    · exact ⟨fun hopen => (Bool.noConfusion hopen), Or.inl ⟨rfl, rfl⟩⟩
  have hall : ∀ n, Advances s.history (s.client n)
      (if n ∈ s.svc.clients then (s.client n).backpressured else s.client n) := by
    intro n
    split_ifs
    · exact hback _
    · exact Advances.refl _ _
  have hinv := inv_advance hi s.svc.clients (.compacting (some cl)) hall (fun n hn => hn)
    (by rw [hsel]; rfl) trivial
  rw [← mapClients_eq] at hinv
  exact hinv

theorem mem_of_open (h : n ∈ s.svc.clients.filter fun n => !(s.client n).closed) :
    n ∈ s.svc.clients ∧ (s.client n).closed = false := by
  obtain ⟨hmem, hopen⟩ := List.mem_filter.mp h
  exact ⟨hmem, by simpa using hopen⟩

theorem copyClients_inv (hi : Inv s) (filter : List ClientState) (next : List Nat → Control)
    (hfl : ∀ ns, (next ns).inFlight = s.svc.control.inFlight)
    (hnext : ∀ ns, (∀ n ∈ ns, Registered s.nextStream s.streams n ∧ s.svc.snapshot.revision ≤ (s.client n).revision) →
      ControlInv s.history s.svc.queued s.svc.snapshot.revision (Registered s.nextStream s.streams)
        (fun n => (s.client n).revision) (next ns)) : Inv (s.copyClients filter next) := by
  have hall : ∀ n, Advances s.history (s.client n)
      (if n ∈ s.svc.clients then (if (s.client n).closed then { s.client n with chClosed := true } else s.client n)
        else s.client n) := by
    intro n
    split_ifs
    · exact ⟨id, Or.inl ⟨rfl, rfl⟩⟩
    · exact Advances.refl _ _
    · exact Advances.refl _ _
  have hrev : (fun n => (if n ∈ s.svc.clients then
      (if (s.client n).closed then { s.client n with chClosed := true } else s.client n) else s.client n).revision) =
      fun n => (s.client n).revision := by
    funext n
    split_ifs <;> rfl
  have hcopied : ∀ n ∈ (s.svc.clients.filter fun n => !(s.client n).closed).filter fun n => (s.client n).state ∈ filter,
      Registered s.nextStream s.streams n ∧ s.svc.snapshot.revision ≤ (s.client n).revision := by
    intro n hn
    obtain ⟨h1, h2⟩ := mem_of_open (List.mem_filter.mp hn).1
    exact ⟨hi.known n h1, hi.retained n h1 h2⟩
  have hctl := hnext _ hcopied
  rw [← hrev] at hctl
  have hinv := inv_advance hi _ _ hall (fun n hn => (mem_of_open hn).1) (hfl _) hctl
  rw [← mapClients_eq s fun c => if c.closed then { c with chClosed := true } else c] at hinv
  exact hinv

theorem advances_sent {c d : Client} {cl : ChangeLog} (hn : Numbered (·.revision) h) (hcl : h[c.revision]? = some cl)
    (hd : d.closed = c.closed) (hrev : d.revision = cl.revision) (hch : d.ch = c.ch ++ [cl]) : Advances h c d := by
  have hnum : cl.revision = c.revision + 1 := hn _ _ hcl
  refine ⟨by rw [hd]; exact id, Or.inr ⟨cl, hcl, ?_, hch⟩⟩
  rw [hrev, hnum]

theorem sendUpToDate_inv (hi : Inv s) {ticker : Bool} {rest : List ChangeLog}
    (hsel : s.svc.control = .sending ticker n rest todo) : Inv (s.sendUpToDate ticker n rest todo) := by
  have hctl := hi.control
  rw [hsel] at hctl
  obtain ⟨hreg, htodo, hle, hrest⟩ := hctl
  unfold Sys.sendUpToDate
  simp only
  cases rest with
  | nil => exact inv_setClient hi ⟨id, Or.inl ⟨rfl, rfl⟩⟩ (by rw [hsel]; rfl) htodo
  | cons cl rest =>
    have hcl := getElem?_of_drop hrest.symm
    have hnum : cl.revision = (s.client n).revision + 1 := hi.log.numbered _ _ hcl
    have hlt := lt_of_getElem? hcl
    simp only
    split_ifs
    · exact inv_setControl hi (by rw [hsel]; rfl) trivial
    · refine inv_setClient hi (advances_sent hi.log.numbered hcl rfl rfl rfl) (by rw [hsel]; rfl) ⟨hreg, htodo, ?_, ?_⟩
      · simp only [Function.update_self]
        show cl.revision ≤ s.history.length
        rw [hnum]
        exact hlt
      · simp only [Function.update_self]
        show rest ++ s.svc.queued = s.history.drop cl.revision
        rw [hnum]
        exact (drop_succ hrest.symm).symm
    · exact inv_setClient hi ⟨id, Or.inl ⟨rfl, rfl⟩⟩ (by rw [hsel]; rfl) htodo

theorem todo_advance {d : Client} (hadv : (s.client n).revision ≤ d.revision)
    (htodo : ∀ m ∈ todo, Registered s.nextStream s.streams m ∧ s.svc.snapshot.revision ≤ (s.client m).revision) :
    ∀ m ∈ todo, Registered s.nextStream s.streams m ∧
      s.svc.snapshot.revision ≤ (Function.update s.client n d m).revision := by
  intro m hm
  obtain ⟨h1, h2⟩ := htodo m hm
  refine ⟨h1, ?_⟩
  by_cases he : m = n
  · subst he
    rw [Function.update_self]
    omega
  · rw [Function.update_of_ne he]
    exact h2

theorem sendStale_inv (hi : Inv s) {index : Nat} (hsel : s.svc.control = .sendingStale n index todo) :
    Inv (s.sendStale n index todo) := by
  have hctl := hi.control
  rw [hsel] at hctl
  obtain ⟨hreg, hidx, htodo⟩ := hctl
  unfold Sys.sendStale
  simp only
  cases hk : s.svc.log[index]? with
  | none => exact inv_setControl hi (by rw [hsel]; rfl) htodo
  | some cl =>
    obtain ⟨hcl, hnum⟩ := hi.log.log_getElem? hk
    have hrev : s.svc.snapshot.revision + index = (s.client n).revision := hidx
    rw [hrev] at hcl hnum
    have hsent : ∀ d : Client, d.closed = (s.client n).closed → d.revision = cl.revision →
        d.ch = (s.client n).ch ++ [cl] → Advances s.history (s.client n) d :=
      fun d h1 h2 h3 => advances_sent hi.log.numbered hcl h1 h2 h3
    have hup : (s.client n).revision ≤ cl.revision := by omega
    simp only
    split_ifs
    · exact inv_setControl hi (by rw [hsel]; rfl) trivial
    · exact inv_setClient hi (hsent _ rfl rfl rfl) (by rw [hsel]; rfl) (todo_advance hup htodo)
    · exact inv_setClient hi (hsent _ rfl rfl rfl) (by rw [hsel]; rfl) (todo_advance hup htodo)
    · refine inv_setClient hi (hsent _ rfl rfl rfl) (by rw [hsel]; rfl) ⟨hreg, ?_, todo_advance hup htodo⟩
      simp only [Function.update_self]
      show s.svc.snapshot.revision + (index + 1) = cl.revision
      omega
    · exact inv_setClient hi ⟨id, Or.inl ⟨rfl, rfl⟩⟩ (by rw [hsel]; rfl) (todo_advance (Nat.le_refl _) htodo)

/-- The next stale client: found in the log where its revision says, or not behind. -/
theorem nextStale_inv (hi : Inv s) (hsel : s.svc.control = .stale (n :: todo)) (h : s.controlStep = some t) :
    Inv t := by
  have hctl := hi.control
  rw [hsel] at hctl
  obtain ⟨hreg, hn⟩ := hctl n List.mem_cons_self
  simp only at hn
  have htodo := fun m hm => hctl m (List.mem_cons_of_mem n hm)
  unfold Sys.controlStep at h
  rw [hsel] at h
  simp only [hi.log.findNext_log hn] at h
  by_cases hlt : (s.client n).revision < s.svc.snapshot.revision + s.svc.log.length
  · simp only [hlt, if_true] at h
    rw [if_neg (by omega)] at h
    cases h
    refine inv_setControl hi (by rw [hsel]; rfl) ⟨hreg, ?_, htodo⟩
    simp only [Int.toNat_natCast]
    omega
  · simp only [hlt, if_false, if_true] at h
    cases h
    exact inv_setControl hi (by rw [hsel]; rfl) htodo

theorem controlStep_inv (hi : Inv s) (h : s.controlStep = some t) : Inv t := by
  cases hsel : s.svc.control with
  | select => simp [Sys.controlStep, hsel] at h
  | panicked => simp [Sys.controlStep, hsel] at h
  | closing cl =>
    simp only [Sys.controlStep, hsel, Option.some.injEq] at h
    subst h
    exact closing_inv hi hsel
  | compacting next =>
    simp only [Sys.controlStep, hsel, Option.some.injEq] at h
    subst h
    exact compact_inv hi hsel
  | pending cl =>
    simp only [Sys.controlStep, hsel, Option.some.injEq] at h
    subst h
    exact pend_inv hi hsel
  | copyUpToDate ticker =>
    simp only [Sys.controlStep, hsel, Option.some.injEq] at h
    subst h
    refine copyClients_inv hi _ _ (fun ns => by rw [hsel]; rfl) ?_
    intro ns hns n hn
    exact (hns n hn).1
  | upToDate ticker todo =>
    have hctl := hi.control
    have hpend := hi.log.pendEq
    rw [hsel] at hctl hpend
    cases todo with
    | nil =>
      simp only [Sys.controlStep, hsel, Option.some.injEq] at h
      subst h
      exact synced_inv hi hsel
    | cons n todo =>
      simp only [Sys.controlStep, hsel] at h
      by_cases hrev : (s.client n).revision = s.svc.maxSyncedRevision
      · rw [if_neg (by simpa using hrev)] at h
        cases h
        refine inv_setControl hi (by rw [hsel]; rfl) ⟨hctl n List.mem_cons_self, ?_, ?_, ?_⟩
        · exact fun m hm => hctl m (List.mem_cons_of_mem n hm)
        · simp only [hrev]
          exact hi.log.syncedLe
        · simp only [hrev]
          rw [← hpend]
          simp [Control.inFlight]
      · rw [if_pos hrev] at h
        cases h
        exact inv_setControl hi (by rw [hsel]; rfl) trivial
  | sending ticker n rest todo =>
    simp only [Sys.controlStep, hsel, Option.some.injEq] at h
    subst h
    exact sendUpToDate_inv hi hsel
  | copyStale =>
    simp only [Sys.controlStep, hsel, Option.some.injEq] at h
    subst h
    exact copyClients_inv hi _ _ (fun ns => by rw [hsel]; rfl) fun ns hns => hns
  | stale todo =>
    cases todo with
    | nil =>
      simp only [Sys.controlStep, hsel, Option.some.injEq] at h
      subst h
      exact inv_setControl hi (by rw [hsel]; rfl) trivial
    | cons n todo => exact nextStale_inv hi hsel h
  | sendingStale n index todo =>
    simp only [Sys.controlStep, hsel, Option.some.injEq] at h
    subst h
    exact sendStale_inv hi hsel

end EliteTelemetry.Ipcache
