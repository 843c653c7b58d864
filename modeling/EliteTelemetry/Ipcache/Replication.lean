/-
  EliteTelemetry.Ipcache.Replication — the IP cache is replicated exactly: whatever the
  interleaving, an agent's copy of this period is the replay of the changes up to the copy's
  revision.

  The handlers' and the agents' steps keep the invariant as the service's do, so it holds in
  every reachable state (`step_inv`), and it says what a copy is.
-/

import EliteTelemetry.Ipcache.Control
import EliteTelemetry.Ipcache.History

namespace EliteTelemetry.Ipcache

open EliteTelemetry.Lib.NumberedLog EliteTelemetry.Lib.Machine

/-! ## Handlers -/

variable {n i : Nat} {s t : Sys}

/-- Streams move on as their clients and their receivers need, new ones open. -/
theorem inv_streams (hi : Inv s) {streams : Nat → Stream} {next : Nat} (hn : s.nextStream ≤ next)
    (hf : ∀ n, n < s.nextStream → Follows (s.streams n) (streams n))
    (hc : ∀ i n, (s.agents i).phase = .receiving n → n < s.nextStream → (s.streams n).owner = some i →
      Carries s.svc.period s.history (s.streams n) (streams n)) :
    Inv { s with streams := streams, nextStream := next } := by
  have hreg : ∀ n, Registered s.nextStream s.streams n →
      Registered next streams n ∧ (streams n).client.revision = (s.client n).revision := by
    intro n hn'
    obtain ⟨h1, h2⟩ := hn'
    exact ⟨⟨by omega, (hf n h1).registered h2⟩, (hf n h1).revision h2⟩
  refine ⟨hi.log, ?_, ?_, hi.control.frame hreg, ?_⟩
  · intro n hmem
    exact (hreg n (hi.known n hmem)).1
  · intro n hmem hopen
    obtain ⟨h1, h2⟩ := hi.known n hmem
    show s.svc.snapshot.revision ≤ (streams n).client.revision
    rw [(hreg n ⟨h1, h2⟩).2]
    exact hi.retained n hmem ((hf n h1).closed h2 hopen)
  · intro i
    exact (hi.agents i).frame hn (hc i)

theorem inv_setStream (hi : Inv s) {st : Stream} (hf : Follows (s.streams n) st)
    (hc : ∀ i, (s.agents i).phase = .receiving n → (s.streams n).owner = some i →
      Carries s.svc.period s.history (s.streams n) st) : Inv (s.setStream n st) := by
  refine inv_streams hi (Nat.le_refl _) ?_ ?_
  · intro m _
    by_cases hm : m = n
    · subst hm
      rw [Function.update_self]
      exact hf
    · rw [Function.update_of_ne hm]
      exact Follows.of_client id rfl id
  · intro i m hph _ hown
    by_cases hm : m = n
    · subst hm
      rw [Function.update_self]
      exact hc i hph hown
    · rw [Function.update_of_ne hm]
      exact Carries.refl _ _ _

theorem inv_openStream (hi : Inv s) (st : Stream) : Inv (s.openStream st) := by
  refine inv_streams hi (Nat.le_succ _) ?_ ?_
  · intro m hm
    rw [Function.update_of_ne (by omega)]
    exact Follows.of_client id rfl id
  · intro i m _ hm _
    rw [Function.update_of_ne (by omega)]
    exact Carries.refl _ _ _

theorem inv_finish (hi : Inv s) {st : Stream} {code : Code} (ho : st.owner = (s.streams n).owner)
    (hph : st.phase = .finished code) (hw : st.wire = (s.streams n).wire)
    (hr : st.client.revision = (s.streams n).client.revision)
    (hc : st.client.closed = false → (s.streams n).client.closed = false) : Inv (s.setStream n st) := by
  refine inv_setStream hi (Follows.of_client ?_ hr hc) fun _ _ _ => Carries.finish ho hph hw
  intro _ hreq
  rw [hph] at hreq
  cases hreq

theorem register_inv (hi : Inv s) (h : s.register n = some t) : Inv t := by
  unfold Sys.register at h
  simp only at h
  by_cases hreq : n < s.nextStream ∧ (s.streams n).phase = .requested
  · rw [if_pos hreq] at h
    by_cases hp : (s.streams n).period = s.svc.period
    · rw [if_neg (by simpa using hp)] at h
      by_cases hr : (s.streams n).revision < s.svc.snapshot.revision
      · rw [if_pos hr] at h
        cases h
        exact inv_finish hi rfl rfl rfl rfl id
      · rw [if_neg hr] at h
        cases h
        -- the stream is served from the requested revision on
        have hserve : Inv (s.setStream n
            { s.streams n with phase := .serving, client := newClient (s.streams n).revision }) := by
          refine inv_setStream hi ⟨fun hne => absurd hreq.2 hne, fun hne => absurd hreq.2 hne,
            fun hne => absurd hreq.2 hne⟩ ?_
          intro i _ _
          refine ⟨rfl, fun hph => (by cases hph), ?_⟩
          intro r hle hrq hf
          obtain ⟨-, rfl⟩ := hrq hreq.2
          unfold Feeds at hf ⊢
          rw [hreq.2] at hf
          exact ⟨Nat.le_refl _, hle, by simp [hf.1, hf.2, newClient]⟩
        refine ⟨hserve.log.clients _, ?_, ?_, hserve.control, hserve.agents⟩
        · intro m hm
          rcases List.mem_append.mp hm with hm | hm
          · exact hserve.known m hm
          · rw [List.mem_singleton] at hm
            subst hm
            exact ⟨hreq.1, by simp [Sys.setStream]⟩
        · intro m hm hopen
          rcases List.mem_append.mp hm with hm | hm
          · exact hserve.retained m hm hopen
          · rw [List.mem_singleton] at hm
            subst hm
            simp only [Sys.client, Sys.setStream, Function.update_self, newClient]
            omega
    · rw [if_pos hp] at h
      cases h
      exact inv_finish hi rfl rfl rfl rfl id
  · rw [if_neg hreq] at h
    cases h

theorem inv_pass (hi : Inv s) {st : Stream} (ho : st.owner = (s.streams n).owner)
    (hs : (s.streams n).phase = .serving) (hph : st.phase = .serving)
    (hr : st.client.revision = (s.streams n).client.revision) (hc : st.client.closed = (s.streams n).client.closed)
    (hw : st.wire ++ st.hand.toList ++ st.client.ch =
      (s.streams n).wire ++ (s.streams n).hand.toList ++ (s.streams n).client.ch) : Inv (s.setStream n st) := by
  refine inv_setStream hi (Follows.of_client ?_ hr ?_) ?_
  · intro _ hreq
    rw [hph] at hreq
    cases hreq
  · rw [hc]
    exact id
  · intro i _ _
    refine ⟨ho, ?_, ?_⟩
    · intro hreq
      rw [hph] at hreq
      cases hreq
    · intro r _ _ hf
      unfold Feeds at hf ⊢
      rw [hs] at hf
      rw [hph, hr, hw]
      exact hf

theorem take_inv (hi : Inv s) (h : s.take n = some t) : Inv t := by
  unfold Sys.take at h
  simp only at h
  split at h
  · rename_i cl ch hph hhand hch
    cases h
    refine inv_pass hi rfl hph hph rfl rfl ?_
    simp [hhand, hch]
  · cases h

theorem send_inv (hi : Inv s) (h : s.send n = some t) : Inv t := by
  unfold Sys.send at h
  simp only at h
  split at h
  · rename_i cl hph hhand
    cases h
    refine inv_pass hi rfl hph hph rfl rfl ?_
    simp [hhand]
  · cases h

theorem leave_inv (hi : Inv s) (n : Nat) : Inv (s.leave n) :=
  inv_finish hi rfl rfl rfl rfl fun hopen => (by cases hopen)

theorem channelClosed_inv (hi : Inv s) (h : s.channelClosed n = some t) : Inv t := by
  unfold Sys.channelClosed at h
  simp only at h
  split_ifs at h
  cases h
  exact inv_finish hi rfl rfl rfl rfl id

/-! ## Agents -/

theorem inv_setAgent (hi : Inv s) {a : Agent} (ha : AgentInv s.svc.period s.history s.nextStream s.streams i a) :
    Inv (s.setAgent i a) := by
  refine ⟨hi.log, hi.known, hi.retained, hi.control, ?_⟩
  intro j
  by_cases hj : j = i
  · subst hj
    show AgentInv _ _ _ _ _ (Function.update s.agents j a j)
    rw [Function.update_self]
    exact ha
  · show AgentInv _ _ _ _ _ (Function.update s.agents i a j)
    rw [Function.update_of_ne hj]
    exact hi.agents j

theorem inv_setPhase (hi : Inv s) {ph : AgentPhase} (hph : ph = .listing ∨ ∃ relist, ph = .reconn relist) :
    Inv (s.setPhase i ph) :=
  inv_setAgent hi (AgentInv.reconn (hi.agents i).cache hph)

theorem freshAgent_inv (p : String) (h : List ChangeLog) (next : Nat) (streams : Nat → Stream) (i : Nat) :
    AgentInv p h next streams i freshAgent := by
  refine AgentInv.reconn ?_ (Or.inr ⟨false, rfl⟩)
  intro _
  exact ⟨Nat.zero_le _, fun ip => rfl⟩

theorem connect_inv (hi : Inv s) (h : s.connect i = some t) : Inv t := by
  unfold Sys.connect at h
  simp only at h
  split at h
  · split_ifs at h
    · cases h
      exact inv_setPhase hi (Or.inl rfl)
    · cases h
      refine inv_setAgent hi ⟨(hi.agents i).cache, ?_, ?_, ?_⟩
      · intro resp e
        cases e
      · intro relist q r e
        cases e
        exact ⟨rfl, rfl⟩
      · intro n e
        cases e
  · cases h

theorem listCache_inv (hi : Inv s) {es : List CacheEntry} (h : s.listCache i es = some t) : Inv t := by
  unfold Sys.listCache at h
  split_ifs at h with hl
  cases h
  refine inv_setAgent hi ⟨(hi.agents i).cache, ?_, ?_, ?_⟩
  · intro resp e _
    cases e
    refine ⟨hi.log.snapLe, ?_⟩
    show Lists es (replayed (s.history.take s.svc.snapshot.revision))
    rw [← hi.log.snapEq]
    exact hl.2
  · intro relist q r e
    cases e
  · intro n e
    cases e

theorem relisted_inv (hi : Inv s) (h : s.relisted i = some t) : Inv t := by
  unfold Sys.relisted at h
  split at h
  · rename_i resp hph
    cases h
    refine inv_setAgent hi ⟨?_, ?_, ?_, ?_⟩
    · intro hp
      obtain ⟨h1, h2⟩ := (hi.agents i).listed resp hph hp
      exact ⟨h1, updateIPCache_mirrors h2 (replayed_keyed _) _ _⟩
    · intro resp' e
      cases e
    · intro relist q r e
      cases e
      exact ⟨rfl, rfl⟩
    · intro n e
      cases e
  · cases h

theorem watchCache_inv (hi : Inv s) (h : s.watchCache i = some t) : Inv t := by
  unfold Sys.watchCache at h
  split at h
  · rename_i relist p r hph
    cases h
    obtain ⟨hp, hr⟩ := (hi.agents i).watch relist p r hph
    have hopen := inv_openStream hi (newStream (some i) p r)
    refine inv_setAgent hopen ⟨(hopen.agents i).cache, ?_, ?_, ?_⟩
    · intro resp e
      cases e
    · intro relist' q r' e
      cases e
    · intro n e
      cases e
      simp only [Sys.openStream, Function.update_self]
      exact ⟨Nat.lt_succ_self _, rfl, fun _ => ⟨hp, hr, rfl⟩, fun _ => ⟨rfl, rfl⟩⟩
  · cases h

theorem callFails_inv (hi : Inv s) (h : s.callFails i = some t) : Inv t := by
  unfold Sys.callFails at h
  split at h
  · cases h
    exact inv_setPhase hi (Or.inr ⟨true, rfl⟩)
  · rename_i relist p r hph
    cases h
    exact inv_setPhase hi (Or.inr ⟨relist, rfl⟩)
  · cases h

/-- The agent takes a change off the wire. Only the stream's owner receives on it, so with the
    agent set aside the stream may lose what it likes. -/
theorem inv_recvAgent (hi : Inv s) {wire : List ChangeLog} {a : Agent} (hph : (s.agents i).phase = .receiving n)
    (ha : AgentInv s.svc.period s.history s.nextStream
      (Function.update s.streams n { s.streams n with wire := wire }) i a) :
    Inv ((s.setStream n { s.streams n with wire := wire }).setAgent i a) := by
  obtain ⟨-, hown, -⟩ := (hi.agents i).receiving n hph
  have hoff := inv_setAgent hi (freshAgent_inv s.svc.period s.history s.nextStream s.streams i)
  have hstream : Inv ((s.setAgent i freshAgent).setStream n { s.streams n with wire := wire }) := by
    refine inv_setStream hoff (Follows.of_client id rfl id) ?_
    intro j hj hj'
    have hji : j = i := by
      have hs : (s.streams n).owner = some j := hj'
      rw [hown] at hs
      cases hs
      rfl
    subst hji
    simp [Sys.setAgent, freshAgent] at hj
  have hinv := inv_setAgent (i := i) (a := a) hstream ha
  simp only [Sys.setAgent, Sys.setStream, Function.update_idem] at hinv ⊢
  exact hinv

theorem recv_inv (hi : Inv s) (h : s.recv i = some t) : Inv t := by
  unfold Sys.recv at h
  simp only at h
  split at h
  · rename_i n hph
    split at h
    · rename_i cl wire hwire
      have ha := hi.agents i
      obtain ⟨hlt, hown, hreq, hfeeds⟩ := ha.receiving n hph
      split at h
      · rename_i cache hcache
        cases h
        obtain ⟨hperiod, hrev⟩ := applyIPCacheChange_stamp hcache
        refine inv_recvAgent hi hph ⟨?_, ?_, ?_, ?_⟩
        · intro hp
          have hp' : (s.agents i).cache.period = s.svc.period := hperiod.symm.trans hp
          obtain ⟨hle, hmirror⟩ := ha.cache hp'
          obtain ⟨hnext, -⟩ := (hfeeds hp').recv hwire
          have hnum : cl.revision = (s.agents i).cache.revision + 1 := hi.log.numbered _ _ hnext
          show cache.revision ≤ _ ∧ Mirrors cache (replayed (s.history.take cache.revision))
          rw [hrev, hnum]
          refine ⟨lt_of_getElem? hnext, ?_⟩
          unfold replayed
          rw [replay_take_succ apply ∅ hnext]
          exact applyIPCacheChange_mirrors hmirror hcache
        · intro resp e
          rw [hph] at e
          cases e
        · intro relist q r e
          rw [hph] at e
          cases e
        · intro m e
          rw [hph] at e
          cases e
          rw [Function.update_self]
          refine ⟨hlt, hown, ?_, ?_⟩
          · -- nothing is sent on a stream that is not served yet
            intro hph'
            obtain ⟨-, -, hnil⟩ := hreq hph'
            rw [hwire] at hnil
            cases hnil
          · intro hp
            obtain ⟨hnext, hf⟩ := (hfeeds (hperiod.symm.trans hp)).recv hwire
            have hnum : cl.revision = (s.agents i).cache.revision + 1 := hi.log.numbered _ _ hnext
            show Feeds s.history cache.revision _
            rw [hrev, hnum]
            exact hf
      · cases h
        exact inv_recvAgent hi hph (freshAgent_inv _ _ _ _ _)
    · cases h
  · cases h

theorem recvErr_inv (hi : Inv s) {relist : Bool} (h : s.recvErr i relist = some t) : Inv t := by
  unfold Sys.recvErr at h
  split at h
  · simp only at h
    split_ifs at h
    cases h
    exact inv_setPhase hi (Or.inr ⟨relist, rfl⟩)
  · cases h

/-! ## Runs -/

theorem step_inv {e : Event} (h : step s e = some t) (hi : Inv s) : Inv t := by
  replace h := react_of_step h
  cases e with
  | logChange op es => exact logChange_inv hi h
  | logAdd => exact logAdd_inv hi h
  | logSend => exact logSend_inv hi h
  | receive => exact receive_inv hi h
  | ticker => exact ticker_inv hi h
  | control => exact controlStep_inv hi h
  | register n => exact register_inv hi h
  | take n => exact take_inv hi h
  | send n => exact send_inv hi h
  | sendFail n =>
    simp only [react, Sys.sendFail] at h
    split_ifs at h
    cases h
    exact leave_inv hi n
  | disconnect n =>
    simp only [react, Sys.disconnect] at h
    split_ifs at h
    cases h
    exact leave_inv hi n
  | channelClosed n => exact channelClosed_inv hi h
  | connect i => exact connect_inv hi h
  | listCache i es => exact listCache_inv hi h
  | relisted i => exact relisted_inv hi h
  | watchCache i => exact watchCache_inv hi h
  | callFails i => exact callFails_inv hi h
  | recv i => exact recv_inv hi h
  | recvErr i relist => exact recvErr_inv hi h
  | restart i =>
    cases h
    exact inv_setAgent hi (freshAgent_inv _ _ _ _ _)
  | otherWatch period revision =>
    cases h
    exact inv_openStream hi _

theorem runs_inv {period : String} {agents : Nat → Agent}
    (hstart : ∀ i, (agents i).cache.period ≠ period ∧ ∃ relist, (agents i).phase = .reconn relist) {es : List Event}
    (hrun : runs step (init period agents) es = some s) : Inv s :=
  runs_keeps (fun _ _ _ h hi => step_inv h hi) (init_inv period agents hstart) hrun

/-- Exact replication. The history is the changes of the `logChange` calls in their order,
    numbered from one on; and an agent whose copy is of the service's period at some revision
    has, under every address, what applying the changes up to that revision to the empty map
    leaves there. -/
theorem replication_exact (period : String) (agents : Nat → Agent)
    (hstart : ∀ i, (agents i).cache.period ≠ period ∧ ∃ relist, (agents i).phase = .reconn relist)
    (es : List Event) (s : Sys) (hrun : runs step (init period agents) es = some s) :
    s.history.map (fun cl => (cl.opcode, cl.entry)) <+: es.flatMap Event.changes ∧
      s.history.map (·.revision) = List.range' 1 s.history.length ∧
      ∀ i, (s.agents i).cache.period = s.svc.period → ∀ ip,
        (s.agents i).cache.getIPInfo ip =
          ((replayed (s.history.filter (·.revision ≤ (s.agents i).cache.revision))).lookup ip).bind entry2IPInfo := by
  have hi := runs_inv hstart hrun
  refine ⟨history_calls hrun, hi.log.numbered.map_eq, ?_⟩
  intro i hp ip
  rw [hi.log.numbered.filter_le]
  exact ((hi.agents i).cache hp).2 ip

/-- A pod and a node are logged while an agent lists and watches; it has received the pod. -/
def sampleRun : List Event :=
  [.logChange .set [⟨"10.0.0.1", .pod "default" "web"⟩, ⟨"10.0.0.2", .node "n1"⟩], .logAdd, .logSend, .logAdd, .logSend,
    .connect 0, .listCache 0 [], .relisted 0, .watchCache 0, .register 0,
    .receive, .control, .receive, .control, .ticker, .control, .control, .control, .control, .control, .control,
    .take 0, .send 0, .recv 0]

theorem sampleRun_enabled : (runs step (init "p" fun _ => freshAgent) sampleRun).isSome = true := by decide +kernel

theorem replication_exact_sample :
    ∃ s, runs step (init "p" fun _ => freshAgent) sampleRun = some s ∧ (s.agents 0).cache.period = s.svc.period ∧
      (s.agents 0).cache.revision = 1 ∧ s.history.length = 2 ∧
      (s.agents 0).cache.getIPInfo "10.0.0.1" =
        ((replayed (s.history.filter (·.revision ≤ (s.agents 0).cache.revision))).lookup "10.0.0.1").bind
          entry2IPInfo := by
  have hrun := (Option.some_get sampleRun_enabled).symm
  have hp : (((runs step (init "p" fun _ => freshAgent) sampleRun).get sampleRun_enabled).agents 0).cache.period =
      ((runs step (init "p" fun _ => freshAgent) sampleRun).get sampleRun_enabled).svc.period := by decide +kernel
  have hexact := replication_exact "p" (fun _ => freshAgent) (fun _ => ⟨by decide, false, rfl⟩) sampleRun _ hrun
  exact ⟨_, hrun, hp, by decide +kernel, by decide +kernel, hexact.2.2 0 hp "10.0.0.1"⟩

end EliteTelemetry.Ipcache
