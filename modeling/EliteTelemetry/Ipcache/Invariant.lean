/-
  EliteTelemetry.Ipcache.Invariant — what holds between the change history, the service, its
  streams and the agents, and which changes of each leave it standing.

  The service's side: the log and what is still queued for it are the history after the
  snapshot, and the pending batch with the queue is the history after what was synced
  (`LogInv`). The stream's side: what is under way to an agent, on the wire, in the handler's
  hand and in the channel, is the history between the agent's revision and the client's
  (`Feeds`). The agent's side: a copy of this period is the replay of the history up to its
  revision (`AgentInv`).
-/

import EliteTelemetry.Ipcache.System

namespace EliteTelemetry.Ipcache

open EliteTelemetry.Lib.NumberedLog

/-! ## The service -/

/-- Numbered and not yet received by the control loop: in the channel, or being sent. -/
def Service.queued (v : Service) : List ChangeLog := v.logChan ++ (v.job.bind (·.held)).toList

def Control.inFlight : Control → List ChangeLog
  | .closing cl | .compacting (some cl) | .pending cl => [cl]
  | _ => []

structure LogInv (h : List ChangeLog) (v : Service) : Prop where
  numbered : Numbered (·.revision) h
  counter : v.revision = h.length
  snapLe : v.snapshot.revision ≤ h.length
  snapEq : v.snapshot.entries = replayed (h.take v.snapshot.revision)
  logEq : v.log ++ v.queued = h.drop v.snapshot.revision
  syncedLe : v.maxSyncedRevision ≤ h.length
  pendEq : v.pendingLogs ++ v.control.inFlight ++ v.queued = h.drop v.maxSyncedRevision

variable {h : List ChangeLog} {r : Nat} {st : Stream} {p : String}

theorem LogInv.clients {v : Service} (hl : LogInv h v) (ns : List Nat) :
    LogInv h { v with clients := ns } :=
  ⟨hl.numbered, hl.counter, hl.snapLe, hl.snapEq, hl.logEq, hl.syncedLe, hl.pendEq⟩

/-- What the control loop knows of the clients it is working through. -/
def ControlInv (h queued : List ChangeLog) (snap : Nat) (reg : Nat → Prop) (rev : Nat → Nat) : Control → Prop
  | .upToDate _ todo => ∀ n ∈ todo, reg n
  | .sending _ n rest todo => reg n ∧ (∀ m ∈ todo, reg m) ∧ rev n ≤ h.length ∧ rest ++ queued = h.drop (rev n)
  | .stale todo => ∀ n ∈ todo, reg n ∧ snap ≤ rev n
  | .sendingStale n index todo => reg n ∧ snap + index = rev n ∧ ∀ m ∈ todo, reg m ∧ snap ≤ rev m
  | _ => True

theorem ControlInv.frame {q : List ChangeLog} {snap : Nat} {reg reg' : Nat → Prop} {rev rev' : Nat → Nat}
    {c : Control} (hc : ControlInv h q snap reg rev c) (hr : ∀ n, reg n → reg' n ∧ rev' n = rev n) :
    ControlInv h q snap reg' rev' c := by
  cases c with
  | upToDate t todo => exact fun n hn => (hr n (hc n hn)).1
  | sending t n rest todo =>
    obtain ⟨h1, h2, h3, h4⟩ := hc
    obtain ⟨hreg, hrev⟩ := hr n h1
    refine ⟨hreg, fun m hm => (hr m (h2 m hm)).1, ?_, ?_⟩
    · rw [hrev]; exact h3
    · rw [hrev]; exact h4
  | stale todo =>
    intro n hn
    obtain ⟨h1, h2⟩ := hc n hn
    obtain ⟨hreg, hrev⟩ := hr n h1
    exact ⟨hreg, by rw [hrev]; exact h2⟩
  | sendingStale n index todo =>
    obtain ⟨h1, h2, h3⟩ := hc
    obtain ⟨hreg, hrev⟩ := hr n h1
    refine ⟨hreg, by rw [hrev]; exact h2, ?_⟩
    intro m hm
    obtain ⟨h4, h5⟩ := h3 m hm
    obtain ⟨hreg', hrev'⟩ := hr m h4
    exact ⟨hreg', by rw [hrev']; exact h5⟩
  | _ => trivial

theorem ControlInv.grow {q : List ChangeLog} {snap : Nat} {reg : Nat → Prop} {rev : Nat → Nat} {c : Control}
    (hc : ControlInv h q snap reg rev c) (cl : ChangeLog) : ControlInv (h ++ [cl]) (q ++ [cl]) snap reg rev c := by
  cases c with
  | sending t n rest todo =>
    obtain ⟨h1, h2, h3, h4⟩ := hc
    refine ⟨h1, h2, by rw [List.length_append]; omega, ?_⟩
    rw [drop_snoc h3, ← List.append_assoc, h4]
  | upToDate t todo => exact hc
  | stale todo => exact hc
  | sendingStale n index todo => exact hc
  | _ => trivial

theorem LogInv.log_getElem? {v : Service} (hl : LogInv h v) {k : Nat} {cl : ChangeLog} (hk : v.log[k]? = some cl) :
    h[v.snapshot.revision + k]? = some cl ∧ cl.revision = v.snapshot.revision + k + 1 := by
  have hlt := lt_of_getElem? hk
  have hh : h[v.snapshot.revision + k]? = some cl := by
    rw [← List.getElem?_drop, ← hl.logEq, List.getElem?_append_left hlt]
    exact hk
  exact ⟨hh, hl.numbered _ _ hh⟩

theorem LogInv.findNext_log {v : Service} (hl : LogInv h v) (hr : v.snapshot.revision ≤ r) :
    findNext v.log r =
      some (if r < v.snapshot.revision + v.log.length then ((r - v.snapshot.revision : Nat) : Int) else -1) := by
  rw [findNext_eq v.log r (min (r - v.snapshot.revision) v.log.length) (Nat.min_le_right _ _)]
  · congr 1
    split_ifs <;> omega
  · intro k cl hk hcl
    have := (hl.log_getElem? hcl).2
    omega
  · intro k cl hk hcl
    have := (hl.log_getElem? hcl).2
    have := lt_of_getElem? hcl
    omega

/-! ## Streams -/

/-- What is under way on the stream, for a copy at revision `r`. -/
def Feeds (h : List ChangeLog) (r : Nat) (st : Stream) : Prop :=
  match st.phase with
  | .requested => st.wire = [] ∧ st.hand = none
  | .serving =>
    r ≤ st.client.revision ∧ st.client.revision ≤ h.length ∧
      st.wire ++ st.hand.toList ++ st.client.ch = segment h r st.client.revision
  | .finished _ => ∃ b, r ≤ b ∧ b ≤ h.length ∧ st.wire = segment h r b

theorem Feeds.grow (hf : Feeds h r st) (cl : ChangeLog) : Feeds (h ++ [cl]) r st := by
  unfold Feeds at hf ⊢
  cases hph : st.phase with
  | requested =>
    rw [hph] at hf
    exact hf
  | serving =>
    rw [hph] at hf
    obtain ⟨h1, h2, h3⟩ := hf
    exact ⟨h1, by rw [List.length_append]; omega, by rw [segment_grow h2]; exact h3⟩
  | finished code =>
    rw [hph] at hf
    obtain ⟨b, h1, h2, h3⟩ := hf
    exact ⟨b, h1, by rw [List.length_append]; omega, by rw [segment_grow h2]; exact h3⟩

theorem Feeds.finish {st' : Stream} {code : Code} (hr : r ≤ h.length) (hf : Feeds h r st)
    (hph : st'.phase = .finished code) (hw : st'.wire = st.wire) : Feeds h r st' := by
  unfold Feeds at hf ⊢
  rw [hph, hw]
  cases hst : st.phase with
  | requested =>
    rw [hst] at hf
    exact ⟨r, Nat.le_refl r, hr, by rw [hf.1, segment_self]⟩
  | serving =>
    rw [hst] at hf
    obtain ⟨h1, h2, h3⟩ := hf
    rw [List.append_assoc] at h3
    obtain ⟨h4, h5⟩ := segment_left h1 h2 h3
    exact ⟨r + st.wire.length, by omega, by omega, h5⟩
  | finished code' =>
    rw [hst] at hf
    exact hf

/-- The receiver takes the first change on the wire: it is the next one of the history. -/
theorem Feeds.recv {cl : ChangeLog} {wire : List ChangeLog} (hf : Feeds h r st) (hw : st.wire = cl :: wire) :
    h[r]? = some cl ∧ Feeds h (r + 1) { st with wire := wire } := by
  unfold Feeds at hf ⊢
  cases hst : st.phase with
  | requested =>
    simp only [hst, hw] at hf
    cases hf.1
  | serving =>
    simp only [hst, hw] at hf ⊢
    obtain ⟨h1, h2, h3⟩ := hf
    obtain ⟨h4, h5, h6⟩ := segment_cons h3.symm
    exact ⟨h4, h5, h2, h6.symm⟩
  | finished code =>
    simp only [hst, hw] at hf ⊢
    obtain ⟨b, h1, h2, h3⟩ := hf
    obtain ⟨h4, h5, h6⟩ := segment_cons h3.symm
    exact ⟨h4, b, h5, h2, h6.symm⟩

/-- The stream's next state, for the agent that opened it: the request is not changed, and
    a copy that was fed is fed. -/
structure Carries (p : String) (h : List ChangeLog) (st st' : Stream) : Prop where
  owner : st'.owner = st.owner
  request : st'.phase = .requested →
    st.phase = .requested ∧ st'.period = st.period ∧ st'.revision = st.revision ∧ st'.wire = st.wire
  feeds : ∀ r, r ≤ h.length → (st.phase = .requested → st.period = p ∧ st.revision = r) → Feeds h r st → Feeds h r st'

theorem Carries.refl (p : String) (h : List ChangeLog) (st : Stream) : Carries p h st st :=
  ⟨rfl, fun hph => ⟨hph, rfl, rfl, rfl⟩, fun _ _ _ hf => hf⟩

theorem Carries.finish {st' : Stream} {code : Code} (ho : st'.owner = st.owner) (hph : st'.phase = .finished code)
    (hw : st'.wire = st.wire) : Carries p h st st' := by
  refine ⟨ho, ?_, ?_⟩
  · intro hreq
    rw [hph] at hreq
    cases hreq
  · intro r hr _ hf
    exact hf.finish hr hph hw

structure Follows (st st' : Stream) : Prop where
  registered : st.phase ≠ .requested → st'.phase ≠ .requested
  revision : st.phase ≠ .requested → st'.client.revision = st.client.revision
  closed : st.phase ≠ .requested → st'.client.closed = false → st.client.closed = false

theorem Follows.of_client {st' : Stream} (hph : st.phase ≠ .requested → st'.phase ≠ .requested)
    (hr : st'.client.revision = st.client.revision) (hc : st'.client.closed = false → st.client.closed = false) :
    Follows st st' :=
  ⟨hph, fun _ => hr, fun _ => hc⟩

/-- What the control loop does to a client: nothing that a copy sees, or the next change. -/
structure Advances (h : List ChangeLog) (c c' : Client) : Prop where
  closed : c'.closed = false → c.closed = false
  next : (c'.revision = c.revision ∧ c'.ch = c.ch) ∨
    ∃ cl, h[c.revision]? = some cl ∧ c'.revision = c.revision + 1 ∧ c'.ch = c.ch ++ [cl]

theorem Advances.refl (h : List ChangeLog) (c : Client) : Advances h c c := ⟨id, Or.inl ⟨rfl, rfl⟩⟩

theorem Advances.le {c c' : Client} (ha : Advances h c c') : c.revision ≤ c'.revision := by
  rcases ha.next with ⟨h1, -⟩ | ⟨cl, -, h1, -⟩ <;> omega

theorem Advances.carries {c : Client} (ha : Advances h st.client c) (p : String) :
    Carries p h st { st with client := c } := by
  refine ⟨rfl, fun hph => ⟨hph, rfl, rfl, rfl⟩, ?_⟩
  intro r hr _ hf
  unfold Feeds at hf ⊢
  cases hst : st.phase with
  | requested =>
    simp only [hst] at hf ⊢
    exact hf
  | finished code =>
    simp only [hst] at hf ⊢
    exact hf
  | serving =>
    simp only [hst] at hf ⊢
    obtain ⟨h1, h2, h3⟩ := hf
    rcases ha.next with ⟨h4, h5⟩ | ⟨cl, hcl, h4, h5⟩
    · rw [h4, h5]
      exact ⟨h1, h2, h3⟩
    · have hlt := lt_of_getElem? hcl
      refine ⟨by omega, by omega, ?_⟩
      rw [h4, h5, segment_snoc h1 hcl, ← h3]
      simp only [List.append_assoc]

/-! ## Agents -/

def Receives (p : String) (h : List ChangeLog) (next i : Nat) (cache : IPCache) (n : Nat) (st : Stream) : Prop :=
  n < next ∧ st.owner = some i ∧
    (st.phase = .requested → st.period = cache.period ∧ st.revision = cache.revision ∧ st.wire = []) ∧
    (cache.period = p → Feeds h cache.revision st)

structure AgentInv (p : String) (h : List ChangeLog) (next : Nat) (streams : Nat → Stream) (i : Nat) (a : Agent) :
    Prop where
  cache : a.cache.period = p →
    a.cache.revision ≤ h.length ∧ Mirrors a.cache (replayed (h.take a.cache.revision))
  listed : ∀ resp, a.phase = .listed resp → resp.period = p →
    resp.revision ≤ h.length ∧ Lists resp.entries (replayed (h.take resp.revision))
  watch : ∀ relist q r, a.phase = .watch relist q r → q = a.cache.period ∧ r = a.cache.revision
  receiving : ∀ n, a.phase = .receiving n → Receives p h next i a.cache n (streams n)

theorem AgentInv.frame {next next' : Nat} {streams streams' : Nat → Stream} {i : Nat} {a : Agent}
    (ha : AgentInv p h next streams i a) (hn : next ≤ next')
    (hst : ∀ n, a.phase = .receiving n → n < next → (streams n).owner = some i →
      Carries p h (streams n) (streams' n)) : AgentInv p h next' streams' i a := by
  refine ⟨ha.cache, ha.listed, ha.watch, ?_⟩
  intro n hph
  obtain ⟨h1, h2, h3, h4⟩ := ha.receiving n hph
  have hc := hst n hph h1 h2
  refine ⟨by omega, by rw [hc.owner]; exact h2, ?_, ?_⟩
  · intro hreq
    obtain ⟨e1, e2, e3, e4⟩ := hc.request hreq
    rw [e2, e3, e4]
    exact h3 e1
  · intro hp
    refine hc.feeds _ (ha.cache hp).1 ?_ (h4 hp)
    intro hreq
    obtain ⟨e1, e2, -⟩ := h3 hreq
    exact ⟨by rw [e1, hp], e2⟩

theorem AgentInv.grow {next : Nat} {streams : Nat → Stream} {i : Nat} {a : Agent} (ha : AgentInv p h next streams i a)
    (cl : ChangeLog) : AgentInv p (h ++ [cl]) next streams i a := by
  have hgrow : ∀ r, r ≤ h.length → r ≤ (h ++ [cl]).length ∧ (h ++ [cl]).take r = h.take r := by
    intro r hr
    exact ⟨by rw [List.length_append]; omega, List.take_append_of_le_length hr⟩
  refine ⟨?_, ?_, ha.watch, ?_⟩
  · intro hp
    obtain ⟨h1, h2⟩ := ha.cache hp
    obtain ⟨h3, h4⟩ := hgrow _ h1
    exact ⟨h3, by rw [h4]; exact h2⟩
  · intro resp hph hp
    obtain ⟨h1, h2⟩ := ha.listed resp hph hp
    obtain ⟨h3, h4⟩ := hgrow _ h1
    exact ⟨h3, by rw [h4]; exact h2⟩
  · intro n hph
    obtain ⟨h1, h2, h3, h4⟩ := ha.receiving n hph
    exact ⟨h1, h2, h3, fun hp => (h4 hp).grow cl⟩

theorem AgentInv.reconn {next : Nat} {streams : Nat → Stream} {i : Nat} {cache : IPCache} {ph : AgentPhase}
    (hc : cache.period = p → cache.revision ≤ h.length ∧ Mirrors cache (replayed (h.take cache.revision)))
    (hph : ph = .listing ∨ ∃ relist, ph = .reconn relist) : AgentInv p h next streams i ⟨cache, ph⟩ := by
  refine ⟨hc, ?_, ?_, ?_⟩
  · intro resp e
    rcases hph with rfl | ⟨relist, rfl⟩ <;> cases e
  · intro relist q r e
    rcases hph with rfl | ⟨relist, rfl⟩ <;> cases e
  · intro n e
    rcases hph with rfl | ⟨relist, rfl⟩ <;> cases e

/-! ## The system -/

def Registered (next : Nat) (streams : Nat → Stream) (n : Nat) : Prop := n < next ∧ (streams n).phase ≠ .requested

structure Inv (s : Sys) : Prop where
  log : LogInv s.history s.svc
  known : ∀ n ∈ s.svc.clients, Registered s.nextStream s.streams n
  retained : ∀ n ∈ s.svc.clients, (s.client n).closed = false → s.svc.snapshot.revision ≤ (s.client n).revision
  control : ControlInv s.history s.svc.queued s.svc.snapshot.revision (Registered s.nextStream s.streams)
    (fun n => (s.client n).revision) s.svc.control
  agents : ∀ i, AgentInv s.svc.period s.history s.nextStream s.streams i (s.agents i)

theorem init_inv (period : String) (agents : Nat → Agent)
    (hstart : ∀ i, (agents i).cache.period ≠ period ∧ ∃ relist, (agents i).phase = .reconn relist) :
    Inv (init period agents) := by
  refine ⟨⟨numbered_nil, rfl, Nat.le_refl 0, rfl, rfl, Nat.le_refl 0, rfl⟩, ?_, ?_, trivial, ?_⟩
  · intro n hn
    cases hn
  · intro n hn
    cases hn
  · intro i
    obtain ⟨hp, hph⟩ := hstart i
    exact AgentInv.reconn (fun e => absurd e hp) (Or.inr hph)

end EliteTelemetry.Ipcache
