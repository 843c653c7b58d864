/-
  EliteTelemetry.Exporter.Registry — the metrics server's registry against its probes.

  A metrics probe is registered once its start has succeeded and unregistered once its stop
  has. Between the two statements of a stop there is a return: a probe whose own `Stop`
  fails is left failed and registered. Its descriptors then stay taken, and the next probe
  created under the name panics in `MustRegister`.

  So the registered collectors are the running probes in every state of a run, and nothing
  panics, exactly when no call of the run comes to a running probe that does not stop
  (`registry_exact_iff`); a failed start and a failed creation do no harm.
-/

import EliteTelemetry.Exporter.Torn

namespace EliteTelemetry.Exporter

open EliteTelemetry.Lib.Machine

variable {α : Type}

variable {s : Server α}

namespace Server

/-- The collectors registered are the probes running. -/
def Exact (s : Server α) : Prop :=
  ∀ c, c ∈ s.registry ↔ ∃ p, s.Holds p ∧ p.state = .running ∧ p.collector = c

/-- `Exact`, by name: what is registered under a name is the map's running probe. -/
def Matched (s : Server α) : Prop :=
  ∀ c, c ∈ s.registry ↔ ∃ p, s.probes c.name = some p ∧ p.state = .running ∧ p.serial = c.serial

theorem exact_iff_matched (hs : s.Settled) : s.Exact ↔ s.Matched := by
  refine forall_congr' fun c => iff_congr Iff.rfl ?_
  constructor
  · rintro ⟨p, ⟨n, hn⟩ | hp, hr, rfl⟩
    · rw [← (hs.placed n p hn).1] at hn
      exact ⟨p, hn, hr, rfl⟩
    · exact absurd hr (hs.replaced p hp)
  · rintro ⟨p, hp, hr, hser⟩
    refine ⟨p, Or.inl ⟨_, hp⟩, hr, ?_⟩
    cases c
    simp only [Probe.collector, Collector.mk.injEq]
    exact ⟨(hs.placed _ p hp).1, hser⟩

/-! ## Stops -/

theorem closed_registry (hm : s.manager = .metrics) (p : Probe) :
    (s.closed p).registry = s.registry.filter (·.name ≠ p.name) := by
  unfold closed
  rw [hm]
  rfl

theorem closed_matched (hm : s.manager = .metrics) (h : s.Matched) (p : Probe) : (s.closed p).Matched := by
  intro c
  rw [closed_registry hm, List.mem_filter, closed_probes, h c]
  by_cases hc : c.name = p.name
  · simp [hc, halted]
  · simp [hc]

/-- A loop of stops that comes to its end keeps the registry matched; one that does not
    leaves a collector registered whose probe is not running. -/
theorem stopProbes_matched (ok : String → Bool) (hm : s.manager = .metrics) (hp : s.Placed) (h : s.Matched)
    (ns : List String) :
    ((stopProbes ok s ns).1 = none → (stopProbes ok s ns).2.Matched) ∧
      ((stopProbes ok s ns).1 ≠ none → ¬ (stopProbes ok s ns).2.Matched) := by
  induction ns generalizing s with
  | nil => exact ⟨fun _ => h, fun h => absurd rfl h⟩
  | cons n ns ih =>
    cases hn : s.probes n with
    | none =>
      rw [stopProbes, hn]
      exact ih hm hp h
    | some p =>
      have hname := (hp n p hn).1
      subst hname
      rw [stopProbes_cons_some ns hp hn]
      split
      · rename_i hr
        split
        · rename_i ho
          have hc : Closes ok s (s.closed p) := closed_closes hn hr ho
          exact ih (hc.manager.trans hm) (hc.placed hp) (closed_matched hm h p)
        · refine ⟨fun he => absurd he (by simp), fun _ hmat => ?_⟩
          -- the failed probe's collector is registered still
          have hreg : p.collector ∈ (s.store (halted false p)).registry := (h p.collector).mpr ⟨p, hn, hr, rfl⟩
          obtain ⟨q, hq, hqr, -⟩ := (hmat p.collector).mp hreg
          have hf : (s.store (halted false p)).probes p.name = some (halted false p) :=
            (store_probes s (halted false p) p.name).trans (if_pos rfl)
          cases hf.symm.trans hq
          exact Closes.halted_not_running _ _ hqr
      · exact ih hm hp h

/-! ## Starts -/

def Free (s : Server α) (n : String) : Prop := ∀ c ∈ s.registry, c.name ≠ n

theorem startProbe_free (hm : s.manager = .metrics) {p : Probe} (hp : p.state = .stopped) (hf : s.Free p.name)
    (ok : Bool) :
    (s.place p).startProbe p ok = (if ok then .started else .error .inner,
      s.begin_ p ok (if ok then (begun true p).collector :: s.registry else s.registry)) := by
  have hm' : (s.place p).manager = .metrics := hm
  have hany : ((s.place p).store (begun true p)).registry.any (·.name = (begun true p).name) = false := by
    rw [List.any_eq_false]
    intro c hc
    simpa [begun] using hf c hc
  rw [startProbe_new _ _ hp, hm']
  cases ok with
  | false => rfl
  | true =>
    simp only [if_true, mustRegister, hany, Bool.false_eq_true, if_false]
    rfl

theorem begin_matched {p : Probe} (h : s.Matched) (hf : s.Free p.name) (ok : Bool) :
    (s.begin_ p ok (if ok then (begun true p).collector :: s.registry else s.registry)).Matched := by
  intro c
  rw [begin_probes]
  show c ∈ (if ok then (begun true p).collector :: s.registry else s.registry) ↔ _
  by_cases hc : c.name = p.name
  · have hno : c ∉ s.registry := fun hm => hf c hm hc
    rw [if_pos hc]
    cases ok with
    | false => simp [hno, begun]
    | true =>
      cases c
      simp only [if_true, List.mem_cons, hno, or_false, Probe.collector, begun, Collector.mk.injEq, Option.some.injEq]
      constructor
      · rintro ⟨-, rfl⟩
        exact ⟨_, rfl, rfl, rfl⟩
      · rintro ⟨q, rfl, -, hser⟩
        exact ⟨hc, hser.symm⟩
  · rw [if_neg hc, ← h c]
    have hne : c ≠ (begun true p).collector := fun h => hc (congrArg Collector.name h)
    cases ok <;> simp [hne]

theorem startProbes_matched (ok : String → Bool) (hm : s.manager = .metrics) (h : s.Matched) {ps : List Probe}
    (hnd : (ps.map (·.name)).Nodup) (hst : ∀ p ∈ ps, p.state = .stopped) (hf : ∀ p ∈ ps, s.Free p.name) :
    (startProbes ok s ps).1 ≠ none ∧ (startProbes ok s ps).2.Matched := by
  induction ps generalizing s with
  | nil => exact ⟨by simp [startProbes], h⟩
  | cons p ps ih =>
    rw [List.map_cons, List.nodup_cons] at hnd
    have hfp := hf p List.mem_cons_self
    rw [startProbes_cons ps (startProbe_free hm (hst p List.mem_cons_self) hfp (ok p.name))]
    obtain ⟨h1, h2⟩ := ih (s := s.begin_ p (ok p.name) _) hm (begin_matched h hfp (ok p.name)) hnd.2
      (fun q hq => hst q (List.mem_cons_of_mem _ hq)) (by
        intro q hq c hc
        have hne : p.name ≠ q.name := fun he => hnd.1 (he ▸ List.mem_map_of_mem hq)
        have hc : c ∈ (if ok p.name then (begun true p).collector :: s.registry else s.registry) := hc
        split at hc
        · rcases List.mem_cons.mp hc with rfl | hc
          · exact hne
          · exact hf q (List.mem_cons_of_mem _ hq) c hc
        · exact hf q (List.mem_cons_of_mem _ hq) c hc)
    exact ⟨by simpa using h1, h2⟩

/-! ## A call -/

structure Sound (s : Server α) : Prop where
  manager : s.manager = .metrics
  settled : s.Settled
  matched : s.Matched
  alive : s.panicked = false

theorem newServer_sound : (newServer .metrics : Server α).Sound := by
  refine ⟨rfl, newServer_settled _, fun c => ⟨?_, ?_⟩, rfl⟩
  · intro h
    cases h
  · rintro ⟨p, hp, -⟩
    cases hp

variable [BEq α]

theorem Sound.step_eq (hs : s.Sound) (call : Call α) : s.step call = s.reload call := by
  simp [step, hs.alive]

/-- The call comes to no running probe that does not stop. -/
def StopsAll (s : Server α) (call : Call α) : Prop :=
  (∀ c ∈ toAdd s.lastConfig call, call.createOk c.name = true) →
    ∀ n ∈ toClose s.lastConfig call, s.Up n → call.stopOk n = true

theorem reload_stopsAll (hs : s.Sound) {call : Call α} (h : s.StopsAll call) : (s.reload call).2.Sound := by
  rcases reload_cases s call with ⟨n, k, he, -⟩ | ⟨ps, k, hps, ⟨n, t, hst, he⟩ | ⟨t, hst, he⟩⟩
  · rw [he]
    exact ⟨hs.manager, ⟨hs.settled.placed, hs.settled.up, hs.settled.present, hs.settled.replaced⟩, hs.matched, hs.alive⟩
  · exfalso
    have hspec := stopProbes_spec call.stopOk (s := { s with created := k }) hs.settled.placed (toClose s.lastConfig call)
    rw [hst] at hspec
    obtain ⟨hm, hup, hno, -⟩ := hspec.broken n rfl
    have hok := h (fun c hc => (createProbes_ok hps).2.2 c.name (List.mem_map_of_mem hc)) n hm hup
    rw [hno] at hok
    cases hok
  · obtain ⟨hn, hstp, -⟩ := createProbes_ok hps
    have hspec := stopProbes_spec call.stopOk (s := { s with created := k }) hs.settled.placed (toClose s.lastConfig call)
    have hmat := (stopProbes_matched call.stopOk (s := { s with created := k }) hs.manager hs.settled.placed hs.matched
      (toClose s.lastConfig call)).1
    rw [hst] at hspec hmat
    have hcl : Closes call.stopOk s t := hspec.closes.of_created
    have hmat : t.Matched := hmat rfl
    -- what is registered after the stops is kept, so no name to add is taken
    have hfree : ∀ p ∈ ps, ({ t with lastConfig := call.config } : Server α).Free p.name := by
      intro p hp c hc hname
      obtain ⟨q, hq, hqr, -⟩ := (hmat c).mp hc
      have hup : t.Up c.name := ⟨q, hq, hqr⟩
      have hadd : p.name ∈ names (toAdd s.lastConfig call) := hn ▸ List.mem_map_of_mem hp
      rw [hname] at hup
      exact (hspec.ended rfl p.name ((mem_toClose _ _ _).mpr
        ⟨hs.settled.up _ (hcl.up_before hup), ((mem_names_toAdd _ _ _).mp hadd).2⟩)).1 hup
    have hnd : (ps.map (·.name)).Nodup := hn ▸ nodup_names_toAdd s.lastConfig call
    obtain ⟨hdone, hmatched⟩ := startProbes_matched call.startOk (s := { t with lastConfig := call.config })
      (hcl.manager.trans hs.manager) hmat hnd hstp hfree
    rcases startProbes_spec call.startOk { t with lastConfig := call.config } hnd hstp with ⟨h1, -⟩ | ⟨h1, h2⟩
    · exact absurd h1 hdone
    · have hd : s.reload call = (.done ((ps.map (·.name)).filter fun n => !call.startOk n),
          (startProbes call.startOk { t with lastConfig := call.config } ps).2) := by
        rw [he, h1]
      have hf := reload_done hs.settled hd
      rw [hd]
      exact ⟨h2.manager.trans (hcl.manager.trans hs.manager), hf.settled, hmatched, hf.panicked.trans hs.alive⟩

theorem reload_not_stopsAll (hs : s.Sound) {call : Call α} (h : ¬ s.StopsAll call) : ¬ (s.reload call).2.Exact := by
  simp only [StopsAll, Classical.not_imp, not_forall] at h
  obtain ⟨hcreate, n, hn, hup, hno⟩ := h
  rcases reload_cases s call with ⟨m, k, -, hm, hc⟩ | ⟨ps, k, hps, ⟨m, t, hst, he⟩ | ⟨t, hst, -⟩⟩
  · obtain ⟨c, hcm, rfl⟩ := List.mem_map.mp hm
    rw [hcreate c hcm] at hc
    cases hc
  · have hspec := stopProbes_spec call.stopOk (s := { s with created := k }) hs.settled.placed (toClose s.lastConfig call)
    have hmat := (stopProbes_matched call.stopOk (s := { s with created := k }) hs.manager hs.settled.placed hs.matched
      (toClose s.lastConfig call)).2
    rw [hst] at hspec hmat
    rw [he, exact_iff_matched (hspec.closes.of_created.settled hs.settled)]
    exact hmat (by simp)
  · have hspec := stopProbes_spec call.stopOk (s := { s with created := k }) hs.settled.placed (toClose s.lastConfig call)
    rw [hst] at hspec
    exact absurd ((hspec.ended rfl n hn).2 hup) hno

end Server

/-- In every run of the metrics server: the registered collectors are the running probes and
    nothing has panicked, in every state reached, exactly when no call came to a running
    probe that did not stop. -/
theorem registry_exact_iff [BEq α] (calls : List (Call α)) :
    always Server.step (fun s => s.Exact ∧ s.panicked = false) (newServer .metrics) calls ↔
      along Server.step Server.StopsAll (newServer .metrics) calls := by
  refine always_iff_along (I := Server.Sound) ?_ ?_ ?_ Server.newServer_sound calls
  · intro s hs
    exact ⟨(Server.exact_iff_matched hs.settled).mpr hs.matched, hs.alive⟩
  · intro s call hs h
    rw [hs.step_eq call]
    exact Server.reload_stopsAll hs h
  · rintro s call hs h ⟨hex, -⟩
    rw [hs.step_eq call] at hex
    exact Server.reload_not_stopsAll hs h hex

/-- A running metrics probe that does not stop stays registered, and the same reload tried
    again panics. -/
theorem a_failed_stop_leaves_its_collector :
    let first := smooth [⟨"conntrack", 0⟩]
    let changed := smooth [⟨"conntrack", 1⟩]
    let failed := (exec Server.step (newServer .metrics) [first, { changed with stopOk := fun _ => false }]).2
    ¬ failed.Exact ∧ (failed.step changed).1 = .panic := by
  intro first changed failed
  refine ⟨?_, by decide +kernel⟩
  have hs : (Server.reload (newServer .metrics) first).2.Sound := by
    refine Server.reload_stopsAll Server.newServer_sound fun _ n hn => ?_
    rw [show toClose (newServer .metrics : Server Nat).lastConfig first = [] from rfl] at hn
    cases hn
  unfold failed
  simp only [exec_cons, exec_nil, Server.newServer_sound.step_eq, hs.step_eq]
  refine Server.reload_not_stopsAll hs fun h => ?_
  have hup : (Server.reload (newServer .metrics) first).2.Up "conntrack" := by decide +kernel
  exact absurd (h (fun _ _ => rfl) "conntrack" (by decide +kernel) hup) (by simp)

end EliteTelemetry.Exporter
