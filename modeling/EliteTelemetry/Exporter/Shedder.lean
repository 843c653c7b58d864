/-
  EliteTelemetry.Exporter.Shedder — two controllers of one event server (`inspServer` and
  `eventProbeShedder` of `pkg/exporter/cmd/server.go`).

  The file watcher reloads both servers with the configuration it has just read. The
  forecaster sheds the event probes by a reload with none, and restores them by a reload
  with the list it was given when the exporter started. No one gives it a newer one, so a
  restore brings back the start-up list whatever was loaded since: it restores the latest
  configuration exactly where that is the start-up one (`restore_latest_iff`).
-/

import EliteTelemetry.Exporter.Torn

namespace EliteTelemetry.Exporter

open EliteTelemetry.Lib.Machine

variable {α : Type}

structure Insp (α : Type) where
  metricsServer : Server α
  eventServer : Server α
  restored : List (ProbeConfig α)

inductive InspEvent (α : Type) where
  /-- `inspServer.reload`, with what its two `Reload` calls meet. -/
  | reload (metrics events : Call α)
  /-- `ShedEvents`; the configuration of `env` is not read. -/
  | shed (env : Call α)
  /-- `RestoreEvents`; the configuration of `env` is not read. -/
  | restore (env : Call α)

variable {call : Call α} {copy : List (ProbeConfig α)} {s : Server α}

namespace Server

structure AllUp (s : Server α) : Prop where
  settled : s.Settled
  up : ∀ n ∈ names s.lastConfig, s.Up n

theorem AllUp.up_iff (h : s.AllUp) (n : String) : s.Up n ↔ n ∈ names s.lastConfig :=
  ⟨h.settled.up n, h.up n⟩

theorem newServer_allUp (m : Manager) : (newServer m : Server α).AllUp :=
  ⟨newServer_settled m, fun _ h => by cases h⟩

theorem reload_of_step_done [BEq α] {failed : List String} (h : (s.step call).1 = .done failed) :
    s.reload call = (.done failed, (s.step call).2) := by
  unfold step at h ⊢
  split at h
  · cases h
  · rename_i hp
    rw [if_neg hp]
    exact Prod.ext h rfl

/-- A call that succeeds, its starts included, leaves every recorded probe running. -/
theorem step_allUp [BEq α] (hs : s.AllUp) (h : (s.step call).1 = .done []) :
    (s.step call).2.AllUp ∧ (s.step call).2.lastConfig = call.config := by
  have hf := reload_done hs.settled (reload_of_step_done h)
  refine ⟨⟨hf.settled, fun n hn => ?_⟩, hf.lastConfig⟩
  have hn : n ∈ names call.config := hf.lastConfig ▸ hn
  by_cases hk : Kept s.lastConfig call.config n
  · exact (up_congr (hf.kept n hk)).mpr (hs.up n hk.mem_last)
  · obtain ⟨p, hp, -, hst⟩ := hf.added n hn hk
    have ho : call.startOk n = true := by
      by_contra ho
      exact List.not_mem_nil ((hf.failed_eq n).mpr ⟨hn, hk, by simpa using ho⟩)
    exact ⟨p, hp, by rw [hst, ho]; rfl⟩

end Server

namespace Insp

variable [BEq α]

/-- `reload`: the answer of the event server's `Reload`, none where the metrics server's
    returned an error and the event server's was not called. -/
def reload (i : Insp α) (metrics events : Call α) : Option Server.Answer × Insp α :=
  let m := i.metricsServer.step metrics
  match m.1 with
  | .done _ =>
    let e := i.eventServer.step events
    (some e.1, { i with metricsServer := m.2, eventServer := e.2 })
  | _ => (none, { i with metricsServer := m.2 })

/-- `start`: both servers are started, and the shedder takes its copy of the list. -/
def start (metrics events : Call α) : Option Server.Answer × Insp α :=
  reload ⟨newServer .metrics, newServer .events, events.config⟩ metrics events

def reloadEvents (i : Insp α) (call : Call α) : Option Server.Answer × Insp α :=
  let e := i.eventServer.step call
  (some e.1, { i with eventServer := e.2 })

def step (i : Insp α) : InspEvent α → Option Server.Answer × Insp α
  | .reload metrics events => i.reload metrics events
  | .shed env => i.reloadEvents { env with config := [] }
  | .restore env => i.reloadEvents { env with config := i.restored }

/-- The call succeeds, the starts of its event probes included. -/
def Succeeds (i : Insp α) (ev : InspEvent α) : Prop := (i.step ev).1 = some (.done [])

def latest (first : List (ProbeConfig α)) : List (InspEvent α) → List (ProbeConfig α)
  | [] => first
  | .reload _ events :: es => latest events.config es
  | _ :: es => latest first es

/-- What every call that succeeds keeps: all recorded event probes run, and the shedder's
    copy is the one it was given. -/
structure Inv (copy : List (ProbeConfig α)) (i : Insp α) : Prop where
  allUp : i.eventServer.AllUp
  restored : i.restored = copy

theorem reload_inv {i : Insp α} {metrics events : Call α} (hi : i.Inv copy)
    (h : (i.reload metrics events).1 = some (.done [])) : (i.reload metrics events).2.Inv copy := by
  simp only [reload] at h ⊢
  split at h
  · exact ⟨(Server.step_allUp hi.allUp (Option.some.inj h)).1, hi.restored⟩
  · cases h

theorem reloadEvents_inv {i : Insp α} (hi : i.Inv copy) (h : (i.reloadEvents call).1 = some (.done [])) :
    (i.reloadEvents call).2.Inv copy ∧ (i.reloadEvents call).2.eventServer.lastConfig = call.config := by
  obtain ⟨hup, hlast⟩ := Server.step_allUp hi.allUp (Option.some.inj h)
  exact ⟨⟨hup, hi.restored⟩, hlast⟩

theorem start_inv {metrics events : Call α} (h : (start metrics events).1 = some (.done [])) :
    (start metrics events).2.Inv events.config :=
  reload_inv ⟨Server.newServer_allUp _, rfl⟩ h

theorem step_inv (i : Insp α) (ev : InspEvent α) (h : i.Succeeds ev) (hi : i.Inv copy) : (i.step ev).2.Inv copy := by
  cases ev with
  | reload metrics events => exact reload_inv hi h
  | shed env => exact (reloadEvents_inv hi h).1
  | restore env => exact (reloadEvents_inv hi h).1

end Insp

/-- After any run of reloads, sheds and restores that all succeed, a restore leaves the event
    server with the configuration loaded last, its probes and no others running, exactly
    where that configuration is the start-up one. -/
theorem restore_latest_iff [BEq α] (metrics events env : Call α) (es : List (InspEvent α))
    (hstart : (Insp.start metrics events).1 = some (.done []))
    (hrun : along Insp.step Insp.Succeeds (Insp.start metrics events).2 (es ++ [.restore env])) :
    let s := (exec Insp.step (Insp.start metrics events).2 (es ++ [.restore env])).2.eventServer
    (s.lastConfig = Insp.latest events.config es ∧ ∀ n, s.Up n ↔ n ∈ names (Insp.latest events.config es)) ↔
      Insp.latest events.config es = events.config := by
  intro s
  rw [along_append] at hrun
  have hj := exec_keeps Insp.step_inv (Insp.start_inv hstart) hrun.1
  have hs : s = ((exec Insp.step (Insp.start metrics events).2 es).2.step (.restore env)).2.eventServer := by
    simp only [s, exec_append, exec_cons, exec_nil]
  obtain ⟨hk, hlast⟩ := Insp.reloadEvents_inv hj hrun.2.1
  have hlast : s.lastConfig = events.config := by
    rw [hs]
    exact hlast.trans hj.restored
  have hup : s.AllUp := hs ▸ hk.allUp
  constructor
  · rintro ⟨h, -⟩
    exact h.symm.trans hlast
  · intro h
    rw [h]
    refine ⟨hlast, fun n => ?_⟩
    rw [← hlast]
    exact hup.up_iff n

/-- A shed and a restore with nothing loaded in between. -/
theorem restore_latest_after_a_shed :
    let es : List (InspEvent Nat) := [.shed (smooth [])]
    let s := (exec Insp.step (Insp.start (smooth []) (smooth [⟨"packetloss", 0⟩])).2
      (es ++ [.restore (smooth [])])).2.eventServer
    s.lastConfig = [⟨"packetloss", 0⟩] ∧ ∀ n, s.Up n ↔ n ∈ ["packetloss"] :=
  (restore_latest_iff (smooth []) (smooth [⟨"packetloss", 0⟩]) (smooth []) [.shed (smooth [])] (by decide +kernel)
    (by
      refine ⟨?_, ?_, trivial⟩
      · show (Insp.step _ _).1 = _
        decide +kernel
      · show (Insp.step _ _).1 = _
        decide +kernel)).mpr rfl

/-- A configuration loaded between start-up and a shed is gone after the restore. -/
theorem a_restore_loses_a_reload :
    let es : List (InspEvent Nat) :=
      [.reload (smooth []) (smooth [⟨"tcpreset", 0⟩]), .shed (smooth []), .restore (smooth [])]
    let r := exec Insp.step (Insp.start (smooth []) (smooth [⟨"packetloss", 0⟩])).2 es
    r.1 = [some (.done []), some (.done []), some (.done [])] ∧ r.2.eventServer.lastConfig = [⟨"packetloss", 0⟩] ∧
      r.2.eventServer.Up "packetloss" ∧ ¬ r.2.eventServer.Up "tcpreset" := by
  decide +kernel

end EliteTelemetry.Exporter
