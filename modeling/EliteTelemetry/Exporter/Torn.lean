/-
  EliteTelemetry.Exporter.Torn — which probes run after a `Reload`.

  After a call that returns nil with all its starts good, no probe outside the
  configuration runs: that holds in every run (`run_inv`). That every probe the
  configuration names runs does not. A call that a stop ends with an error has closed some
  probes and recorded nothing, so the next one still finds them in `lastConfig`: where their
  configuration has not changed they are kept as they are, dead.

  `torn` keeps the names a failed call has closed and no later one has started again. The
  property holds after a call exactly where it keeps none of them (`reload_running_iff`).
-/

import EliteTelemetry.Exporter.Reload
import EliteTelemetry.Lib.Machine

namespace EliteTelemetry.Exporter

open EliteTelemetry.Lib.Machine

variable {α : Type}

namespace Server

instance (s : Server α) (n : String) : Decidable (s.Up n) :=
  decidable_of_iff ((s.probes n).any (·.state = .running) = true) (by
    unfold Up
    cases s.probes n <;> simp)

/-- An instance the server created: in its map, or replaced there. -/
def Holds (s : Server α) (p : Probe) : Prop := (∃ n, s.probes n = some p) ∨ p ∈ s.replaced

/-- The probe of the name runs, unless its last start failed. -/
def Fit (s : Server α) (n : String) : Prop := ∃ p, s.probes n = some p ∧ (p.state = .running ∨ p.startFailed = true)

theorem fit_congr {s s' : Server α} {n : String} (h : s'.probes n = s.probes n) : s'.Fit n ↔ s.Fit n := by
  unfold Fit
  rw [h]

end Server

/-- The server, and the names closed by calls that then failed, until they are started again. -/
structure Watched (α : Type) where
  server : Server α
  torn : List String

namespace Watched

def start (m : Manager) : Watched α := ⟨newServer m, []⟩

/-- Of the recorded names, those torn are the ones that do not run. -/
structure Inv (w : Watched α) : Prop where
  settled : w.server.Settled
  up_good : ∀ n p, w.server.probes n = some p → p.state = .running → p.startFailed = false
  torn : ∀ n ∈ names w.server.lastConfig, (n ∈ w.torn ↔ ¬ w.server.Fit n)

theorem start_inv (m : Manager) : (start m : Watched α).Inv where
  settled := Server.newServer_settled m
  up_good _ _ h := by cases h
  torn _ h := by cases h

variable [BEq α]

def tornAfter (w : Watched α) (call : Call α) (a : Server.Answer) (s : Server α) : List String :=
  match a with
  | .stopError _ => w.torn ++ (toClose w.server.lastConfig call).filter fun n => w.server.Up n ∧ ¬ s.Up n
  | .done _ => w.torn.filter (· ∉ names (toAdd w.server.lastConfig call))
  | _ => w.torn

def step (w : Watched α) (call : Call α) : Server.Answer × Watched α :=
  let r := w.server.step call
  (r.1, ⟨r.2, w.tornAfter call r.1 r.2⟩)

variable {w : Watched α} {call : Call α}

theorem step_of_reload (hp : w.server.panicked = false) {a : Server.Answer} {s : Server α}
    (h : w.server.reload call = (a, s)) : w.step call = (a, ⟨s, w.tornAfter call a s⟩) := by
  simp only [step, Server.step, hp, Bool.false_eq_true, if_false, h]

/-- A call that a stop ended: what it closed was running, and is torn now. -/
theorem stopError_inv (hi : w.Inv) {n : String} {s : Server α} (h : w.server.reload call = (.stopError n, s)) :
    Inv ⟨s, w.tornAfter call (.stopError n) s⟩ := by
  obtain ⟨hc, -, -, -, -, hother⟩ := Server.reload_stopError hi.settled h
  refine ⟨hc.settled hi.settled, ?_, ?_⟩
  · intro m p hp hr
    have he := hc.up ⟨p, hp, hr⟩
    exact hi.up_good m p (he.symm.trans hp) hr
  · intro m hm
    show m ∈ w.torn ++ _ ↔ ¬ s.Fit m
    have hm' : m ∈ names w.server.lastConfig := hc.lastConfig ▸ hm
    simp only [List.mem_append, List.mem_filter, decide_eq_true_eq]
    rcases hc.probes m with he | ⟨p, hp, hr, he⟩
    · have hup := Server.up_congr he
      rw [Server.fit_congr he, ← hi.torn m hm', hup]
      tauto
    · have hdown : ¬ s.Up m := Server.not_up_of_probes he (Server.Closes.halted_not_running _ _)
      have hmem : m ∈ toClose w.server.lastConfig call := by
        by_contra hn
        exact hdown ((Server.up_congr (hother m hn)).mpr ⟨p, hp, hr⟩)
      have hfit : ¬ s.Fit m := by
        rintro ⟨q, hq, hq'⟩
        rw [he] at hq
        cases hq
        rcases hq' with hq' | hq'
        · exact Server.Closes.halted_not_running _ _ hq'
        · have hg : (Server.halted (call.stopOk m) p).startFailed = false := hi.up_good m p hp hr
          rw [hg] at hq'
          cases hq'
      exact ⟨fun _ => hfit, fun _ => Or.inr ⟨hmem, ⟨p, hp, hr⟩, hdown⟩⟩

/-- A call that came to its end: what it did not keep is started anew. -/
theorem done_inv (hi : w.Inv) {failed : List String} {s : Server α} (h : w.server.reload call = (.done failed, s)) :
    Inv ⟨s, w.tornAfter call (.done failed) s⟩ := by
  have hf := Server.reload_done hi.settled h
  refine ⟨hf.settled, ?_, ?_⟩
  · intro n p hp hr
    have hn : n ∈ names call.config := hf.lastConfig ▸ hf.settled.up n ⟨p, hp, hr⟩
    by_cases hk : Kept w.server.lastConfig call.config n
    · exact hi.up_good n p ((hf.kept n hk).symm.trans hp) hr
    · obtain ⟨q, hq, hs, hst⟩ := hf.added n hn hk
      rw [hp] at hq
      cases hq
      rw [hs]
      rw [hr] at hst
      split at hst
      · rename_i ho
        simp [ho]
      · cases hst
  · intro n hn
    have hn : n ∈ names call.config := hf.lastConfig ▸ hn
    show n ∈ w.torn.filter _ ↔ ¬ s.Fit n
    simp only [List.mem_filter, decide_eq_true_eq, mem_names_toAdd]
    by_cases hk : Kept w.server.lastConfig call.config n
    · rw [Server.fit_congr (hf.kept n hk), ← hi.torn n hk.mem_last]
      tauto
    · obtain ⟨q, hq, hs, hst⟩ := hf.added n hn hk
      have hfit : s.Fit n := by
        refine ⟨q, hq, ?_⟩
        cases ho : call.startOk n
        · exact Or.inr (by rw [hs, ho]; rfl)
        · exact Or.inl (by rw [hst, ho]; rfl)
      tauto

theorem step_inv (call : Call α) (hi : w.server.panicked = true ∨ w.Inv) :
    (w.step call).2.server.panicked = true ∨ (w.step call).2.Inv := by
  cases hp : w.server.panicked with
  | true =>
    refine Or.inl ?_
    simp [step, Server.step, hp]
  | false =>
    have hi : w.Inv := hi.resolve_left (by simp [hp])
    rcases h : w.server.reload call with ⟨a, s⟩
    rw [step_of_reload hp h]
    cases a with
    | done failed => exact Or.inr (done_inv hi h)
    | createError n =>
      obtain ⟨k, rfl⟩ := Server.reload_createError h
      exact Or.inr ⟨⟨hi.settled.placed, hi.settled.up, hi.settled.present, hi.settled.replaced⟩, hi.up_good, hi.torn⟩
    | stopError n => exact Or.inr (stopError_inv hi h)
    | panic => exact Or.inl (Server.reload_panic h)

theorem run_inv (m : Manager) (calls : List (Call α)) :
    (exec step (start m) calls).2.server.panicked = true ∨ (exec step (start m) calls).2.Inv :=
  exec_keeps (P := fun _ _ => True) (I := fun w : Watched α => w.server.panicked = true ∨ w.Inv)
    (fun _ call _ hi => step_inv call hi) (Or.inr (start_inv m)) (along_of_forall (fun _ _ _ => trivial) _)

end Watched

/-- In every run of calls, after one that returns nil with all its own starts good: every
    probe it names runs unless its last start failed, and none it does not name runs,
    exactly where it keeps no probe that a failed call tore down. -/
theorem reload_running_iff [BEq α] (m : Manager) (calls : List (Call α)) (call : Call α)
    (h : ((exec Watched.step (Watched.start m) calls).2.step call).1 = .done []) :
    let w := (exec Watched.step (Watched.start m) calls).2
    let s := (w.step call).2.server
    ((∀ n ∈ names call.config, s.Fit n) ∧ ∀ p, s.Holds p → p.name ∉ names call.config → p.state ≠ .running) ↔
      ∀ n ∈ w.torn, ¬ Kept w.server.lastConfig call.config n := by
  intro w s
  cases hp : w.server.panicked with
  | true =>
    have : (w.step call).1 = .panic := by simp [Watched.step, Server.step, hp]
    rw [this] at h
    cases h
  | false =>
    have hi : w.Inv := (Watched.run_inv m calls).resolve_left (by simp [w] at hp; simp [hp])
    rcases hr : w.server.reload call with ⟨a, t⟩
    have hst := Watched.step_of_reload hp hr
    have ha : (w.step call).1 = .done [] := h
    rw [hst] at ha
    obtain rfl : a = .done [] := ha
    have hs : s = t := congrArg (·.2.server) hst
    rw [hs]
    have hf := Server.reload_done hi.settled hr
    have hnone : ∀ p, t.Holds p → p.name ∉ names call.config → p.state ≠ .running := by
      rintro p (⟨n, hn⟩ | hp) hc hrun
      · rw [(hf.settled.placed n p hn).1] at hc
        exact hc (hf.lastConfig ▸ hf.settled.up n ⟨p, hn, hrun⟩)
      · exact hf.settled.replaced p hp hrun
    have hadded : ∀ n ∈ names call.config, ¬ Kept w.server.lastConfig call.config n → t.Fit n := by
      intro n hn hk
      obtain ⟨q, hq, -, hst⟩ := hf.added n hn hk
      have ho : call.startOk n = true := by
        by_contra ho
        exact List.not_mem_nil ((hf.failed_eq n).mpr ⟨hn, hk, by simpa using ho⟩)
      exact ⟨q, hq, Or.inl (by rw [hst, ho]; rfl)⟩
    constructor
    · rintro ⟨hfit, -⟩ n hn hk
      exact (hi.torn n hk.mem_last).mp hn ((Server.fit_congr (hf.kept n hk)).mp (hfit n hk.mem_config))
    · intro htorn
      refine ⟨fun n hn => ?_, hnone⟩
      by_cases hk : Kept w.server.lastConfig call.config n
      · rw [Server.fit_congr (hf.kept n hk)]
        by_contra hfit
        exact htorn n ((hi.torn n hk.mem_last).mpr hfit) hk
      · exact hadded n hn hk

def smooth (config : List (ProbeConfig Nat)) : Call Nat :=
  ⟨config, fun _ => 0, fun _ => 0, fun _ => true, fun _ => true, fun _ => true⟩

/-- A second probe is added to a running one. -/
theorem reload_running_adding_a_probe :
    let w := (exec Watched.step (Watched.start .events) [smooth [⟨"packetloss", 0⟩]]).2
    let s := (w.step (smooth [⟨"packetloss", 0⟩, ⟨"tcpreset", 0⟩])).2.server
    (∀ n ∈ ["packetloss", "tcpreset"], s.Fit n) ∧
      ∀ p, s.Holds p → p.name ∉ ["packetloss", "tcpreset"] → p.state ≠ .running :=
  (reload_running_iff .events [smooth [⟨"packetloss", 0⟩]] (smooth [⟨"packetloss", 0⟩, ⟨"tcpreset", 0⟩])
    (by decide +kernel)).mpr
    (by
      intro n hn
      have ht : (exec Watched.step (Watched.start .events) [smooth [⟨"packetloss", 0⟩]]).2.torn = [] := by
        decide +kernel
      rw [ht] at hn
      cases hn)

/-- Both probes are to go, the second does not stop, and the old configuration comes back:
    the call returns nil with nothing started, and the first probe stays stopped. -/
theorem a_failed_stop_leaves_a_kept_probe_dead :
    let both : List (ProbeConfig Nat) := [⟨"packetloss", 0⟩, ⟨"tcpreset", 0⟩]
    let w := (exec Watched.step (Watched.start .events)
      [smooth both, { smooth [] with stopOk := fun n => n ≠ "tcpreset" }]).2
    let s := (w.step (smooth both)).2.server
    (w.step (smooth both)).1 = .done [] ∧
      ¬ ((∀ n ∈ names both, s.Fit n) ∧ ∀ p, s.Holds p → p.name ∉ names both → p.state ≠ .running) := by
  intro both w s
  refine ⟨by decide +kernel, ?_⟩
  rintro ⟨hfit, -⟩
  obtain ⟨p, hp, hrun⟩ := hfit "packetloss" (by decide)
  have hloss : s.probes "packetloss" = some ⟨"packetloss", 0, .stopped, false⟩ := by decide +kernel
  rw [hloss] at hp
  cases hp
  simp at hrun

end EliteTelemetry.Exporter
