/-
  EliteTelemetry.Ipcache.History — the history is what `logChange` was asked for: the changes
  of its calls, call by call, up to the last one numbered.

  Only the three steps of `logChange` touch the history and the caller at work; every other
  step is `Quiet`.
-/

import EliteTelemetry.Ipcache.System
import EliteTelemetry.Lib.Machine

namespace EliteTelemetry.Ipcache

open EliteTelemetry.Lib.Machine

/-- The changes a call of `logChange` asks for. -/
def Event.changes : Event → List (OpCode × CacheEntry)
  | .logChange op es => es.map fun e => (op, e)
  | _ => []

def Event.ofLog : Event → Bool
  | .logChange _ _ | .logAdd | .logSend => true
  | _ => false

/-- The changes asked for so far: numbered, or still to be numbered by the caller at work. -/
def Sys.asked (s : Sys) : List (OpCode × CacheEntry) :=
  s.history.map (fun cl => (cl.opcode, cl.entry)) ++
    match s.svc.job with
    | some j => j.entries.map fun e => (j.op, e)
    | none => []

def Quiet (s t : Sys) : Prop := t.history = s.history ∧ t.svc.job = s.svc.job

theorem controlStep_quiet {s t : Sys} (h : s.controlStep = some t) : Quiet s t := by
  unfold Sys.controlStep at h
  split at h
  · cases h
  · cases h
  · cases h; exact ⟨rfl, rfl⟩
  · cases h; exact ⟨rfl, rfl⟩
  · cases h; exact ⟨rfl, rfl⟩
  · cases h; exact ⟨rfl, rfl⟩
  · cases h; exact ⟨rfl, rfl⟩
  · split_ifs at h <;> cases h <;> exact ⟨rfl, rfl⟩
  · cases h
    unfold Sys.sendUpToDate
    simp only
    split
    · exact ⟨rfl, rfl⟩
    · split_ifs <;> exact ⟨rfl, rfl⟩
  · cases h; exact ⟨rfl, rfl⟩
  · cases h; exact ⟨rfl, rfl⟩
  · split at h
    · cases h; exact ⟨rfl, rfl⟩
    · split_ifs at h <;> cases h <;> exact ⟨rfl, rfl⟩
  · cases h
    unfold Sys.sendStale
    simp only
    split
    · exact ⟨rfl, rfl⟩
    · split_ifs <;> exact ⟨rfl, rfl⟩

theorem Aside.quiet {s t : Sys} (h : Aside s t) : Quiet s t := by
  cases h <;> exact ⟨rfl, rfl⟩

theorem step_quiet {s t : Sys} {e : Event} (h : step s e = some t) (hlog : e.ofLog = false) : Quiet s t := by
  replace h := react_of_step h
  cases e with
  | logChange op es => cases hlog
  | logAdd => cases hlog
  | logSend => cases hlog
  | receive =>
    simp only [react, Sys.receive] at h
    split at h <;> cases h
    exact ⟨rfl, rfl⟩
  | ticker =>
    simp only [react, Sys.ticker] at h
    split at h <;> cases h
    exact ⟨rfl, rfl⟩
  | control => exact controlStep_quiet h
  | register n =>
    simp only [react, Sys.register] at h
    split_ifs at h <;> cases h <;> exact ⟨rfl, rfl⟩
  | _ => exact (react_aside h rfl).quiet

theorem logChange_asked {s t : Sys} {op : OpCode} {es : List CacheEntry} (h : s.logChange op es = some t) :
    t.asked = s.asked ++ es.map fun e => (op, e) := by
  unfold Sys.logChange at h
  split_ifs at h with hes hjob
  · cases h
    simp [hes]
  · cases h
    simp [Sys.asked, Option.isNone_iff_eq_none.mp hjob]

theorem logAdd_asked {s t : Sys} (h : s.logAdd = some t) : t.asked = s.asked := by
  unfold Sys.logAdd at h
  split at h
  · rename_i op e es hjob
    cases h
    simp [Sys.asked, hjob]
  · cases h

theorem logSend_asked {s t : Sys} (h : s.logSend = some t) : t.asked = s.asked := by
  unfold Sys.logSend at h
  split at h
  · rename_i op es cl hjob
    by_cases hroom : s.svc.logChan.length < logBufferSize
    · rw [if_pos hroom] at h
      cases h
      by_cases hes : es = []
      · simp [Sys.asked, hjob, hes]
      · simp [Sys.asked, hjob, hes]
    · rw [if_neg hroom] at h
      cases h
  · cases h

theorem step_asked {s t : Sys} {e : Event} (h : step s e = some t) : t.asked = s.asked ++ e.changes := by
  by_cases hlog : e.ofLog
  · have hstep := react_of_step h
    cases e with
    | logChange op es => exact logChange_asked hstep
    | logAdd => exact (logAdd_asked hstep).trans (List.append_nil _).symm
    | logSend => exact (logSend_asked hstep).trans (List.append_nil _).symm
    | _ => cases hlog
  · obtain ⟨hhist, hjob⟩ := step_quiet h (by simpa using hlog)
    have hnil : e.changes = [] := by
      cases e with
      | logChange op es => exact absurd rfl hlog
      | _ => rfl
    unfold Sys.asked
    rw [hhist, hjob, hnil, List.append_nil]

theorem runs_asked {s t : Sys} {es : List Event} (h : runs step s es = some t) :
    t.asked = s.asked ++ es.flatMap Event.changes := by
  induction es generalizing s with
  | nil =>
    cases h
    simp
  | cons e es ih =>
    obtain ⟨u, hu, ht⟩ := Option.bind_eq_some_iff.mp h
    rw [ih ht, step_asked hu, List.flatMap_cons, List.append_assoc]

/-- The history after a run: the changes of the calls made, in their order, up to the last
    one numbered. -/
theorem history_calls {period : String} {agents : Nat → Agent} {es : List Event} {s : Sys}
    (h : runs step (init period agents) es = some s) :
    s.history.map (fun cl => (cl.opcode, cl.entry)) <+: es.flatMap Event.changes := by
  have hasked := runs_asked h
  rw [show (init period agents).asked = [] from rfl, List.nil_append] at hasked
  rw [← hasked]
  exact List.prefix_append _ _

end EliteTelemetry.Ipcache
