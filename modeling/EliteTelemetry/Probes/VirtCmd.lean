/-
  EliteTelemetry.Probes.VirtCmd — the latency of virtio-net commands (`bpf/virtcmdlatency.c`).

  A thread that sends a command puts the time under its id into a per-CPU map, in the slot of
  the CPU it runs on. When the command returns, the slot of the CPU that the thread runs on by
  then is taken from the time, a difference over 10 ms is reported, and the id is deleted.

  A slot that was not written is 0. So a thread that was moved in between is reported with the
  time since the boot. Each command is reported with its own duration, or not at all if that is
  short, exactly if every thread comes back on the CPU it set out from (`durations_told_iff`).
-/

import EliteTelemetry.Lib.BpfMaps
import EliteTelemetry.Lib.Machine
import Mathlib.Data.UInt

namespace EliteTelemetry.Probes.VirtCmd

open EliteTelemetry.Lib.BpfMaps EliteTelemetry.Lib.Machine

/-! ## The programs -/

def virtcmdlatThresh : UInt64 := 10000000

def maxEntries : Nat := 1024

inductive Probe where
  | virtcmd
  | virtcmdret
  deriving DecidableEq, Repr

structure Event (C : Type) where
  probe : Probe
  tgid : UInt32
  pid : UInt32
  cpu : C
  ts : UInt64
  deriving DecidableEq, Repr

structure Report (C : Type) where
  pid : UInt32
  cpu : C
  latency : UInt64
  deriving DecidableEq, Repr

def report {C : Type} (e : Event C) (latency : UInt64) : Option (Report C) :=
  if virtcmdlatThresh < latency then some ⟨e.tgid, e.cpu, latency⟩ else none

section Model

variable {C : Type} [DecidableEq C]

abbrev Virtcmdlat (C : Type) := PerCpu UInt32 C UInt64

namespace Virtcmdlat

def traceVirtcmd (t : Virtcmdlat C) (e : Event C) : Virtcmdlat C :=
  if Table.Room maxEntries t e.pid then PerCpu.set t e.cpu e.pid e.ts else t

def traceVirtcmdret (t : Virtcmdlat C) (e : Event C) : Option (Report C) × Virtcmdlat C :=
  match PerCpu.slot t e.cpu e.pid with
  | none => (none, t)
  | some tsp => (report e (e.ts - tsp), PerCpu.delete t e.pid)

def step (t : Virtcmdlat C) (e : Event C) : Option (Report C) × Virtcmdlat C :=
  match e.probe with
  | .virtcmd => (none, t.traceVirtcmd e)
  | .virtcmdret => t.traceVirtcmdret e

end Virtcmdlat

/-! ## What the threads do -/

/-- The map, and which threads have sent a command that has not returned: from where and when. -/
structure Host (C : Type) where
  virtcmdlat : Virtcmdlat C
  sent : UInt32 → Option (C × UInt64)

namespace Host

def start : Host C := ⟨∅, fun _ => none⟩

def step (h : Host C) (e : Event C) : Option (Report C) × Host C :=
  ((h.virtcmdlat.step e).1,
    { virtcmdlat := (h.virtcmdlat.step e).2
      sent := Function.update h.sent e.pid (if e.probe = .virtcmd then some (e.cpu, e.ts) else none) })

/-- A thread has one command at a time, for which there is room in the map. The times are later
    than the threshold, and a command does not return before it is sent. -/
def InOrder (h : Host C) (e : Event C) : Prop :=
  virtcmdlatThresh < e.ts ∧
    match e.probe with
    | .virtcmd => h.sent e.pid = none ∧ Table.Room maxEntries h.virtcmdlat e.pid
    | .virtcmdret => ∃ c t, h.sent e.pid = some (c, t) ∧ t ≤ e.ts

def due (h : Host C) (e : Event C) : Option (Report C) :=
  match e.probe, h.sent e.pid with
  | .virtcmdret, some (_, t) => report e (e.ts - t)
  | _, _ => none

/-- The programs report what they should. -/
def Told (h : Host C) (e : Event C) : Prop := (h.step e).1 = h.due e

/-- A thread comes back on the CPU it set out from. -/
def SameCpu (h : Host C) (e : Event C) : Prop :=
  e.probe = .virtcmdret → (h.sent e.pid).map (·.1) = some e.cpu

/-- The map has the threads that have sent a command, each with the time in the slot of its CPU and
    zero in the others, and the times are not zero. -/
structure Inv (h : Host C) : Prop where
  absent : ∀ pid, h.sent pid = none → pid ∉ h.virtcmdlat
  slot : ∀ pid c t, h.sent pid = some (c, t) →
    0 < t ∧ ∀ d, PerCpu.slot h.virtcmdlat d pid = some (if d = c then t else 0)

theorem inv_start : Inv (start : Host C) where
  absent := by
    intro pid _
    exact AList.notMem_empty pid
  slot := by
    intro pid c t h
    cases h

theorem inv_step (h : Host C) (e : Event C) (hinv : Inv h) (horder : h.InOrder e) : Inv (h.step e).2 := by
  obtain ⟨probe, tgid, pid, cpu, ts⟩ := e
  obtain ⟨hts, hcase⟩ := horder
  cases probe with
  | virtcmd =>
    obtain ⟨hnone, hroom⟩ := hcase
    have hmap : (h.step ⟨.virtcmd, tgid, pid, cpu, ts⟩).2.virtcmdlat = PerCpu.set h.virtcmdlat cpu pid ts :=
      if_pos hroom
    have hnew : ∀ d, PerCpu.slot h.virtcmdlat d pid = none := by
      intro d
      have habsent := hinv.absent pid hnone
      rw [PerCpu.mem_iff_slot h.virtcmdlat d pid] at habsent
      simpa using habsent
    refine ⟨?_, ?_⟩
    · intro j hj
      have hne : j ≠ pid := by
        intro heq
        simp [step, heq] at hj
      have hj' : h.sent j = none := by simpa [step, hne] using hj
      rw [hmap, PerCpu.mem_set]
      exact fun hmem => hmem.elim hne (hinv.absent j hj')
    · intro j c t hj
      rw [hmap]
      by_cases heq : j = pid
      · subst heq
        obtain ⟨rfl, rfl⟩ : cpu = c ∧ ts = t := by simpa [step] using hj
        refine ⟨UInt64.lt_of_le_of_lt (by decide) hts, fun d => ?_⟩
        rw [PerCpu.slot_set_self, hnew d]
        rfl
      · simp only [PerCpu.slot_set_of_ne _ _ _ _ heq]
        exact hinv.slot j c t (by simpa [step, heq] using hj)
  | virtcmdret =>
    obtain ⟨c, t, hsent, -⟩ := hcase
    have hmap : (h.step ⟨.virtcmdret, tgid, pid, cpu, ts⟩).2.virtcmdlat = PerCpu.delete h.virtcmdlat pid := by
      simp [step, Virtcmdlat.step, Virtcmdlat.traceVirtcmdret, (hinv.slot pid c t hsent).2 cpu]
    refine ⟨?_, ?_⟩
    · intro j hj
      rw [hmap, PerCpu.delete, AList.mem_erase]
      intro hmem
      exact hinv.absent j (by simpa [step, hmem.1] using hj) hmem.2
    · intro j c' t' hj
      have hne : j ≠ pid := by
        intro heq
        simp [step, heq] at hj
      rw [hmap]
      simp only [PerCpu.slot_delete_of_ne _ _ hne]
      exact hinv.slot j c' t' (by simpa [step, hne] using hj)

theorem told_iff_sameCpu (h : Host C) (e : Event C) (hinv : Inv h) (horder : h.InOrder e) :
    h.Told e ↔ h.SameCpu e := by
  obtain ⟨probe, tgid, pid, cpu, ts⟩ := e
  obtain ⟨hts, hcase⟩ := horder
  cases probe with
  | virtcmd => exact iff_of_true rfl fun hret => absurd hret (by simp)
  | virtcmdret =>
    obtain ⟨c, t, hsent, hle⟩ := hcase
    have hle : t ≤ ts := hle
    obtain ⟨hpos, hslot⟩ := hinv.slot pid c t hsent
    have hdue : h.due ⟨.virtcmdret, tgid, pid, cpu, ts⟩ = report ⟨.virtcmdret, tgid, pid, cpu, ts⟩ (ts - t) := by
      simp only [due, hsent]
    have hans : (h.step ⟨.virtcmdret, tgid, pid, cpu, ts⟩).1 =
        report ⟨.virtcmdret, tgid, pid, cpu, ts⟩ (ts - if cpu = c then t else 0) := by
      simp [step, Virtcmdlat.step, Virtcmdlat.traceVirtcmdret, hslot cpu]
    have hcpu : h.SameCpu ⟨.virtcmdret, tgid, pid, cpu, ts⟩ ↔ cpu = c := by
      simp [SameCpu, hsent, eq_comm]
    rw [hcpu, Told, hans, hdue]
    constructor
    · intro heq
      by_contra hne
      -- the time since the boot is over the threshold, and it is not the duration
      rw [if_neg hne, UInt64.sub_zero, report, if_pos hts] at heq
      unfold report at heq
      split at heq
      · have hdur : ts = ts - t := by simpa using heq
        have hdur' := congrArg UInt64.toNat hdur
        rw [UInt64.toNat_sub_of_le _ _ hle] at hdur'
        rw [UInt64.lt_iff_toNat_lt, UInt64.toNat_zero] at hpos
        rw [UInt64.le_iff_toNat_le] at hle
        omega
      · cases heq
    · intro heq
      rw [if_pos heq]

end Host

/-- In every run in which each thread has one command at a time, what is reported is the durations
    of the slow commands exactly if every thread comes back on the CPU it set out from. -/
theorem durations_told_iff (es : List (Event C)) (horder : along Host.step Host.InOrder Host.start es) :
    along Host.step Host.Told Host.start es ↔ along Host.step Host.SameCpu Host.start es :=
  along_iff_along_of (fun h e hinv hA _ => Host.inv_step h e hinv hA) Host.told_iff_sameCpu Host.inv_start horder

/-- A thread sends a command from one of two CPUs and comes back on the given one 5 ns later. -/
def sentFrom (back : Bool) : List (Event Bool) :=
  [⟨.virtcmd, 7, 8, false, 20000000⟩, ⟨.virtcmdret, 7, 8, back, 20000005⟩]

theorem inOrder_sentFrom (back : Bool) : along Host.step Host.InOrder Host.start (sentFrom back) := by
  refine ⟨⟨by decide, rfl, ?_⟩, ⟨show virtcmdlatThresh < 20000005 by decide, false, 20000000, rfl, ?_⟩, trivial⟩
  · exact Or.inr (by decide)
  · show (20000000 : UInt64) ≤ 20000005
    decide

theorem durations_told_of_one_thread :
    along Host.step Host.Told Host.start (sentFrom false) ∧ ¬along Host.step Host.Told Host.start (sentFrom true) := by
  refine ⟨(durations_told_iff _ (inOrder_sentFrom false)).mpr ⟨?_, ?_, trivial⟩, fun h => ?_⟩
  · intro hret
    cases hret
  · intro _
    rfl
  · have hsame := ((durations_told_iff _ (inOrder_sentFrom true)).mp h).2.1 rfl
    exact absurd hsame (by decide)

end Model

end EliteTelemetry.Probes.VirtCmd
