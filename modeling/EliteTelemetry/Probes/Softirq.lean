/-
  EliteTelemetry.Probes.Softirq — the softirq probe (`bpf/softirq.c`).

  Three programs measure two delays of each softirq vector on the CPU they run on: from the
  first raise to the entry, and from the entry to the exit. They keep the times in one
  per-CPU hash map, keyed by vector and phase. Its values are per CPU; its keys are not:
  a raise is dropped while another CPU has the vector raised, an entry deletes the raises of
  all CPUs, and an exit deletes the entries of all.

  `Ledger` says what the CPUs did, without the map: for each CPU and vector the time its own
  delay began, and the beginning the shared map has. A CPU reports what it would report alone
  exactly where, at each of its delays over the threshold, these two are the same
  (`cpus_apart_iff`).
-/

import EliteTelemetry.Lib.BpfMaps
import EliteTelemetry.Lib.Machine
import Mathlib.Algebra.GroupWithZero.Nat

namespace EliteTelemetry.Probes.Softirq

open EliteTelemetry.Lib.BpfMaps
open EliteTelemetry.Lib.Machine

/-! ## The programs -/

def softirqThresh : Nat := 10000000

def filterIrqs (bits vecNr : UInt32) : Bool := vecNr < 32 && (bits &&& (1 <<< vecNr)) != 0

inductive Phase where
  | sched
  | excute
  deriving DecidableEq, Repr

structure EntryKey where
  vecNr : UInt32
  phase : Phase
  deriving DecidableEq, Repr

structure Report where
  phase : Phase
  vecNr : UInt32
  latency : Nat
  deriving DecidableEq, Repr

inductive Tracepoint where
  | raise
  | entry
  | exit
  deriving DecidableEq, Repr

structure Event (C : Type) where
  cpu : C
  point : Tracepoint
  vec : UInt32
  ts : Nat
  deriving DecidableEq, Repr

section Model

variable {C : Type} [DecidableEq C]

abbrev Entries (C : Type) := PerCpu EntryKey C Nat

/-- A delay that is measured from the slot of the current CPU, if there is a time in it. -/
def report (slot : Option Nat) (ts : Nat) (phase : Phase) (vecNr : UInt32) : Option Report :=
  match slot with
  | none => none
  | some t => if t ≠ 0 ∧ softirqThresh < ts - t then some ⟨phase, vecNr, ts - t⟩ else none

namespace Entries

def softirqRaise (t : Entries C) (c : C) (vec : UInt32) (ts : Nat) : Option Report × Entries C :=
  -- only keep the first raise entry
  (none, t.setNew c ⟨vec, .sched⟩ ts)

def softirqEntry (t : Entries C) (c : C) (vec : UInt32) (ts : Nat) : Option Report × Entries C :=
  (report (t.slot c ⟨vec, .sched⟩) ts .sched vec, PerCpu.set (t.delete ⟨vec, .sched⟩) c ⟨vec, .excute⟩ ts)

def softirqExit (t : Entries C) (c : C) (vec : UInt32) (ts : Nat) : Option Report × Entries C :=
  match t.slot c ⟨vec, .excute⟩ with
  | none | some 0 => (none, t)
  | some tsp => (report (some tsp) ts .excute vec, t.delete ⟨vec, .excute⟩)

def step (bits : UInt32) (t : Entries C) (e : Event C) : Option Report × Entries C :=
  if filterIrqs bits e.vec then
    match e.point with
    | .raise => t.softirqRaise e.cpu e.vec e.ts
    | .entry => t.softirqEntry e.cpu e.vec e.ts
    | .exit => t.softirqExit e.cpu e.vec e.ts
  else (none, t)

end Entries

/-- What the programs on the CPU `c` report in a run of all CPUs. -/
def reports (bits : UInt32) (c : C) (es : List (Event C)) : List Report :=
  (es.zip (exec (Entries.step bits) ∅ es).1).filterMap fun ea => if ea.1.cpu = c then ea.2 else none

/-- What they report when only the CPU's own events are run. -/
def soloReports (bits : UInt32) (c : C) (es : List (Event C)) : List Report :=
  (exec (Entries.step bits) ∅ (es.filter (·.cpu = c))).1.filterMap id

def Increasing (es : List (Event C)) : Prop := (0 :: es.map (·.ts)).Pairwise (· < ·)

/-! ## What the CPUs did -/

structure Ledger (C : Type) where
  /-- The first raise of the vector on the CPU since its last entry there. -/
  raised : C → UInt32 → Option Nat
  /-- The first raise of the vector on any CPU since its last entry on any. -/
  first : UInt32 → Option (C × Nat)
  /-- The last entry of the vector on the CPU, if it has not left it since. -/
  entered : C → UInt32 → Option Nat
  /-- The same, gone as well when another CPU leaves the vector while it has one here. -/
  held : C → UInt32 → Option Nat

namespace Ledger

def start : Ledger C := ⟨fun _ _ => none, fun _ => none, fun _ _ => none, fun _ _ => none⟩

def set {β : Type} (f : C → UInt32 → β) (c : C) (v : UInt32) (b : β) : C → UInt32 → β :=
  fun c' v' => if c' = c ∧ v' = v then b else f c' v'

def raise (l : Ledger C) (c : C) (v : UInt32) (ts : Nat) : Ledger C :=
  { l with
    raised := set l.raised c v (some ((l.raised c v).getD ts))
    first := Function.update l.first v (some ((l.first v).getD (c, ts))) }

def entry (l : Ledger C) (c : C) (v : UInt32) (ts : Nat) : Ledger C :=
  { raised := set l.raised c v none
    first := Function.update l.first v none
    entered := set l.entered c v (some ts)
    held := set l.held c v (some ts) }

def exit (l : Ledger C) (c : C) (v : UInt32) : Ledger C :=
  { l with
    entered := set l.entered c v none
    held := fun c' v' => if v' = v ∧ (l.held c v).isSome then none else l.held c' v' }

def record (l : Ledger C) (e : Event C) : Ledger C :=
  match e.point with
  | .raise => l.raise e.cpu e.vec e.ts
  | .entry => l.entry e.cpu e.vec e.ts
  | .exit => l.exit e.cpu e.vec

def step (bits : UInt32) (l : Ledger C) (e : Event C) : Unit × Ledger C :=
  ((), if filterIrqs bits e.vec then l.record e else l)

/-- Where the CPU's own delay is over the threshold, it is measured from its own beginning. -/
def Apart (bits : UInt32) (l : Ledger C) (e : Event C) : Prop :=
  filterIrqs bits e.vec = true →
    match e.point with
    | .raise => True
    | .entry => ∀ r, l.raised e.cpu e.vec = some r → softirqThresh < e.ts - r → l.first e.vec = some (e.cpu, r)
    | .exit => ∀ r, l.entered e.cpu e.vec = some r → softirqThresh < e.ts - r → l.held e.cpu e.vec = some r

end Ledger

/-! ## Measuring from a slot -/

def Late (slot : Option Nat) (ts r : Nat) : Prop := slot = some r ∧ r ≠ 0 ∧ softirqThresh < ts - r

variable {c : C} {t : Entries C} {e : Event C} {l own : Ledger C} {ts now : Nat} {v w : UInt32}

theorem report_of_late {slot : Option Nat} {r : Nat} (h : Late slot ts r) (phase : Phase) (vec : UInt32) :
    report slot ts phase vec = some ⟨phase, vec, ts - r⟩ := by
  obtain ⟨rfl, h0, hlt⟩ := h
  exact if_pos ⟨h0, hlt⟩

theorem report_of_not_late {slot : Option Nat} (h : ∀ r, ¬ Late slot ts r) (phase : Phase) (vec : UInt32) :
    report slot ts phase vec = none := by
  cases slot with
  | none => rfl
  | some r => exact if_neg fun hr => h r ⟨rfl, hr⟩

/-- An empty slot and one with zero in it are the same to the programs. -/
theorem report_getD (slot : Option Nat) (ts : Nat) (phase : Phase) (vec : UInt32) :
    report slot ts phase vec = report (some (slot.getD 0)) ts phase vec := by
  cases slot with
  | none => rfl
  | some r => rfl

/-- Of two slots, one late wherever the other is, the same is reported exactly where the first
    one's time, if it is late, is also the other's. -/
theorem report_eq_iff {own shared : Option Nat} (h : ∀ r, Late shared ts r → ∃ r, Late own ts r) (phase : Phase)
    (vec : UInt32) : report shared ts phase vec = report own ts phase vec ↔ ∀ r, Late own ts r → shared = some r := by
  constructor
  · intro heq r hr
    rw [report_of_late hr] at heq
    by_cases hs : ∃ r', Late shared ts r'
    · obtain ⟨r', hr'⟩ := hs
      rw [report_of_late hr'] at heq
      have hlat : ts - r' = ts - r := by simpa using heq
      obtain ⟨rfl, -, hlt'⟩ := hr'
      obtain ⟨-, -, hlt⟩ := hr
      rw [show r' = r by omega]
    · rw [report_of_not_late (not_exists.mp hs)] at heq
      cases heq
  · intro hown
    by_cases ho : ∃ r, Late own ts r
    · obtain ⟨r, hr⟩ := ho
      rw [hown r hr, hr.1]
    · have hs : ∀ r, ¬ Late shared ts r := fun r hr => ho (h r hr)
      rw [report_of_not_late hs, report_of_not_late (not_exists.mp ho)]

/-! ## The maps and the ledger -/

namespace Ledger

@[simp] theorem set_self {β : Type} (f : C → UInt32 → β) (c : C) (v : UInt32) (b : β) : set f c v b c v = b :=
  if_pos ⟨rfl, rfl⟩

theorem set_of_ne {β : Type} (f : C → UInt32 → β) {c' : C} {v' : UInt32} (b : β) (h : ¬ (c' = c ∧ v' = v)) :
    set f c v b c' v' = f c' v' := if_neg h

end Ledger

namespace Entries

omit [DecidableEq C] in
theorem exit_report (t : Entries C) (c : C) (vec : UInt32) (ts : Nat) :
    (t.softirqExit c vec ts).1 = report (t.slot c ⟨vec, .excute⟩) ts .excute vec := by
  unfold softirqExit
  split <;> rename_i h <;> rw [h]
  · rfl
  · rfl

omit [DecidableEq C] in
theorem exit_table (t : Entries C) (c : C) (vec : UInt32) (ts : Nat) :
    (t.softirqExit c vec ts).2 =
      if (t.slot c ⟨vec, .excute⟩).getD 0 = 0 then t else t.delete ⟨vec, .excute⟩ := by
  unfold softirqExit
  split
  · rename_i h
    rw [h]
    rfl
  · rename_i h
    rw [h]
    rfl
  · rename_i tsp h0 h
    rw [h, if_neg]
    rintro rfl
    exact h0 rfl

end Entries

theorem sched_ne_excute : (⟨v, .sched⟩ : EntryKey) ≠ ⟨w, .excute⟩ := by simp

theorem excute_ne_sched : (⟨v, .excute⟩ : EntryKey) ≠ ⟨w, .sched⟩ := by simp

theorem key_ne (h : v ≠ w) (p : Phase) : (⟨v, p⟩ : EntryKey) ≠ ⟨w, p⟩ := by simpa using h

/-- The map of all CPUs: under a raised vector, the time of its first raise in the slot of that
    raise's CPU; under an entered one, what is held of each CPU's entry. -/
structure Shared (t : Entries C) (l : Ledger C) : Prop where
  sched : ∀ c v, t.slot c ⟨v, .sched⟩ = (l.first v).map fun dr => if c = dr.1 then dr.2 else 0
  excute : ∀ c v, (t.slot c ⟨v, .excute⟩).getD 0 = (l.held c v).getD 0
  pos : ∀ c v r, l.held c v = some r → r ≠ 0

theorem Shared.raise (h : Shared t l) (c : C) (vec : UInt32) (ts : Nat) :
    Shared (t.softirqRaise c vec ts).2 (l.raise c vec ts) := by
  have hmem : (⟨vec, .sched⟩ : EntryKey) ∈ t ↔ (l.first vec).isSome = true := by
    rw [PerCpu.mem_iff_slot t c, h.sched, Option.isSome_map]
  unfold Ledger.raise Entries.softirqRaise
  refine ⟨fun d v => ?_, fun d v => ?_, h.pos⟩ <;> dsimp only
  · by_cases hv : v = vec
    · subst hv
      rw [Function.update_self]
      cases hf : l.first v with
      | none =>
        rw [PerCpu.setNew_of_not_mem (by simp [hmem, hf]), PerCpu.slot_set_self, h.sched, hf]
        rfl
      | some dr => rw [PerCpu.setNew_of_mem (by simp [hmem, hf]), h.sched, hf, Option.getD_some]
    · rw [Function.update_of_ne hv, ← h.sched]
      by_cases hm : (⟨vec, .sched⟩ : EntryKey) ∈ t
      · rw [PerCpu.setNew_of_mem hm]
      · rw [PerCpu.setNew_of_not_mem hm, PerCpu.slot_set_of_ne t _ _ _ (key_ne hv _)]
  · rw [← h.excute]
    by_cases hm : (⟨vec, .sched⟩ : EntryKey) ∈ t
    · rw [PerCpu.setNew_of_mem hm]
    · rw [PerCpu.setNew_of_not_mem hm, PerCpu.slot_set_of_ne t _ _ _ excute_ne_sched]

theorem Shared.entry (h : Shared t l) (c : C) (vec : UInt32) (hts : ts ≠ 0) :
    Shared (t.softirqEntry c vec ts).2 (l.entry c vec ts) := by
  unfold Ledger.entry Entries.softirqEntry
  refine ⟨fun d v => ?_, fun d v => ?_, fun d v r hr => ?_⟩
  · dsimp only
    rw [PerCpu.slot_set_of_ne _ _ _ _ sched_ne_excute]
    by_cases hv : v = vec
    · subst hv
      rw [PerCpu.slot_delete_self, Function.update_self]
      rfl
    · rw [PerCpu.slot_delete_of_ne _ _ (key_ne hv _), Function.update_of_ne hv, h.sched]
  · dsimp only
    by_cases hv : v = vec
    · subst hv
      rw [PerCpu.slot_set_self, PerCpu.slot_delete_of_ne _ _ excute_ne_sched, h.excute]
      by_cases hd : d = c
      · subst hd
        simp
      · rw [Ledger.set_of_ne _ _ (by simp [hd])]
        simp [hd]
    · rw [PerCpu.slot_set_of_ne _ _ _ _ (key_ne hv _), PerCpu.slot_delete_of_ne _ _ excute_ne_sched, h.excute,
        Ledger.set_of_ne _ _ (by simp [hv])]
  · dsimp only at hr
    by_cases hdv : d = c ∧ v = vec
    · obtain ⟨rfl, rfl⟩ := hdv
      rw [Ledger.set_self] at hr
      cases hr
      exact hts
    · rw [Ledger.set_of_ne _ _ hdv] at hr
      exact h.pos d v r hr

theorem Shared.held_iff (h : Shared t l) (c : C) (v : UInt32) :
    (t.slot c ⟨v, .excute⟩).getD 0 = 0 ↔ ¬ (l.held c v).isSome = true := by
  rw [h.excute]
  cases hh : l.held c v with
  | none => simp
  | some r => simpa using h.pos c v r hh

theorem Shared.exit (h : Shared t l) (c : C) (vec : UInt32) (ts : Nat) :
    Shared (t.softirqExit c vec ts).2 (l.exit c vec) := by
  rw [Entries.exit_table]
  by_cases hh : (l.held c vec).isSome = true
  · rw [if_neg fun h0 => (h.held_iff c vec).mp h0 hh]
    unfold Ledger.exit
    refine ⟨fun d v => ?_, fun d v => ?_, fun d v r hr => ?_⟩
    · exact (PerCpu.slot_delete_of_ne _ _ sched_ne_excute).trans (h.sched d v)
    · dsimp only
      by_cases hv : v = vec
      · subst hv
        rw [PerCpu.slot_delete_self, if_pos ⟨rfl, hh⟩]
      · rw [PerCpu.slot_delete_of_ne _ _ (key_ne hv _), if_neg (by simp [hv]), h.excute]
    · dsimp only at hr
      split_ifs at hr
      exact h.pos d v r hr
  · rw [if_pos ((h.held_iff c vec).mpr hh)]
    unfold Ledger.exit
    simp only [hh, and_false, if_false, Bool.false_eq_true]
    exact ⟨h.sched, h.excute, h.pos⟩

theorem Shared.step (h : Shared t l) (hts : e.ts ≠ 0) (bits : UInt32) :
    Shared (t.step bits e).2 (l.step bits e).2 := by
  unfold Entries.step Ledger.step Ledger.record
  split_ifs
  · cases e.point with
    | raise => exact h.raise e.cpu e.vec e.ts
    | entry => exact h.entry e.cpu e.vec hts
    | exit => exact h.exit e.cpu e.vec e.ts
  · exact h

/-! ## A CPU alone -/

structure Own (c : C) (own l : Ledger C) : Prop where
  first : ∀ v, own.first v = (l.raised c v).map fun r => (c, r)
  held : ∀ v, own.held c v = l.entered c v

theorem Own.record_self (h : Own e.cpu own l) : Own e.cpu (own.record e) (l.record e) := by
  unfold Ledger.record
  cases e.point with
  | raise =>
    refine ⟨fun v => ?_, h.held⟩
    dsimp only [Ledger.raise]
    by_cases hv : v = e.vec
    · subst hv
      rw [Function.update_self, Ledger.set_self, h.first]
      cases l.raised e.cpu e.vec <;> rfl
    · rw [Function.update_of_ne hv, Ledger.set_of_ne _ _ (by simp [hv]), h.first]
  | entry =>
    refine ⟨fun v => ?_, fun v => ?_⟩ <;> dsimp only [Ledger.entry]
    · by_cases hv : v = e.vec
      · subst hv
        rw [Function.update_self, Ledger.set_self]
        rfl
      · rw [Function.update_of_ne hv, Ledger.set_of_ne _ _ (by simp [hv]), h.first]
    · by_cases hv : v = e.vec
      · subst hv
        rw [Ledger.set_self, Ledger.set_self]
      · rw [Ledger.set_of_ne _ _ (by simp [hv]), Ledger.set_of_ne _ _ (by simp [hv]), h.held]
  | exit =>
    refine ⟨h.first, fun v => ?_⟩
    dsimp only [Ledger.exit]
    by_cases hv : v = e.vec
    · subst hv
      rw [Ledger.set_self]
      split_ifs with hs
      · rfl
      · simpa using hs
    · rw [Ledger.set_of_ne _ _ (by simp [hv]), if_neg (by simp [hv]), h.held]

theorem Own.record_other (h : Own c own l) (hc : e.cpu ≠ c) : Own c own (l.record e) := by
  have hne : ∀ v, ¬ (c = e.cpu ∧ v = e.vec) := fun v hcv => hc hcv.1.symm
  unfold Ledger.record
  cases e.point with
  | raise =>
    refine ⟨fun v => ?_, h.held⟩
    dsimp only [Ledger.raise]
    rw [Ledger.set_of_ne _ _ (hne v), h.first]
  | entry =>
    refine ⟨fun v => ?_, fun v => ?_⟩ <;> dsimp only [Ledger.entry]
    · rw [Ledger.set_of_ne _ _ (hne v), h.first]
    · rw [Ledger.set_of_ne _ _ (hne v), h.held]
  | exit =>
    refine ⟨h.first, fun v => ?_⟩
    dsimp only [Ledger.exit]
    rw [Ledger.set_of_ne _ _ (hne v), h.held]

theorem Own.run (h : Own c own l) (bits : UInt32) (es : List (Event C)) :
    Own c (exec (Ledger.step bits) own (es.filter (·.cpu = c))).2 (exec (Ledger.step bits) l es).2 := by
  induction es generalizing own l with
  | nil => exact h
  | cons e es ih =>
    by_cases hc : e.cpu = c
    · rw [List.filter_cons_of_pos (by simpa using hc)]
      refine ih ?_
      subst hc
      unfold Ledger.step
      split_ifs
      · exact h.record_self
      · exact h
    · rw [List.filter_cons_of_neg (by simpa using hc)]
      refine ih ?_
      unfold Ledger.step
      split_ifs
      · exact h.record_other hc
      · exact h

/-! ## The order of times -/

/-- What the ledger has is from before `now`; what the map of all CPUs has of a CPU, the CPU
    has itself, from then or from earlier. -/
structure Ordered (l : Ledger C) (now : Nat) : Prop where
  raised : ∀ c v r, l.raised c v = some r → r ≠ 0 ∧ r ≤ now
  first : ∀ c v r, l.first v = some (c, r) → r ≤ now ∧ ∃ r', l.raised c v = some r' ∧ r' ≤ r
  entered : ∀ c v r, l.entered c v = some r → r ≠ 0
  held : ∀ c v r, l.held c v = some r → l.entered c v = some r

omit [DecidableEq C] in
theorem start_ordered : Ordered (Ledger.start : Ledger C) 0 := by
  constructor <;> intro c v r h <;> cases h

omit [DecidableEq C] in
theorem Ordered.mono {later : Nat} (h : Ordered l now) (hle : now ≤ later) : Ordered l later where
  raised c v r hr := ⟨(h.raised c v r hr).1, (h.raised c v r hr).2.trans hle⟩
  first c v r hr := ⟨(h.first c v r hr).1.trans hle, (h.first c v r hr).2⟩
  entered := h.entered
  held := h.held

/-- Setting one CPU's time of one vector: a time found is the new one, or was there. -/
theorem Ledger.eq_some_of_set {f : C → UInt32 → Option Nat} {d : C} {b : Option Nat} {r : Nat}
    (h : set f c v b d w = some r) : (d = c ∧ w = v ∧ b = some r) ∨ f d w = some r := by
  by_cases hdw : d = c ∧ w = v
  · obtain ⟨rfl, rfl⟩ := hdw
    rw [set_self] at h
    exact Or.inl ⟨rfl, rfl, h⟩
  · rw [set_of_ne _ _ hdw] at h
    exact Or.inr h

theorem Ordered.raise (h : Ordered l now) (hts : now < ts) (c : C) (v : UInt32) : Ordered (l.raise c v ts) ts := by
  have hm := h.mono hts.le
  have hnew : ∀ r, (l.raised c v).getD ts = r → r ≠ 0 ∧ r ≤ ts := by
    rintro r rfl
    cases hr : l.raised c v with
    | none => exact ⟨Nat.ne_of_gt (Nat.zero_lt_of_lt hts), le_refl ts⟩
    | some r => exact hm.raised c v r hr
  refine ⟨fun d w r hr => ?_, fun d w r hr => ?_, hm.entered, hm.held⟩
  · rcases Ledger.eq_some_of_set hr with ⟨-, -, hr⟩ | hr
    · exact hnew r (Option.some.inj hr)
    · exact hm.raised d w r hr
  · dsimp only [Ledger.raise] at hr ⊢
    by_cases hw : w = v
    · subst hw
      rw [Function.update_self] at hr
      cases hf : l.first w with
      | none =>
        rw [hf] at hr
        cases hr
        refine ⟨le_refl ts, _, Ledger.set_self _ _ _ _, (hnew _ rfl).2⟩
      | some dr =>
        rw [hf] at hr
        cases hr
        obtain ⟨hle, r', hr', hle'⟩ := hm.first d w r hf
        refine ⟨hle, ?_⟩
        by_cases hd : d = c
        · subst hd
          refine ⟨r', ?_, hle'⟩
          rw [Ledger.set_self, hr', Option.getD_some]
        · exact ⟨r', by rw [Ledger.set_of_ne _ _ (by simp [hd]), hr'], hle'⟩
    · rw [Function.update_of_ne hw] at hr
      obtain ⟨hle, r', hr', hle'⟩ := hm.first d w r hr
      exact ⟨hle, r', by rw [Ledger.set_of_ne _ _ (by simp [hw]), hr'], hle'⟩

theorem Ordered.entry (h : Ordered l now) (hts : now < ts) (c : C) (v : UInt32) : Ordered (l.entry c v ts) ts := by
  have hm := h.mono hts.le
  refine ⟨fun d w r hr => ?_, fun d w r hr => ?_, fun d w r hr => ?_, fun d w r hr => ?_⟩
  · rcases Ledger.eq_some_of_set hr with ⟨-, -, hr⟩ | hr
    · cases hr
    · exact hm.raised d w r hr
  · dsimp only [Ledger.entry] at hr ⊢
    by_cases hw : w = v
    · subst hw
      rw [Function.update_self] at hr
      cases hr
    · rw [Function.update_of_ne hw] at hr
      rw [Ledger.set_of_ne _ _ (by simp [hw])]
      exact hm.first d w r hr
  · rcases Ledger.eq_some_of_set hr with ⟨-, -, hr⟩ | hr
    · cases hr
      exact Nat.ne_of_gt (Nat.zero_lt_of_lt hts)
    · exact hm.entered d w r hr
  · dsimp only [Ledger.entry] at hr ⊢
    by_cases hdw : d = c ∧ w = v
    · obtain ⟨rfl, rfl⟩ := hdw
      rw [Ledger.set_self] at hr ⊢
      exact hr
    · rw [Ledger.set_of_ne _ _ hdw] at hr ⊢
      exact hm.held d w r hr

theorem Ordered.exit (h : Ordered l now) (hts : now < ts) (c : C) (v : UInt32) : Ordered (l.exit c v) ts := by
  have hm := h.mono hts.le
  refine ⟨hm.raised, hm.first, fun d w r hr => ?_, fun d w r hr => ?_⟩
  · rcases Ledger.eq_some_of_set hr with ⟨-, -, hr⟩ | hr
    · cases hr
    · exact hm.entered d w r hr
  · dsimp only [Ledger.exit] at hr ⊢
    split_ifs at hr with hs
    -- the exiting CPU's own time is gone from the map, or it was not there
    have hdw : ¬ (d = c ∧ w = v) := by
      rintro ⟨rfl, rfl⟩
      exact hs ⟨rfl, by simp [hr]⟩
    rw [Ledger.set_of_ne _ _ hdw]
    exact hm.held d w r hr

theorem Ordered.step (h : Ordered l now) (hts : now < e.ts) (bits : UInt32) : Ordered (l.step bits e).2 e.ts := by
  unfold Ledger.step Ledger.record
  split_ifs
  · cases e.point with
    | raise => exact h.raise hts e.cpu e.vec
    | entry => exact h.entry hts e.cpu e.vec
    | exit => exact h.exit hts e.cpu e.vec
  · exact h.mono hts.le

/-! ## One step -/

/-- Among all CPUs, a CPU's slot has a time exactly where the first raise is its own. -/
theorem Shared.slot_eq_iff (h : Shared t l) {r : Nat} (hr : r ≠ 0) :
    t.slot c ⟨v, .sched⟩ = some r ↔ l.first v = some (c, r) := by
  rw [h.sched]
  rcases l.first v with _ | ⟨d, r'⟩
  · simp
  · by_cases hd : c = d
    · simp [hd]
    · simp [hd, Ne.symm hd, Ne.symm hr]

theorem Shared.slot_alone {alone : Entries C} (h : Shared alone own) (ho : Own c own l) :
    alone.slot c ⟨v, .sched⟩ = l.raised c v := by
  rw [h.sched, ho.first, Option.map_map]
  cases l.raised c v <;> simp

/-- The step reports what it would report on the CPU alone exactly where the ledger says so. -/
theorem step_report_iff {alone : Entries C} (bits : UInt32) (ht : Shared t l) (ha : Shared alone own)
    (ho : Own e.cpu own l) (hord : Ordered l now) : (t.step bits e).1 = (alone.step bits e).1 ↔ l.Apart bits e := by
  unfold Entries.step Ledger.Apart
  cases hf : filterIrqs bits e.vec with
  | false => simp
  | true =>
    simp only [if_true, true_imp_iff]
    cases e.point with
    | raise => simp [Entries.softirqRaise]
    | entry =>
      show report _ _ _ _ = report _ _ _ _ ↔ _
      rw [ha.slot_alone ho, report_eq_iff]
      · constructor
        · intro h r hr hlt
          have h0 := (hord.raised _ _ r hr).1
          exact (ht.slot_eq_iff h0).mp (h r ⟨hr, h0, hlt⟩)
        · intro h r ⟨hr, h0, hlt⟩
          exact (ht.slot_eq_iff h0).mpr (h r hr hlt)
      · intro r ⟨hr, h0, hlt⟩
        obtain ⟨-, r', hr', hle⟩ := hord.first _ _ r ((ht.slot_eq_iff h0).mp hr)
        exact ⟨r', hr', (hord.raised _ _ r' hr').1, by omega⟩
    | exit =>
      show (t.softirqExit _ _ _).1 = (alone.softirqExit _ _ _).1 ↔ _
      rw [Entries.exit_report, Entries.exit_report, report_getD, report_getD (alone.slot _ _), ht.excute, ha.excute,
        ho.held, ← report_getD, ← report_getD, report_eq_iff]
      · constructor
        · exact fun h r hr hlt => h r ⟨hr, hord.entered _ _ r hr, hlt⟩
        · rintro h r ⟨hr, -, hlt⟩
          exact h r hr hlt
      · rintro r ⟨hr, h0, hlt⟩
        exact ⟨r, hord.held _ _ r hr, h0, hlt⟩

/-! ## Runs -/

theorem run_invariants (bits : UInt32) {pre : List (Event C)} (ht : Shared t l) (hord : Ordered l now)
    (hinc : (now :: pre.map (·.ts)).Pairwise (· < ·)) :
    Shared (exec (Entries.step bits) t pre).2 (exec (Ledger.step bits) l pre).2 ∧
      ∃ now', Ordered (exec (Ledger.step bits) l pre).2 now' := by
  induction pre generalizing l t now with
  | nil => exact ⟨ht, now, hord⟩
  | cons f pre ih =>
    obtain ⟨hnow, hrest⟩ := List.pairwise_cons.mp hinc
    have hf : now < f.ts := hnow f.ts (by simp)
    exact ih (ht.step (by omega) bits) (hord.step hf bits) hrest

theorem reports_concat (bits : UInt32) (c : C) (pre : List (Event C)) (e : Event C) :
    reports bits c (pre ++ [e]) =
      reports bits c pre ++
        if e.cpu = c then ((exec (Entries.step bits) ∅ pre).2.step bits e).1.toList else [] := by
  unfold reports
  rw [exec_append, List.zip_append (exec_length _ _).symm, List.filterMap_append]
  congr 1
  split_ifs with hc
  · cases h : ((exec (Entries.step bits) ∅ pre).2.step bits e).1 <;> simp [hc, h]
  · simp [hc]

theorem soloReports_concat (bits : UInt32) (c : C) (pre : List (Event C)) (e : Event C) :
    soloReports bits c (pre ++ [e]) =
      soloReports bits c pre ++
        if e.cpu = c then ((exec (Entries.step bits) ∅ (pre.filter (·.cpu = c))).2.step bits e).1.toList else [] := by
  unfold soloReports
  rw [List.filter_append]
  split_ifs with hc
  · rw [List.filter_cons_of_pos (by simpa using hc), List.filter_nil, exec_append, List.filterMap_append]
    cases h : ((exec (Entries.step bits) ∅ (pre.filter (·.cpu = c))).2.step bits e).1 <;> simp [h]
  · rw [List.filter_cons_of_neg (by simpa using hc), List.filter_nil, List.append_nil, List.append_nil]

theorem toList_inj {a b : Option Report} (h : a.toList = b.toList) : a = b := by
  cases a <;> cases b <;> simp_all

/-- The reports agree all along a run exactly where they agree at each of its steps. -/
theorem reports_eq_iff (bits : UInt32) (es : List (Event C)) :
    (∀ pre, pre <+: es → ∀ c, reports bits c pre = soloReports bits c pre) ↔
      ∀ pre e, pre ++ [e] <+: es →
        ((exec (Entries.step bits) ∅ pre).2.step bits e).1 =
          ((exec (Entries.step bits) ∅ (pre.filter (·.cpu = e.cpu))).2.step bits e).1 := by
  constructor
  · intro h pre e hpre
    have hnow := h (pre ++ [e]) hpre e.cpu
    have hbefore := h pre ((List.prefix_append pre [e]).trans hpre) e.cpu
    rw [reports_concat, soloReports_concat, hbefore, if_pos rfl, if_pos rfl] at hnow
    exact toList_inj (List.append_cancel_left hnow)
  · intro h pre
    induction pre using List.reverseRecOn with
    | nil => exact fun _ c => rfl
    | append_singleton pre e ih =>
      intro hpre c
      have hbefore := ih ((List.prefix_append pre [e]).trans hpre) c
      rw [reports_concat, soloReports_concat, hbefore]
      split_ifs with hc
      · subst hc
        rw [h pre e hpre]
      · rfl

/-- For every interleaving of the CPUs' events: each CPU's programs have at every point
    reported what they would have reported alone, exactly where at each delay over the threshold
    the CPU's own beginning is the one the shared map has. -/
theorem cpus_apart_iff (bits : UInt32) (es : List (Event C)) (hinc : Increasing es) :
    (∀ pre, pre <+: es → ∀ c, reports bits c pre = soloReports bits c pre) ↔
      along (Ledger.step bits) (Ledger.Apart bits) .start es := by
  rw [reports_eq_iff, along_iff_beginnings]
  refine forall_congr' fun pre => forall_congr' fun e => imp_congr_right fun hpre => ?_
  have hsub : List.Sublist pre es := ((List.prefix_append pre [e]).trans hpre).sublist
  have hstart : Shared (∅ : Entries C) .start :=
    ⟨fun _ _ => rfl, fun _ _ => rfl, fun _ _ _ h => by cases h⟩
  have hpreinc : (0 :: pre.map (·.ts)).Pairwise (· < ·) := hinc.sublist ((hsub.map _).cons_cons 0)
  obtain ⟨hshared, now, hord⟩ := run_invariants bits hstart start_ordered hpreinc
  have hsoloinc : (0 :: (pre.filter (·.cpu = e.cpu)).map (·.ts)).Pairwise (· < ·) :=
    hpreinc.sublist ((List.filter_sublist.map _).cons_cons 0)
  obtain ⟨halone, -⟩ := run_invariants bits hstart start_ordered hsoloinc
  have hown : Own e.cpu (Ledger.start : Ledger C) .start := ⟨fun _ => rfl, fun _ => rfl⟩
  exact step_report_iff bits hshared halone (hown.run bits pre) hord

end Model

def netRx : UInt32 := 3

def netRxBits : UInt32 := 0x8

/-- Two CPUs, the second raised after the first has entered. -/
def inTurn : List (Event Bool) :=
  [⟨false, .raise, netRx, 1000⟩, ⟨false, .entry, netRx, 20001000⟩, ⟨true, .raise, netRx, 20002000⟩,
    ⟨false, .exit, netRx, 20003000⟩, ⟨true, .entry, netRx, 40002000⟩]

theorem cpus_apart_inTurn :
    Increasing inTurn ∧ reports netRxBits true inTurn = [⟨.sched, netRx, 20000000⟩] ∧
      ∀ pre, pre <+: inTurn → ∀ c, reports netRxBits c pre = soloReports netRxBits c pre := by
  have hinc : Increasing inTurn := by
    unfold Increasing
    decide
  refine ⟨hinc, by decide, (cpus_apart_iff netRxBits inTurn hinc).mpr ?_⟩
  refine ⟨?_, ?_, ?_, ?_, ?_, trivial⟩
  · exact fun _ => trivial
  · intro _ r hr _
    cases hr
    rfl
  · exact fun _ => trivial
  · intro _ r hr _
    cases hr
    rfl
  · intro _ r hr _
    cases hr
    rfl

/-- Two CPUs, the second raised while the first still is. -/
def atOnce : List (Event Bool) :=
  [⟨false, .raise, netRx, 1000⟩, ⟨true, .raise, netRx, 2000⟩, ⟨false, .entry, netRx, 3000⟩,
    ⟨true, .entry, netRx, 20002000⟩]

theorem a_raise_is_lost_to_another_cpu :
    Increasing atOnce ∧ reports netRxBits true atOnce = [] ∧
      soloReports netRxBits true atOnce = [⟨.sched, netRx, 20000000⟩] := by
  unfold Increasing
  decide

end EliteTelemetry.Probes.Softirq
