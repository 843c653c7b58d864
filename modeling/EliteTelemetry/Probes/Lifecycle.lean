/-
  EliteTelemetry.Probes.Lifecycle — BPF objects that two probes share (`softirqProbe`,
  `socketLatencyProbe` and `packetLossProbe`).

  A metrics probe and an event probe start and stop one object, which loads and attaches its
  programs and opens a perf reader for the first of them. Every call holds the object's mutex, so
  a history of an object is a sequence of calls. The first two objects count their users, and the
  softirq object loads again when the vectors it is to trace have changed; the packet loss object
  keeps one configuration for each user, and loads again with each.

  All three write the count or the configuration down before they load, and none takes it back
  when loading fails. The next start of a counted object then finds a user and does not load; the
  packet loss object refuses every further start of that probe, and has detached the programs of
  the other one. A failed start leaves no trace, and a started probe is served, exactly in the
  histories where no start that comes to loading fails (`failed_start_traceless_iff`).
-/

import EliteTelemetry.Lib.Machine
import Mathlib.Logic.Basic

namespace EliteTelemetry.Probes.Lifecycle

open EliteTelemetry.Lib.Machine

inductive ProbeType where
  | metrics
  | event
  deriving DecidableEq, Repr

def ProbeType.name : ProbeType → String
  | .metrics => "metrics"
  | .event => "event"

abbrev Slots (γ : Type) := ProbeType → γ

def Slots.set {γ : Type} (a : Slots γ) (t : ProbeType) (x : γ) : Slots γ := fun u => if u = t then x else a u

@[simp] theorem Slots.set_self {γ : Type} (a : Slots γ) (t : ProbeType) (x : γ) : a.set t x t = x := by
  simp [Slots.set]

theorem Slots.set_of_ne {γ : Type} (a : Slots γ) {t u : ProbeType} (x : γ) (h : u ≠ t) : a.set t x u = a u := by
  simp [Slots.set, h]

/-! ## What is loaded -/

inductive Reader where
  | none
  | opened
  | closed
  deriving DecidableEq, Repr

def Reader.close : Reader → Reader
  | .none => .none
  | .opened => .closed
  | .closed => .closed

structure Loaded where
  attached : Bool
  perfReader : Reader
  deriving DecidableEq, Repr

structure Outcome where
  loadErr : Option String
  readerErr : Option String
  deriving DecidableEq, Repr

def Outcome.Ok (o : Outcome) : Prop := o.loadErr = none ∧ o.readerErr = none

instance (o : Outcome) : Decidable o.Ok := inferInstanceAs (Decidable (_ ∧ _))

namespace Loaded

def nothing : Loaded := ⟨false, .none⟩

def Serving (l : Loaded) : Prop := l.attached = true ∧ l.perfReader = .opened

instance (l : Loaded) : Decidable l.Serving := inferInstanceAs (Decidable (_ ∧ _))

def cleanup (l : Loaded) : Loaded := ⟨false, l.perfReader.close⟩

end Loaded

/-! ## A history with what was promised in it -/

inductive Call where
  | start (t : ProbeType)
  | stop (t : ProbeType)
  /-- A creator writes its probe's configuration into the object. -/
  | create
  deriving DecidableEq, Repr

structure Watched (σ : Type) where
  object : σ
  up : Slots Bool

def note (up : Slots Bool) : Call → Option String → Slots Bool
  | .start t, none => up.set t true
  | .start _, some _ => up
  | .stop t, _ => up.set t false
  | .create, _ => up

section History

variable {σ ε γ : Type} (step : σ → ε → Option String × σ) (call : ε → Call)

def watch (w : Watched σ) (e : ε) : Option String × Watched σ :=
  ((step w.object e).1, ⟨(step w.object e).2, note w.up (call e) (step w.object e).1⟩)

/-- A start that returns an error leaves the users it had written down. -/
def Traceless (users : σ → γ) (w : Watched σ) (e : ε) : Prop :=
  ∀ t, call e = .start t → (step w.object e).1 ≠ none → users (step w.object e).2 = users w.object

/-- Every started probe has its programs attached and its reader open. -/
def Served (loaded : σ → Loaded) (w : Watched σ) : Prop := ∀ t, w.up t = true → (loaded w.object).Serving

variable (held : σ → ProbeType → Prop) (loaded : σ → Loaded)

/-- The invariant: a started probe is written down, and what is written down is served. -/
structure Sound (w : Watched σ) : Prop where
  noted : ∀ t, w.up t = true → held w.object t
  serving : ∀ t, held w.object t → (loaded w.object).Serving

theorem Sound.served {w : Watched σ} (h : Sound held loaded w) : Served loaded w :=
  fun t ht => h.serving t (h.noted t ht)

structure Handled (s : σ) (c : Call) (err : Option String) (s' : σ) : Prop where
  started : ∀ t, c = .start t → err = none → held s' t
  kept : ∀ t, c ≠ .stop t → held s t → held s' t
  serving : (∀ t, held s t → (loaded s).Serving) → ∀ t, held s' t → (loaded s').Serving

theorem note_up {up : Slots Bool} {c : Call} {err : Option String} {t : ProbeType} (h : note up c err t = true) :
    (c = .start t ∧ err = none) ∨ (c ≠ .stop t ∧ up t = true) := by
  cases c with
  | start u =>
    cases err with
    | none =>
      by_cases htu : t = u
      · exact .inl ⟨by rw [htu], rfl⟩
      · exact .inr ⟨by simp, by simpa [note, Slots.set, htu] using h⟩
    | some e => exact .inr ⟨by simp, h⟩
  | stop u =>
    by_cases htu : t = u
    · simp [note, Slots.set, htu] at h
    · exact .inr ⟨fun hc => htu (Call.stop.inj hc).symm, by simpa [note, Slots.set, htu] using h⟩
  | create => exact .inr ⟨by simp, h⟩

variable {held loaded}

theorem watch_sound {w : Watched σ} {e : ε} (hw : Sound held loaded w)
    (h : Handled held loaded w.object (call e) (step w.object e).1 (step w.object e).2) :
    Sound held loaded (watch step call w e).2 := by
  refine ⟨fun t ht => ?_, fun t ht => h.serving hw.serving t ht⟩
  rcases note_up ht with ⟨hc, he⟩ | ⟨hc, hup⟩
  · exact h.started t hc he
  · exact h.kept t hc (hw.noted t hup)

/-- Histories of an object whose failed starts leave a trace exactly where `Good` is not met,
    and which handles the calls that meet it. -/
theorem traceless_served_iff {users : σ → γ} {Good : σ → ε → Prop}
    (htrace : ∀ w e, Traceless step call users w e ↔ Good w.object e)
    (hgood : ∀ s e, Good s e → Handled held loaded s (call e) (step s e).1 (step s e).2) {w : Watched σ}
    (hw : Sound held loaded w) (es : List ε) :
    (along (watch step call) (Traceless step call users) w es ∧ always (watch step call) (Served loaded) w es) ↔
      along (watch step call) (fun w e => Good w.object e) w es := by
  have hkeep : ∀ w e, Sound held loaded w → Good w.object e → Sound held loaded (watch step call w e).2 :=
    fun w e hw hg => watch_sound step call hw (hgood w.object e hg)
  have htr : along (watch step call) (Traceless step call users) w es ↔
      along (watch step call) (fun w e => Good w.object e) w es :=
    along_iff_along hkeep (fun w e _ => htrace w e) hw es
  exact ⟨fun h => htr.mp h.1, fun h => ⟨htr.mpr h, always_of_along (fun w hw => hw.served) hkeep hw h⟩⟩

end History

/-! ## Counted objects -/

structure Counted where
  refcnt : Slots Nat
  loaded : Loaded

namespace Counted

def new : Counted := ⟨fun _ => 0, .nothing⟩

def totalReferenceCount (p : Counted) : Nat := p.refcnt .metrics + p.refcnt .event

def cleanup (p : Counted) : Counted := { p with loaded := p.loaded.cleanup }

def stop (p : Counted) (t : ProbeType) : Option String × Counted :=
  if p.refcnt t = 0 then (some ("probe " ++ t.name ++ " never start"), p)
  else
    let p' : Counted := { p with refcnt := p.refcnt.set t (p.refcnt t - 1) }
    if p'.totalReferenceCount = 0 then (none, p'.cleanup) else (none, p')

/-- The load at the end of `start`; `wrap` is what the error of `loadAndAttachBPF` is
    returned as. A reader that cannot be created leaves the programs attached. -/
def load (wrap : String → String) (p : Counted) (o : Outcome) : Option String × Counted :=
  match o.loadErr with
  | some err => (some (wrap err), p.cleanup)
  | none =>
    match o.readerErr with
    | some err => (some err, { p with loaded := ⟨true, .none⟩ })
    | none => (none, { p with loaded := ⟨true, .opened⟩ })

def acquire (p : Counted) (t : ProbeType) : Counted := { p with refcnt := p.refcnt.set t (p.refcnt t + 1) }

/-- `start`, which loads for the first user, and again where it finds `stale` programs. -/
def start (wrap : String → String) (stale : Bool) (p : Counted) (t : ProbeType) (o : Outcome) :
    Option String × Counted :=
  let p := p.acquire t
  if p.totalReferenceCount = 1 then p.load wrap o
  else if stale then p.cleanup.load wrap o
  else (none, p)

def Loads (p : Counted) (stale : Bool) : Prop := p.totalReferenceCount = 0 ∨ stale = true

def Holds (p : Counted) (t : ProbeType) : Prop := p.refcnt t ≠ 0

theorem totalReferenceCount_eq_zero (p : Counted) : p.totalReferenceCount = 0 ↔ ∀ t, p.refcnt t = 0 := by
  refine ⟨fun h t => ?_, fun h => by simp [totalReferenceCount, h]⟩
  unfold totalReferenceCount at h
  cases t <;> omega

theorem acquire_total (p : Counted) (t : ProbeType) :
    (p.acquire t).totalReferenceCount = p.totalReferenceCount + 1 := by
  cases t <;> simp [acquire, totalReferenceCount, Slots.set] <;> omega

theorem acquire_refcnt_ne (p : Counted) (t : ProbeType) : (p.acquire t).refcnt ≠ p.refcnt := by
  intro h
  have ht := congrFun h t
  simp [acquire] at ht

theorem acquire_holds (p : Counted) (t u : ProbeType) : (p.acquire t).Holds u ↔ u = t ∨ p.Holds u := by
  by_cases h : u = t <;> simp [acquire, Holds, Slots.set, h]

theorem load_refcnt (wrap : String → String) (p : Counted) (o : Outcome) : (p.load wrap o).2.refcnt = p.refcnt := by
  unfold load
  split
  · rfl
  · split <;> rfl

theorem load_err (wrap : String → String) (p : Counted) (o : Outcome) : (p.load wrap o).1 = none ↔ o.Ok := by
  unfold load Outcome.Ok
  split
  · simp [*]
  · split <;> simp [*]

theorem load_serving (wrap : String → String) (p : Counted) {o : Outcome} (h : o.Ok) :
    (p.load wrap o).2.loaded.Serving := by
  simp [load, h.1, h.2, Loaded.Serving]

section Start

variable (wrap : String → String) (stale : Bool) (p : Counted) (t : ProbeType) (o : Outcome)

theorem start_refcnt : (start wrap stale p t o).2.refcnt = (p.acquire t).refcnt := by
  unfold start
  simp only
  split
  · exact load_refcnt wrap _ o
  · split
    · exact load_refcnt wrap _ o
    · rfl

theorem start_err : (start wrap stale p t o).1 = none ↔ (p.Loads stale → o.Ok) := by
  have htotal : (p.acquire t).totalReferenceCount = 1 ↔ p.totalReferenceCount = 0 := by rw [acquire_total]; omega
  unfold start Loads
  simp only
  split
  · rename_i h
    simp [load_err, htotal.mp h]
  · rename_i h
    cases stale <;> simp [load_err, mt htotal.mpr h]

/-- The count is not taken back, so a start is without trace only where it returns nil. -/
theorem start_traceless :
    ((start wrap stale p t o).1 ≠ none → (start wrap stale p t o).2.refcnt = p.refcnt) ↔ (p.Loads stale → o.Ok) := by
  rw [start_refcnt, ← start_err wrap stale p t o]
  exact ⟨fun h => by_contra fun he => acquire_refcnt_ne p t (h he), fun h he => absurd h he⟩

theorem start_serving (h : p.Loads stale → o.Ok) (hs : ∀ u, p.Holds u → p.loaded.Serving) :
    (start wrap stale p t o).2.loaded.Serving := by
  unfold start
  simp only
  split
  · rename_i htotal
    rw [acquire_total] at htotal
    exact load_serving wrap _ (h (.inl (by omega)))
  · rename_i htotal
    split
    · rename_i hstale
      exact load_serving wrap _ (h (.inr hstale))
    · -- Nothing is loaded, so someone else uses the object.
      rw [acquire_total] at htotal
      have hne : ¬ ∀ u, p.refcnt u = 0 := fun hz => htotal (by rw [(totalReferenceCount_eq_zero p).mpr hz])
      obtain ⟨u, hu⟩ := not_forall.mp hne
      exact hs u hu

theorem start_handled (h : p.Loads stale → o.Ok) :
    Handled Holds loaded p (.start t) (start wrap stale p t o).1 (start wrap stale p t o).2 := by
  have hheld : ∀ u, (start wrap stale p t o).2.Holds u ↔ u = t ∨ p.Holds u := by
    intro u
    rw [← acquire_holds]
    simp only [Holds, start_refcnt]
  refine ⟨fun u hu _ => ?_, fun u _ hu => (hheld u).mpr (.inr hu), fun hs u _ => start_serving wrap stale p t o h hs⟩
  cases hu
  exact (hheld t).mpr (.inl rfl)

theorem stop_handled : Handled Holds loaded p (.stop t) (p.stop t).1 (p.stop t).2 := by
  refine ⟨fun u hu => (by cases hu), fun u hu hheld => ?_, fun hs u hu => ?_⟩
  · have hut : u ≠ t := fun he => hu (by rw [he])
    unfold stop
    split
    · exact hheld
    · simp only
      split <;> simpa [Holds, cleanup, Slots.set_of_ne _ _ hut] using hheld
  · unfold stop at hu ⊢
    split
    · rename_i hz
      rw [if_pos hz] at hu
      exact hs u hu
    · rename_i hz
      rw [if_neg hz] at hu
      simp only at hu ⊢
      split
      · rename_i htotal
        rw [if_pos htotal] at hu
        exact absurd ((totalReferenceCount_eq_zero _).mp htotal u) hu
      · exact hs t hz

end Start

end Counted

/-! ### Socket latency -/

namespace SocketLatency

inductive Event where
  | start (t : ProbeType) (o : Outcome)
  | stop (t : ProbeType)
  deriving DecidableEq, Repr

def Event.call : Event → Call
  | .start t _ => .start t
  | .stop t => .stop t

def start (p : Counted) (t : ProbeType) (o : Outcome) : Option String × Counted := p.start id false t o

def step (p : Counted) : Event → Option String × Counted
  | .start t o => start p t o
  | .stop t => p.stop t

def Loading (p : Counted) : Event → Prop
  | .start _ o => p.totalReferenceCount = 0 → o.Ok
  | .stop _ => True

theorem loads_iff (p : Counted) : p.Loads false ↔ p.totalReferenceCount = 0 := by simp [Counted.Loads]

theorem traceless_iff (w : Watched Counted) (e : Event) :
    Traceless step Event.call Counted.refcnt w e ↔ Loading w.object e := by
  cases e with
  | start t o =>
    have h := Counted.start_traceless id false w.object t o
    rw [loads_iff] at h
    exact ⟨fun htr => h.mp (htr t rfl), fun hl _ _ => h.mpr hl⟩
  | stop t => exact ⟨fun _ => trivial, fun _ _ hc => (by cases hc)⟩

theorem step_handled (p : Counted) (e : Event) (h : Loading p e) :
    Handled Counted.Holds Counted.loaded p e.call (step p e).1 (step p e).2 := by
  cases e with
  | start t o => exact Counted.start_handled id false p t o (fun hl => h ((loads_iff p).mp hl))
  | stop t => exact Counted.stop_handled p t

end SocketLatency

/-! ### Softirq -/

/-- `softirqProbe`: the vectors each probe is to trace, as bits, and those the loaded
    programs trace. -/
structure Softirq where
  counted : Counted
  metricsProbeIrqTypes : UInt32
  eventProbeIrqTypes : UInt32
  ebpfProbeIrqType : UInt32

namespace Softirq

inductive Event where
  /-- `metricsProbeCreator` or `eventProbeCreator`, with the bits of its argument. -/
  | create (t : ProbeType) (bits : UInt32)
  | start (t : ProbeType) (o : Outcome)
  | stop (t : ProbeType)
  deriving DecidableEq, Repr

def Event.call : Event → Call
  | .create _ _ => .create
  | .start t _ => .start t
  | .stop t => .stop t

def new : Softirq := ⟨.new, 0, 0, 0⟩

def wanted (p : Softirq) : UInt32 := p.metricsProbeIrqTypes ||| p.eventProbeIrqTypes

def stale (p : Softirq) : Bool := p.ebpfProbeIrqType != p.wanted

def create (p : Softirq) : ProbeType → UInt32 → Softirq
  | .metrics, bits => { p with metricsProbeIrqTypes := bits }
  | .event, bits => { p with eventProbeIrqTypes := bits }

def start (p : Softirq) (t : ProbeType) (o : Outcome) : Option String × Softirq :=
  let r := p.counted.start (fun err => "softirq failed load bpf: " ++ err) p.stale t o
  let needLoad := (p.counted.acquire t).totalReferenceCount == 1 || p.stale
  (r.1, { p with counted := r.2, ebpfProbeIrqType := if needLoad then p.wanted else p.ebpfProbeIrqType })

def step (p : Softirq) : Event → Option String × Softirq
  | .create t bits => (none, p.create t bits)
  | .start t o => p.start t o
  | .stop t => ((p.counted.stop t).1, { p with counted := (p.counted.stop t).2 })

def Loading (p : Softirq) : Event → Prop
  | .start _ o => p.counted.totalReferenceCount = 0 ∨ p.ebpfProbeIrqType ≠ p.wanted → o.Ok
  | .create _ _ => True
  | .stop _ => True

def users (p : Softirq) : Slots Nat := p.counted.refcnt

def Holds (p : Softirq) : ProbeType → Prop := p.counted.Holds

def loaded (p : Softirq) : Loaded := p.counted.loaded

theorem loads_iff (p : Softirq) :
    p.counted.Loads p.stale ↔ p.counted.totalReferenceCount = 0 ∨ p.ebpfProbeIrqType ≠ p.wanted := by
  simp [Counted.Loads, stale]

theorem create_counted (p : Softirq) (t : ProbeType) (bits : UInt32) : (p.create t bits).counted = p.counted := by
  cases t <;> rfl

theorem traceless_iff (w : Watched Softirq) (e : Event) :
    Traceless step Event.call users w e ↔ Loading w.object e := by
  cases e with
  | create t bits => exact ⟨fun _ => trivial, fun _ _ hc => (by cases hc)⟩
  | start t o =>
    have h := Counted.start_traceless (fun err => "softirq failed load bpf: " ++ err) w.object.stale
      w.object.counted t o
    rw [loads_iff] at h
    exact ⟨fun htr => h.mp (htr t rfl), fun hl _ _ => h.mpr hl⟩
  | stop t => exact ⟨fun _ => trivial, fun _ _ hc => (by cases hc)⟩

theorem handled_of_counted {p p' : Softirq} {c : Call} {err : Option String}
    (h : Handled Counted.Holds Counted.loaded p.counted c err p'.counted) : Handled Holds loaded p c err p' :=
  ⟨h.started, h.kept, h.serving⟩

theorem step_handled (p : Softirq) (e : Event) (h : Loading p e) :
    Handled Holds loaded p e.call (step p e).1 (step p e).2 := by
  cases e with
  | create t bits =>
    refine ⟨fun u hu => (by cases hu), fun u _ hu => ?_, fun hs u hu => ?_⟩
    · simpa [Holds, step, create_counted] using hu
    · simpa [loaded, step, create_counted] using hs u (by simpa [Holds, step, create_counted] using hu)
  | start t o => exact handled_of_counted (Counted.start_handled _ p.stale p.counted t o (fun hl => h ((loads_iff p).mp hl)))
  | stop t => exact handled_of_counted (Counted.stop_handled p.counted t)

end Softirq

/-! ## Packet loss -/

structure ProbeConfig where
  enableStack : Bool
  deriving DecidableEq, Repr

structure PacketLoss where
  probeConfig : Slots (Option ProbeConfig)
  loaded : Loaded

namespace PacketLoss

inductive Event where
  | start (t : ProbeType) (cfg : ProbeConfig) (o : Outcome)
  | stop (t : ProbeType)
  deriving DecidableEq, Repr

def Event.call : Event → Call
  | .start t _ _ => .start t
  | .stop t => .stop t

def new : PacketLoss := ⟨fun _ => none, .nothing⟩

def probeCount (p : PacketLoss) : Nat :=
  (p.probeConfig .metrics).isSome.toNat + (p.probeConfig .event).isSome.toNat

def cleanup (p : PacketLoss) : PacketLoss := { p with loaded := .nothing }

def stop (p : PacketLoss) (t : ProbeType) : Option String × PacketLoss :=
  if p.probeConfig t = none then (some ("probe " ++ t.name ++ " never start"), p)
  else
    let p' : PacketLoss := { p with probeConfig := p.probeConfig.set t none }
    if p'.probeCount = 0 then (none, p'.cleanup) else (none, p')

def reinstallBPFLocked (p : PacketLoss) (o : Outcome) : Option String × PacketLoss :=
  let p := p.cleanup
  match o.loadErr with
  | some err => (some ("packetloss failed load and attach bpf, err: " ++ err), p.cleanup)
  | none =>
    match o.readerErr with
    | some err => (some ("packetloss error create perf reader, err: " ++ err), p.cleanup)
    | none => (none, { p with loaded := ⟨true, .opened⟩ })

def start (p : PacketLoss) (t : ProbeType) (cfg : ProbeConfig) (o : Outcome) : Option String × PacketLoss :=
  if p.probeConfig t ≠ none then (some ("packetloss(" ++ t.name ++ ") has already started"), p)
  else
    let r := reinstallBPFLocked { p with probeConfig := p.probeConfig.set t (some cfg) } o
    (r.1.map fun err => "packetloss failed install ebpf: " ++ err, r.2)

def step (p : PacketLoss) : Event → Option String × PacketLoss
  | .start t cfg o => p.start t cfg o
  | .stop t => p.stop t

def Loading (p : PacketLoss) : Event → Prop
  | .start t _ o => p.probeConfig t = none → o.Ok
  | .stop _ => True

def Holds (p : PacketLoss) (t : ProbeType) : Prop := p.probeConfig t ≠ none

theorem probeCount_eq_zero (p : PacketLoss) : p.probeCount = 0 ↔ ∀ t, p.probeConfig t = none := by
  refine ⟨fun h t => ?_, fun h => by simp [probeCount, h]⟩
  simp only [probeCount, Nat.add_eq_zero_iff, Bool.toNat_eq_zero, Option.isSome_eq_false_iff, Option.isNone_iff_eq_none] at h
  cases t
  · exact h.1
  · exact h.2

theorem reinstall_probeConfig (p : PacketLoss) (o : Outcome) :
    (p.reinstallBPFLocked o).2.probeConfig = p.probeConfig := by
  unfold reinstallBPFLocked
  simp only
  split
  · rfl
  · split <;> rfl

theorem reinstall_err (p : PacketLoss) (o : Outcome) : (p.reinstallBPFLocked o).1 = none ↔ o.Ok := by
  unfold reinstallBPFLocked Outcome.Ok
  simp only
  split
  · simp [*]
  · split <;> simp [*]

theorem reinstall_serving (p : PacketLoss) {o : Outcome} (h : o.Ok) : (p.reinstallBPFLocked o).2.loaded.Serving := by
  simp [reinstallBPFLocked, h.1, h.2, Loaded.Serving]

theorem start_of_free {p : PacketLoss} {t : ProbeType} (h : p.probeConfig t = none) (cfg : ProbeConfig) (o : Outcome) :
    ((p.start t cfg o).1 = none ↔ o.Ok) ∧ (p.start t cfg o).2.probeConfig = p.probeConfig.set t (some cfg) ∧
      (o.Ok → (p.start t cfg o).2.loaded.Serving) := by
  unfold start
  rw [if_neg (by simp [h])]
  refine ⟨?_, reinstall_probeConfig _ o, reinstall_serving _⟩
  simp [reinstall_err]

theorem start_of_taken {p : PacketLoss} {t : ProbeType} (h : p.probeConfig t ≠ none) (cfg : ProbeConfig) (o : Outcome) :
    p.start t cfg o = (some ("packetloss(" ++ t.name ++ ") has already started"), p) := by
  unfold start
  rw [if_pos h]

theorem traceless_iff (w : Watched PacketLoss) (e : Event) :
    Traceless step Event.call probeConfig w e ↔ Loading w.object e := by
  cases e with
  | start t cfg o =>
    by_cases ht : w.object.probeConfig t = none
    · obtain ⟨herr, hcfg, -⟩ := start_of_free ht cfg o
      refine ⟨fun h _ => herr.mp (by_contra fun he => ?_), fun h u _ he => absurd (herr.mpr (h ht)) he⟩
      -- The slot that was free has the configuration in it.
      have hsame : (w.object.start t cfg o).2.probeConfig = w.object.probeConfig := h t rfl he
      rw [hcfg] at hsame
      have := congrFun hsame t
      rw [Slots.set_self, ht] at this
      cases this
    · refine ⟨fun _ hn => absurd hn ht, fun _ u _ _ => ?_⟩
      simp only [step, start_of_taken ht]
  | stop t => exact ⟨fun _ => trivial, fun _ _ hc => (by cases hc)⟩

theorem start_handled (p : PacketLoss) (t : ProbeType) (cfg : ProbeConfig) (o : Outcome)
    (h : p.probeConfig t = none → o.Ok) :
    Handled Holds loaded p (.start t) (p.start t cfg o).1 (p.start t cfg o).2 := by
  by_cases ht : p.probeConfig t = none
  · obtain ⟨-, hcfg, hserving⟩ := start_of_free ht cfg o
    refine ⟨fun u hu _ => ?_, fun u _ hu => ?_, fun _ u _ => hserving (h ht)⟩
    · cases hu
      simp [Holds, hcfg]
    · by_cases hut : u = t
      · exact absurd (hut ▸ ht) hu
      · simpa [Holds, hcfg, Slots.set_of_ne _ _ hut] using hu
  · rw [start_of_taken ht]
    exact ⟨fun u _ he => (by cases he), fun u _ hu => hu, fun hs => hs⟩

theorem stop_handled (p : PacketLoss) (t : ProbeType) : Handled Holds loaded p (.stop t) (p.stop t).1 (p.stop t).2 := by
  refine ⟨fun u hu => (by cases hu), fun u hu hheld => ?_, fun hs u hu => ?_⟩
  · have hut : u ≠ t := fun he => hu (by rw [he])
    unfold stop
    split
    · exact hheld
    · simp only
      split <;> simpa [Holds, cleanup, Slots.set_of_ne _ _ hut] using hheld
  · unfold stop at hu ⊢
    split
    · rename_i hz
      rw [if_pos hz] at hu
      exact hs u hu
    · rename_i hz
      rw [if_neg hz] at hu
      simp only at hu ⊢
      split
      · rename_i hcount
        rw [if_pos hcount] at hu
        exact absurd ((probeCount_eq_zero _).mp hcount u) hu
      · exact hs t hz

theorem step_handled (p : PacketLoss) (e : Event) (h : Loading p e) :
    Handled Holds loaded p e.call (step p e).1 (step p e).2 := by
  cases e with
  | start t cfg o => exact start_handled p t cfg o h
  | stop t => exact stop_handled p t

end PacketLoss

/-! ## All three -/

def fresh {σ : Type} (s : σ) : Watched σ := ⟨s, fun _ => false⟩

theorem fresh_sound {σ : Type} {held : σ → ProbeType → Prop} {loaded : σ → Loaded} {s : σ} (h : ∀ t, ¬ held s t) :
    Sound held loaded (fresh s) :=
  ⟨fun _ ht => (Bool.false_ne_true ht).elim, fun t ht => absurd ht (h t)⟩

/-- For each object: every failed start of a history leaves the users as they were, and a
    started probe is served all along, exactly where no start that comes to loading fails. -/
theorem failed_start_traceless_iff (es : List Softirq.Event) (fs : List SocketLatency.Event)
    (gs : List PacketLoss.Event) :
    ((along (watch Softirq.step Softirq.Event.call)
          (Traceless Softirq.step Softirq.Event.call Softirq.users) (fresh .new) es ∧
        always (watch Softirq.step Softirq.Event.call) (Served Softirq.loaded) (fresh .new) es) ↔
      along (watch Softirq.step Softirq.Event.call) (fun w e => Softirq.Loading w.object e) (fresh .new) es) ∧
    ((along (watch SocketLatency.step SocketLatency.Event.call)
          (Traceless SocketLatency.step SocketLatency.Event.call Counted.refcnt) (fresh .new) fs ∧
        always (watch SocketLatency.step SocketLatency.Event.call) (Served Counted.loaded) (fresh .new) fs) ↔
      along (watch SocketLatency.step SocketLatency.Event.call)
        (fun w e => SocketLatency.Loading w.object e) (fresh .new) fs) ∧
    ((along (watch PacketLoss.step PacketLoss.Event.call)
          (Traceless PacketLoss.step PacketLoss.Event.call PacketLoss.probeConfig) (fresh .new) gs ∧
        always (watch PacketLoss.step PacketLoss.Event.call) (Served PacketLoss.loaded) (fresh .new) gs) ↔
      along (watch PacketLoss.step PacketLoss.Event.call)
        (fun w e => PacketLoss.Loading w.object e) (fresh .new) gs) := by
  refine ⟨?_, ?_, ?_⟩
  · exact traceless_served_iff _ _ Softirq.traceless_iff Softirq.step_handled
      (fresh_sound fun t h => h rfl) es
  · exact traceless_served_iff _ _ SocketLatency.traceless_iff SocketLatency.step_handled
      (fresh_sound fun t h => h rfl) fs
  · exact traceless_served_iff _ _ PacketLoss.traceless_iff PacketLoss.step_handled
      (fresh_sound fun t h => h rfl) gs

/-- The load of the first start fails. The second start of the counted objects returns nil
    with nothing loaded; the packet loss object never starts the probe again. -/
theorem second_start_unserved :
    let bad : Outcome := ⟨some "operation not permitted", none⟩
    let good : Outcome := ⟨none, none⟩
    let softirq := exec (watch Softirq.step Softirq.Event.call) (fresh .new)
      [.create .metrics 8, .start .metrics bad, .start .metrics good]
    let socket := exec (watch SocketLatency.step SocketLatency.Event.call) (fresh .new)
      [.start .metrics bad, .start .metrics good]
    let loss := exec (watch PacketLoss.step PacketLoss.Event.call) (fresh .new)
      [.start .event ⟨false⟩ good, .start .metrics ⟨false⟩ bad, .start .metrics ⟨false⟩ good]
    (softirq.1 = [none, some "softirq failed load bpf: operation not permitted", none] ∧
      ¬ Served Softirq.loaded softirq.2) ∧
    (socket.1 = [some "operation not permitted", none] ∧ ¬ Served Counted.loaded socket.2) ∧
    (loss.1 = [none, some ("packetloss failed install ebpf: packetloss failed load and attach bpf, err: " ++
        "operation not permitted"), some "packetloss(metrics) has already started"] ∧
      ¬ Served PacketLoss.loaded loss.2) := by
  refine ⟨⟨by decide, fun h => ?_⟩, ⟨by decide, fun h => ?_⟩, ⟨by decide, fun h => ?_⟩⟩
  · exact absurd (h .metrics (by decide)) (by decide)
  · exact absurd (h .metrics (by decide)) (by decide)
  · exact absurd (h .event (by decide)) (by decide)

end EliteTelemetry.Probes.Lifecycle
