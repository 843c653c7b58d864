/-
  EliteTelemetry.Exporter.Reload — what one `Reload` does to the probes.

  The names of the new configuration fall in two: those whose configuration was recorded
  already and compares equal (`Kept`), and those a probe is created for (`mem_names_toAdd`).
  The names of the recorded one that are not kept are closed (`mem_toClose`).

  `Settled` is what holds between calls. A call that comes to its end records the
  configuration, leaves no probe running outside it and the kept ones as they were
  (`Finished`); one that a stop ends early has closed some probes and recorded nothing
  (`reload_stopError`).
-/

import EliteTelemetry.Exporter.ProbeServer

namespace EliteTelemetry.Exporter

variable {α : Type}

/-! ## The maps of configurations -/

theorem mem_names_putConfig (m : List (ProbeConfig α)) (c : ProbeConfig α) (n : String) :
    n ∈ names (putConfig m c) ↔ n ∈ names m ∨ n = c.name := by
  simp only [names, putConfig, List.map_append, List.mem_append, List.mem_map, List.mem_filter, List.map_cons,
    List.map_nil, List.mem_singleton]
  constructor
  · rintro (⟨d, ⟨hd, _⟩, rfl⟩ | rfl)
    · exact Or.inl ⟨d, hd, rfl⟩
    · exact Or.inr rfl
  · rintro (⟨d, hd, rfl⟩ | rfl)
    · by_cases h : d.name = c.name
      · exact Or.inr h
      · exact Or.inl ⟨d, ⟨hd, by simpa using h⟩, rfl⟩
    · exact Or.inr rfl

theorem nodup_names_putConfig {m : List (ProbeConfig α)} (h : (names m).Nodup) (c : ProbeConfig α) :
    (names (putConfig m c)).Nodup := by
  simp only [names, putConfig, List.map_append, List.map_cons, List.map_nil]
  refine List.nodup_append.mpr ⟨h.sublist (List.filter_sublist.map _), List.nodup_singleton _, ?_⟩
  intro a ha b hb
  obtain ⟨d, hd, rfl⟩ := List.mem_map.mp ha
  rw [List.mem_singleton.mp hb]
  simpa using (List.mem_filter.mp hd).2

theorem foldl_putConfig (configs m : List (ProbeConfig α)) (hm : (names m).Nodup) :
    (names (configs.foldl putConfig m)).Nodup ∧
      ∀ n, n ∈ names (configs.foldl putConfig m) ↔ n ∈ names m ∨ n ∈ names configs := by
  induction configs generalizing m with
  | nil => exact ⟨hm, fun n => by simp [names]⟩
  | cons c cs ih =>
    obtain ⟨hnd, hmem⟩ := ih (putConfig m c) (nodup_names_putConfig hm c)
    refine ⟨hnd, fun n => ?_⟩
    rw [List.foldl_cons, hmem, mem_names_putConfig]
    simp only [names, List.map_cons, List.mem_cons]
    exact or_assoc

theorem nodup_names_toMap (configs : List (ProbeConfig α)) : (names (toMap configs)).Nodup :=
  (foldl_putConfig configs [] List.nodup_nil).1

@[simp] theorem mem_names_toMap (configs : List (ProbeConfig α)) (n : String) :
    n ∈ names (toMap configs) ↔ n ∈ names configs := by
  simpa [toMap, names] using (foldl_putConfig configs [] List.nodup_nil).2 n

variable {p : Probe} {c : ProbeConfig α} {n : String}

theorem lookup_name {configs : List (ProbeConfig α)} (h : lookup configs n = some c) : c.name = n := by
  simpa using List.find?_some h

theorem mem_toMap_of_lookup {configs : List (ProbeConfig α)} (h : lookup configs n = some c) :
    c ∈ toMap configs := List.mem_of_find?_eq_some h

theorem lookup_eq_none (configs : List (ProbeConfig α)) (n : String) : lookup configs n = none ↔ n ∉ names configs := by
  rw [← mem_names_toMap, lookup, List.find?_eq_none]
  simp only [names, List.mem_map, not_exists, not_and, decide_eq_true_eq]

theorem lookup_of_mem {configs : List (ProbeConfig α)} (h : c ∈ toMap configs) : lookup configs c.name = some c := by
  cases hl : lookup configs c.name with
  | none =>
    refine absurd ((mem_names_toMap configs c.name).mp ?_) ((lookup_eq_none configs c.name).mp hl)
    exact List.mem_map.mpr ⟨c, h, rfl⟩
  | some d =>
    have hd := mem_toMap_of_lookup hl
    rw [List.inj_on_of_nodup_map (nodup_names_toMap configs) hd h (lookup_name hl)]

@[simp] theorem mem_ranged (order : String → Nat) (configs : List (ProbeConfig α)) (c : ProbeConfig α) :
    c ∈ ranged order configs ↔ c ∈ toMap configs := List.mem_insertionSort _

theorem nodup_names_ranged (order : String → Nat) (configs : List (ProbeConfig α)) :
    (names (ranged order configs)).Nodup :=
  ((List.perm_insertionSort _ _).map _).nodup_iff.mpr (nodup_names_toMap configs)

/-! ## What changes -/

section Changes

variable [BEq α]

/-- The configuration of `n` was there already, and is equal. -/
def Kept (last config : List (ProbeConfig α)) (n : String) : Prop :=
  ∃ l c, lookup last n = some l ∧ lookup config n = some c ∧ (l == c) = true

theorem Kept.mem_last {last config : List (ProbeConfig α)} (h : Kept last config n) : n ∈ names last := by
  obtain ⟨l, c, hl, -, -⟩ := h
  by_contra hn
  rw [(lookup_eq_none last n).mpr hn] at hl
  cases hl

theorem Kept.mem_config {last config : List (ProbeConfig α)} (h : Kept last config n) : n ∈ names config := by
  obtain ⟨l, c, -, hc, -⟩ := h
  by_contra hn
  rw [(lookup_eq_none config n).mpr hn] at hc
  cases hc

theorem changed_iff {last config : List (ProbeConfig α)} (hc : c ∈ toMap config) :
    (isChanged last c = true ↔ c.name ∈ names last ∧ ¬ Kept last config c.name) ∧
      (isNew last c = true ↔ c.name ∉ names last) := by
  have hlc := lookup_of_mem hc
  refine ⟨?_, by rw [isNew, Option.isNone_iff_eq_none, lookup_eq_none]⟩
  cases hl : lookup last c.name with
  | none =>
    have hn := (lookup_eq_none last c.name).mp hl
    simp [isChanged, hl, hn]
  | some l =>
    have hn : c.name ∈ names last := by
      by_contra hn
      rw [(lookup_eq_none last c.name).mpr hn] at hl
      cases hl
    have hk : Kept last config c.name ↔ (l == c) = true := by
      constructor
      · rintro ⟨l', c', hl', hc', he⟩
        rw [hl] at hl'
        rw [hlc] at hc'
        cases hl'
        cases hc'
        exact he
      · exact fun he => ⟨l, c, hl, hlc, he⟩
    simp [isChanged, hl, hn, hk]

theorem mem_names_toAdd (last : List (ProbeConfig α)) (call : Call α) (n : String) :
    n ∈ names (toAdd last call) ↔ n ∈ names call.config ∧ ¬ Kept last call.config n := by
  constructor
  · intro h
    obtain ⟨c, hf, rfl⟩ := List.mem_map.mp h
    obtain ⟨hc, h⟩ := List.mem_filter.mp hf
    rw [mem_ranged] at hc
    rw [Bool.or_eq_true] at h
    refine ⟨(mem_names_toMap _ _).mp (List.mem_map.mpr ⟨c, hc, rfl⟩), fun hk => ?_⟩
    rcases h with h | h
    · exact (changed_iff hc).2.mp h hk.mem_last
    · exact ((changed_iff hc).1.mp h).2 hk
  · rintro ⟨hn, hk⟩
    obtain ⟨c, hc, rfl⟩ := List.mem_map.mp ((mem_names_toMap _ _).mpr hn)
    refine List.mem_map.mpr ⟨c, List.mem_filter.mpr ⟨(mem_ranged _ _ _).mpr hc, ?_⟩, rfl⟩
    rw [Bool.or_eq_true]
    by_cases hl : c.name ∈ names last
    · exact Or.inr ((changed_iff hc).1.mpr ⟨hl, hk⟩)
    · exact Or.inl ((changed_iff hc).2.mpr hl)

theorem nodup_names_toAdd (last : List (ProbeConfig α)) (call : Call α) : (names (toAdd last call)).Nodup :=
  (nodup_names_ranged _ _).sublist (List.filter_sublist.map _)

theorem mem_toClose (last : List (ProbeConfig α)) (call : Call α) (n : String) :
    n ∈ toClose last call ↔ n ∈ names last ∧ ¬ Kept last call.config n := by
  simp only [toClose, List.mem_append, List.mem_filter, Option.isNone_iff_eq_none, lookup_eq_none]
  constructor
  · rintro (⟨hn, hc⟩ | h)
    · obtain ⟨l, hl, rfl⟩ := List.mem_map.mp hn
      rw [mem_ranged] at hl
      exact ⟨(mem_names_toMap _ _).mp (List.mem_map.mpr ⟨l, hl, rfl⟩), fun hk => hc hk.mem_config⟩
    · obtain ⟨c, hc, rfl⟩ := List.mem_map.mp h
      rw [List.mem_filter, mem_ranged] at hc
      exact (changed_iff hc.1).1.mp hc.2
  · rintro ⟨hn, hk⟩
    by_cases hc : n ∈ names call.config
    · obtain ⟨c, hm, rfl⟩ := List.mem_map.mp ((mem_names_toMap _ _).mpr hc)
      exact Or.inr (List.mem_map.mpr ⟨c, List.mem_filter.mpr ⟨(mem_ranged _ _ _).mpr hm,
        (changed_iff hm).1.mpr ⟨hn, hk⟩⟩, rfl⟩)
    · obtain ⟨l, hm, rfl⟩ := List.mem_map.mp ((mem_names_toMap _ _).mpr hn)
      exact Or.inl ⟨List.mem_map.mpr ⟨l, (mem_ranged _ _ _).mpr hm, rfl⟩, hc⟩

end Changes

/-! ## The loops -/

namespace Server

/-- The map's probe of the name is running. -/
def Up (s : Server α) (n : String) : Prop := ∃ p, s.probes n = some p ∧ p.state = .running

/-- A probe sits under its own name, and is not between two states. -/
def Placed (s : Server α) : Prop :=
  ∀ n p, s.probes n = some p → p.name = n ∧ (p.state = .stopped ∨ p.state = .running ∨ p.state = .failed)

/-- Between calls: a probe runs only where the recorded configuration names it, what that
    names has a probe, and what was replaced does not run. -/
structure Settled (s : Server α) : Prop where
  placed : s.Placed
  up : ∀ n, s.Up n → n ∈ names s.lastConfig
  present : ∀ n ∈ names s.lastConfig, ∃ p, s.probes n = some p
  replaced : ∀ p ∈ s.replaced, p.state ≠ .running

theorem newServer_settled (m : Manager) : (newServer m : Server α).Settled where
  placed _ _ h := by cases h
  up _ h := by obtain ⟨p, h, -⟩ := h; cases h
  present _ h := by cases h
  replaced _ h := by cases h

/-! ### Creation -/

theorem createProbes_server (ok : String → Bool) (s : Server α) (cs : List (ProbeConfig α)) :
    ∃ k, (createProbes ok s cs).2 = { s with created := k } := by
  induction cs generalizing s with
  | nil => exact ⟨s.created, rfl⟩
  | cons c cs ih =>
    unfold createProbes
    split
    · obtain ⟨k, hk⟩ := ih { s with created := s.created + 1 }
      exact ⟨k, hk⟩
    · exact ⟨s.created, rfl⟩

theorem createProbes_ok {ok : String → Bool} {s : Server α} {cs : List (ProbeConfig α)} {ps : List Probe}
    (h : (createProbes ok s cs).1 = .ok ps) :
    ps.map (·.name) = names cs ∧ (∀ p ∈ ps, p.state = .stopped) ∧ ∀ n ∈ names cs, ok n = true := by
  induction cs generalizing s ps with
  | nil =>
    cases h
    exact ⟨rfl, by simp, by simp [names]⟩
  | cons c cs ih =>
    unfold createProbes at h
    split at h
    · rename_i hc
      cases hr : (createProbes ok { s with created := s.created + 1 } cs).1 with
      | error n => simp [hr, Except.map] at h
      | ok qs =>
        simp only [hr, Except.map, Except.ok.injEq] at h
        subst h
        obtain ⟨hn, hs, ho⟩ := ih hr
        refine ⟨by simpa [names, Probe.new] using hn, ?_, ?_⟩
        · intro p hp
          rcases List.mem_cons.mp hp with rfl | hp
          · rfl
          · exact hs p hp
        · intro n hn
          rcases List.mem_cons.mp hn with rfl | hn
          · exact hc
          · exact ho n hn
    · cases h

theorem createProbes_error {ok : String → Bool} {s : Server α} {cs : List (ProbeConfig α)}
    (h : (createProbes ok s cs).1 = .error n) : n ∈ names cs ∧ ok n = false := by
  induction cs generalizing s with
  | nil => cases h
  | cons c cs ih =>
    unfold createProbes at h
    split at h
    · cases hr : (createProbes ok { s with created := s.created + 1 } cs).1 with
      | error m =>
        simp only [hr, Except.map, Except.error.injEq] at h
        subst h
        obtain ⟨hn, ho⟩ := ih hr
        exact ⟨List.mem_cons_of_mem _ hn, ho⟩
      | ok qs => simp [hr, Except.map] at h
    · rename_i hc
      cases h
      exact ⟨List.mem_cons_self, by simpa using hc⟩

/-! ### Stops -/

def halted (ok : Bool) (p : Probe) : Probe := { p with state := if ok then .stopped else .failed }

def closed (s : Server α) (p : Probe) : Server α :=
  match s.manager with
  | .events => s.store (halted true p)
  | .metrics => (s.store (halted true p)).unregister p.name

theorem stopProbe_idle (s : Server α) (ok : Bool) (h : p.state = .stopped ∨ p.state = .failed) :
    s.stopProbe p ok = (none, s) := by
  unfold stopProbe
  rw [if_pos]
  rcases h with h | h
  · exact Or.inl h
  · exact Or.inr (Or.inr h)

theorem stopProbe_running (s : Server α) (ok : Bool) (h : p.state = .running) :
    s.stopProbe p ok = if ok then (none, s.closed p) else (some .inner, s.store (halted false p)) := by
  unfold stopProbe Probe.stop closed
  cases ok <;> cases s.manager <;> simp [h, halted]

structure Closes (ok : String → Bool) (s s' : Server α) : Prop where
  lastConfig : s'.lastConfig = s.lastConfig
  manager : s'.manager = s.manager
  replaced : s'.replaced = s.replaced
  panicked : s'.panicked = s.panicked
  probes : ∀ n, s'.probes n = s.probes n ∨
    ∃ p, s.probes n = some p ∧ p.state = .running ∧ s'.probes n = some (halted (ok n) p)

namespace Closes

variable {ok : String → Bool} {s s' s'' : Server α}

theorem refl (s : Server α) : Closes ok s s := ⟨rfl, rfl, rfl, rfl, fun _ => Or.inl rfl⟩

theorem halted_not_running (b : Bool) (p : Probe) : (halted b p).state ≠ .running := by
  cases b <;> simp [halted]

theorem trans (h : Closes ok s s') (h' : Closes ok s' s'') : Closes ok s s'' where
  lastConfig := h'.lastConfig.trans h.lastConfig
  manager := h'.manager.trans h.manager
  replaced := h'.replaced.trans h.replaced
  panicked := h'.panicked.trans h.panicked
  probes n := by
    rcases h'.probes n with e' | ⟨p, hp, hr, e'⟩
    · rw [e']
      exact h.probes n
    · rcases h.probes n with e | ⟨q, -, -, e⟩
      · exact Or.inr ⟨p, e ▸ hp, hr, e'⟩
      · rw [e] at hp
        cases hp
        exact absurd hr (halted_not_running _ _)

theorem of_created {k : Nat} (h : Closes ok { s with created := k } s') : Closes ok s s' :=
  ⟨h.lastConfig, h.manager, h.replaced, h.panicked, h.probes⟩

theorem up (h : Closes ok s s') (hn : s'.Up n) : s'.probes n = s.probes n := by
  obtain ⟨q, hq, hr⟩ := hn
  rcases h.probes n with e | ⟨p, -, -, e⟩
  · exact e
  · rw [e] at hq
    cases hq
    exact absurd hr (halted_not_running _ _)

theorem up_before (h : Closes ok s s') (hn : s'.Up n) : s.Up n := by
  have he := h.up hn
  obtain ⟨q, hq, hr⟩ := hn
  exact ⟨q, he ▸ hq, hr⟩

theorem placed (h : Closes ok s s') (hs : s.Placed) : s'.Placed := by
  intro n q hq
  rcases h.probes n with e | ⟨p, hp, -, e⟩
  · exact hs n q (e ▸ hq)
  · rw [e] at hq
    cases hq
    refine ⟨(hs n p hp).1, ?_⟩
    cases ok n <;> simp [halted]

theorem settled (h : Closes ok s s') (hs : s.Settled) : s'.Settled where
  placed := h.placed hs.placed
  up n hn := h.lastConfig ▸ hs.up n (h.up_before hn)
  present n hn := by
    obtain ⟨p, hp⟩ := hs.present n (h.lastConfig ▸ hn)
    rcases h.probes n with e | ⟨q, -, -, e⟩
    · exact ⟨p, e.trans hp⟩
    · exact ⟨_, e⟩
  replaced p hp := hs.replaced p (h.replaced ▸ hp)

end Closes

theorem store_probes (s : Server α) (p : Probe) (n : String) :
    (s.store p).probes n = if n = p.name then some p else s.probes n := by
  simp only [store, Function.update_apply]

theorem store_closes {s : Server α} {ok : String → Bool} (hp : s.probes p.name = some p) (hr : p.state = .running) :
    Closes ok s (s.store (halted (ok p.name) p)) := by
  refine ⟨rfl, rfl, rfl, rfl, fun n => ?_⟩
  rw [store_probes]
  by_cases hn : n = p.name
  · subst hn
    exact Or.inr ⟨p, hp, hr, if_pos rfl⟩
  · exact Or.inl (if_neg hn)

theorem closed_probes (s : Server α) (p : Probe) (n : String) :
    (s.closed p).probes n = if n = p.name then some (halted true p) else s.probes n := by
  have h : (s.closed p).probes = (s.store (halted true p)).probes := by
    unfold closed
    cases s.manager
    · rfl
    · rfl
  rw [h]
  exact store_probes s (halted true p) n

theorem closed_closes {s : Server α} {ok : String → Bool} (hp : s.probes p.name = some p) (hr : p.state = .running)
    (ho : ok p.name = true) : Closes ok s (s.closed p) := by
  have h : Closes ok s (s.store (halted (ok p.name) p)) := store_closes hp hr
  rw [ho] at h
  unfold closed
  cases s.manager
  · exact h
  · exact ⟨h.lastConfig, h.manager, h.replaced, h.panicked, h.probes⟩

theorem not_up_of_probes {s : Server α} (hp : s.probes n = some p) (hr : p.state ≠ .running) : ¬ s.Up n := by
  rintro ⟨q, hq, hqr⟩
  rw [hp] at hq
  cases hq
  exact hr hqr

theorem up_congr {s s' : Server α} (h : s'.probes n = s.probes n) : s'.Up n ↔ s.Up n := by
  unfold Up
  rw [h]

structure StopSpec (ok : String → Bool) (s : Server α) (ns : List String) (r : Option String × Server α) : Prop where
  closes : Closes ok s r.2
  other : ∀ n, n ∉ ns → r.2.probes n = s.probes n
  ended : r.1 = none → ∀ n ∈ ns, ¬ r.2.Up n ∧ (s.Up n → ok n = true)
  broken : ∀ m, r.1 = some m → m ∈ ns ∧ s.Up m ∧ ok m = false ∧ ¬ r.2.Up m

namespace StopSpec

variable {ok : String → Bool} {s : Server α} {ns : List String} {r : Option String × Server α}

theorem skip (h : StopSpec ok s ns r) (hn : ¬ s.Up n) : StopSpec ok s (n :: ns) r where
  closes := h.closes
  other m hm := h.other m fun h => hm (List.mem_cons_of_mem _ h)
  ended he m hm := by
    rcases List.mem_cons.mp hm with rfl | hm
    · exact ⟨fun hu => hn (h.closes.up_before hu), fun hu => absurd hu hn⟩
    · exact h.ended he m hm
  broken m he := ⟨List.mem_cons_of_mem _ (h.broken m he).1, (h.broken m he).2⟩

theorem stopped (hp : s.probes p.name = some p) (hr : p.state = .running) (ho : ok p.name = true)
    (h : StopSpec ok (s.closed p) ns r) : StopSpec ok s (p.name :: ns) r := by
  have hc : Closes ok s (s.closed p) := closed_closes hp hr ho
  have hdown : ¬ (s.closed p).Up p.name :=
    not_up_of_probes ((closed_probes s p _).trans (if_pos rfl)) (Closes.halted_not_running _ _)
  have hsame : ∀ m, m ≠ p.name → (s.closed p).probes m = s.probes m := fun m hm =>
    (closed_probes s p m).trans (if_neg hm)
  refine ⟨hc.trans h.closes, ?_, ?_, ?_⟩
  · intro m hm
    rw [h.other m fun h => hm (List.mem_cons_of_mem _ h)]
    exact hsame m fun h => hm (h ▸ List.mem_cons_self)
  · intro he m hm
    by_cases hmp : m = p.name
    · subst hmp
      exact ⟨fun hu => hdown (h.closes.up_before hu), fun _ => ho⟩
    · obtain ⟨h1, h2⟩ := h.ended he m ((List.mem_cons.mp hm).resolve_left hmp)
      exact ⟨h1, fun hu => h2 ((up_congr (hsame m hmp)).mpr hu)⟩
  · intro m he
    obtain ⟨hm, h1, h2⟩ := h.broken m he
    exact ⟨List.mem_cons_of_mem _ hm, hc.up_before h1, h2⟩

theorem broke (hp : s.probes p.name = some p) (hr : p.state = .running) (ho : ok p.name = false) (ns : List String) :
    StopSpec ok s (p.name :: ns) (some p.name, s.store (halted false p)) := by
  have hc : Closes ok s (s.store (halted (ok p.name) p)) := store_closes hp hr
  rw [ho] at hc
  refine ⟨hc, ?_, fun he => by simp at he, ?_⟩
  · intro m hm
    exact (store_probes s _ m).trans (if_neg fun h : m = p.name => hm (h ▸ List.mem_cons_self))
  · intro m he
    cases he
    exact ⟨List.mem_cons_self, ⟨p, hp, hr⟩, ho,
      not_up_of_probes ((store_probes s _ _).trans (if_pos rfl)) (Closes.halted_not_running _ _)⟩

end StopSpec

theorem stopProbes_cons_some {ok : String → Bool} {s : Server α} (ns : List String) (hs : s.Placed)
    (hp : s.probes n = some p) :
    stopProbes ok s (n :: ns) =
      if p.state = .running then
        if ok n then stopProbes ok (s.closed p) ns else (some n, s.store (halted false p))
      else stopProbes ok s ns := by
  rw [stopProbes, hp]
  by_cases hr : p.state = .running
  · simp only [stopProbe_running s _ hr, if_pos hr]
    cases ok n <;> rfl
  · have hi : p.state = .stopped ∨ p.state = .failed := by
      rcases (hs n p hp).2 with h | h | h
      · exact Or.inl h
      · exact absurd h hr
      · exact Or.inr h
    simp only [stopProbe_idle s _ hi, if_neg hr]

theorem stopProbes_spec (ok : String → Bool) {s : Server α} (hs : s.Placed) (ns : List String) :
    StopSpec ok s ns (stopProbes ok s ns) := by
  induction ns generalizing s with
  | nil =>
    refine ⟨Closes.refl s, fun _ _ => rfl, ?_, ?_⟩
    · intro _ n hn
      cases hn
    · intro m hm
      cases hm
  | cons n ns ih =>
    cases hp : s.probes n with
    | none =>
      rw [stopProbes, hp]
      refine (ih hs).skip ?_
      rintro ⟨p, h, -⟩
      rw [hp] at h
      cases h
    | some p =>
      rw [stopProbes_cons_some ns hs hp]
      have hname := (hs n p hp).1
      subst hname
      split
      · rename_i hr
        split
        · rename_i ho
          exact .stopped hp hr ho (ih ((closed_closes hp hr ho).placed hs))
        · rename_i ho
          exact .broke hp hr (by simpa using ho) ns
      · rename_i hr
        exact (ih hs).skip (not_up_of_probes hp hr)

/-! ### Starts -/

def begun (ok : Bool) (p : Probe) : Probe :=
  { p with state := if ok then .running else .failed, startFailed := !ok }

theorem startProbe_new (s : Server α) (ok : Bool) (h : p.state = .stopped) :
    s.startProbe p ok =
      if ok then
        match s.manager with
        | .events => (.started, s.store (begun true p))
        | .metrics => (s.store (begun true p)).mustRegister (begun true p)
      else (.error .inner, s.store (begun false p)) := by
  unfold startProbe Probe.start
  cases ok <;> cases s.manager <;> simp [h, begun]

structure Starts (ok : String → Bool) (ps : List Probe) (s s' : Server α) : Prop where
  lastConfig : s'.lastConfig = s.lastConfig
  manager : s'.manager = s.manager
  panicked : s'.panicked = s.panicked
  other : ∀ n, n ∉ ps.map (·.name) → s'.probes n = s.probes n
  new : ∀ p ∈ ps, s'.probes p.name = some (begun (ok p.name) p)
  replaced : ∀ q ∈ s'.replaced, q ∈ s.replaced ∨ ∃ p ∈ ps, s.probes p.name = some q

/-- After one start that did not panic, whatever the registry holds. -/
def begin_ (s : Server α) (p : Probe) (ok : Bool) (registry : List Collector) : Server α :=
  { (s.place p).store (begun ok p) with registry := registry }

theorem begin_probes (s : Server α) (p : Probe) (ok : Bool) (r : List Collector) (n : String) :
    (s.begin_ p ok r).probes n = if n = p.name then some (begun ok p) else s.probes n := by
  show ((s.place p).store (begun ok p)).probes n = _
  rw [store_probes]
  show (if n = p.name then _ else (s.store p).probes n) = _
  by_cases h : n = p.name
  · rw [if_pos h, if_pos h]
  · rw [if_neg h, if_neg h, store_probes, if_neg h]

theorem Starts.cons {ok : String → Bool} {ps : List Probe} {s s' : Server α} {r : List Collector}
    (hp : p.name ∉ ps.map (·.name)) (h : Starts ok ps (s.begin_ p (ok p.name) r) s') : Starts ok (p :: ps) s s' where
  lastConfig := h.lastConfig
  manager := h.manager
  panicked := h.panicked
  other n hn := by
    rw [List.map_cons, List.mem_cons, not_or] at hn
    rw [h.other n hn.2, begin_probes, if_neg hn.1]
  new q hq := by
    rcases List.mem_cons.mp hq with rfl | hq
    · rw [h.other _ hp, begin_probes, if_pos rfl]
    · exact h.new q hq
  replaced q hq := by
    rcases h.replaced q hq with hq | ⟨p', hp', he⟩
    · rcases List.mem_append.mp hq with hq | hq
      · exact Or.inr ⟨p, List.mem_cons_self, by simpa using hq⟩
      · exact Or.inl hq
    · rw [begin_probes, if_neg fun h : p'.name = p.name => hp (h ▸ List.mem_map_of_mem hp')] at he
      exact Or.inr ⟨p', List.mem_cons_of_mem _ hp', he⟩

theorem startProbe_place (s : Server α) (ok : Bool) (h : p.state = .stopped) :
    (((s.place p).startProbe p ok).1 = .panic ∧ ((s.place p).startProbe p ok).2.panicked = true) ∨
      ∃ r, (s.place p).startProbe p ok = (if ok then .started else .error .inner, s.begin_ p ok r) := by
  rw [startProbe_new _ _ h]
  cases ok with
  | false => exact Or.inr ⟨s.registry, rfl⟩
  | true =>
    simp only [if_true]
    cases (s.place p).manager with
    | events => exact Or.inr ⟨s.registry, rfl⟩
    | metrics =>
      simp only [mustRegister]
      split
      · exact Or.inl ⟨rfl, rfl⟩
      · exact Or.inr ⟨_, rfl⟩

theorem startProbes_cons_panic {ok : String → Bool} {s : Server α} (ps : List Probe)
    (h : ((s.place p).startProbe p (ok p.name)).1 = .panic) :
    startProbes ok s (p :: ps) = (none, ((s.place p).startProbe p (ok p.name)).2) := by
  rcases he : (s.place p).startProbe p (ok p.name) with ⟨r, t⟩
  rw [he] at h
  cases h
  rw [startProbes, he]

theorem startProbes_cons {ok : String → Bool} {s t : Server α} (ps : List Probe)
    (h : (s.place p).startProbe p (ok p.name) = (if ok p.name then .started else .error .inner, t)) :
    startProbes ok s (p :: ps) =
      ((startProbes ok t ps).1.map fun failed => if ok p.name then failed else p.name :: failed,
        (startProbes ok t ps).2) := by
  rw [startProbes, h]
  cases ok p.name
  · simp
  · simp

theorem startProbes_spec (ok : String → Bool) (s : Server α) {ps : List Probe} (hnd : (ps.map (·.name)).Nodup)
    (hst : ∀ p ∈ ps, p.state = .stopped) :
    ((startProbes ok s ps).1 = none ∧ (startProbes ok s ps).2.panicked = true) ∨
      ((startProbes ok s ps).1 = some ((ps.map (·.name)).filter fun n => !ok n) ∧
        Starts ok ps s (startProbes ok s ps).2) := by
  induction ps generalizing s with
  | nil =>
    refine Or.inr ⟨rfl, rfl, rfl, rfl, fun _ _ => rfl, ?_, fun q hq => Or.inl hq⟩
    intro p hp
    cases hp
  | cons p ps ih =>
    rw [List.map_cons, List.nodup_cons] at hnd
    rcases startProbe_place s (ok p.name) (hst p List.mem_cons_self) with ⟨h, hp⟩ | ⟨r, h⟩
    · rw [startProbes_cons_panic ps h]
      exact Or.inl ⟨rfl, hp⟩
    · rw [startProbes_cons ps h]
      rcases ih (s.begin_ p (ok p.name) r) hnd.2 fun q hq => hst q (List.mem_cons_of_mem _ hq) with
        ⟨h1, h2⟩ | ⟨h1, h2⟩
      · exact Or.inl ⟨by rw [h1]; rfl, h2⟩
      · refine Or.inr ⟨?_, .cons hnd.1 h2⟩
        rw [h1, List.map_cons, List.filter_cons]
        cases ok p.name
        · simp
        · simp

/-! ## The whole call -/

section Reload

variable [BEq α] {s s' : Server α} {call : Call α}

structure Finished (s : Server α) (call : Call α) (failed : List String) (s' : Server α) : Prop where
  settled : s'.Settled
  lastConfig : s'.lastConfig = call.config
  panicked : s'.panicked = s.panicked
  kept : ∀ n, Kept s.lastConfig call.config n → s'.probes n = s.probes n
  added : ∀ n ∈ names call.config, ¬ Kept s.lastConfig call.config n →
    ∃ p, s'.probes n = some p ∧ p.startFailed = (!call.startOk n) ∧
      p.state = if call.startOk n then .running else .failed
  failed_eq : ∀ n, n ∈ failed ↔ n ∈ names call.config ∧ ¬ Kept s.lastConfig call.config n ∧ call.startOk n = false

theorem reload_cases (s : Server α) (call : Call α) :
    (∃ n k, s.reload call = (.createError n, { s with created := k }) ∧
      n ∈ names (toAdd s.lastConfig call) ∧ call.createOk n = false) ∨
    ∃ ps k, (createProbes call.createOk s (toAdd s.lastConfig call)).1 = .ok ps ∧
      ((∃ n t, stopProbes call.stopOk { s with created := k } (toClose s.lastConfig call) = (some n, t) ∧
          s.reload call = (.stopError n, t)) ∨
        ∃ t, stopProbes call.stopOk { s with created := k } (toClose s.lastConfig call) = (none, t) ∧
          s.reload call =
            (match (startProbes call.startOk { t with lastConfig := call.config } ps).1 with
              | some failed => .done failed
              | none => .panic,
            (startProbes call.startOk { t with lastConfig := call.config } ps).2)) := by
  obtain ⟨k, hk⟩ := createProbes_server call.createOk s (toAdd s.lastConfig call)
  unfold reload
  rcases hc : createProbes call.createOk s (toAdd s.lastConfig call) with ⟨res, t⟩
  rw [hc] at hk
  obtain rfl : t = { s with created := k } := hk
  cases res with
  | error n =>
    exact Or.inl ⟨n, k, rfl, createProbes_error (congrArg Prod.fst hc)⟩
  | ok ps =>
    refine Or.inr ⟨ps, k, rfl, ?_⟩
    rcases hs : stopProbes call.stopOk { s with created := k } (toClose s.lastConfig call) with ⟨res, t⟩
    cases res with
    | some n => exact Or.inl ⟨n, t, rfl, by simp only [hs]⟩
    | none =>
      refine Or.inr ⟨t, rfl, ?_⟩
      simp only [hs]
      rcases startProbes call.startOk { t with lastConfig := call.config } ps with ⟨res, u⟩
      cases res <;> rfl

theorem reload_createError (h : s.reload call = (.createError n, s')) : ∃ k, s' = { s with created := k } := by
  rcases reload_cases s call with ⟨m, k, he, -⟩ | ⟨ps, k, -, ⟨m, t, -, he⟩ | ⟨t, -, he⟩⟩
  · rw [he] at h
    exact ⟨k, (congrArg Prod.snd h).symm⟩
  · rw [he] at h
    cases h
  · rw [he] at h
    split at h
    · cases h
    · cases h

/-- A stop that failed: some probes are closed, nothing is recorded. -/
theorem reload_stopError (hs : s.Settled) (h : s.reload call = (.stopError n, s')) :
    Closes call.stopOk s s' ∧ n ∈ toClose s.lastConfig call ∧ s.Up n ∧ call.stopOk n = false ∧ ¬ s'.Up n ∧
      ∀ m, m ∉ toClose s.lastConfig call → s'.probes m = s.probes m := by
  rcases reload_cases s call with ⟨m, k, he, -⟩ | ⟨ps, k, -, ⟨m, t, hst, he⟩ | ⟨t, -, he⟩⟩
  · rw [he] at h
    cases h
  · rw [he] at h
    cases h
    have hspec := stopProbes_spec call.stopOk (s := { s with created := k }) hs.placed (toClose s.lastConfig call)
    rw [hst] at hspec
    obtain ⟨hm, hup, hok, hdown⟩ := hspec.broken n rfl
    exact ⟨hspec.closes.of_created, hm, hup, hok, hdown, hspec.other⟩
  · rw [he] at h
    split at h
    · cases h
    · cases h

theorem reload_panic (h : s.reload call = (.panic, s')) : s'.panicked = true := by
  rcases reload_cases s call with ⟨m, k, he, -⟩ | ⟨ps, k, hps, ⟨m, t, hst, he⟩ | ⟨t, -, he⟩⟩
  · rw [he] at h
    cases h
  · rw [he] at h
    cases h
  · obtain ⟨hn, hst, -⟩ := createProbes_ok hps
    have hnd : (ps.map (·.name)).Nodup := hn ▸ nodup_names_toAdd s.lastConfig call
    rw [he] at h
    rcases startProbes_spec call.startOk { t with lastConfig := call.config } hnd hst with ⟨-, hp⟩ | ⟨h1, -⟩
    · exact (congrArg (·.2.panicked) h).symm.trans hp
    · rw [h1] at h
      cases h

/-- What lies between the servers before and after a call that came to its end: `t`, with all
    its stops done, and the new probes `ps` started from there. -/
structure Turned (s : Server α) (call : Call α) (ps : List Probe) (t s' : Server α) : Prop where
  closes : Closes call.stopOk s t
  kept : ∀ n, Kept s.lastConfig call.config n → t.probes n = s.probes n
  up : ∀ n, t.Up n → Kept s.lastConfig call.config n
  added : ∀ n, n ∈ ps.map (·.name) ↔ n ∈ names call.config ∧ ¬ Kept s.lastConfig call.config n
  starts : Starts call.startOk ps { t with lastConfig := call.config } s'

theorem reload_turned (hs : s.Settled) {failed : List String} (h : s.reload call = (.done failed, s')) :
    ∃ ps t, Turned s call ps t s' ∧ failed = (ps.map (·.name)).filter fun n => !call.startOk n := by
  rcases reload_cases s call with ⟨m, k, he, -⟩ | ⟨ps, k, hps, ⟨m, t, hst, he⟩ | ⟨t, hst, he⟩⟩
  · rw [he] at h
    cases h
  · rw [he] at h
    cases h
  obtain ⟨hn, hstp, -⟩ := createProbes_ok hps
  have hnd : (ps.map (·.name)).Nodup := hn ▸ nodup_names_toAdd s.lastConfig call
  have hspec := stopProbes_spec call.stopOk (s := { s with created := k }) hs.placed (toClose s.lastConfig call)
  rw [hst] at hspec
  have hcl : Closes call.stopOk s t := hspec.closes.of_created
  rw [he] at h
  rcases startProbes_spec call.startOk { t with lastConfig := call.config } hnd hstp with ⟨h1, -⟩ | ⟨h1, h2⟩
  · rw [h1] at h
    cases h
  rw [h1] at h
  obtain ⟨hf, rfl⟩ := Prod.mk.inj h
  cases hf
  refine ⟨ps, t, ⟨hcl, ?_, ?_, ?_, h2⟩, rfl⟩
  · intro n hk
    exact hspec.other n fun h => ((mem_toClose _ _ _).mp h).2 hk
  · -- what is up and not kept is among the probes to close
    intro n hu
    by_contra hk
    exact (hspec.ended rfl n ((mem_toClose _ _ _).mpr ⟨hs.up n (hcl.up_before hu), hk⟩)).1 hu
  · intro n
    rw [hn]
    exact mem_names_toAdd _ _ _

namespace Turned

variable {ps : List Probe} {t : Server α}

theorem probes_new (h : Turned s call ps t s') (hc : n ∈ names call.config) (hk : ¬ Kept s.lastConfig call.config n) :
    ∃ p, p.name = n ∧ s'.probes n = some (begun (call.startOk n) p) := by
  obtain ⟨p, hp, rfl⟩ := List.mem_map.mp ((h.added n).mpr ⟨hc, hk⟩)
  exact ⟨p, rfl, h.starts.new p hp⟩

theorem probes_old (h : Turned s call ps t s') (hn : ¬ (n ∈ names call.config ∧ ¬ Kept s.lastConfig call.config n)) :
    s'.probes n = t.probes n :=
  h.starts.other n ((h.added n).not.mpr hn)

theorem probes_kept (h : Turned s call ps t s') (hk : Kept s.lastConfig call.config n) :
    s'.probes n = s.probes n :=
  (h.probes_old fun hn => hn.2 hk).trans (h.kept n hk)

theorem placed (h : Turned s call ps t s') (hs : s.Placed) : s'.Placed := by
  intro n p hp
  by_cases hc : n ∈ names call.config ∧ ¬ Kept s.lastConfig call.config n
  · obtain ⟨q, hqn, hq⟩ := h.probes_new hc.1 hc.2
    rw [hq] at hp
    cases hp
    refine ⟨hqn, ?_⟩
    cases call.startOk n <;> simp [begun]
  · rw [h.probes_old hc] at hp
    exact h.closes.placed hs n p hp

theorem up_config (h : Turned s call ps t s') (hu : s'.Up n) : n ∈ names call.config := by
  by_cases hc : n ∈ names call.config ∧ ¬ Kept s.lastConfig call.config n
  · exact hc.1
  · exact (h.up n ((up_congr (h.probes_old hc)).mp hu)).mem_config

theorem present (h : Turned s call ps t s') (hs : s.Settled) (hc : n ∈ names call.config) :
    ∃ p, s'.probes n = some p := by
  by_cases hk : Kept s.lastConfig call.config n
  · rw [h.probes_kept hk]
    exact hs.present n hk.mem_last
  · obtain ⟨q, -, hq⟩ := h.probes_new hc hk
    exact ⟨_, hq⟩

theorem replaced_idle (h : Turned s call ps t s') (hs : s.Settled) {q : Probe} (hq : q ∈ s'.replaced) :
    q.state ≠ .running := by
  intro hr
  rcases h.starts.replaced q hq with hq | ⟨p, hp, he⟩
  · exact hs.replaced q (h.closes.replaced ▸ hq) hr
  · exact ((h.added p.name).mp (List.mem_map_of_mem hp)).2 (h.up p.name ⟨q, he, hr⟩)

theorem settled (h : Turned s call ps t s') (hs : s.Settled) : s'.Settled where
  placed := h.placed hs.placed
  up n hu := by
    rw [h.starts.lastConfig]
    exact h.up_config hu
  present n hn := by
    rw [h.starts.lastConfig] at hn
    exact h.present hs hn
  replaced q hq := h.replaced_idle hs hq

end Turned

theorem reload_done (hs : s.Settled) {failed : List String} (h : s.reload call = (.done failed, s')) :
    Finished s call failed s' := by
  obtain ⟨ps, t, ht, rfl⟩ := reload_turned hs h
  refine ⟨ht.settled hs, ht.starts.lastConfig, ht.starts.panicked.trans ht.closes.panicked,
    fun n hk => ht.probes_kept hk, ?_, ?_⟩
  · intro n hc hk
    obtain ⟨q, -, hq⟩ := ht.probes_new hc hk
    exact ⟨_, hq, rfl, rfl⟩
  · intro n
    rw [List.mem_filter, ht.added, and_assoc]
    simp

end Reload

end Server

end EliteTelemetry.Exporter
