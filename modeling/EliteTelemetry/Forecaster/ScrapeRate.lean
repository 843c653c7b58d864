/-
  EliteTelemetry.Forecaster.ScrapeRate — the time a rate is taken over (`Sample` of
  `pkg/forecaster/scraper.go`).

  Values are kept by the pair and the time of the last call once for all of them, and a call sets
  it whether or not a target answered. So a rate is the growth since the pair was last read, over
  the time since the last call.

  Where each series has its name and each pair its slot, a rate is the growth between the pair's
  last two readings over the time between them exactly if the counter did not grow, or the call
  before read it too (`rate_right_iff`). A scrape that fails in between doubles the rate of a
  counter that grows evenly (`a_failed_scrape_doubles_the_rate`).
-/

import EliteTelemetry.Forecaster.Scraper

namespace EliteTelemetry.Forecaster

open EliteTelemetry.Lib.NumberText EliteTelemetry.Lib.GoNumbers

/-- The growth of a pair from one reading to the next, a second. -/
def growthRate (y x : Reading) : ℚ := max 0 (x.value - y.value) / seconds (x.now - y.now)

variable {cs : List Call} {pair : Nat × Nat} {y : Reading}

theorem now_of_run {s : Scraper} (h : y ∈ (s.run cs).store.readings) :
    y ∈ s.store.readings ∨ ∃ c ∈ cs, y.now = c.now := by
  induction cs using List.reverseRecOn with
  | nil => exact .inl h
  | append_singleton cs c ih =>
    rw [run_concat] at h
    obtain ⟨more, hmore, -, -, hread⟩ := readings_sample (s.run cs) c
    rw [hmore] at h
    rcases List.mem_append.mp h with h | h
    · rcases ih h with h | ⟨d, hd, hnow⟩
      · exact .inl h
      · exact .inr ⟨d, List.mem_append_left _ hd, hnow⟩
    · obtain ⟨st, hy⟩ := hread y h
      exact .inr ⟨c, List.mem_append_right _ List.mem_cons_self, congrArg Reading.now hy⟩

theorem mem_of_lastReading {readings : List Reading} (h : lastReading readings pair = some y) :
    y ∈ readings ∧ y.pair = pair := by
  unfold lastReading at h
  exact ⟨List.mem_reverse.mp (List.mem_of_find?_eq_some h), by simpa using List.find?_some h⟩

theorem split_sample {s : Scraper} {c : Call} (hold : ∀ y ∈ s.store.readings, y.now < c.now)
    {before after : List Reading} {x : Reading} (htrace : (s.sample c).2.store.readings = before ++ x :: after)
    (hnow : x.now = c.now) :
    (∃ st : Store, x = st.reading c.now s.lastAt (x.pair, x.value)) ∧
      ∃ new, before = s.store.readings ++ new ∧ (∀ y ∈ new, y.now = c.now) ∧
        ∀ y, lastReading before x.pair = some y → y ∈ s.store.readings := by
  obtain ⟨more, hmore, -, hnodup, hread⟩ := readings_sample s c
  rw [hmore] at htrace
  obtain ⟨new, hbefore, hnew⟩ : ∃ new, before = s.store.readings ++ new ∧ more = new ++ x :: after := by
    rcases List.append_eq_append_iff.mp htrace with h | ⟨rest, hs, hrest⟩
    · exact h
    · cases rest with
      | nil => exact ⟨[], by simpa using hs.symm, hrest.symm⟩
      | cons z rest =>
        obtain ⟨rfl, -⟩ := List.cons.inj hrest
        have hlt := hold x (by simp [hs])
        rw [hnow] at hlt
        exact absurd hlt (lt_irrefl _)
  refine ⟨hread x (by simp [hnew]), new, hbefore, fun y hy => ?_, fun y hy => ?_⟩
  · obtain ⟨st, hst⟩ := hread y (by simp [hnew, hy])
    exact congrArg Reading.now hst
  obtain ⟨hmem, hpair⟩ := mem_of_lastReading hy
  rw [hbefore] at hmem
  rcases List.mem_append.mp hmem with hmem | hmem
  · exact hmem
  · -- the call reads the pair once
    rw [hnew, List.pairwise_append] at hnodup
    exact absurd hpair (hnodup.2.2 y hmem x List.mem_cons_self)

theorem seconds_inj {d e : Duration} : seconds d = seconds e ↔ d = e := by
  unfold seconds
  rw [div_left_inj' (by norm_num), Int.cast_inj]

/-- Two rates of one growth are equal if there is none or the times are. -/
theorem growth_over_eq_iff {a d e : ℚ} (hd : 0 < d) (he : 0 < e) :
    max 0 (a / d) = max 0 a / e ↔ a ≤ 0 ∨ d = e := by
  rcases le_or_gt a 0 with ha | ha
  · rw [max_eq_left ha, max_eq_left (div_nonpos_of_nonpos_of_nonneg ha hd.le)]
    simp [ha]
  · rw [max_eq_right ha.le, max_eq_right (div_pos ha hd).le, div_eq_div_iff hd.ne' he.ne', mul_right_inj' ha.ne',
      eq_comm]
    simp [ha.not_ge]

theorem timeSub_eq_iff {t u v : ℤ} (hvu : v ≤ u) (hut : u < t) :
    timeSub t u = t - v ↔ v = u ∧ t - u < 2 ^ 63 := by
  have h : max (-(2 ^ 63)) (min (2 ^ 63 - 1) (t - u)) = t - v ↔ v = u ∧ t - u < 2 ^ 63 := by omega
  exact h

theorem lastReading_append (a b : List Reading) (pair : Nat × Nat) :
    lastReading (a ++ b) pair = (lastReading b pair).or (lastReading a pair) := by
  unfold lastReading
  rw [List.reverse_append, List.find?_append]

theorem readings_of_call (targets : List Target) (cs : List Call) (c : Call) :
    ∃ more, ((newScraper targets).run (cs ++ [c])).store.readings =
        ((newScraper targets).run cs).store.readings ++ more ∧ (∀ y ∈ more, y.now = c.now) ∧
      ∀ pair, (∃ y ∈ more, y.pair = pair) ↔ ∃ v, (pair, v) ∈ c.values (newScraper targets) := by
  obtain ⟨more, hmore, hpairs, -, hread⟩ := readings_sample ((newScraper targets).run cs) c
  have hvalues : c.values ((newScraper targets).run cs) = c.values (newScraper targets) := by
    obtain ⟨htargets, hbytes⟩ := run_targets targets cs
    rw [Call.values, htargets, hbytes]
    rfl
  refine ⟨more, by rw [run_concat, hmore], fun y hy => ?_, fun pair => ?_⟩
  · obtain ⟨st, hst⟩ := hread y hy
    exact congrArg Reading.now hst
  · have hmem : (∃ y ∈ more, y.pair = pair) ↔ pair ∈ more.map (·.pair) := by simp
    rw [hmem, hpairs, hvalues]
    simp

theorem readings_run_append (targets : List Target) (cs rest : List Call) :
    ∃ later, ((newScraper targets).run (cs ++ rest)).store.readings =
        ((newScraper targets).run cs).store.readings ++ later ∧ ∀ y ∈ later, ∃ d ∈ rest, y.now = d.now := by
  induction rest using List.reverseRecOn with
  | nil => exact ⟨[], by simp, by simp⟩
  | append_singleton rest d ih =>
    obtain ⟨later, hlater, hnow⟩ := ih
    obtain ⟨more, hmore, hmorenow, -⟩ := readings_of_call targets (cs ++ rest) d
    refine ⟨later ++ more, by rw [← List.append_assoc, hmore, hlater, List.append_assoc], fun y hy => ?_⟩
    rcases List.mem_append.mp hy with hy | hy
    · obtain ⟨e, he, hye⟩ := hnow y hy
      exact ⟨e, List.mem_append_left _ he, hye⟩
    · exact ⟨d, by simp, hmorenow y hy⟩

/-- The last reading of a pair before a call is that of the call before it exactly if that call read
    the pair. -/
theorem now_eq_iff_read {targets : List Target} {prev : Call} (htimes : (cs ++ [prev]).Pairwise (·.now < ·.now))
    {new : List Reading} (hnew : ∀ z ∈ new, prev.now < z.now)
    (hy : lastReading (((newScraper targets).run (cs ++ [prev])).store.readings ++ new) pair = some y)
    (hold : y ∈ ((newScraper targets).run (cs ++ [prev])).store.readings) :
    y.now = prev.now ↔ ∃ v, (pair, v) ∈ prev.values (newScraper targets) := by
  obtain ⟨more, hmore, hnow, hread⟩ := readings_of_call targets cs prev
  have hearlier : ∀ z ∈ ((newScraper targets).run cs).store.readings, z.now < prev.now := by
    intro z hz
    rcases now_of_run hz with hz | ⟨d, hd, hzd⟩
    · cases hz
    · rw [hzd]
      exact (List.pairwise_append.mp htimes).2.2 d hd prev List.mem_cons_self
  have hpair := (mem_of_lastReading hy).2
  rw [hmore] at hy hold
  rw [← hread]
  constructor
  · intro hynow
    rcases List.mem_append.mp hold with h | h
    · exact absurd hynow (hearlier y h).ne
    · exact ⟨y, h, hpair⟩
  · intro ⟨z, hz, hzpair⟩
    -- the reading of that call comes last, of those before the new ones
    obtain ⟨w, hw⟩ : ∃ w, lastReading (more ++ new) pair = some w := by
      refine Option.isSome_iff_exists.mp ?_
      simp only [lastReading, List.find?_isSome, List.mem_reverse, decide_eq_true_eq]
      exact ⟨z, List.mem_append_left _ hz, hzpair⟩
    rw [List.append_assoc, lastReading_append, hw, Option.some_or] at hy
    obtain rfl := Option.some.inj hy
    rcases List.mem_append.mp (mem_of_lastReading hw).1 with h | h
    · exact hnow w h
    · rcases List.mem_append.mp hold with h' | h'
      · exact absurd (hearlier w h') (hnew w h).not_gt
      · exact hnow w h'

theorem rate_of_last_call {targets : List Target} {prev c : Call}
    (htimes : (cs ++ [prev, c]).Pairwise (·.now < ·.now)) {before after : List Reading} {x : Reading} {r : Rate}
    (htrace : ((newScraper targets).run (cs ++ [prev, c])).store.readings = before ++ x :: after)
    (hnow : x.now = c.now) (hr : x.rate = some r) (hy : lastReading before x.pair = some y)
    (hprevious : y.value = r.previous) :
    r.value = growthRate y x ↔
      x.value ≤ y.value ∨ (∃ v, (x.pair, v) ∈ prev.values (newScraper targets)) ∧ c.now - prev.now < 2 ^ 63 := by
  have hsplit : cs ++ [prev, c] = (cs ++ [prev]) ++ [c] := by simp
  rw [hsplit, run_concat] at htrace
  rw [hsplit, List.pairwise_append] at htimes
  obtain ⟨htimes, -, hbefore⟩ := htimes
  have hprev : prev.now < c.now := hbefore prev (by simp) c List.mem_cons_self
  -- what was read until then was read at the last call at the latest
  have hle : ∀ z ∈ ((newScraper targets).run (cs ++ [prev])).store.readings, z.now ≤ prev.now := by
    intro z hz
    rcases now_of_run hz with hz | ⟨d, hd, hzd⟩
    · cases hz
    · rw [hzd]
      rcases List.mem_append.mp hd with hd | hd
      · exact ((List.pairwise_append.mp htimes).2.2 d hd prev List.mem_cons_self).le
      · rw [List.mem_singleton.mp hd]
  obtain ⟨⟨st, hst⟩, new, rfl, hnew, hlast⟩ :=
    split_sample (fun z hz => lt_of_le_of_lt (hle z hz) hprev) htrace hnow
  have hyprev := hle y (hlast y hy)
  rw [hst] at hr
  obtain ⟨-, last, hlastAt, hdt, hvalue⟩ := Store.rate_eq_some hr
  obtain rfl : last = prev.now := by
    rw [run_concat] at hlastAt
    simp only [Scraper.sample] at hlastAt
    split at hlastAt
    · cases hlastAt
    · exact (Option.some.inj hlastAt).symm
  have hgap : 0 < x.now - y.now := sub_pos.mpr (hnow ▸ lt_of_le_of_lt hyprev hprev)
  rw [hvalue, ← hprevious, growthRate, growth_over_eq_iff hdt (seconds_pos hgap), sub_nonpos, seconds_inj, hnow,
    timeSub_eq_iff hyprev hprev,
    now_eq_iff_read htimes (fun z hz => hprev.trans_eq (hnew z hz).symm) hy (hlast y hy)]

/-- Where each series has its name and each pair its slot, every rate of a run is the growth between the
    pair's last two readings exactly if there was none, or the call before read the pair too, less than
    2^63 nanoseconds ago. -/
theorem rate_right_iff {targets : List Target} (hfilled : Filled targets) (hsep : Separate targets)
    {cs rest : List Call} {prev c : Call} (htimes : (cs ++ [prev, c] ++ rest).Pairwise (·.now < ·.now))
    {before after : List Reading} {x : Reading} {r : Rate}
    (htrace : ((newScraper targets).run (cs ++ [prev, c] ++ rest)).store.readings = before ++ x :: after)
    (hnow : x.now = c.now) (hr : x.rate = some r) :
    ∃ y, lastReading before x.pair = some y ∧
      (r.value = growthRate y x ↔
        x.value ≤ y.value ∨ (∃ v, (x.pair, v) ∈ prev.values (newScraper targets)) ∧ c.now - prev.now < 2 ^ 63) := by
  have hkept := run_kept hsep ((fillTargets_eq_iff targets).mpr hfilled) (cs ++ [prev, c] ++ rest)
  obtain ⟨y, hy, hprevious⟩ := Option.map_eq_some_iff.mp (hkept.own before x after htrace r hr)
  obtain ⟨htimes, -, hlate⟩ := List.pairwise_append.mp htimes
  -- the reading was there after its own call already
  obtain ⟨later, hlater, hnows⟩ := readings_run_append targets (cs ++ [prev, c]) rest
  obtain ⟨after', htrace⟩ : ∃ after', ((newScraper targets).run (cs ++ [prev, c])).store.readings =
      before ++ x :: after' := by
    rw [hlater] at htrace
    rcases List.append_eq_append_iff.mp htrace with ⟨new, hbefore, hnew⟩ | ⟨new, hbefore, hnew⟩
    · obtain ⟨d, hd, hxd⟩ := hnows x (by simp [hnew])
      exact absurd (hlate c (by simp) d hd) (by rw [← hxd, hnow]; exact lt_irrefl _)
    · cases new with
      | nil =>
        obtain ⟨d, hd, hxd⟩ := hnows x (by rw [List.nil_append] at hnew; simp [← hnew])
        exact absurd (hlate c (by simp) d hd) (by rw [← hxd, hnow]; exact lt_irrefl _)
      | cons z new =>
        obtain ⟨rfl, -⟩ := List.cons.inj hnew
        exact ⟨new, hbefore⟩
  exact ⟨y, hy, rate_of_last_call htimes htrace hnow hr hy hprevious⟩

def oneTarget : List Target := [⟨"a", [ascii "a"]⟩]

def everySecond : List Call := [onlyTarget 0 0 (ascii "a 0"), onlyTarget second 0 (ascii "a 100")]

theorem seriesAt_oneTarget {name : List UInt8} (h : seriesAt (names oneTarget) pair = some name) : pair = (0, 0) := by
  obtain ⟨ps, hps, hname⟩ := Option.bind_eq_some_iff.mp h
  obtain ⟨ti, si⟩ := pair
  match ti, si with
  | 0, 0 => rfl
  | 0, _ + 1 =>
    obtain rfl := Option.some.inj hps
    cases hname
  | _ + 1, _ => cases hps

theorem filled_oneTarget : Filled oneTarget := fun _ _ h => .inl (by rw [seriesAt_oneTarget h])

theorem separate_oneTarget : Separate oneTarget := by
  intro p q name name' hp hq _ _ _ _
  rw [seriesAt_oneTarget hp, seriesAt_oneTarget hq]

/-- Read at each second, a counter's rate is its growth. -/
theorem rate_right_each_second :
    ∃ y, lastReading [⟨(0, 0), 0, 0, none⟩] (0, 0) = some y ∧
      100 = growthRate y ⟨(0, 0), second, 100, some ⟨0, 100⟩⟩ := by
  have htrace : ((newScraper oneTarget).run ([] ++ everySecond ++ [])).store.readings =
      [⟨(0, 0), 0, 0, none⟩] ++ ⟨(0, 0), second, 100, some ⟨0, 100⟩⟩ :: [] := by
    decide +kernel
  obtain ⟨y, hy, hiff⟩ :=
    rate_right_iff filled_oneTarget separate_oneTarget (by simp [onlyTarget, second]) htrace rfl rfl
  refine ⟨y, hy, hiff.mpr (.inr ⟨⟨0, ?_⟩, by decide⟩)⟩
  decide +kernel

/-- The counter of one target grows by 100 a second, and the scrape after the first fails. -/
def failedBetween : List Call :=
  [onlyTarget 0 0 (ascii "a 0"), ⟨second, fun _ _ => .failed "no route"⟩, onlyTarget (2 * second) 0 (ascii "a 200")]

theorem a_failed_scrape_doubles_the_rate :
    ((newScraper oneTarget).run failedBetween).store.readings =
        [⟨(0, 0), 0, 0, none⟩, ⟨(0, 0), 2 * second, 200, some ⟨0, 200⟩⟩] ∧
      growthRate ⟨(0, 0), 0, 0, none⟩ ⟨(0, 0), 2 * second, 200, some ⟨0, 200⟩⟩ = 100 := by
  decide +kernel

end EliteTelemetry.Forecaster
