/-
  EliteTelemetry.Forecaster.Scraper — the scraper's counters over its calls (`NewScraper`,
  `slotIndex` and `Sample` of `pkg/forecaster/scraper.go`).

  A pair is a target and one of its series, by their numbers. `Sample` asks every target in turn.
  A series that is no histogram is a counter, and its last value is kept in the slot
  `8 * target + series` of 32; a pair whose slot lies beyond them gets no rate. What a call reads
  does not depend on what the scraper holds (`Call.values`), so a call is the writing of those
  values one after another (`sample_store`).

  The slots are the pairs' own only while no target but the last has more than eight series. The
  prefixes are filled by a loop that leaves a target, not the targets, once 32 are filled: past
  that every target still gets its first, and the others stay empty, which every name begins with.
  `fillTargets_eq_iff` says which series get their own name.

  Over every run each rate subtracts the pair's own last value, and each series has its own name,
  exactly if the names not filled are empty and no two pairs that can be read share a slot
  (`own_counters_iff`).
-/

import EliteTelemetry.Forecaster.ScrapeBody
import EliteTelemetry.Lib.GoNumbers

namespace EliteTelemetry.Forecaster

open EliteTelemetry.Lib.NumberText EliteTelemetry.Lib.GoNumbers

/-! ## Series in a body -/

def totalWhere (wanted : List UInt8 → Bool) (body : List UInt8) : Option ℚ :=
  let (total, found) := forEachMetricLine
    (fun s x => if wanted x.1 then (s.1 + x.2, true) else s) [] body ((0 : ℚ), false)
  if found then some total else none

def findMetricValueBytes (body exactName : List UInt8) : Option ℚ := totalWhere (· = exactName) body

def counterTotalBytes (body series : List UInt8) : Option ℚ :=
  totalWhere (fun name => name = series || series.isPrefixOf name) body

def histogramMean (body series : List UInt8) : Option ℚ :=
  match findMetricValueBytes body (series ++ ascii "_sum"), findMetricValueBytes body (series ++ ascii "_count") with
  | some sum, some count => if count ≤ 0 then none else some (sum / count)
  | _, _ => none

/-! ## The scraper -/

structure Target where
  url : String
  series : List (List UInt8)

def maxSeriesSlots : Nat := 32

def slotIndex (targetIdx seriesIdx : Nat) : Nat := targetIdx * 8 + seriesIdx

/-- One target's prefixes, and how many are filled by then. The loop leaves the target, and the
    entries behind stay empty. -/
def fillSeries : List (List UInt8) → Nat → List (List UInt8) × Nat
  | [], slot => ([], slot)
  | p :: ps, slot =>
    if maxSeriesSlots ≤ slot + 1 then (p :: ps.map fun _ => [], slot + 1)
    else
      let rest := fillSeries ps (slot + 1)
      (p :: rest.1, rest.2)

def fillTargets : List Target → Nat → List (List (List UInt8))
  | [], _ => []
  | t :: ts, slot =>
    let filled := fillSeries t.series slot
    filled.1 :: fillTargets ts filled.2

structure Rate where
  previous : ℚ
  value : ℚ
  deriving DecidableEq

structure Reading where
  pair : Nat × Nat
  now : Time
  value : ℚ
  rate : Option Rate
  deriving DecidableEq

structure Store where
  /-- `lastCounter`, where `haveCounter` is set. -/
  counters : Vector (Option ℚ) maxSeriesSlots
  /-- Ghost: all that was read. -/
  readings : List Reading

structure Scraper where
  targets : List Target
  seriesBytes : List (List (List UInt8))
  store : Store
  /-- None stands for the zero Time. -/
  lastAt : Option Time

def newScraper (targets : List Target) : Scraper where
  targets := targets
  seriesBytes := fillTargets targets 0
  store := ⟨Vector.replicate maxSeriesSlots none, []⟩
  lastAt := none

namespace Store

def counterAt (st : Store) (idx : Nat) : Option ℚ := st.counters[idx]?.join

def rate (st : Store) (now : Time) (lastAt : Option Time) (idx : Nat) (c : ℚ) : Option Rate :=
  match st.counterAt idx, lastAt with
  | some previous, some last =>
    let dt := seconds (timeSub now last)
    if 0 < dt then
      let rate := (c - previous) / dt
      some ⟨previous, if rate < 0 then 0 else rate⟩
    else none
  | _, _ => none

def reading (now : Time) (lastAt : Option Time) (st : Store) (x : (Nat × Nat) × ℚ) : Reading :=
  ⟨x.1, now, x.2, st.rate now lastAt (slotIndex x.1.1 x.1.2) x.2⟩

def count (now : Time) (lastAt : Option Time) (st : Store) (x : (Nat × Nat) × ℚ) : Store where
  counters := st.counters.setIfInBounds (slotIndex x.1.1 x.1.2) (some x.2)
  readings := st.readings ++ [st.reading now lastAt x]

end Store

structure Sums where
  sumMean : ℚ
  meanN : Nat
  sumRate : ℚ
  rateN : Nat
  anyOK : Bool
  lastErr : Option String
  store : Store

def Sums.addRate (sums : Sums) : Option Rate → Sums
  | none => sums
  | some rate =>
    let proxy := rate.value * (1 / 1000)
    { sums with sumRate := sums.sumRate + (if proxy > 1 then 1 else proxy), rateN := sums.rateN + 1 }

def Sums.result (sums : Sums) : Except String ℚ :=
  if 0 < sums.meanN then .ok (sums.sumMean / sums.meanN)
  else if 0 < sums.rateN then .ok (sums.sumRate / sums.rateN)
  else if sums.anyOK = false then .error (sums.lastErr.getD "forecaster: no scrape targets succeeded")
  else .error "forecaster: no matching series in scrape"

def scrapeSeries (now : Time) (lastAt : Option Time) (body : List UInt8) (pair : Nat × Nat) (series : List UInt8)
    (sums : Sums) : Sums :=
  match histogramMean body series with
  | some m => { sums with sumMean := sums.sumMean + m, meanN := sums.meanN + 1 }
  | none =>
    match counterTotalBytes body series with
    | none => sums
    | some c =>
      let rate := sums.store.rate now lastAt (slotIndex pair.1 pair.2) c
      { sums.addRate rate with store := sums.store.count now lastAt (pair, c) }

def scrapeTarget (now : Time) (lastAt : Option Time) (body : List UInt8) (ti : Nat) :
    Nat → List (List UInt8) → Sums → Sums
  | _, [], sums => sums
  | si, series :: rest, sums =>
    scrapeTarget now lastAt body ti (si + 1) rest (scrapeSeries now lastAt body (ti, si) series sums)

/-- A call: its time, and what the target of a number and an address answers it. -/
structure Call where
  now : Time
  answer : Nat → String → ScrapeResponse

def scrapeTargets (c : Call) (lastAt : Option Time) : Nat → List (Target × List (List UInt8)) → Sums → Sums
  | _, [], sums => sums
  | ti, (t, series) :: rest, sums =>
    match fetch (c.answer ti t.url) with
    | .error err => scrapeTargets c lastAt (ti + 1) rest { sums with lastErr := some err }
    | .ok body =>
      scrapeTargets c lastAt (ti + 1) rest
        (scrapeTarget c.now lastAt body ti 0 series { sums with anyOK := true })

def Scraper.sample (s : Scraper) (c : Call) : Except String ℚ × Scraper :=
  let sums := scrapeTargets c s.lastAt 0 (s.targets.zip s.seriesBytes) ⟨0, 0, 0, 0, false, none, s.store⟩
  (sums.result, { s with store := sums.store, lastAt := if c.now = zeroTime then none else some c.now })

def Scraper.run (s : Scraper) (cs : List Call) : Scraper := cs.foldl (fun s c => (s.sample c).2) s

/-! ## What a call reads -/

def counterValue (body series : List UInt8) : Option ℚ :=
  match histogramMean body series with
  | some _ => none
  | none => counterTotalBytes body series

def targetValues (body : List UInt8) (ti : Nat) : Nat → List (List UInt8) → List ((Nat × Nat) × ℚ)
  | _, [] => []
  | si, series :: rest =>
    ((counterValue body series).map fun v => ((ti, si), v)).toList ++ targetValues body ti (si + 1) rest

def Call.valuesFrom (c : Call) : Nat → List (Target × List (List UInt8)) → List ((Nat × Nat) × ℚ)
  | _, [] => []
  | ti, (t, series) :: rest =>
    match fetch (c.answer ti t.url) with
    | .error _ => c.valuesFrom (ti + 1) rest
    | .ok body => targetValues body ti 0 series ++ c.valuesFrom (ti + 1) rest

def Call.values (c : Call) (s : Scraper) : List ((Nat × Nat) × ℚ) := c.valuesFrom 0 (s.targets.zip s.seriesBytes)

theorem scrapeTarget_store (now : Time) (lastAt : Option Time) (body : List UInt8) (ti si : Nat)
    (series : List (List UInt8)) (sums : Sums) :
    (scrapeTarget now lastAt body ti si series sums).store =
      (targetValues body ti si series).foldl (Store.count now lastAt) sums.store := by
  induction series generalizing si sums with
  | nil => rfl
  | cons p rest ih =>
    unfold scrapeTarget targetValues
    rw [ih, List.foldl_append]
    congr 1
    unfold scrapeSeries counterValue
    cases histogramMean body p with
    | some m => rfl
    | none =>
      cases counterTotalBytes body p with
      | none => rfl
      | some c => rfl

theorem scrapeTargets_store (c : Call) (lastAt : Option Time) (ti : Nat) (l : List (Target × List (List UInt8)))
    (sums : Sums) :
    (scrapeTargets c lastAt ti l sums).store = (c.valuesFrom ti l).foldl (Store.count c.now lastAt) sums.store := by
  induction l generalizing ti sums with
  | nil => rfl
  | cons x rest ih =>
    unfold scrapeTargets Call.valuesFrom
    cases fetch (c.answer ti x.1.url) with
    | error err => exact ih _ _
    | ok body =>
      dsimp only
      rw [ih, scrapeTarget_store, List.foldl_append]

theorem sample_store (s : Scraper) (c : Call) :
    (s.sample c).2.store = (c.values s).foldl (Store.count c.now s.lastAt) s.store :=
  scrapeTargets_store c s.lastAt 0 _ _

variable {x : (Nat × Nat) × ℚ} {c : Call} {targets : List Target} {name : List UInt8} {idx : Nat} {s : Scraper}
  {st : Store} {now : Time}

theorem mem_targetValues {body : List UInt8} {ti k : Nat} {ps : List (List UInt8)} :
    x ∈ targetValues body ti k ps ↔
      x.1.1 = ti ∧ ∃ j series, x.1.2 = k + j ∧ ps[j]? = some series ∧ counterValue body series = some x.2 := by
  induction ps generalizing k with
  | nil => simp [targetValues]
  | cons p rest ih =>
    unfold targetValues
    rw [List.mem_append, ih]
    constructor
    · intro h
      rcases h with h | ⟨hti, j, series, hj, hseries, hvalue⟩
      · obtain ⟨v, hv, rfl⟩ := Option.map_eq_some_iff.mp (Option.mem_toList.mp h)
        exact ⟨rfl, 0, p, rfl, rfl, hv⟩
      · exact ⟨hti, j + 1, series, by omega, hseries, hvalue⟩
    · intro h
      obtain ⟨hti, j, series, hj, hseries, hvalue⟩ := h
      cases j with
      | zero =>
        cases hseries
        rw [Nat.add_zero] at hj
        refine .inl (Option.mem_toList.mpr (Option.map_eq_some_iff.mpr ⟨x.2, hvalue, ?_⟩))
        rw [← hti, ← hj]
      | succ j => exact .inr ⟨hti, j, series, by omega, hseries, hvalue⟩

theorem mem_valuesFrom {k : Nat} {l : List (Target × List (List UInt8))} :
    x ∈ c.valuesFrom k l ↔ ∃ j t ps series body, x.1.1 = k + j ∧ l[j]? = some (t, ps) ∧ ps[x.1.2]? = some series ∧
      fetch (c.answer x.1.1 t.url) = .ok body ∧ counterValue body series = some x.2 := by
  induction l generalizing k with
  | nil => simp [Call.valuesFrom]
  | cons y rest ih =>
    have hsplit : x ∈ c.valuesFrom k (y :: rest) ↔
        (∃ body, fetch (c.answer k y.1.url) = .ok body ∧ x ∈ targetValues body k 0 y.2) ∨
          x ∈ c.valuesFrom (k + 1) rest := by
      rw [Call.valuesFrom]
      cases fetch (c.answer k y.1.url) with
      | error err => simp
      | ok body => simp
    rw [hsplit, ih]
    constructor
    · intro h
      rcases h with ⟨body, hbody, hx⟩ | ⟨j, t, ps, series, body, hj, hl, hps, hbody, hvalue⟩
      · obtain ⟨hti, j, series, hj, hseries, hvalue⟩ := mem_targetValues.mp hx
        rw [Nat.zero_add] at hj
        exact ⟨0, y.1, y.2, series, body, hti, rfl, hj ▸ hseries, hti ▸ hbody, hvalue⟩
      · exact ⟨j + 1, t, ps, series, body, by omega, hl, hps, hbody, hvalue⟩
    · intro h
      obtain ⟨j, t, ps, series, body, hj, hl, hps, hbody, hvalue⟩ := h
      cases j with
      | zero =>
        cases hl
        rw [Nat.add_zero] at hj
        exact .inl ⟨body, hj ▸ hbody, mem_targetValues.mpr ⟨hj, x.1.2, series, by omega, hps, hvalue⟩⟩
      | succ j => exact .inr ⟨j, t, ps, series, body, by omega, hl, hps, hbody, hvalue⟩

theorem targetValues_nodup (body : List UInt8) (ti k : Nat) (ps : List (List UInt8)) :
    (targetValues body ti k ps).Pairwise fun x y => x.1 ≠ y.1 := by
  induction ps generalizing k with
  | nil => exact List.Pairwise.nil
  | cons p rest ih =>
    unfold targetValues
    rw [List.pairwise_append]
    refine ⟨?_, ih (k + 1), ?_⟩
    · cases counterValue body p with
      | none => exact List.Pairwise.nil
      | some v => exact List.pairwise_singleton _ _
    · intro x hx y hy heq
      obtain ⟨v, -, rfl⟩ := Option.map_eq_some_iff.mp (Option.mem_toList.mp hx)
      obtain ⟨-, j, -, hj, -⟩ := mem_targetValues.mp hy
      rw [← heq] at hj
      simp only at hj
      omega

theorem valuesFrom_nodup (c : Call) (k : Nat) (l : List (Target × List (List UInt8))) :
    (c.valuesFrom k l).Pairwise fun x y => x.1 ≠ y.1 := by
  induction l generalizing k with
  | nil => exact List.Pairwise.nil
  | cons y rest ih =>
    unfold Call.valuesFrom
    cases fetch (c.answer k y.1.url) with
    | error err => exact ih (k + 1)
    | ok body =>
      refine List.pairwise_append.mpr ⟨targetValues_nodup body k 0 y.2, ih (k + 1), ?_⟩
      intro x hx z hz heq
      obtain ⟨hti, -⟩ := mem_targetValues.mp hx
      obtain ⟨j, -, -, -, -, hj, -⟩ := mem_valuesFrom.mp hz
      rw [← heq, hti] at hj
      omega

def seriesAt (ls : List (List (List UInt8))) (pair : Nat × Nat) : Option (List UInt8) := ls[pair.1]?.bind (·[pair.2]?)

theorem mem_values :
    x ∈ c.values s ↔ ∃ t series body, s.targets[x.1.1]? = some t ∧ seriesAt s.seriesBytes x.1 = some series ∧
      fetch (c.answer x.1.1 t.url) = .ok body ∧ counterValue body series = some x.2 := by
  unfold Call.values seriesAt
  rw [mem_valuesFrom]
  constructor
  · intro h
    obtain ⟨j, t, ps, series, body, hj, hl, hps, hbody, hvalue⟩ := h
    obtain ⟨ht, hbytes⟩ := List.getElem?_zip_eq_some.mp hl
    rw [Nat.zero_add] at hj
    exact ⟨t, series, body, hj ▸ ht, Option.bind_eq_some_iff.mpr ⟨ps, hj ▸ hbytes, hps⟩, hbody, hvalue⟩
  · intro h
    obtain ⟨t, series, body, ht, hseries, hbody, hvalue⟩ := h
    obtain ⟨ps, hbytes, hps⟩ := Option.bind_eq_some_iff.mp hseries
    exact ⟨x.1.1, t, ps, series, body, (Nat.zero_add _).symm, List.getElem?_zip_eq_some.mpr ⟨ht, hbytes⟩, hps, hbody,
      hvalue⟩

/-! ## Which names are filled -/

/-- How many series stand before a pair's, over all targets. -/
def position (targets : List Target) (pair : Nat × Nat) : Nat :=
  ((targets.take pair.1).map (·.series.length)).sum + pair.2

def names (targets : List Target) : List (List (List UInt8)) := targets.map (·.series)

/-- Only an empty name is left out. -/
def Filled (targets : List Target) : Prop :=
  ∀ pair name, seriesAt (names targets) pair = some name →
    pair.2 = 0 ∨ position targets pair < maxSeriesSlots ∨ name = []

theorem fillSeries_slot (ps : List (List UInt8)) (slot k : Nat) :
    (fillSeries ps slot).2 + k < maxSeriesSlots ↔ slot + ps.length + k < maxSeriesSlots := by
  induction ps generalizing slot with
  | nil => rfl
  | cons p ps ih =>
    unfold fillSeries
    rw [List.length_cons]
    split
    · dsimp only
      omega
    · dsimp only
      rw [ih]
      omega

theorem fillSeries_eq_iff (ps : List (List UInt8)) (slot : Nat) :
    (fillSeries ps slot).1 = ps ↔
      ∀ (si : Nat) (name : List UInt8), ps[si]? = some name → si = 0 ∨ slot + si < maxSeriesSlots ∨ name = [] := by
  induction ps generalizing slot with
  | nil => simp [fillSeries]
  | cons p ps ih =>
    unfold fillSeries
    split
    · next hfull =>
      -- the loop ends here: whatever is behind stays empty
      have hempty : (ps.map fun _ => []) = ps ↔ ∀ name ∈ ps, [] = name := by
        simpa using List.map_inj_left (l := ps) (f := fun _ => ([] : List UInt8)) (g := id)
      rw [List.cons_inj_right, hempty]
      constructor
      · intro h si name hname
        cases si with
        | zero => exact .inl rfl
        | succ si => exact .inr (.inr (h name (List.mem_of_getElem? hname)).symm)
      · intro h name hname
        obtain ⟨si, hsi⟩ := List.mem_iff_getElem?.mp hname
        rcases h (si + 1) name hsi with h | h | h
        · cases h
        · omega
        · exact h.symm
    · next hroom =>
      rw [List.cons_inj_right, ih]
      constructor
      · intro h si name hname
        cases si with
        | zero => exact .inl rfl
        | succ si =>
          rcases h si name hname with h | h | h
          · exact .inr (.inl (by omega))
          · exact .inr (.inl (by omega))
          · exact .inr (.inr h)
      · intro h si name hname
        rcases h (si + 1) name hname with h | h | h
        · cases h
        · exact .inr (.inl (by omega))
        · exact .inr (.inr h)

theorem position_head (t : Target) (ts : List Target) (si : Nat) : position (t :: ts) (0, si) = si := by
  simp [position]

theorem position_tail (t : Target) (ts : List Target) (ti si : Nat) :
    position (t :: ts) (ti + 1, si) = t.series.length + position ts (ti, si) := by
  simp [position, Nat.add_assoc]

theorem fillTargets_from (targets : List Target) (slot : Nat) :
    fillTargets targets slot = names targets ↔
      ∀ pair name, seriesAt (names targets) pair = some name →
        pair.2 = 0 ∨ slot + position targets pair < maxSeriesSlots ∨ name = [] := by
  induction targets generalizing slot with
  | nil => simp [fillTargets, names, seriesAt]
  | cons t ts ih =>
    have hcons : fillTargets (t :: ts) slot = names (t :: ts) ↔
        (fillSeries t.series slot).1 = t.series ∧ fillTargets ts (fillSeries t.series slot).2 = names ts :=
      List.cons_eq_cons
    rw [hcons, fillSeries_eq_iff, ih]
    constructor
    · intro ⟨hhead, hrest⟩ pair name hname
      obtain ⟨ti, si⟩ := pair
      cases ti with
      | zero =>
        rw [position_head]
        exact hhead si name hname
      | succ ti =>
        have h := hrest (ti, si) name hname
        rw [fillSeries_slot, Nat.add_assoc] at h
        rw [position_tail]
        exact h
    · intro h
      constructor
      · intro si name hname
        have hpair := h (0, si) name hname
        rwa [position_head] at hpair
      · intro pair name hname
        have hpair := h (pair.1 + 1, pair.2) name hname
        rw [position_tail] at hpair
        rw [fillSeries_slot, Nat.add_assoc]
        exact hpair

theorem fillTargets_eq_iff (targets : List Target) :
    (newScraper targets).seriesBytes = names targets ↔ Filled targets := by
  have h := fillTargets_from targets 0
  simp only [Nat.zero_add] at h
  exact h

/-! ## Whose value is subtracted -/

def lastReading (readings : List Reading) (pair : Nat × Nat) : Option Reading :=
  readings.reverse.find? (·.pair = pair)

/-- What holds of every reading and those before it. -/
def Each (P : List Reading → Reading → Prop) (readings : List Reading) : Prop :=
  ∀ before x after, readings = before ++ x :: after → P before x

theorem each_nil (P : List Reading → Reading → Prop) : Each P [] := by
  intro before x after h
  exact absurd h (by simp)

theorem each_concat {P : List Reading → Reading → Prop} {readings : List Reading} {x : Reading} (h : Each P readings)
    (hx : P readings x) : Each P (readings ++ [x]) := by
  intro before y after hsplit
  rcases List.eq_nil_or_concat after with rfl | ⟨rest, z, rfl⟩
  · obtain ⟨rfl, hy⟩ := List.append_inj' hsplit rfl
    cases hy
    exact hx
  · have hsplit' : readings ++ [x] = (before ++ y :: rest) ++ [z] := by
      rw [hsplit]
      simp
    exact h before y rest (List.append_inj' hsplit' rfl).1

theorem lastReading_concat (readings : List Reading) (x : Reading) (pair : Nat × Nat) :
    lastReading (readings ++ [x]) pair = if x.pair = pair then some x else lastReading readings pair := by
  unfold lastReading
  rw [List.reverse_append, List.reverse_singleton, List.singleton_append, List.find?_cons]
  by_cases h : x.pair = pair
  · simp [h]
  · simp [h]

/-- A rate subtracts what was last read of the same pair. -/
def Own (before : List Reading) (x : Reading) : Prop :=
  ∀ r, x.rate = some r → (lastReading before x.pair).map Reading.value = some r.previous

def Readable (series : List UInt8) : Prop :=
  ∃ body, body.length ≤ scrapeBufCap ∧ (counterValue body series).isSome = true

/-- No two pairs that can be read share a slot. -/
def Separate (targets : List Target) : Prop :=
  ∀ p q name name', seriesAt (names targets) p = some name → seriesAt (names targets) q = some name' →
    slotIndex p.1 p.2 = slotIndex q.1 q.2 → slotIndex p.1 p.2 < maxSeriesSlots → Readable name → Readable name' → p = q

namespace Store

theorem counterAt_count (now : Time) (lastAt : Option Time) (st : Store) (x : (Nat × Nat) × ℚ) (idx : Nat) :
    (st.count now lastAt x).counterAt idx =
      if slotIndex x.1.1 x.1.2 = idx ∧ idx < maxSeriesSlots then some x.2 else st.counterAt idx := by
  unfold counterAt count
  rw [Vector.getElem?_setIfInBounds]
  by_cases hslot : slotIndex x.1.1 x.1.2 = idx
  · by_cases hidx : idx < maxSeriesSlots
    · simp [hslot, hidx]
    · simp [hslot, hidx]
  · simp [hslot]

theorem counterAt_lt {v : ℚ} (h : st.counterAt idx = some v) : idx < maxSeriesSlots := by
  by_contra hge
  unfold counterAt at h
  rw [Vector.getElem?_eq_none (by omega)] at h
  cases h

theorem counterAt_isSome {lastAt : Option Time} {l : List ((Nat × Nat) × ℚ)} (h : (st.counterAt idx).isSome = true) :
    ((l.foldl (count now lastAt) st).counterAt idx).isSome = true := by
  induction l generalizing st with
  | nil => exact h
  | cons x rest ih =>
    apply ih
    rw [counterAt_count]
    split
    · rfl
    · exact h

theorem rate_eq_some {lastAt : Option Time} {c : ℚ} {r : Rate} (h : st.rate now lastAt idx c = some r) :
    st.counterAt idx = some r.previous ∧ ∃ last, lastAt = some last ∧ 0 < seconds (timeSub now last) ∧
      r.value = max 0 ((c - r.previous) / seconds (timeSub now last)) := by
  unfold rate at h
  split at h
  · next previous last hcounter =>
    dsimp only at h
    split at h
    · next hdt =>
      obtain rfl := Option.some.inj h
      refine ⟨hcounter, last, rfl, hdt, ?_⟩
      dsimp only
      split
      · next hneg => rw [max_eq_left hneg.le]
      · next hpos => rw [max_eq_right (not_lt.mp hpos)]
    · cases h
  · cases h

theorem readings_foldl (now : Time) (lastAt : Option Time) (l : List ((Nat × Nat) × ℚ)) (st : Store) :
    ∃ more, (l.foldl (count now lastAt) st).readings = st.readings ++ more ∧ more.map (·.pair) = l.map Prod.fst ∧
      ∀ y ∈ more, ∃ st' : Store, y = st'.reading now lastAt (y.pair, y.value) := by
  induction l generalizing st with
  | nil => exact ⟨[], (List.append_nil _).symm, rfl, fun y hy => (by cases hy)⟩
  | cons x rest ih =>
    obtain ⟨more, hmore, hpairs, hread⟩ := ih (st.count now lastAt x)
    refine ⟨st.reading now lastAt x :: more, ?_, ?_, ?_⟩
    · rw [List.foldl_cons, hmore]
      exact List.append_assoc _ _ _
    · rw [List.map_cons, hpairs, List.map_cons]
      rfl
    · intro y hy
      rcases List.mem_cons.mp hy with rfl | hy
      · exact ⟨st, rfl⟩
      · exact hread y hy

theorem rate_isSome {last : Time} (c : ℚ) (hcounter : (st.counterAt idx).isSome = true)
    (hdt : 0 < seconds (timeSub now last)) : ∃ r, st.rate now (some last) idx c = some r := by
  obtain ⟨previous, hprevious⟩ := Option.isSome_iff_exists.mp hcounter
  unfold rate
  rw [hprevious]
  simp only [if_pos hdt]
  exact ⟨_, rfl⟩

end Store

/-! ## Pairs with slots of their own -/

structure Kept (targets : List Target) (st : Store) : Prop where
  slots : ∀ pair name, seriesAt (names targets) pair = some name → Readable name →
    slotIndex pair.1 pair.2 < maxSeriesSlots →
    st.counterAt (slotIndex pair.1 pair.2) = (lastReading st.readings pair).map Reading.value
  own : Each Own st.readings

theorem Kept.count (hsep : Separate targets) (h : Kept targets st) (now : Time) (lastAt : Option Time)
    (hname : seriesAt (names targets) x.1 = some name) (hread : Readable name) :
    Kept targets (st.count now lastAt x) where
  slots := by
    intro pair name' hname' hread' hlt
    have hreadings : (st.count now lastAt x).readings = st.readings ++ [st.reading now lastAt x] := rfl
    rw [Store.counterAt_count, hreadings, lastReading_concat]
    by_cases hslot : slotIndex x.1.1 x.1.2 = slotIndex pair.1 pair.2
    · have hpair : x.1 = pair := hsep _ _ _ _ hname hname' hslot (hslot ▸ hlt) hread hread'
      rw [if_pos ⟨hslot, hlt⟩, if_pos (show (st.reading now lastAt x).pair = pair from hpair)]
      rfl
    · have hpair : x.1 ≠ pair := fun heq => hslot (by rw [heq])
      rw [if_neg fun hs => hslot hs.1, if_neg (show (st.reading now lastAt x).pair ≠ pair from hpair)]
      exact h.slots pair name' hname' hread' hlt
  own := by
    refine each_concat h.own fun r hr => ?_
    obtain ⟨hcounter, -⟩ := Store.rate_eq_some hr
    rw [← hcounter]
    exact (h.slots x.1 name hname hread (Store.counterAt_lt hcounter)).symm

theorem readable_of_mem (h : x ∈ c.values s) : ∃ name, seriesAt s.seriesBytes x.1 = some name ∧ Readable name := by
  obtain ⟨t, name, body, -, hname, hbody, hvalue⟩ := mem_values.mp h
  refine ⟨name, hname, body, ?_, by rw [hvalue]; rfl⟩
  cases hanswer : c.answer x.1.1 t.url with
  | failed err =>
    rw [hanswer] at hbody
    cases hbody
  | answered statusCode sent arrived ending =>
    rw [hanswer] at hbody
    rw [fetch_body hbody, List.length_take, readEnd]
    omega

theorem run_targets (targets : List Target) (cs : List Call) :
    ((newScraper targets).run cs).targets = targets ∧
      ((newScraper targets).run cs).seriesBytes = (newScraper targets).seriesBytes := by
  induction cs using List.reverseRecOn with
  | nil => exact ⟨rfl, rfl⟩
  | append_singleton cs c ih =>
    unfold Scraper.run at ih ⊢
    rw [List.foldl_concat]
    exact ih

theorem run_concat (s : Scraper) (cs : List Call) (c : Call) : s.run (cs ++ [c]) = ((s.run cs).sample c).2 := by
  unfold Scraper.run
  rw [List.foldl_concat]

/-- With slots of their own, and names of their own, the slots are kept through every run. -/
theorem run_kept (hsep : Separate targets) (hnames : (newScraper targets).seriesBytes = names targets)
    (cs : List Call) : Kept targets ((newScraper targets).run cs).store := by
  induction cs using List.reverseRecOn with
  | nil =>
    refine ⟨fun pair name _ _ hlt => ?_, each_nil _⟩
    simp [Scraper.run, newScraper, Store.counterAt, lastReading, hlt]
  | append_singleton cs c ih =>
    have hbytes : ((newScraper targets).run cs).seriesBytes = names targets := by
      rw [(run_targets targets cs).2, hnames]
    rw [run_concat, sample_store]
    refine List.foldlRecOn _ _ ih fun st hst x hx => ?_
    obtain ⟨name, hname, hread⟩ := readable_of_mem hx
    exact hst.count hsep _ _ (hbytes ▸ hname) hread

/-! ## Pairs that share a slot -/

def onlyTarget (now : Time) (ti : Nat) (body : List UInt8) : Call :=
  ⟨now, fun i _ => if i = ti then .answered 200 body body.length .eof else .failed "no route"⟩

theorem mem_onlyTarget {pair : Nat × Nat} {t : Target} {body : List UInt8} {v : ℚ} (ht : s.targets[pair.1]? = some t)
    (hname : seriesAt s.seriesBytes pair = some name) (hlen : body.length ≤ scrapeBufCap)
    (hv : counterValue body name = some v) : (pair, v) ∈ (onlyTarget now pair.1 body).values s := by
  refine mem_values.mpr ⟨t, name, body, ht, hname, ?_, hv⟩
  have hanswer : (onlyTarget now pair.1 body).answer pair.1 t.url = .answered 200 body body.length .eof := if_pos rfl
  rw [hanswer, fetch_ok, List.take_of_length_le hlen]

theorem target_of_onlyTarget {ti : Nat} {body : List UInt8} (h : x ∈ (onlyTarget now ti body).values s) :
    x.1.1 = ti := by
  obtain ⟨t, name, got, -, -, hbody, -⟩ := mem_values.mp h
  by_contra hne
  have hanswer : (onlyTarget now ti body).answer x.1.1 t.url = .failed "no route" := if_neg hne
  rw [hanswer] at hbody
  cases hbody

theorem readings_sample (s : Scraper) (c : Call) :
    ∃ more, (s.sample c).2.store.readings = s.store.readings ++ more ∧
      more.map (·.pair) = (c.values s).map Prod.fst ∧ (more.Pairwise fun x y => x.pair ≠ y.pair) ∧
      ∀ y ∈ more, ∃ st : Store, y = st.reading c.now s.lastAt (y.pair, y.value) := by
  obtain ⟨more, hmore, hpairs, hread⟩ := Store.readings_foldl c.now s.lastAt (c.values s) s.store
  refine ⟨more, by rw [sample_store, hmore], hpairs, ?_, hread⟩
  have hnodup : (more.map (·.pair)).Pairwise (· ≠ ·) := by
    rw [hpairs]
    exact List.pairwise_map.mpr (valuesFrom_nodup c 0 (s.targets.zip s.seriesBytes))
  exact List.pairwise_map.mp hnodup

theorem mem_readings_sample {y : Reading} (h : y ∈ (s.sample c).2.store.readings) :
    y ∈ s.store.readings ∨ ∃ v, (y.pair, v) ∈ c.values s := by
  obtain ⟨more, hmore, hpairs, -⟩ := readings_sample s c
  rw [hmore] at h
  rcases List.mem_append.mp h with h | h
  · exact .inl h
  · have hpair : y.pair ∈ (c.values s).map Prod.fst := by
      rw [← hpairs]
      exact List.mem_map_of_mem h
    obtain ⟨z, hz, hzy⟩ := List.mem_map.mp hpair
    exact .inr ⟨z.2, hzy ▸ hz⟩

theorem counterAt_sample {q : Nat × Nat} {v : ℚ} (h : (q, v) ∈ c.values s) (hlt : slotIndex q.1 q.2 < maxSeriesSlots) :
    ((s.sample c).2.store.counterAt (slotIndex q.1 q.2)).isSome = true := by
  obtain ⟨l, l', hvalues⟩ := List.append_of_mem h
  rw [sample_store, hvalues, List.foldl_append, List.foldl_cons]
  apply Store.counterAt_isSome
  rw [Store.counterAt_count, if_pos ⟨rfl, hlt⟩]
  rfl

theorem lastReading_eq_none {readings : List Reading} {pair : Nat × Nat} (h : ∀ y ∈ readings, y.pair ≠ pair) :
    lastReading readings pair = none := by
  unfold lastReading
  rw [List.find?_eq_none]
  intro y hy
  simpa using h y (List.mem_reverse.mp hy)

/-- A slot that another pair has written is subtracted though this pair was never read. -/
theorem not_own_of_shared {p : Nat × Nat} {w : ℚ} {last : Time} (hw : (p, w) ∈ c.values s)
    (hslot : (s.store.counterAt (slotIndex p.1 p.2)).isSome = true) (hnever : ∀ y ∈ s.store.readings, y.pair ≠ p)
    (hlast : s.lastAt = some last) (hdt : 0 < seconds (timeSub c.now last)) :
    ¬Each Own (s.sample c).2.store.readings := by
  obtain ⟨l, l', hvalues⟩ := List.append_of_mem hw
  have hnodup := valuesFrom_nodup c 0 (s.targets.zip s.seriesBytes)
  rw [sample_store, hvalues, List.foldl_append, List.foldl_cons]
  obtain ⟨more, hmore, hpairs, -⟩ := Store.readings_foldl c.now s.lastAt l s.store
  have hcounter : ((l.foldl (Store.count c.now s.lastAt) s.store).counterAt (slotIndex p.1 p.2)).isSome = true :=
    Store.counterAt_isSome hslot
  revert hmore hcounter
  generalize l.foldl (Store.count c.now s.lastAt) s.store = st
  intro hmore hcounter hown
  obtain ⟨after, hafter, -⟩ := Store.readings_foldl c.now s.lastAt l' (st.count c.now s.lastAt (p, w))
  obtain ⟨r, hr⟩ := Store.rate_isSome w hcounter hdt
  have hx := hown st.readings (st.reading c.now s.lastAt (p, w)) after
    (by rw [hafter]; exact List.append_assoc _ _ _) r (by rw [← hr, ← hlast]; rfl)
  have hnone : lastReading st.readings p = none := by
    apply lastReading_eq_none
    intro y hy
    rw [hmore] at hy
    rcases List.mem_append.mp hy with hy | hy
    · exact hnever y hy
    · -- the call has not come to this pair yet
      intro hyp
      have hmem : p ∈ l.map Prod.fst := by
        rw [← hpairs, ← hyp]
        exact List.mem_map_of_mem hy
      obtain ⟨z, hz, hzp⟩ := List.mem_map.mp hmem
      rw [show c.valuesFrom 0 (s.targets.zip s.seriesBytes) = _ from hvalues, List.pairwise_append] at hnodup
      exact hnodup.2.2 z hz (p, w) List.mem_cons_self hzp
  have hpair : (st.reading c.now s.lastAt (p, w)).pair = p := rfl
  rw [hpair, hnone] at hx
  cases hx

theorem target_of_name {pair : Nat × Nat} (h : seriesAt (names targets) pair = some name) :
    ∃ t, targets[pair.1]? = some t := by
  obtain ⟨ps, hps, -⟩ := Option.bind_eq_some_iff.mp h
  unfold names at hps
  rw [List.getElem?_map] at hps
  obtain ⟨t, ht, -⟩ := Option.map_eq_some_iff.mp hps
  exact ⟨t, ht⟩

theorem shared_slot_run (hnames : (newScraper targets).seriesBytes = names targets) {p q : Nat × Nat}
    {name' : List UInt8} (hp : seriesAt (names targets) p = some name) (hq : seriesAt (names targets) q = some name')
    (hslot : slotIndex p.1 p.2 = slotIndex q.1 q.2) (hlt : slotIndex p.1 p.2 < maxSeriesSlots) (hread : Readable name)
    (hread' : Readable name') (hne : p ≠ q) : ∃ cs, ¬Each Own ((newScraper targets).run cs).store.readings := by
  obtain ⟨body, hlen, hv⟩ := hread
  obtain ⟨w, hw⟩ := Option.isSome_iff_exists.mp hv
  obtain ⟨body', hlen', hv'⟩ := hread'
  obtain ⟨v, hv⟩ := Option.isSome_iff_exists.mp hv'
  obtain ⟨t, ht⟩ := target_of_name hp
  obtain ⟨t', ht'⟩ := target_of_name hq
  have htargets : p.1 ≠ q.1 := by
    intro heq
    apply hne
    unfold slotIndex at hslot
    exact Prod.ext heq (by omega)
  let s := ((newScraper targets).sample (onlyTarget 0 q.1 body')).2
  have hfirst : (q, v) ∈ (onlyTarget 0 q.1 body').values (newScraper targets) :=
    mem_onlyTarget ht' (hnames ▸ hq) hlen' hv
  have hsecond : (p, w) ∈ (onlyTarget second p.1 body).values s := mem_onlyTarget ht (hnames ▸ hp) hlen hw
  have htaken : (s.store.counterAt (slotIndex p.1 p.2)).isSome = true := by
    rw [hslot] at hlt ⊢
    exact counterAt_sample hfirst hlt
  have hnever : ∀ y ∈ s.store.readings, y.pair ≠ p := by
    intro y hy hyp
    rcases mem_readings_sample hy with hold | ⟨u, hu⟩
    · cases hold
    · rw [hyp] at hu
      exact htargets (target_of_onlyTarget hu)
  have hlast : s.lastAt = some 0 := rfl
  exact ⟨[onlyTarget 0 q.1 body', onlyTarget second p.1 body],
    not_own_of_shared hsecond htaken hnever hlast (seconds_pos (show 0 < timeSub second 0 by decide))⟩

/-- Over every run each rate subtracts its own pair's last value and each series has its own name,
    exactly if what is not filled is empty and no two pairs that can be read share a slot. -/
theorem own_counters_iff (targets : List Target) :
    ((newScraper targets).seriesBytes = names targets ∧
        ∀ cs, Each Own ((newScraper targets).run cs).store.readings) ↔
      Filled targets ∧ Separate targets := by
  rw [fillTargets_eq_iff]
  constructor
  · intro ⟨hfilled, hown⟩
    refine ⟨hfilled, fun p q name name' hp hq hslot hlt hread hread' => ?_⟩
    by_contra hne
    obtain ⟨cs, hcs⟩ := shared_slot_run ((fillTargets_eq_iff targets).mpr hfilled) hp hq hslot hlt hread hread' hne
    exact hcs (hown cs)
  · intro ⟨hfilled, hsep⟩
    exact ⟨hfilled, fun cs => (run_kept hsep ((fillTargets_eq_iff targets).mpr hfilled) cs).own⟩

def nineAndOne : List Target := [⟨"a", (ascii "abcdefghi").map fun b => [b]⟩, ⟨"b", [ascii "j"]⟩]

def thirtyThree : List Target := [⟨"a", (List.range 33).map fun i => [.ofNat (i + 90)]⟩]

/-- The rate of `i` is made of the value of `j`, and a series past the 32nd matches every name. -/
theorem a_rate_of_another_counter :
    ((newScraper nineAndOne).run [onlyTarget 0 1 (ascii "j 5"), onlyTarget second 0 (ascii "i 7")]).store.readings =
        [⟨(1, 0), 0, 5, none⟩, ⟨(0, 8), second, 7, some ⟨5, 2⟩⟩] ∧
      (¬∀ cs, Each Own ((newScraper nineAndOne).run cs).store.readings) ∧
      seriesAt (names thirtyThree) (0, 32) = some (ascii "z") ∧
      seriesAt (newScraper thirtyThree).seriesBytes (0, 32) = some [] := by
  have hrun : ((newScraper nineAndOne).run
      [onlyTarget 0 1 (ascii "j 5"), onlyTarget second 0 (ascii "i 7")]).store.readings =
        [⟨(1, 0), 0, 5, none⟩, ⟨(0, 8), second, 7, some ⟨5, 2⟩⟩] := by
    decide +kernel
  refine ⟨hrun, fun h => ?_, by decide +kernel, by decide +kernel⟩
  have hown := h _ [⟨(1, 0), 0, 5, none⟩] _ [] hrun ⟨5, 2⟩ rfl
  exact absurd hown (by decide)

end EliteTelemetry.Forecaster
