/-
  EliteTelemetry.Forecaster.RingWindow — what the ring of samples holds, and its velocity
  (`ring.go` of `pkg/forecaster`).

  For its user the ring is the last samples pushed, as many as it has room for. In the buffer
  sample number `j` lies in cell `j % cap`, until the sample `cap` later takes its place
  (`Holds`). Read from the oldest on, the cells are those samples in the order of their
  pushes; `Snapshot` copies them out and `VelocityLS` takes the slope of the line closest to
  them. From two samples on what the slope is divided by is positive, so that the
  branch for zero is never taken (`ring_window_velocity`).
-/

import EliteTelemetry.Forecaster.Kinematic
import EliteTelemetry.Lib.LeastSquares
import Mathlib.Data.List.GetD
import Mathlib.Data.Nat.ModEq

namespace EliteTelemetry.Forecaster

open EliteTelemetry.Lib.LeastSquares

def window (cap : Nat) (vs : List ℚ) : List ℚ := vs.drop (vs.length - cap)

theorem window_length (cap : Nat) (vs : List ℚ) : (window cap vs).length = min vs.length cap := by
  rw [window, List.length_drop]
  omega

variable {vs : List ℚ} {r : Ring}

namespace Ring

/-! ## Snapshots -/

def copyTo (r : Ring) (dst : List ℚ) : Nat → List ℚ
  | 0 => dst
  | i + 1 => (r.copyTo dst i).set i (r.nth i)

def snapshot (r : Ring) (dst : List ℚ) : Nat × List ℚ :=
  if r.len = 0 ∨ dst.length = 0 then (0, dst)
  else
    let n := if dst.length < r.len then dst.length else r.len
    (n, r.copyTo dst n)

theorem copyTo_eq (r : Ring) {dst : List ℚ} {n : Nat} (hn : n ≤ dst.length) :
    r.copyTo dst n = (List.range n).map r.nth ++ dst.drop n := by
  induction n with
  | zero => rfl
  | succ n ih =>
    rw [copyTo, ih (by omega), List.drop_eq_getElem_cons hn, List.set_append_right _ _ (by simp), List.range_succ]
    simp only [List.length_map, List.length_range, Nat.sub_self, List.set_cons_zero, List.map_append, List.map_cons,
      List.map_nil, List.append_assoc, List.singleton_append]

/-! ## Cells -/

structure Holds (r : Ring) (vs : List ℚ) : Prop where
  len : r.len = min vs.length r.cap
  head : r.head = vs.length % r.cap
  /-- Sample `j` is in its cell, if it is one of the last. -/
  cell : ∀ j v, vs.length ≤ j + r.len → vs[j]? = some v → r.buf[j % r.cap]? = some v

theorem holds_newRing (n : ℤ) : Holds (newRing n) [] := by
  refine ⟨rfl, rfl, ?_⟩
  intro j v _ hv
  simp at hv

theorem cap_pos (r : Ring) : 0 < r.cap := Nat.zero_lt_of_lt r.headLt

@[simp] theorem push_cap (r : Ring) (v : ℚ) : (r.push v).cap = r.cap := rfl

theorem push_len (r : Ring) (v : ℚ) : (r.push v).len = if r.len < r.cap then r.len + 1 else r.len := rfl

theorem push_head (r : Ring) (v : ℚ) : (r.push v).head = (r.head + 1) % r.cap := rfl

theorem push_cell (r : Ring) (v : ℚ) (k : Nat) :
    (r.push v).buf[k]? = if r.head = k then some v else r.buf[k]? :=
  Vector.getElem?_set (Nat.lt_of_lt_of_le r.headLt r.capLe)

theorem mod_ne_of_lt {cap j k : Nat} (hlt : j < k) (hround : k < j + cap) : j % cap ≠ k % cap := by
  intro h
  have hdvd := (Nat.modEq_iff_dvd' (Nat.le_of_lt hlt)).mp h
  have := Nat.le_of_dvd (by omega) hdvd
  omega

theorem Holds.push (h : Holds r vs) (v : ℚ) : Holds (r.push v) (vs ++ [v]) := by
  have hlen := h.len
  have hlen' : (r.push v).len = min (vs.length + 1) r.cap := by
    rw [push_len]
    split <;> omega
  refine ⟨?_, ?_, ?_⟩
  · rw [List.length_append]
    exact hlen'
  · rw [push_head, push_cap, h.head, Nat.mod_add_mod, List.length_append]
    rfl
  · intro j u hj hu
    rw [List.length_append, List.length_singleton, hlen'] at hj
    rw [push_cell, push_cap, h.head]
    rcases Nat.lt_or_ge j vs.length with hlt | hge
    · rw [List.getElem?_append_left hlt] at hu
      rw [if_neg (mod_ne_of_lt hlt (by omega)).symm]
      exact h.cell j u (by omega) hu
    · obtain rfl : j = vs.length := by
        have := (List.getElem?_eq_some_iff.mp hu).1
        simp only [List.length_append, List.length_singleton] at this
        omega
      rw [if_pos rfl]
      simpa using hu

theorem Holds.pushes {us : List ℚ} (h : Holds r us) (vs : List ℚ) : Holds (vs.foldl Ring.push r) (us ++ vs) := by
  induction vs generalizing r us with
  | nil => simpa using h
  | cons v vs ih => simpa using ih (h.push v)

theorem pushes_cap (r : Ring) (vs : List ℚ) : (vs.foldl Ring.push r).cap = r.cap := by
  induction vs generalizing r with
  | nil => rfl
  | cons v vs ih => exact ih (r.push v)

theorem Holds.nth (h : Holds r vs) {i : Nat} (hi : i < r.len) : (window r.cap vs)[i]? = some (r.nth i) := by
  have hlen := h.len
  have hcap := r.cap_pos
  have hlt : vs.length - r.cap + i < vs.length := by omega
  -- the cell of the sample and the cell that is read
  have hcell : (vs.length - r.cap + i) % r.cap = ((if r.len = r.cap then r.head else 0) + i) % r.cap := by
    split
    · next hfull =>
      rw [h.head, Nat.mod_add_mod, ← Nat.add_mod_right]
      congr 1
      omega
    · next hroom =>
      congr 1
      omega
  have hread := h.cell _ _ (by omega) (List.getElem?_eq_getElem hlt)
  rw [window, List.getElem?_drop, List.getElem?_eq_getElem hlt, ← hread, hcell]
  exact Vector.getElem?_eq_getElem _

theorem Holds.map_nth (h : Holds r vs) : (List.range r.len).map r.nth = window r.cap vs := by
  refine List.ext_getElem? fun i => ?_
  rcases Nat.lt_or_ge i r.len with hlt | hge
  · rw [h.nth hlt]
    simp [hlt]
  · rw [List.getElem?_eq_none (by simpa using hge), List.getElem?_eq_none (by rw [window_length, ← h.len]; exact hge)]

theorem Holds.snapshot (h : Holds r vs) {dst : List ℚ} (hdst : r.cap ≤ dst.length) :
    r.snapshot dst = ((window r.cap vs).length, window r.cap vs ++ dst.drop (window r.cap vs).length) := by
  have hle := r.lenLe
  have hcap := r.cap_pos
  rw [window_length, ← h.len, ← h.map_nth, Ring.snapshot]
  split
  · next hzero =>
    have hlen : r.len = 0 := by omega
    simp [hlen]
  · rw [if_neg (by omega)]
    simp only [r.copyTo_eq (show r.len ≤ dst.length by omega)]

end Ring

/-! ## The velocity -/

/-- The slope of a line closest to the values at 0, 1, 2 and so on. -/
def SlopeOf (ys : List ℚ) (b : ℚ) : Prop :=
  IsSlope (Finset.range ys.length) (fun i => (i : ℚ)) (fun i => ys.getD i 0) b

def Steps (d : ℚ) (ys : List ℚ) : Prop := ∀ i u w, ys[i]? = some u → ys[i + 1]? = some w → w - u = d

theorem slopeOf_of_length_le_one {ys : List ℚ} (h : ys.length ≤ 1) (b : ℚ) : SlopeOf ys b :=
  isSlope_of_card_le_one (by rwa [Finset.card_range]) b

theorem slopeOf_iff {ys : List ℚ} (h : 2 ≤ ys.length) (b : ℚ) :
    SlopeOf ys b ↔ b = fitSlope (Finset.range ys.length) (fun i => (i : ℚ)) fun i => ys.getD i 0 :=
  isSlope_iff (i := 0) (j := 1) (Finset.mem_range.mpr (by omega)) (Finset.mem_range.mpr (by omega)) (by simp) b

theorem Steps.slopeOf {d : ℚ} {ys : List ℚ} (h : Steps d ys) : SlopeOf ys d := by
  refine ⟨ys.getD 0 0, isFit_of_line fun i hi => ?_⟩
  induction i with
  | zero => simp
  | succ i ih =>
    have hlt := Finset.mem_range.mp hi
    have hstep := h i ys[i] ys[i + 1] (List.getElem?_eq_getElem _) (List.getElem?_eq_getElem hlt)
    have hi' := ih (Finset.mem_range.mpr (by omega))
    rw [List.getD_eq_getElem _ _ (by omega)] at hi' ⊢
    push_cast
    linarith

namespace Ring

theorem sums_eq (r : Ring) (n : Nat) :
    r.sums n = (∑ i ∈ Finset.range n, (i : ℚ), ∑ i ∈ Finset.range n, r.nth i,
      ∑ i ∈ Finset.range n, i * r.nth i, ∑ i ∈ Finset.range n, (i : ℚ) * i) := by
  induction n with
  | zero => rfl
  | succ n ih => simp only [sums, ih, Finset.sum_range_succ]

theorem velocityLS_eq (r : Ring) (h : 2 ≤ r.len) {dt : ℚ} (hdt : 0 < dt) :
    r.velocityLS dt = fitSlope (Finset.range r.len) (fun i => (i : ℚ)) r.nth / dt := by
  have hspread : 0 < spread (Finset.range r.len) fun i => (i : ℚ) :=
    spread_pos (i := 0) (j := 1) (Finset.mem_range.mpr (by omega)) (Finset.mem_range.mpr (by omega)) (by simp)
  have hne := hspread.ne'
  unfold spread at hne
  rw [Finset.card_range] at hne
  unfold velocityLS fitSlope spread
  simp only [sums_eq, Finset.card_range, if_neg (Nat.not_lt.mpr h), if_neg hne, if_neg (not_le.mpr hdt)]

/-- With two samples or more there is one slope, and the velocity is that slope a second. -/
theorem Holds.velocityLS_iff (h : Holds r vs) (hlen : 2 ≤ r.len) {dt : ℚ} (hdt : 0 < dt) (b : ℚ) :
    SlopeOf (window r.cap vs) b ↔ r.velocityLS dt = 1 / dt * b := by
  have hwindow : (window r.cap vs).length = r.len := by rw [window_length, h.len]
  have hslope : fitSlope (Finset.range r.len) (fun i => (i : ℚ)) (fun i => (window r.cap vs).getD i 0) =
      fitSlope (Finset.range r.len) (fun i => (i : ℚ)) r.nth := by
    refine fitSlope_congr fun i hi => ?_
    rw [List.getD_eq_getElem?_getD, h.nth (Finset.mem_range.mp hi), Option.getD_some]
  rw [slopeOf_iff (by omega), hwindow, hslope, r.velocityLS_eq hlen hdt, one_div_mul_eq_div, div_left_inj' hdt.ne',
    eq_comm]

end Ring

def pushed (n : ℤ) (vs : List ℚ) : Ring := vs.foldl Ring.push (newRing n)

def keptOf (n : ℤ) (vs : List ℚ) : List ℚ := window (pushed n vs).cap vs

theorem pushed_holds (n : ℤ) (vs : List ℚ) : Ring.Holds (pushed n vs) vs := (Ring.holds_newRing n).pushes vs

/-- After any pushes into a ring of any capacity the snapshot is the last samples, oldest
    first, and the velocity the slope of the line closest to them a second: the only such
    slope once there are two samples, and their step a second if they go up in even steps. -/
theorem ring_window_velocity (n : ℤ) (vs : List ℚ) :
    (pushed n vs).cap = max 2 (min n.toNat maxRingCap) ∧
      keptOf n vs = vs.drop (vs.length - min vs.length (pushed n vs).cap) ∧
      (∀ dst, (pushed n vs).cap ≤ dst.length → (pushed n vs).snapshot dst =
        ((keptOf n vs).length, keptOf n vs ++ dst.drop (keptOf n vs).length)) ∧
      ∀ dt, 0 < dt → SlopeOf (keptOf n vs) (dt * (pushed n vs).velocityLS dt) ∧
        (2 ≤ vs.length → ∀ b, SlopeOf (keptOf n vs) b → (pushed n vs).velocityLS dt = 1 / dt * b) ∧
        (2 ≤ vs.length → ∀ d, Steps d (keptOf n vs) → (pushed n vs).velocityLS dt = d / dt) := by
  have hholds := pushed_holds n vs
  have hcap : (pushed n vs).cap = max 2 (min n.toNat maxRingCap) := Ring.pushes_cap (newRing n) vs
  have hlen := hholds.len
  have hkept : keptOf n vs = vs.drop (vs.length - min vs.length (pushed n vs).cap) := by
    rw [keptOf, window]
    congr 1
    omega
  refine ⟨hcap, hkept, fun dst hdst => hholds.snapshot hdst, ?_⟩
  intro dt hdt
  refine ⟨?_, ?_, ?_⟩
  · rcases Nat.lt_or_ge (pushed n vs).len 2 with hlt | hge
    · exact slopeOf_of_length_le_one (by rw [keptOf, window_length]; omega) _
    · rw [keptOf, hholds.velocityLS_iff hge hdt, one_div, inv_mul_cancel_left₀ hdt.ne']
  · intro htwo b hb
    exact (hholds.velocityLS_iff (by omega) hdt b).mp hb
  · intro htwo d hd
    rw [(hholds.velocityLS_iff (by omega) hdt d).mp hd.slopeOf, one_div_mul_eq_div]

/-- A ring of two that was pushed three samples, half a second apart. -/
theorem ring_window_velocity_wrapped :
    (pushed 2 [1, 3, 5]).snapshot [0, 0, 0] = (2, [3, 5, 0]) ∧ (pushed 2 [1, 3, 5]).velocityLS (1 / 2) = 4 := by
  obtain ⟨-, -, hsnapshot, hvelocity⟩ := ring_window_velocity 2 [1, 3, 5]
  have hkept : keptOf 2 [1, 3, 5] = [3, 5] := rfl
  have hsteps : Steps 2 (keptOf 2 [1, 3, 5]) := by
    intro i u w hu hw
    rw [hkept] at hu hw
    cases i with
    | zero =>
      obtain rfl : 3 = u := Option.some.inj hu
      obtain rfl : 5 = w := Option.some.inj hw
      norm_num
    | succ i => simp at hw
  constructor
  · rw [hsnapshot [0, 0, 0] (by decide), hkept]
    rfl
  · rw [(hvelocity (1 / 2) (by norm_num)).2.2 (by decide) 2 hsteps]
    norm_num

end EliteTelemetry.Forecaster
