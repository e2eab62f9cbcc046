import Mathlib.MeasureTheory.Measure.Lebesgue.Basic

/-!
# Intervals — the length of a union of intervals

Closed intervals with rational ends are swept in the order of their starts: intervals that touch are merged to a span,
and the lengths of the spans are added up.  The sum is the Lebesgue measure of the union, so that it does not depend
on the order in which the intervals are listed.
-/

namespace TemporalSdk.Machine

open MeasureTheory (volume)

structure Interval where
  start : ℚ
  stop : ℚ
  ordered : start ≤ stop

namespace Interval

def length (i : Interval) : ℚ := i.stop - i.start

/-- The points of an interval. -/
def points (i : Interval) : Set ℝ := Set.Icc (i.start : ℝ) i.stop

theorem length_nonneg (i : Interval) : 0 ≤ i.length := sub_nonneg.mpr i.ordered

theorem volume_points (i : Interval) : volume i.points = ENNReal.ofReal i.length := by
  rw [points, Real.volume_Icc, length]
  push_cast
  rfl

/-- The points of a union. -/
def covered : List Interval → Set ℝ
  | [] => ∅
  | i :: is => i.points ∪ covered is

theorem mem_covered {is : List Interval} {x : ℝ} : x ∈ covered is ↔ ∃ i ∈ is, x ∈ i.points := by
  induction is with
  | nil => simp [covered]
  | cons i is ih => simp [covered, ih]

theorem covered_perm {is js : List Interval} (h : is.Perm js) : covered is = covered js := by
  ext x
  simp only [mem_covered, h.mem_iff]

theorem measurableSet_covered (is : List Interval) : MeasurableSet (covered is) := by
  induction is with
  | nil => exact MeasurableSet.empty
  | cons i is ih => exact measurableSet_Icc.union ih

theorem volume_covered_le (is : List Interval) :
    volume (covered is) ≤ ENNReal.ofReal (is.map length).sum := by
  induction is with
  | nil => simp [covered]
  | cons i is ih =>
    have hsum : (0 : ℚ) ≤ (is.map length).sum := by
      refine List.sum_nonneg fun x hx => ?_
      rcases List.mem_map.mp hx with ⟨j, _, rfl⟩
      exact j.length_nonneg
    calc volume (covered (i :: is)) ≤ volume i.points + volume (covered is) :=
          MeasureTheory.measure_union_le _ _
      _ ≤ ENNReal.ofReal i.length + ENNReal.ofReal (is.map length).sum := by
          rw [volume_points]
          gcongr
      _ = ENNReal.ofReal (((i :: is).map length).sum : ℚ) := by
          rw [List.map_cons, List.sum_cons, Rat.cast_add,
            ENNReal.ofReal_add (by exact_mod_cast i.length_nonneg) (by exact_mod_cast hsum)]

theorem length_le_volume_covered {is : List Interval} {i : Interval} (h : i ∈ is) :
    ENNReal.ofReal i.length ≤ volume (covered is) := by
  rw [← volume_points]
  exact MeasureTheory.measure_mono fun x hx => mem_covered.mpr ⟨i, h, hx⟩

/-! ## The sweep -/

/-- The spans before the one from `spanStart` to `spanEnd` are `total` long. -/
def sweep (total spanStart spanEnd : ℚ) : List Interval → ℚ
  | [] => total + (spanEnd - spanStart)
  | i :: is =>
    if spanEnd < i.start then sweep (total + (spanEnd - spanStart)) i.start i.stop is
    else if spanEnd < i.stop then sweep total spanStart i.stop is
    else sweep total spanStart spanEnd is

theorem le_sweep {is : List Interval} {total s e : ℚ} (h : s ≤ e) : total + (e - s) ≤ sweep total s e is := by
  induction is generalizing total s e with
  | nil => exact le_rfl
  | cons i is ih =>
    unfold sweep
    split_ifs with hgap hlonger
    · have hnext := @ih (total + (e - s)) _ _ i.ordered
      have hlen := i.ordered
      linarith
    · have hnext := @ih total _ _ (h.trans hlonger.le)
      linarith
    · exact ih h

theorem span_union {s e : ℚ} (i : Interval) (hstart : s ≤ i.start) (htouch : i.start ≤ e) :
    Set.Icc (s : ℝ) e ∪ i.points = Set.Icc (s : ℝ) (max e i.stop : ℚ) := by
  have hs : (s : ℝ) ≤ i.start := by exact_mod_cast hstart
  have he : (i.start : ℝ) ≤ e := by exact_mod_cast htouch
  have hi : (i.start : ℝ) ≤ i.stop := by exact_mod_cast i.ordered
  rw [points, Set.Icc_union_Icc' he (hs.trans hi), min_eq_left hs, Rat.cast_max]

/-- What is left starts no earlier than the span. -/
theorem volume_sweep {is : List Interval} {total s e : ℚ} (h : s ≤ e)
    (hsorted : is.Pairwise fun i j => i.start ≤ j.start) (hlater : ∀ i ∈ is, s ≤ i.start) :
    volume (Set.Icc (s : ℝ) e ∪ covered is) = ENNReal.ofReal (sweep total s e is - total : ℚ) := by
  induction is generalizing total s e with
  | nil => simp [covered, sweep]
  | cons i is ih =>
    rcases List.pairwise_cons.mp hsorted with ⟨hfirst, hrest⟩
    have hstart := hlater i List.mem_cons_self
    by_cases hgap : e < i.start
    · have hnext := @ih (total + (e - s)) _ _ i.ordered hrest hfirst
      have hbound := @le_sweep is (total + (e - s)) _ _ i.ordered
      have hlen := i.ordered
      -- The span is over: everything that follows lies behind it.
      have hdisjoint : Disjoint (Set.Icc (s : ℝ) e) (covered (i :: is)) := by
        rw [Set.disjoint_left]
        intro x hx hcovered
        rcases mem_covered.mp hcovered with ⟨j, hj, hxj⟩
        have hjstart : i.start ≤ j.start := by
          rcases List.mem_cons.mp hj with rfl | hj
          · exact le_rfl
          · exact hfirst j hj
        have hlt : (e : ℝ) < j.start := by exact_mod_cast hgap.trans_le hjstart
        exact absurd (hx.2.trans_lt hlt) (not_lt.mpr hxj.1)
      calc volume (Set.Icc (s : ℝ) e ∪ covered (i :: is))
          = volume (Set.Icc (s : ℝ) e) + volume (i.points ∪ covered is) :=
            MeasureTheory.measure_union hdisjoint (measurableSet_covered _)
        _ = ENNReal.ofReal (e - s : ℚ) +
              ENNReal.ofReal (sweep (total + (e - s)) i.start i.stop is - (total + (e - s)) : ℚ) := by
            rw [points, hnext, Real.volume_Icc, ← Rat.cast_sub]
        _ = ENNReal.ofReal (sweep total s e (i :: is) - total : ℚ) := by
            rw [← ENNReal.ofReal_add (by exact_mod_cast sub_nonneg.mpr h)
              (by exact_mod_cast sub_nonneg.mpr (by linarith)), sweep, if_pos hgap]
            congr 1
            push_cast
            ring
    · have hunion : Set.Icc (s : ℝ) e ∪ covered (i :: is) =
          Set.Icc (s : ℝ) (max e i.stop : ℚ) ∪ covered is := by
        rw [covered, ← Set.union_assoc, span_union i hstart (not_lt.mp hgap)]
      have hsweep : sweep total s e (i :: is) = sweep total s (max e i.stop) is := by
        rw [sweep, if_neg hgap]
        split_ifs with hlonger
        · rw [max_eq_right hlonger.le]
        · rw [max_eq_left (not_lt.mp hlonger)]
      rw [hunion, hsweep]
      exact ih (h.trans (le_max_left _ _)) hrest fun j hj => hstart.trans (hfirst j hj)

end Interval
end TemporalSdk.Machine
