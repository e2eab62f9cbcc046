import TemporalSdk.Machine.Intervals
import TemporalSdk.Failures.Messages

/-!
# OperationMetrics — what storage operations report

`external-storage-metrics.ts`: the operations of one pass are recorded as they complete, and reported as counts, as
the names of the drivers and as the time in which any of them was in flight.  Counts are whole numbers, times are exact
milliseconds of a clock, which no operation rounds as it would round doubles, and names are ordered as strings are.
-/

namespace TemporalSdk.OperationMetrics

open Machine (Interval)
open Machine.Interval (sweep covered volume_sweep volume_covered_le length_le_volume_covered)
open Failures (Timestamp)
open MeasureTheory (volume)

variable {Name : Type} [LinearOrder Name]

/-- A completed driver operation, as it is recorded. -/
structure Operation (Name : Type) where
  driverName : Name
  payloadCount : ℕ
  sizeBytes : ℕ
  interval : Interval

/-- `temporal.coresdk.common.IExternalStorageMetrics` -/
structure Metrics (Name : Type) where
  payloadCount : ℕ
  totalSizeBytes : ℕ
  totalDuration : Timestamp
  driverNames : List Name

/-! ## The accumulator -/

/-- `ExternalStorageMetricsAccumulator` -/
structure Accumulator (Name : Type) where
  payloadCount : ℕ := 0
  totalSizeBytes : ℕ := 0
  driverNames : List Name := []
  intervals : List Interval := []

/-- `Set.add` -/
def addName (names : List Name) (name : Name) : List Name := if name ∈ names then names else names ++ [name]

def Accumulator.record (acc : Accumulator Name) (op : Operation Name) : Accumulator Name where
  payloadCount := acc.payloadCount + op.payloadCount
  totalSizeBytes := acc.totalSizeBytes + op.sizeBytes
  driverNames := addName acc.driverNames op.driverName
  intervals := acc.intervals ++ [op.interval]

def unionLength (intervals : List Interval) : ℚ :=
  match intervals.mergeSort (fun a b => a.start ≤ b.start) with
  | [] => 0
  | i :: rest => sweep 0 i.start i.stop rest

/-- The operator `%`: the quotient is rounded towards zero. -/
def remainder (q d : ℚ) : ℚ := q - d * (if 0 ≤ q / d then ⌊q / d⌋ else ⌈q / d⌉ : ℤ)

/-- `Math.round` -/
def mathRound (q : ℚ) : ℤ := ⌊q + 1 / 2⌋

def durationToProto (durationMs : ℚ) : Timestamp where
  seconds := ⌊durationMs / 1000⌋
  nanos := mathRound (remainder durationMs 1000 * 1000000)

def Accumulator.toProto (acc : Accumulator Name) : Option (Metrics Name) :=
  if acc.payloadCount = 0 then none
  else
    some
      { payloadCount := acc.payloadCount
        totalSizeBytes := acc.totalSizeBytes
        totalDuration := durationToProto (unionLength acc.intervals)
        driverNames := acc.driverNames.mergeSort (fun a b => a ≤ b) }

/-- The accumulator after operations in the order of their records. -/
def recordAll (ops : List (Operation Name)) : Accumulator Name := ops.foldl Accumulator.record {}

/-! ## What is recorded -/

/-- The accumulator holds exactly these operations. -/
structure Accumulator.Holds (acc : Accumulator Name) (ops : List (Operation Name)) : Prop where
  payloadCount : acc.payloadCount = (ops.map Operation.payloadCount).sum
  totalSizeBytes : acc.totalSizeBytes = (ops.map Operation.sizeBytes).sum
  names : ∀ name, name ∈ acc.driverNames ↔ ∃ op ∈ ops, op.driverName = name
  distinct : acc.driverNames.Nodup
  intervals : acc.intervals = ops.map Operation.interval

variable {names : List Name}

theorem mem_addName {name x : Name} : x ∈ addName names name ↔ x ∈ names ∨ x = name := by
  unfold addName
  split_ifs with h
  · constructor
    · exact Or.inl
    · rintro (hx | rfl)
      · exact hx
      · exact h
  · simp

theorem nodup_addName (h : names.Nodup) (name : Name) : (addName names name).Nodup := by
  unfold addName
  split_ifs with hmem
  · exact h
  · exact List.nodup_append.mpr ⟨h, List.nodup_singleton name, fun x hx y hy hxy => by
      rw [List.mem_singleton.mp hy] at hxy
      exact hmem (hxy ▸ hx)⟩

theorem Accumulator.Holds.record {acc : Accumulator Name} {ops : List (Operation Name)} (h : acc.Holds ops)
    (op : Operation Name) : (acc.record op).Holds (ops ++ [op]) where
  payloadCount := by simp [Accumulator.record, h.payloadCount]
  totalSizeBytes := by simp [Accumulator.record, h.totalSizeBytes]
  names name := by
    rw [Accumulator.record, mem_addName, h.names]
    simp [or_and_right, exists_or, eq_comm]
  distinct := nodup_addName h.distinct op.driverName
  intervals := by simp [Accumulator.record, h.intervals]

theorem holds_recordAll (ops : List (Operation Name)) : (recordAll ops).Holds ops := by
  induction ops using List.reverseRecOn with
  | nil => exact ⟨rfl, rfl, by simp [recordAll], List.nodup_nil, rfl⟩
  | append_singleton ops op ih =>
    rw [recordAll, List.foldl_append]
    exact ih.record op

/-! ## The time in flight -/

theorem volume_covered (intervals : List Interval) :
    volume (covered intervals) = ENNReal.ofReal (unionLength intervals : ℚ) := by
  have hperm : (intervals.mergeSort fun a b => a.start ≤ b.start).Perm intervals := List.mergeSort_perm _ _
  have hsorted : (intervals.mergeSort fun a b => a.start ≤ b.start).Pairwise fun a b => a.start ≤ b.start := by
    have h := @List.pairwise_mergeSort Interval (fun a b => decide (a.start ≤ b.start))
      (fun a b c hab hbc => by simpa using (of_decide_eq_true hab).trans (of_decide_eq_true hbc))
      (fun a b => by simpa using le_total a.start b.start) intervals
    exact h.imp of_decide_eq_true
  rw [← Interval.covered_perm hperm, unionLength]
  cases hlist : intervals.mergeSort fun a b => a.start ≤ b.start with
  | nil => simp [covered]
  | cons i rest =>
    rw [hlist] at hsorted
    rcases List.pairwise_cons.mp hsorted with ⟨hfirst, hrest⟩
    have h := @volume_sweep rest 0 _ _ i.ordered hrest hfirst
    rw [sub_zero] at h
    exact h

theorem unionLength_nonneg (intervals : List Interval) : 0 ≤ unionLength intervals := by
  unfold unionLength
  split
  · exact le_rfl
  · rename_i i rest _
    have h := @Interval.le_sweep rest 0 _ _ i.ordered
    linarith [i.ordered]

/-- The measure of the union, in milliseconds. -/
noncomputable def inFlight (ops : List (Operation Name)) : ℝ :=
  (volume (covered (ops.map Operation.interval))).toReal

omit [LinearOrder Name] in
theorem inFlight_eq (ops : List (Operation Name)) : inFlight ops = (unionLength (ops.map Operation.interval) : ℚ) := by
  rw [inFlight, volume_covered, ENNReal.toReal_ofReal]
  exact_mod_cast unionLength_nonneg _

theorem unionLength_perm {is js : List Interval} (h : is.Perm js) : unionLength is = unionLength js := by
  have hvolume := congrArg volume (Interval.covered_perm h)
  rw [volume_covered, volume_covered, ENNReal.ofReal_eq_ofReal_iff (by exact_mod_cast unionLength_nonneg _)
    (by exact_mod_cast unionLength_nonneg _)] at hvolume
  exact_mod_cast hvolume

theorem unionLength_le_sum (is : List Interval) : unionLength is ≤ (is.map Machine.Interval.length).sum := by
  have hsum : (0 : ℚ) ≤ (is.map Machine.Interval.length).sum := by
    refine List.sum_nonneg fun x hx => ?_
    rcases List.mem_map.mp hx with ⟨j, _, rfl⟩
    exact j.length_nonneg
  have h := volume_covered_le is
  rw [volume_covered, ENNReal.ofReal_le_ofReal_iff (by exact_mod_cast hsum)] at h
  exact_mod_cast h

theorem length_le_unionLength {is : List Interval} {i : Interval} (h : i ∈ is) : i.length ≤ unionLength is := by
  have hle := length_le_volume_covered h
  rw [volume_covered, ENNReal.ofReal_le_ofReal_iff (by exact_mod_cast unionLength_nonneg _)] at hle
  exact_mod_cast hle

/-! ## Seconds and nanoseconds -/

variable {q : ℚ}

theorem remainder_eq (h : 0 ≤ q) : remainder q 1000 = q - 1000 * ⌊q / 1000⌋ := by
  rw [remainder, if_pos (div_nonneg h (by norm_num))]

theorem remainder_bounds (h : 0 ≤ q) : 0 ≤ remainder q 1000 ∧ remainder q 1000 < 1000 := by
  have hlow := Int.floor_le (q / 1000)
  have hhigh := Int.lt_floor_add_one (q / 1000)
  rw [remainder_eq h]
  constructor <;> linarith

theorem abs_mathRound_sub_le (q : ℚ) : |(mathRound q : ℚ) - q| ≤ 1 / 2 := by
  have hlow := Int.floor_le (q + 1 / 2)
  have hhigh := Int.lt_floor_add_one (q + 1 / 2)
  rw [mathRound, abs_le]
  constructor <;> linarith

/-- A duration in nanoseconds. -/
def nanoseconds (ts : Timestamp) : ℤ := ts.seconds * 1000000000 + ts.nanos

theorem abs_nanoseconds_sub_le (h : 0 ≤ q) :
    |(nanoseconds (durationToProto q) : ℚ) - 1000000 * q| ≤ 1 / 2 := by
  have hround := abs_mathRound_sub_le (remainder q 1000 * 1000000)
  have hsplit := remainder_eq h
  have hsame : (nanoseconds (durationToProto q) : ℚ) - 1000000 * q =
      mathRound (remainder q 1000 * 1000000) - remainder q 1000 * 1000000 := by
    rw [nanoseconds, durationToProto]
    push_cast
    rw [hsplit]
    ring
  rw [hsame]
  exact hround

/-- Less than half a nanosecond is missing to a whole second. -/
def JustBelowSecond (ms : ℝ) : Prop := ∃ seconds : ℤ, 1000 * seconds - 1 / 2000000 ≤ ms ∧ ms < 1000 * seconds

theorem nanos_lt_iff (h : 0 ≤ q) : (durationToProto q).nanos < 1000000000 ↔ ¬ JustBelowSecond (q : ℝ) := by
  have hbounds := remainder_bounds h
  have hsplit := remainder_eq h
  have hcarry : (durationToProto q).nanos < 1000000000 ↔ remainder q 1000 < 1000 - 1 / 2000000 := by
    rw [durationToProto, mathRound, Int.floor_lt]
    push_cast
    constructor <;> intro hlt <;> linarith
  rw [hcarry, ← not_le, not_iff_not]
  constructor
  · intro hle
    refine ⟨⌊q / 1000⌋ + 1, ?_, ?_⟩
    · have hq : 1000 * ((⌊q / 1000⌋ + 1 : ℤ) : ℚ) - 1 / 2000000 ≤ q := by
        push_cast
        linarith
      have hcast := (Rat.cast_le (K := ℝ)).mpr hq
      push_cast at hcast ⊢
      exact hcast
    · have hq : q < 1000 * ((⌊q / 1000⌋ + 1 : ℤ) : ℚ) := by
        push_cast
        linarith [hbounds.2]
      exact_mod_cast hq
  · rintro ⟨seconds, hlow, hhigh⟩
    have hlowQ : 1000 * (seconds : ℚ) - 1 / 2000000 ≤ q := by
      rw [← Rat.cast_le (K := ℝ)]
      push_cast
      exact hlow
    have hhighQ : q < 1000 * (seconds : ℚ) := by exact_mod_cast hhigh
    have hfloor : ⌊q / 1000⌋ = seconds - 1 := by
      rw [Int.floor_eq_iff]
      push_cast
      constructor <;> linarith
    rw [hsplit, hfloor]
    push_cast
    linarith

theorem nanos_nonneg (h : 0 ≤ q) : 0 ≤ (durationToProto q).nanos := by
  have hbounds := remainder_bounds h
  rw [durationToProto, mathRound]
  exact Int.floor_nonneg.mpr (by linarith [hbounds.1])

/-! ## The report -/

/-- What the metrics of operations are to say. -/
structure Reports (ops : List (Operation Name)) (metrics : Metrics Name) : Prop where
  normalised : 0 ≤ metrics.totalDuration.nanos ∧ metrics.totalDuration.nanos < 1000000000
  union : |(nanoseconds metrics.totalDuration : ℝ) - 1000000 * inFlight ops| ≤ 1 / 2
  atMost : (nanoseconds metrics.totalDuration : ℚ) ≤
    1000000 * (ops.map fun op => op.interval.length).sum + 1 / 2
  atLeast : ∀ op ∈ ops, 1000000 * op.interval.length ≤ (nanoseconds metrics.totalDuration : ℚ) + 1 / 2
  payloadCount : metrics.payloadCount = (ops.map Operation.payloadCount).sum
  totalSizeBytes : metrics.totalSizeBytes = (ops.map Operation.sizeBytes).sum
  driverNames : ∀ name, name ∈ metrics.driverNames ↔ ∃ op ∈ ops, op.driverName = name
  sorted : metrics.driverNames.Pairwise (· < ·)
  anyOrder : ∀ ops', ops'.Perm ops → (recordAll ops').toProto = some metrics

theorem sorted_names (h : names.Nodup) :
    (names.mergeSort fun a b => a ≤ b).Pairwise (· < ·) := by
  have hsorted := @List.pairwise_mergeSort Name (fun a b => decide (a ≤ b))
    (fun a b c hab hbc => by simpa using (of_decide_eq_true hab).trans (of_decide_eq_true hbc))
    (fun a b => by simpa using le_total a b) names
  have hnodup : (names.mergeSort fun a b => a ≤ b).Nodup := (List.mergeSort_perm names _).nodup_iff.mpr h
  exact (hsorted.and hnodup).imp fun hab => lt_of_le_of_ne (of_decide_eq_true hab.1) hab.2

/-- Metrics do not depend on the order of the records. -/
theorem toProto_perm {ops ops' : List (Operation Name)} (h : ops'.Perm ops) :
    (recordAll ops').toProto = (recordAll ops).toProto := by
  have hold := holds_recordAll ops
  have hold' := holds_recordAll ops'
  have hnames : ((recordAll ops').driverNames.mergeSort fun a b => a ≤ b) =
      (recordAll ops).driverNames.mergeSort fun a b => a ≤ b := by
    refine List.Perm.eq_of_pairwise (fun a b _ _ hab hba => absurd (hab.trans hba) (lt_irrefl a))
      (sorted_names hold'.distinct) (sorted_names hold.distinct) ?_
    refine (List.mergeSort_perm _ _).trans (List.Perm.trans ?_ (List.mergeSort_perm _ _).symm)
    refine (List.perm_ext_iff_of_nodup hold'.distinct hold.distinct).mpr fun name => ?_
    rw [hold'.names, hold.names]
    simp only [h.mem_iff]
  have hcount : (recordAll ops').payloadCount = (recordAll ops).payloadCount := by
    rw [hold'.payloadCount, hold.payloadCount]
    exact (h.map _).sum_eq
  have hsize : (recordAll ops').totalSizeBytes = (recordAll ops).totalSizeBytes := by
    rw [hold'.totalSizeBytes, hold.totalSizeBytes]
    exact (h.map _).sum_eq
  have hlength : unionLength (recordAll ops').intervals = unionLength (recordAll ops).intervals := by
    rw [hold'.intervals, hold.intervals]
    exact unionLength_perm (h.map _)
  rw [Accumulator.toProto, Accumulator.toProto, hcount, hsize, hlength, hnames]

/-- All of the report but the range of the nanoseconds. -/
theorem reports_iff {ops : List (Operation Name)} {metrics : Metrics Name}
    (h : (recordAll ops).toProto = some metrics) : Reports ops metrics ↔ ¬ JustBelowSecond (inFlight ops) := by
  have hold := holds_recordAll ops
  have hproto := h
  rw [Accumulator.toProto] at h
  split at h
  · cases h
  · cases h
    rw [inFlight_eq, ← nanos_lt_iff (unionLength_nonneg _), ← hold.intervals]
    constructor
    · intro hreports
      exact hreports.normalised.2
    · intro hlt
      have hnonneg := unionLength_nonneg (recordAll ops).intervals
      have hnanos := abs_nanoseconds_sub_le hnonneg
      have hbounds := abs_le.mp hnanos
      refine ⟨⟨nanos_nonneg hnonneg, hlt⟩, ?_, ?_, ?_, hold.payloadCount, hold.totalSizeBytes, ?_,
        sorted_names hold.distinct, fun ops' hperm => (toProto_perm hperm).trans hproto⟩
      · have hcast := (Rat.cast_le (K := ℝ)).mpr hnanos
        rw [inFlight_eq, ← hold.intervals]
        push_cast at hcast ⊢
        exact hcast
      · have hsum := unionLength_le_sum (recordAll ops).intervals
        rw [hold.intervals, List.map_map] at hsum
        rw [hold.intervals] at hbounds ⊢
        have hsum' : unionLength (ops.map Operation.interval) ≤ (ops.map fun op => op.interval.length).sum := hsum
        linarith [hbounds.2]
      · intro op hop
        have hmem : op.interval ∈ (recordAll ops).intervals := by
          rw [hold.intervals]
          exact List.mem_map_of_mem hop
        linarith [hbounds.1, length_le_unionLength hmem]
      · intro name
        rw [(List.mergeSort_perm _ _).mem_iff]
        exact hold.names name

/-- The report is right unless the nanoseconds are rounded up to a second. -/
theorem toProto_reports_iff (ops : List (Operation Name)) :
    (∀ metrics ∈ (recordAll ops).toProto, Reports ops metrics) ↔
      (ops.map Operation.payloadCount).sum = 0 ∨ ¬ JustBelowSecond (inFlight ops) := by
  have hold := holds_recordAll ops
  by_cases hzero : (ops.map Operation.payloadCount).sum = 0
  · have hnone : (recordAll ops).toProto = none := by rw [Accumulator.toProto, if_pos (hold.payloadCount.trans hzero)]
    simp [hnone, hzero]
  · obtain ⟨metrics, hmetrics⟩ : ∃ metrics, (recordAll ops).toProto = some metrics := by
      rw [Accumulator.toProto, if_neg fun h => hzero (hold.payloadCount.symm.trans h)]
      exact ⟨_, rfl⟩
    simp only [hzero, false_or]
    rw [← reports_iff hmetrics, hmetrics]
    simp

/-- One payload, stored in just less than a second: the metrics say 0 seconds and 10^9 nanoseconds. -/
theorem not_normalised : ¬ ∀ ops : List (Operation ℕ),
    ∀ metrics ∈ (recordAll ops).toProto, Reports ops metrics := by
  intro h
  have hreports := h [⟨0, 1, 1, ⟨0, 9999999999 / 10000000, by norm_num⟩⟩] _ rfl
  have hlt := hreports.normalised.2
  revert hlt
  decide +kernel

end TemporalSdk.OperationMetrics
