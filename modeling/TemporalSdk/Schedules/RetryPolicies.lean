import TemporalSdk.Failures.Messages
import TemporalSdk.Machine.Results
import TemporalSdk.Workflow.SearchAttributes

/-!
# Retry policies — times, retry policies and priorities of requests

`time.ts`, `retry-policy.ts` and `priority.ts` of `packages/common/src`.  Times are whole milliseconds.  A scalar of
a message that is absent reads as its default.
-/

namespace TemporalSdk.Schedules

open Failures (Duration Timestamp msNumberToTs)
open Machine (bind_ok_iff)
open SearchAttributes (JsNumber)

inductive OptionError where
  | typeError (message : String)
  | valueError (message : String)
  | rangeError (message : String)
  deriving DecidableEq

/-! ## Times -/

def tsToMs (ts : Timestamp) : ℤ := ts.seconds * 1000 + ts.nanos / 1000000

def optionalTsToMs (ts : Option Timestamp) : Option ℤ := ts.map tsToMs

def msToNumber (ms : String → Option ℤ) : Duration → Except OptionError ℤ := Failures.msToNumber ms .typeError

def msToTs (ms : String → Option ℤ) (duration : Duration) : Except OptionError Timestamp :=
  msNumberToTs <$> msToNumber ms duration

def msOptionalToNumber (ms : String → Option ℤ) : Option Duration → Except OptionError (Option ℤ)
  | none => .ok none
  | some duration => some <$> msToNumber ms duration

def msOptionalToTs (ms : String → Option ℤ) : Option Duration → Except OptionError (Option Timestamp) :=
  Failures.msOptionalToTs ms .typeError

/-- A `Date`: an invalid one has no time. -/
structure Date where
  time : Option ℤ
  deriving DecidableEq

/-- `new Date(millis)` -/
def newDate (millis : ℤ) : Date := ⟨if millis.natAbs ≤ 8640000000000000 then some millis else none⟩

def optionalTsToDate (ts : Option Timestamp) : Option Date := ts.map fun ts => newDate (tsToMs ts)

def optionalDateToTs : Option Date → Except OptionError (Option Timestamp)
  | none => .ok none
  | some date =>
    match date.time with
    | none => .error (.valueError "Invalid millis NaN")
    | some millis => .ok (some (msNumberToTs millis))

/-- A time of whole milliseconds between the years 1 and 9999. -/
structure ValidTime (ts : Timestamp) : Prop where
  first : -62135596800 ≤ ts.seconds
  last : ts.seconds ≤ 253402300799
  nanos : 0 ≤ ts.nanos ∧ ts.nanos < 1000000000
  millis : ts.nanos % 1000000 = 0

/-- A span of whole milliseconds that is not negative, and not longer than 10000 years, as a
`google.protobuf.Duration` is. -/
structure ValidSpan (ts : Timestamp) : Prop where
  seconds : 0 ≤ ts.seconds
  last : ts.seconds ≤ 315576000000
  nanos : 0 ≤ ts.nanos ∧ ts.nanos < 1000000000
  millis : ts.nanos % 1000000 = 0

variable {ts : Timestamp}

theorem msNumberToTs_tsToMs_iff (hnanos : 0 ≤ ts.nanos ∧ ts.nanos < 1000000000)
    (hmillis : ts.nanos % 1000000 = 0) : msNumberToTs (tsToMs ts) = ts ↔ (ts.seconds < 0 → ts.nanos = 0) := by
  rcases ts with ⟨seconds, nanos⟩
  simp only at hnanos hmillis ⊢
  have hseconds : (seconds * 1000 + nanos / 1000000) / 1000 = seconds := by omega
  simp only [msNumberToTs, tsToMs, Failures.Timestamp.mk.injEq, hseconds, true_and]
  by_cases hneg : seconds < 0
  · have hsign : seconds * 1000 + nanos / 1000000 = -(-(seconds * 1000 + nanos / 1000000)) := by omega
    rw [hsign, Int.neg_tmod, Int.tmod_eq_emod_of_nonneg (by omega)]
    constructor
    · intro h _
      omega
    · intro h
      have hzero := h hneg
      subst hzero
      omega
  · rw [Int.tmod_eq_emod_of_nonneg (by omega)]
    exact iff_of_true (by omega) fun h => absurd h hneg

theorem ValidSpan.kept (h : ValidSpan ts) : msNumberToTs (tsToMs ts) = ts :=
  (msNumberToTs_tsToMs_iff h.nanos h.millis).mpr fun hneg => absurd hneg (not_lt.mpr h.seconds)

theorem newDate_time (h : ValidTime ts) : (newDate (tsToMs ts)).time = some (tsToMs ts) := by
  have hnanos := h.nanos
  have hfirst := h.first
  have hlast := h.last
  have hrange : (tsToMs ts).natAbs ≤ 8640000000000000 := by
    unfold tsToMs
    omega
  simp only [newDate, if_pos hrange]

/-! ## Retry policies -/

/-- `temporal.api.common.v1.IRetryPolicy` -/
structure IRetryPolicy where
  initialInterval : Option Timestamp
  backoffCoefficient : Option ℚ
  maximumInterval : Option Timestamp
  maximumAttempts : Option ℤ
  nonRetryableErrorTypes : Option (List String)
  deriving DecidableEq

structure RetryPolicy where
  backoffCoefficient : Option ℚ
  initialInterval : Option Duration
  maximumAttempts : Option JsNumber
  maximumInterval : Option Duration
  nonRetryableErrorTypes : Option (List String)
  deriving DecidableEq

/-- The number of attempts: no number stands for no limit. -/
def compileAttempts : Option JsNumber → Except OptionError (Option ℤ)
  | none => .ok none
  | some (.infinity false) => .ok none
  | some (.infinity true) =>
    .error (.valueError
      "RetryPolicy.maximumAttempts must be a positive integer, 0 (unlimited), or Infinity (unlimited)")
  | some .nan => .error (.valueError "RetryPolicy.maximumAttempts must be an integer")
  | some (.finite n) =>
    if n = 0 then .ok none
    else if n < 0 then
      .error (.valueError
        "RetryPolicy.maximumAttempts must be a positive integer, 0 (unlimited), or Infinity (unlimited)")
    else if n.den = 1 then .ok (some n.num)
    else .error (.valueError "RetryPolicy.maximumAttempts must be an integer")

/-- The checks on the intervals. -/
def checkIntervals (maximumInterval : Option ℤ) (initialInterval : ℤ) : Option OptionError :=
  if maximumInterval = some 0 then some (.valueError "RetryPolicy.maximumInterval cannot be 0")
  else if initialInterval = 0 then some (.valueError "RetryPolicy.initialInterval cannot be 0")
  else if maximumInterval.any (· < initialInterval) then
    some (.valueError "RetryPolicy.maximumInterval cannot be less than its initialInterval")
  else none

def compileRetryPolicy (ms : String → Option ℤ) (retryPolicy : RetryPolicy) : Except OptionError IRetryPolicy :=
  if retryPolicy.backoffCoefficient.any (· ≤ 0) then
    .error (.valueError "RetryPolicy.backoffCoefficient must be greater than 0")
  else do
    let maximumAttempts ← compileAttempts retryPolicy.maximumAttempts
    let maximumInterval ← msOptionalToNumber ms retryPolicy.maximumInterval
    let initialInterval ← msToNumber ms (retryPolicy.initialInterval.getD (.millis 1000))
    match checkIntervals maximumInterval initialInterval with
    | some error => .error error
    | none =>
      .ok
        { maximumAttempts
          initialInterval := some (msNumberToTs initialInterval)
          maximumInterval := maximumInterval.map msNumberToTs
          backoffCoefficient := retryPolicy.backoffCoefficient
          nonRetryableErrorTypes := retryPolicy.nonRetryableErrorTypes }

def decompileRetryPolicy (retryPolicy : IRetryPolicy) : RetryPolicy where
  backoffCoefficient := retryPolicy.backoffCoefficient
  maximumAttempts := retryPolicy.maximumAttempts.map fun n : ℤ => JsNumber.finite (n : ℚ)
  maximumInterval := (optionalTsToMs retryPolicy.maximumInterval).map .millis
  initialInterval := (optionalTsToMs retryPolicy.initialInterval).map .millis
  nonRetryableErrorTypes := retryPolicy.nonRetryableErrorTypes

/-- Two messages that read the same. -/
structure IRetryPolicy.Same (policy policy' : IRetryPolicy) : Prop where
  initialInterval : policy.initialInterval = policy'.initialInterval
  backoffCoefficient : policy.backoffCoefficient.getD 0 = policy'.backoffCoefficient.getD 0
  maximumInterval : policy.maximumInterval = policy'.maximumInterval
  maximumAttempts : policy.maximumAttempts.getD 0 = policy'.maximumAttempts.getD 0
  nonRetryableErrorTypes : policy.nonRetryableErrorTypes.getD [] = policy'.nonRetryableErrorTypes.getD []

structure IRetryPolicy.ValidSpans (policy : IRetryPolicy) : Prop where
  initialInterval : ∀ ts ∈ policy.initialInterval, ValidSpan ts
  maximumInterval : ∀ ts ∈ policy.maximumInterval, ValidSpan ts

/-- What the compiler takes: a positive coefficient, a number of attempts, a first interval, and a longest one that
is no shorter. -/
structure IRetryPolicy.Accepted (policy : IRetryPolicy) : Prop where
  backoffCoefficient : ∀ c ∈ policy.backoffCoefficient, 0 < c
  maximumAttempts : ∀ n ∈ policy.maximumAttempts, 0 ≤ n
  initialInterval : ∃ ts, policy.initialInterval = some ts ∧ 0 < tsToMs ts ∧
    ∀ longest ∈ policy.maximumInterval, tsToMs ts ≤ tsToMs longest

theorem compileAttempts_iff (attempts : Option ℤ) :
    (∃ n, compileAttempts (attempts.map fun n : ℤ => JsNumber.finite (n : ℚ)) = .ok n ∧ n.getD 0 = attempts.getD 0) ↔
      ∀ n ∈ attempts, 0 ≤ n := by
  cases attempts with
  | none => exact iff_of_true ⟨none, rfl, rfl⟩ (by simp)
  | some n =>
    simp only [Option.map_some, Option.mem_def, Option.some.injEq, forall_eq', compileAttempts, Int.cast_eq_zero,
      Int.cast_lt_zero, Rat.den_intCast, Rat.num_intCast, if_true]
    by_cases hzero : n = 0
    · exact iff_of_true ⟨none, by rw [if_pos hzero], hzero.symm⟩ hzero.ge
    · rw [if_neg hzero]
      by_cases hneg : n < 0
      · rw [if_pos hneg]
        exact iff_of_false (by rintro ⟨_, h, _⟩; cases h) (not_le.mpr hneg)
      · rw [if_neg hneg]
        exact iff_of_true ⟨some n, rfl, rfl⟩ (not_lt.mp hneg)

theorem tsToMs_nonneg (h : ValidSpan ts) : 0 ≤ tsToMs ts := by
  have hseconds := h.seconds
  have hnanos := h.nanos
  unfold tsToMs
  omega

/-- The longest interval passes the checks. -/
theorem checkIntervals_iff {initial : Timestamp} {longest : Option Timestamp} (hinitial : ValidSpan initial)
    (hlongest : ∀ ts ∈ longest, ValidSpan ts) :
    checkIntervals (optionalTsToMs longest) (tsToMs initial) = none ↔
      0 < tsToMs initial ∧ ∀ ts ∈ longest, tsToMs initial ≤ tsToMs ts := by
  have hnonneg := tsToMs_nonneg hinitial
  cases longest with
  | none =>
    by_cases hzero : tsToMs initial = 0
    · simp [checkIntervals, optionalTsToMs, hzero]
    · simp [checkIntervals, optionalTsToMs, hzero, lt_of_le_of_ne hnonneg (Ne.symm hzero)]
  | some ts =>
    have hts := tsToMs_nonneg (hlongest ts rfl)
    simp only [checkIntervals, optionalTsToMs, Option.map_some, Option.some.injEq, Option.any_some,
      decide_eq_true_eq, Option.mem_def, forall_eq']
    by_cases hlongestZero : tsToMs ts = 0
    · rw [if_pos hlongestZero]
      exact iff_of_false nofun fun h => by omega
    · by_cases hzero : tsToMs initial = 0
      · rw [if_neg hlongestZero, if_pos hzero]
        exact iff_of_false nofun fun h => by omega
      · rw [if_neg hlongestZero, if_neg hzero]
        by_cases hlt : tsToMs ts < tsToMs initial
        · rw [if_pos hlt]
          exact iff_of_false nofun fun h => by omega
        · rw [if_neg hlt]
          exact iff_of_true rfl (by omega)

/-- A policy that is compiled again is the same if and only if the compiler takes it. -/
theorem retryPolicy_kept_iff (ms : String → Option ℤ) {policy : IRetryPolicy} (hspans : policy.ValidSpans) :
    (∃ policy', compileRetryPolicy ms (decompileRetryPolicy policy) = .ok policy' ∧ policy'.Same policy) ↔
      policy.Accepted := by
  have hnumber : msOptionalToNumber ms (decompileRetryPolicy policy).maximumInterval =
      .ok (optionalTsToMs policy.maximumInterval) := by
    cases hlongest : policy.maximumInterval <;> simp [decompileRetryPolicy, optionalTsToMs, hlongest] <;> rfl
  constructor
  · rintro ⟨policy', hcompile, hsame⟩
    unfold compileRetryPolicy at hcompile
    split at hcompile
    · cases hcompile
    rename_i hcoefficient
    simp only [bind_ok_iff, hnumber] at hcompile
    rcases hcompile with ⟨attempts, hattempts, _, hlongest, initial, hinitial, hrest⟩
    cases hlongest
    split at hrest
    · cases hrest
    rename_i hchecks
    cases hrest
    have hinterval : some (msNumberToTs initial) = policy.initialInterval := hsame.initialInterval
    have hinitial' : initial = tsToMs (msNumberToTs initial) := by
      simp only [decompileRetryPolicy, ← hinterval, optionalTsToMs, Option.map_some, Option.getD_some,
        msToNumber, Failures.msToNumber] at hinitial
      exact (Except.ok.inj hinitial).symm
    rw [hinitial', checkIntervals_iff (hspans.initialInterval _ hinterval.symm) hspans.maximumInterval] at hchecks
    refine ⟨fun c hc => ?_, (compileAttempts_iff _).mp ⟨attempts, hattempts, hsame.maximumAttempts⟩,
      _, hinterval.symm, hchecks⟩
    simpa [decompileRetryPolicy, Option.mem_def.mp hc] using hcoefficient
  · rintro ⟨hcoefficient, hattempts, ts, hts, hinterval⟩
    have hcoefficient' : ¬ (decompileRetryPolicy policy).backoffCoefficient.any (· ≤ 0) = true := by
      cases hc : policy.backoffCoefficient with
      | none => simp [decompileRetryPolicy, hc]
      | some c => simpa [decompileRetryPolicy, hc] using hcoefficient c hc
    rcases (compileAttempts_iff _).mpr hattempts with ⟨attempts, hcompile, hread⟩
    have hinitial : msToNumber ms ((decompileRetryPolicy policy).initialInterval.getD (.millis 1000)) =
        .ok (tsToMs ts) := by
      simp [decompileRetryPolicy, hts, optionalTsToMs, msToNumber, Failures.msToNumber]
    have hchecks := (checkIntervals_iff (hspans.initialInterval ts hts) hspans.maximumInterval).mpr hinterval
    refine ⟨⟨some (msNumberToTs (tsToMs ts)), policy.backoffCoefficient,
      (optionalTsToMs policy.maximumInterval).map msNumberToTs, attempts, policy.nonRetryableErrorTypes⟩, ?_, ?_⟩
    · unfold compileRetryPolicy
      rw [if_neg hcoefficient']
      simp only [bind_ok_iff, hnumber, hinitial]
      exact ⟨attempts, hcompile, _, rfl, _, rfl, by rw [hchecks]; rfl⟩
    · have hlongest : (optionalTsToMs policy.maximumInterval).map msNumberToTs = policy.maximumInterval := by
        cases hl : policy.maximumInterval with
        | none => rfl
        | some longest => simp [optionalTsToMs, (hspans.maximumInterval longest hl).kept]
      exact ⟨by rw [hts, (hspans.initialInterval ts hts).kept], rfl, hlongest, hread, rfl⟩

/-! ## Priorities -/

/-- `temporal.api.common.v1.IPriority` -/
structure IPriority where
  priorityKey : Option ℤ
  fairnessKey : Option String
  fairnessWeight : Option ℚ
  deriving DecidableEq

structure Priority where
  priorityKey : Option ℚ
  fairnessKey : Option String
  fairnessWeight : Option ℚ
  deriving DecidableEq

def decodePriority (priority : Option IPriority) : Priority where
  priorityKey := (priority.bind IPriority.priorityKey).map fun n : ℤ => (n : ℚ)
  fairnessKey := priority.bind IPriority.fairnessKey
  fairnessWeight := priority.bind IPriority.fairnessWeight

def compilePriority (priority : Priority) : Except OptionError IPriority :=
  if priority.priorityKey.any (·.den ≠ 1) then .error (.typeError "priorityKey must be an integer")
  else if priority.priorityKey.any (· < 0) then .error (.rangeError "priorityKey must be a positive integer")
  else
    .ok
      { priorityKey := some ((priority.priorityKey.map Rat.num).getD 0)
        fairnessKey := some (priority.fairnessKey.getD "")
        fairnessWeight := some (priority.fairnessWeight.getD 0) }

/-- Two messages that read the same; an absent one is all defaults. -/
structure SamePriority (priority priority' : Option IPriority) : Prop where
  priorityKey : (priority.bind IPriority.priorityKey).getD 0 = (priority'.bind IPriority.priorityKey).getD 0
  fairnessKey : (priority.bind IPriority.fairnessKey).getD "" = (priority'.bind IPriority.fairnessKey).getD ""
  fairnessWeight :
    (priority.bind IPriority.fairnessWeight).getD 0 = (priority'.bind IPriority.fairnessWeight).getD 0

/-- The message with every default written out. -/
def readPriority (priority : Option IPriority) : IPriority where
  priorityKey := some ((priority.bind IPriority.priorityKey).getD 0)
  fairnessKey := some ((priority.bind IPriority.fairnessKey).getD "")
  fairnessWeight := some ((priority.bind IPriority.fairnessWeight).getD 0)

theorem compilePriority_ok {priority : Option IPriority} (h : ∀ n ∈ priority.bind IPriority.priorityKey, 0 ≤ n) :
    compilePriority (decodePriority priority) = .ok (readPriority priority) := by
  cases hkey : priority.bind IPriority.priorityKey with
  | none => simp [compilePriority, decodePriority, readPriority, hkey]
  | some n =>
    have hneg : ¬ n < 0 := not_lt.mpr (h n hkey)
    simp [compilePriority, decodePriority, readPriority, hkey, hneg]

theorem priority_kept_iff (priority : Option IPriority) :
    (∃ priority', compilePriority (decodePriority priority) = .ok priority' ∧
        SamePriority (some priority') priority) ↔
      ∀ n ∈ priority.bind IPriority.priorityKey, 0 ≤ n := by
  constructor
  · rintro ⟨priority', hcompile, _⟩ n hn
    by_contra hneg
    simp [compilePriority, decodePriority, Option.mem_def.mp hn, not_le.mp hneg] at hcompile
  · intro h
    exact ⟨readPriority priority, compilePriority_ok h, rfl, rfl, rfl⟩

end TemporalSdk.Schedules
