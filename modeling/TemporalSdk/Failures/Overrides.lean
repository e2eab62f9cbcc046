import TemporalSdk.Failures.RoundTrip

/-!
# Overrides of an application failure

`ApplicationFailure.fromError` and what comes of its overrides when the failure is sent and read.
-/

namespace TemporalSdk.Failures
namespace Converter

variable {V P : Type}

/-- `ApplicationFailureOptions`, with the fields that are given. -/
structure ApplicationFailureOptions (V P : Type) where
  message : Option String
  type : Option String
  nonRetryable : Option Bool
  details : Option (List V)
  nextRetryDelay : Option Duration
  cause : Option (ErrorTree V P)
  category : Option ApplicationFailureCategory

/-- What `ensureApplicationFailure` also reads of an error: `error.constructor?.name ?? error.name` and
`String(error)`. -/
structure ErrorText where
  name : Option String
  text : String

/-- `isError(error.cause) ? error.cause : undefined` -/
def errorCause : Option (ErrorTree V P) → Option (ErrorTree V P)
  | some (.mk fields cause) => some (.mk fields cause)
  | _ => none

/-- An application failure without its cause: the fields of its class, and those of any error. -/
structure ApplicationFields (V P : Type) where
  type : Nullable String
  nonRetryable : Nullable Bool
  details : Nullable (List V)
  nextRetryDelay : Nullable Duration
  category : Nullable (EnumString ApplicationFailureCategory)
  message : String
  stack : Option String
  failure : Option (Failure P)
  cause : Option (ErrorTree V P)

def ApplicationFields.toError (err : ApplicationFields V P) : ErrorTree V P :=
  .mk ⟨.ApplicationFailure err.type err.nonRetryable err.details err.nextRetryDelay err.category, err.message,
    err.stack, err.failure⟩ err.cause

def ensureApplicationFailure (text : ErrorText) (fields : ErrorFields V P) (cause : Option (ErrorTree V P)) :
    ApplicationFields V P :=
  match fields.kind with
  | .ApplicationFailure type nonRetryable details nextRetryDelay category =>
    ⟨type, nonRetryable, details, nextRetryDelay, category, fields.message, fields.stack, fields.failure, cause⟩
  | _ =>
    { type := .ofOption (text.name.filter (· ≠ ""))
      nonRetryable := .value false
      details := .undefined
      nextRetryDelay := .undefined
      category := .undefined
      message := if fields.message ≠ "" then fields.message else text.text
      -- a missing stack is the text `undefined`
      stack := some (fields.stack.getD "undefined")
      failure := none
      cause := errorCause cause }

/-- `Object.assign(failure, overrides)` -/
def assignOverrides (err : ApplicationFields V P) (overrides : ApplicationFailureOptions V P) :
    ApplicationFields V P where
  type := (overrides.type.map Nullable.value).getD err.type
  nonRetryable := (overrides.nonRetryable.map Nullable.value).getD err.nonRetryable
  details := (overrides.details.map Nullable.value).getD err.details
  nextRetryDelay := (overrides.nextRetryDelay.map Nullable.value).getD err.nextRetryDelay
  category := (overrides.category.map fun category => Nullable.value (.key category)).getD err.category
  message := overrides.message.getD err.message
  stack := err.stack
  failure := err.failure
  cause := overrides.cause.or err.cause

def fromError (text : ErrorText) (fields : ErrorFields V P) (cause : Option (ErrorTree V P))
    (overrides : ApplicationFailureOptions V P) : ApplicationFields V P :=
  assignOverrides (ensureApplicationFailure text fields cause) overrides

variable (conv : Converter V P)

/-- The error is sent and read. -/
def sendAndRead (err : ErrorTree V P) : Except Thrown (ErrorTree V P) := do
  conv.failureToError (← conv.errorToFailure err)

/-- The error has the fields that are given.  A cause comes back as what it is sent and read as. -/
structure HasFields (overrides : ApplicationFailureOptions V P) (err : ApplicationFields V P) : Prop where
  message : ∀ message ∈ overrides.message, err.message = message
  type : ∀ type ∈ overrides.type, err.type = .value type
  nonRetryable : ∀ nonRetryable ∈ overrides.nonRetryable, err.nonRetryable = .value nonRetryable
  details : ∀ details ∈ overrides.details, err.details = .value details
  nextRetryDelay : ∀ delay ∈ overrides.nextRetryDelay, err.nextRetryDelay = .value delay
  category : ∀ category ∈ overrides.category, err.category = .value (.key category)
  cause : ∀ cause ∈ overrides.cause, ∃ cause', conv.sendAndRead cause = .ok cause' ∧ err.cause = some cause'

/-- The application failure is read as one with the fields that are given. -/
def ReadsAs (err : ApplicationFields V P) (overrides : ApplicationFailureOptions V P) : Prop :=
  ∃ err', conv.sendAndRead err.toError = .ok (ApplicationFields.toError err') ∧ conv.HasFields overrides err'

/-- The values of the error can be sent: the payload converter restores them, the strings are those of their types,
and the cause can be sent and read. -/
structure Sendable (err : ApplicationFields V P) : Prop where
  details : ∀ values, err.details = .value values → ∀ v ∈ values, conv.RoundTrips v
  nextRetryDelay : ∀ s, err.nextRetryDelay = .value (.text s) → (conv.ms s).isSome
  category : IsKnown err.category.toOption
  attributes : conv.encodeCommonAttributes →
    conv.RoundTrips (conv.attributes (some err.message) (some (cutoffStackTrace err.stack)))
  cause : ∀ cause, err.cause = some cause → ∃ cause', conv.sendAndRead cause = .ok cause'

variable {conv}

/-! ## Without a failure -/

variable {err : ApplicationFields V P}

theorem Sendable.builtFields (h : conv.Sendable err) (hfailure : err.failure = none) :
    conv.BuiltFields ⟨.ApplicationFailure err.type err.nonRetryable err.details err.nextRetryDelay err.category,
      err.message, err.stack, err.failure⟩ :=
  ⟨⟨h.details, h.nextRetryDelay, h.category⟩, trivial, hfailure, h.attributes⟩

theorem Sendable.optionalCause (h : conv.Sendable err) :
    ∃ failure cause', conv.optionalErrorToOptionalFailure err.cause = .ok failure ∧
      conv.optionalFailureToOptionalError failure = .ok cause' ∧
      ∀ cause ∈ err.cause, ∃ read, conv.sendAndRead cause = .ok read ∧ cause' = some read := by
  cases hcause : err.cause with
  | none => exact ⟨none, none, rfl, rfl, nofun⟩
  | some cause =>
    rcases h.cause cause hcause with ⟨read, hread⟩
    cases hto : conv.errorToFailure cause with
    | error e => simp [sendAndRead, hto, bind, Except.bind] at hread
    | ok failure =>
      have hfrom : conv.failureToError failure = .ok read := by
        simpa [sendAndRead, hto, bind, Except.bind] using hread
      refine ⟨some failure, some read, ?_, ?_, ?_⟩
      · simp [optionalErrorToOptionalFailure, hto, bind, Except.bind, pure, Except.pure]
      · simp [optionalFailureToOptionalError, hfrom, bind, Except.bind, pure, Except.pure]
      · rintro _ ⟨⟩
        exact ⟨read, hread, rfl⟩

/-- An application failure that can be sent comes back with its class and all fields but the retry delay. -/
theorem Sendable.sendAndRead (h : conv.Sendable err) (hfailure : err.failure = none) :
    ∃ err' : ApplicationFields V P, conv.sendAndRead err.toError = .ok err'.toError ∧ err'.message = err.message ∧
      err'.type = err.type ∧ err'.nonRetryable = .value (isTrue err.nonRetryable) ∧
      err'.details = .value (err.details.toOption.getD []) ∧ err'.category = .ofOption err.category.toOption ∧
      ∀ cause ∈ err.cause, ∃ read, conv.sendAndRead cause = .ok read ∧ err'.cause = some read := by
  have hbuilt := h.builtFields hfailure
  rcases h.optionalCause with ⟨failure, cause', hto, hfrom, hcause⟩
  rcases errorToFailure_returns hbuilt hto with ⟨sent, restored, hsent, hdecode, hmessage, hstack, hreturns⟩
  have htakes : (if takesCause restored.info then conv.optionalFailureToOptionalError failure
      else pure none) = .ok cause' := by
    rw [hreturns.cause trivial, if_pos rfl, hfrom]
  rcases failureToError_restored hbuilt hdecode hmessage hstack hreturns rfl htakes with ⟨fields', hread, hrestored⟩
  rcases fields' with ⟨kind, message, stack, failure'⟩
  have hkind := hrestored.kind
  cases kind with
  | ApplicationFailure type nonRetryable details nextRetryDelay category =>
    refine ⟨⟨type, nonRetryable, details, nextRetryDelay, category, message, stack, failure', cause'⟩, ?_,
      hrestored.message, hkind.1, hkind.2.1, hkind.2.2.1, hkind.2.2.2, hcause⟩
    simp only [Converter.sendAndRead, ApplicationFields.toError, hsent, bind, Except.bind]
    exact hread
  | _ => simp [RestoredKind] at hkind

/-! ## The retry delay -/

variable {failure : Failure P}

theorem errorKind_nextRetryDelay {info : Option (FailureInfo P)} {type : Nullable String}
    {nonRetryable : Nullable Bool} {details : Nullable (List V)} {nextRetryDelay : Nullable Duration}
    {category : Nullable (EnumString ApplicationFailureCategory)} (h : conv.errorKind failure info =
      .ok (.ApplicationFailure type nonRetryable details nextRetryDelay category)) : nextRetryDelay = .undefined := by
  cases info with
  | none => simp [errorKind, pure, Except.pure] at h
  | some info =>
    cases info with
    | applicationFailureInfo | resetWorkflowFailureInfo =>
      simp only [errorKind, bind, Except.bind] at h
      split at h
      · cases h
      · cases h
        rfl
    | timeoutFailureInfo | canceledFailureInfo =>
      simp only [errorKind, bind, Except.bind] at h
      split at h <;> cases h
    | childWorkflowExecutionFailureInfo | activityFailureInfo =>
      simp only [errorKind] at h
      split at h <;> cases h
    | serverFailureInfo | terminatedFailureInfo => cases h
    | nexusHandlerFailureInfo type retryBehavior =>
      cases failure
      cases h
    | nexusOperationExecutionFailureInfo scheduledEventId endpoint service operation operationToken =>
      cases h

/-- No application failure is read with a retry delay. -/
theorem failureToError_nextRetryDelay
    (h : conv.failureToError failure = .ok err.toError) : err.nextRetryDelay = .undefined := by
  cases failure with
  | mk fields cause =>
    simp only [failureToError, bind, Except.bind, pure, Except.pure] at h
    split at h
    · cases h
    · split at h
      · cases h
      · rename_i kind hkind
        have hdelay : ∀ {message : String} {stack : Option String} {failure : Option (Failure P)}
            {causeError : Option (ErrorTree V P)},
            ErrorTree.mk ⟨kind, message, stack, failure⟩ causeError = err.toError →
            err.nextRetryDelay = .undefined := by
          intro message stack failure causeError heq
          simp only [ApplicationFields.toError, ErrorTree.mk.injEq, ErrorFields.mk.injEq] at heq
          rw [heq.1.1] at hkind
          exact errorKind_nextRetryDelay hkind
        -- A timeout is read without its cause.
        split at h
        · split at h
          · cases h
          · exact hdelay (Except.ok.inj h)
        · exact hdelay (Except.ok.inj h)

theorem ReadsAs.nextRetryDelay {overrides : ApplicationFailureOptions V P}
    (h : conv.ReadsAs err overrides) : overrides.nextRetryDelay = none := by
  rcases h with ⟨err', hread, hfields⟩
  cases hdelay : overrides.nextRetryDelay with
  | none => rfl
  | some delay =>
    have hgiven := hfields.nextRetryDelay delay hdelay
    cases hto : conv.errorToFailure err.toError with
    | error e => simp [Converter.sendAndRead, hto, bind, Except.bind] at hread
    | ok failure =>
      simp only [Converter.sendAndRead, hto, bind, Except.bind] at hread
      rw [failureToError_nextRetryDelay hread] at hgiven
      exact nomatch hgiven

/-! ## With a failure -/

theorem errorToFailure_of_failure {err err' : ApplicationFields V P}
    (h : err.failure = some failure) (h' : err'.failure = some failure) :
    conv.errorToFailure err.toError = conv.errorToFailure err'.toError := by
  simp only [ApplicationFields.toError, errorToFailure, errorToFailureInner, h, h']

theorem readsAs_of_failure {err err' : ApplicationFields V P}
    (h : err.failure = some failure) (h' : err'.failure = some failure)
    (overrides : ApplicationFailureOptions V P) : conv.ReadsAs err overrides ↔ conv.ReadsAs err' overrides := by
  simp only [ReadsAs, Converter.sendAndRead, errorToFailure_of_failure h h']

/-! ## Overrides -/

section FromError

variable {text : ErrorText} {fields : ErrorFields V P} {cause : Option (ErrorTree V P)}
  {overrides : ApplicationFailureOptions V P}

/-- Overrides other than a retry delay reach the other side if the error has no failure. -/
theorem Sendable.readsAs (hfailure : (ensureApplicationFailure text fields cause).failure = none)
    (hsend : conv.Sendable (fromError text fields cause overrides)) (hdelay : overrides.nextRetryDelay = none) :
    conv.ReadsAs (fromError text fields cause overrides) overrides := by
  rcases hsend.sendAndRead hfailure with ⟨err', hread, hmessage, htype, hnonRetryable, hdetails, hcategory, hcause⟩
  refine ⟨err', hread, ?_, ?_, ?_, ?_, ?_, ?_, ?_⟩
  · intro message hmem
    rw [hmessage, fromError, assignOverrides, Option.mem_def.mp hmem, Option.getD_some]
  · intro type hmem
    rw [htype, fromError, assignOverrides, Option.mem_def.mp hmem, Option.map_some, Option.getD_some]
  · intro nonRetryable hmem
    rw [hnonRetryable, fromError, assignOverrides, Option.mem_def.mp hmem, Option.map_some, Option.getD_some]
    rfl
  · intro details hmem
    rw [hdetails, fromError, assignOverrides, Option.mem_def.mp hmem, Option.map_some, Option.getD_some]
    rfl
  · intro delay hmem
    rw [hdelay] at hmem
    exact nomatch hmem
  · intro category hmem
    rw [hcategory, fromError, assignOverrides, Option.mem_def.mp hmem, Option.map_some, Option.getD_some]
    rfl
  · intro given hmem
    apply hcause
    rw [fromError, assignOverrides, Option.mem_def.mp hmem, Option.some_or]
    rfl

/-- The overrides reach the other side if and only if they have no retry delay and the application failure that they
are assigned to carries no failure, or one that says the same already. -/
theorem fromError_readsAs_iff
    (hsend : (ensureApplicationFailure text fields cause).failure = none →
      conv.Sendable (fromError text fields cause overrides)) :
    conv.ReadsAs (fromError text fields cause overrides) overrides ↔
      overrides.nextRetryDelay = none ∧
        ((ensureApplicationFailure text fields cause).failure ≠ none →
          conv.ReadsAs (ensureApplicationFailure text fields cause) overrides) := by
  cases hfailure : (ensureApplicationFailure text fields cause).failure with
  | none =>
    constructor
    · intro h
      exact ⟨h.nextRetryDelay, fun hne => absurd rfl hne⟩
    · rintro ⟨hdelay, -⟩
      exact (hsend hfailure).readsAs hfailure hdelay
  | some failure =>
    have hassigned : (fromError text fields cause overrides).failure = some failure := hfailure
    rw [readsAs_of_failure hassigned hfailure]
    constructor
    · intro h
      exact ⟨h.nextRetryDelay, fun _ => h⟩
    · rintro ⟨-, h⟩
      exact h nofun

end FromError

/-! ## A declined charge -/

/-- A plain error is given a type and details. -/
def retryOverrides : ApplicationFailureOptions JsonValue JsonValue where
  message := none
  type := some "Declined"
  nonRetryable := some true
  details := some [.number 1]
  nextRetryDelay := none
  cause := some (.nonError "no funds")
  category := some .BENIGN

def plainError : ErrorFields JsonValue JsonValue := ⟨.Error, "declined", none, none⟩

theorem fromError_plainError :
    (jsonConverter true).ReadsAs (fromError ⟨some "Error", "Error: declined"⟩ plainError none retryOverrides)
      retryOverrides := by
  apply (fromError_readsAs_iff ?_).mpr ⟨rfl, fun h => absurd rfl h⟩
  intro _
  refine ⟨fun _ _ v _ => jsonConverter_roundTrips true v, ?_, ⟨some .BENIGN, rfl⟩,
    fun _ => jsonConverter_roundTrips true _, ?_⟩
  · intro s hs
    exact nomatch hs
  · rintro _ ⟨⟩
    exact ⟨_, rfl⟩

/-- An application failure read from the wire, which carries the failure. -/
def readError : ErrorFields JsonValue JsonValue where
  kind := .ApplicationFailure (.value "Declined") (.value true) (.value []) .undefined .undefined
  message := "declined"
  stack := some ""
  failure := some (.mk ⟨some "declined", some "", some FAILURE_SOURCE, none,
    some (.applicationFailureInfo (.value "Declined") (.value true) none none none)⟩ none)

/-- It is made retryable. -/
def retryableOverride : ApplicationFailureOptions JsonValue JsonValue :=
  ⟨none, none, some false, none, none, none, none⟩

theorem readError_not_overridden :
    (jsonConverter false).failureToError (.mk ⟨some "declined", some "", some FAILURE_SOURCE, none,
        some (.applicationFailureInfo (.value "Declined") (.value true) none none none)⟩ none) =
      .ok (.mk readError none) ∧
    ¬ (jsonConverter false).ReadsAs (fromError ⟨none, ""⟩ readError none retryableOverride) retryableOverride := by
  refine ⟨rfl, ?_⟩
  rintro ⟨err', hread, hfields⟩
  have hgiven := hfields.nonRetryable false rfl
  have htrue : err'.nonRetryable = .value true := by
    have hsent : (jsonConverter false).sendAndRead
        (fromError ⟨none, ""⟩ readError none retryableOverride).toError = .ok (.mk readError none) := rfl
    rw [hsent] at hread
    simp only [Except.ok.injEq, ApplicationFields.toError, ErrorTree.mk.injEq, readError, ErrorFields.mk.injEq,
      ErrorKind.ApplicationFailure.injEq] at hread
    exact hread.1.1.2.1.symm
  rw [htrue] at hgiven
  cases hgiven

end Converter
end TemporalSdk.Failures
