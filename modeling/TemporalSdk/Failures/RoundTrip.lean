import TemporalSdk.Failures.Converter

/-!
# What comes back of an error

An error built with the constructors of its class is turned into a failure and back.  The class,
the message, the identifiers and the values the payload converter restores come back, and so does
every cause; the stack has its framework part cut, and missing flags and details are filled in.
-/

namespace TemporalSdk.Failures
namespace Converter

variable {V P : Type} (conv : Converter V P)

/-- The payload converter gives the value back. -/
def RoundTrips (value : V) : Prop :=
  ∃ payload, conv.toPayload value = .ok payload ∧ conv.fromPayload payload = .ok value

/-- One of the strings of the enumeration, or none. -/
def IsKnown {K : Type} (s : Option (EnumString K)) : Prop := ∃ k : Option K, s = k.map .key

/-- `Number.isSafeInteger` -/
def IsSafeInteger (n : Int) : Prop := -2 ^ 53 < n ∧ n < 2 ^ 53

/-- The fields are of the types the constructor of the class takes, and the values in them are
restored by the payload converter.  A handler error has no failure it was made from. -/
def BuiltKind : ErrorKind V P → Prop
  | .TemporalFailure => True
  | .ServerFailure _ => True
  | .ApplicationFailure _ _ details nextRetryDelay category =>
    (∀ values, details = .value values → ∀ v ∈ values, conv.RoundTrips v) ∧
      (∀ s, nextRetryDelay = .value (.text s) → (conv.ms s).isSome) ∧ IsKnown category.toOption
  | .CancelledFailure details => ∀ v ∈ details, conv.RoundTrips v
  | .TerminatedFailure => True
  | .TimeoutFailure lastHeartbeatDetails timeoutType =>
    conv.RoundTrips lastHeartbeatDetails ∧ IsKnown timeoutType
  | .ActivityFailure _ _ retryState _ => IsKnown retryState
  | .ChildWorkflowFailure _ _ _ retryState => IsKnown retryState
  | .NexusOperationFailure scheduledEventId _ _ _ _ => ∀ n ∈ scheduledEventId, IsSafeInteger n
  | .HandlerError type _ _ originalFailure =>
    (conv.hasHandlerErrorType type ∨ type = "UNKNOWN") ∧ originalFailure = none
  | .WorkflowExecutionAlreadyStartedError .. => False
  | .InvalidVersioningOverrideError .. => False
  | .Error => False

/-- The constructor of `ChildWorkflowFailure` sets the message. -/
def BuiltMessage : ErrorKind V P → String → Prop
  | .ChildWorkflowFailure .., message => message = "Child Workflow execution failed"
  | _, _ => True

/-- The constructor of `TimeoutFailure` takes no cause. -/
def HasCause : ErrorKind V P → Prop
  | .TimeoutFailure .. => False
  | _ => True

structure BuiltFields (fields : ErrorFields V P) : Prop where
  kind : conv.BuiltKind fields.kind
  message : BuiltMessage fields.kind fields.message
  failure : fields.failure = none
  attributes : conv.encodeCommonAttributes →
    conv.RoundTrips (conv.attributes (some fields.message) (some (cutoffStackTrace fields.stack)))

/-- An error built with the public constructors, down to its last cause. -/
inductive Built : ErrorTree V P → Prop where
  | last {fields : ErrorFields V P} : conv.BuiltFields fields → Built (.mk fields none)
  | caused {fields : ErrorFields V P} {cause : ErrorTree V P} :
      conv.BuiltFields fields → HasCause fields.kind → Built cause → Built (.mk fields (some cause))

/-- `failureToErrorInner` insists on the name of an activity or workflow type. -/
def namedKind : ErrorKind V P → Bool
  | .ActivityFailure activityType _ _ _ => activityType ≠ ""
  | .ChildWorkflowFailure _ _ workflowType _ => workflowType ≠ ""
  | _ => true

def named : ErrorTree V P → Bool
  | .mk fields none => namedKind fields.kind
  | .mk fields (some cause) => namedKind fields.kind && named cause
  | .nonError _ => true

/-- What the class and its fields come back as.  Nothing is said of a retry delay, of last
heartbeat details other than `undefined` that are not truthy, and of the event id 0. -/
def RestoredKind : ErrorKind V P → ErrorKind V P → Prop
  | .ApplicationFailure type nonRetryable details _ category,
      .ApplicationFailure type' nonRetryable' details' _ category' =>
      type' = type ∧ nonRetryable' = .value (isTrue nonRetryable) ∧
        details' = .value (details.toOption.getD []) ∧ category' = .ofOption category.toOption
  | .TimeoutFailure lastHeartbeatDetails timeoutType, .TimeoutFailure lastHeartbeatDetails' timeoutType' =>
    (conv.truthy lastHeartbeatDetails ∨ lastHeartbeatDetails = conv.undefined →
      lastHeartbeatDetails' = lastHeartbeatDetails) ∧ timeoutType' = timeoutType
  | .NexusOperationFailure scheduledEventId endpoint service operation operationToken,
      .NexusOperationFailure scheduledEventId' endpoint' service' operation' operationToken' =>
      (scheduledEventId ≠ some 0 → scheduledEventId' = scheduledEventId) ∧ endpoint' = endpoint ∧
        service' = service ∧ operation' = operation ∧ operationToken' = operationToken
  | .HandlerError type retryableOverride _ _, .HandlerError type' retryableOverride' _ _ =>
    type' = type ∧ retryableOverride' = retryableOverride
  | kind, kind' => kind' = kind

structure RestoredFields (fields fields' : ErrorFields V P) : Prop where
  kind : conv.RestoredKind fields.kind fields'.kind
  message : fields'.message = fields.message
  stack : fields'.stack = some (cutoffStackTrace fields.stack)

inductive Restored : ErrorTree V P → ErrorTree V P → Prop where
  | last {fields fields' : ErrorFields V P} :
      conv.RestoredFields fields fields' → Restored (.mk fields none) (.mk fields' none)
  | caused {fields fields' : ErrorFields V P} {cause cause' : ErrorTree V P} :
      conv.RestoredFields fields fields' → Restored cause cause' →
        Restored (.mk fields (some cause)) (.mk fields' (some cause'))

/-! ## Payloads -/

variable {conv}

theorem mapM_fromPayload {values : List V} (hvalues : ∀ v ∈ values, conv.RoundTrips v) :
    ∃ payloads, conv.toPayloads values = .ok payloads ∧ payloads.length = values.length ∧
      payloads.mapM conv.fromPayload = .ok values := by
  induction values with
  | nil => exact ⟨[], rfl, rfl, rfl⟩
  | cons v values ih =>
    obtain ⟨payload, hto, hfrom⟩ := hvalues v (by simp)
    obtain ⟨payloads, htos, hlength, hfroms⟩ := ih fun w hw => hvalues w (List.mem_cons_of_mem _ hw)
    refine ⟨payload :: payloads, ?_, by simp [hlength], ?_⟩
    · unfold toPayloads at htos ⊢
      simp [List.mapM_cons, hto, htos, bind, Except.bind, pure, Except.pure]
    · simp [List.mapM_cons, hfrom, hfroms, bind, Except.bind, pure, Except.pure]

theorem arrayFromPayloads_encodeDetails {details : Option (List V)}
    (hdetails : ∀ values ∈ details, ∀ v ∈ values, conv.RoundTrips v) :
    ∃ payloads, conv.encodeDetails details = .ok payloads ∧
      conv.arrayFromPayloads payloads = .ok (details.getD []) := by
  match details with
  | none => exact ⟨none, rfl, rfl⟩
  | some [] => exact ⟨none, rfl, rfl⟩
  | some (v :: values) =>
    obtain ⟨payloads, hto, -, hfrom⟩ := mapM_fromPayload (hdetails _ rfl)
    refine ⟨some payloads, ?_, hfrom⟩
    simp [encodeDetails, hto, bind, Except.bind, pure, Except.pure]

theorem msOptionalToTs_ok {duration : Option Duration}
    (htext : ∀ s, duration = some (.text s) → (conv.ms s).isSome) :
    ∃ ts, msOptionalToTs conv.ms Thrown.typeError duration = .ok ts := by
  match duration with
  | none => exact ⟨none, rfl⟩
  | some (.millis n) => exact ⟨some (msNumberToTs n), rfl⟩
  | some (.text s) =>
    obtain ⟨n, hn⟩ := Option.isSome_iff_exists.mp (htext s rfl)
    refine ⟨some (msNumberToTs n), ?_⟩
    simp [msOptionalToTs, msToNumber, hn]

theorem decodeRetryBehavior_encode (retryableOverride : Option Bool) :
    decodeRetryBehavior (encodeRetryableOverride retryableOverride) = retryableOverride := by
  match retryableOverride with
  | none => rfl
  | some true => rfl
  | some false => rfl

theorem longFromNumber_of_safe {n : Int} (hn : IsSafeInteger n) : longFromNumber n = n := by
  unfold IsSafeInteger at hn
  unfold longFromNumber
  omega

/-! ## One error -/

variable (conv)

/-- The information an error's failure has leads back to its class and fields. -/
structure Returns (kind : ErrorKind V P) (info : Option (FailureInfo P)) : Prop where
  named : namedKind kind = true →
    ∀ failure, ∃ kind', conv.errorKind failure info = .ok kind' ∧ conv.RestoredKind kind kind'
  unnamed : namedKind kind = false →
    ∀ failure, ∃ message, conv.errorKind failure info = .error (.typeError message)
  cause : HasCause kind → takesCause info = true
  message : ∀ message, BuiltMessage kind message → errorMessage info (some message) = message

variable {conv}

theorem applicationFailure_returns {type : Nullable String} {nonRetryable : Nullable Bool}
    {details : Nullable (List V)} {nextRetryDelay : Nullable Duration}
    {category : Nullable (EnumString ApplicationFailureCategory)}
    (hbuilt : conv.BuiltKind
      (.ApplicationFailure type nonRetryable details nextRetryDelay category)) :
    ∃ info,
      conv.failureInfo (.ApplicationFailure type nonRetryable details nextRetryDelay category) =
        .ok info ∧
      conv.Returns (.ApplicationFailure type nonRetryable details nextRetryDelay category) info := by
  obtain ⟨hdetails, hdelay, k, hk⟩ := hbuilt
  have hrestored : ∀ values ∈ details.toOption, ∀ v ∈ values, conv.RoundTrips v := by
    cases details with
    | undefined | null => nofun
    | value values => simpa [Nullable.toOption] using hdetails values rfl
  have htext : ∀ s, nextRetryDelay.toOption = some (.text s) → (conv.ms s).isSome := by
    cases nextRetryDelay with
    | undefined | null => nofun
    | value duration => simpa [Nullable.toOption] using hdelay
  obtain ⟨payloads, hto, hfrom⟩ := arrayFromPayloads_encodeDetails hrestored
  obtain ⟨ts, hts⟩ := msOptionalToTs_ok htext
  obtain ⟨n, hencode, hdecode⟩ := applicationFailureCategories.decode_encode k
  refine ⟨some (.applicationFailureInfo type nonRetryable payloads ts n), ?_, ?_⟩
  · simp [failureInfo, hto, hts, hk, hencode, bind, Except.bind, pure, Except.pure]
  · refine ⟨fun _ failure => ?_, nofun, fun _ => rfl, fun _ _ => rfl⟩
    refine ⟨.ApplicationFailure type (.value (isTrue nonRetryable))
      (.value (details.toOption.getD [])) .undefined (.ofOption (k.map .key)), ?_, ?_⟩
    · simp [errorKind, hfrom, hdecode, bind, Except.bind, pure, Except.pure]
    · simp [RestoredKind, hk]

theorem cancelledFailure_returns {details : List V} (hbuilt : ∀ v ∈ details, conv.RoundTrips v) :
    ∃ info, conv.failureInfo (.CancelledFailure details) = .ok info ∧
      conv.Returns (.CancelledFailure details) info := by
  have hrestored : ∀ values ∈ some details, ∀ v ∈ values, conv.RoundTrips v := by
    simpa using hbuilt
  obtain ⟨payloads, hto, hfrom⟩ := arrayFromPayloads_encodeDetails hrestored
  refine ⟨some (.canceledFailureInfo payloads), ?_, fun _ failure => ?_, nofun, fun _ => rfl,
    fun _ _ => rfl⟩
  · simp [failureInfo, hto, bind, Except.bind, pure, Except.pure]
  · refine ⟨.CancelledFailure details, ?_, rfl⟩
    simp [errorKind, hfrom, bind, Except.bind, pure, Except.pure]

theorem timeoutFailure_returns {lastHeartbeatDetails : V}
    {timeoutType : Option (EnumString TimeoutType)}
    (hvalue : conv.RoundTrips lastHeartbeatDetails) (htype : IsKnown timeoutType) :
    ∃ info, conv.failureInfo (.TimeoutFailure lastHeartbeatDetails timeoutType) = .ok info ∧
      conv.Returns (.TimeoutFailure lastHeartbeatDetails timeoutType) info := by
  obtain ⟨k, rfl⟩ := htype
  obtain ⟨payload, hto, hfrom⟩ := hvalue
  obtain ⟨n, hencode, hdecode⟩ := timeoutTypes.decode_encode k
  cases htruthy : conv.truthy lastHeartbeatDetails with
  | true =>
    refine ⟨some (.timeoutFailureInfo n (some [payload])), ?_, fun _ failure => ?_, nofun, nofun,
      fun _ _ => rfl⟩
    · simp [failureInfo, toPayloads, hencode, htruthy, hto, bind, Except.bind, pure, Except.pure]
    · refine ⟨.TimeoutFailure lastHeartbeatDetails (k.map .key), ?_, fun _ => rfl, rfl⟩
      simp [errorKind, firstFromPayloads, hfrom, hdecode, bind, Except.bind, pure, Except.pure]
  | false =>
    -- nothing is sent, and `undefined` comes back
    refine ⟨some (.timeoutFailureInfo n none), ?_, fun _ failure => ?_, nofun, nofun,
      fun _ _ => rfl⟩
    · simp [failureInfo, hencode, htruthy, bind, Except.bind, pure, Except.pure]
    · refine ⟨.TimeoutFailure conv.undefined (k.map .key), ?_, fun hsent => ?_, rfl⟩
      · simp [errorKind, firstFromPayloads, hdecode, bind, Except.bind, pure, Except.pure]
      · rcases hsent with hsent | hsent
        · rw [htruthy] at hsent
          cases hsent
        · exact hsent.symm

theorem activityFailure_returns {activityType : String} {activityId identity : Option String}
    {retryState : Option (EnumString RetryState)} (hstate : IsKnown retryState) :
    ∃ info,
      conv.failureInfo (.ActivityFailure activityType activityId retryState identity) = .ok info ∧
      conv.Returns (.ActivityFailure activityType activityId retryState identity) info := by
  obtain ⟨k, rfl⟩ := hstate
  obtain ⟨n, hencode, hdecode⟩ := retryStates.decode_encode k
  refine ⟨some (.activityFailureInfo (some activityType) activityId n identity), ?_,
    fun hnamed failure => ?_, fun hunnamed failure => ?_, fun _ => rfl, fun _ _ => rfl⟩
  · simp [failureInfo, hencode, bind, Except.bind, pure, Except.pure]
  · refine ⟨.ActivityFailure activityType activityId (k.map .key) identity, ?_, rfl⟩
    have hne : activityType ≠ "" := by simpa [namedKind] using hnamed
    simp [errorKind, Option.filter, hne, hdecode, pure, Except.pure]
  · have hempty : activityType = "" := by simpa [namedKind] using hunnamed
    subst hempty
    exact ⟨_, rfl⟩

theorem childWorkflowFailure_returns {childNamespace : Option String}
    {execution : WorkflowExecution} {workflowType : String}
    {retryState : Option (EnumString RetryState)} (hstate : IsKnown retryState) :
    ∃ info,
      conv.failureInfo (.ChildWorkflowFailure childNamespace execution workflowType retryState) =
        .ok info ∧
      conv.Returns (.ChildWorkflowFailure childNamespace execution workflowType retryState) info := by
  obtain ⟨k, rfl⟩ := hstate
  obtain ⟨n, hencode, hdecode⟩ := retryStates.decode_encode k
  refine ⟨some (.childWorkflowExecutionFailureInfo childNamespace (some workflowType)
    (some execution) n), ?_, fun hnamed failure => ?_, fun hunnamed failure => ?_, fun _ => rfl,
    fun _ hmessage => hmessage.symm⟩
  · simp [failureInfo, hencode, bind, Except.bind, pure, Except.pure]
  · refine ⟨.ChildWorkflowFailure childNamespace execution workflowType (k.map .key), ?_, rfl⟩
    have hne : workflowType ≠ "" := by simpa [namedKind] using hnamed
    simp [errorKind, Option.filter, hne, hdecode, pure, Except.pure]
  · have hempty : workflowType = "" := by simpa [namedKind] using hunnamed
    subst hempty
    exact ⟨_, rfl⟩

theorem nexusOperationFailure_returns {scheduledEventId : Option Int}
    {endpoint service operation : String} {operationToken : Option String}
    (hsafe : ∀ n ∈ scheduledEventId, IsSafeInteger n) :
    ∃ info,
      conv.failureInfo
          (.NexusOperationFailure scheduledEventId endpoint service operation operationToken) =
        .ok info ∧
      conv.Returns
        (.NexusOperationFailure scheduledEventId endpoint service operation operationToken) info := by
  refine ⟨_, rfl, fun _ failure => ⟨_, rfl, fun hevent => ?_, rfl, rfl, rfl, rfl⟩, nofun,
    fun _ => rfl, fun _ _ => rfl⟩
  cases scheduledEventId with
  | none => rfl
  | some n =>
    have hne : n ≠ 0 := fun h => hevent (by rw [h])
    simp [Option.filter, hne, longFromNumber_of_safe (hsafe n rfl)]

theorem handlerError_returns {type : String} {retryableOverride : Option Bool}
    {rawErrorType : Option String} (htype : conv.hasHandlerErrorType type ∨ type = "UNKNOWN") :
    ∃ info, conv.failureInfo (.HandlerError type retryableOverride rawErrorType none) = .ok info ∧
      conv.Returns (.HandlerError type retryableOverride rawErrorType none) info := by
  refine ⟨_, rfl, fun _ failure => ?_, nofun, fun _ => rfl, fun _ _ => rfl⟩
  cases failure with
  | mk fields cause =>
    refine ⟨_, rfl, ?_, decodeRetryBehavior_encode retryableOverride⟩
    rcases htype with hknown | hunknown
    · simp [hknown]
    · simp [hunknown]

/-- Every error built with its constructor has information that leads back to it. -/
theorem failureInfo_returns {kind : ErrorKind V P} (hbuilt : conv.BuiltKind kind) :
    ∃ info, conv.failureInfo kind = .ok info ∧ conv.Returns kind info := by
  cases kind with
  | ApplicationFailure type nonRetryable details nextRetryDelay category =>
    exact applicationFailure_returns hbuilt
  | CancelledFailure details => exact cancelledFailure_returns hbuilt
  | TimeoutFailure lastHeartbeatDetails timeoutType =>
    exact timeoutFailure_returns hbuilt.1 hbuilt.2
  | ActivityFailure activityType activityId retryState identity =>
    exact activityFailure_returns hbuilt
  | ChildWorkflowFailure childNamespace execution workflowType retryState =>
    exact childWorkflowFailure_returns hbuilt
  | NexusOperationFailure scheduledEventId endpoint service operation operationToken =>
    exact nexusOperationFailure_returns hbuilt
  | HandlerError type retryableOverride rawErrorType originalFailure =>
    obtain ⟨htype, rfl⟩ := hbuilt
    exact handlerError_returns htype
  | TemporalFailure | ServerFailure | TerminatedFailure =>
    exact ⟨_, rfl, fun _ _ => ⟨_, rfl, rfl⟩, nofun, fun _ => rfl, fun _ _ => rfl⟩
  | WorkflowExecutionAlreadyStartedError | InvalidVersioningOverrideError | Error => exact hbuilt.elim

/-! ## Chains of causes -/

/-- A message and stack moved into a payload are read back from it. -/
theorem decodeAttributes_encodeAttributes (fields : FailureFields P) (cause : Option (Failure P))
    {message stackTrace : String} (hmessage : fields.message = some message)
    (hstack : fields.stackTrace = some stackTrace) (hplain : fields.encodedAttributes = none)
    (hattributes : conv.encodeCommonAttributes →
      conv.RoundTrips (conv.attributes (some message) (some stackTrace))) :
    ∃ sent restored, conv.encodeAttributes (.mk fields cause) = .ok (.mk sent cause) ∧
      conv.decodeAttributes sent = .ok restored ∧ restored.message = some message ∧
      restored.stackTrace = some stackTrace ∧ restored.info = fields.info := by
  cases hencode : conv.encodeCommonAttributes with
  | false =>
    refine ⟨fields, fields, ?_, ?_, hmessage, hstack, rfl⟩
    · simp [encodeAttributes, hencode, pure, Except.pure]
    · simp [decodeAttributes, hplain, pure, Except.pure]
  | true =>
    obtain ⟨payload, hto, hfrom⟩ := hattributes hencode
    refine ⟨{ fields with
        message := some "Encoded failure", stackTrace := some "",
        encodedAttributes := some payload },
      { fields with encodedAttributes := some payload }, ?_, ?_, hmessage, hstack, rfl⟩
    · simp [encodeAttributes, hencode, hmessage, hstack, hto, bind, Except.bind, pure, Except.pure]
    · simp [decodeAttributes, hfrom, hmessage, hstack, conv.attributesMessage_attributes,
        conv.attributesStackTrace_attributes, bind, Except.bind, pure, Except.pure]

/-- The failure of one error of the chain, once its cause is converted. -/
theorem errorToFailure_returns {fields : ErrorFields V P} {cause : Option (ErrorTree V P)}
    {causeFailure : Option (Failure P)} (hbuilt : conv.BuiltFields fields)
    (hcause : conv.optionalErrorToOptionalFailure cause = .ok causeFailure) :
    ∃ sent restored, conv.errorToFailure (.mk fields cause) = .ok (.mk sent causeFailure) ∧
      conv.decodeAttributes sent = .ok restored ∧ restored.message = some fields.message ∧
      restored.stackTrace = some (cutoffStackTrace fields.stack) ∧
      conv.Returns fields.kind restored.info := by
  obtain ⟨info, hinfo, hreturns⟩ := failureInfo_returns hbuilt.kind
  let plain : FailureFields P :=
    ⟨some fields.message, some (cutoffStackTrace fields.stack), some FAILURE_SOURCE, none, info⟩
  have hinner : conv.errorToFailureInner fields (.ok causeFailure) = .ok (.mk plain causeFailure) := by
    have hkind := hbuilt.kind
    unfold errorToFailureInner
    rw [hbuilt.failure]
    simp only [bind, Except.bind]
    split
    next type retryableOverride rawErrorType originalFailure hhandler =>
      -- a handler error made from a failure is not built with its constructor
      rw [hhandler] at hkind
      cases hkind.2
    next => simp [hinfo, plain, pure, Except.pure]
  obtain ⟨sent, restored, hencode, hdecode, hmessage, hstack, hrestored⟩ :=
    decodeAttributes_encodeAttributes plain causeFailure rfl rfl rfl hbuilt.attributes
  refine ⟨sent, restored, ?_, hdecode, hmessage, hstack, ?_⟩
  · simp [errorToFailure, hcause, hinner, hencode, bind, Except.bind]
  · rw [hrestored]
    exact hreturns

section Decoding

variable {fields : ErrorFields V P} {sent restored : FailureFields P}
  {causeFailure : Option (Failure P)} (hbuilt : conv.BuiltFields fields)
  (hdecode : conv.decodeAttributes sent = .ok restored)
  (hmessage : restored.message = some fields.message)
  (hstack : restored.stackTrace = some (cutoffStackTrace fields.stack))
  (hreturns : conv.Returns fields.kind restored.info)

include hbuilt hdecode hmessage hstack hreturns

theorem failureToError_restored (hnamed : namedKind fields.kind = true)
    {cause : Option (ErrorTree V P)}
    (hcause : (if takesCause restored.info then conv.optionalFailureToOptionalError causeFailure
      else pure none) = .ok cause) :
    ∃ fields', conv.failureToError (.mk sent causeFailure) = .ok (.mk fields' cause) ∧
      conv.RestoredFields fields fields' := by
  obtain ⟨kind, hkind, hrestored⟩ := hreturns.named hnamed (.mk restored causeFailure)
  refine ⟨⟨kind, fields.message, some (cutoffStackTrace fields.stack),
    if isTemporalFailure kind then some (.mk restored causeFailure) else none⟩, ?_, hrestored, rfl, rfl⟩
  have hsame := hreturns.message _ hbuilt.message
  simp only [failureToError, hdecode, hkind, hmessage, hstack, hsame, bind, Except.bind, pure,
    Except.pure, Option.getD_some]
  cases htakes : takesCause restored.info with
  | true =>
    simp only [htakes, if_true] at hcause
    simp only [if_true, hcause]
  | false =>
    simp only [htakes, Bool.false_eq_true, if_false, pure, Except.pure, Except.ok.injEq] at hcause
    simp only [Bool.false_eq_true, if_false, hcause]

omit hbuilt hmessage hstack in
theorem failureToError_unnamed (hunnamed : namedKind fields.kind = false) :
    ∃ message, conv.failureToError (.mk sent causeFailure) = .error (.typeError message) := by
  obtain ⟨message, hkind⟩ := hreturns.unnamed hunnamed (.mk restored causeFailure)
  refine ⟨message, ?_⟩
  simp only [failureToError, hdecode, hkind, bind, Except.bind]

omit hbuilt hmessage hstack in
theorem failureToError_cause_rejected (hnamed : namedKind fields.kind = true)
    (hhas : HasCause fields.kind) {failure : Failure P} {message : String}
    (hcause : conv.failureToError failure = .error (.typeError message)) :
    conv.failureToError (.mk sent (some failure)) = .error (.typeError message) := by
  obtain ⟨kind, hkind, -⟩ := hreturns.named hnamed (.mk restored (some failure))
  simp only [failureToError, optionalFailureToOptionalError, hdecode, hkind, hreturns.cause hhas,
    hcause, bind, Except.bind, if_true]

end Decoding

/-- An error built with the public constructors comes back, down to its last cause, unless an
activity or child workflow failure in it has no type name: then the failure is rejected. -/
theorem failureToError_errorToFailure {err : ErrorTree V P} (hbuilt : conv.Built err) :
    ∃ failure, conv.errorToFailure err = .ok failure ∧
      (named err = true → ∃ err', conv.failureToError failure = .ok err' ∧ conv.Restored err err') ∧
      (named err = false →
        ∃ message, conv.failureToError failure = .error (.typeError message)) := by
  induction hbuilt with
  | @last fields hfields =>
    obtain ⟨sent, restored, hto, hdecode, hmessage, hstack, hreturns⟩ :=
      errorToFailure_returns hfields (optionalErrorToOptionalFailure.eq_1 conv)
    refine ⟨.mk sent none, hto, fun hnamed => ?_, fun hunnamed => ?_⟩
    · have hcause : (if takesCause restored.info then conv.optionalFailureToOptionalError none
          else pure none) = .ok none := by
        simp [optionalFailureToOptionalError, pure, Except.pure]
      obtain ⟨fields', hfrom, hrestored⟩ :=
        failureToError_restored hfields hdecode hmessage hstack hreturns
          (by simpa [named] using hnamed) hcause
      exact ⟨_, hfrom, .last hrestored⟩
    · exact failureToError_unnamed hdecode hreturns (by simpa [named] using hunnamed)
  | @caused fields cause hfields hhas _ ih =>
    obtain ⟨failure, htoCause, hrestoredCause, hrejectedCause⟩ := ih
    have hoptional : conv.optionalErrorToOptionalFailure (some cause) = .ok (some failure) := by
      simp [optionalErrorToOptionalFailure, htoCause, bind, Except.bind, pure, Except.pure]
    obtain ⟨sent, restored, hto, hdecode, hmessage, hstack, hreturns⟩ :=
      errorToFailure_returns hfields hoptional
    refine ⟨.mk sent (some failure), hto, fun hnamed => ?_, fun hunnamed => ?_⟩
    · have hnames : namedKind fields.kind = true ∧ named cause = true := by
        simpa [named] using hnamed
      obtain ⟨cause', hfromCause, hsame⟩ := hrestoredCause hnames.2
      have hcause : (if takesCause restored.info then
          conv.optionalFailureToOptionalError (some failure) else pure none) = .ok (some cause') := by
        simp [hreturns.cause hhas, optionalFailureToOptionalError, hfromCause, bind, Except.bind,
          pure, Except.pure]
      obtain ⟨fields', hfrom, hrestored⟩ :=
        failureToError_restored hfields hdecode hmessage hstack hreturns hnames.1 hcause
      exact ⟨_, hfrom, .caused hrestored hsame⟩
    · -- the first of the chain without a name is the one that is reported
      cases hkind : namedKind fields.kind with
      | false => exact failureToError_unnamed hdecode hreturns hkind
      | true =>
        have hunnamedCause : named cause = false := by
          simpa [named, hkind] using hunnamed
        obtain ⟨message, hrejected⟩ := hrejectedCause hunnamedCause
        exact ⟨message, failureToError_cause_rejected hdecode hreturns hkind hhas hrejected⟩

/-! ## A JSON converter -/

/-- As much of JSON as the errors below hold, with the object of the encoded attributes. -/
inductive JsonValue where
  | undefined
  | number (n : Int)
  | string (s : String)
  | attributes (message stackTrace : Option String)

/-- A converter whose payloads hold the values themselves. -/
def jsonConverter (encodeCommonAttributes : Bool) : Converter JsonValue JsonValue where
  encodeCommonAttributes
  toPayload := .ok
  fromPayload := .ok
  undefined := .undefined
  truthy
    | .undefined => false
    | .number n => n ≠ 0
    | .string s => s ≠ ""
    | .attributes _ _ => true
  attributes := .attributes
  attributesMessage
    | .attributes message _ => message
    | _ => none
  attributesStackTrace
    | .attributes _ stackTrace => stackTrace
    | _ => none
  ms s := if s = "30 seconds" then some 30000 else none
  hasHandlerErrorType type := ["BAD_REQUEST", "NOT_FOUND", "INTERNAL"].contains type
  retryable type retryableOverride := retryableOverride.getD (type != "BAD_REQUEST")
  truthy_undefined := rfl
  attributesMessage_attributes _ _ := rfl
  attributesStackTrace_attributes _ _ := rfl

theorem jsonConverter_roundTrips (encodeCommonAttributes : Bool) (value : JsonValue) :
    (jsonConverter encodeCommonAttributes).RoundTrips value := ⟨value, rfl, rfl⟩

/-- A declined charge: the activity failure, what it threw, and the Nexus operation behind it, whose
handler timed out. -/
def failedActivity : ErrorTree JsonValue JsonValue :=
  .mk ⟨.ActivityFailure "charge" (some "1") (some (.key .MAXIMUM_ATTEMPTS_REACHED)) none,
      "Activity task failed", none, none⟩ <| some <|
    .mk ⟨.ApplicationFailure (.value "CardDeclined") (.value true) (.value [.number 0, .string ""])
        (.value (.text "30 seconds")) (.value (.key .BENIGN)),
        "declined", some "ApplicationFailure: declined\n    at charge (/app/activities.js:3:9)", none⟩ <|
      some <|
    .mk ⟨.NexusOperationFailure (some 5) "bank" "cards" "charge" none, "nexus operation failed", none,
        none⟩ <| some <|
    .mk ⟨.TimeoutFailure (.string "half way") (some (.key .HEARTBEAT)), "timed out", none, none⟩ none

theorem failedActivity_built : (jsonConverter true).Built failedActivity := by
  have hvalue := jsonConverter_roundTrips true
  refine .caused ⟨⟨some .MAXIMUM_ATTEMPTS_REACHED, rfl⟩, trivial, rfl, fun _ => hvalue _⟩ trivial ?_
  refine .caused ⟨⟨fun _ _ v _ => hvalue v, ?_, some .BENIGN, rfl⟩, trivial, rfl, fun _ => hvalue _⟩
    trivial ?_
  · intro s hs
    cases hs
    rfl
  refine .caused ⟨?_, trivial, rfl, fun _ => hvalue _⟩ trivial ?_
  · intro n hn
    cases hn
    exact ⟨by decide, by decide⟩
  exact .last ⟨⟨hvalue _, some .HEARTBEAT, rfl⟩, trivial, rfl, fun _ => hvalue _⟩

/-- The failed activity comes back with its message and stack carried by a payload. -/
theorem failedActivity_restored :
    named failedActivity = true ∧
      ∃ failure, (jsonConverter true).errorToFailure failedActivity = .ok failure ∧
        ∃ err', (jsonConverter true).failureToError failure = .ok err' ∧
          (jsonConverter true).Restored failedActivity err' := by
  obtain ⟨failure, hto, hrestored, -⟩ := failureToError_errorToFailure failedActivity_built
  exact ⟨by decide, failure, hto, hrestored (by decide)⟩

/-- `new ApplicationFailure('boom')`, thrown by an activity. -/
def bareFailure : ErrorFields JsonValue JsonValue where
  kind := .ApplicationFailure .undefined .undefined .undefined .undefined .undefined
  message := "boom"
  stack := some ("ApplicationFailure: boom\n    at charge (/app/activities.js:3:9)\n" ++
    "    at Activity.execute (/app/node_modules/@temporalio/worker/lib/activity.js:9:23)")
  failure := none

def unnamedActivity : ErrorFields JsonValue JsonValue where
  kind := .ActivityFailure "" none none none
  message := "Activity task failed"
  stack := none
  failure := none

theorem cutoffStackTrace_bareFailure :
    cutoffStackTrace bareFailure.stack =
      "ApplicationFailure: boom\n    at charge (/app/activities.js:3:9)" := by
  -- the literals as lists of characters, since the kernel is slow to decode them
  have huser : "ApplicationFailure: boom\n    at charge (/app/activities.js:3:9)\n".toList = _ := String.toList_ofList
  have hframe : "    at Activity.execute (/app/node_modules/@temporalio/worker/lib/activity.js:9:23)".toList = _ :=
    String.toList_ofList
  have hkept : "ApplicationFailure: boom\n    at charge (/app/activities.js:3:9)" = String.ofList _ := rfl
  rw [cutoffStackTrace, bareFailure, Option.getD_some, String.toList_append, huser, hframe, hkept]
  refine congrArg String.ofList ?_
  decide +kernel

/-- Framework frames are cut from the stack, a missing flag and missing details are filled in, and
an activity failure without a type is rejected. -/
theorem not_same_after_round_trip :
    (jsonConverter false).Built (.mk bareFailure none) ∧
      (∃ fields', ((jsonConverter false).errorToFailure (.mk bareFailure none) >>=
          (jsonConverter false).failureToError) = .ok (.mk fields' none) ∧
        fields'.stack ≠ bareFailure.stack ∧ fields'.kind ≠ bareFailure.kind) ∧
      (jsonConverter false).Built (.mk unnamedActivity none) ∧
      ((jsonConverter false).errorToFailure (.mk unnamedActivity none) >>=
          (jsonConverter false).failureToError) =
        .error (.typeError "Missing activityType?.name on activityFailureInfo") := by
  refine ⟨?_, ?_, ?_, rfl⟩
  · exact .last ⟨⟨nofun, nofun, none, rfl⟩, trivial, rfl, nofun⟩
  · refine ⟨_, rfl, ?_, nofun⟩
    have hcut := cutoffStackTrace_bareFailure
    intro hsame
    have hsame' : some (cutoffStackTrace bareFailure.stack) = bareFailure.stack := hsame
    rw [hcut] at hsame'
    revert hsame'
    decide
  · exact .last ⟨⟨none, rfl⟩, trivial, rfl, nofun⟩

end Converter
end TemporalSdk.Failures
