import TemporalSdk.Failures.Messages
import TemporalSdk.Failures.StackTrace

/-!
# The default failure converter

`DefaultFailureConverter` of `packages/common/src/converter/failure-converter.ts` with the payload
converter it is called with.
-/

namespace TemporalSdk.Failures

def FAILURE_SOURCE : String := "TypeScriptSDK"

/-- The converter's options, the payload converter, and what it uses of the language and of other
packages: the object `\x7b message, stack_trace \x7d` and the strings read back from one, `ms`, and
the handler error types of `nexus-rpc`. -/
structure Converter (V P : Type) where
  encodeCommonAttributes : Bool
  toPayload : V → Except Thrown P
  fromPayload : P → Except Thrown V
  undefined : V
  truthy : V → Bool
  attributes : Option String → Option String → V
  attributesMessage : V → Option String
  attributesStackTrace : V → Option String
  ms : String → Option Int
  hasHandlerErrorType : String → Bool
  retryable : String → Option Bool → Bool
  truthy_undefined : truthy undefined = false
  attributesMessage_attributes : ∀ message stackTrace,
    attributesMessage (attributes message stackTrace) = message
  attributesStackTrace_attributes : ∀ message stackTrace,
    attributesStackTrace (attributes message stackTrace) = stackTrace

namespace Converter

variable {V P : Type} (conv : Converter V P)

/-! ## From errors to failures -/

def toPayloads (values : List V) : Except Thrown (List P) := values.mapM conv.toPayload

/-- `err.details && err.details.length ? … : undefined` -/
def encodeDetails (details : Option (List V)) : Except Thrown (Option (List P)) :=
  match details with
  | none => pure none
  | some [] => pure none
  | some values => return some (← conv.toPayloads values)

/-- The retry behaviour a handler error is sent with. -/
def encodeRetryableOverride : Option Bool → Option Nat
  | none => none
  | some true => some (nexusHandlerErrorRetryBehaviors.number .RETRYABLE)
  | some false => some (nexusHandlerErrorRetryBehaviors.number .NON_RETRYABLE)

/-- The kind of information the failure of an error has. -/
def failureInfo : ErrorKind V P → Except Thrown (Option (FailureInfo P))
  | .ActivityFailure activityType activityId retryState identity => do
    let retryState ← retryStates.encode retryState
    return some (.activityFailureInfo (some activityType) activityId retryState identity)
  | .ChildWorkflowFailure childNamespace execution workflowType retryState => do
    let retryState ← retryStates.encode retryState
    return some (.childWorkflowExecutionFailureInfo childNamespace (some workflowType)
      (some execution) retryState)
  | .ApplicationFailure type nonRetryable details nextRetryDelay category => do
    let details ← conv.encodeDetails details.toOption
    let nextRetryDelay ← msOptionalToTs conv.ms .typeError nextRetryDelay.toOption
    let category ← applicationFailureCategories.encode category.toOption
    return some (.applicationFailureInfo type nonRetryable details nextRetryDelay category)
  | .CancelledFailure details => do
    return some (.canceledFailureInfo (← conv.encodeDetails (some details)))
  | .TimeoutFailure lastHeartbeatDetails timeoutType => do
    let timeoutType ← timeoutTypes.encode timeoutType
    if conv.truthy lastHeartbeatDetails then
      let payloads ← conv.toPayloads [lastHeartbeatDetails]
      return some (.timeoutFailureInfo timeoutType (some payloads))
    else
      return some (.timeoutFailureInfo timeoutType none)
  | .ServerFailure nonRetryable => pure (some (.serverFailureInfo (.value nonRetryable)))
  | .TerminatedFailure => pure (some .terminatedFailureInfo)
  | .HandlerError type retryableOverride _ _ =>
    pure (some (.nexusHandlerFailureInfo (some type) (encodeRetryableOverride retryableOverride)))
  | .NexusOperationFailure scheduledEventId endpoint service operation operationToken =>
    -- the event id is tested for truth, so that 0 is not sent
    let eventId := (scheduledEventId.filter (· ≠ 0)).map longFromNumber
    pure (some (.nexusOperationExecutionFailureInfo eventId (some endpoint) (some service)
      (some operation) operationToken))
  -- "Just a TemporalFailure", and errors of other classes
  | .TemporalFailure => pure none
  | .WorkflowExecutionAlreadyStartedError _ _ _ => pure none
  | .InvalidVersioningOverrideError _ _ => pure none
  | .Error => pure none

def nexusFailureToTemporalFailure (retryable : Bool) : NexusFailure P → Except Thrown (Failure P)
  | .temporal _ none =>
    throw (.typeError
      "missing details for Nexus Failure of type 'temporal.api.failure.v1.Failure'")
  | .temporal _ (some details) => pure details
  | .foreign message stackTrace json =>
    let info := .applicationFailureInfo (.value "NexusFailure") (.value (!retryable)) (some [json])
      none none
    pure (.mk ⟨some message, some (stackTrace.getD ""), none, none, some info⟩ none)

/-- `errorToFailureInner` for an `Error`; the conversion of its cause is run only where needed. -/
def errorToFailureInner (err : ErrorFields V P) (cause : Except Thrown (Option (Failure P))) :
    Except Thrown (Failure P) :=
  match err.failure with
  | some failure => pure failure
  | none => do
    let cause ← cause
    match err.kind with
    | .HandlerError type retryableOverride _ (some originalFailure) =>
      nexusFailureToTemporalFailure (conv.retryable type retryableOverride) originalFailure
    | kind =>
      let info ← conv.failureInfo kind
      return .mk ⟨some err.message, some (cutoffStackTrace err.stack), some FAILURE_SOURCE, none,
        info⟩ cause

/-- The failure of a thrown value that is no `Error`. -/
def nonErrorToFailure (text : String) : Failure P :=
  let recommendation := " [A non-Error value was thrown from your code. We recommend throwing " ++
    "Error objects so that we can provide a stack trace]"
  .mk ⟨some (text ++ recommendation), none, some FAILURE_SOURCE, none, none⟩ none

/-- The message and stack moved into a payload, when the options ask for it. -/
def encodeAttributes : Failure P → Except Thrown (Failure P)
  | .mk fields cause =>
    if conv.encodeCommonAttributes then do
      let payload ← conv.toPayload (conv.attributes fields.message fields.stackTrace)
      return .mk { fields with
        message := some "Encoded failure", stackTrace := some "",
        encodedAttributes := some payload } cause
    else pure (.mk fields cause)

mutual

def errorToFailure : ErrorTree V P → Except Thrown (Failure P)
  | .mk fields cause => do
    conv.encodeAttributes
      (← conv.errorToFailureInner fields (optionalErrorToOptionalFailure cause))
  | .nonError text => conv.encodeAttributes (nonErrorToFailure text)

def optionalErrorToOptionalFailure : Option (ErrorTree V P) → Except Thrown (Option (Failure P))
  | none => pure none
  | some err => return some (← errorToFailure err)

end

/-! ## From failures to errors -/

def arrayFromPayloads : Option (List P) → Except Thrown (List V)
  | none => pure []
  | some payloads => payloads.mapM conv.fromPayload

/-- `fromPayloadsAtIndex` at index 0 -/
def firstFromPayloads : Option (List P) → Except Thrown V
  | some (payload :: _) => conv.fromPayload payload
  | _ => pure conv.undefined

def decodeRetryBehavior (retryBehavior : Option Nat) : Option Bool :=
  match nexusHandlerErrorRetryBehaviors.decode retryBehavior with
  | some (.key .RETRYABLE) => some true
  | some (.key .NON_RETRYABLE) => some false
  | _ => none

/-- `Boolean(…)` of an optional flag -/
def isTrue (flag : Nullable Bool) : Bool := flag.toOption.getD false

/-- The message of an error made from a failure; a child workflow's error has one of its own. -/
def errorMessage (info : Option (FailureInfo P)) (message : Option String) : String :=
  match info with
  | some (.childWorkflowExecutionFailureInfo ..) => "Child Workflow execution failed"
  | some (.nexusHandlerFailureInfo ..) => message.getD "Nexus handler error"
  | _ => message.getD ""

/-- The class `failureToErrorInner` picks and its fields; `failure` is the one being converted. -/
def errorKind (failure : Failure P) : Option (FailureInfo P) → Except Thrown (ErrorKind V P)
  | some (.applicationFailureInfo type nonRetryable details _ category) => do
    let details ← conv.arrayFromPayloads details
    return .ApplicationFailure type (.value (isTrue nonRetryable)) (.value details) .undefined
      (.ofOption (applicationFailureCategories.decode category))
  | some (.serverFailureInfo nonRetryable) => pure (.ServerFailure (isTrue nonRetryable))
  | some (.timeoutFailureInfo timeoutType lastHeartbeatDetails) => do
    let lastHeartbeatDetails ← conv.firstFromPayloads lastHeartbeatDetails
    return .TimeoutFailure lastHeartbeatDetails (timeoutTypes.decode timeoutType)
  | some .terminatedFailureInfo => pure .TerminatedFailure
  | some (.canceledFailureInfo details) => do
    return .CancelledFailure (← conv.arrayFromPayloads details)
  | some (.resetWorkflowFailureInfo lastHeartbeatDetails) => do
    let details ← conv.arrayFromPayloads lastHeartbeatDetails
    return .ApplicationFailure (.value "ResetWorkflow") (.value false) (.value details) .undefined
      .undefined
  | some (.childWorkflowExecutionFailureInfo childNamespace workflowType workflowExecution retryState) =>
    match (workflowType.filter (· ≠ "")), workflowExecution with
    | some workflowType, some workflowExecution =>
      pure (.ChildWorkflowFailure childNamespace workflowExecution workflowType
        (retryStates.decode retryState))
    | _, _ => throw (.typeError "Missing attributes on childWorkflowExecutionFailureInfo")
  | some (.activityFailureInfo activityType activityId retryState identity) =>
    match activityType.filter (· ≠ "") with
    | some activityType =>
      pure (.ActivityFailure activityType activityId (retryStates.decode retryState) identity)
    | none => throw (.typeError "Missing activityType?.name on activityFailureInfo")
  | some (.nexusHandlerFailureInfo type retryBehavior) =>
    let rawErrorType := type.getD ""
    let resolvedType := if conv.hasHandlerErrorType rawErrorType then rawErrorType else "UNKNOWN"
    let .mk fields _ := failure
    pure (.HandlerError resolvedType (decodeRetryBehavior retryBehavior) (some rawErrorType)
      (some (.temporal (fields.message.getD "") (some failure))))
  | some (.nexusOperationExecutionFailureInfo scheduledEventId endpoint service operation
      operationToken) =>
      pure (.NexusOperationFailure scheduledEventId (endpoint.getD "") (service.getD "")
        (operation.getD "") operationToken)
  | none => pure .TemporalFailure

/-- Only a `TimeoutFailure` is made without its cause. -/
def takesCause : Option (FailureInfo P) → Bool
  | some (.timeoutFailureInfo ..) => false
  | _ => true

/-- The failure with its message and stack read back from the encoded attributes. -/
def decodeAttributes (fields : FailureFields P) : Except Thrown (FailureFields P) :=
  match fields.encodedAttributes with
  | none => pure fields
  | some payload => do
    let attrs ← conv.fromPayload payload
    return { fields with
      message := (conv.attributesMessage attrs).or fields.message,
      stackTrace := (conv.attributesStackTrace attrs).or fields.stackTrace }

/-- Whether an error of the kind is a `TemporalFailure`, which keeps the failure it was made from. -/
def isTemporalFailure : ErrorKind V P → Bool
  | .HandlerError .. => false
  | .Error => false
  | _ => true

mutual

def failureToError : Failure P → Except Thrown (ErrorTree V P)
  | .mk fields cause => do
    let fields ← conv.decodeAttributes fields
    let failure := Failure.mk fields cause
    let kind ← conv.errorKind failure fields.info
    let causeError ← if takesCause fields.info then optionalFailureToOptionalError cause else pure none
    return .mk
      { kind, message := errorMessage fields.info fields.message,
        stack := some (fields.stackTrace.getD ""),
        failure := if isTemporalFailure kind then some failure else none } causeError

def optionalFailureToOptionalError : Option (Failure P) → Except Thrown (Option (ErrorTree V P))
  | none => pure none
  | some failure => return some (← failureToError failure)

end

end Converter

end TemporalSdk.Failures
