import Mathlib.Data.List.Basic

/-!
# Protocol — commands and activation jobs of the operations a workflow schedules

The part of the Core ↔ SDK protocol that concerns timers, activities, child workflows, external
signals and cancels, and Nexus operations.  A command is what `Activator.pushCommand` receives; a
job is what an `ActivationHandler` method receives.

Payloads are opaque.  Where the source runs user code to build or read one (payload and failure
converters, duration parsing), the model carries the *outcome* of that code as an
`Except JsError _`, so every converter, including one that throws, is covered.
-/

namespace TemporalSdk.Workflow

abbrev Seq := Nat
abbrev ScopeId := Nat
abbrev Payloads := List String

/-- An error object created by the SDK or by a converter: its class name and message. -/
structure JsError where
  name : String
  message : String
  deriving DecidableEq

namespace JsError

def typeError (message : String) : JsError := ⟨"TypeError", message⟩
def valueError (message : String) : JsError := ⟨"ValueError", message⟩
def referenceError (message : String) : JsError := ⟨"ReferenceError", message⟩
def illegalState (message : String) : JsError := ⟨"IllegalStateError", message⟩
def cancelled : JsError := ⟨"CancelledFailure", "Cancellation scope cancelled"⟩

end JsError

/-! ## Tables and counters of the Activator -/

/-- The keys of `Activator.completions`. -/
inductive CompletionKind
  | timer
  | activity
  | nexusOperationStart
  | nexusOperationComplete
  | childWorkflowStart
  | childWorkflowComplete
  | signalWorkflow
  | cancelWorkflow
  deriving DecidableEq

/-- The keys of `Activator.nextSeqs` that number operations. -/
inductive SeqKind
  | timer
  | activity
  | childWorkflow
  | signalWorkflow
  | cancelWorkflow
  | nexusOperation
  deriving DecidableEq

/-! ## Commands -/

inductive SignalTarget
  | external (workflowId : String) (runId : Option String)
  | child (childWorkflowId : String)
  deriving DecidableEq

inductive Command
  | startTimer (seq : Seq) (startToFireTimeout : Nat)
  | cancelTimer (seq : Seq)
  | scheduleActivity (seq : Seq) (activityId activityType : String) (arguments : Payloads)
  | requestCancelActivity (seq : Seq)
  | scheduleLocalActivity (seq : Seq) (attempt : Nat) (originalScheduleTime : Option Nat)
      (activityId activityType : String) (arguments : Payloads)
  | requestCancelLocalActivity (seq : Seq)
  | startChildWorkflowExecution (seq : Seq) (workflowId workflowType : String) (input : Payloads)
  | cancelChildWorkflowExecution (childWorkflowSeq : Seq)
  | signalExternalWorkflowExecution (seq : Seq) (signalName : String) (target : SignalTarget)
      (args : Payloads)
  | cancelSignalWorkflow (seq : Seq)
  | requestCancelExternalWorkflowExecution (seq : Seq) (workflowId : String)
      (runId : Option String)
  | scheduleNexusOperation (seq : Seq) (endpoint service operation : String) (input : Payloads)
  | requestCancelNexusOperation (seq : Seq)
  deriving DecidableEq

/-! ## Activation jobs -/

/-- `coresdk.activity_result.IDoBackoff`; every field is optional on the wire. -/
structure Backoff where
  backoffDuration : Option Nat
  attempt : Option Nat
  originalScheduleTime : Option Nat
  deriving DecidableEq

/-- A `failure` field: absent, or present with what `failureToError` makes of it. -/
abbrev FailureField := Option (Except JsError JsError)

inductive ActivityResult
  | completed (result : Except JsError Unit)
  | failed (failure : FailureField)
  | cancelled (failure : FailureField)
  | backoff (backoff : Backoff)
  | unset
  deriving DecidableEq

inductive ChildWorkflowResult
  | completed (result : Except JsError Unit)
  | failed (failure : FailureField)
  | cancelled (failure : FailureField)
  | unset
  deriving DecidableEq

/-- Decoded `StartChildWorkflowExecutionFailedCause`; `unspecified` is every other value. -/
inductive StartChildFailedCause
  | workflowAlreadyExists
  | namespaceNotFound
  | invalidVersioningOverride
  | unspecified
  deriving DecidableEq

inductive ChildStartStatus
  | succeeded (runId : String)
  | failed (workflowId workflowType : String) (cause : StartChildFailedCause)
  | cancelled (failure : FailureField)
  | unset
  deriving DecidableEq

inductive NexusResult
  | completed (result : Except JsError Unit)
  | failed (failure : Except JsError JsError)
  | cancelled (failure : Except JsError JsError)
  | timedOut (failure : Except JsError JsError)
  | unset
  deriving DecidableEq

inductive Job
  | cancelWorkflow
  | fireTimer (seq : Option Seq)
  | resolveActivity (seq : Option Seq) (result : Option ActivityResult)
  | resolveChildWorkflowExecutionStart (seq : Option Seq) (status : ChildStartStatus)
  | resolveChildWorkflowExecution (seq : Option Seq) (result : Option ChildWorkflowResult)
  | resolveNexusOperationStart (seq : Option Seq) (failed : FailureField)
  | resolveNexusOperation (seq : Option Seq) (result : NexusResult)
  | resolveSignalExternalWorkflow (seq : Option Seq) (failure : FailureField)
  | resolveRequestCancelExternalWorkflow (seq : Option Seq) (failure : FailureField)
  deriving DecidableEq

end TemporalSdk.Workflow
