import TemporalSdk.Workflow.Activator

/-!
# Operations — scheduling, resolving and cancelling

The next handlers of `workflow.ts` and `nexus.ts`, the job handlers of `internals.ts`, the timer
overrides of `global-overrides.ts`, and the step function that puts them together.

Workflow code is not modelled: an `Event` is any call it may make, at any time and in any scope, so
a list of events stands for the calls of an arbitrary program interleaved with jobs and microtasks.
Outbound interceptors are taken to be absent.
-/

namespace TemporalSdk.Workflow

/-! ## Inputs -/

/-- A `Duration` argument: a number of milliseconds, `NaN`, or an unparsable string. -/
inductive Duration
  | millis (ms : Int)
  | nan
  | invalid (text : String)
  deriving DecidableEq

/-- `msToNumber`; `none` is `NaN`. -/
def msToNumber : Duration → Except JsError (Option Int)
  | .millis ms => .ok (some ms)
  | .nan => .ok none
  | .invalid text => .error (.typeError s!"Invalid duration string: '{text}'")

/-- `msNumberToTs` on the durations a timer is started with. -/
def msNumberToTs : Option Nat → Except JsError Nat
  | some ms => .ok ms
  | none => .error (.valueError "Invalid millis NaN")

/-- `Math.max(1, ms)`, which keeps `NaN`. -/
def atLeastOne (ms : Option Int) : Option Nat :=
  ms.map fun n => (max 1 n).toNat

structure ActivityInput where
  activityType : String
  activityId : Option String
  scheduleToCloseTimeout : Option Nat
  startToCloseTimeout : Option Nat
  arguments : Except JsError Payloads

structure ChildWorkflowInput where
  workflowType : String
  workflowId : String
  arguments : Except JsError Payloads

structure SignalInput where
  signalName : String
  target : SignalTarget
  arguments : Except JsError Payloads

structure NexusInput where
  endpoint : String
  service : String
  operation : String
  -- `serializeNexusOperation`, called before the promise is created.
  serialized : Except JsError Payloads
  -- The conversions made while the command itself is built.
  timeouts : Except JsError Unit

structure ExternalCancelInput where
  workflowId : String
  runId : Option String
  eventGroups : Except JsError Unit

namespace Activator

/-! ## The promise executor shared by the next handlers -/

/-- Refuse in a cancelled scope; otherwise chain the cancel listener, push the command and register
the completion.  An error while the command is built rejects the promise. -/
def scheduleIn (a : Activator) (scope : ScopeId) (listener : CancelKind) (kind : CompletionKind)
    (seq : Seq) (w : Awaiter) (command : Except JsError Command) : Activator :=
  match a.scopes[scope]? with
  | none => a
  | some s =>
    if s.consideredCancelled then
      a.catchCancel scope (.rejectOperation kind seq w)
    else
      let a := if s.cancellable then a.catchCancel scope (.cancelListener listener seq) else a
      match command with
      | .error e => a.settle kind seq w (.rejected e)
      | .ok c => (a.pushCommand c).setCompletion kind seq w

/-! ## Timers -/

def timerNextHandler (a : Activator) (scope : ScopeId) (seq : Seq) (durationMs : Option Nat)
    (summary : Except JsError Unit) (w : Awaiter) : Activator :=
  a.scheduleIn scope .timer .timer seq w (do
    let startToFireTimeout ← msNumberToTs durationMs
    summary
    return .startTimer seq startToFireTimeout)

def sleep (a : Activator) (scope : ScopeId) (ms : Duration) (summary : Except JsError Unit)
    (w : Awaiter) : Activator :=
  let seq := a.nextSeqs .timer
  let a := a.bumpSeq .timer
  match msToNumber ms with
  | .error e => a.log (.threw e)
  | .ok n => (a.timerNextHandler scope seq (atLeastOne n) summary w).log (.returned .timer seq)

/-- `setTimeout`.  With the flag, the timer runs in a scope of its own, which is the last scope
created; the handle is the sequence number that `sleep` is about to allocate. -/
def setTimeout (a : Activator) (scope : ScopeId) (ms : Option Int) : Activator :=
  let seq := a.nextSeqs .timer
  if a.shielded then
    let timerScope := a.scopes.length
    let a := (a.newScope scope true).bumpSeq .timer
    (a.timerNextHandler timerScope seq (atLeastOne ms) (.ok ()) .timeout).log (.returned .timer seq)
  else
    let a := (a.bumpSeq .timer).setCompletion .timer seq .legacyTimeout
    match msNumberToTs (atLeastOne ms) with
    | .error e => (a.settle .timer seq .legacyTimeout (.rejected e)).log (.returned .timer seq)
    | .ok t => (a.pushCommand (.startTimer seq t)).log (.returned .timer seq)

/-- What `clearTimeout` found in the table of timeout scopes. -/
inductive ClearTarget
  | own (scope : ScopeId)
  | foreign
  | missing
  deriving DecidableEq

/-- `clearTimeout`, after the lookup of the handle. -/
def clearTimeout (a : Activator) (handle : Seq) (target : ClearTarget) : Activator :=
  let a := a.log (.clearCalled handle)
  match target with
  | .own scope => a.rejectScope scope
  | .foreign => a
  | .missing =>
    let a := (a.bumpSeq .timer).deleteCompletion .timer handle
    { a with
      commands := a.commands ++ [.cancelTimer handle]
      history := a.history ++ [.pushedByFallback handle] }

/-! ## Activities -/

def validateActivityOptions (scheduleToCloseTimeout startToCloseTimeout : Option Nat) :
    Except JsError Unit :=
  if scheduleToCloseTimeout = none ∧ startToCloseTimeout = none then
    .error (.typeError "Required either scheduleToCloseTimeout or startToCloseTimeout")
  else
    .ok ()

def scheduleActivityNextHandler (a : Activator) (scope : ScopeId) (seq : Seq)
    (input : ActivityInput) : Activator :=
  match validateActivityOptions input.scheduleToCloseTimeout input.startToCloseTimeout with
  | .error e => a.log (.threw e)
  | .ok _ =>
    let activityId := input.activityId.getD (toString seq)
    (a.scheduleIn scope .activity .activity seq .program (do
      let arguments ← input.arguments
      return .scheduleActivity seq activityId input.activityType arguments)).log
        (.returned .activity seq)

/-- `scheduleActivity`; `none` stands for `options === undefined`. -/
def scheduleActivity (a : Activator) (scope : ScopeId) : Option ActivityInput → Activator
  | none => a.log (.threw (.typeError "Got empty activity options"))
  | some input =>
    let seq := a.nextSeqs .activity
    (a.bumpSeq .activity).scheduleActivityNextHandler scope seq input

/-- The worker can run local activities of this type. -/
def canRunLocally (a : Activator) (activityType : String) : Bool :=
  a.registeredActivityNames.contains activityType || a.registeredActivityNames.contains "default"

def scheduleLocalActivityNextHandler (a : Activator) (scope : ScopeId) (seq : Seq)
    (input : LocalActivityInput) : Activator :=
  let w := Awaiter.localActivity scope input
  -- The function is `async`: what it throws rejects the promise that the loop awaits.
  if !a.isReplaying && !a.canRunLocally input.activityType then
    a.settle .activity seq w (.rejected (.referenceError
      s!"Local activity of type '{input.activityType}' not registered on worker"))
  else
    match validateActivityOptions input.scheduleToCloseTimeout input.startToCloseTimeout with
    | .error e => a.settle .activity seq w (.rejected e)
    | .ok _ =>
      a.scheduleIn scope .localActivity .activity seq w (do
        let arguments ← input.arguments seq
        return .scheduleLocalActivity seq input.attempt input.originalScheduleTime (toString seq)
          input.activityType arguments)

/-- One turn of the loop of `scheduleLocalActivity`. -/
def localActivityAttempt (a : Activator) (scope : ScopeId) (input : LocalActivityInput) :
    Activator :=
  let seq := a.nextSeqs .activity
  (a.bumpSeq .activity).scheduleLocalActivityNextHandler scope seq input

/-- `scheduleLocalActivity` up to its first `await`; `none` stands for `options === undefined`. -/
def scheduleLocalActivity (a : Activator) (scope : ScopeId) : Option LocalActivityInput → Activator
  | none => a.log (.threw (.typeError "Got empty activity options"))
  | some input =>
    a.localActivityAttempt scope { input with attempt := 1, originalScheduleTime := none }

/-- The `catch` branch of `scheduleLocalActivity` on a `LocalActivityDoBackoff`, up to its
`await sleep`. -/
def localActivityBackoff (a : Activator) (scope : ScopeId) (input : LocalActivityInput)
    (b : Backoff) : Activator :=
  match b.backoffDuration with
  | none =>
    a.log (.threw (.typeError "Expected backoffDuration to be a timestamp, got undefined"))
  | some ms => a.sleep scope (.millis ms) (.ok ()) (.localBackoff scope input b)

/-- The rest of that branch and the next turn of the loop. -/
def localActivityRetry (a : Activator) (scope : ScopeId) (input : LocalActivityInput)
    (b : Backoff) : Activator :=
  match b.attempt with
  | none => a.log (.threw (.typeError "Invalid backoff attempt type"))
  | some attempt =>
    a.localActivityAttempt scope
      { input with attempt := attempt, originalScheduleTime := b.originalScheduleTime }

/-! ## Child workflows -/

def startChildWorkflowExecutionNextHandler (a : Activator) (scope : ScopeId) (seq : Seq)
    (input : ChildWorkflowInput) : Activator :=
  let a := a.scheduleIn scope .childWorkflow .childWorkflowStart seq .childWorkflow (do
    let arguments ← input.arguments
    return .startChildWorkflowExecution seq input.workflowId input.workflowType arguments)
  -- The complete promise is created whatever became of the start promise.
  a.setCompletion .childWorkflowComplete seq .program

def startChild (a : Activator) (scope : ScopeId) (input : ChildWorkflowInput) : Activator :=
  let seq := a.nextSeqs .childWorkflow
  ((a.bumpSeq .childWorkflow).startChildWorkflowExecutionNextHandler scope seq input).log
    (.returned .childWorkflowStart seq)

/-! ## External workflows -/

def signalWorkflowNextHandler (a : Activator) (scope : ScopeId) (seq : Seq) (input : SignalInput) :
    Activator :=
  a.scheduleIn scope .signalWorkflow .signalWorkflow seq .program (do
    let arguments ← input.arguments
    return .signalExternalWorkflowExecution seq input.signalName input.target arguments)

def signalWorkflow (a : Activator) (scope : ScopeId) (input : SignalInput) : Activator :=
  let seq := a.nextSeqs .signalWorkflow
  ((a.bumpSeq .signalWorkflow).signalWorkflowNextHandler scope seq input).log
    (.returned .signalWorkflow seq)

/-- `ExternalWorkflowHandle.cancel`, which follows a different order from the other operations. -/
def cancelExternal (a : Activator) (scope : ScopeId) (input : ExternalCancelInput) : Activator :=
  match a.scopes[scope]? with
  | none => a
  | some s =>
    let a := if s.cancellable then a.catchCancel scope .externalCancelRejected else a
    if s.consideredCancelled && a.externalCancelPatched then
      a
    else
      let seq := a.nextSeqs .cancelWorkflow
      let a := a.bumpSeq .cancelWorkflow
      match input.eventGroups with
      | .error e =>
        (a.settle .cancelWorkflow seq .program (.rejected e)).log (.returned .cancelWorkflow seq)
      | .ok _ =>
        ((a.pushCommand (.requestCancelExternalWorkflowExecution seq input.workflowId
          input.runId)).setCompletion .cancelWorkflow seq .program).log
            (.returned .cancelWorkflow seq)

/-! ## Nexus operations -/

def startNexusOperationNextHandler (a : Activator) (scope : ScopeId) (seq : Seq)
    (input : NexusInput) : Activator :=
  match input.serialized with
  | .error e => a.log (.threw e)
  | .ok payload =>
    (a.scheduleIn scope .nexusOperation .nexusOperationStart seq .program (do
      input.timeouts
      return .scheduleNexusOperation seq input.endpoint input.service input.operation
        payload)).log (.returned .nexusOperationStart seq)

def startNexusOperation (a : Activator) (scope : ScopeId) (input : NexusInput) : Activator :=
  let seq := a.nextSeqs .nexusOperation
  (a.bumpSeq .nexusOperation).startNexusOperationNextHandler scope seq input

/-! ## Resolution jobs -/

/-- The state a job handler leaves behind and what it threw, if anything. -/
abbrev Handled := Activator × Option JsError

def done (a : Activator) : Handled := (a, none)

def throwing (a : Activator) (e : JsError) : Handled := (a, some e)

/-- `getSeq`. -/
def withSeq (a : Activator) (seq : Option Seq) (f : Seq → Handled) : Handled :=
  match seq with
  | none => a.throwing (.typeError "Got activation with no seq attribute")
  | some seq => f seq

/-- `consumeCompletion`. -/
def consumeCompletion (a : Activator) (kind : CompletionKind) (seq : Seq)
    (f : Activator → Awaiter → Handled) : Handled :=
  match a.completions kind seq with
  | none => a.throwing (.illegalState s!"No completion for taskSeq {seq}")
  | some w => f (a.deleteCompletion kind seq) w

/-- `resolve(fromPayload(...))`. -/
def resolveWith (a : Activator) (kind : CompletionKind) (seq : Seq) (w : Awaiter)
    (result : Except JsError Unit) : Handled :=
  match result with
  | .error e => a.throwing e
  | .ok _ => (a.settle kind seq w .resolved).done

/-- `reject(failureToError(...))`. -/
def rejectWith (a : Activator) (kind : CompletionKind) (seq : Seq) (w : Awaiter)
    (failure : Except JsError JsError) : Handled :=
  match failure with
  | .error e => a.throwing e
  | .ok err => (a.settle kind seq w (.rejected err)).done

/-- `rejectWith` on a failure field that has to be set. -/
def rejectWithRequired (a : Activator) (kind : CompletionKind) (seq : Seq) (w : Awaiter)
    (failure : FailureField) (message : String) : Handled :=
  match failure with
  | none => a.throwing (.typeError message)
  | some failure => a.rejectWith kind seq w failure

/-- Timers are the only kind whose completion may be missing without an error. -/
def fireTimer (a : Activator) (seq : Option Seq) : Handled :=
  a.withSeq seq fun seq =>
    match a.completions .timer seq with
    | none => a.done
    | some w => ((a.deleteCompletion .timer seq).settle .timer seq w .resolved).done

def resolveActivity (a : Activator) (seq : Option Seq) (result : Option ActivityResult) : Handled :=
  match result with
  | none => a.throwing (.typeError "Got ResolveActivity activation with no result")
  | some result =>
    a.withSeq seq fun seq =>
      a.consumeCompletion .activity seq fun a w =>
        match result with
        | .completed r => a.resolveWith .activity seq w r
        | .failed f =>
          a.rejectWithRequired .activity seq w f "Got failed result with no failure attribute"
        | .cancelled f =>
          a.rejectWithRequired .activity seq w f
            "Got cancelled result with no failure attribute"
        | .backoff b => (a.settle .activity seq w (.doBackoff b)).done
        | .unset => a.done

def resolveChildWorkflowExecutionStart (a : Activator) (seq : Option Seq)
    (status : ChildStartStatus) : Handled :=
  a.withSeq seq fun seq =>
    a.consumeCompletion .childWorkflowStart seq fun a w =>
      let kind := CompletionKind.childWorkflowStart
      match status with
      | .succeeded runId =>
        if runId = "" then
          a.throwing (.typeError "Got ResolveChildWorkflowExecutionStart with no runId")
        else
          (a.settle kind seq w .resolved).done
      | .failed workflowId workflowType cause =>
        if seq = 0 ∨ workflowId = "" ∨ workflowType = "" then
          a.throwing (.typeError "Missing attributes in activation job")
        else
          let failWith (err : JsError) : Handled :=
            ((a.settle kind seq w (.rejected err)).deleteCompletion
              .childWorkflowComplete seq).done
          match cause with
          | .workflowAlreadyExists =>
            failWith ⟨"WorkflowExecutionAlreadyStartedError",
              "Workflow execution already started"⟩
          | .namespaceNotFound =>
            failWith ⟨"NamespaceNotFoundError", s!"Namespace not found: '{a.namespaceName}'"⟩
          | .invalidVersioningOverride =>
            failWith ⟨"InvalidVersioningOverrideError",
              s!"Invalid versioning override for Child Workflow '{workflowId}' of type '{workflowType}'"⟩
          | .unspecified =>
            a.throwing (.illegalState "Got unknown StartChildWorkflowExecutionFailedCause")
      | .cancelled failure =>
        match failure with
        | none => a.throwing (.typeError "Got no failure in cancelled variant")
        | some (.error e) => a.throwing e
        | some (.ok err) =>
          ((a.settle kind seq w (.rejected err)).deleteCompletion
            .childWorkflowComplete seq).done
      | .unset => a.throwing (.typeError "Got ResolveChildWorkflowExecutionStart with no status")

def resolveChildWorkflowExecution (a : Activator) (seq : Option Seq)
    (result : Option ChildWorkflowResult) : Handled :=
  match result with
  | none => a.throwing (.typeError "Got ResolveChildWorkflowExecution activation with no result")
  | some result =>
    a.withSeq seq fun seq =>
      a.consumeCompletion .childWorkflowComplete seq fun a w =>
        let kind := CompletionKind.childWorkflowComplete
        match result with
        | .completed r => a.resolveWith kind seq w r
        | .failed f =>
          a.rejectWithRequired kind seq w f "Got failed result with no failure attribute"
        | .cancelled f =>
          a.rejectWithRequired kind seq w f "Got cancelled result with no failure attribute"
        | .unset => a.done

def resolveNexusOperationStart (a : Activator) (seq : Option Seq) (failed : FailureField) :
    Handled :=
  a.withSeq seq fun seq =>
    a.consumeCompletion .nexusOperationStart seq fun a w =>
      match failed with
      | none =>
        ((a.setCompletion .nexusOperationComplete seq .program).settle
          .nexusOperationStart seq w .resolved).done
      | some failure => a.rejectWith .nexusOperationStart seq w failure

/-- What `resolveNexusOperation` does with the completion it consumed. -/
def finishNexusOperation (a : Activator) (kind : CompletionKind) (seq : Seq) (w : Awaiter) :
    NexusResult → Handled
  | .completed r => a.resolveWith kind seq w r
  | .failed f => a.rejectWith kind seq w f
  | .cancelled f => a.rejectWith kind seq w f
  | .timedOut f => a.rejectWith kind seq w f
  | .unset => (a.settle kind seq w (.rejected ⟨"undefined", ""⟩)).done

/-- An operation completed synchronously is resolved without a start job. -/
def resolveNexusOperation (a : Activator) (seq : Option Seq) (result : NexusResult) : Handled :=
  a.withSeq seq fun seq =>
    match a.completions .nexusOperationStart seq with
    | some w =>
      (a.deleteCompletion .nexusOperationStart seq).finishNexusOperation .nexusOperationStart seq
        w result
    | none =>
      a.consumeCompletion .nexusOperationComplete seq fun a w =>
        a.finishNexusOperation .nexusOperationComplete seq w result

/-- `resolveSignalExternalWorkflow` and `resolveRequestCancelExternalWorkflow` differ in the table
they consume from only. -/
def resolveExternal (a : Activator) (kind : CompletionKind) (seq : Option Seq)
    (failure : FailureField) : Handled :=
  a.withSeq seq fun seq =>
    a.consumeCompletion kind seq fun a w =>
      match failure with
      | none => (a.settle kind seq w .resolved).done
      | some failure => a.rejectWith kind seq w failure

def resolveSignalExternalWorkflow (a : Activator) (seq : Option Seq) (failure : FailureField) :
    Handled :=
  a.resolveExternal .signalWorkflow seq failure

def resolveRequestCancelExternalWorkflow (a : Activator) (seq : Option Seq)
    (failure : FailureField) : Handled :=
  a.resolveExternal .cancelWorkflow seq failure

def cancelWorkflow (a : Activator) : Handled :=
  ({ a with cancelled := true }.rejectScope 0).done

def handleJob (a : Activator) : Job → Handled
  | .cancelWorkflow => a.cancelWorkflow
  | .fireTimer seq => a.fireTimer seq
  | .resolveActivity seq result => a.resolveActivity seq result
  | .resolveChildWorkflowExecutionStart seq status =>
    a.resolveChildWorkflowExecutionStart seq status
  | .resolveChildWorkflowExecution seq result => a.resolveChildWorkflowExecution seq result
  | .resolveNexusOperationStart seq failed => a.resolveNexusOperationStart seq failed
  | .resolveNexusOperation seq result => a.resolveNexusOperation seq result
  | .resolveSignalExternalWorkflow seq failure => a.resolveSignalExternalWorkflow seq failure
  | .resolveRequestCancelExternalWorkflow seq failure =>
    a.resolveRequestCancelExternalWorkflow seq failure

/-- Process a job and record it; what the handler throws fails the activation. -/
def processJob (a : Activator) (job : Job) : Activator :=
  let r := (a.log (.processed job)).handleJob job
  match r.2 with
  | none => r.1
  | some e => r.1.log (.threw e)

/-! ## Microtasks -/

/-- The cancel listeners of the next handlers.  Each looks at its own table; only the timer's
removes the completion and rejects at once. -/
def runCancelListener (a : Activator) (kind : CancelKind) (seq : Seq) : Activator :=
  match kind with
  | .timer =>
    match a.completions .timer seq with
    | none => a
    | some w =>
      ((a.deleteCompletion .timer seq).pushCommand (.cancelTimer seq)).settle .timer seq w
        (.rejected .cancelled)
  | .activity =>
    if (a.completions .activity seq).isSome then a.pushCommand (.requestCancelActivity seq) else a
  | .localActivity =>
    if (a.completions .activity seq).isSome then a.pushCommand (.requestCancelLocalActivity seq)
    else a
  | .childWorkflow =>
    if (a.completions .childWorkflowComplete seq).isSome then
      a.pushCommand (.cancelChildWorkflowExecution seq)
    else a
  | .signalWorkflow =>
    if (a.completions .signalWorkflow seq).isSome then a.pushCommand (.cancelSignalWorkflow seq)
    else a
  | .nexusOperation =>
    if (a.completions .nexusOperationStart seq).isSome ||
        (a.completions .nexusOperationComplete seq).isSome then
      a.pushCommand (.requestCancelNexusOperation seq)
    else a

def runMicrotask (a : Activator) : Microtask → Activator
  | .propagate child => a.rejectScope child
  | .propagateUnlessShielded child => if a.shielded then a else a.rejectScope child
  | .cancelListener kind seq => a.runCancelListener kind seq
  | .rejectOperation kind seq w => a.settle kind seq w (.rejected .cancelled)
  | .childStartRejected seq e => a.settle .childWorkflowComplete seq .program (.rejected e)
  | .externalCancelRejected =>
    if a.externalCancelPatched then a.log .externalCancelRejected else a
  | .runInContextResumed seq resolved =>
    a.enqueue (if resolved then .timeoutFired seq else .timeoutRejected seq)
  | .timeoutFired seq => a.log (.callback seq)
  | .timeoutRejected _ => a
  | .legacyTimeoutFired seq => a.log (.callback seq)
  | .localActivityBackoff scope input b => a.localActivityBackoff scope input b
  | .localActivityRetry scope input b => a.localActivityRetry scope input b

/-- Run the oldest microtask. -/
def tick (a : Activator) : Activator :=
  match a.microtasks with
  | [] => a
  | m :: rest => { a with microtasks := rest }.runMicrotask m

/-- `concludeActivation`: hand over the commands of the activation. -/
def concludeActivation (a : Activator) : Activator :=
  { a with commands := [] }

end Activator

/-! ## Events -/

inductive Event
  | newScope (parent : ScopeId) (cancellable : Bool)
  | cancelScope (scope : ScopeId)
  | sleep (scope : ScopeId) (ms : Duration) (summary : Except JsError Unit)
  | setTimeout (scope : ScopeId) (ms : Option Int)
  | clearTimeout (handle : Seq) (target : Activator.ClearTarget)
  | scheduleActivity (scope : ScopeId) (input : Option ActivityInput)
  | scheduleLocalActivity (scope : ScopeId) (input : Option LocalActivityInput)
  | startChild (scope : ScopeId) (input : ChildWorkflowInput)
  | signalWorkflow (scope : ScopeId) (input : SignalInput)
  | cancelExternal (scope : ScopeId) (input : ExternalCancelInput)
  | startNexusOperation (scope : ScopeId) (input : NexusInput)
  | job (job : Job)
  | tick
  | concludeActivation
  -- The answers of `hasFlag` and `patched` may change from one activation to the next.
  | setShielded (value : Bool)
  | setExternalCancelPatched (value : Bool)

/-- Calls are made in an existing scope: `CancellationScope.current()` always is one. -/
def Activator.inScope (a : Activator) (scope : ScopeId) (f : Activator → Activator) : Activator :=
  if scope < a.scopes.length then f a else a

def step (a : Activator) : Event → Activator
  | .newScope parent cancellable => a.newScope parent cancellable
  | .cancelScope scope => a.rejectScope scope
  | .sleep scope ms summary => a.inScope scope fun a => a.sleep scope ms summary .program
  | .setTimeout scope ms => a.inScope scope fun a => a.setTimeout scope ms
  | .clearTimeout handle target => a.clearTimeout handle target
  | .scheduleActivity scope input => a.inScope scope fun a => a.scheduleActivity scope input
  | .scheduleLocalActivity scope input =>
    a.inScope scope fun a => a.scheduleLocalActivity scope input
  | .startChild scope input => a.inScope scope fun a => a.startChild scope input
  | .signalWorkflow scope input => a.inScope scope fun a => a.signalWorkflow scope input
  | .cancelExternal scope input => a.inScope scope fun a => a.cancelExternal scope input
  | .startNexusOperation scope input =>
    a.inScope scope fun a => a.startNexusOperation scope input
  | .job job => a.processJob job
  | .tick => a.tick
  | .concludeActivation => a.concludeActivation
  | .setShielded value => { a with shielded := value }
  | .setExternalCancelPatched value => { a with externalCancelPatched := value }

end TemporalSdk.Workflow
