import TemporalSdk.Machine.Results
import TemporalSdk.Machine.Run
import TemporalSdk.Failures.Messages

/-!
# Update-With-Start — the handle promise of the operation

`_startUpdateWithStart` and `_updateWithStartHandler` of `packages/client/src/workflow-client.ts`.  A call checks
its options outside the handler, composes the interceptors around the handler, and settles the promise of its
`WithStartWorkflowOperation` from inside the handler.  Interceptors are free to call `next` at any time and any
number of times, without waiting for it, and to return or throw at any time.  `T` is a TypeInfo.
-/

namespace TemporalSdk.Client
namespace UpdateWithStart

open Machine Failures

variable {T : Type}

/-! ## Errors -/

inductive Thrown where
  | typeError (message : String)
  | valueError (message : String)
  | error (message : String)
  -- A `GrpcServiceError`.
  | grpc (code : Nat) (details : String)
  | workflowExecutionAlreadyStarted (workflowId workflowType : String)
  | updateRpcTimeoutOrCancelled (details : String)
  | workflowNotFound (details workflowId : String)
  | serviceError (message : String)
  -- Whatever a codec, a storage driver or an interceptor throws.
  | other (name : String)
  deriving DecidableEq

namespace GrpcStatus

def CANCELLED : Nat := 1
def DEADLINE_EXCEEDED : Nat := 4
def NOT_FOUND : Nat := 5
def ALREADY_EXISTS : Nat := 6

end GrpcStatus

/-- `rethrowUpdateGrpcError` of an error that is a `GrpcServiceError`; the handler throws any other one as it is. -/
def rethrowUpdateGrpcError (err : Thrown) (fallbackMessage workflowId : String) : Thrown :=
  match err with
  | .grpc code details =>
    if code = GrpcStatus.DEADLINE_EXCEEDED ∨ code = GrpcStatus.CANCELLED then .updateRpcTimeoutOrCancelled details
    else if code = GrpcStatus.NOT_FOUND then .workflowNotFound details workflowId
    else .serviceError fallbackMessage
  | err => err

/-! ## The operation -/

/-- The fields of a `WorkflowHandle` that `onStart` sets. -/
structure WorkflowHandle (T : Type) where
  workflowId : String
  firstExecutionRunId : Option String
  followRuns : Bool
  typeInfo : Option T
  deriving DecidableEq

inductive HandlePromise (T : Type) where
  | pending
  | resolved (handle : WorkflowHandle T)
  | rejected (error : Thrown)
  deriving DecidableEq

namespace HandlePromise

/-- A promise takes the first of the values that it is settled with. -/
def settle (promise value : HandlePromise T) : HandlePromise T :=
  match promise with
  | .pending => value
  | settled => settled

def isSettled : HandlePromise T → Bool
  | .pending => false
  | _ => true

def isResolved : HandlePromise T → Bool
  | .resolved _ => true
  | _ => false

theorem settle_of_settled {promise : HandlePromise T} (h : promise.isSettled = true) (value : HandlePromise T) :
    promise.settle value = promise := by
  cases promise with
  | pending => cases h
  | resolved handle => rfl
  | rejected error => rfl

theorem isSettled_settle (promise : HandlePromise T) {value : HandlePromise T} (h : value.isSettled = true) :
    (promise.settle value).isSettled = true := by
  cases promise with
  | pending => exact h
  | resolved handle => rfl
  | rejected error => rfl

end HandlePromise

/-- `typeof` of the workflow type, and what is read off it. -/
inductive WorkflowType (T : Type) where
  | string (name : String)
  | function (name : String) (staticTypeInfo : Option T)
  | other (typeof : String)
  deriving DecidableEq

/-- The numbers that `msNumberToTs` does not take. -/
inductive NotFinite where
  | nan
  | infinity (negative : Bool)
  deriving DecidableEq

def NotFinite.print : NotFinite → String
  | .nan => "NaN"
  | .infinity negative => if negative then "-Infinity" else "Infinity"

/-- A `Duration` of the options. -/
inductive OptionDuration where
  | duration (value : Duration)
  | notFinite (millis : NotFinite)
  deriving DecidableEq

structure WorkflowStartOptions (T : Type) where
  workflowId : Option String
  taskQueue : Option String
  workflowExecutionTimeout : Option OptionDuration
  workflowRunTimeout : Option OptionDuration
  workflowTaskTimeout : Option OptionDuration
  startDelay : Option OptionDuration
  followRuns : Option Bool
  typeInfo : Option T
  deriving DecidableEq

/-- `WithStartWorkflowOperation` -/
structure Operation (T : Type) where
  workflowTypeOrFunc : WorkflowType T
  options : WorkflowStartOptions T
  used : Bool
  workflowHandlePromise : HandlePromise T
  deriving DecidableEq

def Operation.new (workflowTypeOrFunc : WorkflowType T) (options : WorkflowStartOptions T) : Operation T :=
  ⟨workflowTypeOrFunc, options, false, .pending⟩

def Operation.settle (op : Operation T) (value : HandlePromise T) : Operation T :=
  { op with workflowHandlePromise := op.workflowHandlePromise.settle value }

/-! ## Before the interceptors -/

inductive UpdateDefinition (T : Type) where
  | string (name : String)
  | definition (name : String) (typeInfo : Option T)
  deriving DecidableEq

/-- The arguments of `startUpdateWithStart` and `executeUpdateWithStart` that are checked. -/
structure Call (T : Type) where
  updateDef : UpdateDefinition T
  typeInfo : Option T
  deriving DecidableEq

/-- What the client brings along: `getOrMakeInterceptors` runs the interceptor factories of the application, and
`ms` is the package of that name. -/
structure WorkflowClient where
  getOrMakeInterceptors : String → Except Thrown Unit
  ms : String → Option Int
  externalStorage : Bool

def updateName (call : Call T) : Except Thrown String :=
  match call.updateDef with
  | .string name => .ok name
  | .definition name _ =>
    if call.typeInfo.isSome then
      .error (.typeError ("Cannot provide call-site Update TypeInfo with an Update definition. " ++
        "Define TypeInfo when creating the Update definition instead."))
    else .ok name

def extractWorkflowTypeAndConfig (workflowTypeOrFunc : WorkflowType T) (callSiteTypeInfo : Option T) :
    Except Thrown (String × Option T) :=
  match workflowTypeOrFunc with
  | .string name => .ok (name, callSiteTypeInfo)
  | .function name staticTypeInfo =>
    if name = "" then .error (.typeError "Invalid workflow type: the workflow function is anonymous")
    else if callSiteTypeInfo.isSome then
      .error (.typeError ("Workflow type information cannot be supplied at the call site when using a workflow " ++
        "function. Use defineWorkflowOptions(..., \x7b staticOptions: \x7b typeInfo \x7d \x7d) on the workflow " ++
        "function instead, or pass the workflow type as a string."))
    else .ok (name, staticTypeInfo)
  | .other typeof =>
    .error (.typeError ("Invalid workflow type: expected either a string or a function, got '" ++ typeof ++ "'"))

/-- The task queue and the workflow id. -/
def assertRequiredWorkflowOptions (opts : WorkflowStartOptions T) : Except Thrown (String × String) :=
  if opts.taskQueue.getD "" = "" then .error (.typeError "Missing WorkflowOptions.taskQueue")
  else if opts.workflowId.getD "" = "" then .error (.typeError "Missing WorkflowOptions.workflowId")
  else .ok (opts.taskQueue.getD "", opts.workflowId.getD "")

def msOptionalToTs (client : WorkflowClient) : Option OptionDuration → Except Thrown (Option Timestamp)
  | none => .ok none
  | some (.duration duration) => Failures.msOptionalToTs client.ms .typeError (some duration)
  -- The remainder of an infinite number is `NaN`.
  | some (.notFinite millis) => .error (.valueError ("Invalid millis " ++ millis.print))

/-- The options of `compileWorkflowOptions` that are converted. -/
structure CompiledWorkflowOptions where
  workflowExecutionTimeout : Option Timestamp
  workflowRunTimeout : Option Timestamp
  workflowTaskTimeout : Option Timestamp
  startDelay : Option Timestamp
  deriving DecidableEq

def compileWorkflowOptions (client : WorkflowClient) (options : WorkflowStartOptions T) :
    Except Thrown CompiledWorkflowOptions := do
  let workflowExecutionTimeout ← msOptionalToTs client options.workflowExecutionTimeout
  let workflowRunTimeout ← msOptionalToTs client options.workflowRunTimeout
  let workflowTaskTimeout ← msOptionalToTs client options.workflowTaskTimeout
  let startDelay ← msOptionalToTs client options.startDelay
  return ⟨workflowExecutionTimeout, workflowRunTimeout, workflowTaskTimeout, startDelay⟩

/-- `WorkflowStartUpdateWithStartInput`, which interceptors may replace. -/
structure Input where
  workflowType : String
  workflowId : String
  taskQueue : String
  workflowStartOptions : CompiledWorkflowOptions
  updateName : String
  deriving DecidableEq

/-- What `onStart` closes over. -/
structure Prepared (T : Type) where
  input : Input
  typeInfo : Option T
  deriving DecidableEq

/-- What `_startUpdateWithStart` does from the mark on the operation to the call of the first interceptor. -/
def prepare (client : WorkflowClient) (op : Operation T) (updateName : String) : Except Thrown (Prepared T) := do
  let (workflowType, typeInfo) ← extractWorkflowTypeAndConfig op.workflowTypeOrFunc op.options.typeInfo
  let (taskQueue, workflowId) ← assertRequiredWorkflowOptions op.options
  let workflowStartOptions ← compileWorkflowOptions client op.options
  client.getOrMakeInterceptors workflowId
  return ⟨⟨workflowType, workflowId, taskQueue, workflowStartOptions, updateName⟩, typeInfo⟩

def start (client : WorkflowClient) (op : Operation T) (call : Call T) : Operation T × Except Thrown (Prepared T) :=
  match updateName call with
  | .error error => (op, .error error)
  | .ok name =>
    if op.used then
      (op, .error (.error "This WithStartWorkflowOperation instance has already been executed."))
    else ({ op with used := true }, prepare client op name)

/-! ## The handler -/

structure StartResponse where
  runId : Option String
  deriving DecidableEq

/-- `stage` is the number of an `UpdateWorkflowExecutionLifecycleStage`. -/
structure UpdateResponse where
  stage : Option Nat
  workflowExecution : Option (String × String)
  deriving DecidableEq

structure MultiOperationResponse where
  startWorkflow : Option StartResponse
  updateWorkflow : Option UpdateResponse
  deriving DecidableEq

def STAGE_ACCEPTED : Nat := 2

/-- The workflow id and the run id of the output. -/
abbrev Output := String × String

/-- What a call of the handler waits for. -/
inductive Phase where
  | startRequest
  | updateRequest
  | store
  | send
  | retrieve (response : MultiOperationResponse)
  | done (result : Except Thrown Output)

structure HandlerRun where
  input : Input
  seenStart : Bool
  phase : Phase

def HandlerRun.begin (input : Input) : HandlerRun := ⟨input, false, .startRequest⟩

/-- How what a handler waits for ends: `succeeded` is for all but the RPC. -/
inductive Answer where
  | succeeded
  | response (response : MultiOperationResponse)
  | failed (error : Thrown)
  deriving DecidableEq

namespace HandlerRun

/-- The error that `onStartError` gets. -/
def startError (run : HandlerRun) (thrownError : Thrown) : Thrown :=
  match thrownError with
  | .grpc code details =>
    if code = GrpcStatus.ALREADY_EXISTS then
      .workflowExecutionAlreadyStarted run.input.workflowId run.input.workflowType
    else .grpc code details
  | error => error

/-- The `catch` of the handler. -/
def fail (run : HandlerRun) (op : Operation T) (thrownError : Thrown) : HandlerRun × Operation T :=
  let error := run.startError thrownError
  ({ run with phase := .done (.error (rethrowUpdateGrpcError error "Update-With-Start failed" run.input.workflowId)) },
    if run.seenStart then op else op.settle (.rejected error))

def onStart (prepared : Prepared T) (op : Operation T) (response : StartResponse) : Operation T :=
  op.settle (.resolved ⟨prepared.input.workflowId, response.runId, op.options.followRuns.getD true, prepared.typeInfo⟩)

/-- The rest of a turn of the loop, once the start response has been handed on. -/
def update (run : HandlerRun) (op : Operation T) (updateWorkflow : Option UpdateResponse) :
    HandlerRun × Operation T :=
  match updateWorkflow with
  | none => run.fail op (.typeError "Cannot read properties of undefined (reading 'stage')")
  | some response =>
    if response.stage.getD 0 < STAGE_ACCEPTED then ({ run with phase := .send }, op)
    else
      match response.workflowExecution with
      | none => run.fail op (.typeError "Cannot read properties of undefined (reading 'workflowExecution')")
      | some execution => ({ run with phase := .done (.ok execution) }, op)

/-- A turn of the loop, once the payloads of the response have been retrieved. -/
def turn (prepared : Prepared T) (run : HandlerRun) (op : Operation T) (response : MultiOperationResponse) :
    HandlerRun × Operation T :=
  if run.seenStart then run.update op response.updateWorkflow
  else
    match response.startWorkflow with
    | none => run.fail op (.typeError "Cannot read properties of undefined (reading 'runId')")
    | some start => { run with seenStart := true }.update (onStart prepared op start) response.updateWorkflow

def advance (client : WorkflowClient) (prepared : Prepared T) (run : HandlerRun) (op : Operation T) :
    Answer → HandlerRun × Operation T
  | .failed error =>
    match run.phase with
    | .done _ => (run, op)
    | _ => run.fail op error
  | .succeeded =>
    match run.phase with
    | .startRequest => ({ run with phase := .updateRequest }, op)
    | .updateRequest => ({ run with phase := if client.externalStorage then .store else .send }, op)
    | .store => ({ run with phase := .send }, op)
    | .retrieve response => turn prepared run op response
    | _ => (run, op)
  | .response response =>
    match run.phase with
    | .send => ({ run with phase := .retrieve response }, op)
    | _ => (run, op)

end HandlerRun

/-! ## The whole of it -/

/-- How a call on the operation has ended: `again` if another one had used the operation before it, `first` with
the promise at that time and whether a start response had been received. -/
inductive Ended (T : Type) where
  | again (before after : Operation T) (threw : Bool)
  | first (promise : HandlePromise T) (received : Bool)
  deriving DecidableEq

/-- `prepared` is of the call that uses the operation, which is `inFlight` until it ends; `received` is whether the
server has sent it a start response. -/
structure System (T : Type) where
  op : Operation T
  prepared : Option (Prepared T)
  inFlight : Bool
  runs : List HandlerRun
  received : Bool
  ended : List (Ended T)

inductive Event (T : Type) where
  | use (call : Call T)
  -- The interceptors call the handler.
  | next (input : Input)
  | advance (index : Nat) (answer : Answer)
  -- The interceptors are done, and the call has returned or thrown.
  | finish

namespace HandlerRun

/-- Its start response has been handed on, or it has returned or thrown. -/
def settled (run : HandlerRun) : Bool :=
  run.seenStart || match run.phase with
    | .done _ => true
    | _ => false

/-- The server answers with a start response. -/
def receives (run : HandlerRun) : Answer → Bool
  | .response response =>
    match run.phase with
    | .send => response.startWorkflow.isSome
    | _ => false
  | _ => false

/-- The handler throws before it has handed on a start response. -/
def fails (run : HandlerRun) : Answer → Bool
  | .failed _ => !run.settled
  | .succeeded =>
    match run.phase with
    | .retrieve response => !run.seenStart && response.startWorkflow.isNone
    | _ => false
  | .response _ => false

end HandlerRun

def isError {α : Type} : Except Thrown α → Bool
  | .error _ => true
  | .ok _ => false

namespace System

def init (workflowTypeOrFunc : WorkflowType T) (options : WorkflowStartOptions T) : System T :=
  ⟨.new workflowTypeOrFunc options, none, false, [], false, []⟩

def use (client : WorkflowClient) (s : System T) (call : Call T) : System T :=
  let (op, result) := start client s.op call
  if s.op.used then { s with op := op, ended := s.ended ++ [.again s.op op (isError result)] }
  else
    match result with
    | .error _ => { s with op := op, ended := s.ended ++ [.first op.workflowHandlePromise s.received] }
    | .ok prepared => { s with op := op, prepared := some prepared, inFlight := true }

def next (s : System T) (input : Input) : System T :=
  match s.prepared with
  | none => s
  | some _ => { s with runs := s.runs ++ [.begin input] }

def advance (client : WorkflowClient) (s : System T) (index : Nat) (answer : Answer) : System T :=
  match s.prepared, s.runs[index]? with
  | some prepared, some run =>
    let (run', op) := run.advance client prepared s.op answer
    { s with op := op, runs := s.runs.set index run', received := s.received || run.receives answer }
  | _, _ => s

def finish (s : System T) : System T :=
  if s.inFlight then
    { s with inFlight := false, ended := s.ended ++ [.first s.op.workflowHandlePromise s.received] }
  else s

def step (client : WorkflowClient) (s : System T) : Event T → System T
  | .use call => s.use client call
  | .next input => s.next input
  | .advance index answer => s.advance client index answer
  | .finish => s.finish

end System

/-! ## What a call owes, and when it keeps it -/

/-- A call that uses the operation leaves its promise settled, and resolved if and only if a start response was
received; any other one throws and leaves the operation as it was. -/
def Ended.Correct : Ended T → Prop
  | .again before after threw => after = before ∧ threw = true
  | .first promise received => promise.isSettled = true ∧ promise.isResolved = received

/-- In flight, no start response has been received that can no longer be handed on. -/
structure System.Settles (s : System T) : Prop where
  ended : ∀ call ∈ s.ended, call.Correct
  inFlight : s.inFlight = true → ∀ error, s.op.workflowHandlePromise = .rejected error → s.received = false

def WorkflowType.Valid (typeInfo : Option T) : WorkflowType T → Prop
  | .string _ => True
  | .function name _ => name ≠ "" ∧ typeInfo = none
  | .other _ => False

def ValidDuration (client : WorkflowClient) : Option OptionDuration → Prop
  | some (.duration (.text s)) => client.ms s ≠ none
  | some (.notFinite _) => False
  | _ => True

/-- None of the checks before the interceptors throws. -/
structure Accepted (client : WorkflowClient) (op : Operation T) (call : Call T) : Prop where
  updateDef : ∀ name typeInfo, call.updateDef = .definition name typeInfo → call.typeInfo = none
  workflowType : op.workflowTypeOrFunc.Valid op.options.typeInfo
  taskQueue : op.options.taskQueue.getD "" ≠ ""
  workflowId : op.options.workflowId.getD "" ≠ ""
  workflowExecutionTimeout : ValidDuration client op.options.workflowExecutionTimeout
  workflowRunTimeout : ValidDuration client op.options.workflowRunTimeout
  workflowTaskTimeout : ValidDuration client op.options.workflowTaskTimeout
  startDelay : ValidDuration client op.options.startDelay
  interceptors : client.getOrMakeInterceptors (op.options.workflowId.getD "") = .ok ()

/-- The checks of the call that uses the operation pass.  Until it ends, as long as no start response has been
handed on, `next` fails only while none has been received, and none is received after `next` has failed.  It ends
when some call of `next` has handed on its start response, or has returned or thrown. -/
def System.Proper (client : WorkflowClient) (s : System T) : Event T → Prop
  | .use call => s.op.used = false → Accepted client s.op call
  | .next _ => True
  | .advance index answer =>
    s.inFlight = true → (∀ run ∈ s.runs, run.seenStart = false) → ∀ run, s.runs[index]? = some run →
      (run.fails answer = true → s.received = false) ∧
        (run.receives answer = true → ∀ other ∈ s.runs, other.settled = false)
  | .finish => s.inFlight = true → ∃ run ∈ s.runs, run.settled = true

/-! ## The checks -/

theorem updateName_ok_iff (call : Call T) :
    (∃ name, updateName call = .ok name) ↔
      ∀ name typeInfo, call.updateDef = .definition name typeInfo → call.typeInfo = none := by
  unfold updateName
  cases hdef : call.updateDef with
  | string name => simp
  | definition name typeInfo => cases htype : call.typeInfo <;> simp

variable (workflowType : WorkflowType T)

theorem extractWorkflowTypeAndConfig_ok_iff (typeInfo : Option T) :
    (∃ config, extractWorkflowTypeAndConfig workflowType typeInfo = .ok config) ↔ workflowType.Valid typeInfo := by
  cases workflowType with
  | string | other => simp [extractWorkflowTypeAndConfig, WorkflowType.Valid]
  | function name staticTypeInfo =>
    by_cases hname : name = ""
    · simp [extractWorkflowTypeAndConfig, WorkflowType.Valid, hname]
    · cases typeInfo <;> simp [extractWorkflowTypeAndConfig, WorkflowType.Valid, hname]

theorem assertRequiredWorkflowOptions_ok_iff (opts : WorkflowStartOptions T) (required : String × String) :
    assertRequiredWorkflowOptions opts = .ok required ↔
      opts.taskQueue.getD "" ≠ "" ∧ opts.workflowId.getD "" ≠ "" ∧
        required = (opts.taskQueue.getD "", opts.workflowId.getD "") := by
  unfold assertRequiredWorkflowOptions
  by_cases htask : opts.taskQueue.getD "" = ""
  · simp [htask]
  · by_cases hid : opts.workflowId.getD "" = ""
    · simp [htask, hid]
    · simp [htask, hid, eq_comm]

theorem msOptionalToTs_ok_iff (client : WorkflowClient) (duration : Option OptionDuration) :
    (∃ ts, msOptionalToTs client duration = .ok ts) ↔ ValidDuration client duration := by
  match duration with
  | none | some (.notFinite _) => simp [msOptionalToTs, ValidDuration]
  | some (.duration (.millis _)) => simp [msOptionalToTs, Failures.msOptionalToTs, Failures.msToNumber, ValidDuration]
  | some (.duration (.text s)) =>
    cases hms : client.ms s <;>
      simp [msOptionalToTs, Failures.msOptionalToTs, Failures.msToNumber, ValidDuration, hms]

theorem compileWorkflowOptions_ok_iff (client : WorkflowClient) (options : WorkflowStartOptions T) :
    (∃ compiled, compileWorkflowOptions client options = .ok compiled) ↔
      ValidDuration client options.workflowExecutionTimeout ∧ ValidDuration client options.workflowRunTimeout ∧
        ValidDuration client options.workflowTaskTimeout ∧ ValidDuration client options.startDelay := by
  simp only [← msOptionalToTs_ok_iff, compileWorkflowOptions, bind_ok_iff]
  constructor
  · rintro ⟨_, execution, hexecution, run, hrun, task, htask, delay, hdelay, _⟩
    exact ⟨⟨execution, hexecution⟩, ⟨run, hrun⟩, ⟨task, htask⟩, ⟨delay, hdelay⟩⟩
  · rintro ⟨⟨execution, hexecution⟩, ⟨run, hrun⟩, ⟨task, htask⟩, ⟨delay, hdelay⟩⟩
    exact ⟨_, execution, hexecution, run, hrun, task, htask, delay, hdelay, rfl⟩

variable {op : Operation T}

theorem start_of_used (client : WorkflowClient) (h : op.used = true) (call : Call T) :
    (start client op call).1 = op ∧ isError (start client op call).2 = true := by
  unfold start
  cases updateName call with
  | error error => exact ⟨rfl, rfl⟩
  | ok name => simp [h, isError]

theorem prepare_ok_iff (client : WorkflowClient) (op : Operation T) (name : String) :
    (∃ prepared, prepare client op name = .ok prepared) ↔
      op.workflowTypeOrFunc.Valid op.options.typeInfo ∧ op.options.taskQueue.getD "" ≠ "" ∧
        op.options.workflowId.getD "" ≠ "" ∧ (∃ compiled, compileWorkflowOptions client op.options = .ok compiled) ∧
        client.getOrMakeInterceptors (op.options.workflowId.getD "") = .ok () := by
  simp only [← extractWorkflowTypeAndConfig_ok_iff, prepare, bind_ok_iff]
  constructor
  · rintro ⟨_, config, hconfig, ⟨taskQueue, workflowId⟩, hrequired, compiled, hcompiled, _, hfactories, _⟩
    rcases (assertRequiredWorkflowOptions_ok_iff _ _).mp hrequired with ⟨htask, hid, heq⟩
    cases heq
    exact ⟨⟨config, hconfig⟩, htask, hid, ⟨compiled, hcompiled⟩, hfactories⟩
  · rintro ⟨⟨config, hconfig⟩, htask, hid, ⟨compiled, hcompiled⟩, hfactories⟩
    have hrequired := (assertRequiredWorkflowOptions_ok_iff op.options _).mpr ⟨htask, hid, rfl⟩
    exact ⟨_, config, hconfig, _, hrequired, compiled, hcompiled, (), hfactories, rfl⟩

theorem start_accepted {client : WorkflowClient} {call : Call T} (hused : op.used = false)
    (h : Accepted client op call) : ∃ prepared, start client op call = ({ op with used := true }, .ok prepared) := by
  rcases (updateName_ok_iff call).mpr h.updateDef with ⟨name, hname⟩
  have hcompiled := (compileWorkflowOptions_ok_iff client op.options).mpr
    ⟨h.workflowExecutionTimeout, h.workflowRunTimeout, h.workflowTaskTimeout, h.startDelay⟩
  rcases (prepare_ok_iff client op name).mpr ⟨h.workflowType, h.taskQueue, h.workflowId, hcompiled, h.interceptors⟩
    with ⟨prepared, hprepared⟩
  exact ⟨prepared, by simp [start, hname, hused, hprepared]⟩

theorem start_rejected {client : WorkflowClient} {call : Call T} (hused : op.used = false)
    (h : ¬ Accepted client op call) : ∃ error, (start client op call).2 = .error error := by
  cases hname : updateName call with
  | error error => exact ⟨error, by simp [start, hname]⟩
  | ok name =>
    cases hprepare : prepare client op name with
    | error error => exact ⟨error, by simp [start, hname, hused, hprepare]⟩
    | ok prepared =>
      rcases (prepare_ok_iff client op name).mp ⟨prepared, hprepare⟩ with ⟨htype, htask, hid, hcompiled, hfactories⟩
      rcases (compileWorkflowOptions_ok_iff client op.options).mp hcompiled with
        ⟨hexecution, hrun, htimeout, hdelay⟩
      exact absurd ⟨(updateName_ok_iff call).mp ⟨name, hname⟩, htype, htask, hid, hexecution, hrun, htimeout,
        hdelay, hfactories⟩ h

theorem start_promise (client : WorkflowClient) (op : Operation T) (call : Call T) :
    (start client op call).1.workflowHandlePromise = op.workflowHandlePromise := by
  unfold start
  cases updateName call with
  | error error => rfl
  | ok name => cases op.used <;> rfl

/-! ## One step of a handler -/

namespace HandlerRun

/-- No start response is on its way through the retrieval of payloads. -/
def NotRetrieving (run : HandlerRun) : Prop :=
  ∀ response, run.phase = .retrieve response → response.startWorkflow = none

/-- What one step of a handler does: it goes on waiting or ends without touching the promise, or it fails before
its start response, or it hands on the start response. -/
inductive Effect (run : HandlerRun) (op : Operation T) (answer : Answer) (run' : HandlerRun) :
    Operation T → Prop where
  | waits (hfails : run.fails answer = false) (hseen : run'.seenStart = run.seenStart)
      (hsettled : run'.settled = run.settled)
      (hretrieving : run'.NotRetrieving ∨ run.receives answer = true ∨ run' = run) :
      Effect run op answer run' op
  | fails (error : Thrown) (hfails : run.fails answer = true) (hunseen : run.seenStart = false)
      (hseen : run'.seenStart = false) (hsettled : run'.settled = true) (hretrieving : run'.NotRetrieving) :
      Effect run op answer run' (op.settle (.rejected error))
  | starts (handle : WorkflowHandle T) (hfails : run.fails answer = false)
      (hresponse : ¬ run.NotRetrieving) (hseen : run'.seenStart = true) (hretrieving : run'.NotRetrieving) :
      Effect run op answer run' (op.settle (.resolved handle))

variable {run : HandlerRun}

theorem settled_of_seenStart (h : run.seenStart = true) : run.settled = true := by
  simp [settled, h]

theorem update_seen (hseen : run.seenStart = true) (op : Operation T)
    (response : Option UpdateResponse) :
    (run.update op response).1.seenStart = true ∧ (run.update op response).1.NotRetrieving ∧
      (run.update op response).2 = op := by
  unfold update
  cases response with
  | none => exact ⟨hseen, (nofun), by simp [fail, hseen]⟩
  | some response =>
    by_cases hstage : response.stage.getD 0 < STAGE_ACCEPTED
    · simp only [hstage, if_true]
      exact ⟨hseen, (nofun), trivial⟩
    · simp only [hstage, if_false]
      cases response.workflowExecution with
      | none => exact ⟨hseen, (nofun), by simp [fail, hseen]⟩
      | some execution => exact ⟨hseen, (nofun), rfl⟩

theorem fail_effect (op : Operation T) {answer : Answer} (error : Thrown)
    (hfails : run.seenStart = false → run.fails answer = true) (hseen : run.seenStart = true → run.fails answer = false) :
    Effect run op answer (run.fail op error).1 (run.fail op error).2 := by
  cases hstart : run.seenStart with
  | true =>
    simp only [fail, hstart, if_true]
    exact .waits (hseen hstart) hstart.symm (by simp [settled, hstart]) (Or.inl nofun)
  | false =>
    simp only [fail, hstart]
    exact .fails _ (hfails hstart) hstart rfl (by simp [settled]) nofun

theorem turn_effect (prepared : Prepared T) (op : Operation T) {response : MultiOperationResponse}
    (hphase : run.phase = .retrieve response) :
    Effect run op .succeeded (turn prepared run op response).1 (turn prepared run op response).2 := by
  cases hseen : run.seenStart with
  | true =>
    simp only [turn, hseen, if_true]
    rcases update_seen hseen op response.updateWorkflow with ⟨hseen', hretrieving, hop⟩
    rw [hop]
    refine .waits (by simp [HandlerRun.fails, hphase, hseen]) (hseen'.trans hseen.symm) ?_ (Or.inl hretrieving)
    rw [settled_of_seenStart hseen', settled_of_seenStart hseen]
  | false =>
    cases hstart : response.startWorkflow with
    | none =>
      simp only [turn, hseen, hstart]
      exact fail_effect op _ (fun _ => by simp [HandlerRun.fails, hphase, hseen, hstart]) fun h => by
        rw [hseen] at h
        cases h
    | some start =>
      simp only [turn, hseen, hstart]
      have hseen'' : { run with seenStart := true }.seenStart = true := rfl
      rcases update_seen hseen'' (onStart prepared op start) response.updateWorkflow with
        ⟨hseen', hretrieving, hop⟩
      rw [if_neg nofun, hop]
      refine .starts _ (by simp [HandlerRun.fails, hphase, hseen, hstart]) ?_ hseen' hretrieving
      intro h
      rw [h response hphase] at hstart
      cases hstart

theorem advance_effect (client : WorkflowClient) (prepared : Prepared T) (run : HandlerRun) (op : Operation T)
    (answer : Answer) :
    Effect run op answer (run.advance client prepared op answer).1 (run.advance client prepared op answer).2 := by
  have hsame : run.fails answer = false → Effect run op answer run op := fun h =>
    .waits h rfl rfl (Or.inr (Or.inr rfl))
  cases answer with
  | failed error =>
    cases hphase : run.phase with
    | done result =>
      simp only [advance, hphase]
      exact hsame (by simp [HandlerRun.fails, settled, hphase])
    | _ =>
      simp only [advance, hphase]
      exact fail_effect op error (fun h => by simp [HandlerRun.fails, settled, hphase, h]) fun h => by
        simp [HandlerRun.fails, settled, h]
  | succeeded =>
    cases hphase : run.phase with
    | retrieve response =>
      simp only [advance, hphase]
      exact turn_effect prepared op hphase
    | updateRequest =>
      simp only [advance, hphase]
      refine .waits (by simp [HandlerRun.fails, hphase]) rfl ?_ (Or.inl ?_)
      · cases client.externalStorage <;> simp [settled, hphase]
      · intro response hresponse
        cases hstorage : client.externalStorage <;> simp [hstorage] at hresponse
    | send | done =>
      simp only [advance, hphase]
      exact hsame (by simp [HandlerRun.fails, hphase])
    | _ =>
      simp only [advance, hphase]
      exact .waits (by simp [HandlerRun.fails, hphase]) rfl (by simp [settled, hphase]) (Or.inl nofun)
  | response response =>
    cases hphase : run.phase with
    | send =>
      simp only [advance, hphase]
      refine .waits rfl rfl (by simp [settled, hphase]) ?_
      cases hstart : response.startWorkflow with
      | none =>
        refine Or.inl fun other hother => ?_
        cases hother
        exact hstart
      | some start => exact Or.inr (Or.inl (by simp [receives, hphase, hstart]))
    | _ =>
      simp only [advance, hphase]
      exact hsame rfl

end HandlerRun

/-! ## What every run keeps -/

theorem exists_set_of_imp {α : Type} {p : α → Prop} {l : List α} {i : Nat} {a a' : α} (hget : l[i]? = some a)
    (himp : p a → p a') (h : ∃ x ∈ l, p x) : ∃ x ∈ l.set i a', p x := by
  rcases h with ⟨x, hmem, hx⟩
  rcases List.mem_iff_getElem?.mp hmem with ⟨j, hj⟩
  by_cases hij : i = j
  · subst hij
    cases hget.symm.trans hj
    have hlt := (List.getElem?_eq_some_iff.mp hget).1
    exact ⟨a', List.mem_set hlt a', himp hx⟩
  · exact ⟨x, List.mem_iff_getElem?.mpr ⟨j, by rw [List.getElem?_set_ne hij, hj]⟩, hx⟩

namespace System

variable {client : WorkflowClient}

structure Kept (s : System T) : Prop where
  unused : s.op.used = false → s.prepared = none
  idle : s.prepared = none →
    s.runs = [] ∧ s.received = false ∧ s.inFlight = false ∧ s.op.workflowHandlePromise = .pending
  settled : s.op.workflowHandlePromise.isSettled = true ↔ ∃ run ∈ s.runs, run.settled = true
  resolved : s.op.workflowHandlePromise.isResolved = true → ∃ run ∈ s.runs, run.seenStart = true
  seen : ∀ run ∈ s.runs, run.seenStart = true → s.received = true
  retrieving : ∀ run ∈ s.runs, ¬ run.NotRetrieving → s.received = true

theorem kept_init (options : WorkflowStartOptions T) :
    (init workflowType options).Kept := by
  refine ⟨fun _ => rfl, fun _ => ⟨rfl, rfl, rfl, rfl⟩, ?_, ?_, ?_, ?_⟩
  · simp [init, Operation.new, HandlePromise.isSettled]
  · simp [init, Operation.new, HandlePromise.isResolved]
  · simp [init]
  · simp [init]

theorem advance_cases (client : WorkflowClient) (s : System T) (index : Nat) (answer : Answer) :
    ((s.prepared = none ∨ s.runs[index]? = none) ∧ s.advance client index answer = s) ∨
      ∃ prepared run run' op, s.prepared = some prepared ∧ s.runs[index]? = some run ∧
        run.Effect s.op answer run' op ∧
        s.advance client index answer =
          { s with op := op, runs := s.runs.set index run', received := s.received || run.receives answer } := by
  unfold advance
  cases hprepared : s.prepared with
  | none => exact Or.inl ⟨Or.inl rfl, rfl⟩
  | some prepared =>
    cases hrun : s.runs[index]? with
    | none => exact Or.inl ⟨Or.inr rfl, rfl⟩
    | some run =>
      refine Or.inr ⟨prepared, run, (run.advance client prepared s.op answer).1,
        (run.advance client prepared s.op answer).2, rfl, rfl, run.advance_effect client prepared s.op answer, ?_⟩
      rfl

variable {s : System T}

theorem Kept.use_cases (h : s.Kept) (call : Call T) :
    (s.op.used = true ∧ s.use client call = { s with ended := s.ended ++ [.again s.op s.op true] }) ∨
      (s.op.used = false ∧ Accepted client s.op call ∧ ∃ prepared, s.use client call =
        { s with op := { s.op with used := true }, prepared := some prepared, inFlight := true }) ∨
      (s.op.used = false ∧ ¬ Accepted client s.op call ∧ s.inFlight = false ∧ ∃ op,
        op.workflowHandlePromise = .pending ∧
          s.use client call = { s with op := op, ended := s.ended ++ [.first .pending false] }) := by
  cases hused : s.op.used with
  | true =>
    rcases start_of_used client hused call with ⟨hop, herror⟩
    exact Or.inl ⟨rfl, by simp only [use, hused, if_true, hop, herror]⟩
  | false =>
    rcases h.idle (h.unused hused) with ⟨_, hreceived, hflight, hpending⟩
    by_cases haccepted : Accepted client s.op call
    · rcases start_accepted hused haccepted with ⟨prepared, hstart⟩
      exact Or.inr (Or.inl ⟨rfl, haccepted, prepared, by simp [use, hused, hstart]⟩)
    · rcases start_rejected hused haccepted with ⟨error, hstart⟩
      have hpromise := (start_promise client s.op call).trans hpending
      refine Or.inr (Or.inr ⟨rfl, haccepted, hflight, (start client s.op call).1, hpromise, ?_⟩)
      simp [use, hused, hstart, hpromise, hreceived]

theorem Kept.use (h : s.Kept) (call : Call T) : (s.use client call).Kept := by
  rcases h.use_cases call with ⟨_, huse⟩ | ⟨_, _, prepared, huse⟩ | ⟨hused, _, _, op, hpending, huse⟩
  · rw [huse]
    exact ⟨h.unused, h.idle, h.settled, h.resolved, h.seen, h.retrieving⟩
  · rw [huse]
    exact ⟨nofun, nofun, h.settled, h.resolved, h.seen, h.retrieving⟩
  · rcases h.idle (h.unused hused) with ⟨hruns, hreceived, hflight, hpromise⟩
    rw [huse]
    refine ⟨fun _ => h.unused hused, fun _ => ⟨hruns, hreceived, hflight, hpending⟩, ?_, ?_, h.seen, h.retrieving⟩
    · simpa [hpending, hpromise] using h.settled
    · simp [hpending, HandlePromise.isResolved]

theorem Kept.next (h : s.Kept) (input : Input) : (s.next input).Kept := by
  unfold System.next
  cases hprepared : s.prepared with
  | none => exact h
  | some prepared =>
    have hbegin : (HandlerRun.begin input).settled = false := rfl
    refine ⟨fun hused => absurd (h.unused hused) (by simp [hprepared]), by simp, ?_, ?_, ?_, ?_⟩
    · simpa [or_and_right, exists_or, hbegin] using h.settled
    · intro hresolved
      rcases h.resolved hresolved with ⟨run, hmem, hseen⟩
      exact ⟨run, List.mem_append_left _ hmem, hseen⟩
    · intro run hmem hseen
      rcases List.mem_append.mp hmem with hold | hnew
      · exact h.seen run hold hseen
      · cases List.mem_singleton.mp hnew
        cases hseen
    · intro run hmem hretrieving
      rcases List.mem_append.mp hmem with hold | hnew
      · exact h.retrieving run hold hretrieving
      · cases List.mem_singleton.mp hnew
        exact absurd nofun hretrieving

theorem Kept.finish (h : s.Kept) : s.finish.Kept := by
  unfold System.finish
  cases hflight : s.inFlight with
  | false => exact h
  | true =>
    refine ⟨h.unused, fun hidle => ?_, h.settled, h.resolved, h.seen, h.retrieving⟩
    rcases h.idle hidle with ⟨hruns, hreceived, _, hpromise⟩
    exact ⟨hruns, hreceived, rfl, hpromise⟩

theorem Kept.advance (h : s.Kept) (index : Nat) (answer : Answer) :
    (s.advance client index answer).Kept := by
  rcases s.advance_cases client index answer with ⟨_, hsame⟩ | ⟨prepared, run, run', op, hprepared, hrun,
    heffect, hadvance⟩
  · rw [hsame]
    exact h
  rw [hadvance]
  have hmem : run ∈ s.runs := List.mem_iff_getElem?.mpr ⟨index, hrun⟩
  have hmem' : run' ∈ s.runs.set index run' := List.mem_set (List.getElem?_eq_some_iff.mp hrun).1 run'
  have hsets : ∀ {p : HandlerRun → Prop}, (∀ other ∈ s.runs, p other → s.received = true) →
      (p run' → s.received = true ∨ run.receives answer = true) →
      ∀ other ∈ s.runs.set index run', p other → (s.received || run.receives answer) = true := by
    intro p hold hnew other hother hp
    rcases List.mem_or_eq_of_mem_set hother with hother | rfl
    · simp [hold other hother hp]
    · simpa using hnew hp
  have hused : op.used = s.op.used := by
    cases heffect <;> rfl
  refine ⟨fun hunused => h.unused (hused ▸ hunused), fun hnone => ?_, ?_, ?_, hsets h.seen ?_, hsets h.retrieving ?_⟩
  · rw [hprepared] at hnone
    cases hnone
  · cases heffect with
    | waits _ _ hsettled _ =>
      constructor
      · intro hpromise
        exact exists_set_of_imp hrun (fun hp => hsettled.trans hp) (h.settled.mp hpromise)
      · rintro ⟨other, hother, hp⟩
        rcases List.mem_or_eq_of_mem_set hother with hother | rfl
        · exact h.settled.mpr ⟨other, hother, hp⟩
        · exact h.settled.mpr ⟨run, hmem, hsettled.symm.trans hp⟩
    | fails error _ _ _ hsettled _ =>
      exact ⟨fun _ => ⟨run', hmem', hsettled⟩, fun _ => HandlePromise.isSettled_settle _ rfl⟩
    | starts handle _ _ hseen _ =>
      exact ⟨fun _ => ⟨run', hmem', HandlerRun.settled_of_seenStart hseen⟩,
        fun _ => HandlePromise.isSettled_settle _ rfl⟩
  · intro hresolved
    cases heffect with
    | waits _ hseen _ _ =>
      exact exists_set_of_imp hrun (fun hp => hseen.trans hp) (h.resolved hresolved)
    | fails error _ hunseen _ _ _ =>
      have hold : s.op.workflowHandlePromise.isResolved = true := by
        cases hpromise : s.op.workflowHandlePromise <;>
          simp [Operation.settle, HandlePromise.settle, HandlePromise.isResolved, hpromise] at hresolved ⊢
      refine exists_set_of_imp hrun (fun hp => ?_) (h.resolved hold)
      rw [hunseen] at hp
      cases hp
    | starts handle _ _ hseen _ => exact ⟨run', hmem', hseen⟩
  · intro hp
    cases heffect with
    | waits _ hseen _ _ => exact Or.inl (h.seen run hmem (hseen.symm.trans hp))
    | fails error _ _ hseen _ _ => exact absurd (hseen.symm.trans hp) nofun
    | starts handle _ hresponse _ _ => exact Or.inl (h.retrieving run hmem hresponse)
  · intro hp
    cases heffect with
    | waits _ _ _ hretrieving =>
      rcases hretrieving with hnone | hreceives | rfl
      · exact absurd hnone hp
      · exact Or.inr hreceives
      · exact Or.inl (h.retrieving run' hmem hp)
    | fails _ _ _ _ _ hretrieving | starts _ _ _ _ hretrieving => exact absurd hretrieving hp

theorem Kept.step (h : s.Kept) (event : Event T) : (s.step client event).Kept := by
  cases event with
  | use call => exact h.use call
  | next input => exact h.next input
  | advance index answer => exact h.advance index answer
  | finish => exact h.finish

/-- A settled promise is never settled again. -/
theorem settled_step (client : WorkflowClient) (s : System T) (h : s.op.workflowHandlePromise.isSettled = true) (event : Event T) :
    (s.step client event).op.workflowHandlePromise = s.op.workflowHandlePromise := by
  have hsettle : ∀ value, s.op.workflowHandlePromise.settle value = s.op.workflowHandlePromise :=
    HandlePromise.settle_of_settled h
  cases event with
  | use call =>
    have hstart := start_promise client s.op call
    simp only [System.step, System.use]
    split
    · exact hstart
    · split <;> simp_all
  | next input =>
    simp only [System.step, System.next]
    split <;> rfl
  | advance index answer =>
    rcases s.advance_cases client index answer with ⟨_, hsame⟩ | ⟨_, _, run', op, _, _, heffect, hadvance⟩
    · rw [System.step, hsame]
    · rw [System.step, hadvance]
      cases heffect with
      | waits => rfl
      | fails | starts => exact hsettle _
  | finish =>
    simp only [System.step, System.finish]
    split <;> rfl

/-! ## What it owes -/

theorem Kept.rejected (h : s.Kept) (hsettled : ∃ run ∈ s.runs, run.settled = true)
    (hunseen : ∀ run ∈ s.runs, run.seenStart = false) : ∃ error, s.op.workflowHandlePromise = .rejected error := by
  have hpromise := h.settled.mpr hsettled
  cases hcase : s.op.workflowHandlePromise with
  | pending =>
    rw [hcase] at hpromise
    cases hpromise
  | resolved handle =>
    rcases h.resolved (by rw [hcase]; rfl) with ⟨run, hmem, hseen⟩
    rw [hunseen run hmem] at hseen
    cases hseen
  | rejected error => exact ⟨error, rfl⟩

theorem settle_rejected {promise : HandlePromise T} (h : promise.isResolved = false) (error : Thrown) :
    ∃ error', promise.settle (.rejected error) = .rejected error' := by
  cases promise with
  | pending => exact ⟨error, rfl⟩
  | resolved handle => cases h
  | rejected error' => exact ⟨error', rfl⟩

theorem Settles.use (hkept : s.Kept) (h : s.Settles) {call : Call T}
    (hproper : s.Proper client (.use call)) : (s.use client call).Settles := by
  rcases hkept.use_cases call with ⟨_, huse⟩ | ⟨hused, _, prepared, huse⟩ | ⟨hused, hrejected, _⟩
  · rw [huse]
    refine ⟨fun ended hmem => ?_, h.inFlight⟩
    rcases List.mem_append.mp hmem with hold | hnew
    · exact h.ended ended hold
    · cases List.mem_singleton.mp hnew
      exact ⟨rfl, rfl⟩
  · rcases hkept.idle (hkept.unused hused) with ⟨_, hreceived, _, _⟩
    rw [huse]
    exact ⟨h.ended, fun _ _ _ => hreceived⟩
  · exact absurd (hproper hused) hrejected

theorem Settles.advance (hkept : s.Kept) (h : s.Settles) {index : Nat} {answer : Answer}
    (hproper : s.Proper client (.advance index answer)) : (s.advance client index answer).Settles := by
  rcases s.advance_cases client index answer with ⟨_, hsame⟩ | ⟨prepared, run, run', op, _, hrun, heffect,
    hadvance⟩
  · rw [hsame]
    exact h
  rw [hadvance]
  refine ⟨h.ended, fun hflight error herror => ?_⟩
  have hmem : run ∈ s.runs := List.mem_iff_getElem?.mpr ⟨index, hrun⟩
  -- No start response has been handed on, for otherwise the promise would have been resolved.
  have hunseen : ∀ other ∈ s.runs, other.seenStart = false := by
    intro other hother
    cases hseen : other.seenStart with
    | false => rfl
    | true =>
      have hreceived := hkept.seen other hother hseen
      have hsettled := hkept.settled.mpr ⟨other, hother, HandlerRun.settled_of_seenStart hseen⟩
      have hsame := (settled_step client s hsettled (.advance index answer)).symm
      rw [System.step, hadvance] at hsame
      have hnone := h.inFlight hflight error (hsame.trans herror)
      rw [hreceived] at hnone
      cases hnone
  rcases hproper hflight hunseen run hrun with ⟨hfails, hreceives⟩
  simp only [Bool.or_eq_false_iff]
  cases heffect with
  | waits _ _ _ _ =>
    refine ⟨h.inFlight hflight error herror, ?_⟩
    cases hanswer : run.receives answer with
    | false => rfl
    | true =>
      rcases hkept.settled.mp (by rw [herror]; rfl) with ⟨other, hother, hsettled⟩
      rw [hreceives hanswer other hother] at hsettled
      cases hsettled
  | fails _ hfailing _ _ _ _ =>
    refine ⟨hfails hfailing, ?_⟩
    cases answer with
    | response response => cases hfailing
    | _ => rfl
  | starts handle _ hresponse _ _ =>
    have hreceived := hkept.retrieving run hmem hresponse
    cases hcase : s.op.workflowHandlePromise with
    | rejected error' =>
      rw [h.inFlight hflight error' hcase] at hreceived
      cases hreceived
    | _ => simp [Operation.settle, HandlePromise.settle, hcase] at herror

theorem Settles.finish (hkept : s.Kept) (h : s.Settles) (hproper : s.Proper client .finish) :
    s.finish.Settles := by
  unfold System.finish
  cases hflight : s.inFlight with
  | false => exact h
  | true =>
    refine ⟨fun ended hmem => ?_, nofun⟩
    rcases List.mem_append.mp hmem with hold | hnew
    · exact h.ended ended hold
    cases List.mem_singleton.mp hnew
    have hsettled := hkept.settled.mpr (hproper hflight)
    refine ⟨hsettled, ?_⟩
    cases hcase : s.op.workflowHandlePromise with
    | pending =>
      rw [hcase] at hsettled
      cases hsettled
    | resolved handle =>
      rcases hkept.resolved (by rw [hcase]; rfl) with ⟨run, hrun, hseen⟩
      exact (hkept.seen run hrun hseen).symm
    | rejected error => exact (h.inFlight hflight error hcase).symm

theorem Settles.step (hkept : s.Kept) (h : s.Settles) {event : Event T}
    (hproper : s.Proper client event) : (s.step client event).Settles := by
  cases event with
  | use call => exact Settles.use hkept h hproper
  | next input =>
    simp only [System.step, System.next]
    split <;> exact ⟨h.ended, h.inFlight⟩
  | advance index answer => exact Settles.advance hkept h hproper
  | finish => exact Settles.finish hkept h hproper

/-- The call does not keep what it owes after any other step. -/
theorem Kept.proper (hkept : s.Kept) {event : Event T} (h : (s.step client event).Settles) :
    s.Proper client event := by
  cases event with
  | use call =>
    intro hused
    by_contra hrejected
    rcases hkept.use_cases call with ⟨hagain, _⟩ | ⟨_, haccepted, _⟩ | ⟨_, _, _, op, _, huse⟩
    · rw [hused] at hagain
      cases hagain
    · exact hrejected haccepted
    · rw [System.step, huse] at h
      cases (h.ended (.first .pending false) (by simp)).1
  | next input => trivial
  | advance index answer =>
    intro hflight hunseen run hrun
    rcases s.advance_cases client index answer with ⟨hidle, _⟩ | ⟨prepared, other, run', op, _, hother,
      heffect, hadvance⟩
    · rcases hidle with hnone | hnone
      · rw [(hkept.idle hnone).1] at hrun
        cases hrun
      · rw [hnone] at hrun
        cases hrun
    cases hother.symm.trans hrun
    have hunresolved : s.op.workflowHandlePromise.isResolved = false := by
      cases hresolved : s.op.workflowHandlePromise.isResolved with
      | false => rfl
      | true =>
        rcases hkept.resolved hresolved with ⟨other, hmem, hseen⟩
        rw [hunseen other hmem] at hseen
        cases hseen
    rw [System.step, hadvance] at h
    constructor
    · intro hfails
      cases heffect with
      | waits hnot | starts _ hnot => exact absurd (hnot.symm.trans hfails) nofun
      | fails error =>
        rcases settle_rejected hunresolved error with ⟨error', hrejected⟩
        exact (Bool.or_eq_false_iff.mp (h.inFlight hflight error' hrejected)).1
    · intro hreceives other hmem
      cases hsettled : other.settled with
      | false => rfl
      | true =>
        rcases hkept.rejected ⟨other, hmem, hsettled⟩ hunseen with ⟨error, hrejected⟩
        have hpromise := settled_step client s (by rw [hrejected]; rfl) (.advance index answer)
        rw [System.step, hadvance] at hpromise
        have hnone := h.inFlight hflight error (hpromise.trans hrejected)
        rw [hreceives, Bool.or_true] at hnone
        cases hnone
  | finish =>
    intro hflight
    rw [System.step, System.finish, if_pos hflight] at h
    exact hkept.settled.mp (h.ended (.first _ _) (List.mem_append_right _ (List.mem_singleton.mpr rfl))).1

theorem settles_init (options : WorkflowStartOptions T) :
    (init workflowType options).Settles :=
  ⟨by simp [init], by simp [init]⟩

/-- All along a run, every call that uses the operation leaves its promise settled and resolved if and only if a start
response was received, if and only if all steps are proper.  A settled promise stays as it is. -/
theorem updateWithStart_settles (client : WorkflowClient) (workflowType : WorkflowType T)
    (options : WorkflowStartOptions T) (events : List (Event T)) :
    (Throughout (step client) Settles (init workflowType options) events ↔
        Guarded (step client) (Proper client) (init workflowType options) events) ∧
      Guarded (step client) (fun s event => s.op.workflowHandlePromise.isSettled = true →
          (s.step client event).op.workflowHandlePromise = s.op.workflowHandlePromise)
        (init workflowType options) events := by
  refine ⟨⟨?_, ?_⟩, ?_⟩
  · exact guarded_of_throughout (fun _ event h => h.step event) (fun _ _ hkept h => hkept.proper h)
      (kept_init workflowType options)
  · exact throughout_of_invariant
      (fun _ event hproper (h : Kept _ ∧ Settles _) => ⟨h.1.step event, Settles.step h.1 h.2 hproper⟩) (fun _ h => h.2)
      ⟨kept_init workflowType options, settles_init workflowType options⟩
  · exact guarded_of_forall (fun s event hsettled => settled_step client s hsettled event) _ _

end System

/-- An operation without a task queue. -/
def queueless : WorkflowStartOptions Unit :=
  ⟨some "id", none, none, none, none, none, none, none⟩

def plainClient : WorkflowClient := ⟨fun _ => .ok (), fun _ => none, false⟩

/-- A call on it throws, and its promise is never settled. -/
theorem queueless_not_settled :
    ¬ Throughout (System.step plainClient) System.Settles (System.init (.string "workflow") queueless)
      [.use ⟨.string "update", none⟩] := by
  rintro ⟨_, h⟩
  cases (h.ended (.first .pending false) (by decide)).1

end UpdateWithStart
end TemporalSdk.Client
