import TemporalSdk.Activation.Values

/-!
# Program — workflow code, jobs, commands and the state of a workflow execution

Workflow code is an interaction tree: what it does next may depend on the values it reads, on the
outcomes it waits for and on the errors it catches.  `σ` is the state that the code keeps for itself.

A *caller* is one call of the workflow function or of a signal or update handler.  Callbacks run for
the caller that registered them, as they do under `AsyncLocalStorage`.
-/

namespace TemporalSdk.Activation

abbrev PromiseId := Nat
abbrev Payload := String
abbrev Args := List JsValue
abbrev Failure := String

/-- How an asynchronous function or a promise settles: `.error` carries what was thrown. -/
abbrev Outcome := Except JsValue JsValue

/-- The part of `WorkflowInfo` that an activation renews, with `now`. -/
structure Info where
  now : Nat
  historyLength : Nat
  isReplaying : Bool
  deriving DecidableEq

/-! ## Workflow code -/

/-- Synchronous stretches of workflow code.  `await` is `andThen` followed by `pause`.

* `settle` returns from, or throws out of, the function that the caller called;
* `settlePromise` and `unhandled` settle promises of the program, `unhandled` one that nobody waits
  for;
* the calls that register handlers hand the error they throw, if any, to the code after them. -/
inductive Prog (σ : Type)
  | pause
  | settle (o : Outcome)
  | read (k : σ → Info → Prog σ)
  | write (heap : σ) (k : Prog σ)
  | command (id : Nat) (k : Prog σ)
  | andThen (p : PromiseId) (callback : Outcome → Prog σ) (k : Prog σ)
  | settlePromise (p : PromiseId) (o : Outcome) (k : Prog σ)
  | condition (fn : σ → Info → Bool) (p : PromiseId) (k : Nat → Prog σ)
  | deleteCondition (seq : Nat) (k : Prog σ)
  | unhandled (reason : JsValue) (k : Prog σ)
  | setSignalHandler (name : String) (handler : Args → Prog σ) (k : Option JsValue → Prog σ)
  | unsetSignalHandler (name : String) (k : Option JsValue → Prog σ)
  | setDefaultSignalHandler (handler : String → Args → Prog σ) (k : Option JsValue → Prog σ)
  | unsetDefaultSignalHandler (k : Prog σ)
  | setUpdateHandler (name : String) (validator : Option (σ → Info → Args → Except JsValue Unit))
      (handler : Args → Prog σ) (k : Option JsValue → Prog σ)
  | unsetUpdateHandler (name : String) (k : Option JsValue → Prog σ)
  | setDefaultUpdateHandler (handler : String → Args → Prog σ) (k : Option JsValue → Prog σ)
  | unsetDefaultUpdateHandler (k : Prog σ)

/-- A call of the workflow function or of a handler. -/
inductive Caller
  | workflow (num : Nat)
  | signal (num : Nat)
  | update (num : Nat) (protocolInstanceId : String)
  deriving DecidableEq

/-! ## Jobs and commands -/

structure SignalWorkflow where
  signalName : String
  input : List Payload
  deriving DecidableEq

structure DoUpdate where
  id : String
  protocolInstanceId : String
  name : String
  input : List Payload
  runValidator : Bool
  deriving DecidableEq

/-- What the handler of a query does. -/
inductive QueryHandling
  | returned (v : JsValue)
  | threw (v : JsValue)
  -- The promise that it returns is rejected with a reason, or it is not.
  | promise (rejection : Option JsValue)
  -- An object with a `then` method, which settles it or does nothing.
  | thenable (settles : Option Outcome)
  | noHandler (queryName : String) (knownQueryTypes : List String)
  deriving DecidableEq

namespace QueryHandling

/-- How the promise of `queryWorkflowNextHandler` settles; `none` when it does not. -/
def answer : QueryHandling → Option Outcome
  | returned v => some (.ok v)
  | threw v => some (.error v)
  | promise _ => some (.error (.determinismViolationError "Query handlers should not return a Promise"))
  | thenable settles => settles
  | noHandler queryName knownQueryTypes =>
    some (.error (.builtin "ReferenceError" ("Workflow did not register a handler for " ++ queryName ++
      ". Registered queries: [" ++ " ".intercalate knownQueryTypes ++ "]")))

/-- A promise that the handler returned is not waited for. -/
def leftRejected : QueryHandling → Option JsValue
  | promise rejection => rejection
  | _ => none

end QueryHandling

/-- The jobs of an activation.  Jobs that resolve a completion carry the promise they settle, or the
error they throw; `initializeWorkflow`, `notifyHasPatch` and `updateRandomSeed` carry whether they throw,
and `queryWorkflow` carries the error it throws, or what the handler does. -/
inductive Job
  | initializeWorkflow (arguments : List Payload) (outcome : Except JsValue Unit)
  | notifyHasPatch (outcome : Except JsValue Unit)
  | updateRandomSeed (outcome : Except JsValue Unit)
  | signalWorkflow (s : SignalWorkflow)
  | doUpdate (u : DoUpdate)
  | cancelWorkflow
  | resolve (completion : Except JsValue (PromiseId × Outcome))
  | queryWorkflow (queryId : String) (outcome : Except JsValue QueryHandling)

namespace Job

def isUpdate : Job → Bool
  | doUpdate _ => true
  | _ => false

def isSignal : Job → Bool
  | signalWorkflow _ => true
  | _ => false

def isQuery : Job → Bool
  | queryWorkflow _ _ => true
  | _ => false

def isPatch : Job → Bool
  | notifyHasPatch _ => true
  | _ => false

def isRandomSeed : Job → Bool
  | updateRandomSeed _ => true
  | _ => false

/-- `safeJobTypes`: what may come with `initializeWorkflow` in one batch. -/
def isSafeWithStart : Job → Bool
  | initializeWorkflow _ _ | signalWorkflow _ | doUpdate _ | cancelWorkflow | updateRandomSeed _ =>
    true
  | _ => false

end Job

structure WorkflowActivation where
  info : Info
  jobs : List Job
  -- `hasFlag(ProcessWorkflowActivationJobsAsSingleBatch)`.
  singleBatch : Bool

inductive UpdateResponse
  | accepted
  | completed (result : Payload)
  | rejected (failure : Failure)
  deriving DecidableEq

inductive QueryResponse
  | succeeded (response : Payload)
  | failed (failure : Failure)
  deriving DecidableEq

inductive Command
  | user (id : Nat)
  | completeWorkflowExecution (result : Payload)
  | cancelWorkflowExecution
  | continueAsNewWorkflowExecution
  | failWorkflowExecution (failure : Failure)
  | updateResponse (protocolInstanceId : String) (response : UpdateResponse)
  | respondToQuery (queryId : String) (response : QueryResponse)
  deriving DecidableEq

/-- What makes the activator push a command. -/
inductive Origin
  | code (c : Caller)
  | returned (c : Caller)
  | thrown (c : Caller) (v : JsValue)
  -- The answer to an update before its handler runs, or instead of it.
  | update (u : DoUpdate)
  | query (queryId : String)
  deriving DecidableEq

inductive Completion
  | successful (commands : List (Origin × Command))
  | failed (error : JsValue)
  -- A query activation that throws rejects the promise of `activate`.
  | rejected (error : JsValue)
  deriving DecidableEq

/-! ## What happened -/

/-- The history of an execution, for stating properties only: the code does not read it. -/
inductive Note
  | activated (query : Bool)
  | signalArrived (s : SignalWorkflow)
  | signalHanded (s : SignalWorkflow) (num : Nat)
  | updateArrived (u : DoUpdate)
  -- The validator of `u` ran on the argument object with this number.
  | validated (u : DoUpdate) (object : Nat)
  | updateHanded (u : DoUpdate) (num : Nat) (object : Nat)
  | pushed (origin : Origin) (c : Command)
  | resolved (p : PromiseId)
  | unblocked (seq : Nat)
  | thrown (c : Caller) (v : JsValue)
  | recorded (c : Caller) (v : JsValue)
  | completed (c : Completion)
  deriving DecidableEq

/-! ## State -/

structure PromiseState (σ : Type) where
  outcome : Option Outcome
  callbacks : List (Caller × (Outcome → Prog σ))

inductive Microtask (σ : Type)
  | callback (c : Caller) (code : Prog σ)
  -- The function that `c` called has returned or thrown.
  | settled (c : Caller) (o : Outcome)
  -- The `catch` step of an update.
  | caught (num : Nat) (protocolInstanceId : String) (v : JsValue)
  -- The promise of a query has settled.
  | respond (queryId : String) (o : Outcome)

structure BlockedCondition (σ : Type) where
  seq : Nat
  fn : σ → Info → Bool
  promise : PromiseId

structure UpdateHandler (σ : Type) where
  validator : Option (σ → Info → Args → Except JsValue Unit)
  handler : Args → Prog σ

/-- What the activator keeps for signals and updates. -/
structure Inbox (σ : Type) where
  signalHandlers : String → Option (Args → Prog σ)
  defaultSignalHandler : Option (String → Args → Prog σ)
  bufferedSignals : List SignalWorkflow
  updateHandlers : String → Option (UpdateHandler σ)
  defaultUpdateHandler : Option (String → Args → Prog σ)
  bufferedUpdates : List DoUpdate

/-- A frame of the call stack: code of a caller, or a dispatch loop that it is in, with the code that
runs when the loop ends or throws. -/
inductive Frame (σ : Type)
  | code (c : Caller) (code : Prog σ)
  | dispatchSignals (c : Caller) (k : Option JsValue → Prog σ)
  | dispatchUpdates (c : Caller) (k : Option JsValue → Prog σ)

/-- Where `BaseVMWorkflow.activate` is when no frame is on the stack. -/
inductive Phase
  | idle
  -- The jobs of a batch that are left, whether the workflow starts after them, and the whole batch.
  | jobs (todo : List Job) (start : Option (List Payload)) (batch : List Job)
  -- `tryUnblockConditions` after a job.
  | unblock (todo : List Job) (start : Option (List Payload)) (batch : List Job)
  -- `tryUnblockConditions` after the workflow function has been called.
  | started
  | microtasks
  -- An iteration of `tryUnblockConditionsAndMicrotasks`.
  | outer
  | queries (todo : List Job)
  | conclude

structure Vm (σ : Type) where
  heap : σ
  promises : PromiseId → PromiseState σ
  microtasks : List (Microtask σ)
  info : Info
  inbox : Inbox σ
  blockedConditions : List (BlockedCondition σ)
  nextCondition : Nat
  checkConditions : Bool
  commands : List (Origin × Command)
  cancelled : Bool
  -- `undefined` when no error is recorded.
  workflowTaskError : JsValue
  unhandledRejection : JsValue
  -- Reasons of rejected promises that nobody waits for, until Node reports them.
  rejections : List JsValue
  nextNum : Nat
  nextObject : Nat
  settledCalls : List Caller
  stack : List (Frame σ)
  phase : Phase
  batches : List (List Job)
  query : Bool
  trace : List Note

/-- The program, and the converters of the worker. -/
structure Config (σ : Type) where
  workflow : Args → Prog σ
  arrayFromPayloads : List Payload → Except JsValue Args
  toPayload : JsValue → Except JsValue Payload
  -- `errorToFailure(ensureTemporalFailure(error))`.
  errorToFailure : JsValue → Except JsValue Failure
  failureTypes : FailureTypes

/-- The promise that `rootScope.cancel()` rejects. -/
def rootScope : PromiseId := 0

def Inbox.init {σ : Type} : Inbox σ :=
  { signalHandlers := fun _ => none
    defaultSignalHandler := none
    bufferedSignals := []
    updateHandlers := fun _ => none
    defaultUpdateHandler := none
    bufferedUpdates := [] }

def Vm.init {σ : Type} (heap : σ) : Vm σ :=
  { heap := heap
    promises := fun _ => ⟨none, []⟩
    microtasks := []
    info := ⟨0, 0, false⟩
    inbox := Inbox.init
    blockedConditions := []
    nextCondition := 1
    checkConditions := false
    commands := []
    cancelled := false
    workflowTaskError := .undefined
    unhandledRejection := .undefined
    rejections := []
    nextNum := 0
    nextObject := 0
    settledCalls := []
    stack := []
    phase := .idle
    batches := []
    query := false
    trace := [] }

end TemporalSdk.Activation
