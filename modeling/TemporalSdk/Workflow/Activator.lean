import TemporalSdk.Workflow.Protocol

/-!
# Activator — the operations half of a workflow's runtime state

`Activator` keeps what `internals.ts` keeps about scheduled operations (`nextSeqs`, `completions`,
`commands`), the tree of cancellation scopes of `cancellation-scope.ts`, and the microtasks that
SDK code has queued on the promises involved.

Two points of the encoding:

* `scope.cancelRequested` is a promise.  `reactions` lists what has been chained on it with
  `.catch`; rejecting it moves the reactions of that scope to `microtasks`, in order.
* `history` is a ghost field: it records, in order, the commands pushed over the whole run, the jobs
  processed and the promises settled.  No SDK function reads it.
-/

namespace TemporalSdk.Workflow

/-! ## Inputs that SDK code keeps across an `await` -/

/-- The `LocalActivityInput` of one attempt.  `arguments seq` is the outcome of encoding the
arguments in the context of attempt `seq`. -/
structure LocalActivityInput where
  activityType : String
  scheduleToCloseTimeout : Option Nat
  startToCloseTimeout : Option Nat
  attempt : Nat
  originalScheduleTime : Option Nat
  arguments : Seq → Except JsError Payloads

/-- Who awaits the promise behind a completion. -/
inductive Awaiter
  -- The promise was handed to workflow code.
  | program
  -- The start promise of a child workflow: its rejection is chained to the complete promise.
  | childWorkflow
  -- `timerScope.run(() => sleep(ms))` in `setTimeout`.
  | timeout
  -- The bare promise of `setTimeout` without the shielding flag.
  | legacyTimeout
  -- `await execute(...)` in the loop of `scheduleLocalActivity`.
  | localActivity (scope : ScopeId) (input : LocalActivityInput)
  -- `await sleep(backoffDuration)` in the loop of `scheduleLocalActivity`.
  | localBackoff (scope : ScopeId) (input : LocalActivityInput) (backoff : Backoff)

/-- How the promise of an operation is settled. -/
inductive Settlement
  | resolved
  | rejected (error : JsError)
  | doBackoff (backoff : Backoff)
  deriving DecidableEq

/-! ## Microtasks -/

/-- The operation kinds whose next handler chains a cancel listener on the current scope. -/
inductive CancelKind
  | timer
  | activity
  | localActivity
  | childWorkflow
  | signalWorkflow
  | nexusOperation
  deriving DecidableEq

/-- Microtasks queued by SDK code. -/
inductive Microtask
  -- Parent scope rejected: `this.reject(err)` in the child.
  | propagate (child : ScopeId)
  -- Parent scope rejected: `this.reject(err)` unless the shielding flag is on.
  | propagateUnlessShielded (child : ScopeId)
  -- The cancel listener of a next handler.
  | cancelListener (kind : CancelKind) (seq : Seq)
  -- `scope.cancelRequested.catch(reject)` of an operation refused in a cancelled scope.
  | rejectOperation (kind : CompletionKind) (seq : Seq) (awaiter : Awaiter)
  -- `startPromise.catch(reject)` of a child's complete promise.
  | childStartRejected (seq : Seq) (error : JsError)
  -- The reject of an external cancel, subject to the internal patch.
  | externalCancelRejected
  -- `return await fn()` of `runInContext` resumes for the timer scope of `setTimeout`.
  | runInContextResumed (seq : Seq) (resolved : Bool)
  -- The fulfilment reaction of `setTimeout`.
  | timeoutFired (seq : Seq)
  -- The rejection reaction of `setTimeout`.
  | timeoutRejected (seq : Seq)
  -- The callback of `setTimeout` without the shielding flag.
  | legacyTimeoutFired (seq : Seq)
  -- The `catch` of `scheduleLocalActivity` got a `LocalActivityDoBackoff`.
  | localActivityBackoff (scope : ScopeId) (input : LocalActivityInput) (backoff : Backoff)
  -- The backoff timer of `scheduleLocalActivity` fired.
  | localActivityRetry (scope : ScopeId) (input : LocalActivityInput) (backoff : Backoff)

/-! ## Scopes -/

/-- A `CancellationScope`.  `cancelRequested` is the private flag, `rejected` tells whether the
public `cancelRequested` promise has been rejected. -/
structure Scope where
  cancellable : Bool
  parent : Option ScopeId
  cancelRequested : Bool
  rejected : Bool
  deriving DecidableEq

def Scope.consideredCancelled (s : Scope) : Bool :=
  s.cancelRequested && s.cancellable

/-- `RootCancellationScope`. -/
def Scope.root : Scope :=
  { cancellable := true, parent := none, cancelRequested := false, rejected := false }

/-! ## Ghost history -/

inductive Entry
  -- `pushCommand` by a next handler or by a cancel listener.
  | pushed (command : Command)
  -- `pushCommand` of `cancelTimer` by the fallback branch of `clearTimeout`.
  | pushedByFallback (handle : Seq)
  | processed (job : Job)
  | settled (kind : CompletionKind) (seq : Seq) (settlement : Settlement)
  -- The promise of an external cancel was rejected by its scope.
  | externalCancelRejected
  -- A call returned its promise.
  | returned (kind : CompletionKind) (seq : Seq)
  -- A call or a job handler threw.
  | threw (error : JsError)
  -- `clearTimeout` was called on a handle.
  | clearCalled (handle : Seq)
  -- The callback given to `setTimeout` ran.
  | callback (handle : Seq)
  deriving DecidableEq

/-! ## The state -/

structure Activator where
  nextSeqs : SeqKind → Seq
  completions : CompletionKind → Seq → Option Awaiter
  -- Scope `0` is `rootScope`.
  scopes : List Scope
  reactions : List (ScopeId × Microtask)
  microtasks : List Microtask
  commands : List Command
  cancelled : Bool
  -- `info.unsafe.isReplaying`.
  isReplaying : Bool
  registeredActivityNames : List String
  -- `hasFlag(SdkFlags.NonCancellableScopesAreShieldedFromPropagation)`.
  shielded : Bool
  -- `patched(EXTERNAL_WF_CANCEL_PATCH)`.
  externalCancelPatched : Bool
  namespaceName : String
  history : List Entry

namespace Activator

/-- A freshly constructed `Activator`. -/
def init (isReplaying shielded externalCancelPatched : Bool) (registeredActivityNames : List String)
    (namespaceName : String) : Activator :=
  { nextSeqs := fun _ => 1
    completions := fun _ _ => none
    scopes := [Scope.root]
    reactions := []
    microtasks := []
    commands := []
    cancelled := false
    isReplaying := isReplaying
    registeredActivityNames := registeredActivityNames
    shielded := shielded
    externalCancelPatched := externalCancelPatched
    namespaceName := namespaceName
    history := [] }

/-! ## Elementary updates -/

def log (a : Activator) (e : Entry) : Activator :=
  { a with history := a.history ++ [e] }

def enqueue (a : Activator) (m : Microtask) : Activator :=
  { a with microtasks := a.microtasks ++ [m] }

def pushCommand (a : Activator) (cmd : Command) : Activator :=
  { a with
    commands := a.commands ++ [cmd]
    history := a.history ++ [.pushed cmd] }

/-- `nextSeqs[kind]++`. -/
def bumpSeq (a : Activator) (kind : SeqKind) : Activator :=
  { a with nextSeqs := Function.update a.nextSeqs kind (a.nextSeqs kind + 1) }

/-- `completions[kind].set(seq, ...)`. -/
def setCompletion (a : Activator) (kind : CompletionKind) (seq : Seq) (w : Awaiter) : Activator :=
  { a with
    completions :=
      Function.update a.completions kind (Function.update (a.completions kind) seq (some w)) }

/-- `completions[kind].delete(seq)`. -/
def deleteCompletion (a : Activator) (kind : CompletionKind) (seq : Seq) : Activator :=
  { a with
    completions := Function.update a.completions kind (Function.update (a.completions kind) seq none) }

/-- Settle the promise of an operation and queue the reaction of SDK code awaiting it. -/
def settle (a : Activator) (kind : CompletionKind) (seq : Seq) (w : Awaiter) (o : Settlement) :
    Activator :=
  let a := a.log (.settled kind seq o)
  match kind, w, o with
  | .timer, .timeout, .resolved => a.enqueue (.runInContextResumed seq true)
  | .timer, .timeout, _ => a.enqueue (.runInContextResumed seq false)
  | .timer, .legacyTimeout, .resolved => a.enqueue (.legacyTimeoutFired seq)
  | .timer, .localBackoff scope input b, .resolved =>
    a.enqueue (.localActivityRetry scope input b)
  | .activity, .localActivity scope input, .doBackoff b =>
    a.enqueue (.localActivityBackoff scope input b)
  | .childWorkflowStart, .childWorkflow, .rejected e => a.enqueue (.childStartRejected seq e)
  | _, _, _ => a

/-! ## Cancellation scopes -/

/-- `scope.cancelRequested.catch(reaction)`. -/
def catchCancel (a : Activator) (s : ScopeId) (m : Microtask) : Activator :=
  match a.scopes[s]? with
  | some scope =>
    if scope.rejected then a.enqueue m
    else { a with reactions := a.reactions ++ [(s, m)] }
  | none => a

/-- `CancellationScope.reject`: set the private flag and reject the promise, once. -/
def rejectScope (a : Activator) (s : ScopeId) : Activator :=
  match a.scopes[s]? with
  | some scope =>
    if scope.rejected then
      { a with scopes := a.scopes.set s { scope with cancelRequested := true } }
    else
      { a with
        scopes := a.scopes.set s { scope with cancelRequested := true, rejected := true }
        reactions := a.reactions.filter (fun r => r.1 != s)
        microtasks := a.microtasks ++ (a.reactions.filter (fun r => r.1 == s)).map Prod.snd }
  | none => a

/-- The constructor of `CancellationScope` under an existing parent.  The new scope gets the next
free index. -/
def newScope (a : Activator) (parent : ScopeId) (cancellable : Bool) : Activator :=
  match a.scopes[parent]? with
  | some p =>
    let id := a.scopes.length
    if p.cancellable || (p.cancelRequested && !a.shielded) then
      let scope : Scope :=
        { cancellable := cancellable
          parent := some parent
          cancelRequested := p.cancelRequested
          rejected := false }
      { a with scopes := a.scopes ++ [scope] }.catchCancel parent (.propagate id)
    else
      let scope : Scope :=
        { cancellable := cancellable
          parent := some parent
          cancelRequested := false
          rejected := false }
      { a with scopes := a.scopes ++ [scope] }.catchCancel parent (.propagateUnlessShielded id)
  | none => a

end Activator

end TemporalSdk.Workflow
