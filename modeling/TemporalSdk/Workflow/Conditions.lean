import TemporalSdk.Machine.Run
import TemporalSdk.Workflow.Operations

/-!
# Conditions — `condition(fn, timeout)` between the condition loop, its timer and its scope

`condition(fn, timeout)` opens a cancellable scope, races a timer against `conditionInner(fn)` in it, and
cancels the scope when the race is decided.  What settles the two promises comes from three sides:
`tryUnblockConditions`, the `fireTimer` job, and the cancel listeners of the timer and of the condition.

The model keeps `completions.timer`, `blockedConditions`, the scopes and the queue of microtasks.  Workflow
code is not modelled: an `Event` is a call it may make, a job, an evaluation of a blocked condition with any
result, or a microtask, and a list of events is any interleaving of them.  `setTimeout` and `clearTimeout`
are in `Timeouts`.
-/

namespace TemporalSdk.Workflow
namespace Conditions

abbrev CallId := Nat

/-- Who holds the promise of a timer or of a condition: workflow code, or a call of
`condition(fn, timeout)`. -/
inductive Waiter
  | program
  | call (id : CallId)
  deriving DecidableEq

/-- The two promises that are raced. -/
inductive Arm
  | timer
  | condition
  deriving DecidableEq

abbrev Outcome := Except JsError Unit
abbrev Result := Except JsError Bool

/-- What the race makes of the outcome of an arm: `sleep(timeout).then(() => false)` and
`conditionInner(fn).then(() => true)`. -/
def Arm.result : Arm → Outcome → Result
  | .timer, .ok _ => .ok false
  | .condition, .ok _ => .ok true
  | _, .error e => .error e

inductive Microtask
  -- The constructor's reactions to the rejection of the parent scope.
  | propagate (child : ScopeId)
  | propagateUnlessShielded (child : ScopeId)
  -- The cancel listeners of `timerNextHandler` and `conditionInner`.
  | timerListener (seq : Seq)
  | conditionListener (seq : Seq) (w : Waiter)
  -- `scope.cancelRequested.catch(reject)` of what is refused in a cancelled scope.
  | refuse (arm : Arm) (w : Waiter)
  -- The reaction of `.then(() => ...)` to the promise of an arm.
  | mapped (arm : Arm) (id : CallId) (o : Outcome)
  -- The reaction of `Promise.race`.
  | raced (arm : Arm) (id : CallId) (o : Outcome)
  -- `await Promise.race(...)` resumes.
  | resumed (id : CallId) (r : Result)

structure Call where
  scope : ScopeId
  timer : Seq
  -- Absent when `conditionInner` was not called, or was refused.
  condition : Option Seq
  timerPromise : Option Outcome
  conditionPromise : Option Outcome
  race : Option Result
  result : Option Result
  deriving DecidableEq

def Call.promise (c : Call) : Arm → Option Outcome
  | .timer => c.timerPromise
  | .condition => c.conditionPromise

def Call.setPromise (c : Call) (o : Outcome) : Arm → Call
  | .timer => { c with timerPromise := some o }
  | .condition => { c with conditionPromise := some o }

/-- What happened, for stating properties only. -/
inductive Entry
  | startTimer (seq : Seq)
  | cancelTimer (seq : Seq)
  -- A `fireTimer` job found the completion.
  | fired (seq : Seq)
  -- `resolve()` of a condition.
  | unblocked (seq : Seq)
  -- The promise of an arm is settled.
  | settled (id : CallId) (arm : Arm) (o : Outcome)
  deriving DecidableEq

structure State where
  scopes : List Scope
  reactions : List (ScopeId × Microtask)
  microtasks : List Microtask
  -- `hasFlag(SdkFlags.NonCancellableScopesAreShieldedFromPropagation)`.
  shielded : Bool
  -- `completions.timer`.
  timers : Seq → Option Waiter
  nextTimer : Seq
  blockedConditions : List (Seq × Waiter)
  nextCondition : Seq
  calls : List Call
  history : List Entry

namespace State

def init (shielded : Bool) : State :=
  { scopes := [Scope.root]
    reactions := []
    microtasks := []
    shielded := shielded
    timers := fun _ => none
    nextTimer := 1
    blockedConditions := []
    nextCondition := 1
    calls := []
    history := [] }

def log (s : State) (e : Entry) : State := { s with history := s.history ++ [e] }

def enqueue (s : State) (m : Microtask) : State := { s with microtasks := s.microtasks ++ [m] }

/-! ## Scopes -/

/-- `scope.cancelRequested.catch(reaction)`. -/
def catchCancel (s : State) (scope : ScopeId) (m : Microtask) : State :=
  match s.scopes[scope]? with
  | some sc =>
    if sc.rejected then s.enqueue m
    else { s with reactions := s.reactions ++ [(scope, m)] }
  | none => s

/-- `CancellationScope.reject`. -/
def rejectScope (s : State) (scope : ScopeId) : State :=
  match s.scopes[scope]? with
  | some sc =>
    if sc.rejected then
      { s with scopes := s.scopes.set scope { sc with cancelRequested := true } }
    else
      { s with
        scopes := s.scopes.set scope { sc with cancelRequested := true, rejected := true }
        reactions := s.reactions.filter fun r => r.1 != scope
        microtasks := s.microtasks ++
          (s.reactions.filter fun r => r.1 == scope).map Prod.snd }
  | none => s

/-- The constructor of `CancellationScope`. -/
def newScope (s : State) (parent : ScopeId) (cancellable : Bool) : State :=
  match s.scopes[parent]? with
  | some p =>
    let id := s.scopes.length
    if p.cancellable || (p.cancelRequested && !s.shielded) then
      let scope : Scope :=
        { cancellable := cancellable
          parent := some parent
          cancelRequested := p.cancelRequested
          rejected := false }
      { s with scopes := s.scopes ++ [scope] }.catchCancel parent (.propagate id)
    else
      let scope : Scope :=
        { cancellable := cancellable
          parent := some parent
          cancelRequested := false
          rejected := false }
      { s with scopes := s.scopes ++ [scope] }.catchCancel parent (.propagateUnlessShielded id)
  | none => s

/-! ## Promises -/

/-- Settle the promise of an arm, once. -/
def settle (s : State) (arm : Arm) (w : Waiter) (o : Outcome) : State :=
  match w with
  | .program => s
  | .call id =>
    match s.calls[id]? with
    | none => s
    | some c =>
      if (c.promise arm).isSome then
        s
      else
        ({ s with calls := s.calls.set id (c.setPromise o arm) }.enqueue
          (.mapped arm id o)).log (.settled id arm o)

/-! ## Timers -/

/-- `timerNextHandler`. -/
def timerNextHandler (s : State) (scope : ScopeId) (seq : Seq) (durationMs : Option Nat)
    (summary : Except JsError Unit) (w : Waiter) : State :=
  match s.scopes[scope]? with
  | none => s
  | some sc =>
    if sc.consideredCancelled then
      s.catchCancel scope (.refuse .timer w)
    else
      let s := if sc.cancellable then s.catchCancel scope (.timerListener seq) else s
      match msNumberToTs durationMs, summary with
      | .error e, _ => s.settle .timer w (.error e)
      | _, .error e => s.settle .timer w (.error e)
      | .ok _, .ok _ =>
        { s with timers := Function.update s.timers seq (some w) }.log (.startTimer seq)

/-- The number that `sleep` takes. -/
def takeTimer (s : State) : State := { s with nextTimer := s.nextTimer + 1 }

/-- `sleep`; what it throws is the second component. -/
def sleep (s : State) (scope : ScopeId) (ms : Duration) (summary : Except JsError Unit)
    (w : Waiter) : State × Option JsError :=
  match msToNumber ms with
  | .error e => (s.takeTimer, some e)
  | .ok n => (s.takeTimer.timerNextHandler scope s.nextTimer (atLeastOne n) summary w, none)

/-! ## Conditions -/

/-- The blocked condition is resolved and removed. -/
def unblock (s : State) (seq : Seq) (w : Waiter) : State :=
  ({ s with blockedConditions := s.blockedConditions.filter fun b => b.1 != seq }.log
    (.unblocked seq)).settle .condition w (.ok ())

/-- The number that `conditionInner` takes, noted for the call. -/
def takeCondition (s : State) (w : Waiter) : State :=
  let taken := { s with nextCondition := s.nextCondition + 1 }
  match w with
  | .program => taken
  | .call id =>
    match s.calls[id]? with
    | none => taken
    | some c => { taken with calls := s.calls.set id { c with condition := some s.nextCondition } }

/-- `conditionInner`; `fn` is the outcome of the eager evaluation. -/
def conditionInner (s : State) (scope : ScopeId) (fn : Except JsError Bool) (w : Waiter) : State :=
  match s.scopes[scope]? with
  | none => s
  | some sc =>
    if sc.consideredCancelled then
      s.catchCancel scope (.refuse .condition w)
    else
      let seq := s.nextCondition
      let s := s.takeCondition w
      let s := if sc.cancellable then s.catchCancel scope (.conditionListener seq w) else s
      match fn with
      | .error e => s.settle .condition w (.error e)
      | .ok true => (s.log (.unblocked seq)).settle .condition w (.ok ())
      | .ok false => { s with blockedConditions := s.blockedConditions ++ [(seq, w)] }

/-- An iteration of the loop of `tryUnblockConditions`: `cond.fn()` of a blocked condition. -/
def tryUnblock (s : State) (seq : Seq) (fn : Bool) : State :=
  match s.blockedConditions.find? fun b => b.1 == seq with
  | none => s
  | some b => if fn then s.unblock seq b.2 else s

/-- `condition(fn, timeout)`, with a timeout, up to its `await`. -/
def conditionTimeout (s : State) (parent : ScopeId) (timeout : Duration)
    (summary : Except JsError Unit) (fn : Except JsError Bool) : State :=
  let id := s.calls.length
  let scope := s.scopes.length
  let seq := s.nextTimer
  let s := (s.newScope parent true).takeTimer
  match msToNumber timeout with
  | .error e =>
    -- `sleep` throws: the race does not take place, and `finally` cancels the scope.
    let c : Call := ⟨scope, seq, none, some (.error e), none, some (.error e), some (.error e)⟩
    ({ s with calls := s.calls ++ [c] }.log (.settled id .timer (.error e))).rejectScope scope
  | .ok n =>
    let c : Call := ⟨scope, seq, none, none, none, none, none⟩
    let s := { s with calls := s.calls ++ [c] }
    let s := s.timerNextHandler scope seq (atLeastOne n) summary (.call id)
    s.conditionInner scope fn (.call id)

/-- `condition`.  `patched` is the answer of `patched(CONDITION_0_PATCH)`. -/
def condition (s : State) (scope : ScopeId) (timeout : Option Duration) (patched : Bool)
    (summary : Except JsError Unit) (fn : Except JsError Bool) : State :=
  match timeout with
  | none => s.conditionInner scope fn .program
  | some timeout =>
    if timeout = .millis 0 ∧ !patched then s.conditionInner scope fn .program
    else s.conditionTimeout scope timeout summary fn

/-! ## Jobs and microtasks -/

def fireTimer (s : State) (seq : Seq) : State :=
  match s.timers seq with
  | none => s
  | some w =>
    ({ s with timers := Function.update s.timers seq none }.log (.fired seq)).settle .timer w (.ok ())

def runMicrotask (s : State) : Microtask → State
  | .propagate child => s.rejectScope child
  | .propagateUnlessShielded child => if s.shielded then s else s.rejectScope child
  | .timerListener seq =>
    match s.timers seq with
    | none => s
    | some w =>
      ({ s with timers := Function.update s.timers seq none }.log (.cancelTimer seq)).settle
        .timer w (.error .cancelled)
  | .conditionListener seq w =>
    { s with
      blockedConditions := s.blockedConditions.filter fun b => b.1 != seq }.settle
        .condition w (.error .cancelled)
  | .refuse arm w => s.settle arm w (.error .cancelled)
  | .mapped arm id o => s.enqueue (.raced arm id o)
  | .raced arm id o =>
    match s.calls[id]? with
    | none => s
    | some c =>
      if c.race.isSome then s
      else
        { s with calls := s.calls.set id { c with race := some (arm.result o) } }.enqueue
          (.resumed id (arm.result o))
  | .resumed id r =>
    match s.calls[id]? with
    | none => s
    | some c =>
      -- `finally` cancels the scope; the promises around the race settle after it.
      { s.rejectScope c.scope with calls := s.calls.set id { c with result := some r } }

/-- Run the oldest microtask. -/
def tick (s : State) : State :=
  match s.microtasks with
  | [] => s
  | m :: rest => { s with microtasks := rest }.runMicrotask m

end State

inductive Event
  | newScope (parent : ScopeId) (cancellable : Bool)
  | cancelScope (scope : ScopeId)
  | sleep (scope : ScopeId) (ms : Duration) (summary : Except JsError Unit)
  | condition (scope : ScopeId) (timeout : Option Duration) (patched : Bool)
      (summary : Except JsError Unit) (fn : Except JsError Bool)
  | tryUnblock (seq : Seq) (fn : Bool)
  | fireTimer (seq : Seq)
  | tick
  | setShielded (value : Bool)

/-- Calls are made in an existing scope. -/
def step (s : State) : Event → State
  | .newScope parent cancellable => s.newScope parent cancellable
  | .cancelScope scope => s.rejectScope scope
  | .sleep scope ms summary =>
    if scope < s.scopes.length then (s.sleep scope ms summary .program).1 else s
  | .condition scope timeout patched summary fn =>
    if scope < s.scopes.length then s.condition scope timeout patched summary fn else s
  | .tryUnblock seq fn => s.tryUnblock seq fn
  | .fireTimer seq => s.fireTimer seq
  | .tick => s.tick
  | .setShielded value => { s with shielded := value }

end Conditions
end TemporalSdk.Workflow
