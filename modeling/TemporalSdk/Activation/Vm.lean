import TemporalSdk.Activation.Program

/-!
# Vm — one workflow execution, step by step

`step` makes one step of the synchronous control flow of `BaseVMWorkflow.activate`: one instruction
of workflow code, one iteration of a dispatch loop, one job, one microtask, one call of
`tryUnblockConditions`, one buffered update rejected at the end.  `next` feeds it activations.

Microtasks run when a call into the VM returns; a call that throws leaves them queued.  The reaction
to the outcome of a handler is one microtask (two for an update, as in the source); the hops that
`async` wrappers add in between are left out, which a program can make up for by waiting itself.
-/

namespace TemporalSdk.Activation

variable {σ : Type}

namespace Vm

/-! ## Primitive updates -/

def note (s : Vm σ) (n : Note) : Vm σ := { s with trace := s.trace ++ [n] }

def pushCommand (s : Vm σ) (origin : Origin) (c : Command) : Vm σ :=
  { s with
    commands := s.commands ++ [(origin, c)]
    trace := s.trace ++ [.pushed origin c] }

/-- A promise is rejected and nobody waits for it. -/
def leaveRejected (s : Vm σ) (reason : JsValue) : Vm σ :=
  { s with rejections := s.rejections ++ [reason] }

/-- Settle a promise, once: its callbacks become microtasks. -/
def settlePromise (s : Vm σ) (p : PromiseId) (o : Outcome) : Vm σ :=
  { s with
    promises := Function.update s.promises p ⟨some ((s.promises p).outcome.getD o), []⟩
    microtasks := s.microtasks ++ (s.promises p).callbacks.map fun cb => .callback cb.1 (cb.2 o)
    trace := s.trace ++ if (s.promises p).outcome.isNone then [.resolved p] else [] }

/-- `p.then(callback)`. -/
def andThen (s : Vm σ) (p : PromiseId) (c : Caller) (callback : Outcome → Prog σ) : Vm σ :=
  match (s.promises p).outcome with
  | some o => { s with microtasks := s.microtasks ++ [.callback c (callback o)] }
  | none =>
    { s with
      promises := Function.update s.promises p
        ⟨none, (s.promises p).callbacks ++ [(c, callback)]⟩ }

/-- The function that `c` called returns or throws. -/
def settleCall (s : Vm σ) (c : Caller) (o : Outcome) : Vm σ :=
  if c ∈ s.settledCalls then
    s
  else
    { s with
      settledCalls := s.settledCalls ++ [c]
      microtasks := s.microtasks ++ [.settled c o]
      trace := s.trace ++ match o with
        | .error v => [.thrown c v]
        | .ok _ => [] }

/-- Call a function of the program. -/
def call (s : Vm σ) (c : Caller) (code : Prog σ) : Vm σ :=
  { s with stack := .code c code :: s.stack, nextNum := s.nextNum + 1 }

/-! ## Failures -/

def recordWorkflowTaskError (s : Vm σ) (c : Caller) (error : JsValue) : Vm σ :=
  -- Never called while `rethrowSynchronously` is set: that is only set between microtasks.
  { s with
    workflowTaskError := if s.workflowTaskError = .undefined then error else s.workflowTaskError
    trace := s.trace ++ [.recorded c error] }

def handleWorkflowFailure (cfg : Config σ) (s : Vm σ) (c : Caller) (error : JsValue) : Vm σ :=
  match failureAction cfg.failureTypes s.cancelled error with
  | .cancelWorkflow => s.pushCommand (.thrown c error) .cancelWorkflowExecution
  | .continueAsNew => s.pushCommand (.thrown c error) .continueAsNewWorkflowExecution
  | .failWorkflow =>
    match cfg.errorToFailure error with
    | .ok failure => s.pushCommand (.thrown c error) (.failWorkflowExecution failure)
    | .error e => s.leaveRejected e
  | .recordTaskError => s.recordWorkflowTaskError c error

def completeWorkflow (cfg : Config σ) (s : Vm σ) (c : Caller) (result : JsValue) : Vm σ :=
  match cfg.toPayload result with
  | .ok payload => s.pushCommand (.returned c) (.completeWorkflowExecution payload)
  | .error e => s.leaveRejected e

/-! ## Queries -/

/-- What a converter throws here rejects the promise of the whole chain. -/
def completeQuery (cfg : Config σ) (s : Vm σ) (queryId : String) (result : JsValue) : Vm σ :=
  match cfg.toPayload result with
  | .ok payload => s.pushCommand (.query queryId) (.respondToQuery queryId (.succeeded payload))
  | .error e => s.leaveRejected e

def failQuery (cfg : Config σ) (s : Vm σ) (queryId : String) (error : JsValue) : Vm σ :=
  match cfg.errorToFailure error with
  | .ok failure => s.pushCommand (.query queryId) (.respondToQuery queryId (.failed failure))
  | .error e => s.leaveRejected e

/-- The handler has been called: a promise that it returned is dropped, and the answer is due when the
promise of the query settles. -/
def queryWorkflow (s : Vm σ) (queryId : String) (handling : QueryHandling) : Vm σ :=
  let s := match handling.leftRejected with
    | none => s
    | some reason => s.leaveRejected reason
  match handling.answer with
  | none => s
  | some o => { s with microtasks := s.microtasks ++ [.respond queryId o] }

/-! ## Updates -/

/-- Whether a name would reach the default handler although its prefix is reserved. -/
def reservedClash (name : String) (hasHandler hasDefault : Bool) : Bool :=
  hasReservedPrefix name && !hasHandler && hasDefault

def acceptUpdate (s : Vm σ) (u : DoUpdate) : Vm σ :=
  { s with checkConditions := true }.pushCommand (.update u)
    (.updateResponse u.protocolInstanceId .accepted)

/-- `rejectUpdate`; `none` when the failure converter throws nothing. -/
def rejectUpdate (cfg : Config σ) (s : Vm σ) (origin : Origin) (protocolInstanceId : String)
    (error : JsValue) : Vm σ × Option JsValue :=
  match cfg.errorToFailure error with
  | .ok failure =>
    (s.pushCommand origin (.updateResponse protocolInstanceId (.rejected failure)), none)
  | .error e => (s, some e)

/-- The handler for an update: its own one or the default one. -/
def updateEntry (s : Vm σ) (name : String) : Option (UpdateHandler σ) :=
  match s.inbox.updateHandlers name with
  | some entry => some entry
  | none => s.inbox.defaultUpdateHandler.map fun handler => ⟨none, handler name⟩

/-- The validator that runs for `u`. -/
def validatorFor (u : DoUpdate) (entry : UpdateHandler σ) :
    Option (σ → Info → Args → Except JsValue Unit) :=
  if u.runValidator then entry.validator else none

/-- `makeInput`: decode the arguments into a new object. -/
def makeInput (cfg : Config σ) (s : Vm σ) (u : DoUpdate) : Vm σ × Except JsValue Args :=
  match cfg.arrayFromPayloads u.input with
  | .ok args => ({ s with nextObject := s.nextObject + 1 }, .ok args)
  | .error e => (s, .error e)

/-- The part of `doUpdateImpl` that may reject the update: validation and argument decoding. -/
def validate (cfg : Config σ) (s : Vm σ) (u : DoUpdate) (entry : UpdateHandler σ) :
    Vm σ × Except JsValue Args :=
  match validatorFor u entry with
  | none => s.makeInput cfg u
  | some validator =>
    match s.makeInput cfg u with
    | (s, .error e) => (s, .error e)
    | (s', .ok args) =>
      match validator s.heap s.info args with
      | .error e => (s'.note (.validated u s.nextObject), .error e)
      | .ok _ => (s'.note (.validated u s.nextObject)).makeInput cfg u

def doUpdateImpl (cfg : Config σ) (s : Vm σ) (u : DoUpdate) (entry : UpdateHandler σ) : Vm σ :=
  match s.validate cfg u entry with
  | (s, .error e) =>
    match s.rejectUpdate cfg (.update u) u.protocolInstanceId e with
    | (s, none) => s
    | (s, some e) => s.leaveRejected e
  | (s, .ok args) =>
    let s := s.acceptUpdate u
    -- The handler gets the object decoded last.
    (s.note (.updateHanded u s.nextNum (s.nextObject - 1))).call
      (.update s.nextNum u.protocolInstanceId) (entry.handler args)

def bufferUpdate (s : Vm σ) (u : DoUpdate) : Vm σ :=
  { s with inbox := { s.inbox with bufferedUpdates := s.inbox.bufferedUpdates ++ [u] } }

/-- `doUpdate`; the second component is what it throws. -/
def doUpdate (cfg : Config σ) (s : Vm σ) (u : DoUpdate) : Vm σ × Option JsValue :=
  if u.id = "" then
    (s, some (.typeError "Missing activation update id"))
  else if u.name = "" then
    (s, some (.typeError "Missing activation update name"))
  else if u.protocolInstanceId = "" then
    (s, some (.typeError "Missing activation update protocolInstanceId"))
  else if reservedClash u.name (s.inbox.updateHandlers u.name).isSome
      s.inbox.defaultUpdateHandler.isSome then
    (s, some (reservedPrefixError .update u.name))
  else
    match s.updateEntry u.name with
    | none => (s.bufferUpdate u, none)
    | some entry => (s.doUpdateImpl cfg u entry, none)

/-! ## Signals -/

/-- The function that `signalWorkflowNextHandler` calls. -/
def signalFunction (s : Vm σ) (name : String) : Option (Args → Prog σ) :=
  match s.inbox.signalHandlers name with
  | some handler => some handler
  | none => s.inbox.defaultSignalHandler.map fun handler => handler name

def bufferSignal (s : Vm σ) (sig : SignalWorkflow) : Vm σ :=
  { s with inbox := { s.inbox with bufferedSignals := s.inbox.bufferedSignals ++ [sig] } }

/-- `signalWorkflow`; the second component is what it throws.  An argument that cannot be decoded
throws before the promise chain exists. -/
def signalWorkflow (cfg : Config σ) (s : Vm σ) (sig : SignalWorkflow) : Vm σ × Option JsValue :=
  if sig.signalName = "" then
    (s, some (.typeError "Missing activation signalName"))
  else if reservedClash sig.signalName (s.inbox.signalHandlers sig.signalName).isSome
      s.inbox.defaultSignalHandler.isSome then
    (s, some (reservedPrefixError .signal sig.signalName))
  else
    match s.signalFunction sig.signalName with
    | none => (s.bufferSignal sig, none)
    | some handler =>
      match cfg.arrayFromPayloads sig.input with
      | .error e => ({ s with nextNum := s.nextNum + 1 }, some e)
      | .ok args =>
        ((s.note (.signalHanded sig s.nextNum)).call (.signal s.nextNum) (handler args), none)

/-! ## Dispatch loops -/

/-- Remove the first element that satisfies `p`: `findIndex` and `splice`. -/
def takeFirst {α : Type} (p : α → Bool) : List α → Option (α × List α)
  | [] => none
  | x :: xs => if p x then some (x, xs) else (takeFirst p xs).map fun r => (r.1, x :: r.2)

/-- The signal that an iteration of `dispatchBufferedSignals` removes from the buffer: with a default
handler the first one, else the first one with a handler. -/
def nextBufferedSignal (inbox : Inbox σ) : Option (SignalWorkflow × List SignalWorkflow) :=
  takeFirst (fun sig => inbox.defaultSignalHandler.isSome ||
    (inbox.signalHandlers sig.signalName).isSome) inbox.bufferedSignals

def nextBufferedUpdate (inbox : Inbox σ) : Option (DoUpdate × List DoUpdate) :=
  takeFirst (fun u => inbox.defaultUpdateHandler.isSome || (inbox.updateHandlers u.name).isSome)
    inbox.bufferedUpdates

/-- Go on with code of `c` in place of the frames above `rest`. -/
def continueWith (s : Vm σ) (c : Caller) (code : Prog σ) (rest : List (Frame σ)) : Vm σ :=
  { s with stack := .code c code :: rest }

/-- An iteration of `dispatchBufferedSignals`.  `s.stack` is the loop's frame on `rest`. -/
def stepDispatchSignals (cfg : Config σ) (s : Vm σ) (c : Caller) (k : Option JsValue → Prog σ)
    (rest : List (Frame σ)) : Vm σ :=
  match nextBufferedSignal s.inbox with
  | none => s.continueWith c (k none) rest
  | some (sig, remaining) =>
    match { s with inbox := { s.inbox with bufferedSignals := remaining } }.signalWorkflow cfg sig
      with
    | (s, none) => s
    | (s, some e) => s.continueWith c (k (some e)) rest

/-- An iteration of `dispatchBufferedUpdates`. -/
def stepDispatchUpdates (cfg : Config σ) (s : Vm σ) (c : Caller) (k : Option JsValue → Prog σ)
    (rest : List (Frame σ)) : Vm σ :=
  match nextBufferedUpdate s.inbox with
  | none => s.continueWith c (k none) rest
  | some (u, remaining) =>
    match { s with inbox := { s.inbox with bufferedUpdates := remaining } }.doUpdate cfg u with
    | (s, none) => s
    | (s, some e) => s.continueWith c (k (some e)) rest

/-! ## Workflow code -/

/-- `blockedConditions.set`. -/
def block (s : Vm σ) (b : BlockedCondition σ) : Vm σ :=
  { s with blockedConditions := s.blockedConditions ++ [b] }

/-- One instruction of code of `c`.  `rest` is the stack below it. -/
def stepCode (s : Vm σ) (c : Caller) (rest : List (Frame σ)) : Prog σ → Vm σ
  | .pause => { s with stack := rest }
  | .settle o => { s with stack := rest }.settleCall c o
  | .read k => s.continueWith c (k s.heap s.info) rest
  | .write heap k => { s with heap := heap }.continueWith c k rest
  | .command id k => (s.pushCommand (.code c) (.user id)).continueWith c k rest
  | .andThen p callback k => (s.andThen p c callback).continueWith c k rest
  | .settlePromise p o k => (s.settlePromise p o).continueWith c k rest
  | .condition fn p k =>
    let seq := s.nextCondition
    let s : Vm σ := { s with nextCondition := seq + 1 }
    if fn s.heap s.info then
      (s.settlePromise p (.ok .undefined)).continueWith c (k seq) rest
    else
      (s.block ⟨seq, fn, p⟩).continueWith c (k seq) rest
  | .deleteCondition seq k =>
    { s with blockedConditions := s.blockedConditions.filter fun b => b.seq != seq }.continueWith
      c k rest
  | .unhandled reason k => (s.leaveRejected reason).continueWith c k rest
  | .setSignalHandler name handler k =>
    match throwIfReservedName .signal name with
    | some e => s.continueWith c (k (some e)) rest
    | none =>
      { s with
        inbox := { s.inbox with
          signalHandlers := Function.update s.inbox.signalHandlers name (some handler) }
        stack := .dispatchSignals c k :: rest }
  | .unsetSignalHandler name k =>
    match throwIfReservedName .signal name with
    | some e => s.continueWith c (k (some e)) rest
    | none =>
      { s with
        inbox := { s.inbox with
          signalHandlers := Function.update s.inbox.signalHandlers name none } }.continueWith
        c (k none) rest
  | .setDefaultSignalHandler handler k =>
    { s with
      inbox := { s.inbox with defaultSignalHandler := some handler }
      stack := .dispatchSignals c k :: rest }
  | .unsetDefaultSignalHandler k =>
    { s with inbox := { s.inbox with defaultSignalHandler := none } }.continueWith c k rest
  | .setUpdateHandler name validator handler k =>
    match throwIfReservedName .update name with
    | some e => s.continueWith c (k (some e)) rest
    | none =>
      { s with
        inbox := { s.inbox with
          updateHandlers :=
            Function.update s.inbox.updateHandlers name (some ⟨validator, handler⟩) }
        stack := .dispatchUpdates c k :: rest }
  | .unsetUpdateHandler name k =>
    match throwIfReservedName .update name with
    | some e => s.continueWith c (k (some e)) rest
    | none =>
      { s with
        inbox := { s.inbox with
          updateHandlers := Function.update s.inbox.updateHandlers name none } }.continueWith
        c (k none) rest
  | .setDefaultUpdateHandler handler k =>
    { s with
      inbox := { s.inbox with defaultUpdateHandler := some handler }
      stack := .dispatchUpdates c k :: rest }
  | .unsetDefaultUpdateHandler k =>
    { s with inbox := { s.inbox with defaultUpdateHandler := none } }.continueWith c k rest

/-! ## Conditions -/

def unblock (s : Vm σ) (b : BlockedCondition σ) : Vm σ :=
  ({ s with blockedConditions := s.blockedConditions.filter fun b' => b'.seq != b.seq }.note
    (.unblocked b.seq)).settlePromise b.promise (.ok .undefined)

/-- One pass over the blocked conditions, and how many it unblocks. -/
def unblockPass : List (BlockedCondition σ) → Vm σ → Vm σ × Nat
  | [], s => (s, 0)
  | b :: bs, s =>
    if b.fn s.heap s.info then
      let r := unblockPass bs (s.unblock b)
      (r.1, r.2 + 1)
    else
      unblockPass bs s

/-- `maybeRethrowWorkflowTaskError`. -/
def taskError (s : Vm σ) : Option JsValue :=
  if s.workflowTaskError.isTruthy then some s.workflowTaskError else none

/-- Passes until one unblocks nothing.  A pass that unblocks something leaves fewer conditions, so
their number bounds the passes. -/
def unblockLoop : Nat → Vm σ → Except JsValue (Vm σ × Nat)
  | fuel, s =>
    match s.taskError with
    | some e => .error e
    | none =>
      if !s.checkConditions then
        .ok (s, 0)
      else
        let r := unblockPass s.blockedConditions s
        match fuel with
        | 0 => .ok r
        | fuel + 1 =>
          if r.2 = 0 then .ok r
          else (unblockLoop fuel r.1).map fun r' => (r'.1, r.2 + r'.2)

def tryUnblockConditions (s : Vm σ) : Except JsValue (Vm σ × Nat) :=
  unblockLoop s.blockedConditions.length s

/-! ## Microtasks -/

def runMicrotask (cfg : Config σ) (s : Vm σ) : Microtask σ → Vm σ
  | .callback c code => { s with stack := .code c code :: s.stack }
  | .settled (.workflow num) (.ok v) => s.completeWorkflow cfg (.workflow num) v
  | .settled (.workflow num) (.error v) => s.handleWorkflowFailure cfg (.workflow num) v
  | .settled (.signal _) (.ok _) => s
  | .settled (.signal num) (.error v) => s.handleWorkflowFailure cfg (.signal num) v
  | .settled (.update num pid) (.ok v) =>
    match cfg.toPayload v with
    | .ok payload =>
      s.pushCommand (.returned (.update num pid)) (.updateResponse pid (.completed payload))
    | .error e => { s with microtasks := s.microtasks ++ [.caught num pid e] }
  | .settled (.update num pid) (.error v) =>
    { s with microtasks := s.microtasks ++ [.caught num pid v] }
  | .caught num pid v =>
    if v.instanceOf .temporalFailure then
      match s.rejectUpdate cfg (.thrown (.update num pid) v) pid v with
      | (s, none) => s
      | (s, some e) => s.leaveRejected e
    else
      s.handleWorkflowFailure cfg (.update num pid) v
  | .respond queryId (.ok v) => s.completeQuery cfg queryId v
  | .respond queryId (.error v) => s.failQuery cfg queryId v

/-! ## Activations -/

/-- Node reports the rejected promises, each in its turn: `setUnhandledRejection`. -/
def reportRejections (s : Vm σ) : Vm σ :=
  match s.rejections.getLast? with
  | none => s
  | some reason =>
    { s with
      rejections := []
      workflowTaskError := .unhandledRejectionError reason
      unhandledRejection := .unhandledRejectionError reason }

def finish (s : Vm σ) (c : Completion) : Vm σ :=
  { s with
    stack := []
    phase := .idle
    batches := []
    trace := s.trace ++ [.completed c] }

/-- The activation throws.  Rejected promises are reported after it has completed. -/
def fail (s : Vm σ) (e : JsValue) : Vm σ :=
  (s.finish (if s.query then .rejected e else .failed e)).reportRejections

/-- `this.commands.splice(0)`. -/
def spliceCommands (s : Vm σ) : Vm σ := { s with commands := [] }

/-- The end of a non-query activation, after Node has reported the rejected promises. -/
def complete (s : Vm σ) (commands : List (Origin × Command)) : Vm σ :=
  if s.unhandledRejection.isTruthy then s.finish (.failed s.unhandledRejection)
  else s.finish (.successful commands)

/-- The end of `concludeActivation`, and of `activate` after it. -/
def succeed (s : Vm σ) : Vm σ :=
  if s.query then (s.spliceCommands.finish (.successful s.commands)).reportRejections
  else s.spliceCommands.reportRejections.complete s.commands

/-- Call `activate` in the VM for the next batch, or conclude. -/
def nextBatch (s : Vm σ) : Vm σ :=
  match s.batches with
  | [] => { s with phase := .conclude }
  | batch :: batches =>
    match batch with
    | .initializeWorkflow arguments _ :: jobs =>
      { s with phase := .jobs jobs (some arguments) jobs, batches := batches }
    | jobs => { s with phase := .jobs jobs none jobs, batches := batches }

/-- What the job's method does, and what it throws. -/
def runJob (cfg : Config σ) (s : Vm σ) : Job → Vm σ × Option JsValue
  | .initializeWorkflow _ outcome | .notifyHasPatch outcome | .updateRandomSeed outcome =>
    match outcome with
    | .ok _ => (s, none)
    | .error e => (s, some e)
  | .signalWorkflow sig => (s.note (.signalArrived sig)).signalWorkflow cfg sig
  | .doUpdate u => (s.note (.updateArrived u)).doUpdate cfg u
  | .cancelWorkflow =>
    ({ s with cancelled := true }.settlePromise rootScope (.error .cancelledFailure), none)
  | .resolve (.ok (p, o)) => (s.settlePromise p o, none)
  | .resolve (.error e) => (s, some e)
  | .queryWorkflow queryId outcome =>
    match outcome with
    | .ok handling => (s.queryWorkflow queryId handling, none)
    | .error e => (s, some e)

/-- `startWorkflow`. -/
def startWorkflow (cfg : Config σ) (s : Vm σ) (arguments : List Payload) :
    Vm σ × Option JsValue :=
  match cfg.arrayFromPayloads arguments with
  | .ok args => (s.call (.workflow s.nextNum) (cfg.workflow args), none)
  | .error e => (s, some e)

def unsafeStartError : JsValue :=
  .typeError "Received both initializeWorkflow and non-signal/non-update jobs in the same activation"

def enter (s : Vm σ) (phase : Phase) : Vm σ := { s with phase := phase }

/-- What is thrown here fails the activation. -/
def orFail (r : Vm σ × Option JsValue) : Vm σ :=
  match r.2 with
  | none => r.1
  | some e => r.1.fail e

/-- Call `tryUnblockConditions`, and go on with its result. -/
def unblocking (s : Vm σ) (k : Vm σ → Nat → Vm σ) : Vm σ :=
  match s.tryUnblockConditions with
  | .ok r => k r.1 r.2
  | .error e => s.fail e

/-- The next batch when nothing was unblocked, else more microtasks. -/
def afterOuter (s : Vm σ) (unblocked : Nat) : Vm σ :=
  if unblocked = 0 then s.nextBatch else s.enter .microtasks

def stepMicrotasks (cfg : Config σ) (s : Vm σ) : Vm σ :=
  match s.microtasks with
  | m :: microtasks => { s with microtasks := microtasks }.runMicrotask cfg m
  | [] => s.enter (if s.query then .conclude else .outer)

/-- The error with which `rejectBufferedUpdates` answers an update. -/
def noHandlerError (u : DoUpdate) : JsValue :=
  .applicationFailure ("No registered handler for update: " ++ u.name)

/-- An iteration of `rejectBufferedUpdates`, and the end of the activation after it. -/
def stepConclude (cfg : Config σ) (s : Vm σ) : Vm σ :=
  match s.inbox.bufferedUpdates with
  | [] => s.succeed
  | u :: updates =>
    orFail ({ s with inbox := { s.inbox with bufferedUpdates := updates } }.rejectUpdate cfg
      (.update u) u.protocolInstanceId (noHandlerError u))

/-- A step of `activate` when the stack is empty. -/
def stepPhase (cfg : Config σ) (s : Vm σ) : Vm σ :=
  match s.phase with
  | .idle => s
  | .jobs (job :: todo) start batch =>
    orFail ((s.enter (.unblock todo start batch)).runJob cfg job)
  | .jobs [] none _ => s.enter .microtasks
  | .jobs [] (some arguments) batch =>
    if batch.all Job.isSafeWithStart then orFail ((s.enter .started).startWorkflow cfg arguments)
    else s.fail unsafeStartError
  | .unblock todo start batch => s.unblocking fun s _ => s.enter (.jobs todo start batch)
  | .started => s.unblocking fun s _ => s.enter .microtasks
  | .microtasks => s.stepMicrotasks cfg
  | .outer => s.unblocking afterOuter
  | .queries (job :: todo) => orFail ((s.enter (.queries todo)).runJob cfg job)
  | .queries [] => s.enter .microtasks
  | .conclude => s.stepConclude cfg

def step (cfg : Config σ) (s : Vm σ) : Vm σ :=
  match s.stack with
  | [] => s.stepPhase cfg
  | .code c code :: rest => s.stepCode c rest code
  | .dispatchSignals c k :: rest => s.stepDispatchSignals cfg c k rest
  | .dispatchUpdates c k :: rest => s.stepDispatchUpdates cfg c k rest

/-- The outcome of the jobs that are handled before the first batch. -/
def prepare (jobs : List Job) : Option JsValue :=
  (jobs.find? fun
    | .initializeWorkflow _ _ => true
    | _ => false).toList ++ jobs.filter Job.isPatch |>.findSome? fun
      | .initializeWorkflow _ (.error e) => some e
      | .notifyHasPatch (.error e) => some e
      | _ => none

/-- The batches of an activation.  In a single batch only the last `updateRandomSeed` counts, and it
is handled before the batch. -/
def batchesOf (a : WorkflowActivation) : List (List Job) :=
  let nonPatches := a.jobs.filter fun job => !job.isPatch
  if a.singleBatch || !a.jobs.any Job.isSignal then
    [nonPatches.filter fun job => !job.isRandomSeed]
  else
    [nonPatches.filter Job.isSignal, nonPatches.filter fun job => !job.isSignal].filter
      fun batch => !batch.isEmpty

/-- The error of `updateRandomSeed` before a single batch. -/
def seedError (a : WorkflowActivation) : Option JsValue :=
  if a.singleBatch || !a.jobs.any Job.isSignal then
    match (a.jobs.filter Job.isRandomSeed).getLast? with
    | some (.updateRandomSeed (.error e)) => some e
    | _ => none
  else
    none

def beginQueries (s : Vm σ) (jobs : List Job) : Vm σ :=
  { s with
    query := true
    info := { s.info with isReplaying := true }
    phase := .queries jobs
    trace := s.trace ++ [.activated true] }

/-- What is set before a non-query activation is processed. -/
def begin (s : Vm σ) (a : WorkflowActivation) : Vm σ :=
  { s with
    query := false
    info := a.info
    checkConditions := a.jobs.any fun job => !job.isUpdate
    trace := s.trace ++ [.activated false] }

def mixedQueriesError : JsValue :=
  .typeError "Got both queries and other jobs in a single activation"

/-- `BaseVMWorkflow.activate`, up to the first batch. -/
def activate (s : Vm σ) (a : WorkflowActivation) : Vm σ :=
  if a.jobs.any Job.isQuery then
    if a.jobs.all Job.isQuery then s.beginQueries a.jobs
    else ({ s with query := false }.note (.activated true)).fail mixedQueriesError
  else
    match prepare a.jobs, seedError a with
    | some e, _ => (s.begin a).fail e
    | none, some e => (s.begin a).fail e
    | none, none => { s.begin a with batches := batchesOf a }.nextBatch

end Vm

/-! ## Runs -/

inductive Input
  | activate (a : WorkflowActivation)
  | tick

/-- An activation is only handled when the one before it has completed. -/
def next (cfg : Config σ) (s : Vm σ) : Input → Vm σ
  | .tick => s.step cfg
  | .activate a =>
    match s.phase, s.stack with
    | .idle, [] => s.activate a
    | _, _ => s

end TemporalSdk.Activation
