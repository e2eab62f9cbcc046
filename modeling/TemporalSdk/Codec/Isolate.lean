import TemporalSdk.Codec.Exchange

/-!
# Isolate — the converters inside of the isolate

The part of the `Activator`, and of the functions of the workflow API that push commands, that decides
about serialization contexts.  A value becomes a payload together with the context that the converter
was given; a payload of a job that is converted is recorded with the context that it is converted with.

`V` is the type of values.  Values that do not go through the workflow's own converters are marked as
skipped: headers are the business of interceptors, the labels of event groups and search attributes have
a fixed converter that takes no context.
-/

namespace TemporalSdk.Codec

/-- A payload and the converter's pass over it. -/
structure Converted (V : Type) where
  value : V
  converter : Pass
  deriving DecidableEq

/-- A payload of a job, when the isolate converts it. -/
structure Conversion (V : Type) where
  field : Field
  payload : Coded (Converted V)
  context : Option SerializationContext
  deriving DecidableEq

/-- The tables of `completions` that have contexts. -/
inductive CompletionKind
  | activity
  | childWorkflowStart
  | childWorkflowComplete
  | signalWorkflow
  | cancelWorkflow
  | nexusOperationStart
  | nexusOperationComplete
  deriving DecidableEq

def CompletionKind.kind : CompletionKind → OperationKind
  | .activity => .activity
  | .childWorkflowStart => .childWorkflow
  | .childWorkflowComplete => .childWorkflow
  | .signalWorkflow => .signalWorkflow
  | .cancelWorkflow => .cancelWorkflow
  | .nexusOperationStart => .nexusOperation
  | .nexusOperationComplete => .nexusOperation

/-- An entry of `systemNexusOperationContexts`. -/
structure SystemNexus where
  service : String
  operation : Option String
  context : Option SerializationContext
  deriving DecidableEq

structure Isolate (V : Type) where
  ns : String
  workflowId : String
  initialized : Bool
  nextTimerSeq : Nat
  nextSeqs : OperationKind → Nat
  timers : Nat → Bool
  completions : CompletionKind → Nat → Option (Option SerializationContext)
  systemNexusOperationContexts : Nat → Option SystemNexus
  nexusSerializationContext : Option SerializationContext
  commands : List (Command (Converted V))
  conversions : List (Conversion V)

/-- The request of a `SignalWithStartWorkflowExecution` operation. -/
structure SignalWithStartWorkflowRequest (V : Type) where
  ns : Option String
  id : String
  values : List V
  headers : List V

/-- The input of a Nexus operation, and the same read as a request of the System Nexus operation. -/
structure OperationInput (V : Type) where
  value : V
  request : SignalWithStartWorkflowRequest V

/-- What the workflow can do that pushes a command.  `refused` says that none is pushed after the
sequence number is taken: the scope is cancelled, the options are not valid, or a value cannot be
converted. -/
inductive Api (V : Type)
  | sleep (summary groups : List V) (refused : Bool)
  | scheduleActivity (activityId : Option String) (args headers summary groups : List V)
      (refused : Bool)
  | scheduleLocalActivity (args headers summary groups : List V) (refused : Bool)
  | startChildWorkflowExecution (workflowId : String)
      (args headers memo searchAttributes summary groups : List V) (refused : Bool)
  | signalExternal (workflowId : String) (args headers groups : List V) (refused : Bool)
  | signalChild (childWorkflowId : String) (args headers groups : List V) (refused : Bool)
  | cancelExternal (workflowId : String) (groups : List V)
  | startOperation (endpoint service : String) (operation : Option String)
      (input : OperationInput V) (summary groups : List V) (refused : Bool)
  | cancelTimer (seq : Nat) (groups : List V)
  | cancelActivity (seq : Nat) (groups : List V)
  | cancelLocalActivity (seq : Nat)
  | cancelChildWorkflow (seq : Nat) (groups : List V)
  | cancelSignal (seq : Nat)
  | cancelOperation (seq : Nat) (groups : List V)
  | upsertMemo (memo groups : List V)
  | upsertSearchAttributes (searchAttributes groups : List V)
  | completeQuery (queryId : String) (result : V)
  | failQuery (queryId : String) (failure : List V)
  | acceptUpdate (protocolInstanceId : String)
  | completeUpdate (protocolInstanceId : String) (result : V)
  | rejectUpdate (protocolInstanceId : String) (failure : List V)
  | completeWorkflow (result : V)
  | failWorkflow (failure : List V)
  | continueAsNew (args headers memo searchAttributes groups : List V)
  | cancelWorkflowExecution

/-! ## Payloads -/

/-- Values that the workflow's converter makes payloads of. -/
def toPayloads {V : Type} (field : Field) (context : SerializationContext) (values : List V) :
    List (Field × Converted V) :=
  values.map fun v => (field, ⟨v, .ran context⟩)

/-- Values that become payloads in another way. -/
def otherPayloads {V : Type} (field : Field) (values : List V) : List (Field × Converted V) :=
  values.map fun v => (field, ⟨v, .skipped⟩)

namespace Isolate

variable {V : Type}

def init (V : Type) (ns workflowId : String) : Isolate V :=
  ⟨ns, workflowId, false, 1, fun _ => 1, fun _ => false, fun _ _ => none, fun _ => none, none, [], []⟩

def workflowSerializationContext (s : Isolate V) : SerializationContext :=
  .workflow s.ns s.workflowId

def targetWorkflowSerializationContext (s : Isolate V) (workflowId : String) :
    SerializationContext :=
  .workflow s.ns workflowId

def activitySerializationContext (s : Isolate V) (activityId : String) (isLocal : Bool) :
    SerializationContext :=
  .activity s.ns (some s.workflowId) (some activityId) isLocal

/-- The context of the workflow's result and closing failure. -/
def resultSerializationContext (s : Isolate V) : SerializationContext :=
  s.nexusSerializationContext.getD s.workflowSerializationContext

def signalWithStartWorkflowSerializationContext (s : Isolate V)
    (request : SignalWithStartWorkflowRequest V) : SerializationContext :=
  .workflow (request.ns.getD s.ns) request.id

def takeSeq (s : Isolate V) (k : OperationKind) : Isolate V :=
  { s with nextSeqs := fun k' => if k' = k then s.nextSeqs k + 1 else s.nextSeqs k' }

def pushCommand (s : Isolate V) (command : Command (Converted V)) : Isolate V :=
  { s with commands := s.commands ++ [command] }

def setCompletion (s : Isolate V) (k : CompletionKind) (seq : Nat)
    (completion : Option (Option SerializationContext)) : Isolate V :=
  { s with completions := setAt s.completions k seq completion }

def setSystemNexus (s : Isolate V) (seq : Nat) (systemNexus : Option SystemNexus) : Isolate V :=
  { s with
    systemNexusOperationContexts := fun n =>
      if n = seq then systemNexus else s.systemNexusOperationContexts n }

/-! ## Commands -/

def scheduleActivityCommand (s : Isolate V) (seq : Nat) (activityId : String)
    (args headers summary groups : List V) : Command (Converted V) :=
  let context := s.activitySerializationContext activityId false
  ⟨.scheduleActivity seq activityId,
    toPayloads .arguments context args ++ otherPayloads .headers headers ++
      toPayloads .userMetadata context summary ++ otherPayloads .eventGroupMarkers groups⟩

def scheduleActivityNextHandler (s : Isolate V) (seq : Nat) (activityId : Option String)
    (args headers summary groups : List V) : Isolate V :=
  let activityId := activityId.getD (toString seq)
  let context := s.activitySerializationContext activityId false
  (s.pushCommand (s.scheduleActivityCommand seq activityId args headers summary groups)
    ).setCompletion .activity seq (some context)

def scheduleLocalActivityCommand (s : Isolate V) (seq : Nat) (activityId : String)
    (args headers summary groups : List V) : Command (Converted V) :=
  let context := s.activitySerializationContext activityId true
  ⟨.scheduleLocalActivity seq activityId,
    toPayloads .arguments context args ++ otherPayloads .headers headers ++
      toPayloads .userMetadata context summary ++ otherPayloads .eventGroupMarkers groups⟩

def scheduleLocalActivityNextHandler (s : Isolate V) (seq : Nat)
    (args headers summary groups : List V) : Isolate V :=
  let activityId := toString seq
  let context := s.activitySerializationContext activityId true
  (s.pushCommand (s.scheduleLocalActivityCommand seq activityId args headers summary groups)
    ).setCompletion .activity seq (some context)

def startChildWorkflowExecutionNextHandler (s : Isolate V) (seq : Nat) (workflowId : String)
    (args headers memo searchAttributes summary groups : List V) (refused : Bool) : Isolate V :=
  let context := s.targetWorkflowSerializationContext workflowId
  let s :=
    if refused then s
    else
      (s.pushCommand ⟨.startChildWorkflowExecution seq s.ns workflowId,
        toPayloads .arguments context args ++ otherPayloads .headers headers ++
          toPayloads .memo context memo ++ otherPayloads .searchAttributes searchAttributes ++
          toPayloads .userMetadata context summary ++ otherPayloads .eventGroupMarkers groups⟩
        ).setCompletion .childWorkflowStart seq (some context)
  -- The completion is registered even if the child is not started.
  s.setCompletion .childWorkflowComplete seq (some context)

def signalWorkflowNextHandler (s : Isolate V) (seq : Nat) (target : SignalTarget)
    (targetWorkflowId : String) (args headers groups : List V) : Isolate V :=
  let context := s.targetWorkflowSerializationContext targetWorkflowId
  (s.pushCommand ⟨.signalExternalWorkflowExecution seq target,
    toPayloads .arguments context args ++ otherPayloads .headers headers ++
      otherPayloads .eventGroupMarkers groups⟩
    ).setCompletion .signalWorkflow seq (some context)

def temporalSystemNexusEndpoint : String := "__temporal_system"

/-- Both branches of `serializeNexusOperation`; nothing is pushed for a System Nexus operation that is
not in the registry. -/
def startNexusOperationNextHandler (s : Isolate V) (seq : Nat) (endpoint service : String)
    (operation : Option String) (input : OperationInput V) (summary groups : List V) : Isolate V :=
  let nexusContext : SerializationContext := .nexus endpoint service operation
  let userMetadata := toPayloads .userMetadata s.workflowSerializationContext summary
  if endpoint ≠ temporalSystemNexusEndpoint then
    (s.pushCommand ⟨.scheduleNexusOperation seq endpoint service operation .payload,
      toPayloads .input nexusContext [input.value] ++ userMetadata ++
        otherPayloads .eventGroupMarkers groups⟩
      ).setCompletion .nexusOperationStart seq (some nexusContext)
  else if Runner.operationDefinition service operation then
    let context := s.signalWithStartWorkflowSerializationContext input.request
    let s := s.pushCommand
      ⟨.scheduleNexusOperation seq endpoint service operation (.systemEnvelope (some context)),
        otherPayloads .input [input.value] ++ toPayloads .nested context input.request.values ++
          toPayloads .nestedHeaders context input.request.headers ++ userMetadata ++
          otherPayloads .eventGroupMarkers groups⟩
    (s.setSystemNexus seq (some ⟨service, operation, some context⟩)).setCompletion
      .nexusOperationStart seq (some (some context))
  else s

/-- A cancellation handler of a scope: it pushes its command if the operation is still to be resolved. -/
def cancelIf (s : Isolate V) (pending : Bool) (v : CommandVariant) (groups : List V) : Isolate V :=
  if pending then s.pushCommand ⟨v, otherPayloads .eventGroupMarkers groups⟩ else s

def call (s : Isolate V) : Api V → Isolate V
  | .sleep summary groups refused =>
    let seq := s.nextTimerSeq
    let s := { s with nextTimerSeq := seq + 1 }
    if refused then s
    else
      { s.pushCommand ⟨.startTimer seq,
          toPayloads .userMetadata s.workflowSerializationContext summary ++
            otherPayloads .eventGroupMarkers groups⟩ with
        timers := fun n => if n = seq then true else s.timers n }
  | .scheduleActivity activityId args headers summary groups refused =>
    let seq := s.nextSeqs .activity
    let s := s.takeSeq .activity
    if refused then s
    else s.scheduleActivityNextHandler seq activityId args headers summary groups
  | .scheduleLocalActivity args headers summary groups refused =>
    let seq := s.nextSeqs .activity
    let s := s.takeSeq .activity
    if refused then s
    else s.scheduleLocalActivityNextHandler seq args headers summary groups
  | .startChildWorkflowExecution workflowId args headers memo searchAttributes summary groups
      refused =>
      let seq := s.nextSeqs .childWorkflow
      let s := s.takeSeq .childWorkflow
      s.startChildWorkflowExecutionNextHandler seq workflowId args headers memo searchAttributes
        summary groups refused
  | .signalExternal workflowId args headers groups refused =>
    let seq := s.nextSeqs .signalWorkflow
    let s := s.takeSeq .signalWorkflow
    if refused then s
    else s.signalWorkflowNextHandler seq (.external s.ns workflowId) workflowId args headers groups
  | .signalChild childWorkflowId args headers groups refused =>
    let seq := s.nextSeqs .signalWorkflow
    let s := s.takeSeq .signalWorkflow
    if refused then s
    else
      s.signalWorkflowNextHandler seq (.child childWorkflowId) childWorkflowId args headers groups
  | .cancelExternal workflowId groups =>
    let seq := s.nextSeqs .cancelWorkflow
    let s := s.takeSeq .cancelWorkflow
    (s.pushCommand ⟨.requestCancelExternalWorkflowExecution seq s.ns workflowId,
      otherPayloads .eventGroupMarkers groups⟩).setCompletion .cancelWorkflow seq
      (some (s.targetWorkflowSerializationContext workflowId))
  | .startOperation endpoint service operation input summary groups refused =>
    let seq := s.nextSeqs .nexusOperation
    let s := s.takeSeq .nexusOperation
    if refused then s
    else s.startNexusOperationNextHandler seq endpoint service operation input summary groups
  | .cancelTimer seq groups =>
    { s.cancelIf (s.timers seq) (.cancelTimer seq) groups with
      timers := fun n => if n = seq then false else s.timers n }
  | .cancelActivity seq groups =>
    s.cancelIf (s.completions .activity seq).isSome (.requestCancelActivity seq) groups
  | .cancelLocalActivity seq =>
    s.cancelIf (s.completions .activity seq).isSome (.requestCancelLocalActivity seq) []
  | .cancelChildWorkflow seq groups =>
    s.cancelIf (s.completions .childWorkflowComplete seq).isSome
      (.cancelChildWorkflowExecution seq) groups
  | .cancelSignal seq =>
    s.cancelIf (s.completions .signalWorkflow seq).isSome (.cancelSignalWorkflow seq) []
  | .cancelOperation seq groups =>
    s.cancelIf ((s.completions .nexusOperationStart seq).isSome ∨
      (s.completions .nexusOperationComplete seq).isSome) (.requestCancelNexusOperation seq) groups
  | .upsertMemo memo groups =>
    s.pushCommand ⟨.modifyWorkflowProperties,
      toPayloads .memo s.workflowSerializationContext memo ++
        otherPayloads .eventGroupMarkers groups⟩
  | .upsertSearchAttributes searchAttributes groups =>
    s.pushCommand ⟨.upsertWorkflowSearchAttributes,
      otherPayloads .searchAttributes searchAttributes ++ otherPayloads .eventGroupMarkers groups⟩
  | .completeQuery queryId result =>
    s.pushCommand ⟨.respondToQuery queryId,
      toPayloads .result s.workflowSerializationContext [result]⟩
  | .failQuery queryId failure =>
    s.pushCommand ⟨.respondToQuery queryId,
      toPayloads .failure s.workflowSerializationContext failure⟩
  | .acceptUpdate protocolInstanceId => s.pushCommand ⟨.updateResponse protocolInstanceId, []⟩
  | .completeUpdate protocolInstanceId result =>
    s.pushCommand ⟨.updateResponse protocolInstanceId,
      toPayloads .result s.workflowSerializationContext [result]⟩
  | .rejectUpdate protocolInstanceId failure =>
    s.pushCommand ⟨.updateResponse protocolInstanceId,
      toPayloads .failure s.workflowSerializationContext failure⟩
  | .completeWorkflow result =>
    s.pushCommand ⟨.completeWorkflowExecution,
      toPayloads .result s.resultSerializationContext [result]⟩
  | .failWorkflow failure =>
    s.pushCommand ⟨.failWorkflowExecution,
      toPayloads .failure s.resultSerializationContext failure⟩
  | .continueAsNew args headers memo searchAttributes groups =>
    s.pushCommand ⟨.continueAsNewWorkflowExecution,
      toPayloads .arguments s.workflowSerializationContext args ++ otherPayloads .headers headers ++
        toPayloads .memo s.workflowSerializationContext memo ++
        otherPayloads .searchAttributes searchAttributes ++
        otherPayloads .eventGroupMarkers groups⟩
  | .cancelWorkflowExecution => s.pushCommand ⟨.cancelWorkflowExecution, []⟩

/-! ## Jobs -/

/-- Convert the payloads of a job that a field holds. -/
def convert (s : Isolate V) (job : Job (Coded (Converted V))) (field : Field)
    (context : Option SerializationContext) : Isolate V :=
  { s with
    conversions := s.conversions ++
      (job.payloads.filter fun entry => entry.1 = field).map fun entry =>
        ⟨entry.1, entry.2, context⟩ }

/-- `consumeCompletion`: without a completion it throws, and nothing further is done for the job. -/
def consumeCompletion (s : Isolate V) (k : CompletionKind) (seq : Nat)
    (resolve : Isolate V → Option SerializationContext → Isolate V) : Isolate V :=
  match s.completions k seq with
  | none => s
  | some context => resolve (s.setCompletion k seq none) context

/-- The completion that `resolveNexusOperation` consumes: that of the start, if the operation is resolved
without one. -/
def consumeNexusCompletion (s : Isolate V) (seq : Nat)
    (resolve : Isolate V → Option SerializationContext → Isolate V) : Isolate V :=
  match s.completions .nexusOperationStart seq with
  | some context => resolve (s.setCompletion .nexusOperationStart seq none) context
  | none => s.consumeCompletion .nexusOperationComplete seq resolve

/-- `isSystemNexusOperation`. -/
def isSystemNexusOperation : Option SystemNexus → Bool
  | none => false
  | some systemNexus => Runner.operationDefinition systemNexus.service systemNexus.operation

def handle (s : Isolate V) (job : Job (Coded (Converted V))) : Isolate V :=
  match job.variant with
  | .initializeWorkflow propagated =>
    let s := { s with
      initialized := true
      nexusSerializationContext := nexusSerializationContextFromProto propagated }
    let s := s.convert job .memo (some s.workflowSerializationContext)
    let s := s.convert job .lastCompletionResult (some s.resultSerializationContext)
    let s := s.convert job .continuedFailure (some s.resultSerializationContext)
    s.convert job .arguments (some s.workflowSerializationContext)
  | .fireTimer seq => { s with timers := fun n => if n = seq then false else s.timers n }
  | .resolveActivity seq result =>
    s.consumeCompletion .activity seq fun s context =>
      match result with
      | .completed => s.convert job .result context
      | .failed => s.convert job .failure context
      | .cancelled => s.convert job .failure context
      | .backoff => s
  | .resolveChildWorkflowExecutionStart seq status =>
    s.consumeCompletion .childWorkflowStart seq fun s context =>
      match status with
      | .succeeded => s
      | .failed => s.setCompletion .childWorkflowComplete seq none
      | .cancelled =>
        (s.convert job .failure context).setCompletion .childWorkflowComplete seq none
  | .resolveChildWorkflowExecution seq result =>
    s.consumeCompletion .childWorkflowComplete seq fun s context =>
      match result with
      | .completed => s.convert job .result context
      | .failed => s.convert job .failure context
      | .cancelled => s.convert job .failure context
  | .resolveSignalExternalWorkflow seq =>
    s.consumeCompletion .signalWorkflow seq fun s context => s.convert job .failure context
  | .resolveRequestCancelExternalWorkflow seq =>
    s.consumeCompletion .cancelWorkflow seq fun s context => s.convert job .failure context
  | .resolveNexusOperationStart seq status =>
    s.consumeCompletion .nexusOperationStart seq fun s context =>
      match status with
      | .failed =>
        s.convert job .failure (some (context.getD s.workflowSerializationContext))
      | .operationToken => s.setCompletion .nexusOperationComplete seq (some context)
      | .startedSync => s.setCompletion .nexusOperationComplete seq (some context)
  | .resolveNexusOperation seq result =>
    let systemNexus := s.systemNexusOperationContexts seq
    let s := s.setSystemNexus seq none
    s.consumeNexusCompletion seq fun s context =>
      match result with
      | .completed =>
        -- `deserializeSystemNexusOutput` converts what is inside of the envelope.
        if isSystemNexusOperation systemNexus then
          (s.convert job .nested (systemNexus.bind (·.context))).convert job .nestedHeaders
            (systemNexus.bind (·.context))
        else s.convert job .result context
      | .failed | .cancelled | .timedOut =>
        s.convert job .failure (some (context.getD s.workflowSerializationContext))
  | .signalWorkflow | .queryWorkflow | .doUpdate =>
    s.convert job .arguments (some s.workflowSerializationContext)
  | .cancelWorkflow | .updateRandomSeed | .notifyHasPatch => s

end Isolate

end TemporalSdk.Codec
