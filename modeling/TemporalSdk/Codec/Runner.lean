import TemporalSdk.Codec.Messages

/-!
# Runner — `WorkflowCodecRunner`

One runner per workflow run.  It derives the context of every payload of a completion from the command
that holds it, and remembers the contexts of scheduled operations until jobs resolve them.  What the
codecs do to a payload is left open: the result of a visit is the payload with the context of the pass.
-/

namespace TemporalSdk.Codec

/-- The tables of `pendingCompletionContexts`. -/
inductive Table
  | activity
  | childWorkflowStart
  | childWorkflowComplete
  | signalWorkflow
  | cancelWorkflow
  | nexusOperation
  deriving DecidableEq

/-- The kind of the operations that a table is for. -/
def Table.kind : Table → OperationKind
  | .activity => .activity
  | .childWorkflowStart => .childWorkflow
  | .childWorkflowComplete => .childWorkflow
  | .signalWorkflow => .signalWorkflow
  | .cancelWorkflow => .cancelWorkflow
  | .nexusOperation => .nexusOperation

/-- Only entries of `nexusOperation` can be of System Nexus operations. -/
inductive PendingKind
  | ordinary
  | systemNexus (service operation : Option String)
  deriving DecidableEq

structure PendingContext where
  kind : PendingKind
  context : SerializationContext
  deriving DecidableEq

def PendingContext.isSystem (pending : PendingContext) : Bool :=
  pending.kind ≠ .ordinary

structure Runner where
  ns : String
  workflowId : String
  codecHeaders : Bool
  nexusContext : Option SerializationContext
  pendingCompletionContexts : Table → Nat → Option PendingContext

namespace Runner

def init (ns workflowId : String) (codecHeaders : Bool) : Runner :=
  ⟨ns, workflowId, codecHeaders, none, fun _ _ => none⟩

def workflowContext (r : Runner) : SerializationContext := .workflow r.ns r.workflowId

/-- `Map.set` and `Map.delete` on one of the tables. -/
def setPending (r : Runner) (table : Table) (seq : Nat) (pending : Option PendingContext) : Runner :=
  { r with pendingCompletionContexts := setAt r.pendingCompletionContexts table seq pending }

@[simp] theorem setPending_pendingCompletionContexts (r : Runner) (table : Table) (seq : Nat)
    (pending : Option PendingContext) :
    (r.setPending table seq pending).pendingCompletionContexts =
      setAt r.pendingCompletionContexts table seq pending := rfl

def consumeContext (r : Runner) (table : Table) (seq : Nat) : Option PendingContext × Runner :=
  match r.pendingCompletionContexts table seq with
  | none => (none, r)
  | some pending => (some pending, r.setPending table seq none)

/-! ## Contexts of commands -/

/-- `command.activityId || undefined`. -/
def activityContext (r : Runner) (activityId : String) (isLocal : Bool) : SerializationContext :=
  .activity r.ns (some r.workflowId) (if activityId = "" then none else some activityId) isLocal

def nexusOperationContext (endpoint service : String) (operation : Option String)
    (isSystemNexus : Bool) : Option SerializationContext :=
  if isSystemNexus then none else some (.nexus endpoint service (some (operation.getD "")))

/-- `command.namespace || this.workflowContext.namespace`. -/
def namespaceOr (r : Runner) (ns : String) : String := if ns = "" then r.ns else ns

def childWorkflowContext (r : Runner) (ns workflowId : String) : SerializationContext :=
  .workflow (r.namespaceOr ns) workflowId

def externalWorkflowContext (r : Runner) : SignalTarget → SerializationContext
  | .external ns workflowId => .workflow (r.namespaceOr ns) workflowId
  | .child childWorkflowId => .workflow r.ns childWorkflowId

/-! ## `encodeCompletion` -/

/-- `isSystemNexusEnvelope`. -/
def isSystemNexus : NexusInput → Bool
  | .payload => false
  | .systemEnvelope _ => true

/-- The context that `deriveContext` returns for a `WorkflowCommand`. -/
def userMetadataContext (r : Runner) : CommandVariant → SerializationContext
  | .scheduleActivity _ activityId => r.activityContext activityId false
  | .scheduleLocalActivity _ activityId => r.activityContext activityId true
  | .startChildWorkflowExecution _ ns workflowId => r.childWorkflowContext ns workflowId
  | _ => r.workflowContext

/-- The context that `deriveContext` returns for the message of a variant. -/
def variantContext (r : Runner) (v : CommandVariant) : SerializationContext :=
  let context := r.userMetadataContext v
  match v with
  | .scheduleActivity _ activityId => r.activityContext activityId false
  | .scheduleLocalActivity _ activityId => r.activityContext activityId true
  | .startChildWorkflowExecution _ ns workflowId => r.childWorkflowContext ns workflowId
  | .scheduleNexusOperation _ endpoint service operation input =>
    (nexusOperationContext endpoint service operation (isSystemNexus input)).getD context
  | .completeWorkflowExecution => r.nexusContext.getD context
  | .failWorkflowExecution => r.nexusContext.getD context
  | .signalExternalWorkflowExecution _ target => r.externalWorkflowContext target
  | _ => context

/-- The context of the payloads inside of an envelope, in `encodeSystemNexusInput`. -/
def envelopeContext (r : Runner) : CommandVariant → SerializationContext
  | .scheduleNexusOperation _ _ _ _ (.systemEnvelope context) => context.getD r.workflowContext
  | _ => r.workflowContext

/-- What the codecs do to the payloads of a command. -/
def commandPass (r : Runner) (v : CommandVariant) : Field → Pass
  | .headers => if r.codecHeaders then .ran (r.variantContext v) else .skipped
  | .searchAttributes => .skipped
  | .userMetadata => .ran (r.userMetadataContext v)
  | .eventGroupMarkers => .ran (r.userMetadataContext v)
  -- The envelope is taken out before the visit; what it holds is visited on its own.
  | .input =>
    match v with
    | .scheduleNexusOperation _ _ _ _ (.systemEnvelope _) => .skipped
    | _ => .ran (r.variantContext v)
  | .nested => .ran (r.envelopeContext v)
  | .nestedHeaders => if r.codecHeaders then .ran (r.envelopeContext v) else .skipped
  | _ => .ran (r.variantContext v)

/-- What `deriveContext` puts into the tables for a `WorkflowCommand`. -/
def rememberCommand (r : Runner) : CommandVariant → Runner
  | .scheduleActivity seq activityId =>
    r.setPending .activity seq (some ⟨.ordinary, r.activityContext activityId false⟩)
  | .scheduleLocalActivity seq activityId =>
    r.setPending .activity seq (some ⟨.ordinary, r.activityContext activityId true⟩)
  | .startChildWorkflowExecution seq ns workflowId =>
    let pending : PendingContext := ⟨.ordinary, r.childWorkflowContext ns workflowId⟩
    (r.setPending .childWorkflowStart seq (some pending)).setPending .childWorkflowComplete seq
      (some pending)
  | .scheduleNexusOperation seq endpoint service operation input =>
    match nexusOperationContext endpoint service operation (isSystemNexus input) with
    | some context => r.setPending .nexusOperation seq (some ⟨.ordinary, context⟩)
    | none => r
  | .signalExternalWorkflowExecution seq target =>
    r.setPending .signalWorkflow seq (some ⟨.ordinary, r.externalWorkflowContext target⟩)
  | .requestCancelExternalWorkflowExecution seq ns workflowId =>
    r.setPending .cancelWorkflow seq
      (some ⟨.ordinary, r.externalWorkflowContext (.external ns workflowId)⟩)
  | _ => r

/-- What the loop over the system inputs puts into the tables. -/
def rememberSystemInput (r : Runner) (v : CommandVariant) : Runner :=
  match v with
  | .scheduleNexusOperation seq _ service operation (.systemEnvelope _) =>
    r.setPending .nexusOperation seq
      (some ⟨.systemNexus (some service) operation, r.envelopeContext v⟩)
  | _ => r

/-- `operationRegistry`: its operations all have a `serializationContext`. -/
def operationRegistry : List (String × String) :=
  [("temporal.api.workflowservice.v1.WorkflowService", "SignalWithStartWorkflowExecution")]

def operationDefinition (service : String) (operation : Option String) : Bool :=
  operationRegistry.any fun entry => entry.1 = service ∧ some entry.2 = operation

/-- Whether `encodeSystemNexusInput` accepts an envelope: the operation is a known one and the metadata
has its context. -/
def acceptsInput : CommandVariant → Bool
  | .scheduleNexusOperation _ _ service operation (.systemEnvelope context) =>
    operationDefinition service operation ∧ context.isSome
  | _ => true

def encodeCommand {P : Type} (r : Runner) (command : Command P) : Command (Coded P) :=
  command.visit (r.commandPass command.variant)

/-- `none` when an envelope is not accepted: the call rejects, and the workflow task fails. -/
def encodeCompletion {P : Type} (r : Runner) (commands : List (Command P)) :
    Option (Runner × List (Command (Coded P))) :=
  let visited := commands.foldl (fun r command => r.rememberCommand command.variant) r
  if commands.all fun command => acceptsInput command.variant then
    some (commands.foldl (fun r command => r.rememberSystemInput command.variant) visited,
      commands.map r.encodeCommand)
  else none

/-! ## `decodeActivation` -/

/-- The job that initializes the workflow, if there is one, sets the Nexus context. -/
def setNexusContext {P : Type} (r : Runner) (jobs : List (Job P)) : Runner :=
  match jobs.findSome? fun job => job.variant.initializes with
  | some propagated =>
    { r with nexusContext := nexusSerializationContextFromProto propagated }
  | none => r

/-- What the loop over the jobs takes for one of them: the entry of a System Nexus operation that the
job resolves. -/
def systemInfo (r : Runner) : JobVariant → Option PendingContext
  | .resolveNexusOperation seq _ =>
    (r.pendingCompletionContexts .nexusOperation seq).filter PendingContext.isSystem
  | _ => none

def takeSystemInfo (r : Runner) (v : JobVariant) : Runner :=
  match v, r.systemInfo v with
  | .resolveNexusOperation seq _, some _ => r.setPending .nexusOperation seq none
  | _, _ => r

/-- The loop before the visit: what it takes for each of the jobs, and the runner after it. -/
def takeSystemInfos {P : Type} (r : Runner) :
    List (Job P) → List (Job P × Option PendingContext) × Runner
  | [] => ([], r)
  | job :: jobs =>
    let rest := (r.takeSystemInfo job.variant).takeSystemInfos jobs
    ((job, r.systemInfo job.variant) :: rest.1, rest.2)

/-- `systemResultContexts`. -/
def systemResultContext {P : Type} (infos : List (Job P × Option PendingContext)) (seq : Nat) :
    Option SerializationContext :=
  infos.reverse.findSome? fun entry =>
    match entry.1.variant, entry.2 with
    | .resolveNexusOperation seq' _, some info => if seq' = seq then some info.context else none
    | _, _ => none

/-- `deriveContext` for a job. -/
def jobContext (r : Runner) (systemResult : Nat → Option SerializationContext) :
    JobVariant → Option SerializationContext × Runner
  | .resolveActivity seq _ =>
    let (pending, r) := r.consumeContext .activity seq
    (pending.map (·.context), r)
  | .resolveChildWorkflowExecution seq _ =>
    let (pending, r) := r.consumeContext .childWorkflowComplete seq
    (pending.map (·.context), r)
  | .resolveChildWorkflowExecutionStart seq _ =>
    let (pending, r) := r.consumeContext .childWorkflowStart seq
    (pending.map (·.context), r)
  | .resolveSignalExternalWorkflow seq =>
    let (pending, r) := r.consumeContext .signalWorkflow seq
    (pending.map (·.context), r)
  | .resolveRequestCancelExternalWorkflow seq =>
    let (pending, r) := r.consumeContext .cancelWorkflow seq
    (pending.map (·.context), r)
  | .resolveNexusOperationStart seq status =>
    let pending := r.pendingCompletionContexts .nexusOperation seq
    -- A failed start is terminal; any other leaves the entry to the resolution.
    (some ((pending.map (·.context)).getD r.workflowContext),
      if status = .failed then r.setPending .nexusOperation seq none else r)
  | .resolveNexusOperation seq _ =>
    match systemResult seq with
    | some context => (some context, r)
    | none =>
      let (pending, r) := r.consumeContext .nexusOperation seq
      (some ((pending.map (·.context)).getD r.workflowContext), r)
  | _ => (some r.workflowContext, r)

/-- What the codecs do to the payloads of a job that is visited with `context`. -/
def jobPass (r : Runner) (context : Option SerializationContext) (info : Option PendingContext) :
    Field → Pass
  | .headers => if r.codecHeaders then .ran context else .skipped
  | .searchAttributes => .skipped
  -- The outcome of the previous run is split off and visited with the Nexus context, if there is one.
  | .continuedFailure => .ran (r.nexusContext.or context)
  | .lastCompletionResult => .ran (r.nexusContext.or context)
  -- The envelope of a System Nexus operation is split off: what it holds is visited on its own.
  | .result => if info.isSome then .skipped else .ran context
  | .nested => (info.map fun info => Pass.ran info.context).getD .skipped
  | .nestedHeaders =>
    if r.codecHeaders then (info.map fun info => Pass.ran info.context).getD .skipped else .skipped
  | _ => .ran context

def decodeJob {P : Type} (r : Runner) (systemResult : Nat → Option SerializationContext)
    (job : Job P) (info : Option PendingContext) : Job (Coded P) :=
  job.visit (r.jobPass (r.jobContext systemResult job.variant).1 info)

/-- The visit of an activation. -/
def decodeJobs {P : Type} (systemResult : Nat → Option SerializationContext) :
    Runner → List (Job P × Option PendingContext) → Runner × List (Job (Coded P))
  | r, [] => (r, [])
  | r, (job, info) :: rest =>
    let decoded := decodeJobs systemResult (r.jobContext systemResult job.variant).2 rest
    (decoded.1, r.decodeJob systemResult job info :: decoded.2)

def decodeActivation {P : Type} (r : Runner) (jobs : List (Job P)) :
    Runner × List (Job (Coded P)) :=
  let taken := (r.setNexusContext jobs).takeSystemInfos jobs
  decodeJobs (systemResultContext taken.1) taken.2 taken.1

end Runner

end TemporalSdk.Codec
