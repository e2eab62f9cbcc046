import TemporalSdk.Codec.Runner
import TemporalSdk.Storage.Runner

/-!
# StorePass — external storage for the completion of an activation

The last steps of `handleActivation`: the payloads of an encoded completion are handed to external
storage before the completion is sent.  The inputs of System Nexus operations are envelopes around a
request with payloads of its own.  They are taken out before the rest is visited, their requests are
decoded, visited and encoded again, and put back.
-/

namespace TemporalSdk.Storage

open Machine

/-! ## Completions -/

structure ScheduleNexusOperation where
  seq : Option Nat
  service : Option String
  operation : Option String
  input : Option Payload
  plain : Bytes

inductive CommandVariant
  | scheduleNexusOperation (schedule : ScheduleNexusOperation)
  | other (message : Message)

structure WorkflowCommand where
  userMetadata : Option Message
  eventGroupMarkers : List Message
  variant : CommandVariant

inductive CompletionStatus
  | successful (commands : List WorkflowCommand) (plain : Bytes)
  | failed (failure : Option Message) (plain : Bytes)

structure Completion where
  runId : String
  status : CompletionStatus
  payloadDownloadMetrics : Option ExternalStorageMetrics
  payloadUploadMetrics : Option ExternalStorageMetrics

/-- `completion.successful?.commands ?? []`. -/
def CompletionStatus.commands : CompletionStatus → List WorkflowCommand
  | .successful commands _ => commands
  | .failed _ _ => []

/-! ## Walkers -/

section Walkers

variable {C σ : Type} (v : Visitor Label FieldKey Payload C σ Thrown)

def visitOption (c : C) : Option Message → StateT σ (Except Thrown) (Option Message)
  | none => pure none
  | some m => do
    let m ← v.visitTree c m
    pure (some m)

def walkScheduleNexusOperation (context : C) (o : ScheduleNexusOperation) :
    StateT σ (Except Thrown) ScheduleNexusOperation :=
  let ctx := v.derive (.other "coresdk.workflow_commands.ScheduleNexusOperation" o.plain) context
  match o.input with
  | none => pure o
  | some p => do
    let r ← v.one ctx p
    pure { o with input := some r }

def walkVariant (context : C) : CommandVariant → StateT σ (Except Thrown) CommandVariant
  | .scheduleNexusOperation schedule => do
    let schedule ← walkScheduleNexusOperation v context schedule
    pure (.scheduleNexusOperation schedule)
  | .other message => do
    let message ← v.visitTree context message
    pure (.other message)

def walkWorkflowCommand (context : C) (o : WorkflowCommand) : StateT σ (Except Thrown) WorkflowCommand := do
  let ctx := v.derive (.other "coresdk.workflow_commands.WorkflowCommand" []) context
  let userMetadata ← visitOption v ctx o.userMetadata
  let eventGroupMarkers ← o.eventGroupMarkers.mapM (v.visitTree ctx)
  let variant ← walkVariant v ctx o.variant
  pure ⟨userMetadata, eventGroupMarkers, variant⟩

def walkStatus (context : C) : CompletionStatus → StateT σ (Except Thrown) CompletionStatus
  | .successful commands plain => do
    let ctx := v.derive (.other "coresdk.workflow_completion.Success" plain) context
    let commands ← commands.mapM (walkWorkflowCommand v ctx)
    pure (.successful commands plain)
  | .failed failure plain => do
    let ctx := v.derive (.other "coresdk.workflow_completion.Failure" plain) context
    let failure ← visitOption v ctx failure
    pure (.failed failure plain)

def walkWorkflowActivationCompletion (context : C) (o : Completion) : StateT σ (Except Thrown) Completion := do
  let ctx := v.derive (.other "coresdk.workflow_completion.WorkflowActivationCompletion" []) context
  let status ← walkStatus v ctx o.status
  pure { o with status := status }

end Walkers

/-! ## Targets -/

structure ParentWorkflowInfo where
  ns : String
  workflowId : String
  runId : String

structure WorkflowInfo where
  workflowType : String
  parent : Option ParentWorkflowInfo
  continuedFromExecutionRunId : Option String

/-- `a || b` for a string that may be missing. -/
def orElseEmpty (a : Option String) (b : String) : String :=
  match a with
  | none => b
  | some a => if a = "" then b else a

def workflowCommandStoreTarget (ns : String) (info : WorkflowInfo) :
    Label → Option StorageDriverTargetInfo → Option StorageDriverTargetInfo
  | .startChildWorkflowExecution childNs workflowId workflowType _, _ =>
    some ⟨.workflow, orElseEmpty childNs ns, workflowId, none, workflowType⟩
  | .signalExternalWorkflowExecution workflowExecution childWorkflowId _, _
  | .requestCancelExternalWorkflowExecution workflowExecution childWorkflowId _, _ =>
    let workflowId := (workflowExecution.bind (·.workflowId)).or childWorkflowId
    some ⟨.workflow, orElseEmpty (workflowExecution.bind (·.ns)) ns, workflowId, none, none⟩
  | .continueAsNewWorkflowExecution workflowType _, context =>
    context.map fun context => { context with
      runId := none
      type := match workflowType with
        | none => context.type
        | some workflowType => if workflowType = "" then context.type else some workflowType }
  | .completeWorkflowExecution _, context =>
    match info.parent, info.continuedFromExecutionRunId with
    | some parent, none =>
      some ⟨.workflow, orElseEmpty (some parent.ns) ns, some parent.workflowId, some parent.runId, none⟩
    | _, _ => context
  | .other _ _, context => context

/-- A method of `WorkflowCodecRunner`. -/
def systemNexusOperationContext (r : Codec.Runner) (seq : Option Nat) : Option Codec.SerializationContext :=
  match seq.bind (r.pendingCompletionContexts .nexusOperation) with
  | some ⟨.systemNexus _ _, .nexus _ _ _⟩ => none
  | some ⟨.systemNexus _ _, context⟩ => some context
  | _ => none

/-- The target of the payloads inside of an envelope. -/
def systemNexusTarget (r : Codec.Runner) (seq : Option Nat) : StorageDriverTargetInfo :=
  match systemNexusOperationContext r seq with
  | some (.workflow ns workflowId) => ⟨.workflow, ns, some workflowId, none, none⟩
  | some (.activity ns _ activityId _) => ⟨.activity, ns, activityId, none, none⟩
  -- Nexus contexts are filtered out, so that this is `undefined`.
  | _ => ⟨.workflow, r.ns, some r.workflowId, none, none⟩

/-! ## The pass -/

variable {D W : Type} [DecidableEq D]

/-- What `handleActivation` reads of the worker, the workflow and the activation. -/
structure Activation (D W : Type) where
  pb : Protobuf
  externalStorage : Option (ExternalStorage D W)
  isReplayWorker : Bool
  workflowCodecRunner : Codec.Runner
  runId : String
  info : WorkflowInfo
  downloadMetrics : ExternalStorageMetricsAccumulator

/-- The `Visitor` of `externalStorageStoreVisitOptions`: search attributes keep their values. -/
def storeVisitor (a : Activation D W) (st : ExternalStorage D W) :
    Visitor Label FieldKey Payload (Option StorageDriverTargetInfo) (Session W) Thrown where
  derive := workflowCommandStoreTarget a.workflowCodecRunner.ns a.info
  skips key := key.name = "searchAttributes"
  one target payload := do
    let stored ← st.store a.pb target [payload]
    pure (stored.headD payload)
  many target payloads := st.store a.pb target payloads

def initialTarget (a : Activation D W) : StorageDriverTargetInfo :=
  ⟨.workflow, a.workflowCodecRunner.ns, some a.workflowCodecRunner.workflowId, some a.runId,
    some a.info.workflowType⟩

/-- The input that is taken out of a command. -/
def WorkflowCommand.systemNexusInput (command : WorkflowCommand) : Option Payload :=
  match command.variant with
  | .scheduleNexusOperation schedule => schedule.input.filter isSystemNexusEnvelope
  | .other _ => none

def WorkflowCommand.setInput (command : WorkflowCommand) (input : Option Payload) : WorkflowCommand :=
  match command.variant with
  | .scheduleNexusOperation schedule =>
    { command with variant := .scheduleNexusOperation { schedule with input := input } }
  | .other _ => command

def WorkflowCommand.detach (command : WorkflowCommand) : WorkflowCommand :=
  match command.systemNexusInput with
  | none => command
  | some _ => command.setInput none

def CompletionStatus.mapCommands (f : List WorkflowCommand → List WorkflowCommand) :
    CompletionStatus → CompletionStatus
  | .successful commands plain => .successful (f commands) plain
  | .failed failure plain => .failed failure plain

def transformEncodedSystemNexusEnvelope {C σ : Type} (pb : Protobuf)
    (v : Visitor Label FieldKey Payload C σ Thrown) (initialContext : C)
    (service operation : Option String) (payload : Payload) : StateT σ (Except Thrown) Payload := do
  let _ ← requireSystemOperation service operation
  let message ← pb.fromPayload payload
  -- `walkPayloadsInMessage`
  if pb.isRootType message.typeName then
    let message ← v.visitTree initialContext message
    pure (pb.toPayload message)
  else
    throw ⟨.error, "Unknown root message type: " ++ message.typeName⟩

/-- Put the input of a System Nexus operation back. -/
def reattach (a : Activation D W) (st : ExternalStorage D W) :
    WorkflowCommand → Option Payload → StateT (Session W) (Except Thrown) WorkflowCommand
  | command, none => pure command
  | command, some payload =>
    match command.variant with
    | .scheduleNexusOperation schedule => do
      let input ← transformEncodedSystemNexusEnvelope a.pb (storeVisitor a st)
        (some (systemNexusTarget a.workflowCodecRunner schedule.seq))
        schedule.service schedule.operation payload
      pure (command.setInput (some input))
    | .other _ => pure command

def storePass (a : Activation D W) (st : ExternalStorage D W) (completion : Completion) :
    StateT (Session W) (Except Thrown) Completion := do
  let systemNexusInputs := completion.status.commands.map (·.systemNexusInput)
  let detached := { completion with
    status := completion.status.mapCommands (·.map (·.detach)) }
  let visited ← walkWorkflowActivationCompletion (storeVisitor a st) (some (initialTarget a)) detached
  let commands ← (visited.status.commands.zip systemNexusInputs).mapM fun entry =>
    reattach a st entry.1 entry.2
  pure { visited with status := visited.status.mapCommands fun _ => commands }

/-- The storage that the pass uses.  A replay worker discards its completions. -/
def Activation.stores (a : Activation D W) : Option (ExternalStorage D W) :=
  if a.isReplayWorker then none else a.externalStorage

/-- The completion that is sent for an encoded completion. -/
def handleCompletion (a : Activation D W) (completion : Completion) : StateT W (Except Thrown) Completion :=
  let downloadMetrics := a.externalStorage.bind fun _ => a.downloadMetrics.toProto
  match a.stores with
  | none => pure { completion with
      payloadDownloadMetrics := downloadMetrics
      payloadUploadMetrics := none }
  | some st => fun w =>
    match storePass a st completion ⟨w, .init⟩ with
    | .error e => .error e
    | .ok (stored, s) =>
      .ok ({ stored with
        payloadDownloadMetrics := downloadMetrics
        payloadUploadMetrics := s.metrics.toProto }, s.world)

end TemporalSdk.Storage
