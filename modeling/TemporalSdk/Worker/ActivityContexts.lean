import TemporalSdk.Codec.Scheduling

/-!
# ActivityContexts — the serialization contexts of an activity, on both sides

A workflow schedules an activity, core and the server relay the ids and payloads of the command, and the
activity worker rebuilds the serialization context from the task.  The model follows one activity over
any number of attempts: what each attempt decodes (heartbeat details, arguments, headers), the heartbeats
that it records, and the completion that it ends with, with the detour over external storage.

A payload carries the passes that encoded it, as in `TemporalSdk.Codec`, so a decoding can be compared
with them.
-/

namespace TemporalSdk.Worker
namespace ActivityContexts

open Codec Machine

/-! ## The task -/

/-- What the worker reads of `coresdk.activity_task.Start`, but for the heartbeat details. -/
structure Start (V : Type) where
  activityId : String
  workflowExecution : Option String
  isLocal : Bool
  propagatedNexusSerializationContext : Option PropagatedContext
  input : List (Coded (Converted V))
  headerFields : List (Coded (Converted V))

structure ActivityInfo where
  activityNamespace : String
  activityId : String
  workflowExecution : Option String
  isLocal : Bool
  nexusSerializationContext : Option SerializationContext

section Contexts

variable {V : Type}

def activitySerializationContextFromTaskStart (start : Start V) (ns : String) :
    SerializationContext :=
  .activity ns start.workflowExecution
    (if start.activityId = "" then none else some start.activityId) start.isLocal

def activitySerializationContextFromInfo (info : ActivityInfo) : SerializationContext :=
  .activity info.activityNamespace info.workflowExecution (some info.activityId) info.isLocal

/-- The context of the activity's result and failures: that of the Nexus caller, if there is one. -/
def resultContext (start : Start V) (ns : String) : SerializationContext :=
  (nexusSerializationContextFromProto start.propagatedNexusSerializationContext).getD
    (activitySerializationContextFromTaskStart start ns)

def extractActivityInfo (start : Start V) (ns : String) : ActivityInfo where
  activityNamespace := ns
  activityId := start.activityId
  -- `inWorkflow`: the empty id counts as none.
  workflowExecution := start.workflowExecution.filter fun workflowId => workflowId ≠ ""
  isLocal := start.isLocal
  nexusSerializationContext :=
    match resultContext start ns with
    | .nexus endpoint service operation => some (.nexus endpoint service operation)
    | _ => none

/-- The context that `activityHeartbeat$` encodes details with. -/
def heartbeatContext (start : Start V) (ns : String) : SerializationContext :=
  (extractActivityInfo start ns).nexusSerializationContext.getD
    (activitySerializationContextFromInfo (extractActivityInfo start ns))

end Contexts

/-! ## Attempts -/

/-- `encodeToPayload`, and what `encodeErrorToFailure` does for each payload of the failure. -/
def encodeToPayload {V : Type} (context : Option SerializationContext) (value : V) :
    Coded (Converted V) :=
  ⟨⟨value, .ran context⟩, .ran context⟩

/-- How the activity function ends.  A failure comes with the values that its payloads are made of. -/
inductive Outcome (V : Type)
  | completed (result : V)
  | completeAsync
  | heartbeatDetailsConversionFailed (failure : List V)
  | reset (failure : List V)
  | paused (failure : List V)
  | cancelled (failure : List V)
  | aborted
  | failed (failure : List V)

inductive CompletionStatus
  | completed
  | failed
  | cancelled
  | willCompleteAsync
  deriving DecidableEq

structure Completion (V : Type) where
  status : CompletionStatus
  payloads : List (Coded (Converted V))
  deriving DecidableEq

/-- `Activity.run`. -/
def runActivity {V : Type} (context : SerializationContext) : Outcome V → Completion V
  | .completed result => ⟨.completed, [encodeToPayload context result]⟩
  | .completeAsync => ⟨.willCompleteAsync, []⟩
  | .heartbeatDetailsConversionFailed failure => ⟨.failed, failure.map (encodeToPayload context)⟩
  | .reset failure => ⟨.failed, failure.map (encodeToPayload context)⟩
  | .paused failure => ⟨.failed, failure.map (encodeToPayload context)⟩
  | .cancelled failure => ⟨.cancelled, failure.map (encodeToPayload context)⟩
  -- An `AbortError` becomes a failure that is written down as such.
  | .aborted => ⟨.cancelled, []⟩
  | .failed failure => ⟨.failed, failure.map (encodeToPayload context)⟩

/-- The steps of a start that can throw. -/
inductive StartStage
  | retrieve
  | heartbeatDetails
  | lookup
  | arguments
  | headers
  deriving DecidableEq

/-- One attempt: where its start fails, if it does, what it heartbeats, how it ends, and whether the
completion cannot be offloaded to external storage. -/
structure Attempt (V : Type) where
  startError : Option (StartStage × List V)
  heartbeats : List V
  outcome : Outcome V
  offloadError : Option (List V)

/-- What the worker decodes of a task. -/
inductive Source
  | heartbeatDetails
  | arguments
  | headers
  deriving DecidableEq

/-- A payload that the worker decodes. -/
structure Decoding (V : Type) where
  source : Source
  payload : Coded (Converted V)
  converter : Pass
  codec : Pass
  deriving DecidableEq

/-- It is decoded with the contexts that it was encoded with. -/
def Decoding.Agrees {V : Type} (d : Decoding V) : Prop :=
  d.payload.payload.converter = d.converter ∧ d.payload.codec = d.codec

/-- One activity on a worker.  `details` are the heartbeat details that the server has. -/
structure State (V : Type) where
  details : List (Coded (Converted V))
  heartbeats : List (Coded (Converted V))
  decodings : List (Decoding V)
  completions : List (Completion V)

def State.init (V : Type) : State V := ⟨[], [], [], []⟩

section Worker

variable {V : Type} (ns : String) (codecHeaders : Bool) (start : Start V)

def decodeHeartbeatDetails (details : List (Coded (Converted V))) : List (Decoding V) :=
  details.map fun p =>
    ⟨.heartbeatDetails, p, .ran (resultContext start ns), .ran (resultContext start ns)⟩

def decodeArguments : List (Decoding V) :=
  start.input.map fun p =>
    ⟨.arguments, p, .ran (activitySerializationContextFromTaskStart start ns),
      .ran (activitySerializationContextFromTaskStart start ns)⟩

/-- Headers go to the interceptors as payloads; only the codecs run on them, if they are to. -/
def decodeHeaders : List (Decoding V) :=
  start.headerFields.map fun p =>
    ⟨.headers, p, .skipped,
      if codecHeaders then .ran (activitySerializationContextFromTaskStart start ns) else .skipped⟩

/-- What is decoded of a task when its start fails at a stage, or does not. -/
def decodeStart (details : List (Coded (Converted V))) : Option StartStage → List (Decoding V)
  | some .retrieve => []
  | some .heartbeatDetails => decodeHeartbeatDetails ns start details
  | some .lookup => decodeHeartbeatDetails ns start details
  | some .arguments => decodeHeartbeatDetails ns start details ++ decodeArguments ns start
  | some .headers | none =>
    decodeHeartbeatDetails ns start details ++ decodeArguments ns start ++
      decodeHeaders ns codecHeaders start

/-- The completion of an attempt, before it is offloaded. -/
def attemptCompletion (attempt : Attempt V) : Completion V :=
  match attempt.startError with
  | some (_, failure) => ⟨.failed, failure.map (encodeToPayload (resultContext start ns))⟩
  | none => runActivity (resultContext start ns) attempt.outcome

def attemptHeartbeats (attempt : Attempt V) : List (Coded (Converted V)) :=
  match attempt.startError with
  | some _ => []
  | none => attempt.heartbeats.map (encodeToPayload (heartbeatContext start ns))

/-- A completion that cannot be offloaded becomes a failure, which is encoded without a context. -/
def offload (completion : Completion V) : Option (List V) → Completion V
  | none => completion
  | some failure => ⟨.failed, failure.map (encodeToPayload none)⟩

/-- One attempt at the activity. -/
def step (s : State V) (attempt : Attempt V) : State V where
  -- The server keeps the details of the last heartbeat.
  details :=
    match (attemptHeartbeats ns start attempt).getLast? with
    | some payload => [payload]
    | none => s.details
  heartbeats := s.heartbeats ++ attemptHeartbeats ns start attempt
  decodings := s.decodings ++
    decodeStart ns codecHeaders start s.details (attempt.startError.map Prod.fst)
  completions := s.completions ++ [offload (attemptCompletion ns start attempt) attempt.offloadError]

end Worker

/-! ## The workflow side -/

/-- An activity that a workflow schedules: the isolate and the runner of the workflow, which have the same
ids, and what the command is made of. -/
structure Scheduled (V : Type) where
  isolate : Isolate V
  runner : Runner
  ns_eq : isolate.ns = runner.ns
  workflowId_eq : isolate.workflowId = runner.workflowId
  seq : Nat
  activityId : Option String
  isLocal : Bool
  args : List V
  headers : List V

namespace Scheduled

variable {V : Type} (a : Scheduled V)

/-- The id that the command has: a local activity has no other than its sequence number. -/
def id : String := if a.isLocal then toString a.seq else a.activityId.getD (toString a.seq)

def command : Command (Converted V) :=
  if a.isLocal then a.isolate.scheduleLocalActivityCommand a.seq a.id a.args a.headers [] []
  else a.isolate.scheduleActivityCommand a.seq a.id a.args a.headers [] []

/-- The isolate once the command is pushed. -/
def pushed : Isolate V :=
  if a.isLocal then a.isolate.scheduleLocalActivityNextHandler a.seq a.args a.headers [] []
  else a.isolate.scheduleActivityNextHandler a.seq a.activityId a.args a.headers [] []

/-- The context that the isolate converts the resolution with. -/
def converterContext : Option SerializationContext := (a.pushed.completions .activity a.seq).join

/-- The context that the codecs of the runner are run with on the resolution. -/
def codecContext : Option SerializationContext :=
  ((a.runner.rememberCommand a.command.variant).pendingCompletionContexts .activity a.seq).map
    (·.context)

/-- The task that core and the server make of the command: they relay its ids and payloads. -/
def start : Start V where
  activityId :=
    match a.command.variant with
    | .scheduleActivity _ activityId => activityId
    | .scheduleLocalActivity _ activityId => activityId
    | _ => ""
  workflowExecution := some a.runner.workflowId
  isLocal :=
    match a.command.variant with
    | .scheduleLocalActivity _ _ => true
    | _ => false
  propagatedNexusSerializationContext := none
  input := ((a.runner.encodeCommand a.command).payloads.filter fun p => p.1 = .arguments).map Prod.snd
  headerFields :=
    ((a.runner.encodeCommand a.command).payloads.filter fun p => p.1 = .headers).map Prod.snd

end Scheduled

/-- An activity: scheduled by a workflow of the worker's namespace, or started on its own by the handler
of a Nexus operation, whose context is propagated. -/
inductive Task (V : Type)
  | scheduled (a : Scheduled V)
  | standalone (ns : String) (codecHeaders : Bool) (start : Start V) (context : PropagatedContext)

namespace Task

variable {V : Type}

def ns : Task V → String
  | .scheduled a => a.runner.ns
  | .standalone ns _ _ _ => ns

def codecHeaders : Task V → Bool
  | .scheduled a => a.runner.codecHeaders
  | .standalone _ codecHeaders _ _ => codecHeaders

def start : Task V → Start V
  | .scheduled a => a.start
  | .standalone _ _ start context =>
    { start with propagatedNexusSerializationContext := some context }

def step (task : Task V) : State V → Attempt V → State V :=
  ActivityContexts.step task.ns task.codecHeaders task.start

/-- The id of the activity is not empty. -/
def Named : Task V → Prop
  | .scheduled a => a.isLocal ∨ a.activityId ≠ some ""
  | .standalone _ _ _ _ => True

/-- Both sides use the same contexts: for a scheduled activity those of the workflow side, for a standalone
one the propagated context for all that goes back to the Nexus caller. -/
def Consistent (task : Task V) (s : State V) : Prop :=
  match task with
  | .scheduled a =>
    (∀ d ∈ s.decodings, d.Agrees) ∧
    ∀ c ∈ s.completions, ∀ p ∈ c.payloads,
      p.payload.converter = .ran a.converterContext ∧ p.codec = .ran a.codecContext
  | .standalone _ _ _ context =>
    (∀ c ∈ s.completions, ∀ p ∈ c.payloads,
      p = encodeToPayload (nexusSerializationContextFromProto (some context)) p.payload.value) ∧
    (∀ p ∈ s.heartbeats,
      p = encodeToPayload (nexusSerializationContextFromProto (some context)) p.payload.value) ∧
    ∀ d ∈ s.decodings, d.source = .heartbeatDetails → d.Agrees

/-- The completion can be offloaded, and the activity does not heartbeat if the id of its workflow is
empty. -/
def Safe (task : Task V) (attempt : Attempt V) : Prop :=
  attempt.offloadError = none ∧
    match task with
    | .scheduled a => a.runner.workflowId = "" → attempt.heartbeats = []
    | .standalone _ _ _ _ => True

end Task

/-! ## One attempt -/

section Attempts

variable {V : Type} {ns : String} {codecHeaders : Bool} {start : Start V}

/-- A payload that is encoded with one context throughout. -/
def EncodedWith (context : SerializationContext) (p : Coded (Converted V)) : Prop :=
  p = encodeToPayload context p.payload.value

theorem encodedWith_map (context : SerializationContext) (values : List V) :
    ∀ p ∈ values.map (encodeToPayload (some context)), EncodedWith context p := by
  intro p hp
  rcases List.mem_map.1 hp with ⟨value, _, rfl⟩
  rfl

theorem runActivity_encodedWith (context : SerializationContext) (outcome : Outcome V) :
    ∀ p ∈ (runActivity context outcome).payloads, EncodedWith context p := by
  cases outcome with
  | completed result => exact encodedWith_map context [result]
  | completeAsync | aborted => simp [runActivity]
  | heartbeatDetailsConversionFailed failure | reset failure | paused failure | cancelled failure
  | failed failure => exact encodedWith_map context failure

variable {attempt : Attempt V}

theorem completion_encodedWith (h : attempt.offloadError = none) :
    ∀ p ∈ (offload (attemptCompletion ns start attempt) attempt.offloadError).payloads,
      EncodedWith (resultContext start ns) p := by
  rw [h]
  unfold offload attemptCompletion
  cases attempt.startError with
  | none => exact runActivity_encodedWith _ _
  | some error => exact encodedWith_map _ error.2

theorem heartbeats_encodedWith
    (h : heartbeatContext start ns = resultContext start ns ∨ attempt.heartbeats = []) :
    ∀ p ∈ attemptHeartbeats ns start attempt, EncodedWith (resultContext start ns) p := by
  unfold attemptHeartbeats
  cases attempt.startError with
  | some error => simp
  | none =>
    rcases h with h | h
    · rw [h]
      exact encodedWith_map _ _
    · simp [h]

/-! ## Runs of attempts -/

/-- What an activity sends has the result context, and the details that it decodes had it before. -/
structure Sent (ns : String) (start : Start V) (s : State V) : Prop where
  details : ∀ p ∈ s.details, EncodedWith (resultContext start ns) p
  heartbeats : ∀ p ∈ s.heartbeats, EncodedWith (resultContext start ns) p
  completions : ∀ c ∈ s.completions, ∀ p ∈ c.payloads, EncodedWith (resultContext start ns) p
  decodings : ∀ d ∈ s.decodings, d.source = .heartbeatDetails → d.Agrees

theorem mem_decodeStart {details : List (Coded (Converted V))} {stage : Option StartStage}
    {d : Decoding V} (h : d ∈ decodeStart ns codecHeaders start details stage) :
    d ∈ decodeHeartbeatDetails ns start details ∨ d ∈ decodeArguments ns start ∨
      d ∈ decodeHeaders ns codecHeaders start := by
  unfold decodeStart at h
  split at h
  · cases h
  · exact .inl h
  · exact .inl h
  · rcases List.mem_append.1 h with h | h
    · exact .inl h
    · exact .inr (.inl h)
  all_goals
    rcases List.mem_append.1 h with h | h
    · rcases List.mem_append.1 h with h | h
      · exact .inl h
      · exact .inr (.inl h)
    · exact .inr (.inr h)

theorem decodeHeartbeatDetails_agrees {details : List (Coded (Converted V))}
    (h : ∀ p ∈ details, EncodedWith (resultContext start ns) p) :
    ∀ d ∈ decodeHeartbeatDetails ns start details, d.Agrees := by
  intro d hd
  rcases List.mem_map.1 hd with ⟨p, hp, rfl⟩
  have hencoded : p = encodeToPayload (resultContext start ns) p.payload.value := h p hp
  constructor
  · exact congrArg (fun q => q.payload.converter) hencoded
  · exact congrArg Coded.codec hencoded

theorem decodings_step {s : State V} {d : Decoding V}
    (h : d ∈ (step ns codecHeaders start s attempt).decodings) :
    d ∈ s.decodings ∨ d ∈ decodeHeartbeatDetails ns start s.details ∨
      d ∈ decodeArguments ns start ∨ d ∈ decodeHeaders ns codecHeaders start := by
  rcases List.mem_append.1 h with h | h
  · exact .inl h
  · exact .inr (mem_decodeStart h)

theorem Sent.init (ns : String) (start : Start V) : Sent ns start (State.init V) where
  details := by simp [State.init]
  heartbeats := by simp [State.init]
  completions := by simp [State.init]
  decodings := by simp [State.init]

theorem Sent.step {s : State V} (hs : Sent ns start s) (hoffload : attempt.offloadError = none)
    (hheartbeats : heartbeatContext start ns = resultContext start ns ∨ attempt.heartbeats = []) :
    Sent ns start (step ns codecHeaders start s attempt) where
  details := by
    intro p hp
    simp only [ActivityContexts.step] at hp
    split at hp
    · rename_i payload hlast
      rw [List.mem_singleton.1 hp]
      exact heartbeats_encodedWith hheartbeats payload (List.mem_of_getLast? hlast)
    · exact hs.details p hp
  heartbeats := by
    intro p hp
    rcases List.mem_append.1 hp with hp | hp
    · exact hs.heartbeats p hp
    · exact heartbeats_encodedWith hheartbeats p hp
  completions := by
    intro c hc
    rcases List.mem_append.1 hc with hc | hc
    · exact hs.completions c hc
    · rw [List.mem_singleton.1 hc]
      exact completion_encodedWith hoffload
  decodings := by
    intro d hd hsource
    rcases decodings_step hd with hd | hd | hd | hd
    · exact hs.decodings d hd hsource
    · exact decodeHeartbeatDetails_agrees hs.details d hd
    -- Neither arguments nor headers are heartbeat details.
    all_goals
      rcases List.mem_map.1 hd with ⟨p, _, rfl⟩
      cases hsource

end Attempts

/-! ## Heartbeats -/

section Contexts

variable {V : Type} {ns : String} {start : Start V}

theorem resultContext_of_propagated {context : PropagatedContext}
    (h : start.propagatedNexusSerializationContext = some context) :
    nexusSerializationContextFromProto (some context) = some (resultContext start ns) := by
  simp [resultContext, h, nexusSerializationContextFromProto]

theorem heartbeatContext_of_propagated {context : PropagatedContext}
    (h : start.propagatedNexusSerializationContext = some context) :
    heartbeatContext start ns = resultContext start ns := by
  simp [heartbeatContext, extractActivityInfo, resultContext, h, nexusSerializationContextFromProto]

theorem heartbeatContext_of_named {workflowId : String}
    (hpropagated : start.propagatedNexusSerializationContext = none)
    (hworkflow : start.workflowExecution = some workflowId) (hworkflowId : workflowId ≠ "")
    (hactivityId : start.activityId ≠ "") :
    heartbeatContext start ns = resultContext start ns := by
  have hresult : resultContext start ns = .activity ns (some workflowId) (some start.activityId)
      start.isLocal := by
    simp [resultContext, hpropagated, nexusSerializationContextFromProto,
      activitySerializationContextFromTaskStart, hworkflow, hactivityId]
  have hinfo : (extractActivityInfo start ns).nexusSerializationContext = none := by
    simp only [extractActivityInfo, hresult]
  rw [heartbeatContext, hinfo, hresult]
  simp [activitySerializationContextFromInfo, extractActivityInfo, hworkflow, hworkflowId]

end Contexts

/-! ## The workflow side agrees -/

namespace Scheduled

variable {V : Type} (a : Scheduled V)

/-- The context of the activity. -/
def context : SerializationContext :=
  .activity a.runner.ns (some a.runner.workflowId) (some a.id) a.isLocal

theorem id_ne_empty (h : a.isLocal ∨ a.activityId ≠ some "") : a.id ≠ "" := by
  unfold id
  cases hlocal : a.isLocal with
  | true => exact Nat.repr_ne_empty
  | false =>
    cases hid : a.activityId with
    | none => exact Nat.repr_ne_empty
    | some activityId =>
      rintro rfl
      simp [hlocal, hid] at h

theorem activitySerializationContext_eq :
    a.isolate.activitySerializationContext a.id a.isLocal = a.context := by
  simp [Isolate.activitySerializationContext, context, a.ns_eq, a.workflowId_eq]

theorem activityContext_eq (h : a.id ≠ "") : a.runner.activityContext a.id a.isLocal = a.context := by
  simp [Runner.activityContext, context, h]

theorem command_eq : a.command =
    ⟨if a.isLocal then .scheduleLocalActivity a.seq a.id else .scheduleActivity a.seq a.id,
      toPayloads .arguments a.context a.args ++ otherPayloads .headers a.headers⟩ := by
  have hcontext := a.activitySerializationContext_eq
  unfold command
  cases hlocal : a.isLocal with
  | true =>
    rw [hlocal] at hcontext
    simp [Isolate.scheduleLocalActivityCommand, hcontext, toPayloads, otherPayloads]
  | false =>
    rw [hlocal] at hcontext
    simp [Isolate.scheduleActivityCommand, hcontext, toPayloads, otherPayloads]

theorem runner_context (h : a.id ≠ "") :
    a.runner.variantContext a.command.variant = a.context ∧ a.codecContext = some a.context := by
  have hcontext := a.activityContext_eq h
  rw [codecContext, command_eq]
  cases hlocal : a.isLocal with
  | true | false =>
    rw [hlocal] at hcontext
    simp [Runner.variantContext, Runner.rememberCommand, hcontext]

theorem converterContext_eq : a.converterContext = some a.context := by
  have hcontext := a.activitySerializationContext_eq
  unfold converterContext pushed
  cases hlocal : a.isLocal with
  | true =>
    simp only [id, hlocal, if_true] at hcontext
    simp only [Isolate.scheduleLocalActivityNextHandler, Isolate.setCompletion, if_true, hcontext,
      setAt_same, Option.join_some]
  | false =>
    simp only [id, hlocal, if_false, Bool.false_eq_true] at hcontext
    simp only [Isolate.scheduleActivityNextHandler, Isolate.setCompletion, if_false, hcontext,
      setAt_same, Option.join_some, Bool.false_eq_true]

theorem start_ids : a.start.activityId = a.id ∧ a.start.isLocal = a.isLocal := by
  unfold start
  rw [command_eq]
  cases a.isLocal <;> simp

theorem taskStart_context (h : a.id ≠ "") :
    activitySerializationContextFromTaskStart a.start a.runner.ns = a.context := by
  rcases a.start_ids with ⟨hid, hlocal⟩
  rw [activitySerializationContextFromTaskStart, hid, hlocal, if_neg h]
  rfl

theorem result_context (h : a.id ≠ "") : resultContext a.start a.runner.ns = a.context :=
  a.taskStart_context h

theorem heartbeat_context (h : a.id ≠ "") (hworkflowId : a.runner.workflowId ≠ "") :
    heartbeatContext a.start a.runner.ns = resultContext a.start a.runner.ns := by
  apply heartbeatContext_of_named rfl rfl hworkflowId
  rw [a.start_ids.1]
  exact h

theorem mem_toPayloads {f g : Field} {context : SerializationContext} {values : List V}
    {q : Converted V} (h : (f, q) ∈ toPayloads g context values) :
    f = g ∧ q.converter = .ran context := by
  rcases List.mem_map.1 h with ⟨value, _, heq⟩
  rcases Prod.mk.inj heq with ⟨rfl, rfl⟩
  exact ⟨rfl, rfl⟩

theorem mem_otherPayloads {f g : Field} {values : List V} {q : Converted V}
    (h : (f, q) ∈ otherPayloads g values) : f = g ∧ q.converter = .skipped := by
  rcases List.mem_map.1 h with ⟨value, _, heq⟩
  rcases Prod.mk.inj heq with ⟨rfl, rfl⟩
  exact ⟨rfl, rfl⟩

theorem mem_field {field : Field} {p : Coded (Converted V)}
    (hp : p ∈ ((a.runner.encodeCommand a.command).payloads.filter fun p => p.1 = field).map Prod.snd) :
    p.codec = a.runner.commandPass a.command.variant field ∧
      (field, p.payload) ∈ toPayloads .arguments a.context a.args ++ otherPayloads .headers a.headers := by
  rcases List.mem_map.1 hp with ⟨⟨f, q⟩, hmem, rfl⟩
  rcases List.mem_filter.1 hmem with ⟨hvisit, hfield⟩
  obtain rfl : f = field := of_decide_eq_true hfield
  rcases Message.mem_visit hvisit with ⟨hcodec, hpayload⟩
  rw [command_eq] at hpayload
  exact ⟨hcodec, hpayload⟩

theorem decodeArguments_agrees (h : a.id ≠ "") : ∀ d ∈ decodeArguments a.runner.ns a.start, d.Agrees := by
  intro d hd
  rcases List.mem_map.1 hd with ⟨p, hp, rfl⟩
  rcases a.mem_field hp with ⟨hcodec, hpayload⟩
  have hconverter : p.payload.converter = .ran a.context := by
    rcases List.mem_append.1 hpayload with hpayload | hpayload
    · exact (mem_toPayloads hpayload).2
    · cases (mem_otherPayloads hpayload).1
  simp only [Runner.commandPass, (a.runner_context h).1] at hcodec
  exact ⟨by rw [hconverter, a.taskStart_context h], by rw [hcodec, a.taskStart_context h]⟩

theorem decodeHeaders_agrees (h : a.id ≠ "") :
    ∀ d ∈ decodeHeaders a.runner.ns a.runner.codecHeaders a.start, d.Agrees := by
  intro d hd
  rcases List.mem_map.1 hd with ⟨p, hp, rfl⟩
  rcases a.mem_field hp with ⟨hcodec, hpayload⟩
  have hconverter : p.payload.converter = .skipped := by
    rcases List.mem_append.1 hpayload with hpayload | hpayload
    · cases (mem_toPayloads hpayload).1
    · exact (mem_otherPayloads hpayload).2
  simp only [Runner.commandPass, (a.runner_context h).1] at hcodec
  exact ⟨hconverter, by rw [hcodec, a.taskStart_context h]⟩

end Scheduled

/-! ## All payloads of an activity -/

namespace Task

variable {V : Type} {task : Task V}

theorem Safe.heartbeats {attempt : Attempt V} (hnamed : task.Named) (h : task.Safe attempt) :
    heartbeatContext task.start task.ns = resultContext task.start task.ns ∨
      attempt.heartbeats = [] := by
  cases task with
  | standalone ns codecHeaders start context => exact .inl (heartbeatContext_of_propagated rfl)
  | scheduled a =>
    by_cases hworkflowId : a.runner.workflowId = ""
    · exact .inr (h.2 hworkflowId)
    · exact .inl (a.heartbeat_context (a.id_ne_empty hnamed) hworkflowId)

theorem run_sent (hnamed : task.Named) {attempts : List (Attempt V)}
    (h : Guarded task.step (fun _ attempt => task.Safe attempt) (State.init V) attempts) :
    Sent task.ns task.start (run task.step (State.init V) attempts) := by
  have hstep : ∀ s attempt, task.Safe attempt → Sent task.ns task.start s →
      Sent task.ns task.start (task.step s attempt) :=
    fun s attempt hsafe hs => hs.step hsafe.1 (hsafe.heartbeats hnamed)
  exact run_invariant hstep (Sent.init task.ns task.start) h

theorem run_decodings (a : Scheduled V) (hid : a.id ≠ "") (attempts : List (Attempt V)) :
    ∀ d ∈ (run (Task.scheduled a).step (State.init V) attempts).decodings,
      d.source ≠ .heartbeatDetails → d.Agrees := by
  have hinit : ∀ d ∈ (State.init V).decodings, d.source ≠ .heartbeatDetails → d.Agrees := by
    simp [State.init]
  have hstep : ∀ s attempt, True → (∀ d ∈ s.decodings, d.source ≠ .heartbeatDetails → d.Agrees) →
      ∀ d ∈ ((Task.scheduled a).step s attempt).decodings,
        d.source ≠ .heartbeatDetails → d.Agrees := by
    intro s attempt _ hs d hd hsource
    rcases decodings_step hd with hd | hd | hd | hd
    · exact hs d hd hsource
    · rcases List.mem_map.1 hd with ⟨p, _, rfl⟩
      exact absurd rfl hsource
    · exact a.decodeArguments_agrees hid d hd
    · exact a.decodeHeaders_agrees hid d hd
  exact run_invariant hstep hinit (guarded_true _ _ _)

/-- Over any attempts whose completions can be stored, and that do not heartbeat for a workflow without
an id, the worker and the workflow use the same contexts. -/
theorem activity_payloads_agree (task : Task V) (hnamed : task.Named) (attempts : List (Attempt V))
    (h : Guarded task.step (fun _ attempt => task.Safe attempt) (State.init V) attempts) :
    task.Consistent (run task.step (State.init V) attempts) := by
  have hsent := run_sent hnamed h
  cases task with
  | standalone ns codecHeaders start context =>
    have hcontext : nexusSerializationContextFromProto (some context) =
        some (resultContext (Task.standalone ns codecHeaders start context).start ns) :=
      resultContext_of_propagated rfl
    refine ⟨fun c hc p hp => ?_, fun p hp => ?_, hsent.decodings⟩
    · rw [hcontext]
      exact hsent.completions c hc p hp
    · rw [hcontext]
      exact hsent.heartbeats p hp
  | scheduled a =>
    have hid := a.id_ne_empty hnamed
    refine ⟨fun d hd => ?_, fun c hc p hp => ?_⟩
    · by_cases hsource : d.source = .heartbeatDetails
      · exact hsent.decodings d hd hsource
      · exact run_decodings a hid attempts d hd hsource
    · have hp : p = encodeToPayload (resultContext a.start a.runner.ns) p.payload.value :=
        hsent.completions c hc p hp
      rw [a.result_context hid] at hp
      rw [a.converterContext_eq, (a.runner_context hid).2]
      exact ⟨congrArg (fun q => q.payload.converter) hp, congrArg Coded.codec hp⟩

/-- A remote activity with one argument and one header, of a workflow with the given id. -/
def sample (workflowId : String) : Task Nat :=
  .scheduled
    { isolate := Isolate.init Nat "default" workflowId
      runner := Runner.init "default" workflowId true
      ns_eq := rfl
      workflowId_eq := rfl
      seq := 1
      activityId := none
      isLocal := false
      args := [1]
      headers := [2] }

/-- An attempt that heartbeats and fails, and one that takes up the details and completes. -/
def retried (offloadError : Option (List Nat)) : List (Attempt Nat) :=
  [⟨none, [3], .failed [4], none⟩, ⟨none, [], .completed 5, offloadError⟩]

theorem sample_payloads_agree :
    (sample "workflow").Consistent (run (sample "workflow").step (State.init Nat) (retried none)) :=
  activity_payloads_agree (sample "workflow") (.inr (by decide)) (retried none)
    ⟨⟨rfl, fun h => absurd h (by decide)⟩, ⟨rfl, fun _ => rfl⟩, trivial⟩

/-- When the result cannot be stored, the failure that stands in for it is encoded without a context,
and the workflow decodes it with that of the activity; and the details of a workflow without an id are
decoded with an id that they were not encoded with. -/
theorem offload_failure_loses_context :
    ((sample "workflow").Named ∧
      ¬ (sample "workflow").Consistent
        (run (sample "workflow").step (State.init Nat) (retried (some [6])))) ∧
    (sample "").Named ∧
      ¬ (sample "").Consistent (run (sample "").step (State.init Nat) (retried none)) := by
  refine ⟨⟨.inr (by decide), fun h => ?_⟩, .inr (by decide), fun h => ?_⟩
  · have hlast : (run (sample "workflow").step (State.init Nat) (retried (some [6]))
        ).completions.getLast? = some ⟨.failed, [⟨⟨6, .ran none⟩, .ran none⟩]⟩ := by
      decide +kernel
    have hcontext := h.2 _ (List.mem_of_getLast? hlast) _ List.mem_cons_self
    exact absurd hcontext.1 (by decide +kernel)
  · have hdecoding : (run (sample "").step (State.init Nat) (retried none)).decodings.find?
        (fun d => d.source = .heartbeatDetails) =
        some ⟨.heartbeatDetails,
          encodeToPayload (some (.activity "default" none (some "1") false)) 3,
          .ran (some (.activity "default" (some "") (some "1") false)),
          .ran (some (.activity "default" (some "") (some "1") false))⟩ := by
      decide +kernel
    have hagrees := h.1 _ (List.mem_of_find?_eq_some hdecoding)
    exact absurd hagrees.1 (by decide)

end Task

end ActivityContexts
end TemporalSdk.Worker
