import Mathlib.Data.List.Basic

/-!
# Messages — activations and completions as the codecs see them

A workflow's payloads pass through two pieces of code that have to agree on a serialization context:
the payload and failure converters inside of the isolate, and the codecs that the worker runs on the
same payloads outside of it.

A message is modelled by what both sides read of it: its variant, with the ids that a context is made
of, and its payloads, each under the field that holds it, in the order of the generated walkers.
-/

namespace TemporalSdk.Codec

/-- Set one entry of a family of tables. -/
def setAt {κ α : Type} [DecidableEq κ] (t : κ → Nat → α) (k : κ) (seq : Nat) (a : α) : κ → Nat → α :=
  fun k' seq' => if k' = k ∧ seq' = seq then a else t k' seq'

@[simp] theorem setAt_same {κ α : Type} [DecidableEq κ] (t : κ → Nat → α) (k : κ) (seq : Nat)
    (a : α) : setAt t k seq a k seq = a := by
  simp [setAt]

theorem setAt_of_ne {κ α : Type} [DecidableEq κ] {t : κ → Nat → α} {k k' : κ} {seq seq' : Nat}
    {a : α} (h : ¬ (k' = k ∧ seq' = seq)) : setAt t k seq a k' seq' = t k' seq' := by
  simp [setAt, h]

inductive SerializationContext
  | workflow (ns workflowId : String)
  | activity (ns : String) (workflowId activityId : Option String) (isLocal : Bool)
  -- `operation` can be `undefined` in the isolate: a client looks it up by its property name.
  | nexus (endpoint service : String) (operation : Option String)
  deriving DecidableEq

/-- The fields that hold payloads.  `nested` and `nestedHeaders` are those inside of the envelope of a
System Nexus operation, whose `input` or `result` is the envelope itself. -/
inductive Field
  | arguments
  | headers
  | memo
  | searchAttributes
  | userMetadata
  | eventGroupMarkers
  | input
  | result
  | failure
  | nested
  | nestedHeaders
  | continuedFailure
  | lastCompletionResult
  deriving DecidableEq

structure Message (T P : Type) where
  variant : T
  payloads : List (Field × P)
  deriving DecidableEq

/-- Whether a converter or a codec ran on a payload, and the context it was given. -/
inductive Pass
  | skipped
  | ran (context : Option SerializationContext)
  deriving DecidableEq

/-- A payload and the codecs' pass over it. -/
structure Coded (P : Type) where
  payload : P
  codec : Pass
  deriving DecidableEq

/-- Visit the payloads of a message: what becomes of one depends on the field that holds it. -/
def Message.visit {T P : Type} (pass : Field → Pass) (m : Message T P) : Message T (Coded P) :=
  ⟨m.variant, m.payloads.map fun entry => (entry.1, ⟨entry.2, pass entry.1⟩)⟩

@[simp] theorem Message.visit_variant {T P : Type} (pass : Field → Pass) (m : Message T P) :
    (m.visit pass).variant = m.variant := rfl

theorem Message.mem_visit {T P : Type} {pass : Field → Pass} {m : Message T P} {f : Field}
    {p : Coded P} (h : (f, p) ∈ (m.visit pass).payloads) :
    p.codec = pass f ∧ (f, p.payload) ∈ m.payloads := by
  rcases List.mem_map.1 h with ⟨⟨g, q⟩, hmem, heq⟩
  cases heq
  exact ⟨rfl, hmem⟩

/-! ## Commands -/

inductive SignalTarget
  | external (ns workflowId : String)
  | child (childWorkflowId : String)
  deriving DecidableEq

/-- The input of a Nexus operation: a payload, or an envelope that carries the marker of System Nexus
and, in its metadata, the context of the payloads inside. -/
inductive NexusInput
  | payload
  | systemEnvelope (context : Option SerializationContext)
  deriving DecidableEq

inductive CommandVariant
  | startTimer (seq : Nat)
  | cancelTimer (seq : Nat)
  | scheduleActivity (seq : Nat) (activityId : String)
  | requestCancelActivity (seq : Nat)
  | scheduleLocalActivity (seq : Nat) (activityId : String)
  | requestCancelLocalActivity (seq : Nat)
  | startChildWorkflowExecution (seq : Nat) (ns workflowId : String)
  | cancelChildWorkflowExecution (childWorkflowSeq : Nat)
  | signalExternalWorkflowExecution (seq : Nat) (target : SignalTarget)
  | cancelSignalWorkflow (seq : Nat)
  | requestCancelExternalWorkflowExecution (seq : Nat) (ns workflowId : String)
  | scheduleNexusOperation (seq : Nat) (endpoint service : String) (operation : Option String)
      (input : NexusInput)
  | requestCancelNexusOperation (seq : Nat)
  | respondToQuery (queryId : String)
  | updateResponse (protocolInstanceId : String)
  | modifyWorkflowProperties
  | upsertWorkflowSearchAttributes
  | completeWorkflowExecution
  | failWorkflowExecution
  | continueAsNewWorkflowExecution
  | cancelWorkflowExecution
  deriving DecidableEq

abbrev Command (P : Type) : Type := Message CommandVariant P

/-! ## Jobs -/

inductive ActivityStatus
  | completed
  | failed
  | cancelled
  | backoff
  deriving DecidableEq

inductive ChildStartStatus
  | succeeded
  | failed
  | cancelled
  deriving DecidableEq

inductive ChildStatus
  | completed
  | failed
  | cancelled
  deriving DecidableEq

inductive NexusStartStatus
  | operationToken
  | startedSync
  | failed
  deriving DecidableEq

inductive NexusStatus
  | completed
  | failed
  | cancelled
  | timedOut
  deriving DecidableEq

/-- `propagatedNexusSerializationContext`, as it comes over the wire. -/
structure PropagatedContext where
  endpoint : Option String
  service : Option String
  operation : Option String
  deriving DecidableEq

def nexusSerializationContextFromProto (context : Option PropagatedContext) :
    Option SerializationContext :=
  context.map fun c =>
    .nexus (c.endpoint.getD "") (c.service.getD "") (some (c.operation.getD ""))

inductive JobVariant
  | initializeWorkflow (propagatedNexusSerializationContext : Option PropagatedContext)
  | fireTimer (seq : Nat)
  | resolveActivity (seq : Nat) (result : ActivityStatus)
  | resolveChildWorkflowExecutionStart (seq : Nat) (status : ChildStartStatus)
  | resolveChildWorkflowExecution (seq : Nat) (result : ChildStatus)
  | resolveSignalExternalWorkflow (seq : Nat)
  | resolveRequestCancelExternalWorkflow (seq : Nat)
  | resolveNexusOperationStart (seq : Nat) (status : NexusStartStatus)
  | resolveNexusOperation (seq : Nat) (result : NexusStatus)
  | signalWorkflow
  | queryWorkflow
  | doUpdate
  | cancelWorkflow
  | updateRandomSeed
  | notifyHasPatch
  deriving DecidableEq

abbrev Job (P : Type) : Type := Message JobVariant P

/-! ## Operations -/

/-- The operations that a workflow schedules and a job resolves.  A sequence number is unique among the
operations of a kind; remote and local activities share theirs. -/
inductive OperationKind
  | activity
  | childWorkflow
  | signalWorkflow
  | cancelWorkflow
  | nexusOperation
  deriving DecidableEq

/-- The operation that a command schedules. -/
def CommandVariant.schedules : CommandVariant → Option (OperationKind × Nat)
  | .scheduleActivity seq _ => some (.activity, seq)
  | .scheduleLocalActivity seq _ => some (.activity, seq)
  | .startChildWorkflowExecution seq _ _ => some (.childWorkflow, seq)
  | .signalExternalWorkflowExecution seq _ => some (.signalWorkflow, seq)
  | .requestCancelExternalWorkflowExecution seq _ _ => some (.cancelWorkflow, seq)
  | .scheduleNexusOperation seq _ _ _ _ => some (.nexusOperation, seq)
  | _ => none

/-- The operation that a job is a resolution of. -/
def JobVariant.resolves : JobVariant → Option (OperationKind × Nat)
  | .resolveActivity seq _ => some (.activity, seq)
  | .resolveChildWorkflowExecutionStart seq _ => some (.childWorkflow, seq)
  | .resolveChildWorkflowExecution seq _ => some (.childWorkflow, seq)
  | .resolveSignalExternalWorkflow seq => some (.signalWorkflow, seq)
  | .resolveRequestCancelExternalWorkflow seq => some (.cancelWorkflow, seq)
  | .resolveNexusOperationStart seq _ => some (.nexusOperation, seq)
  | .resolveNexusOperation seq _ => some (.nexusOperation, seq)
  | _ => none

/-- What the job that initializes the workflow propagates. -/
def JobVariant.initializes : JobVariant → Option (Option PropagatedContext)
  | .initializeWorkflow propagated => some propagated
  | _ => none

/-- The fields that a job holds payloads in. -/
def JobVariant.carries : JobVariant → Field → Bool
  | .initializeWorkflow _, f =>
    f ∈ [.arguments, .headers, .memo, .searchAttributes, .continuedFailure, .lastCompletionResult]
  | .signalWorkflow, f => f ∈ [.arguments, .headers]
  | .queryWorkflow, f => f ∈ [.arguments, .headers]
  | .doUpdate, f => f ∈ [.arguments, .headers]
  | .resolveActivity _ .completed, f => f = .result
  | .resolveActivity _ .failed, f => f = .failure
  | .resolveActivity _ .cancelled, f => f = .failure
  | .resolveChildWorkflowExecutionStart _ .cancelled, f => f = .failure
  | .resolveChildWorkflowExecution _ .completed, f => f = .result
  | .resolveChildWorkflowExecution _ .failed, f => f = .failure
  | .resolveChildWorkflowExecution _ .cancelled, f => f = .failure
  | .resolveSignalExternalWorkflow _, f => f = .failure
  | .resolveRequestCancelExternalWorkflow _, f => f = .failure
  | .resolveNexusOperationStart _ .failed, f => f = .failure
  | .resolveNexusOperation _ .completed, f => f ∈ [.result, .nested, .nestedHeaders]
  | .resolveNexusOperation _ .failed, f => f = .failure
  | .resolveNexusOperation _ .cancelled, f => f = .failure
  | .resolveNexusOperation _ .timedOut, f => f = .failure
  | _, _ => false

end TemporalSdk.Codec
