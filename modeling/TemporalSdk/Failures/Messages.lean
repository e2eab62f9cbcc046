import Mathlib.Algebra.Group.Int.Defs
import Mathlib.Data.List.Basic

/-!
# Failures and errors

The `temporal.api.failure.v1.Failure` message and the errors of `packages/common/src/failure.ts`
it stands for.  A failure message has at most one kind of information (a `oneof`), and both sides
have at most one cause.
-/

namespace TemporalSdk.Failures

/-- What an optional and nullable field of an error holds. -/
inductive Nullable (α : Type) where
  | undefined
  | null
  | value (a : α)
  deriving DecidableEq

namespace Nullable

variable {α : Type}

def toOption : Nullable α → Option α
  | undefined => none
  | null => none
  | value a => some a

/-- The field with `null` read as `undefined`. -/
def ofOption : Option α → Nullable α
  | none => undefined
  | some a => value a

end Nullable

/-- The exceptions that end a conversion. -/
inductive Thrown where
  | typeError (message : String)
  | valueError (message : String)
  /-- anything a payload converter throws -/
  | conversion (message : String)
  deriving DecidableEq

/-! ## Enumerations -/

/-- The table `makeProtoEnumConverters` is given, without its `UNSPECIFIED: 0` entry. -/
structure ProtoEnum (K : Type) where
  keys : List K
  number : K → Nat
  mem_keys : ∀ k, k ∈ keys
  number_ne_zero : ∀ k, number k ≠ 0
  number_injective : Function.Injective number

/-- A string of the enumeration, or the `unknown_23` that stands for a number not in the table. -/
inductive EnumString (K : Type) where
  | key (k : K)
  | unknown (n : Nat)
  deriving DecidableEq

namespace ProtoEnum

variable {K : Type} (table : ProtoEnum K)

def encode : Option (EnumString K) → Except Thrown (Option Nat)
  | none => pure none
  | some (.key k) => pure (some (table.number k))
  | some (.unknown n) => throw (.valueError s!"Invalid enum value: 'unknown_{n}'")

def decode : Option Nat → Option (EnumString K)
  | none => none
  | some n =>
    if n = 0 then none
    else
      match table.keys.find? fun k => table.number k == n with
      | some k => some (.key k)
      | none => some (.unknown n)

theorem decode_number (k : K) : table.decode (some (table.number k)) = some (.key k) := by
  have hfound : (table.keys.find? fun other => table.number other == table.number k) = some k := by
    have hsome : (table.keys.find? fun other => table.number other == table.number k).isSome := by
      rw [List.find?_isSome]
      exact ⟨k, table.mem_keys k, beq_self_eq_true _⟩
    obtain ⟨other, hother⟩ := Option.isSome_iff_exists.mp hsome
    have hnumber := List.find?_some hother
    rw [hother, table.number_injective (eq_of_beq hnumber)]
  simp [decode, table.number_ne_zero k, hfound]

theorem decode_encode (k : Option K) :
    ∃ n, table.encode (k.map .key) = .ok n ∧ table.decode n = k.map .key := by
  cases k with
  | none => exact ⟨none, rfl, rfl⟩
  | some k => exact ⟨some (table.number k), rfl, table.decode_number k⟩

end ProtoEnum

inductive TimeoutType where
  | START_TO_CLOSE
  | SCHEDULE_TO_START
  | SCHEDULE_TO_CLOSE
  | HEARTBEAT
  deriving DecidableEq

def TimeoutType.number : TimeoutType → Nat
  | START_TO_CLOSE => 1
  | SCHEDULE_TO_START => 2
  | SCHEDULE_TO_CLOSE => 3
  | HEARTBEAT => 4

def timeoutTypes : ProtoEnum TimeoutType where
  keys := [.START_TO_CLOSE, .SCHEDULE_TO_START, .SCHEDULE_TO_CLOSE, .HEARTBEAT]
  number := TimeoutType.number
  mem_keys k := by cases k <;> simp
  number_ne_zero k := by cases k <;> simp [TimeoutType.number]
  number_injective k k' h := by cases k <;> cases k' <;> simp_all [TimeoutType.number]

inductive RetryState where
  | IN_PROGRESS
  | NON_RETRYABLE_FAILURE
  | TIMEOUT
  | MAXIMUM_ATTEMPTS_REACHED
  | RETRY_POLICY_NOT_SET
  | INTERNAL_SERVER_ERROR
  | CANCEL_REQUESTED
  deriving DecidableEq

def RetryState.number : RetryState → Nat
  | IN_PROGRESS => 1
  | NON_RETRYABLE_FAILURE => 2
  | TIMEOUT => 3
  | MAXIMUM_ATTEMPTS_REACHED => 4
  | RETRY_POLICY_NOT_SET => 5
  | INTERNAL_SERVER_ERROR => 6
  | CANCEL_REQUESTED => 7

def retryStates : ProtoEnum RetryState where
  keys := [.IN_PROGRESS, .NON_RETRYABLE_FAILURE, .TIMEOUT, .MAXIMUM_ATTEMPTS_REACHED,
    .RETRY_POLICY_NOT_SET, .INTERNAL_SERVER_ERROR, .CANCEL_REQUESTED]
  number := RetryState.number
  mem_keys k := by cases k <;> simp
  number_ne_zero k := by cases k <;> simp [RetryState.number]
  number_injective k k' h := by cases k <;> cases k' <;> simp_all [RetryState.number]

inductive ApplicationFailureCategory where
  | BENIGN
  deriving DecidableEq

def applicationFailureCategories : ProtoEnum ApplicationFailureCategory where
  keys := [.BENIGN]
  number _ := 1
  mem_keys k := by cases k; simp
  number_ne_zero _ := Nat.one_ne_zero
  number_injective k k' _ := by cases k; cases k'; rfl

/-- The retry behaviours a Nexus handler error is encoded with. -/
inductive NexusHandlerErrorRetryBehavior where
  | RETRYABLE
  | NON_RETRYABLE
  deriving DecidableEq

def NexusHandlerErrorRetryBehavior.number : NexusHandlerErrorRetryBehavior → Nat
  | RETRYABLE => 1
  | NON_RETRYABLE => 2

def nexusHandlerErrorRetryBehaviors : ProtoEnum NexusHandlerErrorRetryBehavior where
  keys := [.RETRYABLE, .NON_RETRYABLE]
  number := NexusHandlerErrorRetryBehavior.number
  mem_keys k := by cases k <;> simp
  number_ne_zero k := by cases k <;> simp [NexusHandlerErrorRetryBehavior.number]
  number_injective k k' h := by
    cases k <;> cases k' <;> simp_all [NexusHandlerErrorRetryBehavior.number]

/-! ## Durations and numbers -/

/-- A number of milliseconds, or a string in the format of the `ms` package. -/
inductive Duration where
  | millis (n : Int)
  | text (s : String)
  deriving DecidableEq

structure Timestamp where
  seconds : Int
  nanos : Int
  deriving DecidableEq

def msNumberToTs (millis : Int) : Timestamp where
  seconds := millis / 1000
  nanos := millis.tmod 1000 * 1000000

/-- `ms` is the package of that name. -/
def msToNumber {E : Type} (ms : String → Option Int) (typeError : String → E) : Duration → Except E Int
  | .millis n => .ok n
  | .text s =>
    match ms s with
    | none => .error (typeError ("Invalid duration string: '" ++ s ++ "'"))
    | some n => .ok n

def msOptionalToTs {E : Type} (ms : String → Option Int) (typeError : String → E) :
    Option Duration → Except E (Option Timestamp)
  | none => .ok none
  | some duration => (fun n => some (msNumberToTs n)) <$> msToNumber ms typeError duration

/-- `Long.fromNumber`: a number past the ends of the 64 bit range becomes the end. -/
def longFromNumber (n : Int) : Int := max (-2 ^ 63) (min n (2 ^ 63 - 1))

/-! ## The message -/

/-- `IWorkflowExecution`, which both sides hand on as it is. -/
structure WorkflowExecution where
  workflowId : Option String
  runId : Option String
  deriving DecidableEq

inductive FailureInfo (P : Type) where
  | applicationFailureInfo (type : Nullable String) (nonRetryable : Nullable Bool)
      (details : Option (List P)) (nextRetryDelay : Option Timestamp) (category : Option Nat)
  | serverFailureInfo (nonRetryable : Nullable Bool)
  | timeoutFailureInfo (timeoutType : Option Nat) (lastHeartbeatDetails : Option (List P))
  | terminatedFailureInfo
  | canceledFailureInfo (details : Option (List P))
  | resetWorkflowFailureInfo (lastHeartbeatDetails : Option (List P))
  | childWorkflowExecutionFailureInfo (childNamespace : Option String) (workflowType : Option String)
      (workflowExecution : Option WorkflowExecution) (retryState : Option Nat)
  | activityFailureInfo (activityType : Option String) (activityId : Option String)
      (retryState : Option Nat) (identity : Option String)
  | nexusHandlerFailureInfo (type : Option String) (retryBehavior : Option Nat)
  | nexusOperationExecutionFailureInfo (scheduledEventId : Option Int)
      (endpoint service operation operationToken : Option String)
  deriving DecidableEq

/-- The fields of a failure other than its cause. -/
structure FailureFields (P : Type) where
  message : Option String
  stackTrace : Option String
  source : Option String
  encodedAttributes : Option P
  info : Option (FailureInfo P)
  deriving DecidableEq

inductive Failure (P : Type) where
  | mk (fields : FailureFields P) (cause : Option (Failure P))

/-- `nexus.Failure`: one whose metadata has the type `temporal.api.failure.v1.Failure` carries a
failure as its details; of any other one the converter needs its JSON text as a payload. -/
inductive NexusFailure (P : Type) where
  | temporal (message : String) (details : Option (Failure P))
  | foreign (message : String) (stackTrace : Option String) (json : P)

/-! ## Errors -/

/-- The class of an error and the fields of that class. -/
inductive ErrorKind (V P : Type) where
  | TemporalFailure
  | ServerFailure (nonRetryable : Bool)
  | ApplicationFailure (type : Nullable String) (nonRetryable : Nullable Bool)
      (details : Nullable (List V)) (nextRetryDelay : Nullable Duration)
      (category : Nullable (EnumString ApplicationFailureCategory))
  | CancelledFailure (details : List V)
  | TerminatedFailure
  | TimeoutFailure (lastHeartbeatDetails : V) (timeoutType : Option (EnumString TimeoutType))
  | ActivityFailure (activityType : String) (activityId : Option String)
      (retryState : Option (EnumString RetryState)) (identity : Option String)
  | ChildWorkflowFailure (childNamespace : Option String) (execution : WorkflowExecution)
      (workflowType : String) (retryState : Option (EnumString RetryState))
  | NexusOperationFailure (scheduledEventId : Option Int) (endpoint service operation : String)
      (operationToken : Option String)
  /-- the two subclasses of `TemporalFailure` the converter does not tell from their parent -/
  | WorkflowExecutionAlreadyStartedError (workflowId workflowType : String) (runId : Option String)
  | InvalidVersioningOverrideError (workflowId workflowType : String)
  /-- `HandlerError` of the `nexus-rpc` package -/
  | HandlerError (type : String) (retryableOverride : Option Bool) (rawErrorType : Option String)
      (originalFailure : Option (NexusFailure P))
  /-- an `Error` of no class of its own here -/
  | Error

/-- An error without its cause; `failure` is the message a `TemporalFailure` was made from. -/
structure ErrorFields (V P : Type) where
  kind : ErrorKind V P
  message : String
  stack : Option String
  failure : Option (Failure P)

inductive ErrorTree (V P : Type) where
  | mk (fields : ErrorFields V P) (cause : Option (ErrorTree V P))
  /-- a thrown value that is no `Error`, as the text it is reported with -/
  | nonError (text : String)

end TemporalSdk.Failures
