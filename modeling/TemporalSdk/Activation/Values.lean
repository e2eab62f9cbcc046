import Mathlib.Data.List.Basic

/-!
# Values — what JavaScript code can throw, and what the activator makes of it

Anything can be thrown, so the failure path of the activator is modelled over all JavaScript values
and not over errors only.  What the path looks at is kept: the truth value, the classes an object is
an instance of, and the names along its constructor chain.
-/

namespace TemporalSdk.Activation

/-- Classes that the failure path tests with `instanceof`.  `other` stands for the classes that a
workflow definition lists in `failureExceptionTypes`. -/
inductive ErrorClass
  | error
  | temporalFailure
  | cancelledFailure
  | activityFailure
  | childWorkflowFailure
  | nexusOperationFailure
  | continueAsNew
  | other (id : Nat)
  deriving DecidableEq

structure JsObject where
  classes : List ErrorClass
  -- The classes of `cause`, if that is an object.
  causeClasses : List ErrorClass
  -- `constructor.name`, the name of its parent, and so on.
  constructorNames : List String
  message : String
  deriving DecidableEq

inductive JsValue
  | undefined
  | null
  | boolean (b : Bool)
  | number (x : Rat)
  | nan
  | infinity (negative : Bool)
  | bigint (n : Int)
  | string (text : String)
  | symbol (id : Nat)
  | function (id : Nat)
  | object (o : JsObject)
  deriving DecidableEq

namespace JsValue

/-- The condition of an `if`. -/
def isTruthy : JsValue → Bool
  | undefined => false
  | null => false
  | boolean b => b
  | number x => x != 0
  | nan => false
  | infinity _ => true
  | bigint n => n != 0
  | string text => text != ""
  | symbol _ => true
  | function _ => true
  | object _ => true

def instanceOf (v : JsValue) (c : ErrorClass) : Bool :=
  match v with
  | object o => o.classes.contains c
  | _ => false

/-- `err.cause instanceof c`. -/
def causeInstanceOf (v : JsValue) (c : ErrorClass) : Bool :=
  match v with
  | object o => o.causeClasses.contains c
  | _ => false

/-- An error of one of the built-in classes. -/
def builtin (name message : String) : JsValue :=
  object
    { classes := [.error]
      causeClasses := []
      constructorNames := [name, "Error"]
      message := message }

def typeError (message : String) : JsValue := builtin "TypeError" message

def determinismViolationError (message : String) : JsValue :=
  object
    { classes := [.error]
      causeClasses := []
      constructorNames := ["DeterminismViolationError", "WorkflowError", "Error"]
      message := message }

/-- What `setUnhandledRejectionHandler` makes of the reason of a rejected promise. -/
def unhandledRejectionError (_reason : JsValue) : JsValue :=
  builtin "UnhandledRejectionError" "Unhandled Promise rejection"

/-- `ApplicationFailure.nonRetryable(message)`. -/
def applicationFailure (message : String) : JsValue :=
  object
    { classes := [.error, .temporalFailure]
      causeClasses := []
      constructorNames := ["ApplicationFailure", "TemporalFailure", "Error"]
      message := message }

/-- The error with which `CancellationScope.cancel` rejects. -/
def cancelledFailure : JsValue :=
  object
    { classes := [.error, .temporalFailure, .cancelledFailure]
      causeClasses := []
      constructorNames := ["CancelledFailure", "TemporalFailure", "Error"]
      message := "Cancellation scope cancelled" }

@[simp] theorem isTruthy_unhandledRejectionError (v : JsValue) :
    (unhandledRejectionError v).isTruthy = true := rfl

end JsValue

def isCancellation (err : JsValue) : Bool :=
  err.instanceOf .cancelledFailure ||
    ((err.instanceOf .activityFailure || err.instanceOf .childWorkflowFailure ||
      err.instanceOf .nexusOperationFailure) && err.causeInstanceOf .cancelledFailure)

/-- What counts as a failure of the workflow besides a `TemporalFailure`. -/
structure FailureTypes where
  workflowDefinitionFailureExceptionTypes : Option (List ErrorClass)
  failureExceptionTypeNames : List String

namespace FailureTypes

variable (types : FailureTypes)

/-- The classes listed by the workflow definition.  Listing `Error` catches any value. -/
def matchesClass (error : JsValue) : Bool :=
  match types.workflowDefinitionFailureExceptionTypes with
  | none => false
  | some classes => classes.contains .error || classes.any error.instanceOf

/-- The class names listed in the worker options.  Listing `'Error'` catches any value. -/
def matchesName (error : JsValue) : Bool :=
  types.failureExceptionTypeNames.contains "Error" ||
    match error with
    | .object o => o.constructorNames.any types.failureExceptionTypeNames.contains
    | _ => false

def isConfiguredFailureException (error : JsValue) : Bool :=
  types.matchesClass error || types.matchesName error

end FailureTypes

/-- The branches of `handleWorkflowFailure`. -/
inductive FailureAction
  | cancelWorkflow
  | continueAsNew
  | failWorkflow
  | recordTaskError
  deriving DecidableEq

def failureAction (types : FailureTypes) (cancelled : Bool) (error : JsValue) : FailureAction :=
  if cancelled && isCancellation error then
    .cancelWorkflow
  else if error.instanceOf .continueAsNew then
    .continueAsNew
  else if error.instanceOf .temporalFailure || types.isConfiguredFailureException error then
    .failWorkflow
  else
    .recordTaskError

/-! ## Reserved names -/

/-- What can be registered by name. -/
inductive EntityType
  | query
  | signal
  | update
  deriving DecidableEq

def EntityType.text : EntityType → String
  | .query => "query"
  | .signal => "signal"
  | .update => "update"

def hasReservedPrefix (name : String) : Bool := "__temporal_".toList.isPrefixOf name.toList

/-- `INTERNAL_RESERVED_NAME_ALLOWLIST`, without the entities that a workflow does not register. -/
def allowedReservedName (name : String) : Option EntityType :=
  if name = "__temporal_workflow_stream_publish" then some .signal
  else if name = "__temporal_workflow_stream_poll" then some .update
  else if name = "__temporal_workflow_stream_offset" then some .query
  else none

def reservedPrefixError (type : EntityType) (name : String) : JsValue :=
  .typeError ("Cannot use " ++ type.text ++ " name: '" ++ name ++
    "', with reserved prefix: '__temporal_'")

/-- `throwIfReservedName`: the error it throws. -/
def throwIfReservedName (type : EntityType) (name : String) : Option JsValue :=
  if hasReservedPrefix name && allowedReservedName name != some type then
    some (reservedPrefixError type name)
  else if name = "__stack_trace" || name = "__enhanced_stack_trace" then
    some (.typeError ("Cannot use " ++ type.text ++ " name: '" ++ name ++
      "', which is a reserved name"))
  else
    none

end TemporalSdk.Activation
