import TemporalSdk.Schedules.CalendarSpecs
import TemporalSdk.Schedules.RetryPolicies
import TemporalSdk.Workflow.SearchAttributePayloads

/-!
# ScheduleUpdate — a schedule that is described and updated

`describe` and `update` of a schedule's handle in `packages/client/src/schedule-client.ts`, with the coders of
`schedule-helpers.ts`.  `V` is the type of the application's values, `P` that of their payloads, and `A` that of the
payloads of search attributes.
-/

namespace TemporalSdk.Schedules

open Failures (Duration Timestamp msNumberToTs longFromNumber ProtoEnum EnumString)
open SearchAttributes (Host JsObject IndexedField Payload UpsertError LegacyValue SearchAttributeUpdatePair Element
  TypedSearchAttributeValue)
open Machine (roundToDouble)

variable {V P A : Type}

inductive UpdateError where
  -- `Received invalid Schedule description from server`
  | invalidDescription
  | typeError (message : String)
  | option (error : OptionError)
  | calendar (error : SpecError)
  | searchAttributes (error : UpsertError)
  | duplicateKey (message : String)
  | overlap (error : Failures.Thrown)
  -- What converters and codecs throw.
  | conversion
  deriving DecidableEq

/-! ## Messages -/

structure IIntervalSpec where
  interval : Option Timestamp
  phase : Option Timestamp
  deriving DecidableEq

structure IScheduleSpec where
  structuredCalendar : Option (List StructuredCalendarSpec)
  interval : Option (List IIntervalSpec)
  cronString : Option (List String)
  excludeStructuredCalendar : Option (List StructuredCalendarSpec)
  startTime : Option Timestamp
  endTime : Option Timestamp
  jitter : Option Timestamp
  timezoneName : Option String
  deriving DecidableEq

structure UserMetadata (P : Type) where
  summary : Option P
  details : Option P
  deriving DecidableEq

def TASK_QUEUE_KIND_NORMAL : ℕ := 1

structure TaskQueue where
  name : String
  kind : ℕ
  deriving DecidableEq

/-- `temporal.api.workflow.v1.NewWorkflowExecutionInfo` -/
structure NewWorkflowExecutionInfo (A P : Type) where
  workflowId : String
  workflowType : String
  taskQueue : TaskQueue
  input : Option (List P)
  workflowExecutionTimeout : Option Timestamp
  workflowRunTimeout : Option Timestamp
  workflowTaskTimeout : Option Timestamp
  retryPolicy : Option IRetryPolicy
  memo : Option (JsObject P)
  searchAttributes : Option (JsObject A)
  header : Option (JsObject P)
  userMetadata : Option (UserMetadata P)
  priority : Option IPriority

structure IScheduleAction (A P : Type) where
  startWorkflow : Option (NewWorkflowExecutionInfo A P)

structure ISchedulePolicies where
  overlapPolicy : Option ℕ
  catchupWindow : Option Timestamp
  pauseOnFailure : Option Bool
  deriving DecidableEq

structure IScheduleState where
  notes : Option String
  paused : Option Bool
  limitedActions : Option Bool
  remainingActions : Option ℤ
  deriving DecidableEq

structure ISchedule (A P : Type) where
  spec : Option IScheduleSpec
  action : Option (IScheduleAction A P)
  policies : Option ISchedulePolicies
  state : Option IScheduleState

structure DescribeScheduleResponse (A P : Type) where
  schedule : Option (ISchedule A P)
  memo : Option (JsObject P)
  searchAttributes : Option (JsObject A)

structure UpdateScheduleRequest (A P : Type) where
  scheduleId : String
  schedule : ISchedule A P
  searchAttributes : Option (JsObject A)

/-! ## Options and descriptions -/

inductive ScheduleOverlapPolicy where
  | SKIP
  | BUFFER_ONE
  | BUFFER_ALL
  | CANCEL_OTHER
  | TERMINATE_OTHER
  | ALLOW_ALL
  deriving DecidableEq

def ScheduleOverlapPolicy.number : ScheduleOverlapPolicy → ℕ
  | .SKIP => 1
  | .BUFFER_ONE => 2
  | .BUFFER_ALL => 3
  | .CANCEL_OTHER => 4
  | .TERMINATE_OTHER => 5
  | .ALLOW_ALL => 6

def scheduleOverlapPolicies : ProtoEnum ScheduleOverlapPolicy where
  keys := [.SKIP, .BUFFER_ONE, .BUFFER_ALL, .CANCEL_OTHER, .TERMINATE_OTHER, .ALLOW_ALL]
  number := ScheduleOverlapPolicy.number
  mem_keys k := by cases k <;> simp
  number_ne_zero k := by cases k <;> simp [ScheduleOverlapPolicy.number]
  number_injective k k' h := by cases k <;> cases k' <;> simp_all [ScheduleOverlapPolicy.number]

structure IntervalSpec where
  every : Option Duration
  offset : Option Duration
  deriving DecidableEq

structure ScheduleSpec where
  calendars : Option (List CalendarSpec)
  intervals : Option (List IntervalSpec)
  cronExpressions : Option (List String)
  skip : Option (List CalendarSpec)
  startAt : Option Date
  endAt : Option Date
  jitter : Option Duration
  timezone : Option String
  deriving DecidableEq

inductive WorkflowTypeOrFunc where
  | string (name : String)
  | function (name : String)
  deriving DecidableEq

structure ScheduleAction (V : Type) where
  workflowId : Option String
  workflowType : WorkflowTypeOrFunc
  taskQueue : String
  args : Option (List V)
  memo : Option (JsObject V)
  retry : Option RetryPolicy
  searchAttributes : Option (List (String × LegacyValue))
  typedSearchAttributes : Option (List SearchAttributeUpdatePair)
  workflowExecutionTimeout : Option Duration
  workflowRunTimeout : Option Duration
  workflowTaskTimeout : Option Duration
  staticSummary : Option V
  staticDetails : Option V
  priority : Option Priority

structure SchedulePolicies where
  overlap : Option (EnumString ScheduleOverlapPolicy)
  catchupWindow : Option Duration
  pauseOnFailure : Option Bool
  deriving DecidableEq

structure ScheduleState where
  paused : Option Bool
  note : Option String
  remainingActions : Option ℤ
  deriving DecidableEq

structure ScheduleUpdateOptions (V : Type) where
  spec : ScheduleSpec
  action : ScheduleAction V
  policies : Option SchedulePolicies
  state : Option ScheduleState
  searchAttributes : Option (List (String × LegacyValue))
  typedSearchAttributes : Option (List SearchAttributeUpdatePair)

/-- What `compileUpdatedScheduleOptions` makes of the action. -/
structure CompiledScheduleAction (V : Type) where
  action : ScheduleAction V
  workflowId : String
  workflowType : String
  args : List V

structure IntervalSpecDescription where
  every : Option ℤ
  offset : Option ℤ
  deriving DecidableEq

structure ScheduleSpecDescription where
  calendars : List CalendarSpecDescription
  intervals : List IntervalSpecDescription
  skip : List CalendarSpecDescription
  startAt : Option Date
  endAt : Option Date
  jitter : Option ℤ
  timezone : Option String
  deriving DecidableEq

structure ScheduleDescriptionAction (V : Type) where
  workflowId : String
  workflowType : String
  taskQueue : String
  args : List V
  memo : Option (JsObject V)
  retry : Option RetryPolicy
  searchAttributes : List (String × List Element)
  typedSearchAttributes : JsObject TypedSearchAttributeValue
  workflowExecutionTimeout : Option ℤ
  workflowRunTimeout : Option ℤ
  workflowTaskTimeout : Option ℤ
  staticSummary : Option V
  staticDetails : Option V
  priority : Priority

structure ScheduleDescription (V : Type) where
  scheduleId : String
  spec : ScheduleSpecDescription
  action : ScheduleDescriptionAction V
  memo : Option (JsObject V)
  searchAttributes : List (String × List Element)
  typedSearchAttributes : JsObject TypedSearchAttributeValue
  overlap : EnumString ScheduleOverlapPolicy
  catchupWindow : ℤ
  pauseOnFailure : Bool
  paused : Bool
  note : Option String
  remainingActions : Option ℤ

/-! ## Payloads -/

/-- A data converter with its codecs, in one serialization context.  Nothing comes out where it throws. -/
structure DataConverter (V P : Type) where
  toPayload : V → Option P
  fromPayload : P → Option V
  -- `undefined` and `null`
  nullish : V → Bool

namespace DataConverter

variable (conv : DataConverter V P)

def encode (v : V) : Except UpdateError P := (conv.toPayload v).elim (.error .conversion) .ok

def decode (p : P) : Except UpdateError V := (conv.fromPayload p).elim (.error .conversion) .ok

end DataConverter

/-- Convert every entry. -/
def mapEntries {α β : Type} (f : α → Except UpdateError β) :
    List (String × α) → Except UpdateError (List (String × β))
  | [] => .ok []
  | (k, v) :: entries => do
    let b ← f v
    let rest ← mapEntries f entries
    return (k, b) :: rest

def mapValues {α β : Type} (f : α → Except UpdateError β) : List α → Except UpdateError (List β)
  | [] => .ok []
  | v :: values => do
    let b ← f v
    let rest ← mapValues f values
    return b :: rest

def decodeMapFromPayloads (conv : DataConverter V P) :
    Option (JsObject P) → Except UpdateError (Option (JsObject V))
  | none => .ok none
  | some map => (fun entries => some (SearchAttributes.fromEntries entries)) <$> mapEntries conv.decode map.entries

def encodeMapToPayloads (conv : DataConverter V P) (map : JsObject V) : Except UpdateError (JsObject P) :=
  SearchAttributes.fromEntries <$> mapEntries conv.encode map.entries

/-- `(await decodeOptionalSinglePayload(…)) ?? undefined` -/
def decodeOptionalSingle (conv : DataConverter V P) : Option P → Except UpdateError (Option V)
  | none => .ok none
  | some payload => do
    let v ← conv.decode payload
    return if conv.nullish v then none else some v

def decodeUserMetadata (conv : DataConverter V P) :
    Option (UserMetadata P) → Except UpdateError (Option V × Option V)
  | none => .ok (none, none)
  | some metadata => do
    let staticSummary ← decodeOptionalSingle conv metadata.summary
    let staticDetails ← decodeOptionalSingle conv metadata.details
    return (staticSummary, staticDetails)

/-- `convertOptionalToPayload`, and the codecs. -/
def encodeOptionalSingle (conv : DataConverter V P) : Option V → Except UpdateError (Option P)
  | none => .ok none
  | some v => if conv.nullish v then .ok none else some <$> conv.encode v

def encodeUserMetadata (conv : DataConverter V P) (staticSummary staticDetails : Option V) :
    Except UpdateError (Option (UserMetadata P)) := do
  let summary ← encodeOptionalSingle conv staticSummary
  let details ← encodeOptionalSingle conv staticDetails
  return if summary.isNone ∧ details.isNone then none else some ⟨summary, details⟩

/-! ## Decoding -/

def decodeScheduleSpec (pb : IScheduleSpec) : Except UpdateError ScheduleSpecDescription := do
  let calendars ← (decodeOptionalStructuredCalendarSpecs pb.structuredCalendar).mapError .calendar
  let skip ← (decodeOptionalStructuredCalendarSpecs pb.excludeStructuredCalendar).mapError .calendar
  return {
    calendars
    intervals := (pb.interval.getD []).map fun x => ⟨optionalTsToMs x.interval, optionalTsToMs x.phase⟩
    skip
    startAt := optionalTsToDate pb.startTime
    endAt := optionalTsToDate pb.endTime
    jitter := optionalTsToMs pb.jitter
    timezone := pb.timezoneName }

def decodeScheduleAction (conv : DataConverter V P) (host : Host) (pb : IScheduleAction IndexedField P) :
    Except UpdateError (ScheduleDescriptionAction V) :=
  match pb.startWorkflow with
  | none => .error (.typeError "Unsupported schedule action")
  | some startWorkflow => do
    let metadata ← decodeUserMetadata conv startWorkflow.userMetadata
    let args ← mapValues conv.decode (startWorkflow.input.getD [])
    let memo ← decodeMapFromPayloads conv startWorkflow.memo
    let typedSearchAttributes ←
      (SearchAttributes.decodeTypedSearchAttributes host startWorkflow.searchAttributes).mapError .duplicateKey
    return {
      workflowId := startWorkflow.workflowId
      workflowType := startWorkflow.workflowType
      taskQueue := startWorkflow.taskQueue.name
      args
      memo
      retry := startWorkflow.retryPolicy.map decompileRetryPolicy
      searchAttributes := SearchAttributes.decodeSearchAttributes host startWorkflow.searchAttributes
      typedSearchAttributes
      workflowExecutionTimeout := optionalTsToMs startWorkflow.workflowExecutionTimeout
      workflowRunTimeout := optionalTsToMs startWorkflow.workflowRunTimeout
      workflowTaskTimeout := optionalTsToMs startWorkflow.workflowTaskTimeout
      staticSummary := metadata.1
      staticDetails := metadata.2
      priority := decodePriority startWorkflow.priority }

/-- `describe`, of the parts that an update takes, and the memo. -/
def describe (conv : DataConverter V P) (host : Host) (scheduleId : String)
    (raw : DescribeScheduleResponse IndexedField P) : Except UpdateError (ScheduleDescription V) :=
  match raw.schedule with
  | none => .error .invalidDescription
  | some schedule =>
    match schedule.spec, schedule.action with
    | some spec, some action => do
      let spec ← decodeScheduleSpec spec
      let action ← decodeScheduleAction conv host action
      let memo ← decodeMapFromPayloads conv raw.memo
      let typedSearchAttributes ←
        (SearchAttributes.decodeTypedSearchAttributes host raw.searchAttributes).mapError .duplicateKey
      return {
        scheduleId
        spec
        action
        memo
        searchAttributes := SearchAttributes.decodeSearchAttributes host raw.searchAttributes
        typedSearchAttributes
        overlap :=
          (scheduleOverlapPolicies.decode (schedule.policies.bind ISchedulePolicies.overlapPolicy)).getD (.key .SKIP)
        catchupWindow :=
          (optionalTsToMs (schedule.policies.bind ISchedulePolicies.catchupWindow)).getD (365 * 24 * 60 * 60 * 1000)
        pauseOnFailure := schedule.policies.bind ISchedulePolicies.pauseOnFailure = some true
        paused := schedule.state.bind IScheduleState.paused = some true
        note := schedule.state.bind IScheduleState.notes
        -- `toNumber() || 0`
        remainingActions :=
          if schedule.state.bind IScheduleState.limitedActions = some true then
            some (((schedule.state.bind IScheduleState.remainingActions).map roundToDouble).getD 0)
          else none }
    | _, _ => .error .invalidDescription

/-! ## Encoding -/

variable (ms : String → Option ℤ)

def encodeInterval (interval : IntervalSpec) : Except UpdateError IIntervalSpec :=
  match interval.every with
  | none => .error (.typeError "Invalid duration string: 'undefined'")
  | some every => do
    let every ← (msToTs ms every).mapError .option
    let phase ← (msOptionalToTs ms interval.offset).mapError .option
    return ⟨some every, phase⟩

def encodeScheduleSpec (spec : ScheduleSpec) : Except UpdateError IScheduleSpec := do
  let structuredCalendar ← (encodeOptionalStructuredCalendarSpecs spec.calendars).mapError .calendar
  let interval ← spec.intervals.elim (.ok none) fun intervals => some <$> mapValues (encodeInterval ms) intervals
  let excludeStructuredCalendar ← (encodeOptionalStructuredCalendarSpecs spec.skip).mapError .calendar
  let startTime ← (optionalDateToTs spec.startAt).mapError .option
  let endTime ← (optionalDateToTs spec.endAt).mapError .option
  let jitter ← (msOptionalToTs ms spec.jitter).mapError .option
  return {
    structuredCalendar
    interval
    cronString := spec.cronExpressions
    excludeStructuredCalendar
    startTime
    endTime
    jitter
    timezoneName := spec.timezone }

/-- `searchAttributes || typedSearchAttributes ? { indexedFields: … } : undefined` -/
def encodeAnySearchAttributes (host : Host) (searchAttributes : Option (List (String × LegacyValue)))
    (typedSearchAttributes : Option (List SearchAttributeUpdatePair)) : Except UpdateError (Option (JsObject Payload)) :=
  if searchAttributes.isSome ∨ typedSearchAttributes.isSome then
    some <$> (SearchAttributes.encodeUnifiedSearchAttributes host searchAttributes
      typedSearchAttributes).mapError .searchAttributes
  else .ok none

def encodeScheduleAction (conv : DataConverter V P) (host : Host) (compiled : CompiledScheduleAction V)
    (headers : JsObject P) : Except UpdateError (IScheduleAction Payload P) := do
  let action := compiled.action
  -- No arguments are encoded as no payloads.
  let payloads ← mapValues conv.encode compiled.args
  let workflowExecutionTimeout ← (msOptionalToTs ms action.workflowExecutionTimeout).mapError .option
  let workflowRunTimeout ← (msOptionalToTs ms action.workflowRunTimeout).mapError .option
  let workflowTaskTimeout ← (msOptionalToTs ms action.workflowTaskTimeout).mapError .option
  let retryPolicy ← action.retry.elim (.ok none) fun retry => some <$> (compileRetryPolicy ms retry).mapError .option
  let memo ← action.memo.elim (.ok none) fun memo => some <$> encodeMapToPayloads conv memo
  let searchAttributes ← encodeAnySearchAttributes host action.searchAttributes action.typedSearchAttributes
  let userMetadata ← encodeUserMetadata conv action.staticSummary action.staticDetails
  let priority ← action.priority.elim (.ok none) fun priority =>
    some <$> (compilePriority priority).mapError .option
  return ⟨some {
    workflowId := compiled.workflowId
    workflowType := compiled.workflowType
    taskQueue := ⟨action.taskQueue, TASK_QUEUE_KIND_NORMAL⟩
    input := if compiled.args = [] then none else some payloads
    workflowExecutionTimeout
    workflowRunTimeout
    workflowTaskTimeout
    retryPolicy
    memo
    searchAttributes
    header := some headers
    userMetadata
    priority }⟩

def encodeSchedulePolicies (policies : Option SchedulePolicies) : Except UpdateError ISchedulePolicies := do
  let catchupWindow ← (msOptionalToTs ms (policies.bind SchedulePolicies.catchupWindow)).mapError .option
  let overlapPolicy ← (scheduleOverlapPolicies.encode (policies.bind SchedulePolicies.overlap)).mapError .overlap
  return ⟨overlapPolicy, catchupWindow, policies.bind SchedulePolicies.pauseOnFailure⟩

def encodeScheduleState (state : Option ScheduleState) : IScheduleState where
  paused := state.bind ScheduleState.paused
  notes := state.bind ScheduleState.note
  limitedActions := some (state.bind ScheduleState.remainingActions).isSome
  -- `remainingActions ? Long.fromNumber(remainingActions) : undefined`
  remainingActions :=
    ((state.bind ScheduleState.remainingActions).filter (· ≠ 0)).map longFromNumber

/-! ## Updating -/

def extractWorkflowType : WorkflowTypeOrFunc → Except UpdateError String
  | .string name => .ok name
  | .function name =>
    if name = "" then .error (.typeError "Invalid workflow type: the workflow function is anonymous") else .ok name

/-- The checks of an update. -/
def assertRequiredScheduleOptions (opts : ScheduleUpdateOptions V) : Option UpdateError :=
  if opts.action.taskQueue = "" then
    some (.typeError "Missing ScheduleUpdateOptions.action.taskQueue for 'startWorkflow' action")
  else if opts.action.workflowType = .string "" then
    some (.typeError "Missing ScheduleUpdateOptions.action.workflowType for 'startWorkflow' action")
  else none

def compileUpdatedScheduleOptions (scheduleId : String) (options : ScheduleUpdateOptions V) :
    Except UpdateError (CompiledScheduleAction V) := do
  let workflowType ← extractWorkflowType options.action.workflowType
  return {
    action := options.action
    workflowId := options.action.workflowId.getD (scheduleId ++ "-workflow")
    workflowType
    args := options.action.args.getD [] }

/-- The request of `_updateSchedule`. -/
def _updateSchedule (conv : DataConverter V P) (host : Host) (scheduleId : String) (opts : ScheduleUpdateOptions V)
    (action : CompiledScheduleAction V) (header : JsObject P) :
    Except UpdateError (UpdateScheduleRequest Payload P) := do
  let spec ← encodeScheduleSpec ms opts.spec
  let action ← encodeScheduleAction ms conv host action header
  let policies ← encodeSchedulePolicies ms opts.policies
  let searchAttributes ← encodeAnySearchAttributes host opts.searchAttributes opts.typedSearchAttributes
  return ⟨scheduleId, ⟨some spec, some action, some policies, some (encodeScheduleState opts.state)⟩, searchAttributes⟩

/-- `update`: existing headers are kept. -/
def update (conv : DataConverter V P) (host : Host) (scheduleId : String)
    (raw : DescribeScheduleResponse IndexedField P) (updateFn : ScheduleDescription V → ScheduleUpdateOptions V) :
    Except UpdateError (UpdateScheduleRequest Payload P) := do
  let current ← describe conv host scheduleId raw
  let currentHeader := (do (← (← (← raw.schedule).action).startWorkflow).header).getD .empty
  let updated := updateFn current
  match assertRequiredScheduleOptions updated with
  | some error => .error error
  | none =>
    let action ← compileUpdatedScheduleOptions scheduleId updated
    _updateSchedule ms conv host scheduleId updated action currentHeader

/-! ## A description as it is -/

def ScheduleSpecDescription.options (spec : ScheduleSpecDescription) : ScheduleSpec where
  calendars := some (spec.calendars.map CalendarSpecDescription.spec)
  intervals := some (spec.intervals.map fun x => ⟨x.every.map .millis, x.offset.map .millis⟩)
  cronExpressions := none
  skip := some (spec.skip.map CalendarSpecDescription.spec)
  startAt := spec.startAt
  endAt := spec.endAt
  jitter := spec.jitter.map .millis
  timezone := spec.timezone

def ScheduleDescriptionAction.options (action : ScheduleDescriptionAction V) : ScheduleAction V where
  workflowId := some action.workflowId
  workflowType := .string action.workflowType
  taskQueue := action.taskQueue
  args := some action.args
  memo := action.memo
  retry := action.retry
  searchAttributes := some (SearchAttributes.legacyEntries action.searchAttributes)
  typedSearchAttributes := some (SearchAttributes.getAll action.typedSearchAttributes)
  workflowExecutionTimeout := action.workflowExecutionTimeout.map .millis
  workflowRunTimeout := action.workflowRunTimeout.map .millis
  workflowTaskTimeout := action.workflowTaskTimeout.map .millis
  staticSummary := action.staticSummary
  staticDetails := action.staticDetails
  priority := some action.priority

/-- `x => x` -/
def ScheduleDescription.unchanged (current : ScheduleDescription V) : ScheduleUpdateOptions V where
  spec := current.spec.options
  action := current.action.options
  policies := some ⟨some current.overlap, some (.millis current.catchupWindow), some current.pauseOnFailure⟩
  state := some ⟨some current.paused, current.note, current.remainingActions⟩
  searchAttributes := some (SearchAttributes.legacyEntries current.searchAttributes)
  typedSearchAttributes := some (SearchAttributes.getAll current.typedSearchAttributes)

end TemporalSdk.Schedules
