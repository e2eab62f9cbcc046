import Mathlib.Algebra.Group.Int.Defs
import Mathlib.Algebra.Group.Nat.Defs
import TemporalSdk.Worker.WorkerTuner

/-!
# Limits of a worker

`addDefaultWorkerOptions`, `compileWorkerOptions` and `toNativeWorkerOptions` of
`packages/worker/src/worker-options.ts`: the limits on concurrency, polling and caching, and the checks that
options have to pass.
-/

namespace TemporalSdk.Worker
namespace WorkerLimits

open WorkerTuner

/-! ## Options -/

inductive PollerBehavior where
  | simpleMaximum (maximum : Option Nat)
  | autoscaling (minimum initial maximum : Option Nat)
  deriving DecidableEq

/-- `Required<PollerBehavior>`, which is what the native worker takes too. -/
inductive RequiredPollerBehavior where
  | simpleMaximum (maximum : Nat)
  | autoscaling (minimum initial maximum : Nat)
  deriving DecidableEq

structure WorkerOptions where
  buildId : Option String
  useVersioning : Option Bool
  reuseV8Context : Option Bool
  maxCachedWorkflows : Option Nat
  nonStickyToStickyPollRatio : Option ℚ
  maxConcurrentWorkflowTaskExecutions : Option Nat
  maxConcurrentActivityTaskExecutions : Option Nat
  maxConcurrentLocalActivityExecutions : Option Nat
  maxConcurrentNexusTaskExecutions : Option Nat
  maxConcurrentWorkflowTaskPolls : Option Nat
  maxConcurrentActivityTaskPolls : Option Nat
  maxConcurrentNexusTaskPolls : Option Nat
  workflowTaskPollerBehavior : Option PollerBehavior
  activityTaskPollerBehavior : Option PollerBehavior
  nexusTaskPollerBehavior : Option PollerBehavior
  tuner : Option Tuner
  maxActivitiesPerSecond : Option ℚ
  maxTaskQueueActivitiesPerSecond : Option ℚ
  maxEagerActivityReservationsPerWorkflowTask : Option ℚ
  /-- the names of the injected sinks -/
  sinks : List String
  /-- the names of the activities that are functions -/
  activities : List String
  /-- the names of the Nexus services -/
  nexusServices : List String
  /-- a bundle or a path of workflows is given -/
  hasWorkflows : Bool
  enableNonLocalActivities : Option Bool
  deriving DecidableEq

/-- What the options are read from beside themselves: `v8.getHeapStatistics().heap_size_limit`. -/
structure Environment where
  heapSizeLimit : Nat
  deriving DecidableEq

def MiB : Nat := 2 ^ 20

/-- The options with their defaults.  `maxConcurrentWorkflowTaskExecutions` is one of the properties that `...rest`
is spread over. -/
structure WorkerOptionsWithDefaults where
  buildId : Option String
  useVersioning : Bool
  maxCachedWorkflows : Nat
  nonStickyToStickyPollRatio : ℚ
  maxConcurrentWorkflowTaskExecutions : Option Nat
  workflowTaskPollerBehavior : Option RequiredPollerBehavior
  activityTaskPollerBehavior : Option RequiredPollerBehavior
  nexusTaskPollerBehavior : Option RequiredPollerBehavior
  tuner : Tuner
  maxActivitiesPerSecond : Option ℚ
  maxTaskQueueActivitiesPerSecond : Option ℚ
  maxEagerActivityReservationsPerWorkflowTask : Option ℚ
  activities : List String
  nexusServices : List String
  hasWorkflows : Bool
  enableNonLocalActivities : Bool
  deriving DecidableEq

/-! ## Defaults -/

def defaultMaxCachedWorkflows (env : Environment) (reuseV8Context : Bool) : Nat :=
  if reuseV8Context then max ((env.heapSizeLimit - 200 * MiB) * 600 / (1024 * MiB)) 10
  else max ((env.heapSizeLimit - 400 * MiB) * 250 / (1024 * MiB)) 10

/-- `createPollerBehavior` -/
def createPollerBehavior (defaultMax : Nat) : Option PollerBehavior → RequiredPollerBehavior
  | none => .simpleMaximum defaultMax
  | some (.simpleMaximum maximum) => .simpleMaximum (maximum.getD defaultMax)
  | some (.autoscaling minimum initial maximum) =>
    .autoscaling (minimum.getD 1) (initial.getD 5) (maximum.getD 100)

/-- The behavior for a type of tasks: there is one if the behavior or the number of polls is given. -/
def pollerBehavior (defaultMax : Nat) (behavior : Option PollerBehavior) (polls : Option Nat) :
    Option RequiredPollerBehavior :=
  if behavior.isSome ∨ polls.isSome then some (createPollerBehavior defaultMax behavior) else none

def throwIf (condition : Bool) (message : String) : Except TypeError Unit :=
  if condition then .error ⟨message⟩ else .ok ()

/-- The tuner, and the most pollers of workflow, activity and Nexus tasks. -/
structure TunerDefaults where
  tuner : Tuner
  maxWFTPolls : Nat
  maxATPolls : Nat
  maxNexusTaskPolls : Nat
  deriving DecidableEq

def tunerDefaults (options : WorkerOptions) : Except TypeError TunerDefaults :=
  match options.tuner with
  | some tuner => do
    throwIf options.maxConcurrentActivityTaskExecutions.isSome
      "Cannot set both tuner and maxConcurrentActivityTaskExecutions"
    throwIf options.maxConcurrentLocalActivityExecutions.isSome
      "Cannot set both tuner and maxConcurrentLocalActivityExecutions"
    throwIf options.maxConcurrentWorkflowTaskExecutions.isSome
      "Cannot set both tuner and maxConcurrentWorkflowTaskExecutions"
    -- it is difficult to predict poll numbers for resource based slots
    return ⟨tuner, 10, 10, 10⟩
  | none =>
    let maxWft := options.maxConcurrentWorkflowTaskExecutions.getD 40
    let maxAT := options.maxConcurrentActivityTaskExecutions.getD 100
    let maxLAT := options.maxConcurrentLocalActivityExecutions.getD 100
    let maxNexusTasks := options.maxConcurrentNexusTaskExecutions.getD 100
    .ok {
      tuner := .holder {
        workflowTaskSlotSupplier := .fixedSize maxWft
        activityTaskSlotSupplier := .fixedSize maxAT
        localActivityTaskSlotSupplier := .fixedSize maxLAT
        nexusTaskSlotSupplier := .fixedSize maxNexusTasks }
      maxWFTPolls := min 10 maxWft
      maxATPolls := min 10 maxAT
      maxNexusTaskPolls := min 10 maxNexusTasks }

def addDefaultWorkerOptions (env : Environment) (options : WorkerOptions) :
    Except TypeError WorkerOptionsWithDefaults := do
  throwIf (options.useVersioning.getD false && options.buildId.getD "" == "")
    "Must provide a buildId if useVersioning is true"
  let defaults ← tunerDefaults options
  return {
    buildId := options.buildId
    useVersioning := options.useVersioning.getD false
    maxCachedWorkflows :=
      options.maxCachedWorkflows.getD (defaultMaxCachedWorkflows env (options.reuseV8Context.getD true))
    nonStickyToStickyPollRatio := options.nonStickyToStickyPollRatio.getD (1 / 5)
    -- taken out of `rest`
    maxConcurrentWorkflowTaskExecutions := none
    workflowTaskPollerBehavior := pollerBehavior defaults.maxWFTPolls options.workflowTaskPollerBehavior
      options.maxConcurrentWorkflowTaskPolls
    activityTaskPollerBehavior := pollerBehavior defaults.maxATPolls options.activityTaskPollerBehavior
      options.maxConcurrentActivityTaskPolls
    nexusTaskPollerBehavior := pollerBehavior defaults.maxNexusTaskPolls options.nexusTaskPollerBehavior
      options.maxConcurrentNexusTaskPolls
    tuner := defaults.tuner
    maxActivitiesPerSecond := options.maxActivitiesPerSecond
    maxTaskQueueActivitiesPerSecond := options.maxTaskQueueActivitiesPerSecond
    maxEagerActivityReservationsPerWorkflowTask := options.maxEagerActivityReservationsPerWorkflowTask
    activities := options.activities
    nexusServices := options.nexusServices
    hasWorkflows := options.hasWorkflows
    enableNonLocalActivities := options.enableNonLocalActivities.getD true }

/-! ## Compilation -/

def TEMPORAL_RESERVED_PREFIX : String := "__temporal_"

inductive ReservedNameEntityType where
  | activity
  | sink
  deriving DecidableEq

def ReservedNameEntityType.text : ReservedNameEntityType → String
  | activity => "activity"
  | sink => "sink"

/-- The names that `INTERNAL_RESERVED_NAME_ALLOWLIST` has for these types. -/
def internalReservedNames : ReservedNameEntityType → List String
  | .sink => ["__temporal_openai_agents_tracing", "__temporal_langsmith"]
  | .activity => []

def throwIfReservedName (type : ReservedNameEntityType) (name : String) : Except TypeError Unit := do
  throwIf (TEMPORAL_RESERVED_PREFIX.toList.isPrefixOf name.toList && !(internalReservedNames type).contains name)
    ("Cannot use " ++ type.text ++ " name: '" ++ name ++ "', with reserved prefix: '" ++ TEMPORAL_RESERVED_PREFIX ++ "'")
  throwIf (name == "__stack_trace" || name == "__enhanced_stack_trace")
    ("Cannot use " ++ type.text ++ " name: '" ++ name ++ "', which is a reserved name")

/-- `Number.isSafeInteger(value) && value >= 0` -/
def isNonNegativeSafeInteger (value : ℚ) : Bool := value.den = 1 && 0 ≤ value.num && value.num ≤ 2 ^ 53 - 1

/-- Of the limit on cached workflows: one is not enough. -/
def clampCachedWorkflows (maxCachedWorkflows : Nat) : Nat :=
  if maxCachedWorkflows ≠ 0 ∧ maxCachedWorkflows < 2 then 2 else maxCachedWorkflows

def clampWorkflowTaskExecutions (maxCachedWorkflows executions : Nat) : Nat :=
  let executions := if 0 < maxCachedWorkflows ∧ maxCachedWorkflows < executions then maxCachedWorkflows else executions
  if 0 < maxCachedWorkflows ∧ executions < 2 then 2 else executions

/-- `nexusServiceHandlersFromOptions`: the names of the services, if there are any. -/
def nexusServiceHandlersFromOptions : List String → List String → Except TypeError (List String)
  | services, [] => .ok services
  | services, name :: rest => do
    throwIf (name == "") "Nexus services must have a non-empty name."
    throwIf (services.contains name) ("Duplicate registration of nexus service '" ++ name ++ "'")
    nexusServiceHandlersFromOptions (services ++ [name]) rest

structure CompiledWorkerOptions where
  buildId : Option String
  useVersioning : Bool
  maxCachedWorkflows : Nat
  nonStickyToStickyPollRatio : ℚ
  maxConcurrentWorkflowTaskExecutions : Option Nat
  workflowTaskPollerBehavior : Option RequiredPollerBehavior
  activityTaskPollerBehavior : Option RequiredPollerBehavior
  nexusTaskPollerBehavior : Option RequiredPollerBehavior
  tuner : NativeTuner
  maxActivitiesPerSecond : Option ℚ
  maxTaskQueueActivitiesPerSecond : Option ℚ
  maxEagerActivityReservationsPerWorkflowTask : Option ℚ
  activities : List String
  nexusServiceHandlers : List String
  hasWorkflows : Bool
  enableNonLocalActivities : Bool
  deriving DecidableEq

def compileWorkerOptions (env : Environment) (rawOpts : WorkerOptions) : Except TypeError CompiledWorkerOptions := do
  rawOpts.sinks.forM (throwIfReservedName .sink)
  let opts ← addDefaultWorkerOptions env rawOpts
  throwIf (opts.maxEagerActivityReservationsPerWorkflowTask.any fun value => !isNonNegativeSafeInteger value)
    "maxEagerActivityReservationsPerWorkflowTask must be a non-negative integer"
  let maxCachedWorkflows := clampCachedWorkflows opts.maxCachedWorkflows
  opts.activities.forM (throwIfReservedName .activity)
  let tuner ← asNativeTuner opts.tuner
  let nexusServiceHandlers ← nexusServiceHandlersFromOptions [] opts.nexusServices
  return {
    buildId := opts.buildId
    useVersioning := opts.useVersioning
    maxCachedWorkflows
    nonStickyToStickyPollRatio := opts.nonStickyToStickyPollRatio
    maxConcurrentWorkflowTaskExecutions :=
      opts.maxConcurrentWorkflowTaskExecutions.map (clampWorkflowTaskExecutions maxCachedWorkflows)
    workflowTaskPollerBehavior := opts.workflowTaskPollerBehavior
    activityTaskPollerBehavior := opts.activityTaskPollerBehavior
    nexusTaskPollerBehavior := opts.nexusTaskPollerBehavior
    tuner
    maxActivitiesPerSecond := opts.maxActivitiesPerSecond
    maxTaskQueueActivitiesPerSecond := opts.maxTaskQueueActivitiesPerSecond
    maxEagerActivityReservationsPerWorkflowTask := opts.maxEagerActivityReservationsPerWorkflowTask
    activities := opts.activities
    nexusServiceHandlers
    hasWorkflows := opts.hasWorkflows
    enableNonLocalActivities := opts.enableNonLocalActivities && !opts.activities.isEmpty }

/-! ## Native options -/

structure NativeTaskTypes where
  enableWorkflows : Bool
  enableLocalActivities : Bool
  enableRemoteActivities : Bool
  enableNexus : Bool
  deriving DecidableEq

structure NativeWorkerOptions where
  buildId : String
  useVersioning : Bool
  tuner : NativeTuner
  nonStickyToStickyPollRatio : ℚ
  workflowTaskPollerBehavior : Option RequiredPollerBehavior
  activityTaskPollerBehavior : Option RequiredPollerBehavior
  nexusTaskPollerBehavior : Option RequiredPollerBehavior
  taskTypes : NativeTaskTypes
  maxCachedWorkflows : Nat
  maxTaskQueueActivitiesPerSecond : Option ℚ
  maxActivitiesPerSecond : Option ℚ
  maxEagerActivityReservationsPerWorkflowTask : ℚ
  deriving DecidableEq

def toNativeTaskPollerBehavior (behavior : RequiredPollerBehavior) : RequiredPollerBehavior :=
  match behavior with
  | .simpleMaximum maximum => .simpleMaximum maximum
  | .autoscaling minimum initial maximum => .autoscaling minimum initial maximum

/-- `buildId` is the one of the worker, if the options have none. -/
def toNativeWorkerOptions (buildId : String) (opts : CompiledWorkerOptions) : NativeWorkerOptions where
  buildId := opts.buildId.getD buildId
  useVersioning := opts.useVersioning
  tuner := opts.tuner
  nonStickyToStickyPollRatio := opts.nonStickyToStickyPollRatio
  workflowTaskPollerBehavior := opts.workflowTaskPollerBehavior.map toNativeTaskPollerBehavior
  activityTaskPollerBehavior := opts.activityTaskPollerBehavior.map toNativeTaskPollerBehavior
  nexusTaskPollerBehavior := opts.nexusTaskPollerBehavior.map toNativeTaskPollerBehavior
  taskTypes := {
    enableWorkflows := opts.hasWorkflows
    enableLocalActivities := opts.hasWorkflows && !opts.activities.isEmpty
    enableRemoteActivities := opts.enableNonLocalActivities && !opts.activities.isEmpty
    enableNexus := !opts.nexusServiceHandlers.isEmpty }
  maxCachedWorkflows := opts.maxCachedWorkflows
  maxTaskQueueActivitiesPerSecond := opts.maxTaskQueueActivitiesPerSecond
  maxActivitiesPerSecond := opts.maxActivitiesPerSecond
  maxEagerActivityReservationsPerWorkflowTask := opts.maxEagerActivityReservationsPerWorkflowTask.getD 3

/-- The native options of a worker. -/
def nativeOptions (env : Environment) (buildId : String) (options : WorkerOptions) :
    Except TypeError NativeWorkerOptions :=
  (compileWorkerOptions env options).map (toNativeWorkerOptions buildId)

/-! ## Types of tasks -/

inductive TaskKind where
  | workflow
  | activity
  | nexus
  deriving DecidableEq

def TaskKind.slotType : TaskKind → SlotType
  | workflow => .workflow
  | activity => .activity
  | nexus => .nexus

def WorkerOptions.polls (options : WorkerOptions) : TaskKind → Option Nat
  | .workflow => options.maxConcurrentWorkflowTaskPolls
  | .activity => options.maxConcurrentActivityTaskPolls
  | .nexus => options.maxConcurrentNexusTaskPolls

def WorkerOptions.behavior (options : WorkerOptions) : TaskKind → Option PollerBehavior
  | .workflow => options.workflowTaskPollerBehavior
  | .activity => options.activityTaskPollerBehavior
  | .nexus => options.nexusTaskPollerBehavior

def WorkerOptions.executions (options : WorkerOptions) : SlotType → Option Nat
  | .workflow => options.maxConcurrentWorkflowTaskExecutions
  | .activity => options.maxConcurrentActivityTaskExecutions
  | .localActivity => options.maxConcurrentLocalActivityExecutions
  | .nexus => options.maxConcurrentNexusTaskExecutions

def NativeWorkerOptions.behavior (native : NativeWorkerOptions) : TaskKind → Option RequiredPollerBehavior
  | .workflow => native.workflowTaskPollerBehavior
  | .activity => native.activityTaskPollerBehavior
  | .nexus => native.nexusTaskPollerBehavior

def defaultExecutions : SlotType → Nat
  | .workflow => 40
  | _ => 100

/-- The slots of a type, from the tuner or from the limits. -/
def WorkerOptions.slots (options : WorkerOptions) (type : SlotType) : NativeSlotSupplier :=
  match options.tuner with
  | some tuner => tuner.nativeSupplier type
  | none => .fixedSize ((options.executions type).getD (defaultExecutions type))

/-- The most pollers, before the number of polls is looked at. -/
def WorkerOptions.defaultPolls (options : WorkerOptions) (kind : TaskKind) : Nat :=
  match options.tuner with
  | some _ => 10
  | none => min 10 ((options.executions kind.slotType).getD (defaultExecutions kind.slotType))

/-- The size of the cache, with its default, and never one. -/
def WorkerOptions.cacheSize (env : Environment) (options : WorkerOptions) : Nat :=
  clampCachedWorkflows
    (options.maxCachedWorkflows.getD (defaultMaxCachedWorkflows env (options.reuseV8Context.getD true)))

/-! ## What accepted options are compiled to -/

theorem eq_ok_of_bind {α β : Type} {x : Except TypeError α} {f : α → Except TypeError β} {b : β}
    (h : (x >>= f) = .ok b) : ∃ a, x = .ok a ∧ f a = .ok b := by
  cases x with
  | error err => exact nomatch h
  | ok a => exact ⟨a, rfl, h⟩

theorem throwIf_eq_ok {condition : Bool} {message : String} {u : Unit} (h : throwIf condition message = .ok u) :
    condition = false := by
  cases condition with
  | true => exact nomatch h
  | false => rfl

structure Compiles (env : Environment) (options : WorkerOptions) (native : NativeWorkerOptions) : Prop where
  slots : ∀ type, native.tuner.supplier type = options.slots type
  behavior : ∀ kind, native.behavior kind =
    pollerBehavior (options.defaultPolls kind) (options.behavior kind) (options.polls kind)
  cache : native.maxCachedWorkflows = options.cacheSize env
  exclusive : options.tuner.isSome = true → ∀ type, type ≠ .nexus → options.executions type = none

theorem tunerDefaults_spec {options : WorkerOptions} {defaults : TunerDefaults}
    (h : tunerDefaults options = .ok defaults) :
    (∀ type, defaults.tuner.nativeSupplier type = options.slots type) ∧
      defaults.maxWFTPolls = options.defaultPolls .workflow ∧ defaults.maxATPolls = options.defaultPolls .activity ∧
      defaults.maxNexusTaskPolls = options.defaultPolls .nexus ∧
      (options.tuner.isSome = true → ∀ type, type ≠ .nexus → options.executions type = none) := by
  unfold tunerDefaults at h
  cases htuner : options.tuner with
  | some tuner =>
    rw [htuner] at h
    rcases eq_ok_of_bind h with ⟨_, hactivity, h⟩
    rcases eq_ok_of_bind h with ⟨_, hlocal, h⟩
    rcases eq_ok_of_bind h with ⟨_, hworkflow, h⟩
    cases h
    refine ⟨fun type => by rw [WorkerOptions.slots, htuner], ?_, ?_, ?_, ?_⟩
    · rw [WorkerOptions.defaultPolls, htuner]
    · rw [WorkerOptions.defaultPolls, htuner]
    · rw [WorkerOptions.defaultPolls, htuner]
    · intro _ type htype
      cases type with
      | workflow => simpa [WorkerOptions.executions] using throwIf_eq_ok hworkflow
      | activity => simpa [WorkerOptions.executions] using throwIf_eq_ok hactivity
      | localActivity => simpa [WorkerOptions.executions] using throwIf_eq_ok hlocal
      | nexus => exact absurd rfl htype
  | none =>
    rw [htuner] at h
    cases h
    refine ⟨?_, ?_, ?_, ?_, fun hsome => nomatch hsome⟩
    · intro type
      rw [WorkerOptions.slots, htuner]
      cases type <;> rfl
    all_goals
      rw [WorkerOptions.defaultPolls, htuner]
      rfl

theorem map_toNativeTaskPollerBehavior (behavior : Option RequiredPollerBehavior) :
    behavior.map toNativeTaskPollerBehavior = behavior := by
  cases behavior with
  | none => rfl
  | some behavior => cases behavior <;> rfl

theorem nativeOptions_spec {env : Environment} {buildId : String} {options : WorkerOptions}
    {native : NativeWorkerOptions} (h : nativeOptions env buildId options = .ok native) :
    Compiles env options native := by
  rw [nativeOptions, compileWorkerOptions] at h
  cases hcompiled : compileWorkerOptions env options with
  | error err =>
    rw [compileWorkerOptions] at hcompiled
    rw [hcompiled] at h
    exact nomatch h
  | ok compiled =>
    rw [compileWorkerOptions] at hcompiled
    rw [hcompiled] at h
    cases h
    rcases eq_ok_of_bind hcompiled with ⟨_, -, hcompiled⟩
    rcases eq_ok_of_bind hcompiled with ⟨opts, hopts, hcompiled⟩
    rcases eq_ok_of_bind hcompiled with ⟨_, -, hcompiled⟩
    rcases eq_ok_of_bind hcompiled with ⟨_, -, hcompiled⟩
    rcases eq_ok_of_bind hcompiled with ⟨tuner, htuner, hcompiled⟩
    rcases eq_ok_of_bind hcompiled with ⟨services, -, hcompiled⟩
    cases hcompiled
    rcases eq_ok_of_bind hopts with ⟨_, -, hopts⟩
    rcases eq_ok_of_bind hopts with ⟨defaults, hdefaults, hopts⟩
    cases hopts
    rcases tunerDefaults_spec hdefaults with ⟨hslots, hworkflow, hactivity, hnexus, hexclusive⟩
    refine ⟨?_, ?_, rfl, hexclusive⟩
    · intro type
      exact (supplier_of_asNativeTuner htuner type).trans (hslots type)
    · intro kind
      cases kind with
      | workflow => exact (map_toNativeTaskPollerBehavior _).trans (by rw [hworkflow]; rfl)
      | activity => exact (map_toNativeTaskPollerBehavior _).trans (by rw [hactivity]; rfl)
      | nexus => exact (map_toNativeTaskPollerBehavior _).trans (by rw [hnexus]; rfl)

/-! ## Limits -/

/-- A number of pollers is at most that of the slots, if that is known. -/
def capAt (polls : Nat) : Option Nat → Nat
  | some slots => min polls slots
  | none => polls

/-- What the documentation of the options promises about the native worker. -/
structure LimitsReach (options : WorkerOptions) (native : NativeWorkerOptions) : Prop where
  polls : ∀ kind polls, options.polls kind = some polls → options.behavior kind = none →
    native.behavior kind =
      some (.simpleMaximum (capAt polls (native.tuner.supplier kind.slotType).slotCount))
  workflowSlots : ∀ executions, options.maxConcurrentWorkflowTaskExecutions = some executions →
    0 < native.maxCachedWorkflows →
    ∃ slots, native.tuner.supplier .workflow = .fixedSize slots ∧ 2 ≤ slots ∧ slots ≤ native.maxCachedWorkflows
  otherSlots : ∀ type executions, options.executions type = some executions → options.tuner = none →
    (type = .workflow → native.maxCachedWorkflows = 0) → native.tuner.supplier type = .fixedSize executions
  tunerSlots : ∀ type tuner, options.tuner = some tuner → native.tuner.supplier type = tuner.nativeSupplier type
  exclusive : options.tuner.isSome = true → ∀ type, options.executions type = none

/-- The settings that have no effect are not used, or make no difference. -/
structure LimitsInForce (env : Environment) (options : WorkerOptions) : Prop where
  polls : ∀ kind polls, options.polls kind = some polls → options.behavior kind = none →
    match options.tuner with
    | some tuner => capAt polls (tuner.nativeSupplier kind.slotType).slotCount = 10
    | none =>
      polls = 10 ∨ (options.executions kind.slotType).getD (defaultExecutions kind.slotType) ≤ min polls 10
  workflowExecutions : ∀ executions, options.maxConcurrentWorkflowTaskExecutions = some executions →
    0 < options.cacheSize env → options.tuner = none → 2 ≤ executions ∧ executions ≤ options.cacheSize env
  nexusExecutions : options.tuner.isSome = true → options.maxConcurrentNexusTaskExecutions = none

section Limits

variable {env : Environment} {options : WorkerOptions} {native : NativeWorkerOptions}

theorem Compiles.behavior_of_polls (h : Compiles env options native) {kind : TaskKind} {polls : Nat}
    (hpolls : options.polls kind = some polls) (hbehavior : options.behavior kind = none) :
    native.behavior kind = some (.simpleMaximum (options.defaultPolls kind)) := by
  rw [h.behavior, hpolls, hbehavior]
  rfl

theorem defaultPolls_eq_iff (kind : TaskKind) (polls : Nat) :
    options.defaultPolls kind = capAt polls (options.slots kind.slotType).slotCount ↔
      match options.tuner with
      | some tuner => capAt polls (tuner.nativeSupplier kind.slotType).slotCount = 10
      | none =>
        polls = 10 ∨ (options.executions kind.slotType).getD (defaultExecutions kind.slotType) ≤ min polls 10 := by
  cases htuner : options.tuner with
  | some tuner =>
    simp only [WorkerOptions.defaultPolls, WorkerOptions.slots, htuner]
    exact eq_comm
  | none =>
    simp only [WorkerOptions.defaultPolls, WorkerOptions.slots, htuner, NativeSlotSupplier.slotCount, capAt]
    omega

/-- The limits of accepted options reach the native worker if, and only if, none of them is one without effect. -/
theorem limitsReach_iff {buildId : String} (h : nativeOptions env buildId options = .ok native) :
    LimitsReach options native ↔ LimitsInForce env options := by
  have hc := nativeOptions_spec h
  constructor
  · intro hreach
    refine ⟨?_, ?_, ?_⟩
    · intro kind polls hpolls hbehavior
      have hmax := hreach.polls kind polls hpolls hbehavior
      rw [hc.behavior_of_polls hpolls hbehavior, hc.slots] at hmax
      exact (defaultPolls_eq_iff kind polls).mp (by simpa using hmax)
    · intro executions hexecutions hcache htuner
      rcases hreach.workflowSlots executions hexecutions (by rw [hc.cache]; exact hcache) with ⟨slots, hslots, htwo, hmax⟩
      rw [hc.slots, WorkerOptions.slots, htuner] at hslots
      have heq : slots = executions := by
        simpa [WorkerOptions.executions, hexecutions] using hslots.symm
      rw [heq] at htwo hmax
      exact ⟨htwo, hc.cache ▸ hmax⟩
    · intro htuner
      exact hreach.exclusive htuner .nexus
  · intro hforce
    have hexclusive : options.tuner.isSome = true → ∀ type, options.executions type = none := by
      intro htuner type
      by_cases htype : type = .nexus
      · rw [htype]
        exact hforce.nexusExecutions htuner
      · exact hc.exclusive htuner type htype
    refine ⟨?_, ?_, ?_, ?_, hexclusive⟩
    · intro kind polls hpolls hbehavior
      rw [hc.behavior_of_polls hpolls hbehavior, hc.slots,
        (defaultPolls_eq_iff kind polls).mpr (hforce.polls kind polls hpolls hbehavior)]
    · intro executions hexecutions hcache
      cases htuner : options.tuner with
      | some tuner =>
        have hnone := hexclusive (by rw [htuner]; rfl) .workflow
        exact nomatch hexecutions.symm.trans hnone
      | none =>
        rw [hc.cache] at hcache
        have hrange := hforce.workflowExecutions executions hexecutions hcache htuner
        refine ⟨executions, ?_, hrange.1, hc.cache ▸ hrange.2⟩
        rw [hc.slots, WorkerOptions.slots, htuner]
        simp [WorkerOptions.executions, hexecutions]
    · intro type executions hexecutions htuner _
      rw [hc.slots, WorkerOptions.slots, htuner, hexecutions]
      rfl
    · intro type tuner htuner
      rw [hc.slots, WorkerOptions.slots, htuner]

end Limits

/-! ## Examples -/

def noOptions : WorkerOptions where
  buildId := none
  useVersioning := none
  reuseV8Context := none
  maxCachedWorkflows := none
  nonStickyToStickyPollRatio := none
  maxConcurrentWorkflowTaskExecutions := none
  maxConcurrentActivityTaskExecutions := none
  maxConcurrentLocalActivityExecutions := none
  maxConcurrentNexusTaskExecutions := none
  maxConcurrentWorkflowTaskPolls := none
  maxConcurrentActivityTaskPolls := none
  maxConcurrentNexusTaskPolls := none
  workflowTaskPollerBehavior := none
  activityTaskPollerBehavior := none
  nexusTaskPollerBehavior := none
  tuner := none
  maxActivitiesPerSecond := none
  maxTaskQueueActivitiesPerSecond := none
  maxEagerActivityReservationsPerWorkflowTask := none
  sinks := []
  activities := []
  nexusServices := []
  hasWorkflows := true
  enableNonLocalActivities := none

/-- 2 GiB -/
def heap : Environment := ⟨2048 * MiB⟩

def fivePolls : WorkerOptions :=
  { noOptions with maxConcurrentWorkflowTaskPolls := some 5, maxConcurrentActivityTaskPolls := some 20 }

def oneExecution : WorkerOptions := { noOptions with maxConcurrentWorkflowTaskExecutions := some 1 }

def fixedTuner : Tuner := .holder ⟨.fixedSize 4, .fixedSize 4, .fixedSize 4, .fixedSize 4⟩

def tunerAndNexus : WorkerOptions :=
  { noOptions with tuner := some fixedTuner, maxConcurrentNexusTaskExecutions := some 8 }

/-- A limit of each kind, all of them in force. -/
def allLimits : WorkerOptions :=
  { noOptions with
    maxCachedWorkflows := some 8
    maxConcurrentWorkflowTaskExecutions := some 6
    maxConcurrentActivityTaskExecutions := some 4
    maxConcurrentWorkflowTaskPolls := some 9
    maxConcurrentActivityTaskPolls := some 4
    maxConcurrentNexusTaskPolls := some 10 }

theorem exists_of_map {α β : Type} {x : Except TypeError α} {f : α → β} {b : β} (h : x.map f = .ok b) :
    ∃ a, x = .ok a ∧ f a = b := by
  cases x with
  | error err => cases h
  | ok a =>
    cases h
    exact ⟨a, rfl, rfl⟩

/-- Both numbers of polls become ten, one workflow slot stays one slot beside a cache, and a tuner goes with a limit. -/
theorem limits_without_effect :
    (∃ native, nativeOptions heap "b" fivePolls = .ok native ∧
      native.workflowTaskPollerBehavior = some (.simpleMaximum 10) ∧
      native.activityTaskPollerBehavior = some (.simpleMaximum 10) ∧ ¬ LimitsReach fivePolls native) ∧
    (∃ native, nativeOptions heap "b" oneExecution = .ok native ∧
      native.tuner.workflowTaskSlotSupplier = .fixedSize 1 ∧ 0 < native.maxCachedWorkflows ∧
      ¬ LimitsReach oneExecution native) ∧
    ∃ native, nativeOptions heap "b" tunerAndNexus = .ok native ∧ ¬ LimitsReach tunerAndNexus native := by
  have hfive : (nativeOptions heap "b" fivePolls).map (fun native =>
      (native.workflowTaskPollerBehavior, native.activityTaskPollerBehavior, native.tuner.supplier .workflow)) =
        .ok (some (.simpleMaximum 10), some (.simpleMaximum 10), .fixedSize 40) := by decide +kernel
  have hone : (nativeOptions heap "b" oneExecution).map (fun native =>
      (native.tuner.workflowTaskSlotSupplier, native.tuner.supplier .workflow,
        decide (0 < native.maxCachedWorkflows))) = .ok (.fixedSize 1, .fixedSize 1, true) := by decide +kernel
  have htuner : (nativeOptions heap "b" tunerAndNexus).map (fun _ => ()) = .ok () := by decide +kernel
  refine ⟨?_, ?_, ?_⟩
  · rcases exists_of_map hfive with ⟨native, hok, hvalues⟩
    simp only [Prod.mk.injEq] at hvalues
    refine ⟨native, hok, hvalues.1, hvalues.2.1, fun hreach => ?_⟩
    -- forty slots do not cap five polls
    have hpolls := hreach.polls .workflow 5 rfl rfl
    rw [NativeWorkerOptions.behavior, hvalues.1, TaskKind.slotType, hvalues.2.2] at hpolls
    cases hpolls
  · rcases exists_of_map hone with ⟨native, hok, hvalues⟩
    simp only [Prod.mk.injEq, decide_eq_true_eq] at hvalues
    refine ⟨native, hok, hvalues.1, hvalues.2.2, fun hreach => ?_⟩
    rcases hreach.workflowSlots 1 rfl hvalues.2.2 with ⟨slots, hslots, htwo, -⟩
    rw [hvalues.2.1] at hslots
    cases hslots
    omega
  · rcases exists_of_map htuner with ⟨native, hok, -⟩
    refine ⟨native, hok, fun hreach => ?_⟩
    cases hreach.exclusive rfl .nexus

theorem not_limitsInForce_fivePolls : ¬ LimitsInForce heap fivePolls := by
  intro h
  have hpolls : 5 = 10 ∨ 40 ≤ min 5 10 := h.polls .workflow 5 rfl rfl
  omega

theorem limitsInForce_allLimits : LimitsInForce heap allLimits := by
  refine ⟨?_, ?_, by rintro ⟨⟩⟩
  · intro kind polls hpolls _
    cases kind <;> cases hpolls
    · exact Or.inr (show 6 ≤ min 9 10 by decide)
    · exact Or.inr (show 4 ≤ min 4 10 by decide)
    · exact Or.inl rfl
  · intro executions hexecutions _ _
    cases hexecutions
    exact ⟨by decide, show 6 ≤ 8 by decide⟩

theorem limitsReach_iff_given :
    (∃ native, nativeOptions heap "b" fivePolls = .ok native ∧ ¬ LimitsReach fivePolls native) ∧
    ∃ native, nativeOptions heap "b" allLimits = .ok native ∧ LimitsReach allLimits native := by
  have hfive : (nativeOptions heap "b" fivePolls).map (fun _ => ()) = .ok () := by decide +kernel
  have hall : (nativeOptions heap "b" allLimits).map (fun _ => ()) = .ok () := by decide +kernel
  rcases exists_of_map hfive with ⟨native, hok, -⟩
  rcases exists_of_map hall with ⟨native', hok', -⟩
  refine ⟨⟨native, hok, fun h => ?_⟩, native', hok', ?_⟩
  · exact not_limitsInForce_fivePolls ((limitsReach_iff hok).mp h)
  · exact (limitsReach_iff hok').mpr limitsInForce_allLimits

end WorkerLimits
end TemporalSdk.Worker
