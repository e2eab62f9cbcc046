import Mathlib.Data.Rat.Defs

/-!
# Worker tuners

`asNativeTuner` of `packages/worker/src/worker-tuner.ts`.
-/

namespace TemporalSdk.Worker
namespace WorkerTuner

structure TypeError where
  message : String
  deriving DecidableEq

structure ResourceBasedSlotOptions where
  minimumSlots : Option Nat
  maximumSlots : Option Nat
  /-- in milliseconds -/
  rampThrottle : Option Nat
  deriving DecidableEq

structure ResourceBasedTunerOptions where
  targetMemoryUsage : ℚ
  targetCpuUsage : ℚ
  deriving DecidableEq

structure ResourceBasedTunerConfig where
  tunerOptions : Option ResourceBasedTunerOptions
  /-- which controller it is -/
  controller : Option Nat
  deriving DecidableEq

inductive SlotSupplier where
  | resourceBased (options : ResourceBasedSlotOptions) (config : ResourceBasedTunerConfig)
  | fixedSize (numSlots : Nat)
  | custom (supplier : Nat)
  deriving DecidableEq

inductive SlotType where
  | workflow
  | activity
  | localActivity
  | nexus
  deriving DecidableEq

structure TunerHolder where
  workflowTaskSlotSupplier : SlotSupplier
  activityTaskSlotSupplier : SlotSupplier
  localActivityTaskSlotSupplier : SlotSupplier
  nexusTaskSlotSupplier : SlotSupplier
  deriving DecidableEq

structure ResourceBasedTuner where
  config : ResourceBasedTunerConfig
  workflowTaskSlotOptions : Option ResourceBasedSlotOptions
  activityTaskSlotOptions : Option ResourceBasedSlotOptions
  localActivityTaskSlotOptions : Option ResourceBasedSlotOptions
  nexusTaskSlotOptions : Option ResourceBasedSlotOptions
  deriving DecidableEq

inductive Tuner where
  | holder (tuner : TunerHolder)
  | resourceBased (tuner : ResourceBasedTuner)
  deriving DecidableEq

/-! ## Native tuners -/

structure NativeSlotOptions where
  minimumSlots : Nat
  maximumSlots : Nat
  rampThrottle : Nat
  deriving DecidableEq

inductive NativeTunerConfig where
  | controller (controller : Nat)
  | options (targetMemoryUsage targetCpuUsage : ℚ)
  deriving DecidableEq

inductive NativeSlotSupplier where
  | resourceBased (options : NativeSlotOptions)
  | fixedSize (numSlots : Nat)
  | custom (supplier : Nat)
  deriving DecidableEq

structure NativeTuner where
  workflowTaskSlotSupplier : NativeSlotSupplier
  activityTaskSlotSupplier : NativeSlotSupplier
  localActivityTaskSlotSupplier : NativeSlotSupplier
  nexusTaskSlotSupplier : NativeSlotSupplier
  resourceBasedTunerConfig : Option NativeTunerConfig
  deriving DecidableEq

inductive ResourceKind where
  | activity
  | workflow
  | nexus
  deriving DecidableEq

def addResourceBasedSlotDefaults (slotOptions : ResourceBasedSlotOptions) : ResourceKind → NativeSlotOptions
  | .workflow =>
    { minimumSlots := slotOptions.minimumSlots.getD 2
      maximumSlots := slotOptions.maximumSlots.getD 1000
      rampThrottle := slotOptions.rampThrottle.getD 10 }
  | _ =>
    { minimumSlots := slotOptions.minimumSlots.getD 1
      maximumSlots := slotOptions.maximumSlots.getD 2000
      rampThrottle := slotOptions.rampThrottle.getD 50 }

def nativeifySupplier (kind : ResourceKind) : SlotSupplier → NativeSlotSupplier
  | .resourceBased options _ => .resourceBased (addResourceBasedSlotDefaults options kind)
  | .custom supplier => .custom supplier
  | .fixedSize numSlots => .fixedSize numSlots

def nativeifyResourceBasedTunerConfig (config : ResourceBasedTunerConfig) : Except TypeError NativeTunerConfig :=
  match config.controller, config.tunerOptions with
  | some controller, none => .ok (.controller controller)
  | none, some tunerOptions => .ok (.options tunerOptions.targetMemoryUsage tunerOptions.targetCpuUsage)
  | _, _ => .error ⟨"Resource-based tuner must specify exactly one of controller or tunerOptions"⟩

/-- One round of the loop of `sharedResourceBasedTunerConfig`. -/
def shareConfig (sharedConfig : Option NativeTunerConfig) : SlotSupplier → Except TypeError (Option NativeTunerConfig)
  | .resourceBased _ config =>
    match nativeifyResourceBasedTunerConfig config with
    | .error err => .error err
    | .ok config =>
      if sharedConfig.isSome ∧ sharedConfig ≠ some config then
        .error ⟨"Cannot construct worker tuner with multiple different resource-based tuner configurations"⟩
      else .ok (some config)
  | _ => .ok sharedConfig

def sharedResourceBasedTunerConfig (suppliers : List SlotSupplier) : Except TypeError (Option NativeTunerConfig) :=
  suppliers.foldlM shareConfig none

def resourceBasedSlots (slotOptions : Option ResourceBasedSlotOptions) (kind : ResourceKind) : NativeSlotSupplier :=
  .resourceBased (addResourceBasedSlotDefaults (slotOptions.getD ⟨none, none, none⟩) kind)

def asNativeTuner : Tuner → Except TypeError NativeTuner
  | .holder tuner => do
    let resourceBasedTunerConfig ← sharedResourceBasedTunerConfig
      [tuner.workflowTaskSlotSupplier, tuner.activityTaskSlotSupplier, tuner.localActivityTaskSlotSupplier,
        tuner.nexusTaskSlotSupplier]
    return {
      workflowTaskSlotSupplier := nativeifySupplier .workflow tuner.workflowTaskSlotSupplier
      activityTaskSlotSupplier := nativeifySupplier .activity tuner.activityTaskSlotSupplier
      localActivityTaskSlotSupplier := nativeifySupplier .activity tuner.localActivityTaskSlotSupplier
      nexusTaskSlotSupplier := nativeifySupplier .nexus tuner.nexusTaskSlotSupplier
      resourceBasedTunerConfig }
  | .resourceBased tuner => do
    let config ← nativeifyResourceBasedTunerConfig tuner.config
    return {
      workflowTaskSlotSupplier := resourceBasedSlots tuner.workflowTaskSlotOptions .workflow
      activityTaskSlotSupplier := resourceBasedSlots tuner.activityTaskSlotOptions .activity
      localActivityTaskSlotSupplier := resourceBasedSlots tuner.localActivityTaskSlotOptions .activity
      nexusTaskSlotSupplier := resourceBasedSlots tuner.nexusTaskSlotOptions .nexus
      resourceBasedTunerConfig := some config }

/-! ## Slots -/

def SlotType.kind : SlotType → ResourceKind
  | workflow => .workflow
  | activity => .activity
  | localActivity => .activity
  | nexus => .nexus

def TunerHolder.supplier (tuner : TunerHolder) : SlotType → SlotSupplier
  | .workflow => tuner.workflowTaskSlotSupplier
  | .activity => tuner.activityTaskSlotSupplier
  | .localActivity => tuner.localActivityTaskSlotSupplier
  | .nexus => tuner.nexusTaskSlotSupplier

def ResourceBasedTuner.slotOptions (tuner : ResourceBasedTuner) : SlotType → Option ResourceBasedSlotOptions
  | .workflow => tuner.workflowTaskSlotOptions
  | .activity => tuner.activityTaskSlotOptions
  | .localActivity => tuner.localActivityTaskSlotOptions
  | .nexus => tuner.nexusTaskSlotOptions

def NativeTuner.supplier (tuner : NativeTuner) : SlotType → NativeSlotSupplier
  | .workflow => tuner.workflowTaskSlotSupplier
  | .activity => tuner.activityTaskSlotSupplier
  | .localActivity => tuner.localActivityTaskSlotSupplier
  | .nexus => tuner.nexusTaskSlotSupplier

/-- How many slots a supplier hands out at most; a custom one does not say. -/
def NativeSlotSupplier.slotCount : NativeSlotSupplier → Option Nat
  | fixedSize numSlots => some numSlots
  | resourceBased options => some options.maximumSlots
  | custom _ => none

/-- The supplier of a tuner for a type of slots, with its defaults. -/
def Tuner.nativeSupplier (type : SlotType) : Tuner → NativeSlotSupplier
  | holder tuner => nativeifySupplier type.kind (tuner.supplier type)
  | resourceBased tuner => resourceBasedSlots (tuner.slotOptions type) type.kind

theorem supplier_of_asNativeTuner {tuner : Tuner} {native : NativeTuner} (h : asNativeTuner tuner = .ok native)
    (type : SlotType) : native.supplier type = tuner.nativeSupplier type := by
  cases tuner with
  | holder tuner =>
    rw [asNativeTuner] at h
    cases hconfig : sharedResourceBasedTunerConfig
        [tuner.workflowTaskSlotSupplier, tuner.activityTaskSlotSupplier, tuner.localActivityTaskSlotSupplier,
          tuner.nexusTaskSlotSupplier] with
    | error err => exact nomatch hconfig ▸ h
    | ok config =>
      rw [hconfig] at h
      cases h
      cases type <;> rfl
  | resourceBased tuner =>
    rw [asNativeTuner] at h
    cases hconfig : nativeifyResourceBasedTunerConfig tuner.config with
    | error err => exact nomatch hconfig ▸ h
    | ok config =>
      rw [hconfig] at h
      cases h
      cases type <;> rfl

end WorkerTuner
end TemporalSdk.Worker
