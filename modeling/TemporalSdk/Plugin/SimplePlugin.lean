import Mathlib.Data.List.Flatten

/-!
# SimplePlugin — merges of interceptors

`packages/plugin/src/plugin.ts` for parameters that are values, not functions.  The interceptors of
all kinds are of one type here.
-/

namespace TemporalSdk.Plugin

variable {I B T : Type}

inductive WorkflowClientInterceptors (I : Type) where
  /-- the deprecated object of factories -/
  | calls (factories : Option (List I))
  | list (interceptors : List I)

structure ClientInterceptors (I : Type) where
  workflow : Option (WorkflowClientInterceptors I)
  schedule : Option (List I)
  nexus : Option (List I)
  activity : Option (List I)

structure WorkerInterceptors (I : Type) where
  client : Option (ClientInterceptors I)
  activity : Option (List I)
  activityInbound : Option (List I)
  nexus : Option (List I)
  workflowModules : Option (List String)

/-- The parameters of a plugin that have to do with interceptors. -/
structure SimplePluginOptions (I B : Type) where
  clientInterceptors : Option (ClientInterceptors I)
  workflowsPath : Option String
  workflowBundle : Option B
  workerInterceptors : Option (WorkerInterceptors I)

/-! ## The `resolve` functions -/

def resolveParameterWithResolution (existing parameter : Option T) (resolve : T → T → Except String T) :
    Except String (Option T) :=
  match parameter with
  | none => .ok existing
  | some parameter =>
    match existing with
    | none => .ok (some parameter)
    | some existing => (resolve existing parameter).map some

def resolveParameter (existing parameter : Option T) : Except String (Option T) :=
  resolveParameterWithResolution existing parameter fun _ parameter => .ok parameter

def resolveAppendParameter (existing parameter : Option (List T)) : Except String (Option (List T)) :=
  match parameter with
  | none => .ok existing
  | some _ =>
    resolveParameterWithResolution (some (existing.getD [])) parameter fun existing parameter =>
      .ok (existing ++ parameter)

def modernWorkflowInterceptors :
    Option (WorkflowClientInterceptors I) → Except String (Option (List I))
  | none => .ok none
  | some (.list interceptors) => .ok (some interceptors)
  | some (.calls _) => .error "Simple plugin doesn't support old style workflow client interceptors"

def tryConcat (left right : Option (List T)) : Option (List T) :=
  match right with
  | none => left
  | some right =>
    match left with
    | none => some right
    | some left => some (left ++ right)

def resolveClientInterceptors (existing parameter : Option (ClientInterceptors I)) :
    Except String (Option (ClientInterceptors I)) :=
  resolveParameterWithResolution existing parameter fun existing parameter => do
    let left ← modernWorkflowInterceptors existing.workflow
    let right ← modernWorkflowInterceptors parameter.workflow
    -- the object literal has no `nexus` and no `activity`
    pure {
      workflow := (tryConcat left right).map .list
      schedule := tryConcat existing.schedule parameter.schedule
      nexus := none
      activity := none }

def resolveWorkerInterceptors (existing parameter : Option (WorkerInterceptors I))
    (includeWorkflowModules : Bool) : Except String (Option (WorkerInterceptors I)) :=
  let parameter :=
    if !includeWorkflowModules then parameter.map ({ · with workflowModules := none }) else parameter
  resolveParameterWithResolution existing parameter fun existing parameter => do
    let client ← resolveClientInterceptors existing.client parameter.client
    let activity ← resolveAppendParameter existing.activity parameter.activity
    let nexus ← resolveAppendParameter existing.nexus parameter.nexus
    let workflowModules ← resolveAppendParameter existing.workflowModules parameter.workflowModules
    -- nor has this one an `activityInbound`
    pure { client, activity, activityInbound := none, nexus, workflowModules }

/-! ## What a configuration gives -/

namespace ClientInterceptors

/-- The factories or the interceptors. -/
def workflowOf (given : Option (ClientInterceptors I)) : List I :=
  match given.bind ClientInterceptors.workflow with
  | none => []
  | some (.calls factories) => factories.getD []
  | some (.list interceptors) => interceptors

def scheduleOf (given : Option (ClientInterceptors I)) : List I :=
  (given.bind ClientInterceptors.schedule).getD []

def nexusOf (given : Option (ClientInterceptors I)) : List I := (given.bind ClientInterceptors.nexus).getD []

def activityOf (given : Option (ClientInterceptors I)) : List I :=
  (given.bind ClientInterceptors.activity).getD []

/-- Whether there are no workflow interceptors of the deprecated kind. -/
def isModern (given : Option (ClientInterceptors I)) : Bool :=
  match given.bind ClientInterceptors.workflow with
  | some (.calls _) => false
  | _ => true

end ClientInterceptors

/-! ## Client interceptors over several merges -/

namespace ClientInterceptors

/-- At most one configuration is given, or all of them can be merged. -/
def Mergeable (givers : List (Option (ClientInterceptors I))) : Prop :=
  givers.countP Option.isSome ≤ 1 ∨ ∀ given ∈ givers, isModern given = true

/-- What merging the configurations leaves: of two kinds, only what there was nothing to merge with. -/
structure Merged (givers : List (Option (ClientInterceptors I))) (merged : Option (ClientInterceptors I)) :
    Prop where
  given : merged.isSome = true ↔ 0 < givers.countP Option.isSome
  modern : isModern merged = true ↔ ∀ given ∈ givers, isModern given = true
  workflow : workflowOf merged = givers.flatMap workflowOf
  schedule : scheduleOf merged = givers.flatMap scheduleOf
  nexus : nexusOf merged = if givers.countP Option.isSome ≤ 1 then givers.flatMap nexusOf else []
  activity : activityOf merged = if givers.countP Option.isSome ≤ 1 then givers.flatMap activityOf else []

def Outcome (givers : List (Option (ClientInterceptors I))) :
    Except String (Option (ClientInterceptors I)) → Prop
  | .error _ => ¬ Mergeable givers
  | .ok merged => Mergeable givers ∧ Merged givers merged

theorem Mergeable.of_append {givers params : List (Option (ClientInterceptors I))}
    (h : Mergeable (givers ++ params)) : Mergeable givers := by
  rcases h with hcount | hmodern
  · rw [List.countP_append] at hcount
    exact .inl (by omega)
  · exact .inr fun given hmem => hmodern given (List.mem_append_left _ hmem)

variable {givers : List (Option (ClientInterceptors I))}

theorem outcome_none {merged : Option (ClientInterceptors I)}
    (hmergeable : Mergeable givers) (h : Merged givers merged) : Outcome (givers ++ [none]) (.ok merged) := by
  have hmodern : isModern (none : Option (ClientInterceptors I)) = true := rfl
  constructor
  · rcases hmergeable with hcount | hall
    · exact .inl (by simpa [List.countP_append] using hcount)
    · exact .inr fun given hmem => by
        rcases List.mem_append.1 hmem with hmem | hmem
        · exact hall given hmem
        · rw [List.mem_singleton.1 hmem, hmodern]
  · constructor
    · simpa [List.countP_append] using h.given
    · rw [h.modern, List.forall_mem_append, List.forall_mem_singleton, hmodern]
      simp
    · simpa [workflowOf] using h.workflow
    · simpa [scheduleOf] using h.schedule
    · simpa [List.countP_append, nexusOf] using h.nexus
    · simpa [List.countP_append, activityOf] using h.activity

theorem outcome_first (h : Merged givers none)
    (parameter : ClientInterceptors I) : Outcome (givers ++ [some parameter]) (.ok (some parameter)) := by
  have hnone : givers.countP Option.isSome = 0 := by
    refine Nat.eq_zero_of_not_pos fun hpos => ?_
    exact absurd (h.given.2 hpos) Bool.false_ne_true
  have hmodern := h.modern
  have hworkflow := h.workflow
  have hschedule := h.schedule
  have hnexus := h.nexus
  have hactivity := h.activity
  simp only [hnone, Nat.zero_le, if_true] at hnexus hactivity
  refine ⟨.inl (by simp [List.countP_append, hnone]), ?_⟩
  constructor
  · simp [List.countP_append, hnone]
  · simp only [List.forall_mem_append, ← hmodern, List.forall_mem_singleton]
    simp [isModern]
  · simp [← hworkflow, workflowOf]
  · simp [← hschedule, scheduleOf]
  · simp [List.countP_append, hnone, ← hnexus, nexusOf]
  · simp [List.countP_append, hnone, ← hactivity, activityOf]

theorem modernWorkflowInterceptors_modern {given : ClientInterceptors I} (h : isModern (some given) = true) :
    ∃ list, modernWorkflowInterceptors given.workflow = .ok list ∧ list.getD [] = workflowOf (some given) := by
  rcases given with ⟨_ | (factories | interceptors), schedule, nexus, activity⟩
  · exact ⟨none, rfl, rfl⟩
  · cases h
  · exact ⟨some interceptors, rfl, rfl⟩

theorem modernWorkflowInterceptors_old {given : ClientInterceptors I} (h : isModern (some given) = false) :
    ∃ e, modernWorkflowInterceptors given.workflow = .error e := by
  rcases given with ⟨_ | (factories | interceptors), schedule, nexus, activity⟩
  · cases h
  · exact ⟨_, rfl⟩
  · cases h

theorem tryConcat_getD (left right : Option (List T)) :
    (tryConcat left right).getD [] = left.getD [] ++ right.getD [] := by
  cases right with
  | none => simp [tryConcat]
  | some right => cases left <;> simp [tryConcat]

theorem workflowOf_list (list : Option (List I)) (schedule nexus activity : Option (List I)) :
    workflowOf (some ⟨list.map .list, schedule, nexus, activity⟩) = list.getD [] := by
  cases list <;> rfl

theorem isModern_list (list : Option (List I)) (schedule nexus activity : Option (List I)) :
    isModern (some ⟨list.map .list, schedule, nexus, activity⟩) = true := by
  cases list <;> rfl

theorem outcome_merge {existing : ClientInterceptors I}
    (h : Merged givers (some existing)) (parameter : ClientInterceptors I) :
    Outcome (givers ++ [some parameter]) (resolveClientInterceptors (some existing) (some parameter)) := by
  have hcount : 0 < givers.countP Option.isSome := h.given.1 rfl
  have hmany : ¬ (givers ++ [some parameter]).countP Option.isSome ≤ 1 := by
    simp only [List.countP_append, List.countP_singleton, Option.isSome_some, if_true]
    omega
  have hmergeable : Mergeable (givers ++ [some parameter]) ↔
      isModern (some existing) = true ∧ isModern (some parameter) = true := by
    rw [Mergeable, or_iff_right hmany, h.modern]
    simp only [List.forall_mem_append, List.forall_mem_singleton]
  simp only [resolveClientInterceptors, resolveParameterWithResolution]
  cases hexisting : isModern (some existing) with
  | false =>
    rcases modernWorkflowInterceptors_old hexisting with ⟨e, he⟩
    rw [he]
    exact fun hall => absurd (hmergeable.1 hall).1 (by rw [hexisting]; exact Bool.false_ne_true)
  | true =>
    rcases modernWorkflowInterceptors_modern hexisting with ⟨left, hleft, hleftOf⟩
    rw [hleft]
    cases hparameter : isModern (some parameter) with
    | false =>
      rcases modernWorkflowInterceptors_old hparameter with ⟨e, he⟩
      rw [he]
      exact fun hall => absurd (hmergeable.1 hall).2 (by rw [hparameter]; exact Bool.false_ne_true)
    | true =>
      rcases modernWorkflowInterceptors_modern hparameter with ⟨right, hright, hrightOf⟩
      rw [hright]
      refine ⟨hmergeable.2 ⟨hexisting, hparameter⟩, ?_⟩
      constructor
      · exact ⟨fun _ => Nat.lt_of_not_le fun hle => hmany (Nat.le_succ_of_le hle), fun _ => rfl⟩
      · rw [isModern_list, List.forall_mem_append, ← h.modern, List.forall_mem_singleton, hexisting, hparameter]
        simp
      · rw [workflowOf_list, tryConcat_getD, hleftOf, hrightOf, h.workflow, List.flatMap_append]
        simp
      · rw [List.flatMap_append, ← h.schedule]
        simp [scheduleOf, tryConcat_getD]
      all_goals
        rw [if_neg hmany]
        rfl

theorem outcome_step {merged : Option (ClientInterceptors I)}
    (hmergeable : Mergeable givers) (h : Merged givers merged) (parameter : Option (ClientInterceptors I)) :
    Outcome (givers ++ [parameter]) (resolveClientInterceptors merged parameter) := by
  cases parameter with
  | none => exact outcome_none hmergeable h
  | some parameter =>
    cases merged with
    | none => exact outcome_first h parameter
    | some existing => exact outcome_merge h parameter

theorem merged_singleton (given : Option (ClientInterceptors I)) : Merged [given] given := by
  have hcount : [given].countP Option.isSome ≤ 1 := List.countP_le_length
  constructor
  · cases given <;> simp
  · simp
  · simp
  · simp
  all_goals
    rw [if_pos hcount]
    simp

theorem outcome_foldlM : ∀ {params givers : List (Option (ClientInterceptors I))}
    {merged : Option (ClientInterceptors I)}, Mergeable givers → Merged givers merged →
    Outcome (givers ++ params) (params.foldlM resolveClientInterceptors merged)
  | [], givers, merged, hmergeable, h => by
    rw [List.append_nil]
    exact ⟨hmergeable, h⟩
  | parameter :: params, givers, merged, hmergeable, h => by
    have hstep := outcome_step hmergeable h parameter
    have happend : givers ++ parameter :: params = (givers ++ [parameter]) ++ params := by simp
    rw [List.foldlM_cons, happend]
    cases hresolve : resolveClientInterceptors merged parameter with
    | error e =>
      rw [hresolve] at hstep
      exact fun hall => hstep hall.of_append
    | ok merged' =>
      rw [hresolve] at hstep
      exact outcome_foldlM hstep.1 hstep.2

end ClientInterceptors

/-! ## Worker interceptors over several merges -/

namespace WorkerInterceptors

def clientOf (given : Option (WorkerInterceptors I)) : Option (ClientInterceptors I) :=
  given.bind WorkerInterceptors.client

def activityOf (given : Option (WorkerInterceptors I)) : List I := (given.bind WorkerInterceptors.activity).getD []

def activityInboundOf (given : Option (WorkerInterceptors I)) : List I :=
  (given.bind WorkerInterceptors.activityInbound).getD []

def nexusOf (given : Option (WorkerInterceptors I)) : List I := (given.bind WorkerInterceptors.nexus).getD []

def workflowModulesOf (given : Option (WorkerInterceptors I)) : List String :=
  (given.bind WorkerInterceptors.workflowModules).getD []

/-- As for clients; `modules` are the workflow modules that were included. -/
structure Merged (givers : List (Option (WorkerInterceptors I))) (modules : List String)
    (merged : Option (WorkerInterceptors I)) : Prop where
  given : merged.isSome = true ↔ 0 < givers.countP Option.isSome
  client : ClientInterceptors.Merged (givers.map clientOf) (clientOf merged)
  activity : activityOf merged = givers.flatMap activityOf
  nexus : nexusOf merged = givers.flatMap nexusOf
  activityInbound : activityInboundOf merged =
    if givers.countP Option.isSome ≤ 1 then givers.flatMap activityInboundOf else []
  workflowModules : workflowModulesOf merged = modules

def Outcome (givers : List (Option (WorkerInterceptors I))) (modules : List String) :
    Except String (Option (WorkerInterceptors I)) → Prop
  | .error _ => ¬ ClientInterceptors.Mergeable (givers.map clientOf)
  | .ok merged => ClientInterceptors.Mergeable (givers.map clientOf) ∧ Merged givers modules merged

theorem resolveAppendParameter_eq (existing parameter : Option (List T)) :
    ∃ appended, resolveAppendParameter existing parameter = .ok appended ∧
      appended.getD [] = existing.getD [] ++ parameter.getD [] := by
  cases parameter with
  | none => exact ⟨existing, rfl, by simp⟩
  | some parameter => exact ⟨_, rfl, rfl⟩

variable {givers : List (Option (WorkerInterceptors I))} {modules : List String}

theorem outcome_none
    {merged : Option (WorkerInterceptors I)} (hmergeable : ClientInterceptors.Mergeable (givers.map clientOf))
    (h : Merged givers modules merged) : Outcome (givers ++ [none]) modules (.ok merged) := by
  have hclient := ClientInterceptors.outcome_none hmergeable h.client
  rw [Outcome, List.map_append]
  refine ⟨hclient.1, ?_⟩
  constructor
  · simpa [List.countP_append] using h.given
  · rw [List.map_append]
    exact hclient.2
  · simpa [activityOf] using h.activity
  · simpa [nexusOf] using h.nexus
  · simpa [List.countP_append, activityInboundOf] using h.activityInbound
  · exact h.workflowModules

theorem outcome_first
    (hmergeable : ClientInterceptors.Mergeable (givers.map clientOf)) (h : Merged givers modules none)
    (parameter : WorkerInterceptors I) :
    Outcome (givers ++ [some parameter]) (modules ++ workflowModulesOf (some parameter)) (.ok (some parameter)) := by
  have hnone : givers.countP Option.isSome = 0 :=
    Nat.eq_zero_of_not_pos fun hpos => absurd (h.given.2 hpos) Bool.false_ne_true
  have hclient : ClientInterceptors.Outcome ((givers ++ [some parameter]).map clientOf)
      (.ok (clientOf (some parameter))) := by
    rw [List.map_append, List.map_singleton]
    cases clientOf (some parameter) with
    | none => exact ClientInterceptors.outcome_none hmergeable h.client
    | some client => exact ClientInterceptors.outcome_first h.client client
  have hactivity := h.activity
  have hnexus := h.nexus
  have hinbound := h.activityInbound
  have hmodules := h.workflowModules
  simp only [hnone, Nat.zero_le, if_true] at hinbound
  refine ⟨hclient.1, ?_⟩
  constructor
  · simp [List.countP_append, hnone]
  · exact hclient.2
  · simp [← hactivity, activityOf]
  · simp [← hnexus, nexusOf]
  · simp [List.countP_append, hnone, ← hinbound, activityInboundOf]
  · simp [← hmodules, workflowModulesOf]

theorem outcome_merge
    {existing : WorkerInterceptors I} (hmergeable : ClientInterceptors.Mergeable (givers.map clientOf))
    (h : Merged givers modules (some existing)) (parameter : WorkerInterceptors I) :
    Outcome (givers ++ [some parameter]) (modules ++ workflowModulesOf (some parameter))
      (resolveWorkerInterceptors (some existing) (some parameter) true) := by
  have hcount : 0 < givers.countP Option.isSome := h.given.1 rfl
  have hmany : ¬ (givers ++ [some parameter]).countP Option.isSome ≤ 1 := by
    simp only [List.countP_append, List.countP_singleton, Option.isSome_some, if_true]
    omega
  have hclient := ClientInterceptors.outcome_step hmergeable h.client (clientOf (some parameter))
  have hgivers : givers.map clientOf ++ [clientOf (some parameter)] =
      (givers ++ [some parameter]).map clientOf := by simp
  rw [hgivers] at hclient
  rcases resolveAppendParameter_eq existing.activity parameter.activity with ⟨activity, hactivity, hactivityOf⟩
  rcases resolveAppendParameter_eq existing.nexus parameter.nexus with ⟨nexus, hnexus, hnexusOf⟩
  rcases resolveAppendParameter_eq existing.workflowModules parameter.workflowModules with
    ⟨workflowModules, hmodules, hmodulesOf⟩
  simp only [resolveWorkerInterceptors, resolveParameterWithResolution, Bool.not_true, Bool.false_eq_true, if_false,
    hactivity, hnexus, hmodules]
  have hclientOf : resolveClientInterceptors existing.client parameter.client =
      resolveClientInterceptors (clientOf (some existing)) (clientOf (some parameter)) := rfl
  rw [hclientOf]
  cases hresolve : resolveClientInterceptors (clientOf (some existing)) (clientOf (some parameter)) with
  | error e =>
    rw [hresolve] at hclient
    exact hclient
  | ok client =>
    rw [hresolve] at hclient
    refine ⟨hclient.1, ?_⟩
    constructor
    · exact ⟨fun _ => Nat.lt_of_not_le fun hle => hmany (Nat.le_succ_of_le hle), fun _ => rfl⟩
    · exact hclient.2
    · rw [List.flatMap_append, ← h.activity]
      simpa [activityOf] using hactivityOf
    · rw [List.flatMap_append, ← h.nexus]
      simpa [nexusOf] using hnexusOf
    · rw [if_neg hmany]
      rfl
    · rw [← h.workflowModules]
      exact hmodulesOf

/-- A plugin's workflow modules are left out when they are not to be included. -/
theorem outcome_step
    {merged : Option (WorkerInterceptors I)} (hmergeable : ClientInterceptors.Mergeable (givers.map clientOf))
    (h : Merged givers modules merged) (parameter : Option (WorkerInterceptors I)) (included : Bool) :
    Outcome (givers ++ [parameter]) (modules ++ if included then workflowModulesOf parameter else [])
      (resolveWorkerInterceptors merged parameter included) := by
  have hincluded : ∀ parameter : Option (WorkerInterceptors I),
      Outcome (givers ++ [parameter]) (modules ++ workflowModulesOf parameter)
        (resolveWorkerInterceptors merged parameter true) := by
    intro parameter
    cases parameter with
    | none =>
      have hnone : modules ++ workflowModulesOf (none : Option (WorkerInterceptors I)) = modules := by
        simp [workflowModulesOf]
      rw [hnone]
      exact outcome_none hmergeable h
    | some parameter =>
      cases merged with
      | none => exact outcome_first hmergeable h parameter
      | some existing => exact outcome_merge hmergeable h parameter
  cases included with
  | true => exact hincluded parameter
  | false =>
    cases parameter with
    | none =>
      rw [if_neg Bool.false_ne_true, List.append_nil]
      exact outcome_none hmergeable h
    | some parameter =>
      -- the rest of the parameter is what the plugin gives
      have hwithout := hincluded (some { parameter with workflowModules := none })
      have hoff : resolveWorkerInterceptors merged (some parameter) false =
          resolveWorkerInterceptors merged (some { parameter with workflowModules := none }) true := rfl
      rw [hoff]
      cases hresolve : resolveWorkerInterceptors merged (some { parameter with workflowModules := none }) true with
      | error e =>
        rw [hresolve] at hwithout
        simpa [Outcome, clientOf] using hwithout
      | ok merged' =>
        rw [hresolve] at hwithout
        refine ⟨by simpa [clientOf] using hwithout.1, ?_⟩
        constructor
        · simpa [List.countP_append] using hwithout.2.given
        · simpa [clientOf] using hwithout.2.client
        · simpa [activityOf] using hwithout.2.activity
        · simpa [nexusOf] using hwithout.2.nexus
        · simpa [List.countP_append, activityInboundOf] using hwithout.2.activityInbound
        · simpa [workflowModulesOf] using hwithout.2.workflowModules

theorem merged_singleton (given : Option (WorkerInterceptors I)) : Merged [given] (workflowModulesOf given) given := by
  have hcount : [given].countP Option.isSome ≤ 1 := List.countP_le_length
  constructor
  · cases given <;> simp
  · exact ClientInterceptors.merged_singleton (clientOf given)
  · simp
  · simp
  · rw [if_pos hcount]
    simp
  · rfl

end WorkerInterceptors

end TemporalSdk.Plugin
