import TemporalSdk.Machine.JsObject
import TemporalSdk.Machine.Run

/-!
# EventGroups — which markers a command carries

A workflow enters scopes of event groups, one inside the other and from several branches at a time.  A command
carries the markers of the scopes around it and of the groups that are attached to it directly.
-/

namespace TemporalSdk.Workflow

open Machine

/-! ## Event groups -/

/-- What `createEventGroup` returns: for an empty id or label it throws. -/
structure ExplicitEventGroup where
  id : String
  label : Option String
  id_ne : id ≠ ""
  label_ne : label ≠ some ""
  deriving DecidableEq

inductive EventGroup
  | inboundEvent (inboundEventId : Int)
  | inboundUpdate (inboundUpdateId : String)
  | stub
  | explicit (group : ExplicitEventGroup)
  deriving DecidableEq

structure ActiveMarkerScopes where
  implicitScope : Option EventGroup
  explicitScopes : JsObject ExplicitEventGroup

def ActiveMarkerScopes.none : ActiveMarkerScopes := ⟨.none, .empty⟩

/-- A computed key of an object literal is always a property of its own. -/
def EventGroup.applyOverActiveMarkerScopes (g : EventGroup) (active : ActiveMarkerScopes) : ActiveMarkerScopes :=
  match g with
  | .explicit group => ⟨active.implicitScope, active.explicitScopes.put group.id group⟩
  | .stub => ⟨Option.none, .empty⟩
  | .inboundEvent _ | .inboundUpdate _ => ⟨some g, .empty⟩

/-- A marker on the wire. -/
inductive EventGroupMarker (P : Type)
  | inboundEvent (inboundEventId : Int)
  | inboundUpdate (inboundUpdateId : String)
  | label (id : String) (label : Option P)
  | empty

section Markers

variable {P : Type} (toPayload : String → P)

def EventGroup.toProto : EventGroup → EventGroupMarker P
  | .inboundEvent inboundEventId => .inboundEvent inboundEventId
  | .inboundUpdate inboundUpdateId => .inboundUpdate inboundUpdateId
  | .stub => .empty
  | .explicit group => .label group.id (group.label.map toPayload)

def EventGroup.isExplicit : EventGroup → Bool
  | .explicit _ => true
  | _ => false

def EventGroup.explicit? : EventGroup → Option ExplicitEventGroup
  | .explicit group => some group
  | _ => Option.none

def mergeScopeAndDirectEventGroupMarkers (store : Option ActiveMarkerScopes) (directs : Option (List EventGroup)) :
    Except String (List EventGroup) :=
  let directs := directs.getD []
  if directs.any fun group => !group.isExplicit then
    .error "Directly attached Event Groups must be created with createEventGroup()"
  else
    let active := store.getD .none
    let merged := active.explicitScopes.assignAll
      ((directs.filterMap EventGroup.explicit?).map fun marker => (marker.id, marker))
    .ok (active.implicitScope.toList ++ merged.entries.map fun e => .explicit e.2)

def eventGroupMarkersToProto (store : Option ActiveMarkerScopes) (explicit : Option (List EventGroup)) :
    Except String (Option (List (EventGroupMarker P))) := do
  let markers ← mergeScopeAndDirectEventGroupMarkers store explicit
  if markers.isEmpty then .ok Option.none else .ok (some (markers.map (EventGroup.toProto toPayload)))

/-! ## Workflows -/

/-- A branch of asynchronous code: what `AsyncLocalStorage` has for it, and the scopes around it, the innermost
one first. -/
structure Branch where
  store : Option ActiveMarkerScopes
  scopes : List EventGroup

/-- A command as it was scheduled. -/
structure Scheduled (P : Type) where
  scopes : List EventGroup
  directs : List ExplicitEventGroup
  markers : Except String (Option (List (EventGroupMarker P)))

structure Branches (P : Type) where
  branches : List Branch
  commands : List (Scheduled P)

inductive BranchAction
  -- Code of a branch starts more code: a callback, or an asynchronous function that is not waited for.
  | start (branch : Nat)
  -- `group.withScope(fn)`.
  | withScope (branch : Nat) (group : EventGroup)
  | schedule (branch : Nat) (directs : List ExplicitEventGroup)

/-- The main function. -/
def Branches.init : Branches P := ⟨[⟨Option.none, []⟩], []⟩

def branchStep (s : Branches P) (a : BranchAction) : Branches P :=
  match a with
  | .start branch =>
    match s.branches[branch]? with
    | Option.none => s
    | some b => { s with branches := s.branches ++ [b] }
  | .withScope branch group =>
    match s.branches[branch]? with
    | Option.none => s
    | some b =>
      let active := b.store.getD .none
      let inner : Branch := ⟨some (group.applyOverActiveMarkerScopes active), group :: b.scopes⟩
      { s with branches := s.branches ++ [inner] }
  | .schedule branch directs =>
    match s.branches[branch]? with
    | Option.none => s
    | some b =>
      let markers := eventGroupMarkersToProto toPayload b.store (some (directs.map .explicit))
      { s with commands := s.commands ++ [⟨b.scopes, directs, markers⟩] }

/-! ## What a command should carry -/

/-- The explicit groups that were entered since the last implicit one, the innermost first. -/
def entered : List EventGroup → List ExplicitEventGroup
  | .explicit group :: scopes => group :: entered scopes
  | _ => []

/-- The innermost implicit marker.  The stub stands for one that there is none of. -/
def implicitMarker : List EventGroup → Option EventGroup
  | [] => none
  | .explicit _ :: scopes => implicitMarker scopes
  | .stub :: _ => none
  | group :: _ => some group

/-- The group whose label is emitted for an id: the last direct one, or else that of the innermost scope. -/
def labelOf (scopes : List EventGroup) (directs : List ExplicitEventGroup) (id : String) :
    Option ExplicitEventGroup :=
  (directs.reverse.find? fun group => group.id = id).or ((entered scopes).find? fun group => group.id = id)

/-- The implicit marker comes first; then comes each id once, with its label. -/
def Scheduled.Correct (c : Scheduled P) : Prop :=
  ∃ (markers : Option (List (EventGroupMarker P))) (labels : List ExplicitEventGroup), c.markers = .ok markers ∧
    markers.getD [] = ((implicitMarker c.scopes).toList ++ labels.map EventGroup.explicit).map (EventGroup.toProto toPayload) ∧
    (labels.map ExplicitEventGroup.id).Nodup ∧
    ∀ group, group ∈ labels ↔ labelOf c.scopes c.directs group.id = some group

/-- No direct group is named like the prototype, unless there is a scope with that name. -/
def Scheduled.Assignable (c : Scheduled P) : Prop :=
  (∀ group ∈ c.directs, group.id ≠ "__proto__") ∨ ∃ group ∈ entered c.scopes, group.id = "__proto__"

theorem implicitMarker_ne_explicit {scopes : List EventGroup} {group : EventGroup}
    (h : implicitMarker scopes = some group) (explicit : ExplicitEventGroup) : group ≠ .explicit explicit := by
  rintro rfl
  fun_induction implicitMarker scopes with
  | case1 | case3 => exact nomatch h
  | case2 _ scopes ih => exact ih h
  | case4 group scopes hexplicit _ =>
    cases h
    exact hexplicit _ rfl

/-! ## The scopes of a branch -/

/-- What the storage has for a branch is what the scopes around it come to. -/
structure Branch.Sound (b : Branch) : Prop where
  implicit : (b.store.getD .none).implicitScope = implicitMarker b.scopes
  explicit : ∀ id, (b.store.getD .none).explicitScopes.get? id = (entered b.scopes).find? fun group => group.id = id

theorem Branch.Sound.main : (⟨none, []⟩ : Branch).Sound := ⟨rfl, fun _ => rfl⟩

variable {b : Branch}

theorem Branch.Sound.withScope (h : b.Sound) (group : EventGroup) :
    (⟨some (group.applyOverActiveMarkerScopes (b.store.getD .none)), group :: b.scopes⟩ : Branch).Sound := by
  cases group with
  | inboundEvent | inboundUpdate | stub => exact ⟨rfl, fun _ => rfl⟩
  | explicit group =>
    refine ⟨h.implicit, ?_⟩
    intro id
    have hput := JsObject.get?_put (b.store.getD .none).explicitScopes group.id id group
    refine hput.trans ?_
    rw [h.explicit, entered, List.find?_cons]
    by_cases hid : id = group.id
    · simp [hid]
    · have hne : ¬ group.id = id := fun heq => hid heq.symm
      simp [hid, hne]

/-! ## The markers of a command -/

/-- The properties of the object in which scopes and direct groups are merged. -/
def merged (b : Branch) (directs : List ExplicitEventGroup) : JsObject ExplicitEventGroup :=
  (b.store.getD .none).explicitScopes.assignAll (directs.map fun marker => (marker.id, marker))

theorem filterMap_explicit (directs : List ExplicitEventGroup) :
    (directs.map EventGroup.explicit).filterMap EventGroup.explicit? = directs := by
  induction directs with
  | nil => rfl
  | cons group directs ih => simp [EventGroup.explicit?, List.filterMap_map, Function.comp_def]

theorem mergeScopeAndDirect_eq (b : Branch) (directs : List ExplicitEventGroup) :
    mergeScopeAndDirectEventGroupMarkers b.store (some (directs.map .explicit)) =
      .ok ((b.store.getD .none).implicitScope.toList ++
        ((merged b directs).entries.map Prod.snd).map EventGroup.explicit) := by
  have hany : ((directs.map EventGroup.explicit).any fun group => !group.isExplicit) = false := by
    simp [List.any_eq_false, EventGroup.isExplicit]
  simp only [mergeScopeAndDirectEventGroupMarkers, Option.getD_some, hany, filterMap_explicit, merged,
    List.map_map]
  rfl

theorem exists_markers_eq (b : Branch) (directs : List ExplicitEventGroup) :
    ∃ markers, eventGroupMarkersToProto toPayload b.store (some (directs.map .explicit)) = .ok markers ∧
      markers.getD [] = ((b.store.getD .none).implicitScope.toList ++
        ((merged b directs).entries.map Prod.snd).map EventGroup.explicit).map (EventGroup.toProto toPayload) := by
  simp only [eventGroupMarkersToProto, mergeScopeAndDirect_eq, bind, Except.bind]
  split
  · rename_i hempty
    rw [List.isEmpty_iff.mp hempty]
    exact ⟨_, rfl, rfl⟩
  · exact ⟨_, rfl, rfl⟩

variable {directs : List ExplicitEventGroup}

theorem get?_merged (h : b.Sound) {id : String}
    (hid : id ≠ "__proto__" ∨ ∃ group ∈ entered b.scopes, group.id = id) :
    (merged b directs).get? id = labelOf b.scopes directs id := by
  have hable : id ≠ "__proto__" ∨ ((b.store.getD .none).explicitScopes.get? id).isSome := by
    rcases hid with hne | ⟨group, hmem, hgroup⟩
    · exact Or.inl hne
    · refine Or.inr ?_
      rw [h.explicit, List.find?_isSome]
      exact ⟨group, hmem, by simpa using hgroup⟩
  have hdirect : ((directs.map fun marker => (marker.id, marker)).reverse.find? fun e => e.1 = id).map Prod.snd =
      directs.reverse.find? fun group => group.id = id := by
    rw [← List.map_reverse, List.find?_map, Option.map_map]
    exact Option.map_id'
  rw [merged, JsObject.get?_assignAll _ _ hable, hdirect, h.explicit, labelOf]

variable {group : ExplicitEventGroup}

theorem labelOf_id {scopes : List EventGroup} {id : String}
    (h : labelOf scopes directs id = some group) : group.id = id := by
  rw [labelOf, Option.or_eq_some_iff] at h
  rcases h with hdirect | ⟨_, hscope⟩
  · simpa using List.find?_some hdirect
  · simpa using List.find?_some hscope

theorem get?_merged_id (h : b.Sound) {id : String}
    (hget : (merged b directs).get? id = some group) : group.id = id := by
  rcases JsObject.mem_of_get?_assignAll _ _ hget with hmem | hscope
  · rcases List.mem_map.mp hmem with ⟨marker, _, heq⟩
    cases heq
    rfl
  · rw [h.explicit] at hscope
    simpa using List.find?_some hscope

theorem mem_groups_iff (h : b.Sound) :
    group ∈ (merged b directs).entries.map Prod.snd ↔ (merged b directs).get? group.id = some group := by
  constructor
  · intro hmem
    rcases List.mem_map.mp hmem with ⟨⟨id, group'⟩, he, rfl⟩
    have hget := JsObject.mem_entries_iff.mp he
    rw [get?_merged_id h hget]
    exact hget
  · intro hget
    exact List.mem_map.mpr ⟨(group.id, group), JsObject.mem_entries_iff.mpr hget, rfl⟩

theorem nodup_ids (h : b.Sound) (directs : List ExplicitEventGroup) :
    (((merged b directs).entries.map Prod.snd).map ExplicitEventGroup.id).Nodup := by
  have hkeys : ((merged b directs).entries.map Prod.snd).map ExplicitEventGroup.id =
      (merged b directs).entries.map Prod.fst := by
    rw [List.map_map]
    apply List.map_congr_left
    intro e he
    exact get?_merged_id h (JsObject.mem_entries_iff.mp he)
  rw [hkeys]
  exact JsObject.nodup_keys _

/-- The command that a branch schedules. -/
def scheduled (b : Branch) (directs : List ExplicitEventGroup) : Scheduled P :=
  ⟨b.scopes, directs, eventGroupMarkersToProto toPayload b.store (some (directs.map .explicit))⟩

theorem correct_of_assignable (h : b.Sound)
    (hable : (scheduled toPayload b directs).Assignable) : (scheduled toPayload b directs).Correct toPayload := by
  rcases exists_markers_eq toPayload b directs with ⟨markers, hmarkers, hlist⟩
  rw [h.implicit] at hlist
  refine ⟨markers, _, hmarkers, hlist, nodup_ids h directs, ?_⟩
  intro group
  rw [mem_groups_iff h]
  by_cases hproto : group.id = "__proto__"
  · rcases hable with hdirects | ⟨scope, hscope, hname⟩
    · -- The name is neither that of a direct group nor, unless it has one, that of a scope.
      by_cases hscope : ∃ scope ∈ entered b.scopes, scope.id = group.id
      · rw [get?_merged h (Or.inr hscope)]
        rfl
      · have hnone : labelOf b.scopes directs group.id = none := by
          rw [labelOf, Option.or_eq_none_iff, List.find?_eq_none, List.find?_eq_none]
          refine ⟨?_, ?_⟩
          · intro marker hmarker
            have hne := hdirects marker (List.mem_reverse.mp hmarker)
            rw [hproto]
            simpa using hne
          · intro scope hmem
            push Not at hscope
            simpa using hscope scope hmem
        have hget : (merged b directs).get? group.id = none := by
          rw [hproto]
          apply JsObject.get?_assignAll_proto
          rw [h.explicit, List.find?_eq_none]
          intro scope hmem
          push Not at hscope
          rw [← hproto]
          simpa using hscope scope hmem
        show _ ↔ labelOf b.scopes directs group.id = some group
        rw [hget, hnone]
    · rw [get?_merged h (Or.inr ⟨scope, hscope, hname.trans hproto.symm⟩)]
      rfl
  · rw [get?_merged h (Or.inl hproto)]
    rfl

/-- A direct group that is named like the prototype is lost. -/
theorem assignable_of_correct (h : b.Sound)
    (hcorrect : (scheduled toPayload b directs).Correct toPayload) : (scheduled toPayload b directs).Assignable := by
  by_contra hnot
  unfold Scheduled.Assignable at hnot
  push Not at hnot
  rcases hnot with ⟨⟨direct, hdirect, hname⟩, hscopes⟩
  rcases hcorrect with ⟨markers, labels, hmarkers, hlist, _, hlabels⟩
  rcases exists_markers_eq toPayload b directs with ⟨markers', hmarkers', hlist'⟩
  obtain rfl : markers = markers' := Except.ok.inj (hmarkers.symm.trans hmarkers')
  rw [h.implicit] at hlist'
  -- The group that should be there.
  obtain ⟨group, hgroup⟩ : ∃ group, labelOf b.scopes directs "__proto__" = some group := by
    cases hfind : directs.reverse.find? fun group => group.id = "__proto__" with
    | none =>
      have hne := List.find?_eq_none.mp hfind direct (List.mem_reverse.mpr hdirect)
      simp [hname] at hne
    | some group => exact ⟨group, by rw [labelOf, hfind, Option.some_or]⟩
  have hid := labelOf_id hgroup
  have hmem : group ∈ labels := by
    rw [hlabels, hid]
    exact hgroup
  have hproto : EventGroup.toProto toPayload (.explicit group) ∈ markers.getD [] := by
    rw [hlist]
    exact List.mem_map_of_mem (List.mem_append_right _ (List.mem_map_of_mem hmem))
  rw [hlist', List.mem_map] at hproto
  rcases hproto with ⟨other, hother, heq⟩
  rcases List.mem_append.mp hother with himplicit | hexplicit
  · -- An implicit marker has no label.
    rw [Option.mem_toList] at himplicit
    have hlabel := implicitMarker_ne_explicit himplicit
    cases other with
    | explicit other => exact hlabel other rfl
    | inboundEvent | inboundUpdate | stub => exact nomatch heq
  · rcases List.mem_map.mp hexplicit with ⟨group', hgroup', rfl⟩
    have hget := (mem_groups_iff h).mp hgroup'
    have hsame : group'.id = "__proto__" := by
      simp only [EventGroup.toProto, EventGroupMarker.label.injEq] at heq
      exact heq.1.trans hid
    rw [hsame] at hget
    have hnone : (merged b directs).get? "__proto__" = none := by
      apply JsObject.get?_assignAll_proto
      rw [h.explicit, List.find?_eq_none]
      intro scope hmem
      simpa using hscopes scope hmem
    rw [hnone] at hget
    exact nomatch hget

/-! ## Runs -/

/-- Every branch has its own scopes in the storage, and every command was scheduled by such a branch. -/
structure Branches.Sound (s : Branches P) : Prop where
  branches : ∀ b ∈ s.branches, b.Sound
  commands : ∀ c ∈ s.commands, ∃ (b : Branch) (directs : List ExplicitEventGroup),
    b.Sound ∧ c = scheduled toPayload b directs

theorem Branches.Sound.init : (Branches.init : Branches P).Sound toPayload := by
  refine ⟨?_, nofun⟩
  intro b hb
  rw [List.mem_singleton.mp hb]
  exact .main

theorem Branches.Sound.step {s : Branches P} (h : s.Sound toPayload) (a : BranchAction) :
    (branchStep toPayload s a).Sound toPayload := by
  cases a with
  | start branch =>
    simp only [branchStep]
    split
    · exact h
    · rename_i b hb
      refine ⟨?_, h.commands⟩
      intro b' hb'
      rcases List.mem_append.mp hb' with hold | hnew
      · exact h.branches b' hold
      · rw [List.mem_singleton.mp hnew]
        exact h.branches b (List.mem_of_getElem? hb)
  | withScope branch group =>
    simp only [branchStep]
    split
    · exact h
    · rename_i b hb
      refine ⟨?_, h.commands⟩
      intro b' hb'
      rcases List.mem_append.mp hb' with hold | hnew
      · exact h.branches b' hold
      · rw [List.mem_singleton.mp hnew]
        exact (h.branches b (List.mem_of_getElem? hb)).withScope group
  | schedule branch directs =>
    simp only [branchStep]
    split
    · exact h
    · rename_i b hb
      refine ⟨h.branches, ?_⟩
      intro c hc
      rcases List.mem_append.mp hc with hold | hnew
      · exact h.commands c hold
      · rw [List.mem_singleton.mp hnew]
        exact ⟨b, directs, h.branches b (List.mem_of_getElem? hb), rfl⟩

theorem Branches.Sound.run (actions : List BranchAction) :
    (Machine.run (branchStep toPayload) .init actions).Sound toPayload :=
  run_invariant (fun _ a _ h => h.step toPayload a) (Branches.Sound.init toPayload) (guarded_true _ _ _)

/-- In every run of branches, a command carries the markers of the scopes around it and of its direct groups if and
only if no direct group is lost by its name. -/
theorem markers_correct (actions : List BranchAction) :
    ∀ c ∈ (Machine.run (branchStep toPayload) .init actions).commands, c.Correct toPayload ↔ c.Assignable := by
  intro c hc
  rcases (Branches.Sound.run toPayload actions).commands c hc with ⟨b, directs, hb, rfl⟩
  exact ⟨assignable_of_correct toPayload hb, correct_of_assignable toPayload hb⟩

end Markers

def orderGroup : ExplicitEventGroup := ⟨"order", some "Order", by decide, by decide⟩

/-- A timer in the scope of a group, which is also attached to it. -/
theorem markers_correct_order :
    ∃ c ∈ (Machine.run (branchStep id) .init
      [.withScope 0 (.explicit orderGroup), .schedule 1 [orderGroup]]).commands, c.Correct id := by
  refine ⟨_, List.mem_singleton.mpr rfl, ?_⟩
  exact (markers_correct id [.withScope 0 (.explicit orderGroup), .schedule 1 [orderGroup]] _
    (List.mem_singleton.mpr rfl)).mpr (Or.inl (by decide +kernel))

/-- A group that is named like the prototype. -/
def protoGroup : ExplicitEventGroup := ⟨"__proto__", none, by decide, by decide⟩

/-- A timer in the main function with that group. -/
theorem protoGroup_not_correct :
    ∃ c ∈ (Machine.run (branchStep id) .init [.schedule 0 [protoGroup]]).commands, ¬ c.Correct id := by
  refine ⟨scheduled id ⟨none, []⟩ [protoGroup], List.mem_singleton.mpr rfl, ?_⟩
  intro h
  rcases assignable_of_correct id .main h with hdirects | ⟨_, hscope, _⟩
  · exact hdirects protoGroup List.mem_cons_self rfl
  · exact nomatch hscope

end TemporalSdk.Workflow
