import TemporalSdk.Machine.Run
import TemporalSdk.Machine.Tally

/-!
# ActivityTasks — `activityOperator`

The tasks of a token go to one group of `closeableGroupBy`, which processes them one after the other
(`mergeMapWithState` with concurrency 1).  A start task makes an activity, which is then run; a cancel task that is
processed after it is delivered to the activity.  The group is closed when the completion is emitted, and is
then held only until the tasks that still wait in it have been processed.  A task for a token without an open
group opens one.

`T` is the type of tokens and `C` that of cancel tasks.
-/

namespace TemporalSdk.Worker
namespace ActivityTasks

open Machine

inductive Item (C : Type)
  | start
  | cancel (c : C)
  deriving DecidableEq

/-- A group, whose first item is being processed; `activity` tells whether its state is an activity. -/
structure Group (C : Type) where
  items : List (Item C)
  activity : Bool
  deriving DecidableEq

/-- How far the start task of a token is. -/
inductive Phase
  | absent
  -- It waits in its group, or is being processed.
  | starting
  -- `activity.run`.
  | running (isLocal : Bool)
  -- The activity failed, and its last heartbeat is being flushed.
  | flushing
  -- The store pass over the completion.
  | offloading
  | completed
  -- An error went out of the operator.
  | lost
  deriving DecidableEq

/-- What there is of one token.  The last four fields are for stating properties only. -/
structure Entry (C : Type) where
  group : Option (Group C)
  -- Closed groups with items.
  draining : List (Group C)
  phase : Phase
  completions : Nat
  -- Whether an activity was made.
  created : Bool
  -- The cancels that came after the start and before the completion, and those that were delivered.
  owed : List C
  delivered : List C
  deriving DecidableEq

/-- What the processing of a start task comes to. -/
inductive StartResult
  | run (isLocal : Bool)
  -- The failure that the task is answered with.
  | result
  -- That failure cannot be encoded.
  | error
  deriving DecidableEq

inductive RunResult
  -- Completed, cancelled or to be completed asynchronously.
  | resolved
  | failed
  -- The failure cannot be encoded.
  | error
  deriving DecidableEq

inductive Action (C : Type)
  | start
  | cancel (c : C)
  -- The first item of the open group, and of a closed one, has been processed.
  | processed (r : StartResult)
  | drained
  | ran (r : RunResult)
  | flushed
  -- The store pass has passed, or failed and the failure was encoded; or it was not.
  | offloaded (encoded : Bool)

/-- An entry after a step, the changes of the counters, and whether an error goes out of the operator. -/
structure Effect (C : Type) where
  entry : Entry C
  changeLocal : Int
  changeNonLocal : Int
  failed : Bool

namespace Entry

variable {C : Type}

def absent : Entry C := ⟨none, [], .absent, 0, false, [], []⟩

def outstanding (e : Entry C) : Bool :=
  match e.phase with
  | .starting => true
  | .running _ => true
  | .flushing => true
  | .offloading => true
  | _ => false

/-- The activity function is running, as a local activity or not. -/
def running (isLocal : Bool) (e : Entry C) : Bool := e.phase = .running isLocal

def same (e : Entry C) : Effect C := ⟨e, 0, 0, false⟩

/-- What is delivered when the first item of a group begins to be processed. -/
def deliveries (g : Group C) : List C :=
  match g.activity, g.items with
  | true, .cancel c :: _ => [c]
  | _, _ => []

/-- An item comes to the open group, or opens one. -/
def enqueue (e : Entry C) (item : Item C) : Entry C :=
  let g := e.group.getD ⟨[], false⟩
  let g' := { g with items := g.items ++ [item] }
  { e with
    group := some g'
    -- It is processed at once if no other is.
    delivered := e.delivered ++ if g.items.isEmpty then deliveries g' else [] }

def change (isLocal : Bool) (n : Int) (e : Entry C) (failed : Bool) : Effect C :=
  ⟨e, if isLocal then n else 0, if isLocal then 0 else n, failed⟩

/-- The next item of the open group begins to be processed. -/
def proceed (e : Entry C) (g : Group C) : Entry C :=
  { e with group := some g, delivered := e.delivered ++ deliveries g }

/-- The first item of the open group has been processed. -/
def processed (e : Entry C) (r : StartResult) : Effect C :=
  match e.group with
  | none => e.same
  | some g =>
    match g.items with
    | [] => e.same
    | .cancel _ :: items => (e.proceed { g with items := items }).same
    | .start :: items =>
      match r, g.activity with
      | .error, _ => ⟨{ e with phase := .lost }, 0, 0, true⟩
      | .run isLocal, false =>
        change isLocal 1
          ({ e with phase := .running isLocal, created := true }.proceed ⟨items, true⟩) false
      -- Also where the activity is already running.
      | _, _ => ({ e with phase := .offloading }.proceed { g with items := items }).same

def drained (e : Entry C) : Effect C :=
  match e.draining with
  | [] => e.same
  | g :: rest =>
    let g' := { g with items := g.items.tail }
    same
      { e with
        draining := if g'.items.isEmpty then rest else g' :: rest
        delivered := e.delivered ++ deliveries g' }

/-- The completion is emitted, and the group closed. -/
def emit (e : Entry C) : Entry C :=
  { e with
    phase := .completed
    completions := e.completions + 1
    group := none
    draining := e.draining ++ e.group.toList.filter (fun g => !g.items.isEmpty) }

/-- Nothing happens where the action is not possible.  When an error has gone out of the operator, it takes no
more tasks and emits nothing, but activities run on. -/
def act (operatorFailed : Bool) (e : Entry C) : Action C → Effect C
  | .start =>
    if operatorFailed then e.same else ({ e with phase := .starting }.enqueue .start).same
  | .cancel c =>
    if operatorFailed then e.same
    else ({ e with owed := if e.outstanding then e.owed ++ [c] else e.owed }.enqueue (.cancel c)).same
  | .processed r => if operatorFailed then e.same else e.processed r
  | .drained => if operatorFailed then e.same else e.drained
  | .ran r =>
    match e.phase with
    | .running isLocal =>
      match r with
      | .resolved => change isLocal (-1) { e with phase := .offloading } false
      | .failed => change isLocal (-1) { e with phase := .flushing } false
      | .error => change isLocal (-1) { e with phase := .lost } true
    | _ => e.same
  | .flushed =>
    match e.phase with
    | .flushing => { e with phase := .offloading }.same
    | _ => e.same
  | .offloaded encoded =>
    match e.phase with
    | .offloading =>
      if encoded then
        if operatorFailed then { e with phase := .lost }.same else e.emit.same
      else ⟨{ e with phase := .lost }, 0, 0, true⟩
    | _ => e.same

/-- The cancels that wait in the groups that have an activity. -/
def waiting (e : Entry C) : List C :=
  ((e.group.toList ++ e.draining).filter Group.activity).flatMap fun g =>
    g.items.tail.filterMap fun
      | .cancel c => some c
      | .start => none

end Entry

/-! ## One token -/

section Entry

variable {C : Type}

/-- A group that has no activity and no start task. -/
def stray (cs : List C) : Group C := ⟨cs.map .cancel, false⟩

/-- A closed group. -/
def closedGroup (cs : List C) (activity : Bool) : List (Group C) :=
  if cs.isEmpty then [] else [⟨cs.map .cancel, activity⟩]

/-- The activity has been made, and its completion has not been emitted. -/
def Phase.going : Phase → Bool
  | .running _ => true
  | .flushing => true
  | .offloading => true
  | _ => false

/-- What an entry can look like as long as every failure can be encoded. -/
inductive Shape : Entry C → Prop
  | absent (strays : Option (List C)) : Shape ⟨strays.map stray, [], .absent, 0, false, [], []⟩
  | starting (before after : List C) :
      Shape ⟨some ⟨before.map .cancel ++ .start :: after.map .cancel, false⟩, [], .starting, 0, false,
        after, []⟩
  -- The start task could not be processed.
  | unstarted (cs owed : List C) : Shape ⟨some (stray cs), [], .offloading, 0, false, owed, []⟩
  | going (phase : Phase) (hphase : phase.going = true) (cs delivered : List C) :
      Shape ⟨some ⟨cs.map .cancel, true⟩, [], phase, 0, true, delivered ++ cs.tail, delivered⟩
  | completed (strays : Option (List C)) (cs delivered : List C) :
      Shape ⟨strays.map stray, closedGroup cs true, .completed, 1, true, delivered ++ cs.tail, delivered⟩
  | unstartedCompleted (strays : Option (List C)) (cs owed : List C) :
      Shape ⟨strays.map stray, closedGroup cs false, .completed, 1, false, owed, []⟩

/-- The counters follow, and the operator goes on. -/
structure Follows (e : Entry C) (effect : Effect C) : Prop where
  shape : Shape effect.entry
  phase : effect.entry.phase = .absent ↔ e.phase = .absent
  changeLocal : effect.changeLocal = (effect.entry.running true).toNat - (e.running true).toNat
  changeNonLocal : effect.changeNonLocal = (effect.entry.running false).toNat - (e.running false).toNat
  failed : effect.failed = false

variable {e : Entry C}

theorem Shape.follows_self (h : Shape e) : Follows e e.same :=
  ⟨h, Iff.rfl, by simp [Entry.same], by simp [Entry.same], rfl⟩

theorem Shape.follows_same {e' : Entry C} (h : Shape e') (hphase : e'.phase = e.phase) :
    Follows e e'.same :=
  ⟨h, by simp [Entry.same, hphase], by simp [Entry.same, Entry.running, hphase],
    by simp [Entry.same, Entry.running, hphase], rfl⟩

@[simp] theorem deliveries_inactive (items : List (Item C)) : Entry.deliveries ⟨items, false⟩ = [] := rfl

variable (cs : List C)

theorem deliveries_active :
    Entry.deliveries ⟨cs.map .cancel, true⟩ ++ cs.tail = cs := by
  cases cs <;> rfl

theorem enqueue_stray (strays : Option (List C)) (hgroup : e.group = strays.map stray) (c : C) :
    e.enqueue (.cancel c) = { e with group := some (stray (strays.getD [] ++ [c])) } := by
  cases strays with
  | none => simp [Entry.enqueue, hgroup, stray]
  | some cs =>
    cases cs with
    | nil | cons => simp [Entry.enqueue, hgroup, stray]

theorem enqueue_active (hgroup : e.group = some ⟨cs.map .cancel, true⟩) (c : C) :
    e.enqueue (.cancel c) =
      { e with
        group := some ⟨(cs ++ [c]).map .cancel, true⟩
        delivered := e.delivered ++ if cs.isEmpty then [c] else [] } := by
  cases cs with
  | nil => simp [Entry.enqueue, hgroup, Entry.deliveries]
  | cons c' cs => simp [Entry.enqueue, hgroup]

theorem owed_enqueue (cs delivered : List C) (c : C) :
    delivered ++ cs.tail ++ [c] =
      (delivered ++ if cs.isEmpty then [c] else []) ++ (cs ++ [c]).tail := by
  cases cs with
  | nil | cons => simp

theorem follows_cancel (h : Shape e) (c : C) : Follows e (e.act false (.cancel c)) := by
  have hact : e.act false (.cancel c) =
      ({ e with owed := if e.outstanding then e.owed ++ [c] else e.owed }.enqueue (.cancel c)).same := rfl
  rw [hact]
  cases h with
  | absent strays =>
    rw [enqueue_stray strays rfl]
    exact (Shape.absent (some _)).follows_same rfl
  | starting before after =>
    have hshape := Shape.starting before (after ++ [c])
    have hlast : (before.map Item.cancel ++ .start :: after.map .cancel) ++ [.cancel c] =
        before.map .cancel ++ .start :: (after ++ [c]).map .cancel := by simp
    rw [← hlast] at hshape
    refine Shape.follows_same ?_ rfl
    simpa [Entry.enqueue, Entry.outstanding] using hshape
  | unstarted cs owed =>
    rw [enqueue_stray (some cs) rfl]
    exact (Shape.unstarted _ (owed ++ [c])).follows_same rfl
  | going phase hphase cs delivered =>
    have houtstanding : (⟨some ⟨cs.map .cancel, true⟩, [], phase, 0, true, delivered ++ cs.tail,
        delivered⟩ : Entry C).outstanding = true := by
      cases phase <;> first | rfl | cases hphase
    rw [enqueue_active cs rfl, houtstanding]
    have hshape := Shape.going phase hphase (cs ++ [c]) (delivered ++ if cs.isEmpty then [c] else [])
    rw [← owed_enqueue] at hshape
    exact hshape.follows_same rfl
  | completed strays cs delivered =>
    rw [enqueue_stray strays rfl]
    exact (Shape.completed (some _) cs delivered).follows_same rfl
  | unstartedCompleted strays cs owed =>
    rw [enqueue_stray strays rfl]
    exact (Shape.unstartedCompleted (some _) cs owed).follows_same rfl

theorem shape_start (h : Shape e) (hphase : e.phase = .absent) :
    Shape (e.act false .start).entry := by
  cases h with
  | absent strays =>
    have hshape := Shape.starting (strays.getD []) []
    cases strays with
    | none => exact hshape
    | some cs => simpa [Entry.act, Entry.enqueue, Entry.same, stray] using hshape
  | going phase hgoing cs delivered =>
    have habsent : phase = .absent := hphase
    rw [habsent] at hgoing
    cases hgoing
  | starting | unstarted | completed | unstartedCompleted => cases hphase

theorem follows_processed_stray (strays : Option (List C)) (hgroup : e.group = strays.map stray)
    (hself : Shape e) (hshape : ∀ cs, Shape { e with group := some (stray cs) }) (r : StartResult) :
    Follows e (e.processed r) := by
  simp only [Entry.processed, hgroup]
  cases strays with
  | none => exact hself.follows_self
  | some cs =>
    cases cs with
    | nil => exact hself.follows_self
    | cons c cs =>
      refine Shape.follows_same ?_ rfl
      simpa [stray, Entry.proceed] using hshape cs

theorem owed_proceed (cs delivered : List C) :
    delivered ++ cs = delivered ++ Entry.deliveries ⟨cs.map .cancel, true⟩ ++ cs.tail := by
  rw [List.append_assoc, deliveries_active]

variable {r : StartResult}

theorem follows_processed_start (after : List C) (hr : r ≠ .error) :
    Follows (⟨some ⟨.start :: after.map .cancel, false⟩, [], .starting, 0, false, after, []⟩ : Entry C)
      (Entry.processed ⟨some ⟨.start :: after.map .cancel, false⟩, [], .starting, 0, false, after, []⟩ r) := by
  cases r with
  | error => exact absurd rfl hr
  | result => exact ⟨.unstarted after after, iff_of_false nofun nofun, rfl, rfl, rfl⟩
  | run isLocal =>
    have hshape := Shape.going (.running isLocal) rfl after (Entry.deliveries ⟨after.map .cancel, true⟩)
    rw [deliveries_active] at hshape
    cases isLocal with
    | false | true => exact ⟨hshape, iff_of_false nofun nofun, rfl, rfl, rfl⟩

theorem follows_processed (h : Shape e) (hr : r ≠ .error) :
    Follows e (e.act false (.processed r)) := by
  have hact : e.act false (.processed r) = e.processed r := rfl
  rw [hact]
  cases h with
  | absent strays =>
    exact follows_processed_stray strays rfl (.absent strays) (fun cs => .absent (some cs)) r
  | starting before after =>
    cases before with
    | cons c before => exact (Shape.starting before after).follows_same rfl
    | nil => exact follows_processed_start after hr
  | unstarted cs owed =>
    exact follows_processed_stray (some cs) rfl (.unstarted cs owed) (fun cs => .unstarted cs owed) r
  | going phase hphase cs delivered =>
    cases cs with
    | nil => exact (Shape.going phase hphase [] delivered).follows_self
    | cons c cs =>
      have hshape := Shape.going phase hphase cs
        (delivered ++ Entry.deliveries ⟨cs.map .cancel, true⟩)
      rw [← owed_proceed] at hshape
      exact hshape.follows_same rfl
  | completed strays cs delivered =>
    exact follows_processed_stray strays rfl (.completed strays cs delivered)
      (fun cs' => .completed (some cs') cs delivered) r
  | unstartedCompleted strays cs owed =>
    exact follows_processed_stray strays rfl (.unstartedCompleted strays cs owed)
      (fun cs' => .unstartedCompleted (some cs') cs owed) r

theorem follows_drained (h : Shape e) : Follows e (e.act false .drained) := by
  have hself := h.follows_self
  cases h with
  | absent | starting | unstarted | going => exact hself
  | completed strays cs delivered =>
    cases cs with
    | nil => exact hself
    | cons c cs =>
      have hshape := Shape.completed strays cs (delivered ++ Entry.deliveries ⟨cs.map .cancel, true⟩)
      rw [← owed_proceed] at hshape
      cases cs with
      | nil | cons => exact hshape.follows_same rfl
  | unstartedCompleted strays cs owed =>
    cases cs with
    | nil => exact hself
    | cons c cs =>
      have hshape := Shape.unstartedCompleted strays cs owed
      cases cs with
      | nil | cons => exact hshape.follows_same rfl

theorem follows_ran (h : Shape e) {r : RunResult} (hr : r ≠ .error) :
    Follows e (e.act false (.ran r)) := by
  have hself := h.follows_self
  cases h with
  | absent | starting | unstarted | completed | unstartedCompleted => exact hself
  | going phase hphase cs delivered =>
    cases phase with
    | flushing | offloading => exact hself
    | running isLocal =>
      have hshape : ∀ phase : Phase, phase.going = true → (∀ isLocal, phase ≠ .running isLocal) →
          phase ≠ .absent → Follows
            (⟨some ⟨cs.map .cancel, true⟩, [], .running isLocal, 0, true, delivered ++ cs.tail,
              delivered⟩ : Entry C)
            (Entry.change isLocal (-1)
              ⟨some ⟨cs.map .cancel, true⟩, [], phase, 0, true, delivered ++ cs.tail, delivered⟩
              false) := by
        intro phase hphase hnot habsent
        refine ⟨.going phase hphase cs delivered, iff_of_false habsent nofun, ?_, ?_, rfl⟩
        all_goals cases isLocal <;> simp [Entry.change, Entry.running, hnot]
      cases r with
      | resolved => exact hshape .offloading rfl nofun nofun
      | failed => exact hshape .flushing rfl nofun nofun
      | error => exact absurd rfl hr
    | absent | starting | completed | lost => cases hphase

theorem follows_flushed (h : Shape e) : Follows e (e.act false .flushed) := by
  have hself := h.follows_self
  cases h with
  | absent | starting | unstarted | completed | unstartedCompleted => exact hself
  | going phase hphase cs delivered =>
    cases phase with
    | flushing =>
      exact ⟨.going .offloading rfl cs delivered, iff_of_false nofun nofun, rfl, rfl, rfl⟩
    | offloading | running => exact hself
    | absent | starting | completed | lost => cases hphase

theorem closedGroup_eq (activity : Bool) :
    [(⟨cs.map .cancel, activity⟩ : Group C)].filter (fun g => !g.items.isEmpty) =
      closedGroup cs activity := by
  cases cs <;> rfl

theorem follows_offloaded (h : Shape e) : Follows e (e.act false (.offloaded true)) := by
  have hself := h.follows_self
  cases h with
  | absent | starting | completed | unstartedCompleted => exact hself
  | unstarted cs owed =>
    have hshape := Shape.unstartedCompleted none cs owed
    rw [← closedGroup_eq] at hshape
    exact ⟨hshape, iff_of_false nofun nofun, rfl, rfl, rfl⟩
  | going phase hphase cs delivered =>
    cases phase with
    | flushing | running => exact hself
    | offloading =>
      have hshape := Shape.completed none cs delivered
      rw [← closedGroup_eq] at hshape
      exact ⟨hshape, iff_of_false nofun nofun, rfl, rfl, rfl⟩
    | absent | starting | completed | lost => cases hphase

theorem Shape.completed_once (h : Shape e) (hphase : e.phase ≠ .absent) :
    e.completions + e.outstanding.toNat = 1 := by
  cases h with
  | absent strays => exact absurd rfl hphase
  | starting before after => rfl
  | unstarted cs owed => rfl
  | going phase hgoing cs delivered => cases phase <;> first | rfl | cases hgoing
  | completed strays cs delivered => rfl
  | unstartedCompleted strays cs owed => rfl

theorem Shape.of_absent (h : Shape e) (hphase : e.phase = .absent) :
    e.completions = 0 ∧ ∀ isLocal, e.running isLocal = false := by
  cases h with
  | absent strays => exact ⟨rfl, fun isLocal => rfl⟩
  | going phase hgoing cs delivered =>
    have habsent : phase = .absent := hphase
    rw [habsent] at hgoing
    cases hgoing
  | starting | unstarted | completed | unstartedCompleted => cases hphase

theorem waiting_of_cancels :
    (cs.map Item.cancel).tail.filterMap (fun
      | .cancel c => some c
      | .start => none) = cs.tail := by
  cases cs with
  | nil => rfl
  | cons c cs => simp [List.filterMap_map]

theorem filter_strays (strays : Option (List C)) :
    (strays.map stray).toList.filter Group.activity = [] := by
  cases strays <;> rfl

theorem Shape.owed_eq (h : Shape e) (hcreated : e.created = true) :
    e.owed = e.delivered ++ e.waiting := by
  cases h with
  | absent | starting | unstarted | unstartedCompleted => cases hcreated
  | going phase hgoing cs delivered => simp [Entry.waiting, waiting_of_cancels]
  | completed strays cs delivered =>
    simp only [Entry.waiting, List.filter_append, filter_strays]
    cases cs with
    | nil => simp [closedGroup]
    | cons c cs => simp [closedGroup, List.filterMap_map]

/-- Where no task is outstanding, there is no open group. -/
def Entry.Tidy (e : Entry C) : Prop := e.outstanding = false → e.group = none

theorem Shape.items_ne_nil (h : Shape e) : ∀ g ∈ e.draining, g.items ≠ [] := by
  have hclosed : ∀ (cs : List C) (activity : Bool), ∀ g ∈ closedGroup cs activity, g.items ≠ [] := by
    intro cs activity g hg
    cases cs with
    | nil => cases hg
    | cons c cs =>
      rw [List.mem_singleton.1 hg]
      exact List.cons_ne_nil _ _
  cases h with
  | absent | starting | unstarted | going => exact fun g hg => absurd hg List.not_mem_nil
  | completed strays cs delivered => exact hclosed cs true
  | unstartedCompleted strays cs owed => exact hclosed cs false

/-- A failure that cannot be encoded. -/
def Action.unencodable : Action C → Bool
  | .processed .error => true
  | .ran .error => true
  | .offloaded false => true
  | _ => false

theorem tidy_processed (ht : e.Tidy) (hr : r ≠ .error) :
    (e.processed r).entry.Tidy := by
  simp only [Entry.processed]
  cases hgroup : e.group with
  | none => exact ht
  | some g =>
    have hout : e.outstanding = true := by
      cases hout : e.outstanding with
      | true => rfl
      | false => exact absurd (ht hout) (by simp [hgroup])
    rcases g with ⟨items, activity⟩
    cases items with
    | nil => exact ht
    | cons item items =>
      cases item with
      | cancel c =>
        intro hnot
        exact absurd (hout.symm.trans hnot) (by decide)
      | start =>
        cases r with
        | error => exact absurd rfl hr
        | result => exact fun hnot => nomatch hnot
        | run isLocal =>
          cases activity with
          | false | true => exact fun hnot => nomatch hnot

/-- Only a cancel for a token without an open group leaves a group open. -/
theorem tidy_act {a : Action C} (ht : e.Tidy) (hstray : ∀ c, a = .cancel c → e.group ≠ none)
    (hencoded : a.unencodable = false) : (e.act false a).entry.Tidy := by
  cases a with
  | start => exact fun hnot => nomatch hnot
  | cancel c =>
    intro hnot
    exact absurd (ht hnot) (hstray c rfl)
  | processed r =>
    refine tidy_processed ht ?_
    rintro rfl
    cases hencoded
  | drained =>
    simp only [Entry.act, Entry.drained]
    cases e.draining with
    | nil | cons => exact ht
  | ran r =>
    simp only [Entry.act]
    cases hphase : e.phase with
    | running isLocal =>
      cases r with
      | resolved | failed => exact fun hnot => nomatch hnot
      | error => cases hencoded
    | _ => exact ht
  | flushed =>
    simp only [Entry.act]
    cases hphase : e.phase with
    | flushing => exact fun hnot => nomatch hnot
    | _ => exact ht
  | offloaded encoded =>
    simp only [Entry.act]
    cases hphase : e.phase with
    | offloading =>
      cases encoded with
      | true => exact fun _ => rfl
      | false => cases hencoded
    | _ => exact ht

end Entry

/-! ## All tokens -/

/-- `tokens` is for stating properties only: those of the start tasks that have come. -/
structure State (T C : Type) where
  entries : T → Entry C
  numInFlightActivities : Int
  numInFlightLocalActivities : Int
  numInFlightNonLocalActivities : Int
  failed : Bool
  tokens : List T

namespace State

variable {T C : Type}

def init : State T C := ⟨fun _ => .absent, 0, 0, 0, false, []⟩

def effect (s : State T C) (e : T × Action C) : Effect C := (s.entries e.1).act s.failed e.2

def record (s : State T C) : T × Action C → List T
  | (k, .start) => k :: s.tokens
  | _ => s.tokens

/-- The step of one token's entry. -/
def apply [DecidableEq T] (s : State T C) (k : T) (effect : Effect C) (tokens : List T) : State T C :=
  { entries := Function.update s.entries k effect.entry
    numInFlightActivities := s.numInFlightActivities + (effect.changeLocal + effect.changeNonLocal)
    numInFlightLocalActivities := s.numInFlightLocalActivities + effect.changeLocal
    numInFlightNonLocalActivities := s.numInFlightNonLocalActivities + effect.changeNonLocal
    failed := s.failed || effect.failed
    tokens := tokens }

def step [DecidableEq T] (s : State T C) (e : T × Action C) : State T C :=
  s.apply e.1 (s.effect e) (s.record e)

/-- Each token is started at most once, and every failure can be encoded. -/
def Conforming (s : State T C) : T × Action C → Prop
  | (k, .start) => k ∉ s.tokens
  | (_, a) => a.unencodable = false

instance [DecidableEq T] (s : State T C) : ∀ e, Decidable (s.Conforming e)
  | (k, .start) => inferInstanceAs (Decidable (k ∉ s.tokens))
  | (_, .cancel _) => inferInstanceAs (Decidable (false = false))
  | (_, .processed r) => inferInstanceAs (Decidable ((Action.processed r : Action C).unencodable = false))
  | (_, .drained) => inferInstanceAs (Decidable (false = false))
  | (_, .ran r) => inferInstanceAs (Decidable ((Action.ran r : Action C).unencodable = false))
  | (_, .flushed) => inferInstanceAs (Decidable (false = false))
  | (_, .offloaded b) => inferInstanceAs (Decidable ((Action.offloaded b : Action C).unencodable = false))

/-- A cancel for a token that has no open group. -/
def Stray (s : State T C) : T × Action C → Prop
  | (k, .cancel _) => (s.entries k).group = none
  | _ => False

instance (s : State T C) : ∀ e, Decidable (s.Stray e)
  | (_, .start) => inferInstanceAs (Decidable False)
  | (k, .cancel _) => inferInstanceAs (Decidable ((s.entries k).group = none))
  | (_, .processed _) => inferInstanceAs (Decidable False)
  | (_, .drained) => inferInstanceAs (Decidable False)
  | (_, .ran _) => inferInstanceAs (Decidable False)
  | (_, .flushed) => inferInstanceAs (Decidable False)
  | (_, .offloaded _) => inferInstanceAs (Decidable False)

/-- What the operator does for the tasks and the counters. -/
structure Serves (s : State T C) : Prop where
  -- Every started token is being processed or has one completion; no other token has one.
  completed_once : ∀ k ∈ s.tokens, (s.entries k).completions + (s.entries k).outstanding.toNat = 1
  no_other : ∀ k, k ∉ s.tokens → (s.entries k).completions = 0
  -- The activity of a token gets the cancels of that token that came in its time, in their order.
  delivered : ∀ k, (s.entries k).created = true →
    (s.entries k).owed = (s.entries k).delivered ++ (s.entries k).waiting
  countedLocal : s.numInFlightLocalActivities = tally s.tokens (Entry.running true) s.entries
  countedNonLocal : s.numInFlightNonLocalActivities = tally s.tokens (Entry.running false) s.entries
  counted : s.numInFlightActivities =
    s.numInFlightLocalActivities + s.numInFlightNonLocalActivities

/-- Once every started activity has completed, there is no open group, and a closed one is held only while it
has items. -/
def NothingLeft (s : State T C) : Prop :=
  (∀ k ∈ s.tokens, (s.entries k).outstanding = false) →
    ∀ k, (s.entries k).group = none ∧ ∀ g ∈ (s.entries k).draining, g.items ≠ []

structure Kept (s : State T C) : Prop where
  nodup : s.tokens.Nodup
  shape : ∀ k, Shape (s.entries k)
  absent_iff : ∀ k, (s.entries k).phase = .absent ↔ k ∉ s.tokens
  countedLocal : s.numInFlightLocalActivities = tally s.tokens (Entry.running true) s.entries
  countedNonLocal : s.numInFlightNonLocalActivities = tally s.tokens (Entry.running false) s.entries
  counted : s.numInFlightActivities =
    s.numInFlightLocalActivities + s.numInFlightNonLocalActivities
  failed : s.failed = false

variable {s : State T C}

theorem kept_init : Kept (init : State T C) :=
  ⟨List.nodup_nil, fun _ => .absent none, fun _ => iff_of_true rfl List.not_mem_nil, rfl, rfl, rfl, rfl⟩

theorem Kept.serves (h : Kept s) : s.Serves := by
  refine ⟨fun k hk => ?_, fun k hk => ?_, fun k => (h.shape k).owed_eq, h.countedLocal,
    h.countedNonLocal, h.counted⟩
  · exact (h.shape k).completed_once fun hphase => (h.absent_iff k).1 hphase hk
  · exact ((h.shape k).of_absent ((h.absent_iff k).2 hk)).1

theorem Kept.nothingLeft (h : Kept s) (ht : ∀ k, (s.entries k).Tidy) : s.NothingLeft := by
  intro hidle k
  refine ⟨ht k ?_, (h.shape k).items_ne_nil⟩
  by_cases hk : k ∈ s.tokens
  · exact hidle k hk
  · rw [Entry.outstanding, (h.absent_iff k).2 hk]

variable [DecidableEq T] {k : T}

/-- An action other than a start. -/
theorem Kept.follow (h : Kept s) {effect : Effect C} (hfollows : Follows (s.entries k) effect) :
    Kept (s.apply k effect s.tokens) := by
  have hout : ∀ isLocal, k ∉ s.tokens →
      effect.entry.running isLocal = (s.entries k).running isLocal := by
    intro isLocal hk
    have hold := (h.absent_iff k).2 hk
    rw [((h.shape k).of_absent hold).2 isLocal,
      (hfollows.shape.of_absent (hfollows.phase.2 hold)).2 isLocal]
  refine ⟨h.nodup, fun k' => ?_, fun k' => ?_, ?_, ?_, ?_, by simp [apply, h.failed, hfollows.failed]⟩
  · by_cases hk' : k' = k
    · rw [hk']
      simpa [apply] using hfollows.shape
    · simpa [apply, Function.update_of_ne hk'] using h.shape k'
  · by_cases hk' : k' = k
    · rw [hk']
      simpa [apply] using hfollows.phase.trans (h.absent_iff k)
    · simpa [apply, Function.update_of_ne hk'] using h.absent_iff k'
  · exact tally_change h.nodup (hout true) h.countedLocal hfollows.changeLocal
  · exact tally_change h.nodup (hout false) h.countedNonLocal hfollows.changeNonLocal
  · have hcounted := h.counted
    simp only [apply]
    omega

theorem Kept.start (h : Kept s) (hk : k ∉ s.tokens) : Kept (s.step (k, .start)) := by
  have hshape := shape_start (h.shape k) ((h.absent_iff k).2 hk)
  have heffect : s.effect (k, .start) = (s.entries k).act false .start := by rw [effect, h.failed]
  have hrunning : ∀ isLocal, ((s.entries k).act false .start).entry.running isLocal = false :=
    fun _ => rfl
  rw [step, heffect]
  refine ⟨List.nodup_cons.2 ⟨hk, h.nodup⟩, fun k' => ?_, fun k' => ?_, ?_, ?_, ?_, ?_⟩
  · by_cases hk' : k' = k
    · rw [hk']
      simpa [apply] using hshape
    · simpa [apply, Function.update_of_ne hk'] using h.shape k'
  · by_cases hk' : k' = k
    · rw [hk']
      simp [apply, record, Entry.act, Entry.same, Entry.enqueue]
    · simpa [apply, record, Function.update_of_ne hk', hk'] using h.absent_iff k'
  · simp only [apply, record, tally_update_cons hk, hrunning]
    simpa [Entry.act, Entry.same] using h.countedLocal
  · simp only [apply, record, tally_update_cons hk, hrunning]
    simpa [Entry.act, Entry.same] using h.countedNonLocal
  · simpa [apply, Entry.act, Entry.same] using h.counted
  · simp [apply, h.failed, Entry.act, Entry.same]

theorem Kept.step (h : Kept s) {e : T × Action C} (he : s.Conforming e) : Kept (s.step e) := by
  rcases e with ⟨k, a⟩
  have hact : s.effect (k, a) = (s.entries k).act false a := by rw [effect, h.failed]
  have hshape := h.shape k
  cases a with
  | start => exact h.start he
  | cancel c => exact h.follow (hact ▸ follows_cancel hshape c)
  | processed r =>
    refine h.follow (hact ▸ follows_processed hshape ?_)
    rintro rfl
    cases he
  | drained => exact h.follow (hact ▸ follows_drained hshape)
  | ran r =>
    refine h.follow (hact ▸ follows_ran hshape ?_)
    rintro rfl
    cases he
  | flushed => exact h.follow (hact ▸ follows_flushed hshape)
  | offloaded encoded =>
    cases encoded with
    | true => exact h.follow (hact ▸ follows_offloaded hshape)
    | false => cases he

theorem tidy_step (h : Kept s) (ht : ∀ k, (s.entries k).Tidy) {e : T × Action C}
    (he : s.Conforming e) (hstray : ¬ s.Stray e) : ∀ k, ((s.step e).entries k).Tidy := by
  rcases e with ⟨k, a⟩
  have hact : s.effect (k, a) = (s.entries k).act false a := by rw [effect, h.failed]
  intro k'
  simp only [State.step, apply, hact]
  by_cases hk' : k' = k
  · rw [hk', Function.update_self]
    refine tidy_act (ht k) ?_ ?_
    · rintro c rfl hnone
      exact hstray hnone
    · cases a with
      | start => rfl
      | _ => exact he
  · rw [Function.update_of_ne hk']
    exact ht k'

/-- However the tasks, cancels and outcomes of the tokens are interleaved, every start task gets one completion,
an activity gets its own cancels and no others, and the counters are those of the functions that run.  When no
cancel comes for a token that has no open group, nothing is left once every started activity has completed. -/
theorem serves_and_nothing_left (es : List (T × Action C))
    (hes : Guarded step Conforming (init : State T C) es) :
    Throughout step Serves init es ∧
      (Guarded step (fun s e => ¬ s.Stray e) init es → Throughout step NothingLeft init es) := by
  constructor
  · have hstep : ∀ (s : State T C) (e : T × Action C), s.Conforming e → Kept s → Kept (s.step e) :=
      fun s e he h => h.step he
    exact throughout_of_invariant hstep (fun s h => h.serves) kept_init hes
  · intro hstray
    have hstep : ∀ (s : State T C) (e : T × Action C), s.Conforming e ∧ ¬ s.Stray e →
        (Kept s ∧ ∀ k, (s.entries k).Tidy) → Kept (s.step e) ∧ ∀ k, ((s.step e).entries k).Tidy :=
      fun s e he h => ⟨h.1.step he.1, tidy_step h.1 h.2 he.1 he.2⟩
    exact throughout_of_invariant hstep (fun s h => h.1.nothingLeft h.2) ⟨kept_init, fun _ _ => rfl⟩
      (hes.and hstray)

/-- Two activities; a cancel comes while the start task of the first is processed, the other one fails. -/
theorem nothing_left_of_two_activities :
    Throughout step Serves (init : State Nat Unit)
        [(0, .start), (0, .cancel ()), (1, .start), (0, .processed (.run false)), (0, .processed .result),
          (1, .processed (.run true)), (0, .ran .resolved), (1, .ran .failed), (0, .offloaded true),
          (1, .flushed), (1, .offloaded true)] ∧
      Throughout step NothingLeft (init : State Nat Unit)
        [(0, .start), (0, .cancel ()), (1, .start), (0, .processed (.run false)), (0, .processed .result),
          (1, .processed (.run true)), (0, .ran .resolved), (1, .ran .failed), (0, .offloaded true),
          (1, .flushed), (1, .offloaded true)] := by
  have hserves := serves_and_nothing_left (T := Nat) (C := Unit)
    [(0, .start), (0, .cancel ()), (1, .start), (0, .processed (.run false)), (0, .processed .result),
      (1, .processed (.run true)), (0, .ran .resolved), (1, .ran .failed), (0, .offloaded true),
      (1, .flushed), (1, .offloaded true)] (by decide)
  exact ⟨hserves.1, hserves.2 (by decide)⟩

/-- A cancel that comes after the completion leaves a group open. -/
theorem not_nothing_left_of_late_cancel :
    Guarded step Conforming (init : State Nat Unit)
        [(0, .start), (0, .processed (.run false)), (0, .ran .resolved), (0, .offloaded true),
          (0, .cancel ()), (0, .processed .result)] ∧
      ¬ NothingLeft (run step (init : State Nat Unit)
        [(0, .start), (0, .processed (.run false)), (0, .ran .resolved), (0, .offloaded true),
          (0, .cancel ()), (0, .processed .result)]) := by
  refine ⟨by decide, fun h => ?_⟩
  have hgroup := (h (by decide) 0).1
  exact absurd hgroup (by decide)

end State
end ActivityTasks
end TemporalSdk.Worker
