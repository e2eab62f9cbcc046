import TemporalSdk.Machine.Run
import TemporalSdk.Machine.Tally

/-!
# WorkflowCache — `handleWorkflowActivations`

The activations of a run go to one group of `closeableGroupBy`, and are processed one after the other.  The first
one that is processed creates the workflow.  An answer with `close` closes the group; what waits in it then is not
processed any more.  Both counters are changed around this: `numInFlightActivations` with every activation that
comes and every answer, `numCachedWorkflows` with every creation and every `close`.

`K` is the type of run ids.
-/

namespace TemporalSdk.Worker
namespace WorkflowCache

open Machine

/-- An activation, as far as it decides what is done: whether it has a `removeFromCache` job, and whether it
has others.  The synthetic eviction has the one job only. -/
structure Activation where
  removeFromCache : Bool
  otherJobs : Bool
  deriving DecidableEq

def syntheticEviction : Activation := ⟨true, false⟩

/-- A workflow that was created: how often it was disposed of, and how often it was activated after that. -/
structure Workflow where
  disposals : Nat
  lateActivations : Nat
  deriving DecidableEq

/-- A group, whose first activation is being processed. -/
structure Group where
  activations : List Activation
  workflow : Option Workflow
  deriving DecidableEq

/-- What there is of one run id.  `past` is for stating properties only: the workflows of closed groups. -/
structure Entry where
  group : Option Group
  past : List Workflow
  deriving DecidableEq

inductive Outcome
  -- The workflow was activated, or disposed of, without an error.
  | succeeded
  -- There was an error, after the call of `activate` or before.
  | failed (activated : Bool)
  -- There was an error that cannot be encoded, which goes out of the operator.
  | unencodable (activated : Bool)
  deriving DecidableEq

inductive Action
  -- From core.
  | activation (a : Activation)
  -- The workflow poller no longer polls.
  | pollerStopped
  -- `createWorkflow` returns.
  | created
  -- `handleActivation` returns.
  | answered (outcome : Outcome)
  deriving DecidableEq

/-- An entry after a step, the changes of the counters, and whether an error goes out of the operator. -/
structure Effect where
  entry : Entry
  changeCached : Int
  changeInFlight : Int
  failed : Bool

def Workflow.activate (w : Workflow) : Workflow :=
  { w with lateActivations := if w.disposals = 0 then w.lateActivations else w.lateActivations + 1 }

def Workflow.dispose (w : Workflow) : Workflow := { w with disposals := w.disposals + 1 }

namespace Group

/-- The group's workflow when the answer to the first activation is given. -/
def workflowAfter (g : Group) (a : Activation) (outcome : Outcome) : Option Workflow :=
  if a.otherJobs then
    match outcome with
    | .succeeded => g.workflow.map .activate
    | .failed activated => if activated then g.workflow.map .activate else g.workflow
    | .unencodable activated => if activated then g.workflow.map .activate else g.workflow
  else g.workflow.map .dispose

/-- Whether the answer is with `close`. -/
def closes (g : Group) (a : Activation) (outcome : Outcome) : Bool :=
  match a.otherJobs, outcome with
  | true, .succeeded => a.removeFromCache
  | true, _ => false
  -- A failed disposal closes the group in any case.
  | false, .failed _ => a.removeFromCache || g.workflow.isSome
  | false, _ => a.removeFromCache

/-- An activation that has jobs is answered without an error only when there is a workflow, and an eviction
has no failure to encode. -/
def possible (g : Group) (a : Activation) (outcome : Outcome) : Bool :=
  match a.otherJobs, outcome with
  | true, .succeeded => g.workflow.isSome
  | false, .unencodable _ => !a.removeFromCache
  | _, _ => true

end Group

namespace Entry

def absent : Entry := ⟨none, []⟩

def same (e : Entry) : Effect := ⟨e, 0, 0, false⟩

def enqueue (e : Entry) (a : Activation) : Entry :=
  let g := e.group.getD ⟨[], none⟩
  { e with group := some { g with activations := g.activations ++ [a] } }

/-- The group is closed. -/
def close (e : Entry) (workflow : Option Workflow) : Entry := ⟨none, e.past ++ workflow.toList⟩

def answer (e : Entry) (outcome : Outcome) : Effect :=
  match e.group with
  | none => e.same
  | some g =>
    match g.activations with
    | [] => e.same
    | a :: rest =>
      if !g.possible a outcome then e.same
      else
        let workflow := g.workflowAfter a outcome
        match outcome with
        | .unencodable _ => ⟨{ e with group := some ⟨a :: rest, workflow⟩ }, 0, 0, true⟩
        | _ =>
          if g.closes a outcome then ⟨e.close workflow, -1, -1, false⟩
          else ⟨{ e with group := some ⟨rest, workflow⟩ }, 0, -1, false⟩

/-- Nothing happens where the action is not possible, or when an error has gone out of the operator. -/
def act (operatorFailed : Bool) (e : Entry) (action : Action) : Effect :=
  if operatorFailed then e.same
  else
    match action with
    | .activation a => ⟨e.enqueue a, 0, 1, false⟩
    | .pollerStopped =>
      match e.group with
      | none => e.same
      | some _ => ⟨e.enqueue syntheticEviction, 0, 1, false⟩
    | .created =>
      match e.group with
      | some ⟨a :: rest, none⟩ =>
        if a.otherJobs then ⟨{ e with group := some ⟨a :: rest, some ⟨0, 0⟩⟩ }, 1, 0, false⟩
        else e.same
      | _ => e.same
    | .answered outcome => e.answer outcome

/-- A workflow was created for the run, and its group is not closed. -/
def cached (e : Entry) : Bool :=
  match e.group with
  | some g => g.workflow.isSome
  | none => false

/-- The activations that were taken and are not answered. -/
def inFlight (e : Entry) : Nat :=
  match e.group with
  | some g => g.activations.length
  | none => 0

end Entry

/-! ## All runs -/

/-- `runIds` is for stating properties only: those that an activation has come for. -/
structure State (K : Type) where
  entries : K → Entry
  numCachedWorkflows : Int
  numInFlightActivations : Int
  failed : Bool
  runIds : List K

namespace State

variable {K : Type}

def init : State K := ⟨fun _ => .absent, 0, 0, false, []⟩

def effect (s : State K) (e : K × Action) : Effect := (s.entries e.1).act s.failed e.2

def step [DecidableEq K] (s : State K) (e : K × Action) : State K :=
  { entries := Function.update s.entries e.1 (s.effect e).entry
    numCachedWorkflows := s.numCachedWorkflows + (s.effect e).changeCached
    numInFlightActivations := s.numInFlightActivations + (s.effect e).changeInFlight
    failed := s.failed || (s.effect e).failed
    runIds := s.runIds.insert e.1 }

/-- The answer to an activation closes a group in which there is no workflow, or in which others wait. -/
def ClosesTooEarly (e : Entry) (outcome : Outcome) : Prop :=
  match e.group with
  | some ⟨a :: rest, workflow⟩ =>
    Group.closes ⟨a :: rest, workflow⟩ a outcome = true ∧ (workflow = none ∨ rest ≠ [])
  | _ => False

instance : ∀ (e : Entry) (outcome : Outcome), Decidable (ClosesTooEarly e outcome)
  | ⟨some ⟨a :: rest, workflow⟩, _⟩, outcome =>
    inferInstanceAs (Decidable (Group.closes ⟨a :: rest, workflow⟩ a outcome = true ∧
      (workflow = none ∨ rest ≠ [])))
  | ⟨some ⟨[], _⟩, _⟩, _ => inferInstanceAs (Decidable False)
  | ⟨none, _⟩, _ => inferInstanceAs (Decidable False)

/-- The condition on each step: an activation has a job, and no answer closes a group that has no workflow or in
which others wait.  An error that cannot be encoded is no answer. -/
def Proper (s : State K) : K × Action → Prop
  | (_, .activation a) => a.removeFromCache = true ∨ a.otherJobs = true
  | (_, .answered (.unencodable _)) => True
  | (k, .answered outcome) => ¬ ClosesTooEarly (s.entries k) outcome
  | _ => True

instance (s : State K) : ∀ e, Decidable (s.Proper e)
  | (_, .activation a) => inferInstanceAs (Decidable (a.removeFromCache = true ∨ a.otherJobs = true))
  | (_, .answered (.unencodable _)) => inferInstanceAs (Decidable True)
  | (k, .answered .succeeded) =>
    inferInstanceAs (Decidable (¬ ClosesTooEarly (s.entries k) .succeeded))
  | (k, .answered (.failed activated)) =>
    inferInstanceAs (Decidable (¬ ClosesTooEarly (s.entries k) (.failed activated)))
  | (_, .pollerStopped) => inferInstanceAs (Decidable True)
  | (_, .created) => inferInstanceAs (Decidable True)

/-- The workflows of a run, of the open group and of closed ones. -/
def workflows (s : State K) (k : K) : List Workflow :=
  ((s.entries k).group.bind Group.workflow).toList ++ (s.entries k).past

/-- What the counters are for, and what workflows may rely on. -/
structure Accounts (s : State K) : Prop where
  cached : s.numCachedWorkflows = tally s.runIds Entry.cached s.entries
  inFlight : s.numInFlightActivations = total s.runIds Entry.inFlight s.entries
  idle : (∀ k, (s.entries k).group = none) →
    s.numCachedWorkflows = 0 ∧ s.numInFlightActivations = 0
  disposed_once : ∀ k, ∀ w ∈ s.workflows k, w.disposals ≤ 1
  not_activated_late : ∀ k, ∀ w ∈ s.workflows k, w.lateActivations = 0

end State

/-! ## One run -/

/-- The workflow of an open group has not been disposed of, and every activation that waits has a job. -/
structure Fits (e : Entry) : Prop where
  workflow : ∀ g ∈ e.group, ∀ w ∈ g.workflow, w = ⟨0, 0⟩
  past : ∀ w ∈ e.past, w.disposals ≤ 1 ∧ w.lateActivations = 0
  jobs : ∀ g ∈ e.group, ∀ a ∈ g.activations, a.removeFromCache = true ∨ a.otherJobs = true

structure Follows (e : Entry) (effect : Effect) : Prop where
  fits : Fits effect.entry
  changeCached : effect.changeCached = effect.entry.cached.toNat - e.cached.toNat
  changeInFlight : effect.changeInFlight = effect.entry.inFlight - e.inFlight

variable {e : Entry}

theorem fits_absent : Fits .absent := ⟨nofun, nofun, nofun⟩

theorem Fits.follows_self (h : Fits e) : Follows e e.same :=
  ⟨h, by simp [Entry.same], by simp [Entry.same]⟩

variable {a : Activation}

theorem follows_enqueue (h : Fits e) (ha : a.removeFromCache = true ∨ a.otherJobs = true) :
    Follows e ⟨e.enqueue a, 0, 1, false⟩ := by
  rcases e with ⟨group, past⟩
  cases group with
  | none =>
    refine ⟨⟨?_, h.past, ?_⟩, rfl, rfl⟩
    · rintro g ⟨⟩ w ⟨⟩
    · rintro g ⟨⟩ b hb
      rw [List.mem_singleton.1 hb]
      exact ha
  | some g =>
    refine ⟨⟨?_, h.past, ?_⟩, ?_, ?_⟩
    · rintro g' ⟨⟩ w hw
      exact h.workflow g rfl w hw
    · rintro g' ⟨⟩ b hb
      rcases List.mem_append.1 hb with hb | hb
      · exact h.jobs g rfl b hb
      · rw [List.mem_singleton.1 hb]
        exact ha
    · simp [Entry.enqueue, Entry.cached]
    · simp [Entry.enqueue, Entry.inFlight]

theorem follows_created (h : Fits e) : Follows e (e.act false .created) := by
  rcases e with ⟨group, past⟩
  cases group with
  | none => exact h.follows_self
  | some g =>
    rcases g with ⟨activations, workflow⟩
    cases activations with
    | nil => exact h.follows_self
    | cons a rest =>
      cases workflow with
      | some w => exact h.follows_self
      | none =>
        simp only [Entry.act]
        split
        · exact h.follows_self
        · split
          · refine ⟨⟨?_, h.past, ?_⟩, rfl, ?_⟩
            · rintro g ⟨⟩ w ⟨⟩
              rfl
            · rintro g ⟨⟩ b hb
              exact h.jobs _ rfl b hb
            · simp [Entry.inFlight]
          · exact h.follows_self

theorem isSome_workflowAfter (g : Group) (a : Activation) (outcome : Outcome) :
    (g.workflowAfter a outcome).isSome = g.workflow.isSome := by
  simp only [Group.workflowAfter]
  split
  · cases outcome with
    | succeeded => simp
    | failed activated | unencodable activated => cases activated <;> simp
  · simp

variable {outcome : Outcome}

theorem workflowAfter_eq {g : Group} (hg : ∀ w ∈ g.workflow, w = ⟨0, 0⟩)
    :
    ∀ w ∈ g.workflowAfter a outcome, w = if a.otherJobs then ⟨0, 0⟩ else ⟨1, 0⟩ := by
  rcases g with ⟨activations, workflow⟩
  cases workflow with
  | none =>
    intro w hw
    have hsome := isSome_workflowAfter ⟨activations, none⟩ a outcome
    rw [Option.mem_def.1 hw] at hsome
    cases hsome
  | some w =>
    have hw : w = ⟨0, 0⟩ := hg w rfl
    subst hw
    simp only [Group.workflowAfter]
    split
    · cases outcome with
      | succeeded => simp [Workflow.activate]
      | failed activated | unencodable activated => cases activated <;> simp [Workflow.activate]
    · simp [Workflow.dispose]

theorem closes_of_eviction {g : Group} (hevicts : a.removeFromCache = true)
    (hjobs : a.otherJobs = false) (outcome : Outcome) : g.closes a outcome = true := by
  cases outcome <;> simp [Group.closes, hevicts, hjobs]

theorem follows_close {w : Workflow} {past : List Workflow} (h : Fits ⟨some ⟨[a], some w⟩, past⟩) :
    Follows ⟨some ⟨[a], some w⟩, past⟩
      ⟨Entry.close ⟨some ⟨[a], some w⟩, past⟩ (Group.workflowAfter ⟨[a], some w⟩ a outcome), -1, -1,
        false⟩ := by
  refine ⟨⟨nofun, fun w' hw' => ?_, nofun⟩, rfl, rfl⟩
  rcases List.mem_append.1 hw' with hw' | hw'
  · exact h.past w' hw'
  · rw [workflowAfter_eq (h.workflow _ rfl) w' (Option.mem_toList.1 hw')]
    split
    · exact ⟨Nat.zero_le 1, rfl⟩
    · exact ⟨Nat.le_refl 1, rfl⟩

theorem follows_keep {rest : List Activation} {workflow : Option Workflow}
    {past : List Workflow} (h : Fits ⟨some ⟨a :: rest, workflow⟩, past⟩)
    (hcloses : Group.closes ⟨a :: rest, workflow⟩ a outcome = false) :
    Follows ⟨some ⟨a :: rest, workflow⟩, past⟩
      ⟨⟨some ⟨rest, Group.workflowAfter ⟨a :: rest, workflow⟩ a outcome⟩, past⟩, 0, -1, false⟩ := by
  have hjobs : a.otherJobs = true := by
    cases hjobs : a.otherJobs with
    | true => rfl
    | false =>
      have hevicts := (h.jobs _ rfl a List.mem_cons_self).resolve_right (by simp [hjobs])
      exact absurd (hcloses.symm.trans (closes_of_eviction hevicts hjobs outcome)) (by decide)
  refine ⟨⟨?_, h.past, ?_⟩, ?_, ?_⟩
  · rintro g ⟨⟩ w hw
    have heq := workflowAfter_eq (h.workflow _ rfl) w hw
    rwa [if_pos hjobs] at heq
  · rintro g ⟨⟩ b hb
    exact h.jobs _ rfl b (List.mem_cons_of_mem a hb)
  · simp [Entry.cached, isSome_workflowAfter]
  · simp [Entry.inFlight]

/-- The activation stays in flight, and its workflow, if it has one, was not disposed of. -/
theorem follows_unencodable {rest : List Activation} {workflow : Option Workflow} {past : List Workflow}
    {activated : Bool} (h : Fits ⟨some ⟨a :: rest, workflow⟩, past⟩)
    (hpossible : Group.possible ⟨a :: rest, workflow⟩ a (.unencodable activated) = true) :
    Follows ⟨some ⟨a :: rest, workflow⟩, past⟩
      ⟨⟨some ⟨a :: rest, Group.workflowAfter ⟨a :: rest, workflow⟩ a (.unencodable activated)⟩, past⟩, 0, 0, true⟩ := by
  have hjobs : a.otherJobs = true := by
    cases hjobs : a.otherJobs with
    | true => rfl
    | false =>
      have hevicts := (h.jobs _ rfl a List.mem_cons_self).resolve_right (by simp [hjobs])
      simp [Group.possible, hjobs, hevicts] at hpossible
  refine ⟨⟨?_, h.past, ?_⟩, ?_, (Int.sub_self _).symm⟩
  · rintro g ⟨⟩ w hw
    have heq := workflowAfter_eq (h.workflow _ rfl) w
      (show w ∈ Group.workflowAfter _ a (.unencodable activated) from hw)
    rwa [if_pos hjobs] at heq
  · rintro g ⟨⟩ b hb
    exact h.jobs _ rfl b hb
  · simp [Entry.cached, isSome_workflowAfter]

theorem follows_answer (h : Fits e)
    (hearly : (∀ activated, outcome ≠ .unencodable activated) → ¬ State.ClosesTooEarly e outcome) :
    Follows e (e.answer outcome) := by
  rcases e with ⟨group, past⟩
  cases group with
  | none => exact h.follows_self
  | some g =>
    rcases g with ⟨activations, workflow⟩
    cases activations with
    | nil => exact h.follows_self
    | cons a rest =>
      simp only [Entry.answer]
      split
      · exact h.follows_self
      · rename_i hpossible
        have hanswer (hearly : ¬ State.ClosesTooEarly ⟨some ⟨a :: rest, workflow⟩, past⟩ outcome) :
            Follows ⟨some ⟨a :: rest, workflow⟩, past⟩
            (if Group.closes ⟨a :: rest, workflow⟩ a outcome then
              ⟨Entry.close ⟨some ⟨a :: rest, workflow⟩, past⟩
                (Group.workflowAfter ⟨a :: rest, workflow⟩ a outcome), -1, -1, false⟩
            else ⟨⟨some ⟨rest, Group.workflowAfter ⟨a :: rest, workflow⟩ a outcome⟩, past⟩, 0, -1,
              false⟩) := by
          cases hcloses : Group.closes ⟨a :: rest, workflow⟩ a outcome with
          | false => exact follows_keep h hcloses
          | true =>
            -- There is a workflow, and nothing waits behind the activation.
            have hrest : rest = [] := by
              cases rest with
              | nil => rfl
              | cons b rest => exact absurd ⟨hcloses, .inr (List.cons_ne_nil b rest)⟩ hearly
            subst hrest
            cases workflow with
            | none => exact absurd ⟨hcloses, .inl rfl⟩ hearly
            | some w => exact follows_close h
        cases outcome with
        | succeeded | failed => exact hanswer (hearly nofun)
        | unencodable activated => exact follows_unencodable h (by simpa using hpossible)

/-! ## Whole runs of the worker -/

namespace State

variable {K : Type}

structure Kept (s : State K) : Prop where
  nodup : s.runIds.Nodup
  fits : ∀ k, Fits (s.entries k)
  absent : ∀ k, k ∉ s.runIds → s.entries k = .absent
  cached : s.numCachedWorkflows = tally s.runIds Entry.cached s.entries
  inFlight : s.numInFlightActivations = total s.runIds Entry.inFlight s.entries

variable {s : State K}

theorem kept_init : Kept (init : State K) :=
  ⟨List.nodup_nil, fun _ => fits_absent, fun _ _ => rfl, rfl, rfl⟩

theorem Kept.workflow (h : Kept s) {k : K} : ∀ w ∈ s.workflows k, w.disposals ≤ 1 ∧ w.lateActivations = 0 := by
  intro w hw
  rcases List.mem_append.1 hw with hw | hw
  · rcases Option.bind_eq_some_iff.1 (Option.mem_toList.1 hw) with ⟨g, hg, hw⟩
    rw [(h.fits k).workflow g hg w hw]
    exact ⟨Nat.zero_le 1, rfl⟩
  · exact (h.fits k).past w hw

theorem Kept.accounts (h : Kept s) : s.Accounts := by
  refine ⟨h.cached, h.inFlight, fun hidle => ⟨?_, ?_⟩, fun k w hw => (h.workflow w hw).1,
    fun k w hw => (h.workflow w hw).2⟩
  · have hzero : tally s.runIds Entry.cached s.entries = 0 :=
      tally_eq_zero.2 fun k _ => by simp [Entry.cached, hidle k]
    rw [h.cached, hzero]
    rfl
  · have hzero : total s.runIds Entry.inFlight s.entries = 0 :=
      total_eq_zero.2 fun k _ => by simp [Entry.inFlight, hidle k]
    rw [h.inFlight, hzero]
    rfl

variable [DecidableEq K]

theorem Kept.follow (h : Kept s) {e : K × Action} (hfollows : Follows (s.entries e.1) (s.effect e)) :
    Kept (s.step e) := by
  have hmem : e.1 ∈ s.runIds.insert e.1 := List.mem_insert_self
  have hcached : s.numCachedWorkflows = tally (s.runIds.insert e.1) Entry.cached s.entries := by
    rw [h.cached, tally, tally, total_insert fun hk => by rw [h.absent _ hk]; rfl]
  have hinFlight : s.numInFlightActivations = total (s.runIds.insert e.1) Entry.inFlight s.entries := by
    rw [h.inFlight, total_insert fun hk => by rw [h.absent _ hk]; rfl]
  have hnodup : (s.runIds.insert e.1).Nodup := h.nodup.insert
  refine ⟨hnodup, fun k => ?_, fun k hk => ?_, ?_, ?_⟩
  · by_cases hke : k = e.1
    · rw [hke]
      simpa [step] using hfollows.fits
    · simpa [step, Function.update_of_ne hke] using h.fits k
  · have hke : k ≠ e.1 := fun heq => hk (heq ▸ hmem)
    have hold : k ∉ s.runIds := fun hmem' => hk (List.mem_insert_of_mem hmem')
    simpa [step, Function.update_of_ne hke] using h.absent k hold
  · exact tally_change hnodup (fun hk => absurd hmem hk) hcached hfollows.changeCached
  · exact total_change hnodup (fun hk => absurd hmem hk) hinFlight hfollows.changeInFlight

theorem Kept.step (h : Kept s) {e : K × Action} (he : s.Proper e) : Kept (s.step e) := by
  rcases e with ⟨k, action⟩
  have hfits := h.fits k
  refine h.follow ?_
  simp only [effect, Entry.act]
  split
  · exact hfits.follows_self
  · cases action with
    | activation a => exact follows_enqueue hfits he
    | pollerStopped =>
      cases hgroup : (s.entries k).group with
      | none => exact hfits.follows_self
      | some g => exact follows_enqueue hfits (.inl rfl)
    | created => exact follows_created hfits
    | answered outcome =>
      cases outcome with
      | succeeded | failed => exact follows_answer hfits fun _ => he
      | unencodable activated => exact follows_answer hfits fun h => absurd rfl (h activated)

/-- Over any number of runs and however their activations, evictions, creations, failures and disposals are
interleaved: as long as no answer closes a group that has no workflow or in which others wait, and every activation
has a job, the counters are what they stand for, and no workflow is disposed of twice or activated after it. -/
theorem accounts_of_proper (es : List (K × Action)) (hes : Guarded step Proper (init : State K) es) :
    Throughout step Accounts init es := by
  have hstep : ∀ (s : State K) (e : K × Action), s.Proper e → Kept s → Kept (s.step e) :=
    fun s e he h => h.step he
  exact throughout_of_invariant hstep (fun s h => h.accounts) kept_init hes

/-- A workflow is created, a later activation of it fails, it is evicted by core and created again; another one is
evicted at shutdown, and its disposal fails. -/
theorem accounts_of_evictions :
    Throughout step Accounts (init : State Nat)
      [(0, .activation ⟨false, true⟩), (0, .created), (1, .activation ⟨false, true⟩),
        (0, .answered .succeeded), (0, .activation ⟨false, true⟩), (0, .activation ⟨true, false⟩),
        (0, .answered (.failed true)), (1, .created), (0, .answered .succeeded),
        (0, .activation ⟨false, true⟩), (0, .created), (1, .answered .succeeded), (1, .pollerStopped),
        (1, .answered (.failed false))] :=
  accounts_of_proper _ (by decide)

/-- A run whose workflow cannot be created is evicted; and the worker stops polling while a run is evicted. -/
theorem not_accounts_of_failed_creation :
    ¬ Accounts (run step (init : State Nat)
        [(0, .activation ⟨false, true⟩), (0, .answered (.failed false)), (0, .activation ⟨true, false⟩),
          (0, .answered .succeeded)]) ∧
      ¬ Accounts (run step (init : State Nat)
        [(0, .activation ⟨false, true⟩), (0, .created), (0, .answered .succeeded),
          (0, .activation ⟨true, false⟩), (0, .pollerStopped), (0, .answered .succeeded)]) := by
  constructor
  · exact fun h => absurd h.cached (by decide)
  · exact fun h => absurd h.inFlight (by decide)

end State
end WorkflowCache
end TemporalSdk.Worker
