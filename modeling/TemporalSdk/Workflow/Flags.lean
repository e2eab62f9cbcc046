import TemporalSdk.Workflow.Protocol

/-!
# Flags — SDK flags, live and in replay

`hasFlag` keeps one set: the flags that are known to be enabled.  Outside replay a query of a flag that is
enabled by default adds it; what is in the set at the end of a workflow task is reported as
`usedInternalFlags`, and comes back as `availableInternalFlags` when the task is replayed.

A program is a tree of queries for each workflow task.  It may branch on the answers for flags that have
no alternative conditions; these are the answers that replay repeats.
-/

namespace TemporalSdk.Workflow
namespace Flags

/-! ## Alternative conditions -/

/-- What an `AltConditionFn` looks at. -/
structure AltContext where
  currentBuildId : Option String
  sdkVersion : Option String
  deriving DecidableEq

structure SemVer where
  major : Nat
  minor : Nat
  patch : Nat
  deriving DecidableEq

def digitsToNat (digits : List Char) : Nat :=
  digits.foldl (fun n c => 10 * n + (c.toNat - '0'.toNat)) 0

/-- `(\d+)` at the start of the text, and what follows. -/
def takeDigits (text : List Char) : Option (Nat × List Char) :=
  if (text.takeWhile Char.isDigit).isEmpty then none
  else some (digitsToNat (text.takeWhile Char.isDigit), text.dropWhile Char.isDigit)

/-- `(\d+)\.(\d+)\.(\d+)` at the start of the text. -/
def semverHere (text : List Char) : Option SemVer := do
  let (major, rest) ← takeDigits text
  let '.' :: rest := rest | none
  let (minor, rest) ← takeDigits rest
  let '.' :: rest := rest | none
  let (patch, _) ← takeDigits rest
  return ⟨major, minor, patch⟩

/-- `parseSemver`: the leftmost match. -/
def parseSemver (version : String) : Option SemVer :=
  version.toList.tails.findSome? semverHere

def compareSemver (a b : SemVer) : Ordering :=
  (compare a.major b.major).then ((compare a.minor b.minor).then (compare a.patch b.patch))

def isCompared (compare : SemVer) (comparison : Ordering) (missingDefault : Bool)
    (ctx : AltContext) : Bool :=
  match ctx.sdkVersion with
  | none => missingDefault
  | some "" => missingDefault
  | some version =>
    match parseSemver version with
    | none => missingDefault
    | some version => compareSemver compare version == comparison

def isAtLeast (compare : SemVer) (ctx : AltContext) : Bool :=
  isCompared compare .lt false ctx || isCompared compare .eq false ctx

/-- `buildIdSdkVersionMatches(/1\.11\.[01]/)`. -/
def buildIdSdkVersionMatches (ctx : AltContext) : Bool :=
  match ctx.currentBuildId with
  | none => false
  | some buildId =>
    "@temporalio/worker@1.11.0+".toList.isPrefixOf buildId.toList ||
      "@temporalio/worker@1.11.1+".toList.isPrefixOf buildId.toList

/-! ## Flags -/

structure SdkFlag where
  id : Nat
  default : Bool
  alternativeConditions : Option (List (AltContext → Bool))

/-- Replay answers by the recorded flags only. -/
def SdkFlag.isPlain (flag : SdkFlag) : Bool := flag.alternativeConditions.isNone

/-- `flagsRegistry`: each id belongs to one flag. -/
structure FlagsRegistry where
  flags : List SdkFlag
  distinct : ∀ f ∈ flags, ∀ g ∈ flags, f.id = g.id → f = g

/-- `SdkFlags`. -/
def sdkFlags : List SdkFlag :=
  [ -- NonCancellableScopesAreShieldedFromPropagation
   ⟨1, true, some [buildIdSdkVersionMatches]⟩,
   -- ProcessWorkflowActivationJobsAsSingleBatch
   ⟨2, true, some [buildIdSdkVersionMatches]⟩,
   -- OpenTelemetryInterceptorsTracesInboundSignals
   ⟨3, true, some [isAtLeast ⟨1, 11, 5⟩]⟩,
   -- OpenTelemetryInterceptorsTracesLocalActivities
   ⟨4, true, some [isAtLeast ⟨1, 11, 6⟩]⟩,
   -- OpenTelemetryInterceporsAvoidsExtraYields
   ⟨5, true, some [isAtLeast ⟨1, 13, 2⟩]⟩,
   -- OpenTelemetryInterceptorsInstrumentsAllMethods
   ⟨6, true, none⟩]

def sdkFlagsRegistry : FlagsRegistry where
  flags := sdkFlags
  distinct := by
    simp [sdkFlags]

def assertValidFlag (r : FlagsRegistry) (id : Nat) : Except JsError Unit :=
  if r.flags.any (fun f => f.id == id) then .ok ()
  else .error (.typeError s!"Unknown SDK flag: {id}")

/-! ## The state -/

/-- What `Activator` keeps for flags. -/
structure State where
  -- A `Set`, in the order of insertion.
  knownFlags : List Nat
  isReplaying : Bool
  ctx : AltContext

def State.init : State := ⟨[], false, ⟨none, none⟩⟩

/-- `this.knownFlags.add(id)`. -/
def State.add (s : State) (id : Nat) : State :=
  if id ∈ s.knownFlags then s else { s with knownFlags := s.knownFlags ++ [id] }

/-- `addKnownFlags`, up to the first unknown flag. -/
def addKnownFlags (r : FlagsRegistry) : List Nat → State → Except JsError State
  | [], s => .ok s
  | id :: ids, s => do
    assertValidFlag r id
    addKnownFlags r ids (s.add id)

def hasFlag (s : State) (flag : SdkFlag) : State × Bool :=
  if flag.id ∈ s.knownFlags then
    (s, true)
  else if !s.isReplaying && flag.default then
    (s.add flag.id, true)
  else if s.isReplaying && (flag.alternativeConditions.getD []).any (fun cond => cond s.ctx) then
    (s, true)
  else
    (s, false)

/-! ## Programs -/

/-- The queries of a workflow task.  `branch` looks at the answer. -/
inductive Queries (r : FlagsRegistry)
  | done
  | ask (flag : SdkFlag) (registered : flag ∈ r.flags) (next : Queries r)
  | branch (flag : SdkFlag) (registered : flag ∈ r.flags) (plain : flag.isPlain = true)
      (next : Bool → Queries r)

/-- The part of an activation that concerns flags. -/
structure Activation where
  isReplaying : Bool
  currentBuildId : Option String
  availableInternalFlags : List Nat
  lastSdkVersion : Option String

structure Answer where
  flag : SdkFlag
  value : Bool

/-- What a workflow task leaves behind. -/
structure Record where
  answers : List Answer
  usedInternalFlags : List Nat

/-- The answers that replay is to repeat. -/
def Record.plainAnswers (record : Record) : List Answer :=
  record.answers.filter fun a => a.flag.isPlain

/-- The flags that were asked for. -/
def Record.asked (record : Record) : List SdkFlag := record.answers.map Answer.flag

variable {r : FlagsRegistry}

def Queries.run : Queries r → State → State × List Answer
  | .done, s => (s, [])
  | .ask flag _ next, s =>
    let a := hasFlag s flag
    let rest := next.run a.1
    (rest.1, ⟨flag, a.2⟩ :: rest.2)
  | .branch flag _ _ next, s =>
    let a := hasFlag s flag
    let rest := (next a.2).run a.1
    (rest.1, ⟨flag, a.2⟩ :: rest.2)

/-- `activate`, before jobs are processed. -/
def activate (r : FlagsRegistry) (s : State) (a : Activation) : Except JsError State := do
  let s := { s with
    isReplaying := a.isReplaying
    ctx := { s.ctx with currentBuildId := some (a.currentBuildId.getD "") } }
  let s ← addKnownFlags r a.availableInternalFlags s
  match a.lastSdkVersion with
  | none => return s
  | some "" => return s
  | some version => return { s with ctx := { s.ctx with sdkVersion := some version } }

/-- Run a list of tasks; an activation that throws ends the run. -/
def runTasks (s : State) : List (Activation × Queries r) → Except JsError (List Record)
  | [] => .ok []
  | (a, queries) :: tasks => do
    let s ← activate r s a
    let rest ← runTasks (queries.run s).1 tasks
    return ⟨(queries.run s).2, (queries.run s).1.knownFlags⟩ :: rest

/-- A workflow task: its queries, what comes with it live, and what comes with it in replay besides the
flags that were recorded. -/
structure Task (r : FlagsRegistry) where
  queries : Queries r
  availableInternalFlags : List Nat
  buildId : Option String
  sdkVersion : Option String
  replayBuildId : Option String
  replaySdkVersion : Option String

def Task.live (t : Task r) : Activation × Queries r :=
  (⟨false, t.buildId, t.availableInternalFlags, t.sdkVersion⟩, t.queries)

def Task.replay (t : Task r) (record : Record) : Activation × Queries r :=
  (⟨true, t.replayBuildId, record.usedInternalFlags, t.replaySdkVersion⟩, t.queries)

/-! ## One query -/

section Query

variable {s s' : State} {flag : SdkFlag}

@[simp] theorem mem_add (s : State) (id x : Nat) :
    x ∈ (s.add id).knownFlags ↔ x ∈ s.knownFlags ∨ x = id := by
  unfold State.add
  by_cases h : id ∈ s.knownFlags
  · rw [if_pos h]
    refine ⟨Or.inl, ?_⟩
    rintro (hx | rfl)
    · exact hx
    · exact h
  · rw [if_neg h]
    simp

@[simp] theorem isReplaying_add (s : State) (id : Nat) :
    (s.add id).isReplaying = s.isReplaying := by
  unfold State.add
  split <;> rfl

theorem hasFlag_live (h : s.isReplaying = false) (flag : SdkFlag) :
    (hasFlag s flag).1.isReplaying = false ∧
    ((hasFlag s flag).2 = true ↔ flag.id ∈ s.knownFlags ∨ flag.default = true) ∧
    ∀ x, x ∈ (hasFlag s flag).1.knownFlags ↔
      x ∈ s.knownFlags ∨ x = flag.id ∧ flag.default = true := by
  unfold hasFlag
  by_cases hknown : flag.id ∈ s.knownFlags
  · rw [if_pos hknown]
    refine ⟨h, by simp [hknown], ?_⟩
    intro x
    refine ⟨Or.inl, ?_⟩
    rintro (hx | ⟨rfl, _⟩)
    · exact hx
    · exact hknown
  · rw [if_neg hknown]
    cases hdefault : flag.default with
    | true => simp [h]
    | false => simp [h, hknown]

theorem hasFlag_replay (h : s.isReplaying = true) (flag : SdkFlag) :
    (hasFlag s flag).1 = s ∧
    (flag.isPlain = true → ((hasFlag s flag).2 = true ↔ flag.id ∈ s.knownFlags)) := by
  unfold hasFlag
  by_cases hknown : flag.id ∈ s.knownFlags
  · rw [if_pos hknown]
    simp [hknown]
  · rw [if_neg hknown]
    refine ⟨?_, ?_⟩
    · simp only [h, Bool.not_true, Bool.false_and, Bool.false_eq_true, if_false]
      split <;> rfl
    · intro hplain
      have hnone : flag.alternativeConditions = none := by simpa [SdkFlag.isPlain] using hplain
      simp [h, hnone, hknown]

theorem hasFlag_known (h : flag.id ∈ s.knownFlags) : hasFlag s flag = (s, true) := by
  unfold hasFlag
  rw [if_pos h]

theorem known_hasFlag (s : State) (flag : SdkFlag) {x : Nat} (h : x ∈ s.knownFlags) :
    x ∈ (hasFlag s flag).1.knownFlags := by
  unfold hasFlag
  split
  · exact h
  · split
    · exact (mem_add s flag.id x).2 (Or.inl h)
    · split <;> exact h

end Query

/-! ## The queries of a task -/

section Queries

variable {s s' : State}

theorem known_run (q : Queries r) : ∀ (s : State) {x : Nat}, x ∈ s.knownFlags →
    x ∈ (q.run s).1.knownFlags := by
  induction q with
  | done =>
    intro s x h
    exact h
  | ask flag _ next ih =>
    intro s x h
    exact ih _ (known_hasFlag s flag h)
  | branch flag _ _ next ih =>
    intro s x h
    exact ih _ _ (known_hasFlag s flag h)

/-- Live, only flags that are enabled by default become known. -/
theorem known_run_live (q : Queries r) : ∀ (s : State), s.isReplaying = false →
    (q.run s).1.isReplaying = false ∧ ∀ x, x ∈ (q.run s).1.knownFlags →
      x ∈ s.knownFlags ∨ ∃ f ∈ r.flags, f.id = x ∧ f.default = true := by
  have hstep : ∀ (s : State) (flag : SdkFlag), s.isReplaying = false → flag ∈ r.flags →
      ∀ x, x ∈ (hasFlag s flag).1.knownFlags →
        x ∈ s.knownFlags ∨ ∃ f ∈ r.flags, f.id = x ∧ f.default = true := by
    intro s flag hlive hflag x hx
    rcases ((hasFlag_live hlive flag).2.2 x).1 hx with hx | ⟨rfl, hdefault⟩
    · exact Or.inl hx
    · exact Or.inr ⟨flag, hflag, rfl, hdefault⟩
  induction q with
  | done =>
    intro s hlive
    exact ⟨hlive, fun _ hx => Or.inl hx⟩
  | ask flag hflag next ih =>
    intro s hlive
    rcases ih (hasFlag s flag).1 (hasFlag_live hlive flag).1 with ⟨hrest, hknown⟩
    refine ⟨hrest, ?_⟩
    intro x hx
    rcases hknown x hx with hx | hx
    · exact hstep s flag hlive hflag x hx
    · exact Or.inr hx
  | branch flag hflag _ next ih =>
    intro s hlive
    rcases ih _ (hasFlag s flag).1 (hasFlag_live hlive flag).1 with ⟨hrest, hknown⟩
    refine ⟨hrest, ?_⟩
    intro x hx
    rcases hknown x hx with hx | hx
    · exact hstep s flag hlive hflag x hx
    · exact Or.inr hx

theorem live_answer_iff (hlive : s.isReplaying = false) {flag : SdkFlag} (hflag : flag ∈ r.flags)
    (q : Queries r) :
    (hasFlag s flag).2 = true ↔ flag.id ∈ (q.run (hasFlag s flag).1).1.knownFlags := by
  rcases hasFlag_live hlive flag with ⟨hlive', hanswer, hknown⟩
  refine ⟨?_, ?_⟩
  · intro htrue
    refine known_run q _ ((hknown flag.id).2 ?_)
    rcases hanswer.1 htrue with h | h
    · exact Or.inl h
    · exact Or.inr ⟨rfl, h⟩
  · intro hend
    refine hanswer.2 ?_
    rcases (known_run_live q _ hlive').2 _ hend with h | ⟨f, hf, hid, hdefault⟩
    · rcases (hknown flag.id).1 h with h | ⟨_, h⟩
      · exact Or.inl h
      · exact Or.inr h
    · -- Ids are distinct, so it is this flag that is enabled by default.
      rw [r.distinct f hf flag hflag hid] at hdefault
      exact Or.inr hdefault

/-- The same task in replay, when the flags that are known at its end are known from its start. -/
theorem replay_run (q : Queries r) : ∀ (s s' : State), s.isReplaying = false →
    s'.isReplaying = true → (∀ x, x ∈ s'.knownFlags ↔ x ∈ (q.run s).1.knownFlags) →
    (q.run s').1 = s' ∧ (q.run s').2.map Answer.flag = (q.run s).2.map Answer.flag ∧
      (q.run s').2.filter (fun a => a.flag.isPlain) = (q.run s).2.filter (fun a => a.flag.isPlain) := by
  induction q with
  | done =>
    intro s s' _ _ _
    exact ⟨rfl, rfl, rfl⟩
  | ask flag hflag next ih =>
    intro s s' hlive hreplay hsame
    rcases hasFlag_replay hreplay flag with ⟨hstay, hplain⟩
    rcases ih (hasFlag s flag).1 s' (hasFlag_live hlive flag).1 hreplay hsame with
      ⟨hend, hasked, hanswers⟩
    simp only [Queries.run, hstay]
    refine ⟨hend, ?_, ?_⟩
    · simp only [List.map_cons, hasked]
    · cases hp : flag.isPlain with
      | false => simpa [hp] using hanswers
      | true =>
        have heq : (hasFlag s' flag).2 = (hasFlag s flag).2 := by
          rw [Bool.eq_iff_iff, hplain hp, hsame]
          exact (live_answer_iff hlive hflag next).symm
        simp [hp, hanswers, heq]
  | branch flag hflag hp next ih =>
    intro s s' hlive hreplay hsame
    rcases hasFlag_replay hreplay flag with ⟨hstay, hplain⟩
    have heq : (hasFlag s' flag).2 = (hasFlag s flag).2 := by
      rw [Bool.eq_iff_iff, hplain hp, hsame]
      exact (live_answer_iff hlive hflag _).symm
    rcases ih _ (hasFlag s flag).1 s' (hasFlag_live hlive flag).1 hreplay hsame with
      ⟨hend, hasked, hanswers⟩
    simp only [Queries.run, hstay, heq]
    refine ⟨hend, ?_, ?_⟩
    · simp only [List.map_cons, hasked]
    · simp [hp, hanswers]

end Queries

/-! ## Activations -/

section Activations

variable {s s' : State}

def Registered (r : FlagsRegistry) (id : Nat) : Prop := r.flags.any (fun f => f.id == id) = true

theorem addKnownFlags_ok : ∀ {ids : List Nat} {s s' : State}, addKnownFlags r ids s = .ok s' →
    s'.isReplaying = s.isReplaying ∧ (∀ id ∈ ids, Registered r id) ∧
      ∀ x, x ∈ s'.knownFlags ↔ x ∈ s.knownFlags ∨ x ∈ ids := by
  intro ids
  induction ids with
  | nil =>
    intro s s' h
    cases h
    simp
  | cons id ids ih =>
    intro s s' h
    simp only [addKnownFlags, assertValidFlag] at h
    cases hid : r.flags.any (fun f => f.id == id) with
    | false =>
      rw [hid] at h
      cases h
    | true =>
      rw [hid] at h
      rcases ih h with ⟨hreplaying, hvalid, hknown⟩
      refine ⟨hreplaying.trans (isReplaying_add s id), ?_, ?_⟩
      · intro x hx
        rcases List.mem_cons.1 hx with rfl | hx
        · exact hid
        · exact hvalid x hx
      · intro x
        rw [hknown, mem_add, List.mem_cons, or_assoc]

theorem addKnownFlags_of_registered : ∀ {ids : List Nat} (s : State),
    (∀ id ∈ ids, Registered r id) → ∃ s', addKnownFlags r ids s = .ok s' := by
  intro ids
  induction ids with
  | nil =>
    intro s _
    exact ⟨s, rfl⟩
  | cons id ids ih =>
    intro s h
    have hid : r.flags.any (fun f => f.id == id) = true := h id (by simp)
    rcases ih (s.add id) fun x hx => h x (List.mem_cons_of_mem id hx) with ⟨s', hs'⟩
    refine ⟨s', ?_⟩
    simp only [addKnownFlags, assertValidFlag, hid, if_true]
    exact hs'

theorem activate_ok {a : Activation} (h : activate r s a = .ok s') :
    s'.isReplaying = a.isReplaying ∧ (∀ id ∈ a.availableInternalFlags, Registered r id) ∧
      ∀ x, x ∈ s'.knownFlags ↔ x ∈ s.knownFlags ∨ x ∈ a.availableInternalFlags := by
  unfold activate at h
  cases hadd : addKnownFlags r a.availableInternalFlags { s with
      isReplaying := a.isReplaying
      ctx := { s.ctx with currentBuildId := some (a.currentBuildId.getD "") } } with
  | error e =>
    simp only [hadd] at h
    cases h
  | ok t =>
    have hspec := addKnownFlags_ok hadd
    simp only [hadd, bind, Except.bind] at h
    split at h
    all_goals
      cases h
      exact hspec

theorem activate_of_registered (s : State) {a : Activation}
    (h : ∀ id ∈ a.availableInternalFlags, Registered r id) : ∃ s', activate r s a = .ok s' := by
  rcases addKnownFlags_of_registered { s with
    isReplaying := a.isReplaying
    ctx := { s.ctx with currentBuildId := some (a.currentBuildId.getD "") } } h with ⟨t, ht⟩
  unfold activate
  simp only [ht, bind, Except.bind]
  split <;> exact ⟨_, rfl⟩

end Activations

/-! ## Tasks -/

theorem runTasks_cons {s : State} {a : Activation} {q : Queries r}
    {tasks : List (Activation × Queries r)} {records : List Record}
    (h : runTasks s ((a, q) :: tasks) = .ok records) :
    ∃ s' rest, activate r s a = .ok s' ∧ runTasks (q.run s').1 tasks = .ok rest ∧
      records = ⟨(q.run s').2, (q.run s').1.knownFlags⟩ :: rest := by
  simp only [runTasks, bind, Except.bind] at h
  cases ha : activate r s a with
  | error e =>
    rw [ha] at h
    cases h
  | ok s' =>
    rw [ha] at h
    cases hrest : runTasks (q.run s').1 tasks with
    | error e =>
      simp only [hrest] at h
      cases h
    | ok rest =>
      simp only [hrest] at h
      cases h
      exact ⟨s', rest, rfl, hrest, rfl⟩

/-- Flags stay known from one task to the next. -/
theorem known_runTasks : ∀ {tasks : List (Activation × Queries r)} {s : State}
    {records : List Record}, runTasks s tasks = .ok records →
      (∀ record ∈ records, s.knownFlags ⊆ record.usedInternalFlags) ∧
      records.Pairwise fun a b => a.usedInternalFlags ⊆ b.usedInternalFlags := by
  intro tasks
  induction tasks with
  | nil =>
    intro s records h
    cases h
    simp
  | cons task tasks ih =>
    intro s records h
    rcases runTasks_cons h with ⟨s', rest, ha, hrest, rfl⟩
    rcases ih hrest with ⟨hlater, hpairwise⟩
    have hfirst : s.knownFlags ⊆ (task.2.run s').1.knownFlags := by
      intro x hx
      exact known_run task.2 s' (((activate_ok ha).2.2 x).2 (Or.inl hx))
    refine ⟨?_, List.pairwise_cons.2 ⟨hlater, hpairwise⟩⟩
    intro record hrecord
    rcases List.mem_cons.1 hrecord with rfl | hrecord
    · exact hfirst
    · exact List.Subset.trans hfirst (hlater record hrecord)

/-- The replay of a run from a state with the same known flags. -/
theorem replay_runTasks : ∀ {tasks : List (Task r)} {s s' : State} {records : List Record},
    (∀ x ∈ s.knownFlags, Registered r x) → (∀ x, x ∈ s'.knownFlags ↔ x ∈ s.knownFlags) →
    runTasks s (tasks.map Task.live) = .ok records →
    ∃ replayed, runTasks s' (List.zipWith Task.replay tasks records) = .ok replayed ∧
      replayed.map Record.asked = records.map Record.asked ∧
      replayed.map Record.plainAnswers = records.map Record.plainAnswers := by
  intro tasks
  induction tasks with
  | nil =>
    intro s s' records _ _ h
    cases h
    exact ⟨[], rfl, rfl, rfl⟩
  | cons task tasks ih =>
    intro s s' records hvalid hsame h
    rcases runTasks_cons h with ⟨t, rest, ha, hrest, rfl⟩
    rcases activate_ok ha with ⟨hlive, havailable, hknown⟩
    rcases known_run_live task.queries t hlive with ⟨_, hnew⟩
    have hused : ∀ x ∈ (task.queries.run t).1.knownFlags, Registered r x := by
      intro x hx
      rcases hnew x hx with hx | ⟨f, hf, rfl, _⟩
      · rcases (hknown x).1 hx with hx | hx
        · exact hvalid x hx
        · exact havailable x hx
      · exact List.any_eq_true.2 ⟨f, hf, by simp⟩
    rcases activate_of_registered s' (a := (task.replay
      ⟨(task.queries.run t).2, (task.queries.run t).1.knownFlags⟩).1) hused with ⟨t', ha'⟩
    rcases activate_ok ha' with ⟨hreplay, _, hknown'⟩
    -- What was known before the task is among what is recorded at its end.
    have hend : ∀ x, x ∈ t'.knownFlags ↔ x ∈ (task.queries.run t).1.knownFlags := by
      intro x
      rw [hknown', hsame]
      refine ⟨?_, Or.inr⟩
      rintro (hx | hx)
      · exact known_run task.queries t ((hknown x).2 (Or.inl hx))
      · exact hx
    rcases replay_run task.queries t t' hlive hreplay hend with ⟨hstay, hasked, hanswers⟩
    have hsame' : ∀ x, x ∈ (task.queries.run t').1.knownFlags ↔
        x ∈ (task.queries.run t).1.knownFlags := by
      rw [hstay]
      exact hend
    rcases ih hused hsame' hrest with ⟨replayed, hrun, hasked', hanswers'⟩
    refine ⟨⟨(task.queries.run t').2, (task.queries.run t').1.knownFlags⟩ :: replayed, ?_, ?_, ?_⟩
    · simp only [List.zipWith_cons_cons, runTasks, Task.replay, bind, Except.bind]
      have hstart : activate r s' ⟨true, task.replayBuildId, (task.queries.run t).1.knownFlags,
          task.replaySdkVersion⟩ = .ok t' := ha'
      simp only [hstart, hrun]
      rfl
    · simp only [List.map_cons, hasked', Record.asked, hasked]
    · simp only [List.map_cons, hanswers', Record.plainAnswers, hanswers]

/-! ## Answers of a live run -/

/-- Once true, always true. -/
def StayTrue (answers : List Answer) : Prop :=
  answers.Pairwise fun a b => a.flag.id = b.flag.id → a.value = true → b.value = true

/-- Known flags are enabled in all answers. -/
theorem answers_known (q : Queries r) : ∀ (s : State), ∀ a ∈ (q.run s).2,
    a.flag.id ∈ s.knownFlags → a.value = true := by
  have hcons : ∀ (s : State) (flag : SdkFlag) (rest : List Answer),
      (∀ a ∈ rest, a.flag.id ∈ (hasFlag s flag).1.knownFlags → a.value = true) →
      ∀ a ∈ (⟨flag, (hasFlag s flag).2⟩ :: rest : List Answer), a.flag.id ∈ s.knownFlags →
        a.value = true := by
    intro s flag rest hrest a ha hknown
    rcases List.mem_cons.1 ha with rfl | ha
    · have hfirst : flag.id ∈ s.knownFlags := hknown
      rw [hasFlag_known hfirst]
    · exact hrest a ha (known_hasFlag s flag hknown)
  induction q with
  | done =>
    intro s a ha
    cases ha
  | ask flag _ next ih =>
    intro s
    exact hcons s flag _ (ih _)
  | branch flag _ _ next ih =>
    intro s
    exact hcons s flag _ (ih _ _)

theorem stayTrue_run (q : Queries r) : ∀ (s : State), s.isReplaying = false →
    StayTrue (q.run s).2 ∧ ∀ a ∈ (q.run s).2, a.value = true →
      a.flag.id ∈ (q.run s).1.knownFlags := by
  have hcons : ∀ (s : State) (flag : SdkFlag) (q : Queries r), s.isReplaying = false →
      (StayTrue (q.run (hasFlag s flag).1).2 ∧ ∀ a ∈ (q.run (hasFlag s flag).1).2, a.value = true →
        a.flag.id ∈ (q.run (hasFlag s flag).1).1.knownFlags) →
      StayTrue (⟨flag, (hasFlag s flag).2⟩ :: (q.run (hasFlag s flag).1).2) ∧
        ∀ a ∈ (⟨flag, (hasFlag s flag).2⟩ :: (q.run (hasFlag s flag).1).2 : List Answer),
          a.value = true → a.flag.id ∈ (q.run (hasFlag s flag).1).1.knownFlags := by
    intro s flag q hlive hrest
    -- A positive answer makes the flag known.
    have hfirst : (hasFlag s flag).2 = true → flag.id ∈ (hasFlag s flag).1.knownFlags := by
      intro htrue
      refine ((hasFlag_live hlive flag).2.2 flag.id).2 ?_
      rcases (hasFlag_live hlive flag).2.1.1 htrue with h | h
      · exact Or.inl h
      · exact Or.inr ⟨rfl, h⟩
    refine ⟨List.pairwise_cons.2 ⟨?_, hrest.1⟩, ?_⟩
    · intro a ha heq htrue
      have hid : a.flag.id ∈ (hasFlag s flag).1.knownFlags := heq ▸ hfirst htrue
      exact answers_known q _ a ha hid
    · intro a ha htrue
      rcases List.mem_cons.1 ha with rfl | ha
      · exact known_run q _ (hfirst htrue)
      · exact hrest.2 a ha htrue
  induction q with
  | done =>
    intro s _
    exact ⟨List.Pairwise.nil, fun a ha => by cases ha⟩
  | ask flag _ next ih =>
    intro s hlive
    exact hcons s flag next hlive (ih _ (hasFlag_live hlive flag).1)
  | branch flag _ _ next ih =>
    intro s hlive
    exact hcons s flag _ hlive (ih _ _ (hasFlag_live hlive flag).1)

theorem stayTrue_runTasks : ∀ {tasks : List (Task r)} {s : State} {records : List Record},
    runTasks s (tasks.map Task.live) = .ok records →
      StayTrue (records.flatMap Record.answers) ∧
      ∀ a ∈ records.flatMap Record.answers, a.flag.id ∈ s.knownFlags → a.value = true := by
  intro tasks
  induction tasks with
  | nil =>
    intro s records h
    cases h
    exact ⟨List.Pairwise.nil, fun a ha => by cases ha⟩
  | cons task tasks ih =>
    intro s records h
    rcases runTasks_cons h with ⟨t, rest, ha, hrest, rfl⟩
    rcases ih hrest with ⟨hpairwise, hlater⟩
    rcases activate_ok ha with ⟨hlive, _, hknown⟩
    rcases stayTrue_run task.queries t hlive with ⟨hfirst, htrue⟩
    simp only [List.flatMap_cons]
    refine ⟨List.pairwise_append.2 ⟨hfirst, hpairwise, ?_⟩, ?_⟩
    · intro a ha b hb heq hvalue
      exact hlater b hb (heq ▸ htrue a ha hvalue)
    · intro a ha hid
      have hid' : a.flag.id ∈ t.knownFlags := (hknown _).2 (Or.inl hid)
      rcases List.mem_append.1 ha with ha | ha
      · exact answers_known task.queries t a ha hid'
      · exact hlater a ha (known_run task.queries t hid')

/-! ## The result -/

/-- Tasks that were executed live can be replayed with the flags recorded for each of them: the replay
asks for the same flags and gets the same answer for every flag without alternative conditions.  In
both runs the recorded flags only become more, and live an answer that was true stays true. -/
theorem flags_replay_faithfully (tasks : List (Task r)) (records : List Record)
    (hlive : runTasks State.init (tasks.map Task.live) = .ok records) :
    (∃ replayed, runTasks State.init (List.zipWith Task.replay tasks records) = .ok replayed ∧
      replayed.map Record.asked = records.map Record.asked ∧
      replayed.map Record.plainAnswers = records.map Record.plainAnswers ∧
      replayed.Pairwise fun a b => a.usedInternalFlags ⊆ b.usedInternalFlags) ∧
    (records.Pairwise fun a b => a.usedInternalFlags ⊆ b.usedInternalFlags) ∧
    StayTrue (records.flatMap Record.answers) := by
  refine ⟨?_, (known_runTasks hlive).2, (stayTrue_runTasks hlive).1⟩
  have hsame : ∀ x, x ∈ State.init.knownFlags ↔ x ∈ State.init.knownFlags := fun _ => Iff.rfl
  rcases replay_runTasks (fun x hx => by cases hx) hsame hlive with
    ⟨replayed, hrun, hasked, hanswers⟩
  exact ⟨replayed, hrun, hasked, hanswers, (known_runTasks hrun).2⟩

/-- `SdkFlags` with one more flag that is not enabled by default. -/
def testRegistry : FlagsRegistry where
  flags := sdkFlags ++ [⟨7, false, none⟩]
  distinct := by
    simp [sdkFlags]

/-- The flag 7 is off in the first task; in the second one it is available. -/
def twoTasks : List (Task testRegistry) :=
  [⟨.ask ⟨7, false, none⟩ (by simp [testRegistry])
      (.branch ⟨6, true, none⟩ (by simp [testRegistry, sdkFlags]) rfl fun b =>
        if b then .ask ⟨1, true, some [buildIdSdkVersionMatches]⟩ (by simp [testRegistry, sdkFlags]) .done
        else .done),
    [], none, none, none, some "1.11.5"⟩,
   ⟨.ask ⟨7, false, none⟩ (by simp [testRegistry]) .done, [7], none, none, none, none⟩]

theorem twoTasks_replayed :
    ∃ records, runTasks State.init (twoTasks.map Task.live) = .ok records ∧
    records.map Record.usedInternalFlags = [[6, 1], [6, 1, 7]] ∧
    records.map (fun record => record.answers.map Answer.value) = [[false, true, true], [true]] ∧
    ∃ replayed, runTasks State.init (List.zipWith Task.replay twoTasks records) = .ok replayed ∧
      replayed.map Record.plainAnswers = records.map Record.plainAnswers := by
  refine ⟨_, rfl, by decide, by decide, ?_⟩
  rcases (flags_replay_faithfully twoTasks _ rfl).1 with ⟨replayed, hrun, _, hanswers, _⟩
  exact ⟨replayed, hrun, hanswers⟩

end Flags
end TemporalSdk.Workflow
