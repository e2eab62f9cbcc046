import TemporalSdk.Machine.Run
import TemporalSdk.Machine.Tally

/-!
# NexusTasks — `nexusOperator`

Tasks and their cancels are processed as they come.  A task first has its payloads retrieved from external
storage, then a handler is constructed, registered under the task's token and run, and last its result is
offloaded.  A cancel looks for the handler under its token.  `T` is the type of tokens and `R` that of what a
handler returns.
-/

namespace TemporalSdk.Worker
namespace NexusTasks

open Machine

inductive Outcome (R : Type)
  | result (r : R)
  | failure
  deriving DecidableEq

/-- How far a task is. -/
inductive Phase (R : Type)
  | absent
  -- `visitNexusTask`.
  | retrieving
  -- `nexusHandler.run`.
  | running
  -- The store pass over the completion.
  | offloading (outcome : Outcome R)
  | completed
  -- An error went out of the operator.
  | lost
  deriving DecidableEq

/-- What there is of one token. -/
structure Entry (R : Type) where
  phase : Phase R
  -- In `taskTokenToNexusHandler`.
  registered : Bool
  -- Whether the signal of its handler is aborted, when the handler has been constructed.
  signal : Option Bool
  completions : List (Outcome R)
  -- For stating properties: a cancel has come after the task and before its completion.
  cancelled : Bool
  deriving DecidableEq

/-- `encoded` tells whether the failure that the task is answered with can be encoded; an error of
`handlerErrorToProto` is not caught. -/
inductive Action (R : Type)
  | task
  | cancelTask
  -- The payloads have been retrieved, and the handler is constructed and run.
  | retrieved
  -- They have not, or the handler's constructor threw.
  | notRetrieved (encoded : Bool)
  | returned (r : R)
  | threw (encoded : Bool)
  | offloaded
  | notOffloaded (encoded : Bool)

/-- A token's entry after a step, the change of `numInFlightNexusOperations`, and whether an error goes out of
the operator. -/
structure Effect (R : Type) where
  entry : Entry R
  change : Int
  failed : Bool

namespace Entry

variable {R : Type}

def absent : Entry R := ⟨.absent, false, none, [], false⟩

/-- The task has come and its completion has not been emitted. -/
def outstanding (e : Entry R) : Bool :=
  match e.phase with
  | .retrieving => true
  | .running => true
  | .offloading _ => true
  | _ => false

def running (e : Entry R) : Bool :=
  match e.phase with
  | .running => true
  | _ => false

/-- The failure, if it can be encoded, is passed on. -/
def fail (e : Entry R) (change : Int) : Bool → Effect R
  | true => ⟨{ e with phase := .offloading .failure }, change, false⟩
  | false => ⟨{ e with phase := .lost }, change, true⟩

/-- A completion is emitted, unless the operator has failed. -/
def emit (e : Entry R) (operatorFailed : Bool) (outcome : Outcome R) : Effect R :=
  ⟨{ e with
    phase := .completed
    completions := if operatorFailed then e.completions else e.completions ++ [outcome] }, 0, false⟩

/-- Nothing happens where the action is not possible. -/
def act (operatorFailed : Bool) (e : Entry R) : Action R → Effect R
  | .task => if operatorFailed then ⟨e, 0, false⟩ else ⟨{ e with phase := .retrieving }, 0, false⟩
  | .cancelTask =>
    if operatorFailed then ⟨e, 0, false⟩
    else
      let e := { e with cancelled := e.cancelled || e.outstanding }
      if e.registered then ⟨{ e with signal := some true }, 0, false⟩ else ⟨e, 0, false⟩
  | .retrieved =>
    match e.phase with
    | .retrieving =>
      ⟨{ e with phase := .running, registered := true, signal := some false }, 1, false⟩
    | _ => ⟨e, 0, false⟩
  | .notRetrieved encoded =>
    match e.phase with
    | .retrieving => e.fail 0 encoded
    | _ => ⟨e, 0, false⟩
  | .returned r =>
    match e.phase with
    | .running => ⟨{ e with phase := .offloading (.result r), registered := false }, -1, false⟩
    | _ => ⟨e, 0, false⟩
  | .threw encoded =>
    match e.phase with
    | .running => { e with registered := false }.fail (-1) encoded
    | _ => ⟨e, 0, false⟩
  | .offloaded =>
    match e.phase with
    | .offloading outcome => e.emit operatorFailed outcome
    | _ => ⟨e, 0, false⟩
  | .notOffloaded encoded =>
    match e.phase with
    | .offloading _ =>
      if encoded then e.emit operatorFailed .failure else ⟨{ e with phase := .lost }, 0, true⟩
    | _ => ⟨e, 0, false⟩

end Entry

/-- `tokens` is for stating properties only: those of the tasks that have come. -/
structure State (T R : Type) where
  entries : T → Entry R
  numInFlightNexusOperations : Int
  failed : Bool
  tokens : List T

namespace State

variable {T R : Type} [DecidableEq T]

def init : State T R := ⟨fun _ => .absent, 0, false, []⟩

def effect (s : State T R) (e : T × Action R) : Effect R := (s.entries e.1).act s.failed e.2

def record (s : State T R) : T × Action R → List T
  | (k, .task) => k :: s.tokens
  | _ => s.tokens

def step (s : State T R) (e : T × Action R) : State T R :=
  { entries := Function.update s.entries e.1 (s.effect e).entry
    numInFlightNexusOperations := s.numInFlightNexusOperations + (s.effect e).change
    failed := s.failed || (s.effect e).failed
    tokens := s.record e }

/-- Every task has a token of its own. -/
def Conforming (s : State T R) : T × Action R → Prop
  | (k, .task) => k ∉ s.tokens
  | _ => True

/-- A cancel of a task that has no registered handler, although its completion has not been emitted. -/
def CancelMissed (s : State T R) : T × Action R → Prop
  | (k, .cancelTask) => (s.entries k).outstanding = true ∧ (s.entries k).running = false
  | _ => False

/-- A failure that cannot be encoded. -/
def Unencodable : T × Action R → Prop
  | (_, .notRetrieved false) => True
  | (_, .threw false) => True
  | (_, .notOffloaded false) => True
  | _ => False

def Proper (s : State T R) (e : T × Action R) : Prop :=
  s.Conforming e ∧ ¬ s.CancelMissed e ∧ ¬ Unencodable e

instance (s : State T R) : ∀ e, Decidable (s.Conforming e)
  | (k, .task) => inferInstanceAs (Decidable (k ∉ s.tokens))
  | (_, .cancelTask) => inferInstanceAs (Decidable True)
  | (_, .retrieved) => inferInstanceAs (Decidable True)
  | (_, .notRetrieved _) => inferInstanceAs (Decidable True)
  | (_, .returned _) => inferInstanceAs (Decidable True)
  | (_, .threw _) => inferInstanceAs (Decidable True)
  | (_, .offloaded) => inferInstanceAs (Decidable True)
  | (_, .notOffloaded _) => inferInstanceAs (Decidable True)

/-- What the operator is for. -/
structure Serves (s : State T R) : Prop where
  -- Every task is being processed or has one completion; nothing else has one.
  completed_once : ∀ k ∈ s.tokens,
    (s.entries k).completions.length + (s.entries k).outstanding.toNat = 1
  no_other : ∀ k, k ∉ s.tokens → (s.entries k).completions = []
  -- The handlers of the tasks that were cancelled, and no others, have their signals aborted.
  aborted_iff : ∀ k aborted, (s.entries k).signal = some aborted →
    (aborted = true ↔ (s.entries k).cancelled = true)
  -- The counter and the map are those of the handlers that run.
  counted : s.numInFlightNexusOperations = tally s.tokens Entry.running s.entries
  idle : (∀ k ∈ s.tokens, (s.entries k).outstanding = false) →
    s.numInFlightNexusOperations = 0 ∧ ∀ k, (s.entries k).registered = false

end State

/-! ## One token -/

/-- What an entry can look like as long as no cancel is missed and every failure can be encoded. -/
inductive Shape {R : Type} : Entry R → Prop
  | absent : Shape .absent
  | retrieving : Shape ⟨.retrieving, false, none, [], false⟩
  | running (aborted : Bool) : Shape ⟨.running, true, some aborted, [], aborted⟩
  | offloading (outcome : Outcome R) (signal : Option Bool) :
      Shape ⟨.offloading outcome, false, signal, [], signal == some true⟩
  | completed (outcome : Outcome R) (signal : Option Bool) :
      Shape ⟨.completed, false, signal, [outcome], signal == some true⟩

/-- The counter follows, and the operator goes on. -/
structure Follows {R : Type} (e : Entry R) (effect : Effect R) : Prop where
  shape : Shape effect.entry
  phase : effect.entry.phase = .absent ↔ e.phase = .absent
  change : effect.change = effect.entry.running.toNat - e.running.toNat
  failed : effect.failed = false

section Entry

variable {R : Type} {e : Entry R}

theorem Shape.follows_self (h : Shape e) : Follows e ⟨e, 0, false⟩ :=
  ⟨h, Iff.rfl, by simp, rfl⟩

theorem Shape.cancelTask (h : Shape e) (hmissed : ¬ (e.outstanding = true ∧ e.running = false)) :
    Follows e (e.act false .cancelTask) := by
  cases h with
  | absent => exact Shape.absent.follows_self
  | retrieving | offloading => exact absurd ⟨rfl, rfl⟩ hmissed
  | running aborted =>
    have hcancelled : (aborted || true) = true := Bool.or_true aborted
    refine ⟨?_, Iff.rfl, rfl, rfl⟩
    show Shape ⟨.running, true, some true, [], aborted || true⟩
    rw [hcancelled]
    exact .running true
  | completed outcome signal =>
    have hcancelled : ((signal == some true) || false) = (signal == some true) := Bool.or_false _
    refine ⟨?_, Iff.rfl, rfl, rfl⟩
    show Shape ⟨.completed, false, signal, [outcome], (signal == some true) || false⟩
    rw [hcancelled]
    exact .completed outcome signal

theorem follows_retrieved (h : Shape e) : Follows e (e.act false .retrieved) := by
  have hself := h.follows_self
  cases h with
  | absent | running | offloading | completed => exact hself
  | retrieving => exact ⟨.running false, by simp [Entry.act], rfl, rfl⟩

theorem follows_notRetrieved (h : Shape e) : Follows e (e.act false (.notRetrieved true)) := by
  have hself := h.follows_self
  cases h with
  | absent | running | offloading | completed => exact hself
  | retrieving => exact ⟨.offloading .failure none, by simp [Entry.act, Entry.fail], rfl, rfl⟩

theorem follows_handled (aborted : Bool) (outcome : Outcome R) :
    Follows (⟨.running, true, some aborted, [], aborted⟩ : Entry R)
      ⟨⟨.offloading outcome, false, some aborted, [], aborted⟩, -1, false⟩ := by
  have hcancelled : (some aborted == some true) = aborted := by
    cases aborted <;> rfl
  have hshape := Shape.offloading outcome (some aborted)
  rw [hcancelled] at hshape
  exact ⟨hshape, by simp, rfl, rfl⟩

theorem follows_returned (h : Shape e) (r : R) : Follows e (e.act false (.returned r)) := by
  have hself := h.follows_self
  cases h with
  | absent | retrieving | offloading | completed => exact hself
  | running aborted => exact follows_handled aborted (.result r)

theorem follows_threw (h : Shape e) : Follows e (e.act false (.threw true)) := by
  have hself := h.follows_self
  cases h with
  | absent | retrieving | offloading | completed => exact hself
  | running aborted => exact follows_handled aborted .failure

theorem follows_offloaded (h : Shape e) : Follows e (e.act false .offloaded) := by
  have hself := h.follows_self
  cases h with
  | absent | retrieving | running | completed => exact hself
  | offloading outcome signal =>
    exact ⟨.completed outcome signal, by simp [Entry.act, Entry.emit], rfl, rfl⟩

theorem follows_notOffloaded (h : Shape e) : Follows e (e.act false (.notOffloaded true)) := by
  have hself := h.follows_self
  cases h with
  | absent | retrieving | running | completed => exact hself
  | offloading outcome signal =>
    exact ⟨.completed .failure signal, by simp [Entry.act, Entry.emit], rfl, rfl⟩

theorem Shape.completed_once (h : Shape e) (hphase : e.phase ≠ .absent) :
    e.completions.length + e.outstanding.toNat = 1 := by
  cases h with
  | absent => exact absurd rfl hphase
  | retrieving => rfl
  | running aborted => rfl
  | offloading outcome signal => rfl
  | completed outcome signal => rfl

theorem Shape.aborted_iff (h : Shape e) {aborted : Bool} (hsignal : e.signal = some aborted) :
    aborted = true ↔ e.cancelled = true := by
  cases h with
  | absent | retrieving => cases hsignal
  | running aborted' =>
    cases hsignal
    exact Iff.rfl
  | offloading | completed =>
    cases hsignal
    simp

theorem Shape.registered_eq (h : Shape e) : e.registered = e.running := by
  cases h <;> rfl

theorem Shape.eq_absent (h : Shape e) (hphase : e.phase = .absent) : e = .absent := by
  cases h with
  | absent => rfl
  | retrieving | running | offloading | completed => cases hphase

theorem Entry.running_of_outstanding (h : e.outstanding = false) : e.running = false := by
  unfold Entry.outstanding at h
  unfold Entry.running
  split
  · rename_i hphase
    rw [hphase] at h
    cases h
  · rfl

end Entry

/-! ## All tokens -/

namespace State

variable {T R : Type}

structure Kept (s : State T R) : Prop where
  nodup : s.tokens.Nodup
  shape : ∀ k, Shape (s.entries k)
  absent_iff : ∀ k, (s.entries k).phase = .absent ↔ k ∉ s.tokens
  counted : s.numInFlightNexusOperations = tally s.tokens Entry.running s.entries
  failed : s.failed = false

variable {s : State T R}

theorem kept_init : Kept (init : State T R) :=
  ⟨List.nodup_nil, fun _ => .absent, fun _ => iff_of_true rfl List.not_mem_nil, rfl, rfl⟩

theorem Kept.serves (h : Kept s) : s.Serves := by
  refine ⟨fun k hk => ?_, fun k hk => ?_, fun k aborted hsignal => ?_, h.counted, fun hidle => ⟨?_, fun k => ?_⟩⟩
  · exact (h.shape k).completed_once fun hphase => (h.absent_iff k).1 hphase hk
  · rw [(h.shape k).eq_absent ((h.absent_iff k).2 hk)]
    rfl
  · exact (h.shape k).aborted_iff hsignal
  · rw [h.counted, tally_eq_zero.2 fun k hk => Entry.running_of_outstanding (hidle k hk)]
    rfl
  · rw [(h.shape k).registered_eq]
    by_cases hk : k ∈ s.tokens
    · exact Entry.running_of_outstanding (hidle k hk)
    · rw [(h.shape k).eq_absent ((h.absent_iff k).2 hk)]
      rfl

variable [DecidableEq T] {k : T}

theorem Kept.follow (h : Kept s) {effect : Effect R} (hfollows : Follows (s.entries k) effect) :
    Kept ⟨Function.update s.entries k effect.entry, s.numInFlightNexusOperations + effect.change,
      s.failed || effect.failed, s.tokens⟩ := by
  refine ⟨h.nodup, fun k' => ?_, fun k' => ?_, ?_, by simp [h.failed, hfollows.failed]⟩
  · by_cases hk' : k' = k
    · rw [hk']
      simpa using hfollows.shape
    · simpa [Function.update_of_ne hk'] using h.shape k'
  · by_cases hk' : k' = k
    · rw [hk', ← h.absent_iff k]
      simpa using hfollows.phase
    · simpa [Function.update_of_ne hk'] using h.absent_iff k'
  · refine tally_change h.nodup (fun hk => ?_) h.counted hfollows.change
    have hold := (h.absent_iff k).2 hk
    rw [(h.shape k).eq_absent hold, hfollows.shape.eq_absent (hfollows.phase.2 hold)]

theorem Kept.task (h : Kept s) (hk : k ∉ s.tokens) : Kept (s.step (k, .task)) := by
  have habsent := (h.shape k).eq_absent ((h.absent_iff k).2 hk)
  have heffect : s.effect (k, .task) = ⟨⟨.retrieving, false, none, [], false⟩, 0, false⟩ := by
    simp [effect, habsent, h.failed, Entry.act, Entry.absent]
  have hcounted := h.counted
  refine ⟨List.nodup_cons.2 ⟨hk, h.nodup⟩, fun k' => ?_, fun k' => ?_, ?_, ?_⟩
  · simp only [step, heffect]
    by_cases hk' : k' = k
    · rw [hk', Function.update_self]
      exact .retrieving
    · rw [Function.update_of_ne hk']
      exact h.shape k'
  · simp only [step, heffect, record, List.mem_cons]
    by_cases hk' : k' = k
    · simp [hk']
    · simpa [hk', Function.update_of_ne hk'] using h.absent_iff k'
  · simp only [step, heffect, record, tally_update_cons hk, Entry.running]
    simpa using hcounted
  · simp [step, heffect, h.failed]

theorem Kept.step (h : Kept s) {e : T × Action R} (he : s.Proper e) : Kept (s.step e) := by
  rcases e with ⟨k, a⟩
  rcases he with ⟨hconforming, hmissed, hencoded⟩
  have hact : s.effect (k, a) = (s.entries k).act false a := by rw [effect, h.failed]
  have hshape := h.shape k
  cases a with
  | task => exact h.task hconforming
  | cancelTask => exact h.follow (hact ▸ hshape.cancelTask hmissed)
  | retrieved => exact h.follow (hact ▸ follows_retrieved hshape)
  | notRetrieved encoded =>
    cases encoded with
    | true => exact h.follow (hact ▸ follows_notRetrieved hshape)
    | false => exact absurd trivial hencoded
  | returned r => exact h.follow (hact ▸ follows_returned hshape r)
  | threw encoded =>
    cases encoded with
    | true => exact h.follow (hact ▸ follows_threw hshape)
    | false => exact absurd trivial hencoded
  | offloaded => exact h.follow (hact ▸ follows_offloaded hshape)
  | notOffloaded encoded =>
    cases encoded with
    | true => exact h.follow (hact ▸ follows_notOffloaded hshape)
    | false => exact absurd trivial hencoded

/-- However tasks, cancels, retrievals, handlers and offloads are interleaved, and whichever of them fail: as
long as every cancel of a task comes while its handler is registered, or outside the task's time, every task
gets one completion, exactly the handlers of the cancelled tasks are aborted, and nothing is left when no task is
outstanding. -/
theorem serves_of_no_cancel_missed (es : List (T × Action R))
    (hes : Guarded step Proper (init : State T R) es) : Throughout step Serves init es := by
  have hstep : ∀ (s : State T R) (e : T × Action R), s.Proper e → Kept s → Kept (s.step e) :=
    fun s e he h => h.step he
  exact throughout_of_invariant hstep (fun s h => h.serves) kept_init hes

/-- Two tasks, of which one is cancelled while its handler runs; the other one's result cannot be offloaded. -/
theorem serves_of_two_tasks :
    Throughout step Serves (init : State Nat Unit)
      [(0, .task), (1, .task), (1, .retrieved), (0, .retrieved), (1, .cancelTask), (1, .threw true),
        (0, .returned ()), (1, .offloaded), (1, .cancelTask), (0, .notOffloaded true)] := by
  refine serves_of_no_cancel_missed _ ?_
  refine ⟨⟨by decide, id, id⟩, ⟨by decide, id, id⟩, ⟨trivial, id, id⟩, ⟨trivial, id, id⟩,
    ⟨trivial, ?_, id⟩, ⟨trivial, id, id⟩, ⟨trivial, id, id⟩, ⟨trivial, id, id⟩, ⟨trivial, ?_, id⟩,
    ⟨trivial, id, id⟩, trivial⟩
  · exact fun h => absurd h.2 (by decide)
  · exact fun h => absurd h.1 (by decide)

/-- A cancel that comes while the payloads of its task are being retrieved. -/
theorem not_serves_of_early_cancel :
    Guarded step (fun s e => s.Conforming e ∧ ¬ Unencodable e) (init : State Nat Unit)
        [(0, .task), (0, .cancelTask), (0, .retrieved)] ∧
      ¬ Throughout step Serves (init : State Nat Unit)
        [(0, .task), (0, .cancelTask), (0, .retrieved)] := by
  refine ⟨⟨⟨by decide, id⟩, ⟨trivial, id⟩, ⟨trivial, id⟩, trivial⟩, fun h => ?_⟩
  have haborted := h.2.2.2.aborted_iff 0 false (by decide)
  exact absurd (haborted.2 (by decide)) (by decide)

end State
end NexusTasks
end TemporalSdk.Worker
