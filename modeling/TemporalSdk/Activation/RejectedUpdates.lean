import TemporalSdk.Activation.Buffering
import TemporalSdk.Activation.Following

/-!
# RejectedUpdates — an activation with and without the updates it rejects

What validation or argument decoding rejects in an activation leaves no trace but the rejection: the
activation without these updates resolves the same promises and conditions in the same order, leaves
the same conditions blocked and completes with the same commands.

Each update of the activation waits in one place, a job or the buffer, until its fate is decided; so an
update that is rejected in one step is not accepted or left over in another.
-/

namespace TemporalSdk.Activation

open Machine

variable {σ : Type} {cfg : Config σ} {removed : List DoUpdate} {s t : Vm σ}

/-! ## Updates that wait -/

def Job.update : Job → Option DoUpdate
  | .doUpdate u => some u
  | _ => none

def updatesOf (jobs : List Job) : List DoUpdate := jobs.filterMap Job.update

def Phase.todo : Phase → List Job
  | .jobs todo _ _ | .unblock todo _ _ | .queries todo => todo
  | _ => []

namespace Vm

/-- The updates whose fate is not decided. -/
def waiting (s : Vm σ) : List DoUpdate :=
  updatesOf (s.phase.todo ++ s.batches.flatten) ++ s.inbox.bufferedUpdates

/-- The next step decides about `u`: it does not just buffer it. -/
def Decides (cfg : Config σ) (s : Vm σ) (u : DoUpdate) : Prop :=
  (s.handled = some u ∧ ¬ (refusesUpdate cfg s u = false ∧ s.updateEntry u.name = none)) ∨
    s.leftOver = some u

theorem waiting_of_control (h : t.control = s.control) : t.waiting = s.waiting := by
  simp only [waiting, phase_of_control h, batches_of_control h, buffered_of_control h]

theorem count_of_eq (h : t.waiting = s.waiting) (u : DoUpdate) :
    t.waiting.count u ≤ s.waiting.count u := Nat.le_of_eq (congrArg (List.count u) h)

theorem waiting_fail (s : Vm σ) (e : JsValue) : (s.fail e).waiting = s.inbox.bufferedUpdates := by
  have hplace := place_fail s e
  have hbuffered : (s.fail e).inbox.bufferedUpdates = s.inbox.bufferedUpdates := by
    unfold fail reportRejections
    split <;> rfl
  simp [waiting, hplace.1, hplace.2, hbuffered, Phase.todo, updatesOf]

theorem waiting_succeed (s : Vm σ) : s.succeed.waiting = s.inbox.bufferedUpdates := by
  have hplace := place_succeed s
  have hbuffered : s.succeed.inbox.bufferedUpdates = s.inbox.bufferedUpdates := by
    unfold succeed complete reportRejections
    split
    · split <;> rfl
    · split
      · split <;> rfl
      · rfl
  simp [waiting, hplace.1, hplace.2, hbuffered, Phase.todo, updatesOf]

theorem count_buffered_le (s : Vm σ) (u : DoUpdate) :
    s.inbox.bufferedUpdates.count u ≤ s.waiting.count u := by
  simp [waiting]

theorem count_fail_le (s : Vm σ) (e : JsValue) (u : DoUpdate) :
    (s.fail e).waiting.count u ≤ s.waiting.count u := by
  rw [waiting_fail]
  exact count_buffered_le s u

variable {u : DoUpdate}

theorem count_of_undecided (hle : t.waiting.count u ≤ s.waiting.count u)
    (hhandled : s.handled = none) (hleft : s.leftOver = none) :
    t.waiting.count u ≤ s.waiting.count u ∧
      (s.Decides cfg u → t.waiting.count u < s.waiting.count u) := by
  refine ⟨hle, ?_⟩
  rintro (⟨hsome, _⟩ | hsome)
  · rw [hhandled] at hsome
    cases hsome
  · rw [hleft] at hsome
    cases hsome

theorem updateEntry_of_next {remaining : List DoUpdate}
    (h : nextBufferedUpdate s.inbox = some (u, remaining)) : s.updateEntry u.name ≠ none := by
  rcases takeFirst_some h with ⟨hhandler, _⟩
  unfold updateEntry
  cases hown : s.inbox.updateHandlers u.name with
  | some entry => simp
  | none =>
    cases hdefault : s.inbox.defaultUpdateHandler with
    | some handler => simp
    | none => simp [hown, hdefault] at hhandler

/-- A dispatch loop decides about the update it takes. -/
theorem count_stepDispatchUpdates {c : Caller} {k : Option JsValue → Prog σ}
    {rest : List (Frame σ)} (hstack : s.stack = .dispatchUpdates c k :: rest) (u : DoUpdate) :
    (s.step cfg).waiting.count u ≤ s.waiting.count u ∧
      (s.Decides cfg u → (s.step cfg).waiting.count u < s.waiting.count u) := by
  have hleft : s.leftOver = none := by simp [leftOver, hstack]
  have hstep : s.step cfg = s.stepDispatchUpdates cfg c k rest := by simp [step, hstack]
  rw [hstep]
  cases hnext : nextBufferedUpdate s.inbox with
  | none =>
    have heq : s.stepDispatchUpdates cfg c k rest = s.continueWith c (k none) rest := by
      simp [stepDispatchUpdates, hnext]
    rw [heq]
    exact count_of_undecided (Nat.le_refl _) (by simp [handled, hstack, hnext]) hleft
  | some r =>
    rcases r with ⟨v, remaining⟩
    rcases takeFirst_some hnext with ⟨_, front, back, hbuffer, hrest, _⟩
    have hentry := updateEntry_of_next hnext
    have hwaiting : (s.stepDispatchUpdates cfg c k rest).waiting =
        ({ s with inbox.bufferedUpdates := remaining } : Vm σ).waiting := by
      rcases control_doUpdate cfg { s with inbox.bufferedUpdates := remaining } v with
        hcontrol | ⟨hnone, _⟩
      · simp only [stepDispatchUpdates, hnext]
        split
        all_goals
          rename_i hr
          rw [hr] at hcontrol
          exact waiting_of_control hcontrol
      · exact absurd hnone hentry
    have hcount : ∀ w, (s.stepDispatchUpdates cfg c k rest).waiting.count w +
        [v].count w = s.waiting.count w := by
      intro w
      rw [hwaiting]
      simp only [waiting, hbuffer, hrest, List.count_append, List.count_cons, List.count_nil]
      omega
    refine ⟨?_, ?_⟩
    · have := hcount u
      omega
    · rintro (⟨hsome, _⟩ | hsome)
      · have heq : v = u := by simpa [handled, hstack, hnext] using hsome
        have := hcount u
        rw [heq] at this
        simp only [List.count_singleton_self] at this
        omega
      · rw [hleft] at hsome
        cases hsome

theorem updatesOf_append (jobs jobs' : List Job) :
    updatesOf (jobs ++ jobs') = updatesOf jobs ++ updatesOf jobs' := List.filterMap_append

theorem count_orFail_le (r : Vm σ × Option JsValue) (u : DoUpdate) :
    (orFail r).waiting.count u ≤ r.1.waiting.count u := by
  unfold orFail
  cases r.2 with
  | none => exact Nat.le_refl _
  | some e => exact count_fail_le r.1 e u

theorem refusesUpdate_of_none (hnone : s.updateEntry u.name = none)
    (h : (s.doUpdate cfg u).2 = none) : refusesUpdate cfg s u = false := by
  unfold doUpdate at h
  unfold refusesUpdate
  by_cases hid : u.id = ""
  · simp [hid] at h
  · by_cases hname : u.name = ""
    · simp [hid, hname] at h
    · by_cases hpid : u.protocolInstanceId = ""
      · simp [hid, hname, hpid] at h
      · cases hclash : reservedClash u.name (s.inbox.updateHandlers u.name).isSome
            s.inbox.defaultUpdateHandler.isSome with
        | true => simp [hid, hname, hpid, hclash] at h
        | false => simp [hid, hname, hpid, hnone]

theorem count_doUpdate (cfg : Config σ) (s : Vm σ) (v u : DoUpdate) :
    (s.doUpdate cfg v).1.waiting.count u ≤ s.waiting.count u + [v].count u ∧
      (¬ (refusesUpdate cfg s v = false ∧ s.updateEntry v.name = none) →
        (s.doUpdate cfg v).1.waiting.count u ≤ s.waiting.count u) := by
  rcases doUpdate_any cfg s v with ⟨e, heq⟩ | ⟨hnone, heq⟩ | ⟨entry, _, heq⟩
  · rw [heq]
    exact ⟨Nat.le_add_right _ _, fun _ => Nat.le_refl _⟩
  · refine ⟨?_, ?_⟩
    · rw [heq]
      simp only [waiting, bufferUpdate, List.count_append]
      omega
    · intro hdecided
      exact absurd ⟨refusesUpdate_of_none hnone (by rw [heq]), hnone⟩ hdecided
  · rw [heq, waiting_of_control (control_doUpdateImpl cfg s v entry)]
    exact ⟨Nat.le_add_right _ _, fun _ => Nat.le_refl _⟩

/-- A job is taken from the list: it is decided about, unless it is an update that is buffered. -/
theorem count_job {job : Job} {todo batch : List Job} {start : Option (List Payload)}
    (hphase : s.phase = .jobs (job :: todo) start batch) (hstack : s.stack = []) (u : DoUpdate) :
    (s.step cfg).waiting.count u ≤ s.waiting.count u ∧
      (s.Decides cfg u → (s.step cfg).waiting.count u < s.waiting.count u) := by
  have hleft : s.leftOver = none := by simp [leftOver, hstack, hphase]
  have hstep : s.step cfg = orFail ((s.enter (.unblock todo start batch)).runJob cfg job) := by
    rw [step_of_nil cfg hstack]
    simp only [stepPhase, hphase]
  have hcount : s.waiting.count u = (job.update.toList).count u +
      (s.enter (.unblock todo start batch)).waiting.count u := by
    have hcons : updatesOf (job :: todo) = job.update.toList ++ updatesOf todo := by
      cases job <;> rfl
    simp only [waiting, hphase, enter, Phase.todo, updatesOf_append, hcons, List.count_append]
    omega
  have hfail := count_orFail_le ((s.enter (.unblock todo start batch)).runJob cfg job) u
  rw [hstep]
  cases hjob : job.isUpdate with
  | false =>
    rw [waiting_of_control (control_runJob cfg _ hjob)] at hfail
    refine count_of_undecided (by omega) ?_ hleft
    cases job with
    | doUpdate v => cases hjob
    | _ => simp [handled, hstack, hphase]
  | true =>
    cases job with
    | doUpdate v =>
      have hrun := count_doUpdate cfg
        ((s.enter (.unblock todo start batch)).note (.updateArrived v)) v u
      have hsame : ((s.enter (.unblock todo start batch)).note (.updateArrived v)).waiting =
          (s.enter (.unblock todo start batch)).waiting := rfl
      have hrefuses : refusesUpdate cfg
          ((s.enter (.unblock todo start batch)).note (.updateArrived v)) v =
            refusesUpdate cfg s v := by
        apply refusesUpdate_congr
        all_goals rfl
      have hcount : s.waiting.count u = [v].count u +
          (s.enter (.unblock todo start batch)).waiting.count u := hcount
      rw [hsame, hrefuses] at hrun
      have hfail : (orFail ((s.enter (.unblock todo start batch)).runJob cfg
          (.doUpdate v))).waiting.count u ≤ (((s.enter (.unblock todo start batch)).note
            (.updateArrived v)).doUpdate cfg v).1.waiting.count u := hfail
      refine ⟨by omega, ?_⟩
      rintro (⟨hsome, hdecided⟩ | hsome)
      · have heq : v = u := by simpa [handled, hstack, hphase] using hsome
        have hless := hrun.2 (heq ▸ hdecided)
        have hone : [v].count u = 1 := by rw [heq]; exact List.count_singleton_self
        omega
      · rw [hleft] at hsome
        cases hsome
    | _ => cases hjob

theorem waiting_tryUnblockConditions {n : Nat} (h : s.tryUnblockConditions = .ok (t, n)) :
    t.control = s.control :=
  tryUnblockConditions_closed (P := fun t => t.control = s.control) (fun _ _ ht => ht) h rfl

theorem count_unblocking {k : Vm σ → Nat → Vm σ}
    (hk : ∀ t n, s.tryUnblockConditions = .ok (t, n) → (k t n).waiting.count u ≤ s.waiting.count u) :
    (s.unblocking k).waiting.count u ≤ s.waiting.count u := by
  unfold unblocking
  cases hr : s.tryUnblockConditions with
  | error e => exact count_fail_le s e u
  | ok r => exact hk r.1 r.2 hr

theorem waiting_nextBatch (hphase : s.phase.todo = []) : s.nextBatch.waiting = s.waiting := by
  cases hb : s.batches with
  | nil =>
    rw [nextBatch_nil hb]
    have htodo : Phase.todo .conclude = [] := rfl
    simp only [waiting, enter, hphase, hb, htodo]
  | cons batch batches =>
    have htodo : updatesOf (batchPhase batch).todo = updatesOf batch := by
      cases batch with
      | nil => rfl
      | cons job jobs => cases job <;> rfl
    rw [nextBatch_cons hb]
    simp only [waiting, hphase, hb, updatesOf_append, htodo, List.flatten_cons, List.nil_append]

/-- The updates that wait become fewer, and a decision takes one away. -/
theorem count_stepPhase (hstack : s.stack = []) (hqueries : ∀ todo, s.phase ≠ .queries todo)
    (u : DoUpdate) :
    (s.step cfg).waiting.count u ≤ s.waiting.count u ∧
      (s.Decides cfg u → (s.step cfg).waiting.count u < s.waiting.count u) := by
  have hstep := step_of_nil cfg hstack
  have henter : ∀ {phase : Phase}, phase.todo = s.phase.todo →
      (s.enter phase).waiting = s.waiting := by
    intro phase htodo
    simp [waiting, enter, htodo]
  cases hphase : s.phase with
  | idle =>
    have heq : s.step cfg = s := by
      rw [hstep]
      simp only [stepPhase, hphase]
    rw [heq]
    exact count_of_undecided (Nat.le_refl _) (by simp [handled, hstack, hphase])
      (by simp [leftOver, hstack, hphase])
  | jobs todo start batch =>
    cases todo with
    | cons job todo => exact count_job hphase hstack u
    | nil =>
      refine count_of_undecided ?_ (by simp [handled, hstack, hphase])
        (by simp [leftOver, hstack, hphase])
      rw [hstep]
      cases start with
      | none =>
        simp only [stepPhase, hphase]
        exact count_of_eq (henter (by rw [hphase]; rfl)) u
      | some arguments =>
        simp only [stepPhase, hphase]
        split
        · refine Nat.le_trans (count_orFail_le _ u) ?_
          unfold startWorkflow
          cases cfg.arrayFromPayloads arguments with
          | ok args =>
            have heq : (s.enter .started).waiting = s.waiting :=
              henter (by rw [hphase]; rfl)
            exact count_of_eq (s := s) heq u
          | error e => exact count_of_eq (henter (by rw [hphase]; rfl)) u
        · exact count_fail_le s _ u
  | unblock todo start batch =>
    refine count_of_undecided ?_ (by simp [handled, hstack, hphase])
      (by simp [leftOver, hstack, hphase])
    rw [hstep]
    simp only [stepPhase, hphase]
    refine count_unblocking ?_
    intro t n hr
    have hcontrol := waiting_tryUnblockConditions hr
    have htodo : t.phase = .unblock todo start batch := (phase_of_control hcontrol).trans hphase
    have heq : (t.enter (.jobs todo start batch)).waiting = t.waiting := by
      simp [waiting, enter, htodo, Phase.todo]
    exact count_of_eq (heq.trans (waiting_of_control hcontrol)) u
  | started =>
    refine count_of_undecided ?_ (by simp [handled, hstack, hphase])
      (by simp [leftOver, hstack, hphase])
    rw [hstep]
    simp only [stepPhase, hphase]
    refine count_unblocking ?_
    intro t n hr
    have hcontrol := waiting_tryUnblockConditions hr
    have htodo : t.phase = .started := (phase_of_control hcontrol).trans hphase
    have heq : (t.enter .microtasks).waiting = t.waiting := by
      simp [waiting, enter, htodo, Phase.todo]
    exact count_of_eq (heq.trans (waiting_of_control hcontrol)) u
  | microtasks =>
    refine count_of_undecided ?_ (by simp [handled, hstack, hphase])
      (by simp [leftOver, hstack, hphase])
    have heq : s.step cfg = s.stepMicrotasks cfg := by
      rw [hstep]
      simp only [stepPhase, hphase]
    rw [heq]
    unfold stepMicrotasks
    split
    · rename_i m microtasks _
      rw [waiting_of_control (control_runMicrotask cfg { s with microtasks := microtasks } m)]
      exact Nat.le_refl _
    · cases s.query with
      | true | false => exact count_of_eq (henter (by rw [hphase]; rfl)) u
  | outer =>
    refine count_of_undecided ?_ (by simp [handled, hstack, hphase])
      (by simp [leftOver, hstack, hphase])
    rw [hstep]
    simp only [stepPhase, hphase]
    refine count_unblocking ?_
    intro t n hr
    have hcontrol := waiting_tryUnblockConditions hr
    have htodo : t.phase = .outer := (phase_of_control hcontrol).trans hphase
    unfold afterOuter
    split
    · have heq : t.nextBatch.waiting = t.waiting := waiting_nextBatch (by rw [htodo]; rfl)
      exact count_of_eq (heq.trans (waiting_of_control hcontrol)) u
    · have heq : (t.enter .microtasks).waiting = t.waiting := by
        simp [waiting, enter, htodo, Phase.todo]
      exact count_of_eq (heq.trans (waiting_of_control hcontrol)) u
  | queries todo => exact absurd hphase (hqueries todo)
  | conclude =>
    have hhandled : s.handled = none := by simp [handled, hstack, hphase]
    have heq : s.step cfg = s.stepConclude cfg := by
      rw [hstep]
      simp only [stepPhase, hphase]
    rw [heq]
    cases hbuffered : s.inbox.bufferedUpdates with
    | nil =>
      refine count_of_undecided ?_ hhandled (by simp [leftOver, hstack, hphase, hbuffered])
      have hsucceed : s.stepConclude cfg = s.succeed := by simp only [stepConclude, hbuffered]
      rw [hsucceed, waiting_succeed]
      exact count_buffered_le s u
    | cons v updates =>
      have hreject : s.stepConclude cfg = orFail (rejectUpdate cfg { s with
          inbox := { s.inbox with bufferedUpdates := updates } } (.update v)
            v.protocolInstanceId (noHandlerError v)) := by
        simp only [stepConclude, hbuffered]
      rw [hreject]
      have hcount : s.waiting.count u = [v].count u + ({ s with
          inbox := { s.inbox with bufferedUpdates := updates } } : Vm σ).waiting.count u := by
        simp only [waiting, hbuffered, List.count_append, List.count_cons, List.count_nil]
        omega
      have hle : (orFail (rejectUpdate cfg { s with
          inbox := { s.inbox with bufferedUpdates := updates } } (.update v)
            v.protocolInstanceId (noHandlerError v))).waiting.count u ≤ ({ s with
              inbox := { s.inbox with bufferedUpdates := updates } } : Vm σ).waiting.count u := by
        refine Nat.le_trans (count_orFail_le _ u) ?_
        unfold rejectUpdate
        cases cfg.errorToFailure (noHandlerError v) with
        | ok | error => exact Nat.le_refl _
      refine ⟨by omega, ?_⟩
      rintro (⟨hsome, _⟩ | hsome)
      · rw [hhandled] at hsome
        cases hsome
      · have heq : v = u := by simpa [leftOver, hstack, hphase, hbuffered] using hsome
        have hone : [v].count u = 1 := by rw [heq]; exact List.count_singleton_self
        omega

theorem count_step (cfg : Config σ) (hqueries : ∀ todo, s.phase ≠ .queries todo) (u : DoUpdate) :
    (s.step cfg).waiting.count u ≤ s.waiting.count u ∧
      (s.Decides cfg u → (s.step cfg).waiting.count u < s.waiting.count u) := by
  cases hstack : s.stack with
  | nil => exact count_stepPhase hstack hqueries u
  | cons f rest =>
    cases f with
    | code c code =>
      refine count_of_undecided ?_ (by simp [handled, hstack]) (by simp [leftOver, hstack])
      simp only [step, hstack]
      exact count_of_eq (waiting_of_control (control_stepCode s c rest code)) u
    | dispatchSignals c k =>
      refine count_of_undecided ?_ (by simp [handled, hstack]) (by simp [leftOver, hstack])
      simp only [step, hstack]
      exact count_of_eq (waiting_of_control (control_stepDispatchSignals cfg s c k rest)) u
    | dispatchUpdates c k => exact count_stepDispatchUpdates hstack u

/-! ## Rejections -/

/-- The update that the next step rejects because of its validator or its arguments. -/
def rejected (cfg : Config σ) (s : Vm σ) : Option DoUpdate :=
  s.handled.filter fun u => s.turnsAway cfg u && (s.updateEntry u.name).isSome

/-- The updates that are rejected in the next `n` steps. -/
def rejectedAlong (cfg : Config σ) : Nat → Vm σ → List DoUpdate
  | 0, _ => []
  | n + 1, s => (s.rejected cfg).toList ++ rejectedAlong cfg n (s.step cfg)

theorem mem_waiting_of_handled (h : s.handled = some u) : u ∈ s.waiting := by
  unfold handled at h
  split at h
  · rcases Option.map_eq_some_iff.1 h with ⟨⟨v, remaining⟩, hnext, rfl⟩
    rcases takeFirst_some hnext with ⟨_, front, back, hbuffer, _, _⟩
    simp [waiting, hbuffer]
  · split at h
    · rename_i v todo start batch hphase
      cases h
      simp [waiting, hphase, Phase.todo, updatesOf, Job.update]
    · cases h
  · cases h

theorem mem_waiting_of_leftOver (h : s.leftOver = some u) : u ∈ s.waiting := by
  unfold leftOver at h
  split at h
  · have hin : u ∈ s.inbox.bufferedUpdates := List.mem_of_mem_head? h
    simp [waiting, hin]
  · cases h

theorem leftOver_of_handled (h : s.handled = some u) : s.leftOver = none := by
  unfold leftOver
  split
  · rename_i hstack hphase
    simp [handled, hstack, hphase] at h
  · rfl

/-- The next step turns `u` away, if it is about `u` at all. -/
def Spares (cfg : Config σ) (s : Vm σ) (u : DoUpdate) : Prop :=
  (s.handled = some u → s.turnsAway cfg u = true) ∧ s.leftOver ≠ some u

theorem spares_of_not_waiting (h : u ∉ s.waiting) : s.Spares cfg u :=
  ⟨fun hhandled => absurd (mem_waiting_of_handled hhandled) h,
    fun hleft => h (mem_waiting_of_leftOver hleft)⟩

theorem not_mem_rejected (h : u ∉ s.waiting) : u ∉ (s.rejected cfg).toList := by
  intro hin
  have hsome : s.rejected cfg = some u := by simpa using hin
  have hhandled : s.handled = some u := (Option.filter_eq_some_iff.1 hsome).1
  exact h (mem_waiting_of_handled hhandled)

theorem spares_of_not_decides (h : ¬ s.Decides cfg u) : s.Spares cfg u := by
  refine ⟨?_, fun hleft => h (Or.inr hleft)⟩
  intro hhandled
  have hbuffers : refusesUpdate cfg s u = false ∧ s.updateEntry u.name = none := by
    by_contra hne
    exact h (Or.inl ⟨hhandled, hne⟩)
  simp [turnsAway, hbuffers.1, hbuffers.2]

theorem decides_of_rejected (h : s.rejected cfg = some u) :
    s.Decides cfg u ∧ s.Spares cfg u := by
  rcases Option.filter_eq_some_iff.1 h with ⟨hhandled, haway⟩
  rcases Bool.and_eq_true_iff.1 haway with ⟨haway, hentry⟩
  refine ⟨Or.inl ⟨hhandled, ?_⟩, fun _ => haway, ?_⟩
  · rintro ⟨_, hnone⟩
    simp [hnone] at hentry
  · rw [leftOver_of_handled hhandled]
    simp

end Vm

open Vm

theorem decided_run {u : DoUpdate} : ∀ {n : Nat} {s : Vm σ}, Orderly removed s → s.waiting.count u = 0 →
    u ∉ rejectedAlong cfg n s ∧
      Guarded (next cfg) (fun s _ => s.Spares cfg u) s (List.replicate n .tick) := by
  intro n
  induction n with
  | zero =>
    intro s _ _
    exact ⟨by simp [rejectedAlong], trivial⟩
  | succ n ih =>
    intro s ho hzero
    have hnot : u ∉ s.waiting := List.count_eq_zero.1 hzero
    have hle := (count_step cfg ho.noQueries u).1
    rcases ih (s := s.step cfg) ho.step (by omega) with ⟨hlater, hguarded⟩
    refine ⟨?_, spares_of_not_waiting hnot, hguarded⟩
    intro hin
    rcases List.mem_append.1 hin with hnow | hin
    · exact not_mem_rejected hnot hnow
    · exact hlater hin

/-- An update that waits in one place and is rejected is not accepted or left over in any step. -/
theorem rejected_run {u : DoUpdate} : ∀ {n : Nat} {s : Vm σ}, Orderly removed s →
    s.waiting.count u ≤ 1 → u ∈ rejectedAlong cfg n s →
      Guarded (next cfg) (fun s _ => s.Spares cfg u) s (List.replicate n .tick) := by
  intro n
  induction n with
  | zero =>
    intro s _ _ hin
    cases hin
  | succ n ih =>
    intro s ho hone hin
    rcases count_step cfg ho.noQueries u with ⟨hle, hdecides⟩
    have hdone : s.Decides cfg u → u ∉ rejectedAlong cfg n (s.step cfg) ∧
        Guarded (next cfg) (fun s _ => s.Spares cfg u) (s.step cfg) (List.replicate n .tick) := by
      intro hdec
      have hless := hdecides hdec
      exact decided_run ho.step (by omega)
    rcases List.mem_append.1 hin with hnow | hlater
    · rcases decides_of_rejected (by simpa using hnow) with ⟨hdec, hspares⟩
      exact ⟨hspares, (hdone hdec).2⟩
    · have hundecided : ¬ s.Decides cfg u := fun hdec => (hdone hdec).1 hlater
      have hrest := ih (s := s.step cfg) ho.step (by omega) hlater
      exact ⟨spares_of_not_decides hundecided, hrest⟩

/-! ## Activations -/

theorem updatesOf_sublist {jobs jobs' : List Job} (h : jobs.Sublist jobs') :
    (updatesOf jobs).Sublist (updatesOf jobs') := h.filterMap Job.update

theorem updatesOf_batchesOf (a : WorkflowActivation) (u : DoUpdate) :
    (updatesOf (batchesOf a).flatten).count u ≤ (updatesOf a.jobs).count u := by
  have hpatches : ((a.jobs.filter fun job => !job.isPatch)).Sublist a.jobs := List.filter_sublist
  unfold batchesOf
  split
  · rw [List.flatten_singleton]
    exact (updatesOf_sublist (List.filter_sublist.trans hpatches)).count_le u
  · -- Of the two batches the one with the signals has no updates.
    have hnone : updatesOf ((a.jobs.filter fun job => !job.isPatch).filter Job.isSignal) = [] := by
      refine List.filterMap_eq_nil_iff.2 ?_
      intro job hjob
      have hsignal := (List.mem_filter.1 hjob).2
      cases job with
      | doUpdate v => cases hsignal
      | _ => rfl
    have hflat : ∀ batches : List (List Job),
        (batches.filter fun batch => !batch.isEmpty).flatten = batches.flatten := by
      intro batches
      induction batches with
      | nil => rfl
      | cons batch batches ih =>
        cases batch with
        | nil => simpa using ih
        | cons job jobs => simp [ih]
    rw [hflat]
    simp only [List.flatten_cons, List.flatten_nil, List.append_nil, updatesOf_append, hnone,
      List.nil_append]
    exact (updatesOf_sublist (List.filter_sublist.trans hpatches)).count_le u

/-- What waits at the start of an activation comes with it, or was buffered before. -/
theorem count_activate {a : WorkflowActivation} (hidle : s.phase = .idle)
    (hquery : a.jobs.any Job.isQuery = false) (u : DoUpdate) :
    (s.activate a).waiting.count u ≤ (updatesOf a.jobs ++ s.inbox.bufferedUpdates).count u := by
  have hbuffered : ∀ e, ((s.begin a).fail e).waiting = s.inbox.bufferedUpdates := fun e =>
    waiting_fail (s.begin a) e
  unfold activate
  simp only [hquery, Bool.false_eq_true, if_false, List.count_append]
  split
  · rw [hbuffered]
    omega
  · rw [hbuffered]
    omega
  · have htodo : ({ s.begin a with batches := batchesOf a } : Vm σ).phase.todo = [] := by
      have hphase : ({ s.begin a with batches := batchesOf a } : Vm σ).phase = .idle := hidle
      rw [hphase]
      rfl
    rw [waiting_nextBatch htodo]
    have hle := updatesOf_batchesOf a u
    simp only [waiting, htodo, List.nil_append, List.count_append]
    have hinbox : ({ s.begin a with batches := batchesOf a } : Vm σ).inbox = s.inbox := rfl
    rw [hinbox]
    omega

/-- The updates of the activation that validation or argument decoding rejects in its first `n`
steps. -/
def rejectedIn (cfg : Config σ) (n : Nat) (s : Vm σ) (a : WorkflowActivation) : List DoUpdate :=
  (rejectedAlong cfg n (s.activate a)).filter fun u => u ∈ updatesOf a.jobs

theorem guarded_rejectedIn {a : WorkflowActivation} {n : Nat} (hidle : s.phase = .idle)
    (hquery : a.jobs.any Job.isQuery = false)
    (hids : (updatesOf a.jobs ++ s.inbox.bufferedUpdates).Nodup)
    (ho : Orderly removed (s.activate a)) :
    Guarded (next cfg) (fun t _ => ∀ u, u ∈ rejectedIn cfg n s a → t.Spares cfg u)
      (s.activate a) (List.replicate n .tick) := by
  refine guarded_forall ?_
  intro u hu
  refine rejected_run ho ?_ (List.mem_filter.1 hu).1
  exact Nat.le_trans (count_activate hidle hquery u) (List.nodup_iff_count.1 hids u)

theorem turnsAway_of_spares (h : ∀ u, u ∈ removed → s.Spares cfg u) :
    TurnsAway cfg removed s .tick := by
  refine ⟨?_, ?_⟩
  · intro u hhandled hu
    exact (h u hu).1 hhandled
  · intro u hleft hu
    exact (h u hu).2 hleft

/-- Each step of the activation is followed, or sat out, by the activation without the removed
updates. -/
theorem follows_run {n : Nat} {s' : Vm σ} (ho : Orderly removed s) (h : Follows removed s s')
    (hg : Guarded (next cfg) (fun t _ => ∀ u, u ∈ removed → t.Spares cfg u) s
      (List.replicate n .tick)) :
    ∃ m, Follows removed (run (next cfg) s (List.replicate n .tick))
      (run (next cfg) s' (List.replicate m .tick)) := by
  have hticks : ∀ (n : Nat) (s : Vm σ), Guarded (next cfg) (fun t _ => ∀ u, u ∈ removed →
      t.Spares cfg u) s (List.replicate n .tick) → Guarded (next cfg) (fun t i => i = .tick ∧
        ∀ u, u ∈ removed → t.Spares cfg u) s (List.replicate n .tick) := by
    intro n
    induction n with
    | zero =>
      intro s _
      trivial
    | succ n ih =>
      intro s hg
      exact ⟨⟨rfl, hg.1⟩, ih _ hg.2⟩
  have hstep : ∀ (t t' : Vm σ) (i : Input), (i = .tick ∧ ∀ u, u ∈ removed → t.Spares cfg u) →
      (Orderly removed t ∧ Follows removed t t') →
        (Orderly removed (next cfg t i) ∧ Follows removed (next cfg t i) t') ∨
          (Orderly removed (next cfg t i) ∧ Follows removed (next cfg t i) (next cfg t' i)) := by
    rintro t t' i ⟨rfl, hspares⟩ ⟨ho, h⟩
    have ho' : Orderly removed (next cfg t .tick) := ho.step
    rcases follows_step ho (turnsAway_of_spares hspares) h with hstay | hmove
    · exact Or.inl ⟨ho', hstay⟩
    · exact Or.inr ⟨ho', hmove⟩
  rcases run_stutter hstep (hticks n s hg) ⟨ho, h⟩ with ⟨ticks, hsub, _, hend⟩
  have hall : ticks = List.replicate ticks.length .tick :=
    List.eq_replicate_of_mem fun i hi => List.eq_of_mem_replicate (hsub.subset hi)
  rw [hall] at hend
  exact ⟨ticks.length, hend⟩

theorem Follows.of_idle {s' : Vm σ} (h : Follows removed s s') (hidle : s.phase = .idle) :
    Shadows removed s s' := by
  cases h with
  | level h => exact h
  | ahead hphase _ _ _ =>
    rw [hidle] at hphase
    cases hphase
  | done htail _ =>
    rcases htail.phase with ⟨todo, batch, hphase | hphase, _⟩ | hphase | hphase
    all_goals
      rw [hidle] at hphase
      cases hphase

/-! ## The result -/

def Note.isResolution : Note → Bool
  | .resolved _ | .unblocked _ => true
  | _ => false

/-- The promises and conditions that were resolved, in their order. -/
def resolutions (trace : List Note) : List Note := trace.filter Note.isResolution

def Note.completion : Note → Option Completion
  | .completed c => some c
  | _ => none

/-- How the activations completed, with their commands. -/
def completions (trace : List Note) : List Completion := trace.filterMap Note.completion

theorem resolutions_eraseTrace (removed : List DoUpdate) (trace : List Note) :
    resolutions (eraseTrace removed trace) = resolutions trace := by
  induction trace with
  | nil => rfl
  | cons n trace ih =>
    have hkeep : resolutions (eraseTrace removed [n]) = resolutions [n] := by
      cases n with
      | updateArrived u =>
        cases hu : removed.contains u with
        | true => simp only [eraseTrace, Note.erase, List.filterMap_cons, hu, if_true]; rfl
        | false =>
          simp only [eraseTrace, Note.erase, List.filterMap_cons, hu, Bool.false_eq_true,
            if_false]
          rfl
      | pushed origin c =>
        cases hc : isKeptCommand removed (origin, c) with
        | true => simp only [eraseTrace, Note.erase, List.filterMap_cons, hc, if_true]; rfl
        | false =>
          simp only [eraseTrace, Note.erase, List.filterMap_cons, hc, Bool.false_eq_true,
            if_false]
          rfl
      | _ => rfl
    have hsplit : eraseTrace removed (n :: trace) =
        eraseTrace removed [n] ++ eraseTrace removed trace := by
      rw [eraseTrace, eraseTrace, eraseTrace, ← List.filterMap_append]
      rfl
    calc resolutions (eraseTrace removed (n :: trace))
        = resolutions (eraseTrace removed [n]) ++ resolutions (eraseTrace removed trace) := by
          rw [hsplit, resolutions, List.filter_append]
          rfl
      _ = resolutions [n] ++ resolutions trace := by rw [hkeep, ih]
      _ = resolutions (n :: trace) := by
          rw [resolutions, resolutions, resolutions, ← List.filter_append]
          rfl

theorem completions_eraseTrace (removed : List DoUpdate) (trace : List Note) :
    completions (eraseTrace removed trace) = (completions trace).map (Completion.erase removed) := by
  unfold completions eraseTrace
  rw [List.filterMap_filterMap, List.map_filterMap]
  refine List.filterMap_congr ?_
  intro n _
  cases n with
  | updateArrived | pushed =>
    simp only [Note.erase]
    split <;> rfl
  | _ => rfl

/-- The same resolutions in the same order, the same conditions still blocked and the same commands,
up to the rejections of the removed updates. -/
structure SameOutcome (removed : List DoUpdate) (t t' : Vm σ) : Prop where
  resolutions : resolutions t'.trace = resolutions t.trace
  blockedConditions : t'.blockedConditions = t.blockedConditions
  commands : eraseCommands removed t'.commands = eraseCommands removed t.commands
  completions : (completions t'.trace).map (Completion.erase removed) =
    (completions t.trace).map (Completion.erase removed)

theorem Shadows.sameOutcome {t' : Vm σ} (h : Shadows removed t t') : SameOutcome removed t t' := by
  have htrace := h.trace
  refine ⟨?_, ?_, h.commands, ?_⟩
  · calc resolutions t'.trace
        = resolutions (eraseTrace removed t'.trace) := (resolutions_eraseTrace removed _).symm
      _ = resolutions (eraseTrace removed t.trace) := by rw [htrace]
      _ = resolutions t.trace := resolutions_eraseTrace removed _
  · rcases h with ⟨g, rfl, _⟩
    rfl
  · rw [← completions_eraseTrace, ← completions_eraseTrace, htrace]

/-- Process an activation for `n` steps. -/
def process (cfg : Config σ) (s : Vm σ) (a : WorkflowActivation) (n : Nat) : Vm σ :=
  run (next cfg) s (.activate a :: List.replicate n .tick)

/-- Take a state between two activations of any run, and a non-query activation in which no update
stands before `initializeWorkflow`, whose updates are pairwise different and which starts calmly.
When it completes, so does the activation without the updates that were rejected, with the same
outcome. -/
theorem rejected_updates_leave_no_trace (cfg : Config σ) (heap : σ) (inputs : List Input)
    (a : WorkflowActivation) (n : Nat) :
    let s := run (next cfg) (Vm.init heap) inputs
    let removed := rejectedIn cfg n s a
    s.phase = .idle → a.jobs.any Job.isQuery = false → StartsFirst a.jobs →
    (updatesOf a.jobs ++ s.inbox.bufferedUpdates).Nodup → StartsCalmly removed s a →
    (process cfg s a n).phase = .idle →
    ∃ m, (process cfg s (a.without removed) m).phase = .idle ∧
      SameOutcome removed (process cfg s a n) (process cfg s (a.without removed) m) := by
  intro s removed hidle hquery hstart hids hcalm hend
  have hdrained : s.Drained :=
    run_invariant (G := fun _ _ => True) (fun s i _ => drained_next s i) (drained_init heap)
      (guarded_true (next cfg) _ inputs)
  have hprocess : ∀ a m, process cfg s a m =
      run (next cfg) (s.activate a) (List.replicate m .tick) := by
    intro a m
    simp only [process, run_cons, next, hidle, (hdrained.idle hidle).1]
  have hfresh : ∀ u ∈ s.inbox.bufferedUpdates, u ∉ removed := by
    intro u hu hin
    have hjob : u ∈ updatesOf a.jobs := by simpa using (List.mem_filter.1 hin).2
    exact (List.nodup_append.1 hids).2.2 u hjob u hu rfl
  rcases follows_activate hidle hdrained hquery hstart hfresh hcalm with ⟨ho, hshadow⟩
  rcases follows_run ho (.level hshadow) (guarded_rejectedIn hidle hquery hids ho) with ⟨m, hrun⟩
  rw [hprocess] at hend ⊢
  refine ⟨m, ?_⟩
  rw [hprocess]
  have hall := hrun.of_idle hend
  refine ⟨?_, hall.sameOutcome⟩
  rw [hall.phase, hend]
  rfl

instance decidableIdle (phase : Phase) : Decidable (phase = .idle) :=
  match phase with
  | .idle => isTrue rfl
  | .jobs _ _ _ | .unblock _ _ _ | .started | .microtasks | .outer | .queries _ | .conclude =>
    isFalse nofun

/-- A workflow that waits for a condition on `now` and for the promise 2, and rejects every update. -/
def rejectsUpdates : Prog Unit :=
  .setUpdateHandler "u" (some fun _ _ _ => .error (.typeError "invalid")) (fun _ => .pause) fun _ =>
    .condition (fun _ info => 5 ≤ info.now) 1 fun _ =>
      .andThen 1 (fun _ => .command 1 .pause) (.andThen 2 (fun _ => .command 2 .pause) .pause)

/-- The state of `rejectsUpdates` after its first activation. -/
def waitingVm : Vm Unit :=
  run (next (plainConfig rejectsUpdates)) (Vm.init ())
    (activation 20 [.initializeWorkflow [] (.ok ())])

def invalidUpdate : DoUpdate := ⟨"id", "pid", "u", [], true⟩

/-- A timer fires, and then an update comes that is rejected. -/
def timerThenUpdate : WorkflowActivation :=
  ⟨⟨5, 0, false⟩, [.resolve (.ok (2, .ok .undefined)), .doUpdate invalidUpdate], true⟩

/-- The update comes first. -/
def updateThenTimer : WorkflowActivation :=
  ⟨⟨5, 0, false⟩, [.doUpdate invalidUpdate, .resolve (.ok (2, .ok .undefined))], true⟩

theorem timerThenUpdate_leaves_no_trace :
    let cfg := plainConfig rejectsUpdates
    let removed := rejectedIn cfg 20 waitingVm timerThenUpdate
    let t := process cfg waitingVm timerThenUpdate 20
    removed = [invalidUpdate] ∧
    resolutions t.trace = [.resolved 2, .unblocked 1, .resolved 1] ∧
    ∃ m, (process cfg waitingVm (timerThenUpdate.without removed) m).phase = .idle ∧
      SameOutcome removed t (process cfg waitingVm (timerThenUpdate.without removed) m) := by
  intro cfg removed t
  refine ⟨by decide +kernel, by decide +kernel, ?_⟩
  refine rejected_updates_leave_no_trace cfg () (activation 20 [.initializeWorkflow [] (.ok ())])
    timerThenUpdate 20 (by decide +kernel) (by decide) ?_ (by decide +kernel) (Or.inl ?_)
      (by decide +kernel)
  · simp [StartsFirst, timerThenUpdate, Job.isUpdate]
  · intro u _ heq
    cases heq

theorem run_ticks_idle (cfg : Config σ) (hidle : s.phase = .idle) (hstack : s.stack = [])
    (n : Nat) : run (next cfg) s (List.replicate n .tick) = s := by
  have hstep : next cfg s .tick = s := by simp only [next, step, hstack, stepPhase, hidle]
  induction n with
  | zero => rfl
  | succ n ih => rw [List.replicate_succ, run_cons, hstep, ih]

/-- The conditions are checked after the update, and the one on `now` is unblocked before the timer
fires.  Without the update the timer comes first. -/
theorem updateThenTimer_reorders :
    let cfg := plainConfig rejectsUpdates
    let removed := rejectedIn cfg 20 waitingVm updateThenTimer
    let t := process cfg waitingVm updateThenTimer 20
    removed = [invalidUpdate] ∧ waitingVm.phase = .idle ∧ t.phase = .idle ∧
    ∀ m, (process cfg waitingVm (updateThenTimer.without removed) m).phase = .idle →
      ¬ SameOutcome removed t (process cfg waitingVm (updateThenTimer.without removed) m) := by
  intro cfg removed t
  refine ⟨by decide +kernel, by decide +kernel, by decide +kernel, ?_⟩
  intro m hidle hsame
  have hresolutions := hsame.resolutions
  -- The activation without the update takes fewer than twenty steps.
  by_cases hm : m < 20
  · have hbusy : ∀ m < 20, (process cfg waitingVm (updateThenTimer.without removed) m).phase = .idle →
        resolutions (process cfg waitingVm (updateThenTimer.without removed) m).trace ≠
          resolutions t.trace := by decide +kernel
    exact hbusy m hm hidle hresolutions
  · have hend : (process cfg waitingVm (updateThenTimer.without removed) 20).phase = .idle := by
      decide +kernel
    have hstack : (process cfg waitingVm (updateThenTimer.without removed) 20).stack = [] :=
      List.isEmpty_iff.1 (by decide +kernel)
    have hsplit : process cfg waitingVm (updateThenTimer.without removed) m =
        process cfg waitingVm (updateThenTimer.without removed) 20 := by
      have hm' : m = 20 + (m - 20) := by omega
      rw [hm', process, List.replicate_add, ← List.cons_append, run_append]
      exact run_ticks_idle cfg hend hstack _
    rw [hsplit] at hresolutions
    exact absurd hresolutions (by decide +kernel)

end TemporalSdk.Activation
