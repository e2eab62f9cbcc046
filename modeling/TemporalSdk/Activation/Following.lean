import TemporalSdk.Activation.Control
import TemporalSdk.Activation.Shadow

/-!
# Following — a run without the updates that the other run rejects

A run of an activation and a run of the same activation without the updates that validation or argument
decoding rejects stay shadows of each other.  The second run sits out the steps that are about a removed
update.  After each job of the first run `tryUnblockConditions` runs, also after a removed update; this
call finds nothing to unblock because the one before it has left no condition that holds.

There is no call before the first job.  If that is a removed update, and a condition holds because the
activation has renewed what it reads, it is unblocked too early.
-/

namespace TemporalSdk.Activation

variable {σ : Type} {cfg : Config σ} {removed : List DoUpdate} {s s' t : Vm σ}

/-! ## The removed updates -/

namespace Vm

/-- `doUpdate` buffers `u`, or rejects it because of its validator or its arguments. -/
def turnsAway (cfg : Config σ) (s : Vm σ) (u : DoUpdate) : Bool :=
  !refusesUpdate cfg s u &&
    match s.updateEntry u.name with
    | none => true
    | some entry =>
      match (s.validate cfg u entry).2 with
      | .error _ => true
      | .ok _ => false

/-- The update that the next step hands to `doUpdate`. -/
def handled (s : Vm σ) : Option DoUpdate :=
  match s.stack with
  | .dispatchUpdates _ _ :: _ => (nextBufferedUpdate s.inbox).map Prod.fst
  | [] =>
    match s.phase with
    | .jobs (.doUpdate u :: _) _ _ => some u
    | _ => none
  | _ => none

/-- The update that `rejectBufferedUpdates` answers next. -/
def leftOver (s : Vm σ) : Option DoUpdate :=
  match s.stack, s.phase with
  | [], .conclude => s.inbox.bufferedUpdates.head?
  | _, _ => none

end Vm

/-- Removed updates are turned away whenever they are handled, and none is left at the end. -/
def TurnsAway (cfg : Config σ) (removed : List DoUpdate) (s : Vm σ) : Input → Prop
  | .activate _ => True
  | .tick => (∀ u ∈ s.handled, u ∈ removed → s.turnsAway cfg u = true) ∧
      ∀ u ∈ s.leftOver, u ∉ removed

/-- The activation without the removed updates. -/
def WorkflowActivation.without (removed : List DoUpdate) (a : WorkflowActivation) :
    WorkflowActivation :=
  { a with jobs := eraseJobs removed a.jobs }

/-! ## Steps that are not about removed updates -/

namespace Shadows

theorem stack (h : Shadows removed s s') : s'.stack = s.stack := by
  rcases h with ⟨g, rfl, _⟩
  rfl

theorem phase (h : Shadows removed s s') : s'.phase = s.phase.erase removed := by
  rcases h with ⟨g, rfl, _⟩
  rfl

theorem stepDispatchSignals (h : Shadows removed s s') (c : Caller) (k : Option JsValue → Prog σ)
    (rest : List (Frame σ)) :
    Shadows removed (s.stepDispatchSignals cfg c k rest) (s'.stepDispatchSignals cfg c k rest) := by
  have hh := h
  rcases hh with ⟨g, rfl, hg⟩
  have hnext : Vm.nextBufferedSignal (s.shadow removed g).inbox = Vm.nextBufferedSignal s.inbox := rfl
  unfold Vm.stepDispatchSignals
  rw [hnext]
  cases Vm.nextBufferedSignal s.inbox with
  | none => exact h.continueWith _ _ _
  | some r =>
    rcases r with ⟨sig, remaining⟩
    have htake : Shadows removed { s with inbox.bufferedSignals := remaining }
        { s.shadow removed g with
          inbox := { (s.shadow removed g).inbox with bufferedSignals := remaining } } :=
      ⟨g, rfl, hg⟩
    have hcall : Shadows removed (Vm.signalWorkflow cfg _ sig).1 (Vm.signalWorkflow cfg _ sig).1 ∧
        (Vm.signalWorkflow cfg _ sig).2 = (Vm.signalWorkflow cfg _ sig).2 :=
      htake.signalWorkflow sig
    rcases hr : ({ s with inbox.bufferedSignals := remaining } :
      Vm σ).signalWorkflow cfg sig with ⟨t, e⟩
    rcases hr' : ({ s.shadow removed g with
      inbox := { (s.shadow removed g).inbox with bufferedSignals := remaining } } :
        Vm σ).signalWorkflow cfg sig with ⟨t', e'⟩
    rw [hr, hr'] at hcall
    have ht : Shadows removed t t' := hcall.1
    have he : e' = e := hcall.2
    simp only [hr, hr', he]
    cases e with
    | none => exact ht
    | some e => exact ht.continueWith c _ rest

theorem takeFirst_filter {α : Type} {p q : α → Bool} {l rest : List α} {x : α}
    (h : Vm.takeFirst p l = some (x, rest)) (hx : q x = true) :
    Vm.takeFirst p (l.filter q) = some (x, rest.filter q) := by
  rcases Vm.takeFirst_some h with ⟨hpx, front, back, rfl, rfl, hfront⟩
  have hskip : ∀ l : List α, (∀ y ∈ l, p y = false) →
      Vm.takeFirst p (l ++ x :: back.filter q) = some (x, l ++ back.filter q) := by
    intro l hl
    induction l with
    | nil => simp [Vm.takeFirst, hpx]
    | cons y ys ih =>
      have hy : p y = false := hl y (by simp)
      simp [Vm.takeFirst, hy, ih fun z hz => hl z (List.mem_cons_of_mem _ hz)]
  have hrest := hskip (front.filter q) fun y hy => hfront y (List.mem_filter.1 hy).1
  simpa [List.filter_append, hx] using hrest

theorem takeFirst_filter_none {α : Type} {p q : α → Bool} {l : List α}
    (h : Vm.takeFirst p l = none) : Vm.takeFirst p (l.filter q) = none := by
  by_contra hne
  rcases Vm.takeFirst_ne_none.1 hne with ⟨x, hx, hpx⟩
  exact Vm.takeFirst_ne_none.2 ⟨x, (List.mem_filter.1 hx).1, hpx⟩ h

theorem nextBufferedUpdate (h : Shadows removed s s') :
    (Vm.nextBufferedUpdate s.inbox = none → Vm.nextBufferedUpdate s'.inbox = none) ∧
      ∀ u remaining, Vm.nextBufferedUpdate s.inbox = some (u, remaining) → u ∉ removed →
        Vm.nextBufferedUpdate s'.inbox = some (u, eraseUpdates removed remaining) := by
  rcases h with ⟨g, rfl, _⟩
  refine ⟨takeFirst_filter_none, ?_⟩
  intro u remaining hnext hu
  exact takeFirst_filter hnext (by simp [hu])

theorem stepDispatchUpdates (h : Shadows removed s s') (c : Caller) (k : Option JsValue → Prog σ)
    (rest : List (Frame σ))
    (hkept : ∀ u remaining, Vm.nextBufferedUpdate s.inbox = some (u, remaining) → u ∉ removed) :
    Shadows removed (s.stepDispatchUpdates cfg c k rest) (s'.stepDispatchUpdates cfg c k rest) := by
  have hnext := h.nextBufferedUpdate
  unfold Vm.stepDispatchUpdates
  cases hn : Vm.nextBufferedUpdate s.inbox with
  | none =>
    rw [hnext.1 hn]
    exact h.continueWith c _ rest
  | some r =>
    rcases r with ⟨u, remaining⟩
    have hu := hkept u remaining hn
    rw [hnext.2 u remaining hn hu]
    rcases h with ⟨g, rfl, hg⟩
    have htake : Shadows removed { s with inbox.bufferedUpdates := remaining }
        { s.shadow removed g with
          inbox := { (s.shadow removed g).inbox with
            bufferedUpdates := eraseUpdates removed remaining } } := ⟨g, rfl, hg⟩
    have hcall : Shadows removed (Vm.doUpdate cfg _ u).1 (Vm.doUpdate cfg _ u).1 ∧
        (Vm.doUpdate cfg _ u).2 = (Vm.doUpdate cfg _ u).2 := htake.doUpdate hu
    rcases hr : ({ s with inbox.bufferedUpdates := remaining } :
      Vm σ).doUpdate cfg u with ⟨t, e⟩
    rcases hr' : ({ s.shadow removed g with
      inbox := { (s.shadow removed g).inbox with
        bufferedUpdates := eraseUpdates removed remaining } } : Vm σ).doUpdate cfg u with ⟨t', e'⟩
    rw [hr, hr'] at hcall
    have ht : Shadows removed t t' := hcall.1
    have he : e' = e := hcall.2
    simp only [hr, hr', he]
    cases e with
    | none => exact ht
    | some e => exact ht.continueWith c _ rest

theorem runJob (h : Shadows removed s s') {job : Job} (hjob : job.isKept removed = true) :
    Shadows removed (s.runJob cfg job).1 (s'.runJob cfg job).1 ∧
      (s'.runJob cfg job).2 = (s.runJob cfg job).2 := by
  cases job with
  | signalWorkflow sig => exact (h.note _).signalWorkflow sig
  | doUpdate u =>
    have hu : u ∉ removed := by simpa [Job.isKept] using hjob
    exact (h.note _).doUpdate hu
  | initializeWorkflow _ outcome | notifyHasPatch outcome | updateRandomSeed outcome =>
    cases outcome <;> exact ⟨h, rfl⟩
  | cancelWorkflow =>
    have hcancel : Shadows removed { s with cancelled := true } { s' with cancelled := true } := by
      rcases h with ⟨g, rfl, hg⟩
      exact ⟨g, rfl, hg⟩
    exact ⟨hcancel.settlePromise _ _, rfl⟩
  | resolve completion =>
    cases completion with
    | ok r => exact ⟨h.settlePromise r.1 r.2, rfl⟩
    | error e => exact ⟨h, rfl⟩
  | queryWorkflow queryId outcome =>
    cases outcome with
    | ok handling =>
      rcases h with ⟨g, rfl, hg⟩
      simp only [Vm.runJob, Vm.queryWorkflow_eq]
      exact ⟨⟨g, rfl, hg⟩, trivial⟩
    | error e => exact ⟨h, rfl⟩

theorem startWorkflow (h : Shadows removed s s') (arguments : List Payload) :
    Shadows removed (s.startWorkflow cfg arguments).1 (s'.startWorkflow cfg arguments).1 ∧
      (s'.startWorkflow cfg arguments).2 = (s.startWorkflow cfg arguments).2 := by
  unfold Vm.startWorkflow
  cases cfg.arrayFromPayloads arguments with
  | error e => exact ⟨h, rfl⟩
  | ok args =>
    have hnum : s'.nextNum = s.nextNum := by
      rcases h with ⟨g, rfl, _⟩
      rfl
    rw [hnum]
    exact ⟨h.call _ _, rfl⟩

theorem stepMicrotasks (h : Shadows removed s s') :
    Shadows removed (s.stepMicrotasks cfg) (s'.stepMicrotasks cfg) := by
  have hsame : s'.microtasks = s.microtasks ∧ s'.query = s.query := by
    rcases h with ⟨g, rfl, _⟩
    exact ⟨rfl, rfl⟩
  unfold Vm.stepMicrotasks
  rw [hsame.1]
  cases s.microtasks with
  | nil =>
    simp only [hsame.2]
    cases s.query with
    | true => exact h.enter .conclude
    | false => exact h.enter .outer
  | cons m microtasks =>
    have hpop : Shadows removed { s with microtasks := microtasks }
        { s' with microtasks := microtasks } := by
      rcases h with ⟨g, rfl, hg⟩
      exact ⟨g, rfl, hg⟩
    exact hpop.runMicrotask m

theorem stepConclude (h : Shadows removed s s')
    (hkept : ∀ u updates, s.inbox.bufferedUpdates = u :: updates → u ∉ removed) :
    Shadows removed (s.stepConclude cfg) (s'.stepConclude cfg) := by
  have hbuffered : s'.inbox.bufferedUpdates = eraseUpdates removed s.inbox.bufferedUpdates := by
    rcases h with ⟨g, rfl, _⟩
    rfl
  unfold Vm.stepConclude
  rw [hbuffered]
  cases hu : s.inbox.bufferedUpdates with
  | nil => exact h.succeed
  | cons u updates =>
    have hin := hkept u updates hu
    have herase : eraseUpdates removed (u :: updates) = u :: eraseUpdates removed updates := by
      simp [eraseUpdates, hin]
    rw [herase]
    have htake : Shadows removed { s with inbox.bufferedUpdates := updates }
        { s' with
          inbox := { s'.inbox with bufferedUpdates := eraseUpdates removed updates } } := by
      rcases h with ⟨g, rfl, hg⟩
      exact ⟨g, rfl, hg⟩
    simp only [Vm.rejectUpdate]
    cases cfg.errorToFailure (Vm.noHandlerError u) with
    | ok failure => exact orFail (htake.pushCommand _ _) rfl
    | error e => exact orFail htake rfl

end Shadows

/-! ## Calm states -/

namespace Vm

/-- A call of `tryUnblockConditions` would neither throw nor unblock anything. -/
def Calm (s : Vm σ) : Prop :=
  s.workflowTaskError.isTruthy = false ∧ (s.checkConditions = true → s.Settled)

theorem Calm.tryUnblockConditions (h : s.Calm) : s.tryUnblockConditions = .ok (s, 0) := by
  rw [tryUnblockConditions_eq]
  have hnone : s.taskError = none := by simp [taskError, h.1]
  rw [hnone]
  by_cases hc : s.checkConditions = true
  · simp only [hc, if_true]
    rw [unblockPass_of_false (h.2 hc)]
  · simp only [if_neg hc]

theorem calm_of_tryUnblockConditions {n : Nat} (h : s.tryUnblockConditions = .ok (t, n)) :
    t.Calm := by
  have hfalsy := taskError_of_tryUnblockConditions h
  have hframe : t.workflowTaskError = s.workflowTaskError ∧ t.checkConditions = s.checkConditions :=
    tryUnblockConditions_closed (P := fun t => t.workflowTaskError = s.workflowTaskError ∧
      t.checkConditions = s.checkConditions) (fun _ _ ht => ht) h ⟨rfl, rfl⟩
  refine ⟨?_, ?_⟩
  · rw [hframe.1]
    exact hfalsy
  · intro hc
    rw [hframe.2] at hc
    exact tryUnblockConditions_settled hc h

theorem Calm.congr (h : s.Calm) (hheap : t.heap = s.heap) (hinfo : t.info = s.info)
    (hblocked : t.blockedConditions = s.blockedConditions)
    (hcheck : t.checkConditions = s.checkConditions)
    (herror : t.workflowTaskError = s.workflowTaskError) : t.Calm := by
  refine ⟨?_, ?_⟩
  · rw [herror]
    exact h.1
  · intro hc b hb
    rw [hcheck] at hc
    rw [hblocked] at hb
    rw [hheap, hinfo]
    exact h.2 hc b hb

end Vm

/-! ## Batches -/

def Job.isStart : Job → Bool
  | .initializeWorkflow _ _ => true
  | _ => false

/-- No update stands before `initializeWorkflow`. -/
def StartsFirst (jobs : List Job) : Prop :=
  jobs.Pairwise fun job later => job.isUpdate = true → later.isStart = false

/-- The phase in which a batch starts. -/
def batchPhase : List Job → Phase
  | .initializeWorkflow arguments _ :: jobs => .jobs jobs (some arguments) jobs
  | jobs => .jobs jobs none jobs

variable {batch : List Job}

theorem nextBatch_cons {batches : List (List Job)} (h : s.batches = batch :: batches) :
    s.nextBatch = { s with phase := batchPhase batch, batches := batches } := by
  unfold Vm.nextBatch batchPhase
  rw [h]
  cases batch with
  | nil => rfl
  | cons job jobs => cases job <;> rfl

theorem nextBatch_nil (h : s.batches = []) : s.nextBatch = s.enter .conclude := by
  unfold Vm.nextBatch
  split
  · rfl
  · rename_i hcons
    rw [h] at hcons
    cases hcons

theorem batchPhase_of_head (h : ∀ job, batch.head? = some job → job.isStart = false) :
    batchPhase batch = .jobs batch none batch := by
  cases batch with
  | nil => rfl
  | cons job jobs =>
    cases job with
    | initializeWorkflow arguments outcome => exact absurd (h _ rfl) (by simp [Job.isStart])
    | _ => rfl

theorem batchPhase_eraseJobs (h : StartsFirst batch) :
    batchPhase (eraseJobs removed batch) = (batchPhase batch).erase removed := by
  cases batch with
  | nil => rfl
  | cons job jobs =>
    have hlater := (List.pairwise_cons.1 h).1
    cases job with
    | initializeWorkflow arguments outcome => rfl
    | doUpdate u =>
      have hphase : batchPhase (.doUpdate u :: jobs) =
          .jobs (.doUpdate u :: jobs) none (.doUpdate u :: jobs) := rfl
      rw [hphase]
      refine batchPhase_of_head ?_
      intro job hjob
      have hin : job ∈ eraseJobs removed (.doUpdate u :: jobs) := List.mem_of_mem_head? hjob
      rcases List.mem_cons.1 (List.mem_filter.1 hin).1 with rfl | hin
      · rfl
      · exact hlater job hin rfl
    | signalWorkflow sig => rfl
    | notifyHasPatch outcome => rfl
    | updateRandomSeed outcome => rfl
    | cancelWorkflow => rfl
    | resolve completion => rfl
    | queryWorkflow queryId outcome => rfl

theorem Shadows.nextBatch (h : Shadows removed s s')
    (hbatches : ∀ batch ∈ s.batches, StartsFirst batch ∧ eraseJobs removed batch ≠ []) :
    Shadows removed s.nextBatch s'.nextBatch := by
  have hsame : s'.batches = eraseBatches removed s.batches := by
    rcases h with ⟨g, rfl, _⟩
    rfl
  cases hb : s.batches with
  | nil =>
    rw [hb] at hsame
    rw [nextBatch_nil hb, nextBatch_nil hsame]
    exact h.enter .conclude
  | cons batch batches =>
    have hbatch := hbatches batch (by simp [hb])
    have hcons : s'.batches = eraseJobs removed batch :: eraseBatches removed batches := by
      rw [hsame, hb]
      simp [eraseBatches, hbatch.2]
    rw [nextBatch_cons hb, nextBatch_cons hcons, batchPhase_eraseJobs hbatch.1]
    rcases h with ⟨g, rfl, hg⟩
    exact ⟨g, rfl, hg⟩

/-! ## What is known about the run with all updates -/

/-- Phases other than those that go through a list of jobs. -/
def Phase.isPlain : Phase → Bool
  | .jobs _ _ _ | .queries _ => false
  | _ => true

structure Orderly (removed : List DoUpdate) (s : Vm σ) : Prop where
  drained : s.Drained
  noQueries : ∀ todo, s.phase ≠ .queries todo
  single : s.batches.length ≤ 1
  starts : ∀ batch ∈ s.batches, StartsFirst batch
  -- Before a job that is a removed update there is nothing to unblock.
  jobs : ∀ todo start batch, s.phase = .jobs todo start batch →
    s.stack = [] ∧ (s.Calm ∨ ∀ u, todo.head? = some (.doUpdate u) → u ∉ removed)

namespace Orderly

theorem of_plain (h : Orderly removed s) (hdrained : t.Drained) (hphase : t.phase.isPlain = true)
    (hbatches : t.batches = s.batches ∨ t.batches = []) : Orderly removed t := by
  refine ⟨hdrained, ?_, ?_, ?_, ?_⟩
  · intro todo heq
    rw [heq] at hphase
    cases hphase
  · rcases hbatches with heq | heq
    · rw [heq]
      exact h.single
    · simp [heq]
  · intro batch hbatch
    rcases hbatches with heq | heq
    · rw [heq] at hbatch
      exact h.starts batch hbatch
    · rw [heq] at hbatch
      cases hbatch
  · intro todo start batch heq
    rw [heq] at hphase
    cases hphase

theorem fail (h : Orderly removed s) (t : Vm σ) (e : JsValue) : Orderly removed (t.fail e) := by
  have hplace := Vm.place_fail t e
  exact h.of_plain (.fail t e) (by simp [hplace.1, Phase.isPlain]) (Or.inr hplace.2)

theorem orFail_runJob (h : Orderly removed s) (cfg : Config σ) (job : Job) (todo : List Job)
    (start : Option (List Payload)) (batch : List Job) :
    Orderly removed (Vm.orFail ((s.enter (.unblock todo start batch)).runJob cfg job)) := by
  have hplace := Vm.place_runJob cfg (s.enter (.unblock todo start batch)) job
  have hbusy : Vm.Busy (.unblock todo start batch) := trivial
  have hdrained := Vm.Drained.orFail_runJob cfg hbusy s job
  unfold Vm.orFail at hdrained ⊢
  cases he : ((s.enter (.unblock todo start batch)).runJob cfg job).2 with
  | none =>
    rw [he] at hdrained
    refine h.of_plain hdrained ?_ (Or.inl hplace.2)
    simp only [hplace.1]
    rfl
  | some e => exact h.fail _ e

theorem nextBatch (h : Orderly removed s) (hcalm : s.Calm) (hstack : s.stack = [])
    (hmicrotasks : s.microtasks = []) : Orderly removed s.nextBatch := by
  have hdrained : s.nextBatch.Drained := .nextBatch hstack hmicrotasks fun _ => hcalm.1
  cases hb : s.batches with
  | nil =>
    rw [nextBatch_nil hb] at hdrained ⊢
    exact h.of_plain hdrained rfl (Or.inl rfl)
  | cons batch batches =>
    have hsingle := h.single
    rw [hb] at hsingle
    have hnil : batches = [] := by
      cases batches with
      | nil => rfl
      | cons _ _ => simp at hsingle
    rw [nextBatch_cons hb, hnil] at hdrained ⊢
    refine ⟨hdrained, ?_, by simp, by simp, ?_⟩
    · intro todo hphase
      cases batch with
      | nil => cases hphase
      | cons job jobs => cases job <;> cases hphase
    · intro todo start batch' _
      exact ⟨hstack, Or.inl (hcalm.congr rfl rfl rfl rfl rfl)⟩

theorem unblocking (h : Orderly removed s) {k : Vm σ → Nat → Vm σ}
    (hk : ∀ t n, s.tryUnblockConditions = .ok (t, n) → Orderly removed (k t n)) :
    Orderly removed (s.unblocking k) := by
  unfold Vm.unblocking
  cases hr : s.tryUnblockConditions with
  | error e => exact h.fail s e
  | ok r => exact hk r.1 r.2 hr

theorem place_tryUnblockConditions {n : Nat} (h : s.tryUnblockConditions = .ok (t, n)) :
    t.batches = s.batches ∧ t.stack = s.stack :=
  Vm.tryUnblockConditions_closed (P := fun t => t.batches = s.batches ∧ t.stack = s.stack)
    (fun _ _ ht => ht) h ⟨rfl, rfl⟩

theorem stepPhase (h : Orderly removed s) (hstack : s.stack = []) :
    Orderly removed (s.stepPhase cfg) := by
  have hdrained : (s.stepPhase cfg).Drained := Vm.drained_stepPhase h.drained hstack
  revert hdrained
  unfold Vm.stepPhase
  split
  · intro _
    exact h
  · intro _
    exact h.orFail_runJob cfg _ _ _ _
  · intro hdrained
    exact h.of_plain hdrained rfl (Or.inl rfl)
  · rename_i arguments batch _
    split
    · unfold Vm.startWorkflow
      cases cfg.arrayFromPayloads arguments with
      | ok args =>
        intro hdrained
        exact h.of_plain hdrained rfl (Or.inl rfl)
      | error e =>
        intro _
        exact h.fail _ e
    · intro _
      exact h.fail s _
  · rename_i todo start batch _
    intro _
    refine h.unblocking ?_
    intro t n hr
    have hplace := place_tryUnblockConditions hr
    refine ⟨.of_busy trivial, ?_, ?_, ?_, ?_⟩
    · intro todo' hphase
      cases hphase
    · have hbatches : (t.enter (.jobs todo start batch)).batches = s.batches := hplace.1
      rw [hbatches]
      exact h.single
    · intro batch' hbatch
      have hbatches : (t.enter (.jobs todo start batch)).batches = s.batches := hplace.1
      rw [hbatches] at hbatch
      exact h.starts batch' hbatch
    · intro todo' start' batch' _
      refine ⟨hplace.2.trans hstack, Or.inl ?_⟩
      exact (Vm.calm_of_tryUnblockConditions hr).congr rfl rfl rfl rfl rfl
  · intro _
    refine h.unblocking ?_
    intro t n hr
    exact h.of_plain (.of_busy trivial) rfl (Or.inl (place_tryUnblockConditions hr).1)
  · rename_i hphase
    unfold Vm.stepMicrotasks
    split
    · rename_i m microtasks _
      intro hdrained
      have hcontrol := Vm.control_runMicrotask cfg { s with microtasks := microtasks } m
      refine h.of_plain hdrained ?_ (Or.inl (Vm.batches_of_control hcontrol))
      rw [Vm.phase_of_control hcontrol]
      simp [hphase, Phase.isPlain]
    · intro hdrained
      refine h.of_plain hdrained ?_ (Or.inl rfl)
      cases hq : s.query with
      | true | false => simp [Vm.enter, hq, Phase.isPlain]
  · rename_i hphase
    intro _
    refine h.unblocking ?_
    intro t n hr
    unfold Vm.afterOuter
    split
    · rename_i hzero
      have hsame : t = s := Vm.tryUnblockConditions_zero (hzero ▸ hr)
      have hcalm := Vm.calm_of_tryUnblockConditions hr
      rw [hsame] at hcalm ⊢
      exact h.nextBatch hcalm hstack (h.drained.outer hphase).2
    · exact h.of_plain (.of_busy trivial) rfl (Or.inl (place_tryUnblockConditions hr).1)
  · rename_i hphase
    exact absurd hphase (h.noQueries _)
  · rename_i hphase
    exact absurd hphase (h.noQueries _)
  · rename_i hphase
    unfold Vm.stepConclude
    split
    · intro hdrained
      have hplace := Vm.place_succeed s
      exact h.of_plain hdrained (by simp [hplace.1, Phase.isPlain]) (Or.inr hplace.2)
    · rename_i u updates _
      simp only [Vm.orFail, Vm.rejectUpdate]
      cases cfg.errorToFailure (Vm.noHandlerError u) with
      | error e =>
        intro _
        exact h.fail _ e
      | ok failure =>
        intro hdrained
        refine h.of_plain hdrained ?_ (Or.inl rfl)
        simp [Vm.pushCommand, hphase, Phase.isPlain]

theorem step (h : Orderly removed s) : Orderly removed (s.step cfg) := by
  cases hstack : s.stack with
  | nil =>
    have hstep : s.step cfg = s.stepPhase cfg := by simp [Vm.step, hstack]
    rw [hstep]
    exact h.stepPhase hstack
  | cons f rest =>
    have hplace : (s.step cfg).phase = s.phase ∧ (s.step cfg).batches = s.batches :=
      Vm.place_step hstack
    refine ⟨Vm.drained_step h.drained, ?_, ?_, ?_, ?_⟩
    · intro todo hphase
      exact h.noQueries todo (hplace.1.symm.trans hphase)
    · rw [hplace.2]
      exact h.single
    · rw [hplace.2]
      exact h.starts
    · intro todo start batch hphase
      have hempty := (h.jobs todo start batch (hplace.1.symm.trans hphase)).1
      simp [hstack] at hempty

end Orderly

/-! ## Steps that are about removed updates -/

theorem turnsAway_congr (hheap : t.heap = s.heap) (hinfo : t.info = s.info)
    (hhandlers : t.inbox.updateHandlers = s.inbox.updateHandlers)
    (hdefault : t.inbox.defaultUpdateHandler = s.inbox.defaultUpdateHandler) (u : DoUpdate) :
    t.turnsAway cfg u = s.turnsAway cfg u := by
  have hentry : t.updateEntry u.name = s.updateEntry u.name := by
    simp [Vm.updateEntry, hhandlers, hdefault]
  unfold Vm.turnsAway
  rw [Vm.refusesUpdate_congr hheap hinfo hhandlers hdefault, hentry]
  cases s.updateEntry u.name with
  | none => rfl
  | some entry => simp only [Vm.validate_congr hheap hinfo]

variable {u : DoUpdate}

theorem unseen_doUpdate (hu : u ∈ removed) (h : s.turnsAway cfg u = true) :
    ∃ t, s.doUpdate cfg u = (t, none) ∧ Unseen removed s t := by
  have hsplit := Bool.and_eq_true_iff.1 h
  have hrefuses : Vm.refusesUpdate cfg s u = false := by simpa using hsplit.1
  rcases Vm.doUpdate_cases hrefuses with ⟨hnone, heq⟩ | ⟨entry, hentry, hconv, heq⟩
  · exact ⟨_, heq, .buffered s hu⟩
  · refine ⟨_, heq, ?_⟩
    have houtcome := hsplit.2
    rw [hentry] at houtcome
    cases hv : (s.validate cfg u entry).2 with
    | ok args => simp [hv] at houtcome
    | error e =>
      have hok := hconv e hv
      cases hf : cfg.errorToFailure e with
      | error e' => simp [hf, Except.isOk, Except.toBool] at hok
      | ok failure => exact .rejected hu hv hf

theorem Vm.Calm.of_unseen (h : s.Calm) (hunseen : Unseen removed s t) : t.Calm := by
  refine h.congr ?_ ?_ ?_ ?_ ?_
  · exact hunseen.proj Vm.heap
  · exact hunseen.proj Vm.info
  · exact hunseen.proj Vm.blockedConditions
  · exact hunseen.proj Vm.checkConditions
  · exact hunseen.proj Vm.workflowTaskError

theorem unseen_runJob (hu : u ∈ removed) (phase : Phase) (h : s.turnsAway cfg u = true) :
    ∃ t, Vm.orFail ((s.enter phase).runJob cfg (.doUpdate u)) = t ∧
      Unseen removed (s.enter phase) t ∧ t.phase = phase ∧ t.batches = s.batches := by
  have hplace := Vm.place_runJob cfg (s.enter phase) (.doUpdate u)
  have haway : ((s.enter phase).note (.updateArrived u)).turnsAway cfg u = true := by
    rw [← h]
    apply turnsAway_congr
    all_goals rfl
  rcases unseen_doUpdate hu haway with ⟨t, heq, hunseen⟩
  have hrun : (s.enter phase).runJob cfg (.doUpdate u) = (t, none) := heq
  rw [hrun] at hplace ⊢
  exact ⟨t, rfl, (Unseen.arrival _ hu).trans hunseen, hplace.1, hplace.2⟩

/-! ## The simulation -/

/-- The run is at the end of a last batch of which nothing is left in its shadow. -/
structure Tail (removed : List DoUpdate) (s : Vm σ) : Prop where
  batches : s.batches = []
  stack : s.stack = []
  microtasks : s.microtasks = []
  calm : s.Calm
  phase : (∃ todo batch, (s.phase = .jobs todo none batch ∨ s.phase = .unblock todo none batch) ∧
    eraseJobs removed todo = []) ∨ s.phase = .microtasks ∨ s.phase = .outer

/-- How `s'`, in a run without the removed updates, follows `s`. -/
inductive Follows (removed : List DoUpdate) (s s' : Vm σ) : Prop
  | level : Shadows removed s s' → Follows removed s s'
  -- `s` is about to check the conditions after a removed update.
  | ahead {todo : List Job} {start : Option (List Payload)} {batch : List Job} :
      s.phase = .unblock todo start batch → s.stack = [] → s.Calm →
      Shadows removed (s.enter (.jobs todo start batch)) s' → Follows removed s s'
  -- `s'` has nothing left to do but to conclude.
  | done : Tail removed s → Shadows removed (s.enter .conclude) s' → Follows removed s s'

theorem step_of_nil (cfg : Config σ) (hstack : s.stack = []) : s.step cfg = s.stepPhase cfg := by
  simp [Vm.step, hstack]

theorem eraseJobs_removed (hu : u ∈ removed) (todo : List Job) :
    eraseJobs removed (.doUpdate u :: todo) = eraseJobs removed todo := by
  simp [eraseJobs, Job.isKept, hu]

theorem eraseJobs_kept {job : Job} (hjob : job.isKept removed = true) (todo : List Job) :
    eraseJobs removed (job :: todo) = job :: eraseJobs removed todo := by
  simp [eraseJobs, hjob]

theorem all_isSafeWithStart_eraseJobs (batch : List Job) :
    (eraseJobs removed batch).all Job.isSafeWithStart = batch.all Job.isSafeWithStart := by
  induction batch with
  | nil => rfl
  | cons job jobs ih =>
    cases hjob : job.isKept removed with
    | true =>
      rw [eraseJobs_kept hjob, List.all_cons, List.all_cons, ih]
    | false =>
      cases job with
      | doUpdate u =>
        have hu : u ∈ removed := by simpa [Job.isKept] using hjob
        rw [eraseJobs_removed hu, ih, List.all_cons]
        simp [Job.isSafeWithStart]
      | _ => cases hjob

variable {start : Option (List Payload)}

theorem follows_ahead {todo batch : List Job}
    (hphase : s.phase = .unblock todo start batch) (hstack : s.stack = []) (hcalm : s.Calm)
    (h : Shadows removed (s.enter (.jobs todo start batch)) s') :
    Follows removed (s.step cfg) s' := by
  have hstep : s.step cfg = s.enter (.jobs todo start batch) := by
    rw [step_of_nil cfg hstack]
    simp only [Vm.stepPhase, hphase, Vm.unblocking, hcalm.tryUnblockConditions]
  rw [hstep]
  exact .level h

/-- Nothing happens at the end of the last batch. -/
theorem follows_done (hg : TurnsAway cfg removed s .tick) (htail : Tail removed s)
    (h : Shadows removed (s.enter .conclude) s') : Follows removed (s.step cfg) s' := by
  have hstep := step_of_nil cfg htail.stack
  rcases htail.phase with ⟨todo, batch, hphase | hphase, hnone⟩ | hphase | hphase
  · cases todo with
    | nil =>
      have heq : s.step cfg = s.enter .microtasks := by
        rw [hstep]
        simp only [Vm.stepPhase, hphase]
      rw [heq]
      exact .done ⟨htail.batches, htail.stack, htail.microtasks,
        htail.calm.congr rfl rfl rfl rfl rfl, Or.inr (Or.inl rfl)⟩ h
    | cons job todo =>
      have hjob : job.isKept removed = false := by
        by_contra hne
        rw [eraseJobs_kept (by simpa using hne)] at hnone
        cases hnone
      cases job with
      | doUpdate u =>
        have hu : u ∈ removed := by simpa [Job.isKept] using hjob
        rw [eraseJobs_removed hu] at hnone
        have haway : s.turnsAway cfg u = true := by
          refine hg.1 u ?_ hu
          simp [Vm.handled, htail.stack, hphase]
        rcases unseen_runJob hu (.unblock todo none batch) haway with
          ⟨t, heq, hunseen, htphase, htbatches⟩
        have heq' : s.step cfg = t := by
          rw [hstep, ← heq]
          simp only [Vm.stepPhase, hphase]
        rw [heq']
        refine .done ⟨htbatches.trans htail.batches, ?_, ?_, ?_, ?_⟩ ?_
        · exact (hunseen.proj Vm.stack).trans htail.stack
        · exact (hunseen.proj Vm.microtasks).trans htail.microtasks
        · have hcalm : (s.enter (.unblock todo none batch)).Calm :=
            htail.calm.congr rfl rfl rfl rfl rfl
          exact hcalm.of_unseen hunseen
        · exact Or.inl ⟨todo, batch, Or.inr htphase, hnone⟩
        · exact h.ignore (hunseen.enter .conclude)
      | _ => cases hjob
  · have heq : s.step cfg = s.enter (.jobs todo none batch) := by
      rw [hstep]
      simp only [Vm.stepPhase, hphase, Vm.unblocking, htail.calm.tryUnblockConditions]
    rw [heq]
    exact .done ⟨htail.batches, htail.stack, htail.microtasks,
      htail.calm.congr rfl rfl rfl rfl rfl, Or.inl ⟨todo, batch, Or.inl rfl, hnone⟩⟩ h
  · have heq : s.step cfg = s.enter (if s.query then .conclude else .outer) := by
      rw [hstep]
      simp only [Vm.stepPhase, hphase, Vm.stepMicrotasks, htail.microtasks]
    rw [heq]
    cases s.query with
    | true => exact .level h
    | false =>
      exact .done ⟨htail.batches, htail.stack, htail.microtasks,
        htail.calm.congr rfl rfl rfl rfl rfl, Or.inr (Or.inr rfl)⟩ h
  · have heq : s.step cfg = s.enter .conclude := by
      rw [hstep]
      simp only [Vm.stepPhase, hphase, Vm.unblocking, htail.calm.tryUnblockConditions,
        Vm.afterOuter, if_true]
      exact nextBatch_nil htail.batches
    rw [heq]
    exact .level h

/-- A dispatch loop takes an update: a removed one is sat out. -/
theorem follows_dispatchUpdates {c : Caller} {k : Option JsValue → Prog σ} {rest : List (Frame σ)}
    (hg : TurnsAway cfg removed s .tick) (h : Shadows removed s s')
    (hstack : s.stack = .dispatchUpdates c k :: rest) :
    Follows removed (s.step cfg) s' ∨ Follows removed (s.step cfg) (s'.step cfg) := by
  have hstep : s.step cfg = s.stepDispatchUpdates cfg c k rest := by simp [Vm.step, hstack]
  have hstep' : s'.step cfg = s'.stepDispatchUpdates cfg c k rest := by
    simp [Vm.step, h.stack, hstack]
  by_cases hremoved : ∃ u remaining, Vm.nextBufferedUpdate s.inbox = some (u, remaining) ∧ u ∈ removed
  · rcases hremoved with ⟨u, remaining, hnext, hu⟩
    have haway : s.turnsAway cfg u = true := by
      refine hg.1 u ?_ hu
      simp [Vm.handled, hstack, hnext]
    have haway' : ({ s with inbox.bufferedUpdates := remaining } :
        Vm σ).turnsAway cfg u = true := by
      rw [← haway]
      apply turnsAway_congr
      all_goals rfl
    rcases unseen_doUpdate hu haway' with ⟨t, heq, hunseen⟩
    have heq' : s.step cfg = t := by
      rw [hstep]
      simp only [Vm.stepDispatchUpdates, hnext, heq]
    rw [heq']
    exact Or.inl (.level (h.ignore ((Unseen.taken hu hnext).trans hunseen)))
  · rw [hstep, hstep']
    refine Or.inr (.level (h.stepDispatchUpdates c k rest ?_))
    intro u remaining hnext hu
    exact hremoved ⟨u, remaining, hnext, hu⟩

/-- The run goes on with a batch of which the shadow has nothing. -/
theorem follows_emptyBatch (h : Shadows removed s s')
    (hcalm : s.Calm) (hstack : s.stack = []) (hmicrotasks : s.microtasks = [])
    (hbatches : s.batches = [batch]) (hnone : eraseJobs removed batch = []) :
    Follows removed s.nextBatch s'.nextBatch := by
  have hbatches' : s'.batches = [] := by
    rcases h with ⟨g, rfl, _⟩
    simp [Vm.shadow, eraseBatches, hbatches, hnone]
  have hphase : batchPhase batch = .jobs batch none batch := by
    refine batchPhase_of_head ?_
    intro job hjob
    cases job with
    | initializeWorkflow arguments outcome =>
      have hin : Job.initializeWorkflow arguments outcome ∈ eraseJobs removed batch :=
        List.mem_filter.2 ⟨List.mem_of_mem_head? hjob, rfl⟩
      rw [hnone] at hin
      cases hin
    | _ => rfl
  rw [nextBatch_cons hbatches, nextBatch_nil hbatches', hphase]
  refine .done ⟨rfl, hstack, hmicrotasks, hcalm.congr rfl rfl rfl rfl rfl,
    Or.inl ⟨batch, batch, Or.inl rfl, hnone⟩⟩ ?_
  rcases h with ⟨g, rfl, hg⟩
  refine ⟨g, ?_, hg⟩
  simp [Vm.shadow, Vm.enter, eraseBatches, hbatches, hnone, Phase.erase]

/-- The outer loop has nothing more to unblock. -/
theorem follows_nextBatch (ho : Orderly removed s) (h : Shadows removed s s') (hcalm : s.Calm)
    (hstack : s.stack = []) (hmicrotasks : s.microtasks = []) :
    Follows removed s.nextBatch s'.nextBatch := by
  have hsingle := ho.single
  cases hb : s.batches with
  | nil =>
    refine .level (h.nextBatch ?_)
    intro batch hbatch
    rw [hb] at hbatch
    cases hbatch
  | cons batch batches =>
    rw [hb] at hsingle
    have hnil : batches = [] := by
      cases batches with
      | nil => rfl
      | cons _ _ => simp at hsingle
    rw [hnil] at hb
    by_cases hnone : eraseJobs removed batch = []
    · exact follows_emptyBatch h hcalm hstack hmicrotasks hb hnone
    · refine .level (h.nextBatch ?_)
      intro batch' hbatch'
      have heq : batch' = batch := by simpa [hb] using hbatch'
      rw [heq]
      exact ⟨ho.starts batch (by simp [hb]), hnone⟩

/-- A job that brings a removed update is sat out. -/
theorem follows_removedJob {todo batch : List Job}
    (ho : Orderly removed s) (hg : TurnsAway cfg removed s .tick) (h : Shadows removed s s')
    (hstack : s.stack = []) (hphase : s.phase = .jobs (.doUpdate u :: todo) start batch)
    (hu : u ∈ removed) : Follows removed (s.step cfg) s' := by
  have haway : s.turnsAway cfg u = true := by
    refine hg.1 u ?_ hu
    simp [Vm.handled, hstack, hphase]
  have hcalm : s.Calm := by
    rcases (ho.jobs _ _ _ hphase).2 with hcalm | hkept
    · exact hcalm
    · exact absurd hu (hkept u rfl)
  rcases unseen_runJob hu (.unblock todo start batch) haway with ⟨t, heq, hunseen, htphase, _⟩
  have heq' : s.step cfg = t := by
    rw [step_of_nil cfg hstack, ← heq]
    simp only [Vm.stepPhase, hphase]
  have hskip : Shadows removed (s.enter (.jobs todo start batch)) s' := by
    rcases h with ⟨g, rfl, hg⟩
    refine ⟨g, ?_, hg⟩
    simp [Vm.shadow, Vm.enter, hphase, Phase.erase, eraseJobs_removed hu]
  rw [heq']
  refine .ahead htphase ((hunseen.proj Vm.stack).trans hstack) ?_ ?_
  · have hcalm' : (s.enter (.unblock todo start batch)).Calm :=
      hcalm.congr rfl rfl rfl rfl rfl
    exact hcalm'.of_unseen hunseen
  · exact hskip.ignore (hunseen.enter (.jobs todo start batch))

theorem follows_stepPhase (ho : Orderly removed s) (hg : TurnsAway cfg removed s .tick)
    (h : Shadows removed s s') (hstack : s.stack = []) :
    Follows removed (s.step cfg) s' ∨ Follows removed (s.step cfg) (s'.step cfg) := by
  have hphase' := h.phase
  have hstep := step_of_nil cfg hstack
  have hstep' := step_of_nil cfg (h.stack.trans hstack)
  cases hphase : s.phase with
  | idle =>
    have heq : s.step cfg = s := by
      rw [hstep]
      simp only [Vm.stepPhase, hphase]
    rw [heq]
    exact Or.inl (.level h)
  | jobs todo start batch =>
    rw [hphase] at hphase'
    cases todo with
    | nil =>
      have hphase' : s'.phase = .jobs [] start (eraseJobs removed batch) := hphase'
      rw [hstep, hstep']
      cases start with
      | none =>
        simp only [Vm.stepPhase, hphase, hphase']
        exact Or.inr (.level (h.enter .microtasks))
      | some arguments =>
        simp only [Vm.stepPhase, hphase, hphase', all_isSafeWithStart_eraseJobs]
        by_cases hsafe : batch.all Job.isSafeWithStart = true
        · simp only [hsafe, if_true]
          have henter := h.enter .started
          exact Or.inr (.level (Shadows.orFail (henter.startWorkflow arguments).1
            (henter.startWorkflow arguments).2))
        · simp only [if_neg hsafe]
          exact Or.inr (.level (h.fail _))
    | cons job todo =>
      cases hjob : job.isKept removed with
      | true =>
        have hphase' : s'.phase =
            .jobs (job :: eraseJobs removed todo) start (eraseJobs removed batch) := by
          rw [hphase', Phase.erase, eraseJobs_kept hjob]
        rw [hstep, hstep']
        simp only [Vm.stepPhase, hphase, hphase']
        have henter := h.enter (.unblock todo start batch)
        exact Or.inr (.level (Shadows.orFail (henter.runJob hjob).1 (henter.runJob hjob).2))
      | false =>
        cases job with
        | doUpdate u =>
          have hu : u ∈ removed := by simpa [Job.isKept] using hjob
          exact Or.inl (follows_removedJob ho hg h hstack hphase hu)
        | _ => cases hjob
  | unblock todo start batch =>
    rw [hphase] at hphase'
    have hphase' : s'.phase =
        .unblock (eraseJobs removed todo) start (eraseJobs removed batch) := hphase'
    rw [hstep, hstep']
    simp only [Vm.stepPhase, hphase, hphase']
    refine Or.inr (.level (h.unblocking ?_))
    intro t t' n _ ht
    exact ht.enter (.jobs todo start batch)
  | started =>
    rw [hphase] at hphase'
    have hphase' : s'.phase = .started := hphase'
    rw [hstep, hstep']
    simp only [Vm.stepPhase, hphase, hphase']
    refine Or.inr (.level (h.unblocking ?_))
    intro t t' n _ ht
    exact ht.enter .microtasks
  | microtasks =>
    rw [hphase] at hphase'
    have hphase' : s'.phase = .microtasks := hphase'
    rw [hstep, hstep']
    simp only [Vm.stepPhase, hphase, hphase']
    exact Or.inr (.level h.stepMicrotasks)
  | outer =>
    rw [hphase] at hphase'
    have hphase' : s'.phase = .outer := hphase'
    rw [hstep, hstep']
    simp only [Vm.stepPhase, hphase, hphase', Vm.unblocking]
    rcases h.tryUnblockConditions with ⟨e, heq, heq'⟩ | ⟨t, t', n, heq, heq', ht⟩
    · rw [heq, heq']
      exact Or.inr (.level (h.fail e))
    · rw [heq, heq']
      simp only [Vm.afterOuter]
      by_cases hzero : n = 0
      · have hsame : t = s := Vm.tryUnblockConditions_zero (hzero ▸ heq)
        have hcalm := Vm.calm_of_tryUnblockConditions heq
        simp only [if_pos hzero]
        rw [hsame] at hcalm ht ⊢
        exact Or.inr (follows_nextBatch ho ht hcalm hstack (ho.drained.outer hphase).2)
      · simp only [if_neg hzero]
        exact Or.inr (.level (ht.enter .microtasks))
  | queries todo => exact absurd hphase (ho.noQueries todo)
  | conclude =>
    rw [hphase] at hphase'
    have hphase' : s'.phase = .conclude := hphase'
    rw [hstep, hstep']
    simp only [Vm.stepPhase, hphase, hphase']
    refine Or.inr (.level (h.stepConclude ?_))
    intro u updates hbuffered
    refine hg.2 u ?_
    simp [Vm.leftOver, hstack, hphase, hbuffered]

/-- Each step of the run is followed by a step of the run without the removed updates, or by none. -/
theorem follows_step (ho : Orderly removed s) (hg : TurnsAway cfg removed s .tick)
    (h : Follows removed s s') :
    Follows removed (s.step cfg) s' ∨ Follows removed (s.step cfg) (s'.step cfg) := by
  cases h with
  | ahead hphase hstack hcalm h => exact Or.inl (follows_ahead hphase hstack hcalm h)
  | done htail h => exact Or.inl (follows_done hg htail h)
  | level h =>
    cases hstack : s.stack with
    | nil => exact follows_stepPhase ho hg h hstack
    | cons f rest =>
      have hstack' : s'.stack = f :: rest := h.stack.trans hstack
      cases f with
      | code c code =>
        refine Or.inr (.level ?_)
        simp only [Vm.step, hstack, hstack']
        exact h.stepCode c rest code
      | dispatchSignals c k =>
        refine Or.inr (.level ?_)
        simp only [Vm.step, hstack, hstack']
        exact h.stepDispatchSignals c k rest
      | dispatchUpdates c k => exact follows_dispatchUpdates hg h hstack

/-! ## The start of the activation -/

theorem eraseJobs_filter (p : Job → Bool) (jobs : List Job) :
    (eraseJobs removed jobs).filter p = eraseJobs removed (jobs.filter p) := by
  simp only [eraseJobs, List.filter_filter, Bool.and_comm]

theorem isKept_of_not_isUpdate {job : Job} (h : job.isUpdate = false) :
    job.isKept removed = true := by
  cases job with
  | doUpdate u => cases h
  | _ => rfl

theorem eraseJobs_eq_self {jobs : List Job} (h : ∀ job ∈ jobs, job.isUpdate = false) :
    eraseJobs removed jobs = jobs :=
  List.filter_eq_self.2 fun job hjob => isKept_of_not_isUpdate (h job hjob)

variable {p : Job → Bool}

theorem any_eraseJobs (hp : ∀ job, p job = true → job.isUpdate = false)
    (jobs : List Job) : (eraseJobs removed jobs).any p = jobs.any p := by
  rw [eraseJobs, List.any_filter]
  refine congrArg (fun q => List.any jobs q) (funext fun job => ?_)
  cases h : p job with
  | true => simp [isKept_of_not_isUpdate (hp job h)]
  | false => simp

theorem filter_eraseJobs (hp : ∀ job, p job = true → job.isUpdate = false)
    (jobs : List Job) : (eraseJobs removed jobs).filter p = jobs.filter p := by
  rw [eraseJobs_filter]
  exact eraseJobs_eq_self fun job hjob => hp job (List.mem_filter.1 hjob).2

variable (job : Job)

theorem Job.isUpdate_of_isSignal (h : job.isSignal = true) : job.isUpdate = false := by
  cases job with
  | signalWorkflow sig => rfl
  | _ => cases h

theorem Job.isUpdate_of_isPatch (h : job.isPatch = true) : job.isUpdate = false := by
  cases job with
  | notifyHasPatch outcome => rfl
  | _ => cases h

theorem Job.isUpdate_of_isRandomSeed (h : job.isRandomSeed = true) :
    job.isUpdate = false := by
  cases job with
  | updateRandomSeed outcome => rfl
  | _ => cases h

theorem Job.isUpdate_of_isQuery (h : job.isQuery = true) : job.isUpdate = false := by
  cases job with
  | queryWorkflow queryId outcome => rfl
  | _ => cases h

theorem find_eraseJobs (hp : ∀ job, p job = true → job.isUpdate = false)
    (jobs : List Job) : (eraseJobs removed jobs).find? p = jobs.find? p := by
  induction jobs with
  | nil => rfl
  | cons job jobs ih =>
    cases hjob : job.isKept removed with
    | true =>
      rw [eraseJobs_kept hjob, List.find?_cons, List.find?_cons, ih]
    | false =>
      have hnot : p job = false := by
        cases h : p job with
        | false => rfl
        | true => simp [isKept_of_not_isUpdate (hp job h)] at hjob
      have herase : eraseJobs removed (job :: jobs) = eraseJobs removed jobs := by
        simp [eraseJobs, hjob]
      rw [herase, ih, List.find?_cons, hnot]

theorem prepare_eraseJobs (jobs : List Job) :
    Vm.prepare (eraseJobs removed jobs) = Vm.prepare jobs := by
  unfold Vm.prepare
  rw [filter_eraseJobs Job.isUpdate_of_isPatch, find_eraseJobs]
  intro job h
  cases job with
  | initializeWorkflow arguments outcome => rfl
  | _ => cases h

theorem seedError_without (a : WorkflowActivation) :
    Vm.seedError (a.without removed) = Vm.seedError a := by
  have hsignals : (eraseJobs removed a.jobs).any Job.isSignal = a.jobs.any Job.isSignal :=
    any_eraseJobs Job.isUpdate_of_isSignal _
  have hseeds : (eraseJobs removed a.jobs).filter Job.isRandomSeed =
      a.jobs.filter Job.isRandomSeed := filter_eraseJobs Job.isUpdate_of_isRandomSeed _
  simp only [Vm.seedError, WorkflowActivation.without, hsignals, hseeds]

/-- The first batch keeps its place, even when nothing of it is left. -/
theorem batchesOf_without (removed : List DoUpdate) (a : WorkflowActivation) :
    ∃ batch batches, Vm.batchesOf a = batch :: batches ∧ batches.length ≤ 1 ∧
      Vm.batchesOf (a.without removed) = eraseJobs removed batch :: eraseBatches removed batches := by
  have hsignals : (eraseJobs removed a.jobs).any Job.isSignal = a.jobs.any Job.isSignal :=
    any_eraseJobs Job.isUpdate_of_isSignal _
  simp only [Vm.batchesOf, WorkflowActivation.without, hsignals, eraseJobs_filter]
  by_cases hone : (a.singleBatch || !a.jobs.any Job.isSignal) = true
  · simp only [hone, if_true]
    exact ⟨_, [], rfl, by simp, rfl⟩
  · have hkept : eraseJobs removed ((a.jobs.filter fun job => !job.isPatch).filter Job.isSignal) =
        (a.jobs.filter fun job => !job.isPatch).filter Job.isSignal :=
      eraseJobs_eq_self fun job hjob =>
        Job.isUpdate_of_isSignal job (List.mem_filter.1 hjob).2
    simp only [if_neg hone, hkept, List.filter_cons, Vm.signals_isEmpty hone, List.filter_nil, Bool.not_false, if_true]
    refine ⟨_, _, rfl, ?_, ?_⟩
    · split <;> simp
    · rw [hkept]
      refine congrArg (fun batches => _ :: batches) ?_
      generalize (a.jobs.filter fun job => !job.isPatch).filter (fun job => !job.isSignal) = rest
      cases rest with
      | nil => rfl
      | cons job jobs => simp [eraseBatches, List.filter_cons]

variable {a : WorkflowActivation}

theorem startsFirst_batchesOf (h : StartsFirst a.jobs)
    (hbatch : batch ∈ Vm.batchesOf a) : StartsFirst batch := by
  refine List.Pairwise.sublist ?_ h
  unfold Vm.batchesOf at hbatch
  split at hbatch
  · rw [List.mem_singleton.1 hbatch]
    exact List.filter_sublist.trans List.filter_sublist
  · rcases List.mem_cons.1 (List.mem_filter.1 hbatch).1 with rfl | hrest
    · exact List.filter_sublist.trans List.filter_sublist
    · rw [List.mem_singleton.1 hrest]
      exact List.filter_sublist.trans List.filter_sublist

/-- The first job that an activation handles, `initializeWorkflow` apart. -/
def firstJob (a : WorkflowActivation) : Option Job :=
  match Vm.batchesOf a with
  | (.initializeWorkflow _ _ :: jobs) :: _ => jobs.head?
  | jobs :: _ => jobs.head?
  | [] => none

/-- The first job is not a removed update; or no error is recorded, and either the activation has
updates only or no blocked condition holds when it starts. -/
def StartsCalmly (removed : List DoUpdate) (s : Vm σ) (a : WorkflowActivation) : Prop :=
  (∀ u ∈ removed, firstJob a ≠ some (.doUpdate u)) ∨
  (s.workflowTaskError.isTruthy = false ∧
    ((∀ job ∈ a.jobs, job.isUpdate = true) ∨ ∀ b ∈ s.blockedConditions, b.fn s.heap a.info = false))

theorem head_of_batchPhase {batches : List (List Job)}
    {todo batch' : List Job} (hb : Vm.batchesOf a = batch :: batches)
    (hphase : batchPhase batch = .jobs todo start batch') : todo.head? = firstJob a := by
  unfold firstJob
  rw [hb]
  cases batch with
  | nil =>
    injection hphase with htodo
    rw [← htodo]
  | cons job jobs =>
    cases job <;> injection hphase with htodo <;> rw [← htodo]

theorem shadows_self (hphase : s.phase.erase removed = s.phase) (hbatches : s.batches = [])
    (hbuffered : ∀ u ∈ s.inbox.bufferedUpdates, u ∉ removed) : Shadows removed s s := by
  refine ⟨⟨s.commands, s.nextObject, s.trace⟩, ?_, rfl, rfl⟩
  have hkept : eraseUpdates removed s.inbox.bufferedUpdates = s.inbox.bufferedUpdates :=
    List.filter_eq_self.2 fun u hu => by simp [hbuffered u hu]
  simp only [Vm.shadow, hphase, hkept]
  have herase : eraseBatches removed s.batches = s.batches := by rw [hbatches]; rfl
  rw [herase]

theorem orderly_fail (removed : List DoUpdate) (t : Vm σ) (e : JsValue) :
    Orderly removed (t.fail e) := by
  have hplace := Vm.place_fail t e
  refine ⟨.fail t e, ?_, by simp [hplace.2], by simp [hplace.2], ?_⟩
  · intro todo hphase
    rw [hplace.1] at hphase
    cases hphase
  · intro todo start batch hphase
    rw [hplace.1] at hphase
    cases hphase

theorem follows_activate (hidle : s.phase = .idle) (hdrained : s.Drained)
    (hquery : a.jobs.any Job.isQuery = false) (hstart : StartsFirst a.jobs)
    (hbuffered : ∀ u ∈ s.inbox.bufferedUpdates, u ∉ removed) (hcalm : StartsCalmly removed s a) :
    Orderly removed (s.activate a) ∧
      Shadows removed (s.activate a) (s.activate (a.without removed)) := by
  rcases hdrained.idle hidle with ⟨hstack, _, hnone⟩
  have hquery' : (a.without removed).jobs.any Job.isQuery = false := by
    rw [← hquery]
    exact any_eraseJobs Job.isUpdate_of_isQuery _
  have hcheck : ((a.without removed).jobs.any fun job => !job.isUpdate) =
      a.jobs.any fun job => !job.isUpdate := by
    refine any_eraseJobs ?_ _
    intro job h
    simpa using h
  have hprepare : Vm.prepare (a.without removed).jobs = Vm.prepare a.jobs := prepare_eraseJobs _
  have hbegin : Shadows removed (s.begin a) (s.begin (a.without removed)) := by
    have heq : s.begin (a.without removed) = s.begin a := by
      simp only [Vm.begin, hcheck]
      rfl
    rw [heq]
    refine shadows_self ?_ hnone hbuffered
    have hphase : (s.begin a).phase = .idle := hidle
    rw [hphase]
    rfl
  rcases batchesOf_without removed a with ⟨batch, batches, hb, hlen, hb'⟩
  unfold Vm.activate
  simp only [hquery, hquery', hprepare, seedError_without, Bool.false_eq_true, if_false]
  cases Vm.prepare a.jobs with
  | some e => exact ⟨orderly_fail _ _ e, hbegin.fail e⟩
  | none =>
    cases Vm.seedError a with
    | some e => exact ⟨orderly_fail _ _ e, hbegin.fail e⟩
    | none =>
      have hcons : ({ s.begin a with batches := Vm.batchesOf a } : Vm σ).batches =
          batch :: batches := hb
      have hcons' : ({ s.begin (a.without removed) with
          batches := Vm.batchesOf (a.without removed) } : Vm σ).batches =
            eraseJobs removed batch :: eraseBatches removed batches := hb'
      have hfirst : StartsFirst batch := startsFirst_batchesOf hstart (by simp [hb])
      rw [nextBatch_cons hcons, nextBatch_cons hcons', batchPhase_eraseJobs hfirst]
      refine ⟨⟨?_, ?_, hlen, ?_, ?_⟩, ?_⟩
      · refine .of_busy ?_
        cases batch with
        | nil => trivial
        | cons job jobs => cases job <;> trivial
      · intro todo hphase
        cases batch with
        | nil => cases hphase
        | cons job jobs => cases job <;> cases hphase
      · intro batch' hbatch'
        exact startsFirst_batchesOf hstart (by simp [hb, hbatch'])
      · intro todo start batch' hphase
        refine ⟨hstack, ?_⟩
        have hhead := head_of_batchPhase hb hphase
        rcases hcalm with hkept | ⟨hfalsy, hsettled⟩
        · refine Or.inr ?_
          intro u hu hin
          exact hkept u hin (hhead ▸ hu)
        · refine Or.inl ⟨hfalsy, ?_⟩
          intro hc b hblocked
          rcases hsettled with hall | hfalse
          · have hc : (a.jobs.any fun job => !job.isUpdate) = true := hc
            rcases List.any_eq_true.1 hc with ⟨job, hjob, hnot⟩
            simp [hall job hjob] at hnot
          · exact hfalse b hblocked
      · rcases hbegin with ⟨g, heq, hg⟩
        rw [heq]
        exact ⟨g, rfl, hg⟩

end TemporalSdk.Activation
