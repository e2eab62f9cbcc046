import TemporalSdk.Activation.Steps

/-!
# Control — where an activation is

Code, dispatch loops, jobs and microtasks leave the phase of the activation, the batches that are left
and (updates apart) the buffered updates alone.  From this it follows what is known when an activation
checks its conditions for the last time and when it ends.
-/

namespace TemporalSdk.Activation

variable {σ : Type} {cfg : Config σ} {s t : Vm σ}

namespace Vm

/-! ## What code leaves alone -/

/-- Where the activation is, and which updates wait for a handler. -/
def control (s : Vm σ) : Phase × List (List Job) × List DoUpdate :=
  (s.phase, s.batches, s.inbox.bufferedUpdates)

theorem phase_of_control (h : t.control = s.control) : t.phase = s.phase := congrArg Prod.fst h

theorem batches_of_control (h : t.control = s.control) : t.batches = s.batches :=
  congrArg (fun c => c.2.1) h

theorem buffered_of_control (h : t.control = s.control) :
    t.inbox.bufferedUpdates = s.inbox.bufferedUpdates := congrArg (fun c => c.2.2) h

theorem control_signalWorkflow (cfg : Config σ) (s : Vm σ) (sig : SignalWorkflow) :
    (s.signalWorkflow cfg sig).1.control = s.control := by
  rcases signalWorkflow_any cfg s sig with ⟨n, e, heq, _⟩ | heq | ⟨code, heq⟩
  all_goals
    rw [heq]
    rfl

theorem control_doUpdateImpl (cfg : Config σ) (s : Vm σ) (u : DoUpdate) (entry : UpdateHandler σ) :
    (s.doUpdateImpl cfg u entry).control = s.control := by
  rcases doUpdateImpl_cases cfg s u entry with ⟨n, notes, _, _, hcases⟩
  rcases hcases with ⟨e, _, ⟨failure, _, heq⟩ | ⟨e', _, heq⟩⟩ | ⟨args, _, _, _, _, heq⟩
  all_goals
    rw [heq]
    rfl

theorem control_doUpdate (cfg : Config σ) (s : Vm σ) (u : DoUpdate) :
    (s.doUpdate cfg u).1.control = s.control ∨
      (s.updateEntry u.name = none ∧ (s.doUpdate cfg u).1.control = (s.bufferUpdate u).control) := by
  rcases doUpdate_any cfg s u with ⟨e, heq⟩ | ⟨hnone, heq⟩ | ⟨entry, _, heq⟩
  · rw [heq]
    exact Or.inl rfl
  · rw [heq]
    exact Or.inr ⟨hnone, rfl⟩
  · rw [heq]
    exact Or.inl (control_doUpdateImpl cfg s u entry)

theorem place_doUpdate (cfg : Config σ) (s : Vm σ) (u : DoUpdate) :
    (s.doUpdate cfg u).1.phase = s.phase ∧ (s.doUpdate cfg u).1.batches = s.batches := by
  rcases control_doUpdate cfg s u with heq | ⟨_, heq⟩
  · exact ⟨phase_of_control heq, batches_of_control heq⟩
  · exact ⟨(phase_of_control heq).trans rfl, (batches_of_control heq).trans rfl⟩

theorem control_stepCode (s : Vm σ) (c : Caller) (rest : List (Frame σ)) (code : Prog σ) :
    (s.stepCode c rest code).control = s.control := by
  cases code with
  | andThen p callback k =>
    simp only [stepCode, continueWith, Vm.andThen]
    split <;> rfl
  | settle o =>
    simp only [stepCode, settleCall]
    split <;> rfl
  | condition | setSignalHandler | unsetSignalHandler | setUpdateHandler | unsetUpdateHandler =>
    simp only [stepCode]
    split <;> rfl
  | _ => rfl

theorem control_stepDispatchSignals (cfg : Config σ) (s : Vm σ) (c : Caller)
    (k : Option JsValue → Prog σ) (rest : List (Frame σ)) :
    (s.stepDispatchSignals cfg c k rest).control = s.control := by
  unfold stepDispatchSignals
  cases nextBufferedSignal s.inbox with
  | none => rfl
  | some r =>
    have hcontrol := control_signalWorkflow cfg { s with inbox.bufferedSignals := r.2 } r.1
    dsimp only
    split
    all_goals
      rename_i hr
      rw [hr] at hcontrol
      exact hcontrol

theorem place_stepDispatchUpdates (cfg : Config σ) (s : Vm σ) (c : Caller)
    (k : Option JsValue → Prog σ) (rest : List (Frame σ)) :
    (s.stepDispatchUpdates cfg c k rest).phase = s.phase ∧
      (s.stepDispatchUpdates cfg c k rest).batches = s.batches := by
  unfold stepDispatchUpdates
  cases nextBufferedUpdate s.inbox with
  | none => exact ⟨rfl, rfl⟩
  | some r =>
    have hplace := place_doUpdate cfg { s with inbox.bufferedUpdates := r.2 } r.1
    dsimp only
    split
    all_goals
      rename_i hr
      rw [hr] at hplace
      exact hplace

theorem place_step {f : Frame σ} {rest : List (Frame σ)} (hstack : s.stack = f :: rest) :
    (s.step cfg).phase = s.phase ∧ (s.step cfg).batches = s.batches := by
  unfold step
  rw [hstack]
  cases f with
  | code c code =>
    have hcontrol := control_stepCode s c rest code
    exact ⟨phase_of_control hcontrol, batches_of_control hcontrol⟩
  | dispatchSignals c k =>
    have hcontrol := control_stepDispatchSignals cfg s c k rest
    exact ⟨phase_of_control hcontrol, batches_of_control hcontrol⟩
  | dispatchUpdates c k => exact place_stepDispatchUpdates cfg s c k rest

theorem control_runJob (cfg : Config σ) (s : Vm σ) {job : Job} (hjob : job.isUpdate = false) :
    (s.runJob cfg job).1.control = s.control := by
  cases job with
  | signalWorkflow sig => exact control_signalWorkflow cfg (s.note (.signalArrived sig)) sig
  | doUpdate u => cases hjob
  | cancelWorkflow => rfl
  | resolve completion =>
    cases completion <;> rfl
  | initializeWorkflow _ outcome | notifyHasPatch outcome | updateRandomSeed outcome =>
    cases outcome <;> rfl
  | queryWorkflow queryId outcome =>
    cases outcome with
    | ok handling =>
      simp only [runJob, queryWorkflow_eq]
      rfl
    | error e => rfl

theorem place_runJob (cfg : Config σ) (s : Vm σ) (job : Job) :
    (s.runJob cfg job).1.phase = s.phase ∧ (s.runJob cfg job).1.batches = s.batches := by
  cases hjob : job.isUpdate with
  | true =>
    cases job with
    | doUpdate u => exact place_doUpdate cfg (s.note (.updateArrived u)) u
    | _ => cases hjob
  | false =>
    have hcontrol := control_runJob cfg s hjob
    exact ⟨phase_of_control hcontrol, batches_of_control hcontrol⟩

theorem control_runMicrotask (cfg : Config σ) (s : Vm σ) (m : Microtask σ) :
    (s.runMicrotask cfg m).control = s.control := by
  have hfailure : ∀ c v, (s.handleWorkflowFailure cfg c v).control = s.control := by
    intro c v
    rcases handleWorkflowFailure_cases cfg s c v with ⟨command, heq, _⟩ | ⟨e, heq⟩ | ⟨_, heq⟩
    all_goals
      rw [heq]
      rfl
  cases m with
  | callback c code => rfl
  | respond queryId o =>
    rw [runMicrotask_respond]
    cases queryResponse cfg o <;> rfl
  | settled c o =>
    cases c with
    | workflow num =>
      cases o with
      | ok v =>
        simp only [runMicrotask, completeWorkflow]
        split <;> rfl
      | error v => exact hfailure _ v
    | signal num =>
      cases o with
      | ok v => rfl
      | error v => exact hfailure _ v
    | update num pid =>
      cases o with
      | ok v =>
        simp only [runMicrotask]
        split <;> rfl
      | error v => rfl
  | caught num pid v =>
    simp only [runMicrotask, rejectUpdate]
    split
    · cases cfg.errorToFailure v <;> rfl
    · exact hfailure _ v

/-! ## Conditions that are not unblocked -/

theorem unblockPass_zero : ∀ {bs : List (BlockedCondition σ)} {s : Vm σ},
    (unblockPass bs s).2 = 0 → (unblockPass bs s).1 = s := by
  intro bs
  induction bs with
  | nil =>
    intro s _
    rfl
  | cons b bs ih =>
    intro s hzero
    by_cases hb : b.fn s.heap s.info = true
    · simp [unblockPass, hb] at hzero
    · have hzero : (unblockPass bs s).2 = 0 := by simpa [unblockPass, hb] using hzero
      simpa [unblockPass, hb] using ih hzero

theorem tryUnblockConditions_zero (h : s.tryUnblockConditions = .ok (t, 0)) : t = s := by
  rw [tryUnblockConditions_eq] at h
  cases he : s.taskError with
  | some e => simp [he] at h
  | none =>
    by_cases hc : s.checkConditions = true
    · have hr : unblockPass s.blockedConditions s = (t, 0) := by simpa [he, hc] using h
      have hzero : (unblockPass s.blockedConditions s).1 = s := unblockPass_zero (by rw [hr])
      rw [hr] at hzero
      exact hzero
    · have hr : s = t := by simpa [he, hc] using h
      exact hr.symm

/-! ## Where the microtasks are drained -/

/-- Phases in which code or microtasks can be left. -/
def Busy : Phase → Prop
  | .idle | .outer | .conclude => False
  | _ => True

/-- Between activations every rejected promise has been reported.  The microtasks have run when the
outer loop checks the conditions, and when the activation is concluded; then no truthy error is
recorded either. -/
structure Drained (s : Vm σ) : Prop where
  idle : s.phase = .idle → s.stack = [] ∧ s.rejections = [] ∧ s.batches = []
  outer : s.phase = .outer → s.stack = [] ∧ s.microtasks = []
  conclude : s.phase = .conclude → s.stack = [] ∧ s.microtasks = [] ∧
    (s.query = false → s.workflowTaskError.isTruthy = false)

theorem Drained.of_busy (h : Busy s.phase) : s.Drained := by
  refine ⟨?_, ?_, ?_⟩
  all_goals
    intro hphase
    rw [hphase] at h
    exact absurd h id

theorem place_fail (s : Vm σ) (e : JsValue) : (s.fail e).phase = .idle ∧ (s.fail e).batches = [] := by
  unfold fail reportRejections
  split <;> exact ⟨rfl, rfl⟩

theorem place_succeed (s : Vm σ) : s.succeed.phase = .idle ∧ s.succeed.batches = [] := by
  unfold succeed complete reportRejections
  split
  · split <;> exact ⟨rfl, rfl⟩
  · split
    · split <;> exact ⟨rfl, rfl⟩
    · exact ⟨rfl, rfl⟩

theorem Drained.of_finished (hphase : s.phase = .idle) (hstack : s.stack = [])
    (hrejections : s.rejections = []) (hbatches : s.batches = []) : s.Drained := by
  refine ⟨fun _ => ⟨hstack, hrejections, hbatches⟩, ?_, ?_⟩
  · intro houter
    rw [hphase] at houter
    cases houter
  · intro hconclude
    rw [hphase] at hconclude
    cases hconclude

theorem Drained.fail (s : Vm σ) (e : JsValue) : (s.fail e).Drained := by
  unfold Vm.fail reportRejections
  split
  · rename_i hlast
    exact .of_finished rfl rfl (List.getLast?_eq_none_iff.1 hlast) rfl
  · exact .of_finished rfl rfl rfl rfl

theorem Drained.succeed (s : Vm σ) : s.succeed.Drained := by
  unfold Vm.succeed complete reportRejections
  split
  · split
    · rename_i hlast
      exact .of_finished rfl rfl (List.getLast?_eq_none_iff.1 hlast) rfl
    · exact .of_finished rfl rfl rfl rfl
  · split
    · rename_i hlast
      split <;> exact .of_finished rfl rfl (List.getLast?_eq_none_iff.1 hlast) rfl
    · exact .of_finished rfl rfl rfl rfl

theorem Drained.orFail_runJob (cfg : Config σ) {phase : Phase} (h : Busy phase) (s : Vm σ)
    (job : Job) : (orFail ((s.enter phase).runJob cfg job)).Drained := by
  unfold orFail
  cases ((s.enter phase).runJob cfg job).2 with
  | none =>
    refine .of_busy ?_
    rw [(place_runJob cfg _ job).1]
    exact h
  | some e => exact .fail _ e

theorem Drained.unblocking (s : Vm σ) {k : Vm σ → Nat → Vm σ}
    (hk : ∀ t n, s.tryUnblockConditions = .ok (t, n) → (k t n).Drained) :
    (s.unblocking k).Drained := by
  unfold Vm.unblocking
  cases hr : s.tryUnblockConditions with
  | error e => exact .fail s e
  | ok r => exact hk r.1 r.2 hr

theorem Drained.nextBatch (hstack : s.stack = []) (hmicrotasks : s.microtasks = [])
    (herror : s.query = false → s.workflowTaskError.isTruthy = false) : s.nextBatch.Drained := by
  unfold Vm.nextBatch
  split
  · refine ⟨?_, ?_, fun _ => ⟨hstack, hmicrotasks, herror⟩⟩
    all_goals
      intro hphase
      cases hphase
  · split <;> exact .of_busy trivial

theorem drained_stepPhase (h : s.Drained) (hstack : s.stack = []) : (s.stepPhase cfg).Drained := by
  unfold stepPhase
  split
  · exact h
  · exact .orFail_runJob cfg (by trivial) s _
  · exact .of_busy trivial
  · split
    · unfold orFail startWorkflow
      split
      · split <;> exact .of_busy trivial
      · exact .fail _ _
    · exact .fail _ _
  · exact .unblocking s fun t n _ => .of_busy trivial
  · exact .unblocking s fun t n _ => .of_busy trivial
  · rename_i hphase
    unfold stepMicrotasks
    split
    · refine .of_busy ?_
      rw [phase_of_control (control_runMicrotask cfg _ _)]
      simp [hphase, Busy]
    · rename_i hmicrotasks
      refine ⟨?_, fun _ => ⟨hstack, hmicrotasks⟩, ?_⟩
      · intro hidle
        cases hq : s.query with
        | true | false => simp [enter, hq] at hidle
      · intro hconclude
        refine ⟨hstack, hmicrotasks, ?_⟩
        intro hquery
        have hquery : s.query = false := hquery
        simp [enter, hquery] at hconclude
  · rename_i hphase
    refine .unblocking s ?_
    intro t n hr
    unfold afterOuter
    split
    · rename_i hzero
      have hsame : t = s := tryUnblockConditions_zero (hzero ▸ hr)
      rw [hsame]
      exact .nextBatch hstack (h.outer hphase).2 fun _ => taskError_of_tryUnblockConditions hr
    · exact .of_busy trivial
  · exact .orFail_runJob cfg (by trivial) s _
  · exact .of_busy trivial
  · rename_i hphase
    unfold stepConclude
    split
    · exact .succeed s
    · rename_i u updates _
      simp only [orFail, rejectUpdate]
      cases cfg.errorToFailure (noHandlerError u) with
      | error e => exact .fail _ _
      | ok failure => exact { h with }

theorem drained_step (h : s.Drained) : (s.step cfg).Drained := by
  cases hstack : s.stack with
  | nil =>
    have hstep : s.step cfg = s.stepPhase cfg := by simp [step, hstack]
    rw [hstep]
    exact drained_stepPhase h hstack
  | cons f rest =>
    have hphase : (s.step cfg).phase = s.phase := (place_step hstack).1
    refine ⟨?_, ?_, ?_⟩
    · intro hidle
      have hempty := (h.idle (hphase.symm.trans hidle)).1
      simp [hstack] at hempty
    · intro houter
      have hempty := (h.outer (hphase.symm.trans houter)).1
      simp [hstack] at hempty
    · intro hconclude
      have hempty := (h.conclude (hphase.symm.trans hconclude)).1
      simp [hstack] at hempty

/-- Where jobs are split, the batch of the signals has one. -/
theorem signals_isEmpty {a : WorkflowActivation} (hsplit : ¬ (a.singleBatch || !a.jobs.any Job.isSignal) = true) :
    ((a.jobs.filter fun job => !job.isPatch).filter Job.isSignal).isEmpty = false := by
  have hany : a.jobs.any Job.isSignal = true := by
    cases h : a.jobs.any Job.isSignal with
    | true => rfl
    | false => simp [h] at hsplit
  rcases List.any_eq_true.1 hany with ⟨job, hjob, hsignal⟩
  have hin : job ∈ (a.jobs.filter fun job => !job.isPatch).filter Job.isSignal := by
    cases job with
    | signalWorkflow sig => simp [hjob, Job.isPatch, Job.isSignal]
    | _ => cases hsignal
  exact List.isEmpty_eq_false_iff_exists_mem.2 ⟨job, hin⟩

theorem batchesOf_ne_nil (a : WorkflowActivation) : batchesOf a ≠ [] := by
  unfold batchesOf
  split
  · simp
  · rename_i hsplit
    simp only [List.filter_cons, signals_isEmpty hsplit]
    simp

theorem drained_activate (s : Vm σ) (a : WorkflowActivation) : (s.activate a).Drained := by
  unfold Vm.activate
  split
  · split
    · exact .of_busy trivial
    · exact .fail _ _
  · split
    · exact .fail _ _
    · exact .fail _ _
    · unfold Vm.nextBatch
      split
      · rename_i hnil
        exact absurd hnil (batchesOf_ne_nil a)
      · split <;> exact .of_busy trivial

theorem drained_next (s : Vm σ) (i : Input) (h : s.Drained) : (next cfg s i).Drained := by
  cases i with
  | tick => exact drained_step h
  | activate a =>
    simp only [next]
    split
    · exact drained_activate s a
    · exact h

theorem drained_init (heap : σ) : (Vm.init heap).Drained := .of_finished rfl rfl rfl rfl

end Vm
end TemporalSdk.Activation
