import TemporalSdk.Activation.Steps
import TemporalSdk.Machine.Run

/-!
# Past — the machine does not read its history

`s.withPast past` is `s` with a longer history.  Every operation only appends to the history, so that
it commutes with `withPast`, and so does a whole run.  Two states that differ in their history alone
therefore go on in the same way, and a step leaves what has happened before it.
-/

namespace TemporalSdk.Activation

open Machine

variable {σ : Type} {cfg : Config σ}

namespace Vm

/-- `past` happened before the history of `s`. -/
def withPast (past : List Note) (s : Vm σ) : Vm σ := { s with trace := past ++ s.trace }

variable (past : List Note) (s : Vm σ)

theorem withPast_forget : ({ s with trace := [] } : Vm σ).withPast s.trace = s := by
  simp [withPast]

/-! ## Primitive updates -/

@[simp] theorem note_withPast (n : Note) :
    (s.withPast past).note n = (s.note n).withPast past := by
  simp [note, withPast]

@[simp] theorem pushCommand_withPast (origin : Origin) (c : Command) :
    (s.withPast past).pushCommand origin c = (s.pushCommand origin c).withPast past := by
  simp [pushCommand, withPast]

theorem inbox_withPast : (s.withPast past).inbox = s.inbox := rfl

@[simp] theorem settlePromise_withPast (p : PromiseId) (o : Outcome) :
    (s.withPast past).settlePromise p o = (s.settlePromise p o).withPast past := by
  simp [settlePromise, withPast]

@[simp] theorem andThen_withPast (p : PromiseId) (c : Caller) (callback : Outcome → Prog σ) :
    (s.withPast past).andThen p c callback = (s.andThen p c callback).withPast past := by
  unfold andThen
  have hpromises : (s.withPast past).promises = s.promises := rfl
  rw [hpromises]
  cases (s.promises p).outcome <;> rfl

@[simp] theorem settleCall_withPast (c : Caller) (o : Outcome) :
    (s.withPast past).settleCall c o = (s.settleCall c o).withPast past := by
  unfold settleCall
  have hcalls : (s.withPast past).settledCalls = s.settledCalls := rfl
  rw [hcalls]
  split
  · rfl
  · simp [withPast]

@[simp] theorem continueWith_withPast (c : Caller) (code : Prog σ) (rest : List (Frame σ)) :
    (s.withPast past).continueWith c code rest = (s.continueWith c code rest).withPast past := rfl

@[simp] theorem enter_withPast (phase : Phase) :
    (s.withPast past).enter phase = (s.enter phase).withPast past := rfl

@[simp] theorem finish_withPast (c : Completion) :
    (s.withPast past).finish c = (s.finish c).withPast past := by
  simp [finish, withPast]

@[simp] theorem reportRejections_withPast :
    (s.withPast past).reportRejections = s.reportRejections.withPast past := by
  unfold reportRejections
  have hrejections : (s.withPast past).rejections = s.rejections := rfl
  rw [hrejections]
  cases s.rejections.getLast? <;> rfl

@[simp] theorem fail_withPast (e : JsValue) :
    (s.withPast past).fail e = (s.fail e).withPast past := by
  unfold fail
  rw [finish_withPast, reportRejections_withPast]
  rfl

@[simp] theorem succeed_withPast : (s.withPast past).succeed = s.succeed.withPast past := by
  have hcomplete : ∀ (t : Vm σ) commands,
      (t.withPast past).complete commands = (t.complete commands).withPast past := by
    intro t commands
    unfold complete
    have hunhandled : (t.withPast past).unhandledRejection = t.unhandledRejection := rfl
    rw [hunhandled]
    split <;> exact finish_withPast past t _
  have hsplice : (s.withPast past).spliceCommands = s.spliceCommands.withPast past := rfl
  have hquery : (s.withPast past).query = s.query := rfl
  have hcommands : (s.withPast past).commands = s.commands := rfl
  unfold succeed
  rw [hsplice, hquery, hcommands]
  split
  · rw [finish_withPast, reportRejections_withPast]
  · rw [reportRejections_withPast, hcomplete]

/-! ## Results that may throw -/

/-- A result with a longer history. -/
def withPastResult (past : List Note) {α : Type} (r : Vm σ × α) : Vm σ × α :=
  (r.1.withPast past, r.2)

@[simp] theorem orFail_withPast (r : Vm σ × Option JsValue) :
    orFail (withPastResult past r) = (orFail r).withPast past := by
  rcases r with ⟨t, e⟩
  cases e with
  | none => rfl
  | some e => exact fail_withPast past t e

theorem rejectUpdate_withPast (cfg : Config σ) (origin : Origin) (pid : String) (error : JsValue) :
    (s.withPast past).rejectUpdate cfg origin pid error =
      withPastResult past (s.rejectUpdate cfg origin pid error) := by
  unfold rejectUpdate
  cases cfg.errorToFailure error with
  | ok failure => simp [withPastResult]
  | error e => rfl

theorem signalWorkflow_withPast (cfg : Config σ) (sig : SignalWorkflow) :
    (s.withPast past).signalWorkflow cfg sig = withPastResult past (s.signalWorkflow cfg sig) := by
  unfold signalWorkflow
  have hfunction : (s.withPast past).signalFunction sig.signalName =
      s.signalFunction sig.signalName := rfl
  rw [hfunction, inbox_withPast]
  split
  · rfl
  · split
    · rfl
    · cases s.signalFunction sig.signalName with
      | none => rfl
      | some handler =>
        cases cfg.arrayFromPayloads sig.input with
        | error e => rfl
        | ok args => simp [withPastResult, note, call, withPast]

theorem makeInput_withPast (cfg : Config σ) (u : DoUpdate) :
    (s.withPast past).makeInput cfg u = withPastResult past (s.makeInput cfg u) := by
  unfold makeInput
  cases cfg.arrayFromPayloads u.input <;> rfl

theorem validate_withPast (cfg : Config σ) (u : DoUpdate) (entry : UpdateHandler σ) :
    (s.withPast past).validate cfg u entry = withPastResult past (s.validate cfg u entry) := by
  unfold validate
  cases validatorFor u entry with
  | none => exact makeInput_withPast past s cfg u
  | some validator =>
    have hheap : (s.withPast past).heap = s.heap := rfl
    have hinfo : (s.withPast past).info = s.info := rfl
    have hobject : (s.withPast past).nextObject = s.nextObject := rfl
    simp only [makeInput_withPast, hheap, hinfo, hobject]
    rcases s.makeInput cfg u with ⟨t, args⟩
    cases args with
    | error e => rfl
    | ok args =>
      simp only [withPastResult]
      cases validator s.heap s.info args with
      | error e => simp
      | ok _ =>
        simp only [note_withPast, makeInput_withPast]
        rfl

theorem doUpdateImpl_withPast (cfg : Config σ) (u : DoUpdate) (entry : UpdateHandler σ) :
    (s.withPast past).doUpdateImpl cfg u entry = (s.doUpdateImpl cfg u entry).withPast past := by
  unfold doUpdateImpl
  rw [validate_withPast]
  rcases s.validate cfg u entry with ⟨t, args⟩
  cases args with
  | error e =>
    simp only [withPastResult, rejectUpdate_withPast]
    rcases t.rejectUpdate cfg (.update u) u.protocolInstanceId e with ⟨t', e'⟩
    cases e' <;> rfl
  | ok args => simp [withPastResult, acceptUpdate, pushCommand, note, call, withPast]

theorem doUpdate_withPast (cfg : Config σ) (u : DoUpdate) :
    (s.withPast past).doUpdate cfg u = withPastResult past (s.doUpdate cfg u) := by
  unfold doUpdate
  have hentry : (s.withPast past).updateEntry u.name = s.updateEntry u.name := rfl
  rw [hentry, inbox_withPast]
  split
  · rfl
  · split
    · rfl
    · split
      · rfl
      · split
        · rfl
        · cases s.updateEntry u.name with
          | none => rfl
          | some entry => simp only [withPastResult, doUpdateImpl_withPast]

/-! ## Frames -/

theorem stepCode_withPast (c : Caller) (rest : List (Frame σ)) (code : Prog σ) :
    (s.withPast past).stepCode c rest code = (s.stepCode c rest code).withPast past := by
  cases code with
  | pause => rfl
  | settle o => exact settleCall_withPast past { s with stack := rest } c o
  | command | andThen | settlePromise => simp [stepCode]
  | condition fn p k =>
    simp only [stepCode]
    have hsettle := settlePromise_withPast past { s with nextCondition := s.nextCondition + 1 } p
      (.ok .undefined)
    by_cases hfn : fn s.heap s.info = true
    · have hfn' : fn (s.withPast past).heap (s.withPast past).info = true := hfn
      rw [if_pos hfn', if_pos hfn]
      exact congrArg (fun t => continueWith t c (k s.nextCondition) rest) hsettle
    · have hfn' : ¬ fn (s.withPast past).heap (s.withPast past).info = true := hfn
      rw [if_neg hfn', if_neg hfn]
      rfl
  | setSignalHandler name | unsetSignalHandler name =>
    simp only [stepCode]
    cases throwIfReservedName .signal name <;> rfl
  | setUpdateHandler name | unsetUpdateHandler name =>
    simp only [stepCode]
    cases throwIfReservedName .update name <;> rfl
  | _ => rfl

theorem withInbox_withPast (inbox : Inbox σ) :
    ({ s.withPast past with inbox := inbox } : Vm σ) = ({ s with inbox := inbox } : Vm σ).withPast past := rfl

theorem stepDispatchSignals_withPast (c : Caller) (k : Option JsValue → Prog σ)
    (rest : List (Frame σ)) :
    (s.withPast past).stepDispatchSignals cfg c k rest =
      (s.stepDispatchSignals cfg c k rest).withPast past := by
  unfold stepDispatchSignals
  rw [inbox_withPast]
  cases nextBufferedSignal s.inbox with
  | none => rfl
  | some r =>
    rcases r with ⟨sig, remaining⟩
    simp only [withInbox_withPast, signalWorkflow_withPast]
    rcases ({ s with inbox.bufferedSignals := remaining } : Vm σ).signalWorkflow cfg sig with ⟨t, e⟩
    cases e <;> rfl

theorem stepDispatchUpdates_withPast (c : Caller) (k : Option JsValue → Prog σ)
    (rest : List (Frame σ)) :
    (s.withPast past).stepDispatchUpdates cfg c k rest =
      (s.stepDispatchUpdates cfg c k rest).withPast past := by
  unfold stepDispatchUpdates
  rw [inbox_withPast]
  cases nextBufferedUpdate s.inbox with
  | none => rfl
  | some r =>
    rcases r with ⟨u, remaining⟩
    simp only [withInbox_withPast, doUpdate_withPast]
    rcases ({ s with inbox.bufferedUpdates := remaining } : Vm σ).doUpdate cfg u with ⟨t, e⟩
    cases e <;> rfl

/-! ## Conditions -/

theorem unblock_withPast (b : BlockedCondition σ) :
    (s.withPast past).unblock b = (s.unblock b).withPast past := by
  simp [unblock, note, settlePromise, withPast]

theorem unblockPass_withPast : ∀ (bs : List (BlockedCondition σ)) (s : Vm σ),
    unblockPass bs (s.withPast past) = withPastResult past (unblockPass bs s) := by
  intro bs
  induction bs with
  | nil =>
    intro s
    rfl
  | cons b bs ih =>
    intro s
    by_cases hb : b.fn s.heap s.info = true
    · have hb' : b.fn (s.withPast past).heap (s.withPast past).info = true := hb
      simp only [unblockPass, if_pos hb, if_pos hb', unblock_withPast, ih]
      rfl
    · have hb' : ¬ b.fn (s.withPast past).heap (s.withPast past).info = true := hb
      simp only [unblockPass, if_neg hb, if_neg hb', ih]

theorem tryUnblockConditions_withPast :
    (s.withPast past).tryUnblockConditions =
      s.tryUnblockConditions.map (withPastResult past) := by
  have herror : (s.withPast past).taskError = s.taskError := rfl
  have hcheck : (s.withPast past).checkConditions = s.checkConditions := rfl
  have hblocked : (s.withPast past).blockedConditions = s.blockedConditions := rfl
  rw [tryUnblockConditions_eq, tryUnblockConditions_eq, herror, hcheck, hblocked,
    unblockPass_withPast]
  cases s.taskError with
  | some e => rfl
  | none => cases s.checkConditions <;> rfl

theorem unblocking_withPast {k : Vm σ → Nat → Vm σ}
    (hk : ∀ t n, k (t.withPast past) n = (k t n).withPast past) :
    (s.withPast past).unblocking k = (s.unblocking k).withPast past := by
  unfold unblocking
  rw [tryUnblockConditions_withPast]
  cases s.tryUnblockConditions with
  | error e => exact fail_withPast past s e
  | ok r => exact hk r.1 r.2

/-! ## Jobs and microtasks -/

theorem nextBatch_withPast : (s.withPast past).nextBatch = s.nextBatch.withPast past := by
  unfold nextBatch
  have hbatches : (s.withPast past).batches = s.batches := rfl
  rw [hbatches]
  split
  · rfl
  · split <;> rfl

theorem handleWorkflowFailure_withPast (cfg : Config σ) (c : Caller) (error : JsValue) :
    (s.withPast past).handleWorkflowFailure cfg c error =
      (s.handleWorkflowFailure cfg c error).withPast past := by
  unfold handleWorkflowFailure
  have hcancelled : (s.withPast past).cancelled = s.cancelled := rfl
  rw [hcancelled]
  cases failureAction cfg.failureTypes s.cancelled error with
  | cancelWorkflow | continueAsNew => exact pushCommand_withPast past s _ _
  | failWorkflow =>
    cases cfg.errorToFailure error with
    | ok failure => exact pushCommand_withPast past s _ _
    | error e => rfl
  | recordTaskError =>
    simp only [recordWorkflowTaskError, withPast, List.append_assoc]
    rfl

theorem runMicrotask_withPast (cfg : Config σ) (m : Microtask σ) :
    (s.withPast past).runMicrotask cfg m = (s.runMicrotask cfg m).withPast past := by
  cases m with
  | callback c code => rfl
  | respond queryId o =>
    rw [runMicrotask_respond, runMicrotask_respond]
    cases queryResponse cfg o with
    | ok response => exact pushCommand_withPast past s _ _
    | error e => rfl
  | settled c o =>
    cases c with
    | workflow num =>
      cases o with
      | ok v =>
        simp only [runMicrotask, completeWorkflow]
        cases cfg.toPayload v with
        | ok payload => exact pushCommand_withPast past s _ _
        | error e => rfl
      | error v => exact handleWorkflowFailure_withPast past s cfg _ v
    | signal num =>
      cases o with
      | ok v => rfl
      | error v => exact handleWorkflowFailure_withPast past s cfg _ v
    | update num pid =>
      cases o with
      | ok v =>
        simp only [runMicrotask]
        cases cfg.toPayload v with
        | ok payload => exact pushCommand_withPast past s _ _
        | error e => rfl
      | error v => rfl
  | caught num pid v =>
    simp only [runMicrotask]
    split
    · rw [rejectUpdate_withPast]
      rcases s.rejectUpdate cfg (.thrown (.update num pid) v) pid v with ⟨t, e⟩
      cases e <;> rfl
    · exact handleWorkflowFailure_withPast past s cfg _ v

theorem runJob_withPast (cfg : Config σ) (job : Job) :
    (s.withPast past).runJob cfg job = withPastResult past (s.runJob cfg job) := by
  cases job with
  | initializeWorkflow _ outcome | notifyHasPatch outcome | updateRandomSeed outcome =>
    cases outcome <;> rfl
  | signalWorkflow sig =>
    simp only [runJob, note_withPast]
    exact signalWorkflow_withPast past _ cfg sig
  | doUpdate u =>
    simp only [runJob, note_withPast]
    exact doUpdate_withPast past _ cfg u
  | cancelWorkflow =>
    have hsettle := settlePromise_withPast past { s with cancelled := true } rootScope
      (.error .cancelledFailure)
    exact congrArg (fun t => (t, (none : Option JsValue))) hsettle
  | resolve completion =>
    cases completion with
    | ok r =>
      have hsettle := settlePromise_withPast past s r.1 r.2
      exact congrArg (fun t => (t, (none : Option JsValue))) hsettle
    | error e => rfl
  | queryWorkflow queryId outcome =>
    cases outcome with
    | ok handling =>
      simp only [runJob, queryWorkflow_eq]
      rfl
    | error e => rfl

/-! ## Steps and runs -/

theorem stepConclude_withPast (cfg : Config σ) :
    (s.withPast past).stepConclude cfg = (s.stepConclude cfg).withPast past := by
  unfold stepConclude
  rw [inbox_withPast]
  cases s.inbox.bufferedUpdates with
  | nil => exact succeed_withPast past s
  | cons u updates =>
    have hreject := rejectUpdate_withPast past
      { s with inbox.bufferedUpdates := updates } cfg (.update u)
      u.protocolInstanceId (noHandlerError u)
    exact (congrArg orFail hreject).trans (orFail_withPast past _)

theorem stepPhase_withPast (cfg : Config σ) :
    (s.withPast past).stepPhase cfg = (s.stepPhase cfg).withPast past := by
  have hjob : ∀ phase job, orFail (((s.withPast past).enter phase).runJob cfg job) =
      (orFail ((s.enter phase).runJob cfg job)).withPast past := by
    intro phase job
    rw [enter_withPast, runJob_withPast, orFail_withPast]
  unfold stepPhase
  have hphase : (s.withPast past).phase = s.phase := rfl
  rw [hphase]
  split
  · rfl
  · exact hjob _ _
  · rfl
  · split
    · unfold startWorkflow
      split
      · rfl
      · exact fail_withPast past (s.enter .started) _
    · exact fail_withPast past s _
  · exact unblocking_withPast past s fun t n => rfl
  · exact unblocking_withPast past s fun t n => rfl
  · unfold stepMicrotasks
    have hmicrotasks : (s.withPast past).microtasks = s.microtasks := rfl
    rw [hmicrotasks]
    cases s.microtasks with
    | nil => rfl
    | cons m microtasks => exact runMicrotask_withPast past { s with microtasks := microtasks } cfg m
  · refine unblocking_withPast past s ?_
    intro t n
    unfold afterOuter
    split
    · exact nextBatch_withPast past t
    · rfl
  · exact hjob _ _
  · rfl
  · exact stepConclude_withPast past s cfg

theorem step_withPast (cfg : Config σ) :
    (s.withPast past).step cfg = (s.step cfg).withPast past := by
  unfold step
  have hstack : (s.withPast past).stack = s.stack := rfl
  rw [hstack]
  cases s.stack with
  | nil => exact stepPhase_withPast past s cfg
  | cons f rest =>
    cases f with
    | code c code => exact stepCode_withPast past s c rest code
    | dispatchSignals c k => exact stepDispatchSignals_withPast past s c k rest
    | dispatchUpdates c k => exact stepDispatchUpdates_withPast past s c k rest

theorem activate_withPast (a : WorkflowActivation) :
    (s.withPast past).activate a = (s.activate a).withPast past := by
  have hbegin : (s.withPast past).begin a = (s.begin a).withPast past := by
    simp [begin, withPast]
  unfold activate
  split
  · split
    · simp [beginQueries, withPast]
    · have hnote := note_withPast past { s with query := false } (.activated true)
      exact (congrArg (fun t => fail t mixedQueriesError) hnote).trans (fail_withPast past _ _)
  · rw [hbegin]
    split
    · exact fail_withPast past (s.begin a) _
    · exact fail_withPast past (s.begin a) _
    · exact nextBatch_withPast past { s.begin a with batches := batchesOf a }

theorem trace_step (cfg : Config σ) (s : Vm σ) : ∃ notes, (s.step cfg).trace = s.trace ++ notes := by
  have hstep := step_withPast s.trace { s with trace := [] } cfg
  rw [withPast_forget] at hstep
  rw [hstep]
  exact ⟨_, rfl⟩

theorem trace_activate (s : Vm σ) (a : WorkflowActivation) :
    ∃ notes, (s.activate a).trace = s.trace ++ notes := by
  have hactivate := activate_withPast s.trace { s with trace := [] } a
  rw [withPast_forget] at hactivate
  rw [hactivate]
  exact ⟨_, rfl⟩

theorem ticks_withPast (cfg : Config σ) (n : Nat) : ∀ s : Vm σ,
    run (next cfg) (s.withPast past) (List.replicate n .tick) =
      (run (next cfg) s (List.replicate n .tick)).withPast past := by
  induction n with
  | zero =>
    intro s
    rfl
  | succ n ih =>
    intro s
    have htick : next cfg (s.withPast past) .tick = (next cfg s .tick).withPast past :=
      step_withPast past s cfg
    rw [List.replicate_succ, run_cons, run_cons, htick, ih]

end Vm
end TemporalSdk.Activation
