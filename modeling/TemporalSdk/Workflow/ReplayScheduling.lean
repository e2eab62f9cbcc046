import TemporalSdk.Machine.Run
import TemporalSdk.Workflow.Closure

/-!
# ReplayScheduling — scheduling live and in replay

The live run and the replay of one program differ in `info.unsafe.isReplaying`.  The only handler
that reads it is the one for local activities, which refuses, live, a type that the worker cannot
run.  Away from that refusal every call, job and microtask commutes with the switch to replay, so
the two runs stay in lockstep, whatever the program does with what it has seen.
-/

namespace TemporalSdk.Workflow

open Machine

namespace Activator

/-- The same activator with `info.unsafe.isReplaying` set, on a worker with other activities. -/
def replaying (a : Activator) (names : List String) : Activator :=
  { a with isReplaying := true, registeredActivityNames := names }

variable {names : List String}

/-! ## The elementary updates do not read `isReplaying` -/

section Elementary

variable (a : Activator)

@[simp] theorem replaying_log (e : Entry) : (a.replaying names).log e = (a.log e).replaying names := rfl

@[simp] theorem replaying_enqueue (m : Microtask) :
    (a.replaying names).enqueue m = (a.enqueue m).replaying names := rfl

@[simp] theorem replaying_pushCommand (c : Command) :
    (a.replaying names).pushCommand c = (a.pushCommand c).replaying names := rfl

@[simp] theorem replaying_bumpSeq (n : SeqKind) :
    (a.replaying names).bumpSeq n = (a.bumpSeq n).replaying names := rfl

@[simp] theorem replaying_setCompletion (k : CompletionKind) (s : Seq) (w : Awaiter) :
    (a.replaying names).setCompletion k s w = (a.setCompletion k s w).replaying names := rfl

@[simp] theorem replaying_deleteCompletion (k : CompletionKind) (s : Seq) :
    (a.replaying names).deleteCompletion k s = (a.deleteCompletion k s).replaying names := rfl

@[simp] theorem replaying_nextSeqs : (a.replaying names).nextSeqs = a.nextSeqs := rfl

@[simp] theorem replaying_scopes : (a.replaying names).scopes = a.scopes := rfl

@[simp] theorem replaying_completions : (a.replaying names).completions = a.completions := rfl

@[simp] theorem replaying_shielded : (a.replaying names).shielded = a.shielded := rfl

@[simp] theorem replaying_microtasks : (a.replaying names).microtasks = a.microtasks := rfl

@[simp] theorem replaying_history : (a.replaying names).history = a.history := rfl

@[simp] theorem replaying_namespaceName : (a.replaying names).namespaceName = a.namespaceName := rfl

@[simp] theorem replaying_externalCancelPatched :
    (a.replaying names).externalCancelPatched = a.externalCancelPatched := rfl

theorem replaying_ite (c : Prop) [Decidable c] (x y : Activator) :
    (if c then x.replaying names else y.replaying names) = (if c then x else y).replaying names := by
  split <;> rfl

@[simp] theorem replaying_settle (k : CompletionKind) (s : Seq) (w : Awaiter) (o : Settlement) :
    (a.replaying names).settle k s w o = (a.settle k s w o).replaying names := by
  unfold settle
  split <;> rfl

@[simp] theorem replaying_catchCancel (s : ScopeId) (m : Microtask) :
    (a.replaying names).catchCancel s m = (a.catchCancel s m).replaying names := by
  unfold catchCancel
  simp only [replaying_scopes]
  cases a.scopes[s]? with
  | none => rfl
  | some scope =>
    simp only
    split <;> rfl

@[simp] theorem replaying_rejectScope (s : ScopeId) :
    (a.replaying names).rejectScope s = (a.rejectScope s).replaying names := by
  unfold rejectScope
  simp only [replaying_scopes]
  cases a.scopes[s]? with
  | none => rfl
  | some scope =>
    simp only
    split <;> rfl

@[simp] theorem replaying_newScope (p : ScopeId) (c : Bool) :
    (a.replaying names).newScope p c = (a.newScope p c).replaying names := by
  have grown : ∀ (scopes : List Scope) (m : Microtask),
      { a.replaying names with scopes := scopes }.catchCancel p m =
        ({ a with scopes := scopes }.catchCancel p m).replaying names := by
    intro scopes m
    exact replaying_catchCancel { a with scopes := scopes } p m
  unfold newScope
  simp only [replaying_scopes, replaying_shielded]
  cases a.scopes[p]? with
  | none => rfl
  | some parent =>
    by_cases hp : (parent.cancellable || parent.cancelRequested && !a.shielded) = true
    · simp only [hp, if_true]
      exact grown _ _
    · simp only [hp]
      exact grown _ _

end Elementary

/-! ## Calls -/

section Calls

variable (a : Activator)

@[simp] theorem replaying_scheduleIn (scope : ScopeId) (listener : CancelKind)
    (kind : CompletionKind) (seq : Seq) (w : Awaiter) (command : Except JsError Command) :
    (a.replaying names).scheduleIn scope listener kind seq w command =
      (a.scheduleIn scope listener kind seq w command).replaying names := by
  unfold scheduleIn
  simp only [replaying_scopes]
  cases a.scopes[scope]? with
  | none => rfl
  | some s =>
    simp only [replaying_catchCancel]
    split
    · rfl
    · cases s.cancellable <;> cases command <;> simp

@[simp] theorem replaying_sleep (scope : ScopeId) (ms : Duration) (summary : Except JsError Unit)
    (w : Awaiter) : (a.replaying names).sleep scope ms summary w = (a.sleep scope ms summary w).replaying names := by
  unfold sleep
  cases msToNumber ms with
  | error e => rfl
  | ok n => simp [timerNextHandler]

@[simp] theorem replaying_setTimeout (scope : ScopeId) (ms : Option Int) :
    (a.replaying names).setTimeout scope ms = (a.setTimeout scope ms).replaying names := by
  unfold setTimeout
  by_cases hs : a.shielded = true
  · simp [timerNextHandler, hs]
  · simp only [replaying_shielded, hs]
    cases msNumberToTs (atLeastOne ms) with
    | error | ok => simp

@[simp] theorem replaying_clearTimeout (handle : Seq) (target : ClearTarget) :
    (a.replaying names).clearTimeout handle target = (a.clearTimeout handle target).replaying names := by
  cases target with
  | own scope => simp [clearTimeout]
  | foreign => rfl
  | missing => rfl

@[simp] theorem replaying_scheduleActivity (scope : ScopeId) (input : Option ActivityInput) :
    (a.replaying names).scheduleActivity scope input = (a.scheduleActivity scope input).replaying names := by
  cases input with
  | none => rfl
  | some input =>
    simp only [scheduleActivity, scheduleActivityNextHandler, replaying_nextSeqs,
      replaying_bumpSeq]
    split
    · rfl
    · simp

theorem replaying_localActivityAttempt (scope : ScopeId) (input : LocalActivityInput)
    (h : a.canRunLocally input.activityType = true) :
    (a.replaying names).localActivityAttempt scope input =
      (a.localActivityAttempt scope input).replaying names := by
  have hlive : (a.bumpSeq .activity).canRunLocally input.activityType = true := h
  have hreplay : ((a.bumpSeq .activity).replaying names).isReplaying = true := rfl
  simp only [localActivityAttempt, scheduleLocalActivityNextHandler, replaying_nextSeqs,
    replaying_bumpSeq, hlive, hreplay, Bool.not_true, Bool.and_false, Bool.false_and,
    Bool.false_eq_true, if_false]
  split <;> simp

@[simp] theorem replaying_localActivityBackoff (scope : ScopeId) (input : LocalActivityInput)
    (b : Backoff) :
    (a.replaying names).localActivityBackoff scope input b =
      (a.localActivityBackoff scope input b).replaying names := by
  unfold localActivityBackoff
  split
  · rfl
  · simp

@[simp] theorem replaying_startChild (scope : ScopeId) (input : ChildWorkflowInput) :
    (a.replaying names).startChild scope input = (a.startChild scope input).replaying names := by
  simp [startChild, startChildWorkflowExecutionNextHandler]

@[simp] theorem replaying_signalWorkflow (scope : ScopeId) (input : SignalInput) :
    (a.replaying names).signalWorkflow scope input = (a.signalWorkflow scope input).replaying names := by
  simp [signalWorkflow, signalWorkflowNextHandler]

@[simp] theorem replaying_startNexusOperation (scope : ScopeId) (input : NexusInput) :
    (a.replaying names).startNexusOperation scope input =
      (a.startNexusOperation scope input).replaying names := by
  simp only [startNexusOperation, startNexusOperationNextHandler, replaying_nextSeqs,
    replaying_bumpSeq]
  split
  · rfl
  · simp

@[simp] theorem replaying_cancelExternal (scope : ScopeId) (input : ExternalCancelInput) :
    (a.replaying names).cancelExternal scope input = (a.cancelExternal scope input).replaying names := by
  unfold cancelExternal
  simp only [replaying_scopes]
  cases a.scopes[scope]? with
  | none => rfl
  | some s =>
    have hb : (if s.cancellable = true then
        (a.replaying names).catchCancel scope .externalCancelRejected else a.replaying names) =
        (if s.cancellable = true then
          a.catchCancel scope .externalCancelRejected else a).replaying names := by
      split
      · simp
      · rfl
    simp only [hb]
    generalize (if s.cancellable = true then
      a.catchCancel scope .externalCancelRejected else a) = b
    by_cases hc : (s.consideredCancelled && b.externalCancelPatched) = true
    · simp [hc]
    · simp only [replaying_externalCancelPatched, hc]
      cases input.eventGroups with
      | error e => simp
      | ok _ => rfl

end Calls

/-! ## Job handlers -/

/-- What a handler leaves behind, replaying. -/
def Handled.replaying (r : Handled) (names : List String) : Handled :=
  (Activator.replaying r.1 names, r.2)

section Jobs

variable (a : Activator)

@[simp] theorem replaying_done : (a.replaying names).done = Handled.replaying a.done names := rfl

@[simp] theorem replaying_throwing (e : JsError) :
    (a.replaying names).throwing e = Handled.replaying (a.throwing e) names := rfl

theorem replaying_withSeq (seq : Option Seq) {f g : Seq → Handled}
    (hf : ∀ s, f s = Handled.replaying (g s) names) :
    (a.replaying names).withSeq seq f = Handled.replaying (a.withSeq seq g) names := by
  cases seq with
  | none => rfl
  | some s => exact hf s

theorem replaying_consumeCompletion (k : CompletionKind) (s : Seq)
    {f : Activator → Awaiter → Handled}
    (hf : ∀ b w, f (Activator.replaying b names) w = Handled.replaying (f b w) names) :
    (a.replaying names).consumeCompletion k s f = Handled.replaying (a.consumeCompletion k s f) names := by
  unfold consumeCompletion
  simp only [replaying_completions]
  cases a.completions k s with
  | none => rfl
  | some w => exact hf (a.deleteCompletion k s) w

@[simp] theorem replaying_resolveWith (k : CompletionKind) (s : Seq) (w : Awaiter)
    (r : Except JsError Unit) :
    (a.replaying names).resolveWith k s w r = Handled.replaying (a.resolveWith k s w r) names := by
  cases r with
  | error e => rfl
  | ok _ => simp [resolveWith]

@[simp] theorem replaying_rejectWith (k : CompletionKind) (s : Seq) (w : Awaiter)
    (f : Except JsError JsError) :
    (a.replaying names).rejectWith k s w f = Handled.replaying (a.rejectWith k s w f) names := by
  cases f with
  | error e => rfl
  | ok err => simp [rejectWith]

@[simp] theorem replaying_rejectWithRequired (k : CompletionKind) (s : Seq) (w : Awaiter)
    (f : FailureField) (m : String) :
    (a.replaying names).rejectWithRequired k s w f m =
      Handled.replaying (a.rejectWithRequired k s w f m) names := by
  cases f with
  | none => rfl
  | some f => simp [rejectWithRequired]

@[simp] theorem replaying_finishNexusOperation (k : CompletionKind) (s : Seq) (w : Awaiter)
    (r : NexusResult) :
    (a.replaying names).finishNexusOperation k s w r =
      Handled.replaying (a.finishNexusOperation k s w r) names := by
  cases r <;> simp [finishNexusOperation]

theorem replaying_resolveExternal (k : CompletionKind) (seq : Option Seq) (f : FailureField) :
    (a.replaying names).resolveExternal k seq f = Handled.replaying (a.resolveExternal k seq f) names := by
  refine replaying_withSeq a seq fun s => replaying_consumeCompletion a k s fun b w => ?_
  cases f with
  | none | some => simp

theorem replaying_resolveChildWorkflowExecutionStart (seq : Option Seq)
    (status : ChildStartStatus) :
    (a.replaying names).resolveChildWorkflowExecutionStart seq status =
      Handled.replaying (a.resolveChildWorkflowExecutionStart seq status) names := by
  refine replaying_withSeq a seq fun s => replaying_consumeCompletion a _ s fun b w => ?_
  cases status with
  | succeeded runId =>
    simp only [replaying_throwing, replaying_settle, replaying_done]
    split <;> rfl
  | failed workflowId workflowType cause =>
    simp only [replaying_throwing, replaying_settle, replaying_deleteCompletion, replaying_done,
      replaying_namespaceName]
    split
    · rfl
    · cases cause <;> rfl
  | cancelled failure =>
    match failure with
    | none => rfl
    | some (.error e) => rfl
    | some (.ok err) => simp
  | unset => rfl

theorem replaying_handleJob (job : Job) :
    (a.replaying names).handleJob job = Handled.replaying (a.handleJob job) names := by
  cases job with
  | cancelWorkflow =>
    have h : ({ a with cancelled := true }.replaying names).rejectScope 0 =
        ({ a with cancelled := true }.rejectScope 0).replaying names :=
      replaying_rejectScope { a with cancelled := true } 0
    exact congrArg (fun b => (b, none)) h
  | fireTimer seq =>
    refine replaying_withSeq a seq fun s => ?_
    simp only [replaying_completions]
    cases a.completions .timer s with
    | none => rfl
    | some w => simp
  | resolveActivity seq result | resolveChildWorkflowExecution seq result =>
    cases result with
    | none => rfl
    | some r =>
      refine replaying_withSeq a seq fun s => replaying_consumeCompletion a _ s fun b w => ?_
      cases r <;> simp
  | resolveChildWorkflowExecutionStart seq status =>
    exact replaying_resolveChildWorkflowExecutionStart a seq status
  | resolveNexusOperationStart seq failed =>
    refine replaying_withSeq a seq fun s => replaying_consumeCompletion a _ s fun b w => ?_
    cases failed <;> simp
  | resolveNexusOperation seq result =>
    refine replaying_withSeq a seq fun s => ?_
    simp only [replaying_completions]
    cases a.completions .nexusOperationStart s with
    | some w => simp
    | none =>
      exact replaying_consumeCompletion a _ s fun b w =>
        replaying_finishNexusOperation b .nexusOperationComplete s w result
  | resolveSignalExternalWorkflow seq failure => exact replaying_resolveExternal a _ seq failure
  | resolveRequestCancelExternalWorkflow seq failure =>
    exact replaying_resolveExternal a _ seq failure

theorem replaying_processJob (job : Job) :
    (a.replaying names).processJob job = (a.processJob job).replaying names := by
  have h : ((a.log (.processed job)).replaying names).handleJob job =
      Handled.replaying ((a.log (.processed job)).handleJob job) names :=
    replaying_handleJob (a.log (.processed job)) job
  simp only [processJob, replaying_log, h, Handled.replaying]
  split <;> rfl

end Jobs

/-! ## Microtasks -/

theorem replaying_runCancelListener (a : Activator) (kind : CancelKind) (seq : Seq) :
    (a.replaying names).runCancelListener kind seq = (a.runCancelListener kind seq).replaying names := by
  cases kind with
  | timer =>
    simp only [runCancelListener, replaying_completions]
    cases a.completions .timer seq with
    | none => rfl
    | some w => simp
  | _ =>
    simp only [runCancelListener, replaying_completions, replaying_pushCommand]
    exact replaying_ite _ _ _

/-- The microtask starts no local activity that the worker cannot run. -/
def RetryAllowed (a : Activator) : Microtask → Prop
  | .localActivityRetry _ input _ => a.canRunLocally input.activityType = true
  | _ => True

theorem replaying_runMicrotask (a : Activator) (m : Microtask) (h : a.RetryAllowed m) :
    (a.replaying names).runMicrotask m = (a.runMicrotask m).replaying names := by
  cases m with
  | propagateUnlessShielded child =>
    simp only [runMicrotask, replaying_shielded, replaying_rejectScope]
    exact replaying_ite _ _ _
  | cancelListener kind seq => exact replaying_runCancelListener a kind seq
  | externalCancelRejected =>
    simp only [runMicrotask, replaying_externalCancelPatched, replaying_log]
    exact replaying_ite _ _ _
  | localActivityRetry scope input b =>
    simp only [runMicrotask, localActivityRetry]
    split
    · rfl
    · exact replaying_localActivityAttempt a scope _ h
  | _ => simp [runMicrotask]

theorem replaying_tick (a : Activator)
    (h : ∀ m rest, a.microtasks = m :: rest → a.RetryAllowed m) :
    (a.replaying names).tick = a.tick.replaying names := by
  unfold tick
  simp only [replaying_microtasks]
  split
  · rfl
  · rename_i m rest hm
    have hallowed : { a with microtasks := rest }.RetryAllowed m := by
      have := h m rest hm
      cases m <;> exact this
    exact replaying_runMicrotask { a with microtasks := rest } m hallowed

theorem replaying_inScope (a : Activator) (scope : ScopeId) {f : Activator → Activator}
    (hf : f (a.replaying names) = (f a).replaying names) :
    (a.replaying names).inScope scope f = (a.inScope scope f).replaying names := by
  unfold inScope
  rw [hf]
  exact replaying_ite _ _ _

end Activator

/-! ## Steps -/

/-- Every local activity that the step schedules has a type that the worker can run: it is
registered, or a `default` activity is. -/
def LocalActivitiesRegistered (a : Activator) : Event → Prop
  | .scheduleLocalActivity _ (some input) => a.canRunLocally input.activityType = true
  | .tick => ∀ m rest, a.microtasks = m :: rest → a.RetryAllowed m
  | _ => True

open Activator in
theorem replaying_step (a : Activator) (e : Event) (hg : LocalActivitiesRegistered a e) :
    step (a.replaying names) e = (step a e).replaying names := by
  cases e with
  | newScope parent cancellable => exact replaying_newScope a _ _
  | cancelScope scope => exact replaying_rejectScope a scope
  | sleep scope ms summary =>
    simp only [step]
    exact replaying_inScope a scope (replaying_sleep a _ _ _ _)
  | setTimeout scope ms =>
    simp only [step]
    exact replaying_inScope a scope (replaying_setTimeout a _ _)
  | clearTimeout handle target => exact replaying_clearTimeout a handle target
  | scheduleActivity scope input =>
    simp only [step]
    exact replaying_inScope a scope (replaying_scheduleActivity a _ _)
  | scheduleLocalActivity scope input =>
    simp only [step]
    refine replaying_inScope a scope ?_
    cases input with
    | none => rfl
    | some input => exact replaying_localActivityAttempt a scope _ hg
  | startChild scope input =>
    simp only [step]
    exact replaying_inScope a scope (replaying_startChild a _ _)
  | signalWorkflow scope input =>
    simp only [step]
    exact replaying_inScope a scope (replaying_signalWorkflow a _ _)
  | cancelExternal scope input =>
    simp only [step]
    exact replaying_inScope a scope (replaying_cancelExternal a _ _)
  | startNexusOperation scope input =>
    simp only [step]
    exact replaying_inScope a scope (replaying_startNexusOperation a _ _)
  | job job => exact replaying_processJob a job
  | tick => exact replaying_tick a hg
  | concludeActivation => rfl
  | setShielded value => rfl
  | setExternalCancelPatched value => rfl

/-! ## Runs -/

/-- Any program, which chooses its next call from all that has happened, schedules the same commands
under the same numbers in the same order live and in replay, on a worker with whatever activities,
provided every local activity it starts live has a type that the worker can run. -/
theorem replay_schedules_same (shielded patched : Bool) (names replayNames : List String)
    (ns : String) (program : List Entry → Event) (n : Nat)
    (hg : PlayGuarded step (fun a => a.history) program LocalActivitiesRegistered n
      (Activator.init false shielded patched names ns)) :
    let live := play step (fun a => a.history) program n
      (Activator.init false shielded patched names ns)
    let replay := play step (fun a => a.history) program n
      (Activator.init true shielded patched replayNames ns)
    replay.history = live.history ∧ replay.commands = live.commands ∧
      replay.nextSeqs = live.nextSeqs := by
  intro live replay
  have hR : replay = live.replaying replayNames := by
    refine play_lockstep (R := fun a b => b = a.replaying replayNames) ?_ ?_ program hg rfl
    · intro a b h
      rw [h]
      rfl
    · intro a b e hge h
      rw [h]
      exact replaying_step a e hge
  rw [hR]
  exact ⟨rfl, rfl, rfl⟩

/-- A program that runs one local activity and then sleeps. -/
def localActivityThenSleep (activityType : String) : List Entry → Event
  | [] => .scheduleLocalActivity 0 (some
      { activityType := activityType, scheduleToCloseTimeout := some 1000,
        startToCloseTimeout := none, attempt := 1, originalScheduleTime := none,
        arguments := fun _ => .ok [] })
  | _ => .sleep 0 (.millis 1000) (.ok ())

theorem registeredLocalActivity_same :
    PlayGuarded step (fun a => a.history) (localActivityThenSleep "greet")
        LocalActivitiesRegistered 2 (Activator.init false true true ["greet"] "default") ∧
      (play step (fun a => a.history) (localActivityThenSleep "greet") 2
          (Activator.init true true true [] "default")).commands =
        (play step (fun a => a.history) (localActivityThenSleep "greet") 2
          (Activator.init false true true ["greet"] "default")).commands := by
  have hg : PlayGuarded step (fun a => a.history) (localActivityThenSleep "greet")
      LocalActivitiesRegistered 2 (Activator.init false true true ["greet"] "default") :=
    ⟨rfl, trivial, trivial⟩
  exact ⟨hg, (replay_schedules_same true true ["greet"] [] "default"
    (localActivityThenSleep "greet") 2 hg).2.1⟩

/-- A type that is not registered is refused live and scheduled in replay. -/
theorem unregisteredLocalActivity_differs :
    ¬ ((play step (fun a => a.history) (localActivityThenSleep "greet") 1
        (Activator.init true true true [] "default")).commands =
      (play step (fun a => a.history) (localActivityThenSleep "greet") 1
        (Activator.init false true true [] "default")).commands) := by
  decide

end TemporalSdk.Workflow
