import TemporalSdk.Workflow.Operations

/-!
# Closure — what calls, jobs and microtasks are made of

Invariants of the operations half are relations between the state before and after a step.  This
file takes every call, job handler and microtask apart once: a relation that is closed under the
elementary updates (`StepClosed`) holds of every step, except the few that `Exceptional` names.
Those are what the individual results are about: clearing, firing and calling back a timer, and the
cancel listeners.
-/

namespace TemporalSdk.Workflow

/-! ## Operations and their commands -/

def CancelKind.seqKind : CancelKind → SeqKind
  | .timer => .timer
  | .activity => .activity
  | .localActivity => .activity
  | .childWorkflow => .childWorkflow
  | .signalWorkflow => .signalWorkflow
  | .nexusOperation => .nexusOperation

/-- The cancellable operation that a command schedules. -/
def Command.opens : Command → Option (CancelKind × Seq)
  | .startTimer s _ => some (.timer, s)
  | .scheduleActivity s .. => some (.activity, s)
  | .scheduleLocalActivity s .. => some (.localActivity, s)
  | .startChildWorkflowExecution s .. => some (.childWorkflow, s)
  | .signalExternalWorkflowExecution s .. => some (.signalWorkflow, s)
  | .scheduleNexusOperation s .. => some (.nexusOperation, s)
  | _ => none

/-- The operation that a command asks to cancel. -/
def Command.cancels : Command → Option (CancelKind × Seq)
  | .cancelTimer s => some (.timer, s)
  | .requestCancelActivity s => some (.activity, s)
  | .requestCancelLocalActivity s => some (.localActivity, s)
  | .cancelChildWorkflowExecution s => some (.childWorkflow, s)
  | .cancelSignalWorkflow s => some (.signalWorkflow, s)
  | .requestCancelNexusOperation s => some (.nexusOperation, s)
  | _ => none

/-- Entries that record neither a command nor what became of a timer. -/
def Entry.isNote : Entry → Bool
  | .processed _ => true
  | .externalCancelRejected => true
  | .returned .. => true
  | .threw _ => true
  | _ => false

/-- Microtasks that are neither cancel listeners nor on the way to a timer's callback. -/
def Microtask.isPlain : Microtask → Bool
  | .cancelListener .. => false
  | .runInContextResumed .. => false
  | .timeoutFired _ => false
  | .legacyTimeoutFired _ => false
  | _ => true

namespace Activator

/-! ## Commands that were built -/

theorem eq_of_built {α : Type} {x : Except JsError α} {f : α → Command} {c : Command}
    (h : (do let p ← x; return f p) = Except.ok c) : ∃ p, f p = c := by
  cases x with
  | error e => simp [bind, Except.bind] at h
  | ok p => exact ⟨p, by simpa [bind, Except.bind, pure, Except.pure] using h⟩

theorem eq_of_startTimer {durationMs : Option Nat} {summary : Except JsError Unit} {seq : Seq}
    {c : Command} (h : (do
      let startToFireTimeout ← msNumberToTs durationMs
      summary
      return Command.startTimer seq startToFireTimeout) = Except.ok c) :
    ∃ t, Command.startTimer seq t = c := by
  cases durationMs with
  | none => simp [msNumberToTs, bind, Except.bind] at h
  | some ms =>
    cases summary with
    | error e => simp [msNumberToTs, bind, Except.bind] at h
    | ok _ => exact ⟨ms, by simpa [msNumberToTs, bind, Except.bind, pure, Except.pure] using h⟩

/-! ## Scopes -/

/-- Nothing but scopes, reactions and queued microtasks differs. -/
structure ScopesOnly (a b : Activator) : Prop where
  nextSeqs : b.nextSeqs = a.nextSeqs
  completions : b.completions = a.completions
  commands : b.commands = a.commands
  shielded : b.shielded = a.shielded
  history : b.history = a.history

theorem ScopesOnly.refl (a : Activator) : ScopesOnly a a := ⟨rfl, rfl, rfl, rfl, rfl⟩

section Scopes

variable (a : Activator)

theorem catchCancel_quiet (s : ScopeId) (m : Microtask) : ScopesOnly a (a.catchCancel s m) := by
  unfold catchCancel
  cases a.scopes[s]? with
  | none => exact ScopesOnly.refl a
  | some scope =>
    simp only
    split <;> exact ⟨rfl, rfl, rfl, rfl, rfl⟩

theorem rejectScope_quiet (s : ScopeId) : ScopesOnly a (a.rejectScope s) := by
  unfold rejectScope
  cases a.scopes[s]? with
  | none => exact ScopesOnly.refl a
  | some scope =>
    simp only
    split <;> exact ⟨rfl, rfl, rfl, rfl, rfl⟩

theorem newScope_quiet (p : ScopeId) (c : Bool) : ScopesOnly a (a.newScope p c) := by
  have grown : ∀ (scopes : List Scope) (m : Microtask),
      ScopesOnly a ({ a with scopes := scopes }.catchCancel p m) := by
    intro scopes m
    have h := catchCancel_quiet { a with scopes := scopes } p m
    exact { h with }
  unfold newScope
  cases a.scopes[p]? with
  | none => exact ScopesOnly.refl a
  | some parent =>
    simp only
    split <;> exact grown _ _

end Scopes

/-! ## Closed relations -/

/-- A relation between states that no resolution job breaks, the firing of a timer apart. -/
structure HandlerClosed (R : Activator → Activator → Prop) : Prop where
  refl : ∀ a, R a a
  trans : ∀ {a b c}, R a b → R b c → R a c
  deleteCompletion : ∀ a k s, k ≠ .timer → R a (a.deleteCompletion k s)
  setCompletion : ∀ a k s w, k ≠ .timer → R a (a.setCompletion k s w)
  settle : ∀ a k s w o, k ≠ .timer ∨ o ≠ .resolved → R a (a.settle k s w o)

/-- A relation between states that no job handler breaks, the firing of a timer apart. -/
structure JobClosed (R : Activator → Activator → Prop) : Prop extends HandlerClosed R where
  cancelWorkflow : ∀ a, R a ({ a with cancelled := true }.rejectScope 0)

/-- A relation between states that an operation with a new sequence number does not break. -/
structure NumberClosed (R : Activator → Activator → Prop) : Prop extends HandlerClosed R where
  note : ∀ a e, e.isNote = true → R a (a.log e)
  bumpSeq : ∀ a n, R a (a.bumpSeq n)
  -- The promise executor, called with the number that was just allocated.
  scheduleIn : ∀ a scope listener kind w command,
    (∀ c, command = .ok c → c.opens = some (listener, a.nextSeqs listener.seqKind)) →
    R a ((a.bumpSeq listener.seqKind).scheduleIn scope listener kind
      (a.nextSeqs listener.seqKind) w command)
  -- A command pushed without a listener, for the number that was just allocated.
  pushFresh : ∀ a n c k w, c.cancels = none →
    (∀ p, c.opens = some p → p.1.seqKind = n ∧ p.2 = a.nextSeqs n) →
    R a (((a.bumpSeq n).pushCommand c).setCompletion k (a.nextSeqs n) w)

/-- A relation between states that no call which schedules an operation breaks. -/
structure CallClosed (R : Activator → Activator → Prop) : Prop extends NumberClosed R where
  catchExternal : ∀ a s, R a (a.catchCancel s .externalCancelRejected)

/-- A relation between states that no call breaks either. -/
structure StepClosed (R : Activator → Activator → Prop) : Prop extends JobClosed R, NumberClosed R where
  newScope : ∀ a p c, R a (a.newScope p c)
  rejectScope : ∀ a s, R a (a.rejectScope s)
  catchCancel : ∀ a s m, m.isPlain = true → R a (a.catchCancel s m)
  setTimer : ∀ a s w, R a (a.setCompletion .timer s w)
  concludeActivation : ∀ a, R a a.concludeActivation
  setShielded : ∀ a value, R a { a with shielded := value }
  setExternalCancelPatched : ∀ a value, R a { a with externalCancelPatched := value }

theorem StepClosed.toCallClosed {R : Activator → Activator → Prop} (hR : StepClosed R) :
    CallClosed R where
  toNumberClosed := hR.toNumberClosed
  catchExternal := fun a s => hR.catchCancel a s _ rfl

/-! ## Job handlers -/

section Jobs

variable {R : Activator → Activator → Prop} (hR : HandlerClosed R) (a : Activator)

include hR

variable {k : CompletionKind}

theorem HandlerClosed.resolveWith (hk : k ≠ .timer) (s : Seq) (w : Awaiter)
    (r : Except JsError Unit) : R a (a.resolveWith k s w r).1 := by
  cases r with
  | error e => exact hR.refl a
  | ok _ => exact hR.settle a k s w _ (Or.inl hk)

theorem HandlerClosed.rejectWith (hk : k ≠ .timer) (s : Seq) (w : Awaiter)
    (f : Except JsError JsError) : R a (a.rejectWith k s w f).1 := by
  cases f with
  | error e => exact hR.refl a
  | ok err => exact hR.settle a k s w _ (Or.inl hk)

theorem HandlerClosed.rejectWithRequired (hk : k ≠ .timer) (s : Seq) (w : Awaiter)
    (f : FailureField) (m : String) : R a (a.rejectWithRequired k s w f m).1 := by
  cases f with
  | none => exact hR.refl a
  | some f => exact hR.rejectWith a hk s w f

theorem HandlerClosed.finishNexusOperation (hk : k ≠ .timer) (s : Seq) (w : Awaiter)
    (r : NexusResult) : R a (a.finishNexusOperation k s w r).1 := by
  cases r with
  | completed r => exact hR.resolveWith a hk s w r
  | failed f | cancelled f | timedOut f => exact hR.rejectWith a hk s w f
  | unset => exact hR.settle a k s w _ (Or.inl hk)

theorem HandlerClosed.withSeq (seq : Option Seq) (f : Seq → Handled) (hf : ∀ s, R a (f s).1) :
    R a (a.withSeq seq f).1 := by
  cases seq with
  | none => exact hR.refl a
  | some s => exact hf s

theorem HandlerClosed.consumeCompletion (hk : k ≠ .timer) (s : Seq)
    (f : Activator → Awaiter → Handled) (hf : ∀ b w, R b (f b w).1) :
    R a (a.consumeCompletion k s f).1 := by
  unfold Activator.consumeCompletion
  split
  · exact hR.refl a
  · exact hR.trans (hR.deleteCompletion a k s hk) (hf _ _)

theorem HandlerClosed.resolveChildWorkflowExecutionStart (seq : Option Seq)
    (status : ChildStartStatus) : R a (a.resolveChildWorkflowExecutionStart seq status).1 := by
  refine hR.withSeq a seq _ fun s => hR.consumeCompletion a (by decide) s _ fun b w => ?_
  have hfail : ∀ err, R b ((b.settle .childWorkflowStart s w (.rejected err)).deleteCompletion
      .childWorkflowComplete s) := by
    intro err
    exact hR.trans (hR.settle b _ _ _ _ (Or.inl (by decide))) (hR.deleteCompletion _ _ _ (by decide))
  cases status with
  | succeeded runId =>
    simp only
    split
    · exact hR.refl b
    · exact hR.settle b _ _ _ _ (Or.inl (by decide))
  | failed workflowId workflowType cause =>
    simp only
    split
    · exact hR.refl b
    · cases cause with
      | unspecified => exact hR.refl b
      | workflowAlreadyExists | namespaceNotFound | invalidVersioningOverride => exact hfail _
  | cancelled failure =>
    match failure with
    | none => exact hR.refl b
    | some (.error e) => exact hR.refl b
    | some (.ok err) => exact hfail err
  | unset => exact hR.refl b

theorem HandlerClosed.handleJob (job : Job) (hj : ∀ seq, job ≠ .fireTimer seq)
    (hc : job ≠ .cancelWorkflow) :
    R a (a.handleJob job).1 := by
  cases job with
  | cancelWorkflow => exact absurd rfl hc
  | fireTimer seq => exact absurd rfl (hj seq)
  | resolveActivity seq result =>
    cases result with
    | none => exact hR.refl a
    | some r =>
      refine hR.withSeq a seq _ fun s => hR.consumeCompletion a (by decide) s _ fun b w => ?_
      cases r with
      | completed r => exact hR.resolveWith b (by decide) s w r
      | failed f | cancelled f => exact hR.rejectWithRequired b (by decide) s w f _
      | backoff bo => exact hR.settle b .activity s w _ (Or.inl (by decide))
      | unset => exact hR.refl b
  | resolveChildWorkflowExecutionStart seq status =>
    exact hR.resolveChildWorkflowExecutionStart a seq status
  | resolveChildWorkflowExecution seq result =>
    cases result with
    | none => exact hR.refl a
    | some r =>
      refine hR.withSeq a seq _ fun s => hR.consumeCompletion a (by decide) s _ fun b w => ?_
      cases r with
      | completed r => exact hR.resolveWith b (by decide) s w r
      | failed f | cancelled f => exact hR.rejectWithRequired b (by decide) s w f _
      | unset => exact hR.refl b
  | resolveNexusOperationStart seq failed =>
    refine hR.withSeq a seq _ fun s => hR.consumeCompletion a (by decide) s _ fun b w => ?_
    cases failed with
    | none =>
      exact hR.trans (hR.setCompletion b .nexusOperationComplete s .program (by decide))
        (hR.settle _ .nexusOperationStart s w .resolved (Or.inl (by decide)))
    | some f => exact hR.rejectWith b (by decide) s w f
  | resolveNexusOperation seq result =>
    refine hR.withSeq a seq _ fun s => ?_
    split
    · exact hR.trans (hR.deleteCompletion a _ s (by decide)) (hR.finishNexusOperation _ (by decide) s _ result)
    · exact hR.consumeCompletion a (by decide) s _ fun b w => hR.finishNexusOperation b (by decide) s w result
  | resolveSignalExternalWorkflow seq failure =>
    refine hR.withSeq a seq _ fun s => hR.consumeCompletion a (by decide) s _ fun b w => ?_
    cases failure with
    | none => exact hR.settle b .signalWorkflow s w _ (Or.inl (by decide))
    | some f => exact hR.rejectWith b (by decide) s w f
  | resolveRequestCancelExternalWorkflow seq failure =>
    refine hR.withSeq a seq _ fun s => hR.consumeCompletion a (by decide) s _ fun b w => ?_
    cases failure with
    | none => exact hR.settle b .cancelWorkflow s w _ (Or.inl (by decide))
    | some f => exact hR.rejectWith b (by decide) s w f

theorem HandlerClosed.inScope (scope : ScopeId) (f : Activator → Activator) (hf : R a (f a)) :
    R a (a.inScope scope f) := by
  unfold Activator.inScope
  split
  · exact hf
  · exact hR.refl a

end Jobs

theorem JobClosed.handleJob {R : Activator → Activator → Prop} (hR : JobClosed R) (a : Activator)
    (job : Job) (hj : ∀ seq, job ≠ .fireTimer seq) : R a (a.handleJob job).1 := by
  by_cases hc : job = .cancelWorkflow
  · rw [hc]
    exact hR.cancelWorkflow a
  · exact hR.toHandlerClosed.handleJob a job hj hc

theorem processFireTimer_eq (a : Activator) (seq : Seq) :
    a.processJob (.fireTimer (some seq)) =
      match a.completions .timer seq with
      | none => a.log (.processed (.fireTimer (some seq)))
      | some w =>
        ((a.log (.processed (.fireTimer (some seq)))).deleteCompletion .timer seq).settle .timer
          seq w .resolved := by
  cases hc : a.completions .timer seq with
  | none | some => simp [processJob, handleJob, fireTimer, withSeq, log, hc, done]

/-! ## Calls -/

section Calls

variable {R : Activator → Activator → Prop} (hR : CallClosed R) (a : Activator)

include hR

theorem CallClosed.returned {b : Activator} (h : R a b) (k : CompletionKind) (s : Seq) :
    R a (b.log (.returned k s)) :=
  hR.trans h (hR.note b _ rfl)

variable (scope : ScopeId)

theorem CallClosed.timerNextHandler (durationMs : Option Nat)
    (summary : Except JsError Unit) (w : Awaiter) :
    R a ((a.bumpSeq .timer).timerNextHandler scope (a.nextSeqs .timer) durationMs summary w) := by
  refine hR.scheduleIn a scope .timer .timer w _ ?_
  intro c hc
  rcases eq_of_startTimer hc with ⟨t, rfl⟩
  rfl

theorem CallClosed.sleep (ms : Duration) (summary : Except JsError Unit)
    (w : Awaiter) : R a (a.sleep scope ms summary w) := by
  unfold Activator.sleep
  cases msToNumber ms with
  | error e => exact hR.trans (hR.bumpSeq a .timer) (hR.note _ _ rfl)
  | ok n => exact hR.returned a (hR.timerNextHandler a _ _ _ _) _ _

theorem CallClosed.scheduleActivity (input : Option ActivityInput) :
    R a (a.scheduleActivity scope input) := by
  cases input with
  | none => exact hR.note a _ rfl
  | some input =>
    simp only [Activator.scheduleActivity, scheduleActivityNextHandler]
    split
    · exact hR.trans (hR.bumpSeq a .activity) (hR.note _ _ rfl)
    · refine hR.returned a (hR.scheduleIn a scope .activity .activity .program _ ?_) _ _
      intro c hc
      rcases eq_of_built hc with ⟨p, rfl⟩
      rfl

theorem CallClosed.localActivityAttempt (input : LocalActivityInput) :
    R a (a.localActivityAttempt scope input) := by
  simp only [Activator.localActivityAttempt, scheduleLocalActivityNextHandler]
  have hfail : ∀ e, R a ((a.bumpSeq .activity).settle .activity (a.nextSeqs .activity)
      (.localActivity scope input) (.rejected e)) := by
    intro e
    exact hR.trans (hR.bumpSeq a .activity) (hR.settle _ _ _ _ _ (Or.inl (by decide)))
  split
  · exact hfail _
  · split
    · exact hfail _
    · refine hR.scheduleIn a scope .localActivity .activity (.localActivity scope input) _ ?_
      intro c hc
      rcases eq_of_built hc with ⟨p, rfl⟩
      rfl

theorem CallClosed.scheduleLocalActivity (input : Option LocalActivityInput) :
    R a (a.scheduleLocalActivity scope input) := by
  cases input with
  | none => exact hR.note a _ rfl
  | some input => exact hR.localActivityAttempt a scope _

theorem CallClosed.localActivityBackoff (input : LocalActivityInput)
    (b : Backoff) : R a (a.localActivityBackoff scope input b) := by
  unfold Activator.localActivityBackoff
  split
  · exact hR.note a _ rfl
  · exact hR.sleep a _ _ _ _

theorem CallClosed.localActivityRetry (input : LocalActivityInput)
    (b : Backoff) : R a (a.localActivityRetry scope input b) := by
  unfold Activator.localActivityRetry
  split
  · exact hR.note a _ rfl
  · exact hR.localActivityAttempt a scope _

theorem CallClosed.startChild (input : ChildWorkflowInput) :
    R a (a.startChild scope input) := by
  have hstart : R a ((a.bumpSeq .childWorkflow).scheduleIn scope .childWorkflow
      .childWorkflowStart (a.nextSeqs .childWorkflow) .childWorkflow (do
        let arguments ← input.arguments
        return .startChildWorkflowExecution (a.nextSeqs .childWorkflow) input.workflowId
          input.workflowType arguments)) := by
    refine hR.scheduleIn a scope .childWorkflow .childWorkflowStart .childWorkflow _ ?_
    intro c hc
    rcases eq_of_built hc with ⟨p, rfl⟩
    rfl
  exact hR.returned a (hR.trans hstart (hR.setCompletion _ .childWorkflowComplete _ .program
    (by decide))) _ _

theorem CallClosed.signalWorkflow (input : SignalInput) :
    R a (a.signalWorkflow scope input) := by
  refine hR.returned a (hR.scheduleIn a scope .signalWorkflow .signalWorkflow .program _ ?_) _ _
  intro c hc
  rcases eq_of_built hc with ⟨p, rfl⟩
  rfl

theorem CallClosed.startNexusOperation (input : NexusInput) :
    R a (a.startNexusOperation scope input) := by
  simp only [Activator.startNexusOperation, startNexusOperationNextHandler]
  split
  · exact hR.trans (hR.bumpSeq a .nexusOperation) (hR.note _ _ rfl)
  · refine hR.returned a
      (hR.scheduleIn a scope .nexusOperation .nexusOperationStart .program _ ?_) _ _
    intro c hc
    rcases eq_of_built hc with ⟨_, rfl⟩
    rfl

theorem CallClosed.cancelExternal (input : ExternalCancelInput) :
    R a (a.cancelExternal scope input) := by
  unfold Activator.cancelExternal
  cases a.scopes[scope]? with
  | none => exact hR.refl a
  | some s =>
    have hb : R a (if s.cancellable = true then
        a.catchCancel scope .externalCancelRejected else a) := by
      split
      · exact hR.catchExternal a scope
      · exact hR.refl a
    simp only
    generalize (if s.cancellable = true then
      a.catchCancel scope .externalCancelRejected else a) = b at hb
    split
    · exact hb
    · split
      · have hset := hR.trans hb (hR.bumpSeq b .cancelWorkflow)
        exact hR.returned a (hR.trans hset (hR.settle _ _ _ _ _ (Or.inl (by decide)))) _ _
      · have hpush := hR.pushFresh b .cancelWorkflow
          (.requestCancelExternalWorkflowExecution (b.nextSeqs .cancelWorkflow) input.workflowId
            input.runId) .cancelWorkflow .program rfl (by simp [Command.opens])
        exact hR.returned a (hR.trans hb hpush) _ _

end Calls

section Steps

variable {R : Activator → Activator → Prop} (hR : StepClosed R) (a : Activator)

include hR

theorem StepClosed.setTimeout (scope : ScopeId) (ms : Option Int) :
    R a (a.setTimeout scope ms) := by
  unfold Activator.setTimeout
  cases a.shielded with
  | true =>
    have htimer := hR.toCallClosed.timerNextHandler (a.newScope scope true) a.scopes.length (atLeastOne ms)
      (.ok ()) .timeout
    rw [(newScope_quiet a scope true).nextSeqs] at htimer
    simp only [if_true]
    exact hR.toCallClosed.returned a (hR.trans (hR.newScope a scope true) htimer) _ _
  | false =>
    simp only [Bool.false_eq_true, if_false]
    cases msNumberToTs (atLeastOne ms) with
    | error e =>
      have hset := hR.trans (hR.bumpSeq a .timer)
        (hR.setTimer (a.bumpSeq .timer) (a.nextSeqs .timer) .legacyTimeout)
      exact hR.toCallClosed.returned a (hR.trans hset (hR.settle _ _ _ _ _ (Or.inr (by simp)))) _ _
    | ok t =>
      have hpush := hR.pushFresh a .timer (.startTimer (a.nextSeqs .timer) t) .timer
        .legacyTimeout rfl (by simp [Command.opens, CancelKind.seqKind])
      exact hR.toCallClosed.returned a hpush _ _

theorem StepClosed.processJob (job : Job) (hj : ∀ seq, job ≠ .fireTimer seq) :
    R a (a.processJob job) := by
  have h := hR.trans (hR.note a (.processed job) rfl)
    (hR.toJobClosed.handleJob (a.log (.processed job)) job hj)
  simp only [Activator.processJob]
  split
  · exact h
  · exact hR.trans h (hR.note _ _ rfl)

theorem StepClosed.runMicrotask {m : Microtask} (hm : m.isPlain = true) :
    R a (a.runMicrotask m) := by
  cases m with
  | propagate child => exact hR.rejectScope a child
  | propagateUnlessShielded child =>
    simp only [Activator.runMicrotask]
    split
    · exact hR.refl a
    · exact hR.rejectScope a child
  | cancelListener | runInContextResumed | timeoutFired | legacyTimeoutFired =>
    simp [Microtask.isPlain] at hm
  | rejectOperation kind seq w => exact hR.settle a _ _ _ _ (Or.inr (by simp))
  | childStartRejected seq e =>
    exact hR.settle a .childWorkflowComplete seq .program (.rejected e) (Or.inl (by decide))
  | externalCancelRejected =>
    simp only [Activator.runMicrotask]
    split
    · exact hR.note a _ rfl
    · exact hR.refl a
  | timeoutRejected seq => exact hR.refl a
  | localActivityBackoff scope input b => exact hR.toCallClosed.localActivityBackoff a scope input b
  | localActivityRetry scope input b => exact hR.toCallClosed.localActivityRetry a scope input b

end Steps

end Activator

/-! ## Steps -/

/-- Calls that schedule an operation in an existing scope. -/
def Event.isCall : Event → Bool
  | .sleep .. | .scheduleActivity .. | .scheduleLocalActivity .. | .startChild .. => true
  | .signalWorkflow .. | .cancelExternal .. | .startNexusOperation .. => true
  | _ => false

open Activator in
theorem Activator.CallClosed.call {R : Activator → Activator → Prop} (hR : CallClosed R)
    (a : Activator) {e : Event} (he : e.isCall = true) : R a (step a e) := by
  have hin := hR.toHandlerClosed.inScope a
  cases e with
  | sleep scope ms summary =>
    simp only [Workflow.step]
    exact hin scope _ (hR.sleep a _ _ _ _)
  | scheduleActivity scope input =>
    simp only [Workflow.step]
    exact hin scope _ (hR.scheduleActivity a _ _)
  | scheduleLocalActivity scope input =>
    simp only [Workflow.step]
    exact hin scope _ (hR.scheduleLocalActivity a _ _)
  | startChild scope input =>
    simp only [Workflow.step]
    exact hin scope _ (hR.startChild a _ _)
  | signalWorkflow scope input =>
    simp only [Workflow.step]
    exact hin scope _ (hR.signalWorkflow a _ _)
  | cancelExternal scope input =>
    simp only [Workflow.step]
    exact hin scope _ (hR.cancelExternal a _ _)
  | startNexusOperation scope input =>
    simp only [Workflow.step]
    exact hin scope _ (hR.startNexusOperation a _ _)
  | _ => cases he

/-- The steps that the closure rule leaves to the individual results. -/
def Exceptional (a : Activator) : Event → Prop
  | .clearTimeout .. => True
  | .job job => ∃ seq, job = .fireTimer seq
  | .tick => ∃ m rest, a.microtasks = m :: rest ∧ m.isPlain = false
  | _ => False

open Activator in
/-- A closed relation holds of every step that is not exceptional. -/
theorem Activator.StepClosed.step {R : Activator → Activator → Prop} (hR : StepClosed R)
    (hpop : ∀ (a : Activator) m rest, a.microtasks = m :: rest → m.isPlain = true →
      R a { a with microtasks := rest })
    (a : Activator) (e : Event) (he : ¬ Exceptional a e) : R a (step a e) := by
  cases e with
  | newScope parent cancellable => exact hR.newScope a _ _
  | cancelScope scope => exact hR.rejectScope a scope
  | sleep | scheduleActivity | scheduleLocalActivity | startChild | signalWorkflow
  | cancelExternal | startNexusOperation =>
    exact hR.toCallClosed.call a rfl
  | setTimeout scope ms =>
    simp only [Workflow.step]
    exact hR.toHandlerClosed.inScope a scope _ (hR.setTimeout a _ _)
  | clearTimeout handle target => exact absurd trivial he
  | job job => exact hR.processJob a job fun seq hseq => he ⟨seq, hseq⟩
  | tick =>
    simp only [Workflow.step, Activator.tick]
    split
    · exact hR.refl a
    · rename_i m rest hm
      have hplain : m.isPlain = true := by
        by_contra hm'
        exact he ⟨m, rest, hm, by simpa using hm'⟩
      exact hR.trans (hpop a m rest hm hplain) (hR.runMicrotask _ hplain)
  | concludeActivation => exact hR.concludeActivation a
  | setShielded value => exact hR.setShielded a value
  | setExternalCancelPatched value => exact hR.setExternalCancelPatched a value

end TemporalSdk.Workflow
