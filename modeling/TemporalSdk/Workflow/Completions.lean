import Mathlib.Data.List.Induction
import TemporalSdk.Machine.Run
import TemporalSdk.Workflow.Closure

/-!
# Completions — the completion tables mirror the outstanding operations

`outstanding` is the specification: it reads, from the history alone, which operations have been
scheduled and not yet terminally resolved, phase by phase.  The main result compares it with the
keys of the eight completion tables after every guarded run.

`CompletionsGuard` names the steps after which the tables and the history part ways: a child
workflow started in a cancelled scope or whose command cannot be built, a start failure whose job
handler throws, and a legacy `setTimeout` of `NaN` milliseconds.
-/

namespace TemporalSdk.Workflow

open Machine

/-! ## Tables of operation phases -/

/-- The counter that numbers the operations of a table. -/
def CompletionKind.seqKind : CompletionKind → SeqKind
  | .timer => .timer
  | .activity => .activity
  | .nexusOperationStart => .nexusOperation
  | .nexusOperationComplete => .nexusOperation
  | .childWorkflowStart => .childWorkflow
  | .childWorkflowComplete => .childWorkflow
  | .signalWorkflow => .signalWorkflow
  | .cancelWorkflow => .cancelWorkflow

abbrev Table := CompletionKind → Seq → Bool

namespace Table

def put (t : Table) (k : CompletionKind) (s : Seq) : Table :=
  Function.update t k (Function.update (t k) s true)

def erase (t : Table) (k : CompletionKind) (s : Seq) : Table :=
  Function.update t k (Function.update (t k) s false)

variable (t : Table)

theorem put_apply (k k' : CompletionKind) (s s' : Seq) :
    t.put k s k' s' = if k' = k ∧ s' = s then true else t k' s' := by
  by_cases hk : k' = k
  · subst hk
    simp [put, Function.update_apply]
  · simp [put, hk]

theorem erase_apply (k k' : CompletionKind) (s s' : Seq) :
    t.erase k s k' s' = if k' = k ∧ s' = s then false else t k' s' := by
  by_cases hk : k' = k
  · subst hk
    simp [erase, Function.update_apply]
  · simp [erase, hk]

theorem erase_of_eq_false {t : Table} {k : CompletionKind} {s : Seq} (h : t k s = false) :
    t.erase k s = t := by
  funext k' s'
  rw [erase_apply]
  split
  · rename_i hk
    rw [hk.1, hk.2, h]
  · rfl

theorem of_erase {t : Table} {k k' : CompletionKind} {s s' : Seq}
    (h : t.erase k s k' s' = true) : t k' s' = true := by
  rw [erase_apply] at h
  split at h
  · simp at h
  · exact h

theorem of_put {t : Table} {k k' : CompletionKind} {s s' : Seq} (h : t.put k s k' s' = true) :
    (k' = k ∧ s' = s) ∨ t k' s' = true := by
  rw [put_apply] at h
  split at h
  · rename_i hk
    exact Or.inl hk
  · exact Or.inr h

theorem erase_other {k k' : CompletionKind} {s s' : Seq}
    (h : (k.seqKind, s) ≠ (k'.seqKind, s')) : t.erase k s k' s' = t k' s' := by
  rw [erase_apply]
  split
  · rename_i hk
    exact absurd (by rw [hk.1, hk.2]) h
  · rfl

theorem put_other {k k' : CompletionKind} {s s' : Seq}
    (h : (k.seqKind, s) ≠ (k'.seqKind, s')) : t.put k s k' s' = t k' s' := by
  rw [put_apply]
  split
  · rename_i hk
    exact absurd (by rw [hk.1, hk.2]) h
  · rfl

/-- The two tables say the same about every phase of operation `s` of counter `n`. -/
def AgreeAt (t t' : Table) (n : SeqKind) (s : Seq) : Prop :=
  ∀ k, k.seqKind = n → t k s = t' k s

/-- A change of tables that looks at one operation at a time. -/
def OperationLocal (f : Table → Table) : Prop :=
  ∀ {t t' : Table} {n : SeqKind} {s : Seq}, t.AgreeAt t' n s → (f t).AgreeAt (f t') n s

theorem operationLocal_id : OperationLocal id := fun h => h

theorem OperationLocal.comp {f g : Table → Table} (hf : OperationLocal f) (hg : OperationLocal g) :
    OperationLocal (f ∘ g) := fun h => hf (hg h)

theorem operationLocal_put (k : CompletionKind) (s : Seq) : OperationLocal (put · k s) := by
  intro t t' n s' h k' hk'
  simp only [put_apply, h k' hk']

theorem operationLocal_erase (k : CompletionKind) (s : Seq) : OperationLocal (erase · k s) := by
  intro t t' n s' h k' hk'
  simp only [erase_apply, h k' hk']

end Table

/-! ## The specification: outstanding phases of a history -/

/-- The command schedules phase `kind` of operation `seq`. -/
def Command.schedules : Command → CompletionKind → Seq → Bool
  | .startTimer s _, .timer, seq => s = seq
  | .scheduleActivity s .., .activity, seq => s = seq
  | .scheduleLocalActivity s .., .activity, seq => s = seq
  | .startChildWorkflowExecution s .., .childWorkflowStart, seq => s = seq
  | .startChildWorkflowExecution s .., .childWorkflowComplete, seq => s = seq
  | .signalExternalWorkflowExecution s .., .signalWorkflow, seq => s = seq
  | .requestCancelExternalWorkflowExecution s .., .cancelWorkflow, seq => s = seq
  | .scheduleNexusOperation s .., .nexusOperationStart, seq => s = seq
  | .scheduleNexusOperation s .., .nexusOperationComplete, seq => s = seq
  | _, _, _ => false

/-- The effect of a command on the outstanding phases.  The second phase of a Nexus operation opens
when its start is resolved, not with the command. -/
def afterCommand (t : Table) : Command → Table
  | .startTimer s _ => t.put .timer s
  | .cancelTimer s => t.erase .timer s
  | .scheduleActivity s .. => t.put .activity s
  | .scheduleLocalActivity s .. => t.put .activity s
  | .startChildWorkflowExecution s .. =>
    (t.put .childWorkflowStart s).put .childWorkflowComplete s
  | .signalExternalWorkflowExecution s .. => t.put .signalWorkflow s
  | .requestCancelExternalWorkflowExecution s .. => t.put .cancelWorkflow s
  | .scheduleNexusOperation s .. => t.put .nexusOperationStart s
  | _ => t

/-- The effect of a resolution on the outstanding phases.  A child whose start failed or was
cancelled has no second phase left. -/
def afterJob (t : Table) : Job → Table
  | .fireTimer (some s) => t.erase .timer s
  | .resolveActivity (some s) (some _) => t.erase .activity s
  | .resolveChildWorkflowExecutionStart (some s) status =>
    if t .childWorkflowStart s then
      match status with
      | .failed .. => (t.erase .childWorkflowStart s).erase .childWorkflowComplete s
      | .cancelled _ => (t.erase .childWorkflowStart s).erase .childWorkflowComplete s
      | _ => t.erase .childWorkflowStart s
    else t
  | .resolveChildWorkflowExecution (some s) (some _) => t.erase .childWorkflowComplete s
  | .resolveNexusOperationStart (some s) failed =>
    if t .nexusOperationStart s then
      if failed.isNone then (t.erase .nexusOperationStart s).put .nexusOperationComplete s
      else t.erase .nexusOperationStart s
    else t
  | .resolveNexusOperation (some s) _ =>
    if t .nexusOperationStart s then t.erase .nexusOperationStart s
    else t.erase .nexusOperationComplete s
  | .resolveSignalExternalWorkflow (some s) _ => t.erase .signalWorkflow s
  | .resolveRequestCancelExternalWorkflow (some s) _ => t.erase .cancelWorkflow s
  | _ => t

def afterEntry (t : Table) : Entry → Table
  | .pushed c => afterCommand t c
  | .pushedByFallback h => t.erase .timer h
  | .processed j => afterJob t j
  | _ => t

/-- The operation phases that `history` leaves outstanding. -/
def outstanding (history : List Entry) : Table :=
  history.foldl afterEntry (fun _ _ => false)

@[simp] theorem outstanding_nil : outstanding [] = fun _ _ => false := rfl

@[simp] theorem outstanding_append (h : List Entry) (e : Entry) :
    outstanding (h ++ [e]) = afterEntry (outstanding h) e := by
  simp [outstanding]

/-! ## A job changes the phases of one operation -/

/-- The operation a job is about. -/
def Job.operation : Job → Option (SeqKind × Seq)
  | .cancelWorkflow => none
  | .fireTimer seq => seq.map fun s => (.timer, s)
  | .resolveActivity seq _ => seq.map fun s => (.activity, s)
  | .resolveChildWorkflowExecutionStart seq _ => seq.map fun s => (.childWorkflow, s)
  | .resolveChildWorkflowExecution seq _ => seq.map fun s => (.childWorkflow, s)
  | .resolveNexusOperationStart seq _ => seq.map fun s => (.nexusOperation, s)
  | .resolveNexusOperation seq _ => seq.map fun s => (.nexusOperation, s)
  | .resolveSignalExternalWorkflow seq _ => seq.map fun s => (.signalWorkflow, s)
  | .resolveRequestCancelExternalWorkflow seq _ => seq.map fun s => (.cancelWorkflow, s)

variable {k : CompletionKind} {s : Seq}

theorem afterJob_other (t : Table) {j : Job}
    (h : j.operation ≠ some (k.seqKind, s)) : afterJob t j k s = t k s := by
  have erase : ∀ (t : Table) {k' : CompletionKind} {s' : Seq},
      j.operation = some (k'.seqKind, s') → t.erase k' s' k s = t k s := by
    intro t k' s' hj
    exact t.erase_other fun he => h (hj.trans (congrArg some he))
  have put : ∀ (t : Table) {k' : CompletionKind} {s' : Seq},
      j.operation = some (k'.seqKind, s') → t.put k' s' k s = t k s := by
    intro t k' s' hj
    exact t.put_other fun he => h (hj.trans (congrArg some he))
  unfold afterJob
  split
  · exact erase _ rfl
  · exact erase _ rfl
  · split
    · split
      · rw [erase _ rfl, erase _ rfl]
      · rw [erase _ rfl, erase _ rfl]
      · exact erase _ rfl
    · rfl
  · exact erase _ rfl
  · split
    · split
      · rw [put _ rfl, erase _ rfl]
      · exact erase _ rfl
    · rfl
  · split <;> exact erase _ rfl
  · exact erase _ rfl
  · exact erase _ rfl
  · rfl

open Table in
theorem operationLocal_afterJob (j : Job) : OperationLocal (afterJob · j) := by
  intro t t' n s h
  by_cases hj : j.operation = some (n, s)
  · have erase : ∀ {t t' : Table} (k' : CompletionKind) (s' : Seq), t.AgreeAt t' n s →
        (t.erase k' s').AgreeAt (t'.erase k' s') n s := fun k' s' h => operationLocal_erase k' s' h
    have put : ∀ {t t' : Table} (k' : CompletionKind) (s' : Seq), t.AgreeAt t' n s →
        (t.put k' s').AgreeAt (t'.put k' s') n s := fun k' s' h => operationLocal_put k' s' h
    cases j with
    | cancelWorkflow => exact h
    | fireTimer seq | resolveSignalExternalWorkflow seq | resolveRequestCancelExternalWorkflow seq =>
      cases seq with
      | none => exact h
      | some seq => exact erase _ _ h
    | resolveActivity seq result | resolveChildWorkflowExecution seq result =>
      cases seq with
      | none => exact h
      | some seq =>
        cases result with
        | none => exact h
        | some r => exact erase _ _ h
    | resolveChildWorkflowExecutionStart seq status =>
      cases seq with
      | none => exact h
      | some seq =>
        obtain ⟨rfl, rfl⟩ : SeqKind.childWorkflow = n ∧ seq = s := by simpa [Job.operation] using hj
        simp only [afterJob, h .childWorkflowStart rfl]
        split
        · cases status with
          | failed | cancelled => exact erase _ _ (erase _ _ h)
          | succeeded | unset => exact erase _ _ h
        · exact h
    | resolveNexusOperationStart seq failed =>
      cases seq with
      | none => exact h
      | some seq =>
        obtain ⟨rfl, rfl⟩ : SeqKind.nexusOperation = n ∧ seq = s := by simpa [Job.operation] using hj
        simp only [afterJob, h .nexusOperationStart rfl]
        split
        · split
          · exact put _ _ (erase _ _ h)
          · exact erase _ _ h
        · exact h
    | resolveNexusOperation seq result =>
      cases seq with
      | none => exact h
      | some seq =>
        obtain ⟨rfl, rfl⟩ : SeqKind.nexusOperation = n ∧ seq = s := by simpa [Job.operation] using hj
        simp only [afterJob, h .nexusOperationStart rfl]
        split <;> exact erase _ _ h
  · intro k hk
    subst hk
    simp only [afterJob_other _ hj]
    exact h k rfl

/-! ## The guard -/

/-- The start failure does not make its job handler throw. -/
def ChildStartStatus.FailureHandled (seq : Seq) : ChildStartStatus → Prop
  | .failed workflowId workflowType cause =>
    seq ≠ 0 ∧ workflowId ≠ "" ∧ workflowType ≠ "" ∧ cause ≠ .unspecified
  | .cancelled failure => ∃ err, failure = some (.ok err)
  | _ => True

/-- The steps that keep the completion tables in line with the history. -/
def CompletionsGuard (a : Activator) : Event → Prop
  | .startChild scope input =>
    (∀ s, a.scopes[scope]? = some s → s.consideredCancelled = false) ∧
      ∃ p, input.arguments = .ok p
  | .setTimeout _ ms => a.shielded = true ∨ ms ≠ none
  | .job (.resolveChildWorkflowExecutionStart (some seq) status) =>
    (a.completions .childWorkflowStart seq).isSome → status.FailureHandled seq
  | _ => True

/-! ## What the elementary updates do to keys and history -/

namespace Activator

/-- The keys of the completion tables. -/
def keys (a : Activator) : Table := fun k s => (a.completions k s).isSome

/-- The outstanding phases of the history of `a`. -/
def unresolved (a : Activator) : Table := outstanding a.history

/-- The tables and the history agree. -/
def Mirror (a : Activator) : Prop := a.keys = a.unresolved

section Elementary

variable (a : Activator)

theorem keys_of_some {a : Activator} {w : Awaiter} (h : a.completions k s = some w) : a.keys k s = true :=
  congrArg Option.isSome h

theorem keys_of_none {a : Activator} (h : a.completions k s = none) : a.keys k s = false :=
  congrArg Option.isSome h

@[simp] theorem keys_log (e : Entry) : (a.log e).keys = a.keys := rfl

@[simp] theorem keys_enqueue (m : Microtask) : (a.enqueue m).keys = a.keys := rfl

@[simp] theorem keys_pushCommand (c : Command) : (a.pushCommand c).keys = a.keys := rfl

@[simp] theorem keys_bumpSeq (k : SeqKind) : (a.bumpSeq k).keys = a.keys := rfl

@[simp] theorem keys_setCompletion (k : CompletionKind) (s : Seq) (w : Awaiter) :
    (a.setCompletion k s w).keys = a.keys.put k s := by
  funext k' s'
  rw [Table.put_apply]
  by_cases hk : k' = k
  · subst hk
    by_cases hs : s' = s <;> simp [keys, setCompletion, hs]
  · simp [keys, setCompletion, hk]

@[simp] theorem keys_deleteCompletion (k : CompletionKind) (s : Seq) :
    (a.deleteCompletion k s).keys = a.keys.erase k s := by
  funext k' s'
  rw [Table.erase_apply]
  by_cases hk : k' = k
  · subst hk
    by_cases hs : s' = s <;> simp [keys, deleteCompletion, hs]
  · simp [keys, deleteCompletion, hk]

@[simp] theorem unresolved_log (e : Entry) : (a.log e).unresolved = afterEntry a.unresolved e := by
  simp [unresolved, log]

@[simp] theorem unresolved_enqueue (m : Microtask) : (a.enqueue m).unresolved = a.unresolved := rfl

@[simp] theorem unresolved_pushCommand (c : Command) :
    (a.pushCommand c).unresolved = afterCommand a.unresolved c := by
  simp [unresolved, pushCommand, afterEntry]

@[simp] theorem unresolved_setCompletion (k : CompletionKind) (s : Seq) (w : Awaiter) :
    (a.setCompletion k s w).unresolved = a.unresolved := rfl

@[simp] theorem unresolved_deleteCompletion (k : CompletionKind) (s : Seq) :
    (a.deleteCompletion k s).unresolved = a.unresolved := rfl

@[simp] theorem unresolved_bumpSeq (k : SeqKind) : (a.bumpSeq k).unresolved = a.unresolved := rfl

theorem settle_quiet (k : CompletionKind) (s : Seq) (w : Awaiter) (o : Settlement) :
    (a.settle k s w o).keys = a.keys ∧ (a.settle k s w o).unresolved = a.unresolved := by
  unfold settle
  constructor
  · split <;> rfl
  · split <;> simp [afterEntry]

@[simp] theorem keys_settle (k : CompletionKind) (s : Seq) (w : Awaiter) (o : Settlement) :
    (a.settle k s w o).keys = a.keys := (a.settle_quiet k s w o).1
@[simp] theorem unresolved_settle (k : CompletionKind) (s : Seq) (w : Awaiter) (o : Settlement) :
    (a.settle k s w o).unresolved = a.unresolved := (a.settle_quiet k s w o).2

end Elementary

/-! ## Steps that treat the tables and the history alike -/

/-- The keys and the outstanding phases of `b` come from those of `a` by one and the same change,
and this change looks at one operation at a time. -/
def Tracks (a b : Activator) : Prop :=
  ∃ f : Table → Table, Table.OperationLocal f ∧ b.keys = f a.keys ∧ b.unresolved = f a.unresolved

theorem Tracks.mirror {a b : Activator} (h : Tracks a b) (hm : a.Mirror) : b.Mirror := by
  rcases h with ⟨f, _, hk, ho⟩
  have hm' : a.keys = a.unresolved := hm
  rw [Mirror, hk, ho, hm']

theorem Tracks.agreeAt {a b : Activator} (h : Tracks a b) {n : SeqKind}
    (ha : a.keys.AgreeAt a.unresolved n s) : b.keys.AgreeAt b.unresolved n s := by
  rcases h with ⟨f, hf, hk, ho⟩
  rw [hk, ho]
  exact hf ha

theorem Tracks.refl (a : Activator) : Tracks a a := ⟨id, Table.operationLocal_id, rfl, rfl⟩

section Tracks

variable {o a b : Activator}

theorem Tracks.change (h : Tracks o a) {f : Table → Table} (hf : Table.OperationLocal f)
    (hk : b.keys = f a.keys) (ho : b.unresolved = f a.unresolved) : Tracks o b := by
  rcases h with ⟨g, hg, hgk, hgo⟩
  refine ⟨f ∘ g, hf.comp hg, ?_, ?_⟩
  · rw [hk, hgk]
    rfl
  · rw [ho, hgo]
    rfl

theorem Tracks.same (h : Tracks o a) (hk : b.keys = a.keys) (ho : b.unresolved = a.unresolved) :
    Tracks o b :=
  h.change Table.operationLocal_id hk ho

theorem Tracks.of_quiet (h : Tracks o a) (hq : ScopesOnly a b) : Tracks o b := by
  refine h.same ?_ ?_
  · funext k s
    simp [keys, hq.completions]
  · simp [unresolved, hq.history]

theorem Tracks.log_quiet (h : Tracks o a) {e : Entry} (he : ∀ t, afterEntry t e = t) :
    Tracks o (a.log e) :=
  h.same rfl (by simp [he])

theorem Tracks.bumpSeq (h : Tracks o a) (k : SeqKind) : Tracks o (a.bumpSeq k) := h

theorem Tracks.settle (h : Tracks o a) (k : CompletionKind) (s : Seq) (w : Awaiter)
    (st : Settlement) : Tracks o (a.settle k s w st) :=
  h.same (keys_settle a k s w st) (unresolved_settle a k s w st)

theorem Tracks.pushAndSet (h : Tracks o a) {c : Command}
    (w : Awaiter) (hc : ∀ t, afterCommand t c = t.put k s) :
    Tracks o ((a.pushCommand c).setCompletion k s w) :=
  h.change (Table.operationLocal_put k s) (by simp) (by simp [hc])

end Tracks

/-! ## Scheduling -/

section Scheduling

variable {o a : Activator}

/-- One command opens one phase: the shared executor keeps the agreement, whichever of its three
exits it takes. -/
theorem Tracks.scheduleIn (h : Tracks o a) (scope : ScopeId) (listener : CancelKind)
    (kind : CompletionKind) (seq : Seq) (w : Awaiter) (command : Except JsError Command)
    (hcmd : ∀ c, command = .ok c → ∀ t, afterCommand t c = t.put kind seq) :
    Tracks o (a.scheduleIn scope listener kind seq w command) := by
  unfold Activator.scheduleIn
  cases a.scopes[scope]? with
  | none => exact h
  | some s =>
    cases hcc : s.consideredCancelled with
    | true =>
      simp only [hcc, if_true]
      exact h.of_quiet (catchCancel_quiet a _ _)
    | false =>
      have hb : Tracks o (if s.cancellable = true then
          a.catchCancel scope (.cancelListener listener seq) else a) := by
        split
        · exact h.of_quiet (catchCancel_quiet a _ _)
        · exact h
      simp only [hcc, Bool.false_eq_true, if_false]
      generalize (if s.cancellable = true then
        a.catchCancel scope (.cancelListener listener seq) else a) = b at hb
      cases command with
      | error e => exact hb.settle _ _ _ _
      | ok c => exact hb.pushAndSet w (hcmd c rfl)

theorem Tracks.timerNextHandler (h : Tracks o a) (scope : ScopeId) (seq : Seq)
    (durationMs : Option Nat) (summary : Except JsError Unit) (w : Awaiter) :
    Tracks o (a.timerNextHandler scope seq durationMs summary w) := by
  refine h.scheduleIn _ _ _ _ _ _ ?_
  intro c hc t
  rcases eq_of_startTimer hc with ⟨ms, rfl⟩
  rfl

theorem Tracks.sleep (h : Tracks o a) (scope : ScopeId) (ms : Duration)
    (summary : Except JsError Unit) (w : Awaiter) : Tracks o (a.sleep scope ms summary w) := by
  unfold Activator.sleep
  cases msToNumber ms with
  | error e => exact (h.bumpSeq _).log_quiet fun _ => rfl
  | ok n => exact ((h.bumpSeq _).timerNextHandler _ _ _ _ _).log_quiet fun _ => rfl

theorem Tracks.setTimeout (h : Tracks o a) (scope : ScopeId) (ms : Option Int)
    (hms : a.shielded = true ∨ ms ≠ none) : Tracks o (a.setTimeout scope ms) := by
  unfold Activator.setTimeout
  cases hsh : a.shielded with
  | true =>
    simp only [if_true]
    have h1 : Tracks o (a.newScope scope true) := h.of_quiet (newScope_quiet a _ _)
    exact ((h1.bumpSeq _).timerNextHandler _ _ _ _ _).log_quiet fun _ => rfl
  | false =>
    cases ms with
    | none => simp [hsh] at hms
    | some n =>
      simp only [Bool.false_eq_true, if_false, atLeastOne, Option.map_some, msNumberToTs]
      refine Tracks.log_quiet ?_ fun _ => rfl
      exact (h.bumpSeq .timer).pushAndSet .legacyTimeout fun _ => rfl

theorem Tracks.clearTimeout (h : Tracks o a) (handle : Seq) (target : ClearTarget) :
    Tracks o (a.clearTimeout handle target) := by
  have h1 : Tracks o (a.log (.clearCalled handle)) := h.log_quiet fun _ => rfl
  unfold Activator.clearTimeout
  cases target with
  | own scope => exact h1.of_quiet (rejectScope_quiet _ _)
  | foreign => exact h1
  | missing =>
    -- The fallback deletes the key and pushes `cancelTimer`, present or not.
    refine (h1.bumpSeq .timer).change (Table.operationLocal_erase .timer handle) ?_ ?_
    · exact keys_deleteCompletion _ _ _
    · simp [Activator.unresolved, deleteCompletion, afterEntry]

theorem Tracks.scheduleActivity (h : Tracks o a) (scope : ScopeId) (input : Option ActivityInput) :
    Tracks o (a.scheduleActivity scope input) := by
  cases input with
  | none => exact h.log_quiet fun _ => rfl
  | some input =>
    simp only [Activator.scheduleActivity, scheduleActivityNextHandler]
    split
    · exact (h.bumpSeq _).log_quiet fun _ => rfl
    · refine Tracks.log_quiet ((h.bumpSeq _).scheduleIn _ _ _ _ _ _ ?_) fun _ => rfl
      intro c hc t
      rcases eq_of_built hc with ⟨p, rfl⟩
      rfl

theorem Tracks.localActivityAttempt (h : Tracks o a) (scope : ScopeId) (input : LocalActivityInput) :
    Tracks o (a.localActivityAttempt scope input) := by
  simp only [Activator.localActivityAttempt, scheduleLocalActivityNextHandler]
  split
  · exact (h.bumpSeq _).settle _ _ _ _
  · split
    · exact (h.bumpSeq _).settle _ _ _ _
    · refine (h.bumpSeq _).scheduleIn _ _ _ _ _ _ ?_
      intro c hc t
      rcases eq_of_built hc with ⟨p, rfl⟩
      rfl

theorem Tracks.scheduleLocalActivity (h : Tracks o a) (scope : ScopeId)
    (input : Option LocalActivityInput) : Tracks o (a.scheduleLocalActivity scope input) := by
  cases input with
  | none => exact h.log_quiet fun _ => rfl
  | some input => exact h.localActivityAttempt _ _

theorem Tracks.localActivityBackoff (h : Tracks o a) (scope : ScopeId) (input : LocalActivityInput)
    (b : Backoff) : Tracks o (a.localActivityBackoff scope input b) := by
  unfold Activator.localActivityBackoff
  split
  · exact h.log_quiet fun _ => rfl
  · exact h.sleep _ _ _ _

theorem Tracks.localActivityRetry (h : Tracks o a) (scope : ScopeId) (input : LocalActivityInput)
    (b : Backoff) : Tracks o (a.localActivityRetry scope input b) := by
  unfold Activator.localActivityRetry
  split
  · exact h.log_quiet fun _ => rfl
  · exact h.localActivityAttempt _ _

theorem Tracks.signalWorkflow (h : Tracks o a) (scope : ScopeId) (input : SignalInput) :
    Tracks o (a.signalWorkflow scope input) := by
  refine Tracks.log_quiet ((h.bumpSeq _).scheduleIn _ _ _ _ _ _ ?_) fun _ => rfl
  intro c hc t
  rcases eq_of_built hc with ⟨p, rfl⟩
  rfl

theorem Tracks.startNexusOperation (h : Tracks o a) (scope : ScopeId) (input : NexusInput) :
    Tracks o (a.startNexusOperation scope input) := by
  simp only [Activator.startNexusOperation, startNexusOperationNextHandler]
  split
  · exact (h.bumpSeq _).log_quiet fun _ => rfl
  · refine Tracks.log_quiet ((h.bumpSeq _).scheduleIn _ _ _ _ _ _ ?_) fun _ => rfl
    intro c hc t
    rcases eq_of_built hc with ⟨_, rfl⟩
    rfl

theorem Tracks.cancelExternal (h : Tracks o a) (scope : ScopeId) (input : ExternalCancelInput) :
    Tracks o (a.cancelExternal scope input) := by
  unfold Activator.cancelExternal
  cases a.scopes[scope]? with
  | none => exact h
  | some s =>
    have hb : Tracks o (if s.cancellable = true then
        a.catchCancel scope .externalCancelRejected else a) := by
      split
      · exact h.of_quiet (catchCancel_quiet a _ _)
      · exact h
    simp only
    generalize (if s.cancellable = true then
      a.catchCancel scope .externalCancelRejected else a) = b at hb
    split
    · exact hb
    · split
      · exact ((hb.bumpSeq _).settle _ _ _ _).log_quiet fun _ => rfl
      · refine Tracks.log_quiet ?_ fun _ => rfl
        exact (hb.bumpSeq .cancelWorkflow).pushAndSet .program fun _ => rfl

/-- A child workflow opens two phases at once, provided its start promise gets that far. -/
theorem Tracks.startChild (h : Tracks o a) (scope : ScopeId) (input : ChildWorkflowInput)
    (hscope : scope < a.scopes.length)
    (hlive : ∀ s, a.scopes[scope]? = some s → s.consideredCancelled = false)
    (hargs : ∃ p, input.arguments = .ok p) : Tracks o (a.startChild scope input) := by
  rcases hargs with ⟨p, hp⟩
  refine Tracks.log_quiet ?_ fun _ => rfl
  have hs : a.scopes[scope]? = some a.scopes[scope] := List.getElem?_eq_getElem hscope
  have hcc := hlive _ hs
  have hs' : (a.bumpSeq .childWorkflow).scopes[scope]? = some a.scopes[scope] := hs
  simp only [startChildWorkflowExecutionNextHandler, Activator.scheduleIn, hs', hcc, hp,
    Bool.false_eq_true, if_false, bind, Except.bind, pure, Except.pure]
  have hb : Tracks o (if a.scopes[scope].cancellable = true then
      (a.bumpSeq .childWorkflow).catchCancel scope
        (.cancelListener .childWorkflow (a.nextSeqs .childWorkflow))
      else a.bumpSeq .childWorkflow) := by
    split
    · exact (h.bumpSeq _).of_quiet (catchCancel_quiet _ _ _)
    · exact h.bumpSeq _
  generalize (if a.scopes[scope].cancellable = true then
      (a.bumpSeq .childWorkflow).catchCancel scope
        (.cancelListener .childWorkflow (a.nextSeqs .childWorkflow))
      else a.bumpSeq .childWorkflow) = b at hb
  have hboth : Table.OperationLocal fun t =>
      (t.put .childWorkflowStart (a.nextSeqs .childWorkflow)).put .childWorkflowComplete
        (a.nextSeqs .childWorkflow) := by
    intro t t' n s h
    exact Table.operationLocal_put _ _ (Table.operationLocal_put _ _ h)
  exact hb.change hboth (by simp) (by simp [afterCommand])

end Scheduling

/-! ## Resolution jobs -/

section Jobs

variable (a : Activator)

/-- What a job handler leaves in the tables and in the outstanding phases. -/
structure Handles (r : Handled) (keys unresolved : Table) : Prop where
  keys : r.1.keys = keys
  unresolved : r.1.unresolved = unresolved

theorem handles_resolveWith (k : CompletionKind) (s : Seq) (w : Awaiter) (r : Except JsError Unit) :
    Handles (a.resolveWith k s w r) a.keys a.unresolved := by
  cases r with
  | error e => exact ⟨rfl, rfl⟩
  | ok _ => exact ⟨keys_settle a k s w _, unresolved_settle a k s w _⟩

theorem handles_rejectWith (k : CompletionKind) (s : Seq) (w : Awaiter)
    (f : Except JsError JsError) : Handles (a.rejectWith k s w f) a.keys a.unresolved := by
  cases f with
  | error e => exact ⟨rfl, rfl⟩
  | ok err => exact ⟨keys_settle a k s w _, unresolved_settle a k s w _⟩

theorem handles_rejectWithRequired (k : CompletionKind) (s : Seq) (w : Awaiter) (f : FailureField)
    (m : String) : Handles (a.rejectWithRequired k s w f m) a.keys a.unresolved := by
  cases f with
  | none => exact ⟨rfl, rfl⟩
  | some f => exact handles_rejectWith a k s w f

theorem handles_finishNexusOperation (k : CompletionKind) (s : Seq) (w : Awaiter)
    (r : NexusResult) : Handles (a.finishNexusOperation k s w r) a.keys a.unresolved := by
  cases r with
  | completed r => exact handles_resolveWith a k s w r
  | failed f | cancelled f | timedOut f => exact handles_rejectWith a k s w f
  | unset => exact ⟨keys_settle a k s w _, unresolved_settle a k s w _⟩

theorem handles_consumeCompletion (k : CompletionKind) (s : Seq) (f : Activator → Awaiter → Handled)
    (hf : ∀ b w, Handles (f b w) b.keys b.unresolved) :
    Handles (a.consumeCompletion k s f) (a.keys.erase k s) a.unresolved := by
  unfold consumeCompletion
  cases hc : a.completions k s with
  | none =>
    have hk := keys_of_none hc
    rw [Table.erase_of_eq_false hk]
    exact ⟨rfl, rfl⟩
  | some w =>
    have h := hf (a.deleteCompletion k s) w
    exact ⟨by simpa using h.keys, by simpa using h.unresolved⟩

variable (seq : Seq)

theorem handles_fireTimer :
    Handles (a.fireTimer (some seq)) (a.keys.erase .timer seq) a.unresolved := by
  simp only [fireTimer, withSeq]
  cases hc : a.completions .timer seq with
  | none =>
    have hk := keys_of_none hc
    rw [Table.erase_of_eq_false hk]
    exact ⟨rfl, rfl⟩
  | some w => exact ⟨by simp [done], by simp [done]⟩

theorem handles_resolveActivity (r : ActivityResult) :
    Handles (a.resolveActivity (some seq) (some r)) (a.keys.erase .activity seq) a.unresolved := by
  simp only [Activator.resolveActivity, withSeq]
  refine handles_consumeCompletion a _ _ _ ?_
  intro b w
  cases r with
  | completed r => exact handles_resolveWith b _ _ w r
  | failed f | cancelled f => exact handles_rejectWithRequired b _ _ w f _
  | backoff bo => exact ⟨by simp [done], by simp [done]⟩
  | unset => exact ⟨rfl, rfl⟩

theorem handles_resolveChildWorkflowExecution (r : ChildWorkflowResult) :
    Handles (a.resolveChildWorkflowExecution (some seq) (some r))
      (a.keys.erase .childWorkflowComplete seq) a.unresolved := by
  simp only [Activator.resolveChildWorkflowExecution, withSeq]
  refine handles_consumeCompletion a _ _ _ ?_
  intro b w
  cases r with
  | completed r => exact handles_resolveWith b _ _ w r
  | failed f | cancelled f => exact handles_rejectWithRequired b _ _ w f _
  | unset => exact ⟨rfl, rfl⟩

theorem handles_resolveExternal (k : CompletionKind) (seq : Seq) (f : FailureField) :
    Handles (a.resolveExternal k (some seq) f) (a.keys.erase k seq) a.unresolved := by
  simp only [resolveExternal, withSeq]
  refine handles_consumeCompletion a _ _ _ ?_
  intro b w
  cases f with
  | none => exact ⟨by simp [done], by simp [done]⟩
  | some f => exact handles_rejectWith b _ _ w f

theorem handles_resolveChildWorkflowExecutionStart (status : ChildStartStatus)
    (hg : (a.completions .childWorkflowStart seq).isSome → status.FailureHandled seq) :
    Handles (a.resolveChildWorkflowExecutionStart (some seq) status)
      (afterJob a.keys (.resolveChildWorkflowExecutionStart (some seq) status)) a.unresolved := by
  simp only [resolveChildWorkflowExecutionStart, withSeq, consumeCompletion]
  cases hc : a.completions .childWorkflowStart seq with
  | none =>
    have hk := keys_of_none hc
    exact ⟨by simp [afterJob, hk, throwing], rfl⟩
  | some w =>
    have hk := keys_of_some hc
    have hw := hg (by simp [hc])
    cases status with
    | succeeded runId =>
      simp only
      split
      · exact ⟨by simp [afterJob, hk, throwing], by simp [throwing]⟩
      · exact ⟨by simp [afterJob, hk, done], by simp [done]⟩
    | failed workflowId workflowType cause =>
      rcases hw with ⟨h0, h1, h2, h3⟩
      have hne : ¬(seq = 0 ∨ workflowId = "" ∨ workflowType = "") := by
        simp [h0, h1, h2]
      simp only [hne, if_false]
      cases cause with
      | unspecified => exact absurd rfl h3
      | workflowAlreadyExists | namespaceNotFound | invalidVersioningOverride =>
        exact ⟨by simp [afterJob, hk, done], by simp [done]⟩
    | cancelled failure =>
      rcases hw with ⟨err, rfl⟩
      exact ⟨by simp [afterJob, hk, done], by simp [done]⟩
    | unset => exact ⟨by simp [afterJob, hk, throwing], by simp [throwing]⟩

theorem handles_resolveNexusOperationStart (failed : FailureField) :
    Handles (a.resolveNexusOperationStart (some seq) failed)
      (afterJob a.keys (.resolveNexusOperationStart (some seq) failed)) a.unresolved := by
  simp only [resolveNexusOperationStart, withSeq, consumeCompletion]
  cases hc : a.completions .nexusOperationStart seq with
  | none =>
    have hk := keys_of_none hc
    exact ⟨by simp [afterJob, hk, throwing], rfl⟩
  | some w =>
    have hk := keys_of_some hc
    cases failed with
    | none => exact ⟨by simp [afterJob, hk, done], by simp [done]⟩
    | some f =>
      have h := handles_rejectWith (a.deleteCompletion .nexusOperationStart seq)
        .nexusOperationStart seq w f
      exact ⟨by simpa [afterJob, hk] using h.keys, by simpa using h.unresolved⟩

theorem handles_resolveNexusOperation (r : NexusResult) :
    Handles (a.resolveNexusOperation (some seq) r)
      (afterJob a.keys (.resolveNexusOperation (some seq) r)) a.unresolved := by
  simp only [resolveNexusOperation, withSeq]
  cases hc : a.completions .nexusOperationStart seq with
  | some w =>
    have hk := keys_of_some hc
    have h := handles_finishNexusOperation (a.deleteCompletion .nexusOperationStart seq)
      .nexusOperationStart seq w r
    exact ⟨by simpa [afterJob, hk] using h.keys, by simpa using h.unresolved⟩
  | none =>
    have hk := keys_of_none hc
    have h := handles_consumeCompletion a .nexusOperationComplete seq
      (fun a w => a.finishNexusOperation .nexusOperationComplete seq w r)
      (fun b w => handles_finishNexusOperation b _ _ w r)
    exact ⟨by simpa [afterJob, hk] using h.keys, h.unresolved⟩

/-- Every guarded job does to the keys what it does to the outstanding phases. -/
theorem handles_handleJob (job : Job) (hg : CompletionsGuard a (.job job)) :
    Handles (a.handleJob job) (afterJob a.keys job) a.unresolved := by
  cases job with
  | cancelWorkflow =>
    have hq := rejectScope_quiet { a with cancelled := true } 0
    refine ⟨?_, ?_⟩
    · funext k s
      simp [handleJob, cancelWorkflow, done, Activator.keys, hq.completions, afterJob]
    · simp [handleJob, cancelWorkflow, done, Activator.unresolved, hq.history]
  | fireTimer seq =>
    cases seq with
    | none => exact ⟨rfl, rfl⟩
    | some seq => exact handles_fireTimer a seq
  | resolveActivity seq result =>
    cases result with
    | none => exact ⟨by cases seq <;> rfl, rfl⟩
    | some r =>
      cases seq with
      | none => exact ⟨rfl, rfl⟩
      | some seq => exact handles_resolveActivity a seq r
  | resolveChildWorkflowExecutionStart seq status =>
    cases seq with
    | none => exact ⟨rfl, rfl⟩
    | some seq => exact handles_resolveChildWorkflowExecutionStart a seq status hg
  | resolveChildWorkflowExecution seq result =>
    cases result with
    | none => exact ⟨by cases seq <;> rfl, rfl⟩
    | some r =>
      cases seq with
      | none => exact ⟨rfl, rfl⟩
      | some seq => exact handles_resolveChildWorkflowExecution a seq r
  | resolveNexusOperationStart seq failed =>
    cases seq with
    | none => exact ⟨rfl, rfl⟩
    | some seq => exact handles_resolveNexusOperationStart a seq failed
  | resolveNexusOperation seq result =>
    cases seq with
    | none => exact ⟨rfl, rfl⟩
    | some seq => exact handles_resolveNexusOperation a seq result
  | resolveSignalExternalWorkflow seq failure =>
    cases seq with
    | none => exact ⟨rfl, rfl⟩
    | some seq => exact handles_resolveExternal a .signalWorkflow seq failure
  | resolveRequestCancelExternalWorkflow seq failure =>
    cases seq with
    | none => exact ⟨rfl, rfl⟩
    | some seq => exact handles_resolveExternal a .cancelWorkflow seq failure

end Jobs

theorem Tracks.processJob {o a : Activator} (h : Tracks o a) (job : Job)
    (hg : CompletionsGuard a (.job job)) : Tracks o (a.processJob job) := by
  have hg' : CompletionsGuard (a.log (.processed job)) (.job job) := by
    cases job with
    | resolveChildWorkflowExecutionStart seq status => cases seq <;> exact hg
    | _ => trivial
  have hj := handles_handleJob (a.log (.processed job)) job hg'
  have hm : Tracks o ((a.log (.processed job)).handleJob job).1 := by
    refine h.change (operationLocal_afterJob job) hj.keys ?_
    rw [hj.unresolved]
    simp [afterEntry]
  simp only [Activator.processJob]
  split
  · exact hm
  · exact hm.log_quiet fun _ => rfl

/-! ## Microtasks -/

theorem Tracks.runCancelListener {o a : Activator} (h : Tracks o a) (kind : CancelKind) (seq : Seq) :
    Tracks o (a.runCancelListener kind seq) := by
  -- Only the timer's listener changes a table; a cancel request of another kind resolves nothing.
  cases kind with
  | timer =>
    simp only [Activator.runCancelListener]
    split
    · exact h
    · exact h.change (Table.operationLocal_erase .timer seq) (by simp) (by simp [afterCommand])
  | _ =>
    simp only [Activator.runCancelListener]
    split
    · exact h.same rfl (by simp [afterCommand])
    · exact h

theorem Tracks.runMicrotask {o a : Activator} (h : Tracks o a) (m : Microtask) :
    Tracks o (a.runMicrotask m) := by
  cases m with
  | propagate child => exact h.of_quiet (rejectScope_quiet a child)
  | propagateUnlessShielded child =>
    simp only [Activator.runMicrotask]
    split
    · exact h
    · exact h.of_quiet (rejectScope_quiet a child)
  | cancelListener kind seq => exact h.runCancelListener kind seq
  | rejectOperation kind seq w => exact h.settle _ _ _ _
  | childStartRejected seq e =>
    simp only [Activator.runMicrotask]
    exact h.settle _ _ _ _
  | externalCancelRejected =>
    simp only [Activator.runMicrotask]
    split
    · exact h.log_quiet fun _ => rfl
    · exact h
  | runInContextResumed | timeoutRejected => exact h
  | timeoutFired | legacyTimeoutFired => exact h.log_quiet fun _ => rfl
  | localActivityBackoff scope input b => exact h.localActivityBackoff scope input b
  | localActivityRetry scope input b => exact h.localActivityRetry scope input b

theorem Tracks.tick {o a : Activator} (h : Tracks o a) : Tracks o a.tick := by
  unfold Activator.tick
  split
  · exact h
  · rename_i m rest _
    have h' : Tracks o { a with microtasks := rest } := h
    exact h'.runMicrotask m

end Activator

/-! ## Every step, every run -/

open Activator in
theorem tracks_step (a : Activator) (e : Event) (hg : CompletionsGuard a e) :
    Tracks a (step a e) := by
  have h := Tracks.refl a
  have inScope : ∀ (scope : ScopeId) (f : Activator → Activator),
      (scope < a.scopes.length → Tracks a (f a)) → Tracks a (a.inScope scope f) := by
    intro scope f hf
    unfold Activator.inScope
    split
    · rename_i hs
      exact hf hs
    · exact h
  cases e with
  | newScope parent cancellable => exact h.of_quiet (newScope_quiet a _ _)
  | cancelScope scope => exact h.of_quiet (rejectScope_quiet a scope)
  | sleep scope ms summary => exact inScope _ _ fun _ => h.sleep _ _ _ _
  | setTimeout scope ms => exact inScope _ _ fun _ => h.setTimeout _ _ hg
  | clearTimeout handle target => exact h.clearTimeout handle target
  | scheduleActivity scope input => exact inScope _ _ fun _ => h.scheduleActivity _ _
  | scheduleLocalActivity scope input => exact inScope _ _ fun _ => h.scheduleLocalActivity _ _
  | startChild scope input => exact inScope _ _ fun hs => h.startChild _ _ hs hg.1 hg.2
  | signalWorkflow scope input => exact inScope _ _ fun _ => h.signalWorkflow _ _
  | cancelExternal scope input => exact inScope _ _ fun _ => h.cancelExternal _ _
  | startNexusOperation scope input => exact inScope _ _ fun _ => h.startNexusOperation _ _
  | job job => exact h.processJob job hg
  | tick => exact h.tick
  | concludeActivation | setShielded | setExternalCancelPatched => exact h

/-! ## Outstanding phases were scheduled -/

theorem schedules_nexusOperationComplete {c : Command}
    (h : c.schedules .nexusOperationStart s = true) :
    c.schedules .nexusOperationComplete s = true := by
  cases c <;> simp_all [Command.schedules]

theorem afterCommand_scheduled {t : Table} {c : Command}
    (h : afterCommand t c k s = true) : t k s = true ∨ c.schedules k s = true := by
  cases c with
  | cancelTimer seq => exact Or.inl (Table.of_erase h)
  | startChildWorkflowExecution seq workflowId workflowType input =>
    rcases Table.of_put h with ⟨rfl, rfl⟩ | h
    · exact Or.inr (by simp [Command.schedules])
    · rcases Table.of_put h with ⟨rfl, rfl⟩ | h
      · exact Or.inr (by simp [Command.schedules])
      · exact Or.inl h
  | startTimer | scheduleActivity | scheduleLocalActivity | signalExternalWorkflowExecution |
      requestCancelExternalWorkflowExecution | scheduleNexusOperation =>
      rcases Table.of_put h with ⟨rfl, rfl⟩ | h
      · exact Or.inr (by simp [Command.schedules])
      · exact Or.inl h
  | _ => exact Or.inl h

/-- A job opens no phase except the second one of a Nexus operation whose first one was open. -/
theorem afterJob_outstanding {t : Table} {j : Job} (h : afterJob t j k s = true) :
    t k s = true ∨ (k = .nexusOperationComplete ∧ t .nexusOperationStart s = true) := by
  unfold afterJob at h
  split at h
  · exact Or.inl (Table.of_erase h)
  · exact Or.inl (Table.of_erase h)
  · split at h
    · split at h
      · exact Or.inl (Table.of_erase (Table.of_erase h))
      · exact Or.inl (Table.of_erase (Table.of_erase h))
      · exact Or.inl (Table.of_erase h)
    · exact Or.inl h
  · exact Or.inl (Table.of_erase h)
  · split at h
    · rename_i hstart
      split at h
      · rcases Table.of_put h with ⟨rfl, rfl⟩ | h
        · exact Or.inr ⟨rfl, hstart⟩
        · exact Or.inl (Table.of_erase h)
      · exact Or.inl (Table.of_erase h)
    · exact Or.inl h
  · split at h <;> exact Or.inl (Table.of_erase h)
  · exact Or.inl (Table.of_erase h)
  · exact Or.inl (Table.of_erase h)
  · exact Or.inl h

/-- A phase outstanding after more entries was so before them, or was scheduled by one of them; the
second phase of a Nexus operation may also come from its first one. -/
theorem outstanding_append_cases (h : List Entry) (ext : List Entry) :
    ∀ {k : CompletionKind} {s : Seq}, outstanding (h ++ ext) k s = true →
      (outstanding h k s = true ∨
        (k = .nexusOperationComplete ∧ outstanding h .nexusOperationStart s = true)) ∨
      ∃ c, Entry.pushed c ∈ ext ∧ c.schedules k s = true := by
  induction ext using List.reverseRecOn with
  | nil =>
    intro k s hk
    exact Or.inl (Or.inl (by simpa using hk))
  | append_singleton ext e ih =>
    intro k s hk
    have weaken : ∀ {k' : CompletionKind}, outstanding (h ++ ext) k' s = true →
        (outstanding h k' s = true ∨
          (k' = .nexusOperationComplete ∧ outstanding h .nexusOperationStart s = true)) ∨
        ∃ c, Entry.pushed c ∈ ext ++ [e] ∧ c.schedules k' s = true := by
      intro k' hk'
      rcases ih hk' with hold | ⟨c, hc, hs⟩
      · exact Or.inl hold
      · exact Or.inr ⟨c, List.mem_append_left _ hc, hs⟩
    rw [← List.append_assoc, outstanding_append] at hk
    cases e with
    | pushed c =>
      rcases afterCommand_scheduled hk with hold | hnew
      · exact weaken hold
      · exact Or.inr ⟨c, by simp, hnew⟩
    | processed j =>
      rcases afterJob_outstanding hk with hold | ⟨rfl, hstart⟩
      · exact weaken hold
      · rcases weaken hstart with (hold | ⟨_, hold⟩) | ⟨c, hc, hs⟩
        · exact Or.inl (Or.inr ⟨rfl, hold⟩)
        · exact Or.inl (Or.inr ⟨rfl, hold⟩)
        · exact Or.inr ⟨c, hc, schedules_nexusOperationComplete hs⟩
    | pushedByFallback handle =>
      simp only [afterEntry, Table.erase_apply] at hk
      split at hk
      · simp at hk
      · exact weaken hk
    | _ => exact weaken hk

theorem exists_schedules_of_outstanding (h : List Entry)
    (hk : outstanding h k s = true) : ∃ c, Entry.pushed c ∈ h ∧ c.schedules k s = true := by
  rcases outstanding_append_cases [] h (by simpa using hk) with (hold | ⟨_, hold⟩) | hnew
  · simp at hold
  · simp at hold
  · exact hnew

/-! ## Main result -/

theorem mirror_init (isReplaying shielded patched : Bool) (names : List String) (ns : String) :
    (Activator.init isReplaying shielded patched names ns).Mirror := rfl

/-- After every guarded run the keys of the eight tables are the outstanding phases, each of which
was scheduled by a pushed command, and a resolution consumes exactly the completion it is for. -/
theorem completions_mirror_outstanding (isReplaying shielded patched : Bool) (names : List String)
    (ns : String) (es : List Event)
    (hg : Guarded step CompletionsGuard
      (Activator.init isReplaying shielded patched names ns) es) :
    let a := run step (Activator.init isReplaying shielded patched names ns) es
    (∀ kind seq, (a.completions kind seq).isSome = true ↔ outstanding a.history kind seq = true) ∧
      (∀ kind seq, (a.completions kind seq).isSome = true →
        ∃ c, Entry.pushed c ∈ a.history ∧ c.schedules kind seq = true) ∧
      (∀ kind seq, outstanding a.history kind seq = true →
        ∃ w, (∀ f, a.consumeCompletion kind seq f = f (a.deleteCompletion kind seq) w) ∧
          (a.deleteCompletion kind seq).completions kind seq = none) := by
  intro a
  have hm : a.Mirror :=
    run_invariant (fun a e hg hm => (tracks_step a e hg).mirror hm)
      (mirror_init isReplaying shielded patched names ns) hg
  have hiff : ∀ kind seq,
      (a.completions kind seq).isSome = true ↔ outstanding a.history kind seq = true := by
    intro kind seq
    have hks : a.keys kind seq = a.unresolved kind seq := by rw [hm]
    exact Bool.eq_iff_iff.1 hks
  refine ⟨hiff, ?_, ?_⟩
  · intro kind seq hk
    exact exists_schedules_of_outstanding a.history ((hiff kind seq).1 hk)
  · intro kind seq ho
    rcases Option.isSome_iff_exists.1 ((hiff kind seq).2 ho) with ⟨w, hw⟩
    refine ⟨w, ?_, ?_⟩
    · intro f
      simp [Activator.consumeCompletion, hw]
    · simp [Activator.deleteCompletion]

/-- A run through both phases of a child workflow and a timer. -/
def childAndTimer : List Event :=
  [.startChild 0 { workflowType := "child", workflowId := "c", arguments := .ok [] },
   .sleep 0 (.millis 1000) (.ok ()),
   .job (.resolveChildWorkflowExecutionStart (some 1) (.succeeded "run")),
   .job (.fireTimer (some 1))]

theorem childAndTimer_mirrored :
    Guarded step CompletionsGuard (Activator.init false true true [] "default") childAndTimer ∧
      let a := run step (Activator.init false true true [] "default") childAndTimer
      (a.completions .childWorkflowComplete 1).isSome = true ∧
        outstanding a.history .childWorkflowComplete 1 = true := by
  have hg : Guarded step CompletionsGuard (Activator.init false true true [] "default")
      childAndTimer := by
    refine ⟨⟨?_, [], rfl⟩, trivial, ?_, trivial, trivial⟩
    · intro s hs
      have : Scope.root = s := by simpa [Activator.init] using hs
      rw [← this]
      rfl
    · intro _
      trivial
  have h := completions_mirror_outstanding false true true [] "default" childAndTimer hg
  exact ⟨hg, rfl, (h.1 .childWorkflowComplete 1).1 rfl⟩

/-- A child workflow started after the workflow was cancelled: no command is pushed, yet the
completion of its second phase stays in the table. -/
def childAfterCancel : List Event :=
  [.job .cancelWorkflow,
   .startChild 0 { workflowType := "child", workflowId := "c", arguments := .ok [] },
   .tick, .tick]

theorem childAfterCancel_not_mirrored :
    ¬ ∀ kind seq,
      ((run step (Activator.init false true true [] "default") childAfterCancel).completions
        kind seq).isSome = true ↔
      outstanding (run step (Activator.init false true true [] "default")
        childAfterCancel).history kind seq = true := by
  intro h
  have hkey := (h .childWorkflowComplete 1).1 rfl
  exact absurd hkey (by decide)

end TemporalSdk.Workflow
