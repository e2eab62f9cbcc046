import TemporalSdk.Activation.Moves
import TemporalSdk.Activation.Past
import TemporalSdk.Activation.RejectedUpdates

/-!
# Queries — each query is answered once, and queries are inert

A query activation runs its jobs, then the microtasks that answer them, and ends.  When every promise
settles and every answer can be converted, there is one answer for each job; when nothing is left
rejected, the state afterwards is the state before, up to the history and to what the next activation
renews (`info`, `query`).  The next activation then goes on as if the queries had not been there.

`completeQuery` and `failQuery` run in the two branches of one `then`: what the converters throw there
is neither answered nor caught, and neither is the rejection of a promise that a handler returned.
Node reports it after the query activation has succeeded, and the next activation fails.
-/

namespace TemporalSdk.Activation

open Machine

variable {σ : Type} {cfg : Config σ} {s t : Vm σ}

/-! ## The condition -/

/-- The promise of the query settles, the answer can be converted, and no promise is left rejected. -/
def QueryHandling.isClean (cfg : Config σ) (handling : QueryHandling) : Bool :=
  handling.leftRejected.isNone && match handling.answer with
    | some o => (Vm.queryResponse cfg o).isOk
    | none => false

namespace Job

/-- `queryWorkflow` throws. -/
def isRefused : Job → Bool
  | queryWorkflow _ (.error _) => true
  | _ => false

def isCleanQuery (cfg : Config σ) : Job → Bool
  | queryWorkflow _ (.ok handling) => handling.isClean cfg
  | _ => false

end Job

/-- A job throws, so that the activation fails, or all queries are clean. -/
def WorkflowActivation.isClean (cfg : Config σ) (a : WorkflowActivation) : Bool :=
  a.jobs.any Job.isRefused || a.jobs.all (Job.isCleanQuery cfg)

/-- The query activations of a run are clean. -/
def CleanQueries (cfg : Config σ) (s : Vm σ) : Input → Prop
  | .activate a => s.phase = .idle → a.jobs.any Job.isQuery = true → a.jobs.all Job.isQuery = true →
      a.isClean cfg = true
  | .tick => True

instance (cfg : Config σ) (s : Vm σ) : ∀ i, Decidable (CleanQueries cfg s i)
  | .activate a => inferInstanceAs (Decidable (s.phase = .idle → a.jobs.any Job.isQuery = true →
      a.jobs.all Job.isQuery = true → a.isClean cfg = true))
  | .tick => inferInstanceAs (Decidable True)

/-! ## The property -/

def Completion.isSuccessful : Completion → Bool
  | successful _ => true
  | _ => false

/-- No activation has failed: an execution whose task failed is evicted and gets no other one. -/
def Live (s : Vm σ) : Prop := ∀ c ∈ completions s.trace, c.isSuccessful = true

instance (s : Vm σ) : Decidable (Live s) :=
  inferInstanceAs (Decidable (∀ c ∈ completions s.trace, c.isSuccessful = true))

def Job.queryId : Job → Option String
  | queryWorkflow queryId _ => some queryId
  | _ => none

def Command.answeredId : Command → Option String
  | respondToQuery queryId _ => some queryId
  | _ => none

/-- The queries that the commands answer. -/
def answeredIds (commands : List (Origin × Command)) : List String :=
  commands.filterMap fun c => c.2.answeredId

/-- In `s` the query activation `a` completes.  If it succeeds, it answers each of its jobs once, and
any non-query activation `b` after it completes in the same way as in `s`. -/
structure AnsweredAndInert (cfg : Config σ) (s : Vm σ) (a : WorkflowActivation) : Prop where
  completes : ∃ n, (process cfg s a n).phase = .idle
  answered : ∀ n commands, (process cfg s a n).phase = .idle →
    completions (process cfg s a n).trace = completions s.trace ++ [Completion.successful commands] →
    (answeredIds commands).Perm (a.jobs.filterMap Job.queryId)
  inert : ∀ n commands, (process cfg s a n).phase = .idle →
    completions (process cfg s a n).trace = completions s.trace ++ [Completion.successful commands] →
    ∀ b : WorkflowActivation, b.jobs.any Job.isQuery = false → ∀ m, ∃ new,
      completions (process cfg s b m).trace = completions s.trace ++ new ∧
      completions (process cfg (process cfg s a n) b m).trace =
        completions (process cfg s a n).trace ++ new

theorem completions_append (trace notes : List Note) :
    completions (trace ++ notes) = completions trace ++ completions notes :=
  List.filterMap_append

theorem Live.of_extension {notes : List Note} (h : Live t) (htrace : t.trace = s.trace ++ notes) :
    Live s := by
  intro c hc
  refine h c ?_
  rw [htrace, completions_append]
  exact List.mem_append_left _ hc

theorem not_live_fail (s : Vm σ) (e : JsValue) : ¬ Live (s.fail e) := by
  intro h
  have htrace : (s.fail e).trace =
      s.trace ++ [Note.completed (if s.query then .rejected e else .failed e)] := by
    unfold Vm.fail Vm.reportRejections
    split <;> rfl
  have hin : (if s.query then Completion.rejected e else .failed e) ∈ completions (s.fail e).trace := by
    rw [htrace, completions_append]
    exact List.mem_append_right _ (by simp [completions, Note.completion])
  have hsuccess := h _ hin
  cases hq : s.query with
  | true | false => simp [hq, Completion.isSuccessful] at hsuccess

namespace Vm

/-! ## Where an activation ends -/

/-- Between activations of an execution that has not failed, nothing is pending and no error is
recorded. -/
structure Resting (s : Vm σ) : Prop where
  phase : s.phase = .idle
  stack : s.stack = []
  batches : s.batches = []
  microtasks : s.microtasks = []
  commands : s.commands = []
  buffered : s.inbox.bufferedUpdates = []
  rejections : s.rejections = []
  taskError : s.workflowTaskError.isTruthy = false
  unhandled : s.unhandledRejection.isTruthy = false

/-- A step ends an activation only by `fail` and by `succeed`. -/
theorem step_ends (cfg : Config σ) (hphase : s.phase ≠ .idle) :
    (s.step cfg).phase ≠ .idle ∨ (∃ (t : Vm σ) (e : JsValue), s.step cfg = t.fail e) ∨
      (s.step cfg = s.succeed ∧ s.phase = .conclude ∧ s.inbox.bufferedUpdates = []) := by
  have hjob : ∀ phase job, phase ≠ .idle →
      (orFail ((s.enter phase).runJob cfg job)).phase ≠ .idle ∨
        ∃ (t : Vm σ) (e : JsValue), orFail ((s.enter phase).runJob cfg job) = t.fail e := by
    intro phase job hne
    unfold orFail
    cases ((s.enter phase).runJob cfg job).2 with
    | none =>
      refine Or.inl ?_
      rw [(place_runJob cfg _ job).1]
      exact hne
    | some e => exact Or.inr ⟨_, e, rfl⟩
  have hunblock : ∀ k : Vm σ → Nat → Vm σ, (∀ t n, (k t n).phase ≠ .idle) →
      (s.unblocking k).phase ≠ .idle ∨ ∃ (t : Vm σ) (e : JsValue), s.unblocking k = t.fail e := by
    intro k hk
    unfold unblocking
    cases s.tryUnblockConditions with
    | ok r => exact Or.inl (hk r.1 r.2)
    | error e => exact Or.inr ⟨s, e, rfl⟩
  cases hstack : s.stack with
  | cons f rest =>
    refine Or.inl ?_
    rw [(place_step hstack).1]
    exact hphase
  | nil =>
    have hstep : s.step cfg = s.stepPhase cfg := by simp [step, hstack]
    rw [hstep]
    unfold stepPhase
    split
    · rename_i hidle
      exact absurd hidle hphase
    · refine (hjob _ _ ?_).imp_right Or.inl
      intro hidle
      cases hidle
    · refine Or.inl ?_
      intro hidle
      cases hidle
    · split
      · unfold orFail startWorkflow
        split
        · refine Or.inl ?_
          split <;> (intro hidle; cases hidle)
        · exact Or.inr (Or.inl ⟨_, _, rfl⟩)
      · exact Or.inr (Or.inl ⟨_, _, rfl⟩)
    · refine (hunblock _ ?_).imp_right Or.inl
      intro t n hidle
      cases hidle
    · refine (hunblock _ ?_).imp_right Or.inl
      intro t n hidle
      cases hidle
    · rename_i hmicrotasks
      unfold stepMicrotasks
      split
      · refine Or.inl ?_
        rw [phase_of_control (control_runMicrotask cfg _ _)]
        exact hphase
      · refine Or.inl ?_
        cases s.query <;> (intro hidle; cases hidle)
    · refine (hunblock _ ?_).imp_right Or.inl
      intro t n
      unfold afterOuter nextBatch
      split
      · split
        · intro hidle
          cases hidle
        · split <;> (intro hidle; cases hidle)
      · intro hidle
        cases hidle
    · refine (hjob _ _ ?_).imp_right Or.inl
      intro hidle
      cases hidle
    · refine Or.inl ?_
      intro hidle
      cases hidle
    · rename_i hconclude
      unfold stepConclude
      split
      · rename_i hnil
        exact Or.inr (Or.inr ⟨rfl, hconclude, hnil⟩)
      · simp only [orFail, rejectUpdate]
        split
        · rename_i hnone
          refine Or.inl ?_
          split at hnone
          · exact hphase
          · cases hnone
        · exact Or.inr (Or.inl ⟨_, _, rfl⟩)

theorem kept_of_quiet (h : Quiet s t) :
    t.query = s.query ∧ t.unhandledRejection = s.unhandledRejection :=
  ⟨congrArg Core.query h.core, congrArg Core.unhandledRejection h.core⟩

theorem kept_runMicrotask (cfg : Config σ) (s : Vm σ) (m : Microtask σ) :
    (s.runMicrotask cfg m).query = s.query ∧
      (s.runMicrotask cfg m).unhandledRejection = s.unhandledRejection := by
  have hfailure : ∀ c v, (s.handleWorkflowFailure cfg c v).query = s.query ∧
      (s.handleWorkflowFailure cfg c v).unhandledRejection = s.unhandledRejection := by
    intro c v
    rcases handleWorkflowFailure_cases cfg s c v with ⟨command, heq, _⟩ | ⟨e, heq⟩ | ⟨_, heq⟩
    all_goals
      rw [heq]
      exact ⟨rfl, rfl⟩
  cases m with
  | callback c code => exact ⟨rfl, rfl⟩
  | respond queryId o =>
    rw [runMicrotask_respond]
    cases queryResponse cfg o <;> exact ⟨rfl, rfl⟩
  | settled c o =>
    cases c with
    | workflow num =>
      cases o with
      | ok v =>
        simp only [runMicrotask, completeWorkflow]
        cases cfg.toPayload v <;> exact ⟨rfl, rfl⟩
      | error v => exact hfailure _ v
    | signal num =>
      cases o with
      | ok v => exact ⟨rfl, rfl⟩
      | error v => exact hfailure _ v
    | update num pid =>
      cases o with
      | ok v =>
        simp only [runMicrotask]
        cases cfg.toPayload v <;> exact ⟨rfl, rfl⟩
      | error v => exact ⟨rfl, rfl⟩
  | caught num pid v =>
    simp only [runMicrotask, rejectUpdate]
    split
    · cases cfg.errorToFailure v <;> exact ⟨rfl, rfl⟩
    · exact hfailure _ v

theorem kept_move (h : Move cfg s t) (hbusy : t.phase ≠ .idle) :
    t.query = s.query ∧ t.unhandledRejection = s.unhandledRejection := by
  cases h with
  | quiet hq => exact kept_of_quiet hq
  | command _ hq | respond _ _ hq | unhandled hq =>
    have hkept := kept_of_quiet hq
    exact hkept
  | @settle t c o rest _ hq =>
    have hcall : (t.settleCall c o).query = t.query ∧
        (t.settleCall c o).unhandledRejection = t.unhandledRejection := by
      unfold settleCall
      split <;> exact ⟨rfl, rfl⟩
    have hkept := kept_of_quiet hq
    exact ⟨hcall.1.trans hkept.1, hcall.2.trans hkept.2⟩
  | @update t u entry htaken hentry =>
    have hkept := kept_of_quiet htaken.quiet
    rcases doUpdateImpl_cases cfg t u entry with ⟨n, notes, _, _, hcases⟩
    rcases hcases with ⟨e, _, ⟨failure, _, heq⟩ | ⟨e', _, heq⟩⟩ | ⟨args, _, _, _, _, heq⟩
    all_goals
      rw [heq]
      exact hkept
  | reject htaken =>
    have hkept := kept_of_quiet htaken.quiet
    exact hkept
  | reaction _ _ _ _ => exact kept_runMicrotask cfg _ _
  | fail hq => exact absurd (place_fail _ _).1 hbusy
  | succeed _ _ _ => exact absurd (place_succeed s).1 hbusy

/-! ## The invariant -/

/-- The promises of the queries will be answered, and nothing is left rejected. -/
def Answering (cfg : Config σ) (s : Vm σ) : Prop :=
  s.rejections = [] ∧ ∀ m ∈ s.microtasks, ∃ queryId o response,
    m = .respond queryId o ∧ queryResponse cfg o = .ok response

/-- What is known in a phase of a query activation. -/
def AskingIn (cfg : Config σ) (s : Vm σ) : Phase → Prop
  | .queries todo => todo.all Job.isQuery = true ∧
      (todo.any Job.isRefused = true ∨ s.Answering cfg ∧ todo.all (Job.isCleanQuery cfg) = true)
  | .microtasks => s.Answering cfg
  | .conclude => s.Answering cfg ∧ s.microtasks = []
  | _ => False

/-- A query activation runs no code and takes no update. -/
structure Asking (cfg : Config σ) (s : Vm σ) : Prop where
  stack : s.stack = []
  batches : s.batches = []
  buffered : s.inbox.bufferedUpdates = []
  taskError : s.workflowTaskError.isTruthy = false
  unhandled : s.unhandledRejection.isTruthy = false
  inPhase : s.AskingIn cfg s.phase

/-- An execution that has not failed and whose queries were clean. -/
structure Sound (cfg : Config σ) (s : Vm σ) : Prop where
  resting : s.phase = .idle → s.Resting
  asking : s.phase ≠ .idle → s.query = true → s.Asking cfg
  working : s.phase ≠ .idle → s.query = false → s.unhandledRejection.isTruthy = false

theorem Sound.of_resting (h : s.Resting) : s.Sound cfg :=
  ⟨fun _ => h, fun hne => absurd h.phase hne, fun hne => absurd h.phase hne⟩

theorem Sound.of_asking (hphase : s.phase ≠ .idle) (hquery : s.query = true) (h : s.Asking cfg) :
    s.Sound cfg := by
  refine ⟨fun hidle => absurd hidle hphase, fun _ _ => h, ?_⟩
  intro _ hno
  simp [hquery] at hno

theorem Sound.of_working (hphase : s.phase ≠ .idle) (hquery : s.query = false)
    (h : s.unhandledRejection.isTruthy = false) : s.Sound cfg := by
  refine ⟨fun hidle => absurd hidle hphase, ?_, fun _ _ => h⟩
  intro _ hyes
  simp [hquery] at hyes

/-- An activation that ends well leaves nothing behind. -/
theorem resting_succeed (hbuffered : s.inbox.bufferedUpdates = []) (hmicrotasks : s.microtasks = [])
    (htask : s.workflowTaskError.isTruthy = false)
    (hunhandled : s.unhandledRejection.isTruthy = false)
    (hquery : s.query = true → s.rejections = []) (hlive : Live s.succeed) : s.succeed.Resting := by
  have hrejections : s.rejections = [] := by
    cases hq : s.query with
    | true => exact hquery hq
    | false =>
      -- A rejected promise would have failed the activation.
      cases hlast : s.rejections.getLast? with
      | none => exact List.getLast?_eq_none_iff.1 hlast
      | some reason =>
        exfalso
        have hin : Completion.failed (.unhandledRejectionError reason) ∈
            completions s.succeed.trace := by
          simp [succeed, hq, spliceCommands, reportRejections, hlast, complete, finish,
            completions, Note.completion]
        cases hlive _ hin
  have hsucceed : s.succeed = s.spliceCommands.finish (.successful s.commands) := by
    cases hq : s.query with
    | true =>
      have hnone : (s.spliceCommands.finish (.successful s.commands)).rejections = [] := hrejections
      simp only [succeed, hq, if_true, reportRejections, hnone, List.getLast?_nil]
    | false =>
      have hnone : s.spliceCommands.rejections = [] := hrejections
      have hno : s.spliceCommands.unhandledRejection.isTruthy = false := hunhandled
      simp only [succeed, hq, Bool.false_eq_true, if_false, reportRejections, hnone,
        List.getLast?_nil, complete, hno]
  rw [hsucceed]
  exact ⟨rfl, rfl, rfl, hmicrotasks, rfl, hbuffered, hrejections, htask, hunhandled⟩

variable {todo : List Job}

theorem step_job (cfg : Config σ) (hstack : s.stack = []) {job : Job}
    (hphase : s.phase = .queries (job :: todo)) :
    s.step cfg = orFail ((s.enter (.queries todo)).runJob cfg job) := by
  simp only [step, hstack, stepPhase, hphase]

theorem step_microtask (cfg : Config σ) (hstack : s.stack = []) (hphase : s.phase = .microtasks) :
    s.step cfg = s.stepMicrotasks cfg := by
  simp only [step, hstack, stepPhase, hphase]

variable {queryId : String}

theorem step_query (hstack : s.stack = []) {handling : QueryHandling}
    (hphase : s.phase = .queries (.queryWorkflow queryId (.ok handling) :: todo)) :
    s.step cfg = { s with
      phase := .queries todo
      rejections := s.rejections ++ handling.leftRejected.toList
      microtasks := s.microtasks ++ (handling.answer.map (.respond queryId)).toList } := by
  rw [step_job cfg hstack hphase]
  simp only [orFail, runJob, queryWorkflow_eq]
  rfl

theorem step_refused (hstack : s.stack = []) {e : JsValue}
    (hphase : s.phase = .queries (.queryWorkflow queryId (.error e) :: todo)) :
    s.step cfg = (s.enter (.queries todo)).fail e := by
  rw [step_job cfg hstack hphase]
  rfl

theorem step_respond (hstack : s.stack = []) (hphase : s.phase = .microtasks)
    {o : Outcome} {rest : List (Microtask σ)} (hmicrotasks : s.microtasks = .respond queryId o :: rest) :
    s.step cfg = match queryResponse cfg o with
      | .ok response => { s with microtasks := rest }.pushCommand (.query queryId)
          (.respondToQuery queryId response)
      | .error e => { s with microtasks := rest }.leaveRejected e := by
  rw [step_microtask cfg hstack hphase, stepMicrotasks, hmicrotasks]
  exact runMicrotask_respond cfg _ queryId o

theorem step_answered (hstack : s.stack = []) (hphase : s.phase = .microtasks)
    (hmicrotasks : s.microtasks = []) (hquery : s.query = true) :
    s.step cfg = s.enter .conclude := by
  rw [step_microtask cfg hstack hphase]
  simp only [stepMicrotasks, hmicrotasks, hquery, if_true]

theorem step_conclude (hstack : s.stack = []) (hphase : s.phase = .conclude)
    (hbuffered : s.inbox.bufferedUpdates = []) : s.step cfg = s.succeed := by
  simp only [step, hstack, stepPhase, hphase, stepConclude, hbuffered]

theorem clean_cases {handling : QueryHandling} (h : handling.isClean cfg = true) :
    handling.leftRejected = none ∧ ∃ o response, handling.answer = some o ∧
      queryResponse cfg o = .ok response := by
  unfold QueryHandling.isClean at h
  rcases Bool.and_eq_true_iff.1 h with ⟨hleft, hanswer⟩
  refine ⟨Option.isNone_iff_eq_none.1 hleft, ?_⟩
  cases ha : handling.answer with
  | none => simp [ha] at hanswer
  | some o =>
    cases hr : queryResponse cfg o with
    | ok response => exact ⟨o, response, rfl, hr⟩
    | error e => simp [ha, hr, Except.isOk, Except.toBool] at hanswer

theorem Sound.step_asking (h : s.Asking cfg) (hphase : s.phase ≠ .idle) (hquery : s.query = true)
    (hlive : Live (s.step cfg)) : (s.step cfg).Sound cfg := by
  rcases h with ⟨hstack, hbatches, hbuffered, htask, hunhandled, hin⟩
  cases hp : s.phase with
  | queries todo =>
    rw [hp] at hin
    rcases hin with ⟨hall, hclean⟩
    cases todo with
    | nil =>
      have hstep : s.step cfg = s.enter .microtasks := by
        simp only [step, hstack, stepPhase, hp]
      rw [hstep]
      refine .of_asking (by intro hidle; cases hidle) hquery ⟨hstack, hbatches, hbuffered, htask, hunhandled, ?_⟩
      rcases hclean with hrefused | ⟨hanswering, _⟩
      · cases hrefused
      · exact hanswering
    | cons job todo =>
      cases job with
      | queryWorkflow queryId outcome =>
        cases outcome with
        | error e =>
          rw [step_refused hstack hp] at hlive
          exact absurd hlive (not_live_fail _ e)
        | ok handling =>
          rw [step_query hstack hp]
          refine .of_asking (by intro hidle; cases hidle) hquery
            ⟨hstack, hbatches, hbuffered, htask, hunhandled, ?_⟩
          refine ⟨(Bool.and_eq_true_iff.1 hall).2, ?_⟩
          rcases hclean with hrefused | ⟨⟨hrejections, hresponds⟩, hcleans⟩
          · exact Or.inl hrefused
          · rcases Bool.and_eq_true_iff.1 hcleans with ⟨hjob, hrest⟩
            rcases clean_cases hjob with ⟨hleft, o, response, hanswer, hresponse⟩
            refine Or.inr ⟨⟨?_, ?_⟩, hrest⟩
            · simp [hrejections, hleft]
            · intro m hm
              rcases List.mem_append.1 hm with hold | hnew
              · exact hresponds m hold
              · have hm : m = .respond queryId o := by simpa [hanswer] using hnew
                exact ⟨queryId, o, response, hm, hresponse⟩
      | _ => cases hall
  | microtasks =>
    rw [hp] at hin
    have hanswering : s.Answering cfg := hin
    cases hm : s.microtasks with
    | nil =>
      rw [step_answered hstack hp hm hquery]
      exact .of_asking (by intro hidle; cases hidle) hquery
        ⟨hstack, hbatches, hbuffered, htask, hunhandled, hanswering, hm⟩
    | cons m rest =>
      rcases hanswering.2 m (by simp [hm]) with ⟨queryId, o, response, rfl, hresponse⟩
      rw [step_respond hstack hp hm, hresponse]
      have hphase' : (({ s with microtasks := rest } : Vm σ).pushCommand (.query queryId)
          (.respondToQuery queryId response)).phase = .microtasks := hp
      refine .of_asking hphase hquery ⟨hstack, hbatches, hbuffered, htask, hunhandled, ?_⟩
      rw [hphase']
      refine ⟨hanswering.1, ?_⟩
      intro m' hm'
      exact hanswering.2 m' (by simp [hm, show m' ∈ rest from hm'])
  | conclude =>
    rw [hp] at hin
    rcases hin with ⟨hanswering, hmicrotasks⟩
    rw [step_conclude hstack hp hbuffered] at hlive ⊢
    exact .of_resting (resting_succeed hbuffered hmicrotasks htask hunhandled
      (fun _ => hanswering.1) hlive)
  | idle => exact absurd hp hphase
  | jobs | unblock | started | outer =>
    rw [hp] at hin
    cases hin

theorem Sound.step (h : s.Sound cfg) (hdrained : s.Drained) (hlive : Live (s.step cfg)) :
    (s.step cfg).Sound cfg := by
  by_cases hphase : s.phase = .idle
  · have hrest := h.resting hphase
    have hstep : s.step cfg = s := by simp only [Vm.step, hrest.stack, stepPhase, hphase]
    rw [hstep]
    exact h
  · cases hquery : s.query with
    | true => exact Sound.step_asking (h.asking hphase hquery) hphase hquery hlive
    | false =>
      have hunhandled := h.working hphase hquery
      rcases step_ends cfg hphase with hbusy | ⟨t, e, heq⟩ | ⟨heq, hconclude, hbuffered⟩
      · have hkept := kept_move (step_move cfg s) hbusy
        exact .of_working hbusy (hkept.1.trans hquery) (hkept.2 ▸ hunhandled)
      · rw [heq] at hlive
        exact absurd hlive (not_live_fail t e)
      · rcases hdrained.conclude hconclude with ⟨_, hmicrotasks, htask⟩
        rw [heq] at hlive ⊢
        refine .of_resting (resting_succeed hbuffered hmicrotasks (htask hquery) hunhandled ?_ hlive)
        intro hyes
        simp [hquery] at hyes

theorem Sound.activate (h : s.Resting) {a : WorkflowActivation}
    (hclean : a.jobs.any Job.isQuery = true → a.jobs.all Job.isQuery = true → a.isClean cfg = true)
    (hlive : Live (s.activate a)) : (s.activate a).Sound cfg := by
  unfold Vm.activate at hlive ⊢
  split
  · rename_i hany
    rw [if_pos hany] at hlive
    split
    · rename_i hall
      have hjobs : a.jobs.any Job.isRefused = true ∨ a.jobs.all (Job.isCleanQuery cfg) = true :=
        Bool.or_eq_true_iff.1 (hclean hany hall)
      refine .of_asking nofun rfl ⟨h.stack, h.batches, h.buffered, h.taskError, h.unhandled, hall, ?_⟩
      refine hjobs.imp_right ?_
      intro hcleans
      refine ⟨⟨h.rejections, ?_⟩, hcleans⟩
      intro m hm
      have hm : m ∈ s.microtasks := hm
      simp [h.microtasks] at hm
    · rename_i hmixed
      rw [if_neg hmixed] at hlive
      exact absurd hlive (not_live_fail _ _)
  · rename_i hany
    rw [if_neg hany] at hlive
    split
    · rename_i hprepare
      rw [hprepare] at hlive
      exact absurd hlive (not_live_fail _ _)
    · rename_i hprepare hseed
      rw [hprepare, hseed] at hlive
      exact absurd hlive (not_live_fail _ _)
    · have hbusy : ({ s.begin a with batches := batchesOf a } : Vm σ).nextBatch.phase ≠ .idle := by
        unfold nextBatch
        split
        · nofun
        · split <;> nofun
      have hkept := kept_of_quiet (Quiet.nextBatch { s.begin a with batches := batchesOf a })
      refine .of_working hbusy hkept.1 ?_
      rw [hkept.2]
      exact h.unhandled

/-- The invariant of a run whose query activations are clean. -/
def Kept (cfg : Config σ) (s : Vm σ) : Prop := s.Drained ∧ (Live s → s.Sound cfg)

theorem kept_init (cfg : Config σ) (heap : σ) : (Vm.init heap).Kept cfg :=
  ⟨drained_init heap, fun _ => .of_resting ⟨rfl, rfl, rfl, rfl, rfl, rfl, rfl, rfl, rfl⟩⟩

theorem kept_next (s : Vm σ) (i : Input) (hg : CleanQueries cfg s i) (h : s.Kept cfg) :
    (next cfg s i).Kept cfg := by
  refine ⟨drained_next s i h.1, ?_⟩
  cases i with
  | tick =>
    intro hlive
    rcases trace_step cfg s with ⟨notes, htrace⟩
    exact (h.2 (hlive.of_extension htrace)).step h.1 hlive
  | activate a =>
    simp only [next]
    split
    · rename_i hidle _
      intro hlive
      rcases trace_activate s a with ⟨notes, htrace⟩
      exact Sound.activate ((h.2 (hlive.of_extension htrace)).resting hidle) (hg hidle) hlive
    · exact h.2

theorem resting_of_run (heap : σ) (inputs : List Input)
    (hg : Guarded (next cfg) (CleanQueries cfg) (Vm.init heap) inputs)
    (hidle : (run (next cfg) (Vm.init heap) inputs).phase = .idle)
    (hlive : Live (run (next cfg) (Vm.init heap) inputs)) :
    (run (next cfg) (Vm.init heap) inputs).Resting :=
  ((run_invariant kept_next (kept_init cfg heap) hg).2 hlive).resting hidle

/-! ## A query activation, run to its end -/

/-- The promise of a query, with the query's id. -/
abbrev Question := String × Outcome

end Vm

def Job.question : Job → Option Vm.Question
  | queryWorkflow queryId (.ok handling) => handling.answer.map fun o => (queryId, o)
  | _ => none

def Job.leftRejected : Job → Option JsValue
  | queryWorkflow _ (.ok handling) => handling.leftRejected
  | _ => none

namespace Vm

def answer (cfg : Config σ) (q : Question) : Option (Origin × Command) :=
  match queryResponse cfg q.2 with
  | .ok response => some (.query q.1, .respondToQuery q.1 response)
  | .error _ => none

/-- What a converter throws instead of an answer. -/
def refusal (cfg : Config σ) (q : Question) : Option JsValue :=
  match queryResponse cfg q.2 with
  | .ok _ => none
  | .error e => some e

/-- The handlers of `jobs` have been called in `s`; the questions in `done` have been answered. -/
def asked (cfg : Config σ) (s : Vm σ) (jobs : List Job) (done todo : List Question) (phase : Phase) :
    Vm σ :=
  { s with
    query := true
    info := { s.info with isReplaying := true }
    phase := phase
    microtasks := todo.map fun q => .respond q.1 q.2
    commands := done.filterMap (answer cfg)
    rejections := jobs.filterMap Job.leftRejected ++ done.filterMap (refusal cfg)
    trace := s.trace ++ Note.activated true ::
      (done.filterMap (answer cfg)).map fun c => .pushed c.1 c.2 }

/-- `t` comes after `s` without another activation. -/
def Ticks (cfg : Config σ) (s t : Vm σ) : Prop :=
  ∃ n, run (next cfg) s (List.replicate n .tick) = t

theorem Ticks.refl (cfg : Config σ) (s : Vm σ) : Ticks cfg s s := ⟨0, rfl⟩

theorem Ticks.step (h : Ticks cfg (s.step cfg) t) : Ticks cfg s t := by
  rcases h with ⟨n, hn⟩
  exact ⟨n + 1, hn⟩

theorem Ticks.trans {u : Vm σ} (h : Ticks cfg s t) (h' : Ticks cfg t u) : Ticks cfg s u := by
  rcases h with ⟨n, rfl⟩
  rcases h' with ⟨m, rfl⟩
  refine ⟨n + m, ?_⟩
  rw [List.replicate_add, run_append]

theorem Ticks.unique {u : Vm σ} (h : Ticks cfg s t) (hphase : t.phase = .idle) (hstack : t.stack = [])
    (h' : Ticks cfg s u) (hphase' : u.phase = .idle) (hstack' : u.stack = []) : u = t := by
  rcases h with ⟨n, rfl⟩
  rcases h' with ⟨m, rfl⟩
  rcases Nat.le_total n m with hle | hle
  · rcases Nat.exists_eq_add_of_le hle with ⟨d, rfl⟩
    rw [List.replicate_add, run_append]
    exact run_ticks_idle cfg hphase hstack d
  · rcases Nat.exists_eq_add_of_le hle with ⟨d, rfl⟩
    rw [List.replicate_add, run_append]
    exact (run_ticks_idle cfg hphase' hstack' d).symm

theorem beginQueries_eq (cfg : Config σ) (h : s.Resting) (jobs : List Job) :
    s.beginQueries jobs = s.asked cfg [] [] [] (.queries jobs) := by
  simp [beginQueries, asked, h.microtasks, h.commands, h.rejections]

theorem stack_asked (h : s.Resting) (jobs : List Job) (done todo : List Question) (phase : Phase) :
    (s.asked cfg jobs done todo phase).stack = [] := h.stack

theorem step_asked_job (cfg : Config σ) (h : s.Resting) (done todo : List Job) {job : Job}
    (hquery : job.isQuery = true) (hrefused : job.isRefused = false) :
    (s.asked cfg done [] (done.filterMap Job.question) (.queries (job :: todo))).step cfg =
      s.asked cfg (done ++ [job]) [] ((done ++ [job]).filterMap Job.question) (.queries todo) := by
  cases job with
  | queryWorkflow queryId outcome =>
    cases outcome with
    | error e => cases hrefused
    | ok handling =>
      rw [step_query (stack_asked h _ _ _ _) rfl]
      cases hleft : handling.leftRejected <;> cases hanswer : handling.answer <;>
        simp [asked, Job.question, Job.leftRejected, hleft, hanswer]
  | _ => cases hquery

theorem ticks_jobs (cfg : Config σ) (h : s.Resting) (todo rest : List Job)
    (htodo : ∀ job ∈ todo, job.isQuery = true ∧ job.isRefused = false) : ∀ done : List Job,
    Ticks cfg (s.asked cfg done [] (done.filterMap Job.question) (.queries (todo ++ rest)))
      (s.asked cfg (done ++ todo) [] ((done ++ todo).filterMap Job.question) (.queries rest)) := by
  induction todo with
  | nil =>
    intro done
    rw [List.append_nil]
    exact .refl cfg _
  | cons job todo ih =>
    intro done
    have hjob := htodo job (by simp)
    have hrest := ih (fun j hj => htodo j (List.mem_cons_of_mem _ hj)) (done ++ [job])
    refine Ticks.step ?_
    rw [List.cons_append, step_asked_job cfg h done _ hjob.1 hjob.2]
    simpa using hrest

theorem ticks_responds (cfg : Config σ) (h : s.Resting) (jobs : List Job) (todo : List Question) :
    ∀ done : List Question, Ticks cfg (s.asked cfg jobs done todo .microtasks)
      (s.asked cfg jobs (done ++ todo) [] .microtasks) := by
  induction todo with
  | nil =>
    intro done
    rw [List.append_nil]
    exact .refl cfg _
  | cons q todo ih =>
    intro done
    have hstep : (s.asked cfg jobs done (q :: todo) .microtasks).step cfg =
        s.asked cfg jobs (done ++ [q]) todo .microtasks := by
      rw [step_respond (stack_asked h _ _ _ _) rfl rfl]
      cases hr : queryResponse cfg q.2 with
      | ok response => simp [asked, pushCommand, answer, refusal, hr]
      | error e => simp [asked, leaveRejected, answer, refusal, hr]
    refine Ticks.step ?_
    rw [hstep]
    simpa using ih (done ++ [q])

/-- The state in which a query activation ends if no job throws. -/
def answered (cfg : Config σ) (s : Vm σ) (jobs : List Job) : Vm σ :=
  (s.asked cfg jobs (jobs.filterMap Job.question) [] .conclude).succeed

variable {jobs : List Job}

theorem ticks_queries (cfg : Config σ) (h : s.Resting)
    (hjobs : ∀ job ∈ jobs, job.isQuery = true ∧ job.isRefused = false) :
    Ticks cfg (s.beginQueries jobs) (s.answered cfg jobs) := by
  have hrun := ticks_jobs cfg h jobs [] hjobs []
  rw [List.append_nil, List.nil_append] at hrun
  rw [beginQueries_eq cfg h]
  refine hrun.trans (Ticks.step ?_)
  have hstart : (s.asked cfg jobs [] (jobs.filterMap Job.question) (.queries [])).step cfg =
      s.asked cfg jobs [] (jobs.filterMap Job.question) .microtasks := by
    simp only [step, stack_asked h]
    rfl
  rw [hstart]
  refine (ticks_responds cfg h jobs _ []).trans (Ticks.step ?_)
  rw [List.nil_append, step_answered (stack_asked h _ _ _ _) rfl rfl rfl]
  refine Ticks.step ?_
  have hend : ((s.asked cfg jobs (jobs.filterMap Job.question) [] .microtasks).enter .conclude).step
      cfg = s.answered cfg jobs := step_conclude h.stack rfl h.buffered
  rw [hend]
  exact .refl cfg _

/-- A job that throws ends the activation. -/
theorem ticks_refused (cfg : Config σ) (h : s.Resting)
    (hjobs : jobs.all Job.isQuery = true) (hrefused : jobs.any Job.isRefused = true) :
    ∃ (t : Vm σ) (e : JsValue), Ticks cfg (s.beginQueries jobs) (t.fail e) ∧ t.query = true ∧
      t.trace = s.trace ++ [Note.activated true] := by
  have hfind : (jobs.find? Job.isRefused).isSome = true := by
    rw [List.find?_isSome]
    simpa using hrefused
  rcases Option.isSome_iff_exists.1 hfind with ⟨job, hjob⟩
  rcases List.find?_eq_some_iff_append.1 hjob with ⟨hthrows, before, after, rfl, hbefore⟩
  have hbefore' : ∀ j ∈ before, j.isQuery = true ∧ j.isRefused = false := by
    intro j hj
    exact ⟨List.all_eq_true.1 hjobs j (by simp [hj]), by simpa using hbefore j hj⟩
  have hrun := ticks_jobs cfg h before (job :: after) hbefore' []
  rw [List.nil_append] at hrun
  rw [beginQueries_eq cfg h]
  cases job with
  | queryWorkflow queryId outcome =>
    cases outcome with
    | ok handling => cases hthrows
    | error e =>
      refine ⟨(s.asked cfg before [] (before.filterMap Job.question)
        (.queries (.queryWorkflow queryId (.error e) :: after))).enter (.queries after), e,
        hrun.trans (Ticks.step ?_), rfl, rfl⟩
      rw [step_refused (stack_asked h _ _ _ _) rfl]
      exact .refl cfg _
  | _ => cases hthrows

/-! ## What a query activation leaves behind -/

theorem trace_answered (cfg : Config σ) (s : Vm σ) (jobs : List Job) :
    (s.answered cfg jobs).trace = s.trace ++ (Note.activated true ::
      ((jobs.filterMap Job.question).filterMap (answer cfg)).map fun c => Note.pushed c.1 c.2) ++
      [Note.completed (.successful ((jobs.filterMap Job.question).filterMap (answer cfg)))] := by
  simp only [answered, succeed, asked, if_true, reportRejections]
  split <;> rfl

theorem completions_answered (cfg : Config σ) (s : Vm σ) (jobs : List Job) :
    completions (s.answered cfg jobs).trace = completions s.trace ++
      [Completion.successful ((jobs.filterMap Job.question).filterMap (answer cfg))] := by
  have hpushed : ∀ commands : List (Origin × Command),
      completions (commands.map fun c => Note.pushed c.1 c.2) = [] := by
    intro commands
    refine List.filterMap_eq_nil_iff.2 ?_
    intro n hn
    rcases List.mem_map.1 hn with ⟨c, _, rfl⟩
    rfl
  have hactivated : ∀ notes, completions (Note.activated true :: notes) = completions notes :=
    fun notes => rfl
  rw [trace_answered, completions_append, completions_append, hactivated, hpushed, List.append_nil]
  rfl

/-- The rejected promises after the answers. -/
def rejectionsOf (cfg : Config σ) (jobs : List Job) : List JsValue :=
  jobs.filterMap Job.leftRejected ++ (jobs.filterMap Job.question).filterMap (refusal cfg)

theorem answered_of_none (cfg : Config σ) (h : s.Resting) (hnone : rejectionsOf cfg jobs = []) :
    s.answered cfg jobs = { s with
      query := true
      info := { s.info with isReplaying := true }
      trace := (s.answered cfg jobs).trace } := by
  rw [trace_answered]
  have hrejections : ((s.asked cfg jobs (jobs.filterMap Job.question) [] .conclude).spliceCommands.finish
      (.successful ((jobs.filterMap Job.question).filterMap (answer cfg)))).rejections = [] := hnone
  have hnone' : jobs.filterMap Job.leftRejected ++
      (jobs.filterMap Job.question).filterMap (refusal cfg) = [] := hnone
  have heq : s.answered cfg jobs =
      ((s.asked cfg jobs (jobs.filterMap Job.question) [] .conclude).spliceCommands.finish
        (.successful ((jobs.filterMap Job.question).filterMap (answer cfg)))).reportRejections := rfl
  rw [heq, reportRejections, hrejections]
  simp only [List.getLast?_nil]
  simp [asked, spliceCommands, finish, hnone', h.phase, h.stack, h.batches, h.microtasks,
    h.commands, h.rejections]

theorem taskError_answered (cfg : Config σ) (s : Vm σ)
    (hsome : rejectionsOf cfg jobs ≠ []) : ∃ e, (s.answered cfg jobs).taskError = some e := by
  have hrejections : ((s.asked cfg jobs (jobs.filterMap Job.question) [] .conclude).spliceCommands.finish
      (.successful ((jobs.filterMap Job.question).filterMap (answer cfg)))).rejections =
      rejectionsOf cfg jobs := rfl
  have heq : s.answered cfg jobs =
      ((s.asked cfg jobs (jobs.filterMap Job.question) [] .conclude).spliceCommands.finish
        (.successful ((jobs.filterMap Job.question).filterMap (answer cfg)))).reportRejections := rfl
  rw [heq, reportRejections, hrejections]
  cases hlast : (rejectionsOf cfg jobs).getLast? with
  | none => exact absurd (List.getLast?_eq_none_iff.1 hlast) hsome
  | some reason => exact ⟨.unhandledRejectionError reason, rfl⟩

/-! ## One answer for each job -/

/-- The id under which the job is answered. -/
def answeredIdOf (cfg : Config σ) (job : Job) : Option String :=
  (job.question.bind (answer cfg)).bind fun c => c.2.answeredId

theorem answeredIds_answers (cfg : Config σ) (jobs : List Job) :
    answeredIds ((jobs.filterMap Job.question).filterMap (answer cfg)) =
      jobs.filterMap (answeredIdOf cfg) := by
  unfold answeredIds
  rw [List.filterMap_filterMap, List.filterMap_filterMap]
  refine List.filterMap_congr ?_
  intro job _
  unfold answeredIdOf
  cases job.question <;> rfl

theorem answeredIdOf_of_isSome {job : Job} (h : (answeredIdOf cfg job).isSome = true) :
    answeredIdOf cfg job = job.queryId := by
  unfold answeredIdOf at h ⊢
  cases job with
  | queryWorkflow queryId outcome =>
    cases outcome with
    | error e => cases h
    | ok handling =>
      simp only [Job.question, Job.queryId] at h ⊢
      cases ha : handling.answer with
      | none => simp [ha] at h
      | some o =>
        cases hr : queryResponse cfg o with
        | ok response => simp [answer, hr, Command.answeredId]
        | error e => simp [ha, answer, hr] at h
  | _ => cases h

theorem isCleanQuery_iff (cfg : Config σ) (job : Job) :
    job.isCleanQuery cfg = true ↔
      answeredIdOf cfg job = job.queryId ∧ job.queryId.isSome = true ∧ job.leftRejected = none ∧
        job.question.bind (refusal cfg) = none := by
  cases job with
  | queryWorkflow queryId outcome =>
    cases outcome with
    | error e => simp [Job.isCleanQuery, answeredIdOf, Job.question, Job.queryId]
    | ok handling =>
      simp only [Job.isCleanQuery, QueryHandling.isClean, answeredIdOf, Job.question, Job.queryId,
        Job.leftRejected]
      cases handling.answer with
      | none => simp
      | some o =>
        cases hr : queryResponse cfg o with
        | ok response =>
          simp [answer, refusal, hr, Command.answeredId, Except.isOk, Except.toBool]
        | error e => simp [answer, refusal, hr, Except.isOk, Except.toBool]
  | _ => simp [Job.isCleanQuery, Job.queryId]

theorem rejectionsOf_of_clean
    (h : ∀ job ∈ jobs, job.isCleanQuery cfg = true) : rejectionsOf cfg jobs = [] := by
  have hleft : jobs.filterMap Job.leftRejected = [] := by
    refine List.filterMap_eq_nil_iff.2 ?_
    intro job hjob
    exact ((isCleanQuery_iff cfg job).1 (h job hjob)).2.2.1
  have hrefusals : (jobs.filterMap Job.question).filterMap (refusal cfg) = [] := by
    rw [List.filterMap_filterMap]
    refine List.filterMap_eq_nil_iff.2 ?_
    intro job hjob
    exact ((isCleanQuery_iff cfg job).1 (h job hjob)).2.2.2
  rw [rejectionsOf, hleft, hrefusals]
  rfl

theorem clean_of_answered (hqueries : ∀ job ∈ jobs, job.isQuery = true)
    (hanswered : (jobs.filterMap (answeredIdOf cfg)).Perm (jobs.filterMap Job.queryId))
    (hnone : rejectionsOf cfg jobs = []) : ∀ job ∈ jobs, job.isCleanQuery cfg = true := by
  have hids : ∀ job ∈ jobs, (job.queryId).isSome = true := by
    intro job hjob
    have hquery := hqueries job hjob
    cases job with
    | queryWorkflow queryId outcome => rfl
    | _ => cases hquery
  have hlength : (jobs.filterMap (answeredIdOf cfg)).length = jobs.length := by
    rw [hanswered.length_eq]
    exact List.filterMap_length_eq_length.2 hids
  have hsome := List.filterMap_length_eq_length.1 hlength
  rcases List.append_eq_nil_iff.1 hnone with ⟨hleft, hrefusals⟩
  rw [List.filterMap_filterMap] at hrefusals
  intro job hjob
  refine (isCleanQuery_iff cfg job).2 ⟨?_, hids job hjob, List.filterMap_eq_nil_iff.1 hleft job hjob,
    List.filterMap_eq_nil_iff.1 hrefusals job hjob⟩
  exact answeredIdOf_of_isSome (hsome job hjob)

/-! ## The next activation -/

theorem process_eq (cfg : Config σ) (hphase : s.phase = .idle) (hstack : s.stack = [])
    (a : WorkflowActivation) (n : Nat) :
    process cfg s a n = run (next cfg) (s.activate a) (List.replicate n .tick) := by
  simp only [process, run_cons, next, hphase, hstack]

theorem activate_renews (s : Vm σ) (query : Bool) (info : Info) {b : WorkflowActivation}
    (hb : b.jobs.any Job.isQuery = false) :
    ({ s with query := query, info := info } : Vm σ).activate b = s.activate b := by
  unfold activate
  rw [hb]
  rfl

/-- After clean queries, another activation does what it would have done before them. -/
theorem same_completions (cfg : Config σ) (h : s.Resting)
    (hnone : rejectionsOf cfg jobs = []) {b : WorkflowActivation}
    (hb : b.jobs.any Job.isQuery = false) (m : Nat) : ∃ new,
      completions (process cfg s b m).trace = completions s.trace ++ new ∧
      completions (process cfg (s.answered cfg jobs) b m).trace =
        completions (s.answered cfg jobs).trace ++ new := by
  -- Both runs are runs of the state without its history.
  let fresh : Vm σ := run (next cfg) (({ s with trace := [] } : Vm σ).activate b)
    (List.replicate m .tick)
  have hbefore : process cfg s b m = fresh.withPast s.trace := by
    have hs := activate_withPast s.trace { s with trace := [] } b
    rw [withPast_forget] at hs
    rw [process_eq cfg h.phase h.stack, hs, ticks_withPast]
  have hanswered := answered_of_none cfg h hnone
  have hafter : process cfg (s.answered cfg jobs) b m =
      fresh.withPast (s.answered cfg jobs).trace := by
    have hphase : (s.answered cfg jobs).phase = .idle := by
      rw [hanswered]
      exact h.phase
    have hstack : (s.answered cfg jobs).stack = [] := by
      rw [hanswered]
      exact h.stack
    have hforget : ({ s.answered cfg jobs with trace := [] } : Vm σ).activate b =
        ({ s with trace := [] } : Vm σ).activate b := by
      rw [hanswered]
      exact activate_renews { s with trace := [] } true _ hb
    have hs := activate_withPast (s.answered cfg jobs).trace
      { s.answered cfg jobs with trace := [] } b
    rw [withPast_forget, hforget] at hs
    rw [process_eq cfg hphase hstack, hs, ticks_withPast]
  refine ⟨completions fresh.trace, ?_, ?_⟩
  · rw [hbefore]
    exact completions_append _ _
  · rw [hafter]
    exact completions_append _ _

/-- An activation without jobs. -/
def nothing : WorkflowActivation := ⟨⟨0, 0, false⟩, [], true⟩

/-- It comes to the check of the conditions. -/
def checking (s : Vm σ) : Vm σ :=
  { s.begin nothing with phase := .outer, batches := [] }

theorem process_nothing (cfg : Config σ) (hphase : s.phase = .idle) (hstack : s.stack = [])
    (hmicrotasks : s.microtasks = []) :
    process cfg s nothing 4 = ((s.checking).step cfg).step cfg := by
  have hjobs : (s.activate nothing).step cfg = (s.activate nothing).enter .microtasks := by
    have hstack' : (s.activate nothing).stack = [] := hstack
    simp only [step, hstack']
    rfl
  have hmicro : ((s.activate nothing).enter .microtasks).step cfg = s.checking := by
    have hstack' : ((s.activate nothing).enter .microtasks).stack = [] := hstack
    have hmicrotasks' : ((s.activate nothing).enter .microtasks).microtasks = [] := hmicrotasks
    rw [step_microtask cfg hstack' rfl, stepMicrotasks, hmicrotasks']
    rfl
  calc process cfg s nothing 4
      = ((((s.activate nothing).step cfg).step cfg).step cfg).step cfg :=
        process_eq cfg hphase hstack nothing 4
    _ = ((s.checking).step cfg).step cfg := by rw [hjobs, hmicro]

theorem step_checking (cfg : Config σ) (hstack : s.stack = []) :
    s.checking.step cfg = s.checking.unblocking afterOuter := by
  have hstack' : s.checking.stack = [] := hstack
  simp only [step, hstack']
  rfl

theorem completions_nothing_of_taskError (cfg : Config σ) (hphase : s.phase = .idle)
    (hstack : s.stack = []) (hmicrotasks : s.microtasks = []) {e : JsValue}
    (he : s.taskError = some e) :
    completions (process cfg s nothing 4).trace = completions s.trace ++ [Completion.failed e] := by
  have hfail : s.checking.step cfg = s.checking.fail e := by
    have he' : s.checking.taskError = some e := he
    rw [step_checking cfg hstack, unblocking, tryUnblockConditions_eq, he']
  have hidle : (s.checking.fail e).step cfg = s.checking.fail e := by
    have hplace := place_fail s.checking e
    have hdrained := (Drained.fail s.checking e).idle hplace.1
    simp only [step, hdrained.1, stepPhase, hplace.1]
  have htrace : (s.checking.fail e).trace = s.trace ++ [Note.activated false] ++ [Note.completed (.failed e)] := by
    unfold fail reportRejections
    split <;> rfl
  rw [process_nothing cfg hphase hstack hmicrotasks, hfail, hidle, htrace, completions_append,
    completions_append]
  simp [completions, Note.completion]

theorem completions_nothing_of_resting (cfg : Config σ) (h : s.Resting) :
    completions (process cfg s nothing 4).trace = completions s.trace ++ [Completion.successful []] := by
  have hcheck : s.checking.step cfg = s.checking.enter .conclude := by
    have he : s.checking.taskError = none := by
      have htask : s.checking.workflowTaskError.isTruthy = false := h.taskError
      simp [taskError, htask]
    rw [step_checking cfg h.stack, unblocking, tryUnblockConditions_eq, he]
    rfl
  have hconclude : (s.checking.enter .conclude).step cfg = (s.checking.enter .conclude).succeed :=
    step_conclude h.stack rfl h.buffered
  have hrejections : (s.checking.enter .conclude).spliceCommands.rejections = [] := h.rejections
  have hunhandled : (s.checking.enter .conclude).spliceCommands.unhandledRejection.isTruthy = false :=
    h.unhandled
  have hcommands : (s.checking.enter .conclude).commands = [] := h.commands
  have hquery : (s.checking.enter .conclude).query = false := rfl
  have htrace : (s.checking.enter .conclude).succeed.trace =
      s.trace ++ [Note.activated false] ++ [Note.completed (.successful [])] := by
    simp only [succeed, hquery, Bool.false_eq_true, if_false, reportRejections, hrejections,
      List.getLast?_nil, complete, hunhandled, hcommands]
    rfl
  rw [process_nothing cfg h.phase h.stack h.microtasks, hcheck, hconclude, htrace, completions_append,
    completions_append]
  simp [completions, Note.completion]

end Vm

/-! ## The result -/

variable {a : WorkflowActivation}

/-- Where a query activation of an execution between two activations ends. -/
theorem process_queries (cfg : Config σ) (h : s.Resting) (hne : a.jobs ≠ [])
    (hall : a.jobs.all Job.isQuery = true) {t : Vm σ} (hphase : t.phase = .idle) (hstack : t.stack = [])
    (hticks : Vm.Ticks cfg (s.beginQueries a.jobs) t) :
    (∃ n, process cfg s a n = t) ∧
      ∀ n, (process cfg s a n).phase = .idle → process cfg s a n = t := by
  have hany : a.jobs.any Job.isQuery = true := by
    cases hjobs : a.jobs with
    | nil => exact absurd hjobs hne
    | cons job jobs =>
      rw [hjobs] at hall
      simp [(Bool.and_eq_true_iff.1 hall).1]
  have hactivate : s.activate a = s.beginQueries a.jobs := by
    simp only [Vm.activate, hany, hall, if_true]
  have hprocess : ∀ n, process cfg s a n =
      run (next cfg) (s.beginQueries a.jobs) (List.replicate n .tick) := by
    intro n
    rw [Vm.process_eq cfg h.phase h.stack, hactivate]
  refine ⟨?_, ?_⟩
  · rcases hticks with ⟨n, hn⟩
    exact ⟨n, (hprocess n).trans hn⟩
  · intro n hidle
    have hdrained : (process cfg s a n).Drained := by
      rw [hprocess]
      refine run_invariant (G := fun _ _ => True) (fun s i _ => Vm.drained_next s i) ?_
        (guarded_true (next cfg) _ _)
      exact .of_busy trivial
    exact Vm.Ticks.unique hticks hphase hstack ⟨n, (hprocess n).symm⟩ hidle (hdrained.idle hidle).1

/-- The activation fails: there is nothing to answer. -/
theorem answeredAndInert_of_refused (cfg : Config σ) (h : s.Resting)
    (hne : a.jobs ≠ []) (hall : a.jobs.all Job.isQuery = true)
    (hrefused : a.jobs.any Job.isRefused = true) : AnsweredAndInert cfg s a := by
  rcases Vm.ticks_refused cfg h hall hrefused with ⟨t, e, hticks, hquery, htrace⟩
  have hplace := Vm.place_fail t e
  have hstack := ((Vm.Drained.fail t e).idle hplace.1).1
  rcases process_queries cfg h hne hall hplace.1 hstack hticks with ⟨⟨n, hn⟩, hunique⟩
  have hcompletions : completions (t.fail e).trace = completions s.trace ++ [Completion.rejected e] := by
    have hfail : (t.fail e).trace = t.trace ++ [Note.completed (.rejected e)] := by
      simp only [Vm.fail, hquery, if_true, Vm.reportRejections]
      split <;> rfl
    rw [hfail, htrace, completions_append, completions_append]
    simp [completions, Note.completion]
  have hnever : ∀ n commands, (process cfg s a n).phase = .idle →
      completions (process cfg s a n).trace ≠ completions s.trace ++ [Completion.successful commands] := by
    intro n commands hidle heq
    rw [hunique n hidle, hcompletions] at heq
    simp at heq
  refine ⟨⟨n, by rw [hn]; exact hplace.1⟩, ?_, ?_⟩
  all_goals
    intro n commands hidle heq
    exact absurd heq (hnever n commands hidle)

/-- No job throws: the activation answers and succeeds. -/
theorem answeredAndInert_iff_of_accepted (cfg : Config σ) (h : s.Resting)
    (hne : a.jobs ≠ []) (hall : a.jobs.all Job.isQuery = true)
    (haccepted : a.jobs.any Job.isRefused = false) :
    AnsweredAndInert cfg s a ↔ ∀ job ∈ a.jobs, job.isCleanQuery cfg = true := by
  have hjobs : ∀ job ∈ a.jobs, job.isQuery = true ∧ job.isRefused = false := by
    intro job hjob
    refine ⟨List.all_eq_true.1 hall job hjob, ?_⟩
    simpa using List.any_eq_false.1 haccepted job hjob
  have hphase : (s.answered cfg a.jobs).phase = .idle := (Vm.place_succeed _).1
  have hstack : (s.answered cfg a.jobs).stack = [] := ((Vm.Drained.succeed _).idle hphase).1
  rcases process_queries cfg h hne hall hphase hstack (Vm.ticks_queries cfg h hjobs) with
    ⟨⟨n, hn⟩, hunique⟩
  have hidle : (process cfg s a n).phase = .idle := by
    rw [hn]
    exact hphase
  have hcompletions := Vm.completions_answered cfg s a.jobs
  constructor
  · intro hinert
    have hdone : completions (process cfg s a n).trace = completions s.trace ++
        [Completion.successful ((a.jobs.filterMap Job.question).filterMap (Vm.answer cfg))] := by
      rw [hn]
      exact hcompletions
    have hanswered := hinert.answered n _ hidle hdone
    rw [Vm.answeredIds_answers] at hanswered
    refine Vm.clean_of_answered (fun job hjob => (hjobs job hjob).1) hanswered ?_
    -- A rejected promise would make the next activation fail, whatever its jobs are.
    by_contra hsome
    rcases Vm.taskError_answered cfg s hsome with ⟨e, he⟩
    rcases hinert.inert n _ hidle hdone Vm.nothing rfl 4 with ⟨new, hbefore, hafter⟩
    rw [hn, Vm.completions_nothing_of_taskError cfg hphase hstack ?_ he] at hafter
    · rw [Vm.completions_nothing_of_resting cfg h] at hbefore
      have hsame := (List.append_cancel_left hbefore).trans (List.append_cancel_left hafter).symm
      simp at hsame
    · simp only [Vm.answered, Vm.succeed, Vm.asked, if_true, Vm.reportRejections]
      split <;> rfl
  · intro hclean
    have hnone := Vm.rejectionsOf_of_clean hclean
    refine ⟨⟨n, hidle⟩, ?_, ?_⟩
    · intro n commands hidle heq
      rw [hunique n hidle, hcompletions] at heq
      have hcommands : (a.jobs.filterMap Job.question).filterMap (Vm.answer cfg) = commands := by
        simpa using heq
      have hids : a.jobs.filterMap (Vm.answeredIdOf cfg) = a.jobs.filterMap Job.queryId := by
        refine List.filterMap_congr ?_
        intro job hjob
        exact ((Vm.isCleanQuery_iff cfg job).1 (hclean job hjob)).1
      rw [← hcommands, Vm.answeredIds_answers, hids]
    · intro n commands hidle _ b hb m
      rw [hunique n hidle]
      exact Vm.same_completions cfg h hnone hb m

/-- Between two activations of a run that has not failed, and whose query activations were clean, a
query activation is answered and inert exactly if it is clean as well. -/
theorem queries_answered_and_inert_iff (cfg : Config σ) (heap : σ) (inputs : List Input)
    (a : WorkflowActivation) :
    let s := run (next cfg) (Vm.init heap) inputs
    Guarded (next cfg) (CleanQueries cfg) (Vm.init heap) inputs → s.phase = .idle → Live s →
    a.jobs ≠ [] → a.jobs.all Job.isQuery = true →
    (AnsweredAndInert cfg s a ↔ a.isClean cfg = true) := by
  intro s hg hidle hlive hne hall
  have hrest : s.Resting := Vm.resting_of_run heap inputs hg hidle hlive
  cases hrefused : a.jobs.any Job.isRefused with
  | true =>
    refine iff_of_true (answeredAndInert_of_refused cfg hrest hne hall hrefused) ?_
    simp [WorkflowActivation.isClean, hrefused]
  | false =>
    rw [answeredAndInert_iff_of_accepted cfg hrest hne hall hrefused]
    simp [WorkflowActivation.isClean, hrefused]

/-- The default converter has no payload for a `bigint`. -/
def defaultConfig : Config Unit :=
  { plainConfig rejectsUpdates with
    toPayload := fun
      | .bigint n => .error (.builtin "ValueError" ("Unable to convert " ++ toString n ++ " to payload"))
      | _ => .ok "result" }

def startRun : List Input := activation 20 [Job.initializeWorkflow [] (.ok ())]

/-- `rejectsUpdates` waits, and is queried. -/
def queriedVm : Vm Unit := run (next defaultConfig) (Vm.init ()) startRun

def queries (jobs : List Job) : WorkflowActivation := ⟨⟨5, 3, true⟩, jobs, true⟩

/-- A value, an exception, an `async` handler and a missing handler. -/
def cleanQueries : WorkflowActivation :=
  queries [Job.queryWorkflow "1" (.ok (.returned (.string "state"))),
    .queryWorkflow "2" (.ok (.threw (.typeError "no state"))),
    .queryWorkflow "3" (.ok (.promise none)),
    .queryWorkflow "4" (.ok (.noHandler "q" []))]

theorem cleanQueries_answered_and_inert :
    queriedVm.blockedConditions.length = 1 ∧
    (∃ commands, completions (process defaultConfig queriedVm cleanQueries 20).trace =
      completions queriedVm.trace ++ [.successful commands] ∧
      answeredIds commands = ["1", "2", "3", "4"]) ∧
    AnsweredAndInert defaultConfig queriedVm cleanQueries := by
  refine ⟨by decide +kernel, ⟨[(.query "1", .respondToQuery "1" (.succeeded "result")),
    (.query "2", .respondToQuery "2" (.failed "failure")),
    (.query "3", .respondToQuery "3" (.failed "failure")),
    (.query "4", .respondToQuery "4" (.failed "failure"))], by decide +kernel, by decide⟩, ?_⟩
  exact (queries_answered_and_inert_iff defaultConfig () startRun cleanQueries (by decide +kernel)
    (by decide +kernel) (by decide +kernel) nofun rfl).2 (by decide +kernel)

/-- A handler that returns a `bigint`. -/
def bigintQuery : WorkflowActivation := queries [Job.queryWorkflow "1" (.ok (.returned (.bigint 1)))]

/-- An `async` handler that throws. -/
def asyncQuery : WorkflowActivation :=
  queries [Job.queryWorkflow "1" (.ok (.promise (some (.typeError "no state"))))]

/-- A handler that returns an object whose `then` does nothing. -/
def silentQuery : WorkflowActivation := queries [Job.queryWorkflow "1" (.ok (.thenable none))]

/-- The first and the last query are not answered.  After the first two ones the next activation
fails, which it does not without them. -/
theorem not_answered_and_inert :
    ¬ AnsweredAndInert defaultConfig queriedVm bigintQuery ∧
    ¬ AnsweredAndInert defaultConfig queriedVm asyncQuery ∧
    ¬ AnsweredAndInert defaultConfig queriedVm silentQuery := by
  refine ⟨?_, ?_, ?_⟩
  · intro h
    have hperm := h.answered 20 [] (by decide +kernel) (by decide +kernel)
    exact absurd hperm (by decide)
  · intro h
    have hdone : completions (process defaultConfig queriedVm asyncQuery 20).trace =
        completions queriedVm.trace ++
          [Completion.successful [(.query "1", .respondToQuery "1" (.failed "failure"))]] := by
      decide +kernel
    rcases h.inert 20 _ (by decide +kernel) hdone Vm.nothing rfl 20 with ⟨new, hbefore, hafter⟩
    have hnew : new = [Completion.successful []] := by
      have hrun : completions (process defaultConfig queriedVm Vm.nothing 20).trace =
          completions queriedVm.trace ++ [Completion.successful []] := by decide +kernel
      exact List.append_cancel_left (hbefore.symm.trans hrun)
    rw [hnew] at hafter
    exact absurd hafter (by decide +kernel)
  · intro h
    have hperm := h.answered 20 [] (by decide +kernel) (by decide +kernel)
    exact absurd hperm (by decide)

end TemporalSdk.Activation
