import TemporalSdk.Client.Executions

/-!
# Updates — which run an update's outcome is polled on

`startUpdate` and `executeUpdate` of a workflow handle, and Update-With-Start, send an update until some run has
accepted it, and then poll for its outcome: while the call waits for the update to complete, and in `result()` of
the update handle.  `O` is an outcome.
-/

namespace TemporalSdk.Client
namespace Updates

open Machine

inductive WorkflowUpdateStage
  | admitted
  | accepted
  | completed
  deriving DecidableEq

/-- How an update is started: `_startUpdate` of a handle, or `_startUpdateWithStart`. -/
inductive Starter
  | workflowHandle (handle : WorkflowHandleOptions)
  | withStart
  deriving DecidableEq

/-- `executeUpdate` and `executeUpdateWithStart` wait for `COMPLETED`, and then call `result()`. -/
structure UpdateCall where
  starter : Starter
  waitForStage : WorkflowUpdateStage
  deriving DecidableEq

/-- The `runId` of the `workflowExecution` that the update is sent to. -/
def UpdateCall.runId (call : UpdateCall) : Option String :=
  match call.starter with
  | .workflowHandle handle => handle.runId
  | .withStart => none

/-- The `runId` that the call polls with while it waits, when the response has the given one. -/
def UpdateCall.pollRunId (call : UpdateCall) (workflowRunId : String) : Option String :=
  match call.starter with
  -- `this._pollForUpdateOutcome(handle.updateId, input.workflowExecution)`.
  | .workflowHandle handle => handle.runId
  | .withStart => some workflowRunId

/-- The outcome in the handle that the call makes after it has polled. -/
def UpdateCall.keepsPolled {O : Type} (call : UpdateCall) (outcome : O) : Option O :=
  match call.starter with
  | .workflowHandle _ => none
  | .withStart => some outcome

/-- A `pollWorkflowExecutionUpdate` request, on its way to the service or with it. -/
inductive Poll
  | sent (runId : Option String)
  | held (id : String)
  deriving DecidableEq

inductive Phase (O : Type)
  | starting
  | waiting (poll : Poll)
  -- The call has returned its update handle.
  | handed (outcome : Option O)
  | result (poll : Poll)
  | settled (outcome : O)
  | notFound
  deriving DecidableEq

/-- `accepted` and `outcome` are the service's record of the update, `workflowRunId` is the run id of the update
handle, and `polls` has the run ids of all poll requests. -/
structure System (P F O : Type) where
  server : Server P F
  accepted : Option String
  outcome : Option O
  workflowRunId : Option String
  phase : Phase O
  polls : List (Option String)

inductive Event (P F O : Type)
  | start (id : String) (context : Option PropagatedSerializationContext)
  | close (id : String) (ev : CloseEvent P F) (context : Option PropagatedSerializationContext)
  | accept (id : String)
  | complete (outcome : O)
  -- The response to the update request, with the outcome if `completed`.
  | respond (completed : Bool)
  | arrive
  | pollReply (completed : Bool)
  -- The caller calls `result()` of the update handle.
  | callResult

namespace System

variable {P F O : Type} (call : UpdateCall)

def init : System P F O := ⟨.init, none, none, none, .starting, []⟩

/-- A run that is open accepts the update, the given one if the request names one. -/
def accept (s : System P F O) (id : String) : System P F O :=
  match s.accepted, s.server.runs id with
  | none, some ⟨_, none⟩ =>
    if call.runId.getD "" = "" ∨ call.runId = some id then { s with accepted := some id } else s
  | _, _ => s

def complete (s : System P F O) (outcome : O) : System P F O :=
  match s.accepted, s.outcome with
  | some _, none => { s with outcome := some outcome }
  | _, _ => s

/-- The outcome that the service sends along. -/
def sent (s : System P F O) (completed : Bool) : Option O :=
  if completed then s.outcome else none

def poll (s : System P F O) (phase : Poll → Phase O) (runId : Option String) : System P F O :=
  { s with phase := phase (.sent runId), polls := s.polls ++ [runId] }

/-- The update request is sent again until the update is accepted. -/
def respond (s : System P F O) (completed : Bool) : System P F O :=
  match s.phase, s.accepted with
  | .starting, some id =>
    let s' := { s with workflowRunId := some id }
    match s.sent completed with
    | some outcome => { s' with phase := .handed (some outcome) }
    | none =>
      if call.waitForStage = .completed then s'.poll .waiting (call.pollRunId id)
      else { s' with phase := .handed none }
  | _, _ => s

/-- The service finds the run, and on it the update. -/
def found (s : System P F O) (phase : Poll → Phase O) (runId : Option String) : Phase O :=
  match s.server.resolve runId with
  | none => .notFound
  | some id => if s.accepted = some id then phase (.held id) else .notFound

def arrive (s : System P F O) : System P F O :=
  match s.phase with
  | .waiting (.sent runId) => { s with phase := s.found .waiting runId }
  | .result (.sent runId) => { s with phase := s.found .result runId }
  | _ => s

/-- One turn of the loop of `_pollForUpdateOutcome`. -/
def pollReply (s : System P F O) (completed : Bool) : System P F O :=
  match s.phase, s.sent completed with
  | .waiting (.held _), some outcome => { s with phase := .handed (call.keepsPolled outcome) }
  | .waiting (.held _), none => s.poll .waiting (call.pollRunId (s.workflowRunId.getD ""))
  | .result (.held _), some outcome => { s with phase := .settled outcome }
  | .result (.held _), none => s.poll .result s.workflowRunId
  | _, _ => s

def callResult (s : System P F O) : System P F O :=
  match s.phase with
  | .handed (some outcome) => { s with phase := .settled outcome }
  | .handed none => s.poll .result s.workflowRunId
  | _ => s

def step (s : System P F O) : Event P F O → System P F O
  | .start id context => { s with server := s.server.start id context }
  | .close id ev context => { s with server := s.server.close id ev context }
  | .accept id => s.accept call id
  | .complete outcome => s.complete outcome
  | .respond completed => s.respond call completed
  | .arrive => s.arrive
  | .pollReply completed => s.pollReply call completed
  | .callResult => s.callResult

/-- All polls name the run that accepted the update, the update is not reported as not found, and the outcome
is the update's. -/
def PolledOnAccepting (s : System P F O) : Prop :=
  (∀ runId ∈ s.polls, runId ≠ none ∧ runId = s.accepted) ∧ s.phase ≠ .notFound ∧
    ∀ outcome, s.phase = .settled outcome → s.outcome = some outcome

/-- An update that is started through a handle, and is to be waited for, is sent to a run of its own choice only
if its response has the outcome. -/
def Answered (s : System P F O) : Event P F O → Prop
  | .respond completed =>
    ∀ handle, call.starter = .workflowHandle handle → call.waitForStage = .completed →
      s.phase = .starting → s.accepted ≠ none → s.sent completed = none → handle.runId.getD "" ≠ ""
  | _ => True

/-! ## What holds of the service whatever the client does -/

/-- The run that accepted the update is there, and is the one that the update was sent to. -/
structure Sound (s : System P F O) : Prop where
  server : s.server.Sound
  found : ∀ id, s.accepted = some id → ∃ run, s.server.runs id = some run
  asked : ∀ id, s.accepted = some id → call.runId.getD "" ≠ "" → call.runId = some id

structure Kept (s : System P F O) : Prop where
  polls : ∀ runId ∈ s.polls, runId ≠ none ∧ runId = s.accepted
  begun : s.phase ≠ .starting → ∃ id, s.accepted = some id ∧ s.workflowRunId = some id
  waiting : ∀ poll, s.phase = .waiting poll → ∀ id, s.accepted = some id → call.pollRunId id = some id
  sent : ∀ runId, s.phase = .waiting (.sent runId) ∨ s.phase = .result (.sent runId) → runId = s.accepted
  outcome : ∀ outcome, s.phase = .handed (some outcome) ∨ s.phase = .settled outcome →
    s.outcome = some outcome
  found : s.phase ≠ .notFound

variable {call}

theorem client_frame (s : System P F O) (e : Event P F O)
    (he : (∃ outcome, e = .complete outcome) ∨ (∃ completed, e = .respond completed) ∨ e = .arrive ∨
      (∃ completed, e = .pollReply completed) ∨ e = .callResult) :
    (s.step call e).server = s.server ∧ (s.step call e).accepted = s.accepted := by
  rcases he with ⟨outcome, rfl⟩ | ⟨completed, rfl⟩ | rfl | ⟨completed, rfl⟩ | rfl
  · simp only [step, complete]
    split <;> exact ⟨rfl, rfl⟩
  · simp only [step, respond]
    split
    · split
      · exact ⟨rfl, rfl⟩
      · split <;> exact ⟨rfl, rfl⟩
    · exact ⟨rfl, rfl⟩
  · simp only [step, arrive]
    split <;> exact ⟨rfl, rfl⟩
  · simp only [step, pollReply]
    split <;> exact ⟨rfl, rfl⟩
  · simp only [step, callResult]
    split <;> exact ⟨rfl, rfl⟩

variable {s : System P F O}

theorem Sound.step (h : s.Sound call) (e : Event P F O) : (s.step call e).Sound call := by
  have hclient : ∀ t : System P F O, t.server = s.server ∧ t.accepted = s.accepted → t.Sound call := by
    rintro t ⟨hserver, haccepted⟩
    refine ⟨?_, ?_, ?_⟩
    · rw [hserver]
      exact h.server
    · rw [hserver, haccepted]
      exact h.found
    · rw [haccepted]
      exact h.asked
  cases e with
  | start id context =>
    refine ⟨h.server.start id context, ?_, h.asked⟩
    exact fun other hother => (Server.grows_start s.server id context).found (h.found other hother)
  | close id ev context =>
    refine ⟨h.server.close id ev context, ?_, h.asked⟩
    exact fun other hother => (Server.grows_close s.server id ev context).found (h.found other hother)
  | accept id =>
    simp only [System.step, accept]
    split
    · rename_i context haccepted hrun
      split
      · rename_i hasked
        refine ⟨h.server, ?_, ?_⟩
        · intro other hother
          cases hother
          exact ⟨_, hrun⟩
        · intro other hother hpinned
          cases hother
          exact hasked.resolve_left hpinned
      · exact h
    · exact h
  | complete outcome => exact hclient _ (client_frame s _ (Or.inl ⟨outcome, rfl⟩))
  | respond completed => exact hclient _ (client_frame s _ (Or.inr (Or.inl ⟨completed, rfl⟩)))
  | arrive => exact hclient _ (client_frame s _ (Or.inr (Or.inr (Or.inl rfl))))
  | pollReply completed =>
    exact hclient _ (client_frame s _ (Or.inr (Or.inr (Or.inr (Or.inl ⟨completed, rfl⟩)))))
  | callResult => exact hclient _ (client_frame s _ (Or.inr (Or.inr (Or.inr (Or.inr rfl)))))

theorem sound_init : (init : System P F O).Sound call :=
  ⟨Server.sound_init, nofun, nofun⟩

theorem kept_init : (init : System P F O).Kept call :=
  ⟨nofun, fun h => absurd rfl h, nofun, nofun, nofun, nofun⟩

/-! ## What the client keeps -/

/-- Another poll on the accepting run. -/
theorem Kept.poll {id : String} (hpolls : ∀ runId ∈ s.polls, runId ≠ none ∧ runId = s.accepted)
    (haccepted : s.accepted = some id) (hrunId : s.workflowRunId = some id) {phase : Poll → Phase O}
    (hphase : (phase = .waiting ∧ call.pollRunId id = some id) ∨ phase = .result) :
    (s.poll phase (some id)).Kept call := by
  refine ⟨?_, fun _ => ⟨id, haccepted, hrunId⟩, ?_, ?_, ?_, ?_⟩
  · intro runId hmem
    rcases List.mem_append.mp hmem with hold | hnew
    · exact hpolls runId hold
    · rw [List.mem_singleton.mp hnew]
      exact ⟨nofun, haccepted.symm⟩
  · intro poll hpoll other hother
    have hid : some id = some other := haccepted.symm.trans hother
    cases hid
    rcases hphase with ⟨_, hcall⟩ | rfl
    · exact hcall
    · cases hpoll
  · rcases hphase with ⟨rfl, _⟩ | rfl
    · rintro runId (hsent | hsent)
      · cases hsent
        exact haccepted.symm
      · cases hsent
    · rintro runId (hsent | hsent)
      · cases hsent
      · cases hsent
        exact haccepted.symm
  all_goals
    rcases hphase with ⟨rfl, _⟩ | rfl
    · exact nofun
    · exact nofun

theorem Kept.starting (h : s.Kept call) (hnone : s.accepted = none) :
    s.phase = .starting := by
  by_contra hphase
  rcases h.begun hphase with ⟨id, hid, _⟩
  rw [hnone] at hid
  cases hid

theorem Kept.accept (h : s.Kept call) (id : String) : (s.accept call id).Kept call := by
  unfold System.accept
  split
  · rename_i context hnone hrun
    split
    · have hphase := h.starting hnone
      refine ⟨?_, fun hne => absurd hphase hne, ?_, ?_, ?_, h.found⟩
      · intro runId hmem
        rcases h.polls runId hmem with ⟨hsome, heq⟩
        rw [hnone] at heq
        exact absurd heq hsome
      all_goals simp [hphase]
    · exact h
  · exact h

theorem Kept.complete (h : s.Kept call) (outcome : O) : (s.complete outcome).Kept call := by
  unfold System.complete
  split
  · rename_i id haccepted hnone
    refine { h with outcome := ?_ }
    intro other hother
    have hsome := h.outcome other hother
    rw [hnone] at hsome
    cases hsome
  · exact h

theorem sent_eq_some {completed : Bool} {outcome : O}
    (h : s.sent completed = some outcome) : s.outcome = some outcome := by
  unfold System.sent at h
  split at h
  · exact h
  · cases h

theorem Kept.handed {id : String}
    (hpolls : ∀ runId ∈ s.polls, runId ≠ none ∧ runId = s.accepted) (haccepted : s.accepted = some id)
    {known : Option O} (hknown : ∀ outcome, known = some outcome → s.outcome = some outcome) :
    ({ s with workflowRunId := some id, phase := .handed known } : System P F O).Kept call := by
  refine ⟨hpolls, fun _ => ⟨id, haccepted, rfl⟩, nofun, nofun, ?_, nofun⟩
  rintro outcome (h | h)
  · cases h
    exact hknown outcome rfl
  · cases h

theorem Kept.respond (h : s.Kept call) (hsound : s.Sound call) (completed : Bool)
    (hanswered : s.Answered call (.respond completed)) : (s.respond call completed).Kept call := by
  unfold System.respond
  split
  · rename_i id hphase haccepted
    cases hsent : s.sent completed with
    | some outcome =>
      apply Kept.handed h.polls haccepted
      intro other hother
      cases hother
      exact sent_eq_some hsent
    | none =>
      simp only
      split
      · rename_i hstage
        have hpoll : call.pollRunId id = some id := by
          cases hstarter : call.starter with
          | withStart => simp [UpdateCall.pollRunId, hstarter]
          | workflowHandle handle =>
            have hpinned := hanswered handle hstarter hstage hphase (by simp [haccepted]) hsent
            have hasked := hsound.asked id haccepted
            simp only [UpdateCall.runId, hstarter] at hasked
            simp [UpdateCall.pollRunId, hstarter, hasked hpinned]
        rw [hpoll]
        exact Kept.poll (s := { s with workflowRunId := some id }) h.polls haccepted rfl (Or.inl ⟨rfl, hpoll⟩)
      · exact Kept.handed h.polls haccepted nofun
  · exact h

theorem found_of_accepted (hsound : s.Sound call) {id : String}
    (haccepted : s.accepted = some id) (phase : Poll → Phase O) :
    s.found phase (some id) = phase (.held id) := by
  rcases hsound.found id haccepted with ⟨run, hrun⟩
  have hne := hsound.server.named id run hrun
  simp [System.found, Server.resolve, hne, haccepted]

theorem Kept.arrive (h : s.Kept call) (hsound : s.Sound call) : s.arrive.Kept call := by
  unfold System.arrive
  split
  · rename_i runId hphase
    rcases h.begun (by simp [hphase]) with ⟨id, haccepted, hrunId⟩
    have hfound : s.found .waiting runId = .waiting (.held id) := by
      rw [h.sent runId (Or.inl hphase), haccepted, found_of_accepted hsound haccepted]
    rw [hfound]
    refine ⟨h.polls, fun _ => ⟨id, haccepted, hrunId⟩, ?_, nofun, nofun, nofun⟩
    exact fun _ _ => h.waiting _ hphase
  · rename_i runId hphase
    rcases h.begun (by simp [hphase]) with ⟨id, haccepted, hrunId⟩
    have hfound : s.found .result runId = .result (.held id) := by
      rw [h.sent runId (Or.inr hphase), haccepted, found_of_accepted hsound haccepted]
    rw [hfound]
    exact ⟨h.polls, fun _ => ⟨id, haccepted, hrunId⟩, nofun, nofun, nofun, nofun⟩
  · exact h

theorem Kept.settled (h : s.Kept call) {outcome : O} (hbegun : s.phase ≠ .starting)
    (hout : s.outcome = some outcome) :
    ({ s with phase := .settled outcome } : System P F O).Kept call := by
  refine ⟨h.polls, fun _ => h.begun hbegun, nofun, nofun, ?_, nofun⟩
  rintro other (hother | hother)
  · cases hother
  · cases hother
    exact hout

theorem Kept.pollReply (h : s.Kept call) (completed : Bool) :
    (s.pollReply call completed).Kept call := by
  unfold System.pollReply
  split
  · rename_i held outcome hphase hsent
    rcases h.begun (by simp [hphase]) with ⟨id, haccepted, hrunId⟩
    have hknown : ∀ other, call.keepsPolled outcome = some other → s.outcome = some other := by
      intro other hother
      cases hstarter : call.starter with
      | workflowHandle handle => simp [UpdateCall.keepsPolled, hstarter] at hother
      | withStart =>
        simp only [UpdateCall.keepsPolled, hstarter, Option.some.injEq] at hother
        subst hother
        exact sent_eq_some hsent
    rw [hrunId]
    exact Kept.handed h.polls haccepted hknown
  · rename_i held hphase hsent
    rcases h.begun (by simp [hphase]) with ⟨id, haccepted, hrunId⟩
    have hpoll := h.waiting _ hphase id haccepted
    simp only [hrunId, Option.getD_some, hpoll]
    exact Kept.poll h.polls haccepted hrunId (Or.inl ⟨rfl, hpoll⟩)
  · rename_i held outcome hphase hsent
    exact h.settled (by simp [hphase]) (sent_eq_some hsent)
  · rename_i held hphase hsent
    rcases h.begun (by simp [hphase]) with ⟨id, haccepted, hrunId⟩
    rw [hrunId]
    exact Kept.poll h.polls haccepted hrunId (Or.inr rfl)
  · exact h

theorem Kept.callResult (h : s.Kept call) : s.callResult.Kept call := by
  unfold System.callResult
  split
  · rename_i outcome hphase
    exact h.settled (by simp [hphase]) (h.outcome outcome (Or.inl hphase))
  · rename_i hphase
    rcases h.begun (by simp [hphase]) with ⟨id, haccepted, hrunId⟩
    rw [hrunId]
    exact Kept.poll h.polls haccepted hrunId (Or.inr rfl)
  · exact h

theorem Kept.step (h : s.Kept call) (hsound : s.Sound call) (e : Event P F O)
    (hanswered : s.Answered call e) : (s.step call e).Kept call := by
  cases e with
  | start | close => exact { h with }
  | accept id => exact h.accept id
  | complete outcome => exact h.complete outcome
  | respond completed => exact h.respond hsound completed hanswered
  | arrive => exact h.arrive hsound
  | pollReply completed => exact h.pollReply completed
  | callResult => exact h.callResult

theorem Kept.polled (h : s.Kept call) : s.PolledOnAccepting :=
  ⟨h.polls, h.found, fun outcome hphase => h.outcome outcome (Or.inr hphase)⟩

theorem answered_of_polled (hsound : s.Sound call) (e : Event P F O)
    (h : (s.step call e).PolledOnAccepting) : s.Answered call e := by
  cases e with
  | respond completed =>
    intro handle hstarter hstage hphase haccepted hsent hrunId
    obtain ⟨id, hid⟩ := Option.ne_none_iff_exists'.mp haccepted
    have hstep : s.step call (.respond completed) =
        ({ s with workflowRunId := some id } : System P F O).poll .waiting handle.runId := by
      simp [System.step, System.respond, hphase, hid, hsent, hstage, UpdateCall.pollRunId, hstarter]
    rw [hstep] at h
    rcases h.1 handle.runId (by simp [System.poll]) with ⟨_, heq⟩
    have hsome : handle.runId = some id := heq.trans hid
    rcases hsound.found id hid with ⟨run, hrun⟩
    apply hsound.server.named id run hrun
    simpa [hsome] using hrunId
  | start | close | accept | complete | arrive | pollReply | callResult => trivial

/-- Throughout a run, all polls name the run that accepted the update exactly if no response without the outcome
comes to an `executeUpdate` of a handle that names no run. -/
theorem polled_on_accepting_run_iff (call : UpdateCall) (es : List (Event P F O)) :
    Throughout (step call) PolledOnAccepting init es ↔ Guarded (step call) (Answered call) init es := by
  constructor
  · exact guarded_of_throughout (fun s e hs => Sound.step hs e) (fun s e hs => answered_of_polled hs e) sound_init
  · have hstep : ∀ (s : System P F O) e, s.Answered call e → s.Sound call ∧ s.Kept call →
        (s.step call e).Sound call ∧ (s.step call e).Kept call :=
      fun s e he hs => ⟨hs.1.step e, hs.2.step hs.1 e he⟩
    exact throughout_of_invariant hstep (fun s hs => hs.2.polled) ⟨sound_init, kept_init⟩

end System

/-- `executeUpdate` of the handle that `start` returned. -/
def executeUpdateOfStarted : UpdateCall := ⟨.workflowHandle ⟨none, some "a", some "a", true⟩, .completed⟩

/-- The run that accepted the update completes it and continues as new before the first poll gets there. -/
def rolledOverRun : List (Event String String String) :=
  [.start "a" none, .accept "a", .respond false, .complete "done", .close "a" (.continuedAsNew "b") none, .arrive]

theorem not_polled_on_accepting_run :
    (run (System.step executeUpdateOfStarted) System.init rolledOverRun).outcome = some "done" ∧
      (run (System.step executeUpdateOfStarted) System.init rolledOverRun).phase = .notFound ∧
      ¬ Throughout (System.step executeUpdateOfStarted) System.PolledOnAccepting System.init rolledOverRun := by
  refine ⟨rfl, rfl, ?_⟩
  rintro ⟨-, -, -, -, -, -, h⟩
  exact h.2.1 rfl

end Updates
end TemporalSdk.Client
