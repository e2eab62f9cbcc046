import TemporalSdk.Activation.Steps

/-!
# Moves — everything that one step can do

Most steps are `Quiet`.  The others push a command of the program, settle a call, answer an update,
react to the outcome of a call or complete the activation.  `step_move` says that there are no others;
the invariants of later modules go through these cases and not through the machine.
-/

namespace TemporalSdk.Activation

variable {σ : Type} {cfg : Config σ} {s t : Vm σ}

/-- The update `u` is taken from the buffer, or from the job that brings it, and nothing else
happens. -/
structure Taken (s t : Vm σ) (u : DoUpdate) : Prop where
  quiet : Quiet s t
  heap : t.heap = s.heap
  info : t.info = s.info
  handlers : t.inbox.updateHandlers = s.inbox.updateHandlers
  default : t.inbox.defaultUpdateHandler = s.inbox.defaultUpdateHandler
  source : (u ∈ s.inbox.bufferedUpdates ∧ t.trace = s.trace) ∨
    t.trace = s.trace ++ [.updateArrived u]

inductive Move (cfg : Config σ) (s : Vm σ) : Vm σ → Prop
  | quiet {t : Vm σ} : Quiet s t → Move cfg s t
  | command {t : Vm σ} {c : Caller} {id : Nat} : s.Mentions c →
      Quiet (s.pushCommand (.code c) (.user id)) t → Move cfg s t
  | respond {t : Vm σ} (queryId : String) (response : QueryResponse) :
      Quiet (s.pushCommand (.query queryId) (.respondToQuery queryId response)) t → Move cfg s t
  | unhandled {t : Vm σ} {reason : JsValue} : Quiet (s.leaveRejected reason) t → Move cfg s t
  | settle {t : Vm σ} {c : Caller} {o : Outcome} {rest : List (Frame σ)} :
      s.stack = .code c (.settle o) :: rest → Quiet s t → Move cfg s (t.settleCall c o)
  | update {t : Vm σ} {u : DoUpdate} {entry : UpdateHandler σ} : Taken s t u →
      t.updateEntry u.name = some entry → Move cfg s (t.doUpdateImpl cfg u entry)
  | reject {t : Vm σ} {u : DoUpdate} {failure : Failure} : Taken s t u →
      Move cfg s (t.pushCommand (.update u)
        (.updateResponse u.protocolInstanceId (.rejected failure)))
  | reaction {m : Microtask σ} {microtasks : List (Microtask σ)} : s.stack = [] →
      s.phase = .microtasks → s.microtasks = m :: microtasks → m.isReaction = true →
      Move cfg s ({ s with microtasks := microtasks }.runMicrotask cfg m)
  | fail {t : Vm σ} {e : JsValue} : Quiet s t → Move cfg s (t.fail e)
  | succeed : s.phase = .conclude → s.stack = [] → s.inbox.bufferedUpdates = [] →
      Move cfg s s.succeed

variable {rest : List (Frame σ)}

theorem Vm.mentions_top {f : Frame σ} (hstack : s.stack = f :: rest) :
    s.Mentions f.caller := Or.inl ⟨f, by simp [hstack], rfl⟩

namespace Quiet

theorem goOn (h : Quiet s t) {f : Frame σ} (hstack : t.stack = f :: rest)
    (code : Prog σ) : Quiet s (t.continueWith f.caller code rest) :=
  h.trans (continueWith t code hstack)

theorem setInbox (s : Vm σ) (inbox : Inbox σ) : Quiet s { s with inbox := inbox } :=
  of_eq rfl rfl rfl rfl rfl

theorem setNextNum (s : Vm σ) (n : Nat) : Quiet s { s with nextNum := n } :=
  of_eq rfl rfl rfl rfl rfl

theorem signalWorkflow (cfg : Config σ) (s : Vm σ) (sig : SignalWorkflow) :
    Quiet s (s.signalWorkflow cfg sig).1 := by
  rcases Vm.signalWorkflow_any cfg s sig with ⟨n, e, heq, _⟩ | heq | ⟨code, heq⟩
  · rw [heq]
    exact setNextNum s n
  · rw [heq]
    exact setInbox s _
  · rw [heq]
    refine (note s (n := .signalHanded sig s.nextNum) rfl).trans (call _ ?_ code)
    intro num pid h
    cases h

end Quiet

namespace Vm

theorem move_doUpdate (cfg : Config σ) {u : DoUpdate} (h : Taken s t u) :
    ((t.doUpdate cfg u).2 = none ∧ Move cfg s (t.doUpdate cfg u).1) ∨
      ((t.doUpdate cfg u).2 ≠ none ∧ (t.doUpdate cfg u).1 = t) := by
  rcases doUpdate_any cfg t u with ⟨e, heq⟩ | ⟨_, heq⟩ | ⟨entry, hentry, heq⟩
  · exact Or.inr ⟨by simp [heq], by simp [heq]⟩
  · refine Or.inl ⟨by simp [heq], ?_⟩
    rw [heq]
    exact .quiet (h.quiet.trans (.setInbox t _))
  · refine Or.inl ⟨by simp [heq], ?_⟩
    rw [heq]
    exact .update h hentry

theorem move_stepCode {c : Caller} {code : Prog σ}
    (hstack : s.stack = .code c code :: rest) : Move cfg s (s.stepCode c rest code) := by
  have hc : s.Mentions c := mentions_top hstack
  rcases stepCode_cases hstack with
    hq | ⟨id, k, _, heq⟩ | ⟨reason, k, _, heq⟩ | ⟨o, hcode, heq⟩
  · exact .quiet hq
  · rw [heq]
    exact .command hc ((Quiet.refl (s.pushCommand _ _)).goOn hstack k)
  · rw [heq]
    exact .unhandled ((Quiet.refl (s.leaveRejected _)).goOn hstack k)
  · rw [heq]
    refine .settle (hcode ▸ hstack) (.replaceTop s hstack ?_)
    intro g hg
    exact Or.inr hg

theorem move_stepDispatchSignals {c : Caller} {k : Option JsValue → Prog σ}
    (hstack : s.stack = .dispatchSignals c k :: rest) :
    Move cfg s (s.stepDispatchSignals cfg c k rest) := by
  unfold stepDispatchSignals
  cases nextBufferedSignal s.inbox with
  | none => exact .quiet (.continueWith s (k none) hstack)
  | some r =>
    have htake := Quiet.setInbox s { s.inbox with bufferedSignals := r.2 }
    have hcall := htake.trans (.signalWorkflow cfg _ r.1)
    rcases signalWorkflow_any cfg { s with inbox.bufferedSignals := r.2 } r.1
      with ⟨n, e, heq, _⟩ | heq | ⟨code, heq⟩
    · rw [heq] at hcall
      simp only [heq]
      exact .quiet (hcall.goOn hstack (k (some e)))
    all_goals
      rw [heq] at hcall
      simp only [heq]
      exact .quiet hcall

theorem move_stepDispatchUpdates {c : Caller} {k : Option JsValue → Prog σ}
    (hstack : s.stack = .dispatchUpdates c k :: rest) :
    Move cfg s (s.stepDispatchUpdates cfg c k rest) := by
  unfold stepDispatchUpdates
  cases hnext : nextBufferedUpdate s.inbox with
  | none => exact .quiet (.continueWith s (k none) hstack)
  | some r =>
    rcases r with ⟨u, remaining⟩
    rcases takeFirst_some hnext with ⟨_, front, back, hbuffer, _, _⟩
    have htake : Taken s { s with inbox.bufferedUpdates := remaining } u :=
      ⟨.setInbox s _, rfl, rfl, rfl, rfl, Or.inl ⟨by simp [hbuffer], rfl⟩⟩
    have hmove := move_doUpdate cfg htake
    dsimp only
    split
    all_goals
      rename_i hr
      rw [hr] at hmove
    · rcases hmove with ⟨_, hmove⟩ | ⟨hne, _⟩
      · exact hmove
      · exact absurd rfl hne
    · rcases hmove with ⟨hnone, _⟩ | ⟨_, rfl⟩
      · cases hnone
      · exact .quiet (htake.quiet.goOn hstack _)

theorem quiet_respond (s : Vm σ) (phase : Phase) (queryId : String) (answer : Option Outcome) :
    Quiet s { s.enter phase with
      microtasks := s.microtasks ++ (answer.map (Microtask.respond queryId)).toList } := by
  refine ⟨?_, ⟨[], by simp [enter], by simp⟩, ?_⟩
  · cases answer <;> simp [core, reactions, enter, Microtask.isReaction]
  · rintro num pid (hstack | ⟨code, hcode⟩ | hcb)
    · exact Or.inl hstack
    · refine Or.inr (Or.inl ⟨code, ?_⟩)
      cases answer with
      | none | some => simpa [enter] using hcode
    · exact Or.inr (Or.inr hcb)

theorem move_queryWorkflow (cfg : Config σ) (s : Vm σ) (phase : Phase) (queryId : String)
    (handling : QueryHandling) : Move cfg s ((s.enter phase).queryWorkflow queryId handling) := by
  rw [queryWorkflow_eq]
  cases handling.leftRejected with
  | none =>
    have hquiet := quiet_respond s phase queryId handling.answer
    simpa [enter] using Move.quiet hquiet
  | some reason => exact .unhandled (quiet_respond (s.leaveRejected reason) phase queryId handling.answer)

/-- A job is quiet, except that it may bring an update, or a query. -/
theorem move_runJob (cfg : Config σ) (s : Vm σ) (phase : Phase) (job : Job) :
    Quiet s ((s.enter phase).runJob cfg job).1 ∨
      (((s.enter phase).runJob cfg job).2 = none ∧
        Move cfg s ((s.enter phase).runJob cfg job).1) := by
  have henter : Quiet s (s.enter phase) := .enter s phase
  cases job with
  | signalWorkflow sig =>
    have hnote : Quiet s ((s.enter phase).note (.signalArrived sig)) :=
      henter.trans (.note _ rfl)
    exact Or.inl (hnote.trans (.signalWorkflow cfg _ sig))
  | doUpdate u =>
    have htake : Taken s ((s.enter phase).note (.updateArrived u)) u :=
      ⟨henter.trans (.note _ rfl), rfl, rfl, rfl, rfl, Or.inr rfl⟩
    rcases move_doUpdate cfg htake with hmove | ⟨_, heq⟩
    · exact Or.inr hmove
    · refine Or.inl ?_
      simp only [runJob, heq]
      exact htake.quiet
  | initializeWorkflow _ outcome | notifyHasPatch outcome | updateRandomSeed outcome =>
    cases outcome with
    | ok | error => exact Or.inl henter
  | cancelWorkflow =>
    have hcancel : Quiet (s.enter phase) { s.enter phase with cancelled := true } :=
      .of_eq rfl rfl rfl rfl rfl
    exact Or.inl ((henter.trans hcancel).trans (.settlePromise _ _ _))
  | resolve completion =>
    cases completion with
    | error _ => exact Or.inl henter
    | ok r => exact Or.inl (henter.trans (.settlePromise _ r.1 r.2))
  | queryWorkflow queryId outcome =>
    cases outcome with
    | error _ => exact Or.inl henter
    | ok handling =>
      refine Or.inr ⟨rfl, ?_⟩
      simp only [runJob]
      exact move_queryWorkflow cfg s phase queryId handling

theorem move_orFail_runJob (cfg : Config σ) (s : Vm σ) (phase : Phase) (job : Job) :
    Move cfg s (orFail ((s.enter phase).runJob cfg job)) := by
  unfold orFail
  rcases move_runJob cfg s phase job with hq | ⟨hnone, hmove⟩
  · cases ((s.enter phase).runJob cfg job).2 with
    | none => exact .quiet hq
    | some e => exact .fail hq
  · rw [hnone]
    exact hmove

theorem move_unblocking (cfg : Config σ) (s : Vm σ) {k : Vm σ → Nat → Vm σ}
    (hk : ∀ t n, Quiet t (k t n)) : Move cfg s (s.unblocking k) := by
  unfold unblocking
  cases hr : s.tryUnblockConditions with
  | error e => exact .fail (.refl s)
  | ok r => exact .quiet ((Quiet.tryUnblockConditions hr).trans (hk _ _))

theorem move_stepMicrotasks (cfg : Config σ) (s : Vm σ) (hphase : s.phase = .microtasks)
    (hstack : s.stack = []) : Move cfg s (s.stepMicrotasks cfg) := by
  unfold stepMicrotasks
  cases hm : s.microtasks with
  | nil => exact .quiet (.enter s _)
  | cons m microtasks =>
    have hmem : ∀ {m'}, m' ∈ microtasks → m' ∈ s.microtasks := by
      intro m' hm'
      rw [hm]
      exact List.mem_cons_of_mem _ hm'
    cases m with
    | callback c code =>
      refine .quiet ⟨?_, ⟨[], by simp [runMicrotask], by simp⟩, ?_⟩
      · simp [core, reactions, runMicrotask, hm, Microtask.isReaction]
      · rintro num pid (⟨f, hf, hcaller⟩ | ⟨code', hcode⟩ | hcb)
        · rcases List.mem_cons.1 hf with rfl | hf
          · have hcaller : c = .update num pid := hcaller
            exact Or.inr (Or.inl ⟨code, by simp [hm, hcaller]⟩)
          · exact Or.inl ⟨f, hf, hcaller⟩
        · exact Or.inr (Or.inl ⟨code', hmem hcode⟩)
        · exact Or.inr (Or.inr hcb)
    | settled | caught => exact .reaction hstack hphase hm rfl
    | respond queryId o =>
      have hcalls : ∀ num pid, ({ s with microtasks := microtasks } : Vm σ).Mentions (.update num pid) →
          s.Mentions (.update num pid) := by
        rintro num pid (hstack | ⟨code', hcode⟩ | hcb)
        · exact Or.inl hstack
        · exact Or.inr (Or.inl ⟨code', hmem hcode⟩)
        · exact Or.inr (Or.inr hcb)
      simp only [runMicrotask_respond]
      cases queryResponse cfg o with
      | ok response =>
        refine .respond queryId response ⟨?_, ⟨[], by simp [pushCommand], by simp⟩, hcalls⟩
        simp [core, reactions, pushCommand, hm, Microtask.isReaction]
      | error e =>
        have hquiet : Quiet (s.leaveRejected e)
            (({ s with microtasks := microtasks } : Vm σ).leaveRejected e) := by
          refine ⟨?_, ⟨[], by simp [leaveRejected], by simp⟩, hcalls⟩
          simp [core, reactions, leaveRejected, hm, Microtask.isReaction]
        exact .unhandled hquiet

theorem move_stepConclude (cfg : Config σ) (s : Vm σ) (hphase : s.phase = .conclude)
    (hstack : s.stack = []) : Move cfg s (s.stepConclude cfg) := by
  unfold stepConclude
  cases hu : s.inbox.bufferedUpdates with
  | nil => exact .succeed hphase hstack hu
  | cons u updates =>
    have htake : Taken s { s with inbox.bufferedUpdates := updates } u :=
      ⟨.setInbox s _, rfl, rfl, rfl, rfl, Or.inl ⟨by simp [hu], rfl⟩⟩
    simp only [orFail, rejectUpdate]
    cases cfg.errorToFailure (noHandlerError u) with
    | ok failure => exact .reject htake
    | error e => exact .fail htake.quiet

theorem move_stepPhase (cfg : Config σ) (s : Vm σ) (hstack : s.stack = []) :
    Move cfg s (s.stepPhase cfg) := by
  unfold stepPhase
  split
  · exact .quiet (.refl s)
  · exact move_orFail_runJob cfg s _ _
  · exact .quiet (.enter s _)
  · rename_i arguments batch _
    split
    · unfold startWorkflow
      cases cfg.arrayFromPayloads arguments with
      | ok args =>
        refine .quiet ((Quiet.enter s .started).trans (.call _ ?_ _))
        intro num pid h
        cases h
      | error e => exact .fail (.enter s .started)
    · exact .fail (.refl s)
  · exact move_unblocking cfg s fun t _ => .enter t _
  · exact move_unblocking cfg s fun t _ => .enter t _
  · rename_i hphase
    exact move_stepMicrotasks cfg s hphase hstack
  · refine move_unblocking cfg s ?_
    intro t n
    unfold afterOuter
    split
    · exact .nextBatch t
    · exact .enter t _
  · exact move_orFail_runJob cfg s _ _
  · exact .quiet (.enter s _)
  · rename_i hphase
    exact move_stepConclude cfg s hphase hstack

theorem step_move (cfg : Config σ) (s : Vm σ) : Move cfg s (s.step cfg) := by
  unfold step
  cases hstack : s.stack with
  | nil => exact move_stepPhase cfg s hstack
  | cons f rest =>
    cases f with
    | code c code => exact move_stepCode hstack
    | dispatchSignals c k => exact move_stepDispatchSignals hstack
    | dispatchUpdates c k => exact move_stepDispatchUpdates hstack

end Vm
end TemporalSdk.Activation
