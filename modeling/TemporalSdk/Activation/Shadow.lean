import TemporalSdk.Activation.Steps

/-!
# Shadow — an execution in which some updates never came

`s.shadow removed g` is `s` without the jobs and the buffered updates in `removed`.  The commands, the
history and the numbers of argument objects are not determined by `s`; they are `g`, and `Shadows`
relates them to those of `s` up to what the removed updates leave there.  Every operation of the
machine that is not about a removed update takes a state and its shadow to a state and its shadow.
-/

namespace TemporalSdk.Activation

variable {σ : Type} {cfg : Config σ} {removed : List DoUpdate} {s s' t : Vm σ}

/-! ## Erasing updates -/

def Job.isKept (removed : List DoUpdate) : Job → Bool
  | .doUpdate u => !removed.contains u
  | _ => true

/-- The command is not the rejection of a removed update. -/
def isKeptCommand (removed : List DoUpdate) : Origin × Command → Bool
  | (.update u, .updateResponse _ (.rejected _)) => !removed.contains u
  | _ => true

def eraseCommands (removed : List DoUpdate) (commands : List (Origin × Command)) :
    List (Origin × Command) :=
  commands.filter (isKeptCommand removed)

def Completion.erase (removed : List DoUpdate) : Completion → Completion
  | .successful commands => .successful (eraseCommands removed commands)
  | c => c

/-- The numbers of argument objects are erased as well: validation takes one. -/
def Note.erase (removed : List DoUpdate) : Note → Option Note
  | .updateArrived u => if removed.contains u then none else some (.updateArrived u)
  | .validated _ _ => none
  | .updateHanded u num _ => some (.updateHanded u num 0)
  | .pushed origin c => if isKeptCommand removed (origin, c) then some (.pushed origin c) else none
  | .completed c => some (.completed (c.erase removed))
  | n => some n

def eraseTrace (removed : List DoUpdate) (trace : List Note) : List Note :=
  trace.filterMap (Note.erase removed)

def eraseJobs (removed : List DoUpdate) (jobs : List Job) : List Job :=
  jobs.filter (Job.isKept removed)

def Phase.erase (removed : List DoUpdate) : Phase → Phase
  | .jobs todo start batch => .jobs (eraseJobs removed todo) start (eraseJobs removed batch)
  | .unblock todo start batch => .unblock (eraseJobs removed todo) start (eraseJobs removed batch)
  | phase => phase

/-- A batch of which nothing is left is not handled. -/
def eraseBatches (removed : List DoUpdate) (batches : List (List Job)) : List (List Job) :=
  (batches.map (eraseJobs removed)).filter fun batch => !batch.isEmpty

def eraseUpdates (removed updates : List DoUpdate) : List DoUpdate :=
  updates.filter fun u => !removed.contains u

/-! ## Shadows -/

structure Ghost where
  commands : List (Origin × Command)
  nextObject : Nat
  trace : List Note

def Vm.shadow (removed : List DoUpdate) (s : Vm σ) (g : Ghost) : Vm σ :=
  { s with
    inbox := { s.inbox with bufferedUpdates := eraseUpdates removed s.inbox.bufferedUpdates }
    phase := s.phase.erase removed
    batches := eraseBatches removed s.batches
    commands := g.commands
    nextObject := g.nextObject
    trace := g.trace }

/-- `g` has these commands and this history, up to the removed updates. -/
structure Ghost.Of (removed : List DoUpdate) (commands : List (Origin × Command))
    (trace : List Note) (g : Ghost) : Prop where
  commands : eraseCommands removed g.commands = eraseCommands removed commands
  trace : eraseTrace removed g.trace = eraseTrace removed trace

def Shadows (removed : List DoUpdate) (s s' : Vm σ) : Prop :=
  ∃ g, s' = s.shadow removed g ∧ g.Of removed s.commands s.trace

namespace Shadows

theorem heap (h : Shadows removed s s') : s'.heap = s.heap := by
  rcases h with ⟨g, rfl, _⟩
  rfl

theorem info (h : Shadows removed s s') : s'.info = s.info := by
  rcases h with ⟨g, rfl, _⟩
  rfl

theorem commands (h : Shadows removed s s') :
    eraseCommands removed s'.commands = eraseCommands removed s.commands := by
  rcases h with ⟨g, rfl, hg⟩
  exact hg.commands

theorem trace (h : Shadows removed s s') :
    eraseTrace removed s'.trace = eraseTrace removed s.trace := by
  rcases h with ⟨g, rfl, hg⟩
  exact hg.trace

theorem eraseTrace_append {trace trace' notes notes' : List Note}
    (h : eraseTrace removed trace' = eraseTrace removed trace)
    (hnotes : eraseTrace removed notes' = eraseTrace removed notes) :
    eraseTrace removed (trace' ++ notes') = eraseTrace removed (trace ++ notes) := by
  simp only [eraseTrace, List.filterMap_append] at h hnotes ⊢
  rw [h, hnotes]

theorem eraseCommands_append {commands commands' new : List (Origin × Command)}
    (h : eraseCommands removed commands' = eraseCommands removed commands) :
    eraseCommands removed (commands' ++ new) = eraseCommands removed (commands ++ new) := by
  simp only [eraseCommands, List.filter_append] at h ⊢
  rw [h]

theorem note (h : Shadows removed s s') (n : Note) : Shadows removed (s.note n) (s'.note n) := by
  rcases h with ⟨g, rfl, hg⟩
  exact ⟨{ g with trace := g.trace ++ [n] }, rfl, hg.commands, eraseTrace_append hg.trace rfl⟩

theorem pushCommand (h : Shadows removed s s') (origin : Origin) (c : Command) :
    Shadows removed (s.pushCommand origin c) (s'.pushCommand origin c) := by
  rcases h with ⟨g, rfl, hg⟩
  exact ⟨{ g with
    commands := g.commands ++ [(origin, c)]
    trace := g.trace ++ [.pushed origin c] }, rfl, eraseCommands_append hg.commands,
    eraseTrace_append hg.trace rfl⟩

theorem leaveRejected (h : Shadows removed s s') (reason : JsValue) :
    Shadows removed (s.leaveRejected reason) (s'.leaveRejected reason) := by
  rcases h with ⟨g, rfl, hg⟩
  exact ⟨g, rfl, hg⟩

theorem settlePromise (h : Shadows removed s s') (p : PromiseId) (o : Outcome) :
    Shadows removed (s.settlePromise p o) (s'.settlePromise p o) := by
  rcases h with ⟨g, rfl, hg⟩
  exact ⟨{ g with
    trace := g.trace ++ if (s.promises p).outcome.isNone then [.resolved p] else [] }, rfl,
    hg.commands, eraseTrace_append hg.trace rfl⟩

theorem andThen (h : Shadows removed s s') (p : PromiseId) (c : Caller)
    (callback : Outcome → Prog σ) :
    Shadows removed (s.andThen p c callback) (s'.andThen p c callback) := by
  rcases h with ⟨g, rfl, hg⟩
  unfold Vm.andThen
  cases ho : (s.promises p).outcome with
  | none =>
    have ho' : ((s.shadow removed g).promises p).outcome = none := ho
    simp only [ho']
    exact ⟨g, rfl, hg⟩
  | some o =>
    have ho' : ((s.shadow removed g).promises p).outcome = some o := ho
    simp only [ho']
    exact ⟨g, rfl, hg⟩

theorem settleCall (h : Shadows removed s s') (c : Caller) (o : Outcome) :
    Shadows removed (s.settleCall c o) (s'.settleCall c o) := by
  rcases h with ⟨g, rfl, hg⟩
  unfold Vm.settleCall
  by_cases hc : c ∈ s.settledCalls
  · have hc' : c ∈ (s.shadow removed g).settledCalls := hc
    rw [if_pos hc, if_pos hc']
    exact ⟨g, rfl, hg⟩
  · have hc' : c ∉ (s.shadow removed g).settledCalls := hc
    rw [if_neg hc, if_neg hc']
    cases o with
    | ok v => exact ⟨{ g with trace := g.trace ++ [] }, rfl, hg.commands, eraseTrace_append hg.trace rfl⟩
    | error v =>
      exact ⟨{ g with trace := g.trace ++ [.thrown c v] }, rfl, hg.commands, eraseTrace_append hg.trace rfl⟩

theorem call (h : Shadows removed s s') (c : Caller) (code : Prog σ) :
    Shadows removed (s.call c code) (s'.call c code) := by
  rcases h with ⟨g, rfl, hg⟩
  exact ⟨g, rfl, hg⟩

theorem continueWith (h : Shadows removed s s') (c : Caller) (code : Prog σ)
    (rest : List (Frame σ)) :
    Shadows removed (s.continueWith c code rest) (s'.continueWith c code rest) := by
  rcases h with ⟨g, rfl, hg⟩
  exact ⟨g, rfl, hg⟩

theorem enter (h : Shadows removed s s') (phase : Phase) :
    Shadows removed (s.enter phase) (s'.enter (phase.erase removed)) := by
  rcases h with ⟨g, rfl, hg⟩
  exact ⟨g, rfl, hg⟩

/-! ## Workflow code -/

theorem stepCode (h : Shadows removed s s') (c : Caller) (rest : List (Frame σ)) (code : Prog σ) :
    Shadows removed (s.stepCode c rest code) (s'.stepCode c rest code) := by
  have hh := h
  rcases hh with ⟨g, rfl, hg⟩
  cases code with
  | pause | read | write | deleteCondition | setDefaultSignalHandler | unsetDefaultSignalHandler
  | setDefaultUpdateHandler | unsetDefaultUpdateHandler =>
    exact ⟨g, rfl, hg⟩
  | settle o =>
    have hdrop : Shadows removed { s with stack := rest } { s.shadow removed g with stack := rest } :=
      ⟨g, rfl, hg⟩
    exact hdrop.settleCall c o
  | command id k => exact (h.pushCommand _ _).continueWith c k rest
  | andThen p callback k => exact (h.andThen p c callback).continueWith c k rest
  | settlePromise p o k => exact (h.settlePromise p o).continueWith c k rest
  | condition fn p k =>
    have hseq : Shadows removed { s with nextCondition := s.nextCondition + 1 }
        { s.shadow removed g with nextCondition := s.nextCondition + 1 } := ⟨g, rfl, hg⟩
    by_cases hfn : fn s.heap s.info = true
    · have hfn' : fn (s.shadow removed g).heap (s.shadow removed g).info = true := hfn
      simp only [Vm.stepCode, hfn, hfn', if_true]
      exact (hseq.settlePromise p _).continueWith c _ rest
    · have hfn' : ¬ fn (s.shadow removed g).heap (s.shadow removed g).info = true := hfn
      simp only [Vm.stepCode, if_neg hfn, if_neg hfn']
      exact ⟨g, rfl, hg⟩
  | unhandled reason k => exact (h.leaveRejected reason).continueWith c k rest
  | setSignalHandler name | unsetSignalHandler name =>
    simp only [Vm.stepCode]
    cases throwIfReservedName .signal name with
    | some | none => exact ⟨g, rfl, hg⟩
  | setUpdateHandler name | unsetUpdateHandler name =>
    simp only [Vm.stepCode]
    cases throwIfReservedName .update name with
    | some | none => exact ⟨g, rfl, hg⟩

/-! ## Conditions -/

theorem unblock (h : Shadows removed s s') (b : BlockedCondition σ) :
    Shadows removed (s.unblock b) (s'.unblock b) := by
  rcases h with ⟨g, rfl, hg⟩
  have hremove : Shadows removed
      { s with blockedConditions := s.blockedConditions.filter fun b' => b'.seq != b.seq }
      { s.shadow removed g with
        blockedConditions := s.blockedConditions.filter fun b' => b'.seq != b.seq } := ⟨g, rfl, hg⟩
  exact (hremove.note (.unblocked b.seq)).settlePromise b.promise _

theorem unblockPass : ∀ (bs : List (BlockedCondition σ)) {s s' : Vm σ}, Shadows removed s s' →
    Shadows removed (Vm.unblockPass bs s).1 (Vm.unblockPass bs s').1 ∧
      (Vm.unblockPass bs s').2 = (Vm.unblockPass bs s).2 := by
  intro bs
  induction bs with
  | nil =>
    intro s s' h
    exact ⟨h, rfl⟩
  | cons b bs ih =>
    intro s s' h
    have hfn : b.fn s'.heap s'.info = b.fn s.heap s.info := by rw [h.heap, h.info]
    by_cases hb : b.fn s.heap s.info = true
    · have hrest := ih (h.unblock b)
      simp only [Vm.unblockPass, hfn, hb, if_true]
      exact ⟨hrest.1, by rw [hrest.2]⟩
    · simp only [Vm.unblockPass, hfn, if_neg hb]
      exact ih h

theorem tryUnblockConditions (h : Shadows removed s s') :
    (∃ e, s.tryUnblockConditions = .error e ∧ s'.tryUnblockConditions = .error e) ∨
      ∃ t t' n, s.tryUnblockConditions = .ok (t, n) ∧ s'.tryUnblockConditions = .ok (t', n) ∧
        Shadows removed t t' := by
  have hpass := unblockPass s.blockedConditions h
  have hsame : s'.taskError = s.taskError ∧ s'.checkConditions = s.checkConditions ∧
      s'.blockedConditions = s.blockedConditions := by
    rcases h with ⟨g, rfl, _⟩
    exact ⟨rfl, rfl, rfl⟩
  rw [Vm.tryUnblockConditions_eq, Vm.tryUnblockConditions_eq, hsame.1, hsame.2.1, hsame.2.2]
  cases s.taskError with
  | some e => exact Or.inl ⟨e, rfl, rfl⟩
  | none =>
    refine Or.inr ?_
    by_cases hc : s.checkConditions = true
    · simp only [hc, if_true]
      refine ⟨_, _, _, rfl, ?_, hpass.1⟩
      rw [← hpass.2]
    · simp only [if_neg hc]
      exact ⟨s, s', 0, rfl, rfl, h⟩

/-! ## Microtasks -/

theorem handleWorkflowFailure (h : Shadows removed s s') (c : Caller) (v : JsValue) :
    Shadows removed (s.handleWorkflowFailure cfg c v) (s'.handleWorkflowFailure cfg c v) := by
  have hcancelled : s'.cancelled = s.cancelled := by
    rcases h with ⟨g, rfl, _⟩
    rfl
  unfold Vm.handleWorkflowFailure
  rw [hcancelled]
  cases failureAction cfg.failureTypes s.cancelled v with
  | cancelWorkflow | continueAsNew => exact h.pushCommand _ _
  | failWorkflow =>
    cases cfg.errorToFailure v with
    | ok failure => exact h.pushCommand _ _
    | error e => exact h.leaveRejected e
  | recordTaskError =>
    rcases h with ⟨g, rfl, hg⟩
    exact ⟨{ g with trace := g.trace ++ [.recorded c v] }, rfl, hg.commands,
      eraseTrace_append hg.trace rfl⟩

theorem runMicrotask (h : Shadows removed s s') (m : Microtask σ) :
    Shadows removed (s.runMicrotask cfg m) (s'.runMicrotask cfg m) := by
  have hqueue : ∀ m : Microtask σ, Shadows removed { s with microtasks := s.microtasks ++ [m] }
      { s' with microtasks := s'.microtasks ++ [m] } := by
    intro m
    rcases h with ⟨g, rfl, hg⟩
    exact ⟨g, rfl, hg⟩
  cases m with
  | callback c code =>
    rcases h with ⟨g, rfl, hg⟩
    exact ⟨g, rfl, hg⟩
  | respond queryId o =>
    rw [Vm.runMicrotask_respond, Vm.runMicrotask_respond]
    cases Vm.queryResponse cfg o with
    | ok response => exact h.pushCommand _ _
    | error e => exact h.leaveRejected e
  | settled c o =>
    cases c with
    | workflow num =>
      cases o with
      | ok v =>
        simp only [Vm.runMicrotask, Vm.completeWorkflow]
        cases cfg.toPayload v with
        | ok payload => exact h.pushCommand _ _
        | error e => exact h.leaveRejected e
      | error v => exact h.handleWorkflowFailure _ v
    | signal num =>
      cases o with
      | ok v => exact h
      | error v => exact h.handleWorkflowFailure _ v
    | update num pid =>
      cases o with
      | ok v =>
        simp only [Vm.runMicrotask]
        cases cfg.toPayload v with
        | ok payload => exact h.pushCommand _ _
        | error e => exact hqueue _
      | error v => exact hqueue _
  | caught num pid v =>
    simp only [Vm.runMicrotask, Vm.rejectUpdate]
    by_cases hv : v.instanceOf .temporalFailure = true
    · simp only [hv, if_true]
      cases cfg.errorToFailure v with
      | ok failure => exact h.pushCommand _ _
      | error e => exact h.leaveRejected e
    · simp only [if_neg hv]
      exact h.handleWorkflowFailure _ v

/-! ## The end of an activation -/

theorem reportRejections (h : Shadows removed s s') :
    Shadows removed s.reportRejections s'.reportRejections := by
  have hrejections : s'.rejections = s.rejections := by
    rcases h with ⟨g, rfl, _⟩
    rfl
  unfold Vm.reportRejections
  rw [hrejections]
  cases s.rejections.getLast? with
  | none => exact h
  | some reason =>
    rcases h with ⟨g, rfl, hg⟩
    exact ⟨g, rfl, hg⟩

theorem finish (h : Shadows removed s s') {c c' : Completion}
    (hc : c'.erase removed = c.erase removed) : Shadows removed (s.finish c) (s'.finish c') := by
  rcases h with ⟨g, rfl, hg⟩
  refine ⟨{ g with trace := g.trace ++ [.completed c'] }, rfl, hg.commands,
    eraseTrace_append hg.trace ?_⟩
  simp [eraseTrace, Note.erase, hc]

theorem fail (h : Shadows removed s s') (e : JsValue) :
    Shadows removed (s.fail e) (s'.fail e) := by
  have hquery : s'.query = s.query := by
    rcases h with ⟨g, rfl, _⟩
    rfl
  unfold Vm.fail
  rw [hquery]
  exact (h.finish rfl).reportRejections

theorem orFail {r r' : Vm σ × Option JsValue} (h : Shadows removed r.1 r'.1) (he : r'.2 = r.2) :
    Shadows removed (Vm.orFail r) (Vm.orFail r') := by
  unfold Vm.orFail
  rw [he]
  cases r.2 with
  | none => exact h
  | some e => exact h.fail e

theorem unblocking (h : Shadows removed s s') {k k' : Vm σ → Nat → Vm σ}
    (hk : ∀ {t t' : Vm σ} {n : Nat}, s.tryUnblockConditions = .ok (t, n) → Shadows removed t t' →
      Shadows removed (k t n) (k' t' n)) :
    Shadows removed (s.unblocking k) (s'.unblocking k') := by
  unfold Vm.unblocking
  rcases h.tryUnblockConditions with ⟨e, heq, heq'⟩ | ⟨t, t', n, heq, heq', ht⟩
  · rw [heq, heq']
    exact h.fail e
  · rw [heq, heq']
    exact hk heq ht

theorem spliceCommands (h : Shadows removed s s') :
    Shadows removed s.spliceCommands s'.spliceCommands := by
  rcases h with ⟨g, rfl, hg⟩
  exact ⟨{ g with commands := [] }, rfl, rfl, hg.trace⟩

theorem succeed (h : Shadows removed s s') : Shadows removed s.succeed s'.succeed := by
  have hc : (Completion.successful s'.commands).erase removed =
      (Completion.successful s.commands).erase removed := by
    simp only [Completion.erase, h.commands]
  have hquery : s'.query = s.query := by
    rcases h with ⟨g, rfl, _⟩
    rfl
  unfold Vm.succeed
  rw [hquery]
  by_cases hq : s.query = true
  · simp only [hq, if_true]
    exact (h.spliceCommands.finish hc).reportRejections
  · simp only [if_neg hq]
    have hreport := h.spliceCommands.reportRejections
    have hunhandled : s'.spliceCommands.reportRejections.unhandledRejection =
        s.spliceCommands.reportRejections.unhandledRejection := by
      rcases hreport with ⟨g, heq, _⟩
      rw [heq]
      rfl
    unfold Vm.complete
    rw [hunhandled]
    by_cases hu : s.spliceCommands.reportRejections.unhandledRejection.isTruthy = true
    · simp only [hu, if_true]
      exact hreport.finish rfl
    · simp only [if_neg hu]
      exact hreport.finish hc

/-! ## Signals -/

theorem signalWorkflow (h : Shadows removed s s') (sig : SignalWorkflow) :
    Shadows removed (s.signalWorkflow cfg sig).1 (s'.signalWorkflow cfg sig).1 ∧
      (s'.signalWorkflow cfg sig).2 = (s.signalWorkflow cfg sig).2 := by
  have hh := h
  rcases hh with ⟨g, rfl, hg⟩
  have hfunction : (s.shadow removed g).signalFunction sig.signalName =
      s.signalFunction sig.signalName := rfl
  unfold Vm.signalWorkflow
  by_cases hname : sig.signalName = ""
  · simp only [if_pos hname]
    exact ⟨h, trivial⟩
  · simp only [if_neg hname]
    by_cases hclash : Vm.reservedClash sig.signalName
        (s.inbox.signalHandlers sig.signalName).isSome s.inbox.defaultSignalHandler.isSome = true
    · have hclash' : Vm.reservedClash sig.signalName
        ((s.shadow removed g).inbox.signalHandlers sig.signalName).isSome
          (s.shadow removed g).inbox.defaultSignalHandler.isSome = true := hclash
      simp only [if_pos hclash, if_pos hclash']
      exact ⟨h, trivial⟩
    · have hclash' : ¬ Vm.reservedClash sig.signalName
        ((s.shadow removed g).inbox.signalHandlers sig.signalName).isSome
          (s.shadow removed g).inbox.defaultSignalHandler.isSome = true := hclash
      simp only [if_neg hclash, if_neg hclash', hfunction]
      cases s.signalFunction sig.signalName with
      | none => exact ⟨⟨g, rfl, hg⟩, rfl⟩
      | some handler =>
        cases cfg.arrayFromPayloads sig.input with
        | error e => exact ⟨⟨g, rfl, hg⟩, rfl⟩
        | ok args => exact ⟨(h.note _).call _ _, rfl⟩

/-! ## Updates -/

theorem decoded (h : Shadows removed s s') (u : DoUpdate) (n o o' : Nat) :
    Shadows removed (s.decoded n []) (s'.decoded n []) ∧
      Shadows removed (s.decoded n [.validated u o]) (s'.decoded n [.validated u o']) := by
  rcases h with ⟨g, rfl, hg⟩
  refine ⟨⟨{ g with nextObject := g.nextObject + n, trace := g.trace ++ [] }, rfl, hg.commands,
    eraseTrace_append hg.trace rfl⟩, ?_⟩
  exact ⟨{ g with nextObject := g.nextObject + n, trace := g.trace ++ [.validated u o'] }, rfl,
    hg.commands, eraseTrace_append hg.trace rfl⟩

theorem validate (h : Shadows removed s s') (u : DoUpdate) (entry : UpdateHandler σ) :
    Shadows removed (s.validate cfg u entry).1 (s'.validate cfg u entry).1 := by
  cases hd : cfg.arrayFromPayloads u.input with
  | error e =>
    have heq : ∀ t : Vm σ, t.validate cfg u entry = (t, .error e) := by
      intro t
      cases hv : Vm.validatorFor u entry with
      | none | some => simp [Vm.validate, Vm.makeInput, hd, hv]
    rw [heq, heq]
    exact h
  | ok args =>
    cases hv : Vm.validatorFor u entry with
    | none =>
      have heq : ∀ t : Vm σ, t.validate cfg u entry = (t.decoded 1 [], .ok args) := by
        intro t
        simp [Vm.validate, Vm.makeInput, hd, hv, Vm.decoded]
      rw [heq, heq]
      exact (h.decoded u 1 0 0).1
    | some validator =>
      cases hr : validator s.heap s.info args with
      | error e =>
        have heq : ∀ t : Vm σ, validator t.heap t.info args = .error e →
            t.validate cfg u entry =
              (t.decoded 1 [.validated u t.nextObject], .error e) := by
          intro t ht
          simp [Vm.validate, Vm.makeInput, hd, hv, ht, Vm.decoded, Vm.note]
        rw [heq s hr, heq s' (by rw [h.heap, h.info]; exact hr)]
        exact (h.decoded u 1 _ _).2
      | ok _ =>
        have heq : ∀ t : Vm σ, validator t.heap t.info args = .ok () →
            t.validate cfg u entry =
              (t.decoded 2 [.validated u t.nextObject], .ok args) := by
          intro t ht
          simp [Vm.validate, Vm.makeInput, hd, hv, ht, Vm.decoded, Vm.note]
        rw [heq s hr, heq s' (by rw [h.heap, h.info]; exact hr)]
        exact (h.decoded u 2 _ _).2

theorem acceptUpdate (h : Shadows removed s s') (u : DoUpdate) :
    Shadows removed (s.acceptUpdate u) (s'.acceptUpdate u) := by
  have hcheck : Shadows removed { s with checkConditions := true }
      { s' with checkConditions := true } := by
    rcases h with ⟨g, rfl, hg⟩
    exact ⟨g, rfl, hg⟩
  exact hcheck.pushCommand _ _

theorem handed (h : Shadows removed s s') (u : DoUpdate) (num o o' : Nat) :
    Shadows removed (s.note (.updateHanded u num o)) (s'.note (.updateHanded u num o')) := by
  rcases h with ⟨g, rfl, hg⟩
  exact ⟨{ g with trace := g.trace ++ [.updateHanded u num o'] }, rfl, hg.commands,
    eraseTrace_append hg.trace rfl⟩

theorem doUpdateImpl (h : Shadows removed s s') (u : DoUpdate) (entry : UpdateHandler σ) :
    Shadows removed (s.doUpdateImpl cfg u entry) (s'.doUpdateImpl cfg u entry) := by
  have hvalidate : Shadows removed (s.validate cfg u entry).1 (s'.validate cfg u entry).1 :=
    h.validate u entry
  have houtcome : (s'.validate cfg u entry).2 = (s.validate cfg u entry).2 :=
    Vm.validate_congr h.heap h.info u entry
  unfold Vm.doUpdateImpl
  rcases hv : s.validate cfg u entry with ⟨t, r⟩
  rcases hv' : s'.validate cfg u entry with ⟨t', r'⟩
  rw [hv, hv'] at hvalidate houtcome
  have hstate : Shadows removed t t' := hvalidate
  have hr : r' = r := houtcome
  rw [hr]
  cases r with
  | error e =>
    simp only [Vm.rejectUpdate]
    cases cfg.errorToFailure e with
    | ok failure => exact hstate.pushCommand _ _
    | error e' => exact hstate.leaveRejected e'
  | ok args =>
    have hnum : (t'.acceptUpdate u).nextNum = (t.acceptUpdate u).nextNum := by
      rcases hstate with ⟨g, rfl, _⟩
      rfl
    simp only [hnum]
    exact ((hstate.acceptUpdate u).handed u _ _ _).call _ _

theorem updateEntry (h : Shadows removed s s') (name : String) :
    s'.updateEntry name = s.updateEntry name := by
  rcases h with ⟨g, rfl, _⟩
  rfl

theorem bufferUpdate {u : DoUpdate} (h : Shadows removed s s') (hu : u ∉ removed) :
    Shadows removed (s.bufferUpdate u) (s'.bufferUpdate u) := by
  rcases h with ⟨g, rfl, hg⟩
  refine ⟨g, ?_, hg⟩
  simp [Vm.bufferUpdate, Vm.shadow, eraseUpdates, hu]

theorem doUpdate {u : DoUpdate} (h : Shadows removed s s') (hu : u ∉ removed) :
    Shadows removed (s.doUpdate cfg u).1 (s'.doUpdate cfg u).1 ∧
      (s'.doUpdate cfg u).2 = (s.doUpdate cfg u).2 := by
  have hentry := h.updateEntry u.name
  have hclash : Vm.reservedClash u.name (s'.inbox.updateHandlers u.name).isSome
      s'.inbox.defaultUpdateHandler.isSome = Vm.reservedClash u.name
        (s.inbox.updateHandlers u.name).isSome s.inbox.defaultUpdateHandler.isSome := by
    rcases h with ⟨g, rfl, _⟩
    rfl
  unfold Vm.doUpdate
  rw [hentry, hclash]
  split
  · exact ⟨h, rfl⟩
  · split
    · exact ⟨h, rfl⟩
    · split
      · exact ⟨h, rfl⟩
      · split
        · exact ⟨h, rfl⟩
        · cases s.updateEntry u.name with
          | none => exact ⟨h.bufferUpdate hu, rfl⟩
          | some entry => exact ⟨h.doUpdateImpl u entry, rfl⟩

end Shadows

/-! ## Removed updates -/

/-- What has changed from `s` to `t` is not in the shadow. -/
structure Unseen (removed : List DoUpdate) (s t : Vm σ) : Prop where
  shadow : ∀ g, t.shadow removed g = s.shadow removed g
  commands : eraseCommands removed t.commands = eraseCommands removed s.commands
  trace : eraseTrace removed t.trace = eraseTrace removed s.trace

theorem Shadows.ignore (h : Shadows removed s s') (hunseen : Unseen removed s t) :
    Shadows removed t s' := by
  rcases h with ⟨g, rfl, hg⟩
  exact ⟨g, (hunseen.shadow g).symm, hg.commands.trans hunseen.commands.symm,
    hg.trace.trans hunseen.trace.symm⟩

namespace Unseen

theorem trans {t' : Vm σ} (h : Unseen removed s t) (h' : Unseen removed t t') :
    Unseen removed s t' :=
  ⟨fun g => (h'.shadow g).trans (h.shadow g), h'.commands.trans h.commands,
    h'.trace.trans h.trace⟩

theorem proj {α : Type} (h : Unseen removed s t) (f : Vm σ → α) :
    f (t.shadow removed ⟨[], 0, []⟩) = f (s.shadow removed ⟨[], 0, []⟩) :=
  congrArg f (h.shadow _)

theorem enter (h : Unseen removed s t) (phase : Phase) :
    Unseen removed (s.enter phase) (t.enter phase) := by
  refine ⟨?_, h.commands, h.trace⟩
  intro g
  exact congrArg (fun v => Vm.enter v (phase.erase removed)) (h.shadow g)

variable {u : DoUpdate}

theorem arrival (s : Vm σ) (hu : u ∈ removed) :
    Unseen removed s (s.note (.updateArrived u)) := by
  refine ⟨fun _ => rfl, rfl, ?_⟩
  simp [Vm.note, eraseTrace, Note.erase, hu]

theorem buffered (s : Vm σ) (hu : u ∈ removed) :
    Unseen removed s (s.bufferUpdate u) := by
  refine ⟨?_, rfl, rfl⟩
  intro g
  simp [Vm.shadow, Vm.bufferUpdate, eraseUpdates, hu]

theorem taken {remaining : List DoUpdate} (hu : u ∈ removed)
    (h : Vm.nextBufferedUpdate s.inbox = some (u, remaining)) :
    Unseen removed s { s with inbox.bufferedUpdates := remaining } := by
  rcases Vm.takeFirst_some h with ⟨_, front, back, hbuffer, hrest, _⟩
  refine ⟨?_, rfl, rfl⟩
  intro g
  simp [Vm.shadow, eraseUpdates, hbuffer, hrest, hu]

theorem rejected {entry : UpdateHandler σ} {e : JsValue} {failure : Failure}
    (hu : u ∈ removed) (he : (s.validate cfg u entry).2 = .error e)
    (hf : cfg.errorToFailure e = .ok failure) : Unseen removed s (s.doUpdateImpl cfg u entry) := by
  rcases Vm.doUpdateImpl_cases cfg s u entry with ⟨n, notes, hnotes, _, hcases⟩
  rcases hcases with ⟨e', he', ⟨failure', _, heq⟩ | ⟨e'', hf', _⟩⟩ | ⟨args, hok, _⟩
  · rw [heq]
    refine ⟨fun _ => rfl, ?_, ?_⟩
    · simp [Vm.pushCommand, Vm.decoded, eraseCommands, isKeptCommand, hu]
    · rcases hnotes with rfl | rfl
      all_goals simp [Vm.pushCommand, Vm.decoded, eraseTrace, Note.erase, isKeptCommand, hu]
  · rw [he] at he'
    injection he' with heq
    rw [← heq, hf] at hf'
    cases hf'
  · rw [he] at hok
    cases hok

end Unseen

end TemporalSdk.Activation
