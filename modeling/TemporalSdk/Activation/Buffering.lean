import TemporalSdk.Activation.Steps
import TemporalSdk.Machine.Run

/-!
# Buffering — signals and updates are neither lost nor reordered

For each name, what has arrived is what has been handed over (or, for updates, answered) followed by
what is buffered.  Two facts carry this.  A dispatch loop takes the first buffered element of a name;
and while something in a buffer has a handler, a dispatch loop for it is on the stack, so that no job
can overtake it.

Both fail when a call of `signalWorkflow` or `doUpdate` throws out of a dispatch loop: the element has
left the buffer, and the loop ends with the rest of the buffer in place.
-/

namespace TemporalSdk.Activation

open Machine

variable {σ : Type} {cfg : Config σ} {s t : Vm σ} {both : Bool}

/-! ## What the history says about signals and updates -/

namespace Note

def arrivedSignal : Note → Option SignalWorkflow
  | signalArrived sig => some sig
  | _ => none

def handedSignal : Note → Option SignalWorkflow
  | signalHanded sig _ => some sig
  | _ => none

def arrivedUpdate : Note → Option DoUpdate
  | updateArrived u => some u
  | _ => none

/-- Handed to a handler, or rejected instead. -/
def answeredUpdate : Note → Option DoUpdate
  | updateHanded u _ _ => some u
  | pushed (.update u) (.updateResponse _ (.rejected _)) => some u
  | _ => none

/-- Notes that are not about the whereabouts of a signal or an update. -/
def isOther : Note → Bool
  | signalArrived _ | signalHanded _ _ | updateArrived _ | updateHanded _ _ _ => false
  | pushed (.update _) (.updateResponse _ (.rejected _)) => false
  | _ => true

theorem none_of_isOther {n : Note} (h : n.isOther = true) :
    n.arrivedSignal = none ∧ n.handedSignal = none ∧ n.arrivedUpdate = none ∧
      n.answeredUpdate = none := by
  unfold isOther at h
  split at h <;> simp_all [arrivedSignal, handedSignal, arrivedUpdate, answeredUpdate]

end Note

def signalsArrived (trace : List Note) : List SignalWorkflow := trace.filterMap Note.arrivedSignal
def signalsHanded (trace : List Note) : List SignalWorkflow := trace.filterMap Note.handedSignal
def updatesArrived (trace : List Note) : List DoUpdate := trace.filterMap Note.arrivedUpdate
def updatesAnswered (trace : List Note) : List DoUpdate := trace.filterMap Note.answeredUpdate

/-! ## The condition -/

namespace Vm

/-- The job that the next step handles. -/
def nextJob (s : Vm σ) : Option Job :=
  match s.phase with
  | .jobs (job :: _) _ _ => some job
  | .queries (job :: _) => some job
  | _ => none

/-- The next step hands an update to `doUpdate`, or `both` a signal to `signalWorkflow`, and that throws; or
it rejects a buffered update, and the failure converter throws. -/
def Refuses (cfg : Config σ) (both : Bool) (s : Vm σ) : Bool :=
  match s.stack with
  | .code _ _ :: _ => false
  | .dispatchSignals _ _ :: _ =>
    match nextBufferedSignal s.inbox with
    | some (sig, _) => both && refusesSignal cfg s sig
    | none => false
  | .dispatchUpdates _ _ :: _ =>
    match nextBufferedUpdate s.inbox with
    | some (u, _) => refusesUpdate cfg s u
    | none => false
  | [] =>
    match s.nextJob, s.phase, s.inbox.bufferedUpdates with
    | some (.signalWorkflow sig), _, _ => both && refusesSignal cfg s sig
    | some (.doUpdate u), _, _ => refusesUpdate cfg s u
    | _, .conclude, u :: _ => !(cfg.errorToFailure (noHandlerError u)).isOk
    | _, _, _ => false

end Vm

/-- Every call that hands over an update, or `both` a signal, succeeds. -/
def HandsOver (cfg : Config σ) (both : Bool) (s : Vm σ) : Input → Prop
  | .tick => s.Refuses cfg both = false
  | .activate _ => True

instance (cfg : Config σ) (both : Bool) (s : Vm σ) : ∀ i, Decidable (HandsOver cfg both s i)
  | .tick => inferInstanceAs (Decidable (s.Refuses cfg both = false))
  | .activate _ => inferInstanceAs (Decidable True)

/-! ## The invariant -/

namespace Vm

structure Buffered (both : Bool) (s : Vm σ) : Prop where
  signals : both = true → ∀ name, (signalsArrived s.trace).filter (fun sig => sig.signalName == name) =
    (signalsHanded s.trace).filter (fun sig => sig.signalName == name) ++
      s.inbox.bufferedSignals.filter (fun sig => sig.signalName == name)
  updates : ∀ name, (updatesArrived s.trace).filter (fun u => u.name == name) =
    (updatesAnswered s.trace).filter (fun u => u.name == name) ++
      s.inbox.bufferedUpdates.filter (fun u => u.name == name)
  signalLoop : both = true → nextBufferedSignal s.inbox ≠ none → ∃ f ∈ s.stack, f.isSignalLoop = true
  updateLoop : nextBufferedUpdate s.inbox ≠ none → ∃ f ∈ s.stack, f.isUpdateLoop = true

theorem buffered_init (both : Bool) (heap : σ) : (Vm.init heap).Buffered both :=
  ⟨fun _ _ => rfl, fun _ => rfl, fun _ h => absurd rfl h, fun h => absurd rfl h⟩

/-! ## Steps that leave the inbox alone -/

/-- `t` comes from `s` without touching signals, updates or dispatch loops. -/
structure SameInbox (s t : Vm σ) : Prop where
  inbox : t.inbox = s.inbox
  trace : ∃ notes, t.trace = s.trace ++ notes ∧ ∀ n ∈ notes, n.isOther = true
  loops : ∀ f ∈ s.stack, f.isSignalLoop = true ∨ f.isUpdateLoop = true → f ∈ t.stack

namespace SameInbox

theorem refl (s : Vm σ) : SameInbox s s :=
  ⟨rfl, ⟨[], by simp, by simp⟩, fun _ hf _ => hf⟩

theorem trans {u : Vm σ} (h : SameInbox s t) (h' : SameInbox t u) : SameInbox s u := by
  rcases h.trace with ⟨notes, htrace, hnotes⟩
  rcases h'.trace with ⟨notes', htrace', hnotes'⟩
  refine ⟨h'.inbox.trans h.inbox, ⟨notes ++ notes', ?_, ?_⟩, ?_⟩
  · rw [htrace', htrace, List.append_assoc]
  · intro n hn
    rcases List.mem_append.1 hn with hn | hn
    · exact hnotes n hn
    · exact hnotes' n hn
  · intro f hf hloop
    exact h'.loops f (h.loops f hf hloop) hloop

theorem of_eq (hinbox : t.inbox = s.inbox) (htrace : t.trace = s.trace)
    (hstack : t.stack = s.stack) : SameInbox s t :=
  ⟨hinbox, ⟨[], by simp [htrace], by simp⟩, fun f hf _ => hstack ▸ hf⟩

theorem pushCommand (s : Vm σ) {origin : Origin} {c : Command}
    (h : (Note.pushed origin c).isOther = true) : SameInbox s (s.pushCommand origin c) :=
  ⟨rfl, ⟨[Note.pushed origin c], rfl, by simpa using h⟩, fun _ hf _ => hf⟩

theorem settlePromise (s : Vm σ) (p : PromiseId) (o : Outcome) :
    SameInbox s (s.settlePromise p o) := by
  refine ⟨rfl, ⟨_, rfl, ?_⟩, fun _ hf _ => hf⟩
  intro n hn
  split at hn
  · have hn : n = .resolved p := by simpa using hn
    rw [hn]
    rfl
  · cases hn

theorem andThen (s : Vm σ) (p : PromiseId) (c : Caller) (callback : Outcome → Prog σ) :
    SameInbox s (s.andThen p c callback) := by
  unfold Vm.andThen
  split <;> exact of_eq rfl rfl rfl

theorem settleCall (s : Vm σ) (c : Caller) (o : Outcome) : SameInbox s (s.settleCall c o) := by
  unfold Vm.settleCall
  split
  · exact refl s
  · refine ⟨rfl, ⟨_, rfl, ?_⟩, fun _ hf _ => hf⟩
    intro n hn
    cases o with
    | ok v => cases hn
    | error v =>
      have hn : n = .thrown c v := by simpa using hn
      rw [hn]
      rfl

theorem unblock (s : Vm σ) (b : BlockedCondition σ) : SameInbox s (s.unblock b) := by
  have hnote : SameInbox s
      ({ s with blockedConditions := s.blockedConditions.filter fun b' => b'.seq != b.seq }.note
        (.unblocked b.seq)) :=
    ⟨rfl, ⟨[Note.unblocked b.seq], rfl, by simp [Note.isOther]⟩, fun _ hf _ => hf⟩
  exact hnote.trans (settlePromise _ _ _)

theorem tryUnblockConditions {n : Nat} (h : s.tryUnblockConditions = .ok (t, n)) :
    SameInbox s t := by
  refine tryUnblockConditions_closed (P := fun t => SameInbox s t) ?_ h (refl s)
  intro t b ht
  exact ht.trans (unblock t b)

theorem continueWith (s : Vm σ) {c c' : Caller} {code code' : Prog σ} {rest : List (Frame σ)}
    (hstack : s.stack = .code c code :: rest) : SameInbox s (s.continueWith c' code' rest) := by
  refine ⟨rfl, ⟨[], by simp [Vm.continueWith], by simp⟩, ?_⟩
  intro f hf hloop
  rw [hstack] at hf
  rcases List.mem_cons.1 hf with rfl | hf
  · simp [Frame.isSignalLoop, Frame.isUpdateLoop] at hloop
  · exact List.mem_cons_of_mem _ hf

theorem drop (s : Vm σ) {c : Caller} {code : Prog σ} {rest : List (Frame σ)}
    (hstack : s.stack = .code c code :: rest) : SameInbox s { s with stack := rest } := by
  refine ⟨rfl, ⟨[], by simp, by simp⟩, ?_⟩
  intro f hf hloop
  rw [hstack] at hf
  rcases List.mem_cons.1 hf with rfl | hf
  · simp [Frame.isSignalLoop, Frame.isUpdateLoop] at hloop
  · exact hf

theorem handleWorkflowFailure (cfg : Config σ) (s : Vm σ) (c : Caller) (v : JsValue) :
    SameInbox s (s.handleWorkflowFailure cfg c v) := by
  unfold Vm.handleWorkflowFailure
  split
  · exact pushCommand s rfl
  · exact pushCommand s rfl
  · split
    · exact pushCommand s rfl
    · exact of_eq rfl rfl rfl
  · exact ⟨rfl, ⟨[Note.recorded c v], rfl, by simp [Note.isOther]⟩, fun _ hf _ => hf⟩

theorem runMicrotask (cfg : Config σ) (s : Vm σ) (m : Microtask σ) :
    SameInbox s (s.runMicrotask cfg m) := by
  cases m with
  | callback c code =>
    exact ⟨rfl, ⟨[], by simp [Vm.runMicrotask], by simp⟩,
      fun f hf _ => List.mem_cons_of_mem _ hf⟩
  | settled c o =>
    cases c with
    | workflow num =>
      cases o with
      | ok v =>
        simp only [Vm.runMicrotask, completeWorkflow]
        split
        · exact pushCommand s rfl
        · exact of_eq rfl rfl rfl
      | error v => exact handleWorkflowFailure cfg s _ v
    | signal num =>
      cases o with
      | ok v => exact refl s
      | error v => exact handleWorkflowFailure cfg s _ v
    | update num pid =>
      cases o with
      | ok v =>
        simp only [Vm.runMicrotask]
        split
        · exact pushCommand s rfl
        · exact of_eq rfl rfl rfl
      | error v => exact of_eq rfl rfl rfl
  | caught num pid v =>
    simp only [Vm.runMicrotask, rejectUpdate]
    split
    · cases cfg.errorToFailure v with
      | ok failure => exact pushCommand s rfl
      | error e => exact of_eq rfl rfl rfl
    · exact handleWorkflowFailure cfg s _ v
  | respond queryId o =>
    rw [runMicrotask_respond]
    cases queryResponse cfg o with
    | ok response => exact pushCommand s rfl
    | error e => exact of_eq rfl rfl rfl

theorem reportRejections (s : Vm σ) : SameInbox s s.reportRejections := by
  unfold Vm.reportRejections
  split
  · exact refl s
  · exact of_eq rfl rfl rfl

theorem finish (s : Vm σ) (c : Completion) (hstack : s.stack = []) :
    SameInbox s (s.finish c) :=
  ⟨rfl, ⟨[Note.completed c], rfl, by simp [Note.isOther]⟩, by simp [hstack]⟩

theorem fail (s : Vm σ) (e : JsValue) (hstack : s.stack = []) : SameInbox s (s.fail e) :=
  (finish s _ hstack).trans (reportRejections _)

theorem stack_reportRejections (s : Vm σ) : s.reportRejections.stack = s.stack := by
  unfold Vm.reportRejections
  split <;> rfl

theorem succeed (s : Vm σ) (hstack : s.stack = []) : SameInbox s s.succeed := by
  have hcmd : SameInbox s s.spliceCommands := of_eq rfl rfl rfl
  have hreport := hcmd.trans (reportRejections s.spliceCommands)
  have hempty : s.spliceCommands.reportRejections.stack = [] :=
    (stack_reportRejections _).trans hstack
  unfold Vm.succeed
  split
  · exact (hcmd.trans (finish _ _ hstack)).trans (reportRejections _)
  · unfold complete
    split <;> exact hreport.trans (finish _ _ hempty)

theorem nextBatch (s : Vm σ) : SameInbox s s.nextBatch := by
  unfold Vm.nextBatch
  split
  · exact of_eq rfl rfl rfl
  · split <;> exact of_eq rfl rfl rfl

theorem activate (s : Vm σ) (a : WorkflowActivation) (hstack : s.stack = []) :
    SameInbox s (s.activate a) := by
  have hbegin : SameInbox s (s.begin a) :=
    ⟨rfl, ⟨[Note.activated false], rfl, by simp [Note.isOther]⟩, fun _ hf _ => hf⟩
  unfold Vm.activate
  split
  · split
    · exact ⟨rfl, ⟨[Note.activated true], rfl, by simp [Note.isOther]⟩, fun _ hf _ => hf⟩
    · have hmixed : SameInbox s ({ s with query := false }.note (.activated true)) :=
        ⟨rfl, ⟨[Note.activated true], rfl, by simp [Note.isOther]⟩, fun _ hf _ => hf⟩
      exact hmixed.trans (fail _ _ hstack)
  · split
    · exact hbegin.trans (fail _ _ hstack)
    · exact hbegin.trans (fail _ _ hstack)
    · have hbatches : SameInbox (s.begin a) { s.begin a with batches := batchesOf a } :=
        of_eq rfl rfl rfl
      exact (hbegin.trans hbatches).trans (nextBatch _)

end SameInbox

/-! ## Steps that move signals and updates -/

theorem nextBufferedSignal_ne_none {inbox : Inbox σ} :
    nextBufferedSignal inbox ≠ none ↔ ∃ sig ∈ inbox.bufferedSignals,
      (inbox.defaultSignalHandler.isSome || (inbox.signalHandlers sig.signalName).isSome) = true :=
  takeFirst_ne_none

theorem nextBufferedUpdate_ne_none {inbox : Inbox σ} :
    nextBufferedUpdate inbox ≠ none ↔ ∃ u ∈ inbox.bufferedUpdates,
      (inbox.defaultUpdateHandler.isSome || (inbox.updateHandlers u.name).isSome) = true :=
  takeFirst_ne_none

theorem isSome_signalFunction (s : Vm σ) (name : String) :
    (s.signalFunction name).isSome =
      (s.inbox.defaultSignalHandler.isSome || (s.inbox.signalHandlers name).isSome) := by
  unfold signalFunction
  cases s.inbox.signalHandlers name with
  | none | some => simp

theorem isSome_updateEntry (s : Vm σ) (name : String) :
    (s.updateEntry name).isSome =
      (s.inbox.defaultUpdateHandler.isSome || (s.inbox.updateHandlers name).isSome) := by
  unfold updateEntry
  cases s.inbox.updateHandlers name with
  | none | some => simp

/-- `t` answers the update `u`, and does nothing else to signals, updates or dispatch loops. -/
structure Answers (s t : Vm σ) (u : DoUpdate) : Prop where
  inbox : t.inbox = s.inbox
  trace : ∃ notes n, t.trace = s.trace ++ (notes ++ [n]) ∧ (∀ m ∈ notes, m.isOther = true) ∧
    n.answeredUpdate = some u
  stack : ∀ f ∈ s.stack, f ∈ t.stack

variable {u : DoUpdate}

theorem Note.none_of_answeredUpdate {n : Note} (h : n.answeredUpdate = some u) :
    n.arrivedSignal = none ∧ n.handedSignal = none ∧ n.arrivedUpdate = none := by
  unfold Note.answeredUpdate at h
  split at h <;> simp_all [Note.arrivedSignal, Note.handedSignal, Note.arrivedUpdate]

theorem Answers.ledgers (h : Answers s t u) :
    signalsArrived t.trace = signalsArrived s.trace ∧
      signalsHanded t.trace = signalsHanded s.trace ∧
      updatesArrived t.trace = updatesArrived s.trace ∧
      updatesAnswered t.trace = updatesAnswered s.trace ++ [u] := by
  rcases h.trace with ⟨notes, n, htrace, hnotes, hn⟩
  rcases Note.none_of_answeredUpdate hn with ⟨hn1, hn2, hn3⟩
  have hnil : ∀ {α : Type} {f : Note → Option α}, (∀ n, n.isOther = true → f n = none) →
      notes.filterMap f = [] := fun hf =>
    List.filterMap_eq_nil_iff.2 fun m hm => hf m (hnotes m hm)
  have h1 := hnil fun m hm => (Note.none_of_isOther hm).1
  have h2 := hnil fun m hm => (Note.none_of_isOther hm).2.1
  have h3 := hnil fun m hm => (Note.none_of_isOther hm).2.2.1
  have h4 := hnil fun m hm => (Note.none_of_isOther hm).2.2.2
  refine ⟨?_, ?_, ?_, ?_⟩
  · simp [signalsArrived, htrace, h1, hn1]
  · simp [signalsHanded, htrace, h2, hn2]
  · simp [updatesArrived, htrace, h3, hn3]
  · simp [updatesAnswered, htrace, h4, hn]

/-- With a failure converter that does not throw, `doUpdateImpl` answers the update. -/
theorem answers_doUpdateImpl {entry : UpdateHandler σ}
    (hconv : ∀ e, (s.validate cfg u entry).2 = .error e → (cfg.errorToFailure e).isOk = true) :
    Answers s (s.doUpdateImpl cfg u entry) u := by
  rcases doUpdateImpl_cases cfg s u entry with ⟨n, notes, hnotes, _, hcases⟩
  have hother : ∀ m ∈ notes, m.isOther = true := by
    intro m hm
    rcases hnotes with rfl | rfl
    · cases hm
    · have hm : m = .validated u s.nextObject := by simpa using hm
      rw [hm]
      rfl
  rcases hcases with ⟨e, he, ⟨failure, _, heq⟩ | ⟨e', he', _⟩⟩ | ⟨args, _, _, _, _, heq⟩
  · rw [heq]
    refine ⟨rfl, ⟨notes, .pushed (.update u)
      (.updateResponse u.protocolInstanceId (.rejected failure)), ?_, hother, rfl⟩, fun f hf => hf⟩
    simp [decoded, Vm.pushCommand]
  · have hok := hconv e he
    simp [he', Except.isOk, Except.toBool] at hok
  · rw [heq]
    refine ⟨rfl, ⟨notes ++ [Note.pushed (.update u) (.updateResponse u.protocolInstanceId .accepted)],
      .updateHanded u s.nextNum (s.nextObject + n - 1), ?_, ?_, rfl⟩,
      fun f hf => List.mem_cons_of_mem _ hf⟩
    · simp [decoded, handUpdate, acceptUpdate, Vm.pushCommand, Vm.note, call]
    · intro m hm
      rcases List.mem_append.1 hm with hm | hm
      · exact hother m hm
      · have hm : m = _ := List.mem_singleton.1 hm
        rw [hm]
        rfl

namespace Buffered

theorem of_same (h : s.Buffered both) (hst : SameInbox s t) : t.Buffered both := by
  rcases hst.trace with ⟨notes, htrace, hnotes⟩
  have hnone : ∀ {α : Type} {f : Note → Option α}, (∀ n, n.isOther = true → f n = none) →
      t.trace.filterMap f = s.trace.filterMap f := by
    intro α f hf
    have hnil : notes.filterMap f = [] :=
      List.filterMap_eq_nil_iff.2 fun n hn => hf n (hnotes n hn)
    rw [htrace, List.filterMap_append, hnil, List.append_nil]
  refine ⟨?_, ?_, ?_, ?_⟩
  · intro hkept name
    have harrived : signalsArrived t.trace = signalsArrived s.trace :=
      hnone fun n hn => (Note.none_of_isOther hn).1
    have hhanded : signalsHanded t.trace = signalsHanded s.trace :=
      hnone fun n hn => (Note.none_of_isOther hn).2.1
    rw [harrived, hhanded, hst.inbox]
    exact h.signals hkept name
  · intro name
    have harrived : updatesArrived t.trace = updatesArrived s.trace :=
      hnone fun n hn => (Note.none_of_isOther hn).2.2.1
    have hanswered : updatesAnswered t.trace = updatesAnswered s.trace :=
      hnone fun n hn => (Note.none_of_isOther hn).2.2.2
    rw [harrived, hanswered, hst.inbox]
    exact h.updates name
  · intro hkept hnext
    rw [hst.inbox] at hnext
    rcases h.signalLoop hkept hnext with ⟨f, hf, hloop⟩
    exact ⟨f, hst.loops f hf (Or.inl hloop), hloop⟩
  · intro hnext
    rw [hst.inbox] at hnext
    rcases h.updateLoop hnext with ⟨f, hf, hloop⟩
    exact ⟨f, hst.loops f hf (Or.inr hloop), hloop⟩

/-- A registration changes who handles signals and updates, and starts a loop for what that makes
dispatchable. -/
theorem of_registration (h : s.Buffered both) (htrace : t.trace = s.trace)
    (hsignals : t.inbox.bufferedSignals = s.inbox.bufferedSignals)
    (hupdates : t.inbox.bufferedUpdates = s.inbox.bufferedUpdates)
    (hloop : nextBufferedSignal t.inbox ≠ none →
      nextBufferedSignal s.inbox ≠ none ∨ ∃ f ∈ t.stack, f.isSignalLoop = true)
    (hloop' : nextBufferedUpdate t.inbox ≠ none →
      nextBufferedUpdate s.inbox ≠ none ∨ ∃ f ∈ t.stack, f.isUpdateLoop = true)
    (hstack : ∀ f ∈ s.stack, f.isSignalLoop = true ∨ f.isUpdateLoop = true → f ∈ t.stack) :
    t.Buffered both := by
  refine ⟨?_, ?_, ?_, ?_⟩
  · intro hkept name
    rw [htrace, hsignals]
    exact h.signals hkept name
  · intro name
    rw [htrace, hupdates]
    exact h.updates name
  · intro hkept hnext
    rcases hloop hnext with hold | hnew
    · rcases h.signalLoop hkept hold with ⟨f, hf, hl⟩
      exact ⟨f, hstack f hf (Or.inl hl), hl⟩
    · exact hnew
  · intro hnext
    rcases hloop' hnext with hold | hnew
    · rcases h.updateLoop hold with ⟨f, hf, hl⟩
      exact ⟨f, hstack f hf (Or.inr hl), hl⟩
    · exact hnew

section Ledger

variable {α : Type} {arrived handed buffer rest : List α} {x : α} {q : α → Bool}

theorem ledger_take (h : arrived.filter q = handed.filter q ++ buffer.filter q)
    (hx : buffer.filter q = if q x then x :: rest.filter q else rest.filter q) :
    arrived.filter q = (handed ++ [x]).filter q ++ rest.filter q := by
  rw [h, hx]
  cases hq : q x with
  | true | false => simp [hq]

theorem ledger_buffer (h : arrived.filter q = handed.filter q ++ buffer.filter q) :
    (arrived ++ [x]).filter q = handed.filter q ++ (buffer ++ [x]).filter q := by
  simp [h]

theorem ledger_through (h : arrived.filter q = handed.filter q ++ buffer.filter q)
    (hempty : q x = true → buffer.filter q = []) :
    (arrived ++ [x]).filter q = (handed ++ [x]).filter q ++ buffer.filter q := by
  rw [List.filter_append, List.filter_append, h]
  cases hq : q x with
  | true => simp [hq, hempty hq]
  | false => simp [hq]

end Ledger

variable {sig : SignalWorkflow}

/-- A dispatch loop hands over the first buffered signal that has a handler. -/
theorem dispatchSignal (h : s.Buffered both) {remaining : List SignalWorkflow}
    {code : Prog σ} {loop : Frame σ} (hloop : loop ∈ s.stack) (hisLoop : loop.isSignalLoop = true)
    (hnext : nextBufferedSignal s.inbox = some (sig, remaining)) :
    ({ s with inbox.bufferedSignals := remaining }.handSignal sig
      code).Buffered both := by
  refine ⟨?_, ?_, ?_, ?_⟩
  · intro hkept name
    have hfilter : s.inbox.bufferedSignals.filter (fun sig => sig.signalName == name) = _ :=
      filter_takeFirst hnext fun y hy hx => by
        have hname : y.signalName = sig.signalName := by
          rw [beq_iff_eq.1 hy, beq_iff_eq.1 hx]
        rw [hname]
    simpa [Vm.handSignal, Vm.note, call, signalsArrived, signalsHanded, Note.arrivedSignal,
      Note.handedSignal, List.filterMap_cons] using ledger_take (h.signals hkept name) hfilter
  · intro name
    simpa [Vm.handSignal, Vm.note, call, updatesArrived, updatesAnswered, Note.arrivedUpdate,
      Note.answeredUpdate, List.filterMap_cons] using h.updates name
  · intro _ _
    exact ⟨loop, List.mem_cons_of_mem _ hloop, hisLoop⟩
  · intro hnext'
    rcases h.updateLoop hnext' with ⟨f, hf, hl⟩
    exact ⟨f, List.mem_cons_of_mem _ hf, hl⟩

/-- A signal arrives for which there is no handler. -/
theorem bufferSignal (h : s.Buffered both) (hnone : s.signalFunction sig.signalName = none) :
    ((s.note (.signalArrived sig)).bufferSignal sig).Buffered both := by
  have hfree : (s.inbox.defaultSignalHandler.isSome ||
      (s.inbox.signalHandlers sig.signalName).isSome) = false := by
    rw [← isSome_signalFunction, hnone]
    rfl
  refine ⟨?_, ?_, ?_, ?_⟩
  · intro hkept name
    simpa [Vm.bufferSignal, Vm.note, signalsArrived, signalsHanded, Note.arrivedSignal,
      Note.handedSignal, List.filterMap_cons] using ledger_buffer (x := sig) (h.signals hkept name)
  · intro name
    simpa [Vm.bufferSignal, Vm.note, updatesArrived, updatesAnswered, Note.arrivedUpdate,
      Note.answeredUpdate, List.filterMap_cons] using h.updates name
  · intro hkept hnext
    rcases nextBufferedSignal_ne_none.1 hnext with ⟨sig', hin, hhandled⟩
    rcases List.mem_append.1 hin with hin | hin
    · exact h.signalLoop hkept (nextBufferedSignal_ne_none.2 ⟨sig', hin, hhandled⟩)
    · have hsame : sig' = sig := by simpa using hin
      rw [hsame] at hhandled
      exact absurd (hhandled.symm.trans hfree) (by simp)
  · intro hnext
    exact h.updateLoop hnext

/-- A signal arrives for which there is a handler.  No loop is running, so that nothing with the same
name is buffered. -/
theorem handSignal (h : s.Buffered both) (hstack : s.stack = [])
    {handler : Args → Prog σ} (hsome : s.signalFunction sig.signalName = some handler)
    (code : Prog σ) : ((s.note (.signalArrived sig)).handSignal sig code).Buffered both := by
  have hhandled : (s.inbox.defaultSignalHandler.isSome ||
      (s.inbox.signalHandlers sig.signalName).isSome) = true := by
    rw [← isSome_signalFunction, hsome]
    rfl
  have hidle : both = true → ¬ nextBufferedSignal s.inbox ≠ none := by
    intro hkept hnext
    rcases h.signalLoop hkept hnext with ⟨f, hf, _⟩
    simp [hstack] at hf
  refine ⟨?_, ?_, ?_, ?_⟩
  · intro hkept name
    have hempty : (sig.signalName == name) = true →
        s.inbox.bufferedSignals.filter (fun sig => sig.signalName == name) = [] := by
      intro hname
      refine List.filter_eq_nil_iff.2 ?_
      intro y hy hyname
      refine hidle hkept (nextBufferedSignal_ne_none.2 ⟨y, hy, ?_⟩)
      rw [beq_iff_eq.1 hyname, ← beq_iff_eq.1 hname]
      exact hhandled
    simpa [Vm.handSignal, Vm.note, call, signalsArrived, signalsHanded, Note.arrivedSignal,
      Note.handedSignal, List.filterMap_cons] using ledger_through (h.signals hkept name) hempty
  · intro name
    simpa [Vm.handSignal, Vm.note, call, updatesArrived, updatesAnswered, Note.arrivedUpdate,
      Note.answeredUpdate, List.filterMap_cons] using h.updates name
  · intro hkept hnext
    exact absurd hnext (hidle hkept)
  · intro hnext
    rcases h.updateLoop hnext with ⟨f, hf, _⟩
    simp [hstack] at hf

/-- The first buffered update of its name is answered: by a dispatch loop, or at the end of the
activation. -/
theorem answerBuffered (h : s.Buffered both) {remaining : List DoUpdate}
    (ht : Answers { s with inbox.bufferedUpdates := remaining } t u)
    (hfilter : ∀ name, s.inbox.bufferedUpdates.filter (fun u => u.name == name) =
      if u.name == name then u :: remaining.filter (fun u => u.name == name)
      else remaining.filter (fun u => u.name == name))
    (hloop : nextBufferedUpdate t.inbox ≠ none → ∃ f ∈ s.stack, f.isUpdateLoop = true) :
    t.Buffered both := by
  rcases ht.ledgers with ⟨h1, h2, h3, h4⟩
  refine ⟨?_, ?_, ?_, ?_⟩
  · intro hkept name
    rw [h1, h2, ht.inbox]
    exact h.signals hkept name
  · intro name
    rw [h3, h4, ht.inbox]
    exact ledger_take (h.updates name) (hfilter name)
  · intro hkept hnext
    rw [ht.inbox] at hnext
    rcases h.signalLoop hkept hnext with ⟨f, hf, hl⟩
    exact ⟨f, ht.stack f hf, hl⟩
  · intro hnext
    rcases hloop hnext with ⟨f, hf, hl⟩
    exact ⟨f, ht.stack f hf, hl⟩

/-- An update arrives for which there is no handler. -/
theorem bufferUpdate (h : s.Buffered both) (hnone : s.updateEntry u.name = none) :
    ((s.note (.updateArrived u)).bufferUpdate u).Buffered both := by
  have hfree : (s.inbox.defaultUpdateHandler.isSome ||
      (s.inbox.updateHandlers u.name).isSome) = false := by
    rw [← isSome_updateEntry, hnone]
    rfl
  refine ⟨?_, ?_, ?_, ?_⟩
  · intro hkept name
    simpa [Vm.bufferUpdate, Vm.note, signalsArrived, signalsHanded, Note.arrivedSignal,
      Note.handedSignal, List.filterMap_cons] using h.signals hkept name
  · intro name
    simpa [Vm.bufferUpdate, Vm.note, updatesArrived, updatesAnswered, Note.arrivedUpdate,
      Note.answeredUpdate, List.filterMap_cons] using ledger_buffer (x := u) (h.updates name)
  · intro hkept hnext
    exact h.signalLoop hkept hnext
  · intro hnext
    rcases nextBufferedUpdate_ne_none.1 hnext with ⟨u', hin, hhandled⟩
    rcases List.mem_append.1 hin with hin | hin
    · exact h.updateLoop (nextBufferedUpdate_ne_none.2 ⟨u', hin, hhandled⟩)
    · have hsame : u' = u := by simpa using hin
      rw [hsame] at hhandled
      exact absurd (hhandled.symm.trans hfree) (by simp)

/-- An update arrives for which there is a handler. -/
theorem answerArrived (h : s.Buffered both) (hstack : s.stack = [])
    {entry : UpdateHandler σ} (hsome : s.updateEntry u.name = some entry)
    (ht : Answers (s.note (.updateArrived u)) t u) : t.Buffered both := by
  have hhandled : (s.inbox.defaultUpdateHandler.isSome ||
      (s.inbox.updateHandlers u.name).isSome) = true := by
    rw [← isSome_updateEntry, hsome]
    rfl
  have hidle : ¬ nextBufferedUpdate s.inbox ≠ none := by
    intro hnext
    rcases h.updateLoop hnext with ⟨f, hf, _⟩
    simp [hstack] at hf
  have hinbox : t.inbox = s.inbox := ht.inbox
  rcases ht.ledgers with ⟨h1, h2, h3, h4⟩
  refine ⟨?_, ?_, ?_, ?_⟩
  · intro hkept name
    rw [h1, h2, hinbox]
    simpa [Vm.note, signalsArrived, signalsHanded, Note.arrivedSignal, Note.handedSignal,
      List.filterMap_cons] using h.signals hkept name
  · intro name
    have hempty : (u.name == name) = true →
        s.inbox.bufferedUpdates.filter (fun u => u.name == name) = [] := by
      intro hname
      refine List.filter_eq_nil_iff.2 ?_
      intro y hy hyname
      refine hidle (nextBufferedUpdate_ne_none.2 ⟨y, hy, ?_⟩)
      rw [beq_iff_eq.1 hyname, ← beq_iff_eq.1 hname]
      exact hhandled
    rw [h3, h4, hinbox]
    simpa [Vm.note, updatesArrived, updatesAnswered, Note.arrivedUpdate, Note.answeredUpdate,
      List.filterMap_cons] using ledger_through (h.updates name) hempty
  · intro hkept hnext
    rw [hinbox] at hnext
    rcases h.signalLoop hkept hnext with ⟨f, hf, _⟩
    simp [hstack] at hf
  · intro hnext
    rw [hinbox] at hnext
    exact absurd hnext hidle

/-! ## Every step -/

/-- What happens to signals does not matter where only updates are kept. -/
theorem of_updates (h : s.Buffered false) (harrived : updatesArrived t.trace = updatesArrived s.trace)
    (hanswered : updatesAnswered t.trace = updatesAnswered s.trace)
    (hbuffered : t.inbox.bufferedUpdates = s.inbox.bufferedUpdates)
    (hnext : nextBufferedUpdate t.inbox = nextBufferedUpdate s.inbox)
    (hloops : ∀ f ∈ s.stack, f.isUpdateLoop = true → f ∈ t.stack) : t.Buffered false := by
  refine ⟨nofun, ?_, nofun, ?_⟩
  · rw [harrived, hanswered, hbuffered]
    exact h.updates
  · intro hloop
    rw [hnext] at hloop
    rcases h.updateLoop hloop with ⟨f, hf, hl⟩
    exact ⟨f, hloops f hf hl, hl⟩

theorem signalWorkflow (h : s.Buffered false) (cfg : Config σ) (sig : SignalWorkflow) :
    (s.signalWorkflow cfg sig).1.Buffered false ∧
      ((s.signalWorkflow cfg sig).2 ≠ none → (s.signalWorkflow cfg sig).1.stack = s.stack) := by
  rcases signalWorkflow_any cfg s sig with ⟨n, e, heq, _⟩ | heq | ⟨code, heq⟩
  · rw [heq]
    exact ⟨h.of_updates rfl rfl rfl rfl fun f hf _ => hf, fun _ => rfl⟩
  · rw [heq]
    exact ⟨h.of_updates rfl rfl rfl rfl fun f hf _ => hf, fun hne => absurd rfl hne⟩
  · rw [heq]
    refine ⟨h.of_updates ?_ ?_ rfl rfl fun f hf _ => List.mem_cons_of_mem _ hf, fun hne => absurd rfl hne⟩
    · simp [Vm.handSignal, Vm.note, call, updatesArrived, Note.arrivedUpdate]
    · simp [Vm.handSignal, Vm.note, call, updatesAnswered, Note.answeredUpdate]

theorem stepCode (h : s.Buffered both) {c : Caller} {code : Prog σ} {rest : List (Frame σ)}
    (hstack : s.stack = .code c code :: rest) : (s.stepCode c rest code).Buffered both := by
  have hrest : ∀ {f g : Frame σ}, f ∈ s.stack → f.isSignalLoop = true ∨ f.isUpdateLoop = true →
      f ∈ g :: rest := by
    intro f g hf hloop
    rw [hstack] at hf
    rcases List.mem_cons.1 hf with rfl | hf
    · simp [Frame.isSignalLoop, Frame.isUpdateLoop] at hloop
    · exact List.mem_cons_of_mem _ hf
  -- Code that only touches other fields first, and then goes on.
  have hgoOn : ∀ {t : Vm σ} (code' : Prog σ), SameInbox s t → t.stack = s.stack →
      (t.continueWith c code' rest).Buffered both := by
    intro t code' hst hsame
    exact h.of_same (hst.trans (.continueWith t (hsame.trans hstack)))
  cases code with
  | pause => exact h.of_same (.drop s hstack)
  | settle o => exact h.of_same ((SameInbox.drop s hstack).trans (.settleCall _ c o))
  | read k => exact hgoOn _ (.refl s) rfl
  | write | deleteCondition | unhandled => exact hgoOn _ (.of_eq rfl rfl rfl) rfl
  | command id k => exact hgoOn _ (.pushCommand s rfl) rfl
  | andThen p callback k =>
    refine hgoOn _ (.andThen s p c callback) ?_
    unfold Vm.andThen
    split <;> rfl
  | settlePromise p o k => exact hgoOn _ (.settlePromise s p o) rfl
  | condition fn p k =>
    simp only [Vm.stepCode]
    have hseq : SameInbox s { s with nextCondition := s.nextCondition + 1 } :=
      .of_eq rfl rfl rfl
    split
    · exact hgoOn _ (hseq.trans (.settlePromise _ p _)) rfl
    · exact hgoOn _ (.of_eq rfl rfl rfl) rfl
  | setSignalHandler name handler k =>
    simp only [Vm.stepCode]
    split
    · exact hgoOn _ (.refl s) rfl
    · exact h.of_registration rfl rfl rfl (fun _ => Or.inr ⟨_, List.mem_cons_self, rfl⟩)
        Or.inl (fun f hf hl => hrest hf hl)
  | unsetSignalHandler name k =>
    simp only [Vm.stepCode]
    split
    · exact hgoOn _ (.refl s) rfl
    · refine h.of_registration rfl rfl rfl (fun hnext => Or.inl ?_) Or.inl
        (fun f hf hl => hrest hf hl)
      rcases nextBufferedSignal_ne_none.1 hnext with ⟨sig, hin, hhandled⟩
      refine nextBufferedSignal_ne_none.2 ⟨sig, hin, ?_⟩
      by_cases hname : sig.signalName = name
      · simp_all [continueWith]
      · simpa [continueWith, Function.update_of_ne hname] using hhandled
  | setDefaultSignalHandler handler k =>
    exact h.of_registration rfl rfl rfl (fun _ => Or.inr ⟨_, List.mem_cons_self, rfl⟩) Or.inl
      (fun f hf hl => hrest hf hl)
  | unsetDefaultSignalHandler k =>
    refine h.of_registration rfl rfl rfl (fun hnext => Or.inl ?_) Or.inl
      (fun f hf hl => hrest hf hl)
    rcases nextBufferedSignal_ne_none.1 hnext with ⟨sig, hin, hhandled⟩
    refine nextBufferedSignal_ne_none.2 ⟨sig, hin, ?_⟩
    have hown : (s.inbox.signalHandlers sig.signalName).isSome = true := by
      simpa [Vm.stepCode, continueWith] using hhandled
    simp [hown]
  | setUpdateHandler name validator handler k =>
    simp only [Vm.stepCode]
    split
    · exact hgoOn _ (.refl s) rfl
    · exact h.of_registration rfl rfl rfl Or.inl
        (fun _ => Or.inr ⟨_, List.mem_cons_self, rfl⟩) (fun f hf hl => hrest hf hl)
  | unsetUpdateHandler name k =>
    simp only [Vm.stepCode]
    split
    · exact hgoOn _ (.refl s) rfl
    · refine h.of_registration rfl rfl rfl Or.inl (fun hnext => Or.inl ?_)
        (fun f hf hl => hrest hf hl)
      rcases nextBufferedUpdate_ne_none.1 hnext with ⟨u, hin, hhandled⟩
      refine nextBufferedUpdate_ne_none.2 ⟨u, hin, ?_⟩
      by_cases hname : u.name = name
      · simp_all [continueWith]
      · simpa [continueWith, Function.update_of_ne hname] using hhandled
  | setDefaultUpdateHandler handler k =>
    exact h.of_registration rfl rfl rfl Or.inl (fun _ => Or.inr ⟨_, List.mem_cons_self, rfl⟩)
      (fun f hf hl => hrest hf hl)
  | unsetDefaultUpdateHandler k =>
    refine h.of_registration rfl rfl rfl Or.inl (fun hnext => Or.inl ?_)
      (fun f hf hl => hrest hf hl)
    rcases nextBufferedUpdate_ne_none.1 hnext with ⟨u, hin, hhandled⟩
    refine nextBufferedUpdate_ne_none.2 ⟨u, hin, ?_⟩
    have hown : (s.inbox.updateHandlers u.name).isSome = true := by
      simpa [Vm.stepCode, continueWith] using hhandled
    simp [hown]

theorem endLoop (h : s.Buffered both) {loop : Frame σ} {rest : List (Frame σ)} (c : Caller)
    (code : Prog σ) (hstack : s.stack = loop :: rest)
    (hsignals : loop.isSignalLoop = true → nextBufferedSignal s.inbox = none)
    (hupdates : loop.isUpdateLoop = true → nextBufferedUpdate s.inbox = none) :
    (s.continueWith c code rest).Buffered both := by
  refine ⟨h.signals, h.updates, ?_, ?_⟩
  · intro hkept hnext
    rcases h.signalLoop hkept hnext with ⟨f, hf, hl⟩
    rw [hstack] at hf
    rcases List.mem_cons.1 hf with rfl | hf
    · exact absurd (hsignals hl) hnext
    · exact ⟨f, List.mem_cons_of_mem _ hf, hl⟩
  · intro hnext
    rcases h.updateLoop hnext with ⟨f, hf, hl⟩
    rw [hstack] at hf
    rcases List.mem_cons.1 hf with rfl | hf
    · exact absurd (hupdates hl) hnext
    · exact ⟨f, List.mem_cons_of_mem _ hf, hl⟩

theorem stepDispatchSignals (h : s.Buffered both) {c : Caller} {k : Option JsValue → Prog σ}
    {rest : List (Frame σ)} (hstack : s.stack = .dispatchSignals c k :: rest)
    (hg : s.Refuses cfg both = false) : (s.stepDispatchSignals cfg c k rest).Buffered both := by
  unfold Vm.stepDispatchSignals
  cases hnext : nextBufferedSignal s.inbox with
  | none => exact h.endLoop c _ hstack (fun _ => hnext) (by simp [Frame.isUpdateLoop])
  | some r =>
    rcases r with ⟨sig, remaining⟩
    cases both with
    | true =>
      have hsig : refusesSignal cfg s sig = false := by
        simpa [Refuses, hstack, hnext] using hg
      have hsig : refusesSignal cfg
          { s with inbox.bufferedSignals := remaining } sig = false := hsig
      rcases takeFirst_some hnext with ⟨hhandled, _⟩
      rcases signalWorkflow_cases hsig with ⟨hnone, _⟩ | ⟨handler, args, _, heq⟩
      · have hfun := isSome_signalFunction s sig.signalName
        rw [hhandled] at hfun
        have hnone : s.signalFunction sig.signalName = none := hnone
        simp [hnone] at hfun
      · have hloop : .dispatchSignals c k ∈ s.stack := by
          rw [hstack]
          exact List.mem_cons_self
        simp only [heq]
        exact h.dispatchSignal hloop rfl hnext
    | false =>
      have htaken : ({ s with inbox.bufferedSignals := remaining } : Vm σ).Buffered false :=
        h.of_updates rfl rfl rfl rfl fun f hf _ => hf
      have hsig := htaken.signalWorkflow cfg sig
      dsimp only
      split
      all_goals
        rename_i hcall
        rw [hcall] at hsig
      · exact hsig.1
      · refine hsig.1.of_updates rfl rfl rfl rfl fun f hf hl => ?_
        rw [hsig.2 (Option.some_ne_none _), hstack] at hf
        rcases List.mem_cons.1 hf with rfl | hf
        · cases hl
        · exact List.mem_cons_of_mem _ hf

theorem stepDispatchUpdates (h : s.Buffered both) {c : Caller} {k : Option JsValue → Prog σ}
    {rest : List (Frame σ)} (hstack : s.stack = .dispatchUpdates c k :: rest)
    (hg : s.Refuses cfg both = false) : (s.stepDispatchUpdates cfg c k rest).Buffered both := by
  unfold Vm.stepDispatchUpdates
  cases hnext : nextBufferedUpdate s.inbox with
  | none => exact h.endLoop c _ hstack (by simp [Frame.isSignalLoop]) (fun _ => hnext)
  | some r =>
    rcases r with ⟨u, remaining⟩
    have hu : refusesUpdate cfg s u = false := by
      simpa [Refuses, hstack, hnext] using hg
    have hu : refusesUpdate cfg
        { s with inbox.bufferedUpdates := remaining } u = false := by
      rw [← hu]
      apply refusesUpdate_congr
      all_goals rfl
    rcases takeFirst_some hnext with ⟨hhandled, _⟩
    rcases doUpdate_cases hu with ⟨hnone, _⟩ | ⟨entry, _, hconv, heq⟩
    · have hfun := isSome_updateEntry s u.name
      rw [hhandled] at hfun
      have hnone : s.updateEntry u.name = none := hnone
      simp [hnone] at hfun
    · simp only [heq]
      refine h.answerBuffered (answers_doUpdateImpl hconv) ?_ ?_
      · intro name
        refine filter_takeFirst hnext ?_
        intro y hy hx
        have hname : y.name = u.name := by rw [beq_iff_eq.1 hy, beq_iff_eq.1 hx]
        rw [hname]
      · intro _
        refine ⟨.dispatchUpdates c k, ?_, rfl⟩
        rw [hstack]
        exact List.mem_cons_self

/-- A job, when no loop is running. -/
theorem runJob (h : s.Buffered both) (hstack : s.stack = []) {job : Job}
    (hsig : ∀ sig, job = .signalWorkflow sig → both = true → refusesSignal cfg s sig = false)
    (hu : ∀ u, job = .doUpdate u → refusesUpdate cfg s u = false) :
    (s.runJob cfg job).1.Buffered both ∧
      ((s.runJob cfg job).2 ≠ none → (s.runJob cfg job).1.stack = []) := by
  cases job with
  | signalWorkflow sig =>
    cases both with
    | true =>
      have hsig : refusesSignal cfg (s.note (.signalArrived sig)) sig = false := hsig sig rfl rfl
      rcases signalWorkflow_cases hsig with ⟨hnone, heq⟩ | ⟨handler, args, hsome, heq⟩
      · simp only [Vm.runJob, heq]
        exact ⟨h.bufferSignal hnone, by simp⟩
      · simp only [Vm.runJob, heq]
        exact ⟨h.handSignal hstack hsome _, by simp⟩
    | false =>
      have harrived : (s.note (.signalArrived sig)).Buffered false :=
        h.of_updates (by simp [Vm.note, updatesArrived, Note.arrivedUpdate])
          (by simp [Vm.note, updatesAnswered, Note.answeredUpdate]) rfl rfl fun f hf _ => hf
      have hrun := harrived.signalWorkflow cfg sig
      exact ⟨hrun.1, fun hne => (hrun.2 hne).trans hstack⟩
  | doUpdate u =>
    have hu : refusesUpdate cfg (s.note (.updateArrived u)) u = false := by
      rw [← hu u rfl]
      apply refusesUpdate_congr
      all_goals rfl
    rcases doUpdate_cases hu with ⟨hnone, heq⟩ | ⟨entry, hsome, hconv, heq⟩
    · simp only [Vm.runJob, heq]
      exact ⟨h.bufferUpdate hnone, by simp⟩
    · simp only [Vm.runJob, heq]
      exact ⟨h.answerArrived hstack hsome (answers_doUpdateImpl hconv), by simp⟩
  | initializeWorkflow _ outcome | notifyHasPatch outcome | updateRandomSeed outcome =>
    cases outcome with
    | ok | error => exact ⟨h, fun _ => hstack⟩
  | cancelWorkflow =>
    have hcancel : SameInbox s { s with cancelled := true } := .of_eq rfl rfl rfl
    exact ⟨h.of_same (hcancel.trans (.settlePromise _ _ _)), fun _ => hstack⟩
  | resolve completion =>
    cases completion with
    | error _ => exact ⟨h, fun _ => hstack⟩
    | ok r => exact ⟨h.of_same (.settlePromise s r.1 r.2), fun _ => hstack⟩
  | queryWorkflow queryId outcome =>
    cases outcome with
    | ok handling =>
      simp only [Vm.runJob, queryWorkflow_eq]
      exact ⟨h.of_same (.of_eq rfl rfl rfl), fun _ => hstack⟩
    | error _ => exact ⟨h, fun _ => hstack⟩

theorem handleJob (h : s.Buffered both) (hstack : s.stack = []) {job : Job} (hjob : s.nextJob = some job)
    (hg : s.Refuses cfg both = false) (phase : Phase) :
    (orFail ((s.enter phase).runJob cfg job)).Buffered both := by
  have hphase : (s.enter phase).Buffered both := h.of_same (.of_eq rfl rfl rfl)
  have hsig : ∀ sig, job = .signalWorkflow sig → both = true → refusesSignal cfg (s.enter phase) sig = false := by
    rintro sig rfl rfl
    have hsig : refusesSignal cfg s sig = false := by simpa [Refuses, hstack, hjob] using hg
    exact hsig
  have hu : ∀ u, job = .doUpdate u → refusesUpdate cfg (s.enter phase) u = false := by
    rintro u rfl
    have hu : refusesUpdate cfg s u = false := by simpa [Refuses, hstack, hjob] using hg
    rw [← hu]
    apply refusesUpdate_congr
    all_goals rfl
  have hrun := hphase.runJob hstack hsig hu
  unfold orFail
  cases he : ((s.enter phase).runJob cfg job).2 with
  | none => exact hrun.1
  | some e => exact hrun.1.of_same (.fail _ e (hrun.2 (by simp [he])))

theorem unblocking (h : s.Buffered both) (hstack : s.stack = []) {k : Vm σ → Nat → Vm σ}
    (hk : ∀ t n, SameInbox t (k t n)) : (s.unblocking k).Buffered both := by
  unfold Vm.unblocking
  cases hr : s.tryUnblockConditions with
  | error e => exact h.of_same (.fail s e hstack)
  | ok r => exact h.of_same ((SameInbox.tryUnblockConditions hr).trans (hk _ _))

theorem stepConclude (h : s.Buffered both) (hstack : s.stack = []) (hphase : s.phase = .conclude)
    (hg : s.Refuses cfg both = false) : (s.stepConclude cfg).Buffered both := by
  unfold Vm.stepConclude
  cases hu : s.inbox.bufferedUpdates with
  | nil => exact h.of_same (.succeed s hstack)
  | cons u updates =>
    have hconv : (cfg.errorToFailure (noHandlerError u)).isOk = true := by
      simpa [Refuses, hstack, nextJob, hphase, hu] using hg
    cases hf : cfg.errorToFailure (noHandlerError u) with
    | error e => simp [hf, Except.isOk, Except.toBool] at hconv
    | ok failure =>
      simp only [rejectUpdate, hf, orFail]
      refine h.answerBuffered ⟨rfl, ⟨[], _, rfl, by simp, rfl⟩, fun f hf => hf⟩ ?_ ?_
      · intro name
        rw [hu]
        cases hname : u.name == name with
        | true | false => simp [hname]
      · intro hnext
        rcases nextBufferedUpdate_ne_none.1 hnext with ⟨u', hin, hhandled⟩
        refine h.updateLoop (nextBufferedUpdate_ne_none.2 ⟨u', ?_, hhandled⟩)
        rw [hu]
        exact List.mem_cons_of_mem _ hin

theorem stepPhase (h : s.Buffered both) (hstack : s.stack = []) (hg : s.Refuses cfg both = false) :
    (s.stepPhase cfg).Buffered both := by
  have henter : ∀ (t : Vm σ) (phase : Phase), SameInbox t (t.enter phase) :=
    fun t phase => .of_eq rfl rfl rfl
  unfold Vm.stepPhase
  split
  · exact h
  · rename_i hphase
    exact h.handleJob hstack (by simp [nextJob, hphase]) hg _
  · exact h.of_same (henter s _)
  · split
    · unfold startWorkflow
      split
      · exact h.of_same ((henter s .started).trans ⟨rfl, ⟨[], by simp [orFail, call], by simp⟩,
          fun f hf _ => List.mem_cons_of_mem _ hf⟩)
      · exact h.of_same ((henter s .started).trans (.fail _ _ hstack))
    · exact h.of_same (.fail s _ hstack)
  · exact h.unblocking hstack fun t _ => henter t _
  · exact h.unblocking hstack fun t _ => henter t _
  · unfold stepMicrotasks
    split
    · rename_i m microtasks _
      have hpop : SameInbox s { s with microtasks := microtasks } := .of_eq rfl rfl rfl
      exact h.of_same (hpop.trans (.runMicrotask cfg _ m))
    · exact h.of_same (henter s _)
  · refine h.unblocking hstack ?_
    intro t n
    unfold afterOuter
    split
    · exact .nextBatch t
    · exact henter t _
  · rename_i hphase
    exact h.handleJob hstack (by simp [nextJob, hphase]) hg _
  · exact h.of_same (henter s _)
  · rename_i hphase
    exact h.stepConclude hstack hphase hg

end Buffered

theorem buffered_step (h : s.Buffered both) (hg : s.Refuses cfg both = false) : (s.step cfg).Buffered both := by
  unfold step
  cases hstack : s.stack with
  | nil => exact h.stepPhase hstack hg
  | cons f rest =>
    cases f with
    | code c code => exact h.stepCode hstack
    | dispatchSignals c k => exact h.stepDispatchSignals hstack hg
    | dispatchUpdates c k => exact h.stepDispatchUpdates hstack hg

theorem buffered_next (s : Vm σ) (i : Input) (hg : HandsOver cfg both s i) (h : s.Buffered both) :
    (next cfg s i).Buffered both := by
  cases i with
  | tick => exact buffered_step h hg
  | activate a =>
    simp only [next]
    split
    · rename_i hstack
      exact h.of_same (.activate s a hstack)
    · exact h

end Vm

/-! ## Nothing is lost, duplicated or reordered -/

/-- In every state of a run whose calls succeed: for each name, the signals that have arrived are
those handed to a handler, in this order, followed by those buffered; and the updates that have
arrived are those handed to a handler or rejected, followed by those buffered. -/
theorem buffering_keeps_everything (cfg : Config σ) (heap : σ) (inputs : List Input)
    (hg : Guarded (next cfg) (HandsOver cfg true) (Vm.init heap) inputs) :
    let s := run (next cfg) (Vm.init heap) inputs
    (∀ name, (signalsArrived s.trace).filter (fun sig => sig.signalName == name) =
      (signalsHanded s.trace).filter (fun sig => sig.signalName == name) ++
        s.inbox.bufferedSignals.filter (fun sig => sig.signalName == name)) ∧
    (∀ name, (updatesArrived s.trace).filter (fun u => u.name == name) =
      (updatesAnswered s.trace).filter (fun u => u.name == name) ++
        s.inbox.bufferedUpdates.filter (fun u => u.name == name)) := by
  have h : (run (next cfg) (Vm.init heap) inputs).Buffered true :=
    run_invariant Vm.buffered_next (Vm.buffered_init true heap) hg
  exact ⟨h.signals rfl, h.updates⟩

/-- A workflow of a program that keeps no state, with converters that never throw. -/
def plainConfig (workflow : Prog Unit) : Config Unit :=
  { workflow := fun _ => workflow
    arrayFromPayloads := fun payloads => .ok (payloads.map .string)
    toPayload := fun _ => .ok "result"
    errorToFailure := fun _ => .ok "failure"
    failureTypes := ⟨none, []⟩ }

/-- An activation and `n` steps. -/
def activation (n : Nat) (jobs : List Job) : List Input :=
  .activate ⟨⟨0, 0, false⟩, jobs, true⟩ :: List.replicate n .tick

/-- A workflow that registers a handler for `a` and a default handler for updates after two signals
and an update have been buffered. -/
def registersLate : Prog Unit :=
  .setSignalHandler "a" (fun _ => .command 1 (.settle (.ok .undefined))) fun _ =>
    .setDefaultUpdateHandler (fun _ _ => .settle (.ok .undefined)) fun _ => .pause

def lateRun : List Input :=
  activation 12
    [Job.initializeWorkflow [] (.ok ()), .signalWorkflow ⟨"a", ["1"]⟩, .signalWorkflow ⟨"b", ["2"]⟩,
     .doUpdate ⟨"id", "pid", "u", [], true⟩]

theorem lateRun_keeps_everything :
    Guarded (next (plainConfig registersLate)) (HandsOver (plainConfig registersLate) true) (Vm.init ())
      lateRun ∧
    let s := run (next (plainConfig registersLate)) (Vm.init ()) lateRun
    (signalsArrived s.trace).filter (fun sig => sig.signalName == "a") =
      (signalsHanded s.trace).filter (fun sig => sig.signalName == "a") ++
        s.inbox.bufferedSignals.filter (fun sig => sig.signalName == "a") ∧
    signalsHanded s.trace = [⟨"a", ["1"]⟩] ∧ s.inbox.bufferedSignals = [⟨"b", ["2"]⟩] := by
  have hg : Guarded (next (plainConfig registersLate)) (HandsOver (plainConfig registersLate) true)
      (Vm.init ()) lateRun := by decide
  exact ⟨hg, (buffering_keeps_everything (plainConfig registersLate) () lateRun hg).1 "a",
    by decide, by decide⟩

/-- A workflow that registers a default handler for signals and catches what that throws. -/
def catchesReserved : Prog Unit :=
  .setDefaultSignalHandler (fun _ _ => .settle (.ok .undefined)) fun _ => .pause

/-- A signal whose name has the reserved prefix is buffered; the default handler makes the loop take
it out, `signalWorkflow` throws, and the activation succeeds without it. -/
theorem reservedSignal_lost :
    let s := run (next (plainConfig catchesReserved)) (Vm.init ())
      (activation 20 [.initializeWorkflow [] (.ok ()), .signalWorkflow ⟨"__temporal_x", []⟩])
    s.trace.getLast? = some (.completed (.successful [])) ∧
    signalsArrived s.trace = [⟨"__temporal_x", []⟩] ∧ signalsHanded s.trace = [] ∧
      s.inbox.bufferedSignals = [] ∧
    ¬ (signalsArrived s.trace).filter (fun sig => sig.signalName == "__temporal_x") =
      (signalsHanded s.trace).filter (fun sig => sig.signalName == "__temporal_x") ++
        s.inbox.bufferedSignals.filter (fun sig => sig.signalName == "__temporal_x") := by
  decide

end TemporalSdk.Activation
