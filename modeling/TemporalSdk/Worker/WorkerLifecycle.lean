import TemporalSdk.Machine.Run

/-!
# WorkerLifecycle — `run`, `runUntil` and `shutdown` of a `Worker`

`runInternal` merges the pollers, the heartbeats and the subjects that errors are pushed to into one stream,
waits for its end, and then cleans up in two nested `finally` blocks: the native worker is finalized, a
connection that the worker created is closed, the workflow creator is destroyed.

The events are what can happen around it, in any order.  A plugin decides when `runInternal` is called, so
that this is an event too.  Errors are of a type `ε`; a native call that may fail comes with the error it
throws, if any.
-/

namespace TemporalSdk.Worker
namespace WorkerLifecycle

open Machine

inductive State
  | initialized
  | running
  | stopping
  | draining
  | drained
  | stopped
  | failed
  deriving DecidableEq

inductive Poller
  | workflow
  | activity
  | nexus
  deriving DecidableEq

structure Config where
  workflowCreator : Bool
  activities : Bool
  nexusServiceHandlers : Bool
  shutdownForceTime : Bool
  /-- `_connection instanceof InternalNativeConnection`. -/
  internalConnection : Bool

/-- Without anything registered for it, the observable of a poller is `EMPTY`. -/
def Config.polls (cfg : Config) : Poller → Bool
  | .workflow => cfg.workflowCreator
  | .activity => cfg.activities
  | .nexus => cfg.nexusServiceHandlers

variable {ε : Type}

/-- Where `runInternal` is.  From the end of the stream on it carries the completion that the `finally`
blocks pass on, or replace when they throw. -/
inductive Phase (ε : Type)
  | notStarted
  | streaming
  | finalizing (completion : Except ε Unit)
  | closing (completion : Except ε Unit)
  | destroying (completion : Except ε Unit)
  | settled (completion : Except ε Unit)

/-- `unexpectedError` is the error that `unexpectedErrorSubject` was stopped by.  The fields after `fatalError`
are for stating properties only: the earlier states, the latest first, whether `runUntil`'s inner promise has
settled, whether a shutdown was requested, how often each step of the cleanup was made, and every error. -/
structure Run (ε : Type) where
  state : State
  phase : Phase ε
  live : Poller → Bool
  unexpectedError : Option ε
  fatalError : Option ε
  history : List State
  innerSettled : Bool
  shutdownRequested : Bool
  finalizeCalls : Nat
  closeCalls : Nat
  destroyCalls : Nat
  reported : List ε

inductive Event (ε : Type)
  -- A plugin, or `run` itself, calls `next`.
  | runInternal
  -- Each of these three may call `initiateShutdown`, which may throw.
  | shutdown (initiateShutdown : Option ε)
  | signal (initiateShutdown : Option ε)
  | innerSettled (initiateShutdown : Option ε)
  | unexpectedError (e : ε) (initiateShutdown : Option ε)
  | pollerEnded (p : Poller)
  | pollerFailed (p : Poller) (e : ε)
  | heartbeatsFlushed
  | heartbeatsFailed (e : ε)
  | forceTimeExpired (e : ε)
  -- The calls of the cleanup return, or fail.
  | finalized (failure : Option ε)
  | connectionClosed (failure : Option ε)
  | creatorDestroyed

namespace Run

def init : Run ε :=
  ⟨.initialized, .notStarted, fun _ => false, none, none, [], false, false, 0, 0, 0, []⟩

def setState (w : Run ε) (state : State) : Run ε :=
  { w with state := state, history := w.state :: w.history }

def report (w : Run ε) (e : ε) : Run ε := { w with reported := w.reported ++ [e] }

/-- The stream completes or fails.  `fatalError` has precedence over its outcome, the state follows, and the
inner `finally` calls `finalizeShutdown`. -/
def endStream (w : Run ε) (outcome : Except ε Unit) : Run ε :=
  let completion : Except ε Unit := match w.fatalError with
    | some e => .error e
    | none => outcome
  let ended := match completion with
    | .ok () => w.setState .stopped
    | .error _ => w.setState .failed
  { ended with phase := .finalizing completion, finalizeCalls := w.finalizeCalls + 1 }

/-- An error that ends the stream. -/
def fail (w : Run ε) (e : ε) : Run ε := (w.report e).endStream (.error e)

/-- When `initiateShutdown` throws, the error goes to `instantTerminateErrorSubject` and ends the stream. -/
def shutdown (w : Run ε) (initiateShutdown : Option ε) : Run ε :=
  let stopping := { w.setState .stopping with shutdownRequested := true }
  match initiateShutdown with
  | none => stopping.setState .draining
  | some e => stopping.fail e

def shutdownIfRunning (w : Run ε) (initiateShutdown : Option ε) : Run ε :=
  if w.state = .running then w.shutdown initiateShutdown else w

def drainIfDone (w : Run ε) : Run ε :=
  if w.live .workflow || w.live .activity || w.live .nexus then w else w.setState .drained

/-- `workflowCreator?.destroy()`. -/
def destroy (cfg : Config) (w : Run ε) (completion : Except ε Unit) : Run ε :=
  if cfg.workflowCreator then
    { w with phase := .destroying completion, destroyCalls := w.destroyCalls + 1 }
  else { w with phase := .settled completion }

/-- The outer `finally`. -/
def cleanUp (cfg : Config) (w : Run ε) (completion : Except ε Unit) : Run ε :=
  if cfg.internalConnection then
    { w with phase := .closing completion, closeCalls := w.closeCalls + 1 }
  else w.destroy cfg completion

/-- Nothing happens where the event is not possible. -/
def step (cfg : Config) (w : Run ε) : Event ε → Run ε
  -- A second call throws.
  | .runInternal =>
    if w.state = .initialized then
      { w.setState .running with phase := .streaming, live := cfg.polls }.drainIfDone
    else w
  | .shutdown initiateShutdown => w.shutdownIfRunning initiateShutdown
  | .signal initiateShutdown => w.shutdownIfRunning initiateShutdown
  | .innerSettled initiateShutdown => { w.shutdownIfRunning initiateShutdown with innerSettled := true }
  | .unexpectedError e initiateShutdown =>
    match w.unexpectedError, w.phase with
    -- A subject is stopped by its first error.  Tasks are handled while the worker runs.
    | some _, _ => w
    | none, .notStarted => w
    | none, phase =>
      let w := { w.report e with unexpectedError := some e }
      match phase with
      -- `fatalError` is set after the shutdown.
      | .streaming =>
        let w := w.shutdownIfRunning initiateShutdown
        { w with fatalError := w.fatalError.or (some e) }
      | .finalizing _ => { w with fatalError := w.fatalError.or (some e) }
      -- Nobody is subscribed any more.
      | _ => w
  | .pollerEnded p =>
    match w.phase with
    | .streaming => if w.live p then { w with live := Function.update w.live p false }.drainIfDone else w
    | _ => w
  | .pollerFailed p e =>
    match w.phase with
    | .streaming => if w.live p then w.fail e else w
    | _ => w
  -- The heartbeats are complete once the pollers are, and with them the stream.
  | .heartbeatsFlushed =>
    match w.phase with
    | .streaming => if w.state = .drained then w.endStream (.ok ()) else w
    | _ => w
  | .heartbeatsFailed e =>
    match w.phase with
    | .streaming => w.fail e
    | _ => w
  | .forceTimeExpired e =>
    match w.phase with
    | .streaming => if cfg.shutdownForceTime && w.state = .draining then w.fail e else w
    | _ => w
  -- Rethrown only without an error of the stream.
  | .finalized failure =>
    match w.phase with
    | .finalizing completion =>
      match failure, completion with
      | none, _ => w.cleanUp cfg completion
      | some e, .ok () => (w.report e).cleanUp cfg (.error e)
      | some e, .error _ => (w.report e).cleanUp cfg completion
    | _ => w
  -- The error replaces the completion, and the rest of the block is skipped.
  | .connectionClosed failure =>
    match w.phase with
    | .closing completion =>
      match failure with
      | none => w.destroy cfg completion
      | some e => { w.report e with phase := .settled (.error e) }
    | _ => w
  | .creatorDestroyed =>
    match w.phase with
    | .destroying completion => { w with phase := .settled completion }
    | _ => w

end Run

/-! ## What a worker promises -/

/-- The moves between states. -/
def Moves : State → State → Prop
  | .initialized, .running => True
  | .running, .stopping => True
  | .stopping, .draining => True
  | .running, .drained => True
  | .draining, .drained => True
  | .drained, .stopped => True
  | .running, .failed => True
  | .stopping, .failed => True
  | .draining, .failed => True
  | .drained, .failed => True
  | _, _ => False

def Run.Moved (w : Run ε) : Prop := List.IsChain (fun later earlier => Moves earlier later) (w.state :: w.history)

/-- Without any condition: the states, the finalization of the native worker and the connection. -/
structure Orderly (cfg : Config) (w : Run ε) : Prop where
  moves : w.Moved
  once : w.finalizeCalls ≤ 1 ∧ w.closeCalls ≤ cfg.internalConnection.toNat ∧
    w.destroyCalls ≤ cfg.workflowCreator.toNat
  finalized : ∀ r, w.phase = .settled r →
    w.finalizeCalls = 1 ∧ w.closeCalls = cfg.internalConnection.toNat

structure Lifecycle (cfg : Config) (w : Run ε) : Prop where
  moves : w.Moved
  rejects : ∀ r, w.phase = .settled r → ((∃ e, r = .error e) ↔ w.reported ≠ [])
  first : ∀ r e, w.phase = .settled r → w.unexpectedError = some e → r = .error e
  once : w.finalizeCalls ≤ 1 ∧ w.closeCalls ≤ cfg.internalConnection.toNat ∧
    w.destroyCalls ≤ cfg.workflowCreator.toNat
  cleaned : ∀ r, w.phase = .settled r →
    w.finalizeCalls = 1 ∧ w.closeCalls = cfg.internalConnection.toNat ∧
      w.destroyCalls = cfg.workflowCreator.toNat
  stops : ¬ (w.innerSettled = true ∧ w.state = .running ∧ w.shutdownRequested = false)

/-- The steps that keep the promises: `runUntil`'s inner promise is not settled when `runInternal` is called;
the first unexpected error comes before the end of the stream, and `initiateShutdown` does not throw on
account of it; closing the connection does not fail when there is a workflow creator to destroy, or an
unexpected error to reject with. -/
def Sound (cfg : Config) (w : Run ε) : Event ε → Prop
  | .runInternal => w.state = .initialized → w.innerSettled = false
  | .unexpectedError _ initiateShutdown => w.unexpectedError = none →
      (w.phase = .notStarted ∨ w.phase = .streaming) ∧ (w.state = .running → initiateShutdown = none)
  | .connectionClosed (some _) => ∀ completion, w.phase = .closing completion →
      cfg.workflowCreator = false ∧ w.unexpectedError = none
  | _ => True

/-! ## What every step keeps -/

def State.active : State → Bool
  | .running => true
  | .stopping => true
  | .draining => true
  | .drained => true
  | _ => false

theorem moves_failed {s : State} (h : s.active = true) : Moves s .failed := by
  cases s with
  | running | stopping | draining | drained => trivial
  | _ => cases h

namespace Run

def Calls (w : Run ε) (finalizeCalls closeCalls destroyCalls : Nat) : Prop :=
  w.finalizeCalls = finalizeCalls ∧ w.closeCalls = closeCalls ∧ w.destroyCalls = destroyCalls

/-- How far the cleanup is in each phase. -/
def Stage (cfg : Config) (w : Run ε) : Phase ε → Prop
  | .notStarted => w.state = .initialized ∧ w.Calls 0 0 0
  | .streaming => (w.state = .running ∨ w.state = .draining ∨ w.state = .drained ∧ ∀ p, w.live p = false) ∧
      w.Calls 0 0 0
  | .finalizing _ => (w.state = .stopped ∨ w.state = .failed) ∧ w.Calls 1 0 0
  | .closing _ => (w.state = .stopped ∨ w.state = .failed) ∧ cfg.internalConnection = true ∧ w.Calls 1 1 0
  | .destroying _ => (w.state = .stopped ∨ w.state = .failed) ∧ cfg.workflowCreator = true ∧
      w.Calls 1 cfg.internalConnection.toNat 1
  | .settled _ => (w.state = .stopped ∨ w.state = .failed) ∧ w.finalizeCalls = 1 ∧
      w.closeCalls = cfg.internalConnection.toNat ∧ w.destroyCalls ≤ cfg.workflowCreator.toNat

structure Kept (cfg : Config) (w : Run ε) : Prop where
  moved : w.Moved
  stage : w.Stage cfg w.phase

variable {cfg : Config} {w : Run ε}

theorem kept_init : Kept cfg (init : Run ε) :=
  ⟨.singleton _, rfl, rfl, rfl, rfl⟩

theorem Moved.setState (h : w.Moved) {s : State} (hs : Moves w.state s) : (w.setState s).Moved :=
  .cons_cons hs h

theorem Kept.orderly (h : Kept cfg w) : Orderly cfg w := by
  have hstage := h.stage
  refine ⟨h.moved, ?_, ?_⟩
  · cases hphase : w.phase with
    | notStarted | streaming | finalizing =>
      rw [hphase] at hstage
      rcases hstage with ⟨_, hf, hc, hd⟩
      simp [hf, hc, hd]
    | closing c =>
      rw [hphase] at hstage
      rcases hstage with ⟨_, hconn, hf, hc, hd⟩
      simp [hf, hc, hd, hconn]
    | destroying c =>
      rw [hphase] at hstage
      rcases hstage with ⟨_, hcreator, hf, hc, hd⟩
      simp [hf, hc, hd, hcreator]
    | settled r =>
      rw [hphase] at hstage
      rcases hstage with ⟨_, hf, hc, hd⟩
      exact ⟨Nat.le_of_eq hf, Nat.le_of_eq hc, hd⟩
  · intro r hphase
    rw [hphase] at hstage
    exact ⟨hstage.2.1, hstage.2.2.1⟩

theorem kept_endStream (hmoved : w.Moved) (hcalls : w.Calls 0 0 0) (hactive : w.state.active = true)
    {outcome : Except ε Unit} (hok : outcome = .ok () → w.state = .drained) :
    Kept cfg (w.endStream outcome) := by
  rcases hcalls with ⟨hf, hc, hd⟩
  have hfailed : ∀ completion : Except ε Unit, Kept cfg { w.setState .failed with
      phase := .finalizing completion, finalizeCalls := w.finalizeCalls + 1 } := fun completion =>
    ⟨hmoved.setState (moves_failed hactive), .inr rfl, by simp [hf], hc, hd⟩
  unfold endStream
  cases w.fatalError with
  | some e => exact hfailed _
  | none =>
    cases outcome with
    | error e => exact hfailed _
    | ok u =>
      have hdrained := hok rfl
      refine ⟨hmoved.setState ?_, .inl rfl, by simp [hf], hc, hd⟩
      rw [hdrained]
      trivial

theorem kept_fail (hmoved : w.Moved) (hcalls : w.Calls 0 0 0) (hactive : w.state.active = true) (e : ε) :
    Kept cfg (w.fail e) := by
  have hreported : (w.report e).Moved := hmoved
  exact kept_endStream hreported hcalls hactive nofun

theorem Kept.streaming (h : Kept cfg w) (hphase : w.phase = .streaming) :
    w.state.active = true ∧ w.Calls 0 0 0 := by
  have hstage := h.stage
  rw [hphase] at hstage
  rcases hstage with ⟨hstate | hstate | ⟨hstate, _⟩, hcalls⟩
  all_goals exact ⟨by rw [hstate]; rfl, hcalls⟩

theorem Kept.fail (h : Kept cfg w) (hphase : w.phase = .streaming) (e : ε) : Kept cfg (w.fail e) := by
  rcases h.streaming hphase with ⟨hactive, hcalls⟩
  exact kept_fail h.moved hcalls hactive e

theorem Kept.streaming_of_running (h : Kept cfg w) (hstate : w.state = .running) :
    w.phase = .streaming := by
  have hstage := h.stage
  cases hphase : w.phase with
  | streaming => rfl
  | notStarted =>
    rw [hphase] at hstage
    exact absurd (hstate.symm.trans hstage.1) nofun
  | _ =>
    rw [hphase] at hstage
    rcases hstage.1 with hfinal | hfinal
    all_goals exact absurd (hstate.symm.trans hfinal) nofun

theorem Kept.notStarted_of_initialized (h : Kept cfg w) (hstate : w.state = .initialized) :
    w.phase = .notStarted := by
  have hstage := h.stage
  cases hphase : w.phase with
  | notStarted => rfl
  | streaming =>
    rw [hphase, Stage, hstate] at hstage
    exact absurd hstage.1 (by simp)
  | _ =>
    rw [hphase] at hstage
    rcases hstage.1 with hfinal | hfinal
    all_goals exact absurd (hstate.symm.trans hfinal) nofun

theorem Kept.shutdownIfRunning (h : Kept cfg w) (initiateShutdown : Option ε) :
    Kept cfg (w.shutdownIfRunning initiateShutdown) := by
  unfold Run.shutdownIfRunning
  split
  next hstate =>
    have hphase := h.streaming_of_running hstate
    rcases h.streaming hphase with ⟨_, hcalls⟩
    have hstopping : (w.setState .stopping).Moved := h.moved.setState (by rw [hstate]; trivial)
    cases initiateShutdown with
    | none =>
      refine ⟨hstopping.setState trivial, ?_⟩
      show Stage cfg _ w.phase
      rw [hphase]
      exact ⟨.inr (.inl rfl), hcalls⟩
    | some e =>
      have hrequested : Moved { w.setState .stopping with shutdownRequested := true } := hstopping
      exact kept_fail hrequested hcalls rfl e
  · exact h

theorem Kept.drainIfDone (h : Kept cfg w) (hphase : w.phase = .streaming)
    (hstate : Moves w.state .drained) : Kept cfg w.drainIfDone := by
  unfold Run.drainIfDone
  split
  · exact h
  next hdone =>
    have hlive : ∀ p, w.live p = false := by
      simp only [Bool.or_eq_true, not_or, Bool.not_eq_true] at hdone
      intro p
      cases p with
      | workflow => exact hdone.1.1
      | activity => exact hdone.1.2
      | nexus => exact hdone.2
    refine ⟨h.moved.setState hstate, ?_⟩
    show Stage cfg _ w.phase
    rw [hphase]
    exact ⟨.inr (.inr ⟨rfl, hlive⟩), (h.streaming hphase).2⟩

theorem kept_destroy (hmoved : w.Moved) (hstate : w.state = .stopped ∨ w.state = .failed)
    (hcalls : w.Calls 1 cfg.internalConnection.toNat 0) (completion : Except ε Unit) :
    Kept cfg (w.destroy cfg completion) := by
  rcases hcalls with ⟨hf, hc, hd⟩
  unfold Run.destroy
  split
  next hcreator => exact ⟨hmoved, hstate, hcreator, hf, hc, by simp [hd]⟩
  next => exact ⟨hmoved, hstate, hf, hc, by simp [hd]⟩

theorem kept_cleanUp (hmoved : w.Moved) (hstate : w.state = .stopped ∨ w.state = .failed)
    (hcalls : w.Calls 1 0 0) (completion : Except ε Unit) : Kept cfg (w.cleanUp cfg completion) := by
  rcases hcalls with ⟨hf, hc, hd⟩
  unfold Run.cleanUp
  split
  next hconn => exact ⟨hmoved, hstate, hconn, hf, by simp [hc], hd⟩
  next hconn => exact kept_destroy hmoved hstate ⟨hf, by simp [hc, hconn], hd⟩ completion

theorem Kept.step (h : Kept cfg w) (e : Event ε) : Kept cfg (w.step cfg e) := by
  cases e with
  | runInternal =>
    simp only [Run.step]
    split
    next hstate =>
      have hstage := h.stage
      rw [h.notStarted_of_initialized hstate] at hstage
      have hmoved : (w.setState .running).Moved := h.moved.setState (by rw [hstate]; trivial)
      have hkept : Kept cfg { w.setState .running with phase := .streaming, live := cfg.polls } :=
        ⟨hmoved, .inl rfl, hstage.2⟩
      exact hkept.drainIfDone rfl trivial
    · exact h
  | shutdown i | signal i => exact h.shutdownIfRunning i
  | innerSettled i =>
    have hkept := h.shutdownIfRunning i
    exact ⟨hkept.moved, hkept.stage⟩
  | unexpectedError e i =>
    simp only [Run.step]
    split
    · exact h
    · exact h
    next phase _ _ =>
      have hreport : Kept cfg { w.report e with unexpectedError := some e } := ⟨h.moved, h.stage⟩
      split
      · have hkept := hreport.shutdownIfRunning i
        exact ⟨hkept.moved, hkept.stage⟩
      · exact ⟨h.moved, h.stage⟩
      · exact hreport
  | pollerEnded p =>
    simp only [Run.step]
    split
    next hphase =>
      split
      next hlive =>
        have hstage := h.stage
        rw [hphase] at hstage
        rcases hstage with ⟨hstate, hcalls⟩
        -- A poller that has not ended: the worker is not drained.
        have hbefore : w.state = .running ∨ w.state = .draining := by
          rcases hstate with hstate | hstate | ⟨_, hended⟩
          · exact .inl hstate
          · exact .inr hstate
          · rw [hended p] at hlive
            cases hlive
        have hkept : Kept cfg { w with live := Function.update w.live p false } := by
          refine ⟨h.moved, ?_⟩
          show Stage cfg _ w.phase
          rw [hphase]
          rcases hbefore with hstate | hstate
          · exact ⟨.inl hstate, hcalls⟩
          · exact ⟨.inr (.inl hstate), hcalls⟩
        refine hkept.drainIfDone hphase ?_
        show Moves w.state .drained
        rcases hbefore with hstate | hstate
        all_goals
          rw [hstate]
          trivial
      · exact h
    · exact h
  | pollerFailed _ e | forceTimeExpired e =>
    simp only [Run.step]
    split
    next hphase =>
      split
      · exact h.fail hphase e
      · exact h
    · exact h
  | heartbeatsFlushed =>
    simp only [Run.step]
    split
    next hphase =>
      split
      next hstate =>
        rcases h.streaming hphase with ⟨hactive, hcalls⟩
        exact kept_endStream h.moved hcalls hactive fun _ => hstate
      · exact h
    · exact h
  | heartbeatsFailed e =>
    simp only [Run.step]
    split
    next hphase => exact h.fail hphase e
    · exact h
  | finalized failure =>
    have hstage := h.stage
    simp only [Run.step]
    split
    next completion hphase =>
      rw [hphase] at hstage
      split
      · exact kept_cleanUp h.moved hstage.1 hstage.2 _
      all_goals exact kept_cleanUp (show (w.report _).Moved from h.moved) hstage.1 hstage.2 _
    · exact h
  | connectionClosed failure =>
    have hstage := h.stage
    simp only [Run.step]
    split
    next completion hphase =>
      rw [hphase] at hstage
      rcases hstage with ⟨hstate, hconn, hf, hc, hd⟩
      have hclosed : w.closeCalls = cfg.internalConnection.toNat := by rw [hc, hconn]; rfl
      split
      · exact kept_destroy h.moved hstate ⟨hf, hclosed, hd⟩ _
      · exact ⟨h.moved, hstate, hf, hclosed, by simp [report, hd]⟩
    · exact h
  | creatorDestroyed =>
    have hstage := h.stage
    simp only [Run.step]
    split
    next completion hphase =>
      rw [hphase] at hstage
      rcases hstage with ⟨hstate, hcreator, hf, hc, hd⟩
      exact ⟨h.moved, hstate, hf, hc, by simp [hd, hcreator]⟩
    · exact h

/-! ## What sound steps keep -/

/-- A completion is an error if one was reported, and the unexpected one if there is one. -/
def Covers (w : Run ε) (completion : Except ε Unit) : Prop :=
  ((∃ e, completion = .error e) ↔ w.reported ≠ []) ∧
    ∀ e, w.unexpectedError = some e → completion = .error e

def Answer (cfg : Config) (w : Run ε) : Phase ε → Prop
  | .notStarted => w.unexpectedError = none ∧ w.fatalError = none ∧ w.reported = []
  | .streaming => w.fatalError = w.unexpectedError ∧ w.reported = w.unexpectedError.toList ∧
      (w.state = .running → w.unexpectedError = none)
  | .finalizing completion => w.Covers completion
  | .closing completion => w.Covers completion
  | .destroying completion => w.Covers completion
  | .settled completion => w.Covers completion ∧ w.destroyCalls = cfg.workflowCreator.toNat

structure Answered (cfg : Config) (w : Run ε) : Prop where
  answer : w.Answer cfg w.phase
  inner : w.state = .running → w.innerSettled = false

theorem answered_init : Answered cfg (init : Run ε) := ⟨⟨rfl, rfl, rfl⟩, nofun⟩

theorem lifecycle_of_kept (h : Kept cfg w) (ha : Answered cfg w) : Lifecycle cfg w where
  moves := h.moved
  once := h.orderly.once
  rejects r hphase := by
    have hanswer := ha.answer
    rw [hphase] at hanswer
    exact hanswer.1.1
  first r e hphase he := by
    have hanswer := ha.answer
    rw [hphase] at hanswer
    exact hanswer.1.2 e he
  cleaned r hphase := by
    have hanswer := ha.answer
    have hstage := h.stage
    rw [hphase] at hanswer hstage
    exact ⟨hstage.2.1, hstage.2.2.1, hanswer.2⟩
  stops hrun := by
    rw [ha.inner hrun.2.1] at hrun
    cases hrun.1

theorem answered_endStream {outcome : Except ε Unit} (hfatal : w.fatalError = w.unexpectedError)
    (hreported : w.reported ≠ [] ↔ (∃ e, outcome = .error e) ∨ w.unexpectedError.isSome = true) :
    Answered cfg (w.endStream outcome) := by
  unfold endStream
  rw [hfatal]
  cases he : w.unexpectedError with
  | some e =>
    have hne : w.reported ≠ [] := hreported.2 (.inr (by rw [he]; rfl))
    refine ⟨⟨iff_of_true ⟨e, rfl⟩ hne, fun e' he' => ?_⟩, nofun⟩
    have : w.unexpectedError = some e' := he'
    rw [he] at this
    cases this
    rfl
  | none =>
    rw [he] at hreported
    have hnone : ∀ e', w.unexpectedError = some e' → outcome = .error e' := by
      intro e' he'
      rw [he] at he'
      cases he'
    cases outcome with
    | error e => exact ⟨⟨iff_of_true ⟨e, rfl⟩ (hreported.2 (.inl ⟨e, rfl⟩)), hnone⟩, nofun⟩
    | ok u =>
      refine ⟨⟨iff_of_false nofun fun hne => ?_, hnone⟩, nofun⟩
      rcases hreported.1 hne with ⟨e, he'⟩ | hsome
      · cases he'
      · cases hsome

theorem answered_fail (hfatal : w.fatalError = w.unexpectedError) (e : ε) : Answered cfg (w.fail e) := by
  have hreport : (w.report e).fatalError = (w.report e).unexpectedError := hfatal
  refine answered_endStream hreport (iff_of_true ?_ (.inl ⟨e, rfl⟩))
  simp [report]

theorem Answered.fail (ha : Answered cfg w) (hphase : w.phase = .streaming) (e : ε) :
    Answered cfg (w.fail e) := by
  have hanswer := ha.answer
  rw [hphase] at hanswer
  exact answered_fail hanswer.1 e

theorem Answered.shutdownIfRunning (h : Kept cfg w) (ha : Answered cfg w) (initiateShutdown : Option ε) :
    Answered cfg (w.shutdownIfRunning initiateShutdown) := by
  unfold Run.shutdownIfRunning
  split
  next hstate =>
    have hphase := h.streaming_of_running hstate
    have hanswer := ha.answer
    rw [hphase] at hanswer
    cases initiateShutdown with
    | none =>
      refine ⟨?_, nofun⟩
      show Answer cfg _ w.phase
      rw [hphase]
      exact ⟨hanswer.1, hanswer.2.1, nofun⟩
    | some e =>
      have hfatal : ({ w.setState .stopping with shutdownRequested := true } : Run ε).fatalError =
          ({ w.setState .stopping with shutdownRequested := true } : Run ε).unexpectedError := hanswer.1
      exact answered_fail hfatal e
  · exact ha

theorem state_shutdownIfRunning_ne (initiateShutdown : Option ε) :
    (w.shutdownIfRunning initiateShutdown).state ≠ .running := by
  unfold Run.shutdownIfRunning
  split
  · cases initiateShutdown with
    | none => nofun
    | some e =>
      intro hstate
      simp only [Run.shutdown, fail, endStream] at hstate
      split at hstate <;> cases hstate
  next hstate => exact hstate

theorem graceful_shutdownIfRunning {initiateShutdown : Option ε}
    (h : w.state = .running → initiateShutdown = none) :
    (w.shutdownIfRunning initiateShutdown).phase = w.phase ∧
      (w.shutdownIfRunning initiateShutdown).fatalError = w.fatalError ∧
      (w.shutdownIfRunning initiateShutdown).unexpectedError = w.unexpectedError ∧
      (w.shutdownIfRunning initiateShutdown).reported = w.reported := by
  unfold Run.shutdownIfRunning
  split
  next hstate =>
    rw [h hstate]
    exact ⟨rfl, rfl, rfl, rfl⟩
  · exact ⟨rfl, rfl, rfl, rfl⟩

theorem Answered.drainIfDone (ha : Answered cfg w) (hphase : w.phase = .streaming) :
    Answered cfg w.drainIfDone := by
  unfold Run.drainIfDone
  split
  · exact ha
  · have hanswer := ha.answer
    rw [hphase] at hanswer
    refine ⟨?_, nofun⟩
    show Answer cfg _ w.phase
    rw [hphase]
    exact ⟨hanswer.1, hanswer.2.1, nofun⟩

variable {completion : Except ε Unit}

theorem answered_destroy (hcovers : w.Covers completion)
    (hinner : w.state = .running → w.innerSettled = false) (hcalls : w.destroyCalls = 0) :
    Answered cfg (w.destroy cfg completion) := by
  unfold Run.destroy
  split
  · exact ⟨hcovers, hinner⟩
  next hcreator => exact ⟨⟨hcovers, by simp [hcalls, hcreator]⟩, hinner⟩

theorem answered_cleanUp (hcovers : w.Covers completion)
    (hinner : w.state = .running → w.innerSettled = false) (hcalls : w.destroyCalls = 0) :
    Answered cfg (w.cleanUp cfg completion) := by
  unfold Run.cleanUp
  split
  · exact ⟨hcovers, hinner⟩
  · exact answered_destroy hcovers hinner hcalls

theorem covers_report {e : ε} (herror : ∃ e', completion = .error e')
    (hfirst : ∀ e', w.unexpectedError = some e' → completion = .error e') :
    (w.report e).Covers completion :=
  ⟨iff_of_true herror (by simp [report]), hfirst⟩

theorem answered_noteError {e : ε} (hphase : w.phase = .streaming) (hfatal : w.fatalError = none)
    (hfirst : w.unexpectedError = some e) (hreported : w.reported = [e]) (hstate : w.state ≠ .running) :
    Answered cfg { w with fatalError := w.fatalError.or (some e) } := by
  refine ⟨?_, fun hrunning => absurd hrunning hstate⟩
  show Answer cfg _ w.phase
  rw [hphase]
  refine ⟨?_, ?_, fun hrunning => absurd hrunning hstate⟩
  · show w.fatalError.or (some e) = w.unexpectedError
    rw [hfatal, hfirst]
    rfl
  · show w.reported = w.unexpectedError.toList
    rw [hreported, hfirst]
    rfl

theorem Answered.unexpectedError (ha : Answered cfg w) {e : ε} {i : Option ε}
    (hsound : Sound cfg w (.unexpectedError e i)) : Answered cfg (w.step cfg (.unexpectedError e i)) := by
  cases hfirst : w.unexpectedError with
  | some e' =>
    simp only [Run.step, hfirst]
    exact ha
  | none =>
    rcases hsound hfirst with ⟨hphase | hphase, hinitiate⟩
    · simp only [Run.step, hfirst, hphase]
      exact ha
    · have hanswer := ha.answer
      rw [hphase, Answer, hfirst] at hanswer
      rcases hanswer with ⟨hfatal, hreported, _⟩
      simp only [Run.step, hfirst, hphase]
      have hreport : ({ w.report e with unexpectedError := some e } : Run ε).state = .running →
          i = none := hinitiate
      rcases graceful_shutdownIfRunning hreport with ⟨hphase', hfatal', hfirst', hreported'⟩
      refine answered_noteError (hphase'.trans hphase) (hfatal'.trans hfatal) hfirst' ?_
        (state_shutdownIfRunning_ne i)
      rw [hreported']
      show w.reported ++ [e] = [e]
      rw [hreported]
      rfl

theorem Answered.step (h : Kept cfg w) (ha : Answered cfg w) {e : Event ε} (hsound : Sound cfg w e) :
    Answered cfg (w.step cfg e) := by
  cases e with
  | runInternal =>
    simp only [Run.step]
    split
    next hstate =>
      have hanswer := ha.answer
      rw [h.notStarted_of_initialized hstate] at hanswer
      rcases hanswer with ⟨hfirst, hfatal, hreported⟩
      have hrunning : Answered cfg { w.setState .running with phase := .streaming, live := cfg.polls } := by
        refine ⟨⟨?_, ?_, fun _ => hfirst⟩, fun _ => hsound hstate⟩
        · exact hfatal.trans hfirst.symm
        · show w.reported = w.unexpectedError.toList
          rw [hreported, hfirst]
          rfl
      exact hrunning.drainIfDone rfl
    · exact ha
  | shutdown i | signal i => exact ha.shutdownIfRunning h i
  | innerSettled i =>
    have hanswer := (ha.shutdownIfRunning h i).answer
    exact ⟨hanswer, fun hstate => absurd hstate (state_shutdownIfRunning_ne i)⟩
  | unexpectedError e i => exact ha.unexpectedError hsound
  | pollerEnded p =>
    simp only [Run.step]
    split
    next hphase =>
      split
      · have hended : Answered cfg { w with live := Function.update w.live p false } :=
          ⟨ha.answer, ha.inner⟩
        exact hended.drainIfDone hphase
      · exact ha
    · exact ha
  | pollerFailed _ e | forceTimeExpired e =>
    simp only [Run.step]
    split
    next hphase =>
      split
      · exact ha.fail hphase e
      · exact ha
    · exact ha
  | heartbeatsFlushed =>
    simp only [Run.step]
    split
    next hphase =>
      split
      · have hanswer := ha.answer
        rw [hphase] at hanswer
        refine answered_endStream hanswer.1 ?_
        rw [hanswer.2.1]
        cases w.unexpectedError <;> simp
      · exact ha
    · exact ha
  | heartbeatsFailed e =>
    simp only [Run.step]
    split
    next hphase => exact ha.fail hphase e
    · exact ha
  | finalized failure =>
    have hanswer := ha.answer
    have hstage := h.stage
    simp only [Run.step]
    split
    next completion hphase =>
      rw [hphase] at hanswer hstage
      have hcalls := hstage.2.2.2
      split
      · exact answered_cleanUp hanswer ha.inner hcalls
      next e =>
        have hcovers : (w.report e).Covers (.error e) :=
          covers_report ⟨e, rfl⟩ fun e' he' => absurd (hanswer.2 e' he') nofun
        exact answered_cleanUp hcovers ha.inner hcalls
      next e e' =>
        have hcovers : (w.report e).Covers (.error e') := covers_report ⟨e', rfl⟩ hanswer.2
        exact answered_cleanUp hcovers ha.inner hcalls
    · exact ha
  | connectionClosed failure =>
    have hanswer := ha.answer
    have hstage := h.stage
    simp only [Run.step]
    split
    next completion hphase =>
      rw [hphase] at hanswer hstage
      have hcalls := hstage.2.2.2.2
      split
      · exact answered_destroy hanswer ha.inner hcalls
      next e =>
        rcases hsound completion hphase with ⟨hcreator, hnone⟩
        refine ⟨⟨covers_report ⟨e, rfl⟩ fun e' he' => ?_, ?_⟩, ha.inner⟩
        · rw [hnone] at he'
          cases he'
        · simp [report, hcalls, hcreator]
    · exact ha
  | creatorDestroyed =>
    have hanswer := ha.answer
    have hstage := h.stage
    simp only [Run.step]
    split
    next completion hphase =>
      rw [hphase] at hanswer hstage
      rcases hstage with ⟨_, hcreator, _, _, hd⟩
      exact ⟨⟨hanswer, by simp [hd, hcreator]⟩, ha.inner⟩
    · exact ha

end Run

open Run

/-- In every run the states move as they should, the native worker is finalized and the connection closed;
in a run of sound steps all promises are kept. -/
theorem lifecycle_throughout (cfg : Config) (es : List (Event ε)) :
    Throughout (step cfg) (Orderly cfg) init es ∧
      (Guarded (step cfg) (Sound cfg) init es → Throughout (step cfg) (Lifecycle cfg) init es) := by
  constructor
  · exact throughout_of_invariant (fun _ e _ h => h.step e) (fun _ h => h.orderly) kept_init
      (guarded_true (step cfg) init es)
  · intro hsound
    have hinit : Kept cfg (init : Run ε) ∧ Answered cfg (init : Run ε) := ⟨kept_init, answered_init⟩
    have hstep : ∀ (w : Run ε) (e : Event ε), Sound cfg w e → Kept cfg w ∧ Answered cfg w →
        Kept cfg (w.step cfg e) ∧ Answered cfg (w.step cfg e) :=
      fun _ e he h => ⟨h.1.step e, h.2.step h.1 he⟩
    exact throughout_of_invariant hstep (fun _ h => lifecycle_of_kept h.1 h.2) hinit hsound

def sampleConfig : Config where
  workflowCreator := true
  activities := false
  nexusServiceHandlers := false
  shutdownForceTime := false
  internalConnection := true

/-- `runUntil` with a promise that settles while the worker runs. -/
def gracefulRun : List (Event Nat) :=
  [.runInternal, .innerSettled none, .pollerEnded .workflow, .heartbeatsFlushed, .finalized none,
    .connectionClosed none, .creatorDestroyed]

theorem lifecycle_gracefulRun :
    (run (step sampleConfig) init gracefulRun).phase = .settled (.ok ()) ∧
      Throughout (step sampleConfig) (Lifecycle sampleConfig) init gracefulRun := by
  have hsound : Guarded (step sampleConfig) (Sound sampleConfig) init gracefulRun :=
    ⟨fun _ => rfl, trivial, trivial, trivial, trivial, trivial, trivial, trivial⟩
  exact ⟨rfl, (lifecycle_throughout sampleConfig gracefulRun).2 hsound⟩

/-- The connection fails to close. -/
def closeFailureRun : List (Event Nat) :=
  [.runInternal, .shutdown none, .pollerEnded .workflow, .heartbeatsFlushed, .finalized none,
    .connectionClosed (some 1)]

/-- A plugin calls `next` after `runUntil`'s promise has settled. -/
def delayedRun : List (Event Nat) := [.innerSettled none, .runInternal]

/-- Core does not accept the shutdown that the unexpected error `1` calls for. -/
def maskedErrorRun : List (Event Nat) :=
  [.runInternal, .unexpectedError 1 (some 2), .finalized none, .connectionClosed none, .creatorDestroyed]

theorem not_lifecycle_runs :
    ¬ Lifecycle sampleConfig (run (step sampleConfig) init closeFailureRun) ∧
      ¬ Lifecycle sampleConfig (run (step sampleConfig) init delayedRun) ∧
      ¬ Lifecycle sampleConfig (run (step sampleConfig) init maskedErrorRun) := by
  refine ⟨fun h => ?_, fun h => ?_, fun h => ?_⟩
  · -- The workflow creator is not destroyed.
    have hcleaned := (h.cleaned (.error 1) rfl).2.2
    exact absurd hcleaned (by decide)
  · exact h.stops ⟨rfl, rfl, rfl⟩
  · -- The run is rejected with the other error.
    have hfirst := h.first (.error 2) 1 rfl rfl
    exact absurd hfirst (by simp)

end WorkerLifecycle
end TemporalSdk.Worker
