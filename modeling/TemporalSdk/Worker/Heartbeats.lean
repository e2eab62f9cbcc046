import TemporalSdk.Machine.History
import TemporalSdk.Machine.Run

/-!
# Heartbeats — the heartbeat stream of one activity

`activityHeartbeat$` groups its inputs by task token and runs each group through a state machine: a heartbeat is
sent when none is being sent, the newest of the others is kept as pending, and the completion of the
activity is held back until what has to be flushed has been.

The model is that machine, the operators around it (`closeableGroupBy`, `mapWithState`, `takeWhile`, `mergeMap`)
for one task token, and what `activityOperator` feeds into it: one `create` before the activity runs, one
`completion` when it is resolved.  The activity may heartbeat from then on at any time, also when it is
resolved.  `D` is the type of what a heartbeat carries.
-/

namespace TemporalSdk.Worker
namespace Heartbeats

open Machine

/-- The callback of a completion: `resolve` of the promise that `activityOperator` awaits, or
`() => undefined`. -/
inductive Callback
  | resolve
  | noop
  deriving DecidableEq

inductive Input (H : Type)
  | create
  | heartbeat (h : H)
  | flush
  | completion (flushRequired : Bool) (callback : Callback)

inductive Output (H : Type)
  | send (heartbeat : H)
  | close (completionCallback : Option Callback)

structure HeartbeatState (H : Type) where
  closed : Bool
  processing : Bool
  completionCallback : Option Callback
  pending : Option H

section Mapper

variable {H : Type}

def process (state : HeartbeatState H) (heartbeat : H) : HeartbeatState H × Option (Output H) :=
  ({ state with processing := true, pending := none }, some (.send heartbeat))

def storePending (state : HeartbeatState H) (heartbeat : H) :
    HeartbeatState H × Option (Output H) :=
  ({ state with pending := some heartbeat }, none)

def complete (callback : Callback) : HeartbeatState H × Option (Output H) :=
  (⟨true, false, none, none⟩, some (.close (some callback)))

/-- The function given to `mapWithState`. -/
def mapInput (state : HeartbeatState H) : Input H → HeartbeatState H × Option (Output H)
  | .create => (⟨false, false, none, none⟩, none)
  | .heartbeat h =>
    if state.closed then (state, some (.close none))
    else if state.processing then storePending state h
    else process state h
  | .flush =>
    if state.closed then (state, some (.close none))
    else
      match state.pending, state.completionCallback with
      | some h, _ => process state h
      | none, some callback => complete callback
      | none, none => ({ state with processing := false }, none)
  | .completion flushRequired callback =>
    if state.closed then (state, some (.close none))
    else if state.processing then
      ({ state with
        pending := if flushRequired then state.pending else none
        completionCallback := some callback }, none)
    else if !flushRequired then complete callback
    else
      match state.pending with
      | some h => process { state with completionCallback := some callback } h
      | none => complete callback

end Mapper

/-- A group of `closeableGroupBy`. -/
structure Group (H : Type) where
  state : HeartbeatState H
  -- `takeWhile` has not completed.
  subscribed : Bool
  -- The functions that `mergeMap` runs, before and after their `finally`.
  sending : Nat
  finishing : Nat

/-- The state that a group starts in: closed, until a `create` comes. -/
def Group.initial (H : Type) : Group H := ⟨⟨true, false, none, none⟩, true, 0, 0⟩

/-- How far `activityOperator` is with the activity. -/
inductive Phase
  | started
  | running
  | resolved
  deriving DecidableEq

/-- What happened, for stating properties only.  Heartbeats are numbered as they are received. -/
inductive Entry (D : Type)
  | received (n : Nat) (details : D)
  | sent (n : Nat) (details : D)
  | flushed
  | completing (flushRequired : Bool)
  | calledBack (callback : Callback)
  deriving DecidableEq

structure State (D : Type) where
  phase : Phase
  group : Option (Group (Nat × D))
  numHeartbeatingActivities : Int
  received : Nat
  history : List (Entry D)

namespace State

variable {D : Type}

def init : State D := ⟨.started, none, 0, 0, []⟩

def log (s : State D) (e : Entry D) : State D := { s with history := s.history ++ [e] }

/-- `mergeMap` completes with the last of its functions, and `tap` closes the group. -/
def setGroup (s : State D) (g : Group (Nat × D)) : State D :=
  if !g.subscribed ∧ g.sending = 0 ∧ g.finishing = 0 then { s with group := none }
  else { s with group := some g }

/-- What comes out of the state mapper. -/
def emit (s : State D) (g : Group (Nat × D)) : Option (Output (Nat × D)) → State D
  | none => s.setGroup g
  | some (.send h) => (s.setGroup { g with sending := g.sending + 1 }).log (.sent h.1 h.2)
  | some (.close callback) =>
    let s := { s with numHeartbeatingActivities := s.numHeartbeatingActivities - 1 }
    let s := match callback with
      | some callback => s.log (.calledBack callback)
      | none => s
    s.setGroup { g with subscribed := false }

/-- `activityHeartbeatSubject.next`. -/
def next (s : State D) (input : Input (Nat × D)) : State D :=
  let g := s.group.getD (Group.initial _)
  if g.subscribed then
    let s := match input with
      | .create => { s with numHeartbeatingActivities := s.numHeartbeatingActivities + 1 }
      | _ => s
    let (state, output) := mapInput g.state input
    s.emit { g with state := state } output
  else s

end State

inductive Event (D : Type)
  -- `activityOperator` runs the activity.
  | run
  -- `Context.heartbeat`.
  | heartbeat (details : D)
  -- The activity failed, or did not.
  | resolve (failed : Bool)
  -- A function of `mergeMap` comes to its `finally`, and returns.
  | flush
  | settle

section Step

variable {D : Type}

def callbackOf (flushRequired : Bool) : Callback := if flushRequired then .resolve else .noop

/-- Nothing happens where the event is not possible. -/
def step (s : State D) : Event D → State D
  | .run =>
    if s.phase = .started then { s with phase := .running }.next .create else s
  | .heartbeat details =>
    if s.phase = .started then s
    else
      ({ s with received := s.received + 1 }.log (.received s.received details)).next
        (.heartbeat (s.received, details))
  | .resolve failed =>
    if s.phase = .running then
      ({ s with phase := .resolved }.log (.completing failed)).next
        (.completion failed (callbackOf failed))
    else s
  | .flush =>
    match s.group with
    | none => s
    | some g =>
      if g.sending = 0 then s
      else
        ({ s with
          group := some { g with sending := g.sending - 1, finishing := g.finishing + 1 } }.log
            .flushed).next .flush
  | .settle =>
    match s.group with
    | none => s
    | some g =>
      if g.finishing = 0 then s else s.setGroup { g with finishing := g.finishing - 1 }

end Step

end Heartbeats
end TemporalSdk.Worker
