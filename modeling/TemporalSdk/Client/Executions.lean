import TemporalSdk.Client.Result
import TemporalSdk.Machine.Run

/-!
# Executions — whose outcome the result of a started workflow is

`execute`, `start`, `signalWithStart` and a `WithStartWorkflowOperation` ask for a run to be started and then,
any time later, for its result.  In between, and between any two requests for pages, other clients start runs
with the same workflow id, and runs close, are retried and continue as new.
-/

namespace TemporalSdk.Client

open Machine

/-! ## The runs of one workflow id -/

structure Execution (P F : Type) where
  context : Option PropagatedSerializationContext
  close : Option (CloseEvent P F)

structure Server (P F : Type) where
  runs : String → Option (Execution P F)
  latest : Option String

namespace Server

variable {P F : Type}

def init : Server P F := ⟨fun _ => none, none⟩

/-- Some client starts a run. -/
def start (server : Server P F) (id : String) (context : Option PropagatedSerializationContext) :
    Server P F :=
  if id = "" ∨ (server.runs id).isSome then server
  else ⟨Function.update server.runs id (some ⟨context, none⟩), some id⟩

/-- An open run closes.  The run that its close event names starts. -/
def close (server : Server P F) (id : String) (ev : CloseEvent P F)
    (context : Option PropagatedSerializationContext) : Server P F :=
  match server.runs id with
  | some ⟨own, none⟩ =>
    match ev.successor with
    | none => { server with runs := Function.update server.runs id (some ⟨own, some ev⟩) }
    | some next =>
      if (server.runs next).isSome then server
      else
        ⟨Function.update (Function.update server.runs id (some ⟨own, some ev⟩)) next
          (some ⟨context, none⟩), some next⟩
  | _ => server

def successor (server : Server P F) (id : String) : Option String :=
  ((server.runs id).bind Execution.close).bind CloseEvent.successor

/-- `other` is `id`, or follows it in its chain. -/
def Chained (server : Server P F) (id other : String) : Prop :=
  Relation.ReflTransGen (fun id next => server.successor id = some next) id other

/-- The run that a request without a token is about. -/
def resolve (server : Server P F) (runId : Option String) : Option String :=
  if runId.getD "" = "" then server.latest else runId

/-- Runs stay, and what a closed run closed with stays. -/
def Grows (server server' : Server P F) : Prop :=
  ∀ id run, server.runs id = some run →
    ∃ close, server'.runs id = some ⟨run.context, close⟩ ∧ ∀ ev, run.close = some ev → close = some ev

theorem Grows.refl (server : Server P F) : server.Grows server :=
  fun _ run hrun => ⟨run.close, hrun, fun _ hev => hev⟩

theorem grows_start (server : Server P F) (id : String) (context : Option PropagatedSerializationContext) :
    server.Grows (server.start id context) := by
  unfold start
  split
  · exact Grows.refl server
  · rename_i hfresh
    intro other run hrun
    have hne : other ≠ id := by
      rintro rfl
      exact hfresh (Or.inr (by rw [hrun]; rfl))
    exact ⟨run.close, by simpa [Function.update_of_ne hne] using hrun, fun _ hev => hev⟩

/-- What `close` does when it does anything. -/
theorem close_cases (server : Server P F) (id : String) (ev : CloseEvent P F)
    (context : Option PropagatedSerializationContext) :
    server.close id ev context = server ∨
      ∃ own, server.runs id = some ⟨own, none⟩ ∧
        ((ev.successor = none ∧ server.close id ev context =
            { server with runs := Function.update server.runs id (some ⟨own, some ev⟩) }) ∨
          ∃ next, ev.successor = some next ∧ server.runs next = none ∧ server.close id ev context =
            ⟨Function.update (Function.update server.runs id (some ⟨own, some ev⟩)) next
              (some ⟨context, none⟩), some next⟩) := by
  unfold close
  split
  · rename_i own hrun
    split
    · rename_i hsucc
      exact Or.inr ⟨own, hrun, Or.inl ⟨hsucc, rfl⟩⟩
    · rename_i next hsucc
      by_cases hnext : (server.runs next).isSome = true
      · left
        simp [hnext]
      · have hnone : server.runs next = none := by simpa using hnext
        refine Or.inr ⟨own, hrun, Or.inr ⟨next, hsucc, hnone, ?_⟩⟩
        simp [hnone]
  · exact Or.inl rfl

theorem grows_update {server : Server P F} {id : String} {own : Option PropagatedSerializationContext}
    (hrun : server.runs id = some ⟨own, none⟩) (ev : CloseEvent P F) (latest : Option String) :
    server.Grows ⟨Function.update server.runs id (some ⟨own, some ev⟩), latest⟩ := by
  intro other run hother
  by_cases hid : other = id
  · subst hid
    rw [hrun] at hother
    cases hother
    exact ⟨some ev, by simp, nofun⟩
  · exact ⟨run.close, by simpa [Function.update_of_ne hid] using hother, fun _ hev => hev⟩

theorem grows_close (server : Server P F) (id : String) (ev : CloseEvent P F)
    (context : Option PropagatedSerializationContext) : server.Grows (server.close id ev context) := by
  rcases close_cases server id ev context with h | ⟨own, hrun, ⟨_, h⟩ | ⟨next, _, hnext, h⟩⟩
  · rw [h]
    exact Grows.refl server
  · rw [h]
    exact grows_update hrun ev server.latest
  · rw [h]
    intro other run hother
    have hne : other ≠ next := by
      rintro rfl
      rw [hnext] at hother
      cases hother
    rcases grows_update hrun ev server.latest other run hother with ⟨close, hclose, hkept⟩
    exact ⟨close, by simpa [Function.update_of_ne hne] using hclose, hkept⟩

variable {server server' : Server P F}

theorem Grows.successor (h : server.Grows server') {id next : String}
    (hnext : server.successor id = some next) : server'.successor id = some next := by
  unfold Server.successor at hnext ⊢
  cases hrun : server.runs id with
  | none => simp [hrun] at hnext
  | some run =>
    rcases h id run hrun with ⟨close, hclose, hkept⟩
    cases hev : run.close with
    | none => simp [hrun, hev] at hnext
    | some ev =>
      rw [hclose, hkept ev hev]
      simpa [hrun, hev] using hnext

theorem Grows.chained (h : server.Grows server') {id other : String}
    (hchain : server.Chained id other) : server'.Chained id other :=
  Relation.ReflTransGen.mono (fun _ _ hnext => h.successor hnext) id other hchain

structure Sound (server : Server P F) : Prop where
  named : ∀ id run, server.runs id = some run → id ≠ ""
  continued : ∀ id next, server.successor id = some next → ∃ run, server.runs next = some run
  latest : ∀ id, server.latest = some id → ∃ run, server.runs id = some run
  started : ∀ id run, server.runs id = some run → server.latest ≠ none

theorem sound_init : (init : Server P F).Sound :=
  ⟨nofun, nofun, nofun, nofun⟩

theorem Grows.found (h : server.Grows server') {id : String}
    (hfound : ∃ run, server.runs id = some run) : ∃ run, server'.runs id = some run := by
  rcases hfound with ⟨run, hrun⟩
  rcases h id run hrun with ⟨close, hclose, _⟩
  exact ⟨_, hclose⟩

/-- Soundness after a change of the server is a matter of the runs and the successors that are new. -/
theorem Sound.grow (h : server.Sound) (hgrows : server.Grows server')
    (hnamed : ∀ id run, server'.runs id = some run → (∃ old, server.runs id = some old) ∨ id ≠ "")
    (hcontinued : ∀ id next, server'.successor id = some next →
      server.successor id = some next ∨ ∃ run, server'.runs next = some run)
    (hlatest : server'.latest = server.latest ∨
      ∃ id run, server'.latest = some id ∧ server'.runs id = some run)
    (hstarted : ∀ id run, server'.runs id = some run → server'.latest ≠ none) : server'.Sound := by
  refine ⟨?_, ?_, ?_, hstarted⟩
  · intro id run hrun
    rcases hnamed id run hrun with ⟨old, hold⟩ | hne
    · exact h.named id old hold
    · exact hne
  · intro id next hnext
    rcases hcontinued id next hnext with hold | hfound
    · exact hgrows.found (h.continued id next hold)
    · exact hfound
  · intro id hid
    rcases hlatest with hsame | ⟨latest, run, heq, hrun⟩
    · rw [hsame] at hid
      exact hgrows.found (h.latest id hid)
    · rw [heq] at hid
      cases hid
      exact ⟨run, hrun⟩

theorem Sound.start {server : Server P F} (h : server.Sound) (id : String)
    (context : Option PropagatedSerializationContext) : (server.start id context).Sound := by
  apply h.grow (grows_start server id context)
  all_goals
    unfold Server.start
    by_cases hfresh : id = "" ∨ (server.runs id).isSome = true
    all_goals simp only [hfresh, if_true, if_false]
  · exact fun _ run hrun => Or.inl ⟨run, hrun⟩
  · intro other run hrun
    by_cases hother : other = id
    · right
      rw [hother]
      exact fun hid => hfresh (Or.inl hid)
    · exact Or.inl ⟨run, by simpa [Function.update_of_ne hother] using hrun⟩
  · exact fun _ _ hnext => Or.inl hnext
  · intro other next hnext
    by_cases hother : other = id
    · simp [successor, hother] at hnext
    · left
      simpa [successor, Function.update_of_ne hother] using hnext
  · exact Or.inl trivial
  · exact Or.inr ⟨id, ⟨context, none⟩, rfl, by simp⟩
  · exact h.started
  · exact fun _ _ _ => nofun

theorem Sound.close {server : Server P F} (h : server.Sound) (id : String) (ev : CloseEvent P F)
    (context : Option PropagatedSerializationContext) : (server.close id ev context).Sound := by
  have hgrows := grows_close server id ev context
  rcases close_cases server id ev context with heq | ⟨own, hrun, ⟨hlast, heq⟩ | ⟨next, hsucc, hnext, heq⟩⟩
  · rw [heq]
    exact h
  · rw [heq] at hgrows ⊢
    apply h.grow hgrows
    · intro other run hother
      by_cases hid : other = id
      · exact Or.inl ⟨_, by rw [hid, hrun]⟩
      · exact Or.inl ⟨run, by simpa [Function.update_of_ne hid] using hother⟩
    · intro other succ hother
      by_cases hid : other = id
      · simp [successor, hid, hlast] at hother
      · left
        simpa [successor, Function.update_of_ne hid] using hother
    · exact Or.inl rfl
    · exact fun _ _ _ => h.started id _ hrun
  · rw [heq] at hgrows ⊢
    have hne : id ≠ next := by
      rintro rfl
      rw [hnext] at hrun
      cases hrun
    apply h.grow hgrows
    · intro other run hother
      by_cases hfresh : other = next
      · right
        rw [hfresh]
        exact successor_ne_empty hsucc
      · by_cases hid : other = id
        · exact Or.inl ⟨_, by rw [hid, hrun]⟩
        · exact Or.inl ⟨run, by simpa [Function.update_of_ne hfresh, Function.update_of_ne hid] using hother⟩
    · intro other succ hother
      by_cases hfresh : other = next
      · simp [successor, hfresh] at hother
      · by_cases hid : other = id
        · right
          have hsame : succ = next := by
            simpa [successor, hid, Function.update_of_ne hne, hsucc, eq_comm] using hother
          exact ⟨⟨context, none⟩, by simp [hsame]⟩
        · left
          simpa [successor, Function.update_of_ne hfresh, Function.update_of_ne hid] using hother
    · exact Or.inr ⟨next, ⟨context, none⟩, rfl, by simp⟩
    · exact fun _ _ _ => nofun

end Server

/-! ## A call and its handle -/

/-- The options of `_createWorkflowHandle` that are about runs. -/
structure WorkflowHandleOptions where
  runId : Option String
  firstExecutionRunId : Option String
  runIdForResult : Option String
  followRuns : Bool
  deriving DecidableEq

namespace Executions

inductive Operation
  | execute
  | start
  | signalWithStart
  -- `_startUpdateWithStart`, whose `onStart` resolves the handle of the operation.
  | withStart
  deriving DecidableEq

/-- A call of the client, with the `followRuns` of its options. -/
structure Call where
  operation : Operation
  followRuns : Option Bool
  deriving DecidableEq

/-- The handle that a call makes when the service has returned a run id; `execute` makes none. -/
def Call.workflowHandle (call : Call) (runId : String) : Option WorkflowHandleOptions :=
  match call.operation with
  | .execute => none
  | .start => some ⟨none, some runId, some runId, call.followRuns.getD true⟩
  | .signalWithStart => some ⟨none, none, some runId, call.followRuns.getD true⟩
  | .withStart => some ⟨none, some runId, none, call.followRuns.getD true⟩

/-- The `runId` and the `followRuns` with which `result` is called: by `execute` itself, or by `result()` of the
handle. -/
def Call.resultArguments (call : Call) (runId : String) : Option String × Bool :=
  match call.workflowHandle runId with
  | none => (none, call.followRuns.getD true)
  | some handle => (handle.runIdForResult, handle.followRuns)

/-- `waiting` has the run that the request in flight is about. -/
inductive Phase (V X : Type)
  | starting
  | looping (loop : Loop) (followRuns : Bool) (waiting : Option String)
  | settled (outcome : Outcome V X)

structure System (P F V X : Type) where
  server : Server P F
  /-- The run id that the service returned for the call. -/
  returned : Option String
  phase : Phase V X

inductive Event (P F : Type)
  | start (id : String) (context : Option PropagatedSerializationContext)
  | close (id : String) (ev : CloseEvent P F) (context : Option PropagatedSerializationContext)
  -- The service has started a run for the call, or returns one that there was.
  | call (id : String)
  | request
  -- A page, with the close event if `closed`.
  | reply (page : Page) (closed : Bool)

section Steps

variable {P F V X : Type} (converter : DataConverter P F V X) (context : SerializationContext)
  (names : List UInt8 → String) (call : Call)

namespace System

def init : System P F V X := ⟨.init, none, .starting⟩

def after (followRuns : Bool) : Turn V X → Phase V X
  | .goOn loop => .looping loop followRuns none
  | .settled outcome => .settled outcome

/-- The run that a request is about when it reaches the service.  A token names its run. -/
def target (s : System P F V X) (req : GetWorkflowExecutionHistoryRequest) : Option String :=
  if req.tokenless then s.server.resolve req.runId else some (names (req.nextPageToken.getD []))

def request (s : System P F V X) : System P F V X :=
  match s.phase with
  | .looping loop followRuns none =>
    match s.target names loop.req with
    | none => { s with phase := .settled .workflowNotFoundError }
    | some id =>
      if (s.server.runs id).isSome then { s with phase := .looping loop followRuns (some id) }
      else { s with phase := .settled .workflowNotFoundError }
  | _ => s

/-- A page without the close event comes with a token for its run, or with none. -/
def reply (s : System P F V X) (page : Page) (closed : Bool) : System P F V X :=
  match s.phase with
  | .looping loop followRuns (some id) =>
    match s.server.runs id, closed with
    | some ⟨propagated, some ev⟩, true =>
      { s with
        phase := after followRuns
          (loop.onResponse converter context followRuns
            (respond propagated loop.req page [.close ev])) }
    | some ⟨propagated, _⟩, false =>
      if page.nextPageToken ≠ [] ∧ names page.nextPageToken ≠ id then s
      else
        { s with
          phase := after followRuns
            (loop.onResponse converter context followRuns (respond propagated loop.req page [])) }
    | _, _ => s
  | _ => s

def step (s : System P F V X) : Event P F → System P F V X
  | .start id context => { s with server := s.server.start id context }
  | .close id ev context => { s with server := s.server.close id ev context }
  | .call id =>
    match s.phase, s.server.runs id with
    | .starting, some _ =>
      { s with
        returned := some id
        phase := .looping (Loop.init context (call.resultArguments id).1) (call.resultArguments id).2
          none }
    | _, _ => s
  | .request => s.request names
  | .reply page closed => s.reply converter context names page closed

/-- The outcome, if there is one, is that of the last run of the chain of the returned run. -/
def Belongs (s : System P F V X) : Prop :=
  ∀ outcome, s.phase = .settled outcome →
    ∃ returned id propagated ev, s.returned = some returned ∧ s.server.Chained returned id ∧
      s.server.runs id = some ⟨propagated, some ev⟩ ∧ ev.successor = none ∧
      outcome = settle converter (contextOfRun context propagated) ev

/-- A request that names neither a run nor, by its token, a page of one reaches the service while the latest
run is in the chain of the returned run. -/
def Reached (s : System P F V X) : Event P F → Prop
  | .request =>
    ∀ loop followRuns, s.phase = .looping loop followRuns none → loop.req.tokenless →
      loop.req.runId = none → ∀ returned latest, s.returned = some returned →
        s.server.latest = some latest → s.server.Chained returned latest
  | _ => True

/-! ## The invariant -/

/-- A run of the chain of the returned run. -/
def OnChain (s : System P F V X) (returned id : String) : Prop :=
  s.server.Chained returned id ∧ ∃ run, s.server.runs id = some run

/-- The loop has the context of the run. -/
def Read (s : System P F V X) (loop : Loop) (id : String) : Prop :=
  ∃ run, s.server.runs id = some run ∧ loop.closeEventContext = contextOfRun context run.context

/-- What the loop and its request in flight are about is in the chain of the returned run. -/
structure Aligned (s : System P F V X) (loop : Loop) (waiting : Option String) (returned : String) : Prop where
  returned_found : ∃ run, s.server.runs returned = some run
  named : ∀ id, loop.req.runId = some id → s.OnChain returned id
  paged : ¬ loop.req.tokenless →
    s.OnChain returned (names (loop.req.nextPageToken.getD [])) ∧
      s.Read context loop (names (loop.req.nextPageToken.getD []))
  waiting_for : ∀ id, waiting = some id →
    s.OnChain returned id ∧ (loop.req.tokenless ∨ s.Read context loop id)

structure Kept (s : System P F V X) : Prop where
  sound : s.server.Sound
  looping : ∀ loop followRuns waiting, s.phase = .looping loop followRuns waiting →
    followRuns = true ∧ ∃ returned, s.returned = some returned ∧ s.Aligned context names loop waiting returned
  settled : s.Belongs converter context

variable {converter context names call}

variable {s : System P F V X} {server : Server P F}

theorem OnChain.grow {returned id : String}
    (h : s.OnChain returned id) (hgrows : s.server.Grows server) :
    ({ s with server := server } : System P F V X).OnChain returned id :=
  ⟨hgrows.chained h.1, hgrows.found h.2⟩

variable {loop : Loop}

theorem Read.grow {id : String} (h : s.Read context loop id) (hgrows : s.server.Grows server) :
    ({ s with server := server } : System P F V X).Read context loop id := by
  rcases h with ⟨run, hrun, hcontext⟩
  rcases hgrows id run hrun with ⟨close, hclose, _⟩
  exact ⟨⟨run.context, close⟩, hclose, hcontext⟩

theorem context_of_read {id : String}
    {propagated : Option PropagatedSerializationContext} {close : Option (CloseEvent P F)}
    (h : loop.req.tokenless ∨ s.Read context loop id) (hrun : s.server.runs id = some ⟨propagated, close⟩) :
    loop.req.tokenless ∨ loop.closeEventContext = contextOfRun context propagated := by
  rcases h with htoken | ⟨run, hread, hcontext⟩
  · exact Or.inl htoken
  · rw [hrun] at hread
    cases hread
    exact Or.inr hcontext

/-- Nothing that the other clients do and nothing that happens to the runs takes the call off its chain. -/
theorem Kept.grow (h : s.Kept converter context names)
    (hgrows : s.server.Grows server) (hsound : server.Sound) :
    ({ s with server := server } : System P F V X).Kept converter context names := by
  refine ⟨hsound, ?_, ?_⟩
  · intro loop followRuns waiting hphase
    rcases h.looping loop followRuns waiting hphase with ⟨hfollow, returned, hreturned, haligned⟩
    refine ⟨hfollow, returned, hreturned, hgrows.found haligned.returned_found, ?_, ?_, ?_⟩
    · exact fun id hid => (haligned.named id hid).grow hgrows
    · intro htoken
      rcases haligned.paged htoken with ⟨hchain, hread⟩
      exact ⟨hchain.grow hgrows, hread.grow hgrows⟩
    · intro id hid
      rcases haligned.waiting_for id hid with ⟨hchain, htoken | hread⟩
      · exact ⟨hchain.grow hgrows, Or.inl htoken⟩
      · exact ⟨hchain.grow hgrows, Or.inr (hread.grow hgrows)⟩
  · intro outcome hphase
    rcases h.settled outcome hphase with ⟨returned, id, propagated, ev, hreturned, hchain, hrun, hlast, hout⟩
    rcases hgrows id _ hrun with ⟨close, hclose, hkept⟩
    have hev : close = some ev := hkept ev rfl
    rw [hev] at hclose
    exact ⟨returned, id, propagated, ev, hreturned, hgrows.chained hchain, hclose, hlast, hout⟩

variable {followRuns : Bool}

/-- The run that a request is about is in the chain, given that the latest run is when nothing names one. -/
theorem Kept.target (h : s.Kept converter context names) (hreached : s.Reached .request)
    (hphase : s.phase = .looping loop followRuns none) {returned : String}
    (hreturned : s.returned = some returned) (haligned : s.Aligned context names loop none returned) :
    ∃ id, s.target names loop.req = some id ∧ s.OnChain returned id ∧
      (loop.req.tokenless ∨ s.Read context loop id) := by
  by_cases htoken : loop.req.tokenless
  · simp only [System.target, htoken, if_true]
    cases hrunId : loop.req.runId with
    | none =>
      rcases haligned.returned_found with ⟨run, hrun⟩
      obtain ⟨latest, hlatest⟩ : ∃ latest, s.server.latest = some latest := by
        cases hlatest : s.server.latest with
        | none => exact absurd hlatest (h.sound.started returned run hrun)
        | some latest => exact ⟨latest, rfl⟩
      refine ⟨latest, by simp [Server.resolve, hlatest], ⟨?_, h.sound.latest latest hlatest⟩, Or.inl trivial⟩
      exact hreached loop followRuns hphase htoken hrunId returned latest hreturned hlatest
    | some id =>
      have hchain := haligned.named id hrunId
      rcases hchain.2 with ⟨run, hrun⟩
      refine ⟨id, ?_, hchain, Or.inl trivial⟩
      simp [Server.resolve, h.sound.named id run hrun]
  · rcases haligned.paged htoken with ⟨hchain, hread⟩
    exact ⟨_, by simp [System.target, htoken], hchain, Or.inr hread⟩

theorem Kept.request (h : s.Kept converter context names)
    (hreached : s.Reached .request) : (s.request names).Kept converter context names := by
  unfold System.request
  split
  · rename_i loop followRuns hphase
    rcases h.looping loop followRuns none hphase with ⟨hfollow, returned, hreturned, haligned⟩
    rcases h.target hreached hphase hreturned haligned with ⟨id, htarget, hchain, hread⟩
    rcases hchain.2 with ⟨run, hrun⟩
    simp only [htarget, hrun, Option.isSome_some, if_true]
    refine ⟨h.sound, ?_, nofun⟩
    intro loop' followRuns' waiting hphase'
    cases hphase'
    refine ⟨hfollow, returned, hreturned, haligned.returned_found, haligned.named, haligned.paged, ?_⟩
    intro other hother
    cases hother
    exact ⟨hchain, hread⟩
  · exact h

/-- Where the loop stands after a page of a run in the chain. -/
theorem Kept.reply (h : s.Kept converter context names) (page : Page) (closed : Bool) :
    (s.reply converter context names page closed).Kept converter context names := by
  unfold System.reply
  split
  · rename_i loop followRuns id hphase
    rcases h.looping loop followRuns (some id) hphase with ⟨rfl, returned, hreturned, haligned⟩
    rcases haligned.waiting_for id rfl with ⟨hchain, hread⟩
    split
    · rename_i propagated ev hrun
      rw [onResponse_close propagated loop page ev (context_of_read hread hrun)]
      cases hsucc : ev.successor with
      | none =>
        rw [onCloseEvent_of_last hsucc]
        refine ⟨h.sound, nofun, ?_⟩
        intro outcome hout
        cases hout
        exact ⟨returned, id, propagated, ev, hreturned, hchain.1, hrun, hsucc, rfl⟩
      | some next =>
        have hnext : s.server.successor id = some next := by simp [Server.successor, hrun, hsucc]
        rw [onCloseEvent_of_successor hsucc]
        refine ⟨h.sound, ?_, nofun⟩
        intro loop' followRuns' waiting hphase'
        cases hphase'
        refine ⟨rfl, returned, hreturned, haligned.returned_found, ?_, fun htoken => absurd rfl htoken, nofun⟩
        intro other hother
        cases hother
        exact ⟨hchain.1.tail hnext, h.sound.continued id next hnext⟩
    · rename_i propagated close hrun
      split
      · exact h
      · rename_i hnames
        rw [onResponse_empty propagated loop page (context_of_read hread hrun)]
        refine ⟨h.sound, ?_, nofun⟩
        intro loop' followRuns' waiting hphase'
        cases hphase'
        refine ⟨rfl, returned, hreturned, haligned.returned_found, haligned.named, ?_, nofun⟩
        intro htoken
        have hpage : page.nextPageToken ≠ [] := htoken
        have hid : names page.nextPageToken = id := by
          by_contra hne
          exact hnames ⟨hpage, hne⟩
        simp only [Option.getD_some, hid]
        exact ⟨hchain, ⟨propagated, close⟩, hrun, rfl⟩
    · exact h
  · exact h

theorem Kept.step (hfollow : call.followRuns.getD true = true) (e : Event P F)
    (hreached : s.Reached e) (h : s.Kept converter context names) :
    (s.step converter context names call e).Kept converter context names := by
  cases e with
  | start id propagated =>
    exact h.grow (Server.grows_start s.server id propagated) (h.sound.start id propagated)
  | close id ev propagated =>
    exact h.grow (Server.grows_close s.server id ev propagated) (h.sound.close id ev propagated)
  | call id =>
    unfold System.step
    simp only
    split
    · rename_i run hphase hrun
      refine ⟨h.sound, ?_, nofun⟩
      intro loop followRuns waiting hlooping
      cases hlooping
      have hargs : (call.resultArguments id).2 = true ∧
          ((call.resultArguments id).1 = none ∨ (call.resultArguments id).1 = some id) := by
        cases hop : call.operation <;> simp [Call.resultArguments, Call.workflowHandle, hop, hfollow]
      refine ⟨hargs.1, id, rfl, ⟨run, hrun⟩, ?_, fun htoken => absurd rfl htoken, nofun⟩
      intro other hother
      have hsome : (call.resultArguments id).1 = some other := hother
      rcases hargs.2 with hnone | hid
      · rw [hnone] at hsome
        cases hsome
      · rw [hid] at hsome
        cases hsome
        exact ⟨Relation.ReflTransGen.refl, run, hrun⟩
    · exact h
  | request => exact h.request hreached
  | reply page closed => exact h.reply page closed

theorem kept_init : (init : System P F V X).Kept converter context names :=
  ⟨Server.sound_init, nofun, nofun⟩

/-! ## Calls that name their run -/

/-- All requests of the loop name a run. -/
def Pinned (s : System P F V X) : Prop :=
  ∀ loop followRuns waiting, s.phase = .looping loop followRuns waiting → loop.req.runId ≠ none

theorem Pinned.reached (h : s.Pinned) (e : Event P F) : s.Reached e := by
  cases e with
  | request =>
    intro loop followRuns hphase _ hnone
    exact absurd hnone (h loop followRuns none hphase)
  | start | close | call | reply => trivial

theorem runId_onCloseEvent {loop next : Loop} {ev : CloseEvent P F}
    (h : loop.onCloseEvent converter followRuns ev = .goOn next) : next.req.runId ≠ none := by
  cases ev <;> simp only [Loop.onCloseEvent] at h <;> grind [Loop.follow]

theorem pinned_after {ev : CloseEvent P F} {loop' : Loop}
    {followRuns' : Bool} {waiting : Option String}
    (h : after followRuns (loop.onCloseEvent converter followRuns ev) = .looping loop' followRuns' waiting) :
    loop'.req.runId ≠ none := by
  cases hturn : loop.onCloseEvent converter followRuns ev with
  | goOn next =>
    rw [hturn] at h
    cases h
    exact runId_onCloseEvent hturn
  | settled outcome =>
    rw [hturn] at h
    cases h

theorem Pinned.step (h : s.Pinned)
    (hcall : call.operation = .start ∨ call.operation = .signalWithStart) (e : Event P F) :
    (s.step converter context names call e).Pinned := by
  cases e with
  | start | close => exact h
  | call id =>
    unfold System.step
    simp only
    split
    · intro loop followRuns waiting hphase
      cases hphase
      rcases hcall with hop | hop <;> simp [Loop.init, Call.resultArguments, Call.workflowHandle, hop]
    · exact h
  | request =>
    show (s.request names).Pinned
    unfold System.request
    split
    · rename_i loop followRuns hlooping
      split
      · exact nofun
      · split
        · intro loop' followRuns' waiting hphase
          cases hphase
          exact h loop _ none hlooping
        · exact nofun
    · exact h
  | reply page closed =>
    show (s.reply converter context names page closed).Pinned
    unfold System.reply
    split
    · rename_i loop followRuns id hlooping
      have hpinned := h loop followRuns (some id) hlooping
      split
      · intro loop' followRuns' waiting hphase
        exact pinned_after hphase
      · split
        · exact h
        · intro loop' followRuns' waiting hphase
          cases hphase
          exact hpinned
      · exact h
    · exact h

/-- The result of `start` and of `signalWithStart` belongs to the run that they return, whatever happens.  That
of `execute` and of a `WithStartWorkflowOperation` does when each of their requests that names no run reaches
the service while the latest run is in the chain of that run. -/
theorem result_belongs_to_returned_run (converter : DataConverter P F V X) (context : SerializationContext)
    (names : List UInt8 → String) (call : Call) (hfollow : call.followRuns.getD true = true)
    (es : List (Event P F))
    (h : call.operation = .start ∨ call.operation = .signalWithStart ∨
      Guarded (step converter context names call) Reached init es) :
    Throughout (step converter context names call) (Belongs converter context) init es := by
  rw [← or_assoc] at h
  rcases h with hcall | hreached
  · have hstep : ∀ (s : System P F V X) e, True → s.Kept converter context names ∧ s.Pinned →
        (s.step converter context names call e).Kept converter context names ∧
          (s.step converter context names call e).Pinned :=
      fun s e _ hs => ⟨hs.1.step hfollow e (hs.2.reached e), hs.2.step hcall e⟩
    exact throughout_of_invariant hstep (fun s hs => hs.1.settled) ⟨kept_init, nofun⟩ (guarded_true _ _ _)
  · have hstep : ∀ (s : System P F V X) e, s.Reached e → s.Kept converter context names →
        (s.step converter context names call e).Kept converter context names :=
      fun s e he hs => hs.step hfollow e he
    exact throughout_of_invariant hstep (fun s hs => hs.settled) kept_init hreached

end System

end Steps

/-! ## Runs in which other clients use the workflow id -/

/-- The run fails and is retried, the retry completes, and another client starts a run. -/
def retriedRun : List (Event String String) :=
  [.start "a" none, .call "a", .close "a" (.failed "b" none 1) none, .request, .reply ⟨[1], false⟩ false,
    .close "b" (.completed "" (some ["mine"])) none, .start "c" none, .request, .reply ⟨[], false⟩ true]

theorem execute_belongs_to_retriedRun :
    Throughout (System.step tellingConverter (.workflow "default" "wf") (fun _ => "b") ⟨.execute, none⟩)
      (System.Belongs tellingConverter (.workflow "default" "wf")) System.init retriedRun := by
  refine System.result_belongs_to_returned_run _ _ _ _ rfl _ (Or.inr (Or.inr ?_))
  refine ⟨trivial, trivial, trivial, ?_, trivial, trivial, trivial, ?_, trivial, trivial⟩
  · intro loop followRuns _ _ _ returned latest hreturned hlatest
    cases hreturned
    cases hlatest
    exact Relation.ReflTransGen.single rfl
  · intro loop followRuns hphase htoken
    cases hphase
    exact absurd htoken (by decide)

/-- The run completes, and another client starts a run before the result is asked for. -/
def overtakenRun : List (Event String String) :=
  [.start "a" none, .call "a", .close "a" (.completed "" (some ["mine"])) none, .start "b" none, .request,
    .close "b" (.completed "" (some ["other"])) none, .reply ⟨[], false⟩ true]

theorem not_belongs_of_overtaken {s : System String String (String × SerializationContext) String}
    (hphase : s.phase = .settled (.returned (some ("other", .workflow "default" "wf"))))
    (hreturned : s.returned = some "a")
    (hrun : s.server.runs "a" = some ⟨none, some (.completed "" (some ["mine"]))⟩) :
    ¬ s.Belongs tellingConverter (.workflow "default" "wf") := by
  intro h
  rcases h _ hphase with ⟨returned, id, propagated, ev, hret, hchain, hid, _, hout⟩
  rw [hreturned] at hret
  cases hret
  have hlast : s.server.successor "a" = none := by simp [Server.successor, hrun, CloseEvent.successor]
  rcases Relation.ReflTransGen.cases_head hchain with rfl | ⟨next, hnext, _⟩
  · rw [hrun] at hid
    cases hid
    revert hout
    decide
  · rw [hlast] at hnext
    cases hnext

theorem not_belongs_to_returned_run :
    ¬ Throughout (System.step tellingConverter (.workflow "default" "wf") (fun _ => "b") ⟨.execute, none⟩)
        (System.Belongs tellingConverter (.workflow "default" "wf")) System.init overtakenRun ∧
      ¬ Throughout (System.step tellingConverter (.workflow "default" "wf") (fun _ => "b") ⟨.withStart, none⟩)
        (System.Belongs tellingConverter (.workflow "default" "wf")) System.init overtakenRun := by
  constructor
  all_goals
    rintro ⟨-, -, -, -, -, -, -, h⟩
    exact not_belongs_of_overtaken rfl rfl rfl h

end Executions

end TemporalSdk.Client
