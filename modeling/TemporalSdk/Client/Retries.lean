import TemporalSdk.Machine.Run

/-!
# Retries of gRPC calls

`makeGrpcRetryInterceptor` of `packages/client/src/grpc-retry.ts` under `generateRPCImplementation` and
`withAbortSignal` of `connection.ts`.  An underlying call of grpc-js delivers one message, which may be
null, and then one status; the status of a cancelled one is `CANCELLED`.
-/

namespace TemporalSdk.Client
namespace Retries

open Machine

/-! ## Options -/

structure StatusObject where
  code : Nat
  details : String
  deriving DecidableEq

/-- `grpc.status` -/
inductive Code where
  | CANCELLED
  | UNKNOWN
  | RESOURCE_EXHAUSTED
  | ABORTED
  | OUT_OF_RANGE
  | INTERNAL
  | UNAVAILABLE
  | DATA_LOSS
  deriving DecidableEq

def Code.number : Code → Nat
  | CANCELLED => 1
  | UNKNOWN => 2
  | RESOURCE_EXHAUSTED => 8
  | ABORTED => 10
  | OUT_OF_RANGE => 11
  | INTERNAL => 13
  | UNAVAILABLE => 14
  | DATA_LOSS => 15

structure GrpcRetryOptions where
  delayFunction : Nat → StatusObject → Nat
  retryableDecider : Nat → StatusObject → Bool

def retryableCodes : List Nat :=
  [Code.UNKNOWN, .RESOURCE_EXHAUSTED, .UNAVAILABLE, .ABORTED, .DATA_LOSS, .OUT_OF_RANGE].map Code.number

/-- A test with the flag `i` for one of several texts. -/
def mentions (texts : List String) (details : String) : Bool :=
  texts.any fun text => (details.toList.map Char.toLower).tails.any fun rest =>
    (text.toList.map Char.toLower).isPrefixOf rest

def isRetryableError (status : StatusObject) : Bool :=
  if status.code = Code.INTERNAL.number then
    if mentions ["RST_STREAM with code 0", "Call ended without gRPC status"] status.details then true
    else if mentions ["RST_STREAM with code 2"] status.details then
      -- TLS errors come with this text
      !mentions ["SSL alert number"] status.details
    else false
  else retryableCodes.contains status.code

/-- The decider of `defaultGrpcRetryOptions`. -/
def defaultDecider (maxAttempts attempt : Nat) (status : StatusObject) : Bool :=
  attempt < maxAttempts && isRetryableError status

/-! ## Call contexts -/

structure CallContext where
  deadline : Option Nat
  /-- which signal it is -/
  abortSignal : Option Nat
  metadata : List (String × String)
  deriving DecidableEq

inductive Scope where
  | withDeadline (deadline : Nat)
  | withAbortSignal (abortSignal : Nat)
  | withMetadata (metadata : List (String × String))
  deriving DecidableEq

def enter (cc : CallContext) : Scope → CallContext
  | .withDeadline deadline => { cc with deadline := some deadline }
  | .withAbortSignal abortSignal => { cc with abortSignal := some abortSignal }
  | .withMetadata metadata => { cc with metadata := cc.metadata ++ metadata }

/-- The context of a call in nested scopes, the outermost one first. -/
def callContext (scopes : List Scope) : CallContext := scopes.foldl enter ⟨none, none, []⟩

/-- The entries that are set on the metadata of a call, in their order. -/
def metadataContainer (apiKey : Option String) (staticMetadata : List (String × String)) (cc : CallContext) :
    List (String × String) :=
  (match apiKey with
    | some apiKey => if apiKey = "" then [] else [("Authorization", "Bearer " ++ apiKey)]
    | none => []) ++ staticMetadata ++ cc.metadata

/-! ## A service call -/

variable {R M : Type}

/-- A service call: its request, the context and the options it is made with. -/
structure ServiceCall (R : Type) where
  requestData : R
  context : CallContext
  apiKey : Option String
  staticMetadata : List (String × String)
  options : GrpcRetryOptions

/-- A call that grpc-js makes for one attempt; no message event and no status yet are `none`. -/
structure UnderlyingCall (R M : Type) where
  metadata : List (String × String)
  request : Option R
  message : Option (Option M)
  status : Option StatusObject
  cancelled : Bool
  /-- whether the signal of the service call was aborted when this call was started -/
  afterAbort : Bool

structure State (R M : Type) where
  /-- the signals that are aborted -/
  aborted : List Nat
  calls : List (UnderlyingCall R M)
  /-- the delays of the timeouts that have not fired -/
  timeouts : List Nat
  attempt : Nat
  savedSendMessage : Option R
  savedReceiveMessage : Option (Option M)
  /-- what the caller's listener gets -/
  messages : List (Option (Option M))
  statuses : List StatusObject

inductive Event (M : Type) where
  | abort (signal : Nat)
  | request
  | message (call : Nat) (message : Option M)
  | status (call : Nat) (status : StatusObject)
  | timeout (index : Nat)

def State.init : State R M := ⟨[], [], [], 0, none, none, [], []⟩

section Steps

variable (service : ServiceCall R)

def ServiceCall.metadata : List (String × String) :=
  metadataContainer service.apiKey service.staticMetadata service.context

namespace State

def signalAborted (s : State R M) : Bool :=
  match service.context.abortSignal with
  | none => false
  | some signal => s.aborted.contains signal

/-- `nextCall(options)` with `start` and `sendMessage`. -/
def startCall (s : State R M) : State R M :=
  { s with calls := s.calls ++ [{
      metadata := service.metadata
      request := s.savedSendMessage
      message := none
      status := none
      cancelled := false
      afterAbort := s.signalAborted service }] }

/-- The listener of the signal cancels the call that `makeUnaryRequest` made, which is the first one; a
call that has its status is not affected. -/
def cancelFirst (s : State R M) : State R M :=
  match s.calls with
  | [] => s
  | call :: calls => if call.status.isSome then s else { s with calls := { call with cancelled := true } :: calls }

def onReceiveMessage (s : State R M) (index : Nat) (call : UnderlyingCall R M) (message : Option M) : State R M :=
  { s with
    calls := s.calls.set index { call with message := some message }
    savedReceiveMessage := some message }

def onReceiveStatus (s : State R M) (index : Nat) (call : UnderlyingCall R M) (status : StatusObject) : State R M :=
  let s := { s with calls := s.calls.set index { call with status := some status } }
  if service.options.retryableDecider s.attempt status then
    { s with timeouts := s.timeouts ++ [service.options.delayFunction s.attempt status] }
  else
    { s with messages := s.messages ++ [s.savedReceiveMessage], statuses := s.statuses ++ [status] }

/-- The function given to `setTimeout`. -/
def retry (s : State R M) : State R M :=
  { s with attempt := s.attempt + 1 }.startCall service

end State

/-- Whether grpc-js can give the call the status. -/
def canEnd (call : UnderlyingCall R M) (status : StatusObject) : Bool :=
  call.message.isSome && call.status.isNone && (!call.cancelled || status.code == Code.CANCELLED.number)

/-- An event that cannot happen changes nothing. -/
def step (s : State R M) : Event M → State R M
  | .abort signal =>
    if s.aborted.contains signal then s
    else
      let s := { s with aborted := signal :: s.aborted }
      -- a listener that is added to an aborted signal is never called
      if service.context.abortSignal = some signal then s.cancelFirst else s
  | .request =>
    if s.calls.isEmpty then
      { s with attempt := 1, savedSendMessage := some service.requestData }.startCall service
    else s
  | .message index message =>
    match s.calls[index]? with
    | none => s
    | some call =>
      if call.message.isNone && call.status.isNone then s.onReceiveMessage index call message else s
  | .status index status =>
    match s.calls[index]? with
    | none => s
    | some call => if canEnd call status then s.onReceiveStatus service index call status else s
  | .timeout index =>
    if index < s.timeouts.length then
      { s with timeouts := s.timeouts.eraseIdx index }.retry service
    else s

end Steps

/-! ## What is promised -/

section Promises

variable (service : ServiceCall R)

/-- The attempt with this number has ended, and the decider accepted its status. -/
def Accepted (number : Nat) (call : UnderlyingCall R M) : Prop :=
  ∃ status, call.status = some status ∧ service.options.retryableDecider number status = true

/-- The caller has the message and the status of the last attempt, and nothing else. -/
def Answered (s : State R M) : Prop :=
  ∃ call message status, s.calls.getLast? = some call ∧ call.message = some message ∧ call.status = some status ∧
    s.messages = [some message] ∧ s.statuses = [status] ∧ s.timeouts = []

structure AttemptsCorrect (s : State R M) : Prop where
  /-- all attempts send the same -/
  same : ∀ call ∈ s.calls, call.request = some service.requestData ∧ call.metadata = service.metadata
  /-- one after another -/
  accepted : ∀ i call, s.calls[i]? = some call → i + 1 < s.calls.length → Accepted service (i + 1) call
  answered : s.messages = [] ∧ s.statuses = [] ∨ Answered s
  /-- a call that is not answered waits for its last attempt or for one delay -/
  goesOn : s.calls = [] ∨ Answered s ∨ (∃ call, s.calls.getLast? = some call ∧ call.status = none) ∨
    s.timeouts.length = 1

structure AbortObeyed (s : State R M) : Prop where
  not_started : ∀ call ∈ s.calls, call.afterAbort = false
  /-- an aborted service call has ended, or its last attempt is cancelled and there is no delay -/
  ends : s.signalAborted service = true → s.calls = [] ∨ s.statuses ≠ [] ∨
    ∃ call, s.calls.getLast? = some call ∧ call.status = none ∧ call.cancelled = true

/-- The signal is aborted only before the service call, which is then not made, after it, or during its first
attempt, the cancelled status of which is not retried. -/
def Timely (s : State R M) : Event M → Prop
  | .abort signal => service.context.abortSignal = some signal → signal ∉ s.aborted →
      s.calls = [] ∨ s.statuses ≠ [] ∨ ∃ call, s.calls = [call] ∧ call.status = none
  | .request => s.calls = [] → s.signalAborted service = false
  | .status index status => ∀ call, s.calls = [call] → index = 0 → call.cancelled = true → canEnd call status = true →
      service.options.retryableDecider s.attempt status = false
  | _ => True

end Promises

/-! ## The invariant -/

section Invariant

variable (service : ServiceCall R)

/-- How far the service call is with its last attempt. -/
inductive Stage (s : State R M) (number : Nat) (call : UnderlyingCall R M) : Prop where
  | running (hstatus : call.status = none) (hsaved : ∀ message, call.message = some message →
      s.savedReceiveMessage = some message) (htimeouts : s.timeouts = []) (hmessages : s.messages = [])
      (hstatuses : s.statuses = [])
  | delaying (haccepted : Accepted service number call) (htimeouts : s.timeouts.length = 1)
      (hmessages : s.messages = []) (hstatuses : s.statuses = [])
  | answered (message : Option M) (status : StatusObject) (hmessage : call.message = some message)
      (hstatus : call.status = some status) (htimeouts : s.timeouts = []) (hmessages : s.messages = [some message])
      (hstatuses : s.statuses = [status])

/-- The service call has made attempts, `call` being the last one of them. -/
structure Active (s : State R M) (before : List (UnderlyingCall R M)) (call : UnderlyingCall R M) : Prop where
  calls : s.calls = before ++ [call]
  attempt : s.attempt = before.length + 1
  saved : s.savedSendMessage = some service.requestData
  accepted : ∀ i call, before[i]? = some call → Accepted service (i + 1) call
  cancelled : call.cancelled = true → before = [] ∧ s.signalAborted service = true
  same : ∀ call ∈ s.calls, call.request = some service.requestData ∧ call.metadata = service.metadata
  stage : Stage service s (before.length + 1) call

structure Idle (s : State R M) : Prop where
  calls : s.calls = []
  timeouts : s.timeouts = []
  messages : s.messages = []
  statuses : s.statuses = []

def Sound (s : State R M) : Prop := Idle s ∨ ∃ before call, Active service s before call

end Invariant

variable {service : ServiceCall R} {s : State R M} {before : List (UnderlyingCall R M)} {call : UnderlyingCall R M}

namespace Active

theorem index_eq (h : Active service s before call) {index : Nat} {other : UnderlyingCall R M}
    (hother : s.calls[index]? = some other) (hstatus : other.status = none) :
    index = before.length ∧ other = call := by
  rw [h.calls] at hother
  rcases Nat.lt_trichotomy index before.length with hlt | rfl | hgt
  · rw [List.getElem?_append_left hlt] at hother
    rcases h.accepted index other hother with ⟨status, hsome, -⟩
    rw [hstatus] at hsome
    cases hsome
  · rw [List.getElem?_concat_length] at hother
    exact ⟨rfl, (Option.some.inj hother).symm⟩
  · rw [List.getElem?_eq_none (by simp; omega)] at hother
    cases hother

theorem getLast? (h : Active service s before call) : s.calls.getLast? = some call := by
  rw [h.calls, List.getLast?_concat]

theorem ne_nil (h : Active service s before call) : s.calls ≠ [] := by
  rw [h.calls]
  exact List.concat_ne_nil call before

end Active

theorem Stage.aborted {number : Nat} (h : Stage service s number call) (aborted : List Nat) :
    Stage service { s with aborted } number call := by
  cases h with
  | running hstatus hsaved htimeouts hmessages hstatuses => exact .running hstatus hsaved htimeouts hmessages hstatuses
  | delaying haccepted htimeouts hmessages hstatuses => exact .delaying haccepted htimeouts hmessages hstatuses
  | answered message status hmessage hstatus htimeouts hmessages hstatuses =>
    exact .answered message status hmessage hstatus htimeouts hmessages hstatuses

theorem signalAborted_cons (signal : Nat) (h : s.signalAborted service = true) :
    ({ s with aborted := signal :: s.aborted } : State R M).signalAborted service = true := by
  unfold State.signalAborted at h ⊢
  cases hsignal : service.context.abortSignal with
  | none => rw [hsignal] at h; cases h
  | some own =>
    rw [hsignal] at h
    simp only [List.contains_cons, Bool.or_eq_true]
    exact .inr h

variable {signal : Nat}

theorem signalAborted_self (h : service.context.abortSignal = some signal) :
    ({ s with aborted := signal :: s.aborted } : State R M).signalAborted service = true := by
  simp [State.signalAborted, h]

theorem cancelFirst_nil (hcalls : s.calls = []) : s.cancelFirst = s := by
  unfold State.cancelFirst
  split
  · rfl
  · next heq =>
      rw [hcalls] at heq
      cases heq

theorem cancelFirst_statuses (s : State R M) : s.cancelFirst.statuses = s.statuses := by
  unfold State.cancelFirst
  split
  · rfl
  · split <;> rfl

theorem cancelFirst_ended {first : UnderlyingCall R M} {rest : List (UnderlyingCall R M)}
    (hcalls : s.calls = first :: rest) (hstatus : first.status ≠ none) : s.cancelFirst = s := by
  unfold State.cancelFirst
  split
  · rfl
  · next heq =>
      rw [hcalls] at heq
      cases heq
      rw [if_pos (Option.isSome_iff_ne_none.2 hstatus)]

theorem cancelFirst_running {first : UnderlyingCall R M} {rest : List (UnderlyingCall R M)}
    (hcalls : s.calls = first :: rest) (hstatus : first.status = none) :
    s.cancelFirst = { s with calls := { first with cancelled := true } :: rest } := by
  unfold State.cancelFirst
  split
  · next heq =>
      rw [hcalls] at heq
      cases heq
  · next heq =>
      rw [hcalls] at heq
      cases heq
      simp [hstatus]

/-- An aborted signal cancels the first attempt, or none. -/
theorem Active.abort (h : Active service s before call) (signal : Nat) :
    Active service { s with aborted := signal :: s.aborted } before call ∧
      (service.context.abortSignal = some signal →
        ∃ call', Active service ({ s with aborted := signal :: s.aborted } : State R M).cancelFirst before call' ∧
          (call' = call ∨ before = [] ∧ call.status = none ∧ call' = { call with cancelled := true })) := by
  have hactive : Active service { s with aborted := signal :: s.aborted } before call :=
    { h with
      cancelled := fun hcancelled => ⟨(h.cancelled hcancelled).1, signalAborted_cons signal (h.cancelled hcancelled).2⟩
      stage := h.stage.aborted _ }
  refine ⟨hactive, fun hsignal => ?_⟩
  cases before with
  | cons first rest =>
    -- the first attempt has ended
    rcases h.accepted 0 first rfl with ⟨status, hstatus, -⟩
    have hended : first.status ≠ none := by
      rw [hstatus]
      exact Option.some_ne_none status
    refine ⟨call, ?_, .inl rfl⟩
    rw [cancelFirst_ended hactive.calls hended]
    exact hactive
  | nil =>
    by_cases hstatus : call.status = none
    · refine ⟨{ call with cancelled := true }, ?_, .inr ⟨rfl, hstatus, rfl⟩⟩
      rw [cancelFirst_running hactive.calls hstatus]
      refine ⟨rfl, h.attempt, h.saved, h.accepted, fun _ => ⟨rfl, signalAborted_self hsignal⟩, ?_, ?_⟩
      · intro other hother
        rw [List.mem_singleton.1 hother]
        exact h.same call (by rw [h.calls]; exact List.mem_singleton_self call)
      · cases h.stage with
        | running _ hsaved htimeouts hmessages hstatuses =>
          exact .running hstatus hsaved htimeouts hmessages hstatuses
        | delaying haccepted =>
          rcases haccepted with ⟨status, hsome, -⟩
          rw [hstatus] at hsome
          cases hsome
        | answered _ _ _ hsome =>
          rw [hstatus] at hsome
          cases hsome
    · refine ⟨call, ?_, .inl rfl⟩
      rw [cancelFirst_ended hactive.calls hstatus]
      exact hactive

theorem active_startCall (hsaved : s.savedSendMessage = some service.requestData)
    (hattempt : s.attempt = s.calls.length + 1) (htimeouts : s.timeouts = []) (hmessages : s.messages = [])
    (hstatuses : s.statuses = [])
    (haccepted : ∀ i call, s.calls[i]? = some call → Accepted service (i + 1) call)
    (hsame : ∀ call ∈ s.calls, call.request = some service.requestData ∧ call.metadata = service.metadata) :
    ∃ call, Active service (s.startCall service) s.calls call ∧ call.status = none ∧
      call.afterAbort = s.signalAborted service := by
  refine ⟨_, ⟨rfl, hattempt, hsaved, haccepted, nofun, ?_, ?_⟩, rfl, rfl⟩
  · intro call hcall
    rcases List.mem_append.1 hcall with hcall | hcall
    · exact hsame call hcall
    · rw [List.mem_singleton.1 hcall]
      exact ⟨hsaved, rfl⟩
  · exact .running rfl nofun htimeouts hmessages hstatuses

theorem Active.set (h : Active service s before call) (call' : UnderlyingCall R M) :
    s.calls.set before.length call' = before ++ [call'] := by
  rw [h.calls]
  simp

theorem Active.same_set (h : Active service s before call) {call' : UnderlyingCall R M}
    (hrequest : call'.request = call.request) (hmetadata : call'.metadata = call.metadata) :
    ∀ other ∈ before ++ [call'], other.request = some service.requestData ∧ other.metadata = service.metadata := by
  intro other hother
  have hsame := h.same
  rw [h.calls] at hsame
  rcases List.mem_append.1 hother with hother | hother
  · exact hsame other (List.mem_append_left _ hother)
  · rw [List.mem_singleton.1 hother, hrequest, hmetadata]
    exact hsame call (List.mem_append_right _ (List.mem_singleton_self call))

theorem Active.onReceiveMessage (h : Active service s before call) (hstatus : call.status = none)
    (message : Option M) : Active service (s.onReceiveMessage before.length call message) before
      { call with message := some message } := by
  refine ⟨h.set _, h.attempt, h.saved, h.accepted, h.cancelled, ?_, ?_⟩
  · simp only [State.onReceiveMessage, h.set]
    exact h.same_set rfl rfl
  · cases h.stage with
    | running _ _ htimeouts hmessages hstatuses =>
      refine .running hstatus ?_ htimeouts hmessages hstatuses
      rintro _ ⟨⟩
      rfl
    | delaying haccepted =>
      rcases haccepted with ⟨status, hsome, -⟩
      rw [hstatus] at hsome
      cases hsome
    | answered _ _ _ hsome =>
      rw [hstatus] at hsome
      cases hsome

variable {status : StatusObject}

theorem Active.onReceiveStatus (h : Active service s before call)
    (hcan : canEnd call status = true) :
    Active service (s.onReceiveStatus service before.length call status) before
        { call with status := some status } ∧
      (s.onReceiveStatus service before.length call status).statuses =
        if service.options.retryableDecider s.attempt status then [] else [status] := by
  simp only [canEnd, Bool.and_eq_true, Option.isNone_iff_eq_none] at hcan
  rcases hcan with ⟨⟨hmessage, hstatus⟩, -⟩
  rcases Option.isSome_iff_exists.1 hmessage with ⟨message, hmessage⟩
  cases h.stage with
  | delaying haccepted =>
    rcases haccepted with ⟨other, hsome, -⟩
    rw [hstatus] at hsome
    cases hsome
  | answered _ _ _ hsome =>
    rw [hstatus] at hsome
    cases hsome
  | running _ hsaved htimeouts hmessages hstatuses =>
    rw [State.onReceiveStatus]
    cases hdecider : service.options.retryableDecider s.attempt status with
    | true =>
      simp only [if_true]
      refine ⟨⟨h.set _, h.attempt, h.saved, h.accepted, h.cancelled, ?_, ?_⟩, hstatuses⟩
      · simp only [h.set]
        exact h.same_set rfl rfl
      · refine .delaying ⟨status, rfl, ?_⟩ (by simp [htimeouts]) hmessages hstatuses
        rwa [← h.attempt]
    | false =>
      simp only [Bool.false_eq_true, if_false]
      refine ⟨⟨h.set _, h.attempt, h.saved, h.accepted, h.cancelled, ?_, ?_⟩, by simp [hstatuses]⟩
      · simp only [h.set]
        exact h.same_set rfl rfl
      · exact .answered message status hmessage rfl htimeouts (by simp [hmessages, hsaved message hmessage])
          (by simp [hstatuses])

/-- A timeout fires only in a delay, and starts the next attempt. -/
theorem Active.retry (h : Active service s before call) {index : Nat} (hindex : index < s.timeouts.length) :
    ∃ call', Active service (({ s with timeouts := s.timeouts.eraseIdx index } : State R M).retry service)
        (before ++ [call]) call' ∧ call'.status = none ∧ call'.afterAbort = s.signalAborted service ∧
      s.statuses = [] ∧ call.status ≠ none := by
  cases h.stage with
  | running _ _ htimeouts | answered _ _ _ _ htimeouts =>
    rw [htimeouts] at hindex
    cases hindex
  | delaying haccepted htimeouts hmessages hstatuses =>
    have herased : s.timeouts.eraseIdx index = [] := by
      rw [← List.length_eq_zero_iff, List.length_eraseIdx_of_lt hindex, htimeouts]
    have hended : call.status ≠ none := by
      rcases haccepted with ⟨status, hsome, -⟩
      rw [hsome]
      exact Option.some_ne_none status
    have hstart := active_startCall
      (s := ({ s with timeouts := s.timeouts.eraseIdx index, attempt := s.attempt + 1 } : State R M))
      h.saved (by simp [h.attempt, h.calls]) herased hmessages hstatuses ?_ h.same
    · rcases hstart with ⟨call', hactive, hnone, habort⟩
      refine ⟨call', ?_, hnone, habort, hstatuses, hended⟩
      rw [← h.calls]
      exact hactive
    · intro i other hother
      simp only [h.calls] at hother
      rcases Nat.lt_trichotomy i before.length with hlt | rfl | hgt
      · rw [List.getElem?_append_left hlt] at hother
        exact h.accepted i other hother
      · rw [List.getElem?_concat_length] at hother
        rw [← Option.some.inj hother]
        exact haccepted
      · rw [List.getElem?_eq_none (by simp; omega)] at hother
        cases hother

/-! ## Runs -/

theorem Idle.request (service : ServiceCall R) (h : Idle s) : ∃ call,
    Active service (step service s .request) [] call ∧ call.status = none ∧
      call.afterAbort = s.signalAborted service := by
  have hstart := active_startCall
    (s := ({ s with attempt := 1, savedSendMessage := some service.requestData } : State R M))
    (rfl : _ = some service.requestData) (by simp [h.calls]) h.timeouts h.messages h.statuses (by simp [h.calls])
    (by simp [h.calls])
  rcases hstart with ⟨call, hactive, hstatus, habort⟩
  refine ⟨call, ?_, hstatus, habort⟩
  simp only [step, h.calls, List.isEmpty_nil, if_true]
  simpa only [h.calls] using hactive

theorem Idle.abort (service : ServiceCall R) (h : Idle s) (signal : Nat) : Idle (step service s (.abort signal)) := by
  have hidle : Idle ({ s with aborted := signal :: s.aborted } : State R M) :=
    { h with }
  rw [step]
  split
  · exact h
  · split
    · simp only [cancelFirst_nil hidle.calls]
      exact hidle
    · exact hidle

theorem sound_step (h : Sound service s) (e : Event M) : Sound service (step service s e) := by
  rcases h with h | ⟨before, call, h⟩
  · -- before the service call only a signal can be aborted, or the call be made
    cases e with
    | abort signal => exact .inl (h.abort service signal)
    | request =>
      rcases h.request service with ⟨call, hcall, -⟩
      exact .inr ⟨[], call, hcall⟩
    | message | status => exact .inl (by simpa [step, h.calls] using h)
    | timeout index => exact .inl (by simpa [step, h.timeouts] using h)
  · right
    cases e with
    | abort signal =>
      rw [step]
      split
      · exact ⟨before, call, h⟩
      · rcases h.abort signal with ⟨hactive, hcancel⟩
        split
        · next hsignal =>
            rcases hcancel hsignal with ⟨call', hcall', -⟩
            exact ⟨before, call', hcall'⟩
        · exact ⟨before, call, hactive⟩
    | request =>
      have hcalls : s.calls.isEmpty = false := by simp [h.calls]
      rw [step, hcalls]
      exact ⟨before, call, h⟩
    | message index message =>
      rw [step]
      split
      · exact ⟨before, call, h⟩
      · next other hother =>
          split
          · next hopen =>
              simp only [Bool.and_eq_true, Option.isNone_iff_eq_none] at hopen
              rcases h.index_eq hother hopen.2 with ⟨rfl, rfl⟩
              exact ⟨before, _, h.onReceiveMessage hopen.2 message⟩
          · exact ⟨before, call, h⟩
    | status index status =>
      rw [step]
      split
      · exact ⟨before, call, h⟩
      · next other hother =>
          split
          · next hcan =>
              have hopen : other.status = none := by
                simp only [canEnd, Bool.and_eq_true, Option.isNone_iff_eq_none] at hcan
                exact hcan.1.2
              rcases h.index_eq hother hopen with ⟨rfl, rfl⟩
              exact ⟨before, _, (h.onReceiveStatus hcan).1⟩
          · exact ⟨before, call, h⟩
    | timeout index =>
      rw [step]
      split
      · next hindex =>
          rcases h.retry hindex with ⟨call', hcall', -⟩
          exact ⟨before ++ [call], call', hcall'⟩
      · exact ⟨before, call, h⟩

theorem Sound.init : Sound service (State.init : State R M) := .inl ⟨rfl, rfl, rfl, rfl⟩

theorem Sound.attemptsCorrect (h : Sound service s) : AttemptsCorrect service s := by
  rcases h with h | ⟨before, call, h⟩
  · refine ⟨?_, ?_, .inl ⟨h.messages, h.statuses⟩, .inl h.calls⟩
    all_goals simp [h.calls]
  · have haccepted : ∀ i other, s.calls[i]? = some other → i + 1 < s.calls.length →
        Accepted service (i + 1) other := by
      intro i other hother hlt
      rw [h.calls] at hother hlt
      rw [List.length_append, List.length_singleton] at hlt
      rw [List.getElem?_append_left (by omega)] at hother
      exact h.accepted i other hother
    cases h.stage with
    | running hstatus _ _ hmessages hstatuses =>
      exact ⟨h.same, haccepted, .inl ⟨hmessages, hstatuses⟩, .inr (.inr (.inl ⟨call, h.getLast?, hstatus⟩))⟩
    | delaying _ htimeouts hmessages hstatuses =>
      exact ⟨h.same, haccepted, .inl ⟨hmessages, hstatuses⟩, .inr (.inr (.inr htimeouts))⟩
    | answered message status hmessage hstatus htimeouts hmessages hstatuses =>
      have hanswered : Answered s :=
        ⟨call, message, status, h.getLast?, hmessage, hstatus, hmessages, hstatuses, htimeouts⟩
      exact ⟨h.same, haccepted, .inr hanswered, .inr (.inl hanswered)⟩

/-! ## Aborted signals -/

theorem not_started_set (h : Active service s before call) (hobeyed : ∀ call ∈ s.calls, call.afterAbort = false)
    {s' : State R M} {call' : UnderlyingCall R M} (hcalls : s'.calls = before ++ [call'])
    (hsame : call'.afterAbort = call.afterAbort) : ∀ call ∈ s'.calls, call.afterAbort = false := by
  intro other hother
  rw [h.calls] at hobeyed
  rw [hcalls] at hother
  rcases List.mem_append.1 hother with hother | hother
  · exact hobeyed other (List.mem_append_left _ hother)
  · rw [List.mem_singleton.1 hother, hsame]
    exact hobeyed call (List.mem_append_right _ (List.mem_singleton_self call))

theorem signalAborted_of_cons (hother : service.context.abortSignal ≠ some signal)
    (h : ({ s with aborted := signal :: s.aborted } : State R M).signalAborted service = true) :
    s.signalAborted service = true := by
  unfold State.signalAborted at h ⊢
  cases hsignal : service.context.abortSignal with
  | none =>
    rw [hsignal] at h
    cases h
  | some own =>
    rw [hsignal] at h hother
    simp only [List.contains_cons, Bool.or_eq_true, beq_iff_eq] at h
    rcases h with rfl | h
    · exact absurd rfl hother
    · exact h

theorem Idle.abortObeyed_step (h : Idle s) (hobeyed : AbortObeyed service s) {e : Event M}
    (htimely : Timely service s e) : AbortObeyed service (step service s e) := by
  cases e with
  | abort signal =>
    have hcalls := (h.abort service signal).calls
    exact ⟨by simp [hcalls], fun _ => .inl hcalls⟩
  | request =>
    rcases h.request service with ⟨call, hactive, hstatus, habort⟩
    have hnot : s.signalAborted service = false := htimely h.calls
    have hsignal : (step service s .request).signalAborted service = false := by
      simp only [step, h.calls, List.isEmpty_nil, if_true]
      exact hnot
    refine ⟨fun other hother => ?_, fun haborted => ?_⟩
    · rw [hactive.calls, List.nil_append] at hother
      rw [List.mem_singleton.1 hother, habort, hnot]
    · rw [hsignal] at haborted
      cases haborted
  | message | status => simpa [step, h.calls] using hobeyed
  | timeout index => simpa [step, h.timeouts] using hobeyed

namespace Active

theorem abortObeyed_abort (h : Active service s before call) (hobeyed : AbortObeyed service s)
    (htimely : Timely service s (.abort signal)) : AbortObeyed service (step service s (.abort signal)) := by
  rw [step]
  split
  · exact hobeyed
  · next hfresh =>
      rcases h.abort signal with ⟨hactive, hcancel⟩
      split
      · next hsignal =>
          rcases hcancel hsignal with ⟨call', hcall', hsame⟩
          have hafter : call'.afterAbort = call.afterAbort := by
            rcases hsame with rfl | ⟨-, -, rfl⟩
            · rfl
            · rfl
          refine ⟨not_started_set h hobeyed.not_started hcall'.calls hafter, fun _ => ?_⟩
          rcases htimely hsignal (by simpa using hfresh) with hnil | hended | ⟨first, hfirst, hrunning⟩
          · exact absurd hnil h.ne_nil
          · exact .inr (.inl (by rwa [cancelFirst_statuses]))
          · -- the first attempt is in progress, and cancelled now
            rw [h.calls] at hfirst
            have hbefore : before = [] := by
              have hlength := congrArg List.length hfirst
              simp only [List.length_append, List.length_singleton] at hlength
              exact List.length_eq_zero_iff.1 (by omega)
            subst hbefore
            cases hfirst
            have hcalls := hcall'.calls
            rw [cancelFirst_running hactive.calls hrunning] at hcalls
            have hcancelled : call'.cancelled = true :=
              (congrArg UnderlyingCall.cancelled (List.singleton_inj.1 hcalls)).symm
            have hstatus : call'.status = none := by
              rw [← List.singleton_inj.1 hcalls]
              exact hrunning
            exact .inr (.inr ⟨call', hcall'.getLast?, hstatus, hcancelled⟩)
      · next hother =>
          exact ⟨hobeyed.not_started, fun haborted => hobeyed.ends (signalAborted_of_cons hother haborted)⟩

theorem abortObeyed_message (h : Active service s before call) (hobeyed : AbortObeyed service s) (index : Nat)
    (message : Option M) : AbortObeyed service (step service s (.message index message)) := by
  rw [step]
  split
  · exact hobeyed
  · next other hother =>
      split
      · next hopen =>
          simp only [Bool.and_eq_true, Option.isNone_iff_eq_none] at hopen
          rcases h.index_eq hother hopen.2 with ⟨rfl, rfl⟩
          have hnext := h.onReceiveMessage hopen.2 message
          refine ⟨not_started_set h hobeyed.not_started hnext.calls rfl, fun haborted => ?_⟩
          rcases hobeyed.ends haborted with hnil | hended | ⟨last, hlast, hrunning, hcancelled⟩
          · exact absurd hnil h.ne_nil
          · exact .inr (.inl hended)
          · rw [h.getLast?] at hlast
            cases hlast
            exact .inr (.inr ⟨_, hnext.getLast?, hrunning, hcancelled⟩)
      · exact hobeyed

theorem statuses_of_running (h : Active service s before call) (hrunning : call.status = none) : s.statuses = [] := by
  cases h.stage with
  | running _ _ _ _ hnone | delaying _ _ _ hnone => exact hnone
  | answered _ _ _ hsome =>
    rw [hrunning] at hsome
    cases hsome

theorem abortObeyed_status (h : Active service s before call) (hobeyed : AbortObeyed service s) {index : Nat}
    (htimely : Timely service s (.status index status)) :
    AbortObeyed service (step service s (.status index status)) := by
  rw [step]
  split
  · exact hobeyed
  · next other hother =>
      split
      · next hcan =>
          have hopen : other.status = none := by
            simp only [canEnd, Bool.and_eq_true, Option.isNone_iff_eq_none] at hcan
            exact hcan.1.2
          rcases h.index_eq hother hopen with ⟨rfl, rfl⟩
          rcases h.onReceiveStatus hcan with ⟨hnext, hstatuses⟩
          have hframe : (s.onReceiveStatus service before.length other status).signalAborted service =
              s.signalAborted service := by
            rw [State.onReceiveStatus]
            split <;> rfl
          refine ⟨not_started_set h hobeyed.not_started hnext.calls rfl, fun haborted => ?_⟩
          rw [hframe] at haborted
          rcases hobeyed.ends haborted with hnil | hended | ⟨last, hlast, -, hcancelled⟩
          · exact absurd hnil h.ne_nil
          · exact absurd (h.statuses_of_running hopen) hended
          · rw [h.getLast?] at hlast
            cases hlast
            rcases h.cancelled hcancelled with ⟨rfl, -⟩
            have hrejected := htimely other h.calls rfl hcancelled hcan
            refine .inr (.inl ?_)
            rw [hstatuses, hrejected]
            exact List.cons_ne_nil status []
      · exact hobeyed

theorem abortObeyed_timeout (h : Active service s before call) (hobeyed : AbortObeyed service s) (index : Nat) :
    AbortObeyed service (step service s (.timeout index)) := by
  rw [step]
  split
  · next hindex =>
      rcases h.retry hindex with ⟨call', hnext, -, habort, hstatuses, hended⟩
      have hnot : s.signalAborted service = false := by
        cases haborted : s.signalAborted service with
        | false => rfl
        | true =>
          rcases hobeyed.ends haborted with hnil | hanswered | ⟨last, hlast, hrunning, -⟩
          · exact absurd hnil h.ne_nil
          · exact absurd hstatuses hanswered
          · rw [h.getLast?] at hlast
            cases hlast
            exact absurd hrunning hended
      refine ⟨fun other hother => ?_, fun haborted => absurd (hnot.symm.trans haborted) Bool.false_ne_true⟩
      rw [hnext.calls, ← h.calls] at hother
      rcases List.mem_append.1 hother with hother | hother
      · exact hobeyed.not_started other hother
      · rw [List.mem_singleton.1 hother, habort, hnot]
  · exact hobeyed

end Active

theorem abortObeyed_step (h : Sound service s) (hobeyed : AbortObeyed service s) {e : Event M}
    (htimely : Timely service s e) : AbortObeyed service (step service s e) := by
  rcases h with h | ⟨before, call, h⟩
  · exact h.abortObeyed_step hobeyed htimely
  · cases e with
    | abort signal => exact h.abortObeyed_abort hobeyed htimely
    | message index message => exact h.abortObeyed_message hobeyed index message
    | status index status => exact h.abortObeyed_status hobeyed htimely
    | timeout index => exact h.abortObeyed_timeout hobeyed index
    | request =>
      have hcalls : s.calls.isEmpty = false := by simp [h.calls]
      rw [step, hcalls]
      exact hobeyed

namespace Active

theorem timely_abort (h : Active service s before call)
    (hobeyed : AbortObeyed service (step service s (.abort signal))) : Timely service s (.abort signal) := by
  intro hsignal hfresh
  rcases h.abort signal with ⟨hactive, hcancel⟩
  rcases hcancel hsignal with ⟨call', hcall', hsame⟩
  have hstep : step service s (.abort signal) =
      ({ s with aborted := signal :: s.aborted } : State R M).cancelFirst := by
    rw [step, if_neg (by simpa using hfresh)]
    simp only [hsignal, if_true]
  rw [hstep] at hobeyed
  have haborted : ({ s with aborted := signal :: s.aborted } : State R M).cancelFirst.signalAborted service = true := by
    have hframe : ∀ s : State R M, s.cancelFirst.signalAborted service = s.signalAborted service := by
      intro s
      unfold State.cancelFirst
      split
      · rfl
      · split <;> rfl
    rw [hframe]
    exact signalAborted_self hsignal
  rcases hobeyed.ends haborted with hnil | hended | ⟨last, hlast, hrunning, hcancelled⟩
  · exact absurd hnil hcall'.ne_nil
  · exact .inr (.inl (by rwa [cancelFirst_statuses] at hended))
  · rw [hcall'.getLast?] at hlast
    cases hlast
    have hbefore := (hcall'.cancelled hcancelled).1
    refine .inr (.inr ⟨call, by rw [h.calls, hbefore, List.nil_append], ?_⟩)
    rcases hsame with rfl | ⟨-, hstatus, -⟩
    · exact hrunning
    · exact hstatus

theorem timely_status (h : Active service s before call) {index : Nat}
    (hobeyed : AbortObeyed service (step service s (.status index status))) :
    Timely service s (.status index status) := by
  intro first hfirst hindex hcancelled hcan
  have hbefore : before = [] ∧ call = first := by
    have hcalls := h.calls.symm.trans hfirst
    have hlength := congrArg List.length hcalls
    simp only [List.length_append, List.length_singleton] at hlength
    have hnil : before = [] := List.length_eq_zero_iff.1 (by omega)
    rw [hnil] at hcalls
    exact ⟨hnil, List.singleton_inj.1 hcalls⟩
  rcases hbefore with ⟨rfl, rfl⟩
  rcases h.onReceiveStatus hcan with ⟨hnext, hstatuses⟩
  cases hdecider : service.options.retryableDecider s.attempt status with
  | false => rfl
  | true =>
    have hstep : step service s (.status index status) = s.onReceiveStatus service 0 call status := by
      rw [step, hindex]
      simp only [hfirst, List.getElem?_cons_zero, hcan, if_true]
    rw [hstep] at hobeyed
    have haborted : (s.onReceiveStatus service 0 call status).signalAborted service = true := by
      have hframe : (s.onReceiveStatus service 0 call status).signalAborted service = s.signalAborted service := by
        rw [State.onReceiveStatus]
        split <;> rfl
      rw [hframe]
      exact (h.cancelled hcancelled).2
    rw [hdecider] at hstatuses
    rcases hobeyed.ends haborted with hnil | hended | ⟨last, hlast, hrunning, -⟩
    · exact absurd hnil hnext.ne_nil
    · exact absurd hstatuses hended
    · have hlast' := hnext.getLast?
      rw [List.length_nil, hlast] at hlast'
      rw [Option.some.inj hlast'] at hrunning
      cases hrunning

end Active

/-- A step after which the service call still obeys the signal was timely. -/
theorem timely_of_abortObeyed (h : Sound service s) {e : Event M} (hobeyed : AbortObeyed service (step service s e)) :
    Timely service s e := by
  rcases h with h | ⟨before, call, h⟩
  · cases e with
    | abort signal => exact fun _ _ => .inl h.calls
    | request =>
      intro _
      rcases h.request service with ⟨call, hactive, -, habort⟩
      rw [← habort]
      exact hobeyed.not_started call (by rw [hactive.calls]; exact List.mem_singleton_self call)
    | status index status =>
      intro call hcall
      rw [h.calls] at hcall
      cases hcall
    | message | timeout => trivial
  · cases e with
    | abort signal => exact h.timely_abort hobeyed
    | request => exact fun hnil => absurd hnil h.ne_nil
    | status index status => exact h.timely_status hobeyed
    | message | timeout => trivial

/-! ## Service calls -/

theorem attemptsCorrect_throughout (service : ServiceCall R) (events : List (Event M)) :
    Throughout (step service) (AttemptsCorrect service) (State.init : State R M) events :=
  throughout_of_invariant (fun _ e _ h => sound_step h e) (fun _ h => h.attemptsCorrect) Sound.init
    (guarded_true (step service) State.init events)

/-- In every run of a service call its attempts are correct, and it obeys its signal throughout exactly
when every step is timely. -/
theorem serviceCall_correct_iff (service : ServiceCall R) (events : List (Event M)) :
    Throughout (step service) (AttemptsCorrect service) (State.init : State R M) events ∧
      (Throughout (step service) (fun s => AttemptsCorrect service s ∧ AbortObeyed service s)
          (State.init : State R M) events ↔
        Guarded (step service) (Timely service) (State.init : State R M) events) := by
  refine ⟨attemptsCorrect_throughout service events, fun h => ?_, fun h => ?_⟩
  · exact guarded_of_throughout (fun _ e hsound => sound_step hsound e)
      (fun _ _ hsound hstep => timely_of_abortObeyed hsound hstep.2) Sound.init h
  · have hinit : Sound service (State.init : State R M) ∧ AbortObeyed service (State.init : State R M) :=
      ⟨Sound.init, List.forall_mem_nil _, fun _ => .inl rfl⟩
    have hstep : ∀ (s : State R M) e, Timely service s e → Sound service s ∧ AbortObeyed service s →
        Sound service (step service s e) ∧ AbortObeyed service (step service s e) :=
      fun _ e htimely hs => ⟨sound_step hs.1 e, abortObeyed_step hs.1 hs.2 htimely⟩
    exact throughout_of_invariant hstep (fun _ hs => ⟨hs.1.attemptsCorrect, hs.2⟩) hinit h

section Runs

def retriedCall : ServiceCall String where
  requestData := "request"
  context := callContext [.withAbortSignal 1, .withMetadata [("a", "bc")], .withAbortSignal 2]
  apiKey := none
  staticMetadata := []
  options := ⟨fun _ _ => 100, defaultDecider 10⟩

def unavailable : StatusObject := ⟨Code.UNAVAILABLE.number, "unavailable"⟩

/-- A signal aborted before the call, one aborted in a delay and one aborted in the second attempt. -/
theorem serviceCall_not_correct :
    ¬ Throughout (step retriedCall) (AbortObeyed retriedCall) (State.init : State String String)
      [.abort 2, .request] ∧
    ¬ Throughout (step retriedCall) (AbortObeyed retriedCall) (State.init : State String String)
      [.request, .message 0 none, .status 0 unavailable, .abort 2, .timeout 0] ∧
    ¬ Throughout (step retriedCall) (AbortObeyed retriedCall) (State.init : State String String)
      [.request, .message 0 none, .status 0 unavailable, .timeout 0, .abort 2] := by
  refine ⟨fun h => ?_, fun h => ?_, fun h => ?_⟩
  · exact absurd (h.2.2.not_started _ List.mem_cons_self) (by decide)
  · exact absurd (h.2.2.2.2.2.not_started _ (List.mem_cons_of_mem _ List.mem_cons_self)) (by decide)
  · rcases h.2.2.2.2.2.ends (by decide) with hnil | hended | ⟨call, hlast, -, hcancelled⟩
    · cases hnil
    · exact hended rfl
    · cases hlast
      cases hcancelled

end Runs

end Retries
end TemporalSdk.Client
