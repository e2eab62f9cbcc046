import TemporalSdk.Machine.Run
import Mathlib.Data.List.Count

/-!
# The client of a Nexus operation

`TemporalNexusClientImpl` of `packages/nexus/src/workflow-helpers.ts`: every invocation of an operation's
handler has a client of its own, with one slot for an async backing operation and one for a signal.  All
invocations of one operation share its request id.  The server ignores a signal whose request id it has
recorded for the workflow.
-/

namespace TemporalSdk.Nexus

open Machine

variable {W A : Type}

/-! ## Slots -/

structure HandlerError where
  type : String
  message : String
  deriving DecidableEq

inductive Slot where
  | asyncOperation
  | signal
  deriving DecidableEq

structure TemporalNexusClient where
  asyncOperationStarted : Bool
  signalSent : Bool
  deriving DecidableEq

namespace TemporalNexusClient

def init : TemporalNexusClient := ⟨false, false⟩

def reserved (client : TemporalNexusClient) : Slot → Bool
  | .asyncOperation => client.asyncOperationStarted
  | .signal => client.signalSent

def set (client : TemporalNexusClient) (value : Bool) : Slot → TemporalNexusClient
  | .asyncOperation => { client with asyncOperationStarted := value }
  | .signal => { client with signalSent := value }

def slotError : Slot → HandlerError
  | .asyncOperation => ⟨"BAD_REQUEST", "Only one async operation can be started per operation handler invocation. " ++
      "Use TemporalNexusClient.client for additional workflow interactions"⟩
  | .signal => ⟨"BAD_REQUEST", "Only one signal can be sent per operation handler invocation. " ++
      "Use TemporalNexusClient.client for additional signals"⟩

/-- `withAsyncOperationStartReservation` and `withSignalReservation` up to the call of `fn`. -/
def reserve (client : TemporalNexusClient) (slot : Slot) : Except HandlerError TemporalNexusClient :=
  if client.reserved slot then .error (slotError slot) else .ok (client.set true slot)

/-- What both do when `fn` has thrown. -/
def release (client : TemporalNexusClient) (slot : Slot) : TemporalNexusClient := client.set false slot

@[simp] theorem reserved_set (client : TemporalNexusClient) (value : Bool) (slot slot' : Slot) :
    (client.set value slot).reserved slot' = if slot' = slot then value else client.reserved slot' := by
  cases slot <;> cases slot' <;> rfl

end TemporalNexusClient

/-! ## Calls -/

structure Signal (A : Type) where
  name : String
  args : A
  deriving DecidableEq

/-- The RPCs of a handler, and the ones of its workflow handles. -/
inductive Request (W A : Type) where
  | startWorkflow (workflow : W)
  | startActivity (activityId : String)
  | update (workflow : W) (updateId : Option String)
  | signal (workflow : W) (signal : Signal A)
  | signalWithStartWorkflow (workflow : W) (signal : Signal A)

namespace Request

def slot : Request W A → Slot
  | startWorkflow _ => .asyncOperation
  | startActivity _ => .asyncOperation
  | update _ _ => .asyncOperation
  | signal _ _ => .signal
  | signalWithStartWorkflow _ _ => .signal

/-- The signal that is to be delivered, and its target. -/
def sends : Request W A → Option (W × Signal A)
  | signal workflow s => some (workflow, s)
  | signalWithStartWorkflow workflow s => some (workflow, s)
  | _ => none

end Request

inductive Phase where
  /-- the client has thrown before any RPC -/
  | rejected (error : HandlerError)
  | pending
  | succeeded
  | failed
  deriving DecidableEq

structure Call (W A : Type) where
  invocation : Nat
  request : Request W A
  phase : Phase
  /-- whether the server has got the request -/
  arrived : Bool

/-! ## The server -/

/-- A signal in the history of a workflow. -/
structure SignalEvent (W A : Type) where
  workflow : W
  requestId : String
  signal : Signal A

/-- What a backing operation is known under. -/
inductive Backing (W : Type) where
  | workflow (workflow : W) (requestId : String)
  | activity (activityId requestId : String)
  | update (workflow : W) (updateId : String)
  deriving DecidableEq

structure Server (W A : Type) where
  signals : List (SignalEvent W A)
  backings : List (Backing W)

namespace Server

variable [DecidableEq W] (server : Server W A)

/-- The signals of the workflow with the request id. -/
def recorded (workflow : W) (requestId : String) : List (SignalEvent W A) :=
  server.signals.filter fun event => decide (event.workflow = workflow ∧ event.requestId = requestId)

def deliver (workflow : W) (requestId : String) (signal : Signal A) : Server W A :=
  if (server.recorded workflow requestId).isEmpty then
    { server with signals := server.signals ++ [⟨workflow, requestId, signal⟩] }
  else server

def start (backing : Backing W) : Server W A :=
  if backing ∈ server.backings then server else { server with backings := server.backings ++ [backing] }

/-- The server processes a request of the operation; an update without an id has the request id. -/
def apply (requestId : String) : Request W A → Server W A
  | .startWorkflow workflow => server.start (.workflow workflow requestId)
  | .startActivity activityId => server.start (.activity activityId requestId)
  | .update workflow updateId =>
    server.start (.update workflow (if updateId.getD "" = "" then requestId else updateId.getD ""))
  | .signal workflow signal => server.deliver workflow requestId signal
  | .signalWithStartWorkflow workflow signal => server.deliver workflow requestId signal

end Server

/-! ## The system -/

structure StartOperationContext where
  requestId : String
  callbackUrl : Option String

structure System (W A : Type) where
  server : Server W A
  invocations : List TemporalNexusClient
  calls : List (Call W A)

inductive Event (W A : Type) where
  /-- the Nexus task is delivered, another time if it has been -/
  | deliverTask
  | call (invocation : Nat) (request : Request W A)
  | arrive (call : Nat)
  | succeed (call : Nat)
  | fail (call : Nat)
  /-- a signal that has nothing to do with the operation -/
  | otherSignal (workflow : W) (requestId : String) (signal : Signal A)

namespace System

def init : System W A := ⟨⟨[], []⟩, [], []⟩

section Steps

variable (ctx : StartOperationContext)

/-- The check of `updateWorkflowOperation`. -/
def callbackError (request : Request W A) : Option HandlerError :=
  match request with
  | .update _ _ =>
    if ctx.callbackUrl.getD "" = "" then
      some ⟨"BAD_REQUEST", "A callback URL is required for async UpdateWorkflow operation invocations"⟩
    else none
  | _ => none

def issue (s : System W A) (invocation : Nat) (client : TemporalNexusClient) (request : Request W A) : System W A :=
  match callbackError ctx request with
  | some error => { s with calls := s.calls ++ [⟨invocation, request, .rejected error, false⟩] }
  | none =>
    match client.reserve request.slot with
    | .error error => { s with calls := s.calls ++ [⟨invocation, request, .rejected error, false⟩] }
    | .ok client => {
        s with
        invocations := s.invocations.set invocation client
        calls := s.calls ++ [⟨invocation, request, .pending, false⟩] }

/-- The slot of a call whose RPC, or what comes after it, has thrown. -/
def releaseSlot (s : System W A) (call : Call W A) : System W A :=
  match s.invocations[call.invocation]? with
  | none => s
  | some client =>
    { s with invocations := s.invocations.set call.invocation (client.release call.request.slot) }

/-- Whether the call has been made as an RPC. -/
def isSent (call : Call W A) : Bool :=
  match call.phase with
  | .rejected _ => false
  | _ => true

/-- An event that cannot happen changes nothing.  A request may reach the server late, also after it is reported
as failed, and more than once. -/
def step [DecidableEq W] (s : System W A) : Event W A → System W A
  | .deliverTask => { s with invocations := s.invocations ++ [.init] }
  | .call invocation request =>
    match s.invocations[invocation]? with
    | none => s
    | some client => s.issue ctx invocation client request
  | .arrive index =>
    match s.calls[index]? with
    | none => s
    | some call =>
      if isSent call then {
        s with
        server := s.server.apply ctx.requestId call.request
        calls := s.calls.set index { call with arrived := true } }
      else s
  | .succeed index =>
    match s.calls[index]? with
    | none => s
    | some call =>
      if call.phase = .pending ∧ call.arrived = true then
        { s with calls := s.calls.set index { call with phase := .succeeded } }
      else s
  | .fail index =>
    match s.calls[index]? with
    | none => s
    | some call =>
      if call.phase = .pending then
        { s with calls := s.calls.set index { call with phase := .failed } }.releaseSlot call
      else s
  | .otherSignal workflow requestId signal =>
    if requestId = ctx.requestId then s
    else { s with server := s.server.deliver workflow requestId signal }

end Steps

/-! ## What is promised -/

/-- The call succeeded in the slot of the invocation. -/
def succeededIn (invocation : Nat) (slot : Slot) (call : Call W A) : Bool :=
  decide (call.invocation = invocation ∧ call.request.slot = slot ∧ call.phase = .succeeded)

/-- No invocation has two start calls or two signal calls that succeeded. -/
def AtMostOne (s : System W A) : Prop :=
  ∀ invocation slot, s.calls.countP (succeededIn invocation slot) ≤ 1

section Delivery

variable [DecidableEq W] (ctx : StartOperationContext)

/-- A signal call that succeeded has had its own signal delivered to its target, once. -/
def Delivered (s : System W A) : Prop :=
  ∀ call ∈ s.calls, call.phase = .succeeded → ∀ workflow signal, call.request.sends = some (workflow, signal) →
    s.server.recorded workflow ctx.requestId = [⟨workflow, ctx.requestId, signal⟩]

/-- No pending signal call reaches a workflow that has recorded another signal of the operation. -/
def Undisturbed (s : System W A) : Event W A → Prop
  | .arrive index => ∀ call, s.calls[index]? = some call → call.phase = .pending →
      ∀ workflow signal, call.request.sends = some (workflow, signal) →
        ∀ event ∈ s.server.recorded workflow ctx.requestId, event.signal = signal
  | _ => True

end Delivery

/-! ## Slots are taken once -/

/-- The call holds the slot of the invocation. -/
def holds (invocation : Nat) (slot : Slot) (call : Call W A) : Bool :=
  decide (call.invocation = invocation ∧ call.request.slot = slot ∧
    (call.phase = .pending ∨ call.phase = .succeeded))

/-- A slot is reserved while, and only while, one call holds it. -/
def SlotsKept (s : System W A) : Prop :=
  ∀ invocation slot, s.calls.countP (holds invocation slot) =
    match s.invocations[invocation]? with
    | none => 0
    | some client => (client.reserved slot).toNat

variable {s : System W A}

theorem SlotsKept.atMostOne (h : SlotsKept s) : AtMostOne s := by
  intro invocation slot
  have hle : s.calls.countP (succeededIn invocation slot) ≤ s.calls.countP (holds invocation slot) := by
    refine List.countP_mono_left fun call _ hcall => ?_
    simp only [succeededIn, holds, decide_eq_true_eq] at hcall ⊢
    exact ⟨hcall.1, hcall.2.1, .inr hcall.2.2⟩
  rw [h] at hle
  split at hle
  · omega
  · exact Nat.le_trans hle (Bool.toNat_le _)

theorem countP_set_of_getElem? {α : Type} {l : List α} {index : Nat} {a : α} (h : l[index]? = some a) (p : α → Bool)
    (b : α) : (l.set index b).countP p + (p a).toNat = l.countP p + (p b).toNat := by
  rcases List.getElem?_eq_some_iff.1 h with ⟨hlt, rfl⟩
  rw [List.countP_set hlt]
  have hpos : p l[index] = true → 0 < l.countP p := fun hp =>
    List.countP_pos_iff.2 ⟨l[index], List.getElem_mem hlt, hp⟩
  cases hp : p l[index] with
  | false => cases p b <;> simp
  | true =>
    have := hpos hp
    cases p b <;> simp <;> omega

theorem countP_set_same {l : List (Call W A)} {index : Nat} {call call' : Call W A} (h : l[index]? = some call)
    {p : Call W A → Bool} (hsame : p call' = p call) : (l.set index call').countP p = l.countP p := by
  have := countP_set_of_getElem? h p call'
  rw [hsame] at this
  omega

theorem SlotsKept.issue (h : SlotsKept s) (ctx : StartOperationContext) {invocation : Nat}
    {client : TemporalNexusClient} (hclient : s.invocations[invocation]? = some client) (request : Request W A) :
    SlotsKept (s.issue ctx invocation client request) := by
  have hrejected : ∀ error, SlotsKept
      ({ s with calls := s.calls ++ [⟨invocation, request, .rejected error, false⟩] } : System W A) := by
    intro error i slot
    rw [List.countP_append]
    simpa [holds] using h i slot
  rw [System.issue]
  split
  · exact hrejected _
  · rw [TemporalNexusClient.reserve]
    split
    · next heq =>
        split at heq
        · exact hrejected _
        · cases heq
    · next client' heq =>
        split at heq
        · cases heq
        · next hfree =>
            cases heq
            intro i slot
            rw [List.countP_append, h i slot]
            by_cases hi : i = invocation
            · -- the call takes the slot that was free
              subst hi
              have hlt : i < s.invocations.length := (List.getElem?_eq_some_iff.1 hclient).1
              rw [hclient, List.getElem?_set_self hlt]
              simp only [TemporalNexusClient.reserved_set]
              by_cases hslot : slot = request.slot
              · subst hslot
                simp [holds, hfree]
              · simp [holds, hslot, Ne.symm hslot]
            · rw [List.getElem?_set_ne (Ne.symm hi)]
              simp [holds, Ne.symm hi]

theorem SlotsKept.deliverTask (h : SlotsKept s) :
    SlotsKept ({ s with invocations := s.invocations ++ [.init] } : System W A) := by
  intro i slot
  rw [h i slot]
  rcases Nat.lt_trichotomy i s.invocations.length with hlt | rfl | hgt
  · rw [List.getElem?_append_left hlt]
  · rw [List.getElem?_concat_length, List.getElem?_eq_none (Nat.le_refl _)]
    cases slot <;> rfl
  · rw [List.getElem?_eq_none (Nat.le_of_lt hgt), List.getElem?_eq_none (by simp; omega)]

/-- A call that fails gives its slot back. -/
theorem SlotsKept.fail {s : System W A} (h : SlotsKept s) {index : Nat} {call : Call W A}
    (hcall : s.calls[index]? = some call) (hpending : call.phase = .pending) :
    SlotsKept (({ s with calls := s.calls.set index { call with phase := .failed } } : System W A).releaseSlot
      call) := by
  have hafter : ∀ i slot, (s.calls.set index { call with phase := .failed }).countP (holds i slot) +
      (holds i slot call).toNat = s.calls.countP (holds i slot) := by
    intro i slot
    rw [countP_set_of_getElem? hcall]
    simp [holds]
  have hholds : holds call.invocation call.request.slot call = true := by simp [holds, hpending]
  have hone := hafter call.invocation call.request.slot
  rw [hholds, h] at hone
  cases hclient : s.invocations[call.invocation]? with
  | none =>
    rw [hclient] at hone
    simp at hone
  | some client =>
    rw [hclient] at hone
    have hreserved : client.reserved call.request.slot = true := by
      cases hfree : client.reserved call.request.slot with
      | true => rfl
      | false =>
        simp only [hfree] at hone
        simp at hone
    have hlt : call.invocation < s.invocations.length := (List.getElem?_eq_some_iff.1 hclient).1
    rw [releaseSlot]
    simp only [hclient]
    intro i slot
    have hcount := hafter i slot
    rw [h i slot] at hcount
    by_cases hi : i = call.invocation
    · subst hi
      simp only [List.getElem?_set_self hlt, TemporalNexusClient.release, TemporalNexusClient.reserved_set]
      rw [hclient] at hcount
      by_cases hslot : slot = call.request.slot
      · subst hslot
        simp only [hholds, hreserved] at hcount
        simpa using hcount
      · have hnot : holds call.invocation slot call = false := by simp [holds, Ne.symm hslot]
        rw [hnot] at hcount
        simpa [hslot] using hcount
    · have hnot : holds i slot call = false := by simp [holds, Ne.symm hi]
      rw [hnot] at hcount
      simp only [List.getElem?_set_ne (Ne.symm hi)]
      simpa using hcount

theorem slotsKept_step [DecidableEq W] (ctx : StartOperationContext) (s : System W A) (e : Event W A)
    (h : SlotsKept s) : SlotsKept (step ctx s e) := by
  cases e with
  | deliverTask => exact h.deliverTask
  | call invocation request =>
    rw [step]
    split
    · exact h
    · next client hclient => exact h.issue ctx hclient request
  | arrive index =>
    rw [step]
    split
    · exact h
    · next call hcall =>
        split
        · intro i slot
          have hsame : holds i slot { call with arrived := true } = holds i slot call := rfl
          exact (countP_set_same hcall hsame).trans (h i slot)
        · exact h
  | succeed index =>
    rw [step]
    split
    · exact h
    · next call hcall =>
        split
        · next hready =>
            intro i slot
            exact (countP_set_same hcall (by simp [holds, hready.1])).trans (h i slot)
        · exact h
  | fail index =>
    rw [step]
    split
    · exact h
    · next call hcall =>
        split
        · next hpending => exact h.fail hcall hpending
        · exact h
  | otherSignal workflow requestId signal =>
    rw [step]
    split <;> exact h

/-! ## Signals are delivered once -/

section Signals

variable [DecidableEq W] {ctx : StartOperationContext}

theorem recorded_deliver (server : Server W A) (workflow workflow' : W) (requestId requestId' : String)
    (signal : Signal A) : (server.deliver workflow requestId signal).recorded workflow' requestId' =
      if (workflow = workflow' ∧ requestId = requestId') ∧ server.recorded workflow requestId = [] then
        [⟨workflow, requestId, signal⟩]
      else server.recorded workflow' requestId' := by
  rw [Server.deliver]
  by_cases hempty : server.recorded workflow requestId = []
  · rw [if_pos (by rw [hempty]; rfl)]
    by_cases hsame : workflow = workflow' ∧ requestId = requestId'
    · rcases hsame with ⟨rfl, rfl⟩
      rw [if_pos ⟨⟨rfl, rfl⟩, hempty⟩]
      simp only [Server.recorded, List.filter_append] at hempty ⊢
      rw [hempty]
      simp
    · rw [if_neg fun h => hsame h.1]
      simp [Server.recorded, List.filter_append, hsame]
  · rw [if_neg (by simpa using hempty), if_neg fun h => hempty h.2]

theorem recorded_apply (server : Server W A) (requestId : String) (request : Request W A) (workflow : W)
    (requestId' : String) : (server.apply requestId request).recorded workflow requestId' =
      match request.sends with
      | none => server.recorded workflow requestId'
      | some (target, signal) => (server.deliver target requestId signal).recorded workflow requestId' := by
  have hstart : ∀ backing, (server.start backing).recorded workflow requestId' =
      server.recorded workflow requestId' := by
    intro backing
    rw [Server.start]
    split <;> rfl
  cases request with
  | startWorkflow | startActivity | update => exact hstart _
  | signal target signal => rfl
  | signalWithStartWorkflow target signal => rfl

/-- The signals of the calls that the server has got, and that have not failed, are recorded, and each of them
alone. -/
structure SignalsKept (ctx : StartOperationContext) (s : System W A) : Prop where
  recorded : ∀ call ∈ s.calls, call.phase ≠ .failed → call.arrived = true → ∀ workflow signal,
    call.request.sends = some (workflow, signal) →
      s.server.recorded workflow ctx.requestId = [⟨workflow, ctx.requestId, signal⟩]
  arrived : ∀ call ∈ s.calls, call.phase = .succeeded → call.arrived = true

theorem SignalsKept.delivered (h : SignalsKept ctx s) : Delivered ctx s := by
  intro call hcall hsucceeded
  have hfailed : call.phase ≠ .failed := by
    rw [hsucceeded]
    nofun
  exact h.recorded call hcall hfailed (h.arrived call hcall hsucceeded)

theorem SignalsKept.update {s : System W A} (h : SignalsKept ctx s) {index : Nat} {call call' : Call W A}
    (hcall : s.calls[index]? = some call) (hrequest : call'.request = call.request)
    (hrecorded : call'.phase ≠ .failed → call.phase ≠ .failed ∧ call.arrived = true)
    (harrived : call'.phase = .succeeded → call'.arrived = true) :
    SignalsKept ctx ({ s with calls := s.calls.set index call' } : System W A) := by
  refine ⟨fun other hother hfailed hothers => ?_, fun other hother hsucceeded => ?_⟩
  · rcases List.mem_or_eq_of_mem_set hother with hother | rfl
    · exact h.recorded other hother hfailed hothers
    · have hold := hrecorded hfailed
      rw [hrequest]
      exact h.recorded call (List.mem_of_getElem? hcall) hold.1 hold.2
  · rcases List.mem_or_eq_of_mem_set hother with hother | rfl
    · exact h.arrived other hother hsucceeded
    · exact harrived hsucceeded

theorem SignalsKept.issue (h : SignalsKept ctx s) (invocation : Nat) (client : TemporalNexusClient)
    (request : Request W A) : SignalsKept ctx (s.issue ctx invocation client request) := by
  have hnew : ∀ invocations phase, phase ≠ .succeeded →
      SignalsKept ctx (⟨s.server, invocations, s.calls ++ [⟨invocation, request, phase, false⟩]⟩ : System W A) := by
    intro invocations phase hphase
    refine ⟨fun call hcall hfailed harrived => ?_, fun call hcall hsucceeded => ?_⟩
    · rcases List.mem_append.1 hcall with hcall | hcall
      · exact h.recorded call hcall hfailed harrived
      · rw [List.mem_singleton.1 hcall] at harrived
        cases harrived
    · rcases List.mem_append.1 hcall with hcall | hcall
      · exact h.arrived call hcall hsucceeded
      · rw [List.mem_singleton.1 hcall] at hsucceeded
        exact absurd hsucceeded hphase
  rw [System.issue]
  split
  · exact hnew _ _ nofun
  · split <;> exact hnew _ _ nofun

/-- Where the server has recorded no other signal of the operation, the call's signal is recorded alone. -/
theorem recorded_of_undisturbed (hone : ∀ workflow,
      (s.server.recorded workflow ctx.requestId).length ≤ 1)
    {workflow : W} {signal : Signal A} (hsame : ∀ event ∈ s.server.recorded workflow ctx.requestId,
      event.signal = signal) : (s.server.deliver workflow ctx.requestId signal).recorded workflow ctx.requestId =
        [⟨workflow, ctx.requestId, signal⟩] := by
  rw [recorded_deliver]
  cases hrecorded : s.server.recorded workflow ctx.requestId with
  | nil => simp
  | cons event rest =>
    have hrest : rest = [] := by
      have hlength := hone workflow
      rw [hrecorded, List.length_cons] at hlength
      exact List.length_eq_zero_iff.1 (by omega)
    subst hrest
    have hmem : event ∈ s.server.recorded workflow ctx.requestId := by
      rw [hrecorded]
      exact List.mem_singleton_self event
    have hsignal := hsame event hmem
    rw [Server.recorded, List.mem_filter, decide_eq_true_eq] at hmem
    rcases event with ⟨workflow', requestId', signal'⟩
    rcases hmem.2 with ⟨rfl, hid⟩
    simp only at hid hsignal
    simp [hid, hsignal]

theorem recorded_apply_of_recorded {server : Server W A} {request : Request W A} {workflow : W}
    {event : SignalEvent W A} (h : server.recorded workflow ctx.requestId = [event]) :
    (server.apply ctx.requestId request).recorded workflow ctx.requestId = [event] := by
  rw [recorded_apply]
  split
  · exact h
  · next target signal _ =>
      rw [recorded_deliver, if_neg, h]
      rintro ⟨⟨rfl, -⟩, hnone⟩
      rw [h] at hnone
      cases hnone

theorem recorded_length_step (s : System W A) (e : Event W A)
    (h : ∀ workflow, (s.server.recorded workflow ctx.requestId).length ≤ 1) (workflow : W) :
    ((step ctx s e).server.recorded workflow ctx.requestId).length ≤ 1 := by
  have hdeliver : ∀ target requestId signal,
      ((s.server.deliver target requestId signal).recorded workflow ctx.requestId).length ≤ 1 := by
    intro target requestId signal
    rw [recorded_deliver]
    split
    · exact Nat.le_refl 1
    · exact h workflow
  cases e with
  | deliverTask => exact h workflow
  | call invocation request =>
    have hframe : ∀ client, (s.issue ctx invocation client request).server = s.server := by
      intro client
      rw [System.issue]
      split
      · rfl
      · split <;> rfl
    rw [step]
    split
    · exact h workflow
    · rw [hframe]
      exact h workflow
  | arrive index =>
    rw [step]
    split
    · exact h workflow
    · split
      · rw [recorded_apply]
        split
        · exact h workflow
        · exact hdeliver _ _ _
      · exact h workflow
  | succeed index =>
    rw [step]
    split
    · exact h workflow
    · split <;> exact h workflow
  | fail index =>
    rw [step]
    split
    · exact h workflow
    · split
      · rw [releaseSlot]
        split <;> exact h workflow
      · exact h workflow
  | otherSignal target requestId signal =>
    rw [step]
    split
    · exact h workflow
    · exact hdeliver target requestId signal

/-- A call that arrives, for the first time or another one. -/
theorem SignalsKept.arrive (h : SignalsKept ctx s)
    (hone : ∀ workflow, (s.server.recorded workflow ctx.requestId).length ≤ 1) {index : Nat} {call : Call W A}
    (hcall : s.calls[index]? = some call) (hsent : isSent call = true)
    (hundisturbed : Undisturbed ctx s (.arrive index)) :
    SignalsKept ctx ({
      s with
      server := s.server.apply ctx.requestId call.request
      calls := s.calls.set index { call with arrived := true } } : System W A) := by
  refine ⟨fun other hother hfailed harrived workflow signal hsends => ?_, fun other hother hsucceeded => ?_⟩
  · rcases List.mem_or_eq_of_mem_set hother with hother | rfl
    · exact recorded_apply_of_recorded (h.recorded other hother hfailed harrived workflow signal hsends)
    · have hsends' : call.request.sends = some (workflow, signal) := hsends
      cases hphase : call.phase with
      | pending =>
        have hsame := hundisturbed call hcall hphase workflow signal hsends
        rw [recorded_apply, hsends']
        exact recorded_of_undisturbed hone hsame
      | succeeded =>
        -- the server got the call before
        have hmem := List.mem_of_getElem? hcall
        exact recorded_apply_of_recorded (h.recorded call hmem hfailed (h.arrived call hmem hphase) workflow signal
          hsends')
      | failed => exact absurd hphase hfailed
      | rejected error =>
        rw [isSent, hphase] at hsent
        cases hsent
  · rcases List.mem_or_eq_of_mem_set hother with hother | rfl
    · exact h.arrived other hother hsucceeded
    · rfl

/-- Undisturbed steps keep the signals of the operation. -/
theorem signalsKept_step (s : System W A) (e : Event W A)
    (hone : ∀ workflow, (s.server.recorded workflow ctx.requestId).length ≤ 1) (h : SignalsKept ctx s)
    (hundisturbed : Undisturbed ctx s e) : SignalsKept ctx (step ctx s e) := by
  cases e with
  | deliverTask => exact ⟨h.recorded, h.arrived⟩
  | call invocation request =>
    rw [step]
    split
    · exact h
    · exact h.issue invocation _ request
  | arrive index =>
    rw [step]
    split
    · exact h
    · next call hcall =>
        split
        · next hsent => exact h.arrive hone hcall hsent hundisturbed
        · exact h
  | succeed index =>
    rw [step]
    split
    · exact h
    · next call hcall =>
        split
        · next hready =>
            have hpending : call.phase ≠ .failed := by
              rw [hready.1]
              nofun
            exact h.update hcall rfl (fun _ => ⟨hpending, hready.2⟩) fun _ => hready.2
        · exact h
  | fail index =>
    rw [step]
    split
    · exact h
    · next call hcall =>
        split
        · have hcalls : SignalsKept ctx
              ({ s with calls := s.calls.set index { call with phase := .failed } } : System W A) :=
            h.update hcall rfl (fun hfailed => absurd rfl hfailed) nofun
          rw [releaseSlot]
          split
          · exact hcalls
          · exact ⟨hcalls.recorded, hcalls.arrived⟩
        · exact h
  | otherSignal target requestId signal =>
    rw [step]
    split
    · exact h
    · next hother =>
        refine ⟨fun call hcall hfailed harrived workflow signal' hsends => ?_, h.arrived⟩
        rw [recorded_deliver, if_neg fun hsame => hother hsame.1.2]
        exact h.recorded call hcall hfailed harrived workflow signal' hsends

/-! ## Whole runs -/

/-- A client never reports two successes in a slot; and as long as no pending signal call finds another signal of the
operation recorded, the ones that succeed have delivered their signal once. -/
theorem operation_kept (ctx : StartOperationContext) :
    (∀ events : List (Event W A), Throughout (step ctx) AtMostOne init events) ∧
    ∀ events : List (Event W A), Guarded (step ctx) (Undisturbed ctx) init events →
      Throughout (step ctx) (fun s => AtMostOne s ∧ Delivered ctx s) init events := by
  have hslots : SlotsKept (init : System W A) := by
    intro invocation slot
    simp [init]
  have hsignals : SignalsKept ctx (init : System W A) := ⟨nofun, nofun⟩
  have hone : ∀ workflow, ((init : System W A).server.recorded workflow ctx.requestId).length ≤ 1 :=
    fun _ => Nat.zero_le 1
  have hstep : ∀ (s : System W A) e, Undisturbed ctx s e →
      (SlotsKept s ∧ (∀ workflow, (s.server.recorded workflow ctx.requestId).length ≤ 1) ∧ SignalsKept ctx s) →
      SlotsKept (step ctx s e) ∧
        (∀ workflow, ((step ctx s e).server.recorded workflow ctx.requestId).length ≤ 1) ∧
        SignalsKept ctx (step ctx s e) := by
    rintro s e hundisturbed ⟨hslots, hone, hsignals⟩
    exact ⟨slotsKept_step ctx s e hslots, recorded_length_step s e hone,
      signalsKept_step s e hone hsignals hundisturbed⟩
  constructor
  · intro events
    exact throughout_of_invariant (fun s e _ => slotsKept_step ctx s e) (fun s h => h.atMostOne) hslots
      (guarded_true _ _ events)
  · intro events hguarded
    exact throughout_of_invariant hstep (fun s h => ⟨h.1.atMostOne, h.2.2.delivered⟩) ⟨hslots, hone, hsignals⟩
      hguarded

end Signals

/-! ## A signal that is dropped -/

def tracked : StartOperationContext := ⟨"request", some "https://callback"⟩

/-- A handler that sends the same signal again, then another invocation of the operation. -/
def resent : List (Event Nat Nat) :=
  [.deliverTask, .call 0 (.signal 0 ⟨"approve", 1⟩), .arrive 0, .fail 0, .call 0 (.signal 0 ⟨"approve", 1⟩),
    .arrive 1, .succeed 1, .deliverTask, .call 1 (.signal 0 ⟨"approve", 1⟩), .arrive 2, .succeed 2]

theorem operation_kept_resent :
    Throughout (step tracked) AtMostOne (init : System Nat Nat) resent ∧
      Throughout (step tracked) (fun s => AtMostOne s ∧ Delivered tracked s) (init : System Nat Nat) resent := by
  have hguarded : Guarded (step tracked) (Undisturbed tracked) (init : System Nat Nat) resent := by
    refine ⟨trivial, trivial, ?_, trivial, trivial, ?_, trivial, trivial, trivial, ?_, trivial, trivial⟩
    all_goals
      intro call hcall _ workflow signal hsends
      cases hcall
      cases hsends
      decide
  exact ⟨(operation_kept tracked).1 resent, (operation_kept tracked).2 resent hguarded⟩

/-- A handler that sends another signal after one that was applied and reported as failed. -/
def replaced : List (Event Nat Nat) :=
  [.deliverTask, .call 0 (.signal 0 ⟨"approve", 1⟩), .arrive 0, .fail 0, .call 0 (.signal 0 ⟨"reject", 2⟩),
    .arrive 1, .succeed 1]

theorem operation_not_kept : ¬ ∀ (ctx : StartOperationContext) (events : List (Event Nat Nat)),
    Throughout (step ctx) (fun s => AtMostOne s ∧ Delivered ctx s) init events := by
  intro h
  have hdelivered : Delivered tracked (run (step tracked) init replaced) := by
    have hall := h tracked replaced
    exact hall.2.2.2.2.2.2.2.2
  have hreject : (run (step tracked) init replaced).calls[1]? =
      some ⟨0, .signal 0 ⟨"reject", 2⟩, .succeeded, true⟩ := rfl
  have hrecorded : (run (step tracked) init replaced).server.recorded 0 tracked.requestId =
      [⟨0, "request", ⟨"approve", 1⟩⟩] := rfl
  have hrejected := hdelivered _ (List.mem_of_getElem? hreject) rfl 0 _ rfl
  rw [hrecorded] at hrejected
  simp at hrejected

end System

end TemporalSdk.Nexus
