import TemporalSdk.Machine.Run
import TemporalSdk.Machine.Tally

/-!
# ThreadClients — `WorkerThreadClient` and the threaded workflow creator

A client numbers its requests, keeps the completion of each in a map until the reply comes, and rejects them
all when the thread exits.  The creator asks the client with the lowest `activeWorkflowCount` for a new
workflow.  `O` is what a reply carries, and `E` what an error carries.
-/

namespace TemporalSdk.Worker
namespace ThreadClients

open Machine

/-- The `type` of a `WorkerThreadInput`. -/
inductive InputType
  | init
  | createWorkflow
  | activateWorkflow
  | extractSinkCalls
  | disposeWorkflow
  | destroy
  deriving DecidableEq

inductive Rejection (E : Type)
  -- `exitError`.
  | exitedPrematurely (err : E)
  | exitedWhilePending (shutDownRequested : Bool)
  | receivedAfterExit
  -- `postMessage` threw.
  | notPosted (err : E)
  | replied (err : E)
  deriving DecidableEq

inductive Settlement (O E : Type)
  | resolved (output : O)
  | rejected (error : Rejection E)
  deriving DecidableEq

/-- A call of `send`, and how its promise was settled so far. -/
structure Request (O E : Type) where
  type : InputType
  settlements : List (Settlement O E)

inductive Result (O E : Type)
  | ok (output : O)
  | error (err : E)

/-- `requestIdToCompletion` has the call of `send` that waits for a reply.  `calls` and `requests` are for
stating properties only: the calls of `send` so far. -/
structure Client (O E : Type) where
  requestIdx : Nat
  requestIdToCompletion : List (Nat × Nat)
  shutDownRequested : Bool
  workerExited : Bool
  activeWorkflowCount : Int
  exitError : Option E
  calls : Nat
  requests : Nat → Request O E

inductive ClientEvent (O E : Type)
  -- `postMessage` may throw.
  | send (type : InputType) (thrown : Option E)
  | destroy (thrown : Option E)
  | message (requestId : Nat) (result : Result O E)
  | error (err : E)
  | exit

namespace Client

variable {O E : Type}

def init : Client O E := ⟨0, [], false, false, 0, none, 0, fun _ => ⟨.init, []⟩⟩

/-- A call of `send`. -/
def record (c : Client O E) (type : InputType) (settlements : List (Settlement O E)) : Client O E :=
  { c with
    calls := c.calls + 1
    requests := Function.update c.requests c.calls ⟨type, settlements⟩ }

/-- What `send` does to `activeWorkflowCount`. -/
def countChange : InputType → Int
  | .createWorkflow => 1
  | .disposeWorkflow => -1
  | _ => 0

def send (c : Client O E) (type : InputType) (thrown : Option E) : Client O E :=
  match c.exitError with
  | some err => c.record type [.rejected (.exitedPrematurely err)]
  | none =>
    if c.workerExited then c.record type [.rejected .receivedAfterExit]
    else
      let requestId := c.requestIdx
      let c := { c with
        requestIdx := c.requestIdx + 1
        activeWorkflowCount := c.activeWorkflowCount + countChange type }
      match thrown with
      | some err => c.record type [.rejected (.notPosted err)]
      | none =>
        { c.record type [] with
          requestIdToCompletion := c.requestIdToCompletion ++ [(requestId, c.calls)] }

def destroy (c : Client O E) (thrown : Option E) : Client O E :=
  if c.workerExited then c else { c with shutDownRequested := true }.send .destroy thrown

def settle (requests : Nat → Request O E) (settlement : Settlement O E) (call : Nat) :
    Nat → Request O E :=
  Function.update requests call
    { requests call with settlements := (requests call).settlements ++ [settlement] }

def settlementOf : Result O E → Settlement O E
  | .ok output => .resolved output
  | .error err => .rejected (.replied err)

/-- A reply to an unknown request throws. -/
def message (c : Client O E) (requestId : Nat) (result : Result O E) : Client O E :=
  match c.requestIdToCompletion.find? (fun entry => entry.1 = requestId) with
  | none => c
  | some entry =>
    { c with
      requestIdToCompletion := c.requestIdToCompletion.filter (fun entry => entry.1 ≠ requestId)
      requests := settle c.requests (settlementOf result) entry.2 }

def exitRejection (c : Client O E) : Rejection E :=
  match c.exitError with
  | some err => .exitedPrematurely err
  | none => .exitedWhilePending c.shutDownRequested

def exit (c : Client O E) : Client O E :=
  { c with
    workerExited := true
    requestIdToCompletion := []
    requests :=
      (c.requestIdToCompletion.map Prod.snd).foldl (fun requests call =>
        settle requests (.rejected c.exitRejection) call) c.requests }

def step (c : Client O E) : ClientEvent O E → Client O E
  | .send type thrown => c.send type thrown
  | .destroy thrown => c.destroy thrown
  | .message requestId result => c.message requestId result
  | .error err => { c with exitError := some err }
  | .exit => c.exit

/-! ## Live workflows -/

/-- The call of `send` was not rejected: it was answered, or still waits. -/
def Request.stands (r : Request O E) : Bool :=
  r.settlements.all fun
    | .resolved _ => true
    | .rejected _ => false

def Request.standing (type : InputType) (r : Request O E) : Bool := r.type = type && Request.stands r

/-- The workflows that have been created in the thread and not disposed.  A request counts from the moment
it is sent, unless it is rejected. -/
def live (c : Client O E) : Int :=
  tally (List.range c.calls) (Request.standing .createWorkflow) c.requests -
    tally (List.range c.calls) (Request.standing .disposeWorkflow) c.requests

/-- The requests that change the count. -/
def changesCount : InputType → Bool
  | .createWorkflow => true
  | .disposeWorkflow => true
  | _ => false

/-- A request that changed the count is rejected: `postMessage` throws, the thread answers with an error, or
it exits. -/
def Fails (c : Client O E) : ClientEvent O E → Prop
  | .send type (some _) => c.exitError = none ∧ c.workerExited = false ∧ changesCount type = true
  | .message requestId (.error _) =>
    ∃ entry ∈ c.requestIdToCompletion, entry.1 = requestId ∧
      changesCount (c.requests entry.2).type = true
  | .exit => ∃ entry ∈ c.requestIdToCompletion, changesCount (c.requests entry.2).type = true
  | _ => False

instance (c : Client O E) : ∀ e, Decidable (c.Fails e)
  | .send _ none => inferInstanceAs (Decidable False)
  | .send type (some _) =>
    inferInstanceAs (Decidable (c.exitError = none ∧ c.workerExited = false ∧ changesCount type = true))
  | .destroy _ => inferInstanceAs (Decidable False)
  | .message _ (.ok _) => inferInstanceAs (Decidable False)
  | .message requestId (.error _) =>
    inferInstanceAs (Decidable (∃ entry ∈ c.requestIdToCompletion, entry.1 = requestId ∧
      changesCount (c.requests entry.2).type = true))
  | .error _ => inferInstanceAs (Decidable False)
  | .exit =>
    inferInstanceAs (Decidable (∃ entry ∈ c.requestIdToCompletion,
      changesCount (c.requests entry.2).type = true))

/-- Every call of `send` waits for a reply or has been settled, once; none waits when the thread has
exited. -/
def EachSettledOnce (c : Client O E) : Prop :=
  (∀ call < c.calls, (c.requestIdToCompletion.map Prod.snd).count call +
      (c.requests call).settlements.length = 1) ∧
    (c.workerExited = true → c.requestIdToCompletion = [])

/-! ## Settlement -/

/-- The map has calls that have not been settled, each under an id of its own, and every other call has been
settled once. -/
structure Sound (c : Client O E) : Prop where
  ids_nodup : (c.requestIdToCompletion.map Prod.fst).Nodup
  ids_lt : ∀ entry ∈ c.requestIdToCompletion, entry.1 < c.requestIdx
  calls_nodup : (c.requestIdToCompletion.map Prod.snd).Nodup
  waiting : ∀ entry ∈ c.requestIdToCompletion,
    entry.2 < c.calls ∧ (c.requests entry.2).settlements = []
  settled : ∀ call < c.calls, call ∉ c.requestIdToCompletion.map Prod.snd →
    (c.requests call).settlements.length = 1
  exited : c.workerExited = true → c.requestIdToCompletion = []

variable {c : Client O E}

theorem sound_init : Sound (init : Client O E) := by
  refine ⟨List.nodup_nil, ?_, List.nodup_nil, ?_, ?_, fun _ => rfl⟩
  · exact fun entry hentry => absurd hentry List.not_mem_nil
  · exact fun entry hentry => absurd hentry List.not_mem_nil
  · exact fun call hcall => absurd hcall (Nat.not_lt_zero call)

theorem Sound.eachSettledOnce (h : Sound c) : c.EachSettledOnce := by
  refine ⟨fun call hcall => ?_, h.exited⟩
  by_cases hmem : call ∈ c.requestIdToCompletion.map Prod.snd
  · rcases List.mem_map.1 hmem with ⟨entry, hentry, rfl⟩
    rw [List.count_eq_one_of_mem h.calls_nodup hmem, (h.waiting entry hentry).2]
    rfl
  · rw [List.count_eq_zero.2 hmem, h.settled call hcall hmem]

theorem Sound.record (h : Sound c) (type : InputType) (settlement : Settlement O E) :
    Sound (c.record type [settlement]) := by
  refine { h with waiting := fun entry hentry => ?_, settled := fun call hcall hmem => ?_ }
  · rcases h.waiting entry hentry with ⟨hlt, hsettlements⟩
    refine ⟨Nat.lt_succ_of_lt hlt, ?_⟩
    show (Function.update c.requests c.calls _ entry.2).settlements = []
    rw [Function.update_of_ne (Nat.ne_of_lt hlt)]
    exact hsettlements
  · show (Function.update c.requests c.calls _ call).settlements.length = 1
    by_cases hnew : call = c.calls
    · rw [hnew, Function.update_self]
      rfl
    · rw [Function.update_of_ne hnew]
      exact h.settled call (Nat.lt_of_le_of_ne (Nat.le_of_lt_succ hcall) hnew) hmem

/-- A call that waits for its reply, under the next id. -/
theorem Sound.await (h : Sound c) (hlive : c.workerExited = false) (type : InputType) :
    Sound { c.record type [] with
      requestIdx := c.requestIdx + 1
      requestIdToCompletion := c.requestIdToCompletion ++ [(c.requestIdx, c.calls)] } := by
  have hid : c.requestIdx ∉ c.requestIdToCompletion.map Prod.fst := by
    intro hmem
    rcases List.mem_map.1 hmem with ⟨entry, hentry, heq⟩
    exact absurd (h.ids_lt entry hentry) (by omega)
  have hcall : c.calls ∉ c.requestIdToCompletion.map Prod.snd := by
    intro hmem
    rcases List.mem_map.1 hmem with ⟨entry, hentry, heq⟩
    exact absurd (h.waiting entry hentry).1 (by omega)
  refine ⟨?_, fun entry hentry => ?_, ?_, fun entry hentry => ?_, fun call hlt hmem => ?_, ?_⟩
  · simpa using List.nodup_append_comm.2 (by simpa using ⟨by simpa using hid, h.ids_nodup⟩)
  · rcases List.mem_append.1 hentry with hentry | hentry
    · exact Nat.lt_succ_of_lt (h.ids_lt entry hentry)
    · rw [List.mem_singleton.1 hentry]
      exact Nat.lt_succ_self _
  · simpa using List.nodup_append_comm.2 (by simpa using ⟨by simpa using hcall, h.calls_nodup⟩)
  · show entry.2 < c.calls + 1 ∧ (Function.update c.requests c.calls _ entry.2).settlements = []
    rcases List.mem_append.1 hentry with hentry | hentry
    · rcases h.waiting entry hentry with ⟨hlt, hsettlements⟩
      rw [Function.update_of_ne (Nat.ne_of_lt hlt)]
      exact ⟨Nat.lt_succ_of_lt hlt, hsettlements⟩
    · rw [List.mem_singleton.1 hentry, Function.update_self]
      exact ⟨Nat.lt_succ_self _, rfl⟩
  · simp only [List.map_append, List.mem_append, not_or] at hmem
    have hnew : call ≠ c.calls := by
      rintro rfl
      exact hmem.2 (by simp)
    show (Function.update c.requests c.calls _ call).settlements.length = 1
    rw [Function.update_of_ne hnew]
    exact h.settled call (Nat.lt_of_le_of_ne (Nat.le_of_lt_succ hlt) hnew) hmem.1
  · intro hexited
    exact absurd (hlive.symm.trans hexited) (by decide)

theorem Sound.send (h : Sound c) (type : InputType) (thrown : Option E) : Sound (c.send type thrown) := by
  simp only [Client.send]
  cases hexit : c.exitError with
  | some err => exact h.record type _
  | none =>
    cases hexited : c.workerExited with
    | true => exact h.record type _
    | false =>
      cases thrown with
      | none =>
        have hwait := h.await hexited type
        exact ⟨hwait.1, hwait.2, hwait.3, hwait.4, hwait.5, nofun⟩
      | some err =>
        have hrecord := h.record type (.rejected (.notPosted err))
        exact ⟨hrecord.1, fun entry hentry => Nat.lt_succ_of_lt (hrecord.2 entry hentry), hrecord.3,
          hrecord.4, hrecord.5, nofun⟩

theorem mem_deleted (h : Sound c) {entry : Nat × Nat} (hentry : entry ∈ c.requestIdToCompletion)
    {call : Nat} :
    call ∈ (c.requestIdToCompletion.filter (fun other => other.1 ≠ entry.1)).map Prod.snd ↔
      call ∈ c.requestIdToCompletion.map Prod.snd ∧ call ≠ entry.2 := by
  simp only [List.mem_map, List.mem_filter, decide_eq_true_eq]
  constructor
  · rintro ⟨other, ⟨hother, hne⟩, rfl⟩
    refine ⟨⟨other, hother, rfl⟩, fun heq => hne ?_⟩
    rw [List.inj_on_of_nodup_map h.calls_nodup hother hentry heq]
  · rintro ⟨⟨other, hother, rfl⟩, hne⟩
    refine ⟨other, ⟨hother, fun heq => hne ?_⟩, rfl⟩
    rw [List.inj_on_of_nodup_map h.ids_nodup hother hentry heq]

/-- A completion is taken out of the map and called. -/
theorem Sound.message (h : Sound c) (requestId : Nat) (result : Result O E) :
    Sound (c.message requestId result) := by
  simp only [Client.message]
  cases hfind : c.requestIdToCompletion.find? (fun entry => entry.1 = requestId) with
  | none => exact h
  | some entry =>
    have hentry := List.mem_of_find?_eq_some hfind
    have hid : entry.1 = requestId := by simpa using List.find?_some hfind
    subst hid
    refine ⟨?_, fun other hother => ?_, ?_, fun other hother => ?_, fun call hcall hmem => ?_,
      fun hexited => ?_⟩
    · exact h.ids_nodup.sublist (List.filter_sublist.map _)
    · exact h.ids_lt other (List.mem_of_mem_filter hother)
    · exact h.calls_nodup.sublist (List.filter_sublist.map _)
    · rcases h.waiting other (List.mem_of_mem_filter hother) with ⟨hlt, hsettlements⟩
      have hne := ((mem_deleted h hentry).1 (List.mem_map_of_mem hother)).2
      refine ⟨hlt, ?_⟩
      show (Function.update c.requests entry.2 _ other.2).settlements = []
      rw [Function.update_of_ne hne]
      exact hsettlements
    · show (Function.update c.requests entry.2 _ call).settlements.length = 1
      by_cases heq : call = entry.2
      · rw [heq, Function.update_self, (h.waiting entry hentry).2]
        rfl
      · rw [Function.update_of_ne heq]
        exact h.settled call hcall fun hold => hmem ((mem_deleted h hentry).2 ⟨hold, heq⟩)
    · show c.requestIdToCompletion.filter _ = []
      rw [h.exited hexited]
      rfl

variable {settlement : Settlement O E}

theorem settleAll_of_not_mem {call : Nat} {calls : List Nat}
    (hcall : call ∉ calls) (requests : Nat → Request O E) :
    calls.foldl (fun requests call => settle requests settlement call) requests call = requests call := by
  induction calls generalizing requests with
  | nil => rfl
  | cons first calls ih =>
    rcases List.ne_and_not_mem_of_not_mem_cons hcall with ⟨hne, hrest⟩
    rw [List.foldl_cons, ih hrest, settle, Function.update_of_ne hne]

theorem settleAll_of_mem {call : Nat} {calls : List Nat}
    (hcalls : calls.Nodup) (hcall : call ∈ calls) (requests : Nat → Request O E) :
    calls.foldl (fun requests call => settle requests settlement call) requests call =
      { requests call with settlements := (requests call).settlements ++ [settlement] } := by
  induction calls generalizing requests with
  | nil => cases hcall
  | cons first calls ih =>
    rcases List.nodup_cons.1 hcalls with ⟨hnot, hcalls⟩
    by_cases heq : call = first
    · subst heq
      rw [List.foldl_cons, settleAll_of_not_mem hnot, settle, Function.update_self]
    · have hrest := (List.mem_cons.1 hcall).resolve_left heq
      rw [List.foldl_cons, ih hcalls hrest, settle, Function.update_of_ne heq]

theorem Sound.exit (h : Sound c) : Sound c.exit := by
  refine ⟨List.nodup_nil, fun entry hentry => absurd hentry List.not_mem_nil, List.nodup_nil,
    fun entry hentry => absurd hentry List.not_mem_nil, fun call hcall _ => ?_, fun _ => rfl⟩
  simp only [Client.exit]
  by_cases hmem : call ∈ c.requestIdToCompletion.map Prod.snd
  · rw [settleAll_of_mem h.calls_nodup hmem]
    rcases List.mem_map.1 hmem with ⟨entry, hentry, rfl⟩
    rw [(h.waiting entry hentry).2]
    rfl
  · rw [settleAll_of_not_mem hmem]
    exact h.settled call hcall hmem

theorem Sound.step (h : Sound c) (e : ClientEvent O E) : Sound (c.step e) := by
  cases e with
  | send type thrown => exact h.send type thrown
  | destroy thrown =>
    simp only [Client.step, Client.destroy]
    split
    · exact h
    · have hrequested : Sound { c with shutDownRequested := true } := ⟨h.1, h.2, h.3, h.4, h.5, h.6⟩
      exact hrequested.send .destroy thrown
  | message requestId result => exact h.message requestId result
  | error err => exact ⟨h.1, h.2, h.3, h.4, h.5, h.6⟩
  | exit => exact h.exit

/-! ## The count -/

variable (type : InputType)

theorem live_record (settlements : List (Settlement O E)) :
    (c.record type settlements).live = c.live +
      (Request.standing .createWorkflow ⟨type, settlements⟩).toNat -
        (Request.standing .disposeWorkflow ⟨type, settlements⟩).toNat := by
  simp only [live, Client.record, tally_update_range]
  omega

theorem live_record_rejected (error : Rejection E) :
    (c.record type [.rejected error]).live = c.live := by
  rw [live_record]
  simp [Request.standing, Request.stands]

theorem live_record_waiting :
    (c.record type []).live = c.live + countChange type := by
  rw [live_record]
  cases type <;> simp [Request.standing, Request.stands, countChange]
  omega

theorem live_congr {requests : Nat → Request O E}
    (h : ∀ type, changesCount type = true → ∀ call,
      Request.standing type (requests call) = Request.standing type (c.requests call)) :
    ({ c with requests := requests } : Client O E).live = c.live := by
  have hcreate : tally (List.range c.calls) (Request.standing .createWorkflow) requests =
      tally (List.range c.calls) (Request.standing .createWorkflow) c.requests :=
    tally_congr fun call _ => h _ rfl call
  have hdispose : tally (List.range c.calls) (Request.standing .disposeWorkflow) requests =
      tally (List.range c.calls) (Request.standing .disposeWorkflow) c.requests :=
    tally_congr fun call _ => h _ rfl call
  simp only [live, hcreate, hdispose]

theorem standing_settled {type : InputType} (htype : changesCount type = true) {r : Request O E}
    (h : changesCount r.type = false ∨ ∃ output, settlement = .resolved output) :
    Request.standing type { r with settlements := r.settlements ++ [settlement] } =
      Request.standing type r := by
  rcases h with hr | ⟨output, rfl⟩
  · have hne : r.type ≠ type := by
      rintro rfl
      exact absurd (hr.symm.trans htype) (by decide)
    simp [Request.standing, hne]
  · simp [Request.standing, Request.stands]

theorem count_send {type : InputType} {thrown : Option E} (h : c.activeWorkflowCount = c.live)
    (hfails : ¬ c.Fails (.send type thrown)) :
    (c.send type thrown).activeWorkflowCount = (c.send type thrown).live := by
  have hwaiting := live_record_waiting (c := c) type
  simp only [Client.send]
  cases hexit : c.exitError with
  | some err => exact h.trans (live_record_rejected type _).symm
  | none =>
    cases hexited : c.workerExited with
    | true => exact h.trans (live_record_rejected type _).symm
    | false =>
      cases thrown with
      | none =>
        show c.activeWorkflowCount + countChange type = (c.record type []).live
        omega
      | some err =>
        have hsame : countChange type = 0 := by
          cases type with
          | createWorkflow | disposeWorkflow => exact absurd ⟨hexit, hexited, rfl⟩ hfails
          | init => rfl
          | activateWorkflow => rfl
          | extractSinkCalls => rfl
          | destroy => rfl
        have hrejected := live_record_rejected (c := c) type (.notPosted err)
        show c.activeWorkflowCount + countChange type = (c.record type _).live
        omega

theorem count_message {requestId : Nat} {result : Result O E} (h : c.activeWorkflowCount = c.live)
    (hfails : ¬ c.Fails (.message requestId result)) :
    (c.message requestId result).activeWorkflowCount = (c.message requestId result).live := by
  simp only [Client.message]
  cases hfind : c.requestIdToCompletion.find? (fun entry => entry.1 = requestId) with
  | none => exact h
  | some entry =>
    refine h.trans (Eq.symm (live_congr (c := c) fun type htype call => ?_))
    by_cases heq : call = entry.2
    · rw [heq, settle, Function.update_self]
      refine standing_settled htype ?_
      cases result with
      | ok output => exact .inr ⟨output, rfl⟩
      | error err =>
        refine .inl (Bool.eq_false_iff.2 fun hchanges => hfails ?_)
        exact ⟨entry, List.mem_of_find?_eq_some hfind, by simpa using List.find?_some hfind, hchanges⟩
    · rw [settle, Function.update_of_ne heq]

theorem count_exit (hsound : Sound c) (h : c.activeWorkflowCount = c.live)
    (hfails : ¬ c.Fails .exit) : c.exit.activeWorkflowCount = c.exit.live := by
  refine h.trans (Eq.symm (live_congr (c := c) fun type htype call => ?_))
  simp only [Client.exit]
  by_cases hmem : call ∈ c.requestIdToCompletion.map Prod.snd
  · rw [settleAll_of_mem hsound.calls_nodup hmem]
    rcases List.mem_map.1 hmem with ⟨entry, hentry, rfl⟩
    refine standing_settled htype (.inl (Bool.eq_false_iff.2 fun hchanges => hfails ?_))
    exact ⟨entry, hentry, hchanges⟩
  · rw [settleAll_of_not_mem hmem]

theorem count_step (hsound : Sound c) {e : ClientEvent O E} (h : c.activeWorkflowCount = c.live)
    (hfails : ¬ c.Fails e) : (c.step e).activeWorkflowCount = (c.step e).live := by
  cases e with
  | send type thrown => exact count_send h hfails
  | destroy thrown =>
    simp only [Client.step, Client.destroy]
    split
    · exact h
    · refine count_send (c := { c with shutDownRequested := true }) h ?_
      cases thrown with
      | none => exact id
      | some err => exact fun hdestroy => absurd hdestroy.2.2 (by decide)
  | message requestId result => exact count_message h hfails
  | error err => exact h
  | exit => exact count_exit hsound h hfails

end Client

/-! ## The creator -/

/-- `ThreadedVMWorkflowCreator`, with a client for each thread. -/
abbrev Creator (ι O E : Type) : Type := ι → Client O E

inductive Event (ι O E : Type)
  | createWorkflow (thrown : Option E)
  | client (i : ι) (e : ClientEvent O E)

namespace Creator

variable {ι O E : Type} [DecidableEq ι]

def init : Creator ι O E := fun _ => .init

/-- The function given to `reduce`. -/
def lessLoaded (s : Creator ι O E) (prev curr : ι) : ι :=
  if (s prev).activeWorkflowCount < (s curr).activeWorkflowCount then prev else curr

/-- `reduce` throws on no threads. -/
def leastLoaded (s : Creator ι O E) : List ι → Option ι
  | [] => none
  | first :: rest => some (rest.foldl s.lessLoaded first)

def clientStep (s : Creator ι O E) (i : ι) (e : ClientEvent O E) : Creator ι O E :=
  Function.update s i ((s i).step e)

def step (threads : List ι) (s : Creator ι O E) : Event ι O E → Creator ι O E
  | .createWorkflow thrown =>
    match s.leastLoaded threads with
    | none => s
    | some i => s.clientStep i (.send .createWorkflow thrown)
  | .client i e => s.clientStep i e

/-- The step rejects a request that changed the count of its client. -/
def Fails (threads : List ι) (s : Creator ι O E) : Event ι O E → Prop
  | .createWorkflow thrown =>
    match s.leastLoaded threads with
    | none => False
    | some i => (s i).Fails (.send .createWorkflow thrown)
  | .client i e => (s i).Fails e

instance (threads : List ι) (s : Creator ι O E) : ∀ e, Decidable (s.Fails threads e)
  | .createWorkflow thrown =>
    match h : s.leastLoaded threads with
    | none => decidable_of_iff False (by simp [Fails, h])
    | some i =>
      decidable_of_iff ((s i).Fails (.send .createWorkflow thrown)) (by simp [Fails, h])
  | .client i e => inferInstanceAs (Decidable ((s i).Fails e))

/-- The counts are the numbers of live workflows, and a new one goes to a thread that has the least. -/
def Balanced (threads : List ι) (s : Creator ι O E) : Prop :=
  (∀ i, (s i).activeWorkflowCount = (s i).live) ∧
    ∀ i, s.leastLoaded threads = some i → i ∈ threads ∧ ∀ j ∈ threads, (s i).live ≤ (s j).live

variable {s : Creator ι O E}

omit [DecidableEq ι] in
theorem lessLoaded_spec (s : Creator ι O E) (prev curr : ι) :
    (s.lessLoaded prev curr = prev ∨ s.lessLoaded prev curr = curr) ∧
      (s (s.lessLoaded prev curr)).activeWorkflowCount ≤ (s prev).activeWorkflowCount ∧
      (s (s.lessLoaded prev curr)).activeWorkflowCount ≤ (s curr).activeWorkflowCount := by
  simp only [lessLoaded]
  split
  · rename_i hlt
    exact ⟨.inl rfl, Int.le_refl _, Int.le_of_lt hlt⟩
  · rename_i hge
    exact ⟨.inr rfl, Int.not_lt.1 hge, Int.le_refl _⟩

omit [DecidableEq ι] in
theorem foldl_lessLoaded (s : Creator ι O E) (first : ι) (rest : List ι) :
    rest.foldl s.lessLoaded first ∈ first :: rest ∧
      ∀ j ∈ first :: rest,
        (s (rest.foldl s.lessLoaded first)).activeWorkflowCount ≤ (s j).activeWorkflowCount := by
  induction rest generalizing first with
  | nil => simp
  | cons second rest ih =>
    rcases s.lessLoaded_spec first second with ⟨hpick, hfirst, hsecond⟩
    rcases ih (s.lessLoaded first second) with ⟨hmem, hleast⟩
    have hhead := hleast _ List.mem_cons_self
    rw [List.foldl_cons]
    constructor
    · rcases List.mem_cons.1 hmem with heq | hmem
      · rw [heq]
        rcases hpick with hpick | hpick
        all_goals simp [hpick]
      · exact List.mem_cons_of_mem _ (List.mem_cons_of_mem _ hmem)
    · intro j hj
      rcases List.mem_cons.1 hj with rfl | hj
      · exact Int.le_trans hhead hfirst
      rcases List.mem_cons.1 hj with rfl | hj
      · exact Int.le_trans hhead hsecond
      · exact hleast j (List.mem_cons_of_mem _ hj)

variable {threads : List ι}

omit [DecidableEq ι] in
theorem leastLoaded_spec {i : ι} (h : s.leastLoaded threads = some i) :
    i ∈ threads ∧ ∀ j ∈ threads, (s i).activeWorkflowCount ≤ (s j).activeWorkflowCount := by
  cases threads with
  | nil => cases h
  | cons first rest =>
    cases h
    exact foldl_lessLoaded s first rest

theorem sound_clientStep (h : ∀ i, (s i).Sound) (i : ι) (e : ClientEvent O E) :
    ∀ j, (s.clientStep i e j).Sound := by
  intro j
  by_cases hj : j = i
  · rw [hj, clientStep, Function.update_self]
    exact (h i).step e
  · rw [clientStep, Function.update_of_ne hj]
    exact h j

theorem sound_step (h : ∀ i, (s i).Sound) (e : Event ι O E) :
    ∀ i, (s.step threads e i).Sound := by
  cases e with
  | createWorkflow thrown =>
    simp only [step]
    cases hleast : s.leastLoaded threads with
    | none => exact h
    | some i => exact sound_clientStep h i _
  | client i e => exact sound_clientStep h i e

theorem count_clientStep (hsound : ∀ i, (s i).Sound)
    (h : ∀ i, (s i).activeWorkflowCount = (s i).live) {i : ι} {e : ClientEvent O E}
    (hfails : ¬ (s i).Fails e) :
    ∀ j, (s.clientStep i e j).activeWorkflowCount = (s.clientStep i e j).live := by
  intro j
  by_cases hj : j = i
  · rw [hj, clientStep, Function.update_self]
    exact Client.count_step (hsound i) (h i) hfails
  · rw [clientStep, Function.update_of_ne hj]
    exact h j

theorem count_step (hsound : ∀ i, (s i).Sound)
    (h : ∀ i, (s i).activeWorkflowCount = (s i).live) {e : Event ι O E}
    (hfails : ¬ s.Fails threads e) :
    ∀ i, (s.step threads e i).activeWorkflowCount = (s.step threads e i).live := by
  cases e with
  | createWorkflow thrown =>
    simp only [step]
    cases hleast : s.leastLoaded threads with
    | none => exact h
    | some i =>
      refine count_clientStep hsound h fun hclient => hfails ?_
      simpa only [Fails, hleast] using hclient
  | client i e => exact count_clientStep hsound h hfails

omit [DecidableEq ι] in
theorem balanced_of_count (h : ∀ i, (s i).activeWorkflowCount = (s i).live) :
    s.Balanced threads := by
  refine ⟨h, fun i hi => ?_⟩
  rcases leastLoaded_spec hi with ⟨hmem, hleast⟩
  refine ⟨hmem, fun j hj => ?_⟩
  have hle := hleast j hj
  rw [h i, h j] at hle
  exact hle

/-- Whatever happens in whatever order, every request is settled once, also when the thread exits before its
reply or before it is sent.  As long as no request to create or to dispose of a workflow fails after `send` has
changed the count, the counts are the numbers of live workflows and a new one goes to a thread with the least. -/
theorem settled_once_and_balanced (threads : List ι) (es : List (Event ι O E)) :
    Throughout (step threads) (fun s => ∀ i, (s i).EachSettledOnce) init es ∧
      (Guarded (step threads) (fun s e => ¬ s.Fails threads e) init es →
        Throughout (step threads) (Balanced threads) init es) := by
  have hinit : ∀ i : ι, (init i : Client O E).Sound := fun _ => Client.sound_init
  constructor
  · have hstep : ∀ (s : Creator ι O E) (e : Event ι O E), True → (∀ i, (s i).Sound) →
        ∀ i, (s.step threads e i).Sound := fun s e _ h => sound_step h e
    exact throughout_of_invariant hstep (fun s h i => (h i).eachSettledOnce) hinit (guarded_true _ _ _)
  · intro hg
    have hstep : ∀ (s : Creator ι O E) (e : Event ι O E), ¬ s.Fails threads e →
        ((∀ i, (s i).Sound) ∧ ∀ i, (s i).activeWorkflowCount = (s i).live) →
          (∀ i, (s.step threads e i).Sound) ∧
            ∀ i, (s.step threads e i).activeWorkflowCount = (s.step threads e i).live :=
      fun s e hfails h => ⟨sound_step h.1 e, count_step h.1 h.2 hfails⟩
    exact throughout_of_invariant hstep (fun s h => balanced_of_count h.2) ⟨hinit, fun _ => rfl⟩ hg

/-- A workflow is created, an activation of it fails, and it is disposed of. -/
theorem balanced_of_lifecycle :
    Throughout (step [0, 1]) (Balanced [0, 1]) (init : Creator Nat Unit Unit)
      [.createWorkflow none, .client 1 (.message 0 (.ok ())), .client 1 (.send .activateWorkflow none),
        .client 1 (.message 1 (.error ())), .client 1 (.send .disposeWorkflow none),
        .client 1 (.message 2 (.ok ())), .client 1 .exit] := by
  exact (settled_once_and_balanced [0, 1] _).2 (by decide)

/-- A workflow whose creation fails stays counted. -/
theorem not_balanced_of_failed_creation :
    let s := run (step [0, 1]) (init : Creator Nat Unit Unit)
      [.createWorkflow none, .client 1 (.message 0 (.error ()))]
    (s 1).activeWorkflowCount = 1 ∧ (s 1).live = 0 ∧ ¬ s.Balanced [0, 1] := by
  refine ⟨by decide, by decide, fun h => ?_⟩
  exact absurd (h.1 1) (by decide)

end Creator
end ThreadClients
end TemporalSdk.Worker
