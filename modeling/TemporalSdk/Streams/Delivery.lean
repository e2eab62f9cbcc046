import TemporalSdk.Machine.Sequenced
import TemporalSdk.Streams.ContinueAsNew
import TemporalSdk.Streams.Publisher

/-!
# Delivery — publishers, the signals on their way, and the stream of the workflow

A flush of a publisher sends a signal.  A signal that was sent may be recorded in the history of the workflow at
any later time, more than once or never, and the publisher may be told of an error in each case; it is told of
success only when the signal was recorded.  The workflow handles the recorded signals in order.  It continues as
new only when none is left, and loses the publishers that it has not heard of for long.

`history` is for stating properties only: where each item of the log came from, those that were truncated
included.  `EndToEnd` follows the payloads.
-/

namespace TemporalSdk.Streams

open Machine

/-- Values are converted to payloads of a size that an array can have. -/
def encodeValue {V : Type} (toPayload : V → Option { payload : Payload // (encodePayloadProto payload).length < maxLength })
    (value : V) : Option (List Char) :=
  (toPayload value).map fun payload => encodePayloadWire payload.1

/-- What is encoded can be decoded. -/
def Decodes {V : Type} (encode : V → Option (List Char)) : Prop :=
  ∀ value data, encode value = some data → ∃ payload, decodePayloadWire data = .ok payload

theorem encodeValue_decodes {V : Type}
    (toPayload : V → Option { payload : Payload // (encodePayloadProto payload).length < maxLength }) :
    Decodes (encodeValue toPayload) := by
  intro value data h
  rcases Option.map_eq_some_iff.mp h with ⟨payload, _, rfl⟩
  exact exists_decodePayloadWire payload.2

/-- The first 16 digits of a `randomUUID()`. -/
def isPublisherId (id : String) : Bool :=
  id.toList.length = 16 && id.toList.all fun c => "0123456789abcdef".toList.contains c

abbrev PublisherId := { id : String // isPublisherId id = true }

/-- A call of `handle.signal` that a flush makes. -/
structure Signal where
  publisherId : PublisherId
  flush : Nat
  seq : Nat
  batch : List Publisher.Encoded
  deriving DecidableEq

namespace Signal

def input (s : Signal) : PublishInput := ⟨s.batch.map Publisher.Encoded.entry, s.publisherId.1, s.seq⟩

def indices (s : Signal) : List Nat := s.batch.map Publisher.Encoded.index

end Signal

/-- An item that came to the log: `item` tells which one of which publisher, or none if the workflow published
it. -/
structure Origin where
  topic : String
  item : Option (PublisherId × Nat)
  deriving DecidableEq

def Signal.origins (s : Signal) : List Origin := s.batch.map fun e => ⟨e.entry.topic, some (s.publisherId, e.index)⟩

structure Delivery (V : Type) where
  clients : PublisherId → Publisher.Client V
  sent : List Signal
  recorded : List Signal
  handled : Nat
  stream : WorkflowStream
  history : List Origin

inductive DeliveryEvent (V : Type)
  | client (publisherId : PublisherId) (e : Publisher.ClientEvent V)
  -- The server records the signal that was sent as the `i`-th one.
  | record (i : Nat)
  | handle (now : Int)
  | publishToTopic (topic : String) (payload : Payload)
  | truncate (upToOffset : Int)
  | continueAsNew (now publisherTtl : Int)

namespace Delivery

variable {V : Type} (encode : V → Option (List Char))

def init : Delivery V := ⟨fun _ => .init, [], [], 0, .init, []⟩

/-- The signal of a flush that the step has started. -/
def signalOf (publisherId : PublisherId) (c c' : Publisher.Client V) : List Signal :=
  match c'.flushes c.flushCount with
  | some (.running seq batch) => [⟨publisherId, c.flushCount, seq, batch⟩]
  | _ => []

/-- A signal that returns was recorded. -/
def canHappen (s : Delivery V) (publisherId : PublisherId) : Publisher.ClientEvent V → Bool
  | .signalled flush true => s.recorded.any fun x => x.publisherId = publisherId ∧ x.flush = flush
  | _ => true

def stepClient (s : Delivery V) (publisherId : PublisherId) (e : Publisher.ClientEvent V) : Delivery V :=
  if s.canHappen publisherId e then
    let c := s.clients publisherId
    let c' := c.step encode e
    { s with clients := Function.update s.clients publisherId c', sent := s.sent ++ signalOf publisherId c c' }
  else s

/-- The next recorded signal.  If its handler throws, so does every attempt at the activation. -/
def handle (s : Delivery V) (now : Int) : Delivery V :=
  match s.recorded[s.handled]? with
  | none => s
  | some x =>
    match s.stream.onPublish now x.input with
    | .error _ => s
    | .ok stream =>
      { s with
        handled := s.handled + 1
        stream := stream
        history := s.history ++ if s.stream.isDuplicate x.publisherId.1 x.seq then [] else x.origins }

def step (s : Delivery V) : DeliveryEvent V → Delivery V
  | .client publisherId e => s.stepClient encode publisherId e
  | .record i =>
    match s.sent[i]? with
    | some x => { s with recorded := s.recorded ++ [x] }
    | none => s
  | .handle now => s.handle now
  | .publishToTopic topic payload =>
    { s with stream := s.stream.publishToTopic topic payload, history := s.history ++ [⟨topic, none⟩] }
  | .truncate upToOffset =>
    match s.stream.truncate upToOffset with
    | .ok stream => { s with stream := stream }
    | .error _ => s
  | .continueAsNew now publisherTtl =>
    if s.handled = s.recorded.length then
      match WorkflowStream.construct (s.stream.getState now publisherTtl) with
      | .ok stream => { s with stream := stream }
      | .error _ => s
    else s

/-- The items that the publishers' signals brought. -/
def items (s : Delivery V) : List (PublisherId × Nat) := s.history.filterMap Origin.item

/-- The items of one publisher, in the order of the log. -/
def itemsOf (s : Delivery V) (publisherId : PublisherId) : List Nat :=
  (s.items.filter fun x => x.1 = publisherId).map Prod.snd

structure Delivered (s : Delivery V) : Prop where
  log : s.stream.log.map LogEntry.topic = (s.history.map Origin.topic).drop s.stream.baseOffset
  offset : s.stream.offset = s.history.length
  at_most_once : s.items.Nodup
  in_order : ∀ publisherId, (s.itemsOf publisherId).Pairwise (· < ·)
  acknowledged : s.handled = s.recorded.length → ∀ publisherId, ∀ index ∈ (s.clients publisherId).acknowledged,
    s.items.count (publisherId, index) = 1
  progress : s.handled < s.recorded.length → ∀ now, (s.handle now).handled = s.handled + 1

/-- A signal of a batch that reached the workflow before, or of an earlier batch, is handled only while the
workflow still knows the publisher. -/
def InTime (s : Delivery V) : DeliveryEvent V → Prop
  | .handle _ =>
    ∀ x, s.recorded[s.handled]? = some x →
      (∃ y ∈ s.recorded.take s.handled, y.publisherId = x.publisherId ∧ x.seq ≤ y.seq) →
        s.stream.publisherSequences.get? x.publisherId.1 ≠ none
  | _ => True

instance decidableInTime (s : Delivery V) : ∀ e, Decidable (s.InTime e)
  | .handle _ =>
    match hx : s.recorded[s.handled]? with
    | none => isTrue fun _ hx' => absurd (hx.symm.trans hx') nofun
    | some x =>
      decidable_of_iff ((∃ y ∈ s.recorded.take s.handled, y.publisherId = x.publisherId ∧ x.seq ≤ y.seq) →
          s.stream.publisherSequences.get? x.publisherId.1 ≠ none)
        ⟨fun h _ hx' => Option.some.inj (hx.symm.trans hx') ▸ h, fun h => h x hx⟩
  | .client _ _ | .record _ | .publishToTopic _ _ | .truncate _ | .continueAsNew _ _ => isTrue trivial

end Delivery

/-! ## One publisher -/

namespace Publisher
namespace Client

variable {V : Type} {encode : V → Option (List Char)} {c c' : Client V}

/-- The step touches neither items nor flushes, and does not give up the current flush while it runs. -/
structure SameBatches (c c' : Client V) : Prop where
  buffer : c'.buffer = c.buffer
  pending : c'.pending = c.pending
  pendingSeq : c'.pendingSeq = c.pendingSeq
  sequence : c'.sequence = c.sequence
  flushes : c'.flushes = c.flushes
  flushCount : c'.flushCount = c.flushCount
  published : c'.published = c.published
  acknowledged : c'.acknowledged = c.acknowledged
  current : ∀ flush seq batch, c.flushes flush = some (.running seq batch) → c.currentFlush = some flush →
    c'.currentFlush = some flush

theorem SameBatches.refl (c : Client V) : SameBatches c c := ⟨rfl, rfl, rfl, rfl, rfl, rfl, rfl, rfl, fun _ _ _ _ => id⟩

theorem SameBatches.trans {c'' : Client V} (h : SameBatches c c') (h' : SameBatches c' c'') : SameBatches c c'' := by
  refine ⟨h'.buffer.trans h.buffer, h'.pending.trans h.pending, h'.pendingSeq.trans h.pendingSeq,
    h'.sequence.trans h.sequence, h'.flushes.trans h.flushes, h'.flushCount.trans h.flushCount,
    h'.published.trans h.published, h'.acknowledged.trans h.acknowledged, ?_⟩
  intro flush seq batch hrunning hcurrent
  exact h'.current flush seq batch (by rw [h.flushes]; exact hrunning) (h.current flush seq batch hrunning hcurrent)

theorem sameBatches_setCall (k : Nat) (call : FlushCall) : SameBatches c (c.setCall k call) :=
  ⟨rfl, rfl, rfl, rfl, rfl, rfl, rfl, rfl, fun _ _ _ _ => id⟩

theorem sameBatches_throwTo (k : Nat) (err : FlushError) : SameBatches c (c.throwTo k err) :=
  ⟨rfl, rfl, rfl, rfl, rfl, rfl, rfl, rfl, fun _ _ _ _ => id⟩

variable (user : User)

theorem sameBatches_setOnce (once : Once) : SameBatches c (c.setOnce user once) := by
  cases user with
  | flusher => exact ⟨rfl, rfl, rfl, rfl, rfl, rfl, rfl, rfl, fun _ _ _ _ => id⟩
  | call k =>
    simp only [Client.setOnce]
    split
    · exact sameBatches_setCall k _
    · exact .refl c

theorem sameBatches_returnTo : SameBatches c (c.returnTo user) := by
  cases user with
  | flusher => exact ⟨rfl, rfl, rfl, rfl, rfl, rfl, rfl, rfl, fun _ _ _ _ => id⟩
  | call k =>
    simp only [Client.returnTo]
    split
    · exact sameBatches_setCall k _
    · exact .refl c

theorem sameBatches_throwIn (err : FlushError) : SameBatches c (c.throwIn user err) := by
  cases user with
  | flusher =>
    simp only [Client.throwIn]
    split <;> exact ⟨rfl, rfl, rfl, rfl, rfl, rfl, rfl, rfl, fun _ _ _ _ => id⟩
  | call k => exact sameBatches_throwTo k err

theorem sameBatches_release {flush : Nat} (hended : ∀ seq batch, c.flushes flush ≠ some (.running seq batch)) :
    SameBatches c (c.release flush) := by
  refine ⟨rfl, rfl, rfl, rfl, rfl, rfl, rfl, rfl, ?_⟩
  intro flush' seq batch hrunning hcurrent
  have hne : ¬ c.currentFlush = some flush := by
    rw [hcurrent]
    rintro ⟨⟩
    exact hended seq batch hrunning
  simp only [Client.release, if_neg hne]
  exact hcurrent

theorem sameBatches_resume : SameBatches c (c.resume user) := by
  unfold Client.resume
  split
  · split
    · exact sameBatches_setOnce user _
    · exact sameBatches_throwIn user _
    · exact .refl c
  · split
    · rename_i hflush
      refine (sameBatches_release ?_).trans (sameBatches_returnTo user)
      rw [hflush]
      nofun
    · rename_i hflush
      refine (sameBatches_release ?_).trans (sameBatches_throwIn user _)
      rw [hflush]
      nofun
    · exact .refl c
  · exact .refl c

theorem sameBatches_flush : SameBatches c c.flush := by
  unfold Client.flush
  simp only
  split
  · exact ⟨rfl, rfl, rfl, rfl, rfl, rfl, rfl, rfl, fun _ _ _ _ => id⟩
  · split <;> exact ⟨rfl, rfl, rfl, rfl, rfl, rfl, rfl, rfl, fun _ _ _ _ => id⟩

theorem sameBatches_check (k : Nat) : SameBatches c (c.check k) := by
  unfold Client.check
  split
  · split
    · exact sameBatches_setCall k _
    · split
      · exact ⟨rfl, rfl, rfl, rfl, rfl, rfl, rfl, rfl, fun _ _ _ _ => id⟩
      · exact sameBatches_setCall k _
  · exact .refl c

/-- What a step can do with the items: nothing, or it publishes, starts a flush or ends one. -/
theorem step_cases (encode : V → Option (List Char)) (c : Client V) (e : ClientEvent V) :
    SameBatches c (c.step encode e) ∨ (∃ topic value, e = .publish topic value) ∨
      (∃ expired, c.currentFlush = none ∧ SameBatches (c.doFlush encode expired) (c.step encode e)) ∨
        ∃ flush ok, e = .signalled flush ok := by
  cases e with
  | publish topic value => exact Or.inr (Or.inl ⟨topic, value, rfl⟩)
  | flush => exact Or.inl sameBatches_flush
  | wake =>
    refine Or.inl ?_
    simp only [Client.step]
    split
    · exact ⟨rfl, rfl, rfl, rfl, rfl, rfl, rfl, rfl, fun _ _ _ _ => id⟩
    · exact .refl c
  | enter user expired =>
    simp only [Client.step, Client.enter]
    split
    · split
      · exact Or.inl (sameBatches_setOnce user _)
      · rename_i hidle
        exact Or.inr (Or.inr (Or.inl ⟨expired, hidle, sameBatches_setOnce user _⟩))
    · exact Or.inl (.refl c)
  | resume user => exact Or.inl (sameBatches_resume user)
  | check k => exact Or.inl (sameBatches_check k)
  | signalled flush ok => exact Or.inr (Or.inr (Or.inr ⟨flush, ok, rfl⟩))

theorem Flushing.sameBatches (h : c.Flushing) (hsame : SameBatches c c') : c'.Flushing := by
  refine ⟨?_, ?_, ?_⟩
  · rw [hsame.pending, hsame.pendingSeq, hsame.sequence]
    exact h.seq
  · intro flush seq batch hrunning
    rw [hsame.flushes] at hrunning
    rcases h.running flush seq batch hrunning with ⟨hcurrent, hpending⟩
    rw [hsame.pending, hsame.pendingSeq]
    exact ⟨hsame.current flush seq batch hrunning hcurrent, hpending⟩
  · rw [hsame.flushes, hsame.flushCount]
    exact h.fresh

/-- The items that are still to be sent off, in order. -/
def waiting (c : Client V) : List Nat :=
  (c.pending.elim [] fun batch => batch.map Encoded.index) ++ c.buffer.map Item.index

/-- Where a signal stands: its batch is settled and all that waits comes after it, or it is the pending batch. -/
structure Sent (c : Client V) (x : Signal) : Prop where
  pos : 0 < x.seq
  flush_lt : x.flush < c.flushCount
  place : (x.seq ≤ c.sequence ∧ ∀ i ∈ x.indices, i < c.published ∧ ∀ j ∈ c.waiting, i < j) ∨
    (c.pending = some x.batch ∧ c.pendingSeq = x.seq)
  increasing : x.indices.Pairwise (· < ·)
  running : ∀ seq batch, c.flushes x.flush = some (.running seq batch) → x.seq = seq
  decodes : ∀ e ∈ x.batch, ∃ payload, decodePayloadWire e.entry.data = .ok payload

structure Orderly (c : Client V) (sent : List Signal) : Prop where
  flushing : c.Flushing
  increasing : c.waiting.Pairwise (· < ·)
  published : ∀ i ∈ c.waiting, i < c.published
  decodes : ∀ batch, c.pending = some batch → ∀ e ∈ batch, ∃ payload, decodePayloadWire e.entry.data = .ok payload
  standing : ∀ x ∈ sent, c.Sent x
  same : ∀ x ∈ sent, ∀ y ∈ sent, x.seq = y.seq → x.batch = y.batch
  later : ∀ x ∈ sent, ∀ y ∈ sent, x.seq < y.seq → ∀ i ∈ x.indices, ∀ j ∈ y.indices, i < j

theorem waiting_some {batch : List Encoded} (h : c.pending = some batch) :
    c.waiting = batch.map Encoded.index ++ c.buffer.map Item.index := by
  simp only [waiting, h, Option.elim_some]

theorem waiting_none (h : c.pending = none) : c.waiting = c.buffer.map Item.index := by
  simp only [waiting, h, Option.elim_none, List.nil_append]

/-- From `c` to `c'`, nothing comes in front of what waits, and a batch that goes is settled. -/
structure Advances (c c' : Client V) : Prop where
  flushCount : c.flushCount ≤ c'.flushCount
  sequence : c.sequence ≤ c'.sequence
  published : c.published ≤ c'.published
  waiting : ∀ j ∈ c'.waiting, j ∈ c.waiting ∨ c.published ≤ j
  pending : ∀ batch, c.pending = some batch →
    (c'.pending = some batch ∧ c'.pendingSeq = c.pendingSeq) ∨
      (c.pendingSeq ≤ c'.sequence ∧ ∀ i ∈ batch.map Encoded.index, ∀ j ∈ c'.waiting, i < j)
  running : ∀ flush < c.flushCount, ∀ seq batch, c'.flushes flush = some (.running seq batch) →
    c.flushes flush = some (.running seq batch)

theorem Sent.advance {x : Signal} (h : c.Sent x) (hadvances : Advances c c') (hpublished : ∀ i ∈ c.waiting, i < c.published) :
    c'.Sent x := by
  refine ⟨h.pos, Nat.lt_of_lt_of_le h.flush_lt hadvances.flushCount, ?_, h.increasing, ?_, h.decodes⟩
  · rcases h.place with ⟨hle, hbelow⟩ | ⟨hpending, hseq⟩
    · refine Or.inl ⟨Nat.le_trans hle hadvances.sequence, fun i hi => ?_⟩
      rcases hbelow i hi with ⟨hlt, hwaiting⟩
      refine ⟨Nat.lt_of_lt_of_le hlt hadvances.published, fun j hj => ?_⟩
      rcases hadvances.waiting j hj with hj | hj
      · exact hwaiting j hj
      · exact Nat.lt_of_lt_of_le hlt hj
    · rcases hadvances.pending x.batch hpending with ⟨hpending', hseq'⟩ | ⟨hle, hbelow⟩
      · exact Or.inr ⟨hpending', hseq'.trans hseq⟩
      · refine Or.inl ⟨by omega, fun i hi => ⟨?_, hbelow i hi⟩⟩
        have hi' : i ∈ c.waiting := by
          rw [waiting_some hpending]
          exact List.mem_append_left _ hi
        exact Nat.lt_of_lt_of_le (hpublished i hi') hadvances.published
  · intro seq batch hrunning
    exact h.running seq batch (hadvances.running x.flush h.flush_lt seq batch hrunning)

variable {sent : List Signal}

theorem Orderly.advance (h : c.Orderly sent) (hadvances : Advances c c') (hflushing : c'.Flushing)
    (hincreasing : c'.waiting.Pairwise (· < ·)) (hpublished : ∀ i ∈ c'.waiting, i < c'.published)
    (hdecodes : ∀ batch, c'.pending = some batch → ∀ e ∈ batch, ∃ payload, decodePayloadWire e.entry.data = .ok payload) :
    c'.Orderly sent :=
  ⟨hflushing, hincreasing, hpublished, hdecodes, fun x hx => (h.standing x hx).advance hadvances h.published, h.same,
    h.later⟩

theorem Orderly.sameBatches (h : c.Orderly sent) (hsame : SameBatches c c') : c'.Orderly sent := by
  have hwaiting : c'.waiting = c.waiting := by
    unfold waiting
    rw [hsame.pending, hsame.buffer]
  refine h.advance ⟨?_, ?_, ?_, ?_, ?_, ?_⟩ (h.flushing.sameBatches hsame) ?_ ?_ ?_
  · exact Nat.le_of_eq hsame.flushCount.symm
  · exact Nat.le_of_eq hsame.sequence.symm
  · exact Nat.le_of_eq hsame.published.symm
  · intro j hj
    rw [hwaiting] at hj
    exact Or.inl hj
  · intro batch hbatch
    exact Or.inl ⟨hsame.pending.trans hbatch, hsame.pendingSeq⟩
  · intro flush _ seq batch hrunning
    rwa [hsame.flushes] at hrunning
  · rw [hwaiting]
    exact h.increasing
  · rw [hwaiting, hsame.published]
    exact h.published
  · rw [hsame.pending]
    exact h.decodes

theorem Orderly.publish (h : c.Orderly sent) (topic : String) (value : V) :
    (c.publish topic value).Orderly sent := by
  have hwaiting : (c.publish topic value).waiting = c.waiting ++ [c.published] := by
    simp [waiting, Client.publish]
  refine h.advance ⟨Nat.le_refl _, Nat.le_refl _, Nat.le_succ _, ?_, ?_, ?_⟩
    { h.flushing with } ?_ ?_ h.decodes
  · intro j hj
    rw [hwaiting] at hj
    rcases List.mem_append.mp hj with hj | hj
    · exact Or.inl hj
    · exact Or.inr (Nat.le_of_eq (List.mem_singleton.mp hj).symm)
  · intro batch hbatch
    exact Or.inl ⟨hbatch, rfl⟩
  · intro flush _ seq batch hrunning
    exact hrunning
  · rw [hwaiting, List.pairwise_append]
    refine ⟨h.increasing, List.pairwise_singleton _ _, ?_⟩
    intro i hi j hj
    rw [List.mem_singleton.mp hj]
    exact h.published i hi
  · intro i hi
    rw [hwaiting] at hi
    rcases List.mem_append.mp hi with hi | hi
    · exact Nat.lt_succ_of_lt (h.published i hi)
    · rw [List.mem_singleton.mp hi]
      exact Nat.lt_succ_self _

theorem encodeBuffer_decodes (hencode : Decodes encode) :
    ∀ {items : List (Item V)} {batch : List Encoded}, encodeBuffer encode items = some batch →
      ∀ e ∈ batch, ∃ payload, decodePayloadWire e.entry.data = .ok payload := by
  intro items
  induction items with
  | nil =>
    intro batch h e he
    cases h
    cases he
  | cons item items ih =>
    intro batch h e he
    simp only [encodeBuffer, List.mapM_cons, Option.bind_eq_bind, Option.pure_def, Option.bind_eq_some_iff,
      Option.map_eq_some_iff] at h
    rcases h with ⟨first, ⟨data, hdata, rfl⟩, rest, hrest, hbatch⟩
    cases hbatch
    rcases List.mem_cons.mp he with rfl | he
    · exact hencode item.value data hdata
    · exact ih hrest e he

theorem flushes_doFlush (c : Client V) (expired : Bool) {flush : Nat} (hlt : flush < c.flushCount) :
    (c.doFlush encode expired).flushes flush = c.flushes flush := by
  have hne : flush ≠ c.flushCount := by omega
  unfold Client.doFlush
  split
  · split <;> simp [Client.startFlush, hne]
  · split
    · simp [Client.startFlush, hne]
    · split <;> simp [Client.startFlush, hne]

/-- What waits stays in order: a batch that is given up, and a buffer that does not encode, only leave it. -/
theorem Orderly.doFlush (h : c.Orderly sent) (hidle : c.currentFlush = none) (expired : Bool)
    (hencode : Decodes encode) :
    (c.doFlush encode expired).Orderly sent := by
  have hflushing : (c.doFlush encode expired).Flushing := h.flushing.doFlush hidle expired
  have hrunning : ∀ flush < c.flushCount, ∀ seq batch,
      (c.doFlush encode expired).flushes flush = some (.running seq batch) →
        c.flushes flush = some (.running seq batch) := by
    intro flush hlt seq batch hrunning
    rwa [flushes_doFlush c expired hlt] at hrunning
  revert hflushing hrunning
  unfold Client.doFlush
  split
  · rename_i batch hpending
    have hwaiting := waiting_some hpending
    have hincreasing := h.increasing
    rw [hwaiting, List.pairwise_append] at hincreasing
    split
    · intro hflushing hrunning
      refine h.advance ⟨Nat.le_succ _, ?_, Nat.le_refl _, ?_, ?_, hrunning⟩ hflushing hincreasing.2.1 ?_ nofun
      · have hseq := h.flushing.seq (by rw [hpending]; nofun)
        show c.sequence ≤ c.pendingSeq
        omega
      · intro j hj
        rw [hwaiting]
        exact Or.inl (List.mem_append_right _ hj)
      · intro batch' hbatch'
        rw [hpending] at hbatch'
        cases hbatch'
        exact Or.inr ⟨Nat.le_refl _, hincreasing.2.2⟩
      · intro i hi
        refine h.published i ?_
        rw [hwaiting]
        exact List.mem_append_right _ hi
    · intro hflushing hrunning
      exact h.advance ⟨Nat.le_succ _, Nat.le_refl _, Nat.le_refl _, fun _ => Or.inl, fun _ hbatch => Or.inl ⟨hbatch, rfl⟩,
        hrunning⟩ hflushing h.increasing h.published h.decodes
  · rename_i hpending
    have hwaiting := waiting_none hpending
    have hnone : ∀ batch, c.pending ≠ some batch := by
      rw [hpending]
      nofun
    split
    · intro hflushing hrunning
      exact h.advance ⟨Nat.le_succ _, Nat.le_refl _, Nat.le_refl _, fun _ => Or.inl, fun _ hbatch => Or.inl ⟨hbatch, rfl⟩,
        hrunning⟩ hflushing h.increasing h.published h.decodes
    · split
      · intro hflushing hrunning
        have hempty : (({ c with buffer := [] } : Client V).startFlush
            (.rejected ⟨.encoding, c.buffer.map Item.index⟩)).waiting = [] := waiting_none hpending
        refine h.advance ⟨Nat.le_succ _, Nat.le_refl _, Nat.le_refl _, ?_, fun batch hbatch => absurd hbatch (hnone batch),
          hrunning⟩ hflushing ?_ ?_ h.decodes
        · rw [hempty]
          nofun
        · rw [hempty]
          exact List.Pairwise.nil
        · rw [hempty]
          nofun
      · rename_i batch hbatch
        intro hflushing hrunning
        have hsame : (({ c with buffer := [], pending := some batch, pendingSeq := c.sequence + 1 } : Client V).startFlush
            (.running (c.sequence + 1) batch)).waiting = c.waiting := by
          rw [hwaiting, ← encodeBuffer_index hbatch]
          exact List.append_nil _
        refine h.advance ⟨Nat.le_succ _, Nat.le_refl _, Nat.le_refl _, ?_, fun batch hbatch => absurd hbatch (hnone batch),
          hrunning⟩ hflushing ?_ ?_ ?_
        · rw [hsame]
          exact fun _ => Or.inl
        · rw [hsame]
          exact h.increasing
        · rw [hsame]
          exact h.published
        · intro batch' hbatch'
          cases hbatch'
          exact encodeBuffer_decodes hencode hbatch

theorem Orderly.signalled (h : c.Orderly sent) (flush : Nat) (ok : Bool) :
    (c.signalled flush ok).Orderly sent := by
  have hflushing := h.flushing.signalled flush ok
  revert hflushing
  unfold Client.signalled
  split
  · rename_i seq batch hrunning
    rcases h.flushing.running flush seq batch hrunning with ⟨_, hpending, hseq⟩
    have hwaiting := waiting_some hpending
    have hincreasing := h.increasing
    rw [hwaiting, List.pairwise_append] at hincreasing
    have hold : ∀ result, (∀ seq batch, result ≠ Flush.running seq batch) → ∀ flush' < c.flushCount, ∀ seq' batch',
        Function.update c.flushes flush (some result) flush' = some (.running seq' batch') →
          c.flushes flush' = some (.running seq' batch') := by
      intro result hresult flush' _ seq' batch' hrunning'
      by_cases heq : flush' = flush
      · subst heq
        rw [Function.update_self] at hrunning'
        cases hrunning'
        exact absurd rfl (hresult seq' batch')
      · rwa [Function.update_of_ne heq] at hrunning'
    split
    · intro hflushing
      refine h.advance ⟨Nat.le_refl _, ?_, Nat.le_refl _, ?_, ?_, ?_⟩ hflushing hincreasing.2.1 ?_ nofun
      · have := h.flushing.seq (by rw [hpending]; nofun)
        show c.sequence ≤ seq
        omega
      · intro j hj
        rw [hwaiting]
        exact Or.inl (List.mem_append_right _ hj)
      · intro batch' hbatch'
        rw [hpending] at hbatch'
        cases hbatch'
        exact Or.inr ⟨Nat.le_of_eq hseq, hincreasing.2.2⟩
      · exact hold .resolved nofun
      · intro i hi
        refine h.published i ?_
        rw [hwaiting]
        exact List.mem_append_right _ hi
    · intro hflushing
      exact h.advance ⟨Nat.le_refl _, Nat.le_refl _, Nat.le_refl _, fun _ => Or.inl, fun _ hbatch => Or.inl ⟨hbatch, rfl⟩,
        hold (.rejected ⟨.signal, []⟩) nofun⟩ hflushing h.increasing h.published h.decodes
  · intro _
    exact h

theorem Orderly.step (h : c.Orderly sent) (e : ClientEvent V)
    (hencode : Decodes encode) :
    (c.step encode e).Orderly sent := by
  rcases step_cases encode c e with hsame | ⟨topic, value, rfl⟩ | ⟨expired, hidle, hsame⟩ | ⟨flush, ok, rfl⟩
  · exact h.sameBatches hsame
  · exact h.publish topic value
  · exact (h.doFlush hidle expired hencode).sameBatches hsame
  · exact h.signalled flush ok

/-- A signal of the pending batch is sent. -/
theorem Orderly.send (h : c.Orderly sent) {x : Signal} (hx : c.Sent x)
    (hpending : c.pending = some x.batch) (hseq : c.pendingSeq = x.seq) : c.Orderly (sent ++ [x]) := by
  have hnext := h.flushing.seq (by rw [hpending]; nofun)
  -- against the others, which are settled before or have the same batch
  have hothers : ∀ y ∈ sent ++ [x], (y.seq = x.seq ∧ y.batch = x.batch) ∨
      (y.seq < x.seq ∧ ∀ i ∈ y.indices, ∀ j ∈ x.indices, i < j) := by
    intro y hy
    rcases List.mem_append.mp hy with hy | hy
    · rcases (h.standing y hy).place with ⟨hle, hbelow⟩ | ⟨hpending', hseq'⟩
      · refine Or.inr ⟨by omega, fun i hi j hj => (hbelow i hi).2 j ?_⟩
        rw [waiting_some hpending]
        exact List.mem_append_left _ hj
      · rw [hpending] at hpending'
        exact Or.inl ⟨by omega, (Option.some.inj hpending').symm⟩
    · rw [List.mem_singleton.mp hy]
      exact Or.inl ⟨rfl, rfl⟩
  refine { h with standing := ?_, same := ?_, later := ?_ }
  · intro y hy
    rcases List.mem_append.mp hy with hy | hy
    · exact h.standing y hy
    · rw [List.mem_singleton.mp hy]
      exact hx
  · intro y hy z hz heq
    rcases List.mem_append.mp hy with hy' | hy'
    · rcases List.mem_append.mp hz with hz' | hz'
      · exact h.same y hy' z hz' heq
      · rw [List.mem_singleton.mp hz'] at heq ⊢
        rcases hothers y hy with ⟨_, hbatch⟩ | ⟨hlt, _⟩
        · exact hbatch
        · omega
    · rw [List.mem_singleton.mp hy'] at heq ⊢
      rcases hothers z hz with ⟨_, hbatch⟩ | ⟨hlt, _⟩
      · exact hbatch.symm
      · omega
  · intro y hy z hz hlt
    rcases List.mem_append.mp hz with hz' | hz'
    · rcases List.mem_append.mp hy with hy' | hy'
      · exact h.later y hy' z hz' hlt
      · rw [List.mem_singleton.mp hy'] at hlt
        rcases hothers z hz with ⟨heq, _⟩ | ⟨hlt', _⟩ <;> omega
    · rw [List.mem_singleton.mp hz'] at hlt ⊢
      rcases hothers y hy with ⟨heq, _⟩ | ⟨_, hbelow⟩
      · omega
      · exact hbelow

end Client
end Publisher

namespace WorkflowStream

variable {s s' : WorkflowStream}

/-! ## The stream -/

theorem exists_pushAll : ∀ (items : List PublishEntry) (s : WorkflowStream),
    (∀ entry ∈ items, ∃ payload, decodePayloadWire entry.data = .ok payload) → ∃ s', s.pushAll items = .ok s' := by
  intro items
  induction items with
  | nil =>
    intro s _
    exact ⟨s, rfl⟩
  | cons entry items ih =>
    intro s h
    rcases h entry List.mem_cons_self with ⟨payload, hdecode⟩
    rcases ih (s.publishToTopic entry.topic payload) fun e he => h e (List.mem_cons_of_mem _ he) with ⟨s', hs'⟩
    refine ⟨s', ?_⟩
    simpa [pushAll, hdecode, Except.map, bind, Except.bind] using hs'

theorem PublisherId.spec (id : PublisherId) : id.1 ≠ "" ∧ id.1 ∉ inheritedMembers := by
  have hnone : ∀ name ∈ "" :: inheritedMembers, isPublisherId name = false := by decide +kernel
  constructor
  · intro heq
    have := hnone "" List.mem_cons_self
    rw [← heq, id.2] at this
    cases this
  · intro hmem
    have := hnone id.1 (List.mem_cons_of_mem _ hmem)
    rw [id.2] at this
    cases this

theorem isDuplicate_iff (id : PublisherId) {seq : Nat} (hpos : 0 < seq) :
    s.isDuplicate id.1 seq = true ↔ ∃ n, s.publisherSequences.get? id.1 = some n ∧ (seq : Int) ≤ n := by
  unfold isDuplicate numberAt
  rw [if_neg (PublisherId.spec id).2]
  cases s.publisherSequences.get? id.1 with
  | none =>
    simp only [decide_eq_true_eq]
    constructor
    · intro h
      omega
    · rintro ⟨n, hn, _⟩
      cases hn
  | some n => simp

theorem onPublish_duplicate {now : Int} {x : Signal} (h : s.isDuplicate x.publisherId.1 x.seq = true) :
    s.onPublish now x.input = .ok s := by
  simp [onPublish, Signal.input, (PublisherId.spec x.publisherId).1, h]

/-- Any other signal is taken whole. -/
theorem onPublish_fresh (now : Int) {x : Signal} (h : s.isDuplicate x.publisherId.1 x.seq = false)
    (hdecodes : ∀ e ∈ x.batch, ∃ payload, decodePayloadWire e.entry.data = .ok payload) :
    ∃ s', s.onPublish now x.input = .ok s' ∧
      s'.log.map LogEntry.topic = s.log.map LogEntry.topic ++ x.origins.map Origin.topic ∧
        s'.baseOffset = s.baseOffset ∧
          ∀ id : PublisherId, s'.publisherSequences.get? id.1 =
            if id = x.publisherId then some (x.seq : Int) else s.publisherSequences.get? id.1 := by
  have hentries : ∀ entry ∈ x.batch.map Publisher.Encoded.entry, ∃ payload, decodePayloadWire entry.data = .ok payload := by
    intro entry hentry
    rcases List.mem_map.mp hentry with ⟨e, he, rfl⟩
    exact hdecodes e he
  rcases exists_pushAll _ { s with
      publisherSequences := s.publisherSequences.assign x.publisherId.1 x.seq
      publisherLastSeen := s.publisherLastSeen.assign x.publisherId.1 now } hentries with ⟨s', hs'⟩
  rcases pushAll_ok _ hs' with ⟨hsequences, hbase, added, hlog, htopics, _⟩
  refine ⟨s', ?_, ?_, hbase, ?_⟩
  · simp only [onPublish, Signal.input, ne_eq, (PublisherId.spec x.publisherId).1, not_false_eq_true, if_true, h]
    exact hs'
  · rw [hlog, List.map_append, htopics]
    simp [Signal.origins, Function.comp_def]
  · intro id
    have hproto : x.publisherId.1 ≠ "__proto__" := by
      intro heq
      exact (PublisherId.spec x.publisherId).2 (by rw [heq]; decide)
    rw [hsequences, JsObject.get?_assign]
    by_cases heq : id = x.publisherId
    · simp [heq, hproto]
    · have hne : id.1 ≠ x.publisherId.1 := fun h => heq (Subtype.ext h)
      simp [heq, hne]

/-- The stream of the next run has the same items, and entries only of publishers that had one. -/
theorem construct_spec {now publisherTtl : Int} (hproto : NoProto s)
    (h : construct (s.getState now publisherTtl) = .ok s') :
    s'.log.map LogEntry.topic = s.log.map LogEntry.topic ∧ s'.baseOffset = s.baseOffset ∧
      ∀ key n, s'.publisherSequences.get? key = some n → s.publisherSequences.get? key = some n := by
  have hlog : ∀ (log : List LogEntry) (log' : List LogEntry),
      (log.map fun entry => (⟨entry.topic, encodePayloadWire entry.payload, 0⟩ : WireItem)).mapM
          (fun item => (decodePayloadWire item.data).map fun payload => (⟨item.topic, payload⟩ : LogEntry)) = .ok log' →
        log'.map LogEntry.topic = log.map LogEntry.topic := by
    intro log
    induction log with
    | nil =>
      intro log' h
      cases h
      rfl
    | cons entry log ih =>
      intro log' h
      rw [List.map_cons, List.mapM_cons] at h
      cases hdecode : decodePayloadWire (encodePayloadWire entry.payload) with
      | error err => simp [hdecode, Except.map, bind, Except.bind] at h
      | ok payload =>
        cases hrest : (log.map fun entry => (⟨entry.topic, encodePayloadWire entry.payload, 0⟩ : WireItem)).mapM
            (fun item => (decodePayloadWire item.data).map fun payload => (⟨item.topic, payload⟩ : LogEntry)) with
        | error err =>
          rw [hrest, hdecode] at h
          cases h
        | ok rest =>
          rw [hrest, hdecode] at h
          cases h
          rw [List.map_cons, List.map_cons, ih rest hrest]
  unfold construct at h
  cases hmap : (s.getState now publisherTtl).log.mapM
      (fun item => (decodePayloadWire item.data).map fun payload => (⟨item.topic, payload⟩ : LogEntry)) with
  | error err =>
    rw [hmap] at h
    cases h
  | ok log =>
    rw [hmap] at h
    cases h
    refine ⟨hlog s.log log hmap, rfl, ?_⟩
    intro key n hget
    have hsame : (s.getState now publisherTtl).publisherSequences.get? key = _ := get?_sequences hproto key
    rw [hsame] at hget
    split at hget
    · exact hget
    · cases hget

end WorkflowStream

namespace Delivery

variable {V : Type} {encode : V → Option (List Char)} {s : Delivery V}

/-! ## The system -/

/-- The signals of a publisher. -/
def sentBy (s : Delivery V) (publisherId : PublisherId) : List Signal :=
  s.sent.filter fun x => x.publisherId = publisherId

def handledSignals (s : Delivery V) : List Signal := s.recorded.take s.handled

def taken (l : List Signal) : List Signal := fresh Signal.publisherId Signal.seq l

def itemsIn (x : Signal) : List (PublisherId × Nat) := x.indices.map fun i => (x.publisherId, i)

structure Kept (s : Delivery V) : Prop where
  clients : ∀ publisherId, (s.clients publisherId).Orderly (s.sentBy publisherId)
  recorded : ∀ x ∈ s.recorded, x ∈ s.sent
  handled : s.handled ≤ s.recorded.length
  proto : s.stream.NoProto
  entries : ∀ (publisherId : PublisherId) n, s.stream.publisherSequences.get? publisherId.1 = some n →
    (∃ x ∈ s.handledSignals, x.publisherId = publisherId ∧ (x.seq : Int) = n) ∧
      ∀ x ∈ s.handledSignals, x.publisherId = publisherId → (x.seq : Int) ≤ n
  items : s.items = (taken s.handledSignals).flatMap itemsIn
  log : s.stream.log.map LogEntry.topic = (s.history.map Origin.topic).drop s.stream.baseOffset
  base : s.stream.baseOffset ≤ s.history.length
  acknowledged : ∀ publisherId, ∀ index ∈ (s.clients publisherId).acknowledged,
    ∃ x ∈ taken s.recorded, (publisherId, index) ∈ itemsIn x

variable {x : Signal}

theorem Kept.sent (h : s.Kept) (hx : x ∈ s.sent) : (s.clients x.publisherId).Sent x := by
  apply (h.clients x.publisherId).standing
  exact List.mem_filter.mpr ⟨hx, by simp⟩

variable {publisherId : PublisherId}

theorem mem_sentBy (hx : x ∈ s.sent) (heq : x.publisherId = publisherId) :
    x ∈ s.sentBy publisherId := List.mem_filter.mpr ⟨hx, by simpa using heq⟩

/-! ### Steps of a publisher -/

theorem signalOf_publisherId (publisherId : PublisherId) (c c' : Publisher.Client V) :
    ∀ x ∈ signalOf publisherId c c', x.publisherId = publisherId := by
  intro x hx
  unfold signalOf at hx
  split at hx
  · rw [List.mem_singleton.mp hx]
  · cases hx

theorem orderly_signalOf {c c' : Publisher.Client V} {sent : List Signal}
    (h : c'.Orderly sent) : c'.Orderly (sent ++ signalOf publisherId c c') := by
  unfold signalOf
  split
  · rename_i seq batch hrunning
    rcases h.flushing.running _ seq batch hrunning with ⟨_, hpending, hseq⟩
    have hincreasing := h.increasing
    rw [Publisher.Client.waiting_some hpending, List.pairwise_append] at hincreasing
    refine h.send ⟨?_, ?_, Or.inr ⟨hpending, hseq⟩, hincreasing.1, ?_, h.decodes batch hpending⟩ hpending hseq
    · have := h.flushing.seq (by rw [hpending]; nofun)
      show 0 < seq
      omega
    · by_contra hge
      have hnone := h.flushing.fresh c.flushCount (Nat.le_of_not_lt hge)
      rw [hrunning] at hnone
      cases hnone
    · intro seq' batch' hrunning'
      have := hrunning.symm.trans hrunning'
      cases this
      rfl
  · rw [List.append_nil]
    exact h

theorem acknowledged_step (encode : V → Option (List Char)) (c : Publisher.Client V) (e : Publisher.ClientEvent V) :
    (c.step encode e).acknowledged = c.acknowledged ∨
      ∃ flush seq batch, e = .signalled flush true ∧ c.flushes flush = some (.running seq batch) ∧
        (c.step encode e).acknowledged = c.acknowledged ++ batch.map Publisher.Encoded.index := by
  rcases Publisher.Client.step_cases encode c e with
    hsame | ⟨topic, value, rfl⟩ | ⟨expired, _, hsame⟩ | ⟨flush, ok, rfl⟩
  · exact Or.inl hsame.acknowledged
  · exact Or.inl rfl
  · refine Or.inl (hsame.acknowledged.trans ?_)
    unfold Publisher.Client.doFlush
    split
    · split <;> rfl
    · split
      · rfl
      · split <;> rfl
  · simp only [Publisher.Client.step, Publisher.Client.signalled]
    split
    · rename_i seq batch hrunning
      cases ok with
      | true => exact Or.inr ⟨flush, seq, batch, rfl, hrunning, rfl⟩
      | false => exact Or.inl rfl
    · exact Or.inl rfl

/-- A publisher that is told of success has the pending batch recorded, and no later one. -/
theorem Kept.taken_of_running (h : s.Kept) {flush seq : Nat}
    {batch : List Publisher.Encoded} (hrunning : (s.clients publisherId).flushes flush = some (.running seq batch))
    (hcan : s.canHappen publisherId (.signalled flush true) = true) :
    ∃ x ∈ taken s.recorded, x.publisherId = publisherId ∧ x.batch = batch := by
  have horderly := h.clients publisherId
  rcases horderly.flushing.running flush seq batch hrunning with ⟨_, hpending, hseq⟩
  have hnext := horderly.flushing.seq (by rw [hpending]; nofun)
  obtain ⟨x, hx, hid, hflush⟩ : ∃ x ∈ s.recorded, x.publisherId = publisherId ∧ x.flush = flush := by
    simpa [canHappen] using hcan
  have hsent : ∀ y ∈ s.recorded, y.publisherId = publisherId → (s.clients publisherId).Sent y := by
    intro y hy hyid
    rw [← hyid]
    exact h.sent (h.recorded y hy)
  have hxseq : x.seq = seq := (hsent x hx hid).running seq batch (by rw [hflush]; exact hrunning)
  have hmax : ∀ y ∈ s.recorded, y.publisherId = publisherId → y.seq ≤ seq := by
    intro y hy hyid
    rcases (hsent y hy hyid).place with ⟨hle, _⟩ | ⟨_, heq⟩ <;> omega
  rcases exists_mem_fresh ⟨x, hx, hid, hxseq⟩ hmax with ⟨y, hy, hyid, hyseq⟩
  refine ⟨y, hy, hyid, ?_⟩
  rcases (hsent y (mem_of_mem_fresh hy) hyid).place with ⟨hle, _⟩ | ⟨hbatch, _⟩
  · omega
  · rw [hpending] at hbatch
    exact (Option.some.inj hbatch).symm

theorem sentBy_append (s : Delivery V) {l : List Signal}
    (hl : ∀ x ∈ l, x.publisherId = publisherId) (publisherId' : PublisherId) :
    (s.sent ++ l).filter (fun x => x.publisherId = publisherId') =
      s.sentBy publisherId' ++ if publisherId' = publisherId then l else [] := by
  rw [List.filter_append, sentBy]
  congr 1
  split
  · rename_i heq
    rw [List.filter_eq_self]
    intro x hx
    simp [hl x hx, heq]
  · rename_i hne
    rw [List.filter_eq_nil_iff]
    intro x hx
    simp [hl x hx, Ne.symm hne]

theorem Kept.stepClient (h : s.Kept) (publisherId : PublisherId) (e : Publisher.ClientEvent V)
    (hencode : Decodes encode) :
    (s.stepClient encode publisherId e).Kept := by
  unfold Delivery.stepClient
  split
  · rename_i hcan
    refine ⟨?_, ?_, h.handled, h.proto, h.entries, h.items, h.log, h.base, ?_⟩
    · intro publisherId'
      have hsent := sentBy_append s
        (signalOf_publisherId publisherId (s.clients publisherId) ((s.clients publisherId).step encode e)) publisherId'
      simp only [sentBy] at hsent ⊢
      rw [hsent]
      by_cases heq : publisherId' = publisherId
      · subst heq
        rw [Function.update_self, if_pos rfl]
        exact orderly_signalOf ((h.clients publisherId').step e hencode)
      · rw [Function.update_of_ne heq, if_neg heq, List.append_nil]
        exact h.clients publisherId'
    · intro x hx
      exact List.mem_append_left _ (h.recorded x hx)
    · intro publisherId' index hindex
      by_cases heq : publisherId' = publisherId
      · subst heq
        simp only [Function.update_self] at hindex
        rcases acknowledged_step encode (s.clients publisherId') e with hsame | ⟨flush, seq, batch, he, hrunning, hack⟩
        · rw [hsame] at hindex
          exact h.acknowledged publisherId' index hindex
        · subst he
          rw [hack] at hindex
          rcases List.mem_append.mp hindex with hindex | hindex
          · exact h.acknowledged publisherId' index hindex
          · rcases h.taken_of_running hrunning hcan with ⟨x, hx, hid, hbatch⟩
            refine ⟨x, hx, List.mem_map.mpr ⟨index, ?_, by rw [hid]⟩⟩
            rw [Signal.indices, hbatch]
            exact hindex
      · simp only [Function.update_of_ne heq] at hindex
        exact h.acknowledged publisherId' index hindex
  · exact h

/-! ### Steps of the server and the workflow -/

theorem Kept.record (h : s.Kept) (hx : x ∈ s.sent) : { s with recorded := s.recorded ++ [x] }.Kept := by
  have htake : (s.recorded ++ [x]).take s.handled = s.handledSignals := List.take_append_of_le_length h.handled
  refine ⟨h.clients, ?_, ?_, h.proto, ?_, ?_, h.log, h.base, ?_⟩
  · intro y hy
    rcases List.mem_append.mp hy with hy | hy
    · exact h.recorded y hy
    · rw [List.mem_singleton.mp hy]
      exact hx
  · simp only [List.length_append]
    exact Nat.le_add_right_of_le h.handled
  · simp only [handledSignals, htake]
    exact h.entries
  · simp only [handledSignals, htake]
    exact h.items
  · intro publisherId index hindex
    rcases h.acknowledged publisherId index hindex with ⟨y, hy, hmem⟩
    exact ⟨y, mem_fresh_append hy, hmem⟩

theorem Kept.duplicate_iff (h : s.Kept) (hx : x ∈ s.sent)
    (htime : (∃ y ∈ s.handledSignals, y.publisherId = x.publisherId ∧ x.seq ≤ y.seq) →
      s.stream.publisherSequences.get? x.publisherId.1 ≠ none) :
    s.stream.isDuplicate x.publisherId.1 x.seq = true ↔
      ¬ Ahead Signal.publisherId Signal.seq s.handledSignals x := by
  rw [WorkflowStream.isDuplicate_iff x.publisherId (h.sent hx).pos]
  constructor
  · rintro ⟨n, hn, hle⟩ hahead
    rcases (h.entries x.publisherId n hn).1 with ⟨y, hy, hid, hseq⟩
    have hlt := hahead y hy hid
    omega
  · intro hnot
    obtain ⟨y, hy, hid, hle⟩ : ∃ y ∈ s.handledSignals, y.publisherId = x.publisherId ∧ x.seq ≤ y.seq := by
      simpa [Ahead] using hnot
    rcases Option.ne_none_iff_exists'.mp (htime ⟨y, hy, hid, hle⟩) with ⟨n, hn⟩
    have hyn := (h.entries x.publisherId n hn).2 y hy hid
    exact ⟨n, hn, by omega⟩

theorem filterMap_origins (x : Signal) : x.origins.filterMap Origin.item = itemsIn x := by
  simp [Signal.origins, itemsIn, Signal.indices, List.filterMap_map, List.map_map, Function.comp_def]

theorem handledSignals_succ (hx : s.recorded[s.handled]? = some x) :
    s.recorded.take (s.handled + 1) = s.handledSignals ++ [x] := by
  rw [List.take_add_one, hx]
  rfl

/-- A duplicate is skipped. -/
theorem Kept.skip (h : s.Kept) (hx : s.recorded[s.handled]? = some x)
    (hdup : s.stream.isDuplicate x.publisherId.1 x.seq = true)
    (hahead : ¬ Ahead Signal.publisherId Signal.seq s.handledSignals x) :
    { s with handled := s.handled + 1 }.Kept := by
  have htake := handledSignals_succ hx
  have hsent := h.sent (h.recorded x (List.mem_of_getElem? hx))
  refine { h with handled := (List.getElem?_eq_some_iff.mp hx).1, entries := ?_, items := ?_ }
  · intro publisherId n hn
    simp only [handledSignals, htake]
    rcases h.entries publisherId n hn with ⟨⟨y, hy, hy'⟩, hmax⟩
    refine ⟨⟨y, List.mem_append_left _ hy, hy'⟩, fun z hz hid => ?_⟩
    rcases List.mem_append.mp hz with hz | hz
    · exact hmax z hz hid
    · rw [List.mem_singleton.mp hz] at hid ⊢
      subst hid
      rcases (WorkflowStream.isDuplicate_iff x.publisherId hsent.pos).mp hdup with ⟨m, hm, hle⟩
      rw [hn] at hm
      cases hm
      exact hle
  · show s.items = (taken (s.recorded.take (s.handled + 1))).flatMap itemsIn
    rw [htake, taken, fresh_append_singleton, if_neg hahead]
    exact h.items

variable {stream : WorkflowStream}

/-- Any other signal adds its items and moves the publisher's entry. -/
theorem Kept.take (h : s.Kept) (hx : s.recorded[s.handled]? = some x)
    (hahead : Ahead Signal.publisherId Signal.seq s.handledSignals x) (hproto : stream.NoProto)
    (hlog : stream.log.map LogEntry.topic = s.stream.log.map LogEntry.topic ++ x.origins.map Origin.topic)
    (hbase : stream.baseOffset = s.stream.baseOffset)
    (hget : ∀ id : PublisherId, stream.publisherSequences.get? id.1 =
      if id = x.publisherId then some (x.seq : Int) else s.stream.publisherSequences.get? id.1) :
    { s with handled := s.handled + 1, stream := stream, history := s.history ++ x.origins }.Kept := by
  have htake := handledSignals_succ hx
  refine ⟨h.clients, h.recorded, (List.getElem?_eq_some_iff.mp hx).1, hproto, ?_, ?_, ?_, ?_, h.acknowledged⟩
  · intro publisherId n hn
    simp only [handledSignals, htake]
    rw [hget] at hn
    split at hn
    · rename_i hid
      cases hn
      refine ⟨⟨x, List.mem_append_right _ (List.mem_singleton_self x), hid.symm, rfl⟩, fun z hz hzid => ?_⟩
      rcases List.mem_append.mp hz with hz | hz
      · have := hahead z hz (hzid.trans hid)
        omega
      · rw [List.mem_singleton.mp hz]
    · rename_i hid
      rcases h.entries publisherId n hn with ⟨⟨y, hy, hy'⟩, hmax⟩
      refine ⟨⟨y, List.mem_append_left _ hy, hy'⟩, fun z hz hzid => ?_⟩
      rcases List.mem_append.mp hz with hz | hz
      · exact hmax z hz hzid
      · rw [List.mem_singleton.mp hz] at hzid
        exact absurd hzid.symm hid
  · show (s.history ++ x.origins).filterMap Origin.item = (taken (s.recorded.take (s.handled + 1))).flatMap itemsIn
    rw [htake, taken, fresh_append_singleton, if_pos hahead, List.filterMap_append, List.flatMap_append,
      filterMap_origins, List.flatMap_singleton]
    exact congrArg (· ++ itemsIn x) h.items
  · show stream.log.map LogEntry.topic = ((s.history ++ x.origins).map Origin.topic).drop stream.baseOffset
    rw [hlog, hbase, h.log, List.map_append, List.drop_append_of_le_length]
    rw [List.length_map]
    exact h.base
  · show stream.baseOffset ≤ (s.history ++ x.origins).length
    rw [hbase, List.length_append]
    exact Nat.le_add_right_of_le h.base

theorem Kept.handle (h : s.Kept) (now : Int) (htime : s.InTime (.handle now)) : (s.handle now).Kept := by
  unfold Delivery.handle
  split
  · exact h
  · rename_i x hx
    have hsent := h.recorded x (List.mem_of_getElem? hx)
    have hduplicate := h.duplicate_iff hsent (htime x hx)
    cases hdup : s.stream.isDuplicate x.publisherId.1 x.seq with
    | true =>
      rw [WorkflowStream.onPublish_duplicate hdup]
      simp only [if_true, List.append_nil]
      exact h.skip hx hdup (hduplicate.mp hdup)
    | false =>
      rcases WorkflowStream.onPublish_fresh now hdup (h.sent hsent).decodes with
        ⟨stream, hstream, hlog, hbase, hget⟩
      have hahead : Ahead Signal.publisherId Signal.seq s.handledSignals x := by
        by_contra hnot
        rw [hduplicate.mpr hnot] at hdup
        cases hdup
      have hproto : stream.NoProto := by
        have hperform := h.proto.perform (.publish now x.input)
        simpa only [WorkflowStream.perform, hstream] using hperform
      rw [hstream]
      exact h.take hx hahead hproto hlog hbase hget

theorem Kept.progress (h : s.Kept) (hlt : s.handled < s.recorded.length) (now : Int) :
    (s.handle now).handled = s.handled + 1 := by
  have hx := List.getElem?_eq_getElem hlt
  have hsent := h.sent (h.recorded _ (List.getElem_mem hlt))
  unfold Delivery.handle
  rw [hx]
  simp only
  cases hdup : s.stream.isDuplicate s.recorded[s.handled].publisherId.1 s.recorded[s.handled].seq with
  | true => rw [WorkflowStream.onPublish_duplicate hdup]
  | false =>
    rcases WorkflowStream.onPublish_fresh now hdup hsent.decodes with ⟨stream, hstream, _⟩
    rw [hstream]

theorem Kept.publishToTopic (h : s.Kept) (topic : String) (payload : Payload) :
    ({ s with stream := s.stream.publishToTopic topic payload, history := s.history ++ [⟨topic, none⟩] } :
      Delivery V).Kept := by
  refine { h with items := ?_, log := ?_, base := ?_ }
  · refine Eq.trans ?_ h.items
    simp [Delivery.items]
  · simp only [WorkflowStream.publishToTopic, List.map_append, h.log]
    rw [List.drop_append_of_le_length]
    · rfl
    · rw [List.length_map]
      exact h.base
  · simp only [WorkflowStream.publishToTopic, List.length_append]
    exact Nat.le_add_right_of_le h.base

theorem Kept.truncate (h : s.Kept) {upToOffset : Int}
    (hstream : s.stream.truncate upToOffset = .ok stream) : { s with stream := stream }.Kept := by
  unfold WorkflowStream.truncate at hstream
  simp only at hstream
  split at hstream
  · cases hstream
    exact h
  · split at hstream
    · cases hstream
    · rename_i hpos hle
      cases hstream
      have hlength : s.stream.log.length = s.history.length - s.stream.baseOffset := by
        have := congrArg List.length h.log
        simpa using this
      refine { h with log := ?_, base := ?_ }
      · simp only [List.map_drop, h.log, List.drop_drop]
        congr 1
        omega
      · simp only
        omega

theorem Kept.continueAsNew (h : s.Kept) {now publisherTtl : Int}
    (hstream : WorkflowStream.construct (s.stream.getState now publisherTtl) = .ok stream) :
    { s with stream := stream }.Kept := by
  rcases WorkflowStream.construct_spec h.proto hstream with ⟨hlog, hbase, hget⟩
  refine { h with proto := h.proto.construct hstream, entries := ?_, log := ?_, base := ?_ }
  · intro publisherId n hn
    exact h.entries publisherId n (hget publisherId.1 n hn)
  · simp only [hlog, hbase]
    exact h.log
  · simp only [hbase]
    exact h.base

theorem Kept.step (h : s.Kept) (e : DeliveryEvent V) (htime : s.InTime e)
    (hencode : Decodes encode) :
    (s.step encode e).Kept := by
  cases e with
  | client publisherId e => exact h.stepClient publisherId e hencode
  | record i =>
    simp only [Delivery.step]
    split
    · rename_i x hx
      exact h.record (List.mem_of_getElem? hx)
    · exact h
  | handle now => exact h.handle now htime
  | publishToTopic topic payload => exact h.publishToTopic topic payload
  | truncate upToOffset =>
    simp only [Delivery.step]
    split
    · rename_i stream hstream
      exact h.truncate hstream
    · exact h
  | continueAsNew now publisherTtl =>
    simp only [Delivery.step]
    split
    · split
      · rename_i stream hstream
        exact h.continueAsNew hstream
      · exact h
    · exact h

theorem kept_init : (init : Delivery V).Kept := by
  refine ⟨?_, nofun, Nat.le_refl _, rfl, nofun, rfl, rfl, Nat.le_refl _, nofun⟩
  intro publisherId
  exact ⟨⟨nofun, nofun, fun _ _ => rfl⟩, List.Pairwise.nil, nofun, nofun, nofun, nofun, nofun⟩

/-! ### What the log has -/

theorem Kept.items_pairwise (h : s.Kept) : s.items.Pairwise fun a b => a.1 = b.1 → a.2 < b.2 := by
  have hsent : ∀ x ∈ taken s.handledSignals, x ∈ s.sent := by
    intro x hx
    exact h.recorded x (List.mem_of_mem_take (mem_of_mem_fresh hx))
  rw [h.items, List.pairwise_flatMap]
  constructor
  · intro x hx
    rw [itemsIn, List.pairwise_map]
    refine (h.sent (hsent x hx)).increasing.imp ?_
    intro i j hlt _
    exact hlt
  · refine (fresh_pairwise s.handledSignals).imp_of_mem ?_
    intro x y hx hy hlt a ha b hb heq
    rcases List.mem_map.mp ha with ⟨i, hi, rfl⟩
    rcases List.mem_map.mp hb with ⟨j, hj, rfl⟩
    have hid : x.publisherId = y.publisherId := heq
    exact (h.clients y.publisherId).later x (mem_sentBy (hsent x hx) hid) y (mem_sentBy (hsent y hy) rfl) (hlt hid)
      i hi j hj

theorem Kept.delivered (h : s.Kept) : s.Delivered := by
  have hpairwise := h.items_pairwise
  have hnodup : s.items.Nodup := by
    refine hpairwise.imp ?_
    rintro a b hlt rfl
    exact Nat.lt_irrefl _ (hlt rfl)
  refine ⟨h.log, ?_, hnodup, ?_, ?_, h.progress⟩
  · have hlength := congrArg List.length h.log
    simp only [List.length_map, List.length_drop] at hlength
    have := h.base
    rw [WorkflowStream.offset]
    omega
  · intro publisherId
    rw [itemsOf, List.pairwise_map]
    refine (hpairwise.filter _).imp_of_mem ?_
    intro a b ha hb hlt
    have ha' : a.1 = publisherId := by simpa using (List.mem_filter.mp ha).2
    have hb' : b.1 = publisherId := by simpa using (List.mem_filter.mp hb).2
    exact hlt (ha'.trans hb'.symm)
  · intro hall publisherId index hindex
    rcases h.acknowledged publisherId index hindex with ⟨x, hx, hmem⟩
    have hin : (publisherId, index) ∈ s.items := by
      rw [h.items, handledSignals, hall, List.take_length]
      exact List.mem_flatMap.mpr ⟨x, hx, hmem⟩
    rw [hnodup.count, if_pos hin]

/-- Whatever becomes of the signals: an item of a publisher is in the log at most once and in order, and once when
its signal was acknowledged and the workflow has handled what was recorded, as long as the workflow knows a
publisher for the time in which its signals may be repeated. -/
theorem published_at_most_once_in_order
    (toPayload : V → Option { payload : Payload // (encodePayloadProto payload).length < maxLength })
    (es : List (DeliveryEvent V)) (htime : Guarded (Delivery.step (encodeValue toPayload)) InTime init es) :
    Throughout (Delivery.step (encodeValue toPayload)) Delivered init es := by
  have hstep : ∀ (s : Delivery V) e, s.InTime e → s.Kept → (s.step (encodeValue toPayload) e).Kept :=
    fun s e htime h => h.step e htime (encodeValue_decodes toPayload)
  exact throughout_of_invariant hstep (fun _ => Kept.delivered) kept_init htime

def firstPublisher : PublisherId := ⟨"0123456789abcdef", by decide +kernel⟩

def secondPublisher : PublisherId := ⟨"fedcba9876543210", by decide +kernel⟩

def sizedPayload : { payload : Payload // (encodePayloadProto payload).length < maxLength } :=
  ⟨jsonPayload, by decide +kernel⟩

/-- A signal that arrives and is reported as an error, its retry, one that is lost, and one after the workflow has
forgotten the publisher. -/
def retriedDelivery : List (DeliveryEvent Unit) :=
  [.client firstPublisher (.publish "a" ()), .client firstPublisher .flush, .client firstPublisher (.check 0),
    .client firstPublisher (.enter (.call 0) false), .record 0, .client firstPublisher (.signalled 0 false),
    .client secondPublisher (.publish "b" ()), .client secondPublisher .wake,
    .client secondPublisher (.enter .flusher false), .client secondPublisher (.signalled 0 false),
    .handle 1000, .client firstPublisher (.resume (.call 0)), .client firstPublisher .flush,
    .client firstPublisher (.check 1), .client firstPublisher (.enter (.call 1) false), .record 2,
    .client firstPublisher (.signalled 1 true), .handle 2000, .client firstPublisher (.resume (.call 1)),
    .client firstPublisher (.check 1), .truncate 1, .continueAsNew 902000 900000,
    .client firstPublisher (.publish "a" ()), .client firstPublisher .flush, .client firstPublisher (.check 2),
    .client firstPublisher (.enter (.call 2) false), .record 3, .client firstPublisher (.signalled 2 true),
    .handle 903000]

theorem retriedDelivery_at_most_once :
    Guarded (Delivery.step (encodeValue fun _ => some sizedPayload)) InTime init retriedDelivery ∧
      (run (Delivery.step (encodeValue fun _ => some sizedPayload)) init retriedDelivery).items =
          [(firstPublisher, 0), (firstPublisher, 1)] ∧
        Throughout (Delivery.step (encodeValue fun _ => some sizedPayload)) Delivered init retriedDelivery := by
  have hguard : Guarded (Delivery.step (encodeValue fun _ => some sizedPayload)) InTime init retriedDelivery := by
    decide +kernel
  exact ⟨hguard, by decide +kernel, published_at_most_once_in_order _ retriedDelivery hguard⟩

end Delivery

end TemporalSdk.Streams
