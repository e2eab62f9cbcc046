import TemporalSdk.Streams.Delivery
import TemporalSdk.Streams.Subscription

/-!
# EndToEnd — from the publishers to the subscribers

Publishers, the signals on their way, the stream of the workflow and any number of subscribers of it: one event is
one of a publisher, of the server, of the workflow or of a subscriber, in any order.

`values` and `own` are for stating properties only: what each publisher has published, with its topic, and what the
workflow has published itself, with its offset.
-/

namespace TemporalSdk.Streams

open Machine WorkflowStream

structure EndToEnd (V S : Type) where
  delivery : Delivery V
  subscriptions : S → Subscription
  values : PublisherId → List (String × V)
  own : List (Nat × LogEntry)
  one_stream : ∀ subscriber, (subscriptions subscriber).stream = delivery.stream

inductive SubscriberEvent
  | poll
  | wake
  | answer
  | lose
  deriving DecidableEq

inductive EndToEndEvent (V S : Type)
  | delivery (e : DeliveryEvent V)
  | detachPollers
  | subscriber (subscriber : S) (e : SubscriberEvent)

def SubscriberEvent.toSubscription : SubscriberEvent → SubscriptionEvent
  | .poll => .poll
  | .wake => .wake
  | .answer => .answer
  | .lose => .lose

/-- What a subscriber sees of an event: what it does to the stream, if anything. -/
def Delivery.seen {V : Type} (s : Delivery V) : DeliveryEvent V → Option SubscriptionEvent
  | .client _ _ | .record _ => none
  | .handle now => (s.recorded[s.handled]?).map fun x => .publish now x.input
  | .publishToTopic topic payload => some (.publishToTopic topic payload)
  | .truncate upToOffset => some (.truncate upToOffset)
  | .continueAsNew now publisherTtl =>
    if s.handled = s.recorded.length then some (.continueAsNew now publisherTtl) else none

def Subscription.see (s : Subscription) (e : Option SubscriptionEvent) : Subscription :=
  e.elim s s.step

/-- Both sides do the same to the stream. -/
theorem Subscription.see_stream {V : Type} (encode : V → Option (List Char)) {d : Delivery V} {s : Subscription}
    (h : s.stream = d.stream) (e : DeliveryEvent V) : (s.see (d.seen e)).stream = (d.step encode e).stream := by
  cases e with
  | client publisherId e =>
    show s.stream = (d.stepClient encode publisherId e).stream
    unfold Delivery.stepClient
    split <;> exact h
  | record i =>
    show s.stream = _
    simp only [Delivery.step]
    split <;> exact h
  | handle now =>
    simp only [Delivery.seen, Delivery.step, Delivery.handle]
    cases hx : d.recorded[d.handled]? with
    | none => exact h
    | some x =>
      simp only [Option.map_some, Subscription.see, Option.elim_some, Subscription.step, h]
      cases d.stream.onPublish now x.input with
      | error err => exact h
      | ok stream => rfl
  | publishToTopic topic payload =>
    show s.stream.publishToTopic topic payload = d.stream.publishToTopic topic payload
    rw [h]
  | truncate upToOffset =>
    simp only [Delivery.seen, Subscription.see, Option.elim_some, Subscription.step, Delivery.step, h]
    cases d.stream.truncate upToOffset with
    | error err => exact h
    | ok stream => rfl
  | continueAsNew now publisherTtl =>
    simp only [Delivery.seen, Delivery.step]
    by_cases hall : d.handled = d.recorded.length
    · rw [if_pos hall, if_pos hall]
      simp only [Subscription.see, Option.elim_some, Subscription.step, h]
      cases WorkflowStream.construct (d.stream.getState now publisherTtl) with
      | error err => exact h
      | ok stream =>
        simp only
        split <;> rfl
    · rw [if_neg hall, if_neg hall]
      exact h

theorem Subscription.step_subscriber (s : Subscription) (e : SubscriberEvent) :
    (s.step e.toSubscription).stream = s.stream ∧ (s.step e.toSubscription).history = s.history := by
  cases e with
  | poll | wake | answer =>
    simp only [SubscriberEvent.toSubscription, Subscription.step]
    split
    · split <;> exact ⟨rfl, rfl⟩
    · exact ⟨rfl, rfl⟩
  | lose =>
    simp only [SubscriberEvent.toSubscription, Subscription.step]
    split <;> exact ⟨rfl, rfl⟩

namespace EndToEnd

variable {V S : Type}

/-- The payload converter: what it makes of a value keeps its metadata on the wire. -/
abbrev ToPayload (V : Type) := V → Option { payload : Payload // payload.Portable }

def sized (toPayload : ToPayload V) (value : V) :
    Option { payload : Payload // (encodePayloadProto payload).length < maxLength } :=
  (toPayload value).map fun payload => ⟨payload.1, payload.2.size⟩

def init (topics : S → List String) (start : S → Int) : EndToEnd V S where
  delivery := .init
  subscriptions subscriber := .init (topics subscriber) (start subscriber)
  values _ := []
  own := []
  one_stream _ := rfl

def publishedAfter (values : List (String × V)) : Publisher.ClientEvent V → List (String × V)
  | .publish topic value => values ++ [(topic, value)]
  | _ => values

def valuesAfter (values : PublisherId → List (String × V)) : DeliveryEvent V → PublisherId → List (String × V)
  | .client publisherId e => Function.update values publisherId (publishedAfter (values publisherId) e)
  | _ => values

def ownAfter (own : List (Nat × LogEntry)) (offset : Nat) : DeliveryEvent V → List (Nat × LogEntry)
  | .publishToTopic topic payload => own ++ [(offset, ⟨topic, payload⟩)]
  | _ => own

def step [DecidableEq S] (toPayload : ToPayload V) (s : EndToEnd V S) : EndToEndEvent V S → EndToEnd V S
  | .delivery e =>
    { delivery := s.delivery.step (encodeValue (sized toPayload)) e
      subscriptions := fun subscriber => (s.subscriptions subscriber).see (s.delivery.seen e)
      values := valuesAfter s.values e
      own := ownAfter s.own s.delivery.stream.offset e
      one_stream := fun subscriber => Subscription.see_stream _ (s.one_stream subscriber) e }
  | .detachPollers =>
    { s with
      delivery := { s.delivery with stream := s.delivery.stream.detachPollers }
      subscriptions := fun subscriber => (s.subscriptions subscriber).step .detachPollers
      one_stream := fun subscriber => congrArg WorkflowStream.detachPollers (s.one_stream subscriber) }
  | .subscriber subscriber e =>
    { s with
      subscriptions := Function.update s.subscriptions subscriber
        ((s.subscriptions subscriber).step e.toSubscription)
      one_stream := by
        intro other
        by_cases heq : other = subscriber
        · subst heq
          rw [Function.update_self, (Subscription.step_subscriber _ e).1]
          exact s.one_stream other
        · rw [Function.update_of_ne heq]
          exact s.one_stream other }

/-- An entry of the log with the topic and the payload, as it comes back from the wire, of what was published. -/
inductive Published (toPayload : ToPayload V) (values : PublisherId → List (String × V)) (own : List (Nat × LogEntry)) :
    Nat → Origin → String → Payload → Prop
  | workflow {offset topic payload} (h : (offset, ⟨topic, payload⟩) ∈ own) :
      Published toPayload values own offset ⟨topic, none⟩ topic payload.normal
  | publisher {offset publisherId index topic value payload}
      (hvalue : (values publisherId)[index]? = some (topic, value)) (hpayload : toPayload value = some payload) :
      Published toPayload values own offset ⟨topic, some (publisherId, index)⟩ topic payload.1.normal

/-- Which items of which publishers a subscriber has yielded, in order. -/
def received (s : EndToEnd V S) (subscriber : S) : List (PublisherId × Nat) :=
  (s.subscriptions subscriber).subscriber.yielded.filterMap
    fun item => (s.delivery.history[item.offset]?).bind Origin.item

/-- What the subscribers get is what was published: unchanged, of each publisher and of the workflow in order and
nothing twice, and, from where a subscriber starts, all of its topics that was acknowledged and was not truncated when
the subscriber went past it. -/
structure Received (toPayload : ToPayload V) (start : S → Int) (s : EndToEnd V S) : Prop where
  genuine : ∀ subscriber, ∀ item ∈ (s.subscriptions subscriber).subscriber.yielded,
    ∃ origin, s.delivery.history[item.offset]? = some origin ∧
      Published toPayload s.values s.own item.offset origin item.topic item.data ∧
        matchesTopics (s.subscriptions subscriber).subscriber.topics item.topic = true
  increasing : ∀ subscriber, (s.subscriptions subscriber).subscriber.yielded.Pairwise fun a b => a.offset < b.offset
  in_order : ∀ subscriber, (s.received subscriber).Pairwise fun a b => a.1 = b.1 → a.2 < b.2
  own_in_order : s.own.Pairwise fun a b => a.1 < b.1
  arrives : s.delivery.handled = s.delivery.recorded.length →
    ∀ subscriber publisherId, ∀ index ∈ (s.delivery.clients publisherId).acknowledged,
      ∃ (offset : Nat) (topic : String) (value : V),
        s.delivery.history[offset]? = some ⟨topic, some (publisherId, index)⟩ ∧
          (s.values publisherId)[index]? = some (topic, value) ∧
            (start subscriber ≤ offset → offset < (s.subscriptions subscriber).position →
              matchesTopics (s.subscriptions subscriber).subscriber.topics topic = true →
                (publisherId, index) ∈ s.received subscriber ∨
                  offset ∈ (s.subscriptions subscriber).missed ∧ offset < s.delivery.stream.baseOffset)

def OwnPortable : DeliveryEvent V → Prop
  | .publishToTopic _ payload => payload.Portable
  | _ => True

instance decidableOwnPortable : ∀ e : DeliveryEvent V, Decidable (OwnPortable e)
  | .publishToTopic _ payload => inferInstanceAs (Decidable payload.Portable)
  | .client _ _ | .record _ | .handle _ | .truncate _ | .continueAsNew _ _ => isTrue trivial

/-- Signals are repeated only while the workflow knows their publisher, the workflow's own payloads keep their
metadata on the wire, and no poll is answered while its offset lies beyond the end of the log. -/
def Regular (s : EndToEnd V S) : EndToEndEvent V S → Prop
  | .delivery e => s.delivery.InTime e ∧ OwnPortable e
  | .detachPollers => True
  | .subscriber subscriber e =>
    e = .answer → ∀ fromOffset ∈ (s.subscriptions subscriber).wokenOffset, fromOffset ≤ s.delivery.stream.offset

instance decidableRegular (s : EndToEnd V S) : ∀ e, Decidable (s.Regular e)
  | .delivery e => inferInstanceAs (Decidable (s.delivery.InTime e ∧ OwnPortable e))
  | .detachPollers => isTrue trivial
  | .subscriber subscriber e =>
    inferInstanceAs (Decidable (e = .answer → ∀ fromOffset ∈ (s.subscriptions subscriber).wokenOffset,
      fromOffset ≤ s.delivery.stream.offset))

/-! ## What the publishers hold -/

/-- The encoded item has the topic and the payload of the value with its index. -/
def Brings (toPayload : ToPayload V) (values : List (String × V)) (e : Publisher.Encoded) : Prop :=
  ∃ value payload, values[e.index]? = some (e.entry.topic, value) ∧ toPayload value = some payload ∧
    e.entry.data = encodePayloadWire payload.1

structure Holds (toPayload : ToPayload V) (values : List (String × V)) (c : Publisher.Client V) : Prop where
  length : values.length = c.published
  buffer : ∀ item ∈ c.buffer, values[item.index]? = some (item.topic, item.value)
  pending : ∀ batch, c.pending = some batch → ∀ e ∈ batch, Brings toPayload values e

variable {toPayload : ToPayload V} {values : List (String × V)} {c c' : Publisher.Client V}

theorem getElem?_append {α : Type} {l : List α} {i : Nat} {a : α} (h : l[i]? = some a) (l' : List α) :
    (l ++ l')[i]? = some a := by
  rw [List.getElem?_append_left (List.getElem?_eq_some_iff.mp h).1]
  exact h

theorem Brings.mono {e : Publisher.Encoded} {values' : List (String × V)} (h : Brings toPayload values e)
    (hvalues : values <+: values') : Brings toPayload values' e := by
  rcases hvalues with ⟨more, rfl⟩
  rcases h with ⟨value, payload, hvalue, hpayload⟩
  exact ⟨value, payload, getElem?_append hvalue more, hpayload⟩

theorem Holds.sameBatches (h : Holds toPayload values c) (hsame : Publisher.Client.SameBatches c c') :
    Holds toPayload values c' := by
  refine ⟨h.length.trans hsame.published.symm, ?_, ?_⟩
  · rw [hsame.buffer]
    exact h.buffer
  · rw [hsame.pending]
    exact h.pending

theorem Holds.publish (h : Holds toPayload values c) (topic : String) (value : V) :
    Holds toPayload (values ++ [(topic, value)]) (c.publish topic value) := by
  refine ⟨?_, ?_, fun batch hbatch e he => (h.pending batch hbatch e he).mono (List.prefix_append _ _)⟩
  · rw [List.length_append, h.length]
    rfl
  · intro item hitem
    rcases List.mem_append.mp hitem with hold | hnew
    · exact getElem?_append (h.buffer item hold) _
    · rw [List.mem_singleton.mp hnew, ← h.length]
      exact List.getElem?_concat_length

theorem brings_encodeBuffer : ∀ {items : List (Publisher.Item V)} {batch : List Publisher.Encoded},
    Publisher.Client.encodeBuffer (encodeValue (sized toPayload)) items = some batch →
    (∀ item ∈ items, values[item.index]? = some (item.topic, item.value)) → ∀ e ∈ batch, Brings toPayload values e := by
  intro items
  induction items with
  | nil =>
    intro batch h _
    cases h
    exact nofun
  | cons item items ih =>
    intro batch h hvalues
    simp only [Publisher.Client.encodeBuffer, List.mapM_cons, Option.bind_eq_bind, Option.bind_eq_some_iff,
      Option.map_eq_some_iff, Option.pure_def, Option.some.injEq] at h
    rcases h with ⟨first, ⟨data, hdata, rfl⟩, rest, hrest, rfl⟩
    simp only [encodeValue, sized, Option.map_map, Option.map_eq_some_iff, Function.comp_apply] at hdata
    rcases hdata with ⟨payload, hpayload, rfl⟩
    intro e he
    rcases List.mem_cons.mp he with rfl | he
    · exact ⟨item.value, payload, hvalues item List.mem_cons_self, hpayload, rfl⟩
    · exact ih hrest (fun item' hitem' => hvalues item' (List.mem_cons_of_mem item hitem')) e he

theorem Holds.doFlush (h : Holds toPayload values c) (expired : Bool) :
    Holds toPayload values (c.doFlush (encodeValue (sized toPayload)) expired) := by
  unfold Publisher.Client.doFlush
  split
  · split
    · exact ⟨h.length, h.buffer, nofun⟩
    · exact ⟨h.length, h.buffer, h.pending⟩
  · split
    · exact ⟨h.length, h.buffer, h.pending⟩
    · split
      · exact ⟨h.length, nofun, h.pending⟩
      · rename_i batch hbatch
        refine ⟨h.length, nofun, ?_⟩
        rintro _ ⟨⟩
        exact brings_encodeBuffer hbatch h.buffer

theorem Holds.signalled (h : Holds toPayload values c) (flush : Nat) (ok : Bool) :
    Holds toPayload values (c.signalled flush ok) := by
  unfold Publisher.Client.signalled
  split
  · split
    · exact ⟨h.length, h.buffer, nofun⟩
    · exact ⟨h.length, h.buffer, h.pending⟩
  · exact h

theorem Holds.step (h : Holds toPayload values c) (e : Publisher.ClientEvent V) :
    Holds toPayload (publishedAfter values e) (c.step (encodeValue (sized toPayload)) e) := by
  cases e with
  | publish topic value => exact h.publish topic value
  | flush => exact h.sameBatches Publisher.Client.sameBatches_flush
  | wake =>
    simp only [Publisher.Client.step]
    split
    · exact ⟨h.length, h.buffer, h.pending⟩
    · exact h
  | enter user expired =>
    simp only [Publisher.Client.step, Publisher.Client.enter]
    split
    · split
      · exact h.sameBatches (Publisher.Client.sameBatches_setOnce user _)
      · exact (h.doFlush expired).sameBatches (Publisher.Client.sameBatches_setOnce user _)
    · exact h
  | resume user => exact h.sameBatches (Publisher.Client.sameBatches_resume user)
  | check k => exact h.sameBatches (Publisher.Client.sameBatches_check k)
  | signalled flush ok => exact h.signalled flush ok

/-- A flush that a step has started sends the pending batch. -/
theorem Holds.signalOf (h : Holds toPayload values c') (hflushing : c'.Flushing) (publisherId : PublisherId) :
    ∀ x ∈ Delivery.signalOf publisherId c c',
      x.publisherId = publisherId ∧ ∀ e ∈ x.batch, Brings toPayload values e := by
  intro x hx
  unfold Delivery.signalOf at hx
  split at hx
  · rename_i seq batch hrunning
    rw [List.mem_singleton.mp hx]
    exact ⟨rfl, h.pending batch (hflushing.running _ seq batch hrunning).2.1⟩
  · cases hx

/-! ## The invariant -/

structure Carried (toPayload : ToPayload V) (start : S → Int) (s : EndToEnd V S) : Prop where
  delivery : s.delivery.Kept
  subscriptions : ∀ subscriber, (s.subscriptions subscriber).Kept (start subscriber)
  holds : ∀ publisherId, Holds toPayload (s.values publisherId) (s.delivery.clients publisherId)
  sent : ∀ x ∈ s.delivery.sent, ∀ e ∈ x.batch, Brings toPayload (s.values x.publisherId) e
  -- What a subscriber could have seen is what came to the log, entry by entry.
  history : ∀ subscriber, List.Forall₂
    (fun origin entry => Published toPayload s.values s.own origin.2 origin.1 entry.topic entry.payload.normal)
    s.delivery.history.zipIdx (s.subscriptions subscriber).history
  own : s.own.Pairwise fun a b => a.1 < b.1
  own_lt : ∀ x ∈ s.own, x.1 < s.delivery.history.length

variable {s : EndToEnd V S} {start : S → Int}

theorem prefix_valuesAfter (values : PublisherId → List (String × V)) (e : DeliveryEvent V)
    (publisherId : PublisherId) : values publisherId <+: valuesAfter values e publisherId := by
  cases e with
  | client publisherId' e =>
    by_cases heq : publisherId = publisherId'
    · subst heq
      rw [valuesAfter, Function.update_self]
      cases e with
      | publish topic value => exact List.prefix_append _ _
      | flush | wake | enter | resume | check | signalled => exact List.prefix_refl _
    · simp [valuesAfter, Function.update_of_ne heq]
  | record | handle | publishToTopic | truncate | continueAsNew => exact List.prefix_refl _

theorem prefix_ownAfter (own : List (Nat × LogEntry)) (offset : Nat) (e : DeliveryEvent V) :
    own <+: ownAfter own offset e := by
  cases e with
  | publishToTopic topic payload => exact List.prefix_append _ _
  | client | record | handle | truncate | continueAsNew => exact List.prefix_refl _

theorem Published.mono {values values' : PublisherId → List (String × V)} {own own' : List (Nat × LogEntry)}
    {offset : Nat} {origin : Origin} {topic : String} {payload : Payload}
    (h : Published toPayload values own offset origin topic payload)
    (hvalues : ∀ publisherId, values publisherId <+: values' publisherId) (hown : own <+: own') :
    Published toPayload values' own' offset origin topic payload := by
  cases h with
  | workflow h => exact .workflow (hown.subset h)
  | publisher hvalue hpayload =>
    rcases hvalues _ with ⟨more, hmore⟩
    refine .publisher ?_ hpayload
    rw [← hmore]
    exact getElem?_append hvalue more

/-- What the stream makes of an encoded item is the payload of its value. -/
theorem Brings.decode {e : Publisher.Encoded} (h : Brings toPayload values e) {payload : Payload}
    (hdecode : decodePayloadWire e.entry.data = .ok payload) :
    payload.Portable ∧ ∃ value original, values[e.index]? = some (e.entry.topic, value) ∧
      toPayload value = some original ∧ payload.normal = original.1.normal := by
  rcases h with ⟨value, original, hvalue, hpayload, hdata⟩
  have hnormal := decodePayloadWire_encodePayloadWire original.2
  rw [← hdata, hdecode] at hnormal
  cases hnormal
  refine ⟨original.2.normal, value, original, hvalue, hpayload, ?_⟩
  have htwice := decodePayloadWire_encodePayloadWire original.2.normal
  rw [encodePayloadWire_normal, ← hdata, hdecode] at htwice
  exact (Except.ok.inj htwice).symm

/-- The entries that a batch adds to the log. -/
def Adds (batch : List Publisher.Encoded) (added : List LogEntry) : Prop :=
  List.Forall₂ (fun e entry => entry.topic = e.entry.topic ∧ decodePayloadWire e.entry.data = .ok entry.payload)
    batch added

theorem pushAll_adds : ∀ (batch : List Publisher.Encoded) {s s' : WorkflowStream},
    s.pushAll (batch.map Publisher.Encoded.entry) = .ok s' → ∃ added, s'.log = s.log ++ added ∧ Adds batch added := by
  intro batch
  induction batch with
  | nil =>
    intro s s' h
    cases h
    exact ⟨[], by rw [List.append_nil], .nil⟩
  | cons e batch ih =>
    intro s s' h
    cases hdecode : decodePayloadWire e.entry.data with
    | error err => simp [pushAll, hdecode, Except.map, bind, Except.bind] at h
    | ok payload =>
      have hrest : (s.publishToTopic e.entry.topic payload).pushAll (batch.map Publisher.Encoded.entry) = .ok s' := by
        simpa [pushAll, hdecode, Except.map, bind, Except.bind] using h
      rcases ih hrest with ⟨added, hlog, hadds⟩
      refine ⟨⟨e.entry.topic, payload⟩ :: added, ?_, .cons ⟨rfl, hdecode⟩ hadds⟩
      rw [hlog]
      simp [publishToTopic]

theorem onPublish_adds {s s' : WorkflowStream} {now : Int} {x : Signal} (h : s.onPublish now x.input = .ok s') :
    ∃ added, s'.log = s.log ++ added ∧ Adds (if s.isDuplicate x.publisherId.1 x.seq then [] else x.batch) added := by
  unfold onPublish at h
  rw [if_pos (show x.input.publisherId ≠ "" from (PublisherId.spec x.publisherId).1)] at h
  by_cases hdup : s.isDuplicate x.publisherId.1 x.seq = true
  · rw [if_pos (show s.isDuplicate x.input.publisherId x.input.sequence = true from hdup)] at h
    cases h
    rw [if_pos hdup]
    exact ⟨[], by rw [List.append_nil], .nil⟩
  · rw [if_neg (show ¬ s.isDuplicate x.input.publisherId x.input.sequence = true from hdup)] at h
    rw [if_neg hdup]
    have hadds := pushAll_adds x.batch h
    exact hadds

theorem Adds.published {x : Signal} {batch : List Publisher.Encoded} {added : List LogEntry} (h : Adds batch added)
    {values : PublisherId → List (String × V)} (own : List (Nat × LogEntry))
    (hbrings : ∀ e ∈ batch, Brings toPayload (values x.publisherId) e) (first : Nat) :
    List.Forall₂
      (fun origin entry => Published toPayload values own origin.2 origin.1 entry.topic entry.payload.normal)
      ((batch.map fun e => (⟨e.entry.topic, some (x.publisherId, e.index)⟩ : Origin)).zipIdx first) added := by
  induction h generalizing first with
  | nil => exact .nil
  | @cons e entry batch added hentry _ ih =>
    refine .cons ?_ (ih (fun e' he' => hbrings e' (List.mem_cons_of_mem e he')) (first + 1))
    rcases ((hbrings e List.mem_cons_self).decode hentry.2).2 with ⟨value, original, hvalue, hpayload, hnormal⟩
    rw [hentry.1, hnormal]
    exact .publisher hvalue hpayload

/-- A signal that was sent has entries that the stream can decode, to payloads that keep their metadata. -/
theorem Carried.portable (h : s.Carried toPayload start) {x : Signal} (hx : x ∈ s.delivery.sent) :
    ∀ entry ∈ x.input.items, ∀ payload ∈ (decodePayloadWire entry.data).toOption, payload.Portable := by
  intro entry hentry payload hpayload
  rcases List.mem_map.mp hentry with ⟨e, he, rfl⟩
  refine ((h.sent x hx e he).decode ?_).1
  cases hdecode : decodePayloadWire e.entry.data with
  | error err =>
    rw [hdecode] at hpayload
    cases hpayload
  | ok payload' =>
    rw [hdecode] at hpayload
    cases hpayload
    rfl

theorem length_history_le (d : Delivery V) (encode : V → Option (List Char)) (e : DeliveryEvent V) :
    d.history.length ≤ (d.step encode e).history.length := by
  cases e with
  | publishToTopic => simp [Delivery.step]
  | handle =>
    simp only [Delivery.step, Delivery.handle]
    split
    · exact Nat.le_refl _
    · split <;> simp
  | client | record | truncate =>
    simp only [Delivery.step, Delivery.stepClient]
    split <;> exact Nat.le_refl _
  | continueAsNew =>
    simp only [Delivery.step]
    split
    · split <;> exact Nat.le_refl _
    · exact Nat.le_refl _

theorem Carried.own_step (h : s.Carried toPayload start) (encode : V → Option (List Char)) (e : DeliveryEvent V) :
    ((ownAfter s.own s.delivery.stream.offset e).Pairwise fun a b => a.1 < b.1) ∧
      ∀ x ∈ ownAfter s.own s.delivery.stream.offset e, x.1 < (s.delivery.step encode e).history.length := by
  have hlt := fun x hx => Nat.lt_of_lt_of_le (h.own_lt x hx) (length_history_le s.delivery encode e)
  cases e with
  | publishToTopic topic payload =>
    rw [ownAfter, h.delivery.delivered.offset]
    refine ⟨List.pairwise_append.mpr ⟨h.own, List.pairwise_singleton _ _, ?_⟩, ?_⟩
    · intro x hx y hy
      rw [List.mem_singleton.mp hy]
      exact h.own_lt x hx
    · intro x hx
      rcases List.mem_append.mp hx with hx | hx
      · exact hlt x hx
      · rw [List.mem_singleton.mp hx]
        simp [Delivery.step]
  | client | record | handle | truncate | continueAsNew => exact ⟨h.own, hlt⟩

theorem see_kept {d : Delivery V} {sub : Subscription} {first : Int} (h : sub.Kept first) (e : DeliveryEvent V)
    (he : ∀ e' ∈ d.seen e, sub.Tame e') : (sub.see (d.seen e)).Kept first := by
  cases hseen : d.seen e with
  | none => exact h
  | some e' => exact h.step e' (he e' hseen)

theorem Carried.tame (h : s.Carried toPayload start) (e : DeliveryEvent V)
    (hown : OwnPortable e) (subscriber : S) :
    ∀ e' ∈ s.delivery.seen e, (s.subscriptions subscriber).Tame e' := by
  intro e' he'
  cases e with
  | client | record => cases he'
  | handle now =>
    rcases Option.map_eq_some_iff.mp he' with ⟨x, hx, rfl⟩
    exact h.portable (h.delivery.recorded x (List.mem_of_getElem? hx))
  | publishToTopic topic payload =>
    cases he'
    exact hown
  | truncate =>
    cases he'
    trivial
  | continueAsNew now publisherTtl =>
    simp only [Delivery.seen] at he'
    split at he'
    · cases he'
      trivial
    · cases he'

/-- What an event brings to the log, the subscribers see. -/
theorem Carried.history_step (h : s.Carried toPayload start) (e : DeliveryEvent V) (subscriber : S) :
    List.Forall₂
      (fun origin entry =>
        Published toPayload (valuesAfter s.values e) (ownAfter s.own s.delivery.stream.offset e) origin.2 origin.1
          entry.topic entry.payload.normal)
      (s.delivery.step (encodeValue (sized toPayload)) e).history.zipIdx
      ((s.subscriptions subscriber).see (s.delivery.seen e)).history := by
  have hold := (h.history subscriber).imp fun origin entry (hpublished : Published _ _ _ _ _ _ _) =>
    hpublished.mono (prefix_valuesAfter s.values e) (prefix_ownAfter s.own s.delivery.stream.offset e)
  have hstream := s.one_stream subscriber
  cases e with
  | client publisherId e =>
    simp only [Delivery.step, Delivery.stepClient]
    split <;> exact hold
  | record i =>
    simp only [Delivery.step]
    split <;> exact hold
  | handle now =>
    simp only [Delivery.seen, Delivery.step, Delivery.handle]
    cases hx : s.delivery.recorded[s.delivery.handled]? with
    | none => exact hold
    | some x =>
      simp only [Option.map_some, Subscription.see, Option.elim_some, Subscription.step, hstream]
      cases hpublish : s.delivery.stream.onPublish now x.input with
      | error err => exact hold
      | ok stream =>
        rcases onPublish_adds hpublish with ⟨added, hlog, hadds⟩
        have hnew : stream.log.drop (s.subscriptions subscriber).stream.log.length = added := by
          rw [hlog, hstream, List.drop_left]
        simp only [Subscription.withStream, hnew, List.zipIdx_append]
        refine List.rel_append hold ?_
        have hbrings := h.sent x (h.delivery.recorded x (List.mem_of_getElem? hx))
        split at hadds
        · rename_i hdup
          rw [if_pos hdup]
          cases hadds
          exact .nil
        · rename_i hdup
          rw [if_neg hdup]
          exact hadds.published s.own hbrings _
  | publishToTopic topic payload =>
    have hnew : ((s.subscriptions subscriber).stream.publishToTopic topic payload).log.drop
        (s.subscriptions subscriber).stream.log.length = [⟨topic, payload⟩] := List.drop_left
    show List.Forall₂ _ (s.delivery.history ++ [(⟨topic, none⟩ : Origin)]).zipIdx (_ ++ _)
    rw [hnew, List.zipIdx_append, Nat.zero_add, ← h.delivery.delivered.offset]
    refine List.rel_append hold (.cons (.workflow ?_) .nil)
    exact List.mem_append_right _ List.mem_cons_self
  | truncate upToOffset =>
    simp only [Delivery.seen, Subscription.see, Option.elim_some, Subscription.step, Delivery.step, hstream]
    cases s.delivery.stream.truncate upToOffset <;> exact hold
  | continueAsNew now publisherTtl =>
    simp only [Delivery.seen, Delivery.step]
    by_cases hall : s.delivery.handled = s.delivery.recorded.length
    · rw [if_pos hall, if_pos hall]
      simp only [Subscription.see, Option.elim_some, Subscription.step, hstream]
      cases WorkflowStream.construct (s.delivery.stream.getState now publisherTtl) with
      | error err => exact hold
      | ok stream =>
        simp only
        split <;> exact hold
    · rw [if_neg hall, if_neg hall]
      exact hold

/-- Only the publishers change what they hold and send. -/
theorem step_other (d : Delivery V) (encode : V → Option (List Char)) (values : PublisherId → List (String × V))
    (e : DeliveryEvent V) (he : ¬ ∃ publisherId e', e = .client publisherId e') :
    (d.step encode e).clients = d.clients ∧ (d.step encode e).sent = d.sent ∧ valuesAfter values e = values := by
  cases e with
  | client publisherId e' => exact absurd ⟨publisherId, e', rfl⟩ he
  | publishToTopic topic payload => exact ⟨rfl, rfl, rfl⟩
  | record i =>
    simp only [Delivery.step]
    split <;> exact ⟨rfl, rfl, rfl⟩
  | handle now =>
    simp only [Delivery.step, Delivery.handle]
    split
    · exact ⟨rfl, rfl, rfl⟩
    · split <;> exact ⟨rfl, rfl, rfl⟩
  | truncate upToOffset =>
    simp only [Delivery.step]
    split <;> exact ⟨rfl, rfl, rfl⟩
  | continueAsNew now publisherTtl =>
    simp only [Delivery.step]
    split
    · split <;> exact ⟨rfl, rfl, rfl⟩
    · exact ⟨rfl, rfl, rfl⟩

theorem Carried.holds_client (h : s.Carried toPayload start) (publisherId : PublisherId) (e : Publisher.ClientEvent V)
    (other : PublisherId) :
    Holds toPayload (valuesAfter s.values (.client publisherId e) other)
      ((s.delivery.stepClient (encodeValue (sized toPayload)) publisherId e).clients other) := by
  unfold Delivery.stepClient
  by_cases heq : other = publisherId
  · subst heq
    rw [valuesAfter, Function.update_self]
    split
    · simp only [Function.update_self]
      exact (h.holds other).step e
    · rename_i hcan
      -- only a signal can be held back, and that publishes nothing
      cases e with
      | signalled => exact h.holds other
      | publish | flush | wake | enter | resume | check => exact absurd rfl hcan
  · rw [valuesAfter, Function.update_of_ne heq]
    split
    · simp only [Function.update_of_ne heq]
      exact h.holds other
    · exact h.holds other

/-- Whatever a publisher does, what it holds and sends brings values of its own. -/
theorem Carried.client (h : s.Carried toPayload start) (publisherId : PublisherId) (e : Publisher.ClientEvent V) :
    ∀ x ∈ (s.delivery.stepClient (encodeValue (sized toPayload)) publisherId e).sent, ∀ e' ∈ x.batch,
      Brings toPayload (valuesAfter s.values (.client publisherId e) x.publisherId) e' := by
  have hold : ∀ x ∈ s.delivery.sent, ∀ e' ∈ x.batch,
      Brings toPayload (valuesAfter s.values (.client publisherId e) x.publisherId) e' :=
    fun x hx e' he' => (h.sent x hx e' he').mono (prefix_valuesAfter s.values _ x.publisherId)
  have hholds := h.holds_client publisherId e publisherId
  unfold Delivery.stepClient at hholds ⊢
  split
  · rename_i hcan
    simp only [if_pos hcan, Function.update_self] at hholds
    intro x hx
    rcases List.mem_append.mp hx with hx | hx
    · exact hold x hx
    · have hstep := (h.delivery.clients publisherId).step e (encodeValue_decodes (sized toPayload))
      rcases hholds.signalOf hstep.flushing publisherId x hx with ⟨hid, hbrings⟩
      rw [hid]
      exact hbrings
  · exact hold

theorem Carried.publishers (h : s.Carried toPayload start) (e : DeliveryEvent V) :
    (∀ publisherId, Holds toPayload (valuesAfter s.values e publisherId)
      ((s.delivery.step (encodeValue (sized toPayload)) e).clients publisherId)) ∧
      ∀ x ∈ (s.delivery.step (encodeValue (sized toPayload)) e).sent, ∀ e' ∈ x.batch,
        Brings toPayload (valuesAfter s.values e x.publisherId) e' := by
  by_cases he : ∃ publisherId e', e = .client publisherId e'
  · rcases he with ⟨publisherId, e', rfl⟩
    exact ⟨h.holds_client publisherId e', h.client publisherId e'⟩
  · rcases step_other s.delivery (encodeValue (sized toPayload)) s.values e he with ⟨hclients, hsent, hvalues⟩
    rw [hclients, hsent, hvalues]
    exact ⟨h.holds, h.sent⟩

theorem Carried.detachPollers (h : s.Carried toPayload start) [DecidableEq S] :
    (s.step toPayload .detachPollers).Carried toPayload start where
  delivery := { h.delivery with }
  subscriptions subscriber := (h.subscriptions subscriber).step .detachPollers trivial
  holds := h.holds
  sent := h.sent
  history := h.history
  own := h.own
  own_lt := h.own_lt

theorem Carried.subscriber [DecidableEq S] (h : s.Carried toPayload start) (subscriber : S) (e : SubscriberEvent)
    (he : e = .answer → ∀ fromOffset ∈ (s.subscriptions subscriber).wokenOffset,
      fromOffset ≤ s.delivery.stream.offset) :
    (s.step toPayload (.subscriber subscriber e)).Carried toPayload start := by
  refine ⟨h.delivery, ?_, h.holds, h.sent, ?_, h.own, h.own_lt⟩
  · intro other
    simp only [EndToEnd.step]
    by_cases heq : other = subscriber
    · subst heq
      rw [Function.update_self]
      refine (h.subscriptions other).step e.toSubscription ?_
      cases e with
      | poll | wake | lose => trivial
      | answer =>
        intro fromOffset hwoken
        rw [s.one_stream other]
        exact he rfl fromOffset hwoken
    · rw [Function.update_of_ne heq]
      exact h.subscriptions other
  · intro other
    simp only [EndToEnd.step]
    by_cases heq : other = subscriber
    · subst heq
      rw [Function.update_self, (Subscription.step_subscriber _ e).2]
      exact h.history other
    · rw [Function.update_of_ne heq]
      exact h.history other

theorem Carried.step [DecidableEq S] (h : s.Carried toPayload start) (e : EndToEndEvent V S) (he : s.Regular e) :
    (s.step toPayload e).Carried toPayload start := by
  cases e with
  | delivery e =>
    exact
      { delivery := h.delivery.step e he.1 (encodeValue_decodes (sized toPayload))
        subscriptions := fun subscriber => see_kept (h.subscriptions subscriber) e (h.tame e he.2 subscriber)
        holds := (h.publishers e).1
        sent := (h.publishers e).2
        history := h.history_step e
        own := (h.own_step (encodeValue (sized toPayload)) e).1
        own_lt := (h.own_step _ e).2 }
  | detachPollers => exact h.detachPollers
  | subscriber subscriber e => exact h.subscriber subscriber e he

theorem carried_init (toPayload : ToPayload V) (topics : S → List String) (start : S → Int) :
    (init topics start : EndToEnd V S).Carried toPayload start where
  delivery := Delivery.kept_init
  subscriptions subscriber := Subscription.kept_init (topics subscriber) (start subscriber)
  holds _ := ⟨rfl, nofun, nofun⟩
  sent := nofun
  history _ := .nil
  own := .nil
  own_lt := nofun

/-! ## What the subscribers get -/

theorem Carried.entry (h : s.Carried toPayload start) (subscriber : S) {offset : Nat} {entry : LogEntry}
    (hget : (s.subscriptions subscriber).history[offset]? = some entry) :
    ∃ origin, s.delivery.history[offset]? = some origin ∧
      Published toPayload s.values s.own offset origin entry.topic entry.payload.normal := by
  have hlt := (List.getElem?_eq_some_iff.mp hget).1
  have hlt' := hlt
  rw [← (h.history subscriber).length_eq] at hlt'
  have hpublished := (h.history subscriber).get hlt' hlt
  rw [List.length_zipIdx] at hlt'
  refine ⟨s.delivery.history[offset], List.getElem?_eq_getElem hlt', ?_⟩
  simp only [List.get_eq_getElem, List.getElem_zipIdx, Nat.zero_add] at hpublished
  rw [List.getElem?_eq_getElem hlt, Option.some.injEq] at hget
  rwa [hget] at hpublished

/-- The items of the log that are not the workflow's, in the order of their offsets. -/
theorem Carried.items_pairwise (h : s.Carried toPayload start) {i j : Nat} (hlt : i < j) {a b : PublisherId × Nat}
    (ha : (s.delivery.history[i]?).bind Origin.item = some a)
    (hb : (s.delivery.history[j]?).bind Origin.item = some b) (hid : a.1 = b.1) : a.2 < b.2 := by
  rcases Option.bind_eq_some_iff.mp ha with ⟨x, hx, hxa⟩
  rcases Option.bind_eq_some_iff.mp hb with ⟨y, hy, hyb⟩
  have hpairwise := h.delivery.items_pairwise
  rw [Delivery.items, List.pairwise_filterMap] at hpairwise
  rw [List.pairwise_iff_getElem] at hpairwise
  rcases List.getElem?_eq_some_iff.mp hx with ⟨hi, rfl⟩
  rcases List.getElem?_eq_some_iff.mp hy with ⟨hj, rfl⟩
  exact hpairwise i j hi hj hlt a hxa b hyb hid

/-- An acknowledged item has an offset, under the topic that its value was published with. -/
theorem Carried.acknowledged (h : s.Carried toPayload start)
    (hall : s.delivery.handled = s.delivery.recorded.length) (subscriber : S) {publisherId : PublisherId} {index : Nat}
    (hindex : index ∈ (s.delivery.clients publisherId).acknowledged) :
    ∃ (offset : Nat) (entry : LogEntry) (value : V),
      s.delivery.history[offset]? = some ⟨entry.topic, some (publisherId, index)⟩ ∧
        (s.subscriptions subscriber).history[offset]? = some entry ∧
          (s.values publisherId)[index]? = some (entry.topic, value) := by
  have hmem : (publisherId, index) ∈ s.delivery.items := by
    rw [← List.count_pos_iff, h.delivery.delivered.acknowledged hall publisherId index hindex]
    exact Nat.one_pos
  rcases List.mem_filterMap.mp hmem with ⟨origin, horigin, hitem⟩
  rcases List.getElem?_of_mem horigin with ⟨offset, hget⟩
  have hlt : offset < (s.subscriptions subscriber).history.length := by
    rw [← (h.history subscriber).length_eq, List.length_zipIdx]
    exact (List.getElem?_eq_some_iff.mp hget).1
  have hentry := List.getElem?_eq_getElem hlt
  rcases h.entry subscriber hentry with ⟨origin', hget', hpublished⟩
  rw [hget, Option.some.injEq] at hget'
  subst hget'
  generalize (s.subscriptions subscriber).history[offset] = entry at hentry hpublished
  rcases origin with ⟨topic, item⟩
  cases hitem
  generalize htopic : entry.topic = topic' at hpublished
  generalize entry.payload.normal = payload at hpublished
  cases hpublished with
  | publisher hvalue _ =>
    subst htopic
    exact ⟨offset, entry, _, hget, hentry, hvalue⟩

theorem Carried.received (h : s.Carried toPayload start) : s.Received toPayload start := by
  refine ⟨?_, fun subscriber => (h.subscriptions subscriber).increasing, ?_, h.own, ?_⟩
  · intro subscriber item hitem
    rcases (h.subscriptions subscriber).published item hitem with ⟨-, -, entry, hget, htopic, hdata, hmatch⟩
    rcases h.entry subscriber hget with ⟨origin, horigin, hpublished⟩
    rw [htopic, hdata]
    exact ⟨origin, horigin, hpublished, hmatch⟩
  · intro subscriber
    rw [EndToEnd.received, List.pairwise_filterMap]
    refine (h.subscriptions subscriber).increasing.imp ?_
    intro first second hlt a ha b hb hid
    exact h.items_pairwise hlt ha hb hid
  · intro hall subscriber publisherId index hindex
    rcases h.acknowledged hall subscriber hindex with ⟨offset, entry, value, horigin, hget, hvalue⟩
    refine ⟨offset, entry.topic, value, horigin, hvalue, fun hstart hlt hmatch => ?_⟩
    rcases (h.subscriptions subscriber).complete offset entry hstart hlt hget hmatch with
      ⟨item, hitem, rfl⟩ | hmissed
    · left
      refine List.mem_filterMap.mpr ⟨item, hitem, ?_⟩
      rw [horigin]
      rfl
    · rw [← s.one_stream subscriber]
      exact .inr ⟨hmissed, ((h.subscriptions subscriber).truncated offset hmissed).2.1⟩

/-- Whatever becomes of the signals and of the polls, and however publishers, server, workflow and subscribers take
their turns. -/
theorem published_to_subscribers [DecidableEq S] (toPayload : ToPayload V) (topics : S → List String) (start : S → Int)
    (es : List (EndToEndEvent V S)) (hregular : Guarded (EndToEnd.step toPayload) Regular (init topics start) es) :
    Throughout (EndToEnd.step toPayload) (Received toPayload start) (init topics start) es :=
  throughout_of_invariant (fun _ e he hs => Carried.step hs e he) (fun _ hs => Carried.received hs)
    (carried_init toPayload topics start) hregular

def portablePayload : { payload : Payload // payload.Portable } := ⟨jsonPayload, by decide +kernel⟩

/-- A signal that arrives although it is reported as an error, its retry, and two subscribers, one of which starts
over after a truncation. -/
def retriedRun : List (EndToEndEvent Unit Bool) :=
  [.subscriber true .poll, .delivery (.client Delivery.firstPublisher (.publish "a" ())),
    .delivery (.client Delivery.firstPublisher .flush), .delivery (.client Delivery.firstPublisher (.check 0)),
    .delivery (.client Delivery.firstPublisher (.enter (.call 0) false)), .delivery (.record 0),
    .delivery (.client Delivery.firstPublisher (.signalled 0 false)), .delivery (.handle 1000), .subscriber true .wake,
    .delivery (.client Delivery.firstPublisher (.resume (.call 0))), .delivery (.client Delivery.firstPublisher .flush),
    .delivery (.client Delivery.firstPublisher (.check 1)),
    .delivery (.client Delivery.firstPublisher (.enter (.call 1) false)), .delivery (.record 1),
    .delivery (.client Delivery.firstPublisher (.signalled 1 true)), .delivery (.handle 2000),
    .subscriber true .answer, .delivery (.publishToTopic "b" portablePayload.1), .delivery (.truncate 1),
    .subscriber false .poll, .subscriber false .wake, .subscriber false .answer]

theorem retriedRun_received :
    ((run (EndToEnd.step fun _ => some portablePayload) (init (fun _ => []) fun _ => 0) retriedRun).received true) =
        [(Delivery.firstPublisher, 0)] ∧
      Throughout (EndToEnd.step fun _ => some portablePayload) (Received (fun _ => some portablePayload) fun _ => 0)
        (init (fun _ => []) fun _ => 0) retriedRun := by
  exact ⟨by decide +kernel, published_to_subscribers _ (fun _ => []) (fun _ => 0) retriedRun (by decide +kernel)⟩

end EndToEnd

end TemporalSdk.Streams
