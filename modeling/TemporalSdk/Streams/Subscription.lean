import TemporalSdk.Machine.Run
import TemporalSdk.Streams.ContinueAsNew

/-!
# Subscription — what `subscribe` yields

A subscriber polls from its offset, takes what the poll returns and goes on from the returned offset.  It starts
over from offset 0, which stands for the first item there is, when its offset has been truncated.  Meanwhile
items are published and truncated, and the workflow drains and continues as new.
-/

namespace TemporalSdk.Streams

open Machine WorkflowStream

structure StreamItem where
  topic : String
  data : Payload
  offset : Nat
  deriving DecidableEq

inductive SubscriberPhase
  | idle
  -- `woken` once the poll's condition has held.
  | polling (fromOffset : Int) (woken : Bool)
  -- An item could not be decoded.
  | failed
  deriving DecidableEq

structure Subscriber where
  topics : List String
  offset : Int
  phase : SubscriberPhase
  yielded : List StreamItem
  deriving DecidableEq

/-- `history` has all items that were ever in the log, `position` is the offset up to which the subscriber has
got, and `missed` are the offsets that it went past because they had been truncated. -/
structure Subscription where
  stream : WorkflowStream
  subscriber : Subscriber
  history : List LogEntry
  position : Nat
  missed : List Nat
  deriving DecidableEq

inductive SubscriptionEvent
  | publish (now : Int) (input : PublishInput)
  | publishToTopic (topic : String) (payload : Payload)
  | truncate (upToOffset : Int)
  | detachPollers
  | continueAsNew (now publisherTtl : Int)
  -- The subscriber sends a poll.
  | poll
  | wake
  | answer
  -- The result of a poll does not get through.
  | lose

/-- The items up to one that cannot be decoded, and whether there is none. -/
def yieldAll : List WireItem → List StreamItem × Bool
  | [] => ([], true)
  | item :: items =>
    match decodePayloadWire item.data with
    | .error _ => ([], false)
    | .ok payload =>
      let (rest, complete) := yieldAll items
      (⟨item.topic, payload, item.offset⟩ :: rest, complete)

namespace Subscription

def init (topics : List String) (fromOffset : Int) : Subscription :=
  ⟨.init, ⟨topics, fromOffset, .idle, []⟩, [], fromOffset.toNat, []⟩

/-- Another stream, the items that are new in it at the end of the history. -/
def withStream (s : Subscription) (stream : WorkflowStream) : Subscription :=
  { s with stream := stream, history := s.history ++ stream.log.drop s.stream.log.length }

def pollInput (s : Subscription) (fromOffset : Int) : PollInput := ⟨s.subscriber.topics, fromOffset⟩

/-- `offset = 0` for `TruncatedOffset`, and the same offset for `StreamDraining`. -/
def onFailure (s : Subscription) (failure : ApplicationFailure) : Subscription :=
  { s with
    subscriber.offset := if failure.type = "TruncatedOffset" then 0 else s.subscriber.offset
    subscriber.phase := .idle }

def onResult (s : Subscription) (result : PollResult) : Subscription :=
  let (items, complete) := yieldAll result.items
  { s with
    subscriber.offset := result.nextOffset
    subscriber.phase := if complete then .idle else .failed
    subscriber.yielded := s.subscriber.yielded ++ items
    position := result.nextOffset
    missed := s.missed ++ List.range' s.position (s.stream.baseOffset - s.position) }

def step (s : Subscription) : SubscriptionEvent → Subscription
  | .publish now input =>
    match s.stream.onPublish now input with
    | .ok stream => s.withStream stream
    | .error _ => s
  | .publishToTopic topic payload => s.withStream (s.stream.publishToTopic topic payload)
  | .truncate upToOffset =>
    match s.stream.truncate upToOffset with
    | .ok stream => { s with stream := stream }
    | .error _ => s
  | .detachPollers => { s with stream := s.stream.detachPollers }
  | .continueAsNew now publisherTtl =>
    match construct (s.stream.getState now publisherTtl) with
    | .error _ => s
    | .ok stream =>
      match s.subscriber.phase with
      | .polling _ _ => { s with stream := stream, subscriber.phase := .idle }
      | _ => { s with stream := stream }
  | .poll =>
    match s.subscriber.phase with
    | .idle =>
      match s.stream.pollRejection (s.pollInput s.subscriber.offset) with
      | some failure => s.onFailure failure
      | none => { s with subscriber.phase := .polling s.subscriber.offset false }
    | _ => s
  | .wake =>
    match s.subscriber.phase with
    | .polling fromOffset _ =>
      if s.stream.pollReady (s.pollInput fromOffset) then
        { s with subscriber.phase := .polling fromOffset true }
      else s
    | _ => s
  | .answer =>
    match s.subscriber.phase with
    | .polling fromOffset true =>
      match s.stream.pollAnswer (s.pollInput fromOffset) with
      | .error failure => s.onFailure failure
      | .ok result => s.onResult result
    | _ => s
  | .lose =>
    match s.subscriber.phase with
    | .polling _ _ => { s with subscriber.phase := .idle }
    | _ => s

/-- What is yielded is what was published, in order, and nothing is left out that could have been yielded. -/
structure Correct (start : Int) (s : Subscription) : Prop where
  increasing : s.subscriber.yielded.Pairwise fun a b => a.offset < b.offset
  published : ∀ item ∈ s.subscriber.yielded, start ≤ item.offset ∧
    ∃ entry, s.history[item.offset]? = some entry ∧ item.topic = entry.topic ∧
      item.data = entry.payload.normal ∧ matchesTopics s.subscriber.topics entry.topic = true
  complete : ∀ (offset : Nat) entry, start ≤ offset → offset < s.position → s.history[offset]? = some entry →
    matchesTopics s.subscriber.topics entry.topic = true →
    (∃ item ∈ s.subscriber.yielded, item.offset = offset) ∨ offset ∈ s.missed
  truncated : ∀ offset ∈ s.missed, offset < s.stream.baseOffset ∧
    ∀ item ∈ s.subscriber.yielded, item.offset ≠ offset
  -- A poll can go on when there is an item for it, and gets the subscriber further.
  progresses : ∀ fromOffset woken, s.subscriber.phase = .polling fromOffset woken →
    max s.position s.stream.baseOffset < s.stream.offset →
    s.stream.pollReady (s.pollInput fromOffset) = true ∧
      ∀ result, s.stream.pollAnswer (s.pollInput fromOffset) = .ok result → s.position < result.nextOffset

/-- The offset of a poll that can go on. -/
def wokenOffset (s : Subscription) : Option Int :=
  match s.subscriber.phase with
  | .polling fromOffset true => some fromOffset
  | _ => none

/-- The payloads that are published can be decoded again, and no poll is answered while its offset lies beyond the
end of the log. -/
def Tame (s : Subscription) : SubscriptionEvent → Prop
  | .publish _ input => ∀ entry ∈ input.items, ∀ payload ∈ (decodePayloadWire entry.data).toOption, payload.Portable
  | .publishToTopic _ payload => payload.Portable
  | .answer => ∀ fromOffset ∈ s.wokenOffset, fromOffset ≤ s.stream.offset
  | _ => True

end Subscription

/-! ## What a poll returns -/

theorem mem_numbered : ∀ {log : List LogEntry} {first offset : Nat} {entry : LogEntry},
    (offset, entry) ∈ numbered first log ↔ first ≤ offset ∧ log[offset - first]? = some entry := by
  intro log
  induction log with
  | nil => simp [numbered]
  | cons head log ih =>
    intro first offset entry
    simp only [numbered, List.mem_cons, Prod.mk.injEq, ih]
    constructor
    · rintro (⟨rfl, rfl⟩ | ⟨hle, hget⟩)
      · simp
      · obtain ⟨k, rfl⟩ : ∃ k, offset = first + 1 + k := ⟨offset - (first + 1), by omega⟩
        have hsub : first + 1 + k - first = k + 1 := by omega
        have hsub' : first + 1 + k - (first + 1) = k := by omega
        rw [hsub'] at hget
        exact ⟨by omega, by rw [hsub]; simpa using hget⟩
    · rintro ⟨hle, hget⟩
      rcases Nat.eq_or_lt_of_le hle with rfl | hlt
      · left
        simp only [Nat.sub_self, List.getElem?_cons_zero, Option.some.injEq] at hget
        exact ⟨rfl, hget.symm⟩
      · right
        obtain ⟨k, rfl⟩ : ∃ k, offset = first + 1 + k := ⟨offset - (first + 1), by omega⟩
        have hsub : first + 1 + k - first = k + 1 := by omega
        have hsub' : first + 1 + k - (first + 1) = k := by omega
        rw [hsub, List.getElem?_cons_succ] at hget
        exact ⟨by omega, by rw [hsub']; exact hget⟩

theorem numbered_increasing : ∀ (log : List LogEntry) (first : Nat),
    (numbered first log).Pairwise fun a b => a.1 < b.1 := by
  intro log
  induction log with
  | nil =>
    intro first
    exact List.Pairwise.nil
  | cons entry log ih =>
    intro first
    refine List.pairwise_cons.mpr ⟨?_, ih (first + 1)⟩
    rintro ⟨offset, entry'⟩ hmem
    have hle := (mem_numbered.mp hmem).1
    show first < offset
    omega

def wireItem (candidate : Nat × LogEntry) : WireItem :=
  ⟨candidate.2.topic, encodePayloadWire candidate.2.payload, candidate.1⟩

/-- The items of a response are the first candidates, at least one if there are any, and polling goes on with the
first of the others. -/
theorem takeFitting_spec : ∀ (candidates : List (Nat × LogEntry)) (size : Nat) (started : Bool),
    ∃ taken rest, candidates = taken ++ rest ∧
      takeFitting size started candidates = (taken.map wireItem, rest.head?.map Prod.fst) ∧
      (started = false → candidates ≠ [] → taken ≠ []) := by
  intro candidates
  induction candidates with
  | nil =>
    intro size started
    exact ⟨[], [], rfl, rfl, fun _ h => absurd rfl h⟩
  | cons candidate candidates ih =>
    intro size started
    rcases candidate with ⟨off, entry⟩
    simp only [takeFitting]
    split
    · rename_i hfull
      refine ⟨[], (off, entry) :: candidates, rfl, rfl, ?_⟩
      intro hfresh
      rw [hfresh] at hfull
      exact absurd hfull.2 (by simp)
    · rcases ih (size + payloadWireSize (encodeBase64 (encodePayloadProto entry.payload)) entry.topic) true with
        ⟨taken, rest, hsplit, htake, _⟩
      refine ⟨(off, entry) :: taken, rest, by rw [hsplit]; rfl, ?_, fun _ _ => List.cons_ne_nil _ _⟩
      rw [htake]
      rfl

theorem yieldAll_wireItem : ∀ (taken : List (Nat × LogEntry)), (∀ c ∈ taken, c.2.payload.Portable) →
    yieldAll (taken.map wireItem) = (taken.map fun c => ⟨c.2.topic, c.2.payload.normal, c.1⟩, true) := by
  intro taken
  induction taken with
  | nil =>
    intro _
    rfl
  | cons c taken ih =>
    intro h
    have hdecode := decodePayloadWire_encodePayloadWire (h c List.mem_cons_self)
    have hrest := ih fun x hx => h x (List.mem_cons_of_mem c hx)
    simp only [List.map_cons, yieldAll, wireItem] at hrest ⊢
    simp only [hdecode, hrest]

/-- The offset from which a poll reads. -/
def readsFrom (s : WorkflowStream) (fromOffset : Int) : Nat := s.baseOffset + (fromOffset - s.baseOffset).toNat

/-- What a poll reads: all candidates from one offset to another. -/
structure Reads (s : WorkflowStream) (topics : List String) (first next : Nat) (taken : List (Nat × LogEntry)) :
    Prop where
  increasing : taken.Pairwise fun a b => a.1 < b.1
  first_le : first ≤ next
  next_le : next ≤ s.offset
  found : ∀ c ∈ taken, first ≤ c.1 ∧ c.1 < next ∧ s.log[c.1 - s.baseOffset]? = some c.2 ∧
    matchesTopics topics c.2.topic = true
  complete : ∀ offset entry, first ≤ offset → offset < next → s.log[offset - s.baseOffset]? = some entry →
    matchesTopics topics entry.topic = true → (offset, entry) ∈ taken
  progresses : first < s.offset → first < next

variable {input : PollInput}

theorem pollAnswer_reads {s : WorkflowStream} {result : PollResult}
    (h : s.pollAnswer input = .ok result) (hend : input.fromOffset ≤ s.offset) :
    s.isTruncated input.fromOffset = false ∧ ∃ taken, result.items = taken.map wireItem ∧
      Reads s input.topics (readsFrom s input.fromOffset) result.nextOffset taken := by
  unfold WorkflowStream.pollAnswer at h
  cases htruncated : s.isTruncated input.fromOffset with
  | true =>
    rw [htruncated] at h
    cases h
  | false =>
    rw [htruncated] at h
    simp only [Bool.false_eq_true, if_false] at h
    refine ⟨rfl, ?_⟩
    have hfirst : s.baseOffset + (input.fromOffset - s.baseOffset).toNat = readsFrom s input.fromOffset := rfl
    have hindex : (input.fromOffset - s.baseOffset).toNat = readsFrom s input.fromOffset - s.baseOffset := by
      unfold readsFrom
      omega
    have hbase : s.baseOffset ≤ readsFrom s input.fromOffset := by
      unfold readsFrom
      omega
    have hlast : readsFrom s input.fromOffset ≤ s.offset := by
      unfold readsFrom WorkflowStream.offset at *
      omega
    rw [hfirst, hindex] at h
    generalize readsFrom s input.fromOffset = first at *
    -- The candidates are the entries of the log from `first` on that match.
    have hmem : ∀ c, c ∈ (numbered first (s.log.drop (first - s.baseOffset))).filter
          (fun c => matchesTopics input.topics c.2.topic) ↔
        first ≤ c.1 ∧ s.log[c.1 - s.baseOffset]? = some c.2 ∧ matchesTopics input.topics c.2.topic = true := by
      rintro ⟨offset, entry⟩
      rw [List.mem_filter, mem_numbered, List.getElem?_drop, and_assoc]
      constructor
      · rintro ⟨hle, hget, hmatch⟩
        rw [show first - s.baseOffset + (offset - first) = offset - s.baseOffset by omega] at hget
        exact ⟨hle, hget, hmatch⟩
      · rintro ⟨hle, hget, hmatch⟩
        rw [show first - s.baseOffset + (offset - first) = offset - s.baseOffset by omega]
        exact ⟨hle, hget, hmatch⟩
    have hsorted := (numbered_increasing (s.log.drop (first - s.baseOffset)) first).filter
      (fun c => matchesTopics input.topics c.2.topic)
    generalize (numbered first (s.log.drop (first - s.baseOffset))).filter
      (fun c => matchesTopics input.topics c.2.topic) = candidates at *
    rcases takeFitting_spec candidates 0 false with ⟨taken, rest, rfl, htake, hsome⟩
    rw [htake] at h
    cases h
    have hbelow : ∀ c ∈ taken ++ rest, c.1 < s.offset := by
      intro c hc
      have hget := ((hmem c).mp hc).2.1
      have hlt := (List.getElem?_eq_some_iff.mp hget).1
      have hle := ((hmem c).mp hc).1
      unfold WorkflowStream.offset
      omega
    refine ⟨taken, rfl, ?_⟩
    cases rest with
    | nil =>
      simp only [List.append_nil] at *
      refine ⟨hsorted, hlast, Nat.le_refl _, ?_, ?_, id⟩
      · intro c hc
        exact ⟨((hmem c).mp hc).1, hbelow c hc, ((hmem c).mp hc).2⟩
      · intro offset entry hle _ hget hmatch
        exact (hmem (offset, entry)).mpr ⟨hle, hget, hmatch⟩
    | cons head rest =>
      have hhead := (hmem head).mp (by simp)
      have hsplit := List.pairwise_append.mp hsorted
      refine ⟨hsplit.1, hhead.1, Nat.le_of_lt (hbelow head (by simp)), ?_, ?_, ?_⟩
      · intro c hc
        have hfound := (hmem c).mp (List.mem_append_left _ hc)
        exact ⟨hfound.1, hsplit.2.2 c hc head List.mem_cons_self, hfound.2⟩
      · intro offset entry hle hlt hget hmatch
        have hcandidate := (hmem (offset, entry)).mpr ⟨hle, hget, hmatch⟩
        rcases List.mem_append.mp hcandidate with htaken | hrest
        · exact htaken
        · exfalso
          have hlt' : offset < head.1 := hlt
          rcases List.mem_cons.mp hrest with rfl | hrest
          · exact absurd hlt' (Nat.lt_irrefl _)
          · have := (List.pairwise_cons.mp hsplit.2.1).1 (offset, entry) hrest
            simp only at this
            omega
      · intro _
        obtain ⟨c, hc⟩ := List.exists_mem_of_ne_nil taken (hsome rfl (by simp))
        have hle := ((hmem c).mp (List.mem_append_left _ hc)).1
        have hlt := hsplit.2.2 c hc head List.mem_cons_self
        show first < head.1
        omega

namespace Subscription

/-! ## The invariant -/

/-- A poll from `fromOffset` goes on at the position, or at the first item there is when that is beyond it. -/
def Aligned (s : Subscription) (fromOffset : Int) : Prop :=
  fromOffset = s.position ∨ (fromOffset ≤ 0 ∧ s.position ≤ s.stream.baseOffset)

/-- The log has the items of the history from the base offset on, as they look on the wire. -/
structure Logged (s : Subscription) : Prop where
  log : s.stream.log.map LogEntry.wire = (s.history.drop s.stream.baseOffset).map LogEntry.wire
  base_le : s.stream.baseOffset ≤ s.history.length
  log_portable : ∀ entry ∈ s.stream.log, entry.payload.Portable
  history_portable : ∀ entry ∈ s.history, entry.payload.Portable

structure Kept (start : Int) (s : Subscription) : Prop where
  logged : s.Logged
  started : start ≤ s.position
  -- Only the start offset can lie beyond the end of the log.
  reached : s.position ≤ s.history.length ∨ s.position = start.toNat
  offset_aligned : s.Aligned s.subscriber.offset
  poll_aligned : ∀ fromOffset woken, s.subscriber.phase = .polling fromOffset woken → s.Aligned fromOffset
  increasing : s.subscriber.yielded.Pairwise fun a b => a.offset < b.offset
  published : ∀ item ∈ s.subscriber.yielded, start ≤ item.offset ∧ item.offset < s.position ∧
    ∃ entry, s.history[item.offset]? = some entry ∧ item.topic = entry.topic ∧
      item.data = entry.payload.normal ∧ matchesTopics s.subscriber.topics entry.topic = true
  complete : ∀ (offset : Nat) entry, start ≤ offset → offset < s.position → s.history[offset]? = some entry →
    matchesTopics s.subscriber.topics entry.topic = true →
    (∃ item ∈ s.subscriber.yielded, item.offset = offset) ∨ offset ∈ s.missed
  truncated : ∀ offset ∈ s.missed, offset < s.position ∧ offset < s.stream.baseOffset ∧
    ∀ item ∈ s.subscriber.yielded, item.offset ≠ offset

variable {start : Int} {s : Subscription}

theorem Logged.offset (h : s.Logged) : s.stream.offset = s.history.length := by
  have hlen := congrArg List.length h.log
  simp only [List.length_map, List.length_drop] at hlen
  have hle := h.base_le
  unfold WorkflowStream.offset
  omega

/-- An entry of the log and the one of the history at its offset are the same on the wire, and so decode to the
same. -/
theorem Logged.entry (h : s.Logged) {offset : Nat} (hle : s.stream.baseOffset ≤ offset) {entry : LogEntry}
    (hget : s.stream.log[offset - s.stream.baseOffset]? = some entry) :
    ∃ original, s.history[offset]? = some original ∧ entry.topic = original.topic ∧
      entry.payload.normal = original.payload.normal := by
  have hwire : (s.stream.log[offset - s.stream.baseOffset]?).map LogEntry.wire =
      (s.history[offset]?).map LogEntry.wire := by
    have hindex := congrArg (fun l => l[offset - s.stream.baseOffset]?) h.log
    simp only [List.getElem?_map, List.getElem?_drop] at hindex
    rw [show s.stream.baseOffset + (offset - s.stream.baseOffset) = offset by omega] at hindex
    exact hindex
  rw [hget] at hwire
  cases horiginal : s.history[offset]? with
  | none =>
    rw [horiginal] at hwire
    cases hwire
  | some original =>
    rw [horiginal] at hwire
    simp only [Option.map_some, Option.some.injEq] at hwire
    refine ⟨original, rfl, congrArg Prod.fst hwire, ?_⟩
    have hdata : encodePayloadWire entry.payload = encodePayloadWire original.payload := congrArg Prod.snd hwire
    have hentry := decodePayloadWire_encodePayloadWire (h.log_portable entry (List.mem_of_getElem? hget))
    have hother := decodePayloadWire_encodePayloadWire
      (h.history_portable original (List.mem_of_getElem? horiginal))
    rw [hdata, hother] at hentry
    exact (Except.ok.inj hentry).symm

theorem Logged.original (h : s.Logged) {offset : Nat} (hle : s.stream.baseOffset ≤ offset) {original : LogEntry}
    (hget : s.history[offset]? = some original) :
    ∃ entry, s.stream.log[offset - s.stream.baseOffset]? = some entry ∧ entry.topic = original.topic := by
  have hlt := (List.getElem?_eq_some_iff.mp hget).1
  have hoffset := h.offset
  unfold WorkflowStream.offset at hoffset
  have hin : offset - s.stream.baseOffset < s.stream.log.length := by omega
  have hentry : s.stream.log[offset - s.stream.baseOffset]? = some s.stream.log[offset - s.stream.baseOffset] :=
    List.getElem?_eq_getElem hin
  rcases h.entry hle hentry with ⟨original', hget', htopic, _⟩
  rw [hget] at hget'
  cases hget'
  exact ⟨_, hentry, htopic⟩

variable {stream : WorkflowStream}

/-- New items at the end of the log, in a stream with the same base offset. -/
theorem Kept.append (h : s.Kept start) {added : List LogEntry}
    (hlog : stream.log = s.stream.log ++ added) (hbase : stream.baseOffset = s.stream.baseOffset)
    (hportable : ∀ entry ∈ added, entry.payload.Portable) : (s.withStream stream).Kept start := by
  have hadded : stream.log.drop s.stream.log.length = added := by
    rw [hlog, List.drop_left]
  have hle := h.logged.base_le
  unfold withStream
  rw [hadded]
  refine ⟨⟨?_, ?_, ?_, ?_⟩, h.started, ?_, ?_, ?_, h.increasing, ?_, ?_, ?_⟩
  · rw [hlog, hbase, List.map_append, List.drop_append_of_le_length hle, List.map_append, h.logged.log]
  · rw [hbase, List.length_append]
    omega
  · intro entry hentry
    rw [hlog] at hentry
    rcases List.mem_append.mp hentry with hold | hnew
    · exact h.logged.log_portable entry hold
    · exact hportable entry hnew
  · intro entry hentry
    rcases List.mem_append.mp hentry with hold | hnew
    · exact h.logged.history_portable entry hold
    · exact hportable entry hnew
  · rcases h.reached with hreached | hstart
    · left
      rw [List.length_append]
      exact Nat.le_trans hreached (Nat.le_add_right _ _)
    · exact Or.inr hstart
  · simpa [Aligned, hbase] using h.offset_aligned
  · intro fromOffset woken hphase
    simpa [Aligned, hbase] using h.poll_aligned fromOffset woken hphase
  · intro item hitem
    rcases h.published item hitem with ⟨hstart, hlt, entry, hget, hrest⟩
    refine ⟨hstart, hlt, entry, ?_, hrest⟩
    rw [List.getElem?_append_left (List.getElem?_eq_some_iff.mp hget).1]
    exact hget
  · intro offset entry hstart hlt hget hmatch
    -- The offset of a new item is not below the position, unless that is the start.
    by_cases hold : offset < s.history.length
    · rw [List.getElem?_append_left hold] at hget
      exact h.complete offset entry hstart hlt hget hmatch
    · exfalso
      have hlt' : offset < s.position := hlt
      rcases h.reached with hreached | heq
      · omega
      · omega
  · rw [hbase]
    exact h.truncated

theorem onPublish_log {s s' : WorkflowStream} {now : Int} {input : PublishInput}
    (h : s.onPublish now input = .ok s') :
    ∃ added, s'.log = s.log ++ added ∧ s'.baseOffset = s.baseOffset ∧
      ∀ entry ∈ added, ∃ item ∈ input.items, decodePayloadWire item.data = .ok entry.payload := by
  unfold onPublish at h
  split at h
  · split at h
    · cases h
      exact ⟨[], by simp, rfl, nofun⟩
    · rcases pushAll_ok input.items h with ⟨_, hbase, added, hlog, _, hadded⟩
      exact ⟨added, hlog, hbase, hadded⟩
  · rcases pushAll_ok input.items h with ⟨_, hbase, added, hlog, _, hadded⟩
    exact ⟨added, hlog, hbase, hadded⟩

theorem truncate_ok {s s' : WorkflowStream} {upToOffset : Int} (h : s.truncate upToOffset = .ok s') :
    ∃ n, n ≤ s.log.length ∧ s'.log = s.log.drop n ∧ s'.baseOffset = s.baseOffset + n := by
  unfold truncate at h
  simp only at h
  split at h
  · cases h
    exact ⟨0, Nat.zero_le _, rfl, rfl⟩
  · split at h
    · cases h
    · cases h
      refine ⟨(upToOffset - s.baseOffset).toNat, by omega, rfl, ?_⟩
      show upToOffset.toNat = _
      omega

variable {fromOffset : Int}

theorem Aligned.mono (h : s.Aligned fromOffset) (hbase : s.stream.baseOffset ≤ stream.baseOffset) :
    ({ s with stream := stream } : Subscription).Aligned fromOffset := by
  rcases h with heq | ⟨hle, hposition⟩
  · exact Or.inl heq
  · exact Or.inr ⟨hle, Nat.le_trans hposition hbase⟩

theorem Kept.withLog (h : s.Kept start)
    (hlogged : ({ s with stream := stream } : Subscription).Logged)
    (hbase : s.stream.baseOffset ≤ stream.baseOffset) :
    ({ s with stream := stream } : Subscription).Kept start := by
  refine ⟨hlogged, h.started, h.reached, h.offset_aligned.mono hbase, ?_, h.increasing, h.published, h.complete, ?_⟩
  · exact fun fromOffset woken hphase => (h.poll_aligned fromOffset woken hphase).mono hbase
  · intro offset hmissed
    rcases h.truncated offset hmissed with ⟨hposition, hlt, hyielded⟩
    exact ⟨hposition, Nat.lt_of_lt_of_le hlt hbase, hyielded⟩

theorem Kept.truncate (h : s.Kept start) {upToOffset : Int}
    (htruncate : s.stream.truncate upToOffset = .ok stream) :
    ({ s with stream := stream } : Subscription).Kept start := by
  rcases truncate_ok htruncate with ⟨n, hn, hlog, hbase⟩
  have hoffset := h.logged.offset
  unfold WorkflowStream.offset at hoffset
  apply h.withLog
  · refine ⟨?_, ?_, ?_, h.logged.history_portable⟩
    · show stream.log.map LogEntry.wire = (s.history.drop stream.baseOffset).map LogEntry.wire
      rw [hlog, hbase, List.map_drop, h.logged.log, ← List.map_drop, List.drop_drop]
    · show stream.baseOffset ≤ s.history.length
      omega
    · intro entry hentry
      rw [show ({ s with stream := stream } : Subscription).stream.log = s.stream.log.drop n from hlog] at hentry
      exact h.logged.log_portable entry (List.mem_of_mem_drop hentry)
  · omega

theorem Kept.successor (h : s.Kept start) (now publisherTtl : Int) :
    ({ s with stream := s.stream.successor now publisherTtl } : Subscription).Kept start := by
  apply h.withLog
  · refine ⟨Eq.trans ?_ h.logged.log, h.logged.base_le, ?_, h.logged.history_portable⟩
    · simp [WorkflowStream.successor, LogEntry.wire, encodePayloadWire_normal, Function.comp_def]
    · intro entry hentry
      rcases List.mem_map.mp hentry with ⟨original, horiginal, rfl⟩
      exact (h.logged.log_portable original horiginal).normal
  · exact Nat.le_refl _

theorem Kept.idle (h : s.Kept start) {offset : Int} (haligned : s.Aligned offset) {phase : SubscriberPhase}
    (hphase : ∀ fromOffset woken, phase = .polling fromOffset woken → s.Aligned fromOffset) :
    ({ s with subscriber.offset := offset, subscriber.phase := phase } : Subscription).Kept start :=
  { h with
    logged := ⟨h.logged.log, h.logged.base_le, h.logged.log_portable, h.logged.history_portable⟩
    offset_aligned := haligned, poll_aligned := hphase }

variable {failure : ApplicationFailure}

theorem Kept.onFailure (h : s.Kept start) (haligned : s.Aligned fromOffset)
    (hfailure : failure.type = "TruncatedOffset" → s.stream.isTruncated fromOffset = true) :
    (s.onFailure failure).Kept start := by
  apply h.idle
  · split
    · rename_i htype
      have htruncated := hfailure htype
      simp only [isTruncated, ne_eq, decide_not, Bool.and_eq_true, Bool.not_eq_true',
        decide_eq_false_iff_not, decide_eq_true_eq] at htruncated
      rcases haligned with heq | ⟨hle, hposition⟩
      · right
        omega
      · exact Or.inr ⟨Int.le_refl 0, hposition⟩
    · exact h.offset_aligned
  · exact nofun

theorem readsFrom_eq (haligned : s.Aligned fromOffset)
    (htruncated : s.stream.isTruncated fromOffset = false) :
    readsFrom s.stream fromOffset = max s.position s.stream.baseOffset := by
  have hle : fromOffset = 0 ∨ (s.stream.baseOffset : Int) ≤ fromOffset := by
    by_contra hnot
    push Not at hnot
    have htrue : s.stream.isTruncated fromOffset = true := by
      simp only [isTruncated, ne_eq, decide_not, Bool.and_eq_true, Bool.not_eq_true', decide_eq_false_iff_not,
        decide_eq_true_eq]
      exact ⟨hnot.1, by omega⟩
    rw [htrue] at htruncated
    cases htruncated
  unfold readsFrom
  rcases haligned with heq | ⟨hneg, hposition⟩ <;> omega

theorem Kept.onResult (h : s.Kept start) (haligned : s.Aligned fromOffset)
    (hend : fromOffset ≤ s.stream.offset) {result : PollResult}
    (hanswer : s.stream.pollAnswer (s.pollInput fromOffset) = .ok result) : (s.onResult result).Kept start := by
  rcases pollAnswer_reads hanswer hend with ⟨htruncated, taken, hitems, hreads⟩
  have hfirst := readsFrom_eq haligned htruncated
  simp only [pollInput] at hfirst hreads
  rw [hfirst] at hreads
  have hposition : s.position ≤ result.nextOffset := Nat.le_trans (Nat.le_max_left _ _) hreads.first_le
  have hportable : ∀ c ∈ taken, c.2.payload.Portable := by
    intro c hc
    exact h.logged.log_portable c.2 (List.mem_of_getElem? (hreads.found c hc).2.2.1)
  have hyield := yieldAll_wireItem taken hportable
  rw [← hitems] at hyield
  have hnew : ∀ c ∈ taken, s.position ≤ c.1 ∧ s.stream.baseOffset ≤ c.1 ∧ c.1 < result.nextOffset := by
    intro c hc
    have hc' := hreads.found c hc
    exact ⟨Nat.le_trans (Nat.le_max_left _ _) hc'.1, Nat.le_trans (Nat.le_max_right _ _) hc'.1, hc'.2.1⟩
  have hmissed : ∀ offset, offset ∈ s.missed ++ List.range' s.position (s.stream.baseOffset - s.position) →
      offset ∈ s.missed ∨ (s.position ≤ offset ∧ offset < s.stream.baseOffset) := by
    intro offset hoffset
    rcases List.mem_append.mp hoffset with hold | hrange
    · exact Or.inl hold
    · right
      rw [List.mem_range'_1] at hrange
      omega
  unfold Subscription.onResult
  rw [hyield]
  refine ⟨{ h.logged with }, ?_, ?_, Or.inl rfl,
    nofun, ?_, ?_, ?_, ?_⟩
  · have hstarted := h.started
    show start ≤ (result.nextOffset : Int)
    omega
  · left
    show result.nextOffset ≤ s.history.length
    rw [← h.logged.offset]
    exact hreads.next_le
  · refine List.pairwise_append.mpr ⟨h.increasing, ?_, ?_⟩
    · rw [List.pairwise_map]
      exact hreads.increasing
    · intro old hold new hnew'
      rcases List.mem_map.mp hnew' with ⟨c, hc, rfl⟩
      have hbefore := (h.published old hold).2.1
      have hafter := (hnew c hc).1
      show old.offset < c.1
      omega
  · intro item hitem
    rcases List.mem_append.mp hitem with hold | hnew'
    · rcases h.published item hold with ⟨hstart, hlt, hrest⟩
      exact ⟨hstart, Nat.lt_of_lt_of_le hlt hposition, hrest⟩
    · rcases List.mem_map.mp hnew' with ⟨c, hc, rfl⟩
      rcases hnew c hc with ⟨hle, hbase, hlt⟩
      have hstarted := h.started
      have hfound := (hreads.found c hc).2.2
      rcases h.logged.entry hbase hfound.1 with ⟨original, hget, htopic, hdata⟩
      refine ⟨?_, hlt, original, hget, htopic, hdata, ?_⟩
      · show start ≤ (c.1 : Int)
        omega
      · rw [← htopic]
        exact hfound.2
  · intro offset original hstart hlt hget hmatch
    -- Below the position, between it and the base offset, and from there on.
    by_cases hbefore : offset < s.position
    · rcases h.complete offset original hstart hbefore hget hmatch with ⟨item, hitem, heq⟩ | hold
      · exact Or.inl ⟨item, List.mem_append_left _ hitem, heq⟩
      · exact Or.inr (List.mem_append_left _ hold)
    · by_cases hgone : offset < s.stream.baseOffset
      · right
        apply List.mem_append_right
        rw [List.mem_range'_1]
        omega
      · left
        rcases h.logged.original (Nat.le_of_not_lt hgone) hget with ⟨entry, hentry, htopic⟩
        have hmem := hreads.complete offset entry (by omega) hlt hentry (by rw [htopic]; exact hmatch)
        exact ⟨_, List.mem_append_right _ (List.mem_map_of_mem hmem), rfl⟩
  · intro offset hoffset
    rcases hmissed offset hoffset with hold | ⟨hle, hlt⟩
    · rcases h.truncated offset hold with ⟨hbefore, hgone, hyielded⟩
      refine ⟨Nat.lt_of_lt_of_le hbefore hposition, hgone, ?_⟩
      intro item hitem
      rcases List.mem_append.mp hitem with hitem | hitem
      · exact hyielded item hitem
      · rcases List.mem_map.mp hitem with ⟨c, hc, rfl⟩
        have hafter := (hnew c hc).1
        show c.1 ≠ offset
        omega
    · have hnext := hreads.first_le
      refine ⟨?_, hlt, ?_⟩
      · show offset < result.nextOffset
        omega
      · intro item hitem
        rcases List.mem_append.mp hitem with hitem | hitem
        · have hbefore := (h.published item hitem).2.1
          omega
        · rcases List.mem_map.mp hitem with ⟨c, hc, rfl⟩
          have hafter := (hnew c hc).2.1
          show c.1 ≠ offset
          omega

theorem pollAnswer_error {s : WorkflowStream}
    (h : s.pollAnswer input = .error failure) : s.isTruncated input.fromOffset = true := by
  unfold pollAnswer at h
  split at h
  · assumption
  · cases h

theorem pollRejection_truncated {s : WorkflowStream}
    (h : s.pollRejection input = some failure) (htype : failure.type = "TruncatedOffset") :
    s.isTruncated input.fromOffset = true := by
  unfold pollRejection at h
  split at h
  · cases h
    exact absurd htype (by decide)
  · split at h
    · assumption
    · cases h

theorem Kept.step (h : s.Kept start) (e : SubscriptionEvent) (he : s.Tame e) : (s.step e).Kept start := by
  cases e with
  | publish now input =>
    simp only [Subscription.step]
    split
    · rename_i stream hpublish
      rcases onPublish_log hpublish with ⟨added, hlog, hbase, hadded⟩
      apply h.append hlog hbase
      intro entry hentry
      rcases hadded entry hentry with ⟨item, hitem, hdecode⟩
      exact he item hitem entry.payload (by simp [hdecode, Except.toOption])
    · exact h
  | publishToTopic topic payload =>
    have hportable : ∀ entry ∈ [(⟨topic, payload⟩ : LogEntry)], entry.payload.Portable := by
      intro entry hentry
      rw [List.mem_singleton.mp hentry]
      exact he
    have hlog : (s.stream.publishToTopic topic payload).log = s.stream.log ++ [⟨topic, payload⟩] := rfl
    exact h.append hlog rfl hportable
  | truncate upToOffset =>
    simp only [Subscription.step]
    split
    · rename_i stream htruncate
      exact h.truncate htruncate
    · exact h
  | detachPollers => exact h.withLog { h.logged with } (Nat.le_refl _)
  | continueAsNew now publisherTtl =>
    have hnew := h.successor now publisherTtl
    simp only [Subscription.step, construct_getState h.logged.log_portable]
    split
    · exact hnew.idle hnew.offset_aligned nofun
    · exact hnew
  | poll =>
    simp only [Subscription.step]
    split
    · split
      · rename_i failure hrejection
        exact h.onFailure h.offset_aligned fun htype => pollRejection_truncated hrejection htype
      · apply h.idle h.offset_aligned
        intro fromOffset woken hphase
        cases hphase
        exact h.offset_aligned
    · exact h
  | wake =>
    simp only [Subscription.step]
    split
    · rename_i fromOffset woken hphase
      split
      · apply h.idle h.offset_aligned
        intro fromOffset' woken' hphase'
        cases hphase'
        exact h.poll_aligned fromOffset woken hphase
      · exact h
    · exact h
  | answer =>
    simp only [Subscription.step]
    split
    · rename_i fromOffset hphase
      have haligned := h.poll_aligned fromOffset true hphase
      split
      · rename_i failure hanswer
        exact h.onFailure haligned fun _ => pollAnswer_error hanswer
      · rename_i result hanswer
        exact h.onResult haligned (he fromOffset (by simp [wokenOffset, hphase])) hanswer
    · exact h
  | lose =>
    simp only [Subscription.step]
    split
    · exact h.idle h.offset_aligned nofun
    · exact h

theorem Kept.progresses (h : s.Kept start) {woken : Bool}
    (hphase : s.subscriber.phase = .polling fromOffset woken)
    (hitem : max s.position s.stream.baseOffset < s.stream.offset) :
    s.stream.pollReady (s.pollInput fromOffset) = true ∧
      ∀ result, s.stream.pollAnswer (s.pollInput fromOffset) = .ok result → s.position < result.nextOffset := by
  have haligned := h.poll_aligned fromOffset woken hphase
  cases htruncated : s.stream.isTruncated fromOffset with
  | true =>
    refine ⟨by simp [pollReady, pollInput, htruncated], ?_⟩
    intro result hanswer
    simp [pollAnswer, pollInput, htruncated] at hanswer
  | false =>
    have hfirst := readsFrom_eq haligned htruncated
    rw [← hfirst] at hitem
    constructor
    · have hlength : (s.stream.log.length : Int) > max (fromOffset - s.stream.baseOffset) 0 := by
        unfold readsFrom WorkflowStream.offset at hitem
        omega
      simp [pollReady, pollInput, hlength]
    · intro result hanswer
      have hend : fromOffset ≤ s.stream.offset := by
        unfold readsFrom at hitem
        omega
      rcases pollAnswer_reads hanswer hend with ⟨_, taken, _, hreads⟩
      have hnext := hreads.progresses hitem
      simp only [pollInput] at hnext
      omega

theorem Kept.correct (h : s.Kept start) : s.Correct start where
  increasing := h.increasing
  published item hitem := ⟨(h.published item hitem).1, (h.published item hitem).2.2⟩
  complete := h.complete
  truncated offset hoffset := (h.truncated offset hoffset).2
  progresses _ _ hphase hitem := h.progresses hphase hitem

theorem kept_init (topics : List String) (start : Int) : (init topics start).Kept start := by
  refine ⟨⟨rfl, Nat.le_refl _, nofun, nofun⟩, ?_, Or.inr rfl, ?_, nofun, List.Pairwise.nil, nofun, nofun, nofun⟩
  · show start ≤ (start.toNat : Int)
    omega
  · show start = (start.toNat : Int) ∨ (start ≤ 0 ∧ start.toNat ≤ 0)
    omega

/-- A subscription is correct all along, if no poll is answered while its offset lies beyond the end of the log and
the published payloads can be decoded again. -/
theorem subscription_correct (topics : List String) (start : Int) (es : List SubscriptionEvent)
    (h : Guarded step Tame (init topics start) es) :
    Throughout step (Correct start) (init topics start) es :=
  throughout_of_invariant (fun _ e he hs => Kept.step hs e he) (fun _ hs => Kept.correct hs) (kept_init topics start) h

end Subscription

/-- A start offset beyond the end, a response after a truncation, and one after continuing as new. -/
def followedRun : List SubscriptionEvent :=
  [.poll, .publishToTopic "status" jsonPayload, .publishToTopic "tokens" jsonPayload, .wake, .answer, .truncate 2,
    .publishToTopic "status" jsonPayload, .poll, .detachPollers, .wake, .answer, .continueAsNew 0 900000,
    .publishToTopic "status" jsonPayload, .poll, .wake, .answer]

theorem followedRun_correct :
    Throughout Subscription.step (Subscription.Correct 1) (Subscription.init ["status"] 1) followedRun ∧
      ((run Subscription.step (Subscription.init ["status"] 1) followedRun).subscriber.yielded.map
        StreamItem.offset) = [2, 3] := by
  refine ⟨Subscription.subscription_correct ["status"] 1 followedRun ?_, by decide +kernel⟩
  have hportable : jsonPayload.Portable := by decide +kernel
  refine ⟨trivial, hportable, hportable, trivial, ?_, trivial, hportable, trivial, trivial, trivial, ?_, trivial,
    hportable, trivial, trivial, ?_, trivial⟩
  all_goals
    unfold Subscription.Tame
    decide +kernel

/-- The stream drains while a poll waits for an offset beyond the end. -/
def drainedRun : List SubscriptionEvent :=
  [.poll, .detachPollers, .wake, .answer, .continueAsNew 0 900000, .publishToTopic "status" jsonPayload, .poll, .wake,
    .answer]

theorem not_subscription_correct :
    ¬ Throughout Subscription.step (Subscription.Correct 5) (Subscription.init [] 5) drainedRun := by
  rintro ⟨-, -, -, -, -, -, -, -, -, h⟩
  have hyielded : ∃ item ∈ (run Subscription.step (Subscription.init [] 5) drainedRun).subscriber.yielded,
      item.offset = 0 := by decide +kernel
  rcases hyielded with ⟨item, hitem, hoffset⟩
  have hstart := (h.published item hitem).1
  omega

end TemporalSdk.Streams
