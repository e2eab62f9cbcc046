import TemporalSdk.Streams.Stream

/-!
# ContinueAsNew — a stream and the one that is made from its state

What a stream answers depends on the topics and the wire texts of its items, on the base offset and on the
sequence numbers of the publishers that are heard of again.  The state keeps them.
-/

namespace TemporalSdk.Streams

open Machine

inductive StreamOp
  | publish (now : Int) (input : PublishInput)
  | publishToTopic (topic : String) (payload : Payload)
  | truncate (upToOffset : Int)
  | offset
  -- A poll comes in.
  | poll (input : PollInput)
  -- A poll that was let in looks whether it can go on.
  | look (input : PollInput)

inductive StreamAnswer
  | done
  | thrown (err : Thrown)
  | failed (failure : ApplicationFailure)
  | offset (n : Nat)
  | waits
  | result (result : PollResult)
  deriving DecidableEq

namespace WorkflowStream

def perform (s : WorkflowStream) : StreamOp → WorkflowStream × StreamAnswer
  | .publish now input =>
    match s.onPublish now input with
    | .ok s' => (s', .done)
    | .error err => (s, .thrown err)
  | .publishToTopic topic payload => (s.publishToTopic topic payload, .done)
  | .truncate upToOffset =>
    match s.truncate upToOffset with
    | .ok s' => (s', .done)
    | .error failure => (s, .failed failure)
  | .offset => (s, .offset s.offset)
  | .poll input =>
    match s.pollRejection input with
    | some failure => (s, .failed failure)
    | none => (s, .waits)
  | .look input =>
    if s.pollReady input then
      match s.pollAnswer input with
      | .ok result => (s, .result result)
      | .error failure => (s, .failed failure)
    else (s, .waits)

def responses : WorkflowStream → List StreamOp → List StreamAnswer
  | _, [] => []
  | s, op :: ops => (s.perform op).2 :: responses (s.perform op).1 ops

/-- The streams that a workflow and its successors can have. -/
inductive Reachable : WorkflowStream → Prop
  | init : Reachable WorkflowStream.init
  | perform {s : WorkflowStream} (h : Reachable s) (op : StreamOp) : Reachable (s.perform op).1
  | detachPollers {s : WorkflowStream} (h : Reachable s) : Reachable s.detachPollers
  | continueAsNew {s s' : WorkflowStream} (h : Reachable s) (now publisherTtl : Int)
      (hs' : construct (s.getState now publisherTtl) = .ok s') : Reachable s'

/-! ## Streams that look alike -/

/-- An item as a poll sees it. -/
def LogEntry.wire (entry : LogEntry) : String × List Char := (entry.topic, encodePayloadWire entry.payload)

/-- `s` and `t` answer alike, as far as the publishers in `known` are concerned. -/
structure Alike (known : String → Prop) (s t : WorkflowStream) : Prop where
  log : s.log.map LogEntry.wire = t.log.map LogEntry.wire
  baseOffset : s.baseOffset = t.baseOffset
  draining : s.draining = t.draining
  sequences : ∀ publisherId, known publisherId →
    s.publisherSequences.get? publisherId = t.publisherSequences.get? publisherId

variable {known : String → Prop} {s t : WorkflowStream}

theorem Alike.length (h : Alike known s t) : s.log.length = t.log.length := by
  simpa using congrArg List.length h.log

theorem Alike.offset (h : Alike known s t) : s.offset = t.offset := by
  unfold WorkflowStream.offset
  rw [h.baseOffset, h.length]

theorem Alike.publishToTopic (h : Alike known s t) (topic : String) (payload : Payload) :
    Alike known (s.publishToTopic topic payload) (t.publishToTopic topic payload) :=
  { h with log := by simp [WorkflowStream.publishToTopic, h.log] }

theorem Alike.isTruncated (h : Alike known s t) (fromOffset : Int) :
    s.isTruncated fromOffset = t.isTruncated fromOffset := by
  unfold WorkflowStream.isTruncated
  rw [h.baseOffset]

theorem Alike.truncatedFailure (h : Alike known s t) (fromOffset : Int) :
    s.truncatedFailure fromOffset = t.truncatedFailure fromOffset := by
  unfold WorkflowStream.truncatedFailure
  rw [h.baseOffset]

theorem Alike.pollRejection (h : Alike known s t) (input : PollInput) :
    s.pollRejection input = t.pollRejection input := by
  unfold WorkflowStream.pollRejection
  rw [h.draining, h.isTruncated, h.truncatedFailure]

theorem Alike.pollReady (h : Alike known s t) (input : PollInput) : s.pollReady input = t.pollReady input := by
  unfold WorkflowStream.pollReady
  rw [h.draining, h.isTruncated, h.length, h.baseOffset]

/-- The candidates of a poll depend on topics, wire texts and offsets only. -/
theorem takeFitting_filter (topics : List String) : ∀ (log log' : List LogEntry) (offset size : Nat) (started : Bool),
    log.map LogEntry.wire = log'.map LogEntry.wire →
    takeFitting size started ((numbered offset log).filter fun c => matchesTopics topics c.2.topic) =
      takeFitting size started ((numbered offset log').filter fun c => matchesTopics topics c.2.topic) := by
  intro log
  induction log with
  | nil =>
    intro log' offset size started h
    cases log' with
    | nil => rfl
    | cons entry' log' => simp at h
  | cons entry log ih =>
    intro log' offset size started h
    cases log' with
    | nil => simp at h
    | cons entry' log' =>
      simp only [List.map_cons, List.cons.injEq] at h
      rcases h with ⟨hwire, hrest⟩
      have htopic : entry.topic = entry'.topic := congrArg Prod.fst hwire
      have hdata : encodeBase64 (encodePayloadProto entry.payload) =
          encodeBase64 (encodePayloadProto entry'.payload) := congrArg Prod.snd hwire
      cases hmatch : matchesTopics topics entry'.topic with
      | false =>
        simp only [numbered, List.filter_cons, htopic, hmatch]
        exact ih log' (offset + 1) size started hrest
      | true =>
        simp only [numbered, List.filter_cons, htopic, hmatch, if_true, takeFitting, hdata]
        split
        · rfl
        · rw [ih log' (offset + 1) _ true hrest]

theorem Alike.pollAnswer (h : Alike known s t) (input : PollInput) : s.pollAnswer input = t.pollAnswer input := by
  have hdrop : ∀ n, (s.log.drop n).map LogEntry.wire = (t.log.drop n).map LogEntry.wire := by
    intro n
    rw [List.map_drop, List.map_drop, h.log]
  unfold WorkflowStream.pollAnswer
  rw [h.isTruncated, h.truncatedFailure, h.baseOffset, h.offset]
  simp only [takeFitting_filter input.topics _ _ _ 0 false (hdrop _)]

theorem Alike.truncate (h : Alike known s t) (upToOffset : Int) :
    (∃ failure, s.truncate upToOffset = .error failure ∧ t.truncate upToOffset = .error failure) ∨
      ∃ s' t', s.truncate upToOffset = .ok s' ∧ t.truncate upToOffset = .ok t' ∧ Alike known s' t' := by
  unfold WorkflowStream.truncate
  rw [h.baseOffset, h.length, h.offset]
  simp only
  split
  · exact Or.inr ⟨s, t, rfl, rfl, h⟩
  · split
    · exact Or.inl ⟨_, rfl, rfl⟩
    · exact Or.inr ⟨_, _, rfl, rfl, by rw [List.map_drop, List.map_drop, h.log], rfl, h.draining, h.sequences⟩

theorem Alike.pushAll : ∀ (items : List PublishEntry) {s t : WorkflowStream}, Alike known s t →
    (∃ err, s.pushAll items = .error err ∧ t.pushAll items = .error err) ∨
      ∃ s' t', s.pushAll items = .ok s' ∧ t.pushAll items = .ok t' ∧ Alike known s' t' := by
  intro items
  induction items with
  | nil =>
    intro s t h
    exact Or.inr ⟨s, t, rfl, rfl, h⟩
  | cons entry items ih =>
    intro s t h
    cases hdecode : decodePayloadWire entry.data with
    | error err =>
      left
      refine ⟨err, ?_, ?_⟩ <;> simp [WorkflowStream.pushAll, hdecode, Except.map, bind, Except.bind]
    | ok payload =>
      have hrest := ih (h.publishToTopic entry.topic payload)
      simpa [WorkflowStream.pushAll, hdecode, Except.map, bind, Except.bind] using hrest

theorem Alike.onPublish (h : Alike known s t) (now : Int) (input : PublishInput)
    (hknown : known input.publisherId) :
    (∃ err, s.onPublish now input = .error err ∧ t.onPublish now input = .error err) ∨
      ∃ s' t', s.onPublish now input = .ok s' ∧ t.onPublish now input = .ok t' ∧ Alike known s' t' := by
  have hsame := h.sequences input.publisherId hknown
  have hduplicate : s.isDuplicate input.publisherId input.sequence =
      t.isDuplicate input.publisherId input.sequence := by
    unfold WorkflowStream.isDuplicate numberAt
    rw [hsame]
  unfold WorkflowStream.onPublish
  rw [hduplicate]
  split
  · split
    · exact Or.inr ⟨s, t, rfl, rfl, h⟩
    · apply Alike.pushAll
      refine ⟨h.log, h.baseOffset, h.draining, ?_⟩
      intro publisherId hpublisher
      simp only [JsObject.get?_assign, hsame, h.sequences publisherId hpublisher]
  · exact Alike.pushAll input.items h

/-- The publishers of an operation. -/
def Concerns (known : String → Prop) : StreamOp → Prop
  | .publish _ input => known input.publisherId
  | _ => True

/-- One operation: the same answer, and streams that are still alike. -/
theorem Alike.perform (h : Alike known s t) (op : StreamOp) (hop : Concerns known op) :
    (s.perform op).2 = (t.perform op).2 ∧ Alike known (s.perform op).1 (t.perform op).1 := by
  cases op with
  | publish now input =>
    rcases h.onPublish now input hop with ⟨err, hs, ht⟩ | ⟨s', t', hs, ht, halike⟩
    · simp only [WorkflowStream.perform, hs, ht]
      exact ⟨trivial, h⟩
    · simp only [WorkflowStream.perform, hs, ht]
      exact ⟨trivial, halike⟩
  | publishToTopic topic payload => exact ⟨rfl, h.publishToTopic topic payload⟩
  | truncate upToOffset =>
    rcases h.truncate upToOffset with ⟨failure, hs, ht⟩ | ⟨s', t', hs, ht, halike⟩
    · simp only [WorkflowStream.perform, hs, ht]
      exact ⟨trivial, h⟩
    · simp only [WorkflowStream.perform, hs, ht]
      exact ⟨trivial, halike⟩
  | offset => exact ⟨congrArg StreamAnswer.offset h.offset, h⟩
  | poll input =>
    simp only [WorkflowStream.perform, h.pollRejection]
    split <;> exact ⟨rfl, h⟩
  | look input =>
    simp only [WorkflowStream.perform, h.pollReady, h.pollAnswer]
    split
    · split <;> exact ⟨rfl, h⟩
    · exact ⟨rfl, h⟩

theorem Alike.responses : ∀ (ops : List StreamOp) {s t : WorkflowStream}, Alike known s t →
    (∀ op ∈ ops, Concerns known op) → s.responses ops = t.responses ops := by
  intro ops
  induction ops with
  | nil =>
    intro s t _ _
    rfl
  | cons op ops ih =>
    intro s t h hops
    rcases h.perform op (hops op List.mem_cons_self) with ⟨hanswer, hnext⟩
    rw [WorkflowStream.responses, WorkflowStream.responses, hanswer,
      ih hnext fun op' hop' => hops op' (List.mem_cons_of_mem op hop')]

/-! ## The state -/

/-- No publisher is called `__proto__`. -/
def NoProto (s : WorkflowStream) : Prop := s.publisherSequences.get? "__proto__" = none

theorem NoProto.entries (h : NoProto s) : ∀ e ∈ s.publisherSequences.entries, e.1 ≠ "__proto__" := by
  intro e he heq
  have hnone : s.publisherSequences.entries.find? (fun e => e.1 = "__proto__") = none := by
    simpa [NoProto, JsObject.get?] using h
  simpa [heq] using List.find?_eq_none.mp hnone e he

/-- The entries of the publishers that are kept. -/
def activeEntries (s : WorkflowStream) (now publisherTtl : Int) : List (String × Int) :=
  s.publisherSequences.entries.filter fun e => s.isActive now publisherTtl e.1

variable {now publisherTtl : Int}

theorem activeEntries_inOrder : InOrder (s.activeEntries now publisherTtl) :=
  List.Pairwise.filter _ s.publisherSequences.ordered

theorem entries_sequences (h : NoProto s) :
    (s.getState now publisherTtl).publisherSequences.entries = s.activeEntries now publisherTtl :=
  JsObject.entries_assignAll activeEntries_inOrder fun e he => h.entries e (List.mem_of_mem_filter he)

theorem entries_lastSeen (h : NoProto s) :
    (s.getState now publisherTtl).publisherLastSeen.entries =
      (s.activeEntries now publisherTtl).map fun e => (e.1, (numberAt s.publisherLastSeen e.1).getD 0) := by
  apply JsObject.entries_assignAll
  · unfold InOrder
    rw [List.pairwise_map]
    exact activeEntries_inOrder
  · intro e he
    rcases List.mem_map.mp he with ⟨e', he', rfl⟩
    exact h.entries e' (List.mem_of_mem_filter he')

theorem get?_sequences (h : NoProto s) (publisherId : String) :
    (s.getState now publisherTtl).publisherSequences.get? publisherId =
      if s.isActive now publisherTtl publisherId then s.publisherSequences.get? publisherId else none := by
  have hpred : (fun e : String × Int =>
        decide (s.isActive now publisherTtl e.1 = true ∧ decide (e.1 = publisherId) = true)) =
      fun e => s.isActive now publisherTtl publisherId && decide (e.1 = publisherId) := by
    funext e
    by_cases he : e.1 = publisherId <;> simp [he]
  unfold JsObject.get?
  rw [entries_sequences h, activeEntries, List.find?_filter, hpred]
  cases s.isActive now publisherTtl publisherId with
  | false | true => simp

theorem numberAt_lastSeen (h : NoProto s) {e : String × Int} (he : e ∈ s.activeEntries now publisherTtl) :
    numberAt (s.getState now publisherTtl).publisherLastSeen e.1 = numberAt s.publisherLastSeen e.1 := by
  have hactive : s.isActive now publisherTtl e.1 = true := by
    simpa using (List.mem_filter.mp he).2
  obtain ⟨ts, hts⟩ : ∃ ts, numberAt s.publisherLastSeen e.1 = some ts := by
    unfold isActive at hactive
    split at hactive
    · rename_i ts hts
      exact ⟨ts, hts⟩
    · cases hactive
  have hfind : ((s.activeEntries now publisherTtl).find? fun e' => e'.1 = e.1).isSome = true := by
    rw [List.find?_isSome]
    exact ⟨e, he, by simp⟩
  obtain ⟨e', he'⟩ := Option.isSome_iff_exists.mp hfind
  have hkey : e'.1 = e.1 := by simpa using List.find?_some he'
  have hget : (s.getState now publisherTtl).publisherLastSeen.get? e.1 = some ts := by
    unfold JsObject.get?
    rw [entries_lastSeen h, List.find?_map]
    simp only [Function.comp_def, he', Option.map_some, hkey, hts, Option.getD_some]
  rw [hts, numberAt, hget]

/-- The stream that is made from the state. -/
def successor (s : WorkflowStream) (now publisherTtl : Int) : WorkflowStream :=
  ⟨s.log.map fun entry => ⟨entry.topic, entry.payload.normal⟩, s.baseOffset,
    (s.getState now publisherTtl).publisherSequences, (s.getState now publisherTtl).publisherLastSeen, false⟩

theorem construct_getState (hportable : ∀ entry ∈ s.log, entry.payload.Portable) :
    construct (s.getState now publisherTtl) = .ok (s.successor now publisherTtl) := by
  have hlog : ∀ log : List LogEntry, (∀ entry ∈ log, entry.payload.Portable) →
      (log.map fun entry => (⟨entry.topic, encodePayloadWire entry.payload, 0⟩ : WireItem)).mapM
          (fun item => (decodePayloadWire item.data).map fun payload => (⟨item.topic, payload⟩ : LogEntry)) =
        .ok (log.map fun entry => ⟨entry.topic, entry.payload.normal⟩) := by
    intro log
    induction log with
    | nil =>
      intro _
      rfl
    | cons entry log ih =>
      intro hlog
      have hentry := decodePayloadWire_encodePayloadWire (hlog entry List.mem_cons_self)
      have hrest := ih fun x hx => hlog x (List.mem_cons_of_mem entry hx)
      rw [List.map_cons, List.mapM_cons, hrest, hentry]
      rfl
  have hstate : (s.getState now publisherTtl).log =
      s.log.map fun entry => ⟨entry.topic, encodePayloadWire entry.payload, 0⟩ := rfl
  rw [construct, hstate, hlog s.log hportable]
  rfl

theorem NoProto.construct {s' : WorkflowStream} (h : NoProto s)
    (hs' : construct (s.getState now publisherTtl) = .ok s') : NoProto s' := by
  have hsame : s'.publisherSequences = (s.getState now publisherTtl).publisherSequences := by
    unfold WorkflowStream.construct at hs'
    rcases hlog : (s.getState now publisherTtl).log.mapM
      (fun item => (decodePayloadWire item.data).map fun payload => (⟨item.topic, payload⟩ : LogEntry)) with _ | log
    · rw [hlog] at hs'
      cases hs'
    · rw [hlog] at hs'
      cases hs'
      rfl
  unfold NoProto at *
  rw [hsame, get?_sequences h, h]
  split <;> rfl

theorem pushAll_ok : ∀ (items : List PublishEntry) {s s' : WorkflowStream}, s.pushAll items = .ok s' →
    s'.publisherSequences = s.publisherSequences ∧ s'.baseOffset = s.baseOffset ∧
      ∃ added, s'.log = s.log ++ added ∧ added.map LogEntry.topic = items.map PublishEntry.topic ∧
        ∀ entry ∈ added, ∃ item ∈ items, decodePayloadWire item.data = .ok entry.payload := by
  intro items
  induction items with
  | nil =>
    intro s s' h
    cases h
    exact ⟨rfl, rfl, [], by simp, rfl, nofun⟩
  | cons item items ih =>
    intro s s' h
    cases hdecode : decodePayloadWire item.data with
    | error err => simp [pushAll, hdecode, Except.map, bind, Except.bind] at h
    | ok payload =>
      have hrest : (s.publishToTopic item.topic payload).pushAll items = .ok s' := by
        simpa [pushAll, hdecode, Except.map, bind, Except.bind] using h
      rcases ih hrest with ⟨hsequences, hbase, added, hlog, htopics, hadded⟩
      refine ⟨hsequences, hbase, ⟨item.topic, payload⟩ :: added, ?_, congrArg (item.topic :: ·) htopics, ?_⟩
      · rw [hlog]
        simp [publishToTopic]
      · intro entry hentry
        rcases List.mem_cons.mp hentry with rfl | hentry
        · exact ⟨item, List.mem_cons_self, hdecode⟩
        · rcases hadded entry hentry with ⟨item', hitem', hdata⟩
          exact ⟨item', List.mem_cons_of_mem item hitem', hdata⟩

theorem NoProto.perform (h : NoProto s) (op : StreamOp) : NoProto (s.perform op).1 := by
  cases op with
  | publish now input =>
    simp only [WorkflowStream.perform]
    cases hpublish : s.onPublish now input with
    | error err => exact h
    | ok s' =>
      unfold NoProto at *
      unfold onPublish at hpublish
      split at hpublish
      · split at hpublish
        · cases hpublish
          exact h
        · rw [(pushAll_ok _ hpublish).1, JsObject.get?_assign]
          by_cases hkey : "__proto__" = input.publisherId
          · simp [← hkey, h]
          · simp [hkey, h]
      · rw [(pushAll_ok _ hpublish).1]
        exact h
  | publishToTopic | offset => exact h
  | truncate upToOffset =>
    simp only [WorkflowStream.perform]
    cases htruncate : s.truncate upToOffset with
    | error failure => exact h
    | ok s' =>
      unfold truncate at htruncate
      simp only at htruncate
      split at htruncate
      · cases htruncate
        exact h
      · split at htruncate
        · cases htruncate
        · cases htruncate
          exact h
  | poll input =>
    simp only [WorkflowStream.perform]
    split <;> exact h
  | look input =>
    simp only [WorkflowStream.perform]
    split
    · split <;> exact h
    · exact h

theorem Reachable.noProto (h : Reachable s) : NoProto s := by
  induction h with
  | init => rfl
  | perform _ op ih => exact ih.perform op
  | detachPollers _ ih => exact ih
  | continueAsNew _ now publisherTtl hs' ih => exact ih.construct hs'

theorem activeEntries_successor (h : NoProto s) :
    (s.successor now publisherTtl).activeEntries now publisherTtl = s.activeEntries now publisherTtl := by
  unfold activeEntries
  rw [show (s.successor now publisherTtl).publisherSequences.entries = s.activeEntries now publisherTtl from
    entries_sequences h]
  show (s.activeEntries now publisherTtl).filter _ = s.activeEntries now publisherTtl
  rw [List.filter_eq_self]
  intro e he
  have hactive : s.isActive now publisherTtl e.1 = true := by simpa using (List.mem_filter.mp he).2
  unfold isActive successor at *
  simpa only [numberAt_lastSeen h he] using hactive

theorem getState_successor (h : NoProto s) :
    (s.successor now publisherTtl).getState now publisherTtl = s.getState now publisherTtl := by
  have hseen : (s.activeEntries now publisherTtl).map (fun e =>
      (e.1, (numberAt (s.getState now publisherTtl).publisherLastSeen e.1).getD 0)) =
      (s.activeEntries now publisherTtl).map fun e => (e.1, (numberAt s.publisherLastSeen e.1).getD 0) := by
    apply List.map_congr_left
    intro e he
    rw [numberAt_lastSeen h he]
  have hlog : (s.successor now publisherTtl).log.map
      (fun entry => (⟨entry.topic, encodePayloadWire entry.payload, 0⟩ : WireItem)) =
      s.log.map fun entry => ⟨entry.topic, encodePayloadWire entry.payload, 0⟩ := by
    simp [successor, encodePayloadWire_normal, Function.comp_def]
  -- The state as a function of the entries that are kept.
  have hstate : ∀ t : WorkflowStream, t.getState now publisherTtl =
      ⟨t.log.map fun entry => ⟨entry.topic, encodePayloadWire entry.payload, 0⟩, t.baseOffset,
        JsObject.empty.assignAll (t.activeEntries now publisherTtl),
        JsObject.empty.assignAll ((t.activeEntries now publisherTtl).map fun e =>
          (e.1, (numberAt t.publisherLastSeen e.1).getD 0))⟩ := fun _ => rfl
  rw [hstate (s.successor now publisherTtl), activeEntries_successor h, hlog]
  show WorkflowStreamState.mk _ _ _ (JsObject.empty.assignAll ((s.activeEntries now publisherTtl).map fun e =>
    (e.1, (numberAt (s.getState now publisherTtl).publisherLastSeen e.1).getD 0))) = _
  rw [hseen]
  rfl

/-- A publisher that `getState` drops. -/
def Stale (s : WorkflowStream) (now publisherTtl : Int) (publisherId : String) : Prop :=
  s.publisherSequences.get? publisherId ≠ none ∧ s.isActive now publisherTtl publisherId = false

theorem alike_successor (h : NoProto s) :
    Alike (fun publisherId => ¬ s.Stale now publisherTtl publisherId) (s.successor now publisherTtl)
      { s with draining := false } := by
  refine ⟨?_, rfl, rfl, ?_⟩
  · simp [successor, LogEntry.wire, encodePayloadWire_normal, Function.comp_def]
  · intro publisherId hknown
    show (s.getState now publisherTtl).publisherSequences.get? publisherId = s.publisherSequences.get? publisherId
    rw [get?_sequences h]
    cases hactive : s.isActive now publisherTtl publisherId with
    | true => rfl
    | false =>
      by_contra hne
      exact hknown ⟨fun hnone => hne hnone.symm, hactive⟩

/-- The stream that is made from the state of `s` answers as `s` would if it were not draining, as far as the
publishers are concerned that `s` has not seen for `publisherTtl`, and has the same state. -/
theorem state_survives_continueAsNew (s : WorkflowStream) (hs : Reachable s) (now publisherTtl : Int)
    (hportable : ∀ entry ∈ s.log, entry.payload.Portable) :
    ∃ s', construct (s.getState now publisherTtl) = .ok s' ∧
      (∀ ops, (∀ op ∈ ops, Concerns (fun publisherId => ¬ s.Stale now publisherTtl publisherId) op) →
        s'.responses ops = ({ s with draining := false } : WorkflowStream).responses ops) ∧
      s'.getState now publisherTtl = s.getState now publisherTtl :=
  ⟨s.successor now publisherTtl, construct_getState hportable,
    fun ops hops => Alike.responses ops (alike_successor hs.noProto) hops, getState_successor hs.noProto⟩

end WorkflowStream

def jsonPayload : Payload :=
  ⟨some ⟨[("encoding", some [106, 115, 111, 110]), ("messageType", none)], by decide +kernel⟩, some [34, 104, 105, 34]⟩

/-- Items of the workflow and of a publisher, the first of which is truncated. -/
def publishedStream : WorkflowStream :=
  (((WorkflowStream.init.perform (.publishToTopic "status" jsonPayload)).1.perform
    (.publish 1000 ⟨[⟨"tokens", encodePayloadWire jsonPayload⟩, ⟨"status", []⟩], "publisher", 1⟩)).1.perform
    (.truncate 1)).1

theorem publishedStream_survives :
    ∃ s', WorkflowStream.construct (publishedStream.getState 2000 900000) = .ok s' ∧
      (∀ ops, (∀ op ∈ ops, WorkflowStream.Concerns (fun id => ¬ publishedStream.Stale 2000 900000 id) op) →
        s'.responses ops = ({ publishedStream with draining := false } : WorkflowStream).responses ops) ∧
      s'.getState 2000 900000 = publishedStream.getState 2000 900000 :=
  WorkflowStream.state_survives_continueAsNew publishedStream (.perform (.perform (.perform .init _) _) _) 2000 900000
    (by decide +kernel)

/-- A stream that drains rejects polls, and the one that is made from its state does not. -/
theorem not_answers_as_draining :
    WorkflowStream.Reachable WorkflowStream.init.detachPollers ∧
      ∃ s', WorkflowStream.construct (WorkflowStream.init.detachPollers.getState 0 900000) = .ok s' ∧
        s'.responses [.poll ⟨[], 0⟩] ≠ WorkflowStream.init.detachPollers.responses [.poll ⟨[], 0⟩] :=
  ⟨.detachPollers .init, WorkflowStream.init, rfl, by decide⟩

end TemporalSdk.Streams
