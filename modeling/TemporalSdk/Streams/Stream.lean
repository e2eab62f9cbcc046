import TemporalSdk.Streams.Codec

/-!
# Stream — the workflow's side of a stream

A stream keeps the items that were published and not truncated, the offset of the first of them, and for each
publisher the last sequence number and when it came.  Times are in milliseconds.
-/

namespace TemporalSdk.Streams

open Machine

structure LogEntry where
  topic : String
  payload : Payload
  deriving DecidableEq

structure PublishEntry where
  topic : String
  data : List Char
  deriving DecidableEq

structure PublishInput where
  items : List PublishEntry
  publisherId : String
  sequence : Int
  deriving DecidableEq

structure PollInput where
  topics : List String
  fromOffset : Int
  deriving DecidableEq

structure WireItem where
  topic : String
  data : List Char
  offset : Nat
  deriving DecidableEq

structure PollResult where
  items : List WireItem
  nextOffset : Nat
  moreReady : Bool
  deriving DecidableEq

structure WorkflowStreamState where
  log : List WireItem
  baseOffset : Nat
  publisherSequences : JsObject Int
  publisherLastSeen : JsObject Int
  deriving DecidableEq

/-- Those that the stream makes are not retryable. -/
structure ApplicationFailure where
  message : String
  type : String
  deriving DecidableEq

structure WorkflowStream where
  log : List LogEntry
  baseOffset : Nat
  publisherSequences : JsObject Int
  publisherLastSeen : JsObject Int
  draining : Bool
  deriving DecidableEq

/-- The members that a plain object has from its prototype. -/
def inheritedMembers : List String :=
  ["constructor", "__defineGetter__", "__defineSetter__", "hasOwnProperty", "__lookupGetter__", "__lookupSetter__",
    "isPrototypeOf", "propertyIsEnumerable", "toString", "valueOf", "__proto__", "toLocaleString"]

/-- `record[key] ?? 0` as a number.  An inherited member is none. -/
def numberAt (record : JsObject Int) (key : String) : Option Int :=
  match record.get? key with
  | some n => some n
  | none => if key ∈ inheritedMembers then none else some 0

def MAX_POLL_RESPONSE_BYTES : Nat := 1000000

/-- `length` of a string: characters beyond the basic plane count twice. -/
def stringLength (s : String) : Nat := (s.toList.map fun c => if c.toNat < 0x10000 then 1 else 2).sum

def payloadWireSize (encoded : List Char) (topic : String) : Nat := encoded.length + stringLength topic

namespace WorkflowStream

def init : WorkflowStream := ⟨[], 0, .empty, .empty, false⟩

/-- The constructor, with a prior state. -/
def construct (priorState : WorkflowStreamState) : Except Thrown WorkflowStream := do
  let log ← priorState.log.mapM fun item => (decodePayloadWire item.data).map fun payload => ⟨item.topic, payload⟩
  .ok ⟨log, priorState.baseOffset, priorState.publisherSequences, priorState.publisherLastSeen, false⟩

/-- The offset query. -/
def offset (s : WorkflowStream) : Nat := s.baseOffset + s.log.length

def publishToTopic (s : WorkflowStream) (topic : String) (payload : Payload) : WorkflowStream :=
  { s with log := s.log ++ [⟨topic, payload⟩] }

def detachPollers (s : WorkflowStream) : WorkflowStream := { s with draining := true }

/-- The publisher was seen less than `publisherTtl` ago. -/
def isActive (s : WorkflowStream) (now publisherTtl : Int) (publisherId : String) : Bool :=
  match numberAt s.publisherLastSeen publisherId with
  | some ts => now - ts < publisherTtl
  | none => false

def getState (s : WorkflowStream) (now publisherTtl : Int) : WorkflowStreamState :=
  let active := s.publisherSequences.entries.filter fun e => s.isActive now publisherTtl e.1
  { log := s.log.map fun entry => ⟨entry.topic, encodePayloadWire entry.payload, 0⟩
    baseOffset := s.baseOffset
    publisherSequences := JsObject.empty.assignAll active
    publisherLastSeen :=
      JsObject.empty.assignAll (active.map fun e => (e.1, (numberAt s.publisherLastSeen e.1).getD 0)) }

def truncate (s : WorkflowStream) (upToOffset : Int) : Except ApplicationFailure WorkflowStream :=
  let logIndex := upToOffset - s.baseOffset
  if logIndex ≤ 0 then .ok s
  else if logIndex > s.log.length then
    .error ⟨s!"Cannot truncate to offset {upToOffset}: only {s.offset} items exist", "TruncateOutOfRange"⟩
  else .ok { s with log := s.log.drop logIndex.toNat, baseOffset := upToOffset.toNat }

/-- `input.sequence <= lastSeq`, which is false when `lastSeq` is no number. -/
def isDuplicate (s : WorkflowStream) (publisherId : String) (sequence : Int) : Bool :=
  match numberAt s.publisherSequences publisherId with
  | some lastSeq => sequence ≤ lastSeq
  | none => false

def pushAll (s : WorkflowStream) (items : List PublishEntry) : Except Thrown WorkflowStream :=
  items.foldlM (fun s entry => (decodePayloadWire entry.data).map fun payload => s.publishToTopic entry.topic payload)
    s

/-- An error fails the activation. -/
def onPublish (s : WorkflowStream) (now : Int) (input : PublishInput) : Except Thrown WorkflowStream :=
  if input.publisherId ≠ "" then
    if s.isDuplicate input.publisherId input.sequence then .ok s
    else
      pushAll
        { s with
          publisherSequences := s.publisherSequences.assign input.publisherId input.sequence
          publisherLastSeen := s.publisherLastSeen.assign input.publisherId now }
        input.items
  else s.pushAll input.items

/-! ### Polls -/

def isTruncated (s : WorkflowStream) (fromOffset : Int) : Bool :=
  fromOffset ≠ 0 && fromOffset - s.baseOffset < 0

def truncatedFailure (s : WorkflowStream) (fromOffset : Int) : ApplicationFailure :=
  ⟨s!"Requested offset {fromOffset} has been truncated. Current base offset is {s.baseOffset}.", "TruncatedOffset"⟩

/-- The validator of the poll update, and its handler up to the wait. -/
def pollRejection (s : WorkflowStream) (input : PollInput) : Option ApplicationFailure :=
  if s.draining then some ⟨"Workflow is draining for continue-as-new", "StreamDraining"⟩
  else if s.isTruncated input.fromOffset then some (s.truncatedFailure input.fromOffset)
  else none

/-- What the poll waits for. -/
def pollReady (s : WorkflowStream) (input : PollInput) : Bool :=
  s.draining || s.isTruncated input.fromOffset || (s.log.length : Int) > max (input.fromOffset - s.baseOffset) 0

/-- The entries from an index on, with their offsets. -/
def numbered (offset : Nat) : List LogEntry → List (Nat × LogEntry)
  | [] => []
  | entry :: rest => (offset, entry) :: numbered (offset + 1) rest

def matchesTopics (topics : List String) (topic : String) : Bool := topics.isEmpty || topics.contains topic

/-- The items that fit, and the offset of the first one that does not. -/
def takeFitting (size : Nat) (started : Bool) : List (Nat × LogEntry) → List WireItem × Option Nat
  | [] => ([], none)
  | (off, entry) :: rest =>
    let encoded := encodeBase64 (encodePayloadProto entry.payload)
    let itemSize := payloadWireSize encoded entry.topic
    if size + itemSize > MAX_POLL_RESPONSE_BYTES ∧ started then ([], some off)
    else
      let (items, resume) := takeFitting (size + itemSize) true rest
      (⟨entry.topic, encoded, off⟩ :: items, resume)

/-- The rest of the handler, after the wait. -/
def pollAnswer (s : WorkflowStream) (input : PollInput) : Except ApplicationFailure PollResult :=
  if s.isTruncated input.fromOffset then .error (s.truncatedFailure input.fromOffset)
  else
    let logOffset := (input.fromOffset - s.baseOffset).toNat
    let candidates := (numbered (s.baseOffset + logOffset) (s.log.drop logOffset)).filter
      fun c => matchesTopics input.topics c.2.topic
    let (items, resume) := takeFitting 0 false candidates
    .ok ⟨items, resume.getD s.offset, resume.isSome⟩

end WorkflowStream

end TemporalSdk.Streams
