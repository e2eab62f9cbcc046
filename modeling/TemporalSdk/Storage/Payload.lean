import TemporalSdk.Machine.SiteTree

/-!
# Payload — payloads, messages and the protobuf converter

The classes that are generated from the protobuf descriptors are no part of the sources.  They are a
parameter, `Protobuf`, of everything that encodes, decodes or measures a message.
-/

namespace TemporalSdk.Storage

open Machine

abbrev Bytes := List UInt8

def encode (s : String) : Bytes := s.toUTF8.data.toList

/-- `TextDecoder` puts replacement characters where the bytes are no text. -/
def decode (b : Bytes) : String := (String.fromUTF8? ⟨b.toArray⟩).getD "�"

@[simp] theorem decode_encode (s : String) : decode (encode s) = s := by
  have h : s.toByteArray.IsValidUTF8 := s.isValidUTF8
  simp [decode, encode, String.fromUTF8?, String.fromUTF8, h]

structure Payload where
  metadata : List (String × Bytes)
  data : Option Bytes
  /-- The `sizeBytes` of each entry. -/
  externalPayloads : List Nat
  deriving DecidableEq

def METADATA_ENCODING_KEY : String := "encoding"

def METADATA_MESSAGE_TYPE_KEY : String := "messageType"

def METADATA_ENCODING_PROTOBUF_JSON : String := "json/protobuf"

def METADATA_ENCODING_PROTOBUF : String := "binary/protobuf"

def SYSTEM_NEXUS_PAYLOAD_METADATA_KEY : String := "__temporal_system_payload"

def SYSTEM_NEXUS_PAYLOAD_METADATA_VALUE : Bytes := [116, 114, 117, 101]

/-- The classes of the errors that end a pass over payloads. -/
inductive ErrorName
  | error
  | typeError
  | valueError
  | payloadConverterError
  | externalStorageDriverError
  | externalStorageReferenceError
  | externalStorageUnregisteredDriverError
  deriving DecidableEq

structure Thrown where
  name : ErrorName
  message : String
  deriving DecidableEq

/-! ## Messages -/

structure WorkflowExecution where
  ns : Option String
  workflowId : Option String
  deriving DecidableEq

/-- A message without the fields that hold payloads, directly or in messages below them.  The messages
that a storage target is derived from are told apart, with what is read of them; `plain` is the rest. -/
inductive Label
  | startChildWorkflowExecution (ns workflowId workflowType : Option String) (plain : Bytes)
  | signalExternalWorkflowExecution (workflowExecution : Option WorkflowExecution)
      (childWorkflowId : Option String) (plain : Bytes)
  | requestCancelExternalWorkflowExecution (workflowExecution : Option WorkflowExecution)
      (childWorkflowId : Option String) (plain : Bytes)
  | continueAsNewWorkflowExecution (workflowType : Option String) (plain : Bytes)
  | completeWorkflowExecution (plain : Bytes)
  | other (typeName : String) (plain : Bytes)
  deriving DecidableEq

def Label.typeName : Label → String
  | .startChildWorkflowExecution .. => "coresdk.workflow_commands.StartChildWorkflowExecution"
  | .signalExternalWorkflowExecution .. => "coresdk.workflow_commands.SignalExternalWorkflowExecution"
  | .requestCancelExternalWorkflowExecution .. =>
    "coresdk.workflow_commands.RequestCancelExternalWorkflowExecution"
  | .continueAsNewWorkflowExecution .. => "coresdk.workflow_commands.ContinueAsNewWorkflowExecution"
  | .completeWorkflowExecution .. => "coresdk.workflow_commands.CompleteWorkflowExecution"
  | .other typeName _ => typeName

/-- A field, or one entry of a field that is a map. -/
structure FieldKey where
  name : String
  entry : Option String
  deriving DecidableEq

abbrev Message := SiteTree Label FieldKey Payload

def Message.typeName (m : Message) : String := m.label.typeName

structure StorageDriverClaim where
  claimData : List (String × String)
  deriving DecidableEq

structure Protobuf where
  lookupType : String → Bool
  decodeMessage : String → Bytes → Except Thrown Message
  encodeMessage : Message → Bytes
  /-- The types that `walkPayloadsInMessage` has a case for. -/
  isRootType : String → Bool
  payloadProtoSize : Payload → Nat
  /-- The JSON text of an `ExternalStorageReference`. -/
  referenceJson : String → StorageDriverClaim → Bytes

/-! ## `ProtobufBinaryPayloadConverter` -/

def constructPayload (encodingType messageTypeName : String) (message : Bytes) : Payload where
  metadata :=
    [(METADATA_ENCODING_KEY, encode encodingType), (METADATA_MESSAGE_TYPE_KEY, encode messageTypeName)]
  data := some message
  externalPayloads := []

namespace Protobuf

variable (pb : Protobuf)

def toPayload (m : Message) : Payload :=
  constructPayload METADATA_ENCODING_PROTOBUF m.typeName (pb.encodeMessage m)

def validatePayload (content : Payload) : Except Thrown (String × Bytes) :=
  match content.data with
  | none => throw ⟨.valueError, "Got payload with no data"⟩
  | some data =>
    match content.metadata.lookup METADATA_MESSAGE_TYPE_KEY with
    | none => throw ⟨.valueError, "Got protobuf payload without metadata." ++ METADATA_MESSAGE_TYPE_KEY⟩
    | some value =>
      let messageTypeName := decode value
      if pb.lookupType messageTypeName then pure (messageTypeName, data)
      else
        throw ⟨.payloadConverterError, "Got a `" ++ messageTypeName ++
          "` protobuf message but cannot find corresponding message class in `root`"⟩

def fromPayload (content : Payload) : Except Thrown Message := do
  let (messageType, data) ← pb.validatePayload content
  pb.decodeMessage messageType data

variable {pb}

end Protobuf

/-! ## System Nexus envelopes -/

/-- The marker of a System Nexus outer envelope. -/
def isSystemNexusEnvelope (payload : Payload) : Bool :=
  payload.metadata.lookup SYSTEM_NEXUS_PAYLOAD_METADATA_KEY = some SYSTEM_NEXUS_PAYLOAD_METADATA_VALUE

theorem toPayload_not_isSystemNexusEnvelope (pb : Protobuf) (m : Message) :
    isSystemNexusEnvelope (pb.toPayload m) = false := by
  simp [isSystemNexusEnvelope, Protobuf.toPayload, constructPayload, METADATA_ENCODING_KEY,
    METADATA_MESSAGE_TYPE_KEY, SYSTEM_NEXUS_PAYLOAD_METADATA_KEY, List.lookup_cons]

structure OperationRegistryEntry where
  service : String
  operation : String
  deriving DecidableEq

def operationRegistry : List OperationRegistryEntry :=
  [⟨"temporal.api.workflowservice.v1.WorkflowService", "SignalWithStartWorkflowExecution"⟩]

def operationDefinition (service operation : Option String) : Option OperationRegistryEntry :=
  operationRegistry.find? fun entry => some entry.service = service ∧ some entry.operation = operation

def requireSystemOperation (service operation : Option String) : Except Thrown OperationRegistryEntry :=
  match operationDefinition service operation with
  | some definition => pure definition
  | none =>
    throw ⟨.typeError, "unsupported System Nexus operation: " ++ service.getD "undefined" ++ "/" ++
      operation.getD "undefined"⟩

end TemporalSdk.Storage
