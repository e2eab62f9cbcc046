import TemporalSdk.Failures.Converter

/-!
# Failure messages as objects

A failure message is an object that others refer to: an error keeps the one it was made from, a handler error has one
in its original failure, and a message refers to that of its cause.  `errorToFailure` may return such an object, and
then it writes to it.  Errors themselves are never written to.
-/

namespace TemporalSdk.Failures

/-- A reference to a message together with the one to its cause: no message is ever given another cause. -/
inductive FailureRef where
  | mk (id : Nat) (cause : Option FailureRef)

/-- The messages that there are, without their causes; a reference has the index of its own. -/
abbrev Messages (P : Type) := List (FailureFields P)

namespace Messages

variable {P : Type}

def get (messages : Messages P) (id : Nat) : FailureFields P :=
  messages.getD id ⟨none, none, none, none, none⟩

theorem get_of_extends {messages messages' : Messages P} (h : messages <+: messages') {id : Nat}
    (hid : id < messages.length) : messages'.get id = messages.get id := by
  rcases h with ⟨more, rfl⟩
  simp only [get, List.getD_eq_getElem?_getD, List.getElem?_append_left hid]

theorem get_append (messages : Messages P) (fields : FailureFields P) :
    Messages.get (messages ++ [fields]) messages.length = fields := by
  simp [get]

end Messages

namespace FailureRef

variable {P : Type}

def id : FailureRef → Nat
  | .mk id _ => id

mutual

/-- The message with its causes. -/
def read (messages : Messages P) : FailureRef → Failure P
  | .mk id cause => .mk (messages.get id) (readCause messages cause)

def readCause (messages : Messages P) : Option FailureRef → Option (Failure P)
  | none => none
  | some cause => some (read messages cause)

end

mutual

/-- All messages that the reference leads to are there. -/
def Valid (messages : Messages P) : FailureRef → Prop
  | .mk id cause => id < messages.length ∧ ValidCause messages cause

def ValidCause (messages : Messages P) : Option FailureRef → Prop
  | none => True
  | some cause => Valid messages cause

end

mutual

theorem Valid.mono {messages messages' : Messages P} (h : messages <+: messages') :
    ∀ {ref : FailureRef}, ref.Valid messages → ref.Valid messages'
  | .mk _ _, hvalid => ⟨Nat.lt_of_lt_of_le hvalid.1 h.length_le, ValidCause.mono h hvalid.2⟩

theorem ValidCause.mono {messages messages' : Messages P} (h : messages <+: messages') :
    ∀ {cause : Option FailureRef}, ValidCause messages cause → ValidCause messages' cause
  | none, _ => trivial
  | some _, hvalid => Valid.mono h hvalid

end

mutual

theorem read_of_extends {messages messages' : Messages P} (h : messages <+: messages') :
    ∀ {ref : FailureRef}, ref.Valid messages → ref.read messages' = ref.read messages
  | .mk _ _, hvalid => by
    simp only [read, Messages.get_of_extends h hvalid.1, readCause_of_extends h hvalid.2]

theorem readCause_of_extends {messages messages' : Messages P} (h : messages <+: messages') :
    ∀ {cause : Option FailureRef}, ValidCause messages cause → readCause messages' cause = readCause messages cause
  | none, _ => rfl
  | some _, hvalid => by simp only [readCause, read_of_extends h hvalid]

end

end FailureRef

/-! ## Errors -/

inductive OriginalFailure (P : Type) where
  | temporal (message : String) (details : Option FailureRef)
  | foreign (message : String) (stackTrace : Option String) (json : P)

/-- The fields of an error that refers to messages.  A handler error has its original failure in `original`. -/
structure ObjectFields (V P : Type) where
  kind : ErrorKind V P
  message : String
  stack : Option String
  failure : Option FailureRef
  original : Option (OriginalFailure P)

inductive ErrorObject (V P : Type) where
  | mk (fields : ObjectFields V P) (cause : Option (ErrorObject V P))
  | nonError (text : String)

variable {V P : Type}

def OriginalFailure.value (messages : Messages P) : OriginalFailure P → NexusFailure P
  | .temporal message details => .temporal message (details.map (FailureRef.read messages))
  | .foreign message stackTrace json => .foreign message stackTrace json

def ObjectFields.value (messages : Messages P) (fields : ObjectFields V P) : ErrorFields V P where
  kind :=
    match fields.kind with
    | .HandlerError type retryableOverride rawErrorType _ =>
      .HandlerError type retryableOverride rawErrorType (fields.original.map (OriginalFailure.value messages))
    | kind => kind
  message := fields.message
  stack := fields.stack
  failure := fields.failure.map (FailureRef.read messages)

namespace ErrorObject

mutual

/-- What the error is, with the messages it refers to. -/
def value (messages : Messages P) : ErrorObject V P → ErrorTree V P
  | .mk fields cause => .mk (fields.value messages) (causeValue messages cause)
  | .nonError text => .nonError text

def causeValue (messages : Messages P) : Option (ErrorObject V P) → Option (ErrorTree V P)
  | none => none
  | some cause => some (value messages cause)

end

/-- The message in an original failure. -/
def originalDetails : Option (OriginalFailure P) → Option FailureRef
  | some (.temporal _ details) => details
  | _ => none

mutual

def Valid (messages : Messages P) : ErrorObject V P → Prop
  | .mk fields cause => (∀ ref ∈ fields.failure, ref.Valid messages) ∧
      (∀ ref ∈ originalDetails fields.original, ref.Valid messages) ∧ ValidCause messages cause
  | .nonError _ => True

def ValidCause (messages : Messages P) : Option (ErrorObject V P) → Prop
  | none => True
  | some cause => Valid messages cause

end

mutual

/-- The messages that a conversion of the error returns or goes through: that of the first error on the way to the
last cause that has one, and those in the original failures of handler errors before it. -/
def carried : ErrorObject V P → List FailureRef
  | .mk fields cause =>
    match fields.failure with
    | some failure => [failure]
    | none =>
      match fields.kind with
      | .HandlerError .. => carriedByCause cause ++ (originalDetails fields.original).toList
      | _ => carriedByCause cause
  | .nonError _ => []

def carriedByCause : Option (ErrorObject V P) → List FailureRef
  | none => []
  | some cause => carried cause

end

end ErrorObject

variable {messages messages' : Messages P}

theorem ObjectFields.value_of_extends (h : messages <+: messages')
    {fields : ObjectFields V P} (hfailure : ∀ ref ∈ fields.failure, ref.Valid messages)
    (horiginal : ∀ ref ∈ ErrorObject.originalDetails fields.original, ref.Valid messages) :
    fields.value messages' = fields.value messages := by
  have hread : fields.failure.map (FailureRef.read messages') = fields.failure.map (FailureRef.read messages) :=
    Option.map_congr fun ref href => FailureRef.read_of_extends h (hfailure ref href)
  have hvalue : fields.original.map (OriginalFailure.value messages') =
      fields.original.map (OriginalFailure.value messages) := by
    apply Option.map_congr
    intro original ho
    rw [ho] at horiginal
    cases original with
    | foreign message stackTrace json => rfl
    | temporal message details =>
      rw [OriginalFailure.value, OriginalFailure.value]
      exact congrArg (NexusFailure.temporal message)
        (Option.map_congr fun ref href => FailureRef.read_of_extends h (horiginal ref href))
  simp only [value, hread, hvalue]

namespace ErrorObject

mutual

theorem value_of_extends (h : messages <+: messages') :
    ∀ {err : ErrorObject V P}, err.Valid messages → err.value messages' = err.value messages
  | .mk _ _, hvalid => by
    simp only [value, ObjectFields.value_of_extends h hvalid.1 hvalid.2.1, causeValue_of_extends h hvalid.2.2]
  | .nonError _, _ => rfl

theorem causeValue_of_extends (h : messages <+: messages') :
    ∀ {cause : Option (ErrorObject V P)}, ValidCause messages cause →
      causeValue messages' cause = causeValue messages cause
  | none, _ => rfl
  | some _, hvalid => by simp only [causeValue, value_of_extends h hvalid]

end

mutual

theorem Valid.mono (h : messages <+: messages') :
    ∀ {err : ErrorObject V P}, err.Valid messages → err.Valid messages'
  | .mk _ _, hvalid => ⟨fun ref href => (hvalid.1 ref href).mono h, fun ref href => (hvalid.2.1 ref href).mono h,
      ValidCause.mono h hvalid.2.2⟩
  | .nonError _, _ => trivial

theorem ValidCause.mono (h : messages <+: messages') :
    ∀ {cause : Option (ErrorObject V P)}, ValidCause messages cause → ValidCause messages' cause
  | none, _ => trivial
  | some _, hvalid => Valid.mono h hvalid

end

end ErrorObject

/-! ## Conversions -/

namespace Converter

variable (conv : Converter V P)

/-- What `errorToFailure` writes to the message it returns.  The payload comes last, and may not come at all. -/
def encodeInPlace (ref : FailureRef) (messages : Messages P) : Except Thrown FailureRef × Messages P :=
  if conv.encodeCommonAttributes then
    let fields := messages.get ref.id
    let written := { fields with message := some "Encoded failure", stackTrace := some "" }
    match conv.toPayload (conv.attributes fields.message fields.stackTrace) with
    | .error e => (.error e, messages.set ref.id written)
    | .ok payload => (.ok ref, messages.set ref.id { written with encodedAttributes := some payload })
  else (.ok ref, messages)

/-- A message of its own. -/
def encodeNew (fields : FailureFields P) (cause : Option FailureRef) (messages : Messages P) :
    Except Thrown FailureRef × Messages P :=
  conv.encodeInPlace (.mk messages.length cause) (messages ++ [fields])

mutual

/-- `errorToFailure` -/
def toFailure : ErrorObject V P → Messages P → Except Thrown FailureRef × Messages P
  | .mk fields cause, messages =>
    match fields.failure with
    | some failure => conv.encodeInPlace failure messages
    | none =>
      match toCause cause messages with
      | (.error e, messages) => (.error e, messages)
      | (.ok cause, messages) =>
        match fields.kind, fields.original with
        | .HandlerError _ _ _ _, some (.temporal _ none) =>
          (.error (.typeError
            "missing details for Nexus Failure of type 'temporal.api.failure.v1.Failure'"), messages)
        | .HandlerError _ _ _ _, some (.temporal _ (some details)) => conv.encodeInPlace details messages
        | .HandlerError type retryableOverride _ _, some (.foreign message stackTrace json) =>
          let retryable := conv.retryable type retryableOverride
          let info := .applicationFailureInfo (.value "NexusFailure") (.value (!retryable)) (some [json])
            none none
          conv.encodeNew ⟨some message, some (stackTrace.getD ""), none, none, some info⟩ none messages
        | kind, _ =>
          match conv.failureInfo kind with
          | .error e => (.error e, messages)
          | .ok info =>
            conv.encodeNew ⟨some fields.message, some (cutoffStackTrace fields.stack),
              some FAILURE_SOURCE, none, info⟩ cause messages
  | .nonError text, messages =>
    match nonErrorToFailure text with
    | .mk fields _ => conv.encodeNew fields none messages

def toCause : Option (ErrorObject V P) → Messages P → Except Thrown (Option FailureRef) × Messages P
  | none, messages => (.ok none, messages)
  | some cause, messages =>
    match toFailure cause messages with
    | (.error e, messages) => (.error e, messages)
    | (.ok ref, messages) => (.ok (some ref), messages)

end

/-- The message that is converted: a copy if its attributes were encoded in an object, and otherwise itself. -/
def withAttributes (isObject : V → Bool) (id : Nat) (messages : Messages P) : Except Thrown (Nat × Messages P) :=
  match (messages.get id).encodedAttributes with
  | none => .ok (id, messages)
  | some payload => do
    let attrs ← conv.fromPayload payload
    if isObject attrs then
      let fields := messages.get id
      .ok (messages.length, messages ++ [{ fields with
        message := (conv.attributesMessage attrs).or fields.message,
        stackTrace := (conv.attributesStackTrace attrs).or fields.stackTrace }])
    else .ok (id, messages)

mutual

/-- `failureToError` -/
def toError (isObject : V → Bool) : FailureRef → Messages P → Except Thrown (ErrorObject V P) × Messages P
  | .mk id cause, messages =>
    match conv.withAttributes isObject id messages with
    | .error e => (.error e, messages)
    | .ok (id, messages) =>
      let fields := messages.get id
      let ref := FailureRef.mk id cause
      match conv.errorKind (ref.read messages) fields.info with
      | .error e => (.error e, messages)
      | .ok kind =>
        match if takesCause fields.info then toErrorCause isObject cause messages
          else (.ok none, messages) with
        | (.error e, messages) => (.error e, messages)
        | (.ok causeError, messages) =>
          let error original : ErrorObject V P := .mk
            ⟨kind, errorMessage fields.info fields.message, some (fields.stackTrace.getD ""),
              if isTemporalFailure kind then some ref else none, original⟩ causeError
          match kind with
          | .HandlerError .. =>
            -- The original failure has a copy of its own.
            (.ok (error (some (.temporal (fields.message.getD "") (some (.mk messages.length cause))))),
              messages ++ [fields])
          | _ => (.ok (error none), messages)

def toErrorCause (isObject : V → Bool) : Option FailureRef → Messages P →
    Except Thrown (Option (ErrorObject V P)) × Messages P
  | none, messages => (.ok none, messages)
  | some cause, messages =>
    match toError isObject cause messages with
    | (.error e, messages) => (.error e, messages)
    | (.ok err, messages) => (.ok (some err), messages)

end

end Converter
end TemporalSdk.Failures
