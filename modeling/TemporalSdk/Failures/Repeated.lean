import TemporalSdk.Failures.Objects
import TemporalSdk.Failures.RoundTrip
import TemporalSdk.Machine.Run

/-!
# Converting an error more than once

As long as `errorToFailure` writes to no message that an error carries, or only what is there already, it does to
error objects what it does to their values, and no error changes.
-/

namespace TemporalSdk.Failures
namespace Converter

open Machine

variable {V P : Type} (conv : Converter V P)

/-- The message has the form that encoding gives it, and that of an encoded message. -/
structure Settled (messages : Messages P) (ref : FailureRef) : Prop where
  message : (messages.get ref.id).message = some "Encoded failure"
  stackTrace : (messages.get ref.id).stackTrace = some ""
  encodedAttributes : ∃ payload, conv.toPayload (conv.attributes (some "Encoded failure") (some "")) = .ok payload ∧
    (messages.get ref.id).encodedAttributes = some payload

/-- The conversion of the error leaves all messages as they are. -/
def Harmless (messages : Messages P) (err : ErrorObject V P) : Prop :=
  conv.encodeCommonAttributes = false ∨ ∀ ref ∈ err.carried, conv.Settled messages ref

/-- A conversion that only adds messages and comes to the given value. -/
structure Refines {α β : Type} (read : Messages P → α → β) (Valid : Messages P → α → Prop) (messages : Messages P)
    (out : Except Thrown α × Messages P) (spec : Except Thrown β) : Prop where
  extends_ : messages <+: out.2
  result : out.1.map (read out.2) = spec
  valid : ∀ a, out.1 = .ok a → Valid out.2 a

abbrev RefinesFailure (messages : Messages P) (out : Except Thrown FailureRef × Messages P)
    (spec : Except Thrown (Failure P)) : Prop :=
  Refines FailureRef.read FailureRef.Valid messages out spec

abbrev RefinesCause (messages : Messages P) (out : Except Thrown (Option FailureRef) × Messages P)
    (spec : Except Thrown (Option (Failure P))) : Prop :=
  Refines FailureRef.readCause FailureRef.ValidCause messages out spec

variable {conv}

variable {ref : FailureRef}

theorem Settled.of_extends {messages messages' : Messages P} (h : messages <+: messages')
    (hvalid : ref.Valid messages) (hsettled : conv.Settled messages ref) : conv.Settled messages' ref := by
  cases ref with
  | mk id cause =>
    have hget := Messages.get_of_extends h hvalid.1
    refine ⟨?_, ?_, ?_⟩
    · rw [FailureRef.id, hget]
      exact hsettled.message
    · rw [FailureRef.id, hget]
      exact hsettled.stackTrace
    · rw [FailureRef.id, hget]
      exact hsettled.encodedAttributes

variable {messages : Messages P}

theorem set_get {id : Nat} (h : id < messages.length) {fields : FailureFields P}
    (heq : messages.get id = fields) : messages.set id fields = messages := by
  have hget : messages[id] = fields := by
    rw [← heq, Messages.get, List.getD_eq_getElem?_getD, List.getElem?_eq_getElem h, Option.getD_some]
  rw [← hget, List.set_getElem_self]

/-- A carried message is returned as it is. -/
theorem encodeInPlace_refines (hvalid : ref.Valid messages)
    (hsettled : conv.encodeCommonAttributes = false ∨ conv.Settled messages ref) :
    RefinesFailure messages (conv.encodeInPlace ref messages) (conv.encodeAttributes (ref.read messages)) := by
  cases ref with
  | mk id cause =>
    cases hencode : conv.encodeCommonAttributes with
    | false =>
      have hsame : conv.encodeInPlace (.mk id cause) messages = (.ok (.mk id cause), messages) := by
        simp [encodeInPlace, hencode]
      rw [hsame]
      refine ⟨List.prefix_rfl, ?_, ?_⟩
      · simp [FailureRef.read, encodeAttributes, hencode, Except.map, pure, Except.pure]
      · rintro _ ⟨⟩
        exact hvalid
    | true =>
      have hready : conv.Settled messages (.mk id cause) := hsettled.resolve_left (by simp [hencode])
      rcases hready.encodedAttributes with ⟨payload, hpayload, hattributes⟩
      have hmessage := hready.message
      have hstack := hready.stackTrace
      simp only [FailureRef.id] at hattributes hmessage hstack
      -- The message is read, and then written with the same fields.
      have hfields : messages.get id =
          { messages.get id with
            message := some "Encoded failure", stackTrace := some "", encodedAttributes := some payload } := by
        cases hget : messages.get id with
        | mk message stackTrace source encodedAttributes info =>
          rw [hget] at hattributes hmessage hstack
          simp only at hattributes hmessage hstack
          rw [hattributes, hmessage, hstack]
      have hset := set_get hvalid.1 hfields
      have hsame : conv.encodeInPlace (.mk id cause) messages = (.ok (.mk id cause), messages) := by
        simp only [encodeInPlace, hencode, if_true, FailureRef.id, hmessage, hstack, hpayload]
        rw [hset]
      rw [hsame]
      refine ⟨List.prefix_rfl, ?_, ?_⟩
      · simp only [FailureRef.read, encodeAttributes, hencode, if_true, hmessage, hstack, hpayload, bind,
          Except.bind, Except.map, pure, Except.pure]
        rw [← hfields]
      · rintro _ ⟨⟩
        exact hvalid

/-- A new message is written to before anything refers to it. -/
theorem encodeNew_refines (fields : FailureFields P) {cause : Option FailureRef}
    (hcause : FailureRef.ValidCause messages cause) :
    RefinesFailure messages (conv.encodeNew fields cause messages)
      (conv.encodeAttributes (.mk fields (FailureRef.readCause messages cause))) := by
  have hget : Messages.get (messages ++ [fields]) messages.length = fields := Messages.get_append messages fields
  have hset : ∀ fields' : FailureFields P, (messages ++ [fields]).set messages.length fields' =
      messages ++ [fields'] := by
    intro fields'
    rw [List.set_append_right _ _ (Nat.le_refl _), Nat.sub_self]
    rfl
  have hread : ∀ fields' : FailureFields P, FailureRef.read (messages ++ [fields']) (.mk messages.length cause) =
      .mk fields' (FailureRef.readCause messages cause) := by
    intro fields'
    rw [FailureRef.read, Messages.get_append, FailureRef.readCause_of_extends (List.prefix_append _ _) hcause]
  have hvalid : ∀ fields' : FailureFields P, FailureRef.Valid (messages ++ [fields']) (.mk messages.length cause) :=
    fun fields' => ⟨by simp, FailureRef.ValidCause.mono (List.prefix_append _ _) hcause⟩
  cases hencode : conv.encodeCommonAttributes with
  | false =>
    simp only [encodeNew, encodeInPlace, hencode, encodeAttributes, Bool.false_eq_true, if_false]
    refine ⟨List.prefix_append _ _, ?_, ?_⟩
    · simp only [Except.map, hread, pure, Except.pure]
    · rintro _ ⟨⟩
      exact hvalid fields
  | true =>
    simp only [encodeNew, encodeInPlace, hencode, encodeAttributes, if_true, FailureRef.id, hget, bind, Except.bind]
    cases conv.toPayload (conv.attributes fields.message fields.stackTrace) with
    | error e =>
      simp only [hset]
      refine ⟨List.prefix_append _ _, rfl, ?_⟩
      rintro _ ⟨⟩
    | ok payload =>
      simp only [hset]
      refine ⟨List.prefix_append _ _, ?_, ?_⟩
      · simp only [Except.map, hread, pure, Except.pure]
      · rintro _ ⟨⟩
        exact hvalid _

theorem Refines.trans {messages messages' : Messages P} {out : Except Thrown FailureRef × Messages P}
    {spec : Except Thrown (Failure P)} (h : RefinesFailure messages' out spec) (hext : messages <+: messages') :
    RefinesFailure messages out spec :=
  ⟨hext.trans h.extends_, h.result, h.valid⟩

theorem Refines.thrown {messages messages' : Messages P} (hext : messages <+: messages') (e : Thrown) :
    RefinesFailure messages (.error e, messages') (.error e) :=
  ⟨hext, rfl, nofun⟩

/-! ### The two kinds of errors without a message of their own -/

theorem errorToFailureInner_handler {fields : ErrorFields V P} {type : String} {retryableOverride : Option Bool}
    {rawErrorType : Option String} {original : NexusFailure P} (hfailure : fields.failure = none)
    (hkind : fields.kind = .HandlerError type retryableOverride rawErrorType (some original))
    (cause : Option (Failure P)) : conv.errorToFailureInner fields (.ok cause) =
      nexusFailureToTemporalFailure (conv.retryable type retryableOverride) original := by
  simp only [errorToFailureInner, hfailure, hkind, bind, Except.bind]

theorem errorToFailureInner_plain {fields : ErrorFields V P} (hfailure : fields.failure = none)
    (hkind : ∀ type retryableOverride rawErrorType original,
      fields.kind ≠ .HandlerError type retryableOverride rawErrorType (some original))
    (cause : Option (Failure P)) : conv.errorToFailureInner fields (.ok cause) =
      (conv.failureInfo fields.kind).map fun info =>
        .mk ⟨some fields.message, some (cutoffStackTrace fields.stack), some FAILURE_SOURCE, none, info⟩ cause := by
  rcases fields with ⟨kind, message, stack, failure⟩
  cases hfailure
  cases kind with
  | HandlerError type retryableOverride rawErrorType original =>
    cases original with
    | none => rfl
    | some original => exact absurd rfl (hkind type retryableOverride rawErrorType original)
  | _ =>
    simp only [errorToFailureInner, bind, Except.bind]
    generalize conv.failureInfo _ = info
    cases info <;> rfl

theorem failureInfo_value (messages : Messages P) (fields : ObjectFields V P) :
    conv.failureInfo (fields.value messages).kind = conv.failureInfo fields.kind := by
  cases hkind : fields.kind with
  | HandlerError type retryableOverride rawErrorType original => simp [ObjectFields.value, hkind, failureInfo]
  | _ => simp [ObjectFields.value, hkind]

/-- The error without the conversion of its cause. -/
theorem toFailure_fields_refines {fields : ObjectFields V P} {messages messages' : Messages P}
    (hfailure : fields.failure = none) {causeRef : Option FailureRef} (hext : messages <+: messages')
    (horiginal : ∀ ref ∈ ErrorObject.originalDetails fields.original, ref.Valid messages)
    (hcause : FailureRef.ValidCause messages' causeRef)
    (hsettled : ∀ type retryableOverride rawErrorType original,
      fields.kind = .HandlerError type retryableOverride rawErrorType original →
      conv.encodeCommonAttributes = false ∨
        ∀ ref ∈ ErrorObject.originalDetails fields.original, conv.Settled messages ref)
    {cause : Option (ErrorObject V P)} (hto : conv.toCause cause messages = (.ok causeRef, messages')) :
    RefinesFailure messages (conv.toFailure (.mk fields cause) messages)
      (conv.errorToFailureInner (fields.value messages) (.ok (FailureRef.readCause messages' causeRef)) >>=
        conv.encodeAttributes) := by
  have hvalue : (fields.value messages).failure = none := by
    simp [ObjectFields.value, hfailure]
  unfold toFailure
  simp only [hfailure, hto]
  split
  next type retryableOverride rawErrorType original message hkind hmissing =>
      -- A handler error whose original failure has no details.
      have hspec : (fields.value messages).kind =
          .HandlerError type retryableOverride rawErrorType (some (.temporal message none)) := by
        simp [ObjectFields.value, hkind, hmissing, OriginalFailure.value]
      rw [errorToFailureInner_handler hvalue hspec]
      exact Refines.thrown hext _
  next type retryableOverride rawErrorType original message details hkind hdetails =>
      have hspec : (fields.value messages).kind = .HandlerError type retryableOverride rawErrorType
          (some (.temporal message (some (details.read messages)))) := by
        simp [ObjectFields.value, hkind, hdetails, OriginalFailure.value]
      have hmem : details ∈ ErrorObject.originalDetails fields.original := by
        rw [hdetails]
        rfl
      have hvalid := horiginal details hmem
      rw [errorToFailureInner_handler hvalue hspec, ← FailureRef.read_of_extends hext hvalid]
      refine Refines.trans (encodeInPlace_refines (hvalid.mono hext) ?_) hext
      rcases hsettled _ _ _ _ hkind with hoff | hready
      · exact Or.inl hoff
      · exact Or.inr ((hready details hmem).of_extends hext hvalid)
  next type retryableOverride rawErrorType original message stackTrace json hkind hforeign =>
      have hspec : (fields.value messages).kind = .HandlerError type retryableOverride rawErrorType
          (some (.foreign message stackTrace json)) := by
        simp [ObjectFields.value, hkind, hforeign, OriginalFailure.value]
      rw [errorToFailureInner_handler hvalue hspec]
      exact Refines.trans (encodeNew_refines _ trivial) hext
  next kind _ hmissing hdetails hforeign =>
      -- The failure of any other error is a new message.
      have hplain : ∀ type retryableOverride rawErrorType original,
          (fields.value messages).kind ≠ .HandlerError type retryableOverride rawErrorType (some original) := by
        intro type retryableOverride rawErrorType original hspec
        cases hkind : fields.kind with
        | HandlerError type' retryableOverride' rawErrorType' original' =>
          cases ho : fields.original with
          | none => simp [ObjectFields.value, hkind, ho] at hspec
          | some failure =>
            cases failure with
            | temporal message details =>
              cases details with
              | none => exact hmissing _ _ _ _ _ hkind ho
              | some details => exact hdetails _ _ _ _ _ _ hkind ho
            | foreign message stackTrace json => exact hforeign _ _ _ _ _ _ _ hkind ho
        | _ => simp [ObjectFields.value, hkind] at hspec
      rw [errorToFailureInner_plain hvalue hplain, failureInfo_value]
      cases conv.failureInfo fields.kind with
      | error e => exact Refines.thrown hext e
      | ok info => exact Refines.trans (encodeNew_refines _ hcause) hext

mutual

/-- A harmless conversion adds messages and comes to what the value of the error is converted to. -/
theorem toFailure_refines : ∀ {err : ErrorObject V P} {messages : Messages P}, err.Valid messages →
    conv.Harmless messages err →
    RefinesFailure messages (conv.toFailure err messages) (conv.errorToFailure (err.value messages))
  | .mk fields cause, messages, hvalid, hharmless => by
    cases hfailure : fields.failure with
    | some failure =>
      have hmem : failure ∈ fields.failure := hfailure
      have hspec : conv.errorToFailure ((ErrorObject.mk fields cause).value messages) =
          conv.encodeAttributes (failure.read messages) := by
        simp only [ErrorObject.value, errorToFailure, errorToFailureInner, ObjectFields.value, hfailure,
          Option.map_some]
        rfl
      have hto : conv.toFailure (.mk fields cause) messages = conv.encodeInPlace failure messages := by
        simp only [toFailure, hfailure]
      rw [hspec, hto]
      refine encodeInPlace_refines (hvalid.1 failure hmem) (hharmless.imp_right fun h => h failure ?_)
      simp [ErrorObject.carried, hfailure]
    | none =>
      have hcarried : conv.encodeCommonAttributes = false ∨
          ∀ ref ∈ ErrorObject.carriedByCause cause, conv.Settled messages ref := by
        refine hharmless.imp_right fun h ref href => h ref ?_
        simp only [ErrorObject.carried, hfailure]
        split
        · exact List.mem_append_left _ href
        · exact href
      have hcause := toCause_refines hvalid.2.2 hcarried
      cases hto : conv.toCause cause messages with
      | mk out messages' =>
        rw [hto] at hcause
        have hspec : conv.errorToFailure ((ErrorObject.mk fields cause).value messages) =
            conv.errorToFailureInner (fields.value messages) (out.map (FailureRef.readCause messages')) >>=
              conv.encodeAttributes := by
          rw [ErrorObject.value, errorToFailure, ← hcause.result]
        rw [hspec]
        cases out with
        | error e =>
          have hnone : (fields.value messages).failure = none := by
            simp [ObjectFields.value, hfailure]
          have hthrows : conv.toFailure (.mk fields cause) messages = (.error e, messages') := by
            simp only [toFailure, hfailure, hto]
          rw [hthrows, errorToFailureInner, hnone]
          exact Refines.thrown hcause.extends_ e
        | ok causeRef =>
          refine toFailure_fields_refines hfailure hcause.extends_ hvalid.2.1 (hcause.valid _ rfl) ?_ hto
          intro type retryableOverride rawErrorType original hkind
          refine hharmless.imp_right fun h ref href => h ref ?_
          simp only [ErrorObject.carried, hfailure, hkind]
          exact List.mem_append_right _ (by simpa using href)
  | .nonError text, messages, _, _ => by
    simp only [toFailure, ErrorObject.value, errorToFailure, nonErrorToFailure]
    exact encodeNew_refines _ trivial

theorem toCause_refines : ∀ {cause : Option (ErrorObject V P)} {messages : Messages P},
    ErrorObject.ValidCause messages cause →
    conv.encodeCommonAttributes = false ∨ (∀ ref ∈ ErrorObject.carriedByCause cause, conv.Settled messages ref) →
    RefinesCause messages (conv.toCause cause messages)
      (conv.optionalErrorToOptionalFailure (ErrorObject.causeValue messages cause))
  | none, messages, _, _ => by
    refine ⟨List.prefix_rfl, rfl, ?_⟩
    rintro _ ⟨⟩
    trivial
  | some cause, messages, hvalid, hharmless => by
    have h : RefinesFailure messages (conv.toFailure cause messages) _ := toFailure_refines hvalid hharmless
    cases hto : conv.toFailure cause messages with
    | mk out messages' =>
      rw [hto] at h
      simp only [toCause, hto, ErrorObject.causeValue, optionalErrorToOptionalFailure, ← h.result]
      cases out with
      | error e => exact ⟨h.extends_, rfl, nofun⟩
      | ok ref =>
        refine ⟨h.extends_, rfl, ?_⟩
        rintro _ ⟨⟩
        exact h.valid ref rfl

end

/-! ### Errors made from messages -/

/-- A conversion that only adds messages. -/
structure Adds {α : Type} (Valid : Messages P → α → Prop) (messages : Messages P)
    (out : Except Thrown α × Messages P) : Prop where
  extends_ : messages <+: out.2
  valid : ∀ a, out.1 = .ok a → Valid out.2 a

theorem withAttributes_adds {isObject : V → Bool} {id : Nat} (hid : id < messages.length)
    {id' : Nat} {messages' : Messages P} (h : conv.withAttributes isObject id messages = .ok (id', messages')) :
    messages <+: messages' ∧ id' < messages'.length := by
  unfold withAttributes at h
  split at h
  · cases h
    exact ⟨List.prefix_rfl, hid⟩
  · rename_i payload _
    cases hpayload : conv.fromPayload payload with
    | error e => simp [hpayload, bind, Except.bind] at h
    | ok attrs =>
      simp only [hpayload, bind, Except.bind] at h
      split at h
      · cases h
        exact ⟨List.prefix_append _ _, by simp⟩
      · cases h
        exact ⟨List.prefix_rfl, hid⟩

mutual

theorem toError_adds (isObject : V → Bool) : ∀ {ref : FailureRef} {messages : Messages P}, ref.Valid messages →
    Adds ErrorObject.Valid messages (conv.toError isObject ref messages)
  | .mk id cause, messages, hvalid => by
    unfold toError
    cases hattributes : conv.withAttributes isObject id messages with
    | error e => exact ⟨List.prefix_rfl, nofun⟩
    | ok out =>
      rcases out with ⟨id', messages'⟩
      rcases withAttributes_adds hvalid.1 hattributes with ⟨hext, hid'⟩
      have hcause := FailureRef.ValidCause.mono hext hvalid.2
      simp only
      cases conv.errorKind ((FailureRef.mk id' cause).read messages') (messages'.get id').info with
      | error e => exact ⟨hext, nofun⟩
      | ok kind =>
        have hadds : Adds ErrorObject.ValidCause messages'
            (if takesCause (messages'.get id').info then conv.toErrorCause isObject cause messages'
              else (.ok none, messages')) := by
          split
          · exact toErrorCause_adds isObject hcause
          · refine ⟨List.prefix_rfl, ?_⟩
            rintro _ ⟨⟩
            trivial
        simp only
        generalize (if takesCause (messages'.get id').info then conv.toErrorCause isObject cause messages'
          else (.ok none, messages')) = out at hadds
        rcases out with ⟨causeError | causeError, messages''⟩
        · exact ⟨hext.trans hadds.extends_, nofun⟩
        · have href : FailureRef.Valid messages'' (.mk id' cause) :=
            FailureRef.Valid.mono hadds.extends_ ⟨hid', hcause⟩
          have hfailure : ∀ ref ∈ (if isTemporalFailure kind then some (FailureRef.mk id' cause) else none),
              ref.Valid messages'' := by
            intro ref hmem
            split at hmem
            · cases hmem
              exact href
            · exact nomatch hmem
          have herror := hadds.valid causeError rfl
          have hnew : messages'' <+: messages'' ++ [messages'.get id'] := List.prefix_append _ _
          simp only
          split
          · -- The copy in the original failure.
            refine ⟨(hext.trans hadds.extends_).trans hnew, ?_⟩
            rintro _ ⟨⟩
            refine ⟨fun ref hmem => (hfailure ref hmem).mono hnew, ?_, herror.mono hnew⟩
            rintro _ ⟨⟩
            exact ⟨by simp, FailureRef.ValidCause.mono hnew href.2⟩
          · refine ⟨hext.trans hadds.extends_, ?_⟩
            rintro _ ⟨⟩
            exact ⟨hfailure, nofun, herror⟩

theorem toErrorCause_adds (isObject : V → Bool) : ∀ {cause : Option FailureRef} {messages : Messages P},
    FailureRef.ValidCause messages cause →
    Adds ErrorObject.ValidCause messages (conv.toErrorCause isObject cause messages)
  | none, messages, _ => by
    refine ⟨List.prefix_rfl, ?_⟩
    rintro _ ⟨⟩
    trivial
  | some cause, messages, hvalid => by
    have h : Adds ErrorObject.Valid messages (conv.toError isObject cause messages) := toError_adds isObject hvalid
    rw [toErrorCause]
    generalize conv.toError isObject cause messages = out at h
    rcases out with ⟨e | err, messages'⟩
    · exact ⟨h.extends_, nofun⟩
    · refine ⟨h.extends_, ?_⟩
      rintro _ ⟨⟩
      exact h.valid err rfl

end

/-! ## Runs -/

mutual

/-- A message that is received, with new objects all the way down. -/
def store : Failure P → Messages P → FailureRef × Messages P
  | .mk fields cause, messages =>
    let (cause, messages) := storeCause cause messages
    (.mk messages.length cause, messages ++ [fields])

def storeCause : Option (Failure P) → Messages P → Option FailureRef × Messages P
  | none, messages => (none, messages)
  | some cause, messages =>
    let (cause, messages) := store cause messages
    (some cause, messages)

end

mutual

theorem store_adds : ∀ (failure : Failure P) (messages : Messages P),
    messages <+: (store failure messages).2 ∧ (store failure messages).1.Valid (store failure messages).2
  | .mk fields cause, messages => by
    have hcause := storeCause_adds cause messages
    have hnew : (storeCause cause messages).2 <+: (storeCause cause messages).2 ++ [fields] :=
      List.prefix_append _ _
    refine ⟨hcause.1.trans hnew, ?_, FailureRef.ValidCause.mono hnew hcause.2⟩
    simp only [store, List.length_append, List.length_cons, List.length_nil]
    omega

theorem storeCause_adds : ∀ (cause : Option (Failure P)) (messages : Messages P),
    messages <+: (storeCause cause messages).2 ∧
      FailureRef.ValidCause (storeCause cause messages).2 (storeCause cause messages).1
  | none, _ => ⟨List.prefix_rfl, trivial⟩
  | some cause, messages => store_adds cause messages

end

/-- The messages that can be converted, the errors, and for the record what each error was when it was made and what
came of each conversion of an error. -/
structure Conversions (V P : Type) where
  messages : Messages P
  received : List FailureRef
  errors : List (ErrorObject V P)
  made : List (ErrorTree V P)
  converted : List (Nat × Except Thrown (Failure P))

/-- Any messages and errors, which may refer to the same messages. -/
def Conversions.start (messages : Messages P) (received : List FailureRef) (errors : List (ErrorObject V P)) :
    Conversions V P :=
  ⟨messages, received, errors, errors.map (ErrorObject.value messages), []⟩

inductive ConversionAction (V P : Type) where
  | receive (failure : Failure P)
  | failureToError (message : Nat)
  /-- an error constructed with an earlier one as its cause -/
  | construct (kind : ErrorKind V P) (message : String) (stack : Option String) (cause : Option Nat)
  | errorToFailure (err : Nat)

def Conversions.addError (s : Conversions V P) (messages : Messages P) (err : ErrorObject V P) : Conversions V P :=
  { s with messages, errors := s.errors ++ [err], made := s.made ++ [err.value messages] }

variable (conv) in
def conversionStep (isObject : V → Bool) (s : Conversions V P) : ConversionAction V P → Conversions V P
  | .receive failure =>
    let (ref, messages) := store failure s.messages
    { s with messages, received := s.received ++ [ref] }
  | .failureToError message =>
    match s.received[message]? with
    | none => s
    | some ref =>
      match conv.toError isObject ref s.messages with
      | (.error _, messages) => { s with messages }
      | (.ok err, messages) => s.addError messages err
  | .construct kind message stack none =>
    s.addError s.messages (.mk ⟨kind, message, stack, none, none⟩ none)
  | .construct kind message stack (some cause) =>
    match s.errors[cause]? with
    | none => s
    | some cause => s.addError s.messages (.mk ⟨kind, message, stack, none, none⟩ (some cause))
  | .errorToFailure err =>
    match s.errors[err]? with
    | none => s
    | some object =>
      match conv.toFailure object s.messages with
      | (.error e, messages) => { s with messages, converted := s.converted ++ [(err, .error e)] }
      | (.ok ref, messages) =>
        { s with
          messages, received := s.received ++ [ref]
          converted := s.converted ++ [(err, .ok (ref.read messages))] }

/-- No error has changed, and any two conversions of the same error are converted back to the same, or both were
refused. -/
structure Repeatable (conv : Converter V P) (s : Conversions V P) : Prop where
  unchanged : s.errors.map (ErrorObject.value s.messages) = s.made
  same : ∀ err failure failure', (err, failure) ∈ s.converted → (err, failure') ∈ s.converted →
    failure.bind conv.failureToError = failure'.bind conv.failureToError

/-- An error is only converted where this is harmless. -/
def HarmlessStep (conv : Converter V P) (s : Conversions V P) (a : ConversionAction V P) : Prop :=
  ∀ err object, a = .errorToFailure err → s.errors[err]? = some object → conv.Harmless s.messages object

/-- All references are to messages that are there, and conversions came to what the errors were converted to when
they were made. -/
structure Conversions.Sound (conv : Converter V P) (s : Conversions V P) : Prop where
  received : ∀ ref ∈ s.received, ref.Valid s.messages
  errors : ∀ err ∈ s.errors, err.Valid s.messages
  unchanged : s.errors.map (ErrorObject.value s.messages) = s.made
  converted : ∀ err failure, (err, failure) ∈ s.converted →
    ∃ tree, s.made[err]? = some tree ∧ failure = conv.errorToFailure tree

namespace Conversions.Sound

variable {s : Conversions V P}

theorem repeatable (h : s.Sound conv) : Repeatable conv s := by
  refine ⟨h.unchanged, ?_⟩
  intro err failure failure' hmem hmem'
  rcases h.converted err failure hmem with ⟨tree, htree, rfl⟩
  rcases h.converted err failure' hmem' with ⟨tree', htree', rfl⟩
  cases htree.symm.trans htree'
  rfl

theorem value_of_extends (h : s.Sound conv) (hext : s.messages <+: messages) :
    s.errors.map (ErrorObject.value messages) = s.made := by
  rw [← h.unchanged]
  exact List.map_congr_left fun err herr => ErrorObject.value_of_extends hext (h.errors err herr)

theorem extend (h : s.Sound conv) (hext : s.messages <+: messages) :
    ({ s with messages } : Conversions V P).Sound conv :=
  ⟨fun ref href => (h.received ref href).mono hext, fun err herr => (h.errors err herr).mono hext,
    h.value_of_extends hext, h.converted⟩

theorem receive (h : s.Sound conv) (href : ref.Valid s.messages) :
    ({ s with received := s.received ++ [ref] } : Conversions V P).Sound conv := by
  refine { h with received := ?_ }
  intro ref' hmem
  rcases List.mem_append.mp hmem with hold | hnew
  · exact h.received ref' hold
  · rw [List.mem_singleton.mp hnew]
    exact href

theorem addError (h : s.Sound conv) (hext : s.messages <+: messages)
    {err : ErrorObject V P} (herr : err.Valid messages) : (s.addError messages err).Sound conv := by
  have hextended := h.extend hext
  refine ⟨hextended.received, ?_, ?_, ?_⟩
  · intro err' hmem
    rcases List.mem_append.mp hmem with hold | hnew
    · exact hextended.errors err' hold
    · rw [List.mem_singleton.mp hnew]
      exact herr
  · simp only [Conversions.addError, List.map_append, h.value_of_extends hext, List.map_cons, List.map_nil]
  · intro i failure hmem
    rcases h.converted i failure hmem with ⟨tree, htree, hfailure⟩
    have hlt := (List.getElem?_eq_some_iff.mp htree).1
    exact ⟨tree, (List.getElem?_append_left hlt).trans htree, hfailure⟩

theorem convert (h : s.Sound conv) {err : Nat} {object : ErrorObject V P} (herr : s.errors[err]? = some object)
    {failure : Except Thrown (Failure P)} (hfailure : failure = conv.errorToFailure (object.value s.messages)) :
    ({ s with converted := s.converted ++ [(err, failure)] } : Conversions V P).Sound conv := by
  refine { h with converted := ?_ }
  intro i failure' hmem
  rcases List.mem_append.mp hmem with hold | hnew
  · exact h.converted i failure' hold
  · cases List.mem_singleton.mp hnew
    refine ⟨object.value s.messages, ?_, hfailure⟩
    rw [← h.unchanged, List.getElem?_map, herr, Option.map_some]

theorem start {received : List FailureRef} {errors : List (ErrorObject V P)}
    (hreceived : ∀ ref ∈ received, ref.Valid messages) (herrors : ∀ err ∈ errors, err.Valid messages) :
    (Conversions.start messages received errors).Sound conv :=
  ⟨hreceived, herrors, rfl, nofun⟩

theorem step (isObject : V → Bool) {a : ConversionAction V P} (hharmless : HarmlessStep conv s a)
    (h : s.Sound conv) : (conversionStep conv isObject s a).Sound conv := by
  cases a with
  | receive failure =>
    have hadds := store_adds failure s.messages
    exact (h.extend hadds.1).receive hadds.2
  | failureToError message =>
    cases hmessage : s.received[message]? with
    | none =>
      simp only [conversionStep, hmessage]
      exact h
    | some ref =>
      have hadds : Adds ErrorObject.Valid s.messages (conv.toError isObject ref s.messages) :=
        toError_adds isObject (h.received ref (List.mem_of_getElem? hmessage))
      simp only [conversionStep, hmessage]
      generalize conv.toError isObject ref s.messages = out at hadds
      rcases out with ⟨e | err, messages⟩
      · exact h.extend hadds.extends_
      · exact h.addError hadds.extends_ (hadds.valid err rfl)
  | construct kind message stack cause =>
    cases cause with
    | none => exact h.addError List.prefix_rfl ⟨(by rintro _ ⟨⟩), (by rintro _ ⟨⟩), trivial⟩
    | some cause =>
      cases hcause : s.errors[cause]? with
      | none =>
        simp only [conversionStep, hcause]
        exact h
      | some err =>
        simp only [conversionStep, hcause]
        exact h.addError List.prefix_rfl ⟨(by rintro _ ⟨⟩), (by rintro _ ⟨⟩), h.errors err (List.mem_of_getElem? hcause)⟩
  | errorToFailure err =>
    cases herr : s.errors[err]? with
    | none =>
      simp only [conversionStep, herr]
      exact h
    | some object =>
      have hrefines := toFailure_refines (h.errors object (List.mem_of_getElem? herr))
        (hharmless err object rfl herr)
      simp only [conversionStep, herr]
      generalize conv.toFailure object s.messages = out at hrefines
      rcases out with ⟨e | ref, messages⟩
      · exact (h.convert herr hrefines.result).extend hrefines.extends_
      · exact ((h.convert herr hrefines.result).extend hrefines.extends_).receive (hrefines.valid ref rfl)

end Conversions.Sound

/-- In a run of conversions in which errors are only converted where this is harmless, no error changes, and
repeated conversions of an error are the same. -/
theorem conversions_repeatable (isObject : V → Bool) {messages : Messages P} {received : List FailureRef}
    {errors : List (ErrorObject V P)} (hreceived : ∀ ref ∈ received, ref.Valid messages)
    (herrors : ∀ err ∈ errors, err.Valid messages) {actions : List (ConversionAction V P)}
    (hharmless : Guarded (conversionStep conv isObject) (HarmlessStep conv) (.start messages received errors)
      actions) :
    Throughout (conversionStep conv isObject) (Repeatable conv) (.start messages received errors) actions :=
  throughout_of_invariant (fun _ _ ha h => h.step isObject ha) (fun _ h => h.repeatable)
    (Conversions.Sound.start hreceived herrors) hharmless

def isAttributes : JsonValue → Bool
  | .attributes _ _ => true
  | _ => false

/-- A workflow's own error with a plain cause, converted twice with its attributes encoded. -/
theorem conversions_repeatable_twice :
    Throughout (conversionStep (jsonConverter true) isAttributes) (Repeatable (jsonConverter true))
      (.start [] [] [])
      [.construct .Error "no funds" none none,
        .construct (.ApplicationFailure (.value "Declined") .undefined .undefined .undefined .undefined) "declined"
          none (some 0),
        .errorToFailure 1, .errorToFailure 1] := by
  apply conversions_repeatable isAttributes (List.forall_mem_nil _) (List.forall_mem_nil _)
  refine ⟨(fun _ _ h => nomatch h), (fun _ _ h => nomatch h), ?_, ?_, trivial⟩
  all_goals
    rintro err object ⟨⟩ ⟨⟩
    exact Or.inr (List.forall_mem_nil _)

/-- The failure of an activity's error. -/
def declinedMessage : Failure JsonValue :=
  .mk ⟨some "declined", some "", some FAILURE_SOURCE, none,
    some (.applicationFailureInfo (.value "Declined") (.value true) none none none)⟩ none

def messageOf : Except Thrown (ErrorTree JsonValue JsonValue) → Option String
  | .ok (.mk fields _) => some fields.message
  | _ => none

/-- An error made from that failure, converted twice. -/
theorem declined_not_repeatable :
    ¬ Throughout (conversionStep (jsonConverter true) isAttributes) (Repeatable (jsonConverter true))
      (.start [] [] []) [.receive declinedMessage, .failureToError 0, .errorToFailure 0, .errorToFailure 0] := by
  intro h
  have hsame := h.2.2.2.2.same 0 _ _ List.mem_cons_self (List.mem_cons_of_mem _ List.mem_cons_self)
  have hmessage : some "declined" = some "Encoded failure" := congrArg messageOf hsame
  exact absurd hmessage (by decide)

end Converter
end TemporalSdk.Failures
