import TemporalSdk.Machine.Loop
import TemporalSdk.Machine.Protobuf
import TemporalSdk.Streams.Codec

/-!
# Conformance — the decoder of payloads against the grammar of protobuf

The messages are

    message Payload { map<string, bytes> metadata = 1; bytes data = 2; repeated … externalPayloads = 3; }
    message MapEntry { string key = 1; bytes value = 2; }

A field that has another wire type than the schema says is an unknown field.
-/

namespace TemporalSdk.Streams

open Machine Protobuf

/-! ## What bytes mean -/

/-- A field that is not one of those of the schema, all of which are length-delimited. -/
def UnknownTo (known : List Nat) (f : Field) : Prop := ∀ bs, f.value = .delimited bs → f.number ∉ known

/-- How the fields of a map entry change its key and its value.  A key is text. -/
inductive EntryMeans : String × Bytes → List Field → String × Bytes → Prop
  | nil {e : String × Bytes} : EntryMeans e [] e
  | key {e e' : String × Bytes} {s : String} {fs : List Field} :
      EntryMeans (s, e.2) fs e' → EntryMeans e (⟨1, .delimited (utf8Encode s)⟩ :: fs) e'
  | value {e e' : String × Bytes} {bs : Bytes} {fs : List Field} :
      EntryMeans (e.1, bs) fs e' → EntryMeans e (⟨2, .delimited bs⟩ :: fs) e'
  | unknown {e e' : String × Bytes} {f : Field} {fs : List Field} :
      UnknownTo [1, 2] f → EntryMeans e fs e' → EntryMeans e (f :: fs) e'

/-- The bytes are a map entry, read on from `e`. -/
def IsEntryFrom (e : String × Bytes) (bs : Bytes) (e' : String × Bytes) : Prop :=
  ∃ fs, Encodes fs bs ∧ EntryMeans e fs e'

def IsEntry (bs : Bytes) (e : String × Bytes) : Prop := IsEntryFrom ("", []) bs e

/-- The metadata and the data of a payload. -/
structure Content where
  metadata : String → Option Bytes
  data : Bytes

def Content.empty : Content := ⟨fun _ => none, []⟩

/-- A later entry replaces an earlier one with the same key. -/
def Content.withEntry (c : Content) (e : String × Bytes) : Content :=
  { c with metadata := fun key => if key = e.1 then some e.2 else c.metadata key }

/-- How the fields of a payload change its content. -/
inductive Means : Content → List Field → Content → Prop
  | nil {c : Content} : Means c [] c
  | entry {c c' : Content} {bs : Bytes} {e : String × Bytes} {fs : List Field} :
      IsEntry bs e → Means (c.withEntry e) fs c' → Means c (⟨1, .delimited bs⟩ :: fs) c'
  | data {c c' : Content} {bs : Bytes} {fs : List Field} :
      Means { c with data := bs } fs c' → Means c (⟨2, .delimited bs⟩ :: fs) c'
  | external {c c' : Content} {bs : Bytes} {fs fs' : List Field} :
      Encodes fs' bs → Means c fs c' → Means c (⟨3, .delimited bs⟩ :: fs) c'
  | unknown {c c' : Content} {f : Field} {fs : List Field} :
      UnknownTo [1, 2, 3] f → Means c fs c' → Means c (f :: fs) c'

def IsPayloadFrom (c : Content) (bs : Bytes) (c' : Content) : Prop := ∃ fs, Encodes fs bs ∧ Means c fs c'

/-- The bytes are a serialization of a payload with that content. -/
def Serializes (bs : Bytes) (c : Content) : Prop := IsPayloadFrom .empty bs c

/-! ## The loops of the decoder -/

structure EntryLoop where
  key : String
  value : Bytes
  rest : Bytes

def entryField (s : EntryLoop) (itag : UInt8) (rest : Bytes) : Except Thrown EntryLoop :=
  if itag.toNat &&& 0x07 ≠ 2 then
    .error (.error s!"unsupported wire type {itag.toNat &&& 0x07} in Payload metadata entry")
  else do
    let (ilen, rest) ← readVarint rest
    if itag.toNat >>> 3 = 1 then .ok ⟨utf8Decode (rest.take ilen), s.value, rest.drop ilen⟩
    else if itag.toNat >>> 3 = 2 then .ok ⟨s.key, rest.take ilen, rest.drop ilen⟩
    else .ok ⟨s.key, s.value, rest.drop ilen⟩

def entryTurn (s : EntryLoop) : Option (Except Thrown EntryLoop) :=
  match s.rest with
  | [] => none
  | itag :: rest => some (entryField s itag rest)

structure PayloadLoop where
  metadata : JsObject Bytes
  data : Bytes
  rest : Bytes

def payloadField (s : PayloadLoop) (tag : UInt8) (rest : Bytes) : Except Thrown PayloadLoop :=
  if tag.toNat &&& 0x07 = 2 then do
    let (len, rest) ← readVarint rest
    if tag.toNat >>> 3 = 1 then do
      let (key, value) ← decodeEntry (rest.take len)
      .ok ⟨s.metadata.assign key value, s.data, rest.drop len⟩
    else if tag.toNat >>> 3 = 2 then .ok ⟨s.metadata, rest.take len, rest.drop len⟩
    else .ok ⟨s.metadata, s.data, rest.drop len⟩
  else if tag.toNat &&& 0x07 = 0 then do
    let (_, rest) ← readVarint rest
    .ok ⟨s.metadata, s.data, rest⟩
  else if tag.toNat &&& 0x07 = 1 then .ok ⟨s.metadata, s.data, rest.drop 8⟩
  else if tag.toNat &&& 0x07 = 5 then .ok ⟨s.metadata, s.data, rest.drop 4⟩
  else .error (.error s!"unsupported wire type {tag.toNat &&& 0x07}")

def payloadTurn (s : PayloadLoop) : Option (Except Thrown PayloadLoop) :=
  match s.rest with
  | [] => none
  | tag :: rest => some (payloadField s tag rest)

/-- Both loops of the decoder end, the inner one on any chunk, and what the decoder returns or throws is what they
end with. -/
structure Terminates (b : Bytes) : Prop where
  entries : ∀ chunk, Loops entryTurn ⟨"", [], chunk⟩ ((decodeEntry chunk).map fun e => ⟨e.1, e.2, []⟩)
  payload : ∃ r, Loops payloadTurn ⟨.empty, [], b⟩ r ∧
    decodePayloadProto b = r.map fun s => .ofWire s.metadata s.data

/-! ### They end -/

theorem length_of_readVarintLoop : ∀ (bytes : Bytes) (result shift : Nat) {n : Nat} {rest : Bytes},
    readVarintLoop result shift bytes = .ok (n, rest) → rest.length < bytes.length := by
  intro bytes
  induction bytes with
  | nil =>
    intro result shift n rest h
    cases h
  | cons b bytes ih =>
    intro result shift n rest h
    rw [readVarintLoop] at h
    split at h
    · cases h
      simp
    · split at h
      · cases h
      · have hrest := ih _ _ h
        simp only [List.length_cons]
        omega

theorem decodeEntryLoop_succ (fuel : Nat) (key : String) (value : Bytes) (itag : UInt8) (rest : Bytes) :
    decodeEntryLoop (fuel + 1) key value (itag :: rest) =
      (entryField ⟨key, value, itag :: rest⟩ itag rest).bind fun s => decodeEntryLoop fuel s.key s.value s.rest := by
  rw [decodeEntryLoop, entryField]
  split
  · rfl
  · simp only [bind, Except.bind]
    cases readVarint rest with
    | error e => rfl
    | ok read =>
      simp only
      split
      · rfl
      · split <;> rfl

theorem entryField_rest_lt {s s' : EntryLoop} {itag : UInt8} {rest : Bytes}
    (h : entryField s itag rest = .ok s') : s'.rest.length < (itag :: rest).length := by
  rw [entryField] at h
  split at h
  · exact nomatch h
  · cases hread : readVarint rest with
    | error e => simp [hread, bind, Except.bind] at h
    | ok read =>
      have hlt := length_of_readVarintLoop _ _ _ hread
      simp only [hread, bind, Except.bind] at h
      have hdrop : s'.rest = read.2.drop read.1 := by
        split at h
        · cases h; rfl
        · split at h <;> (cases h; rfl)
      rw [hdrop, List.length_drop, List.length_cons]
      omega

theorem loops_decodeEntryLoop : ∀ (fuel : Nat) (key : String) (value rest : Bytes), rest.length ≤ fuel →
    Loops entryTurn ⟨key, value, rest⟩ ((decodeEntryLoop fuel key value rest).map fun e => ⟨e.1, e.2, []⟩) := by
  intro fuel
  induction fuel with
  | zero =>
    intro key value rest h
    obtain rfl : rest = [] := List.eq_nil_of_length_eq_zero (by omega)
    exact .done rfl
  | succ fuel ih =>
    intro key value rest h
    cases rest with
    | nil => exact .done rfl
    | cons itag rest =>
      rw [decodeEntryLoop_succ]
      cases hfield : entryField ⟨key, value, itag :: rest⟩ itag rest with
      | error e => exact .throws (congrArg some hfield)
      | ok s =>
        have hlt := entryField_rest_lt hfield
        refine .next (congrArg some hfield) (ih s.key s.value s.rest ?_)
        omega

theorem decodeLoop_succ (fuel : Nat) (metadata : JsObject Bytes) (data : Bytes) (tag : UInt8) (rest : Bytes) :
    decodeLoop (fuel + 1) metadata data (tag :: rest) =
      (payloadField ⟨metadata, data, tag :: rest⟩ tag rest).bind fun s =>
        decodeLoop fuel s.metadata s.data s.rest := by
  rw [decodeLoop, payloadField]
  split
  · simp only [bind, Except.bind]
    cases readVarint rest with
    | error e => rfl
    | ok read =>
      simp only
      split
      · cases decodeEntry (read.2.take read.1) <;> rfl
      · split <;> rfl
  · split
    · simp only [bind, Except.bind]
      cases readVarint rest <;> rfl
    · split
      · rfl
      · split <;> rfl

theorem payloadField_rest_lt {s s' : PayloadLoop} {tag : UInt8} {rest : Bytes}
    (h : payloadField s tag rest = .ok s') : s'.rest.length < (tag :: rest).length := by
  rw [payloadField] at h
  split at h
  · cases hread : readVarint rest with
    | error e => simp [hread, bind, Except.bind] at h
    | ok read =>
      have hlt := length_of_readVarintLoop _ _ _ hread
      simp only [hread, bind, Except.bind] at h
      have hdrop : s'.rest = read.2.drop read.1 := by
        split at h
        · split at h
          · exact nomatch h
          · cases h; rfl
        · split at h <;> (cases h; rfl)
      rw [hdrop, List.length_drop, List.length_cons]
      omega
  · split at h
    · cases hread : readVarint rest with
      | error e => simp [hread, bind, Except.bind] at h
      | ok read =>
        have hlt := length_of_readVarintLoop _ _ _ hread
        simp only [hread, bind, Except.bind] at h
        cases h
        simp only [List.length_cons]
        omega
    · split at h
      · cases h
        simp only [List.length_drop, List.length_cons]
        omega
      · split at h
        · cases h
          simp only [List.length_drop, List.length_cons]
          omega
        · exact nomatch h

theorem loops_decodeLoop : ∀ (fuel : Nat) (metadata : JsObject Bytes) (data rest : Bytes), rest.length ≤ fuel →
    Loops payloadTurn ⟨metadata, data, rest⟩
      ((decodeLoop fuel metadata data rest).map fun p => ⟨p.1, p.2, []⟩) := by
  intro fuel
  induction fuel with
  | zero =>
    intro metadata data rest h
    obtain rfl : rest = [] := List.eq_nil_of_length_eq_zero (by omega)
    exact .done rfl
  | succ fuel ih =>
    intro metadata data rest h
    cases rest with
    | nil => exact .done rfl
    | cons tag rest =>
      rw [decodeLoop_succ]
      cases hfield : payloadField ⟨metadata, data, tag :: rest⟩ tag rest with
      | error e => exact .throws (congrArg some hfield)
      | ok s =>
        have hlt := payloadField_rest_lt hfield
        refine .next (congrArg some hfield) (ih s.metadata s.data s.rest ?_)
        omega

theorem loops_decodeEntry (chunk : Bytes) :
    Loops entryTurn ⟨"", [], chunk⟩ ((decodeEntry chunk).map fun e => ⟨e.1, e.2, []⟩) :=
  loops_decodeEntryLoop chunk.length "" [] chunk (Nat.le_refl _)

theorem terminates (b : Bytes) : Terminates b := by
  refine ⟨loops_decodeEntry, _, loops_decodeLoop b.length .empty [] b (Nat.le_refl _), ?_⟩
  simp only [decodePayloadProto, bind, Except.bind]
  cases decodeLoop b.length .empty [] b <;> rfl

/-! ## Where the decoder follows the grammar -/

/-- No complete integer is at the beginning. -/
def NoVarint (bytes : Bytes) : Prop := ∀ bs n rest, IsVarint bs n → bytes ≠ bs ++ rest

/-- A tag of one byte with a number that a field may have. -/
structure PlainTag (tag : UInt8) : Prop where
  one_byte : tag.toNat < 128
  number : 8 ≤ tag.toNat

def Unsupported (tag : UInt8) : Prop := tag.toNat % 8 ∈ [3, 4, 6, 7]

/-- A length that the decoder reads. -/
structure PlainLength (len : Bytes) (n : Nat) : Prop where
  isVarint : IsVarint len n
  short : len.length ≤ 6

/-- Every field of a map entry is length-delimited and has a plain tag and a plain length, no field runs past the
end, and keys are text; but an entry may break off at a wire type that does not exist or at a length that does not
end. -/
inductive PlainFields : Bytes → Prop
  | nil : PlainFields []
  | unsupported {tag : UInt8} {rest : Bytes} : tag.toNat < 128 → Unsupported tag → PlainFields (tag :: rest)
  | noLength {tag : UInt8} {rest : Bytes} :
      tag.toNat < 128 → tag.toNat % 8 = 2 → NoVarint rest → PlainFields (tag :: rest)
  | field {tag : UInt8} {len bs rest : Bytes} : PlainTag tag → tag.toNat % 8 = 2 → PlainLength len bs.length →
      (tag.toNat / 8 = 1 → ∃ s, utf8Encode s = bs) → PlainFields rest → PlainFields (tag :: (len ++ bs ++ rest))

/-- The key is also one that comes through the text decoder and the plain object. -/
structure PlainEntry (chunk : Bytes) : Prop where
  fields : PlainFields chunk
  key : ∀ e, IsEntry chunk e → e.1 ≠ "__proto__" ∧ ¬ byteOrderMark <+: utf8Encode e.1

/-- Every field of a payload has a plain tag, no integer of it is longer than six bytes, no field runs past the end,
and the content of a field of the schema is plain; but the bytes may break off at what is no field at all. -/
inductive Plain : Bytes → Prop
  | nil : Plain []
  | unsupported {tag : UInt8} {rest : Bytes} : tag.toNat < 128 → Unsupported tag → Plain (tag :: rest)
  | noVarint {tag : UInt8} {rest : Bytes} :
      tag.toNat < 128 → tag.toNat % 8 = 0 ∨ tag.toNat % 8 = 2 → NoVarint rest → Plain (tag :: rest)
  | varint {tag : UInt8} {bs rest : Bytes} {n : Nat} :
      PlainTag tag → tag.toNat % 8 = 0 → PlainLength bs n → Plain rest → Plain (tag :: (bs ++ rest))
  | fixed64 {tag : UInt8} {bs rest : Bytes} :
      PlainTag tag → tag.toNat % 8 = 1 → bs.length = 8 → Plain rest → Plain (tag :: (bs ++ rest))
  | fixed32 {tag : UInt8} {bs rest : Bytes} :
      PlainTag tag → tag.toNat % 8 = 5 → bs.length = 4 → Plain rest → Plain (tag :: (bs ++ rest))
  | entry {len bs rest : Bytes} : PlainLength len bs.length → PlainEntry bs → ((∃ e, IsEntry bs e) → Plain rest) →
      Plain (0x0a :: (len ++ bs ++ rest))
  | delimited {tag : UInt8} {len bs rest : Bytes} : PlainTag tag → tag.toNat % 8 = 2 → tag.toNat / 8 ≠ 1 →
      PlainLength len bs.length → (tag.toNat / 8 = 3 → ∃ fs, Encodes fs bs) → Plain rest →
      Plain (tag :: (len ++ bs ++ rest))

/-- The decoder returns the content of a serialization, and throws at bytes that are none. -/
structure Conforms (b : Bytes) : Prop where
  serialization : ∀ c, Serializes b c → ∃ metadata : JsObject Bytes,
    decodePayloadProto b = .ok (.ofWire metadata c.data) ∧ ∀ key, metadata.get? key = c.metadata key
  otherwise : (∀ c, ¬ Serializes b c) → ∃ e, decodePayloadProto b = .error e

/-! ### Integers -/

variable {bs : Bytes}

theorem readVarintLoop_of_septets {n : Nat} (h : Septets bs n) (rest : Bytes) :
    ∀ result shift, shift + 7 * bs.length ≤ 42 →
      readVarintLoop result shift (bs ++ rest) = .ok (result + n * 2 ^ shift, rest) := by
  induction h with
  | last b hb =>
    intro result shift _
    rw [List.singleton_append, readVarintLoop, and_septet, and_continuation _ (by omega), if_pos hb, if_pos rfl,
      Nat.mod_eq_of_lt hb]
  | @more b bs n hb htail ih =>
    intro result shift hshift
    have hlt := b.toNat_lt
    have hpos := List.length_pos_of_ne_nil htail.ne_nil
    rw [List.length_cons] at hshift
    have hand : b.toNat &&& 0x80 ≠ 0 := by
      rw [and_continuation _ (by omega), if_neg (by omega)]
      omega
    have hmore : ¬ shift + 7 > 35 := by omega
    rw [List.cons_append, readVarintLoop, and_septet, if_neg hand, if_neg hmore, ih _ _ (by omega)]
    have hmod : b.toNat % 128 = b.toNat - 128 := by omega
    have hsum : result + (b.toNat - 128) * 2 ^ shift + n * 2 ^ (shift + 7) =
        result + (b.toNat - 128 + 128 * n) * 2 ^ shift := by
      rw [Nat.pow_add]
      ring
    rw [hmod, hsum]

theorem PlainLength.readVarint {n : Nat} (h : PlainLength bs n) (rest : Bytes) :
    readVarint (bs ++ rest) = .ok (n, rest) := by
  have hshort := h.short
  have hloop := readVarintLoop_of_septets h.isVarint.septets rest 0 0 (by omega)
  simpa [Streams.readVarint] using hloop

/-- What the reader accepts is an integer. -/
theorem exists_of_readVarintLoop : ∀ (bytes : Bytes) (result shift : Nat) {m : Nat} {rest : Bytes}, shift ≤ 35 →
    readVarintLoop result shift bytes = .ok (m, rest) →
    ∃ bs n, Septets bs n ∧ bytes = bs ++ rest ∧ shift + 7 * bs.length ≤ 42 := by
  intro bytes
  induction bytes with
  | nil =>
    intro result shift m rest _ h
    cases h
  | cons b bytes ih =>
    intro result shift m rest hshift h
    have hlt := b.toNat_lt
    have hand := and_continuation b.toNat (by omega)
    rw [readVarintLoop] at h
    by_cases hb : b.toNat < 128
    · rw [if_pos hb] at hand
      rw [if_pos hand] at h
      cases h
      exact ⟨[b], _, .last b hb, rfl, by simp; omega⟩
    · rw [if_neg hb] at hand
      rw [if_neg (by omega)] at h
      split at h
      · cases h
      · rcases ih _ _ (by omega) h with ⟨bs, n, hbs, rfl, hlength⟩
        refine ⟨b :: bs, _, .more b (by omega) hbs, rfl, ?_⟩
        rw [List.length_cons]
        omega

theorem NoVarint.readVarint {bytes : Bytes} (h : NoVarint bytes) : ∃ e, Streams.readVarint bytes = .error e := by
  cases hread : Streams.readVarint bytes with
  | error e => exact ⟨e, rfl⟩
  | ok read =>
    rcases exists_of_readVarintLoop _ _ _ (by omega) hread with ⟨bs, n, hbs, heq, hlength⟩
    have hpow : 128 ^ bs.length ≤ 128 ^ 6 := Nat.pow_le_pow_right (by omega) (by omega)
    have hlt := hbs.lt_pow
    exact absurd heq (h bs n read.2 ⟨hbs, by omega, by omega⟩)

/-! ### What the grammar says after a tag -/

theorem and_wireType (tag : UInt8) : tag.toNat &&& 0x07 = tag.toNat % 8 := Nat.and_two_pow_sub_one_eq_mod tag.toNat 3

theorem shiftRight_number (tag : UInt8) : tag.toNat >>> 3 = tag.toNat / 8 := Nat.shiftRight_eq_div_pow tag.toNat 3

variable {tag : UInt8}

theorem Unsupported.not_encodes (h : Unsupported tag) (hbyte : tag.toNat < 128) (rest : Bytes)
    (fs : List Field) : ¬ Encodes fs (tag :: rest) := by
  intro hfs
  rcases exists_of_encodes_cons hbyte hfs with ⟨value, _, _, _, _, htype⟩
  rw [Unsupported, htype] at h
  cases value <;> simp [Value.wireType] at h

theorem NoVarint.not_encodes {rest : Bytes} (h : NoVarint rest) (hbyte : tag.toNat < 128)
    (htype : tag.toNat % 8 = 0 ∨ tag.toNat % 8 = 2) (fs : List Field) : ¬ Encodes fs (tag :: rest) := by
  intro hfs
  rcases exists_of_encodes_cons hbyte hfs with ⟨value, bs, rest', hrest, hvalue, hwire⟩
  rw [hwire] at htype
  cases hvalue with
  | varint hn => exact h _ _ _ hn hrest
  | delimited hlen => exact h _ _ _ hlen (by rw [hrest, List.append_assoc])
  | fixed64 _ | fixed32 _ => simp [Value.wireType] at htype

theorem PlainLength.encodes {len bs : Bytes} (h : PlainLength len bs.length) (htag : PlainTag tag)
    (htype : tag.toNat % 8 = 2) : Field.Encodes ⟨tag.toNat / 8, .delimited bs⟩ (tag :: (len ++ bs)) := by
  have hwire : tag.toNat % 8 = (Value.delimited bs).wireType := htype
  exact Field.encodes_of_tag htag.one_byte htag.number hwire (.delimited h.isVarint)

/-! ### Map entries -/

theorem utf8Encode_injective {s s' : String} (h : utf8Encode s = utf8Encode s') : s = s' := by
  apply String.toByteArray_inj.mp
  apply ByteArray.ext
  exact Array.toList_inj.mp h

variable {e e' : String × Bytes}

theorem entryMeans_nil_iff : EntryMeans e [] e' ↔ e' = e := by
  constructor
  · intro h
    cases h
    rfl
  · rintro rfl
    exact .nil

variable {fs : List Field}

theorem entryMeans_key_iff {s : String} :
    EntryMeans e (⟨1, .delimited (utf8Encode s)⟩ :: fs) e' ↔ EntryMeans (s, e.2) fs e' := by
  constructor
  · generalize hf : (⟨1, .delimited (utf8Encode s)⟩ : Field) = f
    intro h
    cases h with
    | key h =>
      cases utf8Encode_injective (Value.delimited.inj (Field.mk.inj hf).2)
      exact h
    | value h => exact absurd (Field.mk.inj hf).1 (by omega)
    | unknown hf' h =>
      rw [← hf] at hf'
      exact absurd (List.mem_cons_self) (hf' _ rfl)
  · exact .key

theorem entryMeans_value_iff :
    EntryMeans e (⟨2, .delimited bs⟩ :: fs) e' ↔ EntryMeans (e.1, bs) fs e' := by
  constructor
  · intro h
    cases h with
    | value h => exact h
    | unknown hf h => exact absurd (List.mem_cons_of_mem _ List.mem_cons_self) (hf _ rfl)
  · exact .value

variable {f : Field}

theorem entryMeans_unknown_iff (hf : UnknownTo [1, 2] f) :
    EntryMeans e (f :: fs) e' ↔ EntryMeans e fs e' := by
  constructor
  · intro h
    cases h with
    | key h => exact absurd List.mem_cons_self (hf _ rfl)
    | value h => exact absurd (List.mem_cons_of_mem _ List.mem_cons_self) (hf _ rfl)
    | unknown _ h => exact h
  · exact .unknown hf

theorem exists_encodes_append_iff {bs rest : Bytes} {P : List Field → Prop} (h : f.Encodes bs) :
    (∃ fs, Encodes fs (bs ++ rest) ∧ P fs) ↔ ∃ fs, Encodes fs rest ∧ P (f :: fs) := by
  constructor
  · rintro ⟨fs, hfs, hmeans⟩
    rcases (encodes_append_iff h).mp hfs with ⟨fs', rfl, hrest⟩
    exact ⟨fs', hrest, hmeans⟩
  · rintro ⟨fs, hfs, hmeans⟩
    exact ⟨f :: fs, (encodes_append_iff h).mpr ⟨fs, rfl, hfs⟩, hmeans⟩

theorem isEntryFrom_append_iff {bs rest : Bytes} (h : f.Encodes bs) :
    IsEntryFrom e (bs ++ rest) e' ↔ ∃ fs, Encodes fs rest ∧ EntryMeans e (f :: fs) e' :=
  exists_encodes_append_iff h

/-- The inner loop ends with the entry, its key being what the text decoder makes of it, or it throws where there is
no entry. -/
def EntryAgrees (e : String × Bytes) (chunk : Bytes) : Except Thrown EntryLoop → Prop
  | .ok fin => ∃ s, fin.key = utf8Decode (utf8Encode s) ∧ ∀ e', IsEntryFrom e chunk e' ↔ e' = (s, fin.value)
  | .error _ => ∀ e', ¬ IsEntryFrom e chunk e'

theorem entryTurn_field {len bs : Bytes} (hlen : PlainLength len bs.length)
    (htype : tag.toNat % 8 = 2) (key : String) (value rest : Bytes) :
    entryTurn ⟨key, value, tag :: (len ++ bs ++ rest)⟩ = some (.ok
      (if tag.toNat / 8 = 1 then ⟨utf8Decode bs, value, rest⟩
      else if tag.toNat / 8 = 2 then ⟨key, bs, rest⟩ else ⟨key, value, rest⟩)) := by
  have hread := hlen.readVarint (bs ++ rest)
  have hand : ¬ tag.toNat &&& 0x07 ≠ 2 := by
    rw [and_wireType, htype]
    exact fun h => h rfl
  simp only [entryTurn, entryField, if_neg hand, List.append_assoc, hread, bind, Except.bind, shiftRight_number,
    List.take_left, List.drop_left]
  split
  · rfl
  · split <;> rfl

theorem PlainFields.agrees {chunk : Bytes} (h : PlainFields chunk) : ∀ (s : String) (value : Bytes)
    {r : Except Thrown EntryLoop}, Loops entryTurn ⟨utf8Decode (utf8Encode s), value, chunk⟩ r →
    EntryAgrees (s, value) chunk r := by
  induction h with
  | nil =>
    intro s value r hr
    rw [Loops.done_iff rfl] at hr
    rw [hr]
    refine ⟨s, rfl, ?_⟩
    intro e'
    constructor
    · rintro ⟨fs, hfs, hmeans⟩
      rw [encodes_nil_iff.mp hfs, entryMeans_nil_iff] at hmeans
      exact hmeans
    · intro he
      exact ⟨[], .nil, entryMeans_nil_iff.mpr he⟩
  | @unsupported tag rest hbyte htag =>
    intro s value r hr
    have hturn : ∃ e, entryTurn ⟨utf8Decode (utf8Encode s), value, tag :: rest⟩ = some (.error e) := by
      have hand : tag.toNat &&& 0x07 ≠ 2 := by
        rw [and_wireType]
        intro htwo
        rw [Unsupported, htwo] at htag
        exact absurd htag (by decide)
      exact ⟨_, congrArg some (if_pos hand)⟩
    rcases hturn with ⟨e, hturn⟩
    rw [(Loops.throws_iff hturn).mp hr]
    rintro e' ⟨fs, hfs, _⟩
    exact htag.not_encodes hbyte rest fs hfs
  | @noLength tag rest hbyte htype hno =>
    intro s value r hr
    rcases hno.readVarint with ⟨e, hread⟩
    have hturn : entryTurn ⟨utf8Decode (utf8Encode s), value, tag :: rest⟩ = some (.error e) := by
      have hand : ¬ tag.toNat &&& 0x07 ≠ 2 := by
        rw [and_wireType, htype]
        exact fun h => h rfl
      simp only [entryTurn, entryField, if_neg hand, hread, bind, Except.bind]
    rw [(Loops.throws_iff hturn).mp hr]
    rintro e' ⟨fs, hfs, _⟩
    exact hno.not_encodes hbyte (Or.inr htype) fs hfs
  | @field tag len bs rest htag htype hlen hkey _ ih =>
    intro s value r hr
    rw [Loops.next_iff (entryTurn_field hlen htype _ _ _)] at hr
    have hentry : ∀ e', IsEntryFrom (s, value) (tag :: (len ++ bs ++ rest)) e' ↔
        ∃ fs, Encodes fs rest ∧ EntryMeans (s, value) (⟨tag.toNat / 8, .delimited bs⟩ :: fs) e' :=
      fun e' => isEntryFrom_append_iff (hlen.encodes htag htype)
    -- What the field does to the key and the value is the same on both sides.
    by_cases hone : tag.toNat / 8 = 1
    · rcases hkey hone with ⟨s', rfl⟩
      rw [if_pos hone] at hr
      have hstep : ∀ e', IsEntryFrom (s, value) (tag :: (len ++ utf8Encode s' ++ rest)) e' ↔
          IsEntryFrom (s', value) rest e' := by
        intro e'
        rw [hentry, hone]
        simp only [entryMeans_key_iff]
        rfl
      have hrest := ih s' value hr
      cases r <;> simpa only [EntryAgrees, hstep] using hrest
    · by_cases htwo : tag.toNat / 8 = 2
      · rw [if_neg hone, if_pos htwo] at hr
        have hstep : ∀ e', IsEntryFrom (s, value) (tag :: (len ++ bs ++ rest)) e' ↔ IsEntryFrom (s, bs) rest e' := by
          intro e'
          rw [hentry, htwo]
          simp only [entryMeans_value_iff]
          rfl
        have hrest := ih s bs hr
        cases r <;> simpa only [EntryAgrees, hstep] using hrest
      · rw [if_neg hone, if_neg htwo] at hr
        have hunknown : UnknownTo [1, 2] ⟨tag.toNat / 8, .delimited bs⟩ := by
          intro _ _ hmem
          simp only [List.mem_cons, List.not_mem_nil, or_false] at hmem
          omega
        have hstep : ∀ e', IsEntryFrom (s, value) (tag :: (len ++ bs ++ rest)) e' ↔
            IsEntryFrom (s, value) rest e' := by
          intro e'
          rw [hentry]
          simp only [entryMeans_unknown_iff hunknown]
          rfl
        have hrest := ih s value hr
        cases r <;> simpa only [EntryAgrees, hstep] using hrest

theorem PlainEntry.decodeEntry {chunk : Bytes} (h : PlainEntry chunk) :
    (∃ e, Streams.decodeEntry chunk = .ok e ∧ ∀ e', IsEntry chunk e' ↔ e' = e) ∨
      (∃ thrown, Streams.decodeEntry chunk = .error thrown) ∧ ∀ e', ¬ IsEntry chunk e' := by
  have hempty : utf8Decode (utf8Encode "") = "" := by decide +kernel
  have hloops := loops_decodeEntry chunk
  rw [← hempty] at hloops
  have hagrees := h.fields.agrees "" [] hloops
  cases hdecode : Streams.decodeEntry chunk with
  | error thrown =>
    rw [hdecode] at hagrees
    exact Or.inr ⟨⟨thrown, rfl⟩, hagrees⟩
  | ok e =>
    rw [hdecode] at hagrees
    rcases hagrees with ⟨s, hkey, hentry⟩
    have hkeys := h.key _ ((hentry _).mpr rfl)
    have hs : e.1 = s := hkey.trans (utf8Decode_utf8Encode hkeys.2)
    refine Or.inl ⟨e, rfl, ?_⟩
    intro e'
    rw [IsEntry, hentry, ← hs]

/-! ### Payloads -/

variable {c c' : Content}

theorem means_nil_iff : Means c [] c' ↔ c' = c := by
  constructor
  · intro h
    cases h
    rfl
  · rintro rfl
    exact .nil

theorem means_entry_iff :
    Means c (⟨1, .delimited bs⟩ :: fs) c' ↔ ∃ e, IsEntry bs e ∧ Means (c.withEntry e) fs c' := by
  constructor
  · intro h
    cases h with
    | entry he h => exact ⟨_, he, h⟩
    | unknown hf _ => exact absurd (by simp) (hf _ rfl)
  · rintro ⟨e, he, h⟩
    exact .entry he h

theorem means_data_iff :
    Means c (⟨2, .delimited bs⟩ :: fs) c' ↔ Means { c with data := bs } fs c' := by
  constructor
  · intro h
    cases h with
    | data h => exact h
    | unknown hf _ => exact absurd (by simp) (hf _ rfl)
  · exact .data

theorem means_external_iff (hbs : ∃ fs', Encodes fs' bs) :
    Means c (⟨3, .delimited bs⟩ :: fs) c' ↔ Means c fs c' := by
  constructor
  · intro h
    cases h with
    | external _ h => exact h
    | unknown hf _ => exact absurd (by simp) (hf _ rfl)
  · intro h
    rcases hbs with ⟨fs', hfs'⟩
    exact .external hfs' h

theorem means_unknown_iff (hf : UnknownTo [1, 2, 3] f) :
    Means c (f :: fs) c' ↔ Means c fs c' := by
  constructor
  · intro h
    cases h with
    | entry | data | external => exact absurd (by simp) (hf _ rfl)
    | unknown _ h => exact h
  · exact .unknown hf

theorem isPayloadFrom_append_iff {bs rest : Bytes} (h : f.Encodes bs) :
    IsPayloadFrom c (bs ++ rest) c' ↔ ∃ fs, Encodes fs rest ∧ Means c (f :: fs) c' :=
  exists_encodes_append_iff h

theorem isPayloadFrom_unknown_iff {bs rest : Bytes} (h : f.Encodes bs)
    (hf : UnknownTo [1, 2, 3] f) : IsPayloadFrom c (bs ++ rest) c' ↔ IsPayloadFrom c rest c' := by
  rw [isPayloadFrom_append_iff h]
  simp only [means_unknown_iff hf]
  rfl

/-- The content that the decoder has collected. -/
def PayloadLoop.content (s : PayloadLoop) : Content := ⟨s.metadata.get?, s.data⟩

/-- The outer loop ends with the content, or throws where there is no payload. -/
def PayloadAgrees (c : Content) (bs : Bytes) : Except Thrown PayloadLoop → Prop
  | .ok fin => ∀ c', IsPayloadFrom c bs c' ↔ c' = fin.content
  | .error _ => ∀ c', ¬ IsPayloadFrom c bs c'

theorem PayloadAgrees.congr {c c₁ : Content} {bs bs₁ : Bytes} {r : Except Thrown PayloadLoop}
    (h : PayloadAgrees c₁ bs₁ r) (hstep : ∀ c', IsPayloadFrom c bs c' ↔ IsPayloadFrom c₁ bs₁ c') :
    PayloadAgrees c bs r := by
  cases r <;> simpa only [PayloadAgrees, hstep] using h

theorem content_assign (metadata : JsObject Bytes) (data rest rest' : Bytes) {e : String × Bytes}
    (h : e.1 ≠ "__proto__") : (PayloadLoop.mk (metadata.assign e.1 e.2) data rest).content =
      (PayloadLoop.mk metadata data rest').content.withEntry e := by
  unfold PayloadLoop.content Content.withEntry
  congr 1
  funext key
  rw [JsObject.get?_assign]
  simp [h]

theorem payloadTurn_delimited {len bs : Bytes} (hlen : PlainLength len bs.length)
    (htype : tag.toNat % 8 = 2) (hone : tag.toNat / 8 ≠ 1) (metadata : JsObject Bytes) (data rest : Bytes) :
    payloadTurn ⟨metadata, data, tag :: (len ++ bs ++ rest)⟩ = some (.ok
      (if tag.toNat / 8 = 2 then ⟨metadata, bs, rest⟩ else ⟨metadata, data, rest⟩)) := by
  have hread := hlen.readVarint (bs ++ rest)
  simp only [payloadTurn, payloadField, and_wireType, htype, if_true, List.append_assoc, hread, bind, Except.bind,
    shiftRight_number, if_neg hone, List.take_left, List.drop_left]
  split <;> rfl

theorem payloadTurn_entry {len bs : Bytes} (hlen : PlainLength len bs.length) (metadata : JsObject Bytes)
    (data rest : Bytes) : payloadTurn ⟨metadata, data, 0x0a :: (len ++ bs ++ rest)⟩ =
      some ((decodeEntry bs).map fun e => ⟨metadata.assign e.1 e.2, data, rest⟩) := by
  have hread := hlen.readVarint (bs ++ rest)
  have htype : (0x0a : UInt8).toNat &&& 0x07 = 2 := by decide
  have hone : (0x0a : UInt8).toNat >>> 3 = 1 := by decide
  simp only [payloadTurn, payloadField, htype, if_true, List.append_assoc, hread, bind, Except.bind, hone,
    List.take_left, List.drop_left]
  cases decodeEntry bs <;> rfl

theorem Plain.agrees {b : Bytes} (h : Plain b) : ∀ (metadata : JsObject Bytes) (data : Bytes)
    {r : Except Thrown PayloadLoop}, Loops payloadTurn ⟨metadata, data, b⟩ r →
    PayloadAgrees ⟨metadata.get?, data⟩ b r := by
  induction h with
  | nil =>
    intro metadata data r hr
    rw [(Loops.done_iff rfl).mp hr]
    intro c'
    constructor
    · rintro ⟨fs, hfs, hmeans⟩
      rw [encodes_nil_iff.mp hfs, means_nil_iff] at hmeans
      exact hmeans
    · intro hc
      exact ⟨[], .nil, means_nil_iff.mpr hc⟩
  | @unsupported tag rest hbyte htag =>
    intro metadata data r hr
    have hturn : payloadTurn ⟨metadata, data, tag :: rest⟩ =
        some (.error (.error s!"unsupported wire type {tag.toNat &&& 0x07}")) := by
      simp only [Unsupported, List.mem_cons, List.not_mem_nil, or_false] at htag
      simp only [payloadTurn, payloadField, and_wireType]
      rw [if_neg (by omega), if_neg (by omega), if_neg (by omega), if_neg (by omega)]
    rw [(Loops.throws_iff hturn).mp hr]
    rintro c' ⟨fs, hfs, _⟩
    exact htag.not_encodes hbyte rest fs hfs
  | @noVarint tag rest hbyte htype hno =>
    intro metadata data r hr
    rcases hno.readVarint with ⟨e, hread⟩
    have hturn : payloadTurn ⟨metadata, data, tag :: rest⟩ = some (.error e) := by
      simp only [payloadTurn, payloadField, and_wireType, hread, bind, Except.bind]
      rcases htype with hzero | htwo
      · rw [if_neg (by omega), if_pos hzero]
      · rw [if_pos htwo]
    rw [(Loops.throws_iff hturn).mp hr]
    rintro c' ⟨fs, hfs, _⟩
    exact hno.not_encodes hbyte htype fs hfs
  | @varint tag bs rest n htag htype hlen _ ih =>
    intro metadata data r hr
    have hturn : payloadTurn ⟨metadata, data, tag :: (bs ++ rest)⟩ = some (.ok ⟨metadata, data, rest⟩) := by
      simp only [payloadTurn, payloadField, and_wireType, htype, hlen.readVarint rest, bind, Except.bind]
      rfl
    have hwire : tag.toNat % 8 = (Value.varint n).wireType := htype
    rw [Loops.next_iff hturn] at hr
    refine (ih metadata data hr).congr fun c' => isPayloadFrom_unknown_iff
      (Field.encodes_of_tag htag.one_byte htag.number hwire (.varint hlen.isVarint)) nofun
  | @fixed64 tag bs rest htag htype hlen _ ih =>
    intro metadata data r hr
    have hdrop : (bs ++ rest).drop 8 = rest := List.drop_left' hlen
    have hturn : payloadTurn ⟨metadata, data, tag :: (bs ++ rest)⟩ = some (.ok ⟨metadata, data, rest⟩) := by
      simp only [payloadTurn, payloadField, and_wireType, htype, hdrop]
      rfl
    have hwire : tag.toNat % 8 = (Value.fixed64 bs).wireType := htype
    rw [Loops.next_iff hturn] at hr
    refine (ih metadata data hr).congr fun c' => isPayloadFrom_unknown_iff
      (Field.encodes_of_tag htag.one_byte htag.number hwire (.fixed64 hlen)) nofun
  | @fixed32 tag bs rest htag htype hlen _ ih =>
    intro metadata data r hr
    have hdrop : (bs ++ rest).drop 4 = rest := List.drop_left' hlen
    have hturn : payloadTurn ⟨metadata, data, tag :: (bs ++ rest)⟩ = some (.ok ⟨metadata, data, rest⟩) := by
      simp only [payloadTurn, payloadField, and_wireType, htype, hdrop]
      rfl
    have hwire : tag.toNat % 8 = (Value.fixed32 bs).wireType := htype
    rw [Loops.next_iff hturn] at hr
    refine (ih metadata data hr).congr fun c' => isPayloadFrom_unknown_iff
      (Field.encodes_of_tag htag.one_byte htag.number hwire (.fixed32 hlen)) nofun
  | @entry len bs rest hlen hentry _ ih =>
    intro metadata data r hr
    have htag : PlainTag 0x0a := ⟨by decide, by decide⟩
    have hfrom : ∀ c', IsPayloadFrom ⟨metadata.get?, data⟩ (0x0a :: (len ++ bs ++ rest)) c' ↔
        ∃ fs, Encodes fs rest ∧ ∃ e, IsEntry bs e ∧ Means (Content.withEntry ⟨metadata.get?, data⟩ e) fs c' := by
      intro c'
      simp only [← means_entry_iff]
      exact isPayloadFrom_append_iff (hlen.encodes htag (by decide))
    rcases hentry.decodeEntry with ⟨e, hdecode, hunique⟩ | ⟨⟨thrown, hdecode⟩, hnone⟩
    · have hturn : payloadTurn ⟨metadata, data, 0x0a :: (len ++ bs ++ rest)⟩ =
          some (.ok ⟨metadata.assign e.1 e.2, data, rest⟩) := by
        rw [payloadTurn_entry hlen, hdecode]
        rfl
      have he : IsEntry bs e := (hunique e).mpr rfl
      rw [Loops.next_iff hturn] at hr
      refine (ih ⟨e, he⟩ (metadata.assign e.1 e.2) data hr).congr fun c' => ?_
      have hcontent := content_assign metadata data rest rest (hentry.key e he).1
      rw [hfrom]
      simp only [PayloadLoop.content] at hcontent
      simp only [hunique, exists_eq_left, ← hcontent]
      rfl
    · have hturn : payloadTurn ⟨metadata, data, 0x0a :: (len ++ bs ++ rest)⟩ = some (.error thrown) := by
        rw [payloadTurn_entry hlen, hdecode]
        rfl
      rw [(Loops.throws_iff hturn).mp hr]
      intro c' hc'
      rcases (hfrom c').mp hc' with ⟨fs, _, e, he, _⟩
      exact hnone e he
  | @delimited tag len bs rest htag htype hone hlen hexternal _ ih =>
    intro metadata data r hr
    rw [Loops.next_iff (payloadTurn_delimited hlen htype hone _ _ _)] at hr
    have hfrom : ∀ c', IsPayloadFrom ⟨metadata.get?, data⟩ (tag :: (len ++ bs ++ rest)) c' ↔
        ∃ fs, Encodes fs rest ∧ Means ⟨metadata.get?, data⟩ (⟨tag.toNat / 8, .delimited bs⟩ :: fs) c' :=
      fun c' => isPayloadFrom_append_iff (hlen.encodes htag htype)
    by_cases htwo : tag.toNat / 8 = 2
    · rw [if_pos htwo] at hr
      refine (ih metadata bs hr).congr fun c' => (hfrom c').trans ?_
      rw [htwo]
      simp only [means_data_iff]
      rfl
    · rw [if_neg htwo] at hr
      refine (ih metadata data hr).congr fun c' => (hfrom c').trans ?_
      by_cases hthree : tag.toNat / 8 = 3
      · rw [hthree]
        simp only [means_external_iff (hexternal hthree)]
        rfl
      · have hunknown : UnknownTo [1, 2, 3] ⟨tag.toNat / 8, .delimited bs⟩ := by
          intro _ _ hmem
          simp only [List.mem_cons, List.not_mem_nil, or_false] at hmem
          omega
        simp only [means_unknown_iff hunknown]
        rfl

theorem Plain.conforms {b : Bytes} (h : Plain b) : Conforms b := by
  rcases (terminates b).payload with ⟨r, hr, hdecode⟩
  have hagrees : PayloadAgrees Content.empty b r := h.agrees .empty [] hr
  cases r with
  | error e =>
    refine ⟨fun c hc => absurd hc (hagrees c), fun _ => ⟨e, hdecode⟩⟩
  | ok fin =>
    refine ⟨?_, fun hnone => absurd ((hagrees fin.content).mpr rfl) (hnone fin.content)⟩
    intro c hc
    cases (hagrees c).mp hc
    exact ⟨fin.metadata, hdecode, fun key => rfl⟩

/-- The decoder ends on all bytes, and conforms to the grammar on plain ones. -/
theorem decodePayloadProto_correct (b : Bytes) : Terminates b ∧ (Plain b → Conforms b) :=
  ⟨terminates b, Plain.conforms⟩

/-- An entry, data that other data replaces, and a field that the schema does not have. -/
theorem decodePayloadProto_correct_data :
    Conforms [0x0a, 0x06, 0x0a, 0x01, 0x61, 0x12, 0x01, 0x62, 0x12, 0x01, 0x07, 0x12, 0x01, 0x08, 0x20, 0x05] := by
  have hone : ∀ b : UInt8, PlainLength [0x01] [b].length := fun _ => ⟨isVarint_singleton (by decide), by decide⟩
  have hsix : PlainLength [0x06] 6 := ⟨isVarint_singleton (by decide), by decide⟩
  have hkey : PlainTag 0x0a := ⟨by decide, by decide⟩
  have htag : PlainTag 0x12 := ⟨by decide, by decide⟩
  have ha : utf8Encode "a" = [0x61] := by decide +kernel
  have hfields : PlainFields (0x0a :: ([0x01] ++ [0x61] ++ (0x12 :: ([0x01] ++ [0x62] ++ [])))) :=
    .field hkey rfl (hone _) (fun _ => ⟨"a", ha⟩) (.field htag rfl (hone _) nofun .nil)
  have hentry : PlainEntry [0x0a, 0x01, 0x61, 0x12, 0x01, 0x62] := by
    refine ⟨hfields, fun e he => ?_⟩
    have he : IsEntryFrom ("", []) ([0x0a, 0x01, 0x61] ++ (0x12 :: ([0x01] ++ [0x62] ++ []))) e := he
    obtain ⟨fs, hfs, hmeans⟩ : ∃ fs, Encodes fs (0x12 :: ([0x01] ++ [0x62] ++ [])) ∧
        EntryMeans ("", []) (⟨1, .delimited [0x61]⟩ :: fs) e :=
      (isEntryFrom_append_iff ((hone 0x61).encodes hkey rfl)).mp he
    rw [← ha, entryMeans_key_iff] at hmeans
    obtain ⟨fs', hfs', hmeans'⟩ : ∃ fs, Encodes fs [] ∧ EntryMeans ("a", []) (⟨2, .delimited [0x62]⟩ :: fs) e :=
      (isEntryFrom_append_iff ((hone 0x62).encodes htag rfl)).mp ⟨fs, hfs, hmeans⟩
    rw [encodes_nil_iff.mp hfs', entryMeans_value_iff, entryMeans_nil_iff] at hmeans'
    rw [hmeans']
    exact ⟨by decide, by decide +kernel⟩
  have hdata : ∀ b rest, Plain rest → Plain (0x12 :: ([0x01] ++ [b] ++ rest)) := fun b rest =>
    .delimited htag rfl (by decide) (hone b) nofun
  have hunknown : Plain (0x20 :: ([0x05] ++ [])) :=
    .varint ⟨by decide, by decide⟩ rfl ⟨isVarint_singleton (by decide), by decide⟩ .nil
  exact (decodePayloadProto_correct _).2 (.entry hsix hentry fun _ => hdata 7 _ (hdata 8 _ hunknown))

/-- Data of five bytes, none of which is there. -/
theorem truncated_not_conforms : ¬ Conforms [0x12, 0x05] := by
  intro h
  have hnone : ∀ c, ¬ Serializes [0x12, 0x05] c := by
    rintro c ⟨fs, hfs, _⟩
    rcases exists_of_encodes_cons (by decide) hfs with ⟨value, bs, rest, hrest, hvalue, htype⟩
    cases hvalue with
    | @delimited len bs hlen =>
      have hfive : IsVarint [0x05] 5 := isVarint_singleton (by decide)
      rw [List.append_assoc] at hrest
      rcases hfive.append_inj hlen hrest with ⟨_, hlength, hbytes⟩
      rw [(List.append_eq_nil_iff.mp hbytes.symm).1] at hlength
      cases hlength
    | varint _ | fixed64 _ | fixed32 _ => exact absurd htype (by simp [Value.wireType])
  rcases h.otherwise hnone with ⟨e, he⟩
  cases he

end TemporalSdk.Streams
