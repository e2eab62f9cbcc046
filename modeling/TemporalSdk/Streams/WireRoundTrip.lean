import Mathlib.Algebra.Order.BigOperators.Group.List
import Mathlib.Data.Nat.Log
import TemporalSdk.Machine.JsText
import TemporalSdk.Streams.Codec

/-!
# WireRoundTrip — which payloads come back from the wire

A key of the metadata is any string of the language.  `TextEncoder` writes it as UTF-8, `TextDecoder` reads it, and
what was read is assigned to a property of a plain object; each of the three steps changes some keys.
-/

namespace TemporalSdk.Streams

open Machine

/-! ## The payload as it is given -/

/-- A payload whose keys are strings of the language, in the order of `Object.keys`. -/
structure GivenPayload where
  metadata : Option (List (JsText × Option Bytes))
  data : Option Bytes
  distinct : ∀ entries, metadata = some entries → (entries.map Prod.fst).Nodup

namespace GivenPayload

/-- The entries that are not `null`. -/
def present (p : GivenPayload) : List (JsText × Bytes) :=
  match p.metadata with
  | none => []
  | some entries => entries.filterMap fun e => e.2.map fun value => (e.1, value)

/-- The text that `TextEncoder` writes. -/
def keyText (key : JsText) : String := String.ofList key.scalarValues

def encodePayloadProto (p : GivenPayload) : Bytes :=
  (p.present.flatMap fun e => encodeEntry (keyText e.1) e.2) ++ encodeData p.data

end GivenPayload

/-- The longest string of the engine. -/
def maxStringLength : Nat := 2 ^ 29 - 24

/-- `encodeBase64`, whose `+=` throws once the text is longer than a string can be.  A text that is no longer than
that has less than `2 ^ 31 / 3` characters, so that `>> 2` in the decoder does not overflow. -/
def encodeBase64Text (b : Bytes) : Except Thrown (List Char) :=
  if (encodeBase64 b).length ≤ maxStringLength then .ok (encodeBase64 b)
  else .error (.error "Invalid string length")

def base64Trip (b : Bytes) : Except Thrown Bytes := do
  decodeBase64 (← encodeBase64Text b)

def wireTrip (p : GivenPayload) : Except Thrown Payload := do
  decodePayloadWire (← encodeBase64Text p.encodePayloadProto)

/-- The payload that was read has exactly the entries and the data of the one that was written. -/
structure GivenPayload.ReadBackAs (p : GivenPayload) (p' : Payload) : Prop where
  entries : ∀ key value, (key, value) ∈ p.present ↔
    ∃ s metadata, p'.metadata = some metadata ∧ metadata.get? s = some (some value) ∧ JsText.ofString s = key
  data : p'.data = some (p.data.getD [])

def GivenPayload.Survives (p : GivenPayload) : Prop := ∃ p', wireTrip p = .ok p' ∧ p.ReadBackAs p'

/-! ## Which payloads do -/

def fieldSize (n : Nat) : Nat := 1 + (Nat.log 128 n + 1) + n

def textSize (t : JsText) : Nat := (t.scalarValues.map Char.utf8Size).sum

/-- The number of bytes of a payload in protobuf. -/
def GivenPayload.size (p : GivenPayload) : Nat :=
  (p.present.map fun e => fieldSize (fieldSize (textSize e.1) + fieldSize e.2.length)).sum +
    if p.data.getD [] = [] then 0 else fieldSize (p.data.getD []).length

/-- The bytes that a string can hold in base64. -/
def maxSize : Nat := 3 * (maxStringLength / 4)

/-- A key that every step of the codec leaves as it is: all surrogates are paired, the name is not that of the
prototype, and there is no byte order mark at the beginning. -/
structure PortableKey (key : JsText) : Prop where
  wellFormed : key.WellFormed
  not_proto : key ≠ JsText.ofString "__proto__"
  no_mark : key.head? ≠ some 0xfeff

structure GivenPayload.Portable (p : GivenPayload) : Prop where
  keys : ∀ e ∈ p.present, PortableKey e.1
  fits : p.size ≤ maxSize

/-! ## Sizes -/

theorem length_encodeBase64 (b : Bytes) : (encodeBase64 b).length = 4 * ((b.length + 2) / 3) := by
  fun_induction encodeBase64 b with
  | case1 => rfl
  | case2 | case3 => simp [encodeGroup]
  | case4 b0 b1 b2 rest ih =>
    rw [List.length_append, ih]
    simp only [encodeGroup, List.length_cons, List.length_nil]
    omega

theorem encodeBase64Text_ok_iff (b : Bytes) : encodeBase64Text b = .ok (encodeBase64 b) ↔ b.length ≤ maxSize := by
  have hlength := length_encodeBase64 b
  have hsize : maxSize = 402653166 := by decide
  have hmax : maxStringLength = 536870888 := by decide
  unfold encodeBase64Text
  split
  · rename_i hle
    simp only [true_iff]
    omega
  · rename_i hlt
    simp only [reduceCtorEq, false_iff]
    omega

theorem encodeBase64Text_error {b : Bytes} (h : ¬ b.length ≤ maxSize) :
    encodeBase64Text b = .error (.error "Invalid string length") := by
  rw [← encodeBase64Text_ok_iff] at h
  unfold encodeBase64Text at h ⊢
  split at h
  · exact absurd rfl h
  · rename_i hlt
    rw [if_neg hlt]

theorem base64Trip_ok_iff (b : Bytes) : base64Trip b = .ok b ↔ b.length ≤ maxSize := by
  constructor
  · intro h
    by_contra hlong
    simp only [base64Trip, encodeBase64Text_error hlong, bind, Except.bind] at h
    exact nomatch h
  · intro h
    simp only [base64Trip, (encodeBase64Text_ok_iff b).mpr h, bind, Except.bind]
    exact decodeBase64_encodeBase64 b

theorem length_writeVarintLoop : ∀ fuel n : Nat, n ≤ fuel → (writeVarintLoop fuel n).length = Nat.log 128 n + 1 := by
  intro fuel
  induction fuel with
  | zero =>
    intro n h
    obtain rfl : n = 0 := by omega
    simp [writeVarintLoop]
  | succ fuel ih =>
    intro n h
    rw [writeVarintLoop]
    split
    · rename_i hle
      rw [List.length_cons, ih (n / 128) (by omega), Nat.log_of_one_lt_of_le (by omega) hle]
    · rename_i hlt
      rw [Nat.log_of_lt (by omega)]
      rfl

theorem length_writeTagLenBytes (tag : UInt8) (bytes : Bytes) :
    (writeTagLenBytes tag bytes).length = fieldSize bytes.length := by
  rw [writeTagLenBytes, List.length_cons, List.length_append, writeVarint,
    length_writeVarintLoop _ _ (Nat.le_refl _), fieldSize]
  omega

theorem utf8Encode_ofList (cs : List Char) : utf8Encode (String.ofList cs) = cs.flatMap String.utf8EncodeChar := by
  simp [utf8Encode, List.utf8Encode]

theorem length_utf8Encode_keyText (key : JsText) :
    (utf8Encode (GivenPayload.keyText key)).length = textSize key := by
  rw [GivenPayload.keyText, utf8Encode_ofList, List.length_flatMap, textSize]
  simp only [String.length_utf8EncodeChar]

theorem length_encodeEntry (key : JsText) (value : Bytes) :
    (encodeEntry (GivenPayload.keyText key) value).length =
      fieldSize (fieldSize (textSize key) + fieldSize value.length) := by
  rw [encodeEntry, length_writeTagLenBytes, List.length_append, length_writeTagLenBytes, length_writeTagLenBytes,
    length_utf8Encode_keyText]

theorem length_encodeData (data : Option Bytes) :
    (encodeData data).length = if data.getD [] = [] then 0 else fieldSize (data.getD []).length := by
  cases data with
  | none => rfl
  | some data =>
    cases data with
    | nil => rfl
    | cons b data =>
      rw [encodeData, length_writeTagLenBytes, Option.getD_some, if_neg (by simp)]
      exact List.cons_ne_nil _ _

theorem length_encodePayloadProto (p : GivenPayload) : p.encodePayloadProto.length = p.size := by
  rw [GivenPayload.encodePayloadProto, GivenPayload.size, List.length_append, List.length_flatMap, length_encodeData]
  simp only [length_encodeEntry]

/-! ## Keys -/

theorem byteOrderMark_eq : byteOrderMark = String.utf8EncodeChar '\ufeff' := by decide +kernel

theorem utf8Encode_cons (c : Char) (cs : List Char) :
    utf8Encode (String.ofList (c :: cs)) = String.utf8EncodeChar c ++ utf8Encode (String.ofList cs) := by
  rw [utf8Encode_ofList, List.flatMap_cons, ← utf8Encode_ofList]

theorem byteOrderMark_isPrefix_iff (cs : List Char) :
    byteOrderMark <+: utf8Encode (String.ofList cs) ↔ cs.head? = some '\ufeff' := by
  constructor
  · rintro ⟨rest, hrest⟩
    have hbytes : ['\ufeff'].utf8Encode ++ rest.toByteArray = cs.utf8Encode := by
      have hlist : (String.utf8EncodeChar '\ufeff' ++ rest).toByteArray =
          (cs.flatMap String.utf8EncodeChar).toByteArray := by
        rw [← byteOrderMark_eq, hrest, utf8Encode_ofList]
      rw [List.toByteArray_append] at hlist
      rw [List.utf8Encode_singleton, hlist]
      rfl
    rcases List.isPrefix_of_utf8Encode_append_eq_utf8Encode _ hbytes with ⟨cs', rfl⟩
    rfl
  · intro h
    cases cs with
    | nil => exact nomatch h
    | cons c cs =>
      rw [List.head?_cons, Option.some.injEq] at h
      rw [h, utf8Encode_cons, ← byteOrderMark_eq]
      exact List.prefix_append _ _

theorem fromUTF8?_utf8Encode (s : String) : String.fromUTF8? ⟨(utf8Encode s).toArray⟩ = some s := by
  have hvalid : s.toByteArray.IsValidUTF8 := s.isValidUTF8
  simp [utf8Encode, String.fromUTF8?, String.fromUTF8, hvalid]

theorem utf8Decode_mark (cs : List Char) :
    utf8Decode (utf8Encode (String.ofList ('\ufeff' :: cs))) = String.ofList cs := by
  have hdrop : (utf8Encode (String.ofList ('\ufeff' :: cs))).drop 3 = utf8Encode (String.ofList cs) := by
    rw [utf8Encode_cons, ← byteOrderMark_eq]
    rfl
  have hmark := (byteOrderMark_isPrefix_iff ('\ufeff' :: cs)).mpr rfl
  simp only [utf8Decode, if_pos hmark, hdrop, fromUTF8?_utf8Encode]

theorem head?_ofString (s : String) : (JsText.ofString s).head? = some 0xfeff ↔ s.toList.head? = some '\ufeff' :=
  JsText.head?_ofChars (c := '\ufeff') (by decide) s.toList

/-- The key as it is read. -/
def readKey (key : JsText) : String := utf8Decode (utf8Encode (GivenPayload.keyText key))

theorem readKey_ofString {s : String} (h : (JsText.ofString s).head? ≠ some 0xfeff) :
    readKey (JsText.ofString s) = s := by
  rw [readKey, GivenPayload.keyText, JsText.ofList_scalarValues_ofString]
  apply utf8Decode_utf8Encode
  rw [← String.ofList_toList (s := s), byteOrderMark_isPrefix_iff, ← head?_ofString]
  exact h

theorem readKey_inv {s' s : String} (h : readKey (JsText.ofString s') = s) :
    s' = s ∨ s'.toList = '\ufeff' :: s.toList := by
  by_cases hmark : (JsText.ofString s').head? = some 0xfeff
  · rw [head?_ofString] at hmark
    obtain ⟨cs, hcs⟩ := List.head?_eq_some_iff.mp hmark
    have hs' : s' = String.ofList ('\ufeff' :: cs) := by
      rw [← hcs, String.ofList_toList]
    rw [readKey, GivenPayload.keyText, JsText.ofList_scalarValues_ofString, hs', utf8Decode_mark] at h
    rw [← h, String.toList_ofList]
    exact Or.inr hcs
  · rw [readKey_ofString hmark] at h
    exact Or.inl h

/-! ## The way through the wire -/

/-- The properties that the decoder assigns. -/
def GivenPayload.assigned (p : GivenPayload) : List (String × Bytes) := p.present.map fun e => (readKey e.1, e.2)

theorem decodeLoop_given {p : GivenPayload} (h : p.size ≤ maxSize) :
    decodeLoop p.encodePayloadProto.length .empty [] p.encodePayloadProto =
      .ok (JsObject.empty.assignAll p.assigned, p.data.getD []) := by
  have hbytes : p.encodePayloadProto =
      ((p.present.map fun e => (GivenPayload.keyText e.1, e.2)).flatMap fun e => encodeEntry e.1 e.2) ++
        encodeData p.data := by
    rw [GivenPayload.encodePayloadProto, List.flatMap_map]
  have hassigned : (p.present.map fun e => (GivenPayload.keyText e.1, e.2)).map wireKey = p.assigned := by
    rw [List.map_map]
    rfl
  have hlength := length_encodePayloadProto p
  have hmax : maxSize < maxLength := by decide
  rw [← hassigned]
  rw [hbytes] at hlength ⊢
  rcases decodeLoop_entries [] (p.present.map fun e => (GivenPayload.keyText e.1, e.2)) _ .empty (encodeData p.data)
    (by omega) (Nat.le_refl _) with ⟨fuel, hfuel, heq⟩
  refine heq.trans (decodeLoop_encodeData _ ?_ hfuel)
  rw [List.length_append] at hlength
  omega

theorem wireTrip_eq {p : GivenPayload} (h : p.size ≤ maxSize) :
    wireTrip p = .ok (.ofWire (JsObject.empty.assignAll p.assigned) (p.data.getD [])) := by
  have hfits : p.encodePayloadProto.length ≤ maxSize := by
    rw [length_encodePayloadProto]
    exact h
  simp only [wireTrip, (encodeBase64Text_ok_iff _).mpr hfits, bind, Except.bind, decodePayloadWire,
    decodeBase64_encodeBase64, decodePayloadProto, decodeLoop_given h]

theorem wireTrip_error {p : GivenPayload} (h : ¬ p.size ≤ maxSize) :
    wireTrip p = .error (.error "Invalid string length") := by
  rw [← length_encodePayloadProto] at h
  simp only [wireTrip, encodeBase64Text_error h, bind, Except.bind]

theorem get?_ofWire (metadata : JsObject Bytes) (data : Bytes) (s : String) :
    ∃ o, (Payload.ofWire metadata data).metadata = some o ∧ o.get? s = (metadata.get? s).map some := by
  refine ⟨_, rfl, ?_⟩
  simp only [JsObject.get?, List.find?_map, Option.map_map]
  rfl

/-- The payload is read back if its properties are those of the object that was read. -/
theorem readBackAs_ofWire_iff (p : GivenPayload) (metadata : JsObject Bytes) :
    p.ReadBackAs (.ofWire metadata (p.data.getD [])) ↔
      ∀ key value, (key, value) ∈ p.present ↔
        ∃ s, metadata.get? s = some value ∧ JsText.ofString s = key := by
  have hget : ∀ key value, (∃ s o, (Payload.ofWire metadata (p.data.getD [])).metadata = some o ∧
      o.get? s = some (some value) ∧ JsText.ofString s = key) ↔
        ∃ s, metadata.get? s = some value ∧ JsText.ofString s = key := by
    intro key value
    constructor
    · rintro ⟨s, o, ho, hvalue, hkey⟩
      rcases get?_ofWire metadata (p.data.getD []) s with ⟨o', ho', heq⟩
      cases ho.symm.trans ho'
      rw [heq, Option.map_eq_some_iff] at hvalue
      rcases hvalue with ⟨v, hv, hsome⟩
      cases hsome
      exact ⟨s, hv, hkey⟩
    · rintro ⟨s, hvalue, hkey⟩
      rcases get?_ofWire metadata (p.data.getD []) s with ⟨o, ho, heq⟩
      exact ⟨s, o, ho, by rw [heq, hvalue, Option.map_some], hkey⟩
  constructor
  · intro h key value
    rw [h.entries, hget]
  · intro h
    refine ⟨?_, rfl⟩
    intro key value
    rw [h, hget]

theorem GivenPayload.survives_iff (p : GivenPayload) : p.Survives ↔ p.size ≤ maxSize ∧
    ∀ key value, (key, value) ∈ p.present ↔
      ∃ s, (JsObject.empty.assignAll p.assigned).get? s = some value ∧ JsText.ofString s = key := by
  constructor
  · rintro ⟨p', htrip, hback⟩
    by_cases hsize : p.size ≤ maxSize
    · rw [wireTrip_eq hsize] at htrip
      cases htrip
      exact ⟨hsize, (readBackAs_ofWire_iff p _).mp hback⟩
    · rw [wireTrip_error hsize] at htrip
      exact nomatch htrip
  · rintro ⟨hsize, hentries⟩
    exact ⟨_, wireTrip_eq hsize, (readBackAs_ofWire_iff p _).mpr hentries⟩

theorem PortableKey.exists_eq {key : JsText} (h : PortableKey key) :
    ∃ s, JsText.ofString s = key ∧ readKey key = s ∧ s ≠ "__proto__" := by
  rcases h.wellFormed with ⟨s, rfl⟩
  refine ⟨s, rfl, readKey_ofString h.no_mark, ?_⟩
  rintro rfl
  exact h.not_proto rfl

theorem GivenPayload.nodup_present (p : GivenPayload) : (p.present.map Prod.fst).Nodup := by
  unfold present
  cases hmetadata : p.metadata with
  | none => exact List.nodup_nil
  | some entries =>
    have hpair : entries.Pairwise fun e e' => e.1 ≠ e'.1 := List.pairwise_map.mp (p.distinct entries hmetadata)
    rw [List.Nodup, List.pairwise_map]
    refine List.Pairwise.filterMap _ ?_ hpair
    intro a b hab a' ha b' hb
    rcases Option.map_eq_some_iff.mp ha with ⟨_, _, rfl⟩
    rcases Option.map_eq_some_iff.mp hb with ⟨_, _, rfl⟩
    exact hab

theorem GivenPayload.Portable.nodup_assigned {p : GivenPayload} (h : p.Portable) :
    (p.assigned.map Prod.fst).Nodup := by
  have hmap : p.assigned.map Prod.fst = (p.present.map Prod.fst).map readKey := by
    rw [assigned, List.map_map, List.map_map]
    rfl
  rw [hmap]
  refine List.Nodup.map_on ?_ p.nodup_present
  intro key hkey key' hkey' heq
  rcases List.mem_map.mp hkey with ⟨e, he, rfl⟩
  rcases List.mem_map.mp hkey' with ⟨e', he', rfl⟩
  rcases (h.keys e he).exists_eq with ⟨s, hs, hread, _⟩
  rcases (h.keys e' he').exists_eq with ⟨s', hs', hread', _⟩
  rw [← hs, ← hs', ← hread, ← hread', heq]

theorem GivenPayload.Portable.survives {p : GivenPayload} (h : p.Portable) : p.Survives := by
  rw [survives_iff]
  refine ⟨h.fits, ?_⟩
  intro key value
  constructor
  · intro hmem
    rcases (h.keys _ hmem).exists_eq with ⟨s, hs, hread, hproto⟩
    refine ⟨s, JsObject.get?_assignAll_of_mem hproto _ _ h.nodup_assigned ?_, hs⟩
    exact List.mem_map.mpr ⟨(key, value), hmem, by rw [← hread]⟩
  · rintro ⟨s, hget, hs⟩
    rcases JsObject.mem_of_get?_assignAll _ _ hget with hmem | hempty
    · rcases List.mem_map.mp hmem with ⟨e, he, heq⟩
      rcases (h.keys e he).exists_eq with ⟨s', hs', hread, _⟩
      cases heq
      rw [← hs, hread, hs']
      exact he
    · exact nomatch hempty

/-! ### What a payload that survives is like -/

section Surviving

variable {p : GivenPayload} (h : ∀ key value, (key, value) ∈ p.present ↔
  ∃ s, (JsObject.empty.assignAll p.assigned).get? s = some value ∧ JsText.ofString s = key)

include h

variable {e : JsText × Bytes}

theorem wellFormed_of_entries (he : e ∈ p.present) : e.1.WellFormed := by
  rcases (h e.1 e.2).mp he with ⟨s, _, hs⟩
  exact ⟨s, hs⟩

theorem not_proto_of_entries (he : e ∈ p.present) : e.1 ≠ JsText.ofString "__proto__" := by
  intro hproto
  rcases (h e.1 e.2).mp he with ⟨s, hget, hs⟩
  have hname : s = "__proto__" := JsText.ofString_injective (hs.trans hproto)
  rw [hname, JsObject.get?_assignAll_proto _ _ rfl] at hget
  exact nomatch hget

/-- A key with a mark was read from a longer one. -/
theorem exists_longer (he : e ∈ p.present) {cs : List Char}
    (hcs : e.1 = JsText.ofChars ('\ufeff' :: cs)) :
    ∃ e' ∈ p.present, e'.1 = JsText.ofChars ('\ufeff' :: '\ufeff' :: cs) := by
  rcases (h e.1 e.2).mp he with ⟨s, hget, hs⟩
  have hlist : s = String.ofList ('\ufeff' :: cs) := by
    apply JsText.ofString_injective
    rw [hs, hcs, JsText.ofString, String.toList_ofList]
  rcases JsObject.mem_of_get?_assignAll _ _ hget with hmem | hempty
  · rcases List.mem_map.mp hmem with ⟨e', he', heq⟩
    have hread : readKey e'.1 = s := congrArg Prod.fst heq
    rcases wellFormed_of_entries h he' with ⟨s', hs'⟩
    rw [← hs'] at hread
    rcases readKey_inv hread with hsame | hlonger
    · -- A key that is read as it was has no mark.
      exfalso
      rw [hsame, hlist, readKey, GivenPayload.keyText, JsText.ofList_scalarValues_ofString, utf8Decode_mark] at hread
      have hlength := congrArg List.length (String.ofList_injective hread)
      simp at hlength
    · refine ⟨e', he', ?_⟩
      rw [← hs', JsText.ofString, hlonger, hlist, String.toList_ofList]
  · exact absurd hempty.symm (Option.some_ne_none _)

theorem exists_of_length (he : e ∈ p.present) {cs : List Char}
    (hcs : e.1 = JsText.ofChars ('\ufeff' :: cs)) : ∀ n : Nat, ∃ e' ∈ p.present, ∃ cs',
      e'.1 = JsText.ofChars ('\ufeff' :: cs') ∧ n ≤ e'.1.length := by
  intro n
  induction n with
  | zero => exact ⟨e, he, cs, hcs, Nat.zero_le _⟩
  | succ n ih =>
    rcases ih with ⟨e', he', cs', hcs', hn⟩
    rcases exists_longer h he' hcs' with ⟨e'', he'', hcs''⟩
    refine ⟨e'', he'', '\ufeff' :: cs', hcs'', ?_⟩
    have hlength : e''.1.length = e'.1.length + 1 := by
      rw [hcs'', hcs']
      simp only [JsText.ofChars, List.flatMap_cons, List.length_append]
      have hone : (JsText.ofChar '\ufeff').length = 1 := by decide
      omega
    omega

theorem no_mark_of_entries (he : e ∈ p.present) : e.1.head? ≠ some 0xfeff := by
  intro hmark
  rcases wellFormed_of_entries h he with ⟨s, hs⟩
  rw [← hs, head?_ofString] at hmark
  rcases List.head?_eq_some_iff.mp hmark with ⟨cs, hcs⟩
  rcases exists_of_length h he (hs.symm.trans (by rw [JsText.ofString, hcs]))
    ((p.present.map fun e => e.1.length).sum + 1) with ⟨e', he', _, _, hlong⟩
  have hle : e'.1.length ≤ (p.present.map fun e => e.1.length).sum :=
    List.single_le_sum (fun _ _ => Nat.zero_le _) _ (List.mem_map.mpr ⟨e', he', rfl⟩)
  omega

end Surviving

theorem GivenPayload.Survives.portable {p : GivenPayload} (h : p.Survives) : p.Portable := by
  rw [survives_iff] at h
  refine ⟨?_, h.1⟩
  intro e he
  exact ⟨wellFormed_of_entries h.2 he, not_proto_of_entries h.2 he, no_mark_of_entries h.2 he⟩

/-- A payload comes back from the wire as it was if it is portable, and only then.  A byte array comes back from
base64 if its text is a string. -/
theorem wireTrip_correct (p : GivenPayload) (b : Bytes) :
    (p.Survives ↔ p.Portable) ∧ (base64Trip b = .ok b ↔ b.length ≤ maxSize) :=
  ⟨⟨GivenPayload.Survives.portable, GivenPayload.Portable.survives⟩, base64Trip_ok_iff b⟩

/-- A payload with one key, which begins with a byte order mark. -/
def markedPayload : GivenPayload where
  metadata := some [([0xfeff, 0x61], some [1])]
  data := none
  distinct := by
    rintro entries ⟨⟩
    decide

theorem markedPayload_not_survives : ¬ markedPayload.Survives := by
  intro h
  exact (h.portable.keys ([0xfeff, 0x61], [1]) (by decide)).no_mark rfl

end TemporalSdk.Streams
