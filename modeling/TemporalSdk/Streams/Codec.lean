import Mathlib.Data.Nat.Bitwise
import Mathlib.Tactic.Ring
import TemporalSdk.Machine.JsObject

/-!
# Codec — the wire format of stream payloads

Base64 text of the protobuf bytes of a payload, both written and read by hand.  A wire text is the list of its
characters.
-/

namespace TemporalSdk.Streams

open Machine

abbrev Bytes := List UInt8

/-- The errors that the codec throws. -/
inductive Thrown
  | typeError (message : String)
  | error (message : String)
  deriving DecidableEq

/-! ## Base64 -/

def B64 : List Char :=
  "ABCDEFGHIJKLMNOPQRSTUVWXYZabcdefghijklmnopqrstuvwxyz0123456789+/".toList

def b64Char (n : Nat) : Char := B64.getD n '='

/-- Three bytes, the last two of which may be missing, as four characters. -/
def encodeGroup (b0 : UInt8) (b1 b2 : Option UInt8) : List Char :=
  let x0 := b0.toNat
  let x1 := (b1.map UInt8.toNat).getD 0
  let x2 := (b2.map UInt8.toNat).getD 0
  [b64Char ((x0 >>> 2) &&& 0x3f), b64Char (((x0 <<< 4) ||| (x1 >>> 4)) &&& 0x3f),
    if b1.isSome then b64Char (((x1 <<< 2) ||| (x2 >>> 6)) &&& 0x3f) else '=',
    if b2.isSome then b64Char (x2 &&& 0x3f) else '=']

def encodeBase64 : Bytes → List Char
  | [] => []
  | [b0] => encodeGroup b0 none none
  | [b0, b1] => encodeGroup b0 (some b1) none
  | b0 :: b1 :: b2 :: rest => encodeGroup b0 (some b1) (some b2) ++ encodeBase64 rest

/-- `B64.indexOf`, and `0` for a character that is missing. -/
def sextet (c : Option Char) : Option Nat :=
  match c with
  | none => some 0
  | some c => B64.idxOf? c

/-- The three bytes of four characters, all but the first of which may be missing.  `i` is where they are. -/
def decodeGroup (i : Nat) (a : Char) (b c d : Option Char) : Except Thrown Bytes :=
  match sextet (some a), sextet b, sextet c, sextet d with
  | some a, some b, some c, some d =>
    .ok [UInt8.ofNat ((a <<< 2) ||| (b >>> 4)), UInt8.ofNat (((b <<< 4) ||| (c >>> 2)) &&& 0xff),
      UInt8.ofNat (((c <<< 6) ||| d) &&& 0xff)]
  | _, _, _, _ => .error (.typeError s!"Invalid base64 input: non-alphabet character at offset {i}")

/-- All groups.  Those of the characters that are missing at the end give bytes too many. -/
def decodeGroups (i : Nat) : List Char → Except Thrown Bytes
  | [] => .ok []
  | [a] => decodeGroup i a none none none
  | [a, b] => decodeGroup i a (some b) none none
  | [a, b, c] => decodeGroup i a (some b) (some c) none
  | a :: b :: c :: d :: rest => do
    let bytes ← decodeGroup i a (some b) (some c) (some d)
    let more ← decodeGroups (i + 4) rest
    .ok (bytes ++ more)

/-- `data.replace(/=+$/, '')`. -/
def withoutPadding (data : List Char) : List Char :=
  (data.reverse.dropWhile fun c => c = '=').reverse

def decodeBase64 (data : List Char) : Except Thrown Bytes :=
  let clean := withoutPadding data
  if data.length - clean.length > 2 then
    .error (.typeError "Invalid base64 input: too many '=' padding characters")
  else if clean.length % 4 = 1 then
    .error (.typeError s!"Invalid base64 input: length {data.length} is not valid")
  else
    (decodeGroups 0 clean).map fun out => out.take ((clean.length * 3) >>> 2)

/-! ## Text -/

def utf8Encode (s : String) : Bytes := s.toUTF8.data.toList

/-- The state of the decoder between two bytes of a character. -/
structure Utf8State where
  needed : Nat
  codePoint : Nat
  lower : UInt8
  upper : UInt8
  deriving DecidableEq

def Utf8State.init : Utf8State := ⟨0, 0, 0x80, 0xbf⟩

def replacementCharacter : Char := '�'

/-- The first byte of a character. -/
def utf8Lead (b : UInt8) : List Char × Utf8State :=
  if b < 0x80 then ([Char.ofNat b.toNat], .init)
  else if 0xc2 ≤ b ∧ b ≤ 0xdf then ([], ⟨1, b.toNat &&& 0x1f, 0x80, 0xbf⟩)
  else if 0xe0 ≤ b ∧ b ≤ 0xef then
    ([], ⟨2, b.toNat &&& 0xf, if b = 0xe0 then 0xa0 else 0x80, if b = 0xed then 0x9f else 0xbf⟩)
  else if 0xf0 ≤ b ∧ b ≤ 0xf4 then
    ([], ⟨3, b.toNat &&& 0x7, if b = 0xf0 then 0x90 else 0x80, if b = 0xf4 then 0x8f else 0xbf⟩)
  else ([replacementCharacter], .init)

def utf8Next (st : Utf8State) (b : UInt8) : List Char × Utf8State :=
  if st.needed = 0 then utf8Lead b
  else if b < st.lower ∨ st.upper < b then
    let (cs, st') := utf8Lead b
    (replacementCharacter :: cs, st')
  else
    let codePoint := (st.codePoint <<< 6) ||| (b.toNat &&& 0x3f)
    if st.needed = 1 then ([Char.ofNat codePoint], .init)
    else ([], ⟨st.needed - 1, codePoint, 0x80, 0xbf⟩)

def utf8Replacing (st : Utf8State) : Bytes → List Char
  | [] => if st.needed = 0 then [] else [replacementCharacter]
  | b :: rest => (utf8Next st b).1 ++ utf8Replacing (utf8Next st b).2 rest

def byteOrderMark : Bytes := [0xef, 0xbb, 0xbf]

/-- `TextDecoder.decode`: a byte order mark at the beginning is left out, and replacement characters stand where
the bytes are no text. -/
def utf8Decode (b : Bytes) : String :=
  let b := if byteOrderMark <+: b then b.drop 3 else b
  match String.fromUTF8? ⟨b.toArray⟩ with
  | some s => s
  | none => String.ofList (utf8Replacing .init b)

/-! ## Protobuf -/

/-- A payload as the code handles it: a metadata value may be `null`, and the data may be missing. -/
structure Payload where
  metadata : Option (JsObject (Option Bytes))
  data : Option Bytes
  deriving DecidableEq

/-- A payload as the codec reads it. -/
def Payload.ofWire (metadata : JsObject Bytes) (data : Bytes) : Payload where
  metadata := some ⟨metadata.entries.map fun e => (e.1, some e.2), by
    unfold InOrder
    rw [List.pairwise_map]
    exact metadata.ordered⟩
  data := some data

/-- The loop of `writeVarint`; `fuel` is no less than the number of bytes to come. -/
def writeVarintLoop : Nat → Nat → Bytes
  | 0, n => [UInt8.ofNat (n &&& 0x7f)]
  | fuel + 1, n =>
    if 0x80 ≤ n then UInt8.ofNat ((n &&& 0x7f) ||| 0x80) :: writeVarintLoop fuel (n / 128)
    else [UInt8.ofNat (n &&& 0x7f)]

def writeVarint (n : Nat) : Bytes := writeVarintLoop n n

/-- The loop of `readVarint`, with the bytes that are left. -/
def readVarintLoop (result shift : Nat) : Bytes → Except Thrown (Nat × Bytes)
  | [] => .error (.error "unexpected end of varint")
  | b :: rest =>
    let result := result + (b.toNat &&& 0x7f) * 2 ^ shift
    if b.toNat &&& 0x80 = 0 then .ok (result, rest)
    else if shift + 7 > 35 then .error (.error "varint too large")
    else readVarintLoop result (shift + 7) rest

def readVarint (bytes : Bytes) : Except Thrown (Nat × Bytes) := readVarintLoop 0 0 bytes

def writeTagLenBytes (tag : UInt8) (bytes : Bytes) : Bytes := tag :: (writeVarint bytes.length ++ bytes)

def encodeEntry (key : String) (value : Bytes) : Bytes :=
  writeTagLenBytes 0x0a (writeTagLenBytes 0x0a (utf8Encode key) ++ writeTagLenBytes 0x12 value)

/-- The entries that are not `null`. -/
def Payload.present (payload : Payload) : List (String × Bytes) :=
  match payload.metadata with
  | none => []
  | some metadata => metadata.entries.filterMap fun e => e.2.map fun value => (e.1, value)

def encodeData (data : Option Bytes) : Bytes :=
  match data with
  | none | some [] => []
  | some data => writeTagLenBytes 0x12 data

def encodePayloadProto (payload : Payload) : Bytes :=
  (payload.present.flatMap fun e => encodeEntry e.1 e.2) ++ encodeData payload.data

/-- The loop over the fields of a metadata entry. -/
def decodeEntryLoop : Nat → String → Bytes → Bytes → Except Thrown (String × Bytes)
  | _, key, value, [] => .ok (key, value)
  | 0, key, value, _ :: _ => .ok (key, value)
  | fuel + 1, key, value, itag :: rest =>
    if itag.toNat &&& 0x07 ≠ 2 then
      .error (.error s!"unsupported wire type {itag.toNat &&& 0x07} in Payload metadata entry")
    else do
      let (ilen, rest) ← readVarint rest
      let ival := rest.take ilen
      if itag.toNat >>> 3 = 1 then decodeEntryLoop fuel (utf8Decode ival) value (rest.drop ilen)
      else if itag.toNat >>> 3 = 2 then decodeEntryLoop fuel key ival (rest.drop ilen)
      else decodeEntryLoop fuel key value (rest.drop ilen)

def decodeEntry (chunk : Bytes) : Except Thrown (String × Bytes) := decodeEntryLoop chunk.length "" [] chunk

/-- The loop over the fields of a payload.  Each field takes at least one byte of the `fuel`. -/
def decodeLoop : Nat → JsObject Bytes → Bytes → Bytes → Except Thrown (JsObject Bytes × Bytes)
  | _, metadata, data, [] => .ok (metadata, data)
  | 0, metadata, data, _ :: _ => .ok (metadata, data)
  | fuel + 1, metadata, data, tag :: rest =>
    if tag.toNat &&& 0x07 = 2 then do
      let (len, rest) ← readVarint rest
      let chunk := rest.take len
      if tag.toNat >>> 3 = 1 then do
        let (key, value) ← decodeEntry chunk
        decodeLoop fuel (metadata.assign key value) data (rest.drop len)
      else if tag.toNat >>> 3 = 2 then decodeLoop fuel metadata chunk (rest.drop len)
      -- Other fields are ignored.
      else decodeLoop fuel metadata data (rest.drop len)
    else if tag.toNat &&& 0x07 = 0 then do
      let (_, rest) ← readVarint rest
      decodeLoop fuel metadata data rest
    else if tag.toNat &&& 0x07 = 1 then decodeLoop fuel metadata data (rest.drop 8)
    else if tag.toNat &&& 0x07 = 5 then decodeLoop fuel metadata data (rest.drop 4)
    else .error (.error s!"unsupported wire type {tag.toNat &&& 0x07}")

def decodePayloadProto (bytes : Bytes) : Except Thrown Payload := do
  let (metadata, data) ← decodeLoop bytes.length .empty [] bytes
  .ok (.ofWire metadata data)

def encodePayloadWire (payload : Payload) : List Char := encodeBase64 (encodePayloadProto payload)

def decodePayloadWire (wire : List Char) : Except Thrown Payload := do
  decodePayloadProto (← decodeBase64 wire)

/-! ## Reading what was written -/

theorem sextet_b64Char : ∀ n < 64, sextet (some (b64Char n)) = some n := by
  -- the characters of the literal, which the kernel is slow to decode
  have hB64 : B64 = _ := String.toList_ofList
  simp only [sextet, b64Char, hB64]
  decide +kernel

theorem b64Char_ne_padding : ∀ n < 64, b64Char n ≠ '=' := by
  have hB64 : B64 = _ := String.toList_ofList
  simp only [b64Char, hB64]
  decide +kernel

attribute [local irreducible] B64

theorem and_sextet (x : Nat) : x &&& 0x3f = x % 64 := Nat.and_two_pow_sub_one_eq_mod x 6

theorem and_byte (x : Nat) : x &&& 0xff = x % 256 := Nat.and_two_pow_sub_one_eq_mod x 8

theorem and_septet (x : Nat) : x &&& 0x7f = x % 128 := Nat.and_two_pow_sub_one_eq_mod x 7

theorem shiftLeft_or {x y k : Nat} (h : y < 2 ^ k) : (x <<< k) ||| y = 2 ^ k * x + y := by
  rw [Nat.shiftLeft_eq, Nat.mul_comm, Nat.two_pow_add_eq_or_of_lt h]

theorem shiftRight_div (x k : Nat) : x >>> k = x / 2 ^ k := Nat.shiftRight_eq_div_pow x k

section Groups

variable (b0 b1 b2 : UInt8)

theorem first_sextet : (b0.toNat >>> 2) &&& 0x3f = b0.toNat / 4 := by
  have h0 := b0.toNat_lt
  rw [and_sextet, shiftRight_div]
  omega

theorem second_sextet (x1 : Nat) (h1 : x1 < 256) :
    ((b0.toNat <<< 4) ||| (x1 >>> 4)) &&& 0x3f = b0.toNat % 4 * 16 + x1 / 16 := by
  have h0 := b0.toNat_lt
  rw [and_sextet, shiftRight_div, shiftLeft_or (by omega)]
  omega

theorem third_sextet (x2 : Nat) (h2 : x2 < 256) :
    ((b1.toNat <<< 2) ||| (x2 >>> 6)) &&& 0x3f = b1.toNat % 16 * 4 + x2 / 64 := by
  have h1 := b1.toNat_lt
  rw [and_sextet, shiftRight_div, shiftLeft_or (by omega)]
  omega

theorem first_byte {a b : Nat} (hb : b < 64) : (a <<< 2) ||| (b >>> 4) = 4 * a + b / 16 := by
  rw [shiftRight_div, shiftLeft_or (by omega)]
  omega

theorem second_byte {b c : Nat} (hc : c < 64) :
    ((b <<< 4) ||| (c >>> 2)) &&& 0xff = (16 * b + c / 4) % 256 := by
  rw [and_byte, shiftRight_div, shiftLeft_or (by omega)]
  omega

theorem third_byte {c d : Nat} (hd : d < 64) : ((c <<< 6) ||| d) &&& 0xff = (64 * c + d) % 256 := by
  rw [and_byte, shiftLeft_or (by omega)]
  omega

theorem decodeGroup_eq (i : Nat) {a : Char} {b c d : Option Char} {x y z w : Nat}
    (ha : sextet (some a) = some x) (hb : sextet b = some y) (hc : sextet c = some z) (hd : sextet d = some w)
    (hy : y < 64) (hz : z < 64) (hw : w < 64) :
    decodeGroup i a b c d =
      .ok [UInt8.ofNat (4 * x + y / 16), UInt8.ofNat ((16 * y + z / 4) % 256),
        UInt8.ofNat ((64 * z + w) % 256)] := by
  unfold decodeGroup
  rw [ha, hb, hc, hd]
  simp only [first_byte hy, second_byte hz, third_byte hw]

theorem ofNat_eq_of_toNat_eq {b : UInt8} {n : Nat} (h : n = b.toNat) : UInt8.ofNat n = b := by
  rw [h, UInt8.ofNat_toNat]

theorem encodeGroup_three : encodeGroup b0 (some b1) (some b2) =
    [b64Char (b0.toNat / 4), b64Char (b0.toNat % 4 * 16 + b1.toNat / 16),
      b64Char (b1.toNat % 16 * 4 + b2.toNat / 64), b64Char (b2.toNat % 64)] := by
  have h1 := b1.toNat_lt
  have h2 := b2.toNat_lt
  simp only [encodeGroup, Option.map_some, Option.getD_some, Option.isSome_some, if_true, first_sextet,
    second_sextet b0 b1.toNat (by omega), third_sextet b1 b2.toNat (by omega)]
  rw [and_sextet]

theorem encodeGroup_two : encodeGroup b0 (some b1) none =
    [b64Char (b0.toNat / 4), b64Char (b0.toNat % 4 * 16 + b1.toNat / 16), b64Char (b1.toNat % 16 * 4), '='] := by
  have h1 := b1.toNat_lt
  have h3 := third_sextet b1 0 (by omega)
  simp only [encodeGroup, Option.map_some, Option.map_none, Option.getD_some, Option.getD_none,
    Option.isSome_some, Option.isSome_none, if_true, first_sextet, second_sextet b0 b1.toNat (by omega), h3]
  simp

theorem encodeGroup_one : encodeGroup b0 none none =
    [b64Char (b0.toNat / 4), b64Char (b0.toNat % 4 * 16), '=', '='] := by
  have h2 := second_sextet b0 0 (by omega)
  simp only [encodeGroup, Option.map_none, Option.getD_none, Option.isSome_none, first_sextet, h2]
  simp

end Groups

/-- How encoded text splits: characters that decode to the bytes, and the padding. -/
def Splits (bytes : Bytes) (text : List Char) : Prop :=
  ∃ clean padding, text = clean ++ List.replicate padding '=' ∧ padding ≤ 2 ∧ (∀ c ∈ clean, c ≠ '=') ∧
    clean.length % 4 ≠ 1 ∧
    ∀ i, ∃ out, decodeGroups i clean = .ok out ∧ out.take (clean.length * 3 / 4) = bytes

theorem splits_one (b0 : UInt8) : Splits [b0] (encodeBase64 [b0]) := by
  have h0 := b0.toNat_lt
  refine ⟨[b64Char (b0.toNat / 4), b64Char (b0.toNat % 4 * 16)], 2, ?_, by omega, ?_, by simp, ?_⟩
  · simp [encodeBase64, encodeGroup_one]
  · simp only [List.mem_cons, List.not_mem_nil, or_false]
    rintro c (rfl | rfl)
    all_goals exact b64Char_ne_padding _ (by omega)
  · intro i
    have hgroup := decodeGroup_eq i (sextet_b64Char (b0.toNat / 4) (by omega))
      (sextet_b64Char (b0.toNat % 4 * 16) (by omega)) (c := none) rfl (d := none) rfl (by omega) (by omega)
      (by omega)
    refine ⟨_, hgroup, ?_⟩
    have hfirst : UInt8.ofNat (4 * (b0.toNat / 4) + b0.toNat % 4 * 16 / 16) = b0 :=
      ofNat_eq_of_toNat_eq (by omega)
    rw [hfirst]
    simp only [List.length_cons, List.length_nil]
    rfl

theorem splits_two (b0 b1 : UInt8) : Splits [b0, b1] (encodeBase64 [b0, b1]) := by
  have h0 := b0.toNat_lt
  have h1 := b1.toNat_lt
  refine ⟨[b64Char (b0.toNat / 4), b64Char (b0.toNat % 4 * 16 + b1.toNat / 16), b64Char (b1.toNat % 16 * 4)], 1,
    ?_, by omega, ?_, by simp, ?_⟩
  · simp [encodeBase64, encodeGroup_two]
  · simp only [List.mem_cons, List.not_mem_nil, or_false]
    rintro c (rfl | rfl | rfl)
    all_goals exact b64Char_ne_padding _ (by omega)
  · intro i
    have hgroup := decodeGroup_eq i (sextet_b64Char (b0.toNat / 4) (by omega))
      (sextet_b64Char (b0.toNat % 4 * 16 + b1.toNat / 16) (by omega))
      (sextet_b64Char (b1.toNat % 16 * 4) (by omega)) (d := none) rfl (by omega) (by omega) (by omega)
    refine ⟨_, hgroup, ?_⟩
    have hfirst : UInt8.ofNat (4 * (b0.toNat / 4) + (b0.toNat % 4 * 16 + b1.toNat / 16) / 16) = b0 :=
      ofNat_eq_of_toNat_eq (by omega)
    have hsecond : UInt8.ofNat ((16 * (b0.toNat % 4 * 16 + b1.toNat / 16) + b1.toNat % 16 * 4 / 4) % 256) = b1 :=
      ofNat_eq_of_toNat_eq (by omega)
    rw [hfirst, hsecond]
    simp only [List.length_cons, List.length_nil]
    rfl

theorem Splits.group (b0 b1 b2 : UInt8) {rest : Bytes} {text : List Char} (h : Splits rest text) :
    Splits (b0 :: b1 :: b2 :: rest) (encodeGroup b0 (some b1) (some b2) ++ text) := by
  have h0 := b0.toNat_lt
  have h1 := b1.toNat_lt
  have h2 := b2.toNat_lt
  rcases h with ⟨clean, padding, rfl, hpadding, hclean, hlength, hdecode⟩
  refine ⟨encodeGroup b0 (some b1) (some b2) ++ clean, padding, by simp, hpadding, ?_, ?_, ?_⟩
  · intro c hc
    rw [encodeGroup_three] at hc
    simp only [List.cons_append, List.nil_append, List.mem_cons] at hc
    rcases hc with rfl | rfl | rfl | rfl | hc
    · exact b64Char_ne_padding _ (by omega)
    · exact b64Char_ne_padding _ (by omega)
    · exact b64Char_ne_padding _ (by omega)
    · exact b64Char_ne_padding _ (by omega)
    · exact hclean c hc
  · simp only [encodeGroup_three, List.length_append, List.length_cons, List.length_nil]
    omega
  · intro i
    rcases hdecode (i + 4) with ⟨out, hout, htake⟩
    have hgroup := decodeGroup_eq i (sextet_b64Char (b0.toNat / 4) (by omega))
      (sextet_b64Char (b0.toNat % 4 * 16 + b1.toNat / 16) (by omega))
      (sextet_b64Char (b1.toNat % 16 * 4 + b2.toNat / 64) (by omega)) (sextet_b64Char (b2.toNat % 64) (by omega))
      (by omega) (by omega) (by omega)
    have hfirst : UInt8.ofNat (4 * (b0.toNat / 4) + (b0.toNat % 4 * 16 + b1.toNat / 16) / 16) = b0 :=
      ofNat_eq_of_toNat_eq (by omega)
    have hsecond : UInt8.ofNat ((16 * (b0.toNat % 4 * 16 + b1.toNat / 16) +
        (b1.toNat % 16 * 4 + b2.toNat / 64) / 4) % 256) = b1 :=
      ofNat_eq_of_toNat_eq (by omega)
    have hthird : UInt8.ofNat ((64 * (b1.toNat % 16 * 4 + b2.toNat / 64) + b2.toNat % 64) % 256) = b2 :=
      ofNat_eq_of_toNat_eq (by omega)
    rw [hfirst, hsecond, hthird] at hgroup
    refine ⟨[b0, b1, b2] ++ out, ?_, ?_⟩
    · simp only [encodeGroup_three, List.cons_append, List.nil_append, decodeGroups, hgroup, hout]
      rfl
    · have hlen : (encodeGroup b0 (some b1) (some b2) ++ clean).length * 3 / 4 = clean.length * 3 / 4 + 3 := by
        simp only [encodeGroup_three, List.length_append, List.length_cons, List.length_nil]
        omega
      rw [hlen, ← htake]
      rfl

theorem splits_encodeBase64 (bytes : Bytes) : Splits bytes (encodeBase64 bytes) := by
  induction bytes using encodeBase64.induct with
  | case1 => exact ⟨[], 0, rfl, by omega, by simp, by simp, fun i => ⟨[], rfl, rfl⟩⟩
  | case2 b0 => exact splits_one b0
  | case3 b0 b1 => exact splits_two b0 b1
  | case4 b0 b1 b2 rest ih => exact ih.group b0 b1 b2

theorem withoutPadding_append {clean : List Char} (h : ∀ c ∈ clean, c ≠ '=') (padding : Nat) :
    withoutPadding (clean ++ List.replicate padding '=') = clean := by
  have hdrop : (List.replicate padding '=' ++ clean.reverse).dropWhile (fun c => c = '=') = clean.reverse := by
    induction padding with
    | zero =>
      cases hrev : clean.reverse with
      | nil => rfl
      | cons c cs =>
        have hc : c ≠ '=' := h c (by
          rw [← List.mem_reverse, hrev]
          exact List.mem_cons_self)
        simp [hc]
    | succ padding ih => simpa [List.replicate_succ] using ih
  rw [withoutPadding, List.reverse_append, List.reverse_replicate, hdrop, List.reverse_reverse]

theorem decodeBase64_encodeBase64 (bytes : Bytes) : decodeBase64 (encodeBase64 bytes) = .ok bytes := by
  rcases splits_encodeBase64 bytes with ⟨clean, padding, htext, hpadding, hclean, hlength, hdecode⟩
  rcases hdecode 0 with ⟨out, hout, htake⟩
  have hwithout : withoutPadding (encodeBase64 bytes) = clean := by
    rw [htext, withoutPadding_append hclean]
  have hcount : ¬ (encodeBase64 bytes).length - clean.length > 2 := by
    rw [htext, List.length_append, List.length_replicate]
    omega
  unfold decodeBase64
  simp only [hwithout, hcount, hlength, if_false, hout, Except.map, shiftRight_div]
  rw [← htake]
  rfl

/-! ### Lengths and fields -/

theorem or_continuation : ∀ n < 128, n ||| 0x80 = n + 128 := by decide +kernel

theorem and_continuation : ∀ n < 256, n &&& 0x80 = if n < 128 then 0 else 128 := by decide +kernel

theorem readVarintLoop_last {n : Nat} (h : n < 128) (result shift : Nat) (rest : Bytes) :
    readVarintLoop result shift (UInt8.ofNat (n &&& 0x7f) :: rest) = .ok (result + n * 2 ^ shift, rest) := by
  have hbyte : (UInt8.ofNat (n &&& 0x7f)).toNat = n := by
    rw [and_septet, UInt8.toNat_ofNat']
    omega
  have hand : n &&& 0x80 = 0 := by
    rw [and_continuation n (by omega), if_pos h]
  simp only [readVarintLoop, hbyte, hand, if_true]
  rw [and_septet, Nat.mod_eq_of_lt h]

/-- Each byte takes seven bits, and the reader takes six bytes. -/
theorem readVarintLoop_writeVarintLoop : ∀ (k fuel n result shift : Nat) (rest : Bytes), n ≤ fuel →
    n < 128 ^ (k + 1) → shift + 7 * k ≤ 35 →
    readVarintLoop result shift (writeVarintLoop fuel n ++ rest) = .ok (result + n * 2 ^ shift, rest) := by
  intro k
  induction k with
  | zero =>
    intro fuel n result shift rest _ hn _
    have hlt : n < 128 := by simpa using hn
    cases fuel with
    | zero => exact readVarintLoop_last hlt result shift rest
    | succ fuel =>
      rw [writeVarintLoop, if_neg (by omega)]
      exact readVarintLoop_last hlt result shift rest
  | succ k ih =>
    intro fuel n result shift rest hfuel hn hshift
    by_cases hlt : n < 128
    · cases fuel with
      | zero => exact readVarintLoop_last hlt result shift rest
      | succ fuel =>
        rw [writeVarintLoop, if_neg (by omega)]
        exact readVarintLoop_last hlt result shift rest
    · obtain ⟨fuel, rfl⟩ : ∃ m, fuel = m + 1 := ⟨fuel - 1, by omega⟩
      have hmod : n % 128 < 128 := Nat.mod_lt _ (by omega)
      have hbyte : (UInt8.ofNat ((n &&& 0x7f) ||| 0x80)).toNat = n % 128 + 128 := by
        rw [and_septet, or_continuation _ hmod, UInt8.toNat_ofNat']
        omega
      have hand : (n % 128 + 128) &&& 0x80 ≠ 0 := by
        rw [and_continuation _ (by omega), if_neg (by omega)]
        omega
      have hdiv : n / 128 < 128 ^ (k + 1) := by
        rw [Nat.div_lt_iff_lt_mul (by omega)]
        rw [Nat.pow_succ] at hn
        exact hn
      rw [writeVarintLoop, if_pos (by omega), List.cons_append, readVarintLoop]
      simp only [hbyte, hand, if_false]
      rw [if_neg (by omega), ih fuel (n / 128) _ (shift + 7) rest (by omega) hdiv (by omega)]
      have hseptet : (n % 128 + 128) &&& 0x7f = n % 128 := by
        rw [and_septet]
        omega
      have hsum : result + (n % 128) * 2 ^ shift + n / 128 * 2 ^ (shift + 7) = result + n * 2 ^ shift := by
        calc result + (n % 128) * 2 ^ shift + n / 128 * 2 ^ (shift + 7)
            = result + (n % 128 + 128 * (n / 128)) * 2 ^ shift := by
              rw [Nat.pow_add]
              ring
          _ = result + n * 2 ^ shift := by rw [Nat.mod_add_div]
      rw [hseptet, hsum]

/-- The lengths that can be read back. -/
def maxLength : Nat := 2 ^ 42

theorem readVarint_writeVarint (bytes : Bytes) (h : bytes.length < maxLength) (rest : Bytes) :
    readVarint (writeVarint bytes.length ++ rest) = .ok (bytes.length, rest) := by
  have hlt : bytes.length < 128 ^ (5 + 1) := by
    have hpow : maxLength = 128 ^ (5 + 1) := by decide
    omega
  have hloop := readVarintLoop_writeVarintLoop 5 bytes.length bytes.length 0 0 rest (Nat.le_refl _) hlt (by omega)
  simpa [readVarint, writeVarint] using hloop

variable (fuel : Nat)

theorem decodeEntryLoop_key (key : String) (value k rest : Bytes) (h : k.length < maxLength) :
    decodeEntryLoop (fuel + 1) key value (writeTagLenBytes 0x0a k ++ rest) =
      decodeEntryLoop fuel (utf8Decode k) value rest := by
  have hread := readVarint_writeVarint _ h (k ++ rest)
  simp only [writeTagLenBytes, List.cons_append, List.append_assoc, decodeEntryLoop, hread]
  simp [bind, Except.bind]

theorem decodeEntryLoop_value (key : String) (value v rest : Bytes) (h : v.length < maxLength) :
    decodeEntryLoop (fuel + 1) key value (writeTagLenBytes 0x12 v ++ rest) =
      decodeEntryLoop fuel key v rest := by
  have hread := readVarint_writeVarint _ h (v ++ rest)
  simp only [writeTagLenBytes, List.cons_append, List.append_assoc, decodeEntryLoop, hread]
  simp [bind, Except.bind]

theorem decodeEntry_eq {k v : Bytes} (hk : k.length < maxLength) (hv : v.length < maxLength) :
    decodeEntry (writeTagLenBytes 0x0a k ++ writeTagLenBytes 0x12 v) = .ok (utf8Decode k, v) := by
  obtain ⟨fuel, hfuel⟩ : ∃ fuel,
      (writeTagLenBytes 0x0a k ++ writeTagLenBytes 0x12 v).length = fuel + 1 + 1 := by
    refine ⟨(writeTagLenBytes 0x0a k ++ writeTagLenBytes 0x12 v).length - 2, ?_⟩
    simp only [writeTagLenBytes, List.length_append, List.length_cons]
    omega
  rw [decodeEntry, hfuel, decodeEntryLoop_key _ _ _ _ _ hk]
  have hvalue := decodeEntryLoop_value fuel (utf8Decode k) [] v [] hv
  rw [List.append_nil] at hvalue
  rw [hvalue]
  cases fuel <;> rfl

theorem decodeLoop_chunk (metadata : JsObject Bytes) (data chunk rest : Bytes)
    (h : chunk.length < maxLength) {key : String} {value : Bytes} (hentry : decodeEntry chunk = .ok (key, value)) :
    decodeLoop (fuel + 1) metadata data (writeTagLenBytes 0x0a chunk ++ rest) =
      decodeLoop fuel (metadata.assign key value) data rest := by
  have hread := readVarint_writeVarint _ h (chunk ++ rest)
  simp only [writeTagLenBytes, List.cons_append, List.append_assoc, decodeLoop, hread]
  simp [bind, Except.bind, hentry]

theorem decodeLoop_entry (metadata : JsObject Bytes) (data : Bytes) (key : String) (value rest : Bytes)
    (h : (encodeEntry key value).length < maxLength) :
    decodeLoop (fuel + 1) metadata data (encodeEntry key value ++ rest) =
      decodeLoop fuel (metadata.assign (utf8Decode (utf8Encode key)) value) data rest := by
  simp only [encodeEntry, writeTagLenBytes, List.length_cons, List.length_append] at h
  apply decodeLoop_chunk
  · simp only [writeTagLenBytes, List.length_cons, List.length_append]
    omega
  · exact decodeEntry_eq (by omega) (by omega)

theorem decodeLoop_data (metadata : JsObject Bytes) (old data rest : Bytes)
    (h : data.length < maxLength) :
    decodeLoop (fuel + 1) metadata old (writeTagLenBytes 0x12 data ++ rest) =
      decodeLoop fuel metadata data rest := by
  have hread := readVarint_writeVarint _ h (data ++ rest)
  simp only [writeTagLenBytes, List.cons_append, List.append_assoc, decodeLoop, hread]
  simp [bind, Except.bind]

/-! ### Payloads -/

/-- A payload that keeps its metadata on the wire: no key is `__proto__`, and none begins with a byte order
mark. -/
structure Payload.Portable (payload : Payload) : Prop where
  keys : ∀ e ∈ payload.present, e.1 ≠ "__proto__" ∧ ¬ byteOrderMark <+: utf8Encode e.1
  size : (encodePayloadProto payload).length < maxLength

instance (payload : Payload) : Decidable payload.Portable :=
  decidable_of_iff ((∀ e ∈ payload.present, e.1 ≠ "__proto__" ∧ ¬ byteOrderMark <+: utf8Encode e.1) ∧
    (encodePayloadProto payload).length < maxLength) ⟨fun h => ⟨h.1, h.2⟩, fun h => ⟨h.keys, h.size⟩⟩

theorem Payload.present_inOrder (payload : Payload) : InOrder payload.present := by
  unfold present
  cases payload.metadata with
  | none => exact List.Pairwise.nil
  | some metadata =>
    apply metadata.ordered.filterMap
    intro e e' h
    rcases Option.map_eq_some_iff.mp h with ⟨value, _, rfl⟩
    rfl

/-- The payload as the protobuf message has it: without `null`, and with data. -/
def Payload.normal (payload : Payload) : Payload :=
  .ofWire ⟨payload.present, payload.present_inOrder⟩ (payload.data.getD [])

theorem Payload.present_ofWire (metadata : JsObject Bytes) (data : Bytes) :
    (Payload.ofWire metadata data).present = metadata.entries := by
  simp [present, ofWire, List.filterMap_map]

theorem encodePayloadProto_normal (payload : Payload) :
    encodePayloadProto payload.normal = encodePayloadProto payload := by
  have hdata : encodeData (some (payload.data.getD [])) = encodeData payload.data := by
    cases payload.data <;> rfl
  simp only [encodePayloadProto, Payload.normal, Payload.present_ofWire]
  simp only [Payload.ofWire, hdata]

variable {payload : Payload}

theorem Payload.Portable.normal (h : payload.Portable) : payload.normal.Portable := by
  refine ⟨?_, ?_⟩
  · rw [Payload.normal, Payload.present_ofWire]
    exact h.keys
  · rw [encodePayloadProto_normal]
    exact h.size

theorem utf8Decode_utf8Encode {s : String} (h : ¬ byteOrderMark <+: utf8Encode s) :
    utf8Decode (utf8Encode s) = s := by
  have hvalid : s.toByteArray.IsValidUTF8 := s.isValidUTF8
  unfold utf8Decode
  rw [if_neg h]
  simp [utf8Encode, String.fromUTF8?, String.fromUTF8, hvalid]

/-- The key as it comes back: without a byte order mark at its start. -/
def wireKey (e : String × Bytes) : String × Bytes := (utf8Decode (utf8Encode e.1), e.2)

/-- The entries of a payload, one after the other. -/
theorem decodeLoop_entries (data : Bytes) : ∀ (entries : List (String × Bytes)) (fuel : Nat)
    (metadata : JsObject Bytes) (rest : Bytes),
    ((entries.flatMap fun e => encodeEntry e.1 e.2) ++ rest).length < maxLength →
    ((entries.flatMap fun e => encodeEntry e.1 e.2) ++ rest).length ≤ fuel →
    ∃ fuel', rest.length ≤ fuel' ∧
      decodeLoop fuel metadata data ((entries.flatMap fun e => encodeEntry e.1 e.2) ++ rest) =
        decodeLoop fuel' (metadata.assignAll (entries.map wireKey)) data rest := by
  intro entries
  induction entries with
  | nil =>
    intro fuel metadata rest _ hfuel
    exact ⟨fuel, by simpa using hfuel, rfl⟩
  | cons e entries ih =>
    intro fuel metadata rest hsize hfuel
    have hpos : 1 ≤ (encodeEntry e.1 e.2).length := by
      simp only [encodeEntry, writeTagLenBytes, List.length_cons]
      omega
    simp only [List.flatMap_cons, List.append_assoc, List.length_append] at hsize hfuel
    obtain ⟨fuel, rfl⟩ : ∃ m, fuel = m + 1 := ⟨fuel - 1, by omega⟩
    rcases ih fuel (metadata.assign (wireKey e).1 e.2) rest (by rw [List.length_append]; omega)
      (by rw [List.length_append]; omega) with ⟨fuel', hfuel', heq⟩
    refine ⟨fuel', hfuel', ?_⟩
    rw [List.flatMap_cons, List.append_assoc, decodeLoop_entry fuel metadata data e.1 e.2 _ (by omega)]
    exact heq

theorem decodeLoop_encodeData {data : Option Bytes} {fuel : Nat} (metadata : JsObject Bytes)
    (hsize : (encodeData data).length < maxLength) (hfuel : (encodeData data).length ≤ fuel) :
    decodeLoop fuel metadata [] (encodeData data) = .ok (metadata, data.getD []) := by
  cases data with
  | none => cases fuel <;> rfl
  | some data =>
    cases data with
    | nil => cases fuel <;> rfl
    | cons b data =>
      simp only [encodeData, writeTagLenBytes, List.length_cons, List.length_append] at hsize hfuel
      obtain ⟨fuel, rfl⟩ : ∃ m, fuel = m + 1 := ⟨fuel - 1, by omega⟩
      have hdata := decodeLoop_data fuel metadata [] (b :: data) [] (by simp only [List.length_cons]; omega)
      rw [List.append_nil] at hdata
      rw [encodeData, hdata]
      · cases fuel <;> rfl
      · exact nofun

theorem decodeLoop_encodePayloadProto (hsize : (encodePayloadProto payload).length < maxLength) :
    decodeLoop (encodePayloadProto payload).length .empty [] (encodePayloadProto payload) =
      .ok (JsObject.empty.assignAll (payload.present.map wireKey), payload.data.getD []) := by
  unfold encodePayloadProto at hsize
  rcases decodeLoop_entries [] payload.present (encodePayloadProto payload).length .empty (encodeData payload.data)
    hsize (Nat.le_refl _) with ⟨fuel, hfuel, heq⟩
  exact heq.trans (decodeLoop_encodeData _ (by rw [List.length_append] at hsize; omega) hfuel)

theorem decodePayloadProto_encodePayloadProto (h : payload.Portable) :
    decodePayloadProto (encodePayloadProto payload) = .ok payload.normal := by
  have hkeys : payload.present.map wireKey = payload.present := by
    apply (List.map_congr_left fun e he => ?_).trans (List.map_id payload.present)
    rw [wireKey, utf8Decode_utf8Encode (h.keys e he).2]
    rfl
  have hobject : JsObject.empty.assignAll payload.present = ⟨payload.present, payload.present_inOrder⟩ :=
    JsObject.ext (JsObject.entries_assignAll payload.present_inOrder fun e he => (h.keys e he).1)
  rw [decodePayloadProto, decodeLoop_encodePayloadProto h.size, hkeys, hobject]
  rfl

theorem decodePayloadWire_encodePayloadWire (h : payload.Portable) :
    decodePayloadWire (encodePayloadWire payload) = .ok payload.normal := by
  rw [decodePayloadWire, encodePayloadWire, decodeBase64_encodeBase64]
  exact decodePayloadProto_encodePayloadProto h

theorem exists_decodePayloadWire (hsize : (encodePayloadProto payload).length < maxLength) :
    ∃ payload', decodePayloadWire (encodePayloadWire payload) = .ok payload' := by
  rw [decodePayloadWire, encodePayloadWire, decodeBase64_encodeBase64]
  simp only [bind, Except.bind, decodePayloadProto, decodeLoop_encodePayloadProto hsize]
  exact ⟨_, rfl⟩

theorem encodePayloadWire_normal (payload : Payload) :
    encodePayloadWire payload.normal = encodePayloadWire payload := by
  rw [encodePayloadWire, encodePayloadProto_normal, encodePayloadWire]

end TemporalSdk.Streams
