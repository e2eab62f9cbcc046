import Mathlib.Data.Rat.Defs
import Mathlib.Data.Set.Function
import TemporalSdk.Machine.JsonTree

/-!
# Bytes in System Nexus envelopes

`encodeSystemNexusEnvelopeBytes` and `decodeSystemNexusEnvelopeBytes` of
`packages/common/src/internal-workflow/system-nexus.ts`.  What lies between them is the JSON of the default
payload converter.  No value here has a `toJSON`: that of a Node `Buffer` would run before the replacer.
-/

namespace TemporalSdk.Nexus
namespace SystemEnvelope

open Machine

inductive Leaf where
  | null
  | bool (value : Bool)
  | number (value : ℚ)
  | string (value : String)
  | bytes (value : List (Fin 256))
  deriving DecidableEq

abbrev Value := JsonTree Leaf

structure TypeError where
  message : String
  deriving DecidableEq

def SYSTEM_NEXUS_BYTES_KEY : String := "__temporal_system_bytes"

/-! ## JSON -/

/-- The replacer of `encodeSystemNexusEnvelopeBytes`. -/
def replaceBytes : Leaf → Value
  | .bytes value => .object [(SYSTEM_NEXUS_BYTES_KEY, .array (value.map fun byte => .leaf (.number byte.val)))]
  | value => .leaf value

/-- What `JSON.stringify` makes of a byte array on its own. -/
def indexBytes : Leaf → Value
  | .bytes value => .object (value.mapIdx fun i byte => (toString i, .leaf (.number byte.val)))
  | value => .leaf value

/-- `JSON.parse(JSON.stringify(value))` -/
def jsonRoundTrip (value : Value) : Value := (value.bind indexBytes).parse

def encodeSystemNexusEnvelopeBytes (value : Value) : Value := (value.bind replaceBytes).parse

/-! ## Decoding -/

/-- `Number.isInteger(item) && item >= 0 && item <= 255` -/
def toByte : Value → Option (Fin 256)
  | .leaf (.number value) =>
    if h : value.den = 1 ∧ 0 ≤ value.num ∧ value.num < 256 then some ⟨value.num.toNat, by omega⟩ else none
  | _ => none

/-- `Object.keys(record).length === 1 && Array.isArray(record[SYSTEM_NEXUS_BYTES_KEY])` -/
def byteItems : List (String × Value) → Option (List Value)
  | [(key, .array items)] => if key = SYSTEM_NEXUS_BYTES_KEY then some items else none
  | _ => none

mutual
def decodeSystemNexusEnvelopeBytes : Value → Except TypeError Value
  | .leaf value => .ok (.leaf value)
  | .array items => (decodeItems items).map .array
  | .object record =>
    match byteItems record with
    | some bytes =>
      match bytes.mapM toByte with
      | some value => .ok (.leaf (.bytes value))
      | none => .error ⟨"invalid System Nexus byte representation"⟩
    | none => (decodeEntries record).map .object

def decodeItems : List Value → Except TypeError (List Value)
  | [] => .ok []
  | item :: items => do
    let item ← decodeSystemNexusEnvelopeBytes item
    let items ← decodeItems items
    return item :: items

/-- `record[key] = decode(item)` for every property. -/
def decodeEntries : List (String × Value) → Except TypeError (List (String × Value))
  | [] => .ok []
  | (key, item) :: entries => do
    let item ← decodeSystemNexusEnvelopeBytes item
    let entries ← decodeEntries entries
    return (key, item) :: entries
end

/-! ## Values that no byte array is encoded as -/

/-- No part of the value is an object with an array as its only property, under the key for bytes. -/
inductive Unambiguous : Value → Prop where
  | leaf (value : Leaf) : Unambiguous (.leaf value)
  | array {items : List Value} (hitems : ∀ item ∈ items, Unambiguous item) : Unambiguous (.array items)
  | object {record : List (String × Value)} (hbytes : byteItems record = none)
      (hentries : ∀ e ∈ record, Unambiguous e.2) : Unambiguous (.object record)

theorem unambiguous_array_iff {items : List Value} :
    Unambiguous (.array items) ↔ ∀ item ∈ items, Unambiguous item := by
  constructor
  · intro h
    cases h with
    | array hitems => exact hitems
  · exact Unambiguous.array

theorem unambiguous_object_iff {record : List (String × Value)} :
    Unambiguous (.object record) ↔ byteItems record = none ∧ ∀ e ∈ record, Unambiguous e.2 := by
  constructor
  · intro h
    cases h with
    | object hbytes hentries => exact ⟨hbytes, hentries⟩
  · intro h
    exact Unambiguous.object h.1 h.2

/-! ## The encoding as a text -/

theorem replaceBytes_wellFormed (value : Leaf) : (replaceBytes value).WellFormed := by
  cases value with
  | bytes value =>
    refine JsonTree.WellFormed.object (List.pairwise_singleton _ _) ?_
    intro e he
    rw [List.mem_singleton.mp he]
    exact JsonTree.WellFormed.array (List.forall_mem_map.mpr fun byte _ => JsonTree.WellFormed.leaf _)
  | _ => exact JsonTree.WellFormed.leaf _

theorem encode_of_wellFormed {value : Value} (h : value.WellFormed) :
    encodeSystemNexusEnvelopeBytes value = value.bind replaceBytes :=
  JsonTree.parse_of_wellFormed (h.bind replaceBytes_wellFormed)

/-- An encoded value has no byte arrays, so that JSON keeps it. -/
theorem bind_indexBytes_bind_replaceBytes (value : Value) :
    (value.bind replaceBytes).bind indexBytes = value.bind replaceBytes := by
  induction value using JsonTree.induct with
  | leaf value =>
    cases value with
    | bytes value =>
      have hitems : (value.map fun byte => (JsonTree.leaf (Leaf.number byte.val) : Value)).map
          (JsonTree.bind indexBytes) = value.map fun byte => JsonTree.leaf (Leaf.number byte.val) := by
        rw [List.map_map]
        rfl
      simp only [JsonTree.bind_leaf, replaceBytes, JsonTree.bind_object, List.map_cons, List.map_nil,
        JsonTree.bind_array, hitems]
    | _ => rfl
  | array items ih =>
    simp only [JsonTree.bind_array, List.map_map]
    congr 1
    exact List.map_congr_left ih
  | object record ih =>
    simp only [JsonTree.bind_object, List.map_map]
    congr 1
    apply List.map_congr_left
    intro e he
    simp [ih e he]

theorem jsonRoundTrip_encode {value : Value} (h : value.WellFormed) :
    jsonRoundTrip (encodeSystemNexusEnvelopeBytes value) = value.bind replaceBytes := by
  rw [jsonRoundTrip, encode_of_wellFormed h, bind_indexBytes_bind_replaceBytes,
    JsonTree.parse_of_wellFormed (h.bind replaceBytes_wellFormed)]

/-! ## The round trip -/

theorem toByte_number (byte : Fin 256) : toByte (.leaf (.number byte.val)) = some byte := by
  have hnum : (byte.val : ℚ).num = byte.val := Rat.num_natCast byte.val
  have hvalid : (byte.val : ℚ).den = 1 ∧ 0 ≤ (byte.val : ℚ).num ∧ (byte.val : ℚ).num < 256 := by
    refine ⟨Rat.den_natCast byte.val, ?_, ?_⟩ <;> omega
  rw [toByte, dif_pos hvalid]
  congr 1

theorem mapM_toByte (value : List (Fin 256)) :
    (value.map fun byte => (JsonTree.leaf (Leaf.number byte.val) : Value)).mapM toByte = some value := by
  induction value with
  | nil => rfl
  | cons byte value ih => simp [toByte_number, ih]

theorem decodeItems_eq_ok_iff (f : Value → Value) : ∀ items : List Value,
    decodeItems (items.map f) = .ok items ↔ ∀ item ∈ items, decodeSystemNexusEnvelopeBytes (f item) = .ok item := by
  intro items
  induction items with
  | nil => simp [decodeItems]
  | cons item items ih =>
    rw [List.map_cons, decodeItems, List.forall_mem_cons, ← ih]
    cases hitem : decodeSystemNexusEnvelopeBytes (f item) with
    | error err => simp [bind, Except.bind]
    | ok item' =>
      cases hitems : decodeItems (items.map f) with
      | error err => simp [bind, Except.bind]
      | ok items' => simp [bind, Except.bind, pure, Except.pure]

theorem decodeEntries_eq_ok_iff (f : Value → Value) : ∀ record : List (String × Value),
    decodeEntries (record.map fun e => (e.1, f e.2)) = .ok record ↔
      ∀ e ∈ record, decodeSystemNexusEnvelopeBytes (f e.2) = .ok e.2 := by
  intro record
  induction record with
  | nil => simp [decodeEntries]
  | cons e record ih =>
    rw [List.map_cons, decodeEntries, List.forall_mem_cons, ← ih]
    cases hitem : decodeSystemNexusEnvelopeBytes (f e.2) with
    | error err => simp [bind, Except.bind]
    | ok item =>
      cases hrecord : decodeEntries (record.map fun e => (e.1, f e.2)) with
      | error err => simp [bind, Except.bind]
      | ok record' => simp [bind, Except.bind, pure, Except.pure, Prod.ext_iff]

theorem byteItems_bind (record : List (String × Value)) :
    byteItems (record.map fun e => (e.1, e.2.bind replaceBytes)) =
      (byteItems record).map fun items => items.map (JsonTree.bind replaceBytes) := by
  match record with
  | [] => rfl
  | e :: e' :: rest => simp [byteItems]
  | [(key, .array items)] =>
    by_cases hkey : key = SYSTEM_NEXUS_BYTES_KEY <;> simp [byteItems, hkey]
  | [(key, .object fields)] => simp [byteItems]
  | [(key, .leaf value)] => cases value <;> simp [byteItems, replaceBytes]

theorem decode_bind_iff (value : Value) :
    decodeSystemNexusEnvelopeBytes (value.bind replaceBytes) = .ok value ↔ Unambiguous value := by
  induction value using JsonTree.induct with
  | leaf value =>
    refine iff_of_true ?_ (Unambiguous.leaf value)
    cases value with
    | bytes value => simp only [JsonTree.bind_leaf, replaceBytes, decodeSystemNexusEnvelopeBytes, byteItems, if_true,
        mapM_toByte]
    | _ => rfl
  | array items ih =>
    rw [JsonTree.bind_array, decodeSystemNexusEnvelopeBytes, unambiguous_array_iff]
    have hitems : (∀ item ∈ items, decodeSystemNexusEnvelopeBytes (item.bind replaceBytes) = .ok item) ↔
        ∀ item ∈ items, Unambiguous item := forall₂_congr ih
    rw [← hitems, ← decodeItems_eq_ok_iff]
    cases decodeItems (items.map (JsonTree.bind replaceBytes)) <;> simp [Except.map]
  | object record ih =>
    rw [JsonTree.bind_object, decodeSystemNexusEnvelopeBytes, unambiguous_object_iff, byteItems_bind]
    cases hbytes : byteItems record with
    | some items =>
      simp only [Option.map_some, reduceCtorEq, false_and, iff_false]
      -- the result is a byte array or an error, and not an object
      split <;> simp
    | none =>
      have hentries : (∀ e ∈ record, decodeSystemNexusEnvelopeBytes (e.2.bind replaceBytes) = .ok e.2) ↔
          ∀ e ∈ record, Unambiguous e.2 := forall₂_congr ih
      simp only [Option.map_none, true_and]
      rw [← hentries, ← decodeEntries_eq_ok_iff]
      cases decodeEntries (record.map fun e => (e.1, e.2.bind replaceBytes)) <;> simp [Except.map]

/-- A value survives the encoding, JSON and the decoding if, and only if, it is unambiguous; no two of these
values have the same encoding. -/
theorem decode_encode_iff (value : {value : Value // value.WellFormed}) :
    (decodeSystemNexusEnvelopeBytes (jsonRoundTrip (encodeSystemNexusEnvelopeBytes value.val)) = .ok value.val ↔
        Unambiguous value.val) ∧
      (Unambiguous value.val → ∀ other : {value : Value // value.WellFormed}, Unambiguous other.val →
        encodeSystemNexusEnvelopeBytes other.val = encodeSystemNexusEnvelopeBytes value.val → other = value) := by
  have hdecode : ∀ value : {value : Value // value.WellFormed},
      decodeSystemNexusEnvelopeBytes (jsonRoundTrip (encodeSystemNexusEnvelopeBytes value.val)) = .ok value.val ↔
        Unambiguous value.val := by
    intro value
    rw [jsonRoundTrip_encode value.property, decode_bind_iff]
  refine ⟨hdecode value, ?_⟩
  intro hv other hother heq
  have hvalue := (hdecode value).mpr hv
  rw [← heq, (hdecode other).mpr hother] at hvalue
  exact Subtype.ext (Except.ok.inj hvalue)

/-- An object that looks like encoded bytes. -/
def bytesLookalike (items : List Value) : Value := .object [(SYSTEM_NEXUS_BYTES_KEY, .array items)]

/-- Such an object is decoded to bytes, or not at all. -/
theorem lookalike_is_not_restored :
    decodeSystemNexusEnvelopeBytes (jsonRoundTrip (encodeSystemNexusEnvelopeBytes
        (bytesLookalike [.leaf (.number 1)]))) = .ok (.leaf (.bytes [1])) ∧
      encodeSystemNexusEnvelopeBytes (bytesLookalike [.leaf (.number 1)]) =
        encodeSystemNexusEnvelopeBytes (.leaf (.bytes [1])) ∧
      decodeSystemNexusEnvelopeBytes (jsonRoundTrip (encodeSystemNexusEnvelopeBytes
        (bytesLookalike [.leaf (.string "a")]))) = .error ⟨"invalid System Nexus byte representation"⟩ :=
  ⟨rfl, rfl, rfl⟩

end SystemEnvelope
end TemporalSdk.Nexus
