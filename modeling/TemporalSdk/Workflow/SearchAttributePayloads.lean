import TemporalSdk.Workflow.SearchAttributeViews

/-!
# SearchAttributePayloads — search attributes decoded and encoded again

`payload-search-attributes.ts`: what the server returns is decoded to the legacy record and to typed attributes, and
both are encoded together.  A number of a JSON text is a decimal, which is read as a double and printed again.
-/

namespace TemporalSdk.SearchAttributes

/-! ## Decoding -/

def toMetadataType : SearchAttributeType → String
  | .text => "Text"
  | .keyword => "Keyword"
  | .int => "Int"
  | .double => "Double"
  | .bool => "Bool"
  | .datetime => "Datetime"
  | .keywordList => "KeywordList"

def toSearchAttributeType : String → Option SearchAttributeType
  | "Text" | "INDEXED_VALUE_TYPE_TEXT" => some .text
  | "Keyword" | "INDEXED_VALUE_TYPE_KEYWORD" => some .keyword
  | "Int" | "INDEXED_VALUE_TYPE_INT" => some .int
  | "Double" | "INDEXED_VALUE_TYPE_DOUBLE" => some .double
  | "Bool" | "INDEXED_VALUE_TYPE_BOOL" => some .bool
  | "Datetime" | "INDEXED_VALUE_TYPE_DATETIME" => some .datetime
  | "KeywordList" | "INDEXED_VALUE_TYPE_KEYWORD_LIST" => some .keywordList
  | _ => none

theorem toSearchAttributeType_toMetadataType (type : SearchAttributeType) :
    toSearchAttributeType (toMetadataType type) = some type := by
  cases type <;> rfl

/-- A payload of the server, with the text of its type. -/
structure IndexedField where
  metadataType : Option String
  data : PayloadData
  deriving DecidableEq

/-- A payload that was encoded, as it is read. -/
def Payload.field (payload : Payload) : IndexedField := ⟨payload.type.map toMetadataType, payload.data⟩

/-- What `JSON.parse` gives. -/
def Json.element : Json → Element
  | .null => .object
  | .string s => .string s
  | .number value => .number (.ofDecimal value)
  | .boolean b => .boolean b

/-- The values of a `Date`: nothing outside of 8640000000000000 milliseconds. -/
def timeClip (value : Rat) : Option Int :=
  if |value| ≤ 8640000000000000 then some (if 0 ≤ value then ⌊value⌋ else ⌈value⌉) else none

/-- `new Date(value)`. -/
def Json.date (host : Host) : Json → Element
  | .null => .date (some 0)
  | .string s => .date (host.dateParse s)
  | .number value => .date (timeClip (Machine.denoted value))
  | .boolean b => .date (some (if b then 1 else 0))

def Json.truthy : Json → Bool
  | .null => false
  | .string s => s ≠ ""
  | .number value => Machine.denoted value ≠ 0
  | .boolean b => b

def PayloadData.values : PayloadData → List Json
  | .value json => [json]
  | .array jsons => jsons

/-- `SearchAttributePayloadConverter.fromPayload`. -/
def legacyFromPayload (host : Host) (field : IndexedField) : List Element :=
  if field.metadataType = some "Datetime" then field.data.values.map (Json.date host)
  else field.data.values.map Json.element

/-- A value that is not a list: dates are made of what is there. -/
def typedElement (host : Host) (type : SearchAttributeType) (json : Json) : Element :=
  if type = .datetime ∧ json.truthy then json.date host else json.element

/-- The value that `TypedSearchAttributePayloadConverter.fromPayload` checks, if it gets to the check.  An array is
unpacked unless the type is a list: it has no value if it is empty. -/
def typedValue (host : Host) (type : SearchAttributeType) : PayloadData → Option Value
  | .value json => some (.scalar (typedElement host type json))
  | .array jsons =>
    if type = .keywordList then some (.list (jsons.map Json.element))
    else
      match jsons with
      | [json] => some (.scalar (typedElement host type json))
      | _ => none

/-- `TypedSearchAttributePayloadConverter.fromPayload`. -/
def typedFromPayload (host : Host) (field : IndexedField) : Option TypedSearchAttributeValue :=
  match field.metadataType.bind toSearchAttributeType with
  | none => none
  | some type =>
    match typedValue host type field.data with
    | none => none
    | some value => if isValidValueForType type value then some ⟨type, value⟩ else none

/-- The names that every object has by its prototype. -/
def objectPrototype : List String :=
  ["constructor", "__defineGetter__", "__defineSetter__", "hasOwnProperty", "__lookupGetter__", "__lookupSetter__",
    "isPrototypeOf", "propertyIsEnumerable", "toString", "valueOf", "__proto__", "toLocaleString"]

/-- The loop of the constructor of `TypedSearchAttributes`: `in` finds inherited names too. -/
def addPairs {α : Type} (object : JsObject α) : List (String × α) → Except String (JsObject α)
  | [] => .ok object
  | (name, value) :: pairs =>
    if name ∈ objectPrototype ∨ name ∈ object.entries.map Prod.fst then
      .error ("Duplicate search attribute key: " ++ name)
    else addPairs (object.set name value) pairs

def JsObject.empty {α : Type} : JsObject α := ⟨[], List.nodup_nil⟩

/-- Entries by name, of which some are left out. -/
def JsObject.filterMap {α β : Type} (object : JsObject α) (f : α → Option β) : List (String × β) :=
  object.entries.filterMap fun e => (f e.2).map fun b => (e.1, b)

/-- Empty arrays, as servers before 1.18 return them, are filtered out. -/
def keepNonempty (elements : List Element) : Option (List Element) :=
  if elements = [] then none else some elements

def decodeSearchAttributes (host : Host) (indexedFields : Option (JsObject IndexedField)) :
    List (String × List Element) :=
  match indexedFields with
  | none => []
  | some fields => fields.filterMap fun field => keepNonempty (legacyFromPayload host field)

def decodeTypedSearchAttributes (host : Host) (indexedFields : Option (JsObject IndexedField)) :
    Except String (JsObject TypedSearchAttributeValue) :=
  match indexedFields with
  | none => .ok .empty
  | some fields =>
    addPairs .empty (fields.filterMap fun field => (typedFromPayload host field).filter TypedSearchAttributeValue.valid)

/-- `getAll`, as it is handed to the encoder. -/
def getAll (attrs : JsObject TypedSearchAttributeValue) : List SearchAttributeUpdatePair :=
  (attrs.entries.filter fun e => e.2.valid).map fun e => ⟨⟨e.1, e.2.type⟩, some e.2.value⟩

def encodeUnifiedSearchAttributes (host : Host) (searchAttributes : Option (List (String × LegacyValue)))
    (typedSearchAttributes : Option (List SearchAttributeUpdatePair)) : Except UpsertError (JsObject Payload) :=
  match mapToPayloads (legacyToPayload host) (searchAttributes.getD []) with
  | .error error => .error error
  | .ok legacy =>
    match mapToPayloads (fun attr => typedToPayload host attr.1 attr.2)
        (fromEntries ((typedSearchAttributes.getD []).map fun pair =>
          (pair.key.name, (pair.key.type, pair.value)))).entries with
    | .error error => .error error
    | .ok typed => .ok (fromEntries (legacy ++ typed))

/-! ## What the payloads say -/

/-- What a host reads of dates: `instant` is the point in time of a text, in milliseconds. -/
structure Host.Reads (host : Host) (instant : String → Option Rat) : Prop where
  parse : ∀ s q, instant s = some q → host.dateParse s = some ⌊q⌋
  iso : ∀ s q, instant s = some q → instant (host.toISOString ⌊q⌋) = some (⌊q⌋ : Rat)
  empty : instant "" = none

inductive Reading
  | json (json : Json)
  | double (n : JsNumber)
  | instant (time : Rat)
  deriving DecidableEq

def Json.reading (instant : String → Option Rat) (type : SearchAttributeType) (json : Json) : Reading :=
  match type, json with
  | .datetime, .string s => ((instant s).map .instant).getD (.json (.string s))
  | .double, .number value => .double (.ofDecimal value)
  | _, json => .json json

/-- The values of an attribute of a type. -/
def PayloadData.readings (instant : String → Option Rat) (type : SearchAttributeType) (data : PayloadData) :
    List Reading :=
  data.values.map (Json.reading instant type)

/-- A value that the server takes for an attribute of a type. -/
def Json.HasType (instant : String → Option Rat) : SearchAttributeType → Json → Prop
  | .text, .string _ => True
  | .keyword, .string _ => True
  | .keywordList, .string _ => True
  | .int, .number value => value.den = 1
  | .double, .number value => |Machine.denoted value| < 2 ^ 1024
  | .bool, .boolean _ => True
  | .datetime, .string s => (instant s).isSome
  | _, _ => False

/-- An attribute as the server returns it. -/
structure IndexedField.Valid (instant : String → Option Rat) (field : IndexedField) (type : SearchAttributeType) :
    Prop where
  known : field.metadataType.bind toSearchAttributeType = some type
  values : ∀ json ∈ field.data.values, json.HasType instant type

/-- What an attribute is encoded as again: nothing if it has no values. -/
def Keeps (instant : String → Option Rat) (type : SearchAttributeType) (field : IndexedField) : Option Payload → Prop
  | none => field.data.values = []
  | some payload =>
    payload.data.readings instant type = field.data.readings instant type ∧ ∀ t ∈ payload.type, t = type

/-- Dates of whole milliseconds, where texts are made to dates. -/
def IndexedField.WholeMillis (instant : String → Option Rat) (field : IndexedField) : Prop :=
  field.metadataType.bind toSearchAttributeType = some .datetime →
    (field.metadataType = some "Datetime" ∨ field.data.values.length = 1) →
      ∀ s, Json.string s ∈ field.data.values → ∀ q, instant s = some q → q.den = 1

/-- Whole numbers that are printed as they were read: all below 2^53, and some of the larger ones. -/
def IndexedField.KeptNumbers (field : IndexedField) : Prop :=
  field.metadataType.bind toSearchAttributeType = some .int →
    ∀ value, Json.number value ∈ field.data.values → (JsNumber.ofDecimal value).print = some value

def TypedSearchAttributeValue.payload (host : Host) (attr : TypedSearchAttributeValue) : Payload :=
  ⟨some attr.type, attr.value.stringify host⟩

def legacyPayload (host : Host) (field : IndexedField) : Option Payload :=
  (keepNonempty (legacyFromPayload host field)).map fun elements =>
    ⟨none, .array (elements.map (stringify host))⟩

/-- What an entry of the payloads becomes when it is decoded and encoded again: the typed one comes last. -/
def reencode (host : Host) (field : IndexedField) : Option Payload :=
  ((typedFromPayload host field).map (TypedSearchAttributeValue.payload host)).or (legacyPayload host field)

/-! ## One attribute -/

section Attribute

variable {host : Host} {instant : String → Option Rat} {type : SearchAttributeType} {field : IndexedField}

/-- What `typeof` says of the values of a type. -/
def SearchAttributeType.kind : SearchAttributeType → TypeOf
  | .text | .keyword | .keywordList | .datetime => .string
  | .int | .double => .number
  | .bool => .boolean

variable {json : Json}

theorem Json.HasType.kind (h : json.HasType instant type) : json.element.typeOf = type.kind := by
  cases type <;> cases json <;> first | rfl | exact h.elim

theorem ofDecimal_shortestDecimal {value : Rat} (hdouble : Machine.denoted value = value)
    (hfinite : |value| < 2 ^ 1024) : JsNumber.ofDecimal (Machine.shortestDecimal value) = .finite value := by
  rw [JsNumber.ofDecimal, Machine.denoted_shortestDecimal hdouble, if_pos hfinite]

theorem print_ofDecimal_intCast {n : ℤ} (h : |n| < 2 ^ 53) : (JsNumber.ofDecimal n).print = some (n : Rat) := by
  have hdenoted := Machine.denoted_intCast h
  have hfinite : |(n : Rat)| < 2 ^ 1024 := by
    have hcast : |(n : Rat)| < 2 ^ 53 := by exact_mod_cast h
    exact hcast.trans (pow_lt_pow_right₀ one_lt_two (by decide))
  rw [JsNumber.ofDecimal, hdenoted, if_pos hfinite, JsNumber.print, Machine.shortestDecimal_intCast h]

/-- Only a whole number may be printed as another one. -/
theorem Json.HasType.reading_element_iff (h : json.HasType instant type) :
    (stringify host json.element).reading instant type = json.reading instant type ↔
      (type = .int → ∀ value, json = .number value → (JsNumber.ofDecimal value).print = some value) := by
  cases json with
  | null => cases type <;> exact h.elim
  | string s | boolean b =>
    refine iff_of_true rfl ?_
    rintro _ value ⟨⟩
  | number value =>
    cases type with
    | int =>
      have hprinted : stringify host (Json.number value).element =
          ((JsNumber.ofDecimal value).print.map Json.number).getD .null := rfl
      have hread : ∀ json, Json.reading instant .int json = .json json := fun json => by cases json <;> rfl
      rw [hprinted, hread, hread, Reading.json.injEq]
      cases hprint : (JsNumber.ofDecimal value).print with
      | none => exact iff_of_false (by rintro ⟨⟩) fun hkept => by cases hprint ▸ hkept rfl value rfl
      | some printed =>
        constructor
        · rintro ⟨⟩ _ _ ⟨⟩
          exact hprint
        · intro hkept
          cases hprint ▸ hkept rfl value rfl
          rfl
    | double =>
      have hfinite : JsNumber.ofDecimal value = .finite (Machine.denoted value) := if_pos h
      have hprinted : stringify host (Json.number value).element =
          .number (Machine.shortestDecimal (Machine.denoted value)) := by
        rw [Json.element, hfinite]
        rfl
      refine iff_of_true ?_ (by rintro ⟨⟩)
      rw [hprinted, Json.reading, ofDecimal_shortestDecimal (Machine.denoted_denoted value) h, Json.reading, hfinite]
    | _ => exact h.elim

theorem readings_element_iff {jsons : List Json} (h : ∀ json ∈ jsons, json.HasType instant type) :
    (jsons.map fun json => (stringify host json.element).reading instant type) = jsons.map (Json.reading instant type) ↔
      (type = .int → ∀ value, Json.number value ∈ jsons → (JsNumber.ofDecimal value).print = some value) := by
  rw [List.map_inj_left]
  constructor
  · intro heq htype value hvalue
    exact (h _ hvalue).reading_element_iff.mp (heq _ hvalue) htype value rfl
  · intro hprint json hjson
    refine (h json hjson).reading_element_iff.mpr ?_
    rintro htype value rfl
    exact hprint htype value hjson

theorem Json.HasType.exists_instant (h : json.HasType instant .datetime) :
    ∃ s q, json = .string s ∧ instant s = some q := by
  cases json with
  | string s =>
    rcases Option.isSome_iff_exists.mp h with ⟨q, hq⟩
    exact ⟨s, q, rfl, hq⟩
  | _ => exact h.elim

theorem reading_string {s : String} {q : Rat} (hq : instant s = some q) :
    (Json.string s).reading instant .datetime = .instant q := by
  simp [Json.reading, hq]

theorem reading_date (hreads : host.Reads instant) {s : String} {q : Rat} (hq : instant s = some q) :
    (stringify host ((Json.string s).date host)).reading instant .datetime = .instant (⌊q⌋ : Rat) := by
  have hparse := hreads.parse s q hq
  have hiso := hreads.iso s q hq
  simp [Json.date, hparse, stringify, Element.toJson, Json.reading, hiso]

theorem floor_eq_iff (q : Rat) : (⌊q⌋ : Rat) = q ↔ q.den = 1 := by
  constructor
  · intro h
    rw [← h]
    exact Rat.den_intCast _
  · intro h
    rw [← (Rat.den_eq_one_iff q).mp h, Int.floor_intCast]

theorem dates_kept_iff (hreads : host.Reads instant) {jsons : List Json}
    (h : ∀ json ∈ jsons, json.HasType instant .datetime) :
    (jsons.map fun json => (stringify host (json.date host)).reading instant .datetime) =
        jsons.map (Json.reading instant .datetime) ↔
      ∀ s, Json.string s ∈ jsons → ∀ q, instant s = some q → q.den = 1 := by
  rw [List.map_inj_left]
  constructor
  · intro heq s hs q hq
    have hs' := heq _ hs
    rw [reading_date hreads hq, reading_string hq] at hs'
    exact (floor_eq_iff q).mp (by simpa using hs')
  · intro hden json hjson
    rcases (h json hjson).exists_instant with ⟨s, q, rfl, hq⟩
    rw [reading_date hreads hq, reading_string hq, (floor_eq_iff q).mpr (hden s hjson q hq)]

theorem typedElement_of_ne (htype : type ≠ .datetime) (json : Json) : typedElement host type json = json.element :=
  if_neg fun h => htype h.1

theorem typedElement_datetime (hreads : host.Reads instant) (h : json.HasType instant .datetime) :
    typedElement host .datetime json = json.date host := by
  rcases h.exists_instant with ⟨s, q, rfl, hq⟩
  have hne : s ≠ "" := by
    rintro rfl
    rw [hreads.empty] at hq
    cases hq
  simp [typedElement, Json.truthy, hne]

theorem values_of_typedValue {data : PayloadData} {value : Value} (h : typedValue host type data = some value) :
    (value.stringify host).values = data.values.map fun json => stringify host (typedElement host type json) := by
  cases data with
  | value json =>
    cases h
    rfl
  | array jsons =>
    by_cases htype : type = .keywordList
    · subst htype
      cases h
      simp [Value.stringify, PayloadData.values, typedElement]
    · simp only [typedValue, if_neg htype] at h
      split at h
      · cases h
        rfl
      · cases h

variable {attr : TypedSearchAttributeValue}

theorem typedFromPayload_some (hvalid : field.Valid instant type)
    (h : typedFromPayload host field = some attr) :
    attr.type = type ∧ typedValue host type field.data = some attr.value ∧ isValidValueForType type attr.value := by
  simp only [typedFromPayload, hvalid.known] at h
  split at h
  · cases h
  · rename_i value hvalue
    split at h
    · rename_i hok
      cases h
      exact ⟨rfl, hvalue, hok⟩
    · cases h

theorem typedFromPayload_none (hvalid : field.Valid instant type) (h : typedFromPayload host field = none) :
    ∀ value, typedValue host type field.data = some value → isValidValueForType type value = false := by
  intro value hvalue
  simp only [typedFromPayload, hvalid.known, hvalue] at h
  split at h
  · cases h
  · rename_i hok
    simpa using hok

theorem checkElements_of_kind {elements : List Element} {kind : TypeOf} (h : ∀ e ∈ elements, e.typeOf = kind)
    (hobject : kind ≠ .object) (hother : kind ≠ .other) : checkElements elements = none := by
  cases elements with
  | nil => rfl
  | cons first rest =>
    have hfirst := h first List.mem_cons_self
    have hnone : ((first :: rest).findIdx? fun e => e.typeOf ≠ first.typeOf) = none := by
      rw [List.findIdx?_eq_none_iff]
      intro e he
      simp [h e he, hfirst]
    simp only [checkElements, hfirst, if_neg hobject, if_neg hother]
    rw [hfirst] at hnone
    rw [hnone]
    rfl

theorem checkElements_of_isDate {elements : List Element} (h : ∀ e ∈ elements, e.isDate = true) :
    checkElements elements = none := by
  cases elements with
  | nil => rfl
  | cons first rest =>
    have hfirst : first.typeOf = .object := by
      have hdate := h first List.mem_cons_self
      cases first <;> first | rfl | cases hdate
    have hnone : ((first :: rest).findIdx? fun e => !e.isDate) = none := by
      rw [List.findIdx?_eq_none_iff]
      intro e he
      simp [h e he]
    simp only [checkElements, hfirst, if_true, hnone]
    rfl

theorem type_of_datetime (hvalid : field.Valid instant type) (h : field.metadataType = some "Datetime") :
    type = .datetime := by
  have hknown := hvalid.known
  rw [h] at hknown
  exact (Option.some.inj hknown).symm

theorem legacyToPayload_ok (hvalid : field.Valid instant type) :
    legacyToPayload host (.array (legacyFromPayload host field)) =
      .ok ⟨none, .array ((legacyFromPayload host field).map (stringify host))⟩ := by
  have hchecks : checkElements (legacyFromPayload host field) = none := by
    unfold legacyFromPayload
    split
    · apply checkElements_of_isDate
      intro e he
      rcases List.mem_map.mp he with ⟨json, _, rfl⟩
      cases json <;> rfl
    · have hkind : ∀ e ∈ field.data.values.map Json.element, e.typeOf = type.kind := by
        intro e he
        rcases List.mem_map.mp he with ⟨json, hjson, rfl⟩
        exact (hvalid.values json hjson).kind
      apply checkElements_of_kind hkind
      all_goals cases type <;> simp [SearchAttributeType.kind]
  simp only [legacyToPayload, hchecks]

theorem typedToPayload_ok (hvalid : field.Valid instant type)
    (h : typedFromPayload host field = some attr) :
    typedToPayload host attr.type (some attr.value) = .ok (attr.payload host) := by
  rcases typedFromPayload_some hvalid h with ⟨rfl, _, hok⟩
  simp only [typedToPayload, hok, if_true, TypedSearchAttributeValue.payload]

/-- What the typed attribute is encoded as. -/
theorem typed_keeps_iff (hreads : host.Reads instant) (hvalid : field.Valid instant type)
    (h : typedFromPayload host field = some attr) :
    Keeps instant type field (some (attr.payload host)) ↔
      (type = .datetime → ∀ s, Json.string s ∈ field.data.values → ∀ q, instant s = some q → q.den = 1) ∧
      (type = .int → ∀ value, Json.number value ∈ field.data.values → (JsNumber.ofDecimal value).print = some value) := by
  rcases typedFromPayload_some hvalid h with ⟨htype, hvalue, _⟩
  have htypes : ∀ t ∈ some attr.type, t = type := fun t ht => by
    cases ht
    exact htype
  rw [Keeps, TypedSearchAttributeValue.payload, and_iff_left htypes, PayloadData.readings, PayloadData.readings,
    values_of_typedValue hvalue, List.map_map]
  by_cases hdatetime : type = .datetime
  · subst hdatetime
    have hdates : field.data.values.map (Json.reading instant .datetime ∘ fun json =>
          stringify host (typedElement host .datetime json)) =
        field.data.values.map fun json => (stringify host (json.date host)).reading instant .datetime := by
      apply List.map_congr_left
      intro json hjson
      rw [Function.comp_apply, typedElement_datetime hreads (hvalid.values json hjson)]
    rw [hdates, dates_kept_iff hreads hvalid.values]
    exact ⟨fun hwhole => ⟨fun _ => hwhole, by rintro ⟨⟩⟩, fun hwhole => hwhole.1 rfl⟩
  · have hnumbers : field.data.values.map (Json.reading instant type ∘ fun json =>
          stringify host (typedElement host type json)) =
        field.data.values.map fun json => (stringify host json.element).reading instant type := by
      apply List.map_congr_left
      intro json _
      rw [Function.comp_apply, typedElement_of_ne hdatetime]
    rw [hnumbers, readings_element_iff hvalid.values]
    exact ⟨fun hkept => ⟨fun heq => absurd heq hdatetime, hkept⟩, And.right⟩

theorem legacy_keeps_iff (hreads : host.Reads instant) (hvalid : field.Valid instant type) :
    Keeps instant type field (some ⟨none, .array ((legacyFromPayload host field).map (stringify host))⟩) ↔
      (field.metadataType = some "Datetime" →
        ∀ s, Json.string s ∈ field.data.values → ∀ q, instant s = some q → q.den = 1) ∧
      (type = .int → ∀ value, Json.number value ∈ field.data.values → (JsNumber.ofDecimal value).print = some value) := by
  simp only [Keeps, PayloadData.readings, PayloadData.values, legacyFromPayload, reduceCtorEq, Option.mem_def,
    IsEmpty.forall_iff, implies_true, and_true]
  by_cases hmeta : field.metadataType = some "Datetime"
  · have hdatetime := type_of_datetime hvalid hmeta
    subst hdatetime
    rw [if_pos hmeta, List.map_map, List.map_map]
    exact (dates_kept_iff hreads hvalid.values).trans
      ⟨fun hwhole => ⟨fun _ => hwhole, by rintro ⟨⟩⟩, fun hwhole => hwhole.1 hmeta⟩
  · rw [if_neg hmeta, List.map_map, List.map_map]
    exact (readings_element_iff hvalid.values).trans
      ⟨fun hkept => ⟨fun heq => absurd heq hmeta, hkept⟩, And.right⟩

theorem length_of_typedValue {data : PayloadData} {value : Value} (h : typedValue host .datetime data = some value) :
    data.values.length = 1 := by
  cases data with
  | value json => rfl
  | array jsons =>
    simp only [typedValue, reduceCtorEq, if_false] at h
    split at h
    · rfl
    · cases h

theorem typedFromPayload_date (hreads : host.Reads instant) (hvalid : field.Valid instant .datetime)
    (hlength : field.data.values.length = 1) : typedFromPayload host field ≠ none := by
  intro hnone
  have hinvalid := typedFromPayload_none hvalid hnone
  rcases List.length_eq_one_iff.mp hlength with ⟨json, hjson⟩
  have htyped := hvalid.values json (by rw [hjson]; exact List.mem_cons_self)
  have hvalue : typedValue host .datetime field.data = some (.scalar (json.date host)) := by
    rw [← typedElement_datetime hreads htyped]
    cases hdata : field.data with
    | value | array =>
      rw [hdata] at hjson
      cases hjson
      rfl
  have hfalse := hinvalid _ hvalue
  cases json <;> cases hfalse

/-- An attribute is kept unless it is a date that is made to whole milliseconds, or a whole number that doubles do not
have. -/
theorem reencode_keeps_iff (hreads : host.Reads instant) (hvalid : field.Valid instant type) :
    Keeps instant type field (reencode host field) ↔ field.WholeMillis instant ∧ field.KeptNumbers := by
  have hint : field.KeptNumbers ↔ (type = .int →
      ∀ value, Json.number value ∈ field.data.values → (JsNumber.ofDecimal value).print = some value) := by
    rw [IndexedField.KeptNumbers, hvalid.known, Option.some_inj]
  rw [hint]
  unfold IndexedField.WholeMillis
  rw [hvalid.known]
  cases htyped : typedFromPayload host field with
  | some attr =>
    rw [reencode, htyped, Option.map_some, Option.some_or, typed_keeps_iff hreads hvalid htyped]
    refine and_congr_left fun _ => ?_
    constructor
    · intro hwhole hdatetime _
      exact hwhole (Option.some.inj hdatetime)
    · rintro hwhole rfl
      exact hwhole rfl (Or.inr (length_of_typedValue (typedFromPayload_some hvalid htyped).2.1))
  | none =>
    cases hlegacy : legacyFromPayload host field with
    | nil =>
      have hempty : field.data.values = [] := by
        unfold legacyFromPayload at hlegacy
        split at hlegacy <;> exact List.map_eq_nil_iff.mp hlegacy
      simp [reencode, htyped, legacyPayload, keepNonempty, hlegacy, Keeps, hempty]
    | cons e es =>
      have hkeeps := legacy_keeps_iff hreads hvalid
      have hreencode : reencode host field =
          some ⟨none, .array ((legacyFromPayload host field).map (stringify host))⟩ := by
        simp [reencode, htyped, legacyPayload, keepNonempty, hlegacy]
      rw [hreencode, hkeeps]
      refine and_congr_left fun _ => ?_
      constructor
      · rintro hwhole hdatetime (hmeta | hlength)
        · exact hwhole hmeta
        · cases Option.some.inj hdatetime
          exact absurd htyped (typedFromPayload_date hreads hvalid hlength)
      · intro hwhole hmeta
        exact hwhole (by rw [type_of_datetime hvalid hmeta]) (Or.inl hmeta)

example : ¬ (IndexedField.mk (some "Int") (.value (.number 9007199254740993))).KeptNumbers := by
  intro h
  have hprint := h rfl 9007199254740993 (List.mem_singleton.mpr rfl)
  exact absurd hprint (by decide +kernel)

end Attribute

/-! ## Records of attributes -/

section Records

variable {α β : Type}

variable {entries : List (String × α)}

theorem lookup_of_mem (hnodup : (entries.map Prod.fst).Nodup) {e : String × α}
    (he : e ∈ entries) : entries.lookup e.1 = some e.2 := by
  induction entries with
  | nil => cases he
  | cons first rest ih =>
    rw [lookup_cons_ite]
    rw [List.map_cons, List.nodup_cons] at hnodup
    rcases List.mem_cons.mp he with rfl | he
    · rw [if_pos rfl]
    · have hne : e.1 ≠ first.1 := fun heq => hnodup.1 (heq ▸ List.mem_map_of_mem he)
      rw [if_neg hne]
      exact ih hnodup.2 he

theorem mem_of_lookup {n : String} {a : α} (h : entries.lookup n = some a) :
    (n, a) ∈ entries := by
  induction entries with
  | nil => cases h
  | cons first rest ih =>
    rw [lookup_cons_ite] at h
    split at h
    · rename_i hn
      cases h
      rw [hn]
      exact List.mem_cons_self
    · exact List.mem_cons_of_mem _ (ih h)

theorem lookup_eq_none_of_not_mem {n : String} (h : n ∉ entries.map Prod.fst) :
    entries.lookup n = none := by
  cases hn : entries.lookup n with
  | none => rfl
  | some a => exact absurd (List.mem_map_of_mem (mem_of_lookup hn)) h

theorem lastValue_append (entries entries' : List (String × α)) (n : String) :
    lastValue (entries ++ entries') n = (lastValue entries' n).or (lastValue entries n) := by
  induction entries with
  | nil => simp [lastValue]
  | cons e entries ih => rw [List.cons_append, lastValue, ih, lastValue, Option.or_assoc]

theorem lastValue_eq_lookup (hnodup : (entries.map Prod.fst).Nodup) (n : String) :
    lastValue entries n = entries.lookup n := by
  induction entries with
  | nil => rfl
  | cons e entries ih =>
    rw [List.map_cons, List.nodup_cons] at hnodup
    rw [lastValue, ih hnodup.2, lookup_cons_ite]
    by_cases hn : n = e.1
    · subst hn
      rw [lookup_eq_none_of_not_mem hnodup.1, if_pos rfl]
      rfl
    · rw [if_neg hn, if_neg (Ne.symm hn), Option.or_none]

variable (object : JsObject α)

theorem lookup_filterMap (f : α → Option β) (n : String) :
    (object.filterMap f).lookup n = (object.entries.lookup n).bind f := by
  rcases object with ⟨entries, hnodup⟩
  unfold JsObject.filterMap
  induction entries with
  | nil => rfl
  | cons e entries ih =>
    rw [List.map_cons, List.nodup_cons] at hnodup
    rw [List.filterMap_cons, lookup_cons_ite]
    have ih' := ih hnodup.2
    cases hf : f e.2 with
    | none =>
      rw [Option.map_none]
      by_cases hn : n = e.1
      · rw [if_pos hn, hn, Option.bind_some, hf]
        rw [hn] at ih'
        exact ih'.trans (by rw [lookup_eq_none_of_not_mem hnodup.1]; rfl)
      · rw [if_neg hn]
        exact ih'
    | some b =>
      rw [Option.map_some]
      simp only [lookup_cons_ite]
      by_cases hn : n = e.1
      · rw [if_pos hn, if_pos hn, Option.bind_some, hf]
      · rw [if_neg hn, if_neg hn]
        exact ih'

theorem filterMap_nodup (f : α → Option β) : ((object.filterMap f).map Prod.fst).Nodup := by
  refine object.nodup.sublist ?_
  have hmap : (object.filterMap f).map Prod.fst =
      object.entries.filterMap fun e => (f e.2).map fun _ => e.1 := by
    rw [JsObject.filterMap, List.map_filterMap]
    congr 1
    funext e
    rw [Option.map_map]
    rfl
  rw [hmap]
  clear hmap
  induction object.entries with
  | nil => exact .slnil
  | cons e entries ih =>
    rw [List.filterMap_cons, List.map_cons]
    cases f e.2 with
    | none => exact ih.cons _
    | some b => exact ih.cons_cons _

theorem mapToPayloads_ok {toPayload : α → Except UpsertError Payload}
    (h : ∀ e ∈ entries, ∃ payload, toPayload e.2 = .ok payload) : ∃ payloads, mapToPayloads toPayload entries = .ok payloads := by
  induction entries with
  | nil => exact ⟨[], rfl⟩
  | cons e entries ih =>
    rcases h e List.mem_cons_self with ⟨payload, hpayload⟩
    rcases ih fun e' he' => h e' (List.mem_cons_of_mem _ he') with ⟨payloads, hpayloads⟩
    exact ⟨(e.1, payload) :: payloads, by simp only [mapToPayloads, hpayload, hpayloads]⟩

theorem keys_of_mapToPayloads {toPayload : α → Except UpsertError Payload} :
    ∀ {payloads}, mapToPayloads toPayload entries = .ok payloads → payloads.map Prod.fst = entries.map Prod.fst := by
  induction entries with
  | nil =>
    intro payloads h
    cases h
    rfl
  | cons e entries ih =>
    intro payloads h
    rcases e with ⟨k, v⟩
    simp only [mapToPayloads] at h
    split at h
    · cases h
    · cases h
    · rename_i payload rest _ hrest
      cases h
      rw [List.map_cons, List.map_cons, ih hrest]

theorem set_entries {name : String} (hname : name ∉ object.entries.map Prod.fst) (a : α) :
    (object.set name a).entries = object.entries ++ [(name, a)] :=
  if_neg hname

theorem addPairs_ok {pairs : List (String × α)} (hnames : ∀ e ∈ pairs, e.1 ∉ objectPrototype) :
    ∀ object : JsObject α, (object.entries.map Prod.fst ++ pairs.map Prod.fst).Nodup →
      ∃ object', addPairs object pairs = .ok object' ∧ object'.entries = object.entries ++ pairs := by
  induction pairs with
  | nil => exact fun object _ => ⟨object, rfl, (List.append_nil _).symm⟩
  | cons e pairs ih =>
    intro object hnodup
    rcases e with ⟨name, a⟩
    have hname : name ∉ object.entries.map Prod.fst := fun hmem =>
      (List.disjoint_of_nodup_append hnodup) hmem List.mem_cons_self
    have hset := set_entries object hname a
    have hinherited := hnames _ List.mem_cons_self
    have hnodup' : ((object.set name a).entries.map Prod.fst ++ pairs.map Prod.fst).Nodup := by
      rw [hset, List.map_append, List.append_assoc]
      exact hnodup
    rcases ih (fun e he => hnames e (List.mem_cons_of_mem _ he)) _ hnodup' with ⟨object', hadd, hentries⟩
    refine ⟨object', ?_, ?_⟩
    · rw [addPairs, if_neg (not_or.mpr ⟨hinherited, hname⟩), hadd]
    · rw [hentries, hset, List.append_assoc]
      rfl

theorem addPairs_error {pairs : List (String × α)} (h : ∃ e ∈ pairs, e.1 ∈ objectPrototype) :
    ∀ object : JsObject α, ∃ error, addPairs object pairs = .error error := by
  induction pairs with
  | nil =>
    rcases h with ⟨e, he, _⟩
    cases he
  | cons e pairs ih =>
    intro object
    rcases e with ⟨name, a⟩
    rw [addPairs]
    split
    · exact ⟨_, rfl⟩
    · rename_i hname
      rcases h with ⟨e', he', hinherited⟩
      rcases List.mem_cons.mp he' with rfl | he'
      · exact absurd (Or.inl hinherited) hname
      · exact ih ⟨e', he', hinherited⟩ _

/-- The legacy record as the encoder takes it. -/
def legacyEntries (entries : List (String × List Element)) : List (String × LegacyValue) :=
  entries.map fun e => (e.1, .array e.2)

/-- No typed attribute has a name that every object has. -/
def NamesFree (host : Host) (fields : JsObject IndexedField) : Prop :=
  ∀ e ∈ fields.entries, (typedFromPayload host e.2).isSome → e.1 ∉ objectPrototype

theorem typedFromPayload_valid (host : Host) (field : IndexedField) :
    (typedFromPayload host field).filter TypedSearchAttributeValue.valid = typedFromPayload host field := by
  unfold typedFromPayload
  split
  · rfl
  · split
    · rfl
    · split
      · rename_i hok
        exact Option.filter_some_pos hok
      · rfl

variable {fields : JsObject IndexedField}

theorem decodeTyped_ok {host : Host} (hfree : NamesFree host fields) :
    ∃ typed, decodeTypedSearchAttributes host (some fields) = .ok typed ∧
      typed.entries = fields.filterMap (typedFromPayload host) := by
  have hpairs : (fields.filterMap fun field => (typedFromPayload host field).filter TypedSearchAttributeValue.valid) =
      fields.filterMap (typedFromPayload host) := by
    simp only [typedFromPayload_valid]
  have hnames : ∀ e ∈ fields.filterMap (typedFromPayload host), e.1 ∉ objectPrototype := by
    intro e he
    rcases List.mem_filterMap.mp he with ⟨entry, hentry, hsome⟩
    cases htyped : typedFromPayload host entry.2 with
    | none =>
      rw [htyped] at hsome
      cases hsome
    | some attr =>
      rw [htyped] at hsome
      cases hsome
      exact hfree entry hentry (by rw [htyped]; rfl)
  rw [decodeTypedSearchAttributes, hpairs]
  exact addPairs_ok hnames _ (filterMap_nodup fields _)

theorem decodeTyped_error {host : Host} (h : ¬ NamesFree host fields) :
    ∃ error, decodeTypedSearchAttributes host (some fields) = .error error := by
  simp only [NamesFree, not_forall, not_not] at h
  rcases h with ⟨e, he, hsome, hinherited⟩
  rcases Option.isSome_iff_exists.mp hsome with ⟨attr, hattr⟩
  have hkept := (typedFromPayload_valid host e.2).trans hattr
  exact addPairs_error ⟨(e.1, attr), List.mem_filterMap.mpr ⟨e, he, by simp only [hkept, Option.map_some]⟩, hinherited⟩ _

theorem getAll_pairs {host : Host} {typed : JsObject TypedSearchAttributeValue}
    (h : typed.entries = fields.filterMap (typedFromPayload host)) :
    ((getAll typed).map fun pair => (pair.key.name, (pair.key.type, pair.value))) =
      fields.filterMap fun field => (typedFromPayload host field).map fun attr => (attr.type, some attr.value) := by
  have hfilter : typed.entries.filter (fun e => e.2.valid) = typed.entries := by
    rw [List.filter_eq_self, h]
    intro e he
    rcases List.mem_filterMap.mp he with ⟨entry, _, hsome⟩
    rw [← typedFromPayload_valid] at hsome
    cases htyped : (typedFromPayload host entry.2).filter TypedSearchAttributeValue.valid with
    | none =>
      rw [htyped] at hsome
      cases hsome
    | some attr =>
      rw [htyped] at hsome
      cases hsome
      exact (Option.filter_eq_some_iff.mp htyped).2
  rw [getAll, hfilter, h, JsObject.filterMap, JsObject.filterMap, List.map_map, List.map_filterMap]
  congr 1
  funext e
  cases typedFromPayload host e.2 <;> rfl

/-- Both views of decoded fields are encoded, name by name. -/
theorem encode_decoded {host : Host} {instant : String → Option Rat}
    (hvalid : ∀ e ∈ fields.entries, ∃ type, e.2.Valid instant type) (hfree : NamesFree host fields) :
    ∃ typed payloads, decodeTypedSearchAttributes host (some fields) = .ok typed ∧
      encodeUnifiedSearchAttributes host (some (legacyEntries (decodeSearchAttributes host (some fields))))
        (some (getAll typed)) = .ok payloads ∧
      ∀ n, payloads.entries.lookup n = (fields.entries.lookup n).bind (reencode host) := by
  rcases decodeTyped_ok hfree with ⟨typed, hdecode, hentries⟩
  have hlegacyEntries : legacyEntries (decodeSearchAttributes host (some fields)) =
      fields.filterMap fun field =>
        (keepNonempty (legacyFromPayload host field)).map LegacyValue.array := by
    rw [legacyEntries, decodeSearchAttributes, JsObject.filterMap, JsObject.filterMap, List.map_filterMap]
    congr 1
    funext e
    rw [Option.map_map, Option.map_map]
    rfl
  have hlegacyOk : ∃ payloads, mapToPayloads (legacyToPayload host)
      (legacyEntries (decodeSearchAttributes host (some fields))) = .ok payloads := by
    apply mapToPayloads_ok
    rw [hlegacyEntries]
    intro e he
    rcases List.mem_filterMap.mp he with ⟨entry, hentry, hsome⟩
    rcases hvalid entry hentry with ⟨type, hfield⟩
    by_cases hnil : legacyFromPayload host entry.2 = []
    · simp [hnil, keepNonempty] at hsome
    · simp [hnil, keepNonempty] at hsome
      rw [← hsome]
      exact ⟨_, legacyToPayload_ok hfield⟩
  have htypedNodup := filterMap_nodup fields fun field =>
    (typedFromPayload host field).map fun attr => (attr.type, some attr.value)
  have htypedLookup : ∀ n, (fromEntries ((getAll typed).map fun pair =>
        (pair.key.name, (pair.key.type, pair.value)))).entries.lookup n =
      (fields.entries.lookup n).bind fun field =>
        (typedFromPayload host field).map fun attr => (attr.type, some attr.value) := by
    intro n
    rw [lookup_fromEntries, getAll_pairs hentries, lastValue_eq_lookup htypedNodup, lookup_filterMap]
  have htypedOk : ∃ payloads, mapToPayloads (fun attr => typedToPayload host attr.1 attr.2)
      (fromEntries ((getAll typed).map fun pair => (pair.key.name, (pair.key.type, pair.value)))).entries =
        .ok payloads := by
    apply mapToPayloads_ok
    intro e he
    have hlookup := lookup_of_mem (JsObject.nodup _) he
    rw [htypedLookup] at hlookup
    rcases Option.bind_eq_some_iff.mp hlookup with ⟨field, hfield, hmap⟩
    rcases Option.map_eq_some_iff.mp hmap with ⟨attr, hattr, hpair⟩
    rcases hvalid _ (mem_of_lookup hfield) with ⟨type, hfield'⟩
    exact ⟨_, by rw [← hpair]; exact typedToPayload_ok hfield' hattr⟩
  rcases hlegacyOk with ⟨legacyPayloads, hlegacy⟩
  rcases htypedOk with ⟨typedPayloads, htyped⟩
  refine ⟨typed, fromEntries (legacyPayloads ++ typedPayloads), hdecode, ?_, fun n => ?_⟩
  · rw [encodeUnifiedSearchAttributes, Option.getD_some, Option.getD_some, hlegacy, htyped]
  · have hlegacyNodup : (legacyPayloads.map Prod.fst).Nodup := by
      rw [keys_of_mapToPayloads hlegacy, hlegacyEntries]
      exact filterMap_nodup fields _
    have htypedNodup' : (typedPayloads.map Prod.fst).Nodup := by
      rw [keys_of_mapToPayloads htyped]
      exact JsObject.nodup _
    rw [lookup_fromEntries, lastValue_append, lastValue_eq_lookup hlegacyNodup, lastValue_eq_lookup htypedNodup']
    have hl := lookup_mapToPayloads hlegacy n
    have ht := lookup_mapToPayloads htyped n
    rw [hlegacyEntries, lookup_filterMap] at hl
    rw [htypedLookup] at ht
    cases hfield : fields.entries.lookup n with
    | none =>
      simp only [hfield, Option.bind_none] at hl ht ⊢
      rw [hl, ht]
      rfl
    | some field =>
      rcases hvalid _ (mem_of_lookup hfield) with ⟨type, hfield'⟩
      simp only [hfield, Option.bind_some] at hl ht ⊢
      have hlegacy' : legacyPayloads.lookup n = legacyPayload host field := by
        by_cases hnil : legacyFromPayload host field = []
        · simpa only [hnil, legacyPayload, keepNonempty, if_true, Option.map_none] using hl
        · simp only [keepNonempty, if_neg hnil, Option.map_some] at hl
          rcases hl with ⟨payload, hpayload, hlookup⟩
          rw [legacyToPayload_ok hfield'] at hpayload
          cases hpayload
          rw [hlookup, legacyPayload, keepNonempty, if_neg hnil, Option.map_some]
      have htyped' : typedPayloads.lookup n = (typedFromPayload host field).map (TypedSearchAttributeValue.payload host) := by
        cases hattr : typedFromPayload host field with
        | none => simpa [hattr] using ht
        | some attr =>
          simp only [hattr, Option.map_some] at ht
          rcases ht with ⟨payload, hpayload, hlookup⟩
          rw [typedToPayload_ok hfield' hattr] at hpayload
          cases hpayload
          rw [hlookup, Option.map_some]
      rw [hlegacy', htyped', reencode]

end Records

end TemporalSdk.SearchAttributes
