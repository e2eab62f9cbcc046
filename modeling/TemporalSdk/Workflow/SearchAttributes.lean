import Mathlib.Data.List.Nodup
import TemporalSdk.Machine.DecimalRat

/-!
# SearchAttributes — `upsertSearchAttributes`

A workflow has two views of its search attributes: the legacy record of arrays and the typed attributes.
A call takes legacy arrays or typed pairs, pushes a command with the payloads, and then updates both
views on its own.

Values are modelled as far as the code tells them apart, and payloads by the JSON that they hold and the
type in their metadata.  `Date` belongs to the host: what it parses, beyond ISO strings, is its own affair.
-/

namespace TemporalSdk.SearchAttributes

/-! ## Values -/

inductive JsNumber
  | finite (value : Rat)
  | nan
  | infinity (negative : Bool)
  deriving DecidableEq

/-- What arrays can hold. -/
inductive Element
  | string (s : String)
  | number (n : JsNumber)
  | boolean (b : Bool)
  -- An invalid `Date` has no time.
  | date (time : Option Int)
  -- Any other object, and `null`.
  | object
  -- `undefined`, functions, symbols and big integers.
  | other
  deriving DecidableEq

inductive TypeOf
  | string
  | number
  | boolean
  | object
  | other
  deriving DecidableEq

def Element.typeOf : Element → TypeOf
  | .string _ => .string
  | .number _ => .number
  | .boolean _ => .boolean
  | .date _ => .object
  | .object => .object
  | .other => .other

def Element.isString : Element → Bool
  | .string _ => true
  | _ => false

def Element.isDate : Element → Bool
  | .date _ => true
  | _ => false

structure Host where
  dateParse : String → Option Int
  toISOString : Int → String

inductive SearchAttributeType
  | text
  | keyword
  | int
  | double
  | bool
  | datetime
  | keywordList
  deriving DecidableEq

structure SearchAttributeKey where
  name : String
  type : SearchAttributeType
  deriving DecidableEq

inductive Value
  | scalar (element : Element)
  | list (elements : List Element)
  deriving DecidableEq

/-- `Array.isArray(value) ? value : [value]`. -/
def Value.toArray : Value → List Element
  | .scalar element => [element]
  | .list elements => elements

def isInteger : JsNumber → Bool
  | .finite value => value.den = 1
  | _ => false

def isValidValueForType : SearchAttributeType → Value → Bool
  | .text, .scalar (.string _) => true
  | .keyword, .scalar (.string _) => true
  | .int, .scalar (.number n) => isInteger n
  | .double, .scalar (.number _) => true
  | .bool, .scalar (.boolean _) => true
  | .datetime, .scalar (.date _) => true
  | .keywordList, .list elements => elements.all Element.isString
  | _, _ => false

/-- A pair whose value is `null` is to remove the attribute. -/
structure SearchAttributeUpdatePair where
  key : SearchAttributeKey
  value : Option Value

/-- A value of the legacy record.  Only arrays are legal, and `undefined`. -/
inductive LegacyValue
  | undefined
  | array (elements : List Element)
  | notArray

/-! ## Objects -/

/-- An object is given by its entries. -/
structure JsObject (α : Type) where
  entries : List (String × α)
  nodup : (entries.map Prod.fst).Nodup

/-- Set a property: it keeps its place among the entries. -/
def setEntry {α : Type} (entries : List (String × α)) (k : String) (v : α) : List (String × α) :=
  if k ∈ entries.map Prod.fst then entries.map fun e => if e.1 = k then (k, v) else e
  else entries ++ [(k, v)]

theorem keys_setEntry {α : Type} (entries : List (String × α)) (k : String) (v : α) :
    (setEntry entries k v).map Prod.fst =
      if k ∈ entries.map Prod.fst then entries.map Prod.fst else entries.map Prod.fst ++ [k] := by
  unfold setEntry
  split
  · rw [List.map_map]
    apply List.map_congr_left
    intro e _
    by_cases he : e.1 = k <;> simp [he]
  · simp

def JsObject.set {α : Type} (o : JsObject α) (k : String) (v : α) : JsObject α where
  entries := setEntry o.entries k v
  nodup := by
    rw [keys_setEntry]
    split
    · exact o.nodup
    · rename_i hk
      rw [List.nodup_append]
      refine ⟨o.nodup, List.nodup_singleton k, ?_⟩
      rintro a ha b hb rfl
      exact hk (List.mem_singleton.1 hb ▸ ha)

/-- `Object.fromEntries`. -/
def fromEntries {α : Type} (entries : List (String × α)) : JsObject α :=
  entries.foldl (fun o e => o.set e.1 e.2) ⟨[], List.nodup_nil⟩

/-- The own properties of a record that is only read and written by name. -/
abbrev Record (α : Type) : Type := String → Option α

/-- `record[name] = a`: the name `__proto__` does not make a property. -/
def Record.assign {α : Type} (record : Record α) (name : String) (a : α) : Record α :=
  if name = "__proto__" then record else fun n => if n = name then some a else record n

/-- `delete record[name]`. -/
def Record.delete {α : Type} (record : Record α) (name : String) : Record α :=
  fun n => if n = name then none else record n

/-! ## Payloads -/

inductive Json
  | null
  | string (s : String)
  | number (value : Rat)
  | boolean (b : Bool)
  deriving DecidableEq

inductive PayloadData
  | value (json : Json)
  | array (json : List Json)
  deriving DecidableEq

structure Payload where
  type : Option SearchAttributeType
  data : PayloadData
  deriving DecidableEq

/-- Why a call throws. -/
inductive UpsertError
  | valueMustBeArray
  | valuesMustBeDates (idx : Nat)
  | invalidArrayValues
  | valuesMustHaveSameType (idx : Nat)
  | invalidValueForType (type : SearchAttributeType)
  | eventGroupNotExplicit
  | mustBeArrayOrUndefined
  deriving DecidableEq

/-- What `JSON.parse` makes of a number. -/
def JsNumber.ofDecimal (value : Rat) : JsNumber :=
  if |Machine.denoted value| < 2 ^ 1024 then .finite (Machine.denoted value) else .infinity (value < 0)

/-- What `JSON.stringify` writes for a number, if not `null`. -/
def JsNumber.print : JsNumber → Option Rat
  | .finite value => some (Machine.shortestDecimal value)
  | _ => none

/-- The JSON that stands for an element; there is none for numbers that are not finite and for invalid
dates. -/
def Element.toJson (host : Host) : Element → Option Json
  | .string s => some (.string s)
  | .number n => n.print.map .number
  | .boolean b => some (.boolean b)
  | .date time => time.map fun t => .string (host.toISOString t)
  | .object => none
  | .other => none

/-- `JSON.stringify` writes `null` for what JSON cannot represent. -/
def stringify (host : Host) (element : Element) : Json := (element.toJson host).getD .null

def Value.stringify (host : Host) : Value → PayloadData
  | .scalar element => .value (SearchAttributes.stringify host element)
  | .list elements => .array (elements.map (SearchAttributes.stringify host))

/-- The checks of `SearchAttributePayloadConverter.toPayload` on an array. -/
def checkElements : List Element → Option UpsertError
  | [] => none
  | first :: rest =>
    if first.typeOf = .object then
      ((first :: rest).findIdx? fun e => !e.isDate).map .valuesMustBeDates
    else if first.typeOf = .other then some .invalidArrayValues
    else ((first :: rest).findIdx? fun e => e.typeOf ≠ first.typeOf).map .valuesMustHaveSameType

/-- `SearchAttributePayloadConverter.toPayload`. -/
def legacyToPayload (host : Host) : LegacyValue → Except UpsertError Payload
  | .array elements =>
    match checkElements elements with
    | some error => .error error
    | none => .ok ⟨none, .array (elements.map (stringify host))⟩
  | _ => .error .valueMustBeArray

/-- `TypedSearchAttributePayloadConverter.toPayload`. -/
def typedToPayload (host : Host) (type : SearchAttributeType) :
    Option Value → Except UpsertError Payload
  | none => .ok ⟨none, .value .null⟩
  | some value =>
    if isValidValueForType type value then .ok ⟨some type, value.stringify host⟩
    else .error (.invalidValueForType type)

def mapToPayloads {α : Type} (toPayload : α → Except UpsertError Payload) :
    List (String × α) → Except UpsertError (List (String × Payload))
  | [] => .ok []
  | (k, v) :: entries =>
    match toPayload v, mapToPayloads toPayload entries with
    | .error error, _ => .error error
    | .ok _, .error error => .error error
    | .ok payload, .ok payloads => .ok ((k, payload) :: payloads)

/-! ## Typed search attributes -/

structure TypedSearchAttributeValue where
  type : SearchAttributeType
  value : Value

def TypedSearchAttributeValue.valid (attr : TypedSearchAttributeValue) : Bool :=
  isValidValueForType attr.type attr.value

abbrev TypedSearchAttributes : Type := Record TypedSearchAttributeValue

namespace TypedSearchAttributes

/-- One turn of the loop of `update`. -/
def updatePair (attrs : TypedSearchAttributes) (pair : SearchAttributeUpdatePair) :
    TypedSearchAttributes :=
  match pair.value with
  | some value => attrs.assign pair.key.name ⟨pair.key.type, value⟩
  | none =>
    match attrs pair.key.name with
    | some attr => if attr.type = pair.key.type then attrs.delete pair.key.name else attrs
    | none => attrs

def updateCopy (attrs : TypedSearchAttributes) (updates : List SearchAttributeUpdatePair) :
    TypedSearchAttributes :=
  updates.foldl updatePair attrs

/-- The pair of a name in `getAll`. -/
def find (attrs : TypedSearchAttributes) (name : String) : Option TypedSearchAttributeValue :=
  (attrs name).filter TypedSearchAttributeValue.valid

end TypedSearchAttributes

/-- `getKeyFromUntyped`, the type of the key. -/
def getKeyFromUntyped (host : Host) : List Element → Option SearchAttributeType
  | [.string s] => if (host.dateParse s).isSome then some .datetime else some .text
  | [.number n] => if isInteger n then some .int else some .double
  | [.boolean _] => some .bool
  | [.date _] => some .datetime
  | [_] => none
  | elements => if elements.all Element.isString then some .keywordList else none

/-- `new Date(value)`: keys of dates come of strings and dates. -/
def newDate (host : Host) : Element → Element
  | .string s => .date (host.dateParse s)
  | element => element

/-! ## `upsertSearchAttributes` -/

/-- The part of the activator that a call reads and writes: the two views in `info`, and the
`upsertWorkflowSearchAttributes` commands. -/
structure Info where
  searchAttributes : Record (List Element)
  typedSearchAttributes : TypedSearchAttributes
  commands : List (List (String × Payload))

inductive Attributes
  | typed (pairs : List SearchAttributeUpdatePair)
  | legacy (record : JsObject LegacyValue)

/-- A call, and whether the event groups that it is given were made by `createEventGroup`. -/
structure Call where
  searchAttributes : Attributes
  eventGroupsExplicit : Bool

/-- The fields of the command. -/
def Call.indexedFields (host : Host) (call : Call) : Except UpsertError (List (String × Payload)) :=
  match call.searchAttributes with
  | .typed pairs =>
    mapToPayloads (fun attr => typedToPayload host attr.1 attr.2)
      (fromEntries (pairs.map fun pair => (pair.key.name, (pair.key.type, pair.value)))).entries
  | .legacy record => mapToPayloads (legacyToPayload host) record.entries

/-- One turn of the loop over the pairs. -/
def setLegacyPair (record : Record (List Element)) (pair : SearchAttributeUpdatePair) :
    Record (List Element) :=
  match pair.value with
  | none => record.delete pair.key.name
  | some value => record.assign pair.key.name value.toArray

/-- The type and value that a legacy array becomes. -/
def typedKeyAndValue (host : Host) (attrs : TypedSearchAttributes) (k : String)
    (elements : List Element) : Option TypedSearchAttributeValue :=
  match getKeyFromUntyped host elements with
  | none => none
  | some inferred =>
    let type :=
      if inferred = .text then
        match attrs.find k with
        | some matching => matching.type
        | none => inferred
      else inferred
    let value :=
      match elements with
      | [element] => .scalar (if type = .datetime then newDate host element else element)
      | _ => .list elements
    some ⟨type, value⟩

/-- One turn of the loop over the legacy entries. -/
def upsertEntry (host : Host) (views : Record (List Element) × TypedSearchAttributes)
    (entry : String × LegacyValue) :
    Except UpsertError (Record (List Element) × TypedSearchAttributes) :=
  match entry.2 with
  | .notArray => .error .mustBeArrayOrUndefined
  | .undefined | .array [] =>
    .ok (views.1.delete entry.1,
      match views.2.find entry.1 with
      | some matching => views.2.updateCopy [⟨⟨entry.1, matching.type⟩, none⟩]
      | none => views.2)
  | .array elements =>
    match typedKeyAndValue host views.2 entry.1 elements with
    | none => .ok views
    | some attr =>
      .ok (views.1.assign entry.1 elements,
        views.2.updateCopy [⟨⟨entry.1, attr.type⟩, some attr.value⟩])

def upsertEntries (host : Host) :
    Record (List Element) × TypedSearchAttributes → List (String × LegacyValue) →
      Except UpsertError (Record (List Element) × TypedSearchAttributes)
  | views, [] => .ok views
  | views, entry :: entries =>
    match upsertEntry host views entry with
    | .error error => .error error
    | .ok views => upsertEntries host views entries

def Info.pushCommand (info : Info) (indexedFields : List (String × Payload)) : Info :=
  { info with commands := info.commands ++ [indexedFields] }

/-- What a call throws, and the state that it leaves. -/
def upsertSearchAttributes (host : Host) (info : Info) (call : Call) : Option UpsertError × Info :=
  match call.indexedFields host with
  | .error error => (some error, info)
  | .ok indexedFields =>
    if call.eventGroupsExplicit = false then (some .eventGroupNotExplicit, info)
    else
      let info := info.pushCommand indexedFields
      match call.searchAttributes with
      | .typed pairs =>
        (none,
          { info with
            searchAttributes := pairs.foldl setLegacyPair info.searchAttributes
            typedSearchAttributes := info.typedSearchAttributes.updateCopy pairs })
      | .legacy record =>
        match upsertEntries host (info.searchAttributes, info.typedSearchAttributes)
            record.entries with
        | .error error => (some error, info)
        | .ok views => (none, ⟨views.1, views.2, info.commands⟩)

end TemporalSdk.SearchAttributes
