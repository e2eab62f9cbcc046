import Mathlib.Data.Rat.Defs
import TemporalSdk.Machine.JsonTree

/-!
# Histories as JSON

`historyFromJSON` and `historyToJSON` of `packages/common/src/proto-utils.ts`.  The protobuf messages are trees in
whose leaves the values of the enums that are fixed up stand apart from everything else; the names of these values,
and what protobufjs does with the JSON of a message, are parameters.  What is inside a failure stays as it is, retry
states included, and of the events of the protocol none has `childWorkflowExecutionFailureInfo` in its attributes.
-/

namespace TemporalSdk.Worker
namespace HistoryJson

open Machine

inductive JsonLeaf where
  | null
  | bool (value : Bool)
  | number (value : ℚ)
  | string (value : String)
  deriving DecidableEq

abbrev Json := JsonTree JsonLeaf

inductive TypeError where
  /-- `Missing attributes in history event` -/
  | missingAttributes (event : Json)
  /-- `obj[attr].startsWith is not a function` -/
  | notAString (attr : String)
  /-- a property of `null` -/
  | nullObject
  /-- `Invalid history, expected an object with an array of events` -/
  | noEvents
  /-- `Invalid history`, or the error of `fromJson` -/
  | invalidHistory

/-! ## The names of enum values -/

inductive EnumType where
  | eventType
  | taskQueueKind
  | parentClosePolicy
  | workflowIdReusePolicy
  | continueAsNewInitiator
  | retryState
  deriving DecidableEq

def EnumType.prefixText : EnumType → String
  | eventType => "EVENT_TYPE"
  | taskQueueKind => "TASK_QUEUE_KIND"
  | parentClosePolicy => "PARENT_CLOSE_POLICY"
  | workflowIdReusePolicy => "WORKFLOW_ID_REUSE_POLICY"
  | continueAsNewInitiator => "CONTINUE_AS_NEW_INITIATOR"
  | retryState => "RETRY_STATE"

/-- The names that the protobuf definitions give to the values of the enums, as the words after the prefix. -/
structure EnumNames where
  words : EnumType → ℤ → Option (List (List Char))
  zero : ∀ type, (words type 0).isSome = true
  ne_nil : ∀ type value ws, words type value = some ws → ws ≠ []
  upper : ∀ type value ws, words type value = some ws → ∀ w ∈ ws, 2 ≤ w.length ∧ ∀ c ∈ w, c.isUpper = true

inductive Spelling where
  | constantCase
  | pascalCase
  deriving DecidableEq

def pascalWord : List Char → List Char
  | [] => []
  | c :: cs => c :: cs.map Char.toLower

theorem pascalWord_cons (c : Char) (cs : List Char) : pascalWord (c :: cs) = c :: cs.map Char.toLower := rfl

/-- `_` before every word. -/
def constantWords (words : List (List Char)) : List Char := words.flatMap fun w => '_' :: w

def nameText (type : EnumType) (words : List (List Char)) : Spelling → String
  | .constantCase => String.ofList (type.prefixText.toList ++ constantWords words)
  | .pascalCase => String.ofList (words.flatMap pascalWord)

/-! ## The fix-up pass -/

/-- `String.prototype.toUpperCase`, of which only ASCII texts matter here. -/
structure Host where
  toUpperCase : List Char → List Char
  ascii : ∀ text, (∀ c ∈ text, c.toNat < 128) → toUpperCase text = text.map Char.toUpper

/-- `s.replace(/[^\b][A-Z]/g, (m) => …)`: an underscore between a character that is no backspace and a capital. -/
def insertUnderscores : List Char → List Char
  | a :: b :: rest =>
    if a ≠ Char.ofNat 8 ∧ b.isUpper then a :: '_' :: b :: insertUnderscores rest
    else a :: insertUnderscores (b :: rest)
  | rest => rest

def pascalCaseToConstantCase (host : Host) (s : String) : List Char := host.toUpperCase (insertUnderscores s.toList)

def truthy : Json → Bool
  | .leaf .null => false
  | .leaf (.bool value) => value
  | .leaf (.number value) => value ≠ 0
  | .leaf (.string value) => value ≠ ""
  | _ => true

/-- The properties that spreading a value gives. -/
def spreadOf : Json → List (String × Json)
  | .object fields => fields
  | .array items => items.mapIdx fun i item => (toString i, item)
  | .leaf (.string value) => value.toList.mapIdx fun i c => (toString i, .leaf (.string (String.singleton c)))
  | _ => []

/-- `obj[attr]`, which is undefined for values that are no objects. -/
def get (obj : Json) (attr : String) : Except TypeError (Option Json) :=
  match obj with
  | .leaf .null => .error .nullObject
  | .object fields => .ok (JsonTree.field fields attr)
  | _ => .ok none

/-- The property that is spread over `obj`. -/
def fixEnumValue (host : Host) (obj : Json) (attr : String) (type : EnumType) : Except TypeError (List (String × Json)) := do
  match ← get obj attr with
  | none => return []
  | some value =>
    if truthy value then
      match value with
      | .leaf (.string s) =>
        if type.prefixText.toList.isPrefixOf s.toList then return [(attr, .leaf (.string s))]
        else
          return [(attr, .leaf (.string (String.ofList
            (type.prefixText.toList ++ '_' :: pascalCaseToConstantCase host s))))]
      | _ => .error (.notAString attr)
    else return []

/-- `...(obj[attr] && { [attr]: { ...obj[attr], ...fixEnumValue(obj[attr], name, prefix) } })` -/
def fixNested (host : Host) (obj : Json) (attr name : String) (type : EnumType) :
    Except TypeError (List (String × Json)) := do
  match ← get obj attr with
  | none => return []
  | some value =>
    if truthy value then
      let fixed ← fixEnumValue host value name type
      return [(attr, .object (JsonTree.spread [spreadOf value, fixed]))]
    else return []

def fixAttributes (host : Host) (attributes : Json) : Except TypeError Json := do
  let taskQueue ← fixNested host attributes "taskQueue" "kind" .taskQueueKind
  let parentClosePolicy ← fixEnumValue host attributes "parentClosePolicy" .parentClosePolicy
  let workflowIdReusePolicy ← fixEnumValue host attributes "workflowIdReusePolicy" .workflowIdReusePolicy
  let initiator ← fixEnumValue host attributes "initiator" .continueAsNewInitiator
  let retryState ← fixEnumValue host attributes "retryState" .retryState
  let failureInfo ← fixNested host attributes "childWorkflowExecutionFailureInfo" "retryState" .retryState
  return .object (JsonTree.spread
    [spreadOf attributes, taskQueue ++ parentClosePolicy ++ workflowIdReusePolicy ++ initiator ++ retryState ++ failureInfo])

/-- `k.endsWith('EventAttributes')` -/
def isAttributesKey (key : String) : Bool := "EventAttributes".toList.isSuffixOf key.toList

/-- Only an object has a key with attributes: those of an array or a string are indices. -/
def fixHistoryEvent (host : Host) (event : Json) : Except TypeError Json :=
  match event with
  | .leaf .null => .error .nullObject
  | .object fields =>
    match fields.find? fun e => isAttributesKey e.1 with
    | none => .error (.missingAttributes event)
    | some (type, value) => do
      let eventType ← fixEnumValue host event "eventType" .eventType
      let attributes ← fixAttributes host value
      return .object (JsonTree.spread [fields, eventType ++ [(type, attributes)]])
  | _ => .error (.missingAttributes event)

def fixHistory (host : Host) (events : List Json) : Except TypeError Json := do
  let events ← events.mapM (fixHistoryEvent host)
  return .object [("events", .array events)]

/-! ## Messages -/

inductive ProtoLeaf where
  | json (value : JsonLeaf)
  | enum (type : EnumType) (value : ℤ)
  deriving DecidableEq

abbrev Message := JsonTree ProtoLeaf

/-- A field that has nothing to do with the enums. -/
def Plain (value : Message) : Prop := ∃ json : Json, value = json.bind fun leaf => .leaf (.json leaf)

def IsEnum (type : EnumType) (value : Message) : Prop := ∃ number, value = .leaf (.enum type number)

/-- The fields of a message, in their order and with their types. -/
def TypedFields (typed : String → Message → Prop) (fields : List (String × Message)) : Prop :=
  InOrder fields ∧ ∀ e ∈ fields, typed e.1 e.2

def IsRecord (typed : String → Message → Prop) (value : Message) : Prop :=
  ∃ fields, value = .object fields ∧ TypedFields typed fields

/-- A record with one enum. -/
def withEnum (name : String) (type : EnumType) (key : String) (value : Message) : Prop :=
  if key = name then IsEnum type value else Plain value

def attributesField (key : String) (value : Message) : Prop :=
  if key = "taskQueue" then IsRecord (withEnum "kind" .taskQueueKind) value
  else if key = "parentClosePolicy" then IsEnum .parentClosePolicy value
  else if key = "workflowIdReusePolicy" then IsEnum .workflowIdReusePolicy value
  else if key = "initiator" then IsEnum .continueAsNewInitiator value
  else if key = "retryState" then IsEnum .retryState value
  else if key = "childWorkflowExecutionFailureInfo" then IsRecord (withEnum "retryState" .retryState) value
  else Plain value

def eventField (key : String) (value : Message) : Prop :=
  if key = "eventType" then IsEnum .eventType value
  else if isAttributesKey key then IsRecord attributesField value
  else Plain value

/-- A history event.  Its attributes are a oneof. -/
structure HistoryEvent where
  fields : List (String × Message)
  typed : TypedFields eventField fields
  oneof : ∀ e ∈ fields, ∀ e' ∈ fields, isAttributesKey e.1 = true → isAttributesKey e'.1 = true → e = e'
  wellFormed : (JsonTree.object fields).WellFormed

structure History where
  events : List HistoryEvent

/-- protobufjs and the generated types. -/
structure ProtoJson where
  names : EnumNames
  /-- an empty list is printed, not left out -/
  printsEmptyLists : Bool
  /-- none where it throws or returns null -/
  fromJson : Json → Option History

/-- A value of an enum that has no name is printed as its number. -/
def printLeaf (names : EnumNames) (spelling : Spelling) : ProtoLeaf → Json
  | .json value => .leaf value
  | .enum type value =>
    match names.words type value with
    | some words => .leaf (.string (nameText type words spelling))
    | none => .leaf (.number value)

def print (names : EnumNames) (spelling : Spelling) (message : Message) : Json := message.bind (printLeaf names spelling)

def printEvent (names : EnumNames) (spelling : Spelling) (event : HistoryEvent) : Json :=
  print names spelling (.object event.fields)

/-- The JSON of a history, with the enums in either spelling. -/
def printHistory (lib : ProtoJson) (spelling : Spelling) (history : History) : Json :=
  .object (if history.events = [] ∧ lib.printsEmptyLists = false then []
    else [("events", .array (history.events.map (printEvent lib.names spelling)))])

def toJson (lib : ProtoJson) (history : History) : Json := printHistory lib .constantCase history

/-- `JSON.stringify(toJson(historyType, history))` -/
def historyToJSON (lib : ProtoJson) (history : History) : Json := toJson lib history

def historyFromJSON (host : Host) (lib : ProtoJson) (history : Json) : Except TypeError History :=
  match history with
  | .object fields =>
    match JsonTree.field fields "events" with
    | some (.array events) => do
      let fixed ← fixHistory host events
      match lib.fromJson fixed with
      | some loaded => return loaded
      | none => .error .invalidHistory
    | _ => .error .noEvents
  | _ => .error .noEvents

/-! ## From Pascal case to constant case -/

section Names

theorem isUpper_mem_range {c : Char} (h : c.isUpper = true) : c.toNat ∈ List.range' 65 26 := by
  have hrange : c.val ≥ 'A'.val ∧ c.val ≤ 'Z'.val := of_decide_eq_true h
  have hlow := UInt32.le_iff_toNat_le.mp hrange.1
  have hhigh := UInt32.le_iff_toNat_le.mp hrange.2
  have hval : c.toNat = c.val.toNat := rfl
  have hA : 'A'.val.toNat = 65 := rfl
  have hZ : 'Z'.val.toNat = 90 := rfl
  rw [List.mem_range'_1]
  omega

theorem toLower_isUpper {c : Char} (h : c.isUpper = true) : c.toLower.isUpper = false ∧ c.toLower ≠ Char.ofNat 8 ∧
    c.toLower.toUpper = c ∧ c.toLower.toNat < 128 := by
  have hall : ∀ n ∈ List.range' 65 26, (Char.ofNat n).toLower.isUpper = false ∧
      (Char.ofNat n).toLower ≠ Char.ofNat 8 ∧ (Char.ofNat n).toLower.toUpper = Char.ofNat n ∧
      (Char.ofNat n).toLower.toNat < 128 := by
    decide
  have hc := hall c.toNat (isUpper_mem_range h)
  rwa [Char.ofNat_toNat] at hc

theorem toUpper_isUpper {c : Char} (h : c.isUpper = true) : c.toUpper = c ∧ c ≠ Char.ofNat 8 ∧ c.toNat < 128 ∧ c ≠ '_' := by
  have hall : ∀ n ∈ List.range' 65 26, (Char.ofNat n).toUpper = Char.ofNat n ∧ Char.ofNat n ≠ Char.ofNat 8 ∧
      (Char.ofNat n).toNat < 128 ∧ Char.ofNat n ≠ '_' := by
    decide
  have hc := hall c.toNat (isUpper_mem_range h)
  rwa [Char.ofNat_toNat] at hc

/-- A word of a name: capitals, and more than one. -/
def IsWord (w : List Char) : Prop := 2 ≤ w.length ∧ ∀ c ∈ w, c.isUpper = true

theorem insertUnderscores_of_not {a b : Char} {rest : List Char} (h : b.isUpper = false) :
    insertUnderscores (a :: b :: rest) = a :: insertUnderscores (b :: rest) := by
  rw [insertUnderscores, if_neg]
  rintro ⟨-, hb⟩
  rw [h] at hb
  exact nomatch hb

/-- What is left of a word after its first letter, and the words after it. -/
theorem insertUnderscores_tail : ∀ (ws : List (List Char)), (∀ w ∈ ws, IsWord w) → ∀ (cs : List Char), cs ≠ [] →
    (∀ c ∈ cs, c.isUpper = true) →
    insertUnderscores (cs.map Char.toLower ++ ws.flatMap pascalWord) =
      cs.map Char.toLower ++ ws.flatMap fun w => '_' :: pascalWord w := by
  intro ws
  induction ws with
  | nil =>
    intro _ cs hne hcs
    simp only [List.flatMap_nil, List.append_nil]
    induction cs with
    | nil => exact absurd rfl hne
    | cons c cs ih =>
      cases cs with
      | nil => rfl
      | cons c' cs =>
        have hc' := (toLower_isUpper (hcs c' (by simp))).1
        have hrest := ih (by simp) fun x hx => hcs x (List.mem_cons_of_mem c hx)
        simp only [List.map_cons] at hrest ⊢
        rw [insertUnderscores_of_not hc', hrest]
  | cons w ws ihws =>
    intro hws cs hne hcs
    have hw := hws w List.mem_cons_self
    have hrest := ihws fun x hx => hws x (List.mem_cons_of_mem w hx)
    rcases w with _ | ⟨u, ls⟩
    · exact absurd hw.1 (by simp)
    have hls : ls ≠ [] := by
      rintro rfl
      exact absurd hw.1 (by simp)
    have htail := hrest ls hls fun x hx => hw.2 x (List.mem_cons_of_mem u hx)
    have hu : u.isUpper = true := hw.2 u List.mem_cons_self
    induction cs with
    | nil => exact absurd rfl hne
    | cons c cs ih =>
      cases cs with
      | nil =>
        have hc := toLower_isUpper (hcs c (by simp))
        simp only [List.map_cons, List.map_nil, List.flatMap_cons, pascalWord_cons, List.cons_append,
          List.nil_append]
        rw [insertUnderscores, if_pos ⟨hc.2.1, hu⟩, htail]
      | cons c' cs =>
        have hc' := (toLower_isUpper (hcs c' (by simp))).1
        have hmore := ih (by simp) fun x hx => hcs x (List.mem_cons_of_mem c hx)
        simp only [List.map_cons, List.cons_append] at hmore ⊢
        rw [insertUnderscores_of_not hc', hmore]

theorem insertUnderscores_words {ws : List (List Char)} (hws : ∀ w ∈ ws, IsWord w) (hne : ws ≠ []) :
    '_' :: insertUnderscores (ws.flatMap pascalWord) = ws.flatMap fun w => '_' :: pascalWord w := by
  rcases ws with _ | ⟨w, ws⟩
  · exact absurd rfl hne
  have hw := hws w List.mem_cons_self
  rcases w with _ | ⟨u, _ | ⟨l, ls⟩⟩
  · exact absurd hw.1 (by simp)
  · exact absurd hw.1 (by simp)
  have hl := (toLower_isUpper (hw.2 l (by simp))).1
  have htail := insertUnderscores_tail ws (fun x hx => hws x (List.mem_cons_of_mem _ hx)) (l :: ls) (by simp)
    fun x hx => hw.2 x (List.mem_cons_of_mem u hx)
  simp only [List.map_cons, List.cons_append] at htail
  simp only [List.flatMap_cons, pascalWord_cons, List.map_cons, List.cons_append]
  rw [insertUnderscores_of_not hl, htail]

theorem map_toUpper_pascalWord {w : List Char} (h : ∀ c ∈ w, c.isUpper = true) :
    (pascalWord w).map Char.toUpper = w := by
  cases w with
  | nil => rfl
  | cons u ls =>
    have hmap : ∀ c ∈ ls, (Char.toUpper ∘ Char.toLower) c = id c :=
      fun c hc => (toLower_isUpper (h c (List.mem_cons_of_mem u hc))).2.2.1
    rw [pascalWord, List.map_cons, (toUpper_isUpper (h u List.mem_cons_self)).1, List.map_map,
      List.map_congr_left hmap, List.map_id]

theorem ascii_pascalWord {w : List Char} (h : ∀ c ∈ w, c.isUpper = true) :
    ∀ c ∈ '_' :: pascalWord w, c.toNat < 128 := by
  intro c hc
  rcases List.mem_cons.mp hc with rfl | hc
  · decide
  · cases w with
    | nil => exact nomatch hc
    | cons u ls =>
      rcases List.mem_cons.mp hc with rfl | hc
      · exact (toUpper_isUpper (h c List.mem_cons_self)).2.2.1
      · rcases List.mem_map.mp hc with ⟨l, hl, rfl⟩
        exact (toLower_isUpper (h l (List.mem_cons_of_mem u hl))).2.2.2

variable (host : Host) {ws : List (List Char)}

theorem pascalCaseToConstantCase_words (hws : ∀ w ∈ ws, IsWord w) (hne : ws ≠ []) :
    '_' :: pascalCaseToConstantCase host (String.ofList (ws.flatMap pascalWord)) = constantWords ws := by
  have hascii : ∀ c ∈ '_' :: insertUnderscores (ws.flatMap pascalWord), c.toNat < 128 := by
    rw [insertUnderscores_words hws hne]
    intro c hc
    rcases List.mem_flatMap.mp hc with ⟨w, hw, hc⟩
    exact ascii_pascalWord (hws w hw).2 c hc
  rw [pascalCaseToConstantCase, String.toList_ofList, host.ascii _ fun c hc => hascii c (List.mem_cons_of_mem _ hc)]
  have hunderscore : '_' = Char.toUpper '_' := rfl
  rw [hunderscore, ← List.map_cons, insertUnderscores_words hws hne, List.map_flatMap, constantWords]
  apply List.flatMap_congr
  intro w hw
  rw [List.map_cons, map_toUpper_pascalWord (hws w hw).2]
  rfl

theorem not_isPrefixOf_pascal (type : EnumType) (hws : ∀ w ∈ ws, IsWord w) :
    type.prefixText.toList.isPrefixOf (ws.flatMap pascalWord) = false := by
  apply Bool.eq_false_iff.mpr
  intro h
  have hmem : '_' ∈ type.prefixText.toList := by cases type <;> decide +kernel
  have hin := (List.isPrefixOf_iff_prefix.mp h).subset hmem
  rcases List.mem_flatMap.mp hin with ⟨w, hw, hc⟩
  have hupper := (hws w hw).2
  cases w with
  | nil => exact nomatch hc
  | cons u ls =>
    rcases List.mem_cons.mp hc with rfl | hc
    · exact (toUpper_isUpper (hupper '_' List.mem_cons_self)).2.2.2 rfl
    · rcases List.mem_map.mp hc with ⟨l, hl, hlower⟩
      have hl' := (toLower_isUpper (hupper l (List.mem_cons_of_mem u hl))).2.2.1
      rw [hlower] at hl'
      have hcontra := hupper l (List.mem_cons_of_mem u hl)
      rw [← hl'] at hcontra
      exact absurd hcontra (by decide)

end Names

/-! ## What the pass yields -/

/-- The result is `a` where `p` holds, and an error where it does not. -/
def Yields {α : Type} (x : Except TypeError α) (p : Prop) (a : α) : Prop :=
  (p → x = .ok a) ∧ (¬ p → ∃ err, x = .error err)

section Yields

variable {α β : Type} {x : Except TypeError α} {p q : Prop} {a : α}

theorem Yields.ok (a : α) : Yields (Except.ok a) True a := ⟨fun _ => rfl, fun h => absurd trivial h⟩

theorem Yields.congr (h : Yields x p a) (hpq : p ↔ q) : Yields x q a :=
  ⟨fun hq => h.1 (hpq.mpr hq), fun hq => h.2 fun hp => hq (hpq.mp hp)⟩

theorem Yields.bind {f : α → Except TypeError β} {b : β} (h : Yields x p a) (hf : Yields (f a) q b) :
    Yields (x >>= f) (p ∧ q) b := by
  by_cases hp : p
  · rw [h.1 hp]
    exact ⟨fun hpq => hf.1 hpq.2, fun hpq => hf.2 fun hq => hpq ⟨hp, hq⟩⟩
  · rcases h.2 hp with ⟨err, herr⟩
    rw [herr]
    exact ⟨fun hpq => absurd hpq.1 hp, fun _ => ⟨err, rfl⟩⟩

theorem Yields.mapM {f : α → Except TypeError β} {p : α → Prop} {g : α → β} : ∀ {items : List α},
    (∀ item ∈ items, Yields (f item) (p item) (g item)) →
    Yields (items.mapM f) (∀ item ∈ items, p item) (items.map g) := by
  intro items
  induction items with
  | nil =>
    intro _
    exact (Yields.ok []).congr (by simp)
  | cons item items ih =>
    intro h
    rw [List.mapM_cons]
    have hitem := h item List.mem_cons_self
    have hitems := ih fun x hx => h x (List.mem_cons_of_mem item hx)
    have hpure : Yields (pure (g item :: items.map g) : Except TypeError (List β)) True ((item :: items).map g) :=
      Yields.ok _
    exact (hitem.bind (hitems.bind hpure)).congr (by simp)

end Yields

/-! ## The pass on printed messages -/

/-- The enum value has a name. -/
def Known (names : EnumNames) : ProtoLeaf → Prop
  | .json _ => True
  | .enum type value => (names.words type value).isSome = true

section Pass

variable {host : Host} {names : EnumNames} {spelling : Spelling}

/-- The printed fields of a message. -/
def printFields (names : EnumNames) (spelling : Spelling) (fields : List (String × Message)) : List (String × Json) :=
  fields.map fun e => (e.1, print names spelling e.2)

theorem print_object (fields : List (String × Message)) :
    print names spelling (.object fields) = .object (printFields names spelling fields) :=
  JsonTree.bind_object fields

theorem print_plain {value : Message} (h : Plain value) (s s' : Spelling) :
    print names s value = print names s' value := by
  rcases h with ⟨json, rfl⟩
  rw [print, print, JsonTree.bind_bind, JsonTree.bind_bind]
  rfl

theorem allLeaves_plain {value : Message} (h : Plain value) : value.AllLeaves (Known names) := by
  rcases h with ⟨json, rfl⟩
  induction json using JsonTree.induct with
  | leaf value => exact JsonTree.AllLeaves.leaf trivial
  | array items ih =>
    rw [JsonTree.bind_array]
    exact JsonTree.AllLeaves.array (List.forall_mem_map.mpr ih)
  | object fields ih =>
    rw [JsonTree.bind_object]
    exact JsonTree.AllLeaves.object (List.forall_mem_map.mpr ih)

/-- All that a field holds is known. -/
def FieldKnown (names : EnumNames) (fields : List (String × Message)) (attr : String) : Prop :=
  ∀ value, JsonTree.field fields attr = some value → value.AllLeaves (Known names)

/-- The field with the names of today, if there is one. -/
def fixedField (names : EnumNames) (fields : List (String × Message)) (attr : String) : List (String × Json) :=
  ((JsonTree.field fields attr).map fun value => (attr, print names .constantCase value)).toList

variable (names spelling) in
theorem get_printFields (fields : List (String × Message)) (attr : String) :
    get (.object (printFields names spelling fields)) attr =
      .ok ((JsonTree.field fields attr).map (print names spelling)) := by
  rw [get, printFields, JsonTree.field_map]

theorem isWord_of_words {type : EnumType} {value : ℤ} {ws : List (List Char)} (h : names.words type value = some ws) :
    ∀ w ∈ ws, IsWord w := names.upper type value ws h

theorem nameText_ne_empty {type : EnumType} {value : ℤ} {ws : List (List Char)} (h : names.words type value = some ws) :
    nameText type ws spelling ≠ "" := by
  intro hempty
  have hlist := congrArg String.toList hempty
  cases spelling with
  | constantCase =>
    rw [nameText, String.toList_ofList] at hlist
    have hprefix : type.prefixText.toList = [] := (List.append_eq_nil_iff.mp hlist).1
    exact absurd hprefix (by cases type <;> decide +kernel)
  | pascalCase =>
    rw [nameText, String.toList_ofList] at hlist
    rcases ws with _ | ⟨w, ws⟩
    · exact names.ne_nil type value [] h rfl
    · have hw := (isWord_of_words h w List.mem_cons_self).1
      cases w with
      | nil => exact absurd hw (by simp)
      | cons c cs => exact absurd hlist (by simp [pascalWord_cons])

/-- The text of a known enum value becomes the name of today, in whichever case it is written. -/
theorem fixEnumValue_known {type : EnumType} {value : ℤ} {ws : List (List Char)} {obj : Json} {attr : String}
    (hws : names.words type value = some ws)
    (hget : get obj attr = .ok (some (.leaf (.string (nameText type ws spelling))))) :
    fixEnumValue host obj attr type = .ok [(attr, .leaf (.string (nameText type ws .constantCase)))] := by
  have htruthy : truthy (.leaf (.string (nameText type ws spelling))) = true := by
    simpa [truthy] using nameText_ne_empty hws
  have hfix : fixEnumValue host obj attr type =
      if type.prefixText.toList.isPrefixOf (nameText type ws spelling).toList then
        .ok [(attr, .leaf (.string (nameText type ws spelling)))]
      else .ok [(attr, .leaf (.string (String.ofList
        (type.prefixText.toList ++ '_' :: pascalCaseToConstantCase host (nameText type ws spelling)))))] := by
    simp only [fixEnumValue, hget, bind, Except.bind, htruthy, if_true]
    rfl
  rw [hfix]
  cases spelling with
  | constantCase =>
    rw [if_pos]
    rw [nameText, String.toList_ofList]
    exact List.isPrefixOf_iff_prefix.mpr (List.prefix_append _ _)
  | pascalCase =>
    have hnot := not_isPrefixOf_pascal type (isWord_of_words hws)
    have htext : (nameText type ws .pascalCase).toList = ws.flatMap pascalWord := String.toList_ofList
    rw [if_neg (by rw [htext, hnot]; exact Bool.false_ne_true)]
    have hconstant := pascalCaseToConstantCase_words host (isWord_of_words hws) (names.ne_nil type value ws hws)
    change Except.ok [(attr, JsonTree.leaf (JsonLeaf.string (String.ofList (type.prefixText.toList ++
      '_' :: pascalCaseToConstantCase host (String.ofList (ws.flatMap pascalWord))))))] = _
    rw [hconstant]
    rfl

variable (host names spelling) in
theorem fixEnumValue_print {fields : List (String × Message)} {attr : String} {type : EnumType}
    (h : ∀ value, JsonTree.field fields attr = some value → IsEnum type value) :
    Yields (fixEnumValue host (.object (printFields names spelling fields)) attr type)
      (FieldKnown names fields attr) (fixedField names fields attr) := by
  have hget := get_printFields names spelling fields attr
  cases hfield : JsonTree.field fields attr with
  | none =>
    rw [hfield] at hget
    have hfix : fixEnumValue host (.object (printFields names spelling fields)) attr type = .ok [] := by
      simp only [fixEnumValue, hget, bind, Except.bind, Option.map_none]
      rfl
    rw [hfix, fixedField, hfield]
    exact (Yields.ok _).congr ⟨fun _ value hvalue => (nomatch hfield.symm.trans hvalue), fun _ => trivial⟩
  | some value =>
    rcases h value hfield with ⟨number, rfl⟩
    rw [hfield] at hget
    cases hwords : names.words type number with
    | some ws =>
      have hprint : ∀ s, print names s (.leaf (.enum type number)) = .leaf (.string (nameText type ws s)) := by
        intro s
        rw [print, JsonTree.bind_leaf, printLeaf, hwords]
      rw [Option.map_some, hprint] at hget
      have hknown : FieldKnown names fields attr := by
        intro value hvalue
        cases hfield.symm.trans hvalue
        exact JsonTree.AllLeaves.leaf (by rw [Known, hwords]; rfl)
      rw [fixEnumValue_known hwords hget, fixedField, hfield, Option.map_some, hprint]
      exact (Yields.ok _).congr (iff_of_true trivial hknown)
    | none =>
      have hprint : print names spelling (.leaf (.enum type number)) = .leaf (.number number) := by
        rw [print, JsonTree.bind_leaf, printLeaf, hwords]
      have hne : number ≠ 0 := by
        rintro rfl
        have hzero := names.zero type
        rw [hwords] at hzero
        exact nomatch hzero
      have htruthy : truthy (.leaf (.number (number : ℚ))) = true := by simpa [truthy] using hne
      rw [Option.map_some, hprint] at hget
      have hfix : fixEnumValue host (.object (printFields names spelling fields)) attr type =
          .error (.notAString attr) := by
        simp only [fixEnumValue, hget, bind, Except.bind, htruthy, if_true]
      refine ⟨?_, fun _ => ⟨_, hfix⟩⟩
      intro hknown
      have hleaf := JsonTree.allLeaves_leaf_iff.mp (hknown _ hfield)
      rw [Known, hwords] at hleaf
      exact nomatch hleaf

variable (names spelling) in
/-- Spreading the fixed fields over a printed record gives the record with the names of today. -/
theorem spread_printFields {fields : List (String × Message)} (hord : InOrder fields) (attrs : List String)
    (hrest : ∀ e ∈ fields, e.1 ∈ attrs ∨ Plain e.2) :
    JsonTree.spread [printFields names spelling fields, attrs.flatMap (fixedField names fields)] =
      printFields names .constantCase fields := by
  have hfield : ∀ s attr, JsonTree.field (printFields names s fields) attr =
      (JsonTree.field fields attr).map (print names s) := fun s attr => JsonTree.field_map _ fields attr
  refine JsonTree.spread_eq (JsonTree.inOrder_map _ hord) (JsonTree.inOrder_map _ hord) ?_ ?_ ?_
  · simp [printFields]
  · intro e he
    rcases List.mem_flatMap.mp he with ⟨attr, -, he⟩
    rw [fixedField, Option.mem_toList] at he
    rcases Option.map_eq_some_iff.mp he with ⟨value, hvalue, rfl⟩
    rw [hfield, hvalue]
    rfl
  · intro e he
    rcases List.mem_map.mp he with ⟨x, hx, rfl⟩
    have hx' : JsonTree.field fields x.1 = some x.2 := JsonTree.field_of_mem hord hx
    rcases hrest x hx with hattr | hplain
    · refine Or.inl ⟨(x.1, print names .constantCase x.2), ?_, rfl⟩
      refine List.mem_flatMap.mpr ⟨x.1, hattr, ?_⟩
      rw [fixedField, hx']
      exact List.mem_singleton_self _
    · refine Or.inr ?_
      change JsonTree.field (printFields names spelling fields) x.1 = _
      rw [hfield, hx', Option.map_some, print_plain hplain]

theorem allLeaves_object_iff_fieldKnown {fields : List (String × Message)} (hord : InOrder fields) {attrs : List String}
    (hrest : ∀ e ∈ fields, e.1 ∈ attrs ∨ Plain e.2) :
    JsonTree.AllLeaves (Known names) (.object fields) ↔ ∀ attr ∈ attrs, FieldKnown names fields attr := by
  rw [JsonTree.allLeaves_object_iff]
  constructor
  · intro h attr _ value hvalue
    exact h _ (JsonTree.mem_of_field hvalue)
  · intro h e he
    rcases hrest e he with hattr | hplain
    · exact h e.1 hattr e.2 (JsonTree.field_of_mem hord he)
    · exact allLeaves_plain hplain

theorem typed_of_field {typed : String → Message → Prop} {fields : List (String × Message)}
    (h : TypedFields typed fields) {attr : String} {value : Message} (hvalue : JsonTree.field fields attr = some value) :
    typed attr value := h.2 _ (JsonTree.mem_of_field hvalue)

variable (host names spelling) in
theorem fixNested_print {fields : List (String × Message)} {attr name : String} {type : EnumType}
    (h : ∀ value, JsonTree.field fields attr = some value → IsRecord (withEnum name type) value) :
    Yields (fixNested host (.object (printFields names spelling fields)) attr name type)
      (FieldKnown names fields attr) (fixedField names fields attr) := by
  have hget := get_printFields names spelling fields attr
  cases hfield : JsonTree.field fields attr with
  | none =>
    rw [hfield] at hget
    have hfix : fixNested host (.object (printFields names spelling fields)) attr name type = .ok [] := by
      simp only [fixNested, hget, bind, Except.bind, Option.map_none]
      rfl
    rw [hfix, fixedField, hfield]
    exact (Yields.ok _).congr ⟨fun _ value hvalue => (nomatch hfield.symm.trans hvalue), fun _ => trivial⟩
  | some value =>
    rcases h value hfield with ⟨record, rfl, htyped⟩
    rw [hfield, Option.map_some, print_object] at hget
    have hfix : fixNested host (.object (printFields names spelling fields)) attr name type =
        fixEnumValue host (.object (printFields names spelling record)) name type >>= fun fixed =>
          .ok [(attr, .object (JsonTree.spread [printFields names spelling record, fixed]))] := by
      simp only [fixNested, hget, bind, Except.bind, truthy, if_true]
      rfl
    have hrest : ∀ e ∈ record, e.1 ∈ [name] ∨ Plain e.2 := by
      intro e he
      have hfieldType := htyped.2 e he
      unfold withEnum at hfieldType
      split at hfieldType
      · rename_i hkey
        exact Or.inl (List.mem_singleton.mpr hkey)
      · exact Or.inr hfieldType
    have hname : ∀ value, JsonTree.field record name = some value → IsEnum type value := by
      intro value hvalue
      have hfieldType := typed_of_field htyped hvalue
      rwa [withEnum, if_pos rfl] at hfieldType
    have henum := fixEnumValue_print host names spelling hname
    have hspread := spread_printFields names spelling htyped.1 [name] hrest
    simp only [List.flatMap_cons, List.flatMap_nil, List.append_nil] at hspread
    have hknown : FieldKnown names record name ∧ True ↔ FieldKnown names fields attr := by
      rw [and_true]
      constructor
      · intro hknown value hvalue
        cases hfield.symm.trans hvalue
        exact (allLeaves_object_iff_fieldKnown htyped.1 hrest).mpr (by simpa using hknown)
      · intro hknown
        have hall := (allLeaves_object_iff_fieldKnown htyped.1 hrest).mp (hknown _ hfield)
        exact hall name (List.mem_singleton_self name)
    have hyields := (henum.bind (f := fun fixed =>
      Except.ok [(attr, JsonTree.object (JsonTree.spread [printFields names spelling record, fixed]))])
      (Yields.ok _)).congr hknown
    rw [hspread] at hyields
    rw [hfix, fixedField, hfield, Option.map_some, print_object]
    exact hyields

end Pass

section Events

variable (host : Host) (names : EnumNames) (spelling : Spelling)

/-- The fields of attributes that the pass looks at. -/
def fixedAttributes : List String :=
  ["taskQueue", "parentClosePolicy", "workflowIdReusePolicy", "initiator", "retryState",
    "childWorkflowExecutionFailureInfo"]

theorem attributesField_rest {fields : List (String × Message)} (h : TypedFields attributesField fields) :
    ∀ e ∈ fields, e.1 ∈ fixedAttributes ∨ Plain e.2 := by
  intro e he
  have hfield := h.2 e he
  by_cases hattr : e.1 ∈ fixedAttributes
  · exact Or.inl hattr
  · simp only [fixedAttributes, List.mem_cons, List.not_mem_nil, or_false, not_or] at hattr
    rcases hattr with ⟨htaskQueue, hclose, hreuse, hinitiator, hretry, hinfo⟩
    rw [attributesField, if_neg htaskQueue, if_neg hclose, if_neg hreuse, if_neg hinitiator, if_neg hretry,
      if_neg hinfo] at hfield
    exact Or.inr hfield

theorem fixAttributes_print {fields : List (String × Message)} (h : TypedFields attributesField fields) :
    Yields (fixAttributes host (.object (printFields names spelling fields)))
      (JsonTree.AllLeaves (Known names) (.object fields)) (print names .constantCase (.object fields)) := by
  have htaskQueue : ∀ value, JsonTree.field fields "taskQueue" = some value →
      IsRecord (withEnum "kind" .taskQueueKind) value := fun value hvalue => typed_of_field h hvalue
  have hclose : ∀ value, JsonTree.field fields "parentClosePolicy" = some value → IsEnum .parentClosePolicy value :=
    fun value hvalue => typed_of_field h hvalue
  have hreuse : ∀ value, JsonTree.field fields "workflowIdReusePolicy" = some value →
      IsEnum .workflowIdReusePolicy value := fun value hvalue => typed_of_field h hvalue
  have hinitiator : ∀ value, JsonTree.field fields "initiator" = some value → IsEnum .continueAsNewInitiator value :=
    fun value hvalue => typed_of_field h hvalue
  have hretry : ∀ value, JsonTree.field fields "retryState" = some value → IsEnum .retryState value :=
    fun value hvalue => typed_of_field h hvalue
  have hinfo : ∀ value, JsonTree.field fields "childWorkflowExecutionFailureInfo" = some value →
      IsRecord (withEnum "retryState" .retryState) value := fun value hvalue => typed_of_field h hvalue
  have hspread := spread_printFields names spelling h.1 fixedAttributes (attributesField_rest h)
  have hyields : Yields (fixAttributes host (.object (printFields names spelling fields)))
      (FieldKnown names fields "taskQueue" ∧ FieldKnown names fields "parentClosePolicy" ∧
        FieldKnown names fields "workflowIdReusePolicy" ∧ FieldKnown names fields "initiator" ∧
        FieldKnown names fields "retryState" ∧ FieldKnown names fields "childWorkflowExecutionFailureInfo" ∧ True)
      (.object (JsonTree.spread [printFields names spelling fields,
        fixedField names fields "taskQueue" ++ fixedField names fields "parentClosePolicy" ++
          fixedField names fields "workflowIdReusePolicy" ++ fixedField names fields "initiator" ++
          fixedField names fields "retryState" ++ fixedField names fields "childWorkflowExecutionFailureInfo"])) := by
    unfold fixAttributes
    refine (fixNested_print host names spelling htaskQueue).bind ?_
    refine (fixEnumValue_print host names spelling hclose).bind ?_
    refine (fixEnumValue_print host names spelling hreuse).bind ?_
    refine (fixEnumValue_print host names spelling hinitiator).bind ?_
    refine (fixEnumValue_print host names spelling hretry).bind ?_
    refine (fixNested_print host names spelling hinfo).bind ?_
    exact Yields.ok _
  have hparts : fixedField names fields "taskQueue" ++ fixedField names fields "parentClosePolicy" ++
      fixedField names fields "workflowIdReusePolicy" ++ fixedField names fields "initiator" ++
      fixedField names fields "retryState" ++ fixedField names fields "childWorkflowExecutionFailureInfo" =
      fixedAttributes.flatMap (fixedField names fields) := by
    simp [fixedAttributes]
  rw [hparts, hspread] at hyields
  rw [print_object]
  refine hyields.congr ?_
  rw [allLeaves_object_iff_fieldKnown h.1 (attributesField_rest h)]
  simp [fixedAttributes]

/-- The attributes of an event, with their key. -/
def HistoryEvent.attributes? (event : HistoryEvent) : Option (String × Message) :=
  event.fields.find? fun e => isAttributesKey e.1

/-- The event has attributes, and all enum values in it are known. -/
def HistoryEvent.Readable (event : HistoryEvent) : Prop :=
  event.attributes?.isSome = true ∧ JsonTree.AllLeaves (Known names) (.object event.fields)

theorem find?_printFields (fields : List (String × Message)) :
    (printFields names spelling fields).find? (fun e => isAttributesKey e.1) =
      (fields.find? fun e => isAttributesKey e.1).map fun e => (e.1, print names spelling e.2) := by
  rw [printFields, List.find?_map]
  rfl

theorem fixHistoryEvent_print (event : HistoryEvent) :
    Yields (fixHistoryEvent host (printEvent names spelling event)) (event.Readable names)
      (printEvent names .constantCase event) := by
  rw [printEvent, print_object, printEvent, print_object]
  have hfind := find?_printFields names spelling event.fields
  cases hattributes : event.fields.find? fun e => isAttributesKey e.1 with
  | none =>
    rw [hattributes] at hfind
    have hfix : fixHistoryEvent host (.object (printFields names spelling event.fields)) =
        .error (.missingAttributes (.object (printFields names spelling event.fields))) := by
      rw [fixHistoryEvent]
      simp only [hfind, Option.map_none]
    refine ⟨fun hreadable => ?_, fun _ => ⟨_, hfix⟩⟩
    have hsome := hreadable.1
    rw [HistoryEvent.attributes?, hattributes] at hsome
    exact nomatch hsome
  | some e =>
    rcases e with ⟨type, value⟩
    have hmem := List.mem_of_find?_eq_some hattributes
    have hkey : isAttributesKey type = true :=
      List.find?_some (p := fun e : String × Message => isAttributesKey e.1) hattributes
    have hne : type ≠ "eventType" := by
      rintro rfl
      exact absurd hkey (by decide +kernel)
    have hvalue : JsonTree.field event.fields type = some value := JsonTree.field_of_mem event.typed.1 hmem
    have hrecord := event.typed.2 _ hmem
    rw [eventField, if_neg hne, if_pos hkey] at hrecord
    rcases hrecord with ⟨attributes, rfl, htyped⟩
    have heventType : ∀ value, JsonTree.field event.fields "eventType" = some value → IsEnum .eventType value :=
      fun value hvalue => typed_of_field event.typed hvalue
    have hrest : ∀ e ∈ event.fields, e.1 ∈ ["eventType", type] ∨ Plain e.2 := by
      intro e he
      have hfield := event.typed.2 e he
      unfold eventField at hfield
      split at hfield
      · rename_i hkey'
        exact Or.inl (by simp [hkey'])
      · split at hfield
        · rename_i hkey'
          exact Or.inl (by simp [event.oneof e he _ hmem hkey' hkey])
        · exact Or.inr hfield
    have hspread := spread_printFields names spelling event.typed.1 ["eventType", type] hrest
    have hparts : fixedField names event.fields "eventType" ++ [(type, print names .constantCase (.object attributes))] =
        ["eventType", type].flatMap (fixedField names event.fields) := by
      simp [fixedField, hvalue]
    rw [hattributes, Option.map_some, print_object] at hfind
    have hfix : fixHistoryEvent host (.object (printFields names spelling event.fields)) =
        fixEnumValue host (.object (printFields names spelling event.fields)) "eventType" .eventType >>= fun eventType =>
          fixAttributes host (.object (printFields names spelling attributes)) >>= fun fixed =>
            Except.ok (JsonTree.object (JsonTree.spread
              [printFields names spelling event.fields, eventType ++ [(type, fixed)]])) := by
      rw [fixHistoryEvent]
      simp only [hfind]
      rfl
    have hyields : Yields (fixHistoryEvent host (.object (printFields names spelling event.fields)))
        (FieldKnown names event.fields "eventType" ∧ JsonTree.AllLeaves (Known names) (.object attributes) ∧ True)
        (.object (JsonTree.spread [printFields names spelling event.fields,
          fixedField names event.fields "eventType" ++
            [(type, print names .constantCase (.object attributes))]])) := by
      rw [hfix]
      refine (fixEnumValue_print host names spelling heventType).bind ?_
      refine (fixAttributes_print host names spelling htyped).bind ?_
      exact Yields.ok _
    rw [hparts, hspread] at hyields
    refine hyields.congr ?_
    have hall := @allLeaves_object_iff_fieldKnown names event.fields event.typed.1 _ hrest
    have htype : FieldKnown names event.fields type ↔ JsonTree.AllLeaves (Known names) (.object attributes) := by
      constructor
      · intro hknown
        exact hknown _ hvalue
      · intro hknown value' hvalue'
        cases hvalue.symm.trans hvalue'
        exact hknown
    rw [HistoryEvent.Readable, HistoryEvent.attributes?, hattributes, hall]
    simp [htype]

theorem fixHistory_print (history : History) :
    Yields (fixHistory host (history.events.map (printEvent names spelling)))
      (∀ event ∈ history.events, event.Readable names)
      (.object [("events", .array (history.events.map (printEvent names .constantCase)))]) := by
  have hevents : Yields ((history.events.map (printEvent names spelling)).mapM (fixHistoryEvent host))
      (∀ event ∈ history.events, event.Readable names) (history.events.map (printEvent names .constantCase)) := by
    rw [List.mapM_map]
    exact Yields.mapM fun event _ => fixHistoryEvent_print host names spelling event
  exact (hevents.bind (f := fun events => Except.ok (JsonTree.object [("events", JsonTree.array events)]))
    (Yields.ok _)).congr (and_iff_left trivial)

end Events

/-! ## Round trips -/

section RoundTrip

variable {host : Host} {lib : ProtoJson} {history : History}

/-- The JSON of the history has a list of events. -/
def PrintsEvents (lib : ProtoJson) (history : History) : Prop := history.events ≠ [] ∨ lib.printsEmptyLists = true

variable (host) in
theorem historyFromJSON_print (hinverse : lib.fromJson (toJson lib history) = some history) (spelling : Spelling) :
    Yields (historyFromJSON host lib (printHistory lib spelling history))
      (PrintsEvents lib history ∧ ∀ event ∈ history.events, event.Readable lib.names) history := by
  by_cases hprints : PrintsEvents lib history
  · have hnot : ¬ (history.events = [] ∧ lib.printsEmptyLists = false) := by
      rintro ⟨hnil, hfalse⟩
      rcases hprints with hne | htrue
      · exact hne hnil
      · rw [hfalse] at htrue
        exact nomatch htrue
    have hprint : ∀ s, printHistory lib s history =
        .object [("events", .array (history.events.map (printEvent lib.names s)))] := by
      intro s
      rw [printHistory, if_neg hnot]
    have hfix : historyFromJSON host lib (printHistory lib spelling history) =
        fixHistory host (history.events.map (printEvent lib.names spelling)) >>= fun fixed =>
          match lib.fromJson fixed with
          | some loaded => Except.ok loaded
          | none => Except.error .invalidHistory := by
      rw [hprint]
      rfl
    rw [toJson, hprint] at hinverse
    have hload : Yields (match lib.fromJson
          (.object [("events", .array (history.events.map (printEvent lib.names .constantCase)))]) with
        | some loaded => Except.ok loaded
        | none => Except.error .invalidHistory) True history := by
      rw [hinverse]
      exact Yields.ok history
    rw [hfix]
    refine ((fixHistory_print host lib.names spelling history).bind hload).congr ?_
    rw [and_true]
    exact (and_iff_right hprints).symm
  · have hnil : history.events = [] ∧ lib.printsEmptyLists = false := by
      rw [PrintsEvents, not_or] at hprints
      exact ⟨not_not.mp hprints.1, Bool.not_eq_true _ ▸ hprints.2⟩
    have hfix : historyFromJSON host lib (printHistory lib spelling history) = .error .noEvents := by
      rw [printHistory, if_pos hnil]
      rfl
    exact ⟨fun h => absurd h.1 hprints, fun _ => ⟨_, hfix⟩⟩

theorem printHistory_wellFormed (lib : ProtoJson) (spelling : Spelling) (history : History) :
    (printHistory lib spelling history).WellFormed := by
  have hleaf : ∀ value, (printLeaf lib.names spelling value).WellFormed := by
    intro value
    cases value with
    | json value => exact JsonTree.WellFormed.leaf value
    | enum type value =>
      rw [printLeaf]
      split <;> exact JsonTree.WellFormed.leaf _
  rw [printHistory]
  split
  · exact JsonTree.WellFormed.object List.Pairwise.nil (by simp)
  · refine JsonTree.WellFormed.object (List.pairwise_singleton _ _) ?_
    intro e he
    rw [List.mem_singleton.mp he]
    refine JsonTree.WellFormed.array (List.forall_mem_map.mpr ?_)
    intro event _
    exact event.wellFormed.bind hleaf

/-- A history comes back from its JSON if, and only if, it has events and each of them has attributes and known enum
values; and the older spelling of these values makes no difference. -/
theorem historyFromJSON_iff (host : Host) (lib : ProtoJson) (history : History)
    (hinverse : lib.fromJson (toJson lib history) = some history) :
    (historyFromJSON host lib (historyToJSON lib history).parse = .ok history ↔
      PrintsEvents lib history ∧ ∀ event ∈ history.events, event.Readable lib.names) ∧
    (historyFromJSON host lib (printHistory lib .pascalCase history)).toOption =
      (historyFromJSON host lib (printHistory lib .constantCase history)).toOption := by
  have hconstant := historyFromJSON_print host hinverse .constantCase
  have hpascal := historyFromJSON_print host hinverse .pascalCase
  have hparse : (historyToJSON lib history).parse = printHistory lib .constantCase history :=
    JsonTree.parse_of_wellFormed (printHistory_wellFormed lib .constantCase history)
  constructor
  · rw [hparse]
    constructor
    · intro hok
      by_contra hnot
      rcases hconstant.2 hnot with ⟨err, herr⟩
      rw [herr] at hok
      exact nomatch hok
    · exact hconstant.1
  · by_cases hreadable : PrintsEvents lib history ∧ ∀ event ∈ history.events, event.Readable lib.names
    · rw [hconstant.1 hreadable, hpascal.1 hreadable]
    · rcases hconstant.2 hreadable with ⟨err, herr⟩
      rcases hpascal.2 hreadable with ⟨err', herr'⟩
      rw [herr, herr']
      rfl

end RoundTrip

/-! ## Histories that are not read back -/

/-- `toUpperCase` on ASCII texts. -/
def asciiHost : Host := ⟨fun text => text.map Char.toUpper, fun _ _ => rfl⟩

/-- Zero is `UNSPECIFIED` everywhere, and the first type of events is known. -/
def fewWords (type : EnumType) (value : ℤ) : Option (List (List Char)) :=
  if value = 0 then some ["UNSPECIFIED".toList]
  else if type = .eventType ∧ value = 1 then some ["WORKFLOW".toList, "EXECUTION".toList, "STARTED".toList]
  else none

theorem fewWords_cases {type : EnumType} {value : ℤ} {ws : List (List Char)} (h : fewWords type value = some ws) :
    ws = ["UNSPECIFIED".toList] ∨ ws = ["WORKFLOW".toList, "EXECUTION".toList, "STARTED".toList] := by
  unfold fewWords at h
  split at h
  · exact Or.inl (Option.some.inj h).symm
  · split at h
    · exact Or.inr (Option.some.inj h).symm
    · exact nomatch h

def fewNames : EnumNames where
  words := fewWords
  zero type := by simp [fewWords]
  ne_nil type value ws h := by
    rcases fewWords_cases h with rfl | rfl <;> simp
  upper type value ws h := by
    have hwords : (ws.all fun w => decide (2 ≤ w.length) && w.all Char.isUpper) = true := by
      rcases fewWords_cases h with rfl | rfl <;> decide +kernel
    intro w hw
    have hword := List.all_eq_true.mp hwords w hw
    rw [Bool.and_eq_true, decide_eq_true_eq] at hword
    exact ⟨hword.1, List.all_eq_true.mp hword.2⟩

/-- An event of a type, with an enum in its attributes. -/
def startedFields (eventType : ℤ) : List (String × Message) :=
  [("eventId", .leaf (.json (.string "1"))), ("eventType", .leaf (.enum .eventType eventType)),
    ("workflowExecutionStartedEventAttributes", .object [("initiator", .leaf (.enum .continueAsNewInitiator 0))])]

theorem startedFields_inOrder (eventType : ℤ) : InOrder (startedFields eventType) := by
  have hkeys : (["eventId", "eventType", "workflowExecutionStartedEventAttributes"] : List String).Pairwise
      fun a b => a ≠ b ∧ precedes a b = true := by
    decide +kernel
  exact (List.pairwise_map (f := Prod.fst) (l := startedFields eventType)).mp hkeys

def startedEvent (eventType : ℤ) : HistoryEvent where
  fields := startedFields eventType
  typed := by
    refine ⟨startedFields_inOrder eventType, ?_⟩
    intro e he
    simp only [startedFields, List.mem_cons, List.not_mem_nil, or_false] at he
    rcases he with rfl | rfl | rfl
    · rw [eventField, if_neg (by decide +kernel), if_neg (by decide +kernel)]
      exact ⟨.leaf (.string "1"), rfl⟩
    · rw [eventField, if_pos rfl]
      exact ⟨eventType, rfl⟩
    · rw [eventField, if_neg (by decide +kernel), if_pos (by decide +kernel)]
      exact ⟨_, rfl, List.pairwise_singleton _ _, by simp [attributesField, IsEnum]⟩
  oneof := by
    intro e he e' he' hkey hkey'
    have hid : isAttributesKey "eventId" = false := by decide +kernel
    have htype : isAttributesKey "eventType" = false := by decide +kernel
    simp only [startedFields, List.mem_cons, List.not_mem_nil, or_false] at he he'
    rcases he with rfl | rfl | rfl
    · exact nomatch hid.symm.trans hkey
    · exact nomatch htype.symm.trans hkey
    · rcases he' with rfl | rfl | rfl
      · exact nomatch hid.symm.trans hkey'
      · exact nomatch htype.symm.trans hkey'
      · rfl
  wellFormed := by
    refine JsonTree.WellFormed.object (startedFields_inOrder eventType) ?_
    intro e he
    simp only [startedFields, List.mem_cons, List.not_mem_nil, or_false] at he
    rcases he with rfl | rfl | rfl
    · exact JsonTree.WellFormed.leaf _
    · exact JsonTree.WellFormed.leaf _
    · exact JsonTree.WellFormed.object (List.pairwise_singleton _ _) (by simp [JsonTree.WellFormed.leaf])

def startedHistory (eventType : ℤ) : History := ⟨[startedEvent eventType]⟩

/-- A library that reads one such event, of the type that a number says or of the first type. -/
def startedLib : ProtoJson where
  names := fewNames
  printsEmptyLists := false
  fromJson
    | .object [(_, .array [.object fields])] =>
      match JsonTree.field fields "eventType" with
      | some (.leaf (.number number)) => some (startedHistory number.num)
      | some _ => some (startedHistory 1)
      | none => none
    | _ => none

/-- The number that a type of events without a name is printed as makes the pass throw. -/
theorem unknown_event_type_throws :
    historyFromJSON asciiHost startedLib (historyToJSON startedLib (startedHistory 9999)).parse =
      .error (.notAString "eventType") := by
  rfl

theorem historyFromJSON_iff_started :
    (historyFromJSON asciiHost startedLib (historyToJSON startedLib (startedHistory 1)).parse =
        .ok (startedHistory 1) ↔
      PrintsEvents startedLib (startedHistory 1) ∧
        ∀ event ∈ (startedHistory 1).events, event.Readable startedLib.names) ∧
    (historyFromJSON asciiHost startedLib (printHistory startedLib .pascalCase (startedHistory 1))).toOption =
      (historyFromJSON asciiHost startedLib (printHistory startedLib .constantCase (startedHistory 1))).toOption :=
  historyFromJSON_iff asciiHost startedLib (startedHistory 1) rfl

end HistoryJson
end TemporalSdk.Worker
