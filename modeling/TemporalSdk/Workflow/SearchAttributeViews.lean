import TemporalSdk.Workflow.SearchAttributes
import TemporalSdk.Machine.Run

/-!
# SearchAttributeViews — the views and the commands of `upsertSearchAttributes`

What the legacy record, the typed attributes and the commands say is read in the same terms: each name has
the JSON values that stand for it.  The three agree over every run of calls that meet `Call.Clean`.
-/

namespace TemporalSdk.SearchAttributes

open Machine

/-! ## What the views say -/

/-- The JSON values of each attribute; `none` among them is a value that JSON does not have. -/
abbrev AttributeValues : Type := Record (List (Option Json))

section

variable (host : Host)

def legacyValues (record : Record (List Element)) : AttributeValues :=
  fun n => (record n).map fun elements => elements.map (Element.toJson host)

/-- Typed attributes are read by `getAll`. -/
def typedValues (attrs : TypedSearchAttributes) : AttributeValues :=
  fun n => (attrs.find n).map fun attr => attr.value.toArray.map (Element.toJson host)

/-- What a payload of a command makes of an attribute: `null` and the empty array remove it. -/
def Payload.attribute (payload : Payload) : Option (List (Option Json)) :=
  match payload.data with
  | .value .null => none
  | .value json => some [some json]
  | .array [] => none
  | .array (json :: jsons) => some ((json :: jsons).map some)

/-- Apply a command to attributes. -/
def applyCommand (values : AttributeValues) (indexedFields : List (String × Payload)) :
    AttributeValues :=
  fun n =>
    match indexedFields.lookup n with
    | some payload => payload.attribute
    | none => values n

/-- The two views describe the same attributes. -/
def Info.Coherent (info : Info) : Prop :=
  legacyValues host info.searchAttributes = typedValues host info.typedSearchAttributes

def step (info : Info) (call : Call) : Info := (upsertSearchAttributes host info call).2

/-! ## Clean calls -/

def Element.HasJson (element : Element) : Prop := (element.toJson host).isSome

/-- A pair that removes an attribute has its type, and one that sets it has a value that JSON can
represent. -/
def CleanPair (attrs : TypedSearchAttributes) (pair : SearchAttributeUpdatePair) : Prop :=
  pair.key.name ≠ "__proto__" ∧
    match pair.value with
    | none => ∀ attr ∈ attrs pair.key.name, attr.type = pair.key.type
    | some value => value ≠ .list [] ∧ ∀ element ∈ value.toArray, element.HasJson host

/-- The last pair of each name is clean when its turn comes. -/
def CleanPairs : TypedSearchAttributes → List SearchAttributeUpdatePair → Prop
  | _, [] => True
  | attrs, pair :: pairs =>
    ((∃ later ∈ pairs, later.key.name = pair.key.name) ∨ CleanPair host attrs pair) ∧
      CleanPairs (attrs.updatePair pair) pairs

/-- An array that sets an attribute has a type that can be told from it: it has one element, or strings
only.  A string that the host takes for a date is the ISO string of it, and any other string does not meet
an attribute of another type than text and keyword. -/
def CleanElements (attrs : TypedSearchAttributes) (name : String) : List Element → Prop
  | [] => True
  | [.string s] =>
    match host.dateParse s with
    | some time => host.toISOString time = s
    | none => ∀ attr ∈ attrs.find name, attr.type = .text ∨ attr.type = .keyword
  | [element] => element.HasJson host
  | elements => ∀ element ∈ elements, element.isString

def CleanEntry (attrs : TypedSearchAttributes) (entry : String × LegacyValue) : Prop :=
  entry.1 ≠ "__proto__" ∧
    match entry.2 with
    | .array elements => CleanElements host attrs entry.1 elements
    | _ => True

/-- A call is clean if it cannot be encoded, or each of its entries is clean. -/
def Clean (info : Info) (call : Call) : Prop :=
  (∃ error, call.indexedFields host = .error error) ∨
    match call.searchAttributes with
    | .typed pairs => CleanPairs host info.typedSearchAttributes pairs
    | .legacy record => ∀ entry ∈ record.entries, CleanEntry host info.typedSearchAttributes entry

end

/-! ## Objects -/

section Objects

variable {α : Type}

theorem lookup_cons_ite (e : String × α) (entries : List (String × α)) (n : String) :
    (e :: entries).lookup n = if n = e.1 then some e.2 else entries.lookup n := by
  rcases e with ⟨k, v⟩
  by_cases hn : n = k
  · simp [hn]
  · have hbeq : (n == k) = false := by simpa using hn
    simp [List.lookup_cons, hbeq, hn]

theorem lookup_replace (entries : List (String × α)) (k : String) (v : α) (n : String)
    (hk : k ∈ entries.map Prod.fst) :
    (entries.map fun e => if e.1 = k then (k, v) else e).lookup n =
      if n = k then some v else entries.lookup n := by
  induction entries with
  | nil => simp at hk
  | cons e entries ih =>
    rw [List.map_cons, lookup_cons_ite, lookup_cons_ite]
    by_cases he : e.1 = k
    · by_cases hn : n = k
      · simp [he, hn]
      · by_cases hk' : k ∈ entries.map Prod.fst
        · simpa [he, hn] using ih hk'
        -- No other entry is replaced.
        · have hmap : (entries.map fun e => if e.1 = k then (k, v) else e) = entries := by
            conv_rhs => rw [← List.map_id entries]
            apply List.map_congr_left
            intro e' he'
            have hne : e'.1 ≠ k := fun h => hk' (h ▸ List.mem_map_of_mem he')
            simp [hne]
          simp [he, hn, hmap]
    · have hk' : k ∈ entries.map Prod.fst := by simpa [Ne.symm he] using hk
      rw [if_neg he, ih hk']
      by_cases hn : n = k
      · simp [hn, Ne.symm he]
      · simp [hn]

theorem lookup_setEntry (entries : List (String × α)) (k : String) (v : α) (n : String) :
    (setEntry entries k v).lookup n = if n = k then some v else entries.lookup n := by
  unfold setEntry
  split
  · rename_i hk
    exact lookup_replace entries k v n hk
  · rename_i hk
    rw [List.lookup_append, lookup_cons_ite]
    by_cases hn : n = k
    · subst hn
      have hnone : entries.lookup n = none := by
        rw [List.lookup_eq_none_iff]
        intro e he
        have hne : n ≠ e.1 := fun h => hk (h ▸ List.mem_map_of_mem he)
        simpa using hne
      simp [hnone]
    · simp [hn]

/-- The value of the last entry of a name. -/
def lastValue : List (String × α) → String → Option α
  | [], _ => none
  | e :: entries, n => (lastValue entries n).or (if e.1 = n then some e.2 else none)

variable {entries : List (String × α)}

theorem lastValue_eq_none {n : String} (h : lastValue entries n = none) :
    ∀ e ∈ entries, e.1 ≠ n := by
  induction entries with
  | nil => simp
  | cons e entries ih =>
    simp only [lastValue, Option.or_eq_none_iff] at h
    intro e' he'
    rcases List.mem_cons.1 he' with rfl | he'
    · intro heq
      simp [heq] at h
    · exact ih h.1 e' he'

theorem lookup_fromEntries (entries : List (String × α)) (n : String) :
    (fromEntries entries).entries.lookup n = lastValue entries n := by
  have hfold : ∀ (entries : List (String × α)) (o : JsObject α),
      (entries.foldl (fun o e => o.set e.1 e.2) o).entries.lookup n =
        (lastValue entries n).or (o.entries.lookup n) := by
    intro entries
    induction entries with
    | nil =>
      intro o
      simp [lastValue]
    | cons e entries ih =>
      intro o
      have hset : (o.set e.1 e.2).entries.lookup n =
          if n = e.1 then some e.2 else o.entries.lookup n := lookup_setEntry _ _ _ _
      rw [List.foldl_cons, ih, hset, lastValue]
      by_cases hn : n = e.1
      · simp [hn]
      · simp [hn, Ne.symm hn]
  rw [fromEntries, hfold]
  simp

/-- A map to payloads has the converted value of each name. -/
theorem lookup_mapToPayloads {toPayload : α → Except UpsertError Payload}
    {payloads : List (String × Payload)}
    (h : mapToPayloads toPayload entries = .ok payloads) (n : String) :
    match entries.lookup n with
    | none => payloads.lookup n = none
    | some v => ∃ payload, toPayload v = .ok payload ∧ payloads.lookup n = some payload := by
  induction entries generalizing payloads with
  | nil =>
    cases h
    rfl
  | cons e entries ih =>
    rcases e with ⟨k, v⟩
    simp only [mapToPayloads] at h
    split at h
    · cases h
    · cases h
    · rename_i payload rest hpayload hrest
      cases h
      by_cases hn : n = k
      · simp [hn, hpayload]
      · simpa [lookup_cons_ite, hn] using ih hrest

theorem mapToPayloads_converts {toPayload : α → Except UpsertError Payload}
    {payloads : List (String × Payload)} (h : mapToPayloads toPayload entries = .ok payloads) :
    ∀ e ∈ entries, ∃ payload, toPayload e.2 = .ok payload := by
  induction entries generalizing payloads with
  | nil => simp
  | cons e entries ih =>
    rcases e with ⟨k, v⟩
    simp only [mapToPayloads] at h
    split at h
    · cases h
    · cases h
    · rename_i payload rest hpayload hrest
      intro e he
      rcases List.mem_cons.1 he with rfl | he
      · exact ⟨payload, hpayload⟩
      · exact ih hrest e he

end Objects

/-! ## Elements and payloads -/

section Payloads

variable {host : Host}

theorem toJson_ne_null (element : Element) : element.toJson host ≠ some .null := by
  cases element with
  | number n => cases n <;> simp [Element.toJson]
  | date time => cases time <;> simp [Element.toJson]
  | _ => simp [Element.toJson]

theorem Element.HasJson.stringify_eq {element : Element} (h : element.HasJson host) :
    some (stringify host element) = element.toJson host := by
  rcases Option.isSome_iff_exists.1 h with ⟨json, hjson⟩
  simp [stringify, hjson]

theorem hasJson_of_isString {element : Element} (h : element.isString = true) :
    element.HasJson host := by
  cases element <;> simp_all [Element.isString, Element.HasJson, Element.toJson]

theorem map_stringify {elements : List Element} (h : ∀ element ∈ elements, element.HasJson host) :
    (elements.map (stringify host)).map some = elements.map (Element.toJson host) := by
  rw [List.map_map]
  apply List.map_congr_left
  intro element helement
  exact (h element helement).stringify_eq

theorem attribute_array {type : Option SearchAttributeType} {elements : List Element}
    (hne : elements ≠ []) (h : ∀ element ∈ elements, element.HasJson host) :
    (Payload.mk type (.array (elements.map (stringify host)))).attribute =
      some (elements.map (Element.toJson host)) := by
  rw [← map_stringify h]
  cases elements with
  | nil => exact absurd rfl hne
  | cons element elements => rfl

theorem attribute_value {type : Option SearchAttributeType} {value : Value}
    (hne : value ≠ .list []) (h : ∀ element ∈ value.toArray, element.HasJson host) :
    (Payload.mk type (value.stringify host)).attribute =
      some (value.toArray.map (Element.toJson host)) := by
  cases value with
  | list elements => exact attribute_array (fun hnil => hne (by rw [hnil])) h
  | scalar element =>
    have hjson := (h element List.mem_cons_self).stringify_eq
    have hnull : stringify host element ≠ .null := by
      intro hnull
      rw [hnull] at hjson
      exact toJson_ne_null element hjson.symm
    simp only [Value.stringify, Value.toArray, List.map_cons, List.map_nil, ← hjson,
      Payload.attribute]

end Payloads

/-! ## Typed pairs -/

section Typed

variable {host : Host}

theorem Record.assign_apply {α : Type} {record : Record α} {name : String} {a : α}
    (h : name ≠ "__proto__") (n : String) :
    record.assign name a n = if n = name then some a else record n := by
  simp [Record.assign, h]

theorem Record.assign_of_ne {α : Type} {record : Record α} {name n : String} {a : α} (h : n ≠ name) :
    record.assign name a n = record n := by
  unfold Record.assign
  split
  · rfl
  · simp [h]

/-- The entries that the fields of a command are made of. -/
def pairEntries (pairs : List SearchAttributeUpdatePair) :
    List (String × SearchAttributeType × Option Value) :=
  pairs.map fun pair => (pair.key.name, (pair.key.type, pair.value))

/-- What a pair makes of its attribute. -/
def pairValues (host : Host) (value : Option Value) : Option (List (Option Json)) :=
  value.map fun value => value.toArray.map (Element.toJson host)

variable {pair : SearchAttributeUpdatePair} {n : String}

theorem setLegacyPair_of_ne {record : Record (List Element)}
    (h : n ≠ pair.key.name) : setLegacyPair record pair n = record n := by
  unfold setLegacyPair
  cases pair.value with
  | none => simp [Record.delete, h]
  | some value => exact Record.assign_of_ne h

variable {attrs : TypedSearchAttributes}

theorem updatePair_of_ne (h : n ≠ pair.key.name) : attrs.updatePair pair n = attrs n := by
  unfold TypedSearchAttributes.updatePair
  cases pair.value with
  | some value => exact Record.assign_of_ne h
  | none =>
    cases attrs pair.key.name with
    | none => rfl
    | some attr => by_cases htype : attr.type = pair.key.type <;> simp [htype, Record.delete, h]

theorem legacyValues_setLegacyPair {record : Record (List Element)}
    (hname : pair.key.name ≠ "__proto__") :
    legacyValues host (setLegacyPair record pair) pair.key.name = pairValues host pair.value := by
  unfold legacyValues setLegacyPair
  cases pair.value with
  | none => simp [Record.delete, pairValues]
  | some value => simp [Record.assign_apply hname, pairValues]

theorem typedValues_updatePair (hclean : CleanPair host attrs pair)
    (hvalid : ∀ value ∈ pair.value, isValidValueForType pair.key.type value = true) :
    typedValues host (attrs.updatePair pair) pair.key.name = pairValues host pair.value := by
  rcases hclean with ⟨hname, hclean⟩
  unfold typedValues TypedSearchAttributes.find TypedSearchAttributes.updatePair
  cases hvalue : pair.value with
  | some value =>
    have hvalid' := hvalid value (by rw [hvalue]; rfl)
    simp [Record.assign_apply hname, TypedSearchAttributeValue.valid, hvalid', pairValues]
  | none =>
    rw [hvalue] at hclean
    cases hattr : attrs pair.key.name with
    | none => simp [hattr, pairValues]
    | some attr =>
      have htype := hclean attr (by rw [hattr]; rfl)
      simp [htype, Record.delete, pairValues]

theorem typedValues_congr {attrs attrs' : TypedSearchAttributes}
    (h : attrs' n = attrs n) : typedValues host attrs' n = typedValues host attrs n := by
  simp only [typedValues, TypedSearchAttributes.find, h]

theorem legacyValues_congr {record record' : Record (List Element)}
    (h : record' n = record n) : legacyValues host record' n = legacyValues host record n := by
  simp only [legacyValues, h]

/-- Each name has in both views what its last pair says, if it has a pair. -/
theorem views_of_pairs (pairs : List SearchAttributeUpdatePair) :
    ∀ (record : Record (List Element)) (attrs : TypedSearchAttributes), CleanPairs host attrs pairs →
      ∀ n, (∀ type value, lastValue (pairEntries pairs) n = some (type, some value) →
        isValidValueForType type value = true) →
      match lastValue (pairEntries pairs) n with
      | some attr =>
        legacyValues host (pairs.foldl setLegacyPair record) n = pairValues host attr.2 ∧
          typedValues host (attrs.updateCopy pairs) n = pairValues host attr.2
      | none =>
        legacyValues host (pairs.foldl setLegacyPair record) n = legacyValues host record n ∧
          typedValues host (attrs.updateCopy pairs) n = typedValues host attrs n := by
  induction pairs with
  | nil =>
    intro record attrs _ n _
    exact ⟨rfl, rfl⟩
  | cons pair pairs ih =>
    intro record attrs hclean n hvalid
    have hlast : lastValue (pairEntries (pair :: pairs)) n =
        (lastValue (pairEntries pairs) n).or
          (if pair.key.name = n then some (pair.key.type, pair.value) else none) := rfl
    rw [hlast] at hvalid ⊢
    cases hlater : lastValue (pairEntries pairs) n with
    | some attr =>
      -- A later pair has the last word.
      have hih := ih (setLegacyPair record pair) (attrs.updatePair pair) hclean.2 n
      rw [hlater] at hvalid hih
      exact hih hvalid
    | none =>
      have hih := ih (setLegacyPair record pair) (attrs.updatePair pair) hclean.2 n
      rw [hlater] at hvalid hih
      rcases hih (by simp) with ⟨hlegacy, htyped⟩
      by_cases hn : pair.key.name = n
      · subst hn
        have hpair : CleanPair host attrs pair := by
          rcases hclean.1 with ⟨later, hmem, hname⟩ | hpair
          · exact absurd hname (lastValue_eq_none hlater _ (List.mem_map_of_mem hmem))
          · exact hpair
        simp only [if_true, Option.none_or, Option.some.injEq, Prod.mk.injEq] at hvalid ⊢
        refine ⟨hlegacy.trans (legacyValues_setLegacyPair hpair.1),
          htyped.trans (typedValues_updatePair hpair fun value hvalue => ?_)⟩
        exact hvalid _ value ⟨rfl, hvalue⟩
      · simp only [if_neg hn, Option.none_or]
        exact ⟨hlegacy.trans (legacyValues_congr (setLegacyPair_of_ne (Ne.symm hn))),
          htyped.trans (typedValues_congr (updatePair_of_ne (Ne.symm hn)))⟩

/-- The last pair of a name is clean, at some point of the loop. -/
theorem CleanPairs.last {pairs : List SearchAttributeUpdatePair} {n : String}
    {attr : SearchAttributeType × Option Value} :
    ∀ {attrs : TypedSearchAttributes}, CleanPairs host attrs pairs →
      lastValue (pairEntries pairs) n = some attr →
      ∃ attrs', CleanPair host attrs' ⟨⟨n, attr.1⟩, attr.2⟩ := by
  induction pairs with
  | nil =>
    intro attrs _ h
    cases h
  | cons pair pairs ih =>
    intro attrs hclean h
    have hlast : lastValue (pairEntries (pair :: pairs)) n =
        (lastValue (pairEntries pairs) n).or
          (if pair.key.name = n then some (pair.key.type, pair.value) else none) := rfl
    rw [hlast] at h
    cases hlater : lastValue (pairEntries pairs) n with
    | some later =>
      rw [hlater] at h
      exact ih hclean.2 (hlater.trans h)
    | none =>
      rw [hlater, Option.none_or] at h
      by_cases hn : pair.key.name = n
      · rw [if_pos hn] at h
        cases h
        subst hn
        rcases hclean.1 with ⟨later, hmem, hname⟩ | hpair
        · exact absurd hname (lastValue_eq_none hlater _ (List.mem_map_of_mem hmem))
        · exact ⟨attrs, hpair⟩
      · simp [hn] at h

theorem attribute_of_pair (hclean : CleanPair host attrs pair) {payload : Payload}
    (h : typedToPayload host pair.key.type pair.value = .ok payload) :
    payload.attribute = pairValues host pair.value := by
  have hvalue := hclean.2
  cases hv : pair.value with
  | none =>
    rw [hv] at h
    cases h
    rfl
  | some value =>
    rw [hv] at h hvalue
    simp only [typedToPayload] at h
    split at h
    · cases h
      exact attribute_value hvalue.1 hvalue.2
    · cases h

/-- After a clean call with pairs, both views are what the command makes of them. -/
theorem views_of_typed_call (record : Record (List Element)) {pairs : List SearchAttributeUpdatePair}
    {indexedFields : List (String × Payload)} (hclean : CleanPairs host attrs pairs)
    (h : mapToPayloads (fun attr => typedToPayload host attr.1 attr.2)
      (fromEntries (pairEntries pairs)).entries = .ok indexedFields) (n : String) :
    legacyValues host (pairs.foldl setLegacyPair record) n =
        applyCommand (legacyValues host record) indexedFields n ∧
      typedValues host (attrs.updateCopy pairs) n =
        applyCommand (typedValues host attrs) indexedFields n := by
  have hlookup := lookup_mapToPayloads h n
  have hviews := views_of_pairs pairs record attrs hclean n
  rw [lookup_fromEntries] at hlookup
  cases hlast : lastValue (pairEntries pairs) n with
  | none =>
    rw [hlast] at hlookup hviews
    simpa only [applyCommand, hlookup] using hviews (by simp)
  | some attr =>
    rw [hlast] at hlookup hviews
    rcases hlookup with ⟨payload, hpayload, hfield⟩
    rcases hclean.last hlast with ⟨attrs', hpair⟩
    have hvalid : ∀ type value, some attr = some (type, some value) →
        isValidValueForType type value = true := by
      rintro type value heq
      cases heq
      by_contra hinvalid
      simp [typedToPayload, hinvalid] at hpayload
    have hattribute : payload.attribute = pairValues host attr.2 := attribute_of_pair hpair hpayload
    simpa only [applyCommand, hfield, hattribute] using hviews hvalid

end Typed

/-! ## Legacy entries -/

section Legacy

variable {host : Host}

/-- What a legacy array makes of its attribute. -/
def arrayValues (host : Host) (elements : List Element) : Option (List (Option Json)) :=
  if elements = [] then none else some (elements.map (Element.toJson host))

variable {attrs : TypedSearchAttributes}

theorem cleanElements_two {name : String} {first second : Element}
    {rest : List Element} : CleanElements host attrs name (first :: second :: rest) ↔
      ∀ element ∈ first :: second :: rest, element.isString = true := by
  cases first <;> rfl

variable {elements : List Element}

theorem CleanElements.hasJson {name : String} (h : CleanElements host attrs name elements) :
    ∀ element ∈ elements, element.HasJson host := by
  match elements with
  | [] => simp
  | [element] =>
    intro element' hmem
    rw [List.mem_singleton.1 hmem]
    cases element with
    | string s => rfl
    | _ => exact h
  | first :: second :: rest =>
    exact fun element hmem => hasJson_of_isString (cleanElements_two.1 h element hmem)

/-- A clean array becomes a valid typed attribute with the same values. -/
theorem typedKeyAndValue_of_clean {name : String}
    (h : CleanElements host attrs name elements) (hne : elements ≠ []) :
    ∃ attr, typedKeyAndValue host attrs name elements = some attr ∧ attr.valid = true ∧
      attr.value.toArray.map (Element.toJson host) = elements.map (Element.toJson host) := by
  match elements with
  | [.string s] =>
    simp only [CleanElements] at h
    cases hparse : host.dateParse s with
    | some time =>
      rw [hparse] at h
      refine ⟨⟨.datetime, .scalar (.date (some time))⟩, ?_, rfl, ?_⟩
      · simp [typedKeyAndValue, getKeyFromUntyped, hparse, newDate]
      · simp [Value.toArray, Element.toJson, h]
    | none =>
      rw [hparse] at h
      cases hfind : attrs.find name with
      | none =>
        refine ⟨⟨.text, .scalar (.string s)⟩, ?_, rfl, rfl⟩
        simp [typedKeyAndValue, getKeyFromUntyped, hparse, hfind]
      | some matching =>
        -- The string takes the type of the attribute, which is one of strings.
        have htype := h matching (by rw [hfind]; rfl)
        refine ⟨⟨matching.type, .scalar (.string s)⟩, ?_, ?_, rfl⟩
        · rcases htype with htype | htype <;>
            simp [typedKeyAndValue, getKeyFromUntyped, hparse, hfind, htype]
        · rcases htype with htype | htype <;>
            simp [TypedSearchAttributeValue.valid, isValidValueForType, htype]
  | [.number n] =>
    cases hinteger : isInteger n with
    | true =>
      refine ⟨⟨.int, .scalar (.number n)⟩, ?_, hinteger, rfl⟩
      simp [typedKeyAndValue, getKeyFromUntyped, hinteger]
    | false =>
      refine ⟨⟨.double, .scalar (.number n)⟩, ?_, rfl, rfl⟩
      simp [typedKeyAndValue, getKeyFromUntyped, hinteger]
  | [.boolean b] => exact ⟨⟨.bool, .scalar (.boolean b)⟩, rfl, rfl, rfl⟩
  | [.date time] => exact ⟨⟨.datetime, .scalar (.date time)⟩, rfl, rfl, rfl⟩
  | [.object] => simp [CleanElements, Element.HasJson, Element.toJson] at h
  | [.other] => simp [CleanElements, Element.HasJson, Element.toJson] at h
  | first :: second :: rest =>
    have hall : (first :: second :: rest).all Element.isString = true :=
      List.all_eq_true.2 (cleanElements_two.1 h)
    refine ⟨⟨.keywordList, .list (first :: second :: rest)⟩, ?_, hall, rfl⟩
    simp only [typedKeyAndValue, getKeyFromUntyped, hall, if_true]
    simp

theorem upsertEntry_nil (views : Record (List Element) × TypedSearchAttributes) (k : String) :
    upsertEntry host views (k, .array []) =
      .ok (views.1.delete k,
        match views.2.find k with
        | some matching => views.2.updatePair ⟨⟨k, matching.type⟩, none⟩
        | none => views.2) := rfl

theorem upsertEntry_cons (views : Record (List Element) × TypedSearchAttributes) (k : String)
    (element : Element) (elements : List Element) :
    upsertEntry host views (k, .array (element :: elements)) =
      match typedKeyAndValue host views.2 k (element :: elements) with
      | none => .ok views
      | some attr =>
        .ok (views.1.assign k (element :: elements),
          views.2.updatePair ⟨⟨k, attr.type⟩, some attr.value⟩) := rfl

/-- The turn of an array does not throw and touches no other name. -/
theorem upsertEntry_array (host : Host) (views : Record (List Element) × TypedSearchAttributes) (k : String)
    (elements : List Element) :
    ∃ views', upsertEntry host views (k, .array elements) = .ok views' ∧
      ∀ n, n ≠ k → views'.1 n = views.1 n ∧ views'.2 n = views.2 n := by
  cases elements with
  | nil =>
    refine ⟨_, upsertEntry_nil views k, fun n hn => ⟨?_, ?_⟩⟩
    · simp [Record.delete, hn]
    · cases views.2.find k with
      | none => rfl
      | some matching =>
        show views.2.updatePair ⟨⟨k, matching.type⟩, none⟩ n = views.2 n
        exact updatePair_of_ne hn
  | cons element elements =>
    rw [upsertEntry_cons]
    cases typedKeyAndValue host views.2 k (element :: elements) with
    | none => exact ⟨views, rfl, fun n _ => ⟨rfl, rfl⟩⟩
    | some attr =>
      refine ⟨_, rfl, fun n hn => ⟨Record.assign_of_ne hn, ?_⟩⟩
      show views.2.updatePair ⟨⟨k, attr.type⟩, some attr.value⟩ n = views.2 n
      exact updatePair_of_ne hn

/-- After the turn of a clean array, its name has its values in both views. -/
theorem views_of_array {views views' : Record (List Element) × TypedSearchAttributes} {k : String}
    (hclean : CleanEntry host views.2 (k, .array elements))
    (h : upsertEntry host views (k, .array elements) = .ok views') :
    legacyValues host views'.1 k = arrayValues host elements ∧
      typedValues host views'.2 k = arrayValues host elements := by
  rcases hclean with ⟨hname, hclean⟩
  cases elements with
  | nil =>
    rw [upsertEntry_nil] at h
    cases h
    constructor
    · simp [legacyValues, Record.delete, arrayValues]
    · cases hfind : views.2.find k with
      | none => simp [typedValues, hfind, arrayValues]
      | some matching =>
        -- The attribute that is found has the type that the removal is made for.
        rcases Option.filter_eq_some_iff.1 hfind with ⟨hattr, _⟩
        simp [typedValues, TypedSearchAttributes.find, TypedSearchAttributes.updatePair, hattr,
          Record.delete, arrayValues]
  | cons element elements =>
    rcases typedKeyAndValue_of_clean hclean (List.cons_ne_nil _ _) with ⟨attr, htyped, hvalid, hvalues⟩
    rw [upsertEntry_cons, htyped] at h
    cases h
    constructor
    · simp [legacyValues, Record.assign_apply hname, arrayValues]
    · have hvalid' : TypedSearchAttributeValue.valid ⟨attr.type, attr.value⟩ = true := hvalid
      simp only [typedValues, TypedSearchAttributes.find, TypedSearchAttributes.updatePair,
        Record.assign_apply hname, if_true, Option.filter_some, hvalid', Option.map_some, hvalues]
      rfl

theorem CleanEntry.congr {attrs attrs' : TypedSearchAttributes} {k : String}
    (h : CleanEntry host attrs (k, .array elements)) (hattr : attrs' k = attrs k) :
    CleanEntry host attrs' (k, .array elements) := by
  have hfind : attrs'.find k = attrs.find k := by
    simp only [TypedSearchAttributes.find, hattr]
  refine ⟨h.1, ?_⟩
  have hclean : CleanElements host attrs k elements := h.2
  match elements with
  | [] => trivial
  | [.string s] =>
    simp only [CleanElements] at hclean ⊢
    rw [hfind]
    exact hclean
  | [.number n] => exact hclean
  | [.boolean b] => exact hclean
  | [.date time] => exact hclean
  | [.object] => exact hclean
  | [.other] => exact hclean
  | first :: second :: rest => exact cleanElements_two.2 (cleanElements_two.1 hclean)

theorem upsertEntries_ok (host : Host) {entries : List (String × LegacyValue)} :
    ∀ (views : Record (List Element) × TypedSearchAttributes),
      (∀ entry ∈ entries, ∃ elements, entry.2 = .array elements) →
      ∃ views', upsertEntries host views entries = .ok views' := by
  induction entries with
  | nil =>
    intro views _
    exact ⟨views, rfl⟩
  | cons entry entries ih =>
    intro views harray
    rcases entry with ⟨k, v⟩
    obtain ⟨elements, rfl⟩ : ∃ elements, v = .array elements := harray _ List.mem_cons_self
    rcases upsertEntry_array host views k elements with ⟨views₁, hentry, _⟩
    rcases ih views₁ fun entry he => harray entry (List.mem_cons_of_mem _ he) with
      ⟨views', hrest⟩
    exact ⟨views', by rw [upsertEntries, hentry]; exact hrest⟩

/-- Each name has in both views what its entry says, if it has one. -/
theorem views_of_entries {entries : List (String × LegacyValue)} :
    ∀ {views views' : Record (List Element) × TypedSearchAttributes},
      (entries.map Prod.fst).Nodup → (∀ entry ∈ entries, ∃ elements, entry.2 = .array elements) →
      (∀ entry ∈ entries, CleanEntry host views.2 entry) →
      upsertEntries host views entries = .ok views' → ∀ n,
      match entries.lookup n with
      | some (.array elements) =>
        legacyValues host views'.1 n = arrayValues host elements ∧
          typedValues host views'.2 n = arrayValues host elements
      | some _ => False
      | none => views'.1 n = views.1 n ∧ views'.2 n = views.2 n := by
  induction entries with
  | nil =>
    intro views views' _ _ _ h n
    cases h
    exact ⟨rfl, rfl⟩
  | cons entry entries ih =>
    intro views views' hnodup harray hclean h n
    rcases entry with ⟨k, v⟩
    obtain ⟨elements, rfl⟩ : ∃ elements, v = .array elements := harray _ List.mem_cons_self
    rcases upsertEntry_array host views k elements with ⟨views₁, hentry, hframe⟩
    have hk : k ∉ entries.map Prod.fst := (List.nodup_cons.1 hnodup).1
    rw [upsertEntries, hentry] at h
    have harray' : ∀ entry ∈ entries, ∃ elements, entry.2 = .array elements :=
      fun entry he => harray entry (List.mem_cons_of_mem _ he)
    -- The turn leaves the attributes of the other entries alone, so these stay clean.
    have hclean' : ∀ entry ∈ entries, CleanEntry host views₁.2 entry := by
      intro entry he
      have hne : entry.1 ≠ k := fun heq => hk (heq ▸ List.mem_map_of_mem he)
      rcases entry with ⟨k', v'⟩
      obtain ⟨elements', rfl⟩ : ∃ elements, v' = .array elements := harray' _ he
      exact (hclean _ (List.mem_cons_of_mem _ he)).congr (hframe k' hne).2
    have hih := ih (List.nodup_cons.1 hnodup).2 harray' hclean' h n
    rw [lookup_cons_ite]
    by_cases hn : n = k
    · have hnone : entries.lookup n = none := by
        rw [List.lookup_eq_none_iff]
        intro e he
        have hne : n ≠ e.1 := fun heq => hk (hn ▸ heq ▸ List.mem_map_of_mem he)
        simpa using hne
      rw [hnone] at hih
      rw [if_pos hn, legacyValues_congr hih.1, typedValues_congr hih.2, hn]
      exact views_of_array (hclean _ List.mem_cons_self) hentry
    · rw [if_neg hn]
      cases hlookup : entries.lookup n with
      | none =>
        rw [hlookup] at hih
        rcases hframe n hn with ⟨hlegacy, htyped⟩
        exact ⟨hih.1.trans hlegacy, hih.2.trans htyped⟩
      | some v =>
        rw [hlookup] at hih
        cases v <;> exact hih

theorem array_of_converts {v : LegacyValue} {payload : Payload}
    (h : legacyToPayload host v = .ok payload) :
    ∃ elements, v = .array elements ∧ payload = ⟨none, .array (elements.map (stringify host))⟩ := by
  cases v with
  | undefined | notArray => cases h
  | array elements =>
    simp only [legacyToPayload] at h
    split at h
    · cases h
    · cases h
      exact ⟨elements, rfl, rfl⟩

theorem arrays_of_mapToPayloads {entries : List (String × LegacyValue)} {indexedFields : List (String × Payload)}
    (h : mapToPayloads (legacyToPayload host) entries = .ok indexedFields) :
    ∀ entry ∈ entries, ∃ elements, entry.2 = .array elements := by
  intro entry he
  rcases mapToPayloads_converts h entry he with ⟨payload, hpayload⟩
  rcases array_of_converts hpayload with ⟨elements, helements, _⟩
  exact ⟨elements, helements⟩

/-- After a clean call with a record, both views are what the command makes of them. -/
theorem views_of_legacy_call {object : JsObject LegacyValue}
    {views views' : Record (List Element) × TypedSearchAttributes}
    {indexedFields : List (String × Payload)}
    (hclean : ∀ entry ∈ object.entries, CleanEntry host views.2 entry)
    (hfields : mapToPayloads (legacyToPayload host) object.entries = .ok indexedFields)
    (h : upsertEntries host views object.entries = .ok views') (n : String) :
    legacyValues host views'.1 n = applyCommand (legacyValues host views.1) indexedFields n ∧
      typedValues host views'.2 n = applyCommand (typedValues host views.2) indexedFields n := by
  have harray := arrays_of_mapToPayloads hfields
  have hviews := views_of_entries object.nodup harray hclean h n
  have hlookup := lookup_mapToPayloads hfields n
  cases hentry : object.entries.lookup n with
  | none =>
    rw [hentry] at hviews hlookup
    simp only [applyCommand, hlookup]
    exact ⟨legacyValues_congr hviews.1, typedValues_congr hviews.2⟩
  | some v =>
    rw [hentry] at hviews hlookup
    rcases hlookup with ⟨payload, hpayload, hfield⟩
    rcases array_of_converts hpayload with ⟨elements, rfl, rfl⟩
    have hattribute : (Payload.mk none (.array (elements.map (stringify host)))).attribute =
        arrayValues host elements := by
      by_cases hnil : elements = []
      · subst hnil
        rfl
      · have hmem : (n, LegacyValue.array elements) ∈ object.entries := by
          rcases List.lookup_eq_some_iff.1 hentry with ⟨earlier, later, hentries, _⟩
          rw [hentries]
          exact List.mem_append_right _ List.mem_cons_self
        rw [attribute_array hnil (hclean _ hmem).2.hasJson, arrayValues, if_neg hnil]
    simpa only [applyCommand, hfield, hattribute] using hviews

end Legacy

/-! ## Runs of calls -/

section Runs

variable {host : Host} {info : Info} {call : Call}

/-- A call throws before it does anything. -/
theorem unchanged_of_throws {error : UpsertError}
    (h : (upsertSearchAttributes host info call).1 = some error) :
    (upsertSearchAttributes host info call).2 = info := by
  cases hfields : call.indexedFields host with
  | error error' => simp only [upsertSearchAttributes, hfields]
  | ok indexedFields =>
    simp only [upsertSearchAttributes, hfields] at h ⊢
    split at h
    · rename_i hgroups
      rw [if_pos hgroups]
    · cases hcall : call.searchAttributes with
      | typed pairs => simp [hcall] at h
      | legacy object =>
        simp only [Call.indexedFields, hcall] at hfields
        -- What can be encoded is an array, and the loop does not throw on arrays.
        have harray := arrays_of_mapToPayloads hfields
        rcases upsertEntries_ok host (info.searchAttributes, info.typedSearchAttributes) harray with
          ⟨views', hviews⟩
        simp [hcall, Info.pushCommand, hviews] at h

/-- A clean call leaves all as it is, or does to both views what its command says. -/
theorem step_of_clean (hclean : Clean host info call) :
    step host info call = info ∨
      ∃ indexedFields, (step host info call).commands = info.commands ++ [indexedFields] ∧
        legacyValues host (step host info call).searchAttributes =
          applyCommand (legacyValues host info.searchAttributes) indexedFields ∧
        typedValues host (step host info call).typedSearchAttributes =
          applyCommand (typedValues host info.typedSearchAttributes) indexedFields := by
  cases hthrows : (upsertSearchAttributes host info call).1 with
  | some error => exact .inl (unchanged_of_throws hthrows)
  | none =>
    right
    cases hfields : call.indexedFields host with
    | error error => simp [upsertSearchAttributes, hfields] at hthrows
    | ok indexedFields =>
      have hclean' := hclean.resolve_left (by simp [hfields])
      refine ⟨indexedFields, ?_⟩
      simp only [step, upsertSearchAttributes, hfields] at hthrows ⊢
      split at hthrows
      · simp at hthrows
      · rename_i hgroups
        rw [if_neg hgroups]
        cases hcall : call.searchAttributes with
        | typed pairs =>
          simp only [Call.indexedFields, hcall] at hfields hclean' ⊢
          have hviews := views_of_typed_call info.searchAttributes hclean' hfields
          exact ⟨rfl, funext fun n => (hviews n).1, funext fun n => (hviews n).2⟩
        | legacy object =>
          simp only [Call.indexedFields, hcall] at hfields hclean' hthrows ⊢
          cases hentries : upsertEntries host (info.searchAttributes, info.typedSearchAttributes)
              object.entries with
          | error error => simp [Info.pushCommand, hentries] at hthrows
          | ok views =>
            have hviews := views_of_legacy_call hclean' hfields hentries
            simp only [Info.pushCommand, hentries, true_and]
            exact ⟨funext fun n => (hviews n).1, funext fun n => (hviews n).2⟩

/-- In every run of clean calls from views that agree, the views agree with each other and with the
commands that were pushed; and no call that throws has an effect. -/
theorem views_stay_coherent (host : Host) (record : Record (List Element))
    (attrs : TypedSearchAttributes) (hcoherent : legacyValues host record = typedValues host attrs)
    (calls : List Call) (h : Guarded (step host) (Clean host) ⟨record, attrs, []⟩ calls) :
    (run (step host) ⟨record, attrs, []⟩ calls).Coherent host ∧
      legacyValues host (run (step host) ⟨record, attrs, []⟩ calls).searchAttributes =
        (run (step host) ⟨record, attrs, []⟩ calls).commands.foldl applyCommand
          (legacyValues host record) ∧
      ∀ info call error, (upsertSearchAttributes host info call).1 = some error →
        (upsertSearchAttributes host info call).2 = info := by
  have hinit : (Info.mk record attrs []).Coherent host ∧
      legacyValues host (Info.mk record attrs []).searchAttributes =
        (Info.mk record attrs []).commands.foldl applyCommand (legacyValues host record) :=
    ⟨hcoherent, rfl⟩
  have hstep : ∀ info call, Clean host info call →
      (info.Coherent host ∧ legacyValues host info.searchAttributes =
        info.commands.foldl applyCommand (legacyValues host record)) →
      ((step host info call).Coherent host ∧ legacyValues host (step host info call).searchAttributes =
        (step host info call).commands.foldl applyCommand (legacyValues host record)) := by
    rintro info call hclean ⟨hagree, hcommands⟩
    rcases step_of_clean hclean with hsame | ⟨indexedFields, hpushed, hlegacy, htyped⟩
    · rw [hsame]
      exact ⟨hagree, hcommands⟩
    · constructor
      · rw [Info.Coherent, hlegacy, htyped, hagree]
      · rw [hlegacy, hpushed, List.foldl_append, ← hcommands]
        rfl
  rcases run_invariant hstep hinit h with ⟨hagree, hcommands⟩
  exact ⟨hagree, hcommands, fun info call error => unchanged_of_throws⟩

/-- A host that takes no string for a date. -/
def plainHost : Host := ⟨fun _ => none, fun _ => ""⟩

def sampleRecord : Record (List Element) := fun n =>
  if n = "tags" then some [.string "a", .string "b"] else none

def sampleAttrs : TypedSearchAttributes := fun n =>
  if n = "tags" then some ⟨.keywordList, .list [.string "a", .string "b"]⟩ else none

/-- A call with one entry. -/
def legacyCall (name : String) (elements : List Element) : Call :=
  ⟨.legacy ⟨[(name, .array elements)], by simp⟩, true⟩

def typedCall (pairs : List SearchAttributeUpdatePair) : Call := ⟨.typed pairs, true⟩

theorem sample_coherent : legacyValues plainHost sampleRecord = typedValues plainHost sampleAttrs := by
  funext n
  by_cases hn : n = "tags"
  · subst hn
    decide
  · simp [legacyValues, typedValues, sampleRecord, sampleAttrs, TypedSearchAttributes.find, hn]

/-- Set a number, replace the keywords, and remove both. -/
def cleanCalls : List Call :=
  [typedCall [⟨⟨"count", .int⟩, some (.scalar (.number (.finite 3)))⟩],
   legacyCall "tags" [.string "c", .string "d"],
   legacyCall "count" [],
   typedCall [⟨⟨"tags", .keywordList⟩, none⟩]]

theorem cleanCalls_coherent :
    (run (step plainHost) ⟨sampleRecord, sampleAttrs, []⟩ cleanCalls).Coherent plainHost ∧
      legacyValues plainHost
          (run (step plainHost) ⟨sampleRecord, sampleAttrs, []⟩ cleanCalls).searchAttributes =
        (run (step plainHost) ⟨sampleRecord, sampleAttrs, []⟩ cleanCalls).commands.foldl applyCommand
          (legacyValues plainHost sampleRecord) ∧
      ∀ info call error, (upsertSearchAttributes plainHost info call).1 = some error →
        (upsertSearchAttributes plainHost info call).2 = info := by
  apply views_stay_coherent plainHost sampleRecord sampleAttrs sample_coherent cleanCalls
  refine ⟨.inr ⟨.inr ⟨by decide, by simp, by simp [Value.toArray, Element.HasJson, Element.toJson, JsNumber.print]⟩,
    trivial⟩, .inr ?_, .inr ?_, .inr ⟨.inr ⟨by decide, ?_⟩, trivial⟩, trivial⟩
  · simp [legacyCall, CleanEntry, CleanElements, Element.isString]
  · simp [legacyCall, CleanEntry, CleanElements]
  -- The keywords still have their type when they are removed.
  · intro attr hattr
    have htype : ((run (step plainHost) ⟨sampleRecord, sampleAttrs, []⟩
        (cleanCalls.take 3)).typedSearchAttributes "tags").map (·.type) = some .keywordList := by
      decide +kernel
    have heq : (run (step plainHost) ⟨sampleRecord, sampleAttrs, []⟩
        (cleanCalls.take 3)).typedSearchAttributes "tags" = some attr := hattr
    rw [heq] at htype
    exact Option.some.inj htype

/-- One keyword for a list of keywords is lost from the typed view; a removal with another type leaves the
typed attribute; and two numbers are sent and shown nowhere. -/
theorem views_disagree :
    ¬ (run (step plainHost) ⟨sampleRecord, sampleAttrs, []⟩
        [legacyCall "tags" [.string "c"]]).Coherent plainHost ∧
    ¬ (run (step plainHost) ⟨sampleRecord, sampleAttrs, []⟩
        [typedCall [⟨⟨"tags", .text⟩, none⟩]]).Coherent plainHost ∧
    legacyValues plainHost (run (step plainHost) ⟨sampleRecord, sampleAttrs, []⟩
        [legacyCall "tags" [.number (.finite 1), .number (.finite 2)]]).searchAttributes ≠
      (run (step plainHost) ⟨sampleRecord, sampleAttrs, []⟩
        [legacyCall "tags" [.number (.finite 1), .number (.finite 2)]]).commands.foldl applyCommand
          (legacyValues plainHost sampleRecord) := by
  refine ⟨fun h => ?_, fun h => ?_, fun h => ?_⟩
  all_goals
    have htags := congrFun h "tags"
    exact absurd htags (by decide +kernel)

end Runs

end TemporalSdk.SearchAttributes
