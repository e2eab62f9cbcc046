import TemporalSdk.Workflow.SearchAttributePayloads

/-!
# TypedAttributes — typed search attributes through payloads

Typed search attributes are encoded by `encodeUnifiedSearchAttributes` and decoded again, to typed attributes and to
the legacy record.
-/

namespace TemporalSdk.SearchAttributes

variable {host : Host}

/-- A value that JSON can hold: a number is a finite double, a date is valid and is read from what is written for
it. -/
def Element.Exact (host : Host) : Element → Prop
  | .string _ => True
  | .number (.finite value) => Machine.denoted value = value ∧ |value| < 2 ^ 1024
  | .boolean _ => True
  | .date (some time) => host.dateParse (host.toISOString time) = some time ∧ host.toISOString time ≠ ""
  | _ => False

/-- An attribute of its type, of such values. -/
structure TypedSearchAttributeValue.Proper (host : Host) (attr : TypedSearchAttributeValue) : Prop where
  valid : attr.valid = true
  exact : ∀ element ∈ attr.value.toArray, element.Exact host

/-! ## One attribute -/

theorem element_stringify {element : Element} (h : element.Exact host) (hdate : element.isDate = false) :
    (stringify host element).element = element := by
  cases element with
  | string s => rfl
  | number n =>
    cases n with
    | finite value => exact congrArg Element.number (ofDecimal_shortestDecimal h.1 h.2)
    | nan | infinity => exact h.elim
  | boolean b => rfl
  | date time => cases hdate
  | object | other => exact h.elim

theorem date_stringify {time : Option Int} (h : (Element.date time).Exact host) :
    (stringify host (.date time)).date host = .date time ∧ (stringify host (.date time)).truthy = true := by
  cases time with
  | none => exact h.elim
  | some time =>
    have hjson : stringify host (.date (some time)) = .string (host.toISOString time) := rfl
    rw [hjson]
    exact ⟨by rw [Json.date, h.1], by simpa [Json.truthy] using h.2⟩

variable {attr : TypedSearchAttributeValue}

theorem typedToPayload_proper (h : attr.Proper host) :
    typedToPayload host attr.type (some attr.value) = .ok (attr.payload host) := by
  have hvalid : isValidValueForType attr.type attr.value = true := h.valid
  rw [typedToPayload, if_pos hvalid, TypedSearchAttributeValue.payload]

theorem field_type (attr : TypedSearchAttributeValue) :
    (attr.payload host).field.metadataType.bind toSearchAttributeType = some attr.type :=
  toSearchAttributeType_toMetadataType attr.type

theorem toMetadataType_eq_iff (type : SearchAttributeType) : toMetadataType type = "Datetime" ↔ type = .datetime := by
  cases type <;> decide

theorem metadataType_datetime_iff (attr : TypedSearchAttributeValue) :
    (attr.payload host).field.metadataType = some "Datetime" ↔ attr.type = .datetime :=
  Option.some_inj.trans (toMetadataType_eq_iff attr.type)

theorem isDate_of_valid (h : attr.valid = true) :
    ∀ element ∈ attr.value.toArray, element.isDate = true ↔ attr.type = .datetime := by
  rcases attr with ⟨type, value⟩
  intro element hmem
  cases value with
  | scalar e =>
    rcases List.mem_singleton.mp hmem with rfl
    cases type <;> cases element <;>
      simp [TypedSearchAttributeValue.valid, isValidValueForType, Element.isDate] at h ⊢
  | list elements =>
    cases type with
    | keywordList =>
      have hstring := List.all_eq_true.mp h element hmem
      cases element <;> simp [Element.isString, Element.isDate] at hstring ⊢
    | _ => cases h

/-- The value that is checked is the value that was encoded. -/
theorem typedValue_payload (h : attr.Proper host) :
    typedValue host attr.type (attr.payload host).field.data = some attr.value := by
  rcases attr with ⟨type, value⟩
  have hvalid : isValidValueForType type value = true := h.valid
  have hdates := isDate_of_valid h.valid
  cases value with
  | scalar element =>
    have hexact := h.exact element List.mem_cons_self
    have hdate := hdates element List.mem_cons_self
    have htyped : typedElement host type (stringify host element) = element := by
      unfold typedElement
      by_cases htype : type = .datetime
      · cases element with
        | date time =>
          rcases date_stringify hexact with ⟨hread, htruthy⟩
          rw [if_pos ⟨htype, htruthy⟩, hread]
        | _ => exact absurd (hdate.mpr htype) (by simp [Element.isDate])
      · rw [if_neg fun hcon => htype hcon.1]
        refine element_stringify hexact ?_
        simpa using mt hdate.mp htype
    rw [← htyped]
    simp only [TypedSearchAttributeValue.payload, Payload.field, Value.stringify, typedValue, htyped]
  | list elements =>
    cases type with
    | keywordList =>
      have hmap : (elements.map (stringify host)).map Json.element = elements := by
        rw [List.map_map]
        refine (List.map_congr_left fun element hmem => ?_).trans (List.map_id _)
        refine element_stringify (h.exact element hmem) ?_
        have hstring := List.all_eq_true.mp hvalid element hmem
        cases element <;> first | rfl | cases hstring
      simp only [TypedSearchAttributeValue.payload, Payload.field, Value.stringify, typedValue, if_true, hmap]
    | _ => cases hvalid

theorem typedFromPayload_payload (h : attr.Proper host) :
    typedFromPayload host (attr.payload host).field = some attr := by
  have hvalid : isValidValueForType attr.type attr.value = true := h.valid
  simp only [typedFromPayload, field_type, typedValue_payload h, if_pos hvalid]

theorem legacyFromPayload_payload (h : attr.Proper host) :
    legacyFromPayload host (attr.payload host).field = attr.value.toArray := by
  have hdates := isDate_of_valid h.valid
  have hvalues : (attr.payload host).field.data.values = attr.value.toArray.map (stringify host) := by
    rcases attr with ⟨type, value⟩
    cases value <;> rfl
  unfold legacyFromPayload
  rw [hvalues, List.map_map, List.map_map]
  by_cases htype : attr.type = .datetime
  · rw [if_pos ((metadataType_datetime_iff attr).mpr htype)]
    refine (List.map_congr_left fun element hmem => ?_).trans (List.map_id _)
    have hdate := (hdates element hmem).mpr htype
    cases element with
    | date time => exact (date_stringify (h.exact _ hmem)).1
    | _ => cases hdate
  · rw [if_neg (mt (metadataType_datetime_iff attr).mp htype)]
    refine (List.map_congr_left fun element hmem => ?_).trans (List.map_id _)
    exact element_stringify (h.exact element hmem) (by simpa using mt (hdates element hmem).mp htype)

/-! ## All attributes -/

section Entries

variable {α : Type}

variable {entries : List (String × α)}

theorem foldl_set_entries : ∀ object : JsObject α,
    (object.entries.map Prod.fst ++ entries.map Prod.fst).Nodup →
      (entries.foldl (fun o e => o.set e.1 e.2) object).entries = object.entries ++ entries := by
  induction entries with
  | nil => exact fun object _ => (List.append_nil _).symm
  | cons e entries ih =>
    intro object hnodup
    have hname : e.1 ∉ object.entries.map Prod.fst := fun hmem =>
      (List.disjoint_of_nodup_append hnodup) hmem List.mem_cons_self
    have hset := set_entries object hname e.2
    rw [List.foldl_cons, ih (object.set e.1 e.2) (by simpa [hset] using hnodup), hset, List.append_assoc]
    rfl

theorem fromEntries_entries (h : (entries.map Prod.fst).Nodup) :
    (fromEntries entries).entries = entries :=
  foldl_set_entries ⟨[], List.nodup_nil⟩ h

theorem mapToPayloads_map {toPayload : α → Except UpsertError Payload} {f : α → Payload}
    (h : ∀ e ∈ entries, toPayload e.2 = .ok (f e.2)) :
    mapToPayloads toPayload entries = .ok (entries.map fun e => (e.1, f e.2)) := by
  induction entries with
  | nil => rfl
  | cons e entries ih =>
    have hfirst := h e List.mem_cons_self
    have hrest := ih fun e' he' => h e' (List.mem_cons_of_mem _ he')
    simp only [mapToPayloads, hfirst, hrest, List.map_cons]

end Entries

section Attributes

variable {attrs : JsObject TypedSearchAttributeValue}

theorem getAll_proper (h : ∀ e ∈ attrs.entries, e.2.Proper host) :
    getAll attrs = attrs.entries.map fun e => ⟨⟨e.1, e.2.type⟩, some e.2.value⟩ := by
  rw [getAll, List.filter_eq_self.mpr fun e he => (h e he).valid]

/-- Every attribute has a payload of its own. -/
theorem encode_proper (h : ∀ e ∈ attrs.entries, e.2.Proper host) :
    ∃ payloads, encodeUnifiedSearchAttributes host none (some (getAll attrs)) = .ok payloads ∧
      payloads.entries = attrs.entries.map fun e => (e.1, e.2.payload host) := by
  let pairs := attrs.entries.map fun e => (e.1, (e.2.type, some e.2.value))
  have hpairs : ((getAll attrs).map fun pair => (pair.key.name, (pair.key.type, pair.value))) = pairs := by
    rw [getAll_proper h, List.map_map]
    rfl
  have hkeys : (pairs.map Prod.fst).Nodup := by
    rw [List.map_map]
    exact attrs.nodup
  have htyped : mapToPayloads (fun attr => typedToPayload host attr.1 attr.2) (fromEntries pairs).entries =
      .ok (attrs.entries.map fun e => (e.1, e.2.payload host)) := by
    rw [fromEntries_entries hkeys]
    rw [mapToPayloads_map (f := fun attr => ⟨some attr.1, (attr.2.getD (.list [])).stringify host⟩)]
    · rw [List.map_map]
      rfl
    · intro e he
      rcases List.mem_map.mp he with ⟨entry, hentry, rfl⟩
      exact typedToPayload_proper (h entry hentry)
  refine ⟨fromEntries (attrs.entries.map fun e => (e.1, e.2.payload host)), ?_, fromEntries_entries ?_⟩
  · simp only [encodeUnifiedSearchAttributes, Option.getD_none, Option.getD_some, mapToPayloads, hpairs, htyped,
      List.nil_append]
  · rw [List.map_map]
    exact attrs.nodup

/-- The payloads as the server returns them. -/
def indexedFields (payloads : JsObject Payload) : JsObject IndexedField where
  entries := payloads.entries.map fun e => (e.1, e.2.field)
  nodup := by
    rw [List.map_map]
    exact payloads.nodup

/-- Typed attributes are decoded as they were, and the legacy record holds all of them but empty lists. -/
theorem typedAttributes_roundTrip (attrs : JsObject TypedSearchAttributeValue)
    (hproper : ∀ e ∈ attrs.entries, e.2.Proper host) (hnames : ∀ e ∈ attrs.entries, e.1 ∉ objectPrototype) :
    ∃ payloads, encodeUnifiedSearchAttributes host none (some (getAll attrs)) = .ok payloads ∧
      (∃ decoded, decodeTypedSearchAttributes host (some (indexedFields payloads)) = .ok decoded ∧
        decoded.entries = attrs.entries) ∧
      decodeSearchAttributes host (some (indexedFields payloads)) =
        (attrs.entries.filter fun e => e.2.value ≠ .list []).map fun e => (e.1, e.2.value.toArray) := by
  rcases encode_proper hproper with ⟨payloads, hencode, hentries⟩
  have hfields : (indexedFields payloads).entries = attrs.entries.map fun e => (e.1, (e.2.payload host).field) := by
    change payloads.entries.map _ = _
    rw [hentries, List.map_map]
    rfl
  have htyped : (indexedFields payloads).filterMap (typedFromPayload host) = attrs.entries := by
    rw [JsObject.filterMap, hfields, List.filterMap_map]
    refine (List.filterMap_congr fun e he => ?_).trans List.filterMap_some
    rw [Function.comp_apply, typedFromPayload_payload (hproper e he)]
    rfl
  have hfree : NamesFree host (indexedFields payloads) := by
    intro e he _
    rw [hfields] at he
    rcases List.mem_map.mp he with ⟨entry, hentry, rfl⟩
    exact hnames entry hentry
  refine ⟨payloads, hencode, ?_, ?_⟩
  · rcases decodeTyped_ok hfree with ⟨decoded, hdecode, hdecoded⟩
    exact ⟨decoded, hdecode, hdecoded.trans htyped⟩
  · rw [decodeSearchAttributes, JsObject.filterMap, hfields, List.filterMap_map, ← List.filterMap_eq_map,
      ← List.filterMap_eq_filter, List.filterMap_filterMap]
    refine List.filterMap_congr fun e he => ?_
    rw [Function.comp_apply, legacyFromPayload_payload (hproper e he), keepNonempty]
    have hempty : e.2.value.toArray = [] ↔ e.2.value = .list [] := by
      cases e.2.value <;> simp [Value.toArray]
    by_cases hnil : e.2.value = .list []
    · simp [hnil, Value.toArray, Option.guard]
    · simp [hnil, mt hempty.mp hnil, Option.guard]

end Attributes

/-- A host that knows one date. -/
def epochHost : Host where
  dateParse s := if s = "1970-01-01T00:00:00.000Z" then some 0 else none
  toISOString _ := "1970-01-01T00:00:00.000Z"

def sampleTyped : JsObject TypedSearchAttributeValue :=
  ⟨[("Started", ⟨.datetime, .scalar (.date (some 0))⟩), ("Tags", ⟨.keywordList, .list [.string "a", .string "b"]⟩)],
    by decide⟩

theorem typedAttributes_roundTrip_sample :
    ∃ payloads, encodeUnifiedSearchAttributes epochHost none (some (getAll sampleTyped)) = .ok payloads ∧
      (∃ decoded, decodeTypedSearchAttributes epochHost (some (indexedFields payloads)) = .ok decoded ∧
        decoded.entries = sampleTyped.entries) ∧
      decodeSearchAttributes epochHost (some (indexedFields payloads)) =
        (sampleTyped.entries.filter fun e => e.2.value ≠ .list []).map fun e => (e.1, e.2.value.toArray) := by
  refine typedAttributes_roundTrip sampleTyped ?_ ?_
  · intro e he
    rcases List.mem_pair.mp he with rfl | rfl
    · exact ⟨by decide, by simp [Value.toArray, Element.Exact, epochHost]⟩
    · exact ⟨by decide, by simp [Value.toArray, Element.Exact]⟩
  · decide

/-- A list without values is not in the legacy record. -/
theorem empty_list_dropped : ¬ ∀ attrs : JsObject TypedSearchAttributeValue,
    (∀ e ∈ attrs.entries, e.2.Proper epochHost) →
      ∃ payloads, encodeUnifiedSearchAttributes epochHost none (some (getAll attrs)) = .ok payloads ∧
        (decodeSearchAttributes epochHost (some (indexedFields payloads))).map Prod.fst =
          attrs.entries.map Prod.fst := by
  intro h
  rcases h ⟨[("Tags", ⟨.keywordList, .list []⟩)], by decide⟩ (by
    intro e he
    rcases List.mem_singleton.mp he with rfl
    exact ⟨by decide, nofun⟩) with ⟨payloads, hencode, hnames⟩
  have hpayloads : Except.ok (fromEntries [("Tags", (⟨some .keywordList, .array []⟩ : Payload))]) =
      (Except.ok payloads : Except UpsertError (JsObject Payload)) := hencode
  cases hpayloads
  exact absurd hnames (by decide)

end TemporalSdk.SearchAttributes
