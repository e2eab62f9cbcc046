import TemporalSdk.Machine.Search
import TemporalSdk.Machine.SiteWrites

/-!
# The generated payload walkers

`packages/proto/scripts/gen-payload-visitor.ts` reads the protobuf types, marks those that can hold a
payload, and generates a walker for each of them.  A message here is a tree with a node for every
message in it: a field is listed once for every value or message it holds, in the order in which the
walker comes to it.
-/

namespace TemporalSdk.Visits

open Machine

inductive Cardinality where
  | singular
  | repeated
  | map
  deriving DecidableEq

/-- A field of a message type, with the type of the message it points to if it does. -/
structure Field (T : Type) where
  name : String
  cardinality : Cardinality
  message : Option T
  deriving DecidableEq

/-- The protobuf types, with the ones declared under the scanned namespaces as candidates. -/
structure Root (T : Type) where
  PAYLOAD : T
  ANY : T
  fieldsArray : T → List (Field T)
  candidates : List T
  declared : List T
  mem_declared : ∀ t, t ∈ declared
  opaque_any : ∀ field ∈ fieldsArray ANY, field.message = none
  payload_not_candidate : PAYLOAD ∉ candidates

namespace Root

variable {T : Type} [DecidableEq T] (root : Root T)

/-! ## The types that can hold a payload -/

def messages (t : T) : List T := (root.fieldsArray t).filterMap Field.message

def isTerminal (t : T) : Bool := t = root.PAYLOAD || t = root.ANY

/-- `reachableTypes` -/
def types : List T :=
  root.candidates.foldl (discover root.messages root.isTerminal root.declared.length) []

/-- Every reachable type with a field of the given type, once for each such field. -/
def referrers (target : T) : List T :=
  root.types.flatMap fun t =>
    (root.fieldsArray t).filterMap fun field => if field.message = some target then some t else none

def reachesPayload : List T :=
  saturate root.referrers (root.declared.length + 1) [root.PAYLOAD] []

def hasPayload (t : T) : Bool := t = root.PAYLOAD || root.reachesPayload.contains t

theorem left_le_length (vertices marked : List T) : left vertices marked ≤ vertices.length :=
  List.length_filter_le _ _

theorem types_spec : Extends root.messages root.isTerminal [] root.types ∧
    ∀ t ∈ root.candidates, root.isTerminal t = false → t ∈ root.types :=
  foldl_discover (fun found a => discover_spec root.mem_declared root.declared.length found a)
    root.candidates [] (left_le_length _ _)

theorem mem_types_of_message {t u : T} (ht : t ∈ root.types) (hu : u ∈ root.messages t)
    (hterminal : root.isTerminal u = false) : u ∈ root.types :=
  root.types_spec.1.closed t ht List.not_mem_nil u hu hterminal

theorem reachesPayload_closed : Closing root.referrers root.PAYLOAD [] root.reachesPayload := by
  refine saturate_closed root.mem_declared _ _ _ ?_ fun t ht => ?_
  · have := left_le_length root.declared ([] : List T)
    simp only [List.length_singleton]
    omega
  · rcases ht with rfl | ht
    · exact .inl (by simp)
    · cases ht

theorem hasPayload_of_field {t u : T} {field : Field T} (ht : t ∈ root.types)
    (hfield : field ∈ root.fieldsArray t) (hmessage : field.message = some u)
    (hu : root.hasPayload u = true) : root.hasPayload t = true := by
  have hreferrer : t ∈ root.referrers u :=
    List.mem_flatMap.2 ⟨t, ht, List.mem_filterMap.2 ⟨field, hfield, by simp [hmessage]⟩⟩
  have hmarked : u = root.PAYLOAD ∨ u ∈ root.reachesPayload := by
    simpa [hasPayload] using hu
  rcases root.reachesPayload_closed u hmarked with h | h
  · cases h
  · simp [hasPayload, h t hreferrer]

end Root

/-! ## Messages and walkers -/

/-- A message of type `T` with its other fields `S` at every node and payloads `P`. -/
abbrev Message (T S P : Type) := SiteTree (T × S) (Field T) P

variable {T S P C : Type}

section Typed

variable (root : Root T)

mutual

def WellTyped : Message T S P → Prop
  | .node (t, _) fields => WellTypedFields t fields

def WellTypedField (field : Field T) : SiteField (T × S) (Field T) P → Prop
  | .value _ => field.message = some root.PAYLOAD ∧ field.cardinality ≠ .repeated
  | .values _ => field.message = some root.PAYLOAD ∧ field.cardinality = .repeated
  | .child m => field.message = some m.label.1 ∧ m.label.1 ≠ root.PAYLOAD ∧ WellTyped m

def WellTypedFields (t : T) : SiteFields (T × S) (Field T) P → Prop
  | .nil => True
  | .cons field content rest =>
    field ∈ root.fieldsArray t ∧ WellTypedField field content ∧ WellTypedFields t rest

end

theorem message_ne_none {root : Root T} {field : Field T} {content : SiteField (T × S) (Field T) P}
    (h : WellTypedField root field content) : field.message ≠ none := by
  cases content with
  | value | values | child => simp [h.1]

end Typed

/-- What a walk needs of the options of a visit; the context may depend on the whole message. -/
structure WalkEnv (T S P C : Type) where
  deriveContext : Option (Message T S P → T → C → C)
  skipHeaders : Bool
  skipSearchAttributes : Bool

namespace WalkEnv

variable (env : WalkEnv T S P C)

def derive (message : Message T S P) (c : C) : C :=
  match env.deriveContext with
  | none => c
  | some deriveContext => deriveContext message message.label.1 c

/-- Whether the options leave out what is in the field. -/
def skips (field : Field T) : Bool :=
  (env.skipHeaders && (field.name == "headers" || field.name == "header")) ||
    (env.skipSearchAttributes && field.name == "searchAttributes")

end WalkEnv

variable [DecidableEq T] (root : Root T) (env : WalkEnv T S P C)

/-- `emitField` generates nothing for a field that reaches no payload. -/
def emitsField (field : Field T) : Bool :=
  match field.message with
  | none => false
  | some t => root.hasPayload t

/-- The walker of a type, as the sites at which it calls a transform. -/
def walk (c : C) (message : Message T S P) : List (Site C P) :=
  sitesTree env.derive (fun field => !emitsField root field || env.skips field) c message

/-! ## Coverage -/

section Coverage

variable {root env}

mutual

theorem emits_of_locateTree {path : List Turn} {l : Located (T × S) (Field T) P} :
    ∀ {m : Message T S P}, WellTyped root m → m.label.1 ∈ root.types ∨ m.label.1 = root.ANY →
      locateTree path m = some l →
        root.hasPayload m.label.1 = true ∧ ∀ field ∈ l.keys, emitsField root field = true
  | .node (t, s) fields, htyped, ht, hlocate => by
    rw [locateTree, Option.map_eq_some_iff] at hlocate
    obtain ⟨l', hl', rfl⟩ := hlocate
    rw [WellTyped] at htyped
    obtain ⟨hholds, hkeys⟩ := emits_of_locateFields htyped ht hl'
    exact ⟨hholds, hkeys⟩

theorem emits_of_locateField {path : List Turn} {l : Located (T × S) (Field T) P} {t : T}
    {field : Field T} : ∀ {content : SiteField (T × S) (Field T) P},
      WellTypedField root field content → t ∈ root.types → field ∈ root.fieldsArray t →
      locateField path content = some l →
        emitsField root field = true ∧ ∀ field' ∈ l.keys, emitsField root field' = true
  | .value p, htyped, ht, hfield, hlocate => by
    rw [WellTypedField] at htyped
    have hl : l.keys = [] := by
      by_cases hpath : path = [] <;> simp [locateField, hpath] at hlocate
      simp [← hlocate]
    simp [emitsField, htyped.1, Root.hasPayload, hl]
  | .values ps, htyped, ht, hfield, hlocate => by
    rw [WellTypedField] at htyped
    have hl : l.keys = [] := by
      by_cases hpath : path = [] <;> simp [locateField, hpath] at hlocate
      simp [← hlocate]
    simp [emitsField, htyped.1, Root.hasPayload, hl]
  | .child m, htyped, ht, hfield, hlocate => by
    rw [WellTypedField] at htyped
    rw [locateField] at hlocate
    have hmessage : m.label.1 ∈ root.messages t := List.mem_filterMap.2 ⟨field, hfield, htyped.1⟩
    have hreach : m.label.1 ∈ root.types ∨ m.label.1 = root.ANY := by
      by_cases hany : m.label.1 = root.ANY
      · exact .inr hany
      · refine .inl (root.mem_types_of_message ht hmessage ?_)
        simp [Root.isTerminal, htyped.2.1, hany]
    obtain ⟨hholds, hkeys⟩ := emits_of_locateTree htyped.2.2 hreach hlocate
    exact ⟨by simp [emitsField, htyped.1, hholds], hkeys⟩

theorem emits_of_locateFields {path : List Turn} {l : Located (T × S) (Field T) P} {t : T} :
    ∀ {fields : SiteFields (T × S) (Field T) P}, WellTypedFields root t fields →
      t ∈ root.types ∨ t = root.ANY → locateFields path fields = some l →
        root.hasPayload t = true ∧ ∀ field ∈ l.keys, emitsField root field = true
  | .nil, _, _, hlocate => by
    rw [locateFields] at hlocate
    cases hlocate
  | .cons field content rest, htyped, ht, hlocate => by
    rw [WellTypedFields] at htyped
    obtain ⟨hfield, hcontent, hrest⟩ := htyped
    cases path with
    | nil =>
      rw [locateFields] at hlocate
      cases hlocate
    | cons turn path =>
      cases turn with
      | past =>
        rw [locateFields] at hlocate
        exact emits_of_locateFields hrest ht hlocate
      | here =>
        rw [locateFields, Option.map_eq_some_iff] at hlocate
        obtain ⟨l', hl', rfl⟩ := hlocate
        -- an opaque message has no field that points to a message
        have htypes : t ∈ root.types := by
          rcases ht with ht | rfl
          · exact ht
          · exact absurd (root.opaque_any field hfield) (message_ne_none hcontent)
        obtain ⟨hemits, hkeys⟩ := emits_of_locateField hcontent htypes hfield hl'
        obtain ⟨u, hu⟩ := Option.ne_none_iff_exists'.1 (message_ne_none hcontent)
        have hholds : root.hasPayload u = true := by simpa [emitsField, hu] using hemits
        refine ⟨root.hasPayload_of_field htypes hfield hu hholds, ?_⟩
        exact List.forall_mem_cons.2 ⟨hemits, hkeys⟩

end

/-- The sites are at different places, and they are all the places that hold payloads and are not in a
field that the options leave out, in the context that the messages on the way give. -/
structure Covers (env : WalkEnv T S P C) (c : C) (message : Message T S P)
    (sites : List (Site C P)) : Prop where
  distinct : (sites.map Site.path).Nodup
  mem_iff : ∀ site, site ∈ sites ↔
    IsSite env.derive env.skips c (locateTree site.path message) site

theorem mem_types_or_any {t : T} (ht : t ∈ root.candidates) : t ∈ root.types ∨ t = root.ANY := by
  by_cases hany : t = root.ANY
  · exact .inr hany
  · refine .inl (root.types_spec.2 t ht ?_)
    have hne : t ≠ root.PAYLOAD := fun h => root.payload_not_candidate (h ▸ ht)
    simp [Root.isTerminal, hany, hne]

theorem walk_covers {message : Message T S P} (htyped : WellTyped root message)
    (hcandidate : message.label.1 ∈ root.candidates) (c : C) :
    Covers env c message (walk root env c message) := by
  refine ⟨nodup_sitesTree _ _ message c, fun site => ?_⟩
  rw [walk, mem_sitesTree]
  constructor
  · rintro ⟨l, hl, hinput, hne, hkeys, hcontext⟩
    refine ⟨l, hl, hinput, hne, fun field hfield => ?_, hcontext⟩
    have hskip := hkeys field hfield
    simp only [Bool.or_eq_false_iff] at hskip
    exact hskip.2
  · rintro ⟨l, hl, hinput, hne, hkeys, hcontext⟩
    have hemits := emits_of_locateTree htyped (mem_types_or_any hcandidate) hl
    refine ⟨l, hl, hinput, hne, fun field hfield => ?_, hcontext⟩
    simp [hemits.2 field hfield, hkeys field hfield]

end Coverage

end TemporalSdk.Visits
