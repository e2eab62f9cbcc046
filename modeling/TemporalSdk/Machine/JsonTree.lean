import TemporalSdk.Machine.JsObject

/-!
# JsonTree — trees of arrays and objects

The values that JSON texts stand for, over a type of leaves.  `fields` has the properties of an object in the
order in which `Object.keys` lists them; `parse` builds such objects from members in any order.
-/

namespace TemporalSdk.Machine

inductive JsonTree (L : Type) where
  | leaf (value : L)
  | array (items : List (JsonTree L))
  | object (fields : List (String × JsonTree L))

namespace JsonTree

variable {L : Type}

theorem induct {motive : JsonTree L → Prop} (leaf : ∀ value, motive (.leaf value))
    (array : ∀ items, (∀ t ∈ items, motive t) → motive (.array items))
    (object : ∀ fields, (∀ e ∈ fields, motive e.2) → motive (.object fields)) : ∀ t, motive t :=
  JsonTree.rec (motive_1 := motive) (motive_2 := fun items => ∀ t ∈ items, motive t)
    (motive_3 := fun fields => ∀ e ∈ fields, motive e.2) (motive_4 := fun e => motive e.2)
    leaf array object (by simp) (by
      intro t items ht hitems x hx
      rcases List.mem_cons.mp hx with rfl | hx
      · exact ht
      · exact hitems x hx) (by simp) (by
      intro e fields he hfields x hx
      rcases List.mem_cons.mp hx with rfl | hx
      · exact he
      · exact hfields x hx) (fun _ _ h => h)

mutual
/-- Put a tree in the place of every leaf. -/
def bind {M : Type} (f : L → JsonTree M) : JsonTree L → JsonTree M
  | leaf value => f value
  | array items => .array (bindItems f items)
  | object fields => .object (bindFields f fields)

def bindItems {M : Type} (f : L → JsonTree M) : List (JsonTree L) → List (JsonTree M)
  | [] => []
  | t :: items => bind f t :: bindItems f items

def bindFields {M : Type} (f : L → JsonTree M) : List (String × JsonTree L) → List (String × JsonTree M)
  | [] => []
  | (key, t) :: fields => (key, bind f t) :: bindFields f fields
end

section

variable {M : Type} {f : L → JsonTree M}

@[simp] theorem bind_leaf (value : L) : (leaf value).bind f = f value := rfl

theorem bindItems_eq_map (items : List (JsonTree L)) : bindItems f items = items.map (bind f) := by
  induction items with
  | nil => rfl
  | cons t items ih => rw [bindItems, ih, List.map_cons]

theorem bindFields_eq_map (fields : List (String × JsonTree L)) :
    bindFields f fields = fields.map fun e => (e.1, e.2.bind f) := by
  induction fields with
  | nil => rfl
  | cons e fields ih => rw [bindFields, ih, List.map_cons]

@[simp] theorem bind_array (items : List (JsonTree L)) : (array items).bind f = array (items.map (bind f)) := by
  rw [bind, bindItems_eq_map]

@[simp] theorem bind_object (fields : List (String × JsonTree L)) :
    (object fields).bind f = object (fields.map fun e => (e.1, e.2.bind f)) := by
  rw [bind, bindFields_eq_map]

end

theorem bind_bind {M N : Type} (f : L → JsonTree M) (g : M → JsonTree N) (t : JsonTree L) :
    (t.bind f).bind g = t.bind fun value => (f value).bind g := by
  induction t using induct with
  | leaf value => rfl
  | array items ih =>
    simp only [bind_array, List.map_map]
    congr 1
    exact List.map_congr_left ih
  | object fields ih =>
    simp only [bind_object, List.map_map]
    congr 1
    apply List.map_congr_left
    intro e he
    simp [ih e he]

/-- Every leaf of a tree meets `p`. -/
inductive AllLeaves (p : L → Prop) : JsonTree L → Prop where
  | leaf {value : L} (h : p value) : AllLeaves p (leaf value)
  | array {items : List (JsonTree L)} (hitems : ∀ t ∈ items, AllLeaves p t) : AllLeaves p (array items)
  | object {fields : List (String × JsonTree L)} (hfields : ∀ e ∈ fields, AllLeaves p e.2) :
      AllLeaves p (object fields)

theorem allLeaves_leaf_iff {p : L → Prop} {value : L} : AllLeaves p (leaf value) ↔ p value := by
  constructor
  · intro h
    cases h with
    | leaf h => exact h
  · exact AllLeaves.leaf

variable {fields : List (String × JsonTree L)}

theorem allLeaves_object_iff {p : L → Prop} :
    AllLeaves p (object fields) ↔ ∀ e ∈ fields, AllLeaves p e.2 := by
  constructor
  · intro h
    cases h with
    | object hfields => exact hfields
  · exact AllLeaves.object

/-! ## Properties -/

/-- The value of a property of an object. -/
def field (fields : List (String × JsonTree L)) (key : String) : Option (JsonTree L) :=
  (fields.find? fun e => e.1 = key).map Prod.snd

theorem field_map {M : Type} (f : JsonTree L → JsonTree M) (fields : List (String × JsonTree L)) (key : String) :
    field (fields.map fun e => (e.1, f e.2)) key = (field fields key).map f := by
  rw [field, List.find?_map, field]
  cases hfind : fields.find? fun e => e.1 = key with
  | none =>
    have hfind' : fields.find? ((fun e : String × JsonTree M => decide (e.1 = key)) ∘ fun e => (e.1, f e.2)) = none :=
      hfind
    rw [hfind']
    rfl
  | some e =>
    have hfind' : fields.find? ((fun e : String × JsonTree M => decide (e.1 = key)) ∘ fun e => (e.1, f e.2)) = some e :=
      hfind
    rw [hfind']
    rfl

theorem mem_of_field {key : String} {t : JsonTree L}
    (h : field fields key = some t) : (key, t) ∈ fields := by
  rcases Option.map_eq_some_iff.mp h with ⟨e, hfind, rfl⟩
  have hkey : e.1 = key := by simpa using List.find?_some hfind
  rw [← hkey]
  exact List.mem_of_find?_eq_some hfind

theorem field_of_mem (hord : InOrder fields) {e : String × JsonTree L}
    (h : e ∈ fields) : field fields e.1 = some e.2 :=
  (@JsObject.mem_entries_iff _ ⟨fields, hord⟩ e.1 e.2).mp h

/-- `{ ...part, ...part' }` -/
def spread (parts : List (List (String × JsonTree L))) : List (String × JsonTree L) :=
  (JsObject.empty.putAll parts.flatten).entries

/-- Properties that stand in the place of others leave the order of the keys as it is. -/
theorem spread_eq {fields fields' props : List (String × JsonTree L)} (hord : InOrder fields)
    (hord' : InOrder fields') (hkeys : fields'.map Prod.fst = fields.map Prod.fst)
    (hprops : ∀ e ∈ props, field fields e.1 = some e.2)
    (hrest : ∀ e ∈ fields, (∃ x ∈ props, x.1 = e.1) ∨ field fields' e.1 = some e.2) :
    spread [fields', props] = fields := by
  have hobject : JsObject.empty.putAll fields' = ⟨fields', hord'⟩ := JsObject.ext (JsObject.entries_putAll hord')
  have hput : JsObject.empty.putAll [fields', props].flatten = (⟨fields', hord'⟩ : JsObject (JsonTree L)).putAll props := by
    rw [List.flatten_cons, List.flatten_singleton, JsObject.putAll_append, hobject]
  have hkeysPut : ((⟨fields', hord'⟩ : JsObject (JsonTree L)).putAll props).keys = fields.map Prod.fst := by
    rw [JsObject.keys_putAll_of_subset]
    · exact hkeys
    · intro e he
      change e.1 ∈ fields'.map Prod.fst
      rw [hkeys]
      exact List.mem_map_of_mem (mem_of_field (hprops e he))
  have heq : (⟨fields', hord'⟩ : JsObject (JsonTree L)).putAll props = ⟨fields, hord⟩ := by
    apply JsObject.ext_of_keys hkeysPut
    intro key hkey
    rcases List.mem_map.mp hkey with ⟨e, he, rfl⟩
    have hvalue : (⟨fields, hord⟩ : JsObject (JsonTree L)).get? e.1 = some e.2 := field_of_mem hord he
    rw [JsObject.get?_putAll, hvalue]
    cases hfind : props.reverse.find? fun x => x.1 = e.1 with
    | some x =>
      have hkey : x.1 = e.1 := by simpa using List.find?_some hfind
      have hx := hprops x (List.mem_reverse.mp (List.mem_of_find?_eq_some hfind))
      rw [hkey, field_of_mem hord he] at hx
      simp [Option.some.inj hx]
    | none =>
      rcases hrest e he with ⟨x, hx, hxkey⟩ | hfield
      · have hnot := List.find?_eq_none.mp hfind x (List.mem_reverse.mpr hx)
        exact absurd hxkey (by simpa using hnot)
      · exact hfield
  rw [spread, hput, heq]

/-! ## Well-formed trees -/

/-- Every object lists its properties in the order of `Object.keys`. -/
inductive WellFormed : JsonTree L → Prop where
  | leaf (value : L) : WellFormed (leaf value)
  | array {items : List (JsonTree L)} (hitems : ∀ t ∈ items, WellFormed t) : WellFormed (array items)
  | object {fields : List (String × JsonTree L)} (hord : InOrder fields) (hfields : ∀ e ∈ fields, WellFormed e.2) :
      WellFormed (object fields)

theorem inOrder_map {α β : Type} {entries : List (String × α)} (f : α → β) (h : InOrder entries) :
    InOrder (entries.map fun e => (e.1, f e.2)) :=
  List.pairwise_map.mpr h

theorem WellFormed.bind {M : Type} {f : L → JsonTree M} {t : JsonTree L} (h : t.WellFormed)
    (hf : ∀ value, (f value).WellFormed) : (t.bind f).WellFormed := by
  induction h with
  | leaf value => exact hf value
  | array hitems ih =>
    rw [bind_array]
    exact WellFormed.array (List.forall_mem_map.mpr ih)
  | object hord hfields ih =>
    rw [bind_object]
    exact WellFormed.object (inOrder_map _ hord) (List.forall_mem_map.mpr ih)

/-! ## Parsing -/

mutual
/-- The value of a text.  Of several members with one key, the last one counts. -/
def parse : JsonTree L → JsonTree L
  | leaf value => .leaf value
  | array items => .array (parseItems items)
  | object members => .object (JsObject.empty.putAll (parseMembers members)).entries

def parseItems : List (JsonTree L) → List (JsonTree L)
  | [] => []
  | t :: items => parse t :: parseItems items

def parseMembers : List (String × JsonTree L) → List (String × JsonTree L)
  | [] => []
  | (key, t) :: members => (key, parse t) :: parseMembers members
end

theorem parseItems_eq_map (items : List (JsonTree L)) : parseItems items = items.map parse := by
  induction items with
  | nil => rfl
  | cons t items ih => rw [parseItems, ih, List.map_cons]

theorem parseMembers_eq_map (members : List (String × JsonTree L)) :
    parseMembers members = members.map fun e => (e.1, e.2.parse) := by
  induction members with
  | nil => rfl
  | cons e members ih => rw [parseMembers, ih, List.map_cons]

theorem parse_of_wellFormed {t : JsonTree L} (h : t.WellFormed) : t.parse = t := by
  induction h with
  | leaf value => rfl
  | @array items hitems ih =>
    have hmap : ∀ t ∈ items, t.parse = id t := ih
    rw [parse, parseItems_eq_map, List.map_congr_left hmap, List.map_id]
  | @object fields hord hfields ih =>
    have hmembers : parseMembers fields = fields := by
      have hmap : ∀ e ∈ fields, (e.1, e.2.parse) = id e := by
        intro e he
        rw [ih e he]
        rfl
      rw [parseMembers_eq_map, List.map_congr_left hmap, List.map_id]
    rw [parse, hmembers, JsObject.entries_putAll hord]

end JsonTree
end TemporalSdk.Machine
