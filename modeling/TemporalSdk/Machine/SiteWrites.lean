import TemporalSdk.Machine.SiteTree
import Mathlib.Data.List.Nodup

/-!
# SiteWrites — the values of a tree by their place

The values that a visit of a `SiteTree` meets, each with its place in the tree and the context it is
met in, and what writing to a place does.

* `sitesTree` — the sites of a tree in order, fields with certain keys left out;
* `locateTree` — what stands at a place, with the trees and the keys on the way to it;
* `mem_sitesTree` — the sites are the places that hold something, none of whose keys is left out, and
  the context of a site folds over the trees on the way;
* `fillTree results` — the tree with results put in their places; `writeTree_fillTree` says that a
  write is one more result, whatever the order.
-/

namespace TemporalSdk.Machine

variable {L K α C : Type}

/-- What one field holds: a value, or a list of values. -/
inductive SiteValue (α : Type) where
  | one (a : α)
  | many (as : List α)
  deriving DecidableEq

def SiteValue.sameKind : SiteValue α → SiteValue α → Bool
  | .one _, .one _ => true
  | .many _, .many _ => true
  | _, _ => false

/-- A step on the way to a place: into the first field, or past it. -/
inductive Turn where
  | here
  | past
  deriving DecidableEq

structure Site (C α : Type) where
  path : List Turn
  context : C
  input : SiteValue α
  deriving DecidableEq

def Site.under (turn : Turn) (site : Site C α) : Site C α := { site with path := turn :: site.path }

/-! ## Sites -/

section Sites

variable (derive : SiteTree L K α → C → C) (skips : K → Bool)

mutual

def sitesTree (c : C) : SiteTree L K α → List (Site C α)
  | .node label fields => sitesFields (derive (.node label fields) c) fields

def sitesField (c : C) : SiteField L K α → List (Site C α)
  | .value a => [⟨[], c, .one a⟩]
  | .values [] => []
  | .values (a :: as) => [⟨[], c, .many (a :: as)⟩]
  | .child t => sitesTree c t

def sitesFields (c : C) : SiteFields L K α → List (Site C α)
  | .nil => []
  | .cons key field rest =>
    (if skips key then [] else (sitesField c field).map (Site.under .here)) ++
      (sitesFields c rest).map (Site.under .past)

end

end Sites

/-- What stands at a place, with the trees and the keys on the way to it. -/
structure Located (L K α : Type) where
  trees : List (SiteTree L K α)
  keys : List K
  value : SiteValue α

mutual

def locateTree (path : List Turn) : SiteTree L K α → Option (Located L K α)
  | .node label fields =>
    (locateFields path fields).map fun l => { l with trees := .node label fields :: l.trees }

def locateField (path : List Turn) : SiteField L K α → Option (Located L K α)
  | .value a => if path = [] then some ⟨[], [], .one a⟩ else none
  | .values as => if path = [] then some ⟨[], [], .many as⟩ else none
  | .child t => locateTree path t

def locateFields (path : List Turn) : SiteFields L K α → Option (Located L K α)
  | .nil => none
  | .cons key field rest =>
    match path with
    | [] => none
    | .here :: path => (locateField path field).map fun l => { l with keys := key :: l.keys }
    | .past :: path => locateFields path rest

end

section Membership

variable {derive : SiteTree L K α → C → C} {skips : K → Bool}

/-- The site is a place that holds something, with no key on the way left out, in the context that
the trees on the way give. -/
def IsSite (derive : SiteTree L K α → C → C) (skips : K → Bool) (c : C)
    (located : Option (Located L K α)) (site : Site C α) : Prop :=
  ∃ l, located = some l ∧ site.input = l.value ∧ l.value ≠ .many [] ∧
    (∀ key ∈ l.keys, skips key = false) ∧ site.context = l.trees.foldl (fun c t => derive t c) c

theorem mem_map_under {turn turn' : Turn} {path : List Turn} {c : C} {v : SiteValue α}
    {sites : List (Site C α)} :
    (⟨turn' :: path, c, v⟩ : Site C α) ∈ sites.map (Site.under turn) ↔
      turn' = turn ∧ ⟨path, c, v⟩ ∈ sites := by
  rw [List.mem_map]
  constructor
  · rintro ⟨⟨path', c', v'⟩, hmem, heq⟩
    cases heq
    exact ⟨rfl, hmem⟩
  · rintro ⟨rfl, hmem⟩
    exact ⟨_, hmem, rfl⟩

theorem nil_not_mem_sitesFields {c context : C} {v : SiteValue α} {fields : SiteFields L K α} :
    (⟨[], context, v⟩ : Site C α) ∉ sitesFields derive skips c fields := by
  cases fields with
  | nil => simp [sitesFields]
  | cons key field rest => cases skips key <;> simp [sitesFields, Site.under]

theorem mem_sitesFields_here {path : List Turn} {c context : C} {v : SiteValue α} {key : K}
    {field : SiteField L K α} {rest : SiteFields L K α} :
    (⟨.here :: path, context, v⟩ : Site C α) ∈ sitesFields derive skips c (.cons key field rest) ↔
      skips key = false ∧ ⟨path, context, v⟩ ∈ sitesField derive skips c field := by
  rw [sitesFields, List.mem_append, mem_map_under]
  cases hskip : skips key with
  | true => simp
  | false => simp [mem_map_under]

theorem mem_sitesFields_past {path : List Turn} {c context : C} {v : SiteValue α} {key : K}
    {field : SiteField L K α} {rest : SiteFields L K α} :
    (⟨.past :: path, context, v⟩ : Site C α) ∈ sitesFields derive skips c (.cons key field rest) ↔
      ⟨path, context, v⟩ ∈ sitesFields derive skips c rest := by
  rw [sitesFields, List.mem_append, mem_map_under]
  cases hskip : skips key with
  | true => simp
  | false => simp [mem_map_under]

theorem isSite_none {c : C} {site : Site C α} :
    ¬ IsSite derive skips c (none : Option (Located L K α)) site := by
  rintro ⟨l, h, -⟩
  cases h

mutual

theorem mem_sitesTree {site : Site C α} : ∀ {t : SiteTree L K α} {c : C},
    site ∈ sitesTree derive skips c t ↔ IsSite derive skips c (locateTree site.path t) site
  | .node label fields, c => by
    rw [sitesTree, locateTree, mem_sitesFields]
    cases hlocate : locateFields site.path fields with
    | none => simp [isSite_none]
    | some l => simp [IsSite]

theorem mem_sitesField {site : Site C α} : ∀ {field : SiteField L K α} {c : C},
    site ∈ sitesField derive skips c field ↔ IsSite derive skips c (locateField site.path field) site
  | .value a, c => by
    rcases site with ⟨path, context, input⟩
    cases path with
    | nil => simp [sitesField, locateField, IsSite, and_comm]
    | cons turn path => simp [sitesField, locateField, isSite_none]
  | .values [], c => by
    rcases site with ⟨path, context, input⟩
    cases path with
    | nil => simp [sitesField, locateField, IsSite]
    | cons turn path => simp [sitesField, locateField, isSite_none]
  | .values (a :: as), c => by
    rcases site with ⟨path, context, input⟩
    cases path with
    | nil => simp [sitesField, locateField, IsSite, and_comm]
    | cons turn path => simp [sitesField, locateField, isSite_none]
  | .child t, c => by
    rw [sitesField, locateField]
    exact mem_sitesTree

theorem mem_sitesFields {site : Site C α} : ∀ {fields : SiteFields L K α} {c : C},
    site ∈ sitesFields derive skips c fields ↔
      IsSite derive skips c (locateFields site.path fields) site
  | .nil, c => by simp [sitesFields, locateFields, isSite_none]
  | .cons key field rest, c => by
    rcases site with ⟨path, context, input⟩
    cases path with
    | nil =>
      rw [locateFields]
      exact iff_of_false nil_not_mem_sitesFields isSite_none
    | cons turn path =>
      cases turn with
      | here =>
        rw [mem_sitesFields_here, mem_sitesField, locateFields]
        cases hlocate : locateField path field with
        | none => simp [isSite_none]
        | some l =>
          simp only [IsSite, Option.map_some, Option.some.injEq, exists_eq_left',
            List.forall_mem_cons]
          tauto
      | past =>
        rw [mem_sitesFields_past, mem_sitesFields, locateFields]
        rfl

end

end Membership

/-! ## Places are distinct -/

section Distinct

variable (derive : SiteTree L K α → C → C) (skips : K → Bool)

theorem paths_under (turn : Turn) (sites : List (Site C α)) :
    (sites.map (Site.under turn)).map Site.path = (sites.map Site.path).map (turn :: ·) := by
  simp [List.map_map, Function.comp_def, Site.under]

theorem nodup_under (turn : Turn) {paths : List (List Turn)} (h : paths.Nodup) :
    (paths.map (turn :: ·)).Nodup :=
  h.map fun _ _ heq => (List.cons.inj heq).2

mutual

theorem nodup_sitesTree : ∀ (t : SiteTree L K α) (c : C),
    ((sitesTree derive skips c t).map Site.path).Nodup
  | .node label fields, c => by
    rw [sitesTree]
    exact nodup_sitesFields fields _

theorem nodup_sitesField : ∀ (field : SiteField L K α) (c : C),
    ((sitesField derive skips c field).map Site.path).Nodup
  | .value a, c => by simp [sitesField]
  | .values [], c => by simp [sitesField]
  | .values (a :: as), c => by simp [sitesField]
  | .child t, c => by
    rw [sitesField]
    exact nodup_sitesTree t c

theorem nodup_sitesFields : ∀ (fields : SiteFields L K α) (c : C),
    ((sitesFields derive skips c fields).map Site.path).Nodup
  | .nil, c => by simp [sitesFields]
  | .cons key field rest, c => by
    have hrest := nodup_under .past (nodup_sitesFields rest c)
    rw [sitesFields, List.map_append, paths_under]
    cases skips key with
    | true => simpa using hrest
    | false =>
      have hfield := nodup_under .here (nodup_sitesField field c)
      rw [if_neg Bool.false_ne_true, paths_under]
      refine List.nodup_append.2 ⟨hfield, hrest, ?_⟩
      intro path hhere path' hpast heq
      subst heq
      obtain ⟨p, -, rfl⟩ := List.mem_map.1 hhere
      obtain ⟨q, -, hq⟩ := List.mem_map.1 hpast
      cases hq

end

end Distinct

/-! ## Writes -/

mutual

def writeTree (path : List Turn) (v : SiteValue α) : SiteTree L K α → SiteTree L K α
  | .node label fields => .node label (writeFields path v fields)

def writeField (path : List Turn) (v : SiteValue α) : SiteField L K α → SiteField L K α
  | .value a =>
    match path, v with
    | [], .one a' => .value a'
    | _, _ => .value a
  | .values as =>
    match path, v with
    | [], .many as' => .values as'
    | _, _ => .values as
  | .child t => .child (writeTree path v t)

def writeFields (path : List Turn) (v : SiteValue α) : SiteFields L K α → SiteFields L K α
  | .nil => .nil
  | .cons key field rest =>
    match path with
    | [] => .cons key field rest
    | .here :: path => .cons key (writeField path v field) rest
    | .past :: path => .cons key field (writeFields path v rest)

end

mutual

/-- The tree with the results in their places; what has no result stays as it is. -/
def fillTree (results : List Turn → Option (SiteValue α)) : SiteTree L K α → SiteTree L K α
  | .node label fields => .node label (fillFields results fields)

def fillField (results : List Turn → Option (SiteValue α)) : SiteField L K α → SiteField L K α
  | .value a =>
    match results [] with
    | some (.one a') => .value a'
    | _ => .value a
  | .values as =>
    match results [] with
    | some (.many as') => .values as'
    | _ => .values as
  | .child t => .child (fillTree results t)

def fillFields (results : List Turn → Option (SiteValue α)) : SiteFields L K α → SiteFields L K α
  | .nil => .nil
  | .cons key field rest =>
    .cons key (fillField (fun path => results (.here :: path)) field)
      (fillFields (fun path => results (.past :: path)) rest)

end

mutual

theorem fillTree_none : ∀ t : SiteTree L K α, fillTree (fun _ => none) t = t
  | .node label fields => by rw [fillTree, fillFields_none]

theorem fillField_none : ∀ field : SiteField L K α, fillField (fun _ => none) field = field
  | .value a => by rw [fillField]
  | .values as => by rw [fillField]
  | .child t => by rw [fillField, fillTree_none]

theorem fillFields_none : ∀ fields : SiteFields L K α, fillFields (fun _ => none) fields = fields
  | .nil => by rw [fillFields]
  | .cons key field rest => by rw [fillFields, fillField_none, fillFields_none]

end

theorem update_below (results : List Turn → Option (SiteValue α)) (turn turn' : Turn)
    (path : List Turn) (v : SiteValue α) :
    (fun p => Function.update results (turn :: path) (some v) (turn' :: p)) =
      if turn' = turn then Function.update (fun p => results (turn' :: p)) path (some v)
      else fun p => results (turn' :: p) := by
  funext p
  by_cases hturn : turn' = turn
  · subst hturn
    by_cases hp : p = path
    · simp [hp]
    · simp [Function.update_of_ne, hp]
  · simp [Function.update_of_ne, hturn]

mutual

theorem writeTree_fillTree {v : SiteValue α} :
    ∀ {t : SiteTree L K α} {results : List Turn → Option (SiteValue α)} {path : List Turn},
      results path = none →
        writeTree path v (fillTree results t) = fillTree (Function.update results path (some v)) t
  | .node label fields, results, path, h => by
    rw [fillTree, writeTree, fillTree, writeFields_fillFields h]

theorem writeField_fillField {v : SiteValue α} :
    ∀ {field : SiteField L K α} {results : List Turn → Option (SiteValue α)} {path : List Turn},
      results path = none →
        writeField path v (fillField results field) =
          fillField (Function.update results path (some v)) field
  | .value a, results, path, h => by
    cases path with
    | nil =>
      rw [fillField, h, fillField, Function.update_self]
      cases v <;> rfl
    | cons turn path =>
      rw [fillField, fillField, Function.update_of_ne (by simp)]
      split <;> rfl
  | .values as, results, path, h => by
    cases path with
    | nil =>
      rw [fillField, h, fillField, Function.update_self]
      cases v <;> rfl
    | cons turn path =>
      rw [fillField, fillField, Function.update_of_ne (by simp)]
      split <;> rfl
  | .child t, results, path, h => by
    rw [fillField, writeField, fillField, writeTree_fillTree h]

theorem writeFields_fillFields {v : SiteValue α} :
    ∀ {fields : SiteFields L K α} {results : List Turn → Option (SiteValue α)} {path : List Turn},
      results path = none →
        writeFields path v (fillFields results fields) =
          fillFields (Function.update results path (some v)) fields
  | .nil, results, path, h => by rw [fillFields, writeFields, fillFields]
  | .cons key field rest, results, path, h => by
    rw [fillFields, fillFields]
    cases path with
    | nil => simp [writeFields, Function.update_of_ne]
    | cons turn path =>
      rw [update_below, update_below]
      cases turn with
      | here =>
        have hfield : writeField path v (fillField (fun p => results (.here :: p)) field) =
            fillField (Function.update (fun p => results (.here :: p)) path (some v)) field :=
          writeField_fillField h
        rw [writeFields, hfield, if_pos rfl, if_neg (by simp)]
      | past =>
        have hrest : writeFields path v (fillFields (fun p => results (.past :: p)) rest) =
            fillFields (Function.update (fun p => results (.past :: p)) path (some v)) rest :=
          writeFields_fillFields h
        rw [writeFields, hrest, if_neg (by simp), if_pos rfl]

end

end TemporalSdk.Machine
