import Mathlib.Data.List.Forall2

/-!
# SiteTree — visits of the values inside of labelled trees

A tree has a label and a list of fields under keys; a field holds one value, a list of values or a
tree.  A visit transforms the values in order.  Each label derives the context of the values below it
from the context above it, and fields with certain keys are skipped.

* `Visitor.Related` — two trees differ only in values that are visited, each of them related to the
  other one by a relation that reads its context;
* `related_of_visitTree` — a visit whose transforms keep the relation keeps it on trees;
* `visitTree_ok` — a visit whose transforms succeed succeeds;
* `visitTree_inert` — a visit of values that the transforms leave alone leaves the tree alone.
-/

namespace TemporalSdk.Machine

/-! ## Computations with a state and errors -/

section Computations

variable {σ ε α β : Type}

variable {s : σ}

theorem bind_eq_ok {x : StateT σ (Except ε) α} {f : α → StateT σ (Except ε) β} {r : β × σ} :
    (x >>= f) s = .ok r ↔ ∃ a s', x s = .ok (a, s') ∧ f a s' = .ok r := by
  constructor
  · intro h
    cases hx : x s with
    | error e => simp [bind, StateT.bind, Except.bind, hx] at h
    | ok p =>
      rcases p with ⟨a, s'⟩
      refine ⟨a, s', rfl, ?_⟩
      simpa [bind, StateT.bind, Except.bind, hx] using h
  · rintro ⟨a, s', hx, hf⟩
    simpa [bind, StateT.bind, Except.bind, hx] using hf

@[simp] theorem pure_eq_ok {a : α} {r : α × σ} :
    (pure a : StateT σ (Except ε) α) s = .ok r ↔ (a, s) = r :=
  ⟨Except.ok.inj, congrArg Except.ok⟩

@[simp] theorem throw_ne_ok {e : ε} {r : α × σ} :
    (throw e : StateT σ (Except ε) α) s ≠ .ok r :=
  nofun

@[simp] theorem liftM_eq_ok {x : Except ε α} {r : α × σ} :
    (liftM x : StateT σ (Except ε) α) s = .ok r ↔ ∃ a, x = .ok a ∧ (a, s) = r := by
  cases x with
  | error e => simp [liftM, monadLift, MonadLift.monadLift, StateT.lift, bind, Except.bind]
  | ok a => simp [liftM, monadLift, MonadLift.monadLift, StateT.lift, bind, Except.bind, pure, Except.pure]

/-- The computation returns in every state. -/
def Returns (x : StateT σ (Except ε) α) : Prop := ∀ s, ∃ r, x s = .ok r

theorem Returns.pure (a : α) : Returns (Pure.pure a : StateT σ (Except ε) α) :=
  fun s => ⟨(a, s), rfl⟩

theorem Returns.bind {x : StateT σ (Except ε) α} {f : α → StateT σ (Except ε) β}
    (hx : Returns x) (hf : ∀ a s s', x s = .ok (a, s') → Returns (f a)) : Returns (x >>= f) := by
  intro s
  rcases hx s with ⟨⟨a, s'⟩, ha⟩
  rcases hf a s s' ha s' with ⟨r, hr⟩
  exact ⟨r, bind_eq_ok.2 ⟨a, s', ha, hr⟩⟩

theorem Returns.modify (f : σ → σ) : Returns (modify f : StateT σ (Except ε) PUnit) :=
  fun s => ⟨(⟨⟩, f s), rfl⟩

variable {f : β → α → StateT σ (Except ε) β}

theorem Returns.foldlM (hf : ∀ b a, Returns (f b a)) :
    ∀ (as : List α) (b : β), Returns (as.foldlM f b)
  | [], b => Returns.pure b
  | a :: as, b => by
    rw [List.foldlM_cons]
    exact Returns.bind (hf b a) fun b' _ _ _ => Returns.foldlM hf as b'

theorem foldlM_invariant {Inv : List α → β → σ → Prop}
    (hstep : ∀ a as b s b' s', Inv (a :: as) b s → f b a s = .ok (b', s') → Inv as b' s') :
    ∀ {as : List α} {b : β} {s : σ} {b' : β} {s' : σ}, Inv as b s → as.foldlM f b s = .ok (b', s') → Inv [] b' s'
  | [], b, s, b', s', hinv, h => by
    cases pure_eq_ok.1 h
    exact hinv
  | a :: as, b, s, b', s', hinv, h => by
    rw [List.foldlM_cons] at h
    rcases bind_eq_ok.1 h with ⟨b₁, s₁, ha, h⟩
    exact foldlM_invariant hstep (hstep a as b s b₁ s₁ hinv ha) h

theorem foldlM_returns {Inv : List α → β → σ → Prop}
    (hstep : ∀ a as b s b' s', Inv (a :: as) b s → f b a s = .ok (b', s') → Inv as b' s')
    (hreturns : ∀ a as b s, Inv (a :: as) b s → ∃ r, f b a s = .ok r) :
    ∀ {as : List α} {b : β} {s : σ}, Inv as b s → ∃ r, as.foldlM f b s = .ok r
  | [], b, s, _ => ⟨(b, s), rfl⟩
  | a :: as, b, s, hinv => by
    rcases hreturns a as b s hinv with ⟨⟨b₁, s₁⟩, ha⟩
    rcases foldlM_returns hstep hreturns (hstep a as b s b₁ s₁ hinv ha) with ⟨r, hr⟩
    rw [List.foldlM_cons]
    exact ⟨r, bind_eq_ok.2 ⟨b₁, s₁, ha, hr⟩⟩

theorem forall₂_of_mapM {R : α → β → Prop} {f : α → StateT σ (Except ε) β}
    (hf : ∀ a s b s', f a s = .ok (b, s') → R a b) :
    ∀ {as : List α} {s : σ} {bs : List β} {s' : σ}, as.mapM f s = .ok (bs, s') → List.Forall₂ R as bs
  | [], s, bs, s', h => by
    rw [List.mapM_nil, pure_eq_ok] at h
    cases h
    exact .nil
  | a :: as, s, bs, s', h => by
    rw [List.mapM_cons] at h
    rcases bind_eq_ok.1 h with ⟨b, s₁, hb, h⟩
    rcases bind_eq_ok.1 h with ⟨bs₁, s₂, hbs, h⟩
    cases pure_eq_ok.1 h
    exact .cons (hf a s b s₁ hb) (forall₂_of_mapM hf hbs)

theorem mapM_inert {f : α → StateT σ (Except ε) α} :
    ∀ {as : List α}, (∀ a ∈ as, ∀ s, f a s = .ok (a, s)) → as.mapM f s = .ok (as, s)
  | [], _ => rfl
  | a :: as, h => by
    rw [List.mapM_cons]
    refine bind_eq_ok.2 ⟨a, s, h a (by simp) s, bind_eq_ok.2 ⟨as, s, ?_, rfl⟩⟩
    exact mapM_inert fun a' ha' => h a' (List.mem_cons_of_mem a ha')

theorem Returns.mapM {f : α → StateT σ (Except ε) β} :
    ∀ {as : List α}, (∀ a ∈ as, Returns (f a)) → Returns (as.mapM f)
  | [], _ => Returns.pure []
  | a :: as, h => by
    rw [List.mapM_cons]
    refine Returns.bind (h a (by simp)) fun b _ _ _ => ?_
    exact Returns.bind (Returns.mapM fun a' ha' => h a' (by simp [ha'])) fun _ _ _ _ => Returns.pure _

end Computations

/-! ## Trees -/

variable {L K α C σ ε : Type}

mutual

inductive SiteTree (L K α : Type)
  | node (label : L) (fields : SiteFields L K α)

inductive SiteField (L K α : Type)
  | value (a : α)
  | values (as : List α)
  | child (t : SiteTree L K α)

inductive SiteFields (L K α : Type)
  | nil
  | cons (key : K) (field : SiteField L K α) (rest : SiteFields L K α)

end

def SiteTree.label : SiteTree L K α → L
  | .node label _ => label

/-- What a visit does at the labels, keys and values of a tree. -/
structure Visitor (L K α C σ ε : Type) where
  derive : L → C → C
  skips : K → Bool
  one : C → α → StateT σ (Except ε) α
  many : C → List α → StateT σ (Except ε) (List α)

namespace Visitor

mutual

def visitTree (v : Visitor L K α C σ ε) (c : C) :
    SiteTree L K α → StateT σ (Except ε) (SiteTree L K α)
  | .node label fields => do
    let fields ← v.visitFields (v.derive label c) fields
    pure (.node label fields)

def visitField (v : Visitor L K α C σ ε) (c : C) :
    SiteField L K α → StateT σ (Except ε) (SiteField L K α)
  | .value a => do
    let a ← v.one c a
    pure (.value a)
  -- An empty list has no values to transform.
  | .values [] => pure (.values [])
  | .values (a :: as) => do
    let as ← v.many c (a :: as)
    pure (.values as)
  | .child t => do
    let t ← v.visitTree c t
    pure (.child t)

def visitFields (v : Visitor L K α C σ ε) (c : C) :
    SiteFields L K α → StateT σ (Except ε) (SiteFields L K α)
  | .nil => pure .nil
  | .cons key field rest => do
    let field ← (if v.skips key then pure field else v.visitField c field)
    let rest ← v.visitFields c rest
    pure (.cons key field rest)

end

/-! ## What a visit keeps -/

section Related

variable (v : Visitor L K α C σ ε) (R : C → α → α → Prop)

mutual

inductive Related : C → SiteTree L K α → SiteTree L K α → Prop
  | node {c : C} {label : L} {fields fields' : SiteFields L K α} :
      RelatedFields (v.derive label c) fields fields' → Related c (.node label fields) (.node label fields')

inductive RelatedField : C → SiteField L K α → SiteField L K α → Prop
  | value {c : C} {a a' : α} : R c a a' → RelatedField c (.value a) (.value a')
  | values {c : C} {as as' : List α} : List.Forall₂ (R c) as as' → RelatedField c (.values as) (.values as')
  | child {c : C} {t t' : SiteTree L K α} : Related c t t' → RelatedField c (.child t) (.child t')

inductive RelatedFields : C → SiteFields L K α → SiteFields L K α → Prop
  | nil {c : C} : RelatedFields c .nil .nil
  | skipped {c : C} {key : K} {field : SiteField L K α} {rest rest' : SiteFields L K α} :
      v.skips key = true → RelatedFields c rest rest' → RelatedFields c (.cons key field rest) (.cons key field rest')
  | visited {c : C} {key : K} {field field' : SiteField L K α} {rest rest' : SiteFields L K α} :
      v.skips key = false → RelatedField c field field' → RelatedFields c rest rest' →
        RelatedFields c (.cons key field rest) (.cons key field' rest')

end

variable {v R}

mutual

theorem related_of_visitTree (hone : ∀ c a s a' s', v.one c a s = .ok (a', s') → R c a a')
    (hmany : ∀ c as s as' s', v.many c as s = .ok (as', s') → List.Forall₂ (R c) as as') :
    ∀ {t : SiteTree L K α} {c : C} {s : σ} {t' : SiteTree L K α} {s' : σ},
      v.visitTree c t s = .ok (t', s') → Related v R c t t'
  | .node label fields, c, s, t', s', h => by
    rw [visitTree] at h
    rcases bind_eq_ok.1 h with ⟨fields', s₁, hfields, h⟩
    cases pure_eq_ok.1 h
    exact .node (related_of_visitFields hone hmany hfields)

theorem related_of_visitField (hone : ∀ c a s a' s', v.one c a s = .ok (a', s') → R c a a')
    (hmany : ∀ c as s as' s', v.many c as s = .ok (as', s') → List.Forall₂ (R c) as as') :
    ∀ {field : SiteField L K α} {c : C} {s : σ} {field' : SiteField L K α} {s' : σ},
      v.visitField c field s = .ok (field', s') → RelatedField v R c field field'
  | .value a, c, s, field', s', h => by
    rw [visitField] at h
    rcases bind_eq_ok.1 h with ⟨a', s₁, ha, h⟩
    cases pure_eq_ok.1 h
    exact .value (hone c a s a' _ ha)
  | .values [], c, s, field', s', h => by
    rw [visitField] at h
    cases pure_eq_ok.1 h
    exact .values .nil
  | .values (a :: as), c, s, field', s', h => by
    rw [visitField] at h
    rcases bind_eq_ok.1 h with ⟨as', s₁, has, h⟩
    cases pure_eq_ok.1 h
    exact .values (hmany c (a :: as) s as' _ has)
  | .child t, c, s, field', s', h => by
    rw [visitField] at h
    rcases bind_eq_ok.1 h with ⟨t', s₁, ht, h⟩
    cases pure_eq_ok.1 h
    exact .child (related_of_visitTree hone hmany ht)

theorem related_of_visitFields (hone : ∀ c a s a' s', v.one c a s = .ok (a', s') → R c a a')
    (hmany : ∀ c as s as' s', v.many c as s = .ok (as', s') → List.Forall₂ (R c) as as') :
    ∀ {fields : SiteFields L K α} {c : C} {s : σ} {fields' : SiteFields L K α} {s' : σ},
      v.visitFields c fields s = .ok (fields', s') → RelatedFields v R c fields fields'
  | .nil, c, s, fields', s', h => by
    rw [visitFields] at h
    cases pure_eq_ok.1 h
    exact .nil
  | .cons key field rest, c, s, fields', s', h => by
    rw [visitFields] at h
    rcases bind_eq_ok.1 h with ⟨field', s₁, hfield, h⟩
    rcases bind_eq_ok.1 h with ⟨rest', s₂, hrest, h⟩
    cases pure_eq_ok.1 h
    have hrest' := related_of_visitFields hone hmany hrest
    cases hskip : v.skips key with
    | true =>
      rw [hskip, if_pos rfl] at hfield
      cases pure_eq_ok.1 hfield
      exact .skipped hskip hrest'
    | false =>
      rw [hskip, if_neg Bool.false_ne_true] at hfield
      exact .visited hskip (related_of_visitField hone hmany hfield) hrest'

end

end Related

section Returns

variable {v : Visitor L K α C σ ε}

mutual

theorem visitTree_returns (hone : ∀ c a, Returns (v.one c a)) (hmany : ∀ c as, Returns (v.many c as)) :
    ∀ (t : SiteTree L K α) (c : C), Returns (v.visitTree c t)
  | .node label fields, c => by
    rw [visitTree]
    exact Returns.bind (visitFields_returns hone hmany fields _) fun _ _ _ _ => Returns.pure _

theorem visitField_returns (hone : ∀ c a, Returns (v.one c a)) (hmany : ∀ c as, Returns (v.many c as)) :
    ∀ (field : SiteField L K α) (c : C), Returns (v.visitField c field)
  | .value a, c => by
    rw [visitField]
    exact Returns.bind (hone c a) fun _ _ _ _ => Returns.pure _
  | .values [], c => by
    rw [visitField]
    exact Returns.pure _
  | .values (a :: as), c => by
    rw [visitField]
    exact Returns.bind (hmany c (a :: as)) fun _ _ _ _ => Returns.pure _
  | .child t, c => by
    rw [visitField]
    exact Returns.bind (visitTree_returns hone hmany t c) fun _ _ _ _ => Returns.pure _

theorem visitFields_returns (hone : ∀ c a, Returns (v.one c a)) (hmany : ∀ c as, Returns (v.many c as)) :
    ∀ (fields : SiteFields L K α) (c : C), Returns (v.visitFields c fields)
  | .nil, c => by
    rw [visitFields]
    exact Returns.pure _
  | .cons key field rest, c => by
    rw [visitFields]
    refine Returns.bind ?_ fun _ _ _ _ =>
      Returns.bind (visitFields_returns hone hmany rest c) fun _ _ _ _ => Returns.pure _
    cases v.skips key with
    | true => exact Returns.pure field
    | false => exact visitField_returns hone hmany field c

end

end Returns

/-! ## Visits of values that stay as they are -/

section Every

variable (v : Visitor L K α C σ ε) (P : C → α → Prop)

mutual

/-- Every value that is visited satisfies `P` in its context. -/
def Every : C → SiteTree L K α → Prop
  | c, .node label fields => EveryFields (v.derive label c) fields

def EveryField : C → SiteField L K α → Prop
  | c, .value a => P c a
  | c, .values as => ∀ a ∈ as, P c a
  | c, .child t => Every c t

def EveryFields : C → SiteFields L K α → Prop
  | _, .nil => True
  | c, .cons key field rest => (v.skips key = false → EveryField c field) ∧ EveryFields c rest

end

variable {v P}

mutual

theorem visitTree_inert (hone : ∀ c a s, P c a → v.one c a s = .ok (a, s))
    (hmany : ∀ c as s, (∀ a ∈ as, P c a) → v.many c as s = .ok (as, s)) :
    ∀ {t : SiteTree L K α} {c : C} (s : σ), Every v P c t → v.visitTree c t s = .ok (t, s)
  | .node label fields, c, s, h => by
    rw [visitTree]
    rw [Every] at h
    exact bind_eq_ok.2 ⟨fields, s, visitFields_inert hone hmany s h, rfl⟩

theorem visitField_inert (hone : ∀ c a s, P c a → v.one c a s = .ok (a, s))
    (hmany : ∀ c as s, (∀ a ∈ as, P c a) → v.many c as s = .ok (as, s)) :
    ∀ {field : SiteField L K α} {c : C} (s : σ), EveryField v P c field →
      v.visitField c field s = .ok (field, s)
  | .value a, c, s, h => by
    rw [visitField]
    rw [EveryField] at h
    exact bind_eq_ok.2 ⟨a, s, hone c a s h, rfl⟩
  | .values [], c, s, _ => by
    rw [visitField]
    rfl
  | .values (a :: as), c, s, h => by
    rw [visitField]
    rw [EveryField] at h
    exact bind_eq_ok.2 ⟨a :: as, s, hmany c (a :: as) s h, rfl⟩
  | .child t, c, s, h => by
    rw [visitField]
    rw [EveryField] at h
    exact bind_eq_ok.2 ⟨t, s, visitTree_inert hone hmany s h, rfl⟩

theorem visitFields_inert (hone : ∀ c a s, P c a → v.one c a s = .ok (a, s))
    (hmany : ∀ c as s, (∀ a ∈ as, P c a) → v.many c as s = .ok (as, s)) :
    ∀ {fields : SiteFields L K α} {c : C} (s : σ), EveryFields v P c fields →
      v.visitFields c fields s = .ok (fields, s)
  | .nil, c, s, _ => by
    rw [visitFields]
    rfl
  | .cons key field rest, c, s, h => by
    rw [EveryFields] at h
    rw [visitFields]
    refine bind_eq_ok.2 ⟨field, s, ?_, bind_eq_ok.2 ⟨rest, s, visitFields_inert hone hmany s h.2, rfl⟩⟩
    cases hskip : v.skips key with
    | true => rfl
    | false => exact visitField_inert hone hmany s (h.1 hskip)

end

end Every

end Visitor
end TemporalSdk.Machine
