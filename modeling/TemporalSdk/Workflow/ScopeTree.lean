import Mathlib.Algebra.GroupWithZero.Nat
import TemporalSdk.Machine.Changed
import TemporalSdk.Machine.Run
import TemporalSdk.Workflow.Closure

/-!
# ScopeTree — how far a cancellation request travels

A cancellation request reaches a scope in two ways: the constructor copies the flag of the parent, and
the rejection of the parent's `cancelRequested` promise is handed on in a microtask.  Non-cancellable
scopes take part in neither, as long as the shielding flag is on.

`ScopeTree` keeps of an activator what the two ways are about: the scopes, the scopes that wait for the
promise of their parent, and those whose microtask is queued.  Once none is queued, the scopes with a
request are those that can be reached from a cancelled scope through cancellable ones.
-/

namespace TemporalSdk.Workflow

open Machine

/-! ## Trees -/

structure ScopeTree where
  scopes : List Scope
  -- `(p, c)`: the scope `c` has chained on the promise of its parent `p`.
  waiting : List (ScopeId × ScopeId)
  -- The scopes that are about to be rejected, in the order of their microtasks.
  queued : List ScopeId

namespace ScopeTree

/-- `parent.cancelRequested.catch((err) => this.reject(err))`. -/
def watch (t : ScopeTree) (parent child : ScopeId) : ScopeTree :=
  match t.scopes[parent]? with
  | some p =>
    if p.rejected then { t with queued := t.queued ++ [child] }
    else { t with waiting := t.waiting ++ [(parent, child)] }
  | none => t

/-- `CancellationScope.reject`. -/
def reject (t : ScopeTree) (s : ScopeId) : ScopeTree :=
  match t.scopes[s]? with
  | some scope =>
    if scope.rejected then
      { t with scopes := t.scopes.set s { scope with cancelRequested := true } }
    else
      { scopes := t.scopes.set s { scope with cancelRequested := true, rejected := true }
        waiting := t.waiting.filter fun r => r.1 != s
        queued := t.queued ++ (t.waiting.filter fun r => r.1 == s).map Prod.snd }
  | none => t

/-- The constructor, with the shielding flag on. -/
def grow (t : ScopeTree) (parent : ScopeId) (cancellable : Bool) : ScopeTree :=
  match t.scopes[parent]? with
  | some p =>
    if p.cancellable then
      let scope : Scope := ⟨cancellable, some parent, p.cancelRequested, false⟩
      { t with scopes := t.scopes ++ [scope] }.watch parent t.scopes.length
    else
      let scope : Scope := ⟨cancellable, some parent, false, false⟩
      { t with scopes := t.scopes ++ [scope] }
  | none => t

/-- The oldest microtask runs. -/
def deliver (t : ScopeTree) : ScopeTree :=
  match t.queued with
  | [] => t
  | child :: rest => { t with queued := rest }.reject child

end ScopeTree

/-- A request made on `a` reaches `s`: `a` is `s`, or an ancestor of it such that `a` and every scope
strictly between the two is cancellable. -/
inductive Reaches (scopes : List Scope) (a : ScopeId) : ScopeId → Prop
  | self : Reaches scopes a a
  | child {p s : ScopeId} {parent scope : Scope} : Reaches scopes a p → scopes[p]? = some parent →
      parent.cancellable = true → scopes[s]? = some scope → scope.parent = some p → Reaches scopes a s

/-- Scopes keep what `Reaches` looks at. -/
def Keeps (scopes scopes' : List Scope) : Prop :=
  ∀ (i : ScopeId) (scope : Scope), scopes[i]? = some scope →
    ∃ scope' : Scope, scopes'[i]? = some scope' ∧ scope'.cancellable = scope.cancellable ∧ scope'.parent = scope.parent

theorem Reaches.mono {scopes scopes' : List Scope} {a s : ScopeId} (h : Reaches scopes a s)
    (hk : Keeps scopes scopes') : Reaches scopes' a s := by
  induction h with
  | self => exact .self
  | child _ hp hcancellable hs hparent ih =>
    rcases hk _ _ hp with ⟨parent', hp', hsame, _⟩
    rcases hk _ _ hs with ⟨scope', hs', _, hsame'⟩
    exact .child ih hp' (hsame.trans hcancellable) hs' (hsame'.trans hparent)

/-! ## The invariant -/

/-- What holds of a tree after `cancel` has been called on the scopes `called`. -/
structure Consistent (called : List ScopeId) (t : ScopeTree) : Prop where
  parents : ∀ (s : ScopeId) (scope : Scope) p, t.scopes[s]? = some scope →
    scope.parent = some p → p < t.scopes.length
  flagged : ∀ (s : ScopeId) (scope : Scope), t.scopes[s]? = some scope → scope.rejected = true →
    scope.cancelRequested = true
  -- Requests come from a call.
  sound : ∀ (s : ScopeId) (scope : Scope), t.scopes[s]? = some scope → scope.cancelRequested = true →
    ∃ a ∈ called, Reaches t.scopes a s
  queued : ∀ c ∈ t.queued, ∃ a ∈ called, Reaches t.scopes a c
  waiting : ∀ p c, (p, c) ∈ t.waiting → ∃ parent scope, t.scopes[p]? = some parent ∧
    parent.cancellable = true ∧ parent.rejected = false ∧ t.scopes[c]? = some scope ∧
      scope.parent = some p
  -- Calls have an effect, and it is handed on.
  called : ∀ a ∈ called, ∃ scope, t.scopes[a]? = some scope ∧ scope.rejected = true
  linked : ∀ p c parent scope, t.scopes[c]? = some scope → scope.parent = some p →
    t.scopes[p]? = some parent → parent.cancellable = true →
      (parent.rejected = true → scope.rejected = true ∨ c ∈ t.queued) ∧
      (parent.rejected = false → (p, c) ∈ t.waiting)

namespace ScopeTree

variable {t : ScopeTree} {s : ScopeId} {called : List ScopeId}

def requested (scope : Scope) : Scope := { scope with cancelRequested := true, rejected := true }

variable {scope : Scope}

theorem reject_of_rejected (hs : t.scopes[s]? = some scope)
    (hr : scope.rejected = true) : t.reject s = { t with scopes := t.scopes.set s (requested scope) } := by
  unfold reject
  rw [hs]
  simp only [hr, if_true, requested]

theorem reject_of_open (hs : t.scopes[s]? = some scope) (hr : scope.rejected = false) : t.reject s =
      { scopes := t.scopes.set s (requested scope)
        waiting := t.waiting.filter fun r => r.1 != s
        queued := t.queued ++ (t.waiting.filter fun r => r.1 == s).map Prod.snd } := by
  unfold reject
  rw [hs]
  simp only [hr, Bool.false_eq_true, if_false, requested]

theorem changed_reject (hs : t.scopes[s]? = some scope) :
    Changed t.scopes s (requested scope) (t.reject s).scopes := by
  cases hr : scope.rejected with
  | true =>
    rw [reject_of_rejected hs hr]
    exact Changed.set hs _
  | false =>
    rw [reject_of_open hs hr]
    exact Changed.set hs _

theorem keeps_reject (hs : t.scopes[s]? = some scope) :
    Keeps t.scopes (t.reject s).scopes := by
  intro i scope' hi
  refine (changed_reject hs).exists_of_exists (fun _ c hc hkept => ?_) ⟨scope', hi, rfl, rfl⟩
  cases hs.symm.trans hc
  exact hkept

/-- A rejected scope has nobody waiting for it. -/
def Closed (t : ScopeTree) : Prop :=
  ∀ p c parent, (p, c) ∈ t.waiting → t.scopes[p]? = some parent → parent.rejected = false

theorem mem_queued_reject (h : t.Closed) (hs : t.scopes[s]? = some scope)
    (c : ScopeId) : c ∈ (t.reject s).queued ↔ c ∈ t.queued ∨ (s, c) ∈ t.waiting := by
  cases hr : scope.rejected with
  | true =>
    rw [reject_of_rejected hs hr]
    refine ⟨Or.inl, ?_⟩
    rintro (hin | hin)
    · exact hin
    · have hopen := h s c scope hin hs
      rw [hr] at hopen
      cases hopen
  | false =>
    rw [reject_of_open hs hr]
    simp

theorem mem_waiting_reject (h : t.Closed) (hs : t.scopes[s]? = some scope)
    (p c : ScopeId) : (p, c) ∈ (t.reject s).waiting ↔ (p, c) ∈ t.waiting ∧ p ≠ s := by
  cases hr : scope.rejected with
  | true =>
    rw [reject_of_rejected hs hr]
    refine ⟨fun hin => ⟨hin, ?_⟩, fun hin => hin.1⟩
    intro heq
    have hopen := h p c scope hin (heq ▸ hs)
    rw [hr] at hopen
    cases hopen
  | false =>
    rw [reject_of_open hs hr]
    simp

end ScopeTree

namespace Consistent

open ScopeTree

variable {called called' : List ScopeId} {t : ScopeTree} {s : ScopeId}

theorem closed (h : Consistent called t) : t.Closed := by
  intro p c parent hin hp
  rcases h.waiting p c hin with ⟨parent', _, hp', _, hopen, _⟩
  rw [hp] at hp'
  cases hp'
  exact hopen

/-- A call, or the microtask of `s`: then `s` is not queued any more. -/
theorem reject {q : List ScopeId} (h : Consistent called { t with queued := q })
    (hqueued : ∀ c, c ∈ t.queued → c ∈ q) (hleft : ∀ c, c ∈ q → c = s ∨ c ∈ t.queued)
    {scope : Scope} (hs : t.scopes[s]? = some scope) (hcalled : ∀ a ∈ called, a ∈ called')
    (hnew : ∀ a ∈ called', a ∈ called ∨ a = s) (hreach : ∃ a ∈ called', Reaches t.scopes a s) :
    Consistent called' (t.reject s) := by
  have hclosed : t.Closed := h.closed
  have hkeeps := keeps_reject hs
  have hchanged := changed_reject hs
  -- What the scopes of the new tree were before.
  have hold : ∀ (i : ScopeId) (new : Scope), (t.reject s).scopes[i]? = some new →
      ∃ old, t.scopes[i]? = some old ∧ new.parent = old.parent ∧
        new.cancellable = old.cancellable ∧ (i = s ∧ new = requested scope ∨ i ≠ s ∧ new = old) := by
    intro i new hi
    rcases hchanged.cases hi with ⟨rfl, rfl⟩ | ⟨his, hi⟩
    · exact ⟨scope, hs, rfl, rfl, Or.inl ⟨rfl, rfl⟩⟩
    · exact ⟨new, hi, rfl, rfl, Or.inr ⟨his, rfl⟩⟩
  have hup : ∀ c, (∃ a ∈ called, Reaches t.scopes a c) →
      ∃ a ∈ called', Reaches (t.reject s).scopes a c := by
    rintro c ⟨a, ha, hreach⟩
    exact ⟨a, hcalled a ha, hreach.mono hkeeps⟩
  refine ⟨?_, ?_, ?_, ?_, ?_, ?_, ?_⟩
  · intro i new p hi hparent
    rcases hold i new hi with ⟨old, hi', hsame, _⟩
    exact Nat.lt_of_not_le fun hle => Nat.not_lt.2 (hchanged.length_le hle).2 (h.parents i old p hi' (hsame ▸ hparent))
  · intro i new hi hrejected
    rcases hchanged.cases hi with ⟨_, rfl⟩ | ⟨_, hi⟩
    · rfl
    · exact h.flagged i new hi hrejected
  · intro i new hi hflag
    rcases hchanged.cases hi with ⟨rfl, _⟩ | ⟨_, hi⟩
    · rcases hreach with ⟨a, ha, hreach⟩
      exact ⟨a, ha, hreach.mono hkeeps⟩
    · exact hup i (h.sound i new hi hflag)
  · intro c hc
    rcases (mem_queued_reject hclosed hs c).1 hc with hc | hc
    · exact hup c (h.queued c (hqueued c hc))
    · -- `c` waited for `s`, which is cancellable.
      rcases h.waiting s c hc with ⟨parent, old, hp, hcancellable, _, hc', hparent⟩
      rcases hreach with ⟨a, ha, hreach⟩
      exact ⟨a, ha, (Reaches.child hreach hp hcancellable hc' hparent).mono hkeeps⟩
  · intro p c hin
    rcases (mem_waiting_reject hclosed hs p c).1 hin with ⟨hin, hne⟩
    rcases h.waiting p c hin with ⟨parent, old, hp, hcancellable, hopen, hc, hparent⟩
    rcases hkeeps c old hc with ⟨new, hc', _, hsame⟩
    exact ⟨parent, new, (hchanged.other p hne).trans hp, hcancellable, hopen, hc', hsame.trans hparent⟩
  · intro a ha
    rcases hnew a ha with ha | rfl
    · exact hchanged.exists_of_exists (fun _ _ _ _ => rfl) (h.called a ha)
    · exact ⟨_, hchanged.self, rfl⟩
  · intro p c parent new hc hparent hp hcancellable
    rcases hold c new hc with ⟨old, hc', hsame, _, hnew⟩
    rcases hold p parent hp with ⟨oldParent, hp', _, hsame', hnew'⟩
    rcases h.linked p c oldParent old hc' (hsame ▸ hparent) hp' (hsame' ▸ hcancellable) with
      ⟨hdone, hwaits⟩
    refine ⟨?_, ?_⟩
    · intro hrejected
      rcases hnew with ⟨_, rfl⟩ | ⟨hne, rfl⟩
      · exact Or.inl rfl
      · rw [mem_queued_reject hclosed hs]
        cases hopen : oldParent.rejected with
        | true =>
          rcases hdone hopen with hdone | hin
          · exact Or.inl hdone
          · rcases hleft c hin with heq | hin
            · exact absurd heq hne
            · exact Or.inr (Or.inl hin)
        | false =>
          rcases hnew' with ⟨heq, _⟩ | ⟨_, heq⟩
          · exact Or.inr (Or.inr (heq ▸ hwaits hopen))
          · rw [heq, hopen] at hrejected
            cases hrejected
    · intro hopen
      rcases hnew' with ⟨_, rfl⟩ | ⟨hne, rfl⟩
      · cases hopen
      · exact (mem_waiting_reject hclosed hs p c).2 ⟨hwaits hopen, hne⟩

theorem cancel (h : Consistent called t) {scope : Scope} (hs : t.scopes[s]? = some scope) :
    Consistent (called ++ [s]) (t.reject s) := by
  refine Consistent.reject (q := t.queued) h (fun _ hc => hc) (fun _ hc => Or.inr hc) hs ?_ ?_ ?_
  · intro a ha
    simp [ha]
  · intro a ha
    simpa using ha
  · exact ⟨s, by simp, .self⟩

theorem exists_of_reaches (h : Consistent called t) {a c : ScopeId} (ha : a ∈ called)
    (hreach : Reaches t.scopes a c) : ∃ scope, t.scopes[c]? = some scope := by
  cases hreach with
  | self =>
    rcases h.called a ha with ⟨scope, hs, _⟩
    exact ⟨scope, hs⟩
  | child _ _ _ hs _ => exact ⟨_, hs⟩

theorem deliver (h : Consistent called t) : Consistent called t.deliver := by
  unfold ScopeTree.deliver
  cases hq : t.queued with
  | nil => exact h
  | cons child rest =>
    have hall : Consistent called { t with queued := child :: rest } := by
      rw [← hq]
      exact h
    rcases h.queued child (by simp [hq]) with ⟨a, ha, hreach⟩
    rcases h.exists_of_reaches ha hreach with ⟨scope, hs⟩
    refine Consistent.reject (q := child :: rest) hall ?_ ?_ hs (fun _ hc => hc)
      (fun _ hc => Or.inl hc) ⟨a, ha, hreach⟩
    · intro c hc
      exact List.mem_cons_of_mem child hc
    · intro c hc
      exact List.mem_cons.1 hc

/-- The scope that a constructor adds. -/
def born (cancellable : Bool) (parent : ScopeId) (p : Scope) : Scope :=
  ⟨cancellable, some parent, p.cancellable && p.cancelRequested, false⟩

theorem grow_spec {parent : ScopeId} {p : Scope} (hp : t.scopes[parent]? = some p)
    (cancellable : Bool) :
    (t.grow parent cancellable).scopes = t.scopes ++ [born cancellable parent p] ∧
    (∀ c, c ∈ (t.grow parent cancellable).queued ↔
      c ∈ t.queued ∨ p.cancellable = true ∧ p.rejected = true ∧ c = t.scopes.length) ∧
    ∀ r, r ∈ (t.grow parent cancellable).waiting ↔
      r ∈ t.waiting ∨ p.cancellable = true ∧ p.rejected = false ∧ r = (parent, t.scopes.length) := by
  have hlt : parent < t.scopes.length := (List.getElem?_eq_some_iff.1 hp).1
  have hkept : ∀ scope : Scope, (t.scopes ++ [scope])[parent]? = some p := by
    intro scope
    rw [List.getElem?_append_left hlt, hp]
  unfold grow watch
  rw [hp]
  cases hc : p.cancellable with
  | false => simp [born, hc]
  | true =>
    simp only [hkept]
    cases hr : p.rejected with
    | true | false => simp [born, hc]

theorem grow (h : Consistent called t) (parent : ScopeId) (cancellable : Bool) :
    Consistent called (t.grow parent cancellable) := by
  cases hp : t.scopes[parent]? with
  | none =>
    have hsame : t.grow parent cancellable = t := by simp [ScopeTree.grow, hp]
    rw [hsame]
    exact h
  | some p =>
    rcases grow_spec hp cancellable with ⟨hscopes, hqueued, hwaiting⟩
    have hlt : parent < t.scopes.length := (List.getElem?_eq_some_iff.1 hp).1
    have hchanged : Changed t.scopes t.scopes.length (born cancellable parent p) (t.grow parent cancellable).scopes := by
      rw [hscopes]
      exact Changed.concat t.scopes _
    have hkeep : ∀ (i : ScopeId) (scope : Scope), t.scopes[i]? = some scope →
        (t.grow parent cancellable).scopes[i]? = some scope := fun i scope hi =>
      (hchanged.other i (Nat.ne_of_lt (List.getElem?_eq_some_iff.1 hi).1)).trans hi
    have hkeeps : Keeps t.scopes (t.grow parent cancellable).scopes := fun i scope hi =>
      ⟨scope, hkeep i scope hi, rfl, rfl⟩
    have hup : ∀ c, (∃ a ∈ called, Reaches t.scopes a c) →
        ∃ a ∈ called, Reaches (t.grow parent cancellable).scopes a c := by
      rintro c ⟨a, ha, hreach⟩
      exact ⟨a, ha, hreach.mono hkeeps⟩
    have hdown : p.cancellable = true → p.cancelRequested = true →
        ∃ a ∈ called, Reaches (t.grow parent cancellable).scopes a t.scopes.length := by
      intro hcancellable hflag
      rcases hup parent (h.sound parent p hp hflag) with ⟨a, ha, hreach⟩
      exact ⟨a, ha, .child hreach (hkeep parent p hp) hcancellable hchanged.self rfl⟩
    refine ⟨?_, ?_, ?_, ?_, ?_, ?_, ?_⟩
    · intro i new q hi hparent
      rw [hscopes, List.length_append]
      rcases hchanged.cases hi with ⟨_, rfl⟩ | ⟨_, hold⟩
      · injection hparent with heq
        exact heq ▸ Nat.lt_add_right _ hlt
      · exact Nat.lt_add_right _ (h.parents i new q hold hparent)
    · intro i new hi hrejected
      rcases hchanged.cases hi with ⟨_, rfl⟩ | ⟨_, hold⟩
      · cases hrejected
      · exact h.flagged i new hold hrejected
    · intro i new hi hflag
      rcases hchanged.cases hi with ⟨rfl, rfl⟩ | ⟨_, hold⟩
      · rcases Bool.and_eq_true_iff.1 hflag with ⟨hcancellable, hflag⟩
        exact hdown hcancellable hflag
      · exact hup i (h.sound i new hold hflag)
    · intro c hc
      rcases (hqueued c).1 hc with hc | ⟨hcancellable, hrejected, rfl⟩
      · exact hup c (h.queued c hc)
      · exact hdown hcancellable (h.flagged parent p hp hrejected)
    · intro q c hin
      rcases (hwaiting (q, c)).1 hin with hin | ⟨hcancellable, hopen, heq⟩
      · rcases h.waiting q c hin with ⟨par, scope, hq, hcancellable, hopen, hc, hparent⟩
        exact ⟨par, scope, hkeep q par hq, hcancellable, hopen, hkeep c scope hc, hparent⟩
      · cases heq
        exact ⟨p, _, hkeep parent p hp, hcancellable, hopen, hchanged.self, rfl⟩
    · intro a ha
      rcases h.called a ha with ⟨scope, hs, hrejected⟩
      exact ⟨scope, hkeep a scope hs, hrejected⟩
    · intro q c par scope hc hparent hq hcancellable
      rcases hchanged.cases hc with ⟨rfl, rfl⟩ | ⟨_, hold⟩
      · injection hparent with heq
        subst heq
        cases hq.symm.trans (hkeep parent p hp)
        refine ⟨fun hrejected => ?_, fun hopen => ?_⟩
        · exact Or.inr ((hqueued _).2 (Or.inr ⟨hcancellable, hrejected, rfl⟩))
        · exact (hwaiting _).2 (Or.inr ⟨hcancellable, hopen, rfl⟩)
      · have hql := Nat.ne_of_lt (h.parents c scope q hold hparent)
        rw [hchanged.other q hql] at hq
        rcases h.linked q c par scope hold hparent hq hcancellable with ⟨hdone, hwaits⟩
        refine ⟨fun hrejected => ?_, fun hopen => (hwaiting _).2 (Or.inl (hwaits hopen))⟩
        rcases hdone hrejected with hdone | hin
        · exact Or.inl hdone
        · exact Or.inr ((hqueued c).2 (Or.inl hin))

theorem rejected_of_reaches (h : Consistent called t) (hdrained : t.queued = []) {a : ScopeId}
    (ha : a ∈ called) (hreach : Reaches t.scopes a s) :
    ∃ scope, t.scopes[s]? = some scope ∧ scope.rejected = true := by
  induction hreach with
  | self => exact h.called a ha
  | child _ hp hcancellable hs hparent ih =>
    rcases ih with ⟨parent, hp', hrejected⟩
    rw [hp] at hp'
    cases hp'
    rcases (h.linked _ _ _ _ hs hparent hp hcancellable).1 hrejected with hdone | hin
    · exact ⟨_, hs, hdone⟩
    · rw [hdrained] at hin
      cases hin

theorem requested_iff (h : Consistent called t) (hdrained : t.queued = []) {scope : Scope}
    (hs : t.scopes[s]? = some scope) :
    scope.cancelRequested = true ↔ ∃ a ∈ called, Reaches t.scopes a s := by
  refine ⟨h.sound s scope hs, ?_⟩
  rintro ⟨a, ha, hreach⟩
  rcases h.rejected_of_reaches hdrained ha hreach with ⟨scope', hs', hrejected⟩
  rw [hs] at hs'
  cases hs'
  exact h.flagged s scope hs hrejected

end Consistent

/-! ## The tree of an activator -/

/-- The scope that a microtask rejects. -/
def Microtask.target : Microtask → Option ScopeId
  | .propagate child => some child
  | _ => none

namespace Activator

def tree (a : Activator) : ScopeTree :=
  { scopes := a.scopes
    waiting := a.reactions.filterMap fun r => r.2.target.map fun child => (r.1, child)
    queued := a.microtasks.filterMap Microtask.target }

/-- Nothing that concerns the scopes differs. -/
structure SameTree (a b : Activator) : Prop where
  tree : b.tree = a.tree
  shielded : b.shielded = a.shielded

theorem SameTree.refl (a : Activator) : SameTree a a := ⟨rfl, rfl⟩

theorem SameTree.trans {a b c : Activator} (h : SameTree a b) (h' : SameTree b c) : SameTree a c :=
  ⟨h'.tree.trans h.tree, h'.shielded.trans h.shielded⟩

theorem sameTree_enqueue (a : Activator) {m : Microtask} (hm : m.target = none) :
    SameTree a (a.enqueue m) := by
  refine ⟨?_, rfl⟩
  simp [tree, enqueue, List.filterMap_append, hm]

theorem sameTree_catchCancel (a : Activator) (s : ScopeId) {m : Microtask} (hm : m.target = none) :
    SameTree a (a.catchCancel s m) := by
  unfold catchCancel
  split
  · split
    · exact sameTree_enqueue a hm
    · refine ⟨?_, rfl⟩
      simp [tree, List.filterMap_append, hm]
  · exact .refl a

theorem sameTree_settle (a : Activator) (k : CompletionKind) (s : Seq) (w : Awaiter)
    (o : Settlement) : SameTree a (a.settle k s w o) := by
  unfold settle
  have hlog : SameTree a (a.log (.settled k s o)) := ⟨rfl, rfl⟩
  split <;> first
    | exact hlog.trans (sameTree_enqueue _ rfl)
    | exact hlog

theorem sameTree_scheduleIn (a : Activator) (scope : ScopeId) (listener : CancelKind)
    (kind : CompletionKind) (seq : Seq) (w : Awaiter) (command : Except JsError Command) :
    SameTree a (a.scheduleIn scope listener kind seq w command) := by
  unfold scheduleIn
  cases a.scopes[scope]? with
  | none => exact .refl a
  | some s =>
    simp only
    split
    · exact sameTree_catchCancel a scope rfl
    · have hlisten : SameTree a (if s.cancellable = true then
          a.catchCancel scope (.cancelListener listener seq) else a) := by
        split
        · exact sameTree_catchCancel a scope rfl
        · exact .refl a
      split
      · exact hlisten.trans (sameTree_settle _ _ _ _ _)
      · exact hlisten.trans ⟨rfl, rfl⟩

theorem callClosed_sameTree : CallClosed SameTree where
  refl := SameTree.refl
  trans := SameTree.trans
  deleteCompletion := fun _ _ _ _ => ⟨rfl, rfl⟩
  setCompletion := fun _ _ _ _ _ => ⟨rfl, rfl⟩
  settle := fun a k s w o _ => sameTree_settle a k s w o
  note := fun _ _ _ => ⟨rfl, rfl⟩
  bumpSeq := fun _ _ => ⟨rfl, rfl⟩
  catchExternal := fun a s => sameTree_catchCancel a s rfl
  scheduleIn := fun a scope listener kind w command _ =>
    SameTree.trans (b := a.bumpSeq listener.seqKind) ⟨rfl, rfl⟩
      (sameTree_scheduleIn (a.bumpSeq listener.seqKind) scope listener kind _ w command)
  pushFresh := fun _ _ _ _ _ _ _ => ⟨rfl, rfl⟩

theorem tree_rejectScope (a : Activator) (s : ScopeId) :
    (a.rejectScope s).tree = a.tree.reject s := by
  unfold rejectScope ScopeTree.reject
  have hscopes : a.tree.scopes = a.scopes := rfl
  rw [hscopes]
  cases a.scopes[s]? with
  | none => rfl
  | some scope =>
    simp only
    split
    · rfl
    · simp only [tree, ScopeTree.mk.injEq, true_and]
      refine ⟨?_, ?_⟩
      · rw [List.filter_filterMap, List.filterMap_filter]
        refine List.filterMap_congr ?_
        intro r _
        cases hm : r.2.target with
        | none => simp
        | some child =>
          by_cases hs : r.1 = s <;> simp [hs, Option.filter]
      · rw [List.filterMap_append, List.filterMap_map, List.filter_filterMap, List.map_filterMap,
          List.filterMap_filter]
        refine congrArg (List.append _) (List.filterMap_congr ?_)
        intro r _
        cases hm : r.2.target with
        | none => simp [hm]
        | some child =>
          by_cases hs : r.1 = s
          · simp [hs, hm, Option.filter]
          · simp [hs, Option.filter]

theorem tree_newScope {a : Activator} (hshielded : a.shielded = true) (parent : ScopeId)
    (cancellable : Bool) : (a.newScope parent cancellable).tree = a.tree.grow parent cancellable := by
  unfold newScope ScopeTree.grow
  have hscopes : a.tree.scopes = a.scopes := rfl
  rw [hscopes, hshielded]
  cases hp : a.scopes[parent]? with
  | none => rfl
  | some p =>
    have hlt : parent < a.scopes.length := (List.getElem?_eq_some_iff.1 hp).1
    have hkept : ∀ scope : Scope, (a.scopes ++ [scope])[parent]? = some p := by
      intro scope
      rw [List.getElem?_append_left hlt, hp]
    simp only [Bool.not_true, Bool.and_false, Bool.or_false]
    cases hc : p.cancellable with
    | true =>
      simp only [if_true, catchCancel, ScopeTree.watch, hkept]
      cases hr : p.rejected with
      | true => simp [tree, enqueue, Microtask.target]
      | false => simp [tree, Microtask.target]
    | false =>
      simp only [Bool.false_eq_true, if_false]
      exact (sameTree_catchCancel _ parent rfl).tree

/-! ## Steps -/

theorem sameTree_runCancelListener (a : Activator) (kind : CancelKind) (seq : Seq) :
    SameTree a (a.runCancelListener kind seq) := by
  unfold runCancelListener
  cases kind with
  | timer =>
    cases a.completions .timer seq with
    | none => exact .refl a
    | some w =>
      refine SameTree.trans (b := (a.deleteCompletion .timer seq).pushCommand (.cancelTimer seq))
        ⟨rfl, rfl⟩ (sameTree_settle _ _ _ _ _)
  | _ =>
    simp only
    split
    · exact ⟨rfl, rfl⟩
    · exact .refl a

/-- Microtasks other than the propagation of a request do not concern the scopes. -/
theorem sameTree_runMicrotask {a : Activator} (hshielded : a.shielded = true) {m : Microtask}
    (hm : m.target = none) : SameTree a (a.runMicrotask m) := by
  cases m with
  | propagate child => cases hm
  | propagateUnlessShielded child =>
    simp only [runMicrotask, hshielded, if_true]
    exact .refl a
  | cancelListener kind seq => exact sameTree_runCancelListener a kind seq
  | rejectOperation kind seq w => exact sameTree_settle a _ _ _ _
  | childStartRejected seq e =>
    exact sameTree_settle a .childWorkflowComplete seq .program (.rejected e)
  | externalCancelRejected =>
    simp only [runMicrotask]
    split
    · exact ⟨rfl, rfl⟩
    · exact .refl a
  | runInContextResumed seq resolved => cases resolved <;> exact sameTree_enqueue a rfl
  | timeoutFired | legacyTimeoutFired => exact ⟨rfl, rfl⟩
  | timeoutRejected seq => exact .refl a
  | localActivityBackoff scope input b =>
    exact callClosed_sameTree.localActivityBackoff a scope input b
  | localActivityRetry scope input b => exact callClosed_sameTree.localActivityRetry a scope input b

theorem tree_tick {a : Activator} (hshielded : a.shielded = true) :
    (a.tick.tree = a.tree ∨ a.tick.tree = a.tree.deliver) ∧ a.tick.shielded = true := by
  unfold tick
  cases hm : a.microtasks with
  | nil => exact ⟨Or.inl rfl, hshielded⟩
  | cons m rest =>
    have hqueued : a.tree.queued = m.target.toList ++ rest.filterMap Microtask.target := by
      simp only [tree, hm, List.filterMap_cons]
      cases m.target <;> rfl
    cases ht : m.target with
    | none =>
      have hpop : ({ a with microtasks := rest } : Activator).tree = a.tree := by
        rw [ht, Option.toList_none, List.nil_append] at hqueued
        simp only [tree, ScopeTree.mk.injEq, true_and] at hqueued ⊢
        exact hqueued.symm
      have hrun := sameTree_runMicrotask (a := { a with microtasks := rest }) hshielded ht
      exact ⟨Or.inl (hrun.tree.trans hpop), hrun.shielded.trans hshielded⟩
    | some child =>
      cases m with
      | propagate c =>
        cases ht
        refine ⟨Or.inr ?_, (rejectScope_quiet _ _).shielded.trans hshielded⟩
        have hcons : a.tree.queued = child :: rest.filterMap Microtask.target := hqueued
        have hrun := tree_rejectScope { a with microtasks := rest } child
        simp only [runMicrotask, ScopeTree.deliver, hcons]
        exact hrun
      | _ => cases ht

theorem sameTree_fireTimer (a : Activator) (seq : Option Seq) :
    SameTree a (a.processJob (.fireTimer seq)) := by
  cases seq with
  | none => exact ⟨rfl, rfl⟩
  | some seq =>
    rw [processFireTimer_eq]
    cases a.completions .timer seq with
    | none => exact ⟨rfl, rfl⟩
    | some w =>
      exact SameTree.trans (b := (a.log _).deleteCompletion .timer seq) ⟨rfl, rfl⟩
        (sameTree_settle _ _ _ _ _)

end Activator

/-- The scope on which the event calls `cancel`. -/
def cancelCall (a : Activator) : Event → Option ScopeId
  | .cancelScope s | .clearTimeout _ (.own s) => if s < a.scopes.length then some s else none
  | .job .cancelWorkflow => if 0 < a.scopes.length then some 0 else none
  | _ => none

/-- The scopes on which `cancel` is called in a run. -/
def cancelCalls (a : Activator) : List Event → List ScopeId
  | [] => []
  | e :: es => (cancelCall a e).toList ++ cancelCalls (step a e) es

/-- The flag stays on. -/
def KeepsFlag : Event → Prop
  | .setShielded value => value = true
  | _ => True

instance decidableKeepsFlag : DecidablePred KeepsFlag
  | .setShielded value => inferInstanceAs (Decidable (value = true))
  | .newScope .. | .cancelScope .. | .sleep .. | .setTimeout .. | .clearTimeout ..
  | .scheduleActivity .. | .scheduleLocalActivity .. | .startChild .. | .signalWorkflow ..
  | .cancelExternal .. | .startNexusOperation .. | .job .. | .tick | .concludeActivation
  | .setExternalCancelPatched .. => inferInstanceAs (Decidable True)

section Steps

open Activator

variable {called : List ScopeId} {a : Activator}

theorem consistent_rejectScope (h : Consistent called a.tree) (hshielded : a.shielded = true)
    (s : ScopeId) :
    Consistent (called ++ (if s < a.scopes.length then some s else none).toList)
      (a.rejectScope s).tree ∧ (a.rejectScope s).shielded = true := by
  refine ⟨?_, (rejectScope_quiet a s).shielded.trans hshielded⟩
  rw [tree_rejectScope]
  have hscopes : a.tree.scopes = a.scopes := rfl
  by_cases hs : s < a.scopes.length
  · rw [if_pos hs]
    exact h.cancel (List.getElem?_eq_getElem hs)
  · have hnone : a.tree.scopes[s]? = none := List.getElem?_eq_none (Nat.le_of_not_lt hs)
    have hsame : a.tree.reject s = a.tree := by simp [ScopeTree.reject, hnone]
    rw [if_neg hs, hsame]
    simpa using h

theorem consistent_step (h : Consistent called a.tree) (hshielded : a.shielded = true) {e : Event}
    (he : KeepsFlag e) :
    Consistent (called ++ (cancelCall a e).toList) (step a e).tree ∧ (step a e).shielded = true := by
  have hsame : ∀ {b : Activator}, SameTree a b → Consistent (called ++ []) b.tree ∧
      b.shielded = true := by
    intro b hb
    refine ⟨?_, hb.shielded.trans hshielded⟩
    rw [hb.tree, List.append_nil]
    exact h
  have hgrow : ∀ p c, Consistent (called ++ []) (a.newScope p c).tree ∧
      (a.newScope p c).shielded = true := by
    intro p c
    rw [tree_newScope hshielded, List.append_nil]
    exact ⟨h.grow p c, (newScope_quiet a p c).shielded.trans hshielded⟩
  cases e with
  | newScope parent cancellable => exact hgrow parent cancellable
  | cancelScope scope => exact consistent_rejectScope h hshielded scope
  | sleep | scheduleActivity | scheduleLocalActivity | startChild | signalWorkflow
  | cancelExternal | startNexusOperation =>
    exact hsame (callClosed_sameTree.call a rfl)
  | setTimeout scope ms =>
    simp only [step, inScope]
    split
    · -- With the flag on the timer gets a scope of its own.
      have htimer := callClosed_sameTree.timerNextHandler (a.newScope scope true) a.scopes.length
        (atLeastOne ms) (.ok ()) .timeout
      rw [(newScope_quiet a scope true).nextSeqs] at htimer
      simp only [setTimeout, hshielded, if_true]
      have hlog := htimer.trans (c := Activator.log _ (.returned .timer (a.nextSeqs .timer)))
        ⟨rfl, rfl⟩
      have hgrown := hgrow scope true
      refine ⟨?_, hlog.shielded.trans hgrown.2⟩
      rw [hlog.tree]
      exact hgrown.1
    · exact hsame (.refl a)
  | clearTimeout handle target =>
    cases target with
    | own scope =>
      have hlog : Consistent called (a.log (.clearCalled handle)).tree := h
      exact consistent_rejectScope hlog hshielded scope
    | foreign | missing => exact hsame ⟨rfl, rfl⟩
  | job job =>
    by_cases hc : job = .cancelWorkflow
    · rw [hc]
      have hlog : Consistent called
          ({ a.log (.processed .cancelWorkflow) with cancelled := true } : Activator).tree := h
      exact consistent_rejectScope hlog hshielded 0
    · have hnone : cancelCall a (.job job) = none := by
        cases job with
        | cancelWorkflow => exact absurd rfl hc
        | _ => rfl
      rw [hnone]
      by_cases hf : ∃ seq, job = .fireTimer seq
      · rcases hf with ⟨seq, rfl⟩
        exact hsame (sameTree_fireTimer a seq)
      · have hrun : SameTree a ((a.log (.processed job)).handleJob job).1 :=
          SameTree.trans (b := a.log (.processed job)) ⟨rfl, rfl⟩
            (callClosed_sameTree.handleJob _ job (fun seq heq => hf ⟨seq, heq⟩) hc)
        refine hsame ?_
        simp only [step, processJob]
        split
        · exact hrun
        · exact hrun.trans ⟨rfl, rfl⟩
  | tick =>
    rcases tree_tick hshielded with ⟨heq | heq, hflag⟩
    · refine ⟨?_, hflag⟩
      simp only [step, heq, cancelCall, Option.toList_none, List.append_nil]
      exact h
    · refine ⟨?_, hflag⟩
      simp only [step, heq, cancelCall, Option.toList_none, List.append_nil]
      exact h.deliver
  | concludeActivation | setExternalCancelPatched => exact hsame ⟨rfl, rfl⟩
  | setShielded value =>
    have hvalue : value = true := he
    exact hsame ⟨rfl, hvalue.trans hshielded.symm⟩

theorem consistent_run : ∀ {es : List Event} {a : Activator} {called : List ScopeId},
    Consistent called a.tree → a.shielded = true → (∀ e ∈ es, KeepsFlag e) →
      Consistent (called ++ cancelCalls a es) (run step a es).tree := by
  intro es
  induction es with
  | nil =>
    intro a called h _ _
    simpa [cancelCalls] using h
  | cons e es ih =>
    intro a called h hshielded hes
    rcases consistent_step h hshielded (hes e (by simp)) with ⟨hstep, hflag⟩
    have hrun := ih hstep hflag fun e' he' => hes e' (List.mem_cons_of_mem e he')
    rw [List.append_assoc] at hrun
    exact hrun

end Steps

/-! ## Microtasks come to an end -/

/-- One more than what running the microtask can add. -/
def Microtask.weight : Microtask → Nat
  | .localActivityBackoff .. | .localActivityRetry .. => 4
  | .cancelListener .. | .rejectOperation .. => 3
  | .runInContextResumed .. => 2
  | _ => 1

namespace Activator

def energy (a : Activator) : Nat :=
  (a.microtasks.map Microtask.weight).sum + (a.reactions.map fun r => r.2.weight).sum

theorem energy_enqueue (a : Activator) (m : Microtask) :
    (a.enqueue m).energy = a.energy + m.weight := by
  simp only [energy, enqueue, List.map_append, List.sum_append, List.map_cons, List.map_nil,
    List.sum_cons, List.sum_nil]
  omega

theorem energy_catchCancel (a : Activator) (s : ScopeId) (m : Microtask) :
    (a.catchCancel s m).energy ≤ a.energy + m.weight := by
  unfold catchCancel
  split
  · split
    · exact Nat.le_of_eq (energy_enqueue a m)
    · simp only [energy, List.map_append, List.sum_append, List.map_cons, List.map_nil,
        List.sum_cons, List.sum_nil]
      omega
  · omega

/-- The reactions of a scope become microtasks. -/
theorem energy_rejectScope (a : Activator) (s : ScopeId) : (a.rejectScope s).energy ≤ a.energy := by
  have hsplit : ∀ reactions : List (ScopeId × Microtask),
      ((reactions.filter fun r => r.1 == s).map fun r => r.2.weight).sum +
        ((reactions.filter fun r => r.1 != s).map fun r => r.2.weight).sum =
          (reactions.map fun r => r.2.weight).sum := by
    intro reactions
    induction reactions with
    | nil => rfl
    | cons r reactions ih =>
      by_cases hr : r.1 = s
      all_goals
        simp [hr] at ih ⊢
        omega
  unfold rejectScope
  split
  · split
    · exact Nat.le_refl _
    · have hmoved := hsplit a.reactions
      simp only [energy, List.map_append, List.sum_append, List.map_map, Function.comp_def]
      omega
  · exact Nat.le_refl _

theorem energy_settle_rejected (a : Activator) (k : CompletionKind) (s : Seq) (w : Awaiter)
    (e : JsError) : (a.settle k s w (.rejected e)).energy ≤ a.energy + 2 := by
  have hlog : (a.log (.settled k s (.rejected e))).energy = a.energy := rfl
  unfold settle
  split
  · simp only [energy_enqueue, hlog, Microtask.weight]
    omega
  · simp only [energy_enqueue, hlog, Microtask.weight]
    omega
  · rename_i heq
    cases heq
  · rename_i heq
    cases heq
  · rename_i heq
    cases heq
  · simp only [energy_enqueue, hlog, Microtask.weight]
    omega
  · rw [hlog]
    omega

theorem energy_scheduleIn (a : Activator) (scope : ScopeId) (listener : CancelKind)
    (kind : CompletionKind) (seq : Seq) (w : Awaiter) (command : Except JsError Command)
    (hw : ∀ (b : Activator) e, (b.settle kind seq w (.rejected e)).energy = b.energy) :
    (a.scheduleIn scope listener kind seq w command).energy ≤ a.energy + 3 := by
  unfold scheduleIn
  cases a.scopes[scope]? with
  | none => exact Nat.le_add_right _ _
  | some s =>
    simp only
    split
    · exact energy_catchCancel a scope _
    · have hlisten : (if s.cancellable = true then
          a.catchCancel scope (.cancelListener listener seq) else a).energy ≤ a.energy + 3 := by
        split
        · exact energy_catchCancel a scope _
        · exact Nat.le_add_right _ _
      split
      · rw [hw]
        exact hlisten
      · exact hlisten

theorem energy_localActivityAttempt (a : Activator) (scope : ScopeId) (input : LocalActivityInput) :
    (a.localActivityAttempt scope input).energy ≤ a.energy + 3 := by
  have hbump : (a.bumpSeq .activity).energy = a.energy := rfl
  simp only [localActivityAttempt, scheduleLocalActivityNextHandler]
  split
  · exact Nat.le_add_right _ _
  · split
    · exact Nat.le_add_right _ _
    · rw [← hbump]
      exact energy_scheduleIn _ scope _ _ _ _ _ fun _ _ => rfl

theorem energy_localActivityBackoff (a : Activator) (scope : ScopeId) (input : LocalActivityInput)
    (b : Backoff) : (a.localActivityBackoff scope input b).energy ≤ a.energy + 3 := by
  have hbump : (a.bumpSeq .timer).energy = a.energy := rfl
  unfold localActivityBackoff
  split
  · exact Nat.le_add_right _ _
  · simp only [sleep, msToNumber, timerNextHandler]
    rw [← hbump]
    exact energy_scheduleIn _ scope _ _ _ _ _ fun _ _ => rfl

theorem energy_localActivityRetry (a : Activator) (scope : ScopeId) (input : LocalActivityInput)
    (b : Backoff) : (a.localActivityRetry scope input b).energy ≤ a.energy + 3 := by
  unfold localActivityRetry
  split
  · exact Nat.le_add_right _ _
  · exact energy_localActivityAttempt a scope _

theorem energy_runCancelListener (a : Activator) (kind : CancelKind) (seq : Seq) :
    (a.runCancelListener kind seq).energy ≤ a.energy + 2 := by
  unfold runCancelListener
  cases kind with
  | timer =>
    simp only
    split
    · exact Nat.le_add_right _ _
    · exact energy_settle_rejected _ _ _ _ _
  | _ =>
    simp only
    split <;> exact Nat.le_add_right _ _

theorem energy_runMicrotask (a : Activator) (m : Microtask) :
    (a.runMicrotask m).energy < a.energy + m.weight := by
  cases m with
  | propagate child =>
    have hle := energy_rejectScope a child
    simp only [runMicrotask, Microtask.weight]
    omega
  | propagateUnlessShielded child =>
    have hle := energy_rejectScope a child
    simp only [runMicrotask, Microtask.weight]
    split <;> omega
  | cancelListener kind seq =>
    have hle := energy_runCancelListener a kind seq
    simp only [runMicrotask, Microtask.weight]
    omega
  | rejectOperation kind seq w =>
    have hle := energy_settle_rejected a kind seq w .cancelled
    simp only [runMicrotask, Microtask.weight]
    omega
  | childStartRejected | timeoutFired | timeoutRejected | legacyTimeoutFired => exact Nat.lt_succ_self _
  | externalCancelRejected =>
    simp only [runMicrotask]
    split <;> exact Nat.lt_succ_self _
  | runInContextResumed seq resolved =>
    cases resolved with
    | true | false =>
      simp only [runMicrotask, energy_enqueue, Microtask.weight]
      exact Nat.lt_succ_self _
  | localActivityBackoff scope input b =>
    have hle := energy_localActivityBackoff a scope input b
    simp only [runMicrotask, Microtask.weight]
    omega
  | localActivityRetry scope input b =>
    have hle := energy_localActivityRetry a scope input b
    simp only [runMicrotask, Microtask.weight]
    omega

theorem energy_tick {a : Activator} (h : a.microtasks ≠ []) : a.tick.energy < a.energy := by
  unfold tick
  cases hm : a.microtasks with
  | nil => exact absurd hm h
  | cons m rest =>
    have hlt := energy_runMicrotask { a with microtasks := rest } m
    have heq : a.energy = ({ a with microtasks := rest } : Activator).energy + m.weight := by
      simp only [energy, hm, List.map_cons, List.sum_cons]
      omega
    rw [heq]
    exact hlt

theorem drains : ∀ (n : Nat) (a : Activator), a.energy ≤ n →
    ∃ m, (run step a (List.replicate m .tick)).microtasks = [] := by
  intro n
  induction n with
  | zero =>
    intro a hle
    by_cases hnil : a.microtasks = []
    · exact ⟨0, hnil⟩
    · have hlt := energy_tick hnil
      omega
  | succ n ih =>
    intro a hle
    by_cases hnil : a.microtasks = []
    · exact ⟨0, hnil⟩
    · have hlt := energy_tick hnil
      rcases ih a.tick (by omega) with ⟨m, hm⟩
      exact ⟨m + 1, hm⟩

end Activator

/-! ## The result -/

theorem consistent_init (isReplaying externalCancelPatched : Bool)
    (registeredActivityNames : List String) (namespaceName : String) :
    Consistent [] (Activator.init isReplaying true externalCancelPatched registeredActivityNames
      namespaceName).tree := by
  have hroot : ∀ (s : ScopeId) (scope : Scope), [Scope.root][s]? = some scope → scope = Scope.root := by
    intro s scope hs
    exact List.mem_singleton.1 (List.mem_of_getElem? hs)
  refine ⟨?_, ?_, ?_, ?_, ?_, ?_, ?_⟩
  · intro s scope p hs hparent
    rw [hroot s scope hs] at hparent
    cases hparent
  · intro s scope hs hrejected
    rw [hroot s scope hs] at hrejected
    cases hrejected
  · intro s scope hs hflag
    rw [hroot s scope hs] at hflag
    cases hflag
  · intro c hc
    cases hc
  · intro p c hin
    cases hin
  · intro a ha
    cases ha
  · intro p c parent scope hc hparent
    rw [hroot c scope hc] at hparent
    cases hparent

/-- In every run in which the shielding flag is on, microtasks come to an end; and when they have, a
scope has a cancellation request, and its promise is rejected, exactly if `cancel` was called on it or
on an ancestor from which the request reaches it.  It is considered cancelled if it is moreover
cancellable. -/
theorem cancellation_closure (isReplaying externalCancelPatched : Bool)
    (registeredActivityNames : List String) (namespaceName : String) (es : List Event)
    (hflag : ∀ e ∈ es, KeepsFlag e) :
    let a₀ := Activator.init isReplaying true externalCancelPatched registeredActivityNames
      namespaceName
    let a := run step a₀ es
    (∃ n, (run step a (List.replicate n .tick)).microtasks = []) ∧
    (a.microtasks = [] → ∀ (s : ScopeId) (scope : Scope), a.scopes[s]? = some scope →
      (scope.cancelRequested = true ↔ ∃ c ∈ cancelCalls a₀ es, Reaches a.scopes c s) ∧
      (scope.rejected = true ↔ ∃ c ∈ cancelCalls a₀ es, Reaches a.scopes c s) ∧
      (scope.consideredCancelled = true ↔
        (∃ c ∈ cancelCalls a₀ es, Reaches a.scopes c s) ∧ scope.cancellable = true)) := by
  intro a₀ a
  refine ⟨Activator.drains a.energy a (Nat.le_refl _), ?_⟩
  intro hdrained s scope hs
  have h : Consistent (cancelCalls a₀ es) a.tree := by
    have hrun := consistent_run (consistent_init isReplaying externalCancelPatched
      registeredActivityNames namespaceName) rfl hflag
    simpa using hrun
  have hqueued : a.tree.queued = [] := by simp [Activator.tree, hdrained]
  have hrequested : scope.cancelRequested = true ↔
      ∃ c ∈ cancelCalls a₀ es, Reaches a.scopes c s := h.requested_iff hqueued hs
  refine ⟨hrequested, ?_, ?_⟩
  · refine ⟨fun hrejected => hrequested.1 (h.flagged s scope hs hrejected), ?_⟩
    rintro ⟨c, hc, hreach⟩
    rcases h.rejected_of_reaches hqueued hc hreach with ⟨scope', hs', hrejected⟩
    have hscopes : a.scopes[s]? = some scope' := hs'
    rw [hs] at hscopes
    cases hscopes
    exact hrejected
  · rw [Scope.consideredCancelled, Bool.and_eq_true, hrequested]

/-- A non-cancellable scope 1 with a child 2, and a cancellable scope 3, under the root; the root is
cancelled, and scope 4 is constructed under 3 before the request has arrived there. -/
def shieldedTree : List Event :=
  [.newScope 0 false, .newScope 1 true, .newScope 0 true, .cancelScope 0, .newScope 3 true, .tick,
   .tick, .tick, .tick]

theorem shieldedTree_closure :
    let a₀ := Activator.init false true false [] "default"
    let a := run step a₀ shieldedTree
    a.microtasks.length = 0 ∧ cancelCalls a₀ shieldedTree = [0] ∧
    a.scopes.map Scope.cancelRequested = [true, true, false, true, true] ∧
    a.scopes.map Scope.consideredCancelled = [true, false, false, true, true] ∧
    (∃ c ∈ [0], Reaches a.scopes c 4) ∧ ¬ ∃ c ∈ [0], Reaches a.scopes c 2 := by
  intro a₀ a
  have hcalls : cancelCalls a₀ shieldedTree = [0] := by decide +kernel
  have hdrained : a.microtasks = [] := List.length_eq_zero_iff.1 (by decide +kernel)
  have hclosure := (cancellation_closure false false [] "default" shieldedTree (by decide)).2 hdrained
  have hcalls' : cancelCalls (Activator.init false true false [] "default") shieldedTree = [0] :=
    hcalls
  rw [hcalls'] at hclosure
  refine ⟨by decide +kernel, hcalls, by decide +kernel, by decide +kernel, ?_, ?_⟩
  · exact (hclosure 4 ⟨true, some 3, true, true⟩ (by decide +kernel)).1.1 rfl
  · intro hreach
    have hflag := (hclosure 2 ⟨true, some 1, false, false⟩ (by decide +kernel)).1.2 hreach
    cases hflag

end TemporalSdk.Workflow
