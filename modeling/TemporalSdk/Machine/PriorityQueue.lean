import Mathlib.Data.List.Sort
import Mathlib.Data.Multiset.AddSub

/-!
# PriorityQueue — queues that give the least element first

A queue is given by its operations and the laws that clients rely on.  Nothing is said about the order in
which elements with equal keys come out.  `popWhile` is the loop that clients drain a queue with.
-/

namespace TemporalSdk.Machine

structure PriorityQueue (η ε : Type) {κ : Type} [LinearOrder κ] (key : ε → κ) where
  elements : η → Multiset ε
  empty : η
  add : η → ε → η
  pop : η → Option (ε × η)
  elements_empty : elements empty = 0
  elements_add : ∀ h e, elements (add h e) = e ::ₘ elements h
  pop_none : ∀ {h}, pop h = none → elements h = 0
  pop_elements : ∀ {h e h'}, pop h = some (e, h') → elements h = e ::ₘ elements h'
  pop_least : ∀ {h e h'}, pop h = some (e, h') → ∀ x ∈ elements h', key e ≤ key x

namespace PriorityQueue

variable {η ε κ : Type} [LinearOrder κ] {key : ε → κ} (q : PriorityQueue η ε key)

/-- The queue that keeps its elements in a sorted list. -/
def sortedList (key : ε → κ) :
    PriorityQueue {l : List ε // l.Pairwise fun a b => key a ≤ key b} ε key where
  elements l := Multiset.ofList l.1
  empty := ⟨[], List.Pairwise.nil⟩
  add l e :=
    ⟨l.1.orderedInsert (fun a b => key a ≤ key b) e,
      have : Std.Total fun a b : ε => key a ≤ key b := ⟨fun a b => le_total (key a) (key b)⟩
      have : IsTrans ε fun a b => key a ≤ key b := ⟨fun _ _ _ => le_trans⟩
      List.Pairwise.orderedInsert e l.1 l.2⟩
  pop
    | ⟨[], _⟩ => none
    | ⟨e :: l, hl⟩ => some (e, ⟨l, (List.pairwise_cons.1 hl).2⟩)
  elements_empty := rfl
  elements_add l e := Multiset.coe_eq_coe.2 (List.perm_orderedInsert _ e l.1)
  pop_none := by
    rintro ⟨_ | ⟨e, l⟩, hl⟩ h
    · rfl
    · cases h
  pop_elements := by
    rintro ⟨_ | ⟨e, l⟩, hl⟩ e' h' h
    · cases h
    · cases h
      rfl
  pop_least := by
    rintro ⟨_ | ⟨e, l⟩, hl⟩ e' h' h
    · cases h
    · cases h
      exact (List.pairwise_cons.1 hl).1

def size (h : η) : Nat := Multiset.card (q.elements h)

/-- Pop at most so many elements, as long as the first one satisfies `p`. -/
def popWhile (p : ε → Bool) : Nat → η → List ε × η
  | 0, h => ([], h)
  | n + 1, h =>
    match q.pop h with
    | none => ([], h)
    | some (e, h') =>
      if p e then (e :: (popWhile p n h').1, (popWhile p n h').2) else ([], h)

variable (p : ε → Bool)

theorem popWhile_elements (n : Nat) (h : η) :
    q.elements h = Multiset.ofList (q.popWhile p n h).1 + q.elements (q.popWhile p n h).2 := by
  induction n generalizing h with
  | zero => exact (Multiset.zero_add _).symm
  | succ n ih =>
    simp only [popWhile]
    split
    · exact (Multiset.zero_add _).symm
    · rename_i e h' hpop
      split
      · rw [q.pop_elements hpop, ih h', ← Multiset.cons_coe, Multiset.cons_add]
      · exact (Multiset.zero_add _).symm

theorem mem_of_mem_popWhile {p : ε → Bool} {n : Nat} {h : η} {x : ε}
    (hx : x ∈ (q.popWhile p n h).1 ∨ x ∈ q.elements (q.popWhile p n h).2) : x ∈ q.elements h := by
  rw [q.popWhile_elements p n h, Multiset.mem_add, Multiset.mem_coe]
  exact hx

theorem popWhile_sorted (n : Nat) (h : η) :
    (q.popWhile p n h).1.Pairwise fun a b => key a ≤ key b := by
  induction n generalizing h with
  | zero => exact List.Pairwise.nil
  | succ n ih =>
    simp only [popWhile]
    split
    · exact List.Pairwise.nil
    · rename_i e h' hpop
      split
      · refine List.Pairwise.cons (fun x hx => ?_) (ih h')
        exact q.pop_least hpop x (q.mem_of_mem_popWhile (.inl hx))
      · exact List.Pairwise.nil

theorem popWhile_least (n : Nat) (h : η) :
    ∀ e ∈ (q.popWhile p n h).1, ∀ x ∈ q.elements (q.popWhile p n h).2, key e ≤ key x := by
  induction n generalizing h with
  | zero => simp [popWhile]
  | succ n ih =>
    simp only [popWhile]
    split
    · simp
    · rename_i e h' hpop
      split
      · intro a ha x hx
        rcases List.mem_cons.1 ha with rfl | ha
        · exact q.pop_least hpop x (q.mem_of_mem_popWhile (.inr hx))
        · exact ih h' a ha x hx
      · simp

theorem size_popWhile_true (n : Nat) (h : η) :
    q.size (q.popWhile (fun _ => true) n h).2 = q.size h - n := by
  induction n generalizing h with
  | zero => rfl
  | succ n ih =>
    simp only [popWhile, if_true]
    cases hpop : q.pop h with
    | none => simp [size, q.pop_none hpop]
    | some entry =>
      have hsize : q.size h = q.size entry.2 + 1 := by
        simp [size, q.pop_elements hpop]
      show q.size (q.popWhile (fun _ => true) n entry.2).2 = _
      rw [ih, hsize]
      omega

end PriorityQueue

end TemporalSdk.Machine
