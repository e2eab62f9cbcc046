import Mathlib.Data.List.Basic

/-!
# Changed — a list with one element put in

What `set` and appending one element have in common: the new list has an element at a place of the old one, or
at the place after its end, and agrees with it elsewhere.
-/

namespace TemporalSdk.Machine

variable {α : Type*} {l l' : List α} {n i : Nat} {a b : α}

/-- `l'` is `l` with `a` at the place `n`. -/
structure Changed (l : List α) (n : Nat) (a : α) (l' : List α) : Prop where
  self : l'[n]? = some a
  other : ∀ i, i ≠ n → l'[i]? = l[i]?

namespace Changed

theorem same (hn : l[n]? = some a) : Changed l n a l := ⟨hn, fun _ _ => rfl⟩

theorem set (hn : l[n]? = some a) (b : α) : Changed l n b (l.set n b) :=
  ⟨List.getElem?_set_self (List.getElem?_eq_some_iff.1 hn).1, fun _ hne => List.getElem?_set_ne hne.symm⟩

theorem concat (l : List α) (a : α) : Changed l l.length a (l ++ [a]) := by
  refine ⟨List.getElem?_concat_length, fun i hne => ?_⟩
  rcases Nat.lt_or_gt_of_ne hne with hlt | hgt
  · exact List.getElem?_append_left hlt
  · rw [List.getElem?_eq_none (Nat.le_of_lt hgt), List.getElem?_eq_none (by rw [List.length_append]; exact hgt)]

/-- An element of the new list is the one that was put in, or is at its place in the old one. -/
theorem cases (h : Changed l n a l') (hb : l'[i]? = some b) : i = n ∧ b = a ∨ i ≠ n ∧ l[i]? = some b := by
  by_cases heq : i = n
  · subst heq
    exact Or.inl ⟨rfl, Option.some.inj (hb.symm.trans h.self)⟩
  · exact Or.inr ⟨heq, (h.other i heq).symm.trans hb⟩

/-- What was so at a place still is, when the new element keeps it. -/
theorem exists_of_exists (h : Changed l n a l') {P : α → Prop}
    (hkept : i = n → ∀ b, l[n]? = some b → P b → P a)
    (hold : ∃ b, l[i]? = some b ∧ P b) : ∃ b, l'[i]? = some b ∧ P b := by
  rcases hold with ⟨b, hb, hp⟩
  by_cases heq : i = n
  · subst heq
    exact ⟨a, h.self, hkept rfl b hb hp⟩
  · exact ⟨b, (h.other i heq).trans hb, hp⟩

theorem length_le (h : Changed l n a l') (hi : l'.length ≤ i) : i ≠ n ∧ l.length ≤ i := by
  have hnone := List.getElem?_eq_none hi
  have hne : i ≠ n := by
    rintro rfl
    cases hnone.symm.trans h.self
  exact ⟨hne, List.getElem?_eq_none_iff.1 ((h.other i hne).symm.trans hnone)⟩

end Changed

theorem getElem?_length_ne {l : List α} : ¬ l[l.length]? = some a := by
  simp

end TemporalSdk.Machine
