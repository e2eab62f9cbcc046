import Mathlib.Data.List.Basic

/-!
# Regex — regular expressions that are matched by backtracking

The ways in which an expression matches the beginning of a text are listed in the order in which a matcher tries them;
an anchored match is the first way that uses the whole text.  A way has the text that is taken and what the named
groups capture.  Which texts match does not depend on the order, only what is captured may.
-/

namespace TemporalSdk.Machine

inductive Regex (α : Type) where
  | one (p : α → Bool)
  | seq (r s : Regex α)
  | alt (r s : Regex α)
  -- `r?` and `r??`
  | opt (r : Regex α)
  | lazyOpt (r : Regex α)
  -- `p+` and `p{1,n}`
  | plus (p : α → Bool)
  | upTo (n : ℕ) (p : α → Bool)
  | group (name : String) (r : Regex α)

namespace Regex

variable {α : Type}

abbrev Captures (α : Type) := List (String × List α)

/-- A way to match: what is taken, what is captured, and what is left. -/
structure Way (α : Type) where
  taken : List α
  captures : Captures α
  rest : List α

def Way.append (w w' : Way α) : Way α := ⟨w.taken ++ w'.taken, w.captures ++ w'.captures, w'.rest⟩

/-- `p*`: as much as possible is tried first. -/
def many (p : α → Bool) : List α → List (Way α)
  | [] => [⟨[], [], []⟩]
  | x :: xs =>
    if p x then (many p xs).map (fun w => ⟨x :: w.taken, [], w.rest⟩) ++ [⟨[], [], x :: xs⟩]
    else [⟨[], [], x :: xs⟩]

def manyUpTo (p : α → Bool) : ℕ → List α → List (Way α)
  | 0, xs => [⟨[], [], xs⟩]
  | _ + 1, [] => [⟨[], [], []⟩]
  | n + 1, x :: xs =>
    if p x then (manyUpTo p n xs).map (fun w => ⟨x :: w.taken, [], w.rest⟩) ++ [⟨[], [], x :: xs⟩]
    else [⟨[], [], x :: xs⟩]

/-- The ways to match the beginning of a text. -/
def ways : Regex α → List α → List (Way α)
  | .one _, [] => []
  | .one p, x :: xs => if p x then [⟨[x], [], xs⟩] else []
  | .seq r s, xs => (ways r xs).flatMap fun w => (ways s w.rest).map w.append
  | .alt r s, xs => ways r xs ++ ways s xs
  | .opt r, xs => ways r xs ++ [⟨[], [], xs⟩]
  | .lazyOpt r, xs => ⟨[], [], xs⟩ :: ways r xs
  | .plus p, xs => (many p xs).filter fun w => !w.taken.isEmpty
  | .upTo n p, xs => (manyUpTo p n xs).filter fun w => !w.taken.isEmpty
  | .group name r, xs => (ways r xs).map fun w => { w with captures := (name, w.taken) :: w.captures }

/-- What an expression between `^` and `$` captures. -/
def exec (r : Regex α) (xs : List α) : Option (Captures α) :=
  ((ways r xs).find? fun w => w.rest.isEmpty).map Way.captures

/-- A text that an expression matches as a whole, with what it captures. -/
def Matches : Regex α → List α → Captures α → Prop
  | .one p, t, c => ∃ x, t = [x] ∧ p x = true ∧ c = []
  | .seq r s, t, c => ∃ t₁ t₂ c₁ c₂, t = t₁ ++ t₂ ∧ c = c₁ ++ c₂ ∧ Matches r t₁ c₁ ∧ Matches s t₂ c₂
  | .alt r s, t, c => Matches r t c ∨ Matches s t c
  | .opt r, t, c => Matches r t c ∨ t = [] ∧ c = []
  | .lazyOpt r, t, c => t = [] ∧ c = [] ∨ Matches r t c
  | .plus p, t, c => t ≠ [] ∧ (∀ x ∈ t, p x = true) ∧ c = []
  | .upTo n p, t, c => t ≠ [] ∧ t.length ≤ n ∧ (∀ x ∈ t, p x = true) ∧ c = []
  | .group name r, t, c => ∃ c', c = (name, t) :: c' ∧ Matches r t c'

/-! ## Ways and matches -/

variable {xs : List α}

theorem mem_many {p : α → Bool} {w : Way α} :
    w ∈ many p xs ↔ xs = w.taken ++ w.rest ∧ (∀ x ∈ w.taken, p x = true) ∧ w.captures = [] := by
  rcases w with ⟨taken, captures, rest⟩
  induction xs generalizing taken captures rest with
  | nil =>
    simp only [many, List.mem_singleton, Way.mk.injEq]
    constructor
    · rintro ⟨rfl, rfl, rfl⟩
      exact ⟨rfl, nofun, rfl⟩
    · rintro ⟨hnil, _, hcaptures⟩
      rcases List.append_eq_nil_iff.mp hnil.symm with ⟨htaken, hrest⟩
      exact ⟨htaken, hcaptures, hrest⟩
  | cons x xs ih =>
    unfold many
    split_ifs with hx
    · simp only [List.mem_append, List.mem_map, List.mem_singleton, Way.mk.injEq]
      constructor
      · rintro (⟨⟨taken', captures', rest'⟩, hw, rfl, rfl, rfl⟩ | ⟨rfl, rfl, rfl⟩)
        · rcases (ih taken' captures' rest').mp hw with ⟨rfl, hall, _⟩
          refine ⟨rfl, fun y hy => ?_, rfl⟩
          rcases List.mem_cons.mp hy with rfl | hy
          · exact hx
          · exact hall y hy
        · exact ⟨rfl, nofun, rfl⟩
      · rintro ⟨heq, hall, hcaptures⟩
        cases taken with
        | nil => exact Or.inr ⟨rfl, hcaptures, heq.symm⟩
        | cons y taken =>
          rw [List.cons_append, List.cons.injEq] at heq
          refine Or.inl ⟨⟨taken, [], rest⟩, (ih taken [] rest).mpr ⟨heq.2, ?_, rfl⟩, ?_, hcaptures.symm, rfl⟩
          · exact fun z hz => hall z (List.mem_cons_of_mem y hz)
          · rw [heq.1]
    · simp only [List.mem_singleton, Way.mk.injEq]
      constructor
      · rintro ⟨rfl, rfl, rfl⟩
        exact ⟨rfl, nofun, rfl⟩
      · rintro ⟨heq, hall, hcaptures⟩
        cases taken with
        | nil => exact ⟨rfl, hcaptures, heq.symm⟩
        | cons y taken =>
          rw [List.cons_append, List.cons.injEq] at heq
          exact absurd (heq.1 ▸ hall y List.mem_cons_self) hx

theorem mem_manyUpTo {p : α → Bool} {n : ℕ} {w : Way α} :
    w ∈ manyUpTo p n xs ↔
      xs = w.taken ++ w.rest ∧ w.taken.length ≤ n ∧ (∀ x ∈ w.taken, p x = true) ∧ w.captures = [] := by
  rcases w with ⟨taken, captures, rest⟩
  induction n generalizing xs taken captures rest with
  | zero =>
    simp only [manyUpTo, List.mem_singleton, Way.mk.injEq]
    constructor
    · rintro ⟨rfl, rfl, rfl⟩
      exact ⟨rfl, Nat.le_refl 0, nofun, rfl⟩
    · rintro ⟨heq, hlength, _, hcaptures⟩
      have hnil := List.length_eq_zero_iff.mp (Nat.le_zero.mp hlength)
      subst hnil
      exact ⟨rfl, hcaptures, heq.symm⟩
  | succ n ih =>
    have hempty : (taken = [] ∧ captures = [] ∧ rest = xs) →
        xs = taken ++ rest ∧ taken.length ≤ n + 1 ∧ (∀ x ∈ taken, p x = true) ∧ captures = [] := by
      rintro ⟨rfl, rfl, rfl⟩
      exact ⟨rfl, Nat.zero_le _, nofun, rfl⟩
    cases xs with
    | nil =>
      simp only [manyUpTo, List.mem_singleton, Way.mk.injEq]
      refine ⟨hempty, fun ⟨hnil, _, _, hcaptures⟩ => ?_⟩
      rcases List.append_eq_nil_iff.mp hnil.symm with ⟨htaken, hrest⟩
      exact ⟨htaken, hcaptures, hrest⟩
    | cons x xs =>
      unfold manyUpTo
      split_ifs with hx
      · simp only [List.mem_append, List.mem_map, List.mem_singleton, Way.mk.injEq]
        constructor
        · rintro (⟨⟨taken', captures', rest'⟩, hw, rfl, rfl, rfl⟩ | hnone)
          · rcases (ih taken' captures' rest').mp hw with ⟨rfl, hlength, hall, _⟩
            refine ⟨rfl, Nat.succ_le_succ hlength, fun y hy => ?_, rfl⟩
            rcases List.mem_cons.mp hy with rfl | hy
            · exact hx
            · exact hall y hy
          · exact hempty hnone
        · rintro ⟨heq, hlength, hall, hcaptures⟩
          cases taken with
          | nil => exact Or.inr ⟨rfl, hcaptures, heq.symm⟩
          | cons y taken =>
            rw [List.cons_append, List.cons.injEq] at heq
            refine Or.inl ⟨⟨taken, [], rest⟩,
              (ih taken [] rest).mpr ⟨heq.2, Nat.le_of_succ_le_succ hlength, ?_, rfl⟩, ?_, hcaptures.symm, rfl⟩
            · exact fun z hz => hall z (List.mem_cons_of_mem y hz)
            · rw [heq.1]
      · simp only [List.mem_singleton, Way.mk.injEq]
        refine ⟨hempty, fun ⟨heq, _, hall, hcaptures⟩ => ?_⟩
        cases taken with
        | nil => exact ⟨rfl, hcaptures, heq.symm⟩
        | cons y taken =>
          rw [List.cons_append, List.cons.injEq] at heq
          exact absurd (heq.1 ▸ hall y List.mem_cons_self) hx

/-- The ways are those in which a beginning of the text matches. -/
theorem mem_ways {r : Regex α} {w : Way α} :
    w ∈ ways r xs ↔ xs = w.taken ++ w.rest ∧ Matches r w.taken w.captures := by
  induction r generalizing xs w with
  | one p =>
    cases xs with
    | nil =>
      simp only [ways, List.not_mem_nil, Matches, false_iff]
      rintro ⟨hnil, x, htaken, _⟩
      rw [htaken] at hnil
      exact absurd hnil (List.cons_ne_nil x w.rest).symm
    | cons x xs =>
      unfold ways
      split_ifs with hx
      · rw [List.mem_singleton]
        constructor
        · rintro rfl
          exact ⟨rfl, x, rfl, hx, rfl⟩
        · rintro ⟨heq, y, htaken, _, hcaptures⟩
          rw [htaken, List.singleton_append, List.cons.injEq] at heq
          rcases w with ⟨taken, captures, rest⟩
          simp only at htaken hcaptures heq
          rw [htaken, hcaptures, heq.1, heq.2]
      · simp only [List.not_mem_nil, Matches, false_iff]
        rintro ⟨heq, y, htaken, hy, _⟩
        rw [htaken, List.singleton_append, List.cons.injEq] at heq
        exact hx (heq.1 ▸ hy)
  | seq r s ihr ihs =>
    simp only [ways, List.mem_flatMap, List.mem_map, Matches]
    constructor
    · rintro ⟨w₁, hw₁, w₂, hw₂, rfl⟩
      rcases ihr.mp hw₁ with ⟨hxs, hr⟩
      rcases ihs.mp hw₂ with ⟨hrest, hs⟩
      refine ⟨?_, w₁.taken, w₂.taken, w₁.captures, w₂.captures, rfl, rfl, hr, hs⟩
      rw [hxs, hrest, Way.append, List.append_assoc]
    · rintro ⟨hxs, t₁, t₂, c₁, c₂, htaken, hcaptures, hr, hs⟩
      refine ⟨⟨t₁, c₁, t₂ ++ w.rest⟩, ihr.mpr ⟨?_, hr⟩, ⟨t₂, c₂, w.rest⟩, ihs.mpr ⟨rfl, hs⟩, ?_⟩
      · rw [hxs, htaken, List.append_assoc]
      · rcases w with ⟨taken, captures, rest⟩
        simp only at htaken hcaptures
        rw [Way.append, htaken, hcaptures]
  | alt r s ihr ihs => simp only [ways, List.mem_append, ihr, ihs, Matches, and_or_left]
  | opt r ih =>
    simp only [ways, List.mem_append, List.mem_singleton, ih, Matches, and_or_left]
    refine or_congr Iff.rfl ⟨?_, ?_⟩
    · rintro rfl
      exact ⟨rfl, rfl, rfl⟩
    · rintro ⟨hxs, htaken, hcaptures⟩
      rcases w with ⟨taken, captures, rest⟩
      simp only at hxs htaken hcaptures
      rw [hxs, htaken, hcaptures, List.nil_append]
  | lazyOpt r ih =>
    simp only [ways, List.mem_cons, ih, Matches, and_or_left]
    refine or_congr ⟨?_, ?_⟩ Iff.rfl
    · rintro rfl
      exact ⟨rfl, rfl, rfl⟩
    · rintro ⟨hxs, htaken, hcaptures⟩
      rcases w with ⟨taken, captures, rest⟩
      simp only at hxs htaken hcaptures
      rw [hxs, htaken, hcaptures, List.nil_append]
  | plus p =>
    simp only [ways, List.mem_filter, mem_many, Bool.not_eq_true', List.isEmpty_eq_false_iff, Matches]
    tauto
  | upTo n p =>
    simp only [ways, List.mem_filter, mem_manyUpTo, Bool.not_eq_true', List.isEmpty_eq_false_iff, Matches]
    tauto
  | group name r ih =>
    simp only [ways, List.mem_map, Matches]
    constructor
    · rintro ⟨w', hw', rfl⟩
      rcases ih.mp hw' with ⟨hxs, hr⟩
      exact ⟨hxs, w'.captures, rfl, hr⟩
    · rintro ⟨hxs, c, hcaptures, hr⟩
      refine ⟨⟨w.taken, c, w.rest⟩, ih.mpr ⟨hxs, hr⟩, ?_⟩
      rcases w with ⟨taken, captures, rest⟩
      simp only at hcaptures
      rw [hcaptures]

/-! ## Anchored matches -/

theorem matches_of_exec {r : Regex α} {c : Captures α} (h : exec r xs = some c) : Matches r xs c := by
  rcases Option.map_eq_some_iff.mp h with ⟨w, hfind, rfl⟩
  rcases mem_ways.1 (List.mem_of_find?_eq_some hfind) with ⟨hxs, hmatch⟩
  have hrest : w.rest = [] := by simpa using List.find?_some hfind
  rw [hxs, hrest, List.append_nil]
  exact hmatch

theorem exec_eq_none_iff {r : Regex α} : exec r xs = none ↔ ∀ c, ¬ Matches r xs c := by
  rw [exec, Option.map_eq_none_iff, List.find?_eq_none]
  constructor
  · intro h c hmatch
    exact h ⟨xs, c, []⟩ (mem_ways.2 ⟨(List.append_nil xs).symm, hmatch⟩) rfl
  · intro h w hw hrest
    rcases mem_ways.1 hw with ⟨hxs, hmatch⟩
    have hnil : w.rest = [] := by simpa using hrest
    rw [hnil, List.append_nil] at hxs
    exact h w.captures (hxs ▸ hmatch)

theorem exec_seq (r s : Regex α) (xs : List α) :
    exec (.seq r s) xs = (ways r xs).findSome? fun w => (exec s w.rest).map (w.captures ++ ·) := by
  rw [exec, ways]
  induction ways r xs with
  | nil => rfl
  | cons w ws ih =>
    have hmap : ((ways s w.rest).map w.append).find? (fun w' => w'.rest.isEmpty) =
        ((ways s w.rest).find? fun w' => w'.rest.isEmpty).map w.append := List.find?_map
    rw [List.flatMap_cons, List.find?_append, Option.map_or, ih, hmap, List.findSome?_cons, exec, Option.map_map,
      Option.map_map]
    cases (ways s w.rest).find? fun w' => w'.rest.isEmpty <;> rfl

theorem exists_of_exec_seq {r s : Regex α} {c : Captures α} (h : exec (.seq r s) xs = some c) :
    ∃ t t' d d', xs = t ++ t' ∧ c = d ++ d' ∧ Matches r t d ∧ exec s t' = some d' := by
  rw [exec_seq] at h
  rcases List.exists_of_findSome?_eq_some h with ⟨w, hw, hexec⟩
  rcases Option.map_eq_some_iff.mp hexec with ⟨d', hrest, hcaptures⟩
  rcases mem_ways.1 hw with ⟨hxs, hmatch⟩
  exact ⟨w.taken, w.rest, w.captures, d', hxs, hcaptures.symm, hmatch, hrest⟩

theorem exec_seq_lazyOpt (r s : Regex α) (xs : List α) :
    exec (.seq (.lazyOpt r) s) xs = (exec s xs).or (exec (.seq r s) xs) := by
  rw [exec_seq, exec_seq, ways, List.findSome?_cons]
  cases exec s xs <;> rfl

theorem exec_seq_group_alt (name : String) (r r' s : Regex α) (xs : List α) :
    exec (.seq (.group name (.alt r r')) s) xs =
      (exec (.seq (.group name r) s) xs).or (exec (.seq (.group name r') s) xs) := by
  rw [exec_seq, exec_seq, exec_seq, ways, ways, ways, ways, List.map_append, List.findSome?_append]

end Regex
end TemporalSdk.Machine
