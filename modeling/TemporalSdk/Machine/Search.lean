import Mathlib.Data.List.Basic

/-!
# Search — what can be reached in a finite graph

Two searches over a graph given by the successors of each vertex.

* `discover` — depth-first: a vertex, and then everything below it, unless it was found before or the
  search stops there; `discover_spec` says that what it adds is closed under successors;
* `saturate` — with a list of vertices still to visit: the successors of each of them that are not
  marked yet are marked and visited later; `saturate_closed` says that the marks are closed under
  successors at the end.

Both take fuel; one unit for every vertex of the graph is enough.
-/

namespace TemporalSdk.Machine

variable {α : Type} [DecidableEq α]

def discover (next : α → List α) (stops : α → Bool) : Nat → List α → α → List α
  | 0, found, _ => found
  | fuel + 1, found, a =>
    if stops a || found.contains a then found
    else (next a).foldl (discover next stops fuel) (found ++ [a])

/-- Mark a vertex and put it on the list, unless it is marked. -/
def markAndPush (s : List α × List α) (a : α) : List α × List α :=
  if s.2.contains a then s else (a :: s.1, s.2 ++ [a])

def saturate (next : α → List α) : Nat → List α → List α → List α
  | 0, _, marked => marked
  | _ + 1, [], marked => marked
  | fuel + 1, a :: todo, marked =>
    let s := (next a).foldl markAndPush (todo, marked)
    saturate next fuel s.1 s.2

/-! ## Vertices that are left -/

/-- How many entries of the list of vertices are not among the marked ones. -/
def left (vertices marked : List α) : Nat := (vertices.filter fun a => !marked.contains a).length

theorem left_mono {vertices marked marked' : List α} (h : marked ⊆ marked') :
    left vertices marked' ≤ left vertices marked := by
  refine (List.monotone_filter_right vertices ?_).length_le
  intro a ha
  have hnot : a ∉ marked' := by simpa using ha
  simpa using fun hmem => hnot (h hmem)

theorem left_append {vertices marked : List α} {a : α} (hvertex : a ∈ vertices) (hnew : a ∉ marked) :
    left vertices (marked ++ [a]) + 1 ≤ left vertices marked := by
  have hsplit : (vertices.filter fun b => !(marked ++ [a]).contains b) =
      (vertices.filter fun b => !marked.contains b).filter fun b => b ≠ a := by
    rw [List.filter_filter]
    refine List.filter_congr fun b _ => ?_
    by_cases hb : b = a <;> simp [hb]
  rw [left, hsplit]
  refine List.length_filter_lt_length_iff_exists.2 ⟨a, ?_, by simp⟩
  simpa using ⟨hvertex, hnew⟩

theorem mem_of_left_eq_zero {vertices marked : List α} {a : α} (hvertex : a ∈ vertices)
    (hleft : left vertices marked = 0) : a ∈ marked := by
  by_contra hnew
  have := left_append hvertex hnew
  omega

variable {next : α → List α} {stops : α → Bool} {vertices : List α}

/-! ## Depth first -/

/-- What a search adds to the vertices found before it is closed under successors. -/
structure Extends (next : α → List α) (stops : α → Bool) (found found' : List α) : Prop where
  subset : found ⊆ found'
  closed : ∀ a ∈ found', a ∉ found → ∀ b ∈ next a, stops b = false → b ∈ found'

omit [DecidableEq α] in
theorem Extends.refl (found : List α) : Extends next stops found found :=
  ⟨fun _ h => h, fun _ h hnot => absurd h hnot⟩

theorem Extends.trans {found₁ found₂ found₃ : List α} (h₁ : Extends next stops found₁ found₂)
    (h₂ : Extends next stops found₂ found₃) : Extends next stops found₁ found₃ := by
  refine ⟨fun a ha => h₂.subset (h₁.subset ha), fun a ha hnot b hb hstop => ?_⟩
  by_cases hmem : a ∈ found₂
  · exact h₂.subset (h₁.closed a hmem hnot b hb hstop)
  · exact h₂.closed a ha hmem b hb hstop

theorem foldl_discover {search : List α → α → List α} {fuel : Nat}
    (hsearch : ∀ found a, left vertices found ≤ fuel →
      Extends next stops found (search found a) ∧ (stops a = false → a ∈ search found a)) :
    ∀ (as found : List α), left vertices found ≤ fuel →
      Extends next stops found (as.foldl search found) ∧
        ∀ a ∈ as, stops a = false → a ∈ as.foldl search found
  | [], found, _ => ⟨.refl found, nofun⟩
  | a :: as, found, hfuel => by
    obtain ⟨hfirst, ha⟩ := hsearch found a hfuel
    have hfuel' : left vertices (search found a) ≤ fuel :=
      Nat.le_trans (left_mono hfirst.subset) hfuel
    obtain ⟨hrest, has⟩ := foldl_discover hsearch as (search found a) hfuel'
    refine ⟨hfirst.trans hrest, fun b hb hstop => ?_⟩
    rcases List.mem_cons.1 hb with rfl | hb
    · exact hrest.subset (ha hstop)
    · exact has b hb hstop

/-- A search finds its vertex, and closes what it adds. -/
theorem discover_spec (hvertices : ∀ a, a ∈ vertices) :
    ∀ (fuel : Nat) (found : List α) (a : α), left vertices found ≤ fuel →
      Extends next stops found (discover next stops fuel found a) ∧
        (stops a = false → a ∈ discover next stops fuel found a)
  | 0, found, a, hfuel =>
    ⟨.refl found, fun _ => mem_of_left_eq_zero (hvertices a) (Nat.le_zero.1 hfuel)⟩
  | fuel + 1, found, a, hfuel => by
    rw [discover]
    by_cases hdone : (stops a || found.contains a) = true
    · rw [if_pos hdone]
      refine ⟨.refl found, fun hstop => ?_⟩
      simpa [hstop] using hdone
    · rw [if_neg hdone]
      have hnew : a ∉ found := fun h => hdone (by simp [h])
      have hfuel' : left vertices (found ++ [a]) ≤ fuel := by
        have := left_append (hvertices a) hnew
        omega
      obtain ⟨hbelow, hnext⟩ :=
        foldl_discover (discover_spec hvertices fuel) (next a) (found ++ [a]) hfuel'
      have ha : a ∈ (next a).foldl (discover next stops fuel) (found ++ [a]) :=
        hbelow.subset (by simp)
      refine ⟨⟨fun b hb => hbelow.subset (by simp [hb]), fun b hb hnot c hc hstop => ?_⟩, fun _ => ha⟩
      by_cases hba : b = a
      · subst hba
        exact hnext c hc hstop
      · exact hbelow.closed b hb (by simp [hnot, hba]) c hc hstop

/-! ## With a list to visit -/

/-- The successors of the base and of every marked vertex are marked, unless it is yet to be visited. -/
def Closing (next : α → List α) (base : α) (todo marked : List α) : Prop :=
  ∀ a, a = base ∨ a ∈ marked → a ∈ todo ∨ ∀ b ∈ next a, b ∈ marked

theorem foldl_markAndPush (hvertices : ∀ a, a ∈ vertices) :
    ∀ (as todo marked : List α),
      (as.foldl markAndPush (todo, marked)).1.length +
          left vertices (as.foldl markAndPush (todo, marked)).2 ≤ todo.length + left vertices marked ∧
        todo ⊆ (as.foldl markAndPush (todo, marked)).1 ∧
        marked ⊆ (as.foldl markAndPush (todo, marked)).2 ∧
        (∀ a ∈ as, a ∈ (as.foldl markAndPush (todo, marked)).2) ∧
        ∀ a ∈ (as.foldl markAndPush (todo, marked)).2, a ∉ marked →
          a ∈ (as.foldl markAndPush (todo, marked)).1
  | [], todo, marked => ⟨Nat.le_refl _, fun _ h => h, fun _ h => h, nofun, fun _ h hn => absurd h hn⟩
  | a :: as, todo, marked => by
    rw [List.foldl_cons]
    by_cases ha : a ∈ marked
    · have hskip : markAndPush (todo, marked) a = (todo, marked) := by simp [markAndPush, ha]
      rw [hskip]
      obtain ⟨hlength, htodo, hmarked, has, hpushed⟩ := foldl_markAndPush hvertices as todo marked
      refine ⟨hlength, htodo, hmarked, fun b hb => ?_, hpushed⟩
      rcases List.mem_cons.1 hb with rfl | hb
      · exact hmarked ha
      · exact has b hb
    · have hpush : markAndPush (todo, marked) a = (a :: todo, marked ++ [a]) := by
        simp [markAndPush, ha]
      rw [hpush]
      obtain ⟨hlength, htodo, hmarked, has, hpushed⟩ :=
        foldl_markAndPush hvertices as (a :: todo) (marked ++ [a])
      have hleft := left_append (hvertices a) ha
      rw [List.length_cons] at hlength
      refine ⟨by omega, fun b hb => htodo (by simp [hb]), fun b hb => hmarked (by simp [hb]),
        fun b hb => ?_, fun b hb hnot => ?_⟩
      · rcases List.mem_cons.1 hb with rfl | hb
        · exact hmarked (by simp)
        · exact has b hb
      · by_cases hba : b = a
        · exact htodo (by simp [hba])
        · exact hpushed b hb (by simp [hnot, hba])

theorem saturate_closed (hvertices : ∀ a, a ∈ vertices) {base : α} :
    ∀ (fuel : Nat) (todo marked : List α), todo.length + left vertices marked ≤ fuel →
      Closing next base todo marked → Closing next base [] (saturate next fuel todo marked)
  | 0, todo, marked, hfuel, hclosing => by
    have htodo : todo = [] := List.length_eq_zero_iff.1 (by omega)
    rw [saturate]
    rwa [htodo] at hclosing
  | fuel + 1, [], marked, _, hclosing => by
    rw [saturate]
    exact hclosing
  | fuel + 1, a :: todo, marked, hfuel, hclosing => by
    rw [saturate]
    obtain ⟨hlength, htodo, hmarked, has, hpushed⟩ :=
      foldl_markAndPush hvertices (next a) todo marked
    rw [List.length_cons] at hfuel
    refine saturate_closed hvertices fuel _ _ (by omega) fun b hb => ?_
    by_cases hba : b = a
    · subst hba
      exact .inr has
    · -- a vertex marked before is as it was, and one marked now is on the list
      by_cases hold : b = base ∨ b ∈ marked
      · rcases hclosing b hold with hmem | hnext
        · exact .inl (htodo ((List.mem_cons.1 hmem).resolve_left hba))
        · exact .inr fun c hc => hmarked (hnext c hc)
      · have hnew : b ∉ marked := fun h => hold (.inr h)
        rcases hb with hb | hb
        · exact absurd (.inl hb) hold
        · exact .inl (hpushed b hb hnew)

end TemporalSdk.Machine
