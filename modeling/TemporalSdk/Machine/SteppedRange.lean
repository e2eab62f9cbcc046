import Mathlib.Tactic.Linarith

/-!
# SteppedRange — ranges with an inclusive end and a step

A range runs from its start to its end, in steps.  An end before the start means the start, and a step below one
means one.
-/

namespace TemporalSdk.Machine

variable {α : Type*} [CommRing α] [LinearOrder α]

structure SteppedRange (α : Type*) where
  start : α
  last : α
  step : α
  deriving DecidableEq

namespace SteppedRange

def stop (r : SteppedRange α) : α := max r.start r.last

def stride (r : SteppedRange α) : α := max 1 r.step

def Matches (r : SteppedRange α) (v : α) : Prop :=
  ∃ k : ℕ, v = r.start + k * r.stride ∧ v ≤ r.stop

/-- A value of the range other than its start. -/
def Later (r : SteppedRange α) (v : α) : Prop :=
  ∃ k : ℕ, v = r.start + (k + 1) * r.stride ∧ v ≤ r.last

/-- The ranges have one start, one end and one step once defaults are taken for ends before the start and steps
below one. -/
structure Same (r r' : SteppedRange α) : Prop where
  start : r.start = r'.start
  stop : r.stop = r'.stop
  stride : r.stride = r'.stride

theorem Same.matches_iff {r r' : SteppedRange α} (h : r.Same r') (v : α) : r.Matches v ↔ r'.Matches v := by
  unfold Matches
  rw [h.start, h.stop, h.stride]

variable (r : SteppedRange α)

theorem matches_start : r.Matches r.start :=
  ⟨0, by simp, le_max_left _ _⟩

theorem later_congr {start last step step' : α} (h : max 1 step = max 1 step') (v : α) :
    (⟨start, last, step⟩ : SteppedRange α).Later v ↔ (⟨start, last, step'⟩ : SteppedRange α).Later v := by
  unfold Later stride
  rw [h]

variable [IsStrictOrderedRing α]

theorem stride_pos : 0 < r.stride :=
  lt_of_lt_of_le one_pos (le_max_left _ _)

theorem start_lt_add (k : ℕ) : r.start < r.start + (k + 1) * r.stride := by
  have hk : (0 : α) ≤ k := Nat.cast_nonneg k
  have hpos : 0 < ((k : α) + 1) * r.stride := mul_pos (by linarith) r.stride_pos
  linarith

theorem Later.start_lt {r : SteppedRange α} {v : α} (h : r.Later v) : r.start < v := by
  rcases h with ⟨k, rfl, _⟩
  exact r.start_lt_add k

theorem matches_iff_later (v : α) : r.Matches v ↔ v = r.start ∨ r.Later v := by
  constructor
  · rintro ⟨k, hv, hle⟩
    cases k with
    | zero => exact Or.inl (by simpa using hv)
    | succ k =>
      have hlater : v = r.start + (k + 1) * r.stride := by simpa using hv
      have hlt : r.start < v := hlater ▸ r.start_lt_add k
      exact Or.inr ⟨k, hlater, (le_max_iff.mp hle).resolve_left (not_le_of_gt hlt)⟩
  · rintro (rfl | ⟨k, hv, hle⟩)
    · exact r.matches_start
    · exact ⟨k + 1, by simpa using hv, hle.trans (le_max_right _ _)⟩

theorem not_later_self (start step v : α) : ¬ (⟨start, start, step⟩ : SteppedRange α).Later v := by
  rintro ⟨k, rfl, hle⟩
  exact absurd hle (not_le_of_gt (start_lt_add ⟨start, start, step⟩ k))

theorem matches_self_iff (start step v : α) : (⟨start, start, step⟩ : SteppedRange α).Matches v ↔ v = start := by
  rw [matches_iff_later]
  exact or_iff_left (not_later_self start step v)

end SteppedRange
end TemporalSdk.Machine
