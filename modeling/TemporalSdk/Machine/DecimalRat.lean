import TemporalSdk.Machine.DoubleRat

/-!
# DecimalRat — doubles that are read and printed

A decimal denotes the nearest double, with the exponents that doubles have below: from 2^-1022 down, they are as far
apart as the smallest of them.  A double is printed as the shortest decimal that denotes it, and as the nearest of
these.  How far doubles reach above is left to the caller.
-/

namespace TemporalSdk.Machine

def grainExponent (q : ℚ) : ℤ := max (Int.log 2 |q| - 52) (-1074)

/-- How far apart the doubles are around a number. -/
def grain (q : ℚ) : ℚ := 2 ^ grainExponent q

/-- The double that a decimal denotes. -/
def denoted (q : ℚ) : ℚ := roundHalfEven (q / grain q) * grain q

/-- The multiples of a step on both sides of a number, the nearer one first. -/
def stepsAround (v step : ℚ) : List ℚ :=
  if Int.fract (v / step) < 1 / 2 ∨ (Int.fract (v / step) = 1 / 2 ∧ ⌊v / step⌋ % 2 = 0) then
    [⌊v / step⌋ * step, (⌊v / step⌋ + 1) * step]
  else [(⌊v / step⌋ + 1) * step, ⌊v / step⌋ * step]

/-- The first decimal that denotes `v`, the steps being powers of ten from `10 ^ e` down. -/
def shortestFrom (v : ℚ) : ℕ → ℤ → ℚ
  | 0, _ => v
  | k + 1, e =>
    match (stepsAround v (10 ^ e)).find? fun d => denoted d = v with
    | some d => d
    | none => shortestFrom v k (e - 1)

/-- Seventeen digits are enough for every double. -/
def shortestDecimal (v : ℚ) : ℚ := shortestFrom v 19 (Int.log 10 |v| + 1)

/-! ## Doubles denote themselves -/

theorem grain_pos (q : ℚ) : 0 < grain q := zpow_pos (by norm_num) _

theorem grainExponent_le {q : ℚ} {e : ℤ} (hzero : q ≠ 0) (h : |q| < 2 ^ (e + 53)) (he : -1074 ≤ e) :
    grainExponent q ≤ e := by
  have hlog : Int.log 2 |q| < e + 53 := by
    rw [← Int.lt_zpow_iff_log_lt one_lt_two (abs_pos.mpr hzero)]
    exact_mod_cast h
  exact max_le (by omega) he

/-- A whole number of few enough bits, times a power of two that is not too small, is a double. -/
theorem denoted_dyadic {m e : ℤ} (h : |m| < 2 ^ 53) (he : -1074 ≤ e) : denoted (m * 2 ^ e) = m * 2 ^ e := by
  by_cases hzero : m = 0
  · simp [hzero, denoted, roundHalfEven]
  · have hpow : (0 : ℚ) < 2 ^ e := zpow_pos (by norm_num) e
    have hne : (m : ℚ) * 2 ^ e ≠ 0 := mul_ne_zero (by exact_mod_cast hzero) hpow.ne'
    have hbound : |(m : ℚ) * 2 ^ e| < 2 ^ (e + 53) := by
      have hcast : |(m : ℚ)| < 2 ^ 53 := by exact_mod_cast h
      calc |(m : ℚ) * 2 ^ e| = |(m : ℚ)| * 2 ^ e := by rw [abs_mul, abs_of_pos hpow]
        _ < 2 ^ 53 * 2 ^ e := mul_lt_mul_of_pos_right hcast hpow
        _ = 2 ^ (e + 53) := by
            rw [zpow_add₀ (by norm_num), mul_comm]
            norm_num
    obtain ⟨k, hk⟩ : ∃ k : ℕ, e - grainExponent (m * 2 ^ e) = k :=
      ⟨(e - grainExponent (m * 2 ^ e)).toNat, by have := grainExponent_le hne hbound he; omega⟩
    have hwhole : (m : ℚ) * 2 ^ e / grain (m * 2 ^ e) = ((m * 2 ^ k : ℤ) : ℚ) := by
      rw [grain, mul_div_assoc, ← zpow_sub₀ (by norm_num), hk, zpow_natCast]
      push_cast
      rfl
    rw [denoted, hwhole, roundHalfEven_intCast, ← hwhole, div_mul_cancel₀ _ (grain_pos _).ne']

theorem denoted_intCast {n : ℤ} (h : |n| < 2 ^ 53) : denoted n = n := by
  simpa using denoted_dyadic h (show (-1074 : ℤ) ≤ 0 by decide)

theorem abs_div_grain_lt (q : ℚ) : |q / grain q| < 2 ^ 53 := by
  have hlog : |q| < 2 ^ (Int.log 2 |q| + 1) := by exact_mod_cast Int.lt_zpow_succ_log_self one_lt_two |q|
  have hle : (2 : ℚ) ^ (Int.log 2 |q| + 1) ≤ 2 ^ (53 + grainExponent q) :=
    zpow_le_zpow_right₀ (by norm_num) (by have := le_max_left (Int.log 2 |q| - 52) (-1074); unfold grainExponent; omega)
  rw [abs_div, abs_of_pos (grain_pos q), div_lt_iff₀ (grain_pos q)]
  calc |q| < 2 ^ (53 + grainExponent q) := hlog.trans_le hle
    _ = 2 ^ 53 * grain q := by
        rw [zpow_add₀ (by norm_num), grain]
        norm_num

/-- What is denoted is a double. -/
theorem denoted_denoted (q : ℚ) : denoted (denoted q) = denoted q := by
  have he : -1074 ≤ grainExponent q := le_max_right _ _
  have hbound := abs_lt.mp (abs_div_grain_lt q)
  have hlow : -2 ^ 53 ≤ ⌊q / grain q⌋ := Int.le_floor.mpr (by push_cast; exact hbound.1.le)
  have hhigh : ⌊q / grain q⌋ < 2 ^ 53 := Int.floor_lt.mpr (by push_cast; exact hbound.2)
  have hround : -2 ^ 53 ≤ roundHalfEven (q / grain q) ∧ roundHalfEven (q / grain q) ≤ 2 ^ 53 := by
    unfold roundHalfEven
    split <;> omega
  have hvalue : denoted q = (roundHalfEven (q / grain q) : ℚ) * 2 ^ grainExponent q := rfl
  by_cases hlt : |roundHalfEven (q / grain q)| < 2 ^ 53
  · rw [hvalue, denoted_dyadic hlt he]
  · -- the power of two above is a double of fewer bits
    obtain ⟨s, hs, hround'⟩ : ∃ s : ℤ, |s| < 2 ^ 53 ∧ roundHalfEven (q / grain q) = s * 2 ^ 53 := by
      rw [abs_lt, not_and_or] at hlt
      rcases hlt with hlt | hlt
      · exact ⟨-1, by decide, by omega⟩
      · exact ⟨1, by decide, by omega⟩
    have hpower : denoted q = (s : ℚ) * 2 ^ (53 + grainExponent q) := by
      rw [hvalue, hround', zpow_add₀ (by norm_num)]
      push_cast
      ring
    rw [hpower, denoted_dyadic hs (by omega)]

/-! ## What is printed denotes the double -/

theorem denoted_shortestFrom {v : ℚ} (h : denoted v = v) (k : ℕ) : ∀ e, denoted (shortestFrom v k e) = v := by
  induction k with
  | zero => exact fun _ => h
  | succ k ih =>
    intro e
    rw [shortestFrom]
    split
    · rename_i d hfound
      have hdenotes := List.find?_some hfound
      exact of_decide_eq_true hdenotes
    · exact ih (e - 1)

theorem denoted_shortestDecimal {v : ℚ} (h : denoted v = v) : denoted (shortestDecimal v) = v :=
  denoted_shortestFrom h _ _

/-! ## Whole numbers are printed as they are -/

theorem le_abs_denoted {n : ℤ} (h : 2 ^ 53 ≤ |n|) : 2 ^ 53 ≤ |denoted n| := by
  have hne : (n : ℚ) ≠ 0 := by
    rintro heq
    rw [Int.cast_eq_zero.mp heq] at h
    exact absurd h (by decide)
  have hlog : 53 ≤ Int.log 2 |(n : ℚ)| := by
    rw [← Int.zpow_le_iff_le_log one_lt_two (abs_pos.mpr hne)]
    exact_mod_cast h
  have hexponent : grainExponent n = Int.log 2 |(n : ℚ)| - 52 := max_eq_left (by omega)
  have hgrain : 2 ≤ grain n := by
    calc (2 : ℚ) = 2 ^ (1 : ℤ) := by norm_num
      _ ≤ grain n := zpow_le_zpow_right₀ (by norm_num) (by omega)
  have hquotient : 2 ^ 52 ≤ |(n : ℚ) / grain n| := by
    rw [abs_div, abs_of_pos (grain_pos _), le_div_iff₀ (grain_pos _)]
    calc (2 : ℚ) ^ 52 * grain n = 2 ^ Int.log 2 |(n : ℚ)| := by
          rw [grain, hexponent, zpow_sub₀ (by norm_num)]
          norm_num
          ring
      _ ≤ |(n : ℚ)| := by exact_mod_cast Int.zpow_log_le_self one_lt_two (abs_pos.mpr hne)
  have hround : 2 ^ 52 ≤ |roundHalfEven ((n : ℚ) / grain n)| := by
    have herror := abs_roundHalfEven_sub_le ((n : ℚ) / grain n)
    have htriangle := abs_sub_abs_le_abs_sub ((n : ℚ) / grain n) (roundHalfEven ((n : ℚ) / grain n))
    rw [abs_sub_comm] at htriangle
    have hclose : (2 : ℚ) ^ 52 - 1 < |(roundHalfEven ((n : ℚ) / grain n) : ℚ)| := by linarith
    have hclose' : (2 ^ 52 - 1 : ℤ) < |roundHalfEven ((n : ℚ) / grain n)| := by exact_mod_cast hclose
    omega
  have hcast : (2 : ℚ) ^ 52 ≤ |(roundHalfEven ((n : ℚ) / grain n) : ℚ)| := by exact_mod_cast hround
  rw [denoted, abs_mul, abs_of_pos (grain_pos _)]
  calc (2 : ℚ) ^ 53 = 2 ^ 52 * 2 := by norm_num
    _ ≤ |(roundHalfEven ((n : ℚ) / grain n) : ℚ)| * grain n :=
        mul_le_mul hcast hgrain (by norm_num) (abs_nonneg _)

/-- No other whole number denotes one of fewer than 54 bits. -/
theorem eq_of_denoted {n d : ℤ} (h : |n| < 2 ^ 53) (hd : denoted d = n) : d = n := by
  by_cases hsmall : |d| < 2 ^ 53
  · rw [denoted_intCast hsmall] at hd
    exact_mod_cast hd
  · have hlarge := le_abs_denoted (not_lt.mp hsmall)
    rw [hd] at hlarge
    exact absurd h (not_lt.mpr (by exact_mod_cast hlarge))

theorem exists_int_of_mem_stepsAround {v d : ℚ} {e : ℕ} (h : d ∈ stepsAround v (10 ^ (e : ℤ))) :
    ∃ z : ℤ, d = z := by
  have hmultiple : d = ⌊v / 10 ^ (e : ℤ)⌋ * 10 ^ (e : ℤ) ∨ d = (⌊v / 10 ^ (e : ℤ)⌋ + 1) * 10 ^ (e : ℤ) := by
    unfold stepsAround at h
    split at h
    · simpa using h
    · simpa [or_comm] using h
  rcases hmultiple with rfl | rfl
  · exact ⟨⌊v / 10 ^ (e : ℤ)⌋ * 10 ^ e, by push_cast; rfl⟩
  · exact ⟨(⌊v / 10 ^ (e : ℤ)⌋ + 1) * 10 ^ e, by push_cast; rfl⟩

theorem shortestFrom_intCast {n : ℤ} (h : |n| < 2 ^ 53) (k : ℕ) : ∀ e : ℕ, e < k → shortestFrom n k e = n := by
  induction k with
  | zero => exact fun e he => absurd he (Nat.not_lt_zero e)
  | succ k ih =>
    intro e he
    rw [shortestFrom]
    split
    · rename_i d hfound
      have hdenotes := List.find?_some hfound
      rcases exists_int_of_mem_stepsAround (List.mem_of_find?_eq_some hfound) with ⟨z, rfl⟩
      rw [eq_of_denoted h (of_decide_eq_true hdenotes)]
    · rename_i hnone
      cases e with
      | zero =>
        -- with steps of one, the number is the first candidate
        have hfirst : (n : ℚ) ∈ stepsAround n (10 ^ ((0 : ℕ) : ℤ)) := by simp [stepsAround]
        exact absurd (denoted_intCast h) (by simpa using List.find?_eq_none.mp hnone _ hfirst)
      | succ e =>
        have hstep : ((e + 1 : ℕ) : ℤ) - 1 = e := by omega
        rw [hstep]
        exact ih e (by omega)

theorem shortestDecimal_intCast {n : ℤ} (h : |n| < 2 ^ 53) : shortestDecimal n = n := by
  have hlog : 0 ≤ Int.log 10 |(n : ℚ)| + 1 ∧ Int.log 10 |(n : ℚ)| + 1 < 19 := by
    by_cases hzero : n = 0
    · simp [hzero]
    · have hpos : (0 : ℚ) < |(n : ℚ)| := abs_pos.mpr (by exact_mod_cast hzero)
      have hone : (1 : ℤ) ≤ |n| := Int.one_le_abs hzero
      constructor
      · have hle : 0 ≤ Int.log 10 |(n : ℚ)| := by
          rw [← Int.zpow_le_iff_le_log (by norm_num) hpos]
          exact_mod_cast hone
        omega
      · have hlt : Int.log 10 |(n : ℚ)| < 18 := by
          rw [← Int.lt_zpow_iff_log_lt (by norm_num) hpos]
          have hcast : |(n : ℚ)| < 2 ^ 53 := by exact_mod_cast h
          refine hcast.trans ?_
          norm_num
        omega
  obtain ⟨e, he⟩ : ∃ e : ℕ, Int.log 10 |(n : ℚ)| + 1 = e := ⟨_, (Int.toNat_of_nonneg hlog.1).symm⟩
  rw [shortestDecimal, he]
  exact shortestFrom_intCast h 19 e (by omega)

example : denoted 9007199254740993 = 9007199254740992 := by decide +kernel

example : shortestDecimal (2 ^ 60) = 1152921504606847000 := by decide +kernel

example : shortestDecimal (denoted 0.1) = 0.1 := by decide +kernel

end TemporalSdk.Machine
