import TemporalSdk.Machine.DoubleInt
import Mathlib.Data.Int.Log
import Mathlib.Data.Rat.Floor

/-!
# DoubleRat — quotients as doubles

A quotient of doubles is rounded to the nearest double.  Exponents are not bounded here: nothing overflows and
nothing is subnormal.
-/

namespace TemporalSdk.Machine

/-- The nearest whole number, and of two the even one. -/
def roundHalfEven (q : ℚ) : ℤ :=
  if Int.fract q < 1 / 2 ∨ (Int.fract q = 1 / 2 ∧ ⌊q⌋ % 2 = 0) then ⌊q⌋ else ⌊q⌋ + 1

/-- How far apart the doubles are around a number. -/
def spacing (q : ℚ) : ℚ := 2 ^ (Int.log 2 |q| - 52)

def nearestDouble (q : ℚ) : ℚ := roundHalfEven (q / spacing q) * spacing q

theorem abs_roundHalfEven_sub_le (q : ℚ) : |(roundHalfEven q : ℚ) - q| ≤ 1 / 2 := by
  have hsplit : (⌊q⌋ : ℚ) + Int.fract q = q := Int.floor_add_fract q
  have hnonneg := Int.fract_nonneg q
  have hlt := Int.fract_lt_one q
  rw [abs_le]
  unfold roundHalfEven
  split
  · rename_i h
    have hhalf : Int.fract q ≤ 1 / 2 := by
      rcases h with h | ⟨h, _⟩
      · exact h.le
      · exact h.le
    constructor <;> linarith
  · rename_i h
    have hhalf : 1 / 2 ≤ Int.fract q := by
      rw [not_or, not_lt] at h
      exact h.1
    push_cast
    constructor <;> linarith

theorem roundHalfEven_intCast (n : ℤ) : roundHalfEven n = n := by
  simp [roundHalfEven]

theorem spacing_pos (q : ℚ) : 0 < spacing q := zpow_pos (by norm_num) _

theorem abs_nearestDouble_sub_le (q : ℚ) : |nearestDouble q - q| ≤ spacing q / 2 := by
  have hpos := spacing_pos q
  have hscaled : nearestDouble q - q = (roundHalfEven (q / spacing q) - q / spacing q) * spacing q := by
    rw [nearestDouble, sub_mul, div_mul_cancel₀ q hpos.ne']
  calc |nearestDouble q - q| = |(roundHalfEven (q / spacing q) : ℚ) - q / spacing q| * spacing q := by
        rw [hscaled, abs_mul, abs_of_pos hpos]
    _ ≤ 1 / 2 * spacing q := mul_le_mul_of_nonneg_right (abs_roundHalfEven_sub_le _) hpos.le
    _ = spacing q / 2 := by ring

theorem spacing_le {q : ℚ} {e : ℤ} (hzero : q ≠ 0) (h : |q| < 2 ^ (e + 1)) : spacing q ≤ 2 ^ (e - 52) := by
  have hlog : Int.log 2 |q| < e + 1 := by
    rw [← Int.lt_zpow_iff_log_lt one_lt_two (abs_pos.mpr hzero)]
    exact_mod_cast h
  exact zpow_le_zpow_right₀ (by norm_num) (by omega)

theorem nearestDouble_intCast {n : ℤ} (h : |n| < 2 ^ 53) : nearestDouble n = n := by
  by_cases hzero : n = 0
  · simp [hzero, nearestDouble, roundHalfEven]
  · have hne : (n : ℚ) ≠ 0 := by exact_mod_cast hzero
    have hlog : Int.log 2 |(n : ℚ)| < 53 := by
      rw [← Int.lt_zpow_iff_log_lt one_lt_two (abs_pos.mpr hne)]
      exact_mod_cast h
    obtain ⟨k, hk⟩ : ∃ k : ℕ, Int.log 2 |(n : ℚ)| - 52 = -(k : ℤ) :=
      ⟨(52 - Int.log 2 |(n : ℚ)|).toNat, by omega⟩
    have hspacing : spacing n = 1 / 2 ^ k := by rw [spacing, hk, zpow_neg, zpow_natCast, one_div]
    have hwhole : (n : ℚ) / spacing n = ((n * 2 ^ k : ℤ) : ℚ) := by
      rw [hspacing]
      push_cast
      field_simp
    rw [nearestDouble, hwhole, roundHalfEven_intCast, ← hwhole, div_mul_cancel₀ _ (spacing_pos _).ne']

/-- A quotient that is not whole is not rounded up to the next whole number. -/
theorem floor_nearestDouble_div {n : ℤ} {d : ℕ} (hd : 0 < d) (hsmall : d ≤ 1023) (h : |n| < 2 ^ 53)
    (hquotient : |(n : ℚ) / d| < 2 ^ (43 + 1 : ℤ)) : ⌊nearestDouble ((n : ℚ) / d)⌋ = n / d := by
  have hdpos : (0 : ℚ) < d := by exact_mod_cast hd
  by_cases hdvd : (d : ℤ) ∣ n
  · rcases hdvd with ⟨k, rfl⟩
    have hkbound : |k| < 2 ^ 53 := by
      refine lt_of_le_of_lt ?_ h
      rw [abs_mul]
      have hone : (1 : ℤ) ≤ |(d : ℤ)| := by
        rw [abs_of_nonneg (by omega)]
        omega
      nlinarith [abs_nonneg k]
    have hquot : ((((d : ℤ) * k : ℤ) : ℚ)) / d = (k : ℚ) := by
      push_cast
      field_simp
    rw [hquot, nearestDouble_intCast hkbound, Int.floor_intCast, Int.mul_ediv_cancel_left k (by omega)]
  · have hne : n ≠ 0 := by
      rintro rfl
      exact hdvd (dvd_zero _)
    have hquotientNe : (n : ℚ) / d ≠ 0 := div_ne_zero (by exact_mod_cast hne) hdpos.ne'
    have herror : |nearestDouble ((n : ℚ) / d) - (n : ℚ) / d| ≤ 1 / 1024 := by
      refine (abs_nearestDouble_sub_le _).trans ?_
      have hspacing := spacing_le hquotientNe hquotient
      norm_num at hspacing ⊢
      linarith
    -- The quotient is at least `1 / d` away from both of the whole numbers around it.
    have hsplit : ((n / d : ℤ) : ℚ) * d + ((n % d : ℤ) : ℚ) = n := by
      exact_mod_cast Int.ediv_mul_add_emod n d
    have hlow : (1 : ℚ) ≤ ((n % d : ℤ) : ℚ) := by
      have hpos : 0 < n % (d : ℤ) := by
        have hnonneg := Int.emod_nonneg n (by omega : (d : ℤ) ≠ 0)
        have hrest : n % (d : ℤ) ≠ 0 := fun hz => hdvd (Int.dvd_of_emod_eq_zero hz)
        omega
      exact_mod_cast hpos
    have hhigh : ((n % d : ℤ) : ℚ) + 1 ≤ d := by
      have hlt : n % (d : ℤ) < d := Int.emod_lt_of_pos n (by omega)
      exact_mod_cast hlt
    have hinv : (1 : ℚ) / 1024 < 1 / d := by
      apply one_div_lt_one_div_of_lt hdpos
      have : (d : ℚ) ≤ 1023 := by exact_mod_cast hsmall
      linarith
    have hquot : (n : ℚ) / d = ((n / d : ℤ) : ℚ) + ((n % d : ℤ) : ℚ) / d := by
      rw [← hsplit]
      field_simp
    have hbelow : (1 : ℚ) / d ≤ ((n % d : ℤ) : ℚ) / d := div_le_div_of_nonneg_right hlow hdpos.le
    have habove : ((n % d : ℤ) : ℚ) / d + 1 / d ≤ 1 := by
      rw [← add_div, div_le_one hdpos]
      exact hhigh
    rw [abs_le] at herror
    rw [Int.floor_eq_iff]
    constructor <;> linarith [herror.1, herror.2]

/-! ## Powers of two -/

theorem spacing_mul_zpow {q : ℚ} (hzero : q ≠ 0) (e : ℤ) : spacing (q * 2 ^ e) = spacing q * 2 ^ e := by
  have hpow : (0 : ℚ) < 2 ^ e := zpow_pos (by norm_num) e
  have hpos : 0 < |q| * 2 ^ e := mul_pos (abs_pos.mpr hzero) hpow
  have hlog : Int.log 2 (|q| * 2 ^ e) = Int.log 2 |q| + e := by
    apply le_antisymm
    · rw [← Int.lt_add_one_iff, ← Int.lt_zpow_iff_log_lt one_lt_two hpos]
      have hlt := Int.lt_zpow_succ_log_self one_lt_two |q|
      calc |q| * 2 ^ e < 2 ^ (Int.log 2 |q| + 1) * 2 ^ e := mul_lt_mul_of_pos_right (by exact_mod_cast hlt) hpow
        _ = ((2 : ℕ) : ℚ) ^ (Int.log 2 |q| + e + 1) := by
            rw [← zpow_add₀ (by norm_num)]
            push_cast
            congr 1
            ring
    · rw [← Int.zpow_le_iff_le_log one_lt_two hpos]
      have hle := Int.zpow_log_le_self one_lt_two (abs_pos.mpr hzero)
      calc ((2 : ℕ) : ℚ) ^ (Int.log 2 |q| + e) = 2 ^ Int.log 2 |q| * 2 ^ e := by
            push_cast
            exact zpow_add₀ (by norm_num) _ _
        _ ≤ |q| * 2 ^ e := mul_le_mul_of_nonneg_right (by exact_mod_cast hle) hpow.le
  rw [spacing, spacing, abs_mul, abs_of_pos hpow, hlog, ← zpow_add₀ (by norm_num)]
  congr 1
  ring

/-- Rounding does not depend on the exponent. -/
theorem nearestDouble_mul_zpow (q : ℚ) (e : ℤ) : nearestDouble (q * 2 ^ e) = nearestDouble q * 2 ^ e := by
  by_cases hzero : q = 0
  · simp [hzero, nearestDouble, roundHalfEven]
  · have hpow : (2 : ℚ) ^ e ≠ 0 := (zpow_pos (by norm_num) e).ne'
    rw [nearestDouble, nearestDouble, spacing_mul_zpow hzero, mul_div_mul_right _ _ hpow, mul_assoc]

/-- A whole number of few enough bits, times a power of two, is a double. -/
theorem nearestDouble_dyadic {n : ℤ} (h : |n| < 2 ^ 53) (e : ℤ) : nearestDouble (n * 2 ^ e) = n * 2 ^ e := by
  rw [nearestDouble_mul_zpow, nearestDouble_intCast h]

end TemporalSdk.Machine
