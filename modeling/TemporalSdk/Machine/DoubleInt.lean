import Mathlib.Tactic.Linarith

/-!
# DoubleInt — whole numbers as doubles

A double has a significand of 53 bits: from 2^53 on, whole numbers are rounded to multiples of a power of two.
-/

namespace TemporalSdk.Machine

/-- How far apart the doubles are around a whole number, or one. -/
def ulp (n : ℤ) : ℤ := 2 ^ (n.natAbs.log2 - 52)

/-- The nearest double, and of two the one with the even significand. -/
def roundToDouble (n : ℤ) : ℤ :=
  if 2 * (n % ulp n) < ulp n ∨ (2 * (n % ulp n) = ulp n ∧ n / ulp n % 2 = 0) then n / ulp n * ulp n
  else (n / ulp n + 1) * ulp n

theorem ulp_pos (n : ℤ) : 0 < ulp n := pow_pos (by decide) _

theorem roundToDouble_eq_self_iff (n : ℤ) : roundToDouble n = n ↔ ulp n ∣ n := by
  have hpos := ulp_pos n
  have hsplit : n / ulp n * ulp n + n % ulp n = n := Int.ediv_mul_add_emod n (ulp n)
  have hlt : n % ulp n < ulp n := Int.emod_lt_of_pos n hpos
  rw [Int.dvd_iff_emod_eq_zero, roundToDouble]
  constructor
  · intro h
    split at h
    · omega
    · have hnext : (n / ulp n + 1) * ulp n = n / ulp n * ulp n + ulp n := by rw [add_mul, one_mul]
      omega
  · intro h
    rw [if_pos (Or.inl (by omega))]
    omega

theorem ulp_dvd_of_small {n : ℤ} (h : n.natAbs < 2 ^ 53) : ulp n ∣ n := by
  have hlog : n.natAbs.log2 - 52 = 0 := by
    by_cases hzero : n.natAbs = 0
    · simp [hzero]
    · have hlt := (Nat.log2_lt hzero).mpr h
      omega
  rw [ulp, hlog, pow_zero]
  exact one_dvd n

/-- Multiples of a power of two are doubles as long as the factor has few enough bits. -/
theorem ulp_dvd_of_le {m : ℤ} {k : ℕ} (h : m.natAbs ≤ 2 ^ 53) : ulp (m * 2 ^ k) ∣ m * 2 ^ k := by
  have habs : (m * 2 ^ k).natAbs = m.natAbs * 2 ^ k := by
    rw [Int.natAbs_mul, Int.natAbs_pow]
    rfl
  rcases Nat.lt_or_ge m.natAbs (2 ^ 53) with hlt | hge
  · have hlog : (m * 2 ^ k).natAbs.log2 - 52 ≤ k := by
      by_cases hzero : (m * 2 ^ k).natAbs = 0
      · simp [hzero]
      · have hbound : (m * 2 ^ k).natAbs < 2 ^ (53 + k) := by
          rw [habs, Nat.pow_add]
          exact Nat.mul_lt_mul_of_pos_right hlt (Nat.two_pow_pos k)
        have := (Nat.log2_lt hzero).mpr hbound
        omega
    exact Dvd.dvd.mul_left (pow_dvd_pow 2 hlog) m
  · -- The factor is 2^53 itself, a power of two.
    have hexact : (m * 2 ^ k).natAbs = 2 ^ (53 + k) := by
      rw [habs, Nat.le_antisymm h hge, Nat.pow_add]
    have hulp : ulp (m * 2 ^ k) = 2 ^ (53 + k - 52) := by rw [ulp, hexact, Nat.log2_two_pow]
    have hdvd : (2 : ℤ) ^ (53 + k - 52) ∣ 2 ^ (53 + k) := pow_dvd_pow 2 (Nat.sub_le _ _)
    rw [hulp]
    apply Int.dvd_natAbs.mp
    rw [hexact]
    exact_mod_cast hdvd

/-- What is rounded is a double. -/
theorem roundToDouble_roundToDouble (n : ℤ) : roundToDouble (roundToDouble n) = roundToDouble n := by
  rw [roundToDouble_eq_self_iff]
  by_cases hsmall : n.natAbs < 2 ^ 53
  · rw [(roundToDouble_eq_self_iff n).mpr (ulp_dvd_of_small hsmall)]
    exact ulp_dvd_of_small hsmall
  · have hzero : n.natAbs ≠ 0 := by omega
    have hlog : 53 ≤ n.natAbs.log2 := (Nat.le_log2 hzero).mpr (by omega)
    have hlt : n.natAbs < 2 ^ (n.natAbs.log2 + 1) := Nat.lt_log2_self
    have hpow : (2 : ℤ) ^ (n.natAbs.log2 + 1) = 2 ^ 53 * ulp n := by
      rw [ulp, ← pow_add]
      congr 1
      omega
    have hupper : n < 2 ^ 53 * ulp n := by
      rw [← hpow]
      have : (n.natAbs : ℤ) < 2 ^ (n.natAbs.log2 + 1) := by exact_mod_cast hlt
      omega
    have hlower : -(2 ^ 53 * ulp n) < n := by
      rw [← hpow]
      have : (n.natAbs : ℤ) < 2 ^ (n.natAbs.log2 + 1) := by exact_mod_cast hlt
      omega
    have hquotient : n / ulp n < 2 ^ 53 := Int.ediv_lt_of_lt_mul (ulp_pos n) hupper
    have hquotient' : -(2 ^ 53) ≤ n / ulp n := by
      apply Int.le_ediv_of_mul_le (ulp_pos n)
      linarith
    rw [roundToDouble]
    split <;> exact ulp_dvd_of_le (by omega)

end TemporalSdk.Machine
