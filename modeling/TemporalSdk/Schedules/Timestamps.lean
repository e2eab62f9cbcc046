import TemporalSdk.Schedules.RetryPolicies

/-!
# Timestamps — milliseconds as seconds and nanoseconds

`msNumberToTs` and `tsToMs` of `packages/common/src/time.ts` in the numbers of the language: a quotient is a double,
seconds are `Long`s.  The other modules compute with whole numbers; both agree on safe integers.
-/

namespace TemporalSdk.Timestamps

open Machine
open Failures (Timestamp longFromNumber)

/-- A number for which `Number.isSafeInteger` holds. -/
def SafeInteger (n : ℤ) : Prop := |n| < 2 ^ 53

/-! ## The conversions -/

def msNumberToTs (millis : ℤ) : Timestamp where
  seconds := longFromNumber ⌊nearestDouble ((millis : ℚ) / (1000 : ℕ))⌋
  nanos := roundToDouble (millis.tmod 1000 * 1000000)

/-- Arithmetic of `Long` wraps around. -/
def wrapLong (n : ℤ) : ℤ := n.bmod (2 ^ 64)

/-- `toNumber` gives the nearest double. -/
def tsToMs (ts : Timestamp) : ℤ :=
  roundToDouble (wrapLong (wrapLong (ts.seconds * 1000) +
    longFromNumber ⌊nearestDouble ((ts.nanos : ℚ) / (1000000 : ℕ))⌋))

/-! ## Safe integers -/

section Safe

variable {m : ℤ}

theorem roundToDouble_of_safe (hsafe : SafeInteger m) : roundToDouble m = m := by
  have hrange := abs_lt.mp hsafe
  exact (roundToDouble_eq_self_iff m).mpr (ulp_dvd_of_small (by omega))

theorem wrapLong_of_small (h : |m| < 2 ^ 63) : wrapLong m = m := by
  rw [abs_lt] at h
  exact Int.bmod_eq_of_le (by omega) (by omega)

theorem longFromNumber_of_small (h : |m| < 2 ^ 63) : longFromNumber m = m := by
  rw [abs_lt] at h
  unfold longFromNumber
  omega

variable (hsafe : SafeInteger m)
include hsafe

theorem seconds_eq : ⌊nearestDouble ((m : ℚ) / (1000 : ℕ))⌋ = m / 1000 := by
  have hrange : |(m : ℚ)| < 2 ^ 53 := by
    exact_mod_cast hsafe
  have hquotient : |(m : ℚ) / (1000 : ℕ)| < 2 ^ (43 + 1 : ℤ) := by
    rw [abs_div, div_lt_iff₀ (by norm_num)]
    norm_num at hrange ⊢
    linarith
  exact floor_nearestDouble_div (by norm_num) (by norm_num) hsafe hquotient

theorem msNumberToTs_eq : msNumberToTs m = Failures.msNumberToTs m := by
  have hrange := abs_lt.mp hsafe
  have hseconds : |m / 1000| < 2 ^ 63 := abs_lt.mpr (by omega)
  have hlow : -1000 < m.tmod 1000 := Int.lt_tmod_of_pos m (by norm_num)
  have hhigh : m.tmod 1000 < 1000 := Int.tmod_lt_of_pos m (by norm_num)
  have hnanos : SafeInteger (m.tmod 1000 * 1000000) := abs_lt.mpr (by omega)
  rw [msNumberToTs, Failures.msNumberToTs, seconds_eq hsafe, longFromNumber_of_small hseconds,
    roundToDouble_of_safe hnanos]

end Safe

/-! ## What a timestamp denotes -/

/-- A normalised timestamp of so many milliseconds. -/
structure Denotes (m : ℤ) (ts : Timestamp) : Prop where
  nanos : 0 ≤ ts.nanos ∧ ts.nanos < 1000000000
  millis : (1000000 : ℤ) ∣ ts.nanos
  total : ts.seconds * 1000000000 + ts.nanos = m * 1000000

theorem tsToMs_of_denotes {m : ℤ} {ts : Timestamp} (hsafe : SafeInteger m) (h : Denotes m ts) : tsToMs ts = m := by
  have hrange := abs_lt.mp hsafe
  have hnanos := h.nanos
  have htotal := h.total
  rcases h.millis with ⟨k, hk⟩
  have hsmall : SafeInteger k := abs_lt.mpr (by omega)
  have hwhole : ((ts.nanos : ℤ) : ℚ) / (1000000 : ℕ) = (k : ℚ) := by
    rw [hk]
    push_cast
    field_simp
  have hthousands : |ts.seconds * 1000| < 2 ^ 63 := abs_lt.mpr (by omega)
  have hmillis : |k| < 2 ^ 63 := abs_lt.mpr (by omega)
  have hsum : |ts.seconds * 1000 + k| < 2 ^ 63 := abs_lt.mpr (by omega)
  calc tsToMs ts = roundToDouble (ts.seconds * 1000 + k) := by
        rw [tsToMs, hwhole, nearestDouble_intCast hsmall, Int.floor_intCast, wrapLong_of_small hthousands,
          longFromNumber_of_small hmillis, wrapLong_of_small hsum]
    _ = roundToDouble m := by
        congr 1
        omega
    _ = m := roundToDouble_of_safe hsafe

theorem denotes_msNumberToTs_iff {m : ℤ} (hsafe : SafeInteger m) :
    Denotes m (msNumberToTs m) ↔ 0 ≤ m ∨ (1000 : ℤ) ∣ m := by
  have hsplit := Int.ediv_mul_add_emod m 1000
  have hrest := Int.emod_nonneg m (by norm_num : (1000 : ℤ) ≠ 0)
  rw [msNumberToTs_eq hsafe]
  constructor
  · intro h
    have hnanos := h.nanos.1
    by_contra hcon
    rw [not_or, not_le, Int.dvd_iff_emod_eq_zero] at hcon
    rw [Failures.msNumberToTs, Int.tmod_eq_emod] at hnanos
    simp only [not_le.mpr hcon.1, Int.dvd_iff_emod_eq_zero, hcon.2, or_self, if_false] at hnanos
    omega
  · intro h
    have htmod : m.tmod 1000 = m % 1000 := by
      simp [Int.tmod_eq_emod, h]
    rw [Failures.msNumberToTs, htmod]
    exact ⟨by dsimp only; omega, ⟨m % 1000, by dsimp only; ring⟩, by dsimp only; omega⟩

/-- Milliseconds that are written as a timestamp and read again. -/
theorem msNumberToTs_exact_iff (m : ℤ) (hsafe : SafeInteger m) :
    Denotes m (msNumberToTs m) ∧ tsToMs (msNumberToTs m) = m ↔ 0 ≤ m ∨ (1000 : ℤ) ∣ m := by
  rw [← denotes_msNumberToTs_iff hsafe]
  exact ⟨And.left, fun h => ⟨h, tsToMs_of_denotes hsafe h⟩⟩

theorem msNumberToTs_exact_iff_minute : SafeInteger 60001 ∧
    (Denotes 60001 (msNumberToTs 60001) ∧ tsToMs (msNumberToTs 60001) = 60001 ↔ 0 ≤ (60001 : ℤ) ∨ (1000 : ℤ) ∣ 60001) :=
  ⟨by simp only [SafeInteger]; decide, msNumberToTs_exact_iff 60001 (by simp only [SafeInteger]; decide)⟩

/-- One millisecond before 1970. -/
theorem msNumberToTs_before_1970 : ¬ ∀ m : ℤ, SafeInteger m →
    Denotes m (msNumberToTs m) ∧ tsToMs (msNumberToTs m) = m := by
  intro h
  have hnanos := (h (-1) (by simp only [SafeInteger]; decide)).1.nanos.1
  rw [msNumberToTs_eq (by simp only [SafeInteger]; decide)] at hnanos
  exact absurd hnanos (by decide)

end TemporalSdk.Timestamps
