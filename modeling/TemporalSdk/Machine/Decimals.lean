import Mathlib.Data.Nat.Digits.Lemmas
import TemporalSdk.Machine.DoubleInt
import TemporalSdk.Machine.JsText

/-!
# Decimals — whole doubles as text

A text of digits denotes the double that is nearest, or infinity.  A double is printed as the shortest decimal that
denotes it, below 10^21 as digits alone and from there on with an exponent.
-/

namespace TemporalSdk.Machine

def digitUnit (d : ℕ) : UInt16 := UInt16.ofNat (0x30 + d)

def isDigit (u : UInt16) : Bool := decide (0x30 ≤ u.toNat ∧ u.toNat ≤ 0x39)

def decimal (n : ℕ) : JsText := if n = 0 then [digitUnit 0] else ((Nat.digits 10 n).map digitUnit).reverse

def ofDecimal (t : JsText) : ℕ := Nat.ofDigits 10 (t.reverse.map fun u => u.toNat - 0x30)

/-- A double that is whole and not negative. -/
inductive WholeDouble where
  | finite (n : ℕ)
  | infinity
deriving DecidableEq

def nearestWhole (n : ℕ) : ℕ := (roundToDouble n).toNat

namespace WholeDouble

/-- Doubles are below the power of two with this exponent. -/
@[irreducible] def maxExponent : ℕ := 1024

/-- `Number(text)` for a text of digits. -/
def ofText (t : JsText) : WholeDouble :=
  if nearestWhole (ofDecimal t) < 2 ^ maxExponent then .finite (nearestWhole (ofDecimal t)) else .infinity

/-- The multiples of a step on both sides of a number, the nearer one first. -/
def neighbours (n step : ℕ) : List ℕ :=
  if 2 * (n % step) < step ∨ 2 * (n % step) = step ∧ n / step % 2 = 0 then
    [n / step * step, n / step * step + step]
  else [n / step * step + step, n / step * step]

def denotes (n v : ℕ) : Bool := decide (0 < v ∧ nearestWhole v = n)

/-- The shortest decimal that denotes a double, as the multiple of the largest power of ten. -/
def shortest (n : ℕ) : ℕ :=
  ((List.range (Nat.log 10 n + 2)).reverse.findSome? fun e => (neighbours n (10 ^ e)).find? (denotes n)).getD n

/-- The first digit and a fraction without the zeros at its end. -/
def exponential (v : ℕ) : JsText :=
  let fraction := ((decimal v).tail.reverse.dropWhile (· == digitUnit 0)).reverse
  (decimal v).take 1 ++ (if fraction = [] then [] else JsText.ofString "." ++ fraction) ++ JsText.ofString "e+" ++
    decimal ((decimal v).length - 1)

def text : WholeDouble → JsText
  | .finite n => if n < 10 ^ 21 then decimal (shortest n) else exponential (shortest n)
  | .infinity => JsText.ofString "Infinity"

/-- Printed with an exponent, or not as a number at all. -/
def IsLarge : WholeDouble → Prop
  | .finite n => 10 ^ 21 ≤ n
  | .infinity => True

end WholeDouble

/-! ## Digits -/

theorem toNat_digitUnit {d : ℕ} (h : d < 10) : (digitUnit d).toNat = 0x30 + d := by
  rw [digitUnit, UInt16.toNat_ofNat']
  omega

theorem isDigit_digitUnit {d : ℕ} (h : d < 10) : isDigit (digitUnit d) = true := by
  rw [isDigit, toNat_digitUnit h, decide_eq_true_eq]
  omega

theorem decimal_ne_nil (n : ℕ) : decimal n ≠ [] := by
  unfold decimal
  split
  · exact List.cons_ne_nil _ _
  · next hzero =>
      rw [ne_eq, List.reverse_eq_nil_iff, List.map_eq_nil_iff]
      exact Nat.digits_ne_nil_iff_ne_zero.mpr hzero

theorem isDigit_of_mem_decimal {n : ℕ} {u : UInt16} (h : u ∈ decimal n) : isDigit u = true := by
  unfold decimal at h
  split at h
  · rw [List.mem_singleton.mp h]
    exact isDigit_digitUnit (by decide)
  · rcases List.mem_map.mp (List.mem_reverse.mp h) with ⟨d, hd, rfl⟩
    exact isDigit_digitUnit (Nat.digits_lt_base (by decide) hd)

theorem ofDecimal_decimal (n : ℕ) : ofDecimal (decimal n) = n := by
  unfold decimal ofDecimal
  split
  · next hzero =>
      rw [hzero]
      rfl
  · have hdigits : (Nat.digits 10 n).map ((fun u : UInt16 => u.toNat - 0x30) ∘ digitUnit) = Nat.digits 10 n := by
      refine (List.map_congr_left fun d hd => ?_).trans (List.map_id _)
      rw [Function.comp_apply, toNat_digitUnit (Nat.digits_lt_base (by decide) hd)]
      exact Nat.add_sub_cancel_left 0x30 d
    rw [List.reverse_reverse, List.map_map, hdigits, Nat.ofDigits_digits]

/-! ## Doubles -/

theorem nearestWhole_nearestWhole (n : ℕ) : nearestWhole (nearestWhole n) = nearestWhole n := by
  have hpos : 0 ≤ roundToDouble n := by
    have hulp := ulp_pos n
    have hquotient : (0 : ℤ) ≤ n / ulp n := Int.ediv_nonneg (Int.natCast_nonneg n) hulp.le
    unfold roundToDouble
    split <;> positivity
  rw [nearestWhole, nearestWhole, Int.toNat_of_nonneg hpos, roundToDouble_roundToDouble]

namespace WholeDouble

theorem maxExponent_eq : maxExponent = 1024 := by rw [maxExponent]

theorem lt_two_pow_maxExponent {n k : ℕ} (h : n < 2 ^ k) (hk : k < 1024) : n < 2 ^ maxExponent :=
  h.trans (Nat.pow_lt_pow_right (by decide) (maxExponent_eq ▸ hk))

theorem nearestWhole_shortest {n : ℕ} (h : nearestWhole n = n) : nearestWhole (shortest n) = n := by
  unfold shortest
  cases hfound : (List.range (Nat.log 10 n + 2)).reverse.findSome? fun e =>
      (neighbours n (10 ^ e)).find? (denotes n) with
  | none => exact h
  | some v =>
    rcases List.exists_of_findSome?_eq_some hfound with ⟨e, _, hv⟩
    have hdenotes := List.find?_some hv
    rw [denotes, decide_eq_true_eq] at hdenotes
    exact hdenotes.2

theorem ofText_text {t : JsText} (h : ¬ (ofText t).IsLarge) :
    (ofText t).text ≠ [] ∧ (∀ u ∈ (ofText t).text, isDigit u = true) ∧ ofText (ofText t).text = ofText t := by
  unfold ofText at h
  split at h
  · next hfinite =>
      have hsmall : nearestWhole (ofDecimal t) < 10 ^ 21 := Nat.lt_of_not_le h
      have hread : ofText t = .finite (nearestWhole (ofDecimal t)) := by rw [ofText, if_pos hfinite]
      rw [hread, text, if_pos hsmall]
      refine ⟨decimal_ne_nil _, fun u hu => isDigit_of_mem_decimal hu, ?_⟩
      rw [ofText, ofDecimal_decimal, nearestWhole_shortest (nearestWhole_nearestWhole _), if_pos hfinite]
  · exact absurd trivial h

theorem exists_letter {x : WholeDouble} (h : x.IsLarge) : ∃ u ∈ x.text, isDigit u = false := by
  cases x with
  | infinity => exact ⟨0x49, by decide, by decide⟩
  | finite n =>
    refine ⟨0x65, ?_, by decide⟩
    rw [text, if_neg (Nat.not_lt.mpr h), exponential]
    simp only [List.mem_append]
    exact Or.inl (Or.inr (by decide))

theorem ne_of_isDigit {u c : UInt16} (hc : isDigit c = false) (hu : isDigit u = true) : u ≠ c := by
  rintro rfl
  exact Bool.false_ne_true (hc.symm.trans hu)

theorem colon_not_mem_text (x : WholeDouble) : 0x3a ∉ x.text := by
  have hdecimal : ∀ n, 0x3a ∉ decimal n := fun n h => ne_of_isDigit (by decide) (isDigit_of_mem_decimal h) rfl
  cases x with
  | infinity => decide
  | finite n =>
    rw [text]
    split
    · exact hdecimal _
    · have hfraction : ∀ v, 0x3a ∉ ((decimal v).tail.reverse.dropWhile (· == digitUnit 0)).reverse := by
        intro v h
        have htail := List.mem_reverse.mp ((List.dropWhile_sublist _).mem (List.mem_reverse.mp h))
        exact hdecimal v (List.mem_of_mem_tail htail)
      rw [exponential]
      simp only [List.mem_append, not_or]
      refine ⟨⟨⟨fun h => hdecimal _ (List.mem_of_mem_take h), ?_⟩, by decide⟩, hdecimal _⟩
      split
      · exact List.not_mem_nil
      · rw [List.mem_append, not_or]
        exact ⟨by decide, hfraction _⟩

end WholeDouble
end TemporalSdk.Machine
