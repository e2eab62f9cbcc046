import Mathlib.Tactic.IntervalCases
import TemporalSdk.Machine.JsText

/-!
# Base64Url — bytes in 64 letters without padding

Three bytes are four letters, and one or two at the end are two or three.  What is left over of the last letter is
not looked at when letters are read.
-/

namespace TemporalSdk.Machine
namespace Base64Url

/-- The letter of six bits. -/
def letter (n : ℕ) : UInt16 :=
  UInt16.ofNat (if n < 26 then 0x41 + n else if n < 52 then 0x61 + (n - 26) else if n < 62 then 0x30 + (n - 52)
    else if n = 62 then 0x2d else 0x5f)

def isLetter (u : UInt16) : Bool :=
  decide (0x41 ≤ u.toNat ∧ u.toNat ≤ 0x5a) || decide (0x61 ≤ u.toNat ∧ u.toNat ≤ 0x7a) ||
    decide (0x30 ≤ u.toNat ∧ u.toNat ≤ 0x39) || u == 0x5f || u == 0x2d

/-- The six bits of a letter. -/
def bits (u : UInt16) : ℕ :=
  if 0x61 ≤ u.toNat then u.toNat - 0x61 + 26 else if u = 0x5f then 63 else if 0x41 ≤ u.toNat then u.toNat - 0x41
  else if 0x30 ≤ u.toNat then u.toNat - 0x30 + 52 else 62

def encode : List UInt8 → JsText
  | [] => []
  | [a] => [letter (a.toNat / 4), letter (a.toNat % 4 * 16)]
  | [a, b] => [letter (a.toNat / 4), letter (a.toNat % 4 * 16 + b.toNat / 16), letter (b.toNat % 16 * 4)]
  | a :: b :: c :: rest =>
    letter (a.toNat / 4) :: letter (a.toNat % 4 * 16 + b.toNat / 16) :: letter (b.toNat % 16 * 4 + c.toNat / 64) ::
      letter (c.toNat % 64) :: encode rest

def firstByte (p q : ℕ) : UInt8 := UInt8.ofNat (p * 4 + q / 16)
def secondByte (q r : ℕ) : UInt8 := UInt8.ofNat (q % 16 * 16 + r / 4)
def thirdByte (r s : ℕ) : UInt8 := UInt8.ofNat (r % 4 * 64 + s)

/-- The bytes of letters.  A letter that is left alone has too few bits for a byte. -/
def decode : JsText → List UInt8
  | [] => []
  | [_] => []
  | [p, q] => [firstByte (bits p) (bits q)]
  | [p, q, r] => [firstByte (bits p) (bits q), secondByte (bits q) (bits r)]
  | p :: q :: r :: s :: rest =>
    firstByte (bits p) (bits q) :: secondByte (bits q) (bits r) :: thirdByte (bits r) (bits s) :: decode rest

theorem toNat_letter (n : ℕ) : (letter n).toNat =
    if n < 26 then 0x41 + n else if n < 52 then 0x61 + (n - 26) else if n < 62 then 0x30 + (n - 52)
    else if n = 62 then 0x2d else 0x5f := by
  rw [letter, UInt16.toNat_ofNat']
  apply Nat.mod_eq_of_lt
  split_ifs <;> omega

@[simp] theorem bits_letter {n : ℕ} (h : n < 64) : bits (letter n) = n := by
  interval_cases n <;> rfl

theorem isLetter_letter (n : ℕ) : isLetter (letter n) = true := by
  by_cases hlast : n < 62
  · have hn := toNat_letter n
    simp only [isLetter, Bool.or_eq_true, decide_eq_true_eq]
    left
    left
    split_ifs at hn <;> omega
  · have h26 : ¬ n < 26 := by omega
    have h52 : ¬ n < 52 := by omega
    rw [letter, if_neg h26, if_neg h52, if_neg hlast]
    split_ifs
    · rfl
    · rfl

theorem firstByte_eq (a : UInt8) {k : ℕ} (hk : k < 16) : firstByte (a.toNat / 4) (a.toNat % 4 * 16 + k) = a := by
  have ha := a.toNat_lt
  rw [firstByte, show a.toNat / 4 * 4 + (a.toNat % 4 * 16 + k) / 16 = a.toNat by omega, UInt8.ofNat_toNat]

theorem secondByte_eq (b : UInt8) {k m : ℕ} (hm : m < 4) :
    secondByte (k * 16 + b.toNat / 16) (b.toNat % 16 * 4 + m) = b := by
  have hb := b.toNat_lt
  rw [secondByte, show (k * 16 + b.toNat / 16) % 16 * 16 + (b.toNat % 16 * 4 + m) / 4 = b.toNat by omega,
    UInt8.ofNat_toNat]

theorem thirdByte_eq (c : UInt8) (k : ℕ) : thirdByte (k * 4 + c.toNat / 64) (c.toNat % 64) = c := by
  have hc := c.toNat_lt
  rw [thirdByte, show (k * 4 + c.toNat / 64) % 4 * 64 + c.toNat % 64 = c.toNat by omega, UInt8.ofNat_toNat]

theorem decode_encode (bytes : List UInt8) : decode (encode bytes) = bytes := by
  have hlt : ∀ a : UInt8, a.toNat < 256 := fun a => a.toNat_lt
  fun_induction encode bytes with
  | case1 => rfl
  | case2 a =>
    have ha := hlt a
    rw [decode, bits_letter (by omega), bits_letter (by omega), ← Nat.add_zero (a.toNat % 4 * 16),
      firstByte_eq a (by decide)]
  | case3 a b =>
    have ha := hlt a
    have hb := hlt b
    rw [decode, bits_letter (by omega), bits_letter (by omega), bits_letter (by omega), firstByte_eq a (by omega),
      ← Nat.add_zero (b.toNat % 16 * 4), secondByte_eq b (by decide)]
  | case4 a b c rest ih =>
    have ha := hlt a
    have hb := hlt b
    have hc := hlt c
    rw [decode, bits_letter (by omega), bits_letter (by omega), bits_letter (by omega), bits_letter (by omega),
      firstByte_eq a (by omega), secondByte_eq b (by omega), thirdByte_eq c, ih]

theorem isLetter_of_mem_encode {bytes : List UInt8} {u : UInt16} (h : u ∈ encode bytes) : isLetter u = true := by
  fun_induction encode bytes with
  | case1 => exact nomatch h
  | case2 a =>
    simp only [List.mem_cons, List.not_mem_nil, or_false] at h
    rcases h with rfl | rfl <;> exact isLetter_letter _
  | case3 a b =>
    simp only [List.mem_cons, List.not_mem_nil, or_false] at h
    rcases h with rfl | rfl | rfl <;> exact isLetter_letter _
  | case4 a b c rest ih =>
    simp only [List.mem_cons] at h
    rcases h with rfl | rfl | rfl | rfl | h
    · exact isLetter_letter _
    · exact isLetter_letter _
    · exact isLetter_letter _
    · exact isLetter_letter _
    · exact ih h

end Base64Url
end TemporalSdk.Machine
