import TemporalSdk.Machine.DoubleRat
import Mathlib.Logic.Function.Iterate

/-!
# RandomNumbers — the generator of workflows in exact arithmetic

Here doubles are rational numbers and every operation rounds, so that what the generator computes can be reasoned
about.  Nothing overflows and nothing is subnormal in it.
-/

namespace TemporalSdk.RandomNumbers

open Machine

/-! ## Operations of doubles -/

def add (x y : ℚ) : ℚ := nearestDouble (x + y)

def sub (x y : ℚ) : ℚ := nearestDouble (x - y)

def mul (x y : ℚ) : ℚ := nearestDouble (x * y)

/-- The part before the point. -/
def truncate (x : ℚ) : ℤ := if x < 0 then ⌈x⌉ else ⌊x⌋

/-- `x >>> 0`. -/
def toUint32 (x : ℚ) : ℚ := (truncate x % 2 ^ 32 : ℤ)

/-- `x | 0`. -/
def toInt32 (x : ℚ) : ℚ :=
  if truncate x % 2 ^ 32 ≥ 2 ^ 31 then (truncate x % 2 ^ 32 - 2 ^ 32 : ℤ) else (truncate x % 2 ^ 32 : ℤ)

/-! ## The generator -/

/-- The number that the source writes as 2.3283064365386963e-10. -/
def inverse : ℚ := nearestDouble 2.3283064365386963e-10

/-- One turn of the loop of `mash`. -/
def mashOne (n : ℚ) (d : ℕ) : ℚ :=
  let n := add n d
  let h := mul (nearestDouble 0.02519603282416938) n
  let n := toUint32 h
  let h := sub h n
  let h := mul h n
  let n := toUint32 h
  let h := sub h n
  add n (mul h 0x100000000)

/-- What `mash` returns, and `n` after it. -/
def mash (n : ℚ) (data : List ℕ) : ℚ × ℚ :=
  let n := data.foldl mashOne n
  (mul (toUint32 n) inverse, n)

structure Alea where
  c : ℚ
  s0 : ℚ
  s1 : ℚ
  s2 : ℚ

/-- One of the seeds of the generator. -/
def seeded (s m : ℚ) : ℚ :=
  let s := sub s m
  if s < 0 then add s 1 else s

def alea (seed : List ℕ) : Alea :=
  let (s0, n) := mash 0xefc8249d [32]
  let (s1, n) := mash n [32]
  let (s2, n) := mash n [32]
  let (m0, n) := mash n seed
  let (m1, n) := mash n seed
  let (m2, _) := mash n seed
  ⟨1, seeded s0 m0, seeded s1 m1, seeded s2 m2⟩

namespace Alea

/-- The sum that `next` makes. -/
def total (xg : Alea) : ℚ := add (mul 2091639 xg.s0) (mul xg.c inverse)

/-- The number that `next` returns. -/
def value (xg : Alea) : ℚ := sub xg.total (toInt32 xg.total)

/-- The generator after `next`. -/
def next (xg : Alea) : Alea := ⟨toInt32 xg.total, xg.s1, xg.s2, xg.value⟩

/-- The number that the generator gives after `k` others. -/
def nth (xg : Alea) (k : ℕ) : ℚ := (next^[k] xg).value

/-- No operation of `next` rounds, and neither does the one that makes a byte of its number. -/
structure Exact (xg : Alea) : Prop where
  product : mul 2091639 xg.s0 = 2091639 * xg.s0
  carry : mul xg.c inverse = xg.c * 2 ^ (-32 : ℤ)
  sum : xg.total = 2091639 * xg.s0 + xg.c * 2 ^ (-32 : ℤ)
  difference : xg.value = xg.total - toInt32 xg.total
  byte : mul xg.value 0x100 = xg.value * 0x100

end Alea

/-! ## The generator on whole numbers -/

/-- A multiply-with-carry generator of lag three. -/
structure Carrying where
  carry : ℕ
  x0 : ℕ
  x1 : ℕ
  x2 : ℕ

namespace Carrying

variable {g : Carrying}

/-- The carry is below the multiplier, and the words are words of 32 bits. -/
structure Bounded (g : Carrying) : Prop where
  carry : g.carry < 2091639
  x0 : g.x0 < 2 ^ 32
  x1 : g.x1 < 2 ^ 32
  x2 : g.x2 < 2 ^ 32

def total (g : Carrying) : ℕ := 2091639 * g.x0 + g.carry

def next (g : Carrying) : Carrying := ⟨g.total / 2 ^ 32, g.x1, g.x2, g.total % 2 ^ 32⟩

theorem Bounded.next (h : g.Bounded) : g.next.Bounded where
  carry := by
    have hcarry := h.carry
    have hx0 := h.x0
    simp only [Carrying.next, total]
    omega
  x0 := h.x1
  x1 := h.x2
  x2 := Nat.mod_lt _ (by decide)

theorem Bounded.iterate (h : g.Bounded) (k : ℕ) : (Carrying.next^[k] g).Bounded := by
  induction k with
  | zero => exact h
  | succ k ih =>
    rw [Function.iterate_succ_apply']
    exact ih.next

end Carrying

/-! ## Nothing is rounded -/

/-- The fraction that a word of 32 bits stands for. -/
def fraction (m : ℤ) : ℚ := m * 2 ^ (-32 : ℤ)

theorem fraction_mem_unit {m : ℕ} (h : m < 2 ^ 32) : 0 ≤ fraction m ∧ fraction m < 1 := by
  have hcast : (m : ℚ) < 2 ^ 32 := by exact_mod_cast h
  simp only [fraction, Int.cast_natCast]
  constructor
  · positivity
  · norm_num
    linarith

theorem nearestDouble_fraction {m : ℤ} (h : |m| < 2 ^ 53) : nearestDouble (fraction m) = fraction m :=
  nearestDouble_dyadic h _

theorem inverse_eq : inverse = fraction 1 := by
  decide +kernel

theorem exists_toUint32 (x : ℚ) : ∃ m : ℕ, m < 2 ^ 32 ∧ toUint32 x = m := by
  have hnonneg : 0 ≤ truncate x % 2 ^ 32 := Int.emod_nonneg _ (by decide)
  have hlt : truncate x % 2 ^ 32 < 2 ^ 32 := Int.emod_lt_of_pos _ (by decide)
  refine ⟨(truncate x % 2 ^ 32).toNat, by omega, ?_⟩
  rw [toUint32]
  exact_mod_cast (Int.toNat_of_nonneg hnonneg).symm

theorem mul_inverse {m : ℕ} (h : m < 2 ^ 32) : mul m inverse = fraction m := by
  have hproduct : (m : ℚ) * fraction 1 = fraction m := by simp [fraction]
  rw [mul, inverse_eq, hproduct]
  exact nearestDouble_fraction (by rw [abs_of_nonneg] <;> omega)

/-- What `mash` returns is a fraction of 32 bits, whatever its operations round on the way. -/
theorem exists_mash (n : ℚ) (data : List ℕ) : ∃ m : ℕ, m < 2 ^ 32 ∧ (mash n data).1 = fraction m := by
  rcases exists_toUint32 (data.foldl mashOne n) with ⟨m, hlt, heq⟩
  exact ⟨m, hlt, by rw [mash, heq, mul_inverse hlt]⟩

theorem exists_seeded {a b : ℕ} (ha : a < 2 ^ 32) (hb : b < 2 ^ 32) :
    ∃ m : ℕ, m < 2 ^ 32 ∧ seeded (fraction a) (fraction b) = fraction m := by
  have hdifference : sub (fraction a) (fraction b) = fraction (a - b : ℤ) := by
    have hsub : fraction a - fraction b = fraction (a - b : ℤ) := by
      simp only [fraction]
      push_cast
      ring
    rw [sub, hsub]
    exact nearestDouble_fraction (by rw [abs_lt]; omega)
  have hsign : fraction (a - b : ℤ) < 0 ↔ (a : ℤ) - b < 0 := by
    have hpow : (0 : ℚ) < 2 ^ (-32 : ℤ) := by norm_num
    rw [fraction, ← zero_mul ((2 : ℚ) ^ (-32 : ℤ)), mul_lt_mul_iff_of_pos_right hpow]
    exact_mod_cast Iff.rfl
  rw [seeded, hdifference]
  split
  · next hneg =>
    rw [hsign] at hneg
    refine ⟨(a - b + 2 ^ 32 : ℤ).toNat, by omega, ?_⟩
    have hadd : fraction (a - b : ℤ) + 1 = fraction (a - b + 2 ^ 32 : ℤ) := by
      simp only [fraction]
      push_cast
      norm_num
      ring
    rw [add, hadd, nearestDouble_fraction (by rw [abs_lt]; omega), Int.toNat_of_nonneg (by omega)]
  · next hnonneg =>
    rw [hsign] at hnonneg
    exact ⟨(a - b : ℤ).toNat, by omega, by rw [Int.toNat_of_nonneg (by omega)]⟩

/-- The generator of doubles in the state of the one of whole numbers. -/
def Carrying.toAlea (g : Carrying) : Alea := ⟨g.carry, fraction g.x0, fraction g.x1, fraction g.x2⟩

variable {g : Carrying}

theorem product_toAlea (h : g.Bounded) : mul 2091639 (fraction g.x0) = fraction (2091639 * g.x0 : ℕ) ∧
    2091639 * fraction g.x0 = fraction (2091639 * g.x0 : ℕ) := by
  have hx0 := h.x0
  have hmul : 2091639 * fraction g.x0 = fraction (2091639 * g.x0 : ℕ) := by
    simp only [fraction]
    push_cast
    ring
  refine ⟨?_, hmul⟩
  rw [mul, hmul]
  exact nearestDouble_fraction (by rw [abs_of_nonneg] <;> omega)

theorem total_toAlea (h : g.Bounded) : g.toAlea.total = fraction g.total := by
  have hx0 := h.x0
  have hcarry := h.carry
  have hsum : fraction (2091639 * g.x0 : ℕ) + fraction g.carry = fraction g.total := by
    simp only [fraction, Carrying.total]
    push_cast
    ring
  simp only [Alea.total, Carrying.toAlea, (product_toAlea h).1, mul_inverse (show g.carry < 2 ^ 32 by omega), add,
    hsum]
  refine nearestDouble_fraction ?_
  rw [abs_of_nonneg (by omega), Carrying.total]
  omega

theorem toInt32_fraction {t : ℕ} (h : t < 2 ^ 53) : toInt32 (fraction t) = (t / 2 ^ 32 : ℕ) := by
  have hquotient : fraction t = (t : ℚ) / (2 ^ 32 : ℕ) := by
    rw [fraction, zpow_neg, div_eq_mul_inv]
    push_cast
    rfl
  have hfloor : truncate (fraction t) = (t / 2 ^ 32 : ℕ) := by
    have hnonneg : 0 ≤ fraction t := by
      rw [hquotient]
      positivity
    rw [truncate, if_neg hnonneg.not_gt, hquotient]
    exact_mod_cast Rat.floor_natCast_div_natCast t (2 ^ 32)
  rw [toInt32, hfloor, if_neg (by omega), Int.emod_eq_of_lt (by omega) (by omega)]
  rfl

theorem total_lt (h : g.Bounded) : g.total < 2 ^ 53 := by
  have hx0 := h.x0
  have hcarry := h.carry
  rw [Carrying.total]
  omega

theorem fraction_sub_quotient (t : ℕ) : fraction t - (t / 2 ^ 32 : ℕ) = fraction (t % 2 ^ 32 : ℕ) := by
  have hsplit := Nat.div_add_mod t (2 ^ 32)
  have hcast : ((2 ^ 32 * (t / 2 ^ 32) + t % 2 ^ 32 : ℕ) : ℚ) = t := by exact_mod_cast hsplit
  simp only [fraction, Int.cast_natCast]
  rw [← hcast]
  push_cast
  norm_num
  ring

theorem value_toAlea (h : g.Bounded) : g.toAlea.value = fraction g.next.x2 := by
  rw [Alea.value, total_toAlea h, toInt32_fraction (total_lt h), sub, fraction_sub_quotient]
  exact nearestDouble_fraction (by rw [abs_of_nonneg] <;> omega)

theorem next_toAlea (h : g.Bounded) : g.toAlea.next = g.next.toAlea := by
  rw [Alea.next, value_toAlea h, total_toAlea h, toInt32_fraction (total_lt h)]
  rfl

/-- A byte is the highest eight bits of a word. -/
theorem byte_toAlea (h : g.Bounded) :
    mul g.toAlea.value 0x100 = g.toAlea.value * 0x100 ∧ g.toAlea.value * 0x100 = (g.next.x2 : ℚ) / (2 ^ 24 : ℕ) := by
  have hlt := h.next.x2
  have hdyadic : fraction g.next.x2 * 0x100 = ((g.next.x2 : ℤ) : ℚ) * 2 ^ (-24 : ℤ) := by
    simp only [fraction]
    norm_num
    ring
  rw [value_toAlea h, mul, hdyadic, nearestDouble_dyadic (by rw [abs_of_nonneg] <;> omega), zpow_neg, div_eq_mul_inv]
  refine ⟨rfl, ?_⟩
  push_cast
  rfl

theorem exact_toAlea (h : g.Bounded) : g.toAlea.Exact := by
  have hcarry := h.carry
  have hproduct := product_toAlea h
  have hfraction : mul g.carry inverse = g.carry * 2 ^ (-32 : ℤ) := mul_inverse (show g.carry < 2 ^ 32 by omega)
  refine ⟨hproduct.1.trans hproduct.2.symm, hfraction, ?_, ?_, (byte_toAlea h).1⟩
  · rw [total_toAlea h, Carrying.total, Carrying.toAlea, hproduct.2]
    simp only [fraction]
    push_cast
    ring
  · have hquotient : toInt32 g.toAlea.total = (g.total / 2 ^ 32 : ℕ) := by
      rw [total_toAlea h, toInt32_fraction (total_lt h)]
    rw [value_toAlea h, hquotient, total_toAlea h, fraction_sub_quotient]
    rfl

theorem iterate_toAlea (h : g.Bounded) (k : ℕ) : Alea.next^[k] g.toAlea = (Carrying.next^[k] g).toAlea := by
  induction k with
  | zero => rfl
  | succ k ih => rw [Function.iterate_succ_apply', Function.iterate_succ_apply', ih, next_toAlea (h.iterate k)]

theorem exists_alea (seed : List ℕ) : ∃ g : Carrying, g.Bounded ∧ alea seed = g.toAlea := by
  rw [alea]
  rcases hmash0 : mash 0xefc8249d [32] with ⟨s0, n0⟩
  rcases hmash1 : mash n0 [32] with ⟨s1, n1⟩
  rcases hmash2 : mash n1 [32] with ⟨s2, n2⟩
  rcases hmash3 : mash n2 seed with ⟨m0, n3⟩
  rcases hmash4 : mash n3 seed with ⟨m1, n4⟩
  rcases hmash5 : mash n4 seed with ⟨m2, n5⟩
  have hword : ∀ {n : ℚ} {data : List ℕ} {m n' : ℚ}, mash n data = (m, n') →
      ∃ w : ℕ, w < 2 ^ 32 ∧ m = fraction w := by
    intro n data m n' hmash
    have hexists := exists_mash n data
    rwa [hmash] at hexists
  rcases hword hmash0 with ⟨a0, ha0, rfl⟩
  rcases hword hmash3 with ⟨b0, hb0, rfl⟩
  rcases hword hmash1 with ⟨a1, ha1, rfl⟩
  rcases hword hmash4 with ⟨b1, hb1, rfl⟩
  rcases hword hmash2 with ⟨a2, ha2, rfl⟩
  rcases hword hmash5 with ⟨b2, hb2, rfl⟩
  rcases exists_seeded ha0 hb0 with ⟨x0, hx0, hseeded0⟩
  rcases exists_seeded ha1 hb1 with ⟨x1, hx1, hseeded1⟩
  rcases exists_seeded ha2 hb2 with ⟨x2, hx2, hseeded2⟩
  refine ⟨⟨1, x0, x1, x2⟩, ⟨by simp, hx0, hx1, hx2⟩, ?_⟩
  simp only [hmash1, hmash2, hmash3, hmash4, hmash5, hseeded0, hseeded1, hseeded2]
  rfl

/-! ## Bytes and identifiers made from it -/

/-- `fillWithRandom`: the bytes that it writes, and the generator afterwards. -/
def fillWithRandom : ℕ → Alea → List ℤ × Alea
  | 0, xg => ([], xg)
  | n + 1, xg =>
    let (bytes, xg') := fillWithRandom n xg.next
    (⌊mul xg.value 0x100⌋ % 0x100 :: bytes, xg')

/-- `n.toString(16).padStart(p, '0')`. -/
def ho (n p : ℕ) : List Char :=
  let digits := Nat.toDigits 16 n
  List.replicate (p - digits.length) '0' ++ digits

/-- The word that is drawn for `setUint32`. -/
def drawUint32 (xg : Alea) : ℕ := (truncate (mul xg.value 0x100000000) % 2 ^ 32).toNat

/-- `uuid4FromRandom` on the four words, the view being 16 bytes in big-endian order. -/
def uuid4OfWords (w0 w1 w2 w3 : ℕ) : List Char :=
  let byte6 := (w1 / 2 ^ 8 % 2 ^ 8 &&& 0xf) ||| 0x40
  let byte8 := (w2 / 2 ^ 24 &&& 0x3f) ||| 0x80
  ho w0 8 ++ '-' :: ho (w1 / 2 ^ 16) 4 ++ '-' :: ho (byte6 * 2 ^ 8 + w1 % 2 ^ 8) 4 ++
    '-' :: ho (byte8 * 2 ^ 8 + w2 / 2 ^ 16 % 2 ^ 8) 4 ++
    '-' :: ho (w2 % 2 ^ 16 * 2 ^ 16 + w3 / 2 ^ 16) 8 ++ ho (w3 % 2 ^ 16) 4

def uuid4FromRandom (xg : Alea) : List Char :=
  uuid4OfWords (drawUint32 xg) (drawUint32 xg.next) (drawUint32 xg.next.next) (drawUint32 xg.next.next.next)

/-- The lowest digits of a number. -/
def hexDigits (n : ℕ) : ℕ → List Char
  | 0 => []
  | p + 1 => hexDigits (n / 16) p ++ [Nat.digitChar (n % 16)]

theorem length_hexDigits (n p : ℕ) : (hexDigits n p).length = p := by
  induction p generalizing n with
  | zero => rfl
  | succ p ih => rw [hexDigits, List.length_append, ih, List.length_singleton]

theorem hexDigits_zero (p : ℕ) : hexDigits 0 p = List.replicate p '0' := by
  induction p with
  | zero => rfl
  | succ p ih =>
    rw [hexDigits, Nat.zero_div, ih, List.replicate_succ']
    rfl

theorem ho_eq_hexDigits {p : ℕ} (hp : 0 < p) : ∀ {n : ℕ}, n < 16 ^ p → ho n p = hexDigits n p := by
  induction p, hp using Nat.le_induction with
  | base =>
    intro n hn
    have hlt : n < 16 := by omega
    simp only [ho, Nat.toDigits_of_lt_base hlt, hexDigits, Nat.mod_eq_of_lt hlt]
    rfl
  | succ p hp ih =>
    intro n hn
    have hquotient : n / 16 < 16 ^ p := by
      rw [pow_succ] at hn
      omega
    have hrest := ih hquotient
    rcases Nat.lt_or_ge n 16 with hlt | hge
    · have hzero : n / 16 = 0 := by omega
      rw [hexDigits, hzero, hexDigits_zero, Nat.mod_eq_of_lt hlt, ho, Nat.toDigits_of_lt_base hlt]
      rfl
    · rw [hexDigits, ← hrest, ho, Nat.toDigits_of_base_le (by decide) hge, ho]
      simp only [List.length_append, List.length_singleton, Nat.add_sub_add_right, List.append_assoc]

theorem digitChar_inj {a b : ℕ} (ha : a < 16) (hb : b < 16) : Nat.digitChar a = Nat.digitChar b ↔ a = b := by
  have hall : ∀ a b : Fin 16, Nat.digitChar a = Nat.digitChar b → a = b := by decide
  constructor
  · intro h
    exact congrArg Fin.val (hall ⟨a, ha⟩ ⟨b, hb⟩ h)
  · exact congrArg _

theorem hexDigits_inj {p : ℕ} : ∀ {n m : ℕ}, n < 16 ^ p → m < 16 ^ p →
    (hexDigits n p = hexDigits m p ↔ n = m) := by
  induction p with
  | zero =>
    intro n m hn hm
    simp only [hexDigits, true_iff]
    omega
  | succ p ih =>
    intro n m hn hm
    rw [pow_succ] at hn hm
    constructor
    · intro h
      rw [hexDigits, hexDigits] at h
      have hlength := (length_hexDigits (n / 16) p).trans (length_hexDigits (m / 16) p).symm
      have hquotient := (ih (by omega) (by omega)).mp (List.append_inj_left h hlength)
      have hlast := (digitChar_inj (Nat.mod_lt n (by decide)) (Nat.mod_lt m (by decide))).mp
        (List.singleton_inj.mp (List.append_inj_right h hlength))
      omega
    · rintro rfl
      rfl

theorem hexDigits_append_inj {p n m : ℕ} {rest rest' : List Char} (hn : n < 16 ^ p) (hm : m < 16 ^ p) :
    hexDigits n p ++ rest = hexDigits m p ++ rest' ↔ n = m ∧ rest = rest' := by
  have hlength := (length_hexDigits n p).trans (length_hexDigits m p).symm
  constructor
  · intro h
    exact ⟨(hexDigits_inj hn hm).mp (List.append_inj_left h hlength), List.append_inj_right h hlength⟩
  · rintro ⟨rfl, rfl⟩
    rfl

theorem hexDigits_succ (a m p : ℕ) (hm : m < 16 ^ p) :
    hexDigits (a * 16 ^ p + m) (p + 1) = Nat.digitChar (a % 16) :: hexDigits m p := by
  induction p generalizing m with
  | zero =>
    have hzero : m = 0 := by omega
    simp [hexDigits, hzero]
  | succ p ih =>
    have hsplit : a * 16 ^ (p + 1) + m = 16 * (a * 16 ^ p + m / 16) + m % 16 := by
      rw [pow_succ]
      have := Nat.div_add_mod m 16
      ring_nf
      omega
    have hquotient : m / 16 < 16 ^ p := by
      rw [pow_succ] at hm
      omega
    rw [hexDigits, hsplit, Nat.mul_add_mod, Nat.mod_mod, Nat.mul_add_div (by decide),
      Nat.div_eq_of_lt (Nat.mod_lt m (by decide)), Nat.add_zero, ih _ hquotient]
    rfl

/-- A character of a number in base 16. -/
def isHex (c : Char) : Bool := "0123456789abcdef".toList.contains c

theorem isHex_of_mem {n p : ℕ} {c : Char} (h : c ∈ hexDigits n p) : isHex c = true := by
  have hall : ∀ d : Fin 16, isHex (Nat.digitChar d) = true := by decide
  induction p generalizing n with
  | zero => cases h
  | succ p ih =>
    rw [hexDigits, List.mem_append, List.mem_singleton] at h
    rcases h with h | rfl
    · exact ih h
    · exact hall ⟨n % 16, Nat.mod_lt n (by decide)⟩

/-- An identifier of version 4, the variant being the one of the standard. -/
def IsUuid4 (text : List Char) : Prop :=
  ∃ timeLow timeMid timeHigh clock node : List Char, ∃ variant : Char,
    text = timeLow ++ '-' :: (timeMid ++ '-' :: '4' :: (timeHigh ++ '-' :: variant :: (clock ++ '-' :: node))) ∧
    timeLow.length = 8 ∧ timeMid.length = 4 ∧ timeHigh.length = 3 ∧ clock.length = 3 ∧ node.length = 12 ∧
    variant ∈ ['8', '9', 'a', 'b'] ∧ ∀ c ∈ timeLow ++ timeMid ++ timeHigh ++ clock ++ node, isHex c = true

/-- The bits of four words that the identifier keeps: all but the ones that say its version and its variant. -/
def keptBits (w0 w1 w2 w3 : ℕ) : ℕ × ℕ × ℕ × ℕ × ℕ := (w0, w1 / 2 ^ 16, w1 % 2 ^ 12, w2 % 2 ^ 30, w3)

variable {w0 w1 w2 w3 : ℕ}

theorem variant_eq (half : ℕ) : (half / 2 ^ 8 % 64 + 0x80) * 2 ^ 8 + half % 2 ^ 8 =
    (8 + half / 2 ^ 12 % 4) * 16 ^ 3 + half % 2 ^ 12 := by
  omega

theorem uuid4OfWords_eq (h0 : w0 < 2 ^ 32) (h1 : w1 < 2 ^ 32) (h3 : w3 < 2 ^ 32) :
    uuid4OfWords w0 w1 w2 w3 = hexDigits w0 8 ++ '-' :: (hexDigits (w1 / 2 ^ 16) 4 ++
      '-' :: '4' :: (hexDigits (w1 % 2 ^ 12) 3 ++ '-' :: Nat.digitChar (8 + w2 / 2 ^ 28 % 4) ::
        (hexDigits (w2 / 2 ^ 16 % 2 ^ 12) 3 ++
          '-' :: (hexDigits (w2 % 2 ^ 16 * 2 ^ 16 + w3 / 2 ^ 16) 8 ++ hexDigits (w3 % 2 ^ 16) 4)))) := by
  have hlow : ∀ b : Fin 16, (b : ℕ) ||| 0x40 = b + 0x40 := by decide
  have hhigh : ∀ b : Fin 64, (b : ℕ) ||| 0x80 = b + 0x80 := by decide
  have hbyte6 : (w1 / 2 ^ 8 % 2 ^ 8 &&& 0xf) ||| 0x40 = w1 / 2 ^ 8 % 16 + 0x40 := by
    have hand : w1 / 2 ^ 8 % 2 ^ 8 &&& 0xf = w1 / 2 ^ 8 % 16 := by
      rw [Nat.and_two_pow_sub_one_eq_mod _ 4]
      omega
    rw [hand]
    exact hlow ⟨_, Nat.mod_lt _ (by decide)⟩
  have hbyte8 : (w2 / 2 ^ 24 &&& 0x3f) ||| 0x80 = w2 / 2 ^ 24 % 64 + 0x80 := by
    have hand : w2 / 2 ^ 24 &&& 0x3f = w2 / 2 ^ 24 % 64 := Nat.and_two_pow_sub_one_eq_mod _ 6
    rw [hand]
    exact hhigh ⟨_, Nat.mod_lt _ (by decide)⟩
  have hversion : (w1 / 2 ^ 8 % 16 + 0x40) * 2 ^ 8 + w1 % 2 ^ 8 = 4 * 16 ^ 3 + w1 % 2 ^ 12 := by omega
  have hvariant : (w2 / 2 ^ 24 % 64 + 0x80) * 2 ^ 8 + w2 / 2 ^ 16 % 2 ^ 8 =
      (8 + w2 / 2 ^ 28 % 4) * 16 ^ 3 + w2 / 2 ^ 16 % 2 ^ 12 := by
    have h24 : w2 / 2 ^ 24 = w2 / 2 ^ 16 / 2 ^ 8 := by omega
    have h28 : w2 / 2 ^ 28 = w2 / 2 ^ 16 / 2 ^ 12 := by omega
    rw [h24, h28]
    exact variant_eq _
  have hdigit : (8 + w2 / 2 ^ 28 % 4) % 16 = 8 + w2 / 2 ^ 28 % 4 := by omega
  simp only [uuid4OfWords, hbyte6, hbyte8, hversion, hvariant]
  rw [ho_eq_hexDigits (by decide) (show w0 < 16 ^ 8 by omega),
    ho_eq_hexDigits (by decide) (show w1 / 2 ^ 16 < 16 ^ 4 by omega),
    ho_eq_hexDigits (by decide) (show 4 * 16 ^ 3 + w1 % 2 ^ 12 < 16 ^ 4 by omega),
    ho_eq_hexDigits (by decide) (show (8 + w2 / 2 ^ 28 % 4) * 16 ^ 3 + w2 / 2 ^ 16 % 2 ^ 12 < 16 ^ 4 by omega),
    ho_eq_hexDigits (by decide) (show w2 % 2 ^ 16 * 2 ^ 16 + w3 / 2 ^ 16 < 16 ^ 8 by omega),
    ho_eq_hexDigits (by decide) (show w3 % 2 ^ 16 < 16 ^ 4 by omega),
    hexDigits_succ 4 _ 3 (by omega), hexDigits_succ _ _ 3 (by omega), hdigit]
  simp only [List.append_assoc, List.cons_append]
  rfl

theorem uuid4OfWords_valid (h0 : w0 < 2 ^ 32) (h1 : w1 < 2 ^ 32) (h3 : w3 < 2 ^ 32) :
    IsUuid4 (uuid4OfWords w0 w1 w2 w3) := by
  have hvariant : ∀ d : Fin 4, Nat.digitChar (8 + d) ∈ ['8', '9', 'a', 'b'] := by decide
  refine ⟨_, _, _, _, _, _, uuid4OfWords_eq h0 h1 h3, length_hexDigits _ _, length_hexDigits _ _,
    length_hexDigits _ _, length_hexDigits _ _, ?_, hvariant ⟨_, Nat.mod_lt _ (by decide)⟩, ?_⟩
  · rw [List.length_append, length_hexDigits, length_hexDigits]
  · intro c hc
    simp only [List.mem_append] at hc
    rcases hc with (((hc | hc) | hc) | hc) | hc | hc
    all_goals exact isHex_of_mem hc

theorem uuid4OfWords_inj {v0 v1 v2 v3 : ℕ} (h0 : w0 < 2 ^ 32) (h1 : w1 < 2 ^ 32) (h3 : w3 < 2 ^ 32)
    (h0' : v0 < 2 ^ 32) (h1' : v1 < 2 ^ 32) (h3' : v3 < 2 ^ 32) :
    uuid4OfWords w0 w1 w2 w3 = uuid4OfWords v0 v1 v2 v3 ↔ keptBits w0 w1 w2 w3 = keptBits v0 v1 v2 v3 := by
  rw [uuid4OfWords_eq h0 h1 h3, uuid4OfWords_eq h0' h1' h3']
  rw [hexDigits_append_inj (by omega) (by omega), List.cons_inj_right, hexDigits_append_inj (by omega) (by omega),
    List.cons_inj_right, List.cons_inj_right, hexDigits_append_inj (by omega) (by omega), List.cons_inj_right,
    List.cons_eq_cons, digitChar_inj (by omega) (by omega), hexDigits_append_inj (by omega) (by omega),
    List.cons_inj_right, hexDigits_append_inj (by omega) (by omega), hexDigits_inj (by omega) (by omega)]
  simp only [keptBits, Prod.mk.injEq]
  omega

/-! ## What is drawn -/

/-- A word is what a draw is made of, and its highest bits are a byte of `fillWithRandom`. -/
theorem drawUint32_toAlea (h : g.Bounded) : drawUint32 g.toAlea = g.next.x2 := by
  have hlt := h.next.x2
  have hscaled : mul (fraction g.next.x2) 0x100000000 = g.next.x2 := by
    have hproduct : fraction g.next.x2 * 0x100000000 = ((g.next.x2 : ℤ) : ℚ) := by
      rw [fraction, mul_assoc]
      norm_num
    rw [mul, hproduct, nearestDouble_intCast (by rw [abs_of_nonneg] <;> omega), Int.cast_natCast]
  have hwhole : truncate (g.next.x2 : ℚ) = g.next.x2 := by
    rw [truncate, if_neg (Nat.cast_nonneg _).not_gt, Int.floor_natCast]
  rw [drawUint32, value_toAlea h, hscaled, hwhole]
  omega

theorem fillWithRandom_toAlea (n : ℕ) : ∀ {g : Carrying}, g.Bounded → fillWithRandom n g.toAlea =
    ((List.range n).map fun i => (((Carrying.next^[i + 1] g).x2 / 2 ^ 24 : ℕ) : ℤ), (Carrying.next^[n] g).toAlea) := by
  induction n with
  | zero =>
    intro g h
    rfl
  | succ n ih =>
    intro g h
    have hlt := h.next.x2
    have hbyte : ⌊mul g.toAlea.value 0x100⌋ % 0x100 = ((g.next.x2 / 2 ^ 24 : ℕ) : ℤ) := by
      have hfloor : ⌊(g.next.x2 : ℚ) / (2 ^ 24 : ℕ)⌋ = ((g.next.x2 / 2 ^ 24 : ℕ) : ℤ) := by
        exact_mod_cast Rat.floor_natCast_div_natCast g.next.x2 (2 ^ 24)
      rw [(byte_toAlea h).1, (byte_toAlea h).2, hfloor]
      omega
    rw [fillWithRandom, next_toAlea h, ih h.next, hbyte, List.range_succ_eq_map, List.map_cons, List.map_map]
    rfl

/-- The generator of doubles is the one of whole numbers, in every state: no operation of `next` rounds, the number
it gives is the fraction of the next word, and a byte that is filled in is the highest eight bits of one. -/
theorem alea_refines (seed : List ℕ) : ∃ g : Carrying, ∀ k,
    (Carrying.next^[k] g).Bounded ∧
    Alea.next^[k] (alea seed) = (Carrying.next^[k] g).toAlea ∧
    (Alea.next^[k] (alea seed)).Exact ∧
    (alea seed).nth k = fraction (Carrying.next^[k + 1] g).x2 ∧ 0 ≤ (alea seed).nth k ∧ (alea seed).nth k < 1 ∧
    ∀ n, fillWithRandom n (Alea.next^[k] (alea seed)) =
      ((List.range n).map fun i => (((Carrying.next^[k + i + 1] g).x2 / 2 ^ 24 : ℕ) : ℤ),
        (Carrying.next^[k + n] g).toAlea) := by
  rcases exists_alea seed with ⟨g, hbounded, heq⟩
  refine ⟨g, fun k => ?_⟩
  have hstate : Alea.next^[k] (alea seed) = (Carrying.next^[k] g).toAlea := by rw [heq, iterate_toAlea hbounded]
  have hnth : (alea seed).nth k = fraction (Carrying.next^[k + 1] g).x2 := by
    rw [Alea.nth, hstate, value_toAlea (hbounded.iterate k), Function.iterate_succ_apply']
  have hrange := fraction_mem_unit (hbounded.iterate (k + 1)).x2
  have hiterate : ∀ i, Carrying.next^[i] (Carrying.next^[k] g) = Carrying.next^[k + i] g := by
    intro i
    rw [Nat.add_comm, Function.iterate_add_apply]
  refine ⟨hbounded.iterate k, hstate, ?_, hnth, ?_, ?_, fun n => ?_⟩
  · rw [hstate]
    exact exact_toAlea (hbounded.iterate k)
  · rw [hnth]
    exact hrange.1
  · rw [hnth]
    exact hrange.2
  · rw [hstate, fillWithRandom_toAlea n (hbounded.iterate k), hiterate]
    simp only [hiterate, Nat.add_assoc]

/-- The bits of the next four words that an identifier keeps. -/
def Alea.keptBits (xg : Alea) : ℕ × ℕ × ℕ × ℕ × ℕ :=
  RandomNumbers.keptBits (drawUint32 xg) (drawUint32 xg.next) (drawUint32 xg.next.next) (drawUint32 xg.next.next.next)

/-- The generator after some draws. -/
def Alea.after (seed : List ℕ) (draws : ℕ) : Alea := Alea.next^[draws] (alea seed)

theorem Alea.exists_after (seed : List ℕ) (draws : ℕ) :
    ∃ g : Carrying, g.Bounded ∧ Alea.after seed draws = g.toAlea := by
  rcases exists_alea seed with ⟨g, hbounded, heq⟩
  exact ⟨_, hbounded.iterate draws, by rw [Alea.after, heq, iterate_toAlea hbounded]⟩

/-- Every identifier is one of version 4, and two of them are the same only if the 122 bits that they keep of what
was drawn are. -/
theorem uuid4FromRandom_correct (seed : List ℕ) (draws : ℕ) : IsUuid4 (uuid4FromRandom (.after seed draws)) ∧
    ∀ seed' draws', uuid4FromRandom (.after seed draws) = uuid4FromRandom (.after seed' draws') ↔
      (Alea.after seed draws).keptBits = (Alea.after seed' draws').keptBits := by
  have hwords : ∀ {g : Carrying}, g.Bounded → drawUint32 g.toAlea < 2 ^ 32 ∧ drawUint32 g.toAlea.next < 2 ^ 32 ∧
      drawUint32 g.toAlea.next.next.next < 2 ^ 32 := by
    intro g h
    rw [next_toAlea h, next_toAlea h.next, next_toAlea h.next.next, drawUint32_toAlea h, drawUint32_toAlea h.next,
      drawUint32_toAlea h.next.next.next]
    exact ⟨h.next.x2, h.next.next.x2, h.next.next.next.next.x2⟩
  rcases Alea.exists_after seed draws with ⟨g, hbounded, heq⟩
  rcases hwords hbounded with ⟨h0, h1, h3⟩
  rw [heq]
  refine ⟨uuid4OfWords_valid h0 h1 h3, fun seed' draws' => ?_⟩
  rcases Alea.exists_after seed' draws' with ⟨g', hbounded', heq'⟩
  rcases hwords hbounded' with ⟨h0', h1', h3'⟩
  rw [heq']
  exact uuid4OfWords_inj h0 h1 h3 h0' h1' h3'

end TemporalSdk.RandomNumbers
