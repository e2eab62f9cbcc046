import TemporalSdk.Machine.Utf8
import Mathlib.Data.List.Chain
import Mathlib.Tactic.Linarith

/-!
# TextEncoder — the bundled encoder

`TextEncoder.encode` of `packages/common/src/encoding.ts`: one loop over the code units of a string, which writes into
a buffer of a guessed size and makes the buffer larger once the guess turns out to be too small.
-/

namespace TemporalSdk.Encoding

open Machine
open Machine.JsText (isHighSurrogate isLowSurrogate EndsHigh)

/-! ## The buffer -/

/-- The typed array, and the place of the next byte in it. -/
structure Output where
  result : List UInt8
  pos : ℕ
  upgradededArraySize : Bool

/-- `result[pos] = byte`, which behind the end of the array does nothing. -/
def Output.put (out : Output) (byte : UInt8) : Output :=
  { out with result := out.result.set out.pos byte, pos := out.pos + 1 }

def Output.putAll (out : Output) (bytes : List UInt8) : Output := bytes.foldl Output.put out

/-- The check before three bytes are written.  `set` throws if the larger array is not larger. -/
def Output.widenCheck (len i : ℕ) (out : Output) : Option Output :=
  if !out.upgradededArraySize ∧ i <<< 1 < out.pos ∧ i <<< 1 < out.pos - 7 then
    if out.result.length ≤ len * 3 then
      some { out with
        result := out.result ++ List.replicate (len * 3 - out.result.length) 0
        upgradededArraySize := true }
    else none
  else some out

/-! ## The loop -/

def twoBytes (point : ℕ) : List UInt8 :=
  [UInt8.ofNat (0x6 <<< 5 ||| point >>> 6), UInt8.ofNat (0x2 <<< 6 ||| point &&& 0x3f)]

def threeBytes (point : ℕ) : List UInt8 :=
  [UInt8.ofNat (0xe <<< 4 ||| point >>> 12), UInt8.ofNat (0x2 <<< 6 ||| point >>> 6 &&& 0x3f),
    UInt8.ofNat (0x2 <<< 6 ||| point &&& 0x3f)]

def fourBytes (point : ℕ) : List UInt8 :=
  [UInt8.ofNat (0x1e <<< 3 ||| point >>> 18), UInt8.ofNat (0x2 <<< 6 ||| point >>> 12 &&& 0x3f),
    UInt8.ofNat (0x2 <<< 6 ||| point >>> 6 &&& 0x3f), UInt8.ofNat (0x2 <<< 6 ||| point &&& 0x3f)]

/-- `((point << 10) + nextcode - 0x35fdc00) | 0` -/
def surrogatePoint (point nextcode : ℕ) : ℕ := point <<< 10 + nextcode - 0x35fdc00

/-- The turns of the loop from the index `i` on. -/
def encodeUnits (len : ℕ) : JsText → ℕ → Output → Option Output
  | [], _, out => some out
  | point :: rest, i, out =>
    if point.toNat ≤ 0x7f then encodeUnits len rest (i + 1) (out.put (UInt8.ofNat point.toNat))
    else if point.toNat ≤ 0x7ff then encodeUnits len rest (i + 1) (out.putAll (twoBytes point.toNat))
    else if isHighSurrogate point then
      match rest with
      -- `charCodeAt` gives no code behind the last unit.
      | [] => (out.widenCheck len (i + 1)).bind fun out => some (out.putAll (threeBytes 65533))
      | nextcode :: rest =>
        if isLowSurrogate nextcode then
          if surrogatePoint point.toNat nextcode.toNat > 0xffff then
            encodeUnits len rest (i + 2)
              (out.putAll (fourBytes (surrogatePoint point.toNat nextcode.toNat)))
          else
            encodeUnits len rest (i + 2)
              (out.putAll (threeBytes (surrogatePoint point.toNat nextcode.toNat)))
        else
          -- The unit that was looked at is not looked at again.
          (out.widenCheck len (i + 1)).bind fun out =>
            encodeUnits len rest (i + 2) (out.putAll (threeBytes 65533))
    else
      (out.widenCheck len i).bind fun out =>
        encodeUnits len rest (i + 1)
          (out.putAll (threeBytes (if isLowSurrogate point then 65533 else point.toNat)))

/-- `TextEncoder.encode`: nothing, if it throws. -/
def encode (inputString : JsText) : Option (List UInt8) :=
  let len := inputString.length
  (encodeUnits len inputString 0 ⟨List.replicate (len <<< 1 + 8) 0, 0, false⟩).map fun out => out.result.take out.pos

/-! ## Bytes -/

section Bytes

theorem or_eq_add {a b k : ℕ} (h : b < 2 ^ k) : a <<< k ||| b = 2 ^ k * a + b := by
  rw [← Nat.shiftLeft_add_eq_or_of_lt h, Nat.shiftLeft_eq, Nat.mul_comm]

theorem continuation_eq (n : ℕ) : 0x2 <<< 6 ||| n &&& 0x3f = 0x80 + n % 64 := by
  have hmask : n &&& 0x3f = n % 64 := Nat.and_two_pow_sub_one_eq_mod n 6
  have hlt : n % 64 < 2 ^ 6 := Nat.mod_lt n (by decide)
  rw [hmask, or_eq_add hlt]
  rfl

theorem shiftRight_eq (n k : ℕ) : n >>> k = n / 2 ^ k := Nat.shiftRight_eq_div_pow n k

theorem twoBytes_eq {c : Char} (hlow : 0x7f < c.toNat) (h : c.toNat ≤ 0x7ff) :
    twoBytes c.toNat = String.utf8EncodeChar c := by
  rw [utf8EncodeChar_two hlow h, twoBytes, continuation_eq, shiftRight_eq, or_eq_add (by omega)]
  rfl

theorem threeBytes_eq {c : Char} (hlow : 0x7ff < c.toNat) (h : c.toNat ≤ 0xffff) :
    threeBytes c.toNat = String.utf8EncodeChar c := by
  rw [utf8EncodeChar_three hlow h, threeBytes, continuation_eq, continuation_eq, shiftRight_eq, shiftRight_eq,
    or_eq_add (by omega)]
  rfl

theorem fourBytes_eq {c : Char} (h : 0xffff < c.toNat) : fourBytes c.toNat = String.utf8EncodeChar c := by
  have hvalid := JsText.toNat_valid c
  rw [utf8EncodeChar_four h, fourBytes, continuation_eq, continuation_eq, continuation_eq, shiftRight_eq,
    shiftRight_eq, shiftRight_eq, or_eq_add (by omega)]
  rfl

theorem surrogatePoint_eq {u v : UInt16} (hu : isHighSurrogate u = true) (hv : isLowSurrogate v = true) :
    surrogatePoint u.toNat v.toNat = (JsText.pairChar u v).toNat := by
  have hpair := JsText.toNat_pairChar hu hv
  simp only [isHighSurrogate, isLowSurrogate, decide_eq_true_eq] at hu hv
  have hshift : u.toNat <<< 10 = u.toNat * 1024 := Nat.shiftLeft_eq u.toNat 10
  rw [hpair]
  unfold surrogatePoint
  omega

theorem replacement_eq : threeBytes 65533 = String.utf8EncodeChar '\ufffd' := by
  have hnat : '\ufffd'.toNat = 65533 := rfl
  rw [← hnat]
  exact threeBytes_eq (by rw [hnat]; omega) (by rw [hnat]; omega)

end Bytes

/-! ## What a unit is written as -/

section Units

variable {u : UInt16}

theorem toNat_unitChar_small (h : u.toNat ≤ 0x7ff) : (JsText.unitChar u).toNat = u.toNat := by
  apply JsText.toNat_unitChar
  · simp only [isHighSurrogate, decide_eq_false_iff_not]
    omega
  · simp only [isLowSurrogate, decide_eq_false_iff_not]
    omega

theorem not_high_small (h : u.toNat ≤ 0x7ff) : isHighSurrogate u = false := by
  simp only [isHighSurrogate, decide_eq_false_iff_not]
  omega

theorem utf8_one (h : u.toNat ≤ 0x7f) (rest : JsText) :
    JsText.utf8 (u :: rest) = [UInt8.ofNat u.toNat] ++ JsText.utf8 rest := by
  have hnat := toNat_unitChar_small (u := u) (by omega)
  rw [JsText.utf8_unit (not_high_small (by omega)), utf8EncodeChar_one (by omega), hnat]

theorem utf8_two (hlow : 0x7f < u.toNat) (h : u.toNat ≤ 0x7ff) (rest : JsText) :
    JsText.utf8 (u :: rest) = twoBytes u.toNat ++ JsText.utf8 rest := by
  have hnat := toNat_unitChar_small h
  rw [JsText.utf8_unit (not_high_small h), ← twoBytes_eq (by omega) (by omega), hnat]

theorem utf8_three (hlow : 0x7ff < u.toNat) (hhigh : isHighSurrogate u = false) (rest : JsText) :
    JsText.utf8 (u :: rest) = threeBytes (if isLowSurrogate u then 65533 else u.toNat) ++ JsText.utf8 rest := by
  rw [JsText.utf8_unit hhigh]
  cases hlowS : isLowSurrogate u with
  | true => rw [JsText.unitChar_of_surrogate (by rw [hlowS, Bool.or_true]), ← replacement_eq, if_pos rfl]
  | false =>
    have hnat := JsText.toNat_unitChar hhigh hlowS
    have hlt := u.toNat_lt
    rw [if_neg Bool.false_ne_true, ← threeBytes_eq (by omega) (by omega), hnat]

theorem utf8_four {v : UInt16} (hu : isHighSurrogate u = true) (hv : isLowSurrogate v = true) (rest : JsText) :
    JsText.utf8 (u :: v :: rest) = fourBytes (surrogatePoint u.toNat v.toNat) ++ JsText.utf8 rest := by
  rw [JsText.utf8_pair hu hv, surrogatePoint_eq hu hv, fourBytes_eq (JsText.toNat_pairChar_gt hu hv)]

theorem utf8_lone_high {v : UInt16} (hu : isHighSurrogate u = true) (hv : isLowSurrogate v = false) (rest : JsText) :
    JsText.utf8 (u :: v :: rest) = threeBytes 65533 ++ JsText.utf8 (v :: rest) := by
  rw [JsText.utf8_lone hv, JsText.unitChar_of_surrogate (by rw [hu, Bool.true_or]), ← replacement_eq]

theorem utf8_last_high (hu : isHighSurrogate u = true) : JsText.utf8 [u] = threeBytes 65533 := by
  have hchar : JsText.unitChar u = '\ufffd' := JsText.unitChar_of_surrogate (by rw [hu, Bool.true_or])
  rw [JsText.utf8, JsText.scalarValues, hchar, replacement_eq]
  rfl

end Units

/-! ## What is in the buffer -/

/-- So many bytes were written, and the buffer holds those for which it is large enough. -/
structure Kept (written : List UInt8) (out : Output) : Prop where
  pos : out.pos = written.length
  bytes : out.result.take out.pos = written.take out.result.length

section Writing

variable {written : List UInt8} {out : Output}

theorem Kept.put (h : Kept written out) (byte : UInt8) : Kept (written ++ [byte]) (out.put byte) where
  pos := by rw [Output.put, List.length_append, h.pos, List.length_singleton]
  bytes := by
    have hbytes := h.bytes
    have hpos := h.pos
    simp only [Output.put, List.length_set]
    by_cases hroom : out.pos < out.result.length
    · have hset : (out.result.set out.pos byte).take (out.pos + 1) = out.result.take out.pos ++ [byte] := by
        have hlength : out.pos < (out.result.set out.pos byte).length := by rwa [List.length_set]
        rw [List.take_succ_eq_append_getElem hlength, List.getElem_set_self, List.take_set_of_le (Nat.le_refl _)]
      rw [hset, hbytes, List.take_of_length_le (by omega), List.take_of_length_le (by
        rw [List.length_append, List.length_singleton]
        omega)]
    · -- The byte is lost.
      rw [List.set_eq_of_length_le (by omega), List.take_of_length_le (by omega), List.take_append_of_le_length (by omega),
        ← hbytes, List.take_of_length_le (by omega)]

theorem Kept.putAll (h : Kept written out) (bytes : List UInt8) : Kept (written ++ bytes) (out.putAll bytes) := by
  induction bytes generalizing written out with
  | nil => rwa [List.append_nil]
  | cons byte bytes ih =>
    have hput := ih (h.put byte)
    rw [List.append_assoc] at hput
    exact hput

@[simp] theorem length_putAll (out : Output) (bytes : List UInt8) :
    (out.putAll bytes).result.length = out.result.length := by
  induction bytes generalizing out with
  | nil => rfl
  | cons byte bytes ih =>
    rw [Output.putAll, List.foldl_cons]
    exact (ih (out.put byte)).trans List.length_set

@[simp] theorem upgraded_putAll (out : Output) (bytes : List UInt8) :
    (out.putAll bytes).upgradededArraySize = out.upgradededArraySize := by
  induction bytes generalizing out with
  | nil => rfl
  | cons byte bytes ih => exact ih (out.put byte)

@[simp] theorem pos_putAll (out : Output) (bytes : List UInt8) : (out.putAll bytes).pos = out.pos + bytes.length := by
  induction bytes generalizing out with
  | nil => rfl
  | cons byte bytes ih =>
    calc (out.putAll (byte :: bytes)).pos = out.pos + 1 + bytes.length := ih (out.put byte)
      _ = out.pos + (byte :: bytes).length := by
        rw [List.length_cons]
        omega

theorem pos_widenCheck {len i : ℕ} {out out' : Output} (h : out.widenCheck len i = some out') :
    out'.pos = out.pos := by
  unfold Output.widenCheck at h
  split_ifs at h
  · cases h
    rfl
  · cases h
    rfl

end Writing

/-! ## How much room there is -/

/-- By how much the bytes of a string are more than two for each unit. -/
def growth (t : JsText) : ℤ := (JsText.utf8 t).length - 2 * t.length

/-- The size of the buffer after a part of the string: it is the guess as long as nothing grew by more than the
eight bytes that the guess has to spare. -/
structure Sized (len : ℕ) (p : JsText) (out : Output) : Prop where
  guessed : out.upgradededArraySize = false →
    out.result.length = 2 * len + 8 ∧ ∀ q, q <+: p → ¬ EndsHigh q → growth q ≤ 8
  upgraded : out.upgradededArraySize = true →
    out.result.length = 3 * len ∧ ∃ q, q <+: p ∧ ¬ EndsHigh q ∧ 8 < growth q

/-- The loop stands behind `p`. -/
structure Reached (len : ℕ) (p : JsText) (out : Output) : Prop where
  ends : ¬ EndsHigh p
  kept : Kept (JsText.utf8 p) out
  sized : Sized len p out

section Room

variable {len : ℕ} {p chunk : JsText} {out : Output}

theorem growth_append (h : ¬ EndsHigh p) (t : JsText) : growth (p ++ t) = growth p + growth t := by
  simp only [growth, JsText.utf8_append h, List.length_append]
  omega

/-- Where no pair is split, a string that is longer by one character has one more such place. -/
def OneMore (chunk : JsText) : Prop :=
  ∀ p q, q <+: p ++ chunk → ¬ EndsHigh q → q <+: p ∨ q = p ++ chunk

theorem oneMore_unit (u : UInt16) : OneMore [u] := fun _ _ hq _ => (List.prefix_concat_iff.mp hq).symm

theorem oneMore_pair {u v : UInt16} (hu : isHighSurrogate u = true) : OneMore [u, v] := by
  intro p q hq hends
  have hq' : q <+: p ++ [u] ++ [v] := by rwa [List.append_assoc]
  rcases List.prefix_concat_iff.mp hq' with rfl | hfirst
  · exact Or.inr (by rw [List.append_assoc]; rfl)
  · rcases List.prefix_concat_iff.mp hfirst with rfl | hprefix
    · exact absurd (JsText.endsHigh_append_singleton.mpr hu) hends
    · exact Or.inl hprefix

theorem Sized.append (h : Sized len p out) (hends : ¬ EndsHigh p) (hone : OneMore chunk)
    (hgrowth : growth (p ++ chunk) ≤ growth p) : Sized len (p ++ chunk) out where
  guessed hflag := by
    refine ⟨(h.guessed hflag).1, fun q hq hqends => ?_⟩
    rcases hone p q hq hqends with hq | rfl
    · exact (h.guessed hflag).2 q hq hqends
    · exact hgrowth.trans ((h.guessed hflag).2 p (List.prefix_refl p) hends)
  upgraded hflag := by
    rcases (h.upgraded hflag).2 with ⟨q, hq, hqends, hlarge⟩
    exact ⟨(h.upgraded hflag).1, q, hq.trans (List.prefix_append p chunk), hqends, hlarge⟩

/-- The check is made before every character of three bytes. -/
theorem Reached.widen (h : Reached len p out) (hroom : p.length < len) {u : UInt16}
    (hgrowth : growth (p ++ [u]) = growth p + 1) (hu : isHighSurrogate u = false) :
    ∃ out', out.widenCheck len p.length = some out' ∧ Kept (JsText.utf8 p) out' ∧ Sized len (p ++ [u]) out' := by
  have hpos := h.kept.pos
  have hthree := JsText.length_utf8_le p
  have hdef : growth p = (JsText.utf8 p).length - 2 * p.length := rfl
  have hends : ¬ EndsHigh (p ++ [u]) := by
    rw [JsText.endsHigh_append_singleton, hu]
    exact Bool.false_ne_true
  have hdouble : p.length <<< 1 = 2 * p.length := by rw [Nat.shiftLeft_eq, Nat.mul_comm]
  unfold Output.widenCheck
  rw [hdouble]
  cases hflag : out.upgradededArraySize with
  | true =>
    rcases h.sized.upgraded hflag with ⟨hlength, q, hq, hqends, hlarge⟩
    simp only [Bool.not_true, Bool.false_eq_true, false_and, if_false]
    refine ⟨out, rfl, h.kept, fun hfalse => absurd hflag (by simp [hfalse]), fun _ => ⟨hlength, q, ?_, hqends, hlarge⟩⟩
    exact hq.trans (List.prefix_append p [u])
  | false =>
    rcases h.sized.guessed hflag with ⟨hlength, hsmall⟩
    have hself := hsmall p (List.prefix_refl p) h.ends
    simp only [Bool.not_false, true_and]
    split_ifs with hgrown hlarger
    · refine ⟨_, rfl, ⟨hpos, ?_⟩, nofun, fun _ => ⟨?_, p ++ [u], List.prefix_refl _, hends, by omega⟩⟩
      · have hbytes := h.kept.bytes
        rw [List.take_of_length_le (l := JsText.utf8 p) (by omega)] at hbytes
        simp only [List.length_append, List.length_replicate]
        rw [List.take_append_of_le_length (by omega), hbytes, List.take_of_length_le (by omega)]
      · simp only [List.length_append, List.length_replicate]
        omega
    · omega
    · refine ⟨out, rfl, h.kept, fun _ => ⟨hlength, fun q hq hqends => ?_⟩, fun htrue => absurd htrue (by simp [hflag])⟩
      rcases oneMore_unit u p q hq hqends with hq | rfl
      · exact hsmall q hq hqends
      · omega

theorem Reached.write {out' : Output} (hends : ¬ EndsHigh (p ++ chunk)) {bytes : List UInt8}
    (hkept : Kept (JsText.utf8 p) out') (hsized : Sized len (p ++ chunk) out')
    (hbytes : JsText.utf8 (p ++ chunk) = JsText.utf8 p ++ bytes) : Reached len (p ++ chunk) (out'.putAll bytes) where
  ends := hends
  kept := by
    rw [hbytes]
    exact hkept.putAll bytes
  sized := ⟨fun hflag => by
      rw [upgraded_putAll] at hflag
      rw [length_putAll]
      exact hsized.guessed hflag, fun hflag => by
      rw [upgraded_putAll] at hflag
      rw [length_putAll]
      exact hsized.upgraded hflag⟩

end Room

/-! ## Totality -/

/-- At most three bytes are written for a unit, so the larger array is asked for only where it is larger. -/
structure Spacious (len i : ℕ) (out : Output) : Prop where
  guessed : out.upgradededArraySize = false → out.result.length = 2 * len + 8
  pos : out.pos ≤ 3 * i

section Totality

variable {len i j : ℕ} {out : Output}

theorem Spacious.putAll (h : Spacious len i out) (k : ℕ) {bytes : List UInt8} (hthree : bytes.length ≤ 3 * k) :
    Spacious len (i + k) (out.putAll bytes) where
  guessed hflag := by
    rw [upgraded_putAll] at hflag
    rw [length_putAll]
    exact h.guessed hflag
  pos := by
    have hpos := h.pos
    rw [pos_putAll]
    omega

theorem Spacious.widen (h : Spacious len i out) (hij : i ≤ j) (hlen : j ≤ len) :
    ∃ out', out.widenCheck len j = some out' ∧ Spacious len i out' := by
  have hpos := h.pos
  have hdouble : j <<< 1 = 2 * j := by rw [Nat.shiftLeft_eq, Nat.mul_comm]
  unfold Output.widenCheck
  rw [hdouble]
  split_ifs with hgrown hlarger
  · exact ⟨_, rfl, nofun, hpos⟩
  · have hlength := h.guessed (by simpa using hgrown.1)
    omega
  · exact ⟨out, rfl, h⟩

theorem encodeUnits_total (s : JsText) (h : Spacious len i out) (hlen : i + s.length = len) :
    (encodeUnits len s i out).isSome := by
  fun_induction encodeUnits len s i out with
  | case1 => rfl
  | case2 point rest i out _ ih =>
    rw [List.length_cons] at hlen
    exact ih (h.putAll 1 (List.length_singleton.trans_le (by decide))) (by omega)
  | case3 point rest i out _ _ ih =>
    rw [List.length_cons] at hlen
    exact ih (h.putAll 1 (show 2 ≤ 3 by decide)) (by omega)
  | case4 point i out =>
    obtain ⟨out', hcheck, _⟩ := h.widen (Nat.le_succ i) (Nat.le_of_eq hlen)
    rw [hcheck]
    rfl
  | case5 point i out _ _ _ nextcode rest _ _ ih =>
    rw [List.length_cons, List.length_cons] at hlen
    exact ih (h.putAll 2 (show 4 ≤ 6 by decide)) (by omega)
  | case6 point i out _ _ _ nextcode rest _ _ ih =>
    rw [List.length_cons, List.length_cons] at hlen
    exact ih (h.putAll 2 (show 3 ≤ 6 by decide)) (by omega)
  | case7 point i out _ _ _ nextcode rest _ ih =>
    rw [List.length_cons, List.length_cons] at hlen
    obtain ⟨out', hcheck, hout'⟩ := h.widen (Nat.le_succ i) (by omega)
    rw [hcheck]
    exact ih out' (hout'.putAll 2 (show 3 ≤ 6 by decide)) (by omega)
  | case8 point rest i out _ _ _ ih =>
    rw [List.length_cons] at hlen
    obtain ⟨out', hcheck, hout'⟩ := h.widen (Nat.le_refl i) (by omega)
    rw [hcheck]
    exact ih out' (hout'.putAll 1 (show 3 ≤ 3 by decide)) (by omega)

theorem encode_total (s : JsText) : (encode s).isSome := by
  rw [encode, Option.isSome_map]
  refine encodeUnits_total s ⟨fun _ => ?_, Nat.zero_le _⟩ (Nat.zero_add _)
  rw [List.length_replicate, Nat.shiftLeft_eq, Nat.mul_comm]

end Totality

end TemporalSdk.Encoding
