import TemporalSdk.Machine.JsText
import Mathlib.Data.List.Infix

/-!
# Utf8 — strings of code units as bytes

The UTF-8 encoding of text, and of strings in which surrogates need not come in pairs: those that stand alone are
replaced.  Lengths are those of the encoding of each character.
-/

namespace TemporalSdk.Machine

/-- The encoding of text. -/
def utf8 (cs : List Char) : List UInt8 := cs.flatMap String.utf8EncodeChar

/-! ## One character -/

theorem utf8EncodeChar_one {c : Char} (h : c.toNat ≤ 0x7f) : String.utf8EncodeChar c = [UInt8.ofNat c.toNat] := by
  have hval : c.val.toNat ≤ 0x7f := h
  simp only [String.utf8EncodeChar, if_pos hval]
  rfl

theorem utf8EncodeChar_two {c : Char} (hlow : 0x7f < c.toNat) (h : c.toNat ≤ 0x7ff) :
    String.utf8EncodeChar c = [UInt8.ofNat (0xc0 + c.toNat / 64), UInt8.ofNat (0x80 + c.toNat % 64)] := by
  have hone : ¬ c.val.toNat ≤ 0x7f := by
    change ¬ c.toNat ≤ 0x7f
    omega
  have htwo : c.val.toNat ≤ 0x7ff := h
  have hlead : c.toNat / 64 % 32 = c.toNat / 64 := Nat.mod_eq_of_lt (by omega)
  simp only [String.utf8EncodeChar, if_neg hone, if_pos htwo]
  change [UInt8.ofNat (c.toNat / 64 % 32 + 0xc0), UInt8.ofNat (c.toNat % 64 + 0x80)] = _
  rw [hlead, Nat.add_comm, Nat.add_comm (c.toNat % 64)]

theorem utf8EncodeChar_three {c : Char} (hlow : 0x7ff < c.toNat) (h : c.toNat ≤ 0xffff) :
    String.utf8EncodeChar c =
      [UInt8.ofNat (0xe0 + c.toNat / 4096), UInt8.ofNat (0x80 + c.toNat / 64 % 64),
        UInt8.ofNat (0x80 + c.toNat % 64)] := by
  have hone : ¬ c.val.toNat ≤ 0x7f := by
    change ¬ c.toNat ≤ 0x7f
    omega
  have htwo : ¬ c.val.toNat ≤ 0x7ff := not_le.mpr hlow
  have hthree : c.val.toNat ≤ 0xffff := h
  have hlead : c.toNat / 4096 % 16 = c.toNat / 4096 := Nat.mod_eq_of_lt (by omega)
  simp only [String.utf8EncodeChar, if_neg hone, if_neg htwo, if_pos hthree]
  change [UInt8.ofNat (c.toNat / 4096 % 16 + 0xe0), UInt8.ofNat (c.toNat / 64 % 64 + 0x80),
    UInt8.ofNat (c.toNat % 64 + 0x80)] = _
  rw [hlead, Nat.add_comm, Nat.add_comm (c.toNat / 64 % 64), Nat.add_comm (c.toNat % 64)]

theorem utf8EncodeChar_four {c : Char} (h : 0xffff < c.toNat) :
    String.utf8EncodeChar c =
      [UInt8.ofNat (0xf0 + c.toNat / 262144), UInt8.ofNat (0x80 + c.toNat / 4096 % 64),
        UInt8.ofNat (0x80 + c.toNat / 64 % 64), UInt8.ofNat (0x80 + c.toNat % 64)] := by
  have hvalid := JsText.toNat_valid c
  have hone : ¬ c.val.toNat ≤ 0x7f := by
    change ¬ c.toNat ≤ 0x7f
    omega
  have htwo : ¬ c.val.toNat ≤ 0x7ff := by
    change ¬ c.toNat ≤ 0x7ff
    omega
  have hthree : ¬ c.val.toNat ≤ 0xffff := not_le.mpr h
  have hlead : c.toNat / 262144 % 8 = c.toNat / 262144 := Nat.mod_eq_of_lt (by omega)
  simp only [String.utf8EncodeChar, if_neg hone, if_neg htwo, if_neg hthree]
  change [UInt8.ofNat (c.toNat / 262144 % 8 + 0xf0), UInt8.ofNat (c.toNat / 4096 % 64 + 0x80),
    UInt8.ofNat (c.toNat / 64 % 64 + 0x80), UInt8.ofNat (c.toNat % 64 + 0x80)] = _
  rw [hlead, Nat.add_comm, Nat.add_comm (c.toNat / 4096 % 64), Nat.add_comm (c.toNat / 64 % 64),
    Nat.add_comm (c.toNat % 64)]

theorem utf8EncodeChar_length_pos (c : Char) : 0 < (String.utf8EncodeChar c).length := by
  rw [String.length_utf8EncodeChar]
  exact c.utf8Size_pos

theorem utf8_cons (c : Char) (cs : List Char) : utf8 (c :: cs) = String.utf8EncodeChar c ++ utf8 cs := rfl

variable (cs : List Char)

theorem length_le_length_utf8 : cs.length ≤ (utf8 cs).length := by
  induction cs with
  | nil => exact Nat.le_refl 0
  | cons c cs ih =>
    have hpos := utf8EncodeChar_length_pos c
    rw [utf8_cons, List.length_append, List.length_cons]
    omega

/-! ## Reading bytes -/

/-- How many bytes are replaced together where there is no character: those that could begin one. -/
def replacedLength : List UInt8 → ℕ
  | b :: c :: rest =>
    let low : UInt8 := if b = 0xe0 then 0xa0 else if b = 0xf0 then 0x90 else 0x80
    let high : UInt8 := if b = 0xed then 0x9f else if b = 0xf4 then 0x8f else 0xbf
    if 0xe0 ≤ b ∧ b ≤ 0xf4 ∧ low ≤ c ∧ c ≤ high then
      match rest with
      | d :: _ => if 0xf0 ≤ b ∧ 0x80 ≤ d ∧ d ≤ 0xbf then 3 else 2
      | [] => 2
    else 1
  | _ => 1

/-- The characters of bytes, so many at most. -/
def readUtf8 : ℕ → List UInt8 → List Char
  | 0, _ => []
  | _ + 1, [] => []
  | n + 1, b :: bytes =>
    match (b :: bytes).toByteArray.utf8DecodeChar? 0 with
    | some c => c :: readUtf8 n ((b :: bytes).drop c.utf8Size)
    | none => '\ufffd' :: readUtf8 n ((b :: bytes).drop (replacedLength (b :: bytes)))

/-- The encoding of text is read as the text. -/
theorem readUtf8_utf8 {n : ℕ} {cs : List Char} (h : cs.length ≤ n) : readUtf8 n (utf8 cs) = cs := by
  induction cs generalizing n with
  | nil =>
    cases n <;> rfl
  | cons c cs ih =>
    cases n with
    | zero => exact absurd h (Nat.not_succ_le_zero _)
    | succ n =>
      rw [utf8_cons]
      have hdecode : (String.utf8EncodeChar c ++ utf8 cs).toByteArray.utf8DecodeChar? 0 = some c := by
        rw [List.toByteArray_append]
        exact ByteArray.utf8DecodeChar?_utf8EncodeChar_append
      have hdrop : (String.utf8EncodeChar c ++ utf8 cs).drop c.utf8Size = utf8 cs := by
        rw [← String.length_utf8EncodeChar, List.drop_left]
      cases hbytes : String.utf8EncodeChar c ++ utf8 cs with
      | nil =>
        have hpos := utf8EncodeChar_length_pos c
        rw [(List.append_eq_nil_iff.mp hbytes).1] at hpos
        exact absurd hpos (Nat.lt_irrefl 0)
      | cons b bytes =>
        rw [hbytes] at hdecode hdrop
        simp only [readUtf8, hdecode]
        rw [hdrop, ih (Nat.le_of_succ_le_succ h)]

namespace JsText

/-- The encoding of a string, with a replacement for each surrogate that stands alone. -/
def utf8 (t : JsText) : List UInt8 := Machine.utf8 (scalarValues t)

/-- `Buffer.toString` -/
def ofUtf8 (bytes : List UInt8) : JsText := ofChars (readUtf8 bytes.length bytes)

theorem ofUtf8_utf8 (t : JsText) : ofUtf8 (utf8 t) = ofChars (scalarValues t) := by
  rw [ofUtf8, utf8, readUtf8_utf8 (length_le_length_utf8 _)]

/-! ## Code units -/

theorem toNat_unitChar {u : UInt16} (hhigh : isHighSurrogate u = false) (hlow : isLowSurrogate u = false) :
    (unitChar u).toNat = u.toNat := by
  have hvalid : u.toNat.isValidChar := by
    have hlt := u.toNat_lt
    simp only [isHighSurrogate, isLowSurrogate, decide_eq_false_iff_not] at hhigh hlow
    unfold Nat.isValidChar
    omega
  rw [unitChar, hhigh, hlow]
  simp only [Bool.or_self, Bool.false_eq_true, if_false]
  rw [Char.ofNat, dif_pos hvalid]
  rfl

theorem unitChar_of_surrogate {u : UInt16} (h : (isHighSurrogate u || isLowSurrogate u) = true) :
    unitChar u = '\ufffd' := by
  rw [unitChar, if_pos h]

variable {u v : UInt16}

theorem toNat_pairChar (hu : isHighSurrogate u = true) (hv : isLowSurrogate v = true) :
    (pairChar u v).toNat = 0x10000 + (u.toNat - 0xd800) * 0x400 + (v.toNat - 0xdc00) := by
  simp only [isHighSurrogate, isLowSurrogate, decide_eq_true_eq] at hu hv
  have hvalid : (0x10000 + (u.toNat - 0xd800) * 0x400 + (v.toNat - 0xdc00)).isValidChar := by
    unfold Nat.isValidChar
    omega
  rw [pairChar, Char.ofNat, dif_pos hvalid]
  rfl

theorem not_high_of_low {u : UInt16} (h : isLowSurrogate u = true) : isHighSurrogate u = false := by
  simp only [isHighSurrogate, isLowSurrogate, decide_eq_true_eq, decide_eq_false_iff_not] at h ⊢
  omega

theorem scalarValues_pair_cons (hu : isHighSurrogate u = true) (hv : isLowSurrogate v = true)
    (rest : JsText) : scalarValues (u :: v :: rest) = pairChar u v :: scalarValues rest := by
  rw [scalarValues, hu, hv]
  rfl

theorem scalarValues_lone_cons (hv : isLowSurrogate v = false) (rest : JsText) :
    scalarValues (u :: v :: rest) = unitChar u :: scalarValues (v :: rest) := by
  rw [scalarValues, hv, Bool.and_false]
  rfl

theorem utf8_unit {u : UInt16} (h : isHighSurrogate u = false) (rest : JsText) :
    utf8 (u :: rest) = String.utf8EncodeChar (unitChar u) ++ utf8 rest := by
  rw [utf8, scalarValues_cons_of_not_high h, utf8_cons, utf8]

theorem utf8_pair (hu : isHighSurrogate u = true) (hv : isLowSurrogate v = true) (rest : JsText) :
    utf8 (u :: v :: rest) = String.utf8EncodeChar (pairChar u v) ++ utf8 rest := by
  rw [utf8, scalarValues_pair_cons hu hv, utf8_cons, utf8]

theorem utf8_lone (hv : isLowSurrogate v = false) (rest : JsText) :
    utf8 (u :: v :: rest) = String.utf8EncodeChar (unitChar u) ++ utf8 (v :: rest) := by
  rw [utf8, scalarValues_lone_cons hv, utf8_cons, utf8]

theorem utf8_ofChars : utf8 (ofChars cs) = Machine.utf8 cs := by
  rw [utf8, scalarValues_ofChars]

/-- The last unit is a high surrogate. -/
def EndsHigh (t : JsText) : Prop := ∃ a u, t = a ++ [u] ∧ isHighSurrogate u = true

theorem not_endsHigh_nil : ¬ EndsHigh [] := by
  rintro ⟨a, u, h, _⟩
  exact absurd h.symm (List.append_ne_nil_of_right_ne_nil a (List.cons_ne_nil u []))

variable {t : JsText}

theorem endsHigh_append_singleton {u : UInt16} : EndsHigh (t ++ [u]) ↔ isHighSurrogate u = true := by
  constructor
  · rintro ⟨a, v, heq, hv⟩
    rw [(List.append_singleton_inj.mp heq).2]
    exact hv
  · exact fun h => ⟨t, u, rfl, h⟩

theorem endsHigh_cons {u : UInt16} (ht : t ≠ []) : EndsHigh (u :: t) ↔ EndsHigh t := by
  rcases List.eq_nil_or_concat t with rfl | ⟨a, v, rfl⟩
  · exact absurd rfl ht
  · rw [List.concat_eq_append, endsHigh_append_singleton, ← List.cons_append, endsHigh_append_singleton]

/-- Text is read in parts where no pair is split. -/
theorem scalarValues_append (h : ¬ EndsHigh t) (t' : JsText) :
    scalarValues (t ++ t') = scalarValues t ++ scalarValues t' := by
  fun_induction scalarValues t with
  | case1 => rfl
  | case2 u =>
    have hu : isHighSurrogate u = false := by
      have hends := mt (endsHigh_append_singleton (t := []) (u := u)).mpr h
      simpa using hends
    exact scalarValues_cons_of_not_high hu t'
  | case3 u v rest hpair ih =>
    rw [Bool.and_eq_true] at hpair
    have hrest : ¬ EndsHigh rest := by
      cases rest with
      | nil => exact not_endsHigh_nil
      | cons w rest => exact fun hw => h ((endsHigh_cons (by simp)).mpr ((endsHigh_cons (by simp)).mpr hw))
    rw [List.cons_append, List.cons_append, scalarValues_pair_cons hpair.1 hpair.2, ih hrest, List.cons_append]
  | case4 u v rest hpair ih =>
    have hrest : ¬ EndsHigh (v :: rest) := fun hv => h ((endsHigh_cons (by simp)).mpr hv)
    have hstep : scalarValues (u :: v :: (rest ++ t')) = unitChar u :: scalarValues (v :: (rest ++ t')) := by
      rw [scalarValues, if_neg hpair]
    rw [List.cons_append, List.cons_append, hstep, ← List.cons_append, ih hrest, List.cons_append]

theorem utf8_append (h : ¬ EndsHigh t) (t' : JsText) : utf8 (t ++ t') = utf8 t ++ utf8 t' := by
  rw [utf8, scalarValues_append h, Machine.utf8, List.flatMap_append]
  rfl

theorem ofChar_cases (c : Char) :
    (∃ u, ofChar c = [u] ∧ isHighSurrogate u = false ∧ isLowSurrogate u = false) ∨
      ∃ u v, ofChar c = [u, v] ∧ isHighSurrogate u = true ∧ isLowSurrogate v = true := by
  have hvalid := toNat_valid c
  unfold ofChar
  split_ifs with h
  · have hnat := toNat_small h
    refine Or.inl ⟨_, rfl, ?_, ?_⟩
    · rw [isHighSurrogate, hnat, decide_eq_false_iff_not]
      omega
    · rw [isLowSurrogate, hnat, decide_eq_false_iff_not]
      omega
  · refine Or.inr ⟨_, _, rfl, ?_, ?_⟩
    · rw [isHighSurrogate, UInt16.toNat_ofNat', decide_eq_true_eq]
      omega
    · rw [isLowSurrogate, UInt16.toNat_ofNat', decide_eq_true_eq]
      omega

theorem ofChars_cons (c : Char) (cs : List Char) : ofChars (c :: cs) = ofChar c ++ ofChars cs := List.flatMap_cons

/-- Text does not end within a pair. -/
theorem not_endsHigh_ofChars : ¬ EndsHigh (ofChars cs) := by
  induction cs with
  | nil => exact not_endsHigh_nil
  | cons c cs ih =>
    rw [ofChars_cons]
    cases hcs : ofChars cs with
    | nil =>
      rw [List.append_nil]
      rcases ofChar_cases c with ⟨u, hc, hu, _⟩ | ⟨u, v, hc, _, hv⟩
      · rw [hc, ← List.nil_append [u], endsHigh_append_singleton, hu]
        exact Bool.false_ne_true
      · rw [hc, endsHigh_cons (List.cons_ne_nil v []), ← List.nil_append [v], endsHigh_append_singleton,
          not_high_of_low hv]
        exact Bool.false_ne_true
    | cons w ws =>
      rw [hcs] at ih
      rcases ofChar_cases c with ⟨u, hc, _, _⟩ | ⟨u, v, hc, _, _⟩
      · rw [hc]
        exact mt (endsHigh_cons (List.cons_ne_nil w ws)).mp ih
      · rw [hc]
        exact fun h => ih ((endsHigh_cons (List.cons_ne_nil w ws)).mp ((endsHigh_cons (by simp)).mp h))

/-! ## Lengths -/

theorem length_utf8EncodeChar_unitChar_le (u : UInt16) : (String.utf8EncodeChar (unitChar u)).length ≤ 3 := by
  by_cases hsurrogate : (isHighSurrogate u || isLowSurrogate u) = true
  · rw [unitChar_of_surrogate hsurrogate]
    decide
  · rw [Bool.not_eq_true, Bool.or_eq_false_iff] at hsurrogate
    have hnat := toNat_unitChar hsurrogate.1 hsurrogate.2
    have hlt := u.toNat_lt
    rcases Nat.lt_or_ge 0x7f (unitChar u).toNat with hone | hone
    · rcases Nat.lt_or_ge 0x7ff (unitChar u).toNat with htwo | htwo
      · simp [utf8EncodeChar_three htwo (by omega)]
      · simp [utf8EncodeChar_two hone htwo]
    · simp [utf8EncodeChar_one hone]

theorem toNat_pairChar_gt (hu : isHighSurrogate u = true) (hv : isLowSurrogate v = true) :
    0xffff < (pairChar u v).toNat := by
  rw [toNat_pairChar hu hv]
  omega

theorem length_utf8_le (t : JsText) : (utf8 t).length ≤ 3 * t.length := by
  unfold utf8
  fun_induction scalarValues t with
  | case1 => exact Nat.le_refl 0
  | case2 u =>
    have hunit := length_utf8EncodeChar_unitChar_le u
    rw [utf8_cons]
    simpa [Machine.utf8] using hunit
  | case3 u v rest hpair ih =>
    rw [Bool.and_eq_true] at hpair
    rw [utf8_cons, utf8EncodeChar_four (toNat_pairChar_gt hpair.1 hpair.2)]
    simp only [List.length_append, List.length_cons, List.length_nil]
    omega
  | case4 u v rest _ ih =>
    have hunit := length_utf8EncodeChar_unitChar_le u
    rw [utf8_cons]
    simp only [List.length_append, List.length_cons] at ih ⊢
    omega

theorem length_utf8_lt_cons (u : UInt16) (t : JsText) : (utf8 t).length < (utf8 (u :: t)).length := by
  cases t with
  | nil =>
    have hpos := utf8EncodeChar_length_pos (unitChar u)
    simpa [utf8, scalarValues, Machine.utf8] using hpos
  | cons v t =>
    by_cases hpair : isHighSurrogate u = true ∧ isLowSurrogate v = true
    · rw [utf8_pair hpair.1 hpair.2, utf8EncodeChar_four (toNat_pairChar_gt hpair.1 hpair.2),
        utf8_unit (not_high_of_low hpair.2)]
      have hunit := length_utf8EncodeChar_unitChar_le v
      simp only [List.length_append, List.length_cons, List.length_nil]
      omega
    · have hstep : scalarValues (u :: v :: t) = unitChar u :: scalarValues (v :: t) := by
        rw [scalarValues, if_neg (by rwa [Bool.and_eq_true])]
      have hpos := utf8EncodeChar_length_pos (unitChar u)
      rw [utf8, utf8, hstep, utf8_cons, List.length_append]
      omega

/-! ## Strings that are text -/

theorem ofChars_scalarValues (h : WellFormed t) : ofChars (scalarValues t) = t := by
  rcases h with ⟨s, rfl⟩
  rw [ofString, scalarValues_ofChars]

theorem wellFormed_ofChars : WellFormed (ofChars cs) :=
  ⟨String.ofList cs, by rw [ofString, String.toList_ofList]⟩

theorem wellFormed_append {t t' : JsText} (h : WellFormed t) (h' : WellFormed t') : WellFormed (t ++ t') := by
  rw [← ofChars_scalarValues h, ← ofChars_scalarValues h', ofChars, ofChars, ← List.flatMap_append]
  exact wellFormed_ofChars _

theorem wellFormed_unit {u : UInt16} (hhigh : isHighSurrogate u = false) (hlow : isLowSurrogate u = false) :
    WellFormed [u] := by
  have hnat := toNat_unitChar hhigh hlow
  have hunit : ofChars [unitChar u] = [u] := by
    have hlt := u.toNat_lt
    rw [ofChars, List.flatMap_singleton, ofChar, if_pos (by omega), hnat, UInt16.ofNat_toNat]
  exact hunit ▸ wellFormed_ofChars _

theorem wellFormed_pair (hu : isHighSurrogate u = true) (hv : isLowSurrogate v = true) :
    WellFormed [u, v] := by
  have hnat := toNat_pairChar hu hv
  have hu' := of_decide_eq_true hu
  have hv' := of_decide_eq_true hv
  have hhigh : 0xd800 + ((pairChar u v).toNat - 0x10000) / 0x400 = u.toNat := by omega
  have hlow : 0xdc00 + ((pairChar u v).toNat - 0x10000) % 0x400 = v.toNat := by omega
  have hpair : ofChars [pairChar u v] = [u, v] := by
    rw [ofChars, List.flatMap_singleton, ofChar, if_neg (by omega), hhigh, hlow, UInt16.ofNat_toNat, UInt16.ofNat_toNat]
  exact hpair ▸ wellFormed_ofChars _

end JsText
end TemporalSdk.Machine
