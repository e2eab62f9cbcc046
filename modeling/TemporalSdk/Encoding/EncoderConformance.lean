import TemporalSdk.Encoding.TextEncoder

/-!
# EncoderConformance — when the bundled encoder writes UTF-8

The output is the UTF-8 encoding of the string, with a replacement for each surrogate that stands alone, unless a high
surrogate is followed by a unit with which it is no pair, or the guessed buffer is too small for a high surrogate at
the end.
-/

namespace TemporalSdk.Encoding

open Machine
open Machine.JsText (isHighSurrogate isLowSurrogate EndsHigh)

/-- Every high surrogate is one of a pair, or the last unit. -/
def HighsFollowed (s : JsText) : Prop :=
  s.IsChain fun u v => isHighSurrogate u = true → isLowSurrogate v = true

/-- A high surrogate at the end, behind units whose bytes use up all that the guess has to spare and never more. -/
def FullBeforeLastHigh (s : JsText) : Prop :=
  ∃ p u, s = p ++ [u] ∧ isHighSurrogate u = true ∧ growth p = 8 ∧ ∀ q, q <+: p → ¬ EndsHigh q → growth q ≤ 8

variable {rest : JsText}

theorem highsFollowed_cons {u v : UInt16} :
    HighsFollowed (u :: v :: rest) ↔ (isHighSurrogate u = true → isLowSurrogate v = true) ∧ HighsFollowed (v :: rest) :=
  List.isChain_cons_cons

variable {u : UInt16}

theorem HighsFollowed.tail (h : HighsFollowed (u :: rest)) : HighsFollowed rest :=
  List.IsChain.tail h

theorem highsFollowed_cons_of_not_high (hu : isHighSurrogate u = false) :
    HighsFollowed (u :: rest) ↔ HighsFollowed rest := by
  refine ⟨HighsFollowed.tail, fun h => ?_⟩
  cases rest with
  | nil => exact List.isChain_singleton u
  | cons v rest =>
    refine highsFollowed_cons.mpr ⟨fun hhigh => ?_, h⟩
    rw [hu] at hhigh
    cases hhigh

/-! ## Strings that are written as they are -/

section Paired

variable {len : ℕ} {p : JsText} {out : Output}

theorem reached_end (h : Reached len p out) (hlen : p.length = len) : out.result.take out.pos = JsText.utf8 p := by
  have hthree := JsText.length_utf8_le p
  have hdef : growth p = (JsText.utf8 p).length - 2 * p.length := rfl
  rw [h.kept.bytes]
  apply List.take_of_length_le
  cases hflag : out.upgradededArraySize with
  | true =>
    have hlength := (h.sized.upgraded hflag).1
    omega
  | false =>
    rcases h.sized.guessed hflag with ⟨hlength, hsmall⟩
    have hself := hsmall p (List.prefix_refl p) h.ends
    omega

theorem widenCheck_last (h : Reached len p out) (hlen : p.length + 1 = len) :
    out.widenCheck len (p.length + 1) = some out := by
  have hpos := h.kept.pos
  have hdef : growth p = (JsText.utf8 p).length - 2 * p.length := rfl
  have hdouble : (p.length + 1) <<< 1 = 2 * (p.length + 1) := by rw [Nat.shiftLeft_eq, Nat.mul_comm]
  unfold Output.widenCheck
  rw [if_neg]
  rintro ⟨hflag, _, hgrown⟩
  rw [Bool.not_eq_true'] at hflag
  have hself := (h.sized.guessed hflag).2 p (List.prefix_refl p) h.ends
  omega

theorem reached_last_high (h : Reached len p out) (hlen : p.length + 1 = len)
    (hu : isHighSurrogate u = true) :
    (out.putAll (threeBytes 65533)).result.take (out.putAll (threeBytes 65533)).pos = JsText.utf8 (p ++ [u]) ↔
      ¬ FullBeforeLastHigh (p ++ [u]) := by
  have hdef : growth p = (JsText.utf8 p).length - 2 * p.length := rfl
  have hthree := JsText.length_utf8_le p
  have hall : JsText.utf8 (p ++ [u]) = JsText.utf8 p ++ threeBytes 65533 := by
    rw [JsText.utf8_append h.ends, utf8_last_high hu]
  have hlength : (JsText.utf8 p ++ threeBytes 65533).length = (JsText.utf8 p).length + 3 := List.length_append
  rw [(h.kept.putAll _).bytes, length_putAll, hall, List.take_eq_self_iff, hlength]
  have hlast : FullBeforeLastHigh (p ++ [u]) ↔
      growth p = 8 ∧ ∀ q, q <+: p → ¬ EndsHigh q → growth q ≤ 8 := by
    constructor
    · rintro ⟨p', u', heq, _, hgrowth, hsmall⟩
      rw [(List.append_singleton_inj.mp heq).1]
      exact ⟨hgrowth, hsmall⟩
    · exact fun hfull => ⟨p, u, rfl, hu, hfull⟩
  rw [hlast]
  cases hflag : out.upgradededArraySize with
  | true =>
    rcases h.sized.upgraded hflag with ⟨hresult, q, hq, hqends, hlarge⟩
    refine iff_of_true (by omega) ?_
    rintro ⟨_, hsmall⟩
    exact absurd (hsmall q hq hqends) (not_le.mpr hlarge)
  | false =>
    rcases h.sized.guessed hflag with ⟨hresult, hsmall⟩
    have hself := hsmall p (List.prefix_refl p) h.ends
    rw [hresult]
    constructor
    · rintro hroom ⟨hfull, _⟩
      omega
    · intro hfull
      have hne : growth p ≠ 8 := fun heq => hfull ⟨heq, hsmall⟩
      omega

theorem not_endsHigh_append (hu : isHighSurrogate u = false) : ¬ EndsHigh (p ++ [u]) := by
  rw [JsText.endsHigh_append_singleton, hu]
  exact Bool.false_ne_true

theorem Reached.append (h : Reached len p out) {chunk : JsText} {bytes : List UInt8} (hends : ¬ EndsHigh (p ++ chunk))
    (hone : OneMore chunk) (hbytes : JsText.utf8 chunk = bytes) (hshort : bytes.length ≤ 2 * chunk.length) :
    Reached len (p ++ chunk) (out.putAll bytes) := by
  refine Reached.write hends h.kept (h.sized.append h.ends hone ?_) (by rw [JsText.utf8_append h.ends, hbytes])
  have hgrowth : growth chunk = bytes.length - 2 * chunk.length := by rw [growth, hbytes]
  rw [growth_append h.ends]
  omega

/-- The run of the loop from a place where no pair is split. -/
theorem run_of_followed (rest : JsText) (h : Reached len p out) (hlen : p.length + rest.length = len)
    (hfollowed : HighsFollowed rest) :
    ∃ out', encodeUnits len rest p.length out = some out' ∧
      (out'.result.take out'.pos = JsText.utf8 (p ++ rest) ↔ ¬ FullBeforeLastHigh (p ++ rest)) := by
  generalize hi : p.length = i
  fun_induction encodeUnits len rest i out generalizing p with
  | case1 i out =>
    rw [List.append_nil]
    refine ⟨out, rfl, iff_of_true (reached_end h (by simpa using hlen)) ?_⟩
    rintro ⟨a, u, heq, hu, _⟩
    exact h.ends ⟨a, u, heq, hu⟩
  | case2 point rest i out hone ih =>
    have hbytes : JsText.utf8 [point] = [UInt8.ofNat point.toNat] := utf8_one hone []
    have hnext := h.append (not_endsHigh_append (not_high_small (by omega))) (oneMore_unit point) hbytes (by simp)
    rw [List.append_cons]
    exact ih hnext (by simp at hlen ⊢; omega) hfollowed.tail (by simp [hi])
  | case3 point rest i out hlow htwo ih =>
    have hbytes : JsText.utf8 [point] = twoBytes point.toNat := utf8_two (by omega) htwo []
    have hnext := h.append (not_endsHigh_append (not_high_small htwo)) (oneMore_unit point) hbytes (by simp [twoBytes])
    rw [List.append_cons]
    exact ih hnext (by simp at hlen ⊢; omega) hfollowed.tail (by simp [hi])
  | case4 point i out _ _ hhigh =>
    subst hi
    rw [widenCheck_last h (by simpa using hlen)]
    exact ⟨_, rfl, reached_last_high h (by simpa using hlen) hhigh⟩
  | case5 point i out _ _ hhigh nextcode rest hlow _ ih =>
    have hbytes : JsText.utf8 [point, nextcode] = fourBytes (surrogatePoint point.toNat nextcode.toNat) :=
      (utf8_four hhigh hlow []).trans (List.append_nil _)
    have hends : ¬ EndsHigh (p ++ [point, nextcode]) := by
      rw [List.append_cons]
      exact not_endsHigh_append (JsText.not_high_of_low hlow)
    have hnext := h.append hends (oneMore_pair hhigh) hbytes (by simp [fourBytes])
    have hsplit : p ++ point :: nextcode :: rest = p ++ [point, nextcode] ++ rest := by simp
    rw [hsplit]
    exact ih hnext (by simp at hlen ⊢; omega) hfollowed.tail.tail (by simp [hi])
  | case6 point i out _ _ hhigh nextcode rest hlow hsmall =>
    rw [surrogatePoint_eq hhigh hlow] at hsmall
    exact absurd (JsText.toNat_pairChar_gt hhigh hlow) hsmall
  | case7 point i out _ _ hhigh nextcode rest hlow ih =>
    exact absurd ((highsFollowed_cons.mp hfollowed).1 hhigh) hlow
  | case8 point rest i out _ hlarge hhigh ih =>
    rw [Bool.not_eq_true] at hhigh
    have hbytes := utf8_three (u := point) (by omega) hhigh []
    have hall : JsText.utf8 (p ++ [point]) =
        JsText.utf8 p ++ threeBytes (if isLowSurrogate point then 65533 else point.toNat) := by
      rw [JsText.utf8_append h.ends, hbytes]
      rfl
    have hgrowth : growth (p ++ [point]) = growth p + 1 := by
      rw [growth_append h.ends, growth, growth, hbytes]
      rfl
    subst hi
    obtain ⟨out', hcheck, hkept, hsized⟩ := h.widen (by simp at hlen; omega) hgrowth hhigh
    have hnext := Reached.write (not_endsHigh_append hhigh) hkept hsized hall
    rw [hcheck, List.append_cons]
    exact ih out' hnext (by simp at hlen ⊢; omega) hfollowed.tail (by simp)

end Paired

/-! ## Strings of which a unit is lost -/

/-- No more is written than the encoding, and less if a unit is skipped. -/
theorem pos_le {len i : ℕ} {out out' : Output} (h : encodeUnits len rest i out = some out') :
    out'.pos ≤ out.pos + (JsText.utf8 rest).length ∧
      (¬ HighsFollowed rest → out'.pos < out.pos + (JsText.utf8 rest).length) := by
  fun_induction encodeUnits len rest i out with
  | case1 i out =>
    cases h
    exact ⟨Nat.le_add_right _ _, fun hnot => absurd List.isChain_nil hnot⟩
  | case2 point rest i out hone ih =>
    have hlength := congrArg List.length (utf8_one hone rest)
    have hnext := ih h
    simp only [Output.put, List.length_append, List.length_singleton] at hnext hlength
    refine ⟨by omega, fun hnot => ?_⟩
    have hlt := hnext.2 (mt (highsFollowed_cons_of_not_high (not_high_small (by omega))).mpr hnot)
    omega
  | case3 point rest i out hlow htwo ih =>
    have hlength := congrArg List.length (utf8_two (by omega) htwo rest)
    have hnext := ih h
    simp only [pos_putAll, twoBytes, List.length_append, List.length_cons, List.length_nil] at hnext hlength
    refine ⟨by omega, fun hnot => ?_⟩
    have hlt := hnext.2 (mt (highsFollowed_cons_of_not_high (not_high_small htwo)).mpr hnot)
    omega
  | case4 point i out _ _ hhigh =>
    obtain ⟨checked, hcheck, hout⟩ := Option.bind_eq_some_iff.mp h
    cases hout
    have hlength := congrArg List.length (utf8_last_high hhigh)
    rw [pos_putAll, pos_widenCheck hcheck, hlength]
    exact ⟨Nat.le_refl _, fun hnot => absurd (List.isChain_singleton point) hnot⟩
  | case5 point i out _ _ hhigh nextcode rest hlow _ ih =>
    have hlength := congrArg List.length (utf8_four hhigh hlow rest)
    have hnext := ih h
    simp only [pos_putAll, fourBytes, List.length_append, List.length_cons, List.length_nil] at hnext hlength
    refine ⟨by omega, fun hnot => ?_⟩
    have hrest : ¬ HighsFollowed rest := fun hrest => hnot
      (highsFollowed_cons.mpr ⟨fun _ => hlow, (highsFollowed_cons_of_not_high (JsText.not_high_of_low hlow)).mpr hrest⟩)
    have hlt := hnext.2 hrest
    omega
  | case6 point i out _ _ hhigh nextcode rest hlow hsmall =>
    rw [surrogatePoint_eq hhigh hlow] at hsmall
    exact absurd (JsText.toNat_pairChar_gt hhigh hlow) hsmall
  | case7 point i out _ _ hhigh nextcode rest hlow ih =>
    -- The encoding of the unit that is skipped is missing.
    obtain ⟨checked, hcheck, hrun⟩ := Option.bind_eq_some_iff.mp h
    rw [Bool.not_eq_true] at hlow
    have hlength := congrArg List.length (utf8_lone_high hhigh hlow rest)
    have hskipped := JsText.length_utf8_lt_cons nextcode rest
    have hnext := ih checked hrun
    have hpos := pos_widenCheck hcheck
    simp only [pos_putAll, threeBytes, List.length_append, List.length_cons, List.length_nil] at hnext hlength
    exact ⟨by omega, fun _ => by omega⟩
  | case8 point rest i out _ hlarge hhigh ih =>
    obtain ⟨checked, hcheck, hrun⟩ := Option.bind_eq_some_iff.mp h
    rw [Bool.not_eq_true] at hhigh
    have hlength := congrArg List.length (utf8_three (by omega) hhigh rest)
    have hnext := ih checked hrun
    have hpos := pos_widenCheck hcheck
    simp only [pos_putAll, threeBytes, List.length_append, List.length_cons, List.length_nil] at hnext hlength
    refine ⟨by omega, fun hnot => ?_⟩
    have hlt := hnext.2 (mt (highsFollowed_cons_of_not_high hhigh).mpr hnot)
    omega

/-! ## The encoder -/

theorem reached_start (s : JsText) :
    Reached s.length [] ⟨List.replicate (s.length <<< 1 + 8) 0, 0, false⟩ where
  ends := JsText.not_endsHigh_nil
  kept := ⟨rfl, rfl⟩
  sized := by
    refine ⟨fun _ => ⟨?_, fun q hq _ => ?_⟩, nofun⟩
    · rw [List.length_replicate, Nat.shiftLeft_eq, Nat.mul_comm]
    · rw [List.prefix_nil.mp hq]
      decide

theorem encode_of_followed {s : JsText} (hfollowed : HighsFollowed s) :
    encode s = some (JsText.utf8 s) ↔ ¬ FullBeforeLastHigh s := by
  obtain ⟨out, hrun, hbytes⟩ := run_of_followed s (reached_start s) (Nat.zero_add _) hfollowed
  have hrun' : encodeUnits s.length s 0 ⟨List.replicate (s.length <<< 1 + 8) 0, 0, false⟩ = some out := hrun
  rw [encode, hrun', Option.map_some, Option.some_inj]
  exact hbytes

/-- The bundled encoder writes UTF-8 unless it skips a unit or loses the last byte. -/
theorem encode_eq_utf8_iff (s : JsText) :
    encode s = some (JsText.utf8 s) ↔ HighsFollowed s ∧ ¬ FullBeforeLastHigh s := by
  by_cases hfollowed : HighsFollowed s
  · exact (encode_of_followed hfollowed).trans ⟨fun h => ⟨hfollowed, h⟩, And.right⟩
  · refine iff_of_false (fun h => ?_) fun h => hfollowed h.1
    obtain ⟨out, hrun, hbytes⟩ := Option.map_eq_some_iff.mp h
    have hlt : out.pos < 0 + (JsText.utf8 s).length := (pos_le hrun).2 hfollowed
    have hlength := congrArg List.length hbytes
    rw [List.length_take] at hlength
    omega

/-- The unit behind a high surrogate that stands alone is skipped. -/
theorem encode_skips_unit : encode [0xd800, 0x61] ≠ some (JsText.utf8 [0xd800, 0x61]) := by
  decide +kernel

/-! ## Text -/

theorem highsFollowed_ofChars (cs : List Char) : HighsFollowed (JsText.ofChars cs) := by
  induction cs with
  | nil => exact List.isChain_nil
  | cons c cs ih =>
    rw [JsText.ofChars_cons]
    rcases JsText.ofChar_cases c with ⟨u, hc, hu, _⟩ | ⟨u, v, hc, _, hv⟩
    · rw [hc]
      exact (highsFollowed_cons_of_not_high hu).mpr ih
    · rw [hc]
      exact highsFollowed_cons.mpr
        ⟨fun _ => hv, (highsFollowed_cons_of_not_high (JsText.not_high_of_low hv)).mpr ih⟩

theorem encode_ofChars (cs : List Char) : encode (JsText.ofChars cs) = some (utf8 cs) := by
  rw [← JsText.utf8_ofChars]
  refine (encode_of_followed (highsFollowed_ofChars cs)).mpr ?_
  rintro ⟨p, u, heq, hu, _⟩
  exact JsText.not_endsHigh_ofChars cs ⟨p, u, heq, hu⟩

end TemporalSdk.Encoding
