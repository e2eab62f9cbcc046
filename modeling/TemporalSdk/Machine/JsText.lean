import Mathlib.Data.List.Basic

/-!
# JsText — strings as code units

A string of the language is a list of UTF-16 code units, in which surrogates need not come in pairs.  Text is
written in such units one character after the other, and a string is read as text with a replacement character for
each surrogate that stands alone.
-/

namespace TemporalSdk.Machine

abbrev JsText := List UInt16

namespace JsText

def isHighSurrogate (u : UInt16) : Bool := decide (0xd800 ≤ u.toNat ∧ u.toNat < 0xdc00)

def isLowSurrogate (u : UInt16) : Bool := decide (0xdc00 ≤ u.toNat ∧ u.toNat < 0xe000)

def ofChar (c : Char) : JsText :=
  if c.toNat < 0x10000 then [UInt16.ofNat c.toNat]
  else
    [UInt16.ofNat (0xd800 + (c.toNat - 0x10000) / 0x400), UInt16.ofNat (0xdc00 + (c.toNat - 0x10000) % 0x400)]

def ofChars (cs : List Char) : JsText := cs.flatMap ofChar

def ofString (s : String) : JsText := ofChars s.toList

/-- A code unit that is not part of a pair. -/
def unitChar (u : UInt16) : Char :=
  if isHighSurrogate u || isLowSurrogate u then '\ufffd' else Char.ofNat u.toNat

def pairChar (u v : UInt16) : Char := Char.ofNat (0x10000 + (u.toNat - 0xd800) * 0x400 + (v.toNat - 0xdc00))

/-- The conversion of a string to text. -/
def scalarValues : JsText → List Char
  | [] => []
  | [u] => [unitChar u]
  | u :: v :: rest =>
    if isHighSurrogate u && isLowSurrogate v then pairChar u v :: scalarValues rest
    else unitChar u :: scalarValues (v :: rest)

/-- Every surrogate is one of a pair: the string is text. -/
def WellFormed (t : JsText) : Prop := ∃ s : String, ofString s = t

theorem scalarValues_cons_of_not_high {u : UInt16} (h : isHighSurrogate u = false) (rest : JsText) :
    scalarValues (u :: rest) = unitChar u :: scalarValues rest := by
  cases rest with
  | nil => rfl
  | cons v rest => simp [scalarValues, h]

theorem toNat_valid (c : Char) : c.toNat < 0xd800 ∨ 0xdfff < c.toNat ∧ c.toNat < 0x110000 := c.valid

theorem toNat_small {c : Char} (h : c.toNat < 0x10000) : (UInt16.ofNat c.toNat).toNat = c.toNat := by
  rw [UInt16.toNat_ofNat']
  omega

theorem scalarValues_small {c : Char} (h : c.toNat < 0x10000) (rest : JsText) :
    scalarValues (UInt16.ofNat c.toNat :: rest) = c :: scalarValues rest := by
  have hvalid := toNat_valid c
  have hhigh : isHighSurrogate (UInt16.ofNat c.toNat) = false := by
    simp only [isHighSurrogate, toNat_small h, decide_eq_false_iff_not]
    omega
  have hlow : isLowSurrogate (UInt16.ofNat c.toNat) = false := by
    simp only [isLowSurrogate, toNat_small h, decide_eq_false_iff_not]
    omega
  rw [scalarValues_cons_of_not_high hhigh, unitChar, hhigh, hlow, toNat_small h]
  simp

theorem scalarValues_pair {c : Char} (h : 0x10000 ≤ c.toNat) (rest : JsText) :
    scalarValues (UInt16.ofNat (0xd800 + (c.toNat - 0x10000) / 0x400) ::
      UInt16.ofNat (0xdc00 + (c.toNat - 0x10000) % 0x400) :: rest) = c :: scalarValues rest := by
  have hvalid := toNat_valid c
  have hhigh : (UInt16.ofNat (0xd800 + (c.toNat - 0x10000) / 0x400)).toNat =
      0xd800 + (c.toNat - 0x10000) / 0x400 := by
    rw [UInt16.toNat_ofNat']
    omega
  have hlow : (UInt16.ofNat (0xdc00 + (c.toNat - 0x10000) % 0x400)).toNat =
      0xdc00 + (c.toNat - 0x10000) % 0x400 := by
    rw [UInt16.toNat_ofNat']
    omega
  have hpair : (isHighSurrogate (UInt16.ofNat (0xd800 + (c.toNat - 0x10000) / 0x400)) &&
      isLowSurrogate (UInt16.ofNat (0xdc00 + (c.toNat - 0x10000) % 0x400))) = true := by
    simp only [isHighSurrogate, isLowSurrogate, hhigh, hlow, Bool.and_eq_true, decide_eq_true_eq]
    omega
  have hsum : 0x10000 + (0xd800 + (c.toNat - 0x10000) / 0x400 - 0xd800) * 0x400 +
      (0xdc00 + (c.toNat - 0x10000) % 0x400 - 0xdc00) = c.toNat := by
    omega
  rw [scalarValues, if_pos hpair, pairChar, hhigh, hlow, hsum, Char.ofNat_toNat]

theorem scalarValues_ofChar_append (c : Char) (rest : JsText) :
    scalarValues (ofChar c ++ rest) = c :: scalarValues rest := by
  unfold ofChar
  split_ifs with h
  · exact scalarValues_small h rest
  · exact scalarValues_pair (by omega) rest

theorem scalarValues_ofChars (cs : List Char) : scalarValues (ofChars cs) = cs := by
  induction cs with
  | nil => rfl
  | cons c cs ih =>
    rw [ofChars, List.flatMap_cons, scalarValues_ofChar_append, ← ofChars, ih]

theorem ofString_injective {s s' : String} (h : ofString s = ofString s') : s = s' := by
  have hchars : s.toList = s'.toList := by
    rw [← scalarValues_ofChars s.toList, ← scalarValues_ofChars s'.toList]
    exact congrArg scalarValues h
  exact String.toList_inj.mp hchars

theorem ofList_scalarValues_ofString (s : String) : String.ofList (scalarValues (ofString s)) = s := by
  rw [ofString, scalarValues_ofChars, String.ofList_toList]

/-- A character that needs no pair is its code unit, and no other character begins with that unit. -/
theorem head?_ofChars {c : Char} (h : c.toNat < 0x10000) (cs : List Char) :
    (ofChars cs).head? = some (UInt16.ofNat c.toNat) ↔ cs.head? = some c := by
  constructor
  · intro hhead
    cases cs with
    | nil => exact nomatch hhead
    | cons d cs =>
      -- The first unit is all that `d` needs, or else a surrogate.
      obtain ⟨rest, hrest⟩ : ∃ rest, ofChars (d :: cs) = UInt16.ofNat c.toNat :: rest := by
        cases hlist : ofChars (d :: cs) with
        | nil => simp [hlist] at hhead
        | cons u rest =>
          rw [hlist, List.head?_cons, Option.some.injEq] at hhead
          exact ⟨rest, by rw [hhead]⟩
      have hvalues := scalarValues_ofChars (d :: cs)
      rw [hrest, scalarValues_small h, List.cons.injEq] at hvalues
      rw [List.head?_cons, hvalues.1]
  · intro hhead
    cases cs with
    | nil => exact nomatch hhead
    | cons d cs =>
      rw [List.head?_cons, Option.some.injEq] at hhead
      rw [hhead, ofChars, List.flatMap_cons, ofChar, if_pos h]
      rfl

end JsText
end TemporalSdk.Machine
