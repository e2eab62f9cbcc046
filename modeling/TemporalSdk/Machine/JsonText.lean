import TemporalSdk.Machine.Decimals
import TemporalSdk.Machine.DoubleRat
import TemporalSdk.Machine.Utf8

/-!
# JsonText — JSON as text

The grammar of JSON over strings of code units, and what is written for an object of strings and whole numbers.
Members of an object are listed as they stand in the text; the value of a name is that of the last one.
-/

namespace TemporalSdk.Machine

/-- A number that is not NaN. -/
inductive Double where
  | finite (value : ℚ)
  | infinity (negative : Bool)
deriving DecidableEq

/-- How far apart doubles are, those below the normal ones included. -/
def binarySpacing (q : ℚ) : ℚ := 2 ^ (max (Int.log 2 |q|) (-1022) - 52)

def Double.ofRat (q : ℚ) : Double :=
  let value := roundHalfEven (q / binarySpacing q) * binarySpacing q
  if |value| < 2 ^ WholeDouble.maxExponent then .finite value else .infinity (decide (q < 0))

inductive Json where
  | null
  | bool (value : Bool)
  | number (value : Double)
  | string (value : JsText)
  | array (items : List Json)
  | object (members : List (JsText × Json))

namespace Json

/-- `typeof` -/
def typeOf : Json → String
  | .bool _ => "boolean"
  | .number _ => "number"
  | .string _ => "string"
  | .null | .array _ | .object _ => "object"

def quote : UInt16 := 0x22
def backslash : UInt16 := 0x5c
def comma : UInt16 := 0x2c
def openBrace : UInt16 := 0x7b
def closeBrace : UInt16 := 0x7d

/-! ## Strings -/

def hexDigit (n : ℕ) : UInt16 := UInt16.ofNat (if n < 10 then 0x30 + n else 0x61 + (n - 10))

def hexValue (u : UInt16) : Option ℕ :=
  if isDigit u then some (u.toNat - 0x30)
  else if 0x61 ≤ u.toNat ∧ u.toNat ≤ 0x66 then some (u.toNat - 0x61 + 10)
  else if 0x41 ≤ u.toNat ∧ u.toNat ≤ 0x46 then some (u.toNat - 0x41 + 10)
  else none

/-- The letter after a backslash, for the units that have one when they are written. -/
def letterOf (u : UInt16) : Option UInt16 :=
  if u = quote then some quote else if u = backslash then some backslash else if u = 0x8 then some 0x62
  else if u = 0x9 then some 0x74 else if u = 0xa then some 0x6e else if u = 0xc then some 0x66
  else if u = 0xd then some 0x72 else none

def unitOf (letter : UInt16) : Option UInt16 :=
  if letter = quote then some quote else if letter = backslash then some backslash else if letter = 0x2f then some 0x2f
  else if letter = 0x62 then some 0x8 else if letter = 0x74 then some 0x9 else if letter = 0x6e then some 0xa
  else if letter = 0x66 then some 0xc else if letter = 0x72 then some 0xd else none

def unitOfHex (a b c d : UInt16) : Option UInt16 := do
  let a ← hexValue a
  let b ← hexValue b
  let c ← hexValue c
  let d ← hexValue d
  some (UInt16.ofNat (a * 4096 + b * 256 + c * 16 + d))

/-- What follows the quote that opens a string. -/
def parseString : JsText → Option (JsText × JsText)
  | [] => none
  | u :: rest =>
    if u = quote then some ([], rest)
    else if u = backslash then
      match rest with
      | [] => none
      | letter :: rest =>
        if letter = 0x75 then
          match rest with
          | a :: b :: c :: d :: rest =>
            (unitOfHex a b c d).bind fun unit => (parseString rest).map fun p => (unit :: p.1, p.2)
          | _ => none
        else (unitOf letter).bind fun unit => (parseString rest).map fun p => (unit :: p.1, p.2)
    else if u.toNat < 0x20 then none
    else (parseString rest).map fun p => (u :: p.1, p.2)

/-- A unit by its number. -/
def hexEscape (u : UInt16) : JsText :=
  [backslash, 0x75, hexDigit (u.toNat / 4096), hexDigit (u.toNat / 256 % 16), hexDigit (u.toNat / 16 % 16),
    hexDigit (u.toNat % 16)]

def escapeUnit (u : UInt16) : JsText :=
  match letterOf u with
  | some letter => [backslash, letter]
  | none => if u.toNat < 0x20 ∨ JsText.isHighSurrogate u ∨ JsText.isLowSurrogate u then hexEscape u else [u]

/-- Pairs of surrogates are kept, and surrogates that stand alone are not. -/
def escape : JsText → JsText
  | [] => []
  | [u] => escapeUnit u
  | u :: v :: rest =>
    if JsText.isHighSurrogate u ∧ JsText.isLowSurrogate v then u :: v :: escape rest
    else escapeUnit u ++ escape (v :: rest)

def quoted (s : JsText) : JsText := quote :: escape s ++ [quote]

/-! ## Numbers -/

/-- A point and digits, or nothing. -/
def parseFraction : JsText → Option (JsText × JsText)
  | [] => some ([], [])
  | u :: rest =>
    if u = 0x2e then
      if rest.takeWhile isDigit = [] then none else some (rest.takeWhile isDigit, rest.dropWhile isDigit)
    else some ([], u :: rest)

def parseSign : JsText → Bool × JsText
  | [] => (false, [])
  | u :: rest => if u = 0x2d then (true, rest) else if u = 0x2b then (false, rest) else (false, u :: rest)

def parseExponent : JsText → Option (ℤ × JsText)
  | [] => some (0, [])
  | u :: rest =>
    if u = 0x65 ∨ u = 0x45 then
      let digits := (parseSign rest).2.takeWhile isDigit
      if digits = [] then none
      else some (if (parseSign rest).1 then -(ofDecimal digits : ℤ) else ofDecimal digits,
        (parseSign rest).2.dropWhile isDigit)
    else some (0, u :: rest)

/-- A number without its sign.  There are no zeros in front. -/
def parseUnsigned (t : JsText) : Option (ℚ × JsText) :=
  let whole := t.takeWhile isDigit
  if whole = [] ∨ whole.head? = some 0x30 ∧ 1 < whole.length then none
  else
    (parseFraction (t.dropWhile isDigit)).bind fun fraction => (parseExponent fraction.2).map fun exponent =>
      ((ofDecimal (whole ++ fraction.1) : ℚ) * (10 : ℚ) ^ (exponent.1 - (fraction.1.length : ℤ)), exponent.2)

def parseNumber : JsText → Option (Json × JsText)
  | [] => none
  | u :: rest =>
    if u = 0x2d then (parseUnsigned rest).map fun p => (.number (Double.ofRat (-p.1)), p.2)
    else (parseUnsigned (u :: rest)).map fun p => (.number (Double.ofRat p.1), p.2)

/-! ## Values -/

def isSpace (u : UInt16) : Bool := u == 0x20 || u == 0x9 || u == 0xa || u == 0xd

def skipSpace (t : JsText) : JsText := t.dropWhile isSpace

/-- What follows a text that is expected, behind spaces. -/
def expect (text t : JsText) : Option JsText :=
  if text.isPrefixOf (skipSpace t) then some ((skipSpace t).drop text.length) else none

mutual
/-- A value, with so many levels and members at most. -/
def parseValue : ℕ → JsText → Option (Json × JsText)
  | 0, _ => none
  | n + 1, t =>
    match expect [openBrace] t with
    | some t =>
      match expect [closeBrace] t with
      | some rest => some (.object [], rest)
      | none => (parseMembers n t).map fun p => (.object p.1, p.2)
    | none =>
      match expect [0x5b] t with
      | some t =>
        match expect [0x5d] t with
        | some rest => some (.array [], rest)
        | none => (parseItems n t).map fun p => (.array p.1, p.2)
      | none =>
        match expect [quote] t with
        | some t => (parseString t).map fun p => (.string p.1, p.2)
        | none =>
          match expect (JsText.ofString "true") t with
          | some rest => some (.bool true, rest)
          | none =>
            match expect (JsText.ofString "false") t with
            | some rest => some (.bool false, rest)
            | none =>
              match expect (JsText.ofString "null") t with
              | some rest => some (.null, rest)
              | none => parseNumber (skipSpace t)

def parseItems : ℕ → JsText → Option (List Json × JsText)
  | 0, _ => none
  | n + 1, t =>
    match parseValue n t with
    | none => none
    | some (item, t) =>
      match expect [comma] t with
      | some t => (parseItems n t).map fun p => (item :: p.1, p.2)
      | none => (expect [0x5d] t).map fun rest => ([item], rest)

def parseMembers : ℕ → JsText → Option (List (JsText × Json) × JsText)
  | 0, _ => none
  | n + 1, t =>
    match (expect [quote] t).bind parseString with
    | none => none
    | some (name, t) =>
      match (expect [0x3a] t).bind (parseValue n) with
      | none => none
      | some (value, t) =>
        match expect [comma] t with
        | some t => (parseMembers n t).map fun p => ((name, value) :: p.1, p.2)
        | none => (expect [closeBrace] t).map fun rest => ([(name, value)], rest)
end

/-- `JSON.parse` -/
def parse (t : JsText) : Option Json :=
  match parseValue (t.length + 1) t with
  | some (value, rest) => if skipSpace rest = [] then some value else none
  | none => none

/-! ## Objects of strings and whole numbers -/

inductive Scalar where
  | whole (n : ℕ)
  | text (s : JsText)
deriving DecidableEq

def Scalar.json : Scalar → Json
  | .whole n => .number (.finite n)
  | .text s => .string s

def Scalar.stringify : Scalar → JsText
  | .whole n => decimal n
  | .text s => quoted s

def stringifyMember (member : JsText × Scalar) : JsText := quoted member.1 ++ 0x3a :: member.2.stringify

def stringifyMembers : List (JsText × Scalar) → JsText
  | [] => []
  | [member] => stringifyMember member
  | member :: member' :: rest => stringifyMember member ++ comma :: stringifyMembers (member' :: rest)

/-- What is written, without the members that are undefined. -/
def defined (members : List (JsText × Option Scalar)) : List (JsText × Scalar) :=
  members.filterMap fun member => member.2.map fun value => (member.1, value)

/-- `JSON.stringify` -/
def stringify (members : List (JsText × Option Scalar)) : JsText :=
  openBrace :: stringifyMembers (defined members) ++ [closeBrace]

/-! ## Reading what was written -/

variable {n : ℕ}

theorem hexValue_hexDigit (h : n < 16) : hexValue (hexDigit n) = some n := by
  interval_cases n <;> rfl

theorem unitOfHex_hexDigit (u : UInt16) :
    unitOfHex (hexDigit (u.toNat / 4096)) (hexDigit (u.toNat / 256 % 16)) (hexDigit (u.toNat / 16 % 16))
      (hexDigit (u.toNat % 16)) = some u := by
  have hu := u.toNat_lt
  have hsum : u.toNat / 4096 * 4096 + u.toNat / 256 % 16 * 256 + u.toNat / 16 % 16 * 16 + u.toNat % 16 = u.toNat := by
    omega
  simp only [unitOfHex, hexValue_hexDigit (show u.toNat / 4096 < 16 by omega),
    hexValue_hexDigit (Nat.mod_lt _ (by decide : 0 < 16)), Option.bind_eq_bind, Option.bind_some]
  rw [hsum, UInt16.ofNat_toNat]

theorem unitOf_letterOf {u letter : UInt16} (h : letterOf u = some letter) : unitOf letter = some u ∧ letter ≠ 0x75 := by
  unfold letterOf at h
  split_ifs at h with h1 h2 h3 h4 h5 h6 h7 <;> cases h
  · exact ⟨by rw [h1]; rfl, by decide⟩
  · exact ⟨by rw [h2]; rfl, by decide⟩
  · exact ⟨by rw [h3]; rfl, by decide⟩
  · exact ⟨by rw [h4]; rfl, by decide⟩
  · exact ⟨by rw [h5]; rfl, by decide⟩
  · exact ⟨by rw [h6]; rfl, by decide⟩
  · exact ⟨by rw [h7]; rfl, by decide⟩

variable {u : UInt16}

theorem ne_of_letterOf (h : letterOf u = none) : u ≠ quote ∧ u ≠ backslash := by
  constructor
  all_goals
    rintro rfl
    exact nomatch h

theorem parseString_unit (hquote : u ≠ quote) (hbackslash : u ≠ backslash) (hspace : ¬ u.toNat < 0x20)
    (rest : JsText) : parseString (u :: rest) = (parseString rest).map fun p => (u :: p.1, p.2) := by
  rw [parseString.eq_def]
  simp only [if_neg hquote, if_neg hbackslash, if_neg hspace]

theorem parseString_escapeUnit (u : UInt16) (rest : JsText) :
    parseString (escapeUnit u ++ rest) = (parseString rest).map fun p => (u :: p.1, p.2) := by
  have hquote : backslash ≠ quote := by decide
  unfold escapeUnit
  cases hletter : letterOf u with
  | some letter =>
    rcases unitOf_letterOf hletter with ⟨hunit, hu⟩
    simp only [List.cons_append, List.nil_append]
    rw [parseString.eq_def]
    simp only [if_neg hquote, if_true, if_neg hu, hunit, Option.bind_some]
  | none =>
    rcases ne_of_letterOf hletter with ⟨hq, hb⟩
    simp only
    split
    · have hhex := unitOfHex_hexDigit u
      simp only [hexEscape, List.cons_append, List.nil_append]
      rw [parseString.eq_def]
      simp only [if_neg hquote, if_true, hhex, Option.bind_some]
    · next hplain => exact parseString_unit hq hb (fun hlt => hplain (Or.inl hlt)) rest

/-- A string is read as it was, up to the quote at its end. -/
theorem parseString_escape (s rest : JsText) : parseString (escape s ++ quote :: rest) = some (s, rest) := by
  have hend : parseString (quote :: rest) = some ([], rest) := by
    rw [parseString.eq_def]
    exact if_pos rfl
  fun_induction escape s with
  | case1 => exact hend
  | case2 u => rw [parseString_escapeUnit, hend, Option.map_some]
  | case3 u v s hpair ih =>
    have hu : 0xd800 ≤ u.toNat := (of_decide_eq_true hpair.1).1
    have hv : 0xdc00 ≤ v.toNat := (of_decide_eq_true hpair.2).1
    have hne : ∀ {w : UInt16}, 0xd800 ≤ w.toNat → w ≠ quote ∧ w ≠ backslash ∧ ¬ w.toNat < 0x20 := by
      intro w hw
      refine ⟨?_, ?_, by omega⟩
      all_goals
        rintro rfl
        exact absurd hw (by decide)
    rcases hne hu with ⟨huq, hub, hus⟩
    rcases hne (Nat.le_trans (by decide) hv) with ⟨hvq, hvb, hvs⟩
    rw [List.cons_append, List.cons_append, parseString_unit huq hub hus, parseString_unit hvq hvb hvs, ih,
      Option.map_some, Option.map_some]
  | case4 u v s _ ih => rw [List.append_assoc, parseString_escapeUnit, ih, Option.map_some]

/-- Small whole numbers are doubles. -/
theorem ofRat_natCast (h : n < 2 ^ 53) : Double.ofRat n = .finite n := by
  have hvalue : (roundHalfEven ((n : ℚ) / binarySpacing n) : ℚ) * binarySpacing n = n := by
    by_cases hzero : n = 0
    · subst hzero
      have hround : roundHalfEven 0 = 0 := by
        have := roundHalfEven_intCast 0
        rwa [Int.cast_zero] at this
      rw [Nat.cast_zero, zero_div, hround, Int.cast_zero, zero_mul]
    · have hone : (1 : ℚ) ≤ |(n : ℚ)| := by
        rw [abs_of_nonneg (Nat.cast_nonneg n)]
        exact_mod_cast Nat.one_le_iff_ne_zero.mpr hzero
      have hlog : (0 : ℤ) ≤ Int.log 2 |(n : ℚ)| := by
        rw [Int.log_of_one_le_right 2 hone]
        exact Int.natCast_nonneg _
      have hspacing : binarySpacing n = spacing n := by
        rw [binarySpacing, spacing, max_eq_left (by omega)]
      have hdouble := nearestDouble_intCast (n := n) (by rw [abs_of_nonneg (Int.natCast_nonneg n)]; exact_mod_cast h)
      rw [hspacing]
      exact_mod_cast hdouble
  have hbound : |(n : ℚ)| < 2 ^ WholeDouble.maxExponent := by
    rw [abs_of_nonneg (Nat.cast_nonneg n)]
    exact_mod_cast WholeDouble.lt_two_pow_maxExponent h (by decide)
  rw [Double.ofRat]
  simp only [hvalue, if_pos hbound]

theorem head_decimal (h : (decimal n).head? = some 0x30) : (decimal n).length = 1 := by
  unfold decimal at h ⊢
  split at h
  · next hzero => rw [if_pos hzero, List.length_singleton]
  · next hzero =>
      exfalso
      have hne : Nat.digits 10 n ≠ [] := Nat.digits_ne_nil_iff_ne_zero.mpr hzero
      have hlast := Nat.getLast_digit_ne_zero 10 hzero
      have hlt := Nat.digits_lt_base (by decide : 1 < 10) (List.getLast_mem hne)
      rw [List.head?_reverse, List.getLast?_map, List.getLast?_eq_some_getLast hne, Option.map_some,
        Option.some.injEq] at h
      have hnat := congrArg UInt16.toNat h
      rw [toNat_digitUnit hlt] at hnat
      apply hlast
      have : (0x30 : UInt16).toNat = 0x30 := rfl
      omega

/-- A number is read as it was, up to what follows it in an object. -/
theorem parseNumber_decimal (h : n < 2 ^ 53) (hu : u = comma ∨ u = closeBrace) (rest : JsText) :
    parseNumber (decimal n ++ u :: rest) = some (.number (.finite n), u :: rest) := by
  have hdigits : ∀ v ∈ decimal n, isDigit v = true := fun v hv => isDigit_of_mem_decimal hv
  have hstop : isDigit u = false := by rcases hu with rfl | rfl <;> rfl
  have htake : (decimal n ++ u :: rest).takeWhile isDigit = decimal n := by
    rw [List.takeWhile_append_of_pos hdigits, List.takeWhile_cons_of_neg (by rw [hstop]; decide), List.append_nil]
  have hdrop : (decimal n ++ u :: rest).dropWhile isDigit = u :: rest := by
    rw [List.dropWhile_append_of_pos hdigits, List.dropWhile_cons_of_neg (by rw [hstop]; decide)]
  have hfraction : parseFraction (u :: rest) = some ([], u :: rest) := by rcases hu with rfl | rfl <;> rfl
  have hexponent : parseExponent (u :: rest) = some (0, u :: rest) := by rcases hu with rfl | rfl <;> rfl
  have hwhole : ¬ (decimal n = [] ∨ (decimal n).head? = some 0x30 ∧ 1 < (decimal n).length) := by
    rintro (hnil | ⟨hhead, hlength⟩)
    · exact decimal_ne_nil n hnil
    · have := head_decimal hhead
      omega
  have hunsigned : parseUnsigned (decimal n ++ u :: rest) = some ((n : ℚ), u :: rest) := by
    rw [parseUnsigned]
    simp only [htake, hdrop, if_neg hwhole, hfraction, hexponent, Option.bind_some, Option.map_some, List.append_nil,
      ofDecimal_decimal, List.length_nil, Int.ofNat_zero, sub_zero, zpow_zero, mul_one]
  cases hcons : decimal n with
  | nil => exact absurd hcons (decimal_ne_nil n)
  | cons v digits =>
    have hsign : v ≠ 0x2d := by
      rintro rfl
      exact Bool.false_ne_true (hdigits 0x2d (hcons ▸ List.mem_cons_self))
    rw [hcons, List.cons_append] at hunsigned
    rw [List.cons_append, parseNumber, if_neg hsign, hunsigned, Option.map_some, ofRat_natCast h]

theorem expect_cons (hspace : isSpace u = false) (rest : JsText) : expect [u] (u :: rest) = some rest := by
  rw [expect, skipSpace, List.dropWhile_cons_of_neg (by rw [hspace]; decide)]
  simp

theorem expect_ne {u v : UInt16} (hspace : isSpace u = false) (hne : v ≠ u) (text rest : JsText) :
    expect (v :: text) (u :: rest) = none := by
  rw [expect, skipSpace, List.dropWhile_cons_of_neg (by rw [hspace]; decide)]
  simp [hne]

theorem parseValue_string (n : ℕ) (s rest : JsText) :
    parseValue (n + 1) (quoted s ++ rest) = some (.string s, rest) := by
  have hquote : isSpace quote = false := rfl
  have hread := parseString_escape s rest
  rw [quoted, List.cons_append, List.cons_append, List.append_assoc, List.singleton_append, parseValue,
    expect_ne hquote (by decide), expect_ne hquote (by decide), expect_cons hquote]
  simp only [hread, Option.map_some]

theorem parseValue_number (k : ℕ) (h : n < 2 ^ 53) (hu : u = comma ∨ u = closeBrace)
    (rest : JsText) : parseValue (k + 1) (decimal n ++ u :: rest) = some (.number (.finite n), u :: rest) := by
  have hread := parseNumber_decimal h hu rest
  cases hcons : decimal n with
  | nil => exact absurd hcons (decimal_ne_nil n)
  | cons v digits =>
    have hdigit : isDigit v = true := isDigit_of_mem_decimal (hcons ▸ List.mem_cons_self)
    have hne : ∀ {w : UInt16}, isDigit w = false → w ≠ v := fun hw => (WholeDouble.ne_of_isDigit hw hdigit).symm
    have hspace : isSpace v = false := by
      simp only [isSpace, Bool.or_eq_false_iff, beq_eq_false_iff_ne]
      exact ⟨⟨⟨(hne rfl).symm, (hne rfl).symm⟩, (hne rfl).symm⟩, (hne rfl).symm⟩
    have hword : ∀ {w : UInt16} {text : JsText}, isDigit w = false →
        expect (w :: text) (v :: (digits ++ u :: rest)) = none := fun hw => expect_ne hspace (hne hw) _ _
    have htrue : expect (JsText.ofString "true") (v :: (digits ++ u :: rest)) = none := hword rfl
    have hfalse : expect (JsText.ofString "false") (v :: (digits ++ u :: rest)) = none := hword rfl
    have hnull : expect (JsText.ofString "null") (v :: (digits ++ u :: rest)) = none := hword rfl
    rw [hcons, List.cons_append] at hread
    rw [List.cons_append, parseValue, hword rfl, hword rfl, hword rfl]
    simp only [htrue, hfalse, hnull]
    rw [skipSpace, List.dropWhile_cons_of_neg (by rw [hspace]; decide), hread]

/-- Numbers that are read as they were written. -/
def Scalar.IsSmall : Scalar → Prop
  | .whole n => n < 2 ^ 53
  | .text _ => True

theorem parseValue_stringify (k : ℕ) {value : Scalar} (h : value.IsSmall)
    (hu : u = comma ∨ u = closeBrace) (rest : JsText) :
    parseValue (k + 1) (value.stringify ++ u :: rest) = some (value.json, u :: rest) := by
  cases value with
  | whole n => exact parseValue_number k h hu rest
  | text s => exact parseValue_string k s (u :: rest)

theorem parseMembers_member (n : ℕ) {member : JsText × Scalar} (h : member.2.IsSmall)
    (hu : u = comma ∨ u = closeBrace) (rest : JsText) :
    parseMembers (n + 2) (stringifyMember member ++ u :: rest) =
      match expect [comma] (u :: rest) with
      | some t => (parseMembers (n + 1) t).map fun p => ((member.1, member.2.json) :: p.1, p.2)
      | none => (expect [closeBrace] (u :: rest)).map fun rest => ([(member.1, member.2.json)], rest) := by
  have hname := parseString_escape member.1 (0x3a :: (member.2.stringify ++ u :: rest))
  have hvalue := parseValue_stringify n h hu rest
  have htext : stringifyMember member ++ u :: rest =
      quote :: (escape member.1 ++ quote :: 0x3a :: (member.2.stringify ++ u :: rest)) := by
    simp [stringifyMember, quoted]
  rw [htext, parseMembers, expect_cons (by rfl)]
  simp only [Option.bind_some, hname]
  rw [expect_cons (by rfl)]
  simp only [Option.bind_some, hvalue]

/-- The members of an object are read in their order. -/
theorem parseMembers_stringify {members : List (JsText × Scalar)} (hne : members ≠ [])
    (h : ∀ member ∈ members, member.2.IsSmall) (hn : members.length < n) (rest : JsText) :
    parseMembers n (stringifyMembers members ++ closeBrace :: rest) =
      some (members.map fun member => (member.1, member.2.json), rest) := by
  obtain ⟨k, rfl⟩ : ∃ k, n = k + 2 := by
    have hpos := List.length_pos_iff.mpr hne
    exact ⟨n - 2, by omega⟩
  fun_induction stringifyMembers members generalizing k with
  | case1 => exact absurd rfl hne
  | case2 member =>
    rw [parseMembers_member k (h member List.mem_cons_self) (Or.inr rfl), expect_ne (by rfl) (by decide),
      expect_cons (by rfl)]
    rfl
  | case3 member member' members ih =>
    simp only [List.length_cons] at hn
    obtain ⟨j, rfl⟩ : ∃ j, k = j + 1 := ⟨k - 1, by omega⟩
    have hrest := ih (List.cons_ne_nil _ _) (fun m hm => h m (List.mem_cons_of_mem _ hm)) j (by
      simp only [List.length_cons]
      omega)
    rw [List.append_assoc, List.cons_append, parseMembers_member (j + 1) (h member List.mem_cons_self) (Or.inl rfl),
      expect_cons (by rfl)]
    simp only [hrest, Option.map_some, List.map_cons]

theorem length_le_length_stringifyMembers (members : List (JsText × Scalar)) :
    members.length ≤ (stringifyMembers members).length := by
  fun_induction stringifyMembers members with
  | case1 => exact Nat.le_refl 0
  | case2 member => simp [stringifyMember, quoted]
  | case3 member member' members ih =>
    simp only [List.length_append, List.length_cons] at ih ⊢
    omega

/-- An object is read as it was written. -/
theorem parse_stringify {members : List (JsText × Option Scalar)} (hne : defined members ≠ [])
    (h : ∀ member ∈ defined members, member.2.IsSmall) :
    parse (stringify members) = some (.object ((defined members).map fun member => (member.1, member.2.json))) := by
  have hlength := length_le_length_stringifyMembers (defined members)
  obtain ⟨t, ht⟩ : ∃ t, stringifyMembers (defined members) = quote :: t := by
    cases hmembers : defined members with
    | nil => exact absurd hmembers hne
    | cons member rest =>
      cases rest with
      | nil | cons => exact ⟨_, rfl⟩
  have hread : parseMembers (stringify members).length (stringifyMembers (defined members) ++ [closeBrace]) =
      some ((defined members).map fun member => (member.1, member.2.json), []) := by
    apply parseMembers_stringify hne h
    simp only [stringify, List.length_cons, List.length_append]
    omega
  have hopen : expect [openBrace] (stringify members) = some (stringifyMembers (defined members) ++ [closeBrace]) :=
    expect_cons (by rfl) _
  have hclose : expect [closeBrace] (stringifyMembers (defined members) ++ [closeBrace]) = none := by
    rw [ht]
    exact expect_ne (by rfl) (by decide) _ _
  rw [parse, parseValue]
  simp only [hopen, hclose, hread, Option.map_some, skipSpace, List.dropWhile_nil, if_true]

/-! ## What is written is text -/

/-- Units that are not surrogates. -/
def isPlain (u : UInt16) : Bool := !JsText.isHighSurrogate u && !JsText.isLowSurrogate u

theorem wellFormed_of_plain {t : JsText} (h : ∀ u ∈ t, isPlain u = true) : t.WellFormed := by
  induction t with
  | nil => exact JsText.wellFormed_ofChars []
  | cons u t ih =>
    have hu := h u List.mem_cons_self
    simp only [isPlain, Bool.and_eq_true, Bool.not_eq_true'] at hu
    exact JsText.wellFormed_append (JsText.wellFormed_unit hu.1 hu.2) (ih fun v hv => h v (List.mem_cons_of_mem u hv))

theorem wellFormed_plain {u : UInt16} (h : isPlain u = true) : JsText.WellFormed [u] :=
  wellFormed_of_plain fun v hv => by rw [List.mem_singleton.1 hv, h]

theorem isPlain_of_lt (h : u.toNat < 0xd800) : isPlain u = true := by
  simp only [isPlain, JsText.isHighSurrogate, JsText.isLowSurrogate, Bool.and_eq_true, Bool.not_eq_true',
    decide_eq_false_iff_not]
  omega

theorem isPlain_hexDigit (h : n < 16) : isPlain (hexDigit n) = true := by
  interval_cases n <;> rfl

theorem isPlain_letterOf {u letter : UInt16} (h : letterOf u = some letter) : isPlain letter = true := by
  unfold letterOf at h
  split_ifs at h <;> cases h <;> rfl

theorem wellFormed_escapeUnit (u : UInt16) : (escapeUnit u).WellFormed := by
  have hu := u.toNat_lt
  apply wellFormed_of_plain
  intro v hv
  unfold escapeUnit at hv
  cases hletter : letterOf u with
  | some letter =>
    simp only [hletter, List.mem_cons, List.not_mem_nil, or_false] at hv
    rcases hv with rfl | rfl
    · rfl
    · exact isPlain_letterOf hletter
  | none =>
    simp only [hletter] at hv
    split at hv
    · simp only [hexEscape, List.mem_cons, List.not_mem_nil, or_false] at hv
      rcases hv with rfl | rfl | rfl | rfl | rfl | rfl
      · rfl
      · rfl
      all_goals exact isPlain_hexDigit (by omega)
    · next hplain =>
        rw [not_or, not_or, Bool.not_eq_true, Bool.not_eq_true] at hplain
        rw [List.mem_singleton.mp hv, isPlain, hplain.2.1, hplain.2.2]
        rfl

theorem wellFormed_escape (s : JsText) : (escape s).WellFormed := by
  fun_induction escape s with
  | case1 => exact JsText.wellFormed_ofChars []
  | case2 u => exact wellFormed_escapeUnit u
  | case3 u v s hpair ih => exact JsText.wellFormed_append (JsText.wellFormed_pair hpair.1 hpair.2) ih
  | case4 u v s _ ih => exact JsText.wellFormed_append (wellFormed_escapeUnit u) ih

theorem wellFormed_quoted (s : JsText) : (quoted s).WellFormed := by
  have hquote : JsText.WellFormed [quote] := wellFormed_plain rfl
  exact JsText.wellFormed_append (JsText.wellFormed_append hquote (wellFormed_escape s)) hquote

theorem wellFormed_stringifyMember (member : JsText × Scalar) : (stringifyMember member).WellFormed := by
  have hvalue : JsText.WellFormed (0x3a :: member.2.stringify) := by
    apply JsText.wellFormed_append (t := [0x3a]) (wellFormed_plain rfl)
    cases member.2 with
    | whole n =>
      apply wellFormed_of_plain
      intro u hu
      have hdigit := of_decide_eq_true (isDigit_of_mem_decimal hu)
      exact isPlain_of_lt (by omega)
    | text s => exact wellFormed_quoted s
  exact JsText.wellFormed_append (wellFormed_quoted member.1) hvalue

theorem wellFormed_stringify (members : List (JsText × Option Scalar)) : (stringify members).WellFormed := by
  have hmembers : (stringifyMembers (defined members)).WellFormed := by
    fun_induction stringifyMembers (defined members) with
    | case1 => exact JsText.wellFormed_ofChars []
    | case2 member => exact wellFormed_stringifyMember member
    | case3 member member' rest ih =>
      exact JsText.wellFormed_append (wellFormed_stringifyMember member)
        (JsText.wellFormed_append (t := [comma]) (wellFormed_plain rfl) ih)
  exact JsText.wellFormed_append (JsText.wellFormed_append (t := [openBrace]) (wellFormed_plain rfl) hmembers)
    (wellFormed_plain rfl)

end Json
end TemporalSdk.Machine
