import TemporalSdk.Encoding.EncoderConformance

/-!
# TextDecoder — the bundled decoder

`TextDecoder.decode` of `packages/common/src/encoding.ts`: units are collected in a block of 32, which is flushed when
it is full or when the input may end before it is.  The second half of a pair that does not fit in the block is kept
for the next one.
-/

namespace TemporalSdk.Encoding

open Machine
open Machine.JsText (isHighSurrogate isLowSurrogate)

/-! ## Reading a character -/

/-- `inputAs8[index] & 0xff` -/
def byteAt (bytes : List UInt8) (index : ℕ) : ℕ := (bytes[index]?.map UInt8.toNat).getD 0

/-- What the `switch` finds: a byte that is stored as it is, one that is replaced, or a sequence, with the index of its
last byte and with its code point if it is valid. -/
inductive Sequence where
  | single (cp0 : ℕ)
  | stray
  | point (index : ℕ) (codePoint : Option ℕ)
  deriving DecidableEq

/-- `case 13` and `case 12`.  An invalid code point resets the index. -/
def lastByte (bytes : List UInt8) (index cp0 codePoint minBits : ℕ) : Sequence :=
  let index := index + 1
  let cp1 := byteAt bytes index
  let codePoint := codePoint <<< 6 ||| ((cp0 &&& 0x1f) <<< 6 ||| cp1 &&& 0x3f)
  let minBits := minBits + 7
  if index < bytes.length ∧ cp1 >>> 6 = 0x2 ∧ codePoint >>> minBits ≠ 0 ∧ codePoint < 0x110000 then
    .point index (some codePoint)
  else .point (index - cp0 >>> 8 - 1) none

/-- `case 14` -/
def middleByte (bytes : List UInt8) (index cp0 codePoint minBits : ℕ) : Sequence :=
  let index := index + 1
  let cp1 := byteAt bytes index
  let codePoint := codePoint <<< 6 ||| ((cp0 &&& 0xf) <<< 6 ||| cp1 &&& 0x3f)
  let minBits := if cp1 >>> 6 = 0x2 then minBits + 4 else 24
  lastByte bytes index ((cp0 + 0x100) &&& 0x300) codePoint minBits

/-- `case 15` -/
def secondByte (bytes : List UInt8) (index cp0 : ℕ) : Sequence :=
  let index := index + 1
  let cp1 := byteAt bytes index
  if cp1 >>> 6 ≠ 0x2 ∨ 0xf7 < cp0 then .stray
  else middleByte bytes index 0x100 ((cp0 &&& 0x7) <<< 6 ||| cp1 &&& 0x3f) 5

def readSequence (bytes : List UInt8) (index : ℕ) : Sequence :=
  let cp0 := byteAt bytes index
  match cp0 >>> 4 with
  | 15 => secondByte bytes index cp0
  | 14 => middleByte bytes index cp0 0 0
  | 13 | 12 => lastByte bytes index cp0 0 0
  | 11 | 10 | 9 | 8 => .stray
  | _ => .single cp0

/-! ## The loop -/

/-- The variables of `decode`.  There is no `tmp` where it is `-1`. -/
structure Decoder where
  resultingString : JsText
  tmpStr : JsText
  index : ℕ
  nextEnd : ℕ
  pos : ℕ
  tmp : Option UInt16
  tmpBufferU16 : List UInt16

/-- Where a block is flushed that is filled from the index on. -/
def nextEndAt (len index : ℕ) : ℕ := if index + 32 ≤ len then 32 else len - index

/-- `tmpBufferU16[pos] = unit`, and the increments of the inner loop. -/
def Decoder.write (d : Decoder) (unit : UInt16) : Decoder :=
  { d with tmpBufferU16 := d.tmpBufferU16.set d.pos unit, index := d.index + 1, pos := d.pos + 1 }

/-- A code point, the last byte of which is at the index. -/
def Decoder.process (d : Decoder) (codePoint : ℕ) : Decoder :=
  if 0x10000 ≤ codePoint then
    let high := UInt16.ofNat ((codePoint - 0x10000) >>> 10 + 0xd800)
    let low := UInt16.ofNat (((codePoint - 0x10000) &&& 0x3ff) + 0xdc00)
    if d.pos < 31 then
      { d with tmpBufferU16 := d.tmpBufferU16.set d.pos high, pos := d.pos + 1, tmp := none }.write low
    else { d with tmp := some low }.write high
  else d.write (UInt16.ofNat codePoint)

/-- One turn of the inner loop. -/
def Decoder.turn (bytes : List UInt8) (d : Decoder) : Decoder :=
  match readSequence bytes d.index with
  | .single cp0 => d.write (UInt16.ofNat cp0)
  | .stray => d.write 0xfffd
  | .point index none => { d with index := index, nextEnd := nextEndAt bytes.length index }.write 0xfffd
  | .point index (some codePoint) =>
    { d with index := index, nextEnd := nextEndAt bytes.length index }.process codePoint

/-- What was collected: the whole block is appended, and what is behind the position is cut off again. -/
def Decoder.collected (d : Decoder) : JsText :=
  let tmpStr := d.tmpStr ++ d.tmpBufferU16
  if d.pos < 32 then tmpStr.take (tmpStr.length - (32 - d.pos)) else tmpStr

/-- The next block starts with what was kept. -/
def Decoder.nextBlock (len : ℕ) (d : Decoder) : Decoder :=
  { d with
    nextEnd := nextEndAt len d.index
    pos := if d.tmp.isSome then 1 else 0
    tmp := none
    tmpBufferU16 := d.tmpBufferU16.set 0 (d.tmp.getD 0xffff) }

/-- Behind the inner loop, where there is more to read.  Short texts are collected before they are appended. -/
def Decoder.flush (len : ℕ) (d : Decoder) : Decoder :=
  if d.collected.length < d.resultingString.length then { d.nextBlock len with tmpStr := d.collected }
  else { d.nextBlock len with tmpStr := [], resultingString := d.resultingString ++ d.collected }

/-- Both loops: a turn of the inner one, or what follows it.  So many steps are taken at most. -/
def run (bytes : List UInt8) : ℕ → Decoder → Option JsText
  | 0, _ => none
  | steps + 1, d =>
    if d.pos < d.nextEnd then run bytes steps (d.turn bytes)
    else if d.index < bytes.length then run bytes steps (d.flush bytes.length)
    else some (d.resultingString ++ (d.collected ++ d.tmp.toList))

/-- Between two bytes that are read, a block is flushed at most twice. -/
def decode (bytes : List UInt8) : Option JsText :=
  if bytes = [] then some []
  else run bytes (3 * bytes.length + 3) ⟨[], [], 0, nextEndAt bytes.length 0, 0, none, List.replicate 32 0⟩

/-! ## Bytes of a character -/

section Characters

variable {before : List UInt8} {c : Char} {after : List UInt8}

theorem byteAt_append (before rest : List UInt8) (k : ℕ) :
    byteAt (before ++ rest) (before.length + k) = byteAt rest k := by
  rw [byteAt, List.getElem?_append_right (Nat.le_add_right _ _), Nat.add_sub_cancel_left, byteAt]

theorem toNat_byte {n : ℕ} (h : n < 256) : (UInt8.ofNat n).toNat = n := by
  rw [UInt8.toNat_ofNat', Nat.mod_eq_of_lt h]

theorem continuation_marked (n : ℕ) : (0x80 + n % 64) >>> 6 = 0x2 := by
  rw [shiftRight_eq]
  omega

theorem continuation_bits (n : ℕ) : (0x80 + n % 64) &&& 0x3f = n % 64 := by
  have hmask : (0x80 + n % 64) &&& 0x3f = (0x80 + n % 64) % 64 := Nat.and_two_pow_sub_one_eq_mod _ 6
  rw [hmask]
  omega

theorem lead_bits {a b k : ℕ} (h : b < 2 ^ k) (hk : 2 ^ k ∣ a) : (a + b) &&& (2 ^ k - 1) = b := by
  rw [Nat.and_two_pow_sub_one_eq_mod, Nat.add_mod, Nat.mod_eq_zero_of_dvd hk, Nat.zero_add, Nat.mod_mod,
    Nat.mod_eq_of_lt h]

variable (before after c) in
theorem byteAt_char (k n : ℕ) (hn : n < 256) (h : (String.utf8EncodeChar c)[k]? = some (UInt8.ofNat n)) :
    byteAt (before ++ (String.utf8EncodeChar c ++ after)) (before.length + k) = n := by
  rw [byteAt_append, byteAt, List.getElem?_append_left (List.getElem?_eq_some_iff.mp h).1, h]
  exact toNat_byte hn

theorem readSequence_one (h : c.toNat ≤ 0x7f) :
    readSequence (before ++ (String.utf8EncodeChar c ++ after)) before.length = .single c.toNat := by
  have hlead : byteAt (before ++ (String.utf8EncodeChar c ++ after)) before.length = c.toNat :=
    byteAt_char before c after 0 _ (by omega) (by rw [utf8EncodeChar_one h]; rfl)
  have hswitch : c.toNat >>> 4 < 8 := by
    rw [shiftRight_eq]
    omega
  simp only [readSequence, hlead]
  split <;> first | omega | rfl

theorem lastByte_eq {bytes : List UInt8} {index n : ℕ} (cp0 codePoint minBits : ℕ) (hindex : index + 1 < bytes.length)
    (hbyte : byteAt bytes (index + 1) = 0x80 + n % 64) (hpoint : codePoint * 64 + (cp0 &&& 0x1f) * 64 = n / 64 * 64)
    (hzero : codePoint = 0 ∨ cp0 &&& 0x1f = 0) (hbits : 2 ^ (minBits + 7) ≤ n) (hvalid : n < 0x110000) :
    lastByte bytes index cp0 codePoint minBits = .point (index + 1) (some n) := by
  have hlow : n % 64 < 2 ^ 6 := Nat.mod_lt n (by decide)
  have hjoined : codePoint <<< 6 ||| ((cp0 &&& 0x1f) <<< 6 ||| (0x80 + n % 64) &&& 0x3f) = n := by
    rw [continuation_bits]
    rcases hzero with rfl | hcp0
    · rw [Nat.zero_shiftLeft, Nat.zero_or, or_eq_add hlow]
      omega
    · rw [hcp0, Nat.zero_shiftLeft, Nat.zero_or, or_eq_add hlow]
      omega
  have hshift : n >>> (minBits + 7) ≠ 0 := by
    rw [shiftRight_eq]
    exact Nat.pos_iff_ne_zero.mp (Nat.div_pos hbits (Nat.two_pow_pos _))
  simp only [lastByte, hbyte, hjoined]
  rw [if_pos ⟨hindex, continuation_marked n, hshift, hvalid⟩]

theorem middleByte_eq {bytes : List UInt8} {index n : ℕ} (cp0 codePoint minBits : ℕ) (hindex : index + 2 < bytes.length)
    (hbyte : byteAt bytes (index + 1) = 0x80 + n / 64 % 64) (hlast : byteAt bytes (index + 2) = 0x80 + n % 64)
    (hpoint : codePoint * 64 + (cp0 &&& 0xf) * 64 = n / 4096 * 64)
    (hzero : codePoint = 0 ∨ cp0 &&& 0xf = 0) (hsize : (cp0 + 0x100) &&& 0x300 &&& 0x1f = 0)
    (hbits : 2 ^ (minBits + 4 + 7) ≤ n) (hvalid : n < 0x110000) :
    middleByte bytes index cp0 codePoint minBits = .point (index + 2) (some n) := by
  have hlow : n / 64 % 64 < 2 ^ 6 := Nat.mod_lt _ (by decide)
  have hjoined : codePoint <<< 6 ||| ((cp0 &&& 0xf) <<< 6 ||| (0x80 + n / 64 % 64) &&& 0x3f) = n / 64 := by
    rw [continuation_bits]
    rcases hzero with rfl | hcp0
    · rw [Nat.zero_shiftLeft, Nat.zero_or, or_eq_add hlow]
      omega
    · rw [hcp0, Nat.zero_shiftLeft, Nat.zero_or, or_eq_add hlow]
      omega
  simp only [middleByte, hbyte, hjoined]
  rw [if_pos (continuation_marked (n / 64))]
  exact lastByte_eq _ _ _ hindex hlast (by rw [hsize]; omega) (Or.inr hsize) hbits hvalid

theorem readSequence_two (hlow : 0x7f < c.toNat) (h : c.toNat ≤ 0x7ff) :
    readSequence (before ++ (String.utf8EncodeChar c ++ after)) before.length =
      .point (before.length + 1) (some c.toNat) := by
  have hbytes := utf8EncodeChar_two hlow h
  have hlead : byteAt (before ++ (String.utf8EncodeChar c ++ after)) before.length = 0xc0 + c.toNat / 64 :=
    byteAt_char before c after 0 _ (by omega) (by rw [hbytes]; rfl)
  have hbyte := byteAt_char before c after 1 (0x80 + c.toNat % 64) (by omega) (by rw [hbytes]; rfl)
  have hindex : before.length + 1 < (before ++ (String.utf8EncodeChar c ++ after)).length := by
    rw [hbytes]
    simp
  have hbits : (0xc0 + c.toNat / 64) &&& 0x1f = c.toNat / 64 := lead_bits (k := 5) (by omega) (by decide)
  have hread := lastByte_eq (0xc0 + c.toNat / 64) 0 0 hindex hbyte
    (by rw [hbits]; omega) (Or.inl rfl) (by omega) (by omega)
  have hswitch : (0xc0 + c.toNat / 64) >>> 4 = 12 ∨ (0xc0 + c.toNat / 64) >>> 4 = 13 := by
    rw [shiftRight_eq]
    omega
  simp only [readSequence, hlead]
  rcases hswitch with heq | heq
  all_goals
    rw [heq]
    exact hread

theorem readSequence_three (hlow : 0x7ff < c.toNat) (h : c.toNat ≤ 0xffff) :
    readSequence (before ++ (String.utf8EncodeChar c ++ after)) before.length =
      .point (before.length + 2) (some c.toNat) := by
  have hbytes := utf8EncodeChar_three hlow h
  have hlead : byteAt (before ++ (String.utf8EncodeChar c ++ after)) before.length = 0xe0 + c.toNat / 4096 :=
    byteAt_char before c after 0 _ (by omega) (by rw [hbytes]; rfl)
  have hbyte := byteAt_char before c after 1 (0x80 + c.toNat / 64 % 64) (by omega) (by rw [hbytes]; rfl)
  have hlast := byteAt_char before c after 2 (0x80 + c.toNat % 64) (by omega) (by rw [hbytes]; rfl)
  have hindex : before.length + 2 < (before ++ (String.utf8EncodeChar c ++ after)).length := by
    rw [hbytes]
    simp
  have hbits : (0xe0 + c.toNat / 4096) &&& 0xf = c.toNat / 4096 := lead_bits (k := 4) (by omega) (by decide)
  have hsize : ∀ n < 16, ((0xe0 + n) + 0x100) &&& 0x300 &&& 0x1f = 0 := by decide
  have hread := middleByte_eq (0xe0 + c.toNat / 4096) 0 0 hindex hbyte hlast
    (by rw [hbits]; omega) (Or.inl rfl) (hsize _ (by omega)) (by omega) (by omega)
  have hswitch : (0xe0 + c.toNat / 4096) >>> 4 = 14 := by
    rw [shiftRight_eq]
    omega
  simp only [readSequence, hlead]
  rw [hswitch]
  exact hread

theorem readSequence_four (h : 0xffff < c.toNat) :
    readSequence (before ++ (String.utf8EncodeChar c ++ after)) before.length =
      .point (before.length + 3) (some c.toNat) := by
  have hvalid := JsText.toNat_valid c
  have hbytes := utf8EncodeChar_four h
  have hlead : byteAt (before ++ (String.utf8EncodeChar c ++ after)) before.length = 0xf0 + c.toNat / 262144 :=
    byteAt_char before c after 0 _ (by omega) (by rw [hbytes]; rfl)
  have hsecond := byteAt_char before c after 1 (0x80 + c.toNat / 4096 % 64) (by omega) (by rw [hbytes]; rfl)
  have hbyte := byteAt_char before c after 2 (0x80 + c.toNat / 64 % 64) (by omega) (by rw [hbytes]; rfl)
  have hlast := byteAt_char before c after 3 (0x80 + c.toNat % 64) (by omega) (by rw [hbytes]; rfl)
  have hindex : before.length + 1 + 2 < (before ++ (String.utf8EncodeChar c ++ after)).length := by
    rw [hbytes]
    simp
    omega
  have hbits : (0xf0 + c.toNat / 262144) &&& 0x7 = c.toNat / 262144 := lead_bits (k := 3) (by omega) (by decide)
  have hlow : c.toNat / 4096 % 64 < 2 ^ 6 := Nat.mod_lt _ (by decide)
  have hjoined : ((0xf0 + c.toNat / 262144) &&& 0x7) <<< 6 ||| (0x80 + c.toNat / 4096 % 64) &&& 0x3f =
      c.toNat / 4096 := by
    rw [hbits, continuation_bits, or_eq_add hlow]
    omega
  have hnone : 0x100 &&& 0xf = 0 := by decide
  have hread := middleByte_eq 0x100 (c.toNat / 4096) 5 hindex hbyte hlast
    (by rw [hnone]; omega) (Or.inr hnone) (by decide) (by omega) (by omega)
  have hswitch : (0xf0 + c.toNat / 262144) >>> 4 = 15 := by
    rw [shiftRight_eq]
    omega
  simp only [readSequence, hlead]
  rw [hswitch]
  simp only [secondByte, hsecond, hjoined]
  rw [if_neg]
  · exact hread
  · rw [continuation_marked]
    omega

end Characters

/-! ## Where the decoder stands -/

/-- So many characters were decoded, and the inner loop does not read more than what is left. -/
structure Decoded (done rest : List Char) (d : Decoder) : Prop where
  index : d.index = (utf8 done).length
  text : d.resultingString ++ (d.tmpStr ++ (d.tmpBufferU16.take d.pos ++ d.tmp.toList)) = JsText.ofChars done
  block : d.tmpBufferU16.length = 32
  pos : d.pos ≤ 32
  carry : d.tmp.isSome = true → d.pos = 32
  nextEnd : d.nextEnd ≤ 32
  within : d.nextEnd ≤ d.pos + (utf8 rest).length

section Turns

variable {done rest : List Char} {c : Char} {d : Decoder}

theorem nextEndAt_le (len index : ℕ) : nextEndAt len index ≤ 32 ∧ nextEndAt len index ≤ len - index := by
  unfold nextEndAt
  split_ifs <;> omega

theorem take_write {block : List UInt16} {pos : ℕ} (h : pos < block.length) (unit : UInt16) :
    (block.set pos unit).take (pos + 1) = block.take pos ++ [unit] := by
  have hlength : pos < (block.set pos unit).length := by rwa [List.length_set]
  rw [List.take_succ_eq_append_getElem hlength, List.getElem_set_self, List.take_set_of_le (Nat.le_refl _)]

theorem ofChars_concat (cs : List Char) (c : Char) : JsText.ofChars (cs ++ [c]) = JsText.ofChars cs ++ JsText.ofChar c := by
  simp [JsText.ofChars]

theorem utf8_concat (cs : List Char) (c : Char) : utf8 (cs ++ [c]) = utf8 cs ++ String.utf8EncodeChar c := by
  simp [utf8]

theorem Decoded.tmp_eq (h : Decoded done rest d) (hlt : d.pos < d.nextEnd) : d.tmp = none := by
  cases htmp : d.tmp with
  | none => rfl
  | some unit =>
    have hfull := h.carry (by rw [htmp]; rfl)
    have hend := h.nextEnd
    omega

theorem Decoded.advance (h : Decoded done (c :: rest) d) (hlt : d.pos < d.nextEnd) {d' : Decoder}
    (hindex : d'.index = d.index + (String.utf8EncodeChar c).length)
    (hresult : d'.resultingString = d.resultingString) (htmpStr : d'.tmpStr = d.tmpStr)
    (hstored : d'.tmpBufferU16.take d'.pos ++ d'.tmp.toList = d.tmpBufferU16.take d.pos ++ JsText.ofChar c)
    (hblock : d'.tmpBufferU16.length = 32) (hpos : d'.pos ≤ 32) (hcarry : d'.tmp.isSome = true → d'.pos = 32)
    (hend : d'.nextEnd ≤ 32) (hwithin : d'.nextEnd ≤ d'.pos + (utf8 rest).length) :
    Decoded (done ++ [c]) rest d' where
  index := by rw [hindex, h.index, utf8_concat, List.length_append]
  text := by
    have htext := h.text
    rw [h.tmp_eq hlt, Option.toList_none, List.append_nil] at htext
    rw [hresult, htmpStr, hstored, ofChars_concat, ← htext]
    simp only [List.append_assoc]
  block := hblock
  pos := hpos
  carry := hcarry
  nextEnd := hend
  within := hwithin

theorem ofChar_small (h : c.toNat ≤ 0xffff) : JsText.ofChar c = [UInt16.ofNat c.toNat] :=
  if_pos (by omega)

theorem ofChar_large (h : 0x10000 ≤ c.toNat) :
    JsText.ofChar c = [UInt16.ofNat ((c.toNat - 0x10000) >>> 10 + 0xd800),
      UInt16.ofNat (((c.toNat - 0x10000) &&& 0x3ff) + 0xdc00)] := by
  have hmask : (c.toNat - 0x10000) &&& 0x3ff = (c.toNat - 0x10000) % 0x400 :=
    Nat.and_two_pow_sub_one_eq_mod (c.toNat - 0x10000) 10
  have hshift : (c.toNat - 0x10000) >>> 10 = (c.toNat - 0x10000) / 0x400 := shiftRight_eq _ 10
  rw [JsText.ofChar, if_neg (by omega), hmask, hshift, Nat.add_comm 0xd800, Nat.add_comm 0xdc00]

/-- A sequence of a character is read: its last byte is at the index. -/
theorem Decoded.process (h : Decoded done (c :: rest) d) (hlt : d.pos < d.nextEnd) {index len : ℕ}
    (hindex : index + 1 = d.index + (String.utf8EncodeChar c).length)
    (hlen : len = (utf8 (done ++ c :: rest)).length) :
    Decoded (done ++ [c]) rest
      (({ d with index := index, nextEnd := nextEndAt len index } : Decoder).process c.toNat) := by
  have hend := nextEndAt_le len index
  have hfull := h.nextEnd
  have htmp := h.tmp_eq hlt
  have hblock := h.block
  have hdone := h.index
  have hleft : len - index = 1 + (utf8 rest).length := by
    have hsplit : (utf8 (done ++ c :: rest)).length =
        (utf8 done).length + ((String.utf8EncodeChar c).length + (utf8 rest).length) := by
      rw [utf8, List.flatMap_append, List.length_append, List.flatMap_cons, List.length_append]
      rfl
    omega
  have hroom : d.pos < d.tmpBufferU16.length := by omega
  unfold Decoder.process
  split_ifs with hlarge hfits
  · -- Both halves fit in the block.
    have hchar := ofChar_large hlarge
    simp only at hfits
    refine h.advance hlt hindex rfl rfl ?_ ?_ ?_ (by intro hsome; cases hsome) hend.1 ?_
    · simp only [Decoder.write, Option.toList_none, List.append_nil]
      rw [take_write (by rw [List.length_set]; omega), take_write hroom, hchar, List.append_assoc]
      rfl
    · simp only [Decoder.write, List.length_set]
      exact hblock
    all_goals
      simp only [Decoder.write]
      omega
  · -- The second half is kept for the next block.
    have hchar := ofChar_large hlarge
    simp only at hfits
    refine h.advance hlt hindex rfl rfl ?_ ?_ ?_ ?_ hend.1 ?_
    · simp only [Decoder.write, Option.toList_some]
      rw [take_write hroom, hchar, List.append_assoc]
      rfl
    · simp only [Decoder.write, List.length_set]
      exact hblock
    · simp only [Decoder.write]
      omega
    · intro _
      simp only [Decoder.write]
      omega
    · simp only [Decoder.write]
      omega
  · have hchar := ofChar_small (c := c) (by omega)
    refine h.advance hlt hindex rfl rfl ?_ ?_ ?_ ?_ hend.1 ?_
    · simp only [Decoder.write, htmp, Option.toList_none, List.append_nil]
      rw [take_write hroom, hchar]
    · simp only [Decoder.write, List.length_set]
      exact hblock
    · simp only [Decoder.write]
      omega
    · simp only [Decoder.write, htmp]
      intro hsome
      cases hsome
    · simp only [Decoder.write]
      omega

theorem Decoded.turn (h : Decoded done (c :: rest) d) (hlt : d.pos < d.nextEnd) :
    Decoded (done ++ [c]) rest (d.turn (utf8 (done ++ c :: rest))) := by
  have hbytes : utf8 (done ++ c :: rest) = utf8 done ++ (String.utf8EncodeChar c ++ utf8 rest) := by
    rw [utf8, List.flatMap_append, List.flatMap_cons]
    rfl
  unfold Decoder.turn
  rw [h.index, hbytes]
  rcases Nat.lt_or_ge 0x7f c.toNat with hone | hone
  · rcases Nat.lt_or_ge 0x7ff c.toNat with htwo | htwo
    · rcases Nat.lt_or_ge 0xffff c.toNat with hthree | hthree
      · rw [readSequence_four hthree]
        refine h.process hlt ?_ (by rw [hbytes])
        rw [h.index, utf8EncodeChar_four hthree]
        rfl
      · rw [readSequence_three htwo hthree]
        refine h.process hlt ?_ (by rw [hbytes])
        rw [h.index, utf8EncodeChar_three htwo hthree]
        rfl
    · rw [readSequence_two hone htwo]
      refine h.process hlt ?_ (by rw [hbytes])
      rw [h.index, utf8EncodeChar_two hone htwo]
      rfl
  · have hfull := h.nextEnd
    have hblock := h.block
    have hwithin := h.within
    have htmp := h.tmp_eq hlt
    have hlength : (String.utf8EncodeChar c).length = 1 := by
      rw [utf8EncodeChar_one hone]
      rfl
    rw [utf8_cons, List.length_append, hlength] at hwithin
    rw [readSequence_one hone]
    refine h.advance hlt (by rw [hlength]; rfl) rfl rfl ?_ ?_ ?_ ?_ hfull ?_
    · simp only [Decoder.write, htmp, Option.toList_none, List.append_nil]
      rw [take_write (by omega), ofChar_small (by omega)]
    · simp only [Decoder.write, List.length_set]
      exact hblock
    · simp only [Decoder.write]
      omega
    · simp only [Decoder.write, htmp]
      intro hsome
      cases hsome
    · simp only [Decoder.write]
      omega

theorem Decoded.collected (h : Decoded done rest d) : d.collected = d.tmpStr ++ d.tmpBufferU16.take d.pos := by
  have hblock := h.block
  have hpos := h.pos
  unfold Decoder.collected
  split_ifs with hshort
  · rw [List.take_append, List.take_of_length_le (by rw [List.length_append]; omega)]
    congr 2
    rw [List.length_append]
    omega
  · rw [List.take_of_length_le (by omega)]

variable (len : ℕ)

theorem flush_index (d : Decoder) : (d.flush len).index = d.index := by
  unfold Decoder.flush
  split <;> rfl

theorem flush_nextEnd (d : Decoder) : (d.flush len).nextEnd = nextEndAt len d.index := by
  unfold Decoder.flush
  split <;> rfl

theorem flush_pos (d : Decoder) : (d.flush len).pos = if d.tmp.isSome then 1 else 0 := by
  unfold Decoder.flush
  split <;> rfl

theorem flush_tmp (d : Decoder) : (d.flush len).tmp = none := by
  unfold Decoder.flush
  split <;> rfl

theorem flush_block (d : Decoder) :
    (d.flush len).tmpBufferU16 = d.tmpBufferU16.set 0 (d.tmp.getD 0xffff) := by
  unfold Decoder.flush
  split <;> rfl

theorem flush_text (d : Decoder) :
    (d.flush len).resultingString ++ (d.flush len).tmpStr = d.resultingString ++ d.collected := by
  unfold Decoder.flush
  split
  · rfl
  · exact List.append_nil _

/-- A flush loses nothing. -/
theorem Decoded.flush (h : Decoded done rest d) :
    Decoded done rest (d.flush (utf8 (done ++ rest)).length) := by
  have hend := nextEndAt_le (utf8 (done ++ rest)).length d.index
  have hdone := h.index
  have hblock := h.block
  have hleft : (utf8 (done ++ rest)).length = (utf8 done).length + (utf8 rest).length := by
    rw [utf8, List.flatMap_append, List.length_append]
    rfl
  have hcarried : (d.tmpBufferU16.set 0 (d.tmp.getD 0xffff)).take (if d.tmp.isSome then 1 else 0) = d.tmp.toList := by
    cases d.tmp with
    | none => rfl
    | some unit => exact take_write (by omega) unit
  constructor
  · rw [flush_index]
    exact hdone
  · calc (d.flush _).resultingString ++ ((d.flush _).tmpStr ++
            ((d.flush _).tmpBufferU16.take (d.flush _).pos ++ (d.flush _).tmp.toList))
        = d.resultingString ++ d.collected ++ d.tmp.toList := by
          rw [flush_tmp, Option.toList_none, List.append_nil, flush_block, flush_pos, hcarried, ← List.append_assoc,
            flush_text]
      _ = JsText.ofChars done := by
          rw [h.collected, ← h.text]
          simp only [List.append_assoc]
  · rw [flush_block, List.length_set]
    exact hblock
  · rw [flush_pos]
    split <;> decide
  · rw [flush_tmp]
    intro hsome
    cases hsome
  · rw [flush_nextEnd]
    exact hend.1
  · rw [flush_nextEnd]
    omega

end Turns

/-! ## Runs -/

/-- The steps that are left: a turn and two flushes for each character. -/
def stepsLeft (rest : List Char) (d : Decoder) : ℕ :=
  3 * rest.length + (if d.pos < d.nextEnd then 1 else if d.tmp.isSome then 3 else 2)

theorem nextEndAt_pos {len index : ℕ} (h : index < len) : 0 < nextEndAt len index := by
  unfold nextEndAt
  split_ifs <;> omega

/-- The decoder stops with the text of the bytes, whatever the alignment of characters and blocks. -/
theorem run_eq (steps : ℕ) {done rest : List Char} {d : Decoder} (h : Decoded done rest d)
    (hsteps : stepsLeft rest d ≤ steps) :
    run (utf8 (done ++ rest)) steps d = some (JsText.ofChars (done ++ rest)) := by
  induction steps generalizing done rest d with
  | zero =>
    unfold stepsLeft at hsteps
    split_ifs at hsteps <;> omega
  | succ steps ih =>
    have hleft : (utf8 (done ++ rest)).length = (utf8 done).length + (utf8 rest).length := by
      rw [utf8, List.flatMap_append, List.length_append]
      rfl
    have hindex := h.index
    unfold run
    by_cases hturn : d.pos < d.nextEnd
    · rw [if_pos hturn]
      cases rest with
      | nil =>
        have hwithin : d.nextEnd ≤ d.pos + 0 := h.within
        omega
      | cons c rest =>
        have hnext := h.turn hturn
        have hfewer : stepsLeft rest (d.turn (utf8 (done ++ c :: rest))) ≤ steps := by
          simp only [stepsLeft, if_pos hturn, List.length_cons] at hsteps ⊢
          split_ifs <;> omega
        have hrun := ih hnext hfewer
        rw [← List.append_cons] at hrun
        exact hrun
    · rw [if_neg hturn]
      by_cases hmore : d.index < (utf8 (done ++ rest)).length
      · rw [if_pos hmore]
        refine ih h.flush ?_
        have hpositive := nextEndAt_pos hmore
        simp only [stepsLeft, if_neg hturn] at hsteps
        simp only [stepsLeft, flush_tmp, flush_pos, flush_nextEnd]
        cases htmp : d.tmp with
        | none =>
          simp only [htmp, Option.isSome_none, Bool.false_eq_true, if_false, if_pos hpositive] at hsteps ⊢
          omega
        | some unit =>
          simp only [htmp, Option.isSome_some, Option.isSome_none, Bool.false_eq_true, if_false, if_true]
            at hsteps ⊢
          split_ifs <;> omega
      · -- Nothing is left.
        rw [if_neg hmore]
        have hnil : rest = [] := by
          have hle := length_le_length_utf8 rest
          exact List.length_eq_zero_iff.mp (by omega)
        subst hnil
        rw [List.append_nil, h.collected, ← h.text]
        simp only [List.append_assoc]

theorem decode_utf8 (cs : List Char) : decode (utf8 cs) = some (JsText.ofChars cs) := by
  unfold decode
  split_ifs with hnil
  · have hle := length_le_length_utf8 cs
    rw [hnil] at hle
    rw [List.length_eq_zero_iff.mp (Nat.le_zero.mp hle)]
    rfl
  · have hend := nextEndAt_le (utf8 cs).length 0
    have hle := length_le_length_utf8 cs
    refine @run_eq _ [] cs _ ⟨rfl, rfl, List.length_replicate, Nat.zero_le _, nofun, hend.1, ?_⟩ ?_
    · simp only
      omega
    · unfold stepsLeft
      split_ifs <;> omega

/-- Text is encoded and decoded as it was. -/
theorem wellFormed_decodes (s : JsText) (hs : JsText.WellFormed s) : (encode s).bind decode = some s := by
  rcases hs with ⟨text, rfl⟩
  rw [JsText.ofString, encode_ofChars, Option.bind_some, decode_utf8]

/-- A pair that lies across the boundary of two blocks. -/
theorem wellFormed_decodes_split : (encode (JsText.ofString (String.ofList (List.replicate 31 'a' ++ ['😀'])))).bind decode =
    some (JsText.ofString (String.ofList (List.replicate 31 'a' ++ ['😀']))) :=
  wellFormed_decodes _ ⟨_, rfl⟩

end TemporalSdk.Encoding
