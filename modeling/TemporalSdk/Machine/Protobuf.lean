import Mathlib.Algebra.Group.Nat.Defs
import Mathlib.Data.List.Basic

/-!
# Protobuf — the grammar of the wire format

A message is the concatenation of its fields.  A field is a tag, which is a variable-length integer, and a value
whose form the tag tells.  Groups are left out.  What follows a field is never part of it, so that bytes are a
message in at most one way.
-/

namespace TemporalSdk.Machine
namespace Protobuf

/-! ## Variable-length integers -/

/-- Seven bits a byte, the lowest first; all bytes but the last one have the high bit. -/
inductive Septets : List UInt8 → Nat → Prop
  | last (b : UInt8) : b.toNat < 128 → Septets [b] b.toNat
  | more (b : UInt8) {bs : List UInt8} {n : Nat} :
      128 ≤ b.toNat → Septets bs n → Septets (b :: bs) (b.toNat - 128 + 128 * n)

/-- An integer of 64 bits in at most ten bytes. -/
structure IsVarint (bs : List UInt8) (n : Nat) : Prop where
  septets : Septets bs n
  length : bs.length ≤ 10
  bound : n < 2 ^ 64

namespace Septets

theorem ne_nil {bs : List UInt8} {n : Nat} (h : Septets bs n) : bs ≠ [] := by
  cases h with
  | last | more => exact List.cons_ne_nil _ _

theorem lt_pow {bs : List UInt8} {n : Nat} (h : Septets bs n) : n < 128 ^ bs.length := by
  induction h with
  | last b hb => simpa using hb
  | @more b bs n hb _ ih =>
    have hlt := b.toNat_lt
    rw [List.length_cons, Nat.pow_succ]
    omega

/-- The end of an integer does not depend on what follows. -/
theorem append_inj {bs bs' rest rest' : List UInt8} {n n' : Nat} (h : Septets bs n) (h' : Septets bs' n')
    (heq : bs ++ rest = bs' ++ rest') : bs = bs' ∧ n = n' ∧ rest = rest' := by
  induction h generalizing bs' n' with
  | last b hb =>
    cases h' with
    | last b' hb' =>
      rw [List.singleton_append, List.singleton_append, List.cons.injEq] at heq
      exact ⟨by rw [heq.1], by rw [heq.1], heq.2⟩
    | more b' hb' _ =>
      rw [List.singleton_append, List.cons_append, List.cons.injEq] at heq
      rw [heq.1] at hb
      omega
  | more b hb htail ih =>
    cases h' with
    | last b' hb' =>
      rw [List.singleton_append, List.cons_append, List.cons.injEq] at heq
      rw [heq.1] at hb
      omega
    | more b' hb' htail' =>
      rw [List.cons_append, List.cons_append, List.cons.injEq] at heq
      rcases ih htail' heq.2 with ⟨hbs, hn, hrest⟩
      rw [heq.1, hbs, hn]
      exact ⟨rfl, rfl, hrest⟩

end Septets

variable {bs bs' rest rest' : List UInt8}

theorem IsVarint.append_inj {n n' : Nat} (h : IsVarint bs n) (h' : IsVarint bs' n')
    (heq : bs ++ rest = bs' ++ rest') : bs = bs' ∧ n = n' ∧ rest = rest' :=
  h.septets.append_inj h'.septets heq

theorem isVarint_singleton {b : UInt8} (h : b.toNat < 128) : IsVarint [b] b.toNat where
  septets := .last b h
  length := by simp
  bound := by omega

/-! ## Fields -/

inductive Value
  | varint (n : Nat)
  | fixed64 (bytes : List UInt8)
  | delimited (bytes : List UInt8)
  | fixed32 (bytes : List UInt8)

namespace Value

def wireType : Value → Nat
  | varint _ => 0
  | fixed64 _ => 1
  | delimited _ => 2
  | fixed32 _ => 5

/-- The bytes of a value. -/
inductive Encodes : Value → List UInt8 → Prop
  | varint {bs : List UInt8} {n : Nat} : IsVarint bs n → Encodes (.varint n) bs
  | fixed64 {bs : List UInt8} : bs.length = 8 → Encodes (.fixed64 bs) bs
  | delimited {len bs : List UInt8} : IsVarint len bs.length → Encodes (.delimited bs) (len ++ bs)
  | fixed32 {bs : List UInt8} : bs.length = 4 → Encodes (.fixed32 bs) bs

theorem Encodes.append_inj {v v' : Value} (h : Encodes v bs) (h' : Encodes v' bs')
    (htype : v.wireType = v'.wireType) (heq : bs ++ rest = bs' ++ rest') : v = v' ∧ rest = rest' := by
  cases h with
  | varint hn =>
    cases h' with
    | varint hn' =>
      rcases hn.append_inj hn' heq with ⟨_, rfl, hrest⟩
      exact ⟨rfl, hrest⟩
    | fixed64 _ | delimited _ | fixed32 _ => cases htype
  | fixed64 hlen =>
    cases h' with
    | fixed64 hlen' =>
      rcases List.append_inj heq (hlen.trans hlen'.symm) with ⟨rfl, hrest⟩
      exact ⟨rfl, hrest⟩
    | varint _ | delimited _ | fixed32 _ => cases htype
  | delimited hlen =>
    cases h' with
    | delimited hlen' =>
      rw [List.append_assoc, List.append_assoc] at heq
      rcases hlen.append_inj hlen' heq with ⟨_, hlength, hbytes⟩
      rcases List.append_inj hbytes hlength with ⟨rfl, hrest⟩
      exact ⟨rfl, hrest⟩
    | varint _ | fixed64 _ | fixed32 _ => cases htype
  | fixed32 hlen =>
    cases h' with
    | fixed32 hlen' =>
      rcases List.append_inj heq (hlen.trans hlen'.symm) with ⟨rfl, hrest⟩
      exact ⟨rfl, hrest⟩
    | varint _ | fixed64 _ | delimited _ => cases htype

end Value

structure Field where
  number : Nat
  value : Value

/-- The bytes of a field. -/
inductive Field.Encodes : Field → List UInt8 → Prop
  | mk {number : Nat} {value : Value} {tag bs : List UInt8} : 1 ≤ number → number < 2 ^ 29 →
      IsVarint tag (8 * number + value.wireType) → value.Encodes bs → Encodes ⟨number, value⟩ (tag ++ bs)

/-- The bytes of a message. -/
inductive Encodes : List Field → List UInt8 → Prop
  | nil : Encodes [] []
  | cons {f : Field} {fs : List Field} {bs rest : List UInt8} :
      f.Encodes bs → Encodes fs rest → Encodes (f :: fs) (bs ++ rest)

theorem Value.wireType_lt (v : Value) : v.wireType < 8 := by
  cases v <;> simp [wireType]

theorem Field.Encodes.ne_nil {f : Field} {bs : List UInt8} (h : f.Encodes bs) : bs ≠ [] := by
  cases h with
  | mk _ _ htag _ =>
    intro heq
    exact htag.septets.ne_nil (List.append_eq_nil_iff.mp heq).1

theorem Field.Encodes.append_inj {f f' : Field} (h : f.Encodes bs)
    (h' : f'.Encodes bs') (heq : bs ++ rest = bs' ++ rest') : f = f' ∧ rest = rest' := by
  cases h with
  | @mk number value tag bs _ _ htag hvalue =>
    cases h' with
    | @mk number' value' tag' bs' _ _ htag' hvalue' =>
      rw [List.append_assoc, List.append_assoc] at heq
      rcases htag.append_inj htag' heq with ⟨_, htags, hbytes⟩
      have hlt := value.wireType_lt
      have hlt' := value'.wireType_lt
      rcases hvalue.append_inj hvalue' (by omega) hbytes with ⟨rfl, hrest⟩
      obtain rfl : number = number' := by omega
      exact ⟨rfl, hrest⟩

/-! ## Messages -/

variable {fs : List Field}

theorem encodes_nil_iff : Encodes fs [] ↔ fs = [] := by
  constructor
  · generalize hbs : ([] : List UInt8) = bs
    intro h
    cases h with
    | nil => rfl
    | cons hf _ => exact absurd (List.append_eq_nil_iff.mp hbs.symm).1 hf.ne_nil
  · rintro rfl
    exact .nil

theorem encodes_append_iff {f : Field} {bs rest : List UInt8} (h : f.Encodes bs) :
    Encodes fs (bs ++ rest) ↔ ∃ fs', fs = f :: fs' ∧ Encodes fs' rest := by
  constructor
  · generalize hbytes : bs ++ rest = bytes
    intro hfs
    cases hfs with
    | nil => exact absurd (List.append_eq_nil_iff.mp hbytes).1 h.ne_nil
    | cons hf hrest =>
      rcases h.append_inj hf hbytes with ⟨rfl, rfl⟩
      exact ⟨_, rfl, hrest⟩
  · rintro ⟨fs', rfl, hrest⟩
    exact .cons h hrest

theorem exists_of_encodes_cons {tag : UInt8} (htag : tag.toNat < 128) {rest : List UInt8}
    (h : Encodes fs (tag :: rest)) :
    ∃ value bs rest', rest = bs ++ rest' ∧ Value.Encodes value bs ∧ tag.toNat % 8 = value.wireType := by
  generalize hbytes : tag :: rest = bytes at h
  cases h with
  | nil => exact nomatch hbytes
  | cons hf _ =>
    cases hf with
    | @mk number value tag' bs _ _ htag' hvalue =>
      rw [List.append_assoc] at hbytes
      rcases (isVarint_singleton htag).append_inj htag' hbytes with ⟨_, hn, hrest⟩
      have hlt := value.wireType_lt
      exact ⟨value, bs, _, hrest, hvalue, by omega⟩

theorem Field.encodes_of_tag {tag : UInt8} (htag : tag.toNat < 128) (hnumber : 8 ≤ tag.toNat) {value : Value}
    (htype : tag.toNat % 8 = value.wireType) {bs : List UInt8} (hvalue : value.Encodes bs) :
    Field.Encodes ⟨tag.toNat / 8, value⟩ (tag :: bs) := by
  have hsum : 8 * (tag.toNat / 8) + value.wireType = tag.toNat := by omega
  have hvarint : IsVarint [tag] (8 * (tag.toNat / 8) + value.wireType) := by
    rw [hsum]
    exact isVarint_singleton htag
  exact Field.Encodes.mk (by omega) (by omega) hvarint hvalue

end Protobuf
end TemporalSdk.Machine
