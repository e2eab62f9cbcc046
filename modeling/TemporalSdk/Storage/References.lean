import TemporalSdk.Machine.JsObject
import TemporalSdk.Storage.Runner

/-!
# References — reference payloads and the keys of the payload cache

The key of a claim is made of texts with their length in front, so that no two claims share one.
-/

namespace TemporalSdk.Storage

open Machine

/-! ## Reference payloads -/

def readMetadataString (payload : Payload) (key : String) : Option String :=
  (payload.metadata.lookup key).map decode

def isReferencePayload (payload : Payload) : Bool :=
  if readMetadataString payload METADATA_ENCODING_KEY = some METADATA_ENCODING_PROTOBUF_JSON then
    readMetadataString payload METADATA_MESSAGE_TYPE_KEY = some EXTSTORE_REFERENCE_MESSAGE_TYPE
  else false

def readSizeBytes (payload : Payload) : Nat := payload.externalPayloads.head?.getD 0

structure DecodedReferencePayload where
  driverName : String
  claimData : List (String × String)
  sizeBytes : Nat
  deriving DecidableEq

/-- `fromJson` of the JSON text of a message: the driver's name and the claim data. -/
abbrev ReferenceParser := String → Bytes → Except Thrown (String × List (String × String))

def decodeReferencePayload (pb : Protobuf) (fromJson : ReferenceParser) (payload : Payload) :
    Except Thrown DecodedReferencePayload := do
  let (messageType, data) ← pb.validatePayload payload
  let (driverName, claimData) ← fromJson messageType data
  if driverName = "" then throw ⟨.valueError, "Reference payload field 'driverName' must be a non-empty string"⟩
  else pure ⟨driverName, claimData, readSizeBytes payload⟩

/-- The message class is there, and a reference comes back from its JSON text. -/
structure ReferencesRoundTrip (pb : Protobuf) (fromJson : ReferenceParser) : Prop where
  lookupType : pb.lookupType EXTSTORE_REFERENCE_MESSAGE_TYPE = true
  fromJson_referenceJson : ∀ driverName claim,
    fromJson EXTSTORE_REFERENCE_MESSAGE_TYPE (pb.referenceJson driverName claim) = .ok (driverName, claim.claimData)

variable {pb : Protobuf} {fromJson : ReferenceParser}

variable (driverName : String)

theorem lookup_encoding (claim : StorageDriverClaim) (sizeBytes : Nat) :
    (encodeReferencePayload pb driverName claim sizeBytes).metadata.lookup METADATA_ENCODING_KEY =
      some (encode METADATA_ENCODING_PROTOBUF_JSON) := by
  simp [encodeReferencePayload, constructPayload, METADATA_ENCODING_KEY]

theorem lookup_messageType (claim : StorageDriverClaim) (sizeBytes : Nat) :
    (encodeReferencePayload pb driverName claim sizeBytes).metadata.lookup METADATA_MESSAGE_TYPE_KEY =
      some (encode EXTSTORE_REFERENCE_MESSAGE_TYPE) := by
  simp [encodeReferencePayload, constructPayload, METADATA_ENCODING_KEY, METADATA_MESSAGE_TYPE_KEY, List.lookup_cons]

theorem isReferencePayload_encodeReferencePayload (claim : StorageDriverClaim)
    (sizeBytes : Nat) : isReferencePayload (encodeReferencePayload pb driverName claim sizeBytes) = true := by
  simp [isReferencePayload, readMetadataString, lookup_encoding, lookup_messageType]

theorem decodeReferencePayload_encodeReferencePayload (h : ReferencesRoundTrip pb fromJson) {driverName : String}
    (hname : driverName ≠ "") (claim : StorageDriverClaim) (sizeBytes : Nat) :
    decodeReferencePayload pb fromJson (encodeReferencePayload pb driverName claim sizeBytes) =
      .ok ⟨driverName, claim.claimData, sizeBytes⟩ := by
  have hvalid : pb.validatePayload (encodeReferencePayload pb driverName claim sizeBytes) =
      .ok (EXTSTORE_REFERENCE_MESSAGE_TYPE, pb.referenceJson driverName claim) := by
    have hdata : (encodeReferencePayload pb driverName claim sizeBytes).data =
        some (pb.referenceJson driverName claim) := rfl
    simp only [Protobuf.validatePayload, hdata, lookup_messageType, decode_encode, h.lookupType, if_true]
    rfl
  simp only [decodeReferencePayload, hvalid, bind, Except.bind, h.fromJson_referenceJson, if_neg hname]
  rfl

/-! ## Cache keys -/

def EXTSTORE_CACHE_KEY_PREFIX : String := "v0/temporal/extstore/"

def lengthPrefixed (value : String) : String := toString (encode value).length ++ ":" ++ value

/-- The order of `compareBytesLexicographically`. -/
def keyPrecedes (left right : String × String) : Bool := encode left.1 ≤ encode right.1

def externalStorageClaimCacheKey (driverName : String) (claimData : List (String × String)) : String :=
  (claimData.mergeSort keyPrecedes).foldl (fun result entry => result ++ lengthPrefixed entry.1 ++ lengthPrefixed entry.2)
    (EXTSTORE_CACHE_KEY_PREFIX ++ lengthPrefixed driverName)

theorem length_encode (s : String) : (encode s).length = s.utf8ByteSize := by
  simp [encode, String.toUTF8, ← String.size_toByteArray]

theorem isDigit_of_mem_toString {n : Nat} {c : Char} (h : c ∈ (toString n).toList) : c.isDigit = true := by
  apply Nat.isDigit_of_mem_toDigits (by decide) (Nat.le_refl 10)
  rw [← Nat.toList_repr]
  exact h

theorem colon_not_mem_toString (n : Nat) : ':' ∉ (toString n).toList := fun h =>
  absurd (isDigit_of_mem_toString h) (by decide)

theorem toString_injective {m n : Nat} (h : toString m = toString n) : m = n := by
  have hdigits := congrArg (fun s : String => Nat.ofDigitChars 10 s.toList 0) h
  simpa [Nat.toString_eq_ofList_toDigits] using hdigits

/-- What stands before the first `x` is determined. -/
theorem append_cons_inj {α : Type} {x : α} : ∀ {a b rest rest' : List α}, x ∉ a → x ∉ b →
    a ++ x :: rest = b ++ x :: rest' → a = b ∧ rest = rest' := by
  intro a
  induction a with
  | nil =>
    intro b rest rest' _ hb h
    cases b with
    | nil =>
      cases h
      exact ⟨rfl, rfl⟩
    | cons y b =>
      cases h
      exact absurd List.mem_cons_self hb
  | cons y a ih =>
    intro b rest rest' ha hb h
    cases b with
    | nil =>
      cases h
      exact absurd List.mem_cons_self ha
    | cons z b =>
      simp only [List.cons_append, List.cons.injEq] at h
      rcases ih (fun hx => ha (List.mem_cons_of_mem y hx)) (fun hx => hb (List.mem_cons_of_mem z hx)) h.2 with
        ⟨rfl, rfl⟩
      exact ⟨by rw [h.1], rfl⟩

theorem eq_of_append_eq {a b : String} {rest rest' : List Char} (hsize : a.utf8ByteSize = b.utf8ByteSize)
    (h : a.toList ++ rest = b.toList ++ rest') : a = b ∧ rest = rest' := by
  have hnil : ∀ {a b : String} {t : List Char}, a.utf8ByteSize = b.utf8ByteSize → b.toList = a.toList ++ t → t = [] := by
    intro a b t hsize ht
    have hb : b = a ++ String.ofList t := by
      apply String.toList_inj.mp
      rw [ht, String.toList_append, String.toList_ofList]
    rw [hb, String.utf8ByteSize_append] at hsize
    have hzero : (String.ofList t).utf8ByteSize = 0 := by omega
    have hempty := String.utf8ByteSize_eq_zero_iff.mp hzero
    simpa using congrArg String.toList hempty
  rcases List.append_eq_append_iff.mp h with ⟨t, ht, hrest⟩ | ⟨t, ht, hrest⟩
  · have := hnil hsize ht
    subst this
    simp only [List.append_nil] at ht
    exact ⟨(String.toList_inj.mp ht).symm, by simpa using hrest⟩
  · have := hnil hsize.symm ht
    subst this
    simp only [List.append_nil] at ht
    exact ⟨String.toList_inj.mp ht, by simpa using hrest.symm⟩

theorem toList_lengthPrefixed_append (a : String) (rest : List Char) :
    (lengthPrefixed a).toList ++ rest = (toString (encode a).length).toList ++ ':' :: (a.toList ++ rest) := by
  simp [lengthPrefixed, String.toList_append]

theorem lengthPrefixed_inj {a b : String} {rest rest' : List Char}
    (h : (lengthPrefixed a).toList ++ rest = (lengthPrefixed b).toList ++ rest') : a = b ∧ rest = rest' := by
  rw [toList_lengthPrefixed_append, toList_lengthPrefixed_append] at h
  rcases append_cons_inj (colon_not_mem_toString _) (colon_not_mem_toString _) h with ⟨hlength, htail⟩
  have hsize := toString_injective (String.toList_inj.mp hlength)
  rw [length_encode, length_encode] at hsize
  exact eq_of_append_eq hsize htail

theorem lengthPrefixed_ne_nil (a : String) (rest : List Char) : (lengthPrefixed a).toList ++ rest ≠ [] := by
  simp [lengthPrefixed, String.toList_append]

def keyTail (entries : List (String × String)) : List Char :=
  entries.flatMap fun e => (lengthPrefixed e.1).toList ++ (lengthPrefixed e.2).toList

theorem keyTail_injective : Function.Injective keyTail := by
  intro entries
  induction entries with
  | nil =>
    intro entries' h
    cases entries' with
    | nil => rfl
    | cons e entries' =>
      simp only [keyTail, List.flatMap_nil, List.flatMap_cons, List.append_assoc] at h
      exact absurd h.symm (lengthPrefixed_ne_nil e.1 _)
  | cons e entries ih =>
    intro entries' h
    cases entries' with
    | nil =>
      simp only [keyTail, List.flatMap_nil, List.flatMap_cons, List.append_assoc] at h
      exact absurd h (lengthPrefixed_ne_nil e.1 _)
    | cons e' entries' =>
      simp only [keyTail, List.flatMap_cons, List.append_assoc] at h
      rcases lengthPrefixed_inj h with ⟨hkey, h⟩
      rcases lengthPrefixed_inj h with ⟨hvalue, h⟩
      rw [Prod.ext hkey hvalue, ih h]

theorem toList_externalStorageClaimCacheKey (claimData : List (String × String)) :
    (externalStorageClaimCacheKey driverName claimData).toList =
      EXTSTORE_CACHE_KEY_PREFIX.toList ++ ((lengthPrefixed driverName).toList ++ keyTail (claimData.mergeSort keyPrecedes)) := by
  have hfold : ∀ (entries : List (String × String)) (init : String),
      (entries.foldl (fun result entry => result ++ lengthPrefixed entry.1 ++ lengthPrefixed entry.2) init).toList =
        init.toList ++ keyTail entries := by
    intro entries
    induction entries with
    | nil =>
      intro init
      simp [keyTail]
    | cons e entries ih =>
      intro init
      rw [List.foldl_cons, ih]
      simp [keyTail, String.toList_append]
  rw [externalStorageClaimCacheKey, hfold, String.toList_append, List.append_assoc]

theorem externalStorageClaimCacheKey_inj {driverName driverName' : String} {claimData claimData' : List (String × String)}
    (h : externalStorageClaimCacheKey driverName claimData = externalStorageClaimCacheKey driverName' claimData') :
    driverName = driverName' ∧ claimData.Perm claimData' := by
  have hlist := congrArg String.toList h
  rw [toList_externalStorageClaimCacheKey, toList_externalStorageClaimCacheKey] at hlist
  rcases lengthPrefixed_inj (List.append_cancel_left hlist) with ⟨hname, htail⟩
  have hsorted : claimData.mergeSort keyPrecedes = claimData'.mergeSort keyPrecedes := keyTail_injective htail
  refine ⟨hname, (List.mergeSort_perm claimData keyPrecedes).symm.trans ?_⟩
  rw [hsorted]
  exact List.mergeSort_perm claimData' keyPrecedes

/-! ## The order of the entries -/

/-- `compareBytesLexicographically`, of whose result only the sign is used. -/
def compareBytesLexicographically : Bytes → Bytes → Int
  | l :: left, r :: right =>
    if l ≠ r then (l.toNat : Int) - r.toNat else compareBytesLexicographically left right
  | left, right => (left.length : Int) - right.length

theorem compareBytesLexicographically_nonpos_iff : ∀ left right : Bytes,
    compareBytesLexicographically left right ≤ 0 ↔ left ≤ right
  | [], right => by simp [compareBytesLexicographically]
  | l :: left, [] => by
    have hnil : ¬ l :: left ≤ [] := by simp
    simp [compareBytesLexicographically, hnil]
  | l :: left, r :: right => by
    rw [List.cons_le_cons_iff, compareBytesLexicographically]
    by_cases heq : l = r
    · simp [heq, compareBytesLexicographically_nonpos_iff left right]
    · have hlt : l < r ↔ l.toNat < r.toNat := UInt8.lt_iff_toNat_lt
      have hne : l.toNat ≠ r.toNat := fun h => heq (UInt8.toNat_inj.mp h)
      simp only [heq, ne_eq, not_false_eq_true, if_true, false_and, or_false, hlt]
      omega

theorem keyPrecedes_iff (left right : String × String) :
    keyPrecedes left right = true ↔ compareBytesLexicographically (encode left.1) (encode right.1) ≤ 0 := by
  rw [compareBytesLexicographically_nonpos_iff, keyPrecedes, decide_eq_true_eq]

theorem keyPrecedes_trans (a b c : String × String) (h : keyPrecedes a b = true) (h' : keyPrecedes b c = true) :
    keyPrecedes a c = true := by
  simp only [keyPrecedes, decide_eq_true_eq] at *
  exact List.le_trans h h'

theorem keyPrecedes_total (a b : String × String) : (keyPrecedes a b || keyPrecedes b a) = true := by
  simp only [keyPrecedes, Bool.or_eq_true, decide_eq_true_eq]
  exact List.le_total _ _

theorem encode_injective {a b : String} (h : encode a = encode b) : a = b := by
  simpa [decode_encode] using congrArg decode h

theorem keyPrecedes_antisymm {a b : String × String} (h : keyPrecedes a b = true) (h' : keyPrecedes b a = true) :
    a.1 = b.1 := by
  simp only [keyPrecedes, decide_eq_true_eq] at h h'
  exact encode_injective (List.le_antisymm h h')

/-- Sorting forgets the order of the entries, as no two of them have the same key. -/
theorem mergeSort_keyPrecedes_eq {entries entries' : List (String × String)} (h : entries.Perm entries')
    (hnodup : (entries.map Prod.fst).Nodup) : entries.mergeSort keyPrecedes = entries'.mergeSort keyPrecedes := by
  have hsorted := fun l : List (String × String) => List.pairwise_mergeSort keyPrecedes_trans keyPrecedes_total l
  have hperm : (entries.mergeSort keyPrecedes).Perm (entries'.mergeSort keyPrecedes) :=
    (List.mergeSort_perm _ _).trans (h.trans (List.mergeSort_perm _ _).symm)
  refine List.Perm.eq_of_pairwise ?_ (hsorted entries) (hsorted entries') hperm
  intro a b ha hb hab hba
  have ha := List.mem_mergeSort.mp ha
  have hb := h.mem_iff.mpr (List.mem_mergeSort.mp hb)
  exact List.inj_on_of_nodup_map hnodup ha hb (keyPrecedes_antisymm hab hba)

theorem entries_perm_iff {claimData claimData' : JsObject String} :
    claimData.entries.Perm claimData'.entries ↔ ∀ key, claimData.get? key = claimData'.get? key := by
  have hnodup := fun o : JsObject String => List.Nodup.of_map Prod.fst o.nodup_keys
  rw [List.perm_ext_iff_of_nodup (hnodup claimData) (hnodup claimData')]
  constructor
  · intro h key
    ext value
    exact JsObject.mem_entries_iff.symm.trans ((h (key, value)).trans JsObject.mem_entries_iff)
  · rintro h ⟨key, value⟩
    rw [JsObject.mem_entries_iff, JsObject.mem_entries_iff, h key]

theorem externalStorageClaimCacheKey_eq_iff (driverName driverName' : String) (claimData claimData' : JsObject String) :
    externalStorageClaimCacheKey driverName claimData.entries =
        externalStorageClaimCacheKey driverName' claimData'.entries ↔
      driverName = driverName' ∧ ∀ key, claimData.get? key = claimData'.get? key := by
  rw [← entries_perm_iff]
  constructor
  · exact externalStorageClaimCacheKey_inj
  · rintro ⟨rfl, hperm⟩
    rw [externalStorageClaimCacheKey, externalStorageClaimCacheKey,
      mergeSort_keyPrecedes_eq hperm claimData.nodup_keys]

end TemporalSdk.Storage
