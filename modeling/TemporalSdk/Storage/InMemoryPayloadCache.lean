import Mathlib.Algebra.GroupWithZero.Nat
import TemporalSdk.Machine.LruCache
import TemporalSdk.Machine.Run

/-!
# InMemoryPayloadCache — the default payload cache

`InMemoryPayloadCache` of `packages/common/src/internal-non-workflow/in-memory-payload-cache.ts`, whose entries are a
`Map` in the order of their last use, as a refinement of the cache of `Machine.LruCache`.
-/

namespace TemporalSdk.Storage.PayloadCaches

open Machine

/-- `PayloadProto`, whose classes are generated. -/
structure PayloadProto (Payload : Type) where
  encode : Payload → List UInt8
  decode : List UInt8 → Payload

structure InMemoryPayloadCacheOptions where
  maxTotalBytes : ℕ := 64 * 1024 * 1024
  maxEntries : ℕ := 10000

structure Entry where
  encodedPayload : List UInt8
  deriving DecidableEq

def Entry.byteLength (e : Entry) : ℕ := e.encodedPayload.length

variable {Key Payload : Type} [DecidableEq Key]

/-! ## A map in insertion order -/

abbrev Entries (Key : Type) := List (Key × Entry)

namespace Entries

def get? (entries : Entries Key) (key : Key) : Option Entry :=
  (entries.find? fun e => e.1 = key).map Prod.snd

def delete (entries : Entries Key) (key : Key) : Entries Key := entries.filter fun e => e.1 ≠ key

/-- A key that is there keeps its place. -/
def set (entries : Entries Key) (key : Key) (entry : Entry) : Entries Key :=
  if (get? entries key).isSome then entries.map fun e => if e.1 = key then (key, entry) else e
  else entries ++ [(key, entry)]

def totalBytes (entries : Entries Key) : ℕ := (entries.map fun e => e.2.byteLength).sum

end Entries

structure InMemoryPayloadCache (Key : Type) where
  entries : Entries Key
  currentBytes : ℤ
  deriving DecidableEq

namespace InMemoryPayloadCache

def create : InMemoryPayloadCache Key := ⟨[], 0⟩

variable (proto : PayloadProto Payload) (options : InMemoryPayloadCacheOptions)

def get (key : Key) (cache : InMemoryPayloadCache Key) : Option Payload × InMemoryPayloadCache Key :=
  match cache.entries.get? key with
  | none => (none, cache)
  | some entry =>
    (some (proto.decode entry.encodedPayload),
      { cache with entries := (cache.entries.delete key).set key entry })

/-- The loop of `set`: the key that `keys()` gives first is the oldest one. -/
def evict (byteLength : ℕ) : Entries Key → ℤ → InMemoryPayloadCache Key
  | [], currentBytes => ⟨[], currentBytes⟩
  | oldest :: rest, currentBytes =>
    if rest.length + 1 ≥ options.maxEntries ∨ currentBytes + byteLength > options.maxTotalBytes then
      evict byteLength rest (currentBytes - oldest.2.byteLength)
    else ⟨oldest :: rest, currentBytes⟩

def set (key : Key) (payload : Payload) (cache : InMemoryPayloadCache Key) : Bool × InMemoryPayloadCache Key :=
  let entry : Entry := ⟨proto.encode payload⟩
  if entry.byteLength > options.maxTotalBytes ∨ options.maxEntries = 0 then (false, cache)
  else
    let cache : InMemoryPayloadCache Key :=
      match cache.entries.get? key with
      | some existing => ⟨cache.entries.delete key, cache.currentBytes - existing.byteLength⟩
      | none => cache
    let cache := evict options entry.byteLength cache.entries cache.currentBytes
    (true, ⟨cache.entries.set key entry, cache.currentBytes + entry.byteLength⟩)

end InMemoryPayloadCache

/-! ## Calls -/

inductive Call (Key Payload : Type) where
  | get (key : Key)
  | set (key : Key) (payload : Payload)

inductive Answer (Payload : Type) where
  | found (payload : Option Payload)
  | accepted (yes : Bool)
  deriving DecidableEq

variable (proto : PayloadProto Payload) (options : InMemoryPayloadCacheOptions)

/-- The bodies of both functions are synchronous, so a call is one step. -/
def call (cache : InMemoryPayloadCache Key) : Call Key Payload → Answer Payload × InMemoryPayloadCache Key
  | .get key => let r := cache.get proto key; (.found r.1, r.2)
  | .set key payload => let r := cache.set proto options key payload; (.accepted r.1, r.2)

/-- The same call on the reference cache. -/
def callLru (lru : LruCache Key Entry) : Call Key Payload → Answer Payload × LruCache Key Entry
  | .get key => let r := lru.get key; (.found (r.1.map fun entry => proto.decode entry.encodedPayload), r.2)
  | .set key payload =>
    let r := lru.set Entry.byteLength options.maxTotalBytes options.maxEntries key ⟨proto.encode payload⟩
    (.accepted r.1, r.2)

/-- What the calls of a run answer. -/
def answers {σ : Type} (call : σ → Call Key Payload → Answer Payload × σ) : σ → List (Call Key Payload) →
    List (Answer Payload)
  | _, [] => []
  | s, c :: calls => (call s c).1 :: answers call (call s c).2 calls

def after (calls : List (Call Key Payload)) : InMemoryPayloadCache Key :=
  run (fun cache c => (call proto options cache c).2) .create calls

def lruAfter (calls : List (Call Key Payload)) : LruCache Key Entry :=
  run (fun lru c => (callLru proto options lru c).2) .empty calls

/-! ## The entries as a map -/

section Map

variable {entries : Entries Key} {key : Key} {entry : Entry}

theorem get?_eq_some_iff (h : (entries.map Prod.fst).Nodup) :
    entries.get? key = some entry ↔ (key, entry) ∈ entries := by
  unfold Entries.get?
  constructor
  · intro hget
    rcases Option.map_eq_some_iff.mp hget with ⟨e, hfind, rfl⟩
    have hkey : e.1 = key := by simpa using List.find?_some hfind
    rw [← hkey]
    exact List.mem_of_find?_eq_some hfind
  · intro hmem
    cases hfind : entries.find? fun e => e.1 = key with
    | none => simpa using List.find?_eq_none.mp hfind _ hmem
    | some e =>
      have hkey : e.1 = key := by simpa using List.find?_some hfind
      rw [List.inj_on_of_nodup_map h (List.mem_of_find?_eq_some hfind) hmem hkey]
      rfl

theorem get?_eq_none_iff : entries.get? key = none ↔ key ∉ entries.map Prod.fst := by
  rw [Entries.get?, Option.map_eq_none_iff, List.find?_eq_none]
  simp only [decide_eq_true_eq, List.mem_map, not_exists, not_and]

theorem mem_delete {e : Key × Entry} : e ∈ entries.delete key ↔ e ∈ entries ∧ e.1 ≠ key := by
  simp [Entries.delete]

theorem delete_of_not_mem (h : key ∉ entries.map Prod.fst) : entries.delete key = entries := by
  refine List.filter_eq_self.mpr fun e he => decide_eq_true ?_
  rintro rfl
  exact h (List.mem_map_of_mem he)

theorem set_of_not_mem (h : key ∉ entries.map Prod.fst) : entries.set key entry = entries ++ [(key, entry)] := by
  rw [Entries.set, get?_eq_none_iff.mpr h]
  rfl

theorem not_mem_keys_delete : key ∉ (entries.delete key).map Prod.fst := by
  simp [Entries.delete]

omit [DecidableEq Key] in
theorem totalBytes_append (l l' : Entries Key) :
    Entries.totalBytes (l ++ l') = l.totalBytes + l'.totalBytes := by
  simp [Entries.totalBytes]

theorem totalBytes_delete (h : (entries.map Prod.fst).Nodup) (hmem : (key, entry) ∈ entries) :
    entries.totalBytes = (entries.delete key).totalBytes + entry.byteLength := by
  rcases List.append_of_mem hmem with ⟨l, l', rfl⟩
  have hkey : key ∉ l.map Prod.fst ∧ key ∉ l'.map Prod.fst := by
    rw [List.map_append, List.map_cons, List.nodup_middle, List.nodup_cons, List.mem_append, not_or] at h
    exact h.1
  have hdelete : Entries.delete (l ++ (key, entry) :: l') key = l ++ l' := by
    have hl := delete_of_not_mem hkey.1
    have hl' := delete_of_not_mem hkey.2
    unfold Entries.delete at *
    rw [List.filter_append, List.filter_cons_of_neg (by simp), hl, hl']
  rw [hdelete, totalBytes_append, totalBytes_append]
  simp only [Entries.totalBytes, List.map_cons, List.sum_cons]
  omega

end Map

/-! ## Evictions -/

/-- The entries fit together with a new one of `byteLength` bytes. -/
def Fits (byteLength : ℕ) (entries : Entries Key) : Prop :=
  entries.length < options.maxEntries ∧ entries.totalBytes + byteLength ≤ options.maxTotalBytes

/-- `kept` is what is left of `entries`: the newest of them, and as many of these as fit. -/
structure Evicts (byteLength : ℕ) (entries evicted kept : Entries Key) : Prop where
  split : entries = evicted ++ kept
  fits : Fits options byteLength kept
  needed : ∀ before last, evicted = before ++ [last] → ¬ Fits options byteLength (last :: kept)

section Evictions

variable {options : InMemoryPayloadCacheOptions} {byteLength : ℕ} {entries evicted kept : Entries Key}

omit [DecidableEq Key] in
theorem Fits.suffix (h : Fits options byteLength (evicted ++ kept)) : Fits options byteLength kept := by
  have hlength := h.1
  have hbytes := h.2
  rw [List.length_append] at hlength
  rw [totalBytes_append] at hbytes
  exact ⟨by omega, by omega⟩

omit [DecidableEq Key] in
theorem evict_spec (hsize : byteLength ≤ options.maxTotalBytes) (hentries : options.maxEntries ≠ 0) :
    ∀ entries : Entries Key, ∃ evicted kept, Evicts options byteLength entries evicted kept ∧
      InMemoryPayloadCache.evict options byteLength entries entries.totalBytes = ⟨kept, kept.totalBytes⟩ := by
  intro entries
  induction entries with
  | nil =>
    refine ⟨[], [], ⟨rfl, ⟨Nat.pos_of_ne_zero hentries, ?_⟩, ?_⟩, rfl⟩
    · rw [Entries.totalBytes, List.map_nil, List.sum_nil, Nat.zero_add]
      exact hsize
    · intro before last h
      exact absurd h.symm (List.append_ne_nil_of_right_ne_nil _ (List.cons_ne_nil _ _))
  | cons oldest rest ih =>
    have htotal : Entries.totalBytes (oldest :: rest) = oldest.2.byteLength + Entries.totalBytes rest := by
      simp [Entries.totalBytes]
    by_cases hfits : Fits options byteLength (oldest :: rest)
    · refine ⟨[], oldest :: rest, ⟨rfl, hfits, ?_⟩, ?_⟩
      · intro before last h
        exact absurd h.symm (List.append_ne_nil_of_right_ne_nil _ (List.cons_ne_nil _ _))
      · have hlength := hfits.1
        have hbytes := hfits.2
        rw [List.length_cons] at hlength
        rw [InMemoryPayloadCache.evict, if_neg (by omega)]
    · -- The oldest entry goes, and the loop goes on with the others.
      rcases ih with ⟨evicted, kept, h, heq⟩
      refine ⟨oldest :: evicted, kept, ⟨?_, h.fits, ?_⟩, ?_⟩
      · rw [h.split, List.cons_append]
      · intro before last hlast
        cases before with
        | nil =>
          cases hlast
          rw [← List.nil_append kept, ← h.split]
          exact hfits
        | cons e before => exact h.needed before last (List.cons.inj hlast).2
      · have hover : rest.length + 1 ≥ options.maxEntries ∨
            (Entries.totalBytes (oldest :: rest) : ℤ) + byteLength > options.maxTotalBytes := by
          by_contra hnot
          rw [not_or] at hnot
          exact hfits ⟨by rw [List.length_cons]; omega, by omega⟩
        rw [InMemoryPayloadCache.evict, if_pos hover, ← heq]
        congr 1
        omega

end Evictions

/-! ## The reference cache -/

/-- The map has the entries of the reference cache, those first that were used least recently. -/
structure Represents (cache : InMemoryPayloadCache Key) (lru : LruCache Key Entry) : Prop where
  held : lru.held = (cache.entries.map Prod.fst).toFinset
  content : ∀ key entry, lru.content key = some entry ↔ (key, entry) ∈ cache.entries
  ordered : cache.entries.Pairwise fun a b => lru.lastUsed a.1 < lru.lastUsed b.1
  past : ∀ e ∈ cache.entries, lru.lastUsed e.1 < lru.clock
  currentBytes : cache.currentBytes = cache.entries.totalBytes

theorem represents_create : Represents (.create : InMemoryPayloadCache Key) .empty where
  held := rfl
  content _ _ := by simp [InMemoryPayloadCache.create, LruCache.empty]
  ordered := List.Pairwise.nil
  past := List.forall_mem_nil _
  currentBytes := rfl

namespace Represents

variable {cache : InMemoryPayloadCache Key} {lru : LruCache Key Entry} {key : Key} {entry : Entry}

theorem nodup (h : Represents cache lru) : (cache.entries.map Prod.fst).Nodup :=
  List.pairwise_map.mpr (h.ordered.imp fun hlt heq => absurd (congrArg lru.lastUsed heq) hlt.ne)

theorem content_eq (h : Represents cache lru) (key : Key) : lru.content key = cache.entries.get? key := by
  ext entry
  rw [h.content, get?_eq_some_iff h.nodup]

/-- The entry of `key` becomes the newest one, of which nothing else is asked. -/
theorem renew {rest : Entries Key} {lru' : LruCache Key Entry} {bytes : ℤ} (h : Represents cache lru)
    (hrest : rest.Sublist (cache.entries.delete key))
    (hheld : lru'.held = insert key (rest.map Prod.fst).toFinset)
    (hcontent : ∀ x entry', lru'.content x = some entry' ↔ (x = key ∧ entry' = entry) ∨ (x, entry') ∈ rest)
    (hused : lru'.lastUsed = Function.update lru.lastUsed key lru.clock) (hclock : lru'.clock = lru.clock + 1)
    (hbytes : bytes = rest.totalBytes + entry.byteLength) :
    Represents ⟨rest ++ [(key, entry)], bytes⟩ lru' := by
  have hmem : ∀ e ∈ rest, e ∈ cache.entries ∧ e.1 ≠ key := fun e he => mem_delete.mp (hrest.mem he)
  have hsame : ∀ e ∈ rest, lru'.lastUsed e.1 = lru.lastUsed e.1 := fun e he => by
    rw [hused, Function.update_of_ne (hmem e he).2]
  have hkey : lru'.lastUsed key = lru.clock := by rw [hused, Function.update_self]
  refine { held := ?_, content := ?_, ordered := ?_, past := ?_, currentBytes := ?_ }
  · rw [hheld, List.map_append, List.toFinset_append, Finset.insert_eq, Finset.union_comm]
    rfl
  · intro x entry'
    rw [hcontent, List.mem_append, List.mem_singleton, Prod.mk.injEq, or_comm]
  · refine List.pairwise_append.mpr ⟨?_, List.pairwise_singleton _ _, ?_⟩
    · refine ((h.ordered.sublist List.filter_sublist).sublist hrest).imp_of_mem fun ha hb hlt => ?_
      rw [hsame _ ha, hsame _ hb]
      exact hlt
    · intro a ha b hb
      rw [List.mem_singleton.mp hb, hsame a ha, hkey]
      exact h.past a (hmem a ha).1
  · intro e he
    rw [hclock]
    rcases List.mem_append.mp he with he | he
    · rw [hsame e he]
      exact (h.past e (hmem e he).1).trans (Nat.lt_succ_self _)
    · rw [List.mem_singleton.mp he, hkey]
      exact Nat.lt_succ_self _
  · rw [hbytes, totalBytes_append]
    simp [Entries.totalBytes]

theorem get (h : Represents cache lru) (proto : PayloadProto Payload) (key : Key) :
    (cache.get proto key).1 = (lru.get key).1.map (fun entry => proto.decode entry.encodedPayload) ∧
      Represents (cache.get proto key).2 (lru.get key).2 := by
  unfold InMemoryPayloadCache.get LruCache.get
  rw [h.content_eq key]
  cases hget : cache.entries.get? key with
  | none => exact ⟨rfl, h⟩
  | some entry =>
    refine ⟨rfl, ?_⟩
    have hmem := (get?_eq_some_iff h.nodup).mp hget
    have hkeys : insert key ((cache.entries.delete key).map Prod.fst).toFinset = lru.held := by
      rw [h.held]
      ext x
      by_cases hx : x = key
      · simp only [hx, Finset.mem_insert_self, List.mem_toFinset, true_iff]
        exact List.mem_map_of_mem hmem
      · simp [hx, Entries.delete]
    dsimp only
    rw [set_of_not_mem not_mem_keys_delete]
    refine h.renew (List.Sublist.refl _) hkeys.symm ?_ rfl rfl ?_
    · intro x entry'
      rw [mem_delete, LruCache.touch, h.content]
      by_cases hx : x = key
      · rw [hx]
        refine ⟨fun hmem' => Or.inl ⟨rfl, ?_⟩, ?_⟩
        · exact Option.some.inj (((get?_eq_some_iff h.nodup).mpr hmem').symm.trans hget)
        · rintro (⟨-, rfl⟩ | ⟨-, hne⟩)
          · exact hmem
          · exact absurd rfl hne
      · simp [hx]
    · rw [h.currentBytes, totalBytes_delete h.nodup hmem, Int.natCast_add]

section Set

variable {options : InMemoryPayloadCacheOptions} {evicted kept before later : Entries Key} {x : Key × Entry}

theorem erase_held (h : Represents cache lru) :
    lru.held.erase key = ((cache.entries.delete key).map Prod.fst).toFinset := by
  rw [h.held]
  ext x
  simp only [Finset.mem_erase, List.mem_toFinset, List.mem_map, mem_delete]
  constructor
  · rintro ⟨hne, e, he, rfl⟩
    exact ⟨e, ⟨he, hne⟩, rfl⟩
  · rintro ⟨e, ⟨he, hne⟩, rfl⟩
    exact ⟨hne, e, he, rfl⟩

/-- The entries used since `x` are `x` and those behind it. -/
theorem since_eq (h : Represents cache lru) (hsplit : cache.entries.delete key = before ++ x :: later) :
    lru.since key x.1 = ((x :: later).map Prod.fst).toFinset := by
  have hordered : (before ++ x :: later).Pairwise fun a b => lru.lastUsed a.1 < lru.lastUsed b.1 :=
    hsplit ▸ h.ordered.sublist List.filter_sublist
  rcases List.pairwise_append.mp hordered with ⟨-, hlater, hbefore⟩
  ext y
  rw [LruCache.since, Finset.mem_filter, h.erase_held, hsplit]
  simp only [List.mem_toFinset, List.mem_map, List.mem_append]
  constructor
  · rintro ⟨⟨e, he | he, rfl⟩, hle⟩
    · exact absurd (hbefore e he x List.mem_cons_self) (Nat.not_lt.mpr hle)
    · exact ⟨e, he, rfl⟩
  · rintro ⟨e, he, rfl⟩
    refine ⟨⟨e, Or.inr he, rfl⟩, ?_⟩
    rcases List.mem_cons.mp he with rfl | he
    · exact le_rfl
    · exact (List.rel_of_pairwise_cons hlater he).le

theorem stays_iff (h : Represents cache lru) (hsplit : cache.entries.delete key = before ++ x :: later) :
    lru.Stays Entry.byteLength options.maxTotalBytes options.maxEntries key entry x.1 ↔
      Fits options entry.byteLength (x :: later) := by
  have hsub : (x :: later).Sublist cache.entries := by
    have hright := List.sublist_append_right before (x :: later)
    rw [← hsplit] at hright
    exact hright.trans List.filter_sublist
  have hnodup : ((x :: later).map Prod.fst).Nodup := h.nodup.sublist (hsub.map Prod.fst)
  have hweight : (((x :: later).map Prod.fst).map (lru.weight Entry.byteLength)).sum =
      Entries.totalBytes (x :: later) := by
    rw [List.map_map, Entries.totalBytes]
    refine congrArg List.sum (List.map_congr_left fun e he => ?_)
    have hcontent := (h.content e.1 e.2).mpr (hsub.mem he)
    simp [LruCache.weight, hcontent]
  rw [LruCache.Stays, h.since_eq hsplit, List.toFinset_card_of_nodup hnodup, List.sum_toFinset _ hnodup, hweight,
    List.length_map]
  rfl

theorem mem_kept_iff (h : Represents cache lru)
    (hevicts : Evicts options entry.byteLength (cache.entries.delete key) evicted kept) (y : Key) :
    y ∈ lru.kept Entry.byteLength options.maxTotalBytes options.maxEntries key entry ↔ y ∈ kept.map Prod.fst := by
  have hsplit := hevicts.split
  rw [LruCache.kept, Finset.mem_filter, h.erase_held, List.mem_toFinset, hsplit, List.map_append, List.mem_append]
  constructor
  · rintro ⟨hy | hy, hstays⟩
    · -- An evicted entry stays only if the last of them does.
      rcases List.mem_map.mp hy with ⟨x, hx, rfl⟩
      rcases List.append_of_mem hx with ⟨before, later, hx⟩
      have hfits := (h.stays_iff (show cache.entries.delete key = before ++ x :: (later ++ kept) by simp [hsplit, hx])).mp hstays
      rcases List.eq_nil_or_concat' (x :: later) with hnil | ⟨init, last, hlast⟩
      · cases hnil
      · rw [← List.cons_append, hlast, List.append_assoc] at hfits
        exact absurd hfits.suffix (hevicts.needed (before ++ init) last (by rw [hx, hlast, List.append_assoc]))
    · exact hy
  · intro hy
    refine ⟨Or.inr hy, ?_⟩
    rcases List.mem_map.mp hy with ⟨x, hx, rfl⟩
    rcases List.append_of_mem hx with ⟨before, later, hx⟩
    refine (h.stays_iff (show cache.entries.delete key = (evicted ++ before) ++ x :: later by simp [hsplit, hx])).mpr ?_
    exact Fits.suffix (hx ▸ hevicts.fits)

/-- What an accepted value does: the oldest of the other entries go, and it becomes the newest one. -/
theorem set_spec (h : Represents cache lru) (proto : PayloadProto Payload) {payload : Payload}
    (hentry : entry = ⟨proto.encode payload⟩)
    (hfits : ¬ (entry.byteLength > options.maxTotalBytes ∨ options.maxEntries = 0)) :
    ∃ evicted kept, Evicts options entry.byteLength (cache.entries.delete key) evicted kept ∧
      cache.set proto options key payload =
        (true, ⟨kept ++ [(key, entry)], (kept.totalBytes : ℤ) + entry.byteLength⟩) := by
  rw [not_or, not_lt] at hfits
  rcases evict_spec hfits.1 hfits.2 (cache.entries.delete key) with ⟨evicted, kept, hevicts, heq⟩
  refine ⟨evicted, kept, hevicts, ?_⟩
  have hkey : key ∉ kept.map Prod.fst := fun hmem => by
    have hrest : key ∈ (cache.entries.delete key).map Prod.fst := by
      rw [hevicts.split, List.map_append]
      exact List.mem_append_right _ hmem
    exact not_mem_keys_delete hrest
  have hremoved : (match cache.entries.get? key with
      | some existing => (⟨cache.entries.delete key, cache.currentBytes - existing.byteLength⟩ : InMemoryPayloadCache Key)
      | none => cache) = ⟨cache.entries.delete key, (cache.entries.delete key).totalBytes⟩ := by
    cases hget : cache.entries.get? key with
    | none =>
      have hdelete := delete_of_not_mem (get?_eq_none_iff.mp hget)
      rw [hdelete, ← h.currentBytes]
    | some existing =>
      have htotal := totalBytes_delete h.nodup ((get?_eq_some_iff h.nodup).mp hget)
      have hcurrent := h.currentBytes
      dsimp only
      congr 1
      omega
  rw [InMemoryPayloadCache.set, ← hentry, if_neg (by rw [not_or, not_lt]; exact hfits)]
  dsimp only
  rw [hremoved, heq, set_of_not_mem hkey]

theorem set (h : Represents cache lru) (proto : PayloadProto Payload) (options : InMemoryPayloadCacheOptions)
    (key : Key) (payload : Payload) :
    (cache.set proto options key payload).1 =
        (lru.set Entry.byteLength options.maxTotalBytes options.maxEntries key ⟨proto.encode payload⟩).1 ∧
      Represents (cache.set proto options key payload).2
        (lru.set Entry.byteLength options.maxTotalBytes options.maxEntries key ⟨proto.encode payload⟩).2 := by
  obtain ⟨entry, hentry⟩ : ∃ entry : Entry, entry = ⟨proto.encode payload⟩ := ⟨_, rfl⟩
  rw [← hentry, LruCache.set]
  by_cases hrefused : entry.byteLength > options.maxTotalBytes ∨ options.maxEntries = 0
  · rw [InMemoryPayloadCache.set, ← hentry, if_pos hrefused, if_neg (by omega)]
    exact ⟨rfl, h⟩
  · have hspec : ∃ evicted kept, Evicts options entry.byteLength (cache.entries.delete key) evicted kept ∧ _ :=
      h.set_spec proto hentry hrefused
    rcases hspec with ⟨evicted, kept, hevicts, heq⟩
    have hkept := h.mem_kept_iff hevicts
    have hsub : kept.Sublist (cache.entries.delete key) := hevicts.split ▸ List.sublist_append_right _ _
    rw [heq, if_pos (by omega)]
    refine ⟨rfl, h.renew hsub (congrArg (insert key) ?_) ?_ rfl rfl rfl⟩
    · ext y
      rw [hkept, List.mem_toFinset]
    · intro x entry'
      by_cases hx : x = key
      · have hkey : (key, entry') ∉ kept := fun hmem => (mem_delete.mp (hsub.mem hmem)).2 rfl
        simp [hx, hkey, eq_comm]
      · simp only [hx, if_false, false_and, false_or]
        have hiff : (x, entry') ∈ kept ↔ x ∈ kept.map Prod.fst ∧ (x, entry') ∈ cache.entries := by
          constructor
          · intro hmem
            exact ⟨List.mem_map_of_mem hmem, (mem_delete.mp (hsub.mem hmem)).1⟩
          · rintro ⟨hkey, hmem⟩
            rcases List.mem_map.mp hkey with ⟨e, he, rfl⟩
            rw [← List.inj_on_of_nodup_map h.nodup (mem_delete.mp (hsub.mem he)).1 hmem rfl]
            exact he
        rw [hiff, ← hkept, ← h.content]
        split
        · next hmem => exact ⟨fun hc => ⟨hmem, hc⟩, And.right⟩
        · next hmem => exact iff_of_false nofun fun hc => hmem hc.1

end Set

theorem length_eq (h : Represents cache lru) : cache.entries.length = lru.held.card := by
  rw [h.held, List.toFinset_card_of_nodup h.nodup, List.length_map]

theorem totalBytes_eq (h : Represents cache lru) :
    cache.entries.totalBytes = ∑ key ∈ lru.held, lru.weight Entry.byteLength key := by
  rw [h.held, List.sum_toFinset _ h.nodup, List.map_map, Entries.totalBytes]
  refine congrArg List.sum (List.map_congr_left fun e he => ?_)
  have hcontent := (h.content e.1 e.2).mpr he
  simp [LruCache.weight, hcontent]

end Represents

/-! ## Runs -/

section Runs

variable {proto : PayloadProto Payload} {options : InMemoryPayloadCacheOptions}

theorem answers_eq : ∀ {calls : List (Call Key Payload)} {cache : InMemoryPayloadCache Key} {lru : LruCache Key Entry},
    Represents cache lru → answers (call proto options) cache calls = answers (callLru proto options) lru calls ∧
      Represents (run (fun cache c => (call proto options cache c).2) cache calls)
        (run (fun lru c => (callLru proto options lru c).2) lru calls) := by
  intro calls
  induction calls with
  | nil => exact fun h => ⟨rfl, h⟩
  | cons c calls ih =>
    intro cache lru h
    have hstep : (call proto options cache c).1 = (callLru proto options lru c).1 ∧
        Represents (call proto options cache c).2 (callLru proto options lru c).2 := by
      cases c with
      | get key => exact ⟨congrArg Answer.found (h.get proto key).1, (h.get proto key).2⟩
      | set key payload =>
        exact ⟨congrArg Answer.accepted (h.set proto options key payload).1, (h.set proto options key payload).2⟩
    rcases ih hstep.2 with ⟨hanswers, hrep⟩
    exact ⟨by rw [answers, answers, hstep.1, hanswers], hrep⟩

theorem represents_after (calls : List (Call Key Payload)) :
    Represents (after proto options calls) (lruAfter proto options calls) := (answers_eq represents_create).2

variable (proto options) in
/-- The payload is within the limits, which is all that an acceptance depends on. -/
def Accepts (payload : Payload) : Prop :=
  (proto.encode payload).length ≤ options.maxTotalBytes ∧ options.maxEntries ≠ 0

instance (payload : Payload) : Decidable (Accepts proto options payload) := inferInstanceAs (Decidable (_ ∧ _))

variable (proto options) in
/-- The last accepted payload of a key. -/
def lastAccepted (calls : List (Call Key Payload)) (key : Key) : Option Payload :=
  calls.foldl (fun last c =>
    match c with
    | .get _ => last
    | .set key' payload => if key' = key ∧ Accepts proto options payload then some payload else last) none

theorem set_of_not_accepts {payload : Payload} (h : ¬ Accepts proto options payload) (cache : InMemoryPayloadCache Key)
    (key : Key) : cache.set proto options key payload = (false, cache) := by
  have hrefused : (proto.encode payload).length > options.maxTotalBytes ∨ options.maxEntries = 0 := by
    unfold Accepts at h
    omega
  exact if_pos hrefused

theorem set_of_accepts {payload : Payload} {cache : InMemoryPayloadCache Key} {lru : LruCache Key Entry}
    (hrep : Represents cache lru) (h : Accepts proto options payload) (key : Key) :
    ∃ evicted kept, Evicts options (proto.encode payload).length (cache.entries.delete key) evicted kept ∧
      cache.set proto options key payload = (true,
        ⟨kept ++ [(key, ⟨proto.encode payload⟩)], (kept.totalBytes : ℤ) + (proto.encode payload).length⟩) :=
  hrep.set_spec proto rfl (not_or.mpr ⟨Nat.not_lt.mpr h.1, h.2⟩)

/-- The entries are within the limits, and have the payloads that were accepted last. -/
structure Kept (proto : PayloadProto Payload) (options : InMemoryPayloadCacheOptions) (last : Key → Option Payload)
    (cache : InMemoryPayloadCache Key) : Prop where
  currentBytes_le : cache.currentBytes ≤ options.maxTotalBytes
  length_le : cache.entries.length ≤ options.maxEntries
  last : ∀ key entry, (key, entry) ∈ cache.entries → ∃ payload, last key = some payload ∧ entry = ⟨proto.encode payload⟩

theorem kept_after (calls : List (Call Key Payload)) :
    Kept proto options (lastAccepted proto options calls) (after proto options calls) := by
  induction calls using List.reverseRecOn with
  | nil => exact ⟨Int.natCast_nonneg _, Nat.zero_le _, fun _ _ => nofun⟩
  | append_singleton calls c ih =>
    have hrep : Represents (after proto options calls) _ := represents_after calls
    have hlast : ∀ key, lastAccepted proto options (calls ++ [c]) key =
        match c with
        | .get _ => lastAccepted proto options calls key
        | .set key' payload =>
          if key' = key ∧ Accepts proto options payload then some payload else lastAccepted proto options calls key :=
      fun key => by
        rw [lastAccepted, List.foldl_append]
        rfl
    have hafter : after proto options (calls ++ [c]) = (call proto options (after proto options calls) c).2 :=
      run_append _ _ _ _
    rw [hafter]
    cases c with
    | get key =>
      -- A use moves an entry, and the reference cache still holds the same.
      have hget := (hrep.get proto key).2
      have hsame : ((lruAfter proto options calls).get key).2.held = (lruAfter proto options calls).held ∧
          ((lruAfter proto options calls).get key).2.content = (lruAfter proto options calls).content := by
        unfold LruCache.get
        split <;> exact ⟨rfl, rfl⟩
      refine { currentBytes_le := ?_, length_le := ?_, last := ?_ }
      · have hbytes := ih.currentBytes_le
        rw [hrep.currentBytes, hrep.totalBytes_eq] at hbytes
        change ((after proto options calls).get proto key).2.currentBytes ≤ _
        rw [hget.currentBytes, hget.totalBytes_eq, hsame.1]
        simpa only [LruCache.weight, hsame.2] using hbytes
      · have hlength := ih.length_le
        rw [hrep.length_eq, ← hsame.1, ← hget.length_eq] at hlength
        exact hlength
      · intro key' entry hmem
        rw [hlast]
        rw [call, ← hget.content, hsame.2, hrep.content] at hmem
        exact ih.last key' entry hmem
    | set key payload =>
      by_cases haccepts : Accepts proto options payload
      · rcases set_of_accepts hrep haccepts key with ⟨evicted, kept, hevicts, heq⟩
        have hlength := hevicts.fits.1
        have hbytes := hevicts.fits.2
        rw [call, heq]
        refine { currentBytes_le := ?_, length_le := ?_, last := ?_ }
        · change (kept.totalBytes : ℤ) + (proto.encode payload).length ≤ _
          omega
        · rw [List.length_append]
          exact hlength
        · intro key' entry hmem
          rw [hlast]
          rcases List.mem_append.mp hmem with hmem | hmem
          · have hrest : (key', entry) ∈ (after proto options calls).entries.delete key := by
              rw [hevicts.split]
              exact List.mem_append_right _ hmem
            rcases mem_delete.mp hrest with ⟨hold, hne⟩
            dsimp only
            rw [if_neg fun h => hne h.1.symm]
            exact ih.last key' entry hold
          · cases List.mem_singleton.mp hmem
            exact ⟨payload, if_pos ⟨rfl, haccepts⟩, rfl⟩
      · rw [call, set_of_not_accepts haccepts]
        refine { ih with last := fun key' entry hmem => ?_ }
        rw [hlast]
        dsimp only
        rw [if_neg fun h => haccepts h.2]
        exact ih.last key' entry hmem

/-- What holds of the cache after a run, and of its next call. -/
structure RefinesLru (proto : PayloadProto Payload) (options : InMemoryPayloadCacheOptions)
    (calls : List (Call Key Payload)) : Prop where
  answers : answers (call proto options) .create calls = answers (callLru proto options) .empty calls
  represents : Represents (after proto options calls) (lruAfter proto options calls)
  currentBytes : (after proto options calls).currentBytes = (after proto options calls).entries.totalBytes
  currentBytes_le : (after proto options calls).currentBytes ≤ options.maxTotalBytes
  length_le : (after proto options calls).entries.length ≤ options.maxEntries
  accepted : ∀ key payload, Accepts proto options payload → ∃ evicted kept,
    Evicts options (proto.encode payload).length ((after proto options calls).entries.delete key) evicted kept ∧
      (after proto options calls).set proto options key payload = (true,
        ⟨kept ++ [(key, ⟨proto.encode payload⟩)], (kept.totalBytes : ℤ) + (proto.encode payload).length⟩)
  rejected : ∀ key payload, ¬ Accepts proto options payload →
    (after proto options calls).set proto options key payload = (false, after proto options calls)
  current : ∀ key found, ((after proto options calls).get proto key).1 = some found →
    ∃ payload, lastAccepted proto options calls key = some payload ∧ found = proto.decode (proto.encode payload)

theorem refines_lru (proto : PayloadProto Payload) (options : InMemoryPayloadCacheOptions)
    (calls : List (Call Key Payload)) : RefinesLru proto options calls where
  answers := (answers_eq represents_create).1
  represents := represents_after calls
  currentBytes := (represents_after calls).currentBytes
  currentBytes_le := (kept_after calls).currentBytes_le
  length_le := (kept_after calls).length_le
  accepted key _ haccepts := set_of_accepts (represents_after calls) haccepts key
  rejected key _ hrejects := set_of_not_accepts hrejects _ key
  current key found hget := by
    have hrep : Represents (after proto options calls) _ := represents_after calls
    unfold InMemoryPayloadCache.get at hget
    cases hentry : (after proto options calls).entries.get? key with
    | none => exact absurd hget (by simp [hentry])
    | some entry =>
      rw [hentry] at hget
      rcases (kept_after calls).last key entry ((get?_eq_some_iff hrep.nodup).mp hentry) with ⟨payload, hlast, rfl⟩
      exact ⟨payload, hlast, (Option.some.inj hget).symm⟩

end Runs

/-- Payloads that are nothing but short data: the field's tag, its length and the bytes. -/
def dataOnly : PayloadProto (List UInt8) where
  encode data := if data = [] then [] else 0x12 :: UInt8.ofNat data.length :: data
  decode bytes := bytes.drop 2

/-- A payload that is too large is refused, and the one before it is still there. -/
theorem superseded_payload_found :
    answers (call dataOnly { maxTotalBytes := 3 }) (.create : InMemoryPayloadCache String)
        [.set "key" [1], .set "key" [2, 3], .get "key"] =
      [.accepted true, .accepted false, .found (some [1])] := by
  decide

end TemporalSdk.Storage.PayloadCaches
