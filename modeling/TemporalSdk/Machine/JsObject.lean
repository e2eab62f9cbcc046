import Mathlib.Algebra.Group.Nat.Defs
import Mathlib.Data.List.Induction
import Mathlib.Data.List.Nodup
import Mathlib.Data.List.Pairwise
import Mathlib.Data.List.TakeWhile

/-!
# JsObject — the own properties of a plain object

`entries` has the properties in the order in which `Object.keys` lists them: array indices come first, in
ascending order, then the other keys in the order in which they were added.
-/

namespace TemporalSdk.Machine

/-- The number that a key stands for if it is an array index. -/
def arrayIndex (key : String) : Option Nat :=
  match key.toList with
  | [] => none
  | ['0'] => some 0
  | c :: cs =>
    if c = '0' ∨ (c :: cs).all Char.isDigit = false then none
    else
      let n := (c :: cs).foldl (fun n c => 10 * n + (c.toNat - 48)) 0
      if n < 2 ^ 32 - 1 then some n else none

/-- `a` may stand before `b`. -/
def precedes (a b : String) : Bool :=
  match arrayIndex a, arrayIndex b with
  | _, none => true
  | some m, some n => m ≤ n
  | none, some _ => false

theorem precedes_trans_of_not {a b c : String} (h : precedes b a = false) (hbc : precedes b c = true) :
    precedes a c = true := by
  unfold precedes at *
  cases ha : arrayIndex a <;> cases hb : arrayIndex b <;> cases hc : arrayIndex c <;> simp_all
  omega

theorem precedes_of_not {a b : String} (h : precedes b a = false) : precedes a b = true := by
  unfold precedes at *
  cases ha : arrayIndex a <;> cases hb : arrayIndex b <;> simp_all
  omega

theorem precedes_trans {a b c : String} (hab : precedes a b = true) (hbc : precedes b c = true) :
    precedes a c = true := by
  unfold precedes at *
  cases ha : arrayIndex a <;> cases hb : arrayIndex b <;> cases hc : arrayIndex c <;> simp_all
  omega

/-- The order of the properties of an object. -/
def InOrder {α : Type} (entries : List (String × α)) : Prop :=
  entries.Pairwise fun a b => a.1 ≠ b.1 ∧ precedes a.1 b.1 = true

instance {α : Type} (entries : List (String × α)) : Decidable (InOrder entries) :=
  inferInstanceAs (Decidable (entries.Pairwise _))

theorem InOrder.filterMap {α β : Type} {entries : List (String × α)} (h : InOrder entries)
    {f : String × α → Option (String × β)} (hf : ∀ e e', f e = some e' → e'.1 = e.1) : InOrder (entries.filterMap f) := by
  refine List.Pairwise.filterMap f ?_ h
  intro a b hab a' ha b' hb
  rw [hf a a' ha, hf b b' hb]
  exact hab

structure JsObject (α : Type) where
  entries : List (String × α)
  ordered : InOrder entries

namespace JsObject

variable {α : Type}

@[ext] theorem ext {a b : JsObject α} (h : a.entries = b.entries) : a = b := by
  cases a
  cases b
  cases h
  rfl

instance [DecidableEq α] : DecidableEq (JsObject α) := fun a b =>
  decidable_of_iff (a.entries = b.entries) ⟨ext, fun h => by rw [h]⟩

def empty : JsObject α := ⟨[], List.Pairwise.nil⟩

/-- `Object.keys`. -/
def keys (o : JsObject α) : List String := o.entries.map Prod.fst

/-- The value of an own property. -/
def get? (o : JsObject α) (key : String) : Option α :=
  (o.entries.find? fun e => e.1 = key).map Prod.snd

/-- Where a property goes that the object does not have yet. -/
def insertEntry (entries : List (String × α)) (key : String) (value : α) : List (String × α) :=
  entries.takeWhile (fun e => precedes e.1 key) ++
    (key, value) :: entries.dropWhile (fun e => precedes e.1 key)

def replaceEntry (entries : List (String × α)) (key : String) (value : α) : List (String × α) :=
  entries.map fun e => if e.1 = key then (key, value) else e

theorem replaceEntry_inOrder {entries : List (String × α)} (h : InOrder entries) (key : String) (value : α) :
    InOrder (replaceEntry entries key value) := by
  have hkey : ∀ e : String × α, (if e.1 = key then (key, value) else e).1 = e.1 := by
    intro e
    split
    · rename_i he
      exact he.symm
    · rfl
  unfold InOrder replaceEntry
  rw [List.pairwise_map]
  simp only [hkey]
  exact h

theorem insertEntry_inOrder : ∀ {entries : List (String × α)} {key : String} (value : α), InOrder entries →
    (∀ e ∈ entries, e.1 ≠ key) → InOrder (insertEntry entries key value) := by
  intro entries
  induction entries with
  | nil =>
    intro key value _ _
    exact List.pairwise_singleton _ _
  | cons e entries ih =>
    intro key value hord hfresh
    have htail := List.pairwise_cons.mp hord
    cases he : precedes e.1 key with
    | true =>
      have heq : insertEntry (e :: entries) key value = e :: insertEntry entries key value := by
        simp [insertEntry, he]
      rw [heq]
      refine List.pairwise_cons.mpr ⟨?_, ih value htail.2 fun x hx => hfresh x (List.mem_cons_of_mem e hx)⟩
      intro x hx
      have hmem : x ∈ entries ∨ x = (key, value) := by
        have hsplit : x ∈ entries.takeWhile (fun e => precedes e.1 key) ∨ x = (key, value) ∨
            x ∈ entries.dropWhile (fun e => precedes e.1 key) := by
          simpa [insertEntry] using hx
        rcases hsplit with hbefore | hnew | hafter
        · exact Or.inl ((List.takeWhile_sublist _).mem hbefore)
        · exact Or.inr hnew
        · exact Or.inl ((List.dropWhile_sublist _).mem hafter)
      rcases hmem with hold | rfl
      · exact htail.1 x hold
      · exact ⟨hfresh e List.mem_cons_self, he⟩
    | false =>
      have heq : insertEntry (e :: entries) key value = (key, value) :: e :: entries := by
        simp [insertEntry, he]
      rw [heq]
      refine List.pairwise_cons.mpr ⟨?_, hord⟩
      intro x hx
      refine ⟨(hfresh x hx).symm, ?_⟩
      rcases List.mem_cons.mp hx with rfl | hx
      · exact precedes_of_not he
      · exact precedes_trans_of_not he (htail.1 x hx).2

/-- Define an own property. -/
def put (o : JsObject α) (key : String) (value : α) : JsObject α :=
  if h : ∀ e ∈ o.entries, e.1 ≠ key then
    ⟨insertEntry o.entries key value, insertEntry_inOrder value o.ordered h⟩
  else ⟨replaceEntry o.entries key value, replaceEntry_inOrder o.ordered key value⟩

/-- `o[key] = value`.  It is the prototype that `__proto__` stands for, unless there is a property of that name. -/
def assign (o : JsObject α) (key : String) (value : α) : JsObject α :=
  if key = "__proto__" ∧ (o.get? key).isNone then o else o.put key value

theorem find?_replaceEntry (key key' : String) (value : α) : ∀ entries : List (String × α),
    ((replaceEntry entries key value).find? fun e => e.1 = key').map Prod.snd =
      if key' = key then (entries.find? fun e => e.1 = key).map fun _ => value
      else (entries.find? fun e => e.1 = key').map Prod.snd := by
  intro entries
  induction entries with
  | nil => simp [replaceEntry]
  | cons e entries ih =>
    simp only [replaceEntry, List.map_cons] at ih ⊢
    by_cases he : e.1 = key
    · by_cases hkey : key' = key
      · simp [he, hkey]
      · have hne : ¬ key = key' := fun h => hkey h.symm
        simp only [he, if_true, List.find?_cons, hne, decide_false, hkey, if_false] at ih ⊢
        exact ih
    · by_cases hkey : key' = key
      · simp only [he, if_false, List.find?_cons, hkey, decide_false, if_true] at ih ⊢
        exact ih
      · by_cases he' : e.1 = key'
        · simp [hkey, he']
        · simp only [he, if_false, List.find?_cons, he', decide_false, hkey] at ih ⊢
          exact ih

variable {key : String}

theorem find?_insertEntry {entries : List (String × α)} (value : α)
    (hfresh : ∀ e ∈ entries, e.1 ≠ key) (key' : String) :
    ((insertEntry entries key value).find? fun e => e.1 = key').map Prod.snd =
      if key' = key then some value else (entries.find? fun e => e.1 = key').map Prod.snd := by
  by_cases hkey : key' = key
  · have hnone : (entries.takeWhile fun e => precedes e.1 key).find? (fun e => e.1 = key) = none := by
      rw [List.find?_eq_none]
      intro e he
      simpa using hfresh e ((List.takeWhile_sublist _).mem he)
    simp [insertEntry, hkey, hnone]
  · have hne : ¬ key = key' := fun h => hkey h.symm
    have hfind : entries.find? (fun e => e.1 = key') =
        ((entries.takeWhile fun e => precedes e.1 key).find? fun e => e.1 = key').or
          ((entries.dropWhile fun e => precedes e.1 key).find? fun e => e.1 = key') := by
      rw [← List.find?_append, List.takeWhile_append_dropWhile]
    simp [insertEntry, hkey, hne, List.find?_append, hfind]

@[simp] theorem get?_put (o : JsObject α) (key key' : String) (value : α) :
    (o.put key value).get? key' = if key' = key then some value else o.get? key' := by
  unfold put
  split
  · rename_i hfresh
    exact find?_insertEntry value hfresh key'
  · rename_i hfound
    have hsome : ((o.entries.find? fun e => e.1 = key).map fun _ => value) = some value := by
      push Not at hfound
      rcases hfound with ⟨e, he, rfl⟩
      cases hfind : o.entries.find? fun x => x.1 = e.1 with
      | none => simpa using List.find?_eq_none.mp hfind e he
      | some x => rfl
    simp only [get?, find?_replaceEntry, hsome]

theorem get?_assign (o : JsObject α) (key key' : String) (value : α) :
    (o.assign key value).get? key' =
      if key' = key ∧ (key ≠ "__proto__" ∨ (o.get? key).isSome) then some value else o.get? key' := by
  unfold assign
  cases hget : o.get? key with
  | none => by_cases hproto : key = "__proto__" <;> by_cases hkey : key' = key <;> simp_all
  | some v => by_cases hkey : key' = key <;> simp [hkey]

/-- Assign to the properties of a new object, one after the other. -/
def assignAll (o : JsObject α) (entries : List (String × α)) : JsObject α :=
  entries.foldl (fun o e => o.assign e.1 e.2) o

variable {value : α}

theorem mem_of_get?_assignAll : ∀ (entries : List (String × α)) (o : JsObject α),
    (o.assignAll entries).get? key = some value → (key, value) ∈ entries ∨ o.get? key = some value := by
  intro entries
  induction entries with
  | nil =>
    intro o h
    exact Or.inr h
  | cons e entries ih =>
    intro o h
    rcases ih (o.assign e.1 e.2) h with hmem | hget
    · exact Or.inl (List.mem_cons_of_mem e hmem)
    · rw [get?_assign] at hget
      split at hget
      · rename_i hkey
        cases hget
        rw [hkey.1]
        exact Or.inl List.mem_cons_self
      · exact Or.inr hget

theorem get?_assignAll_proto : ∀ (entries : List (String × α)) (o : JsObject α), o.get? "__proto__" = none →
    (o.assignAll entries).get? "__proto__" = none := by
  intro entries
  induction entries with
  | nil =>
    intro o h
    exact h
  | cons e entries ih =>
    intro o h
    apply ih (o.assign e.1 e.2)
    rw [get?_assign, if_neg, h]
    rintro ⟨hkey, hproto | hsome⟩
    · exact hproto hkey.symm
    · rw [← hkey, h] at hsome
      exact nomatch hsome

theorem get?_assignAll_of_not_mem : ∀ (entries : List (String × α)) (o : JsObject α),
    (∀ e ∈ entries, e.1 ≠ key) → (o.assignAll entries).get? key = o.get? key := by
  intro entries
  induction entries with
  | nil =>
    intro o _
    rfl
  | cons e entries ih =>
    intro o h
    have hrest := ih (o.assign e.1 e.2) fun x hx => h x (List.mem_cons_of_mem e hx)
    refine hrest.trans ?_
    rw [get?_assign, if_neg fun hkey => h e List.mem_cons_self hkey.1.symm]

theorem get?_assignAll_of_mem (hproto : key ≠ "__proto__") :
    ∀ (entries : List (String × α)) (o : JsObject α), (entries.map Prod.fst).Nodup → (key, value) ∈ entries →
    (o.assignAll entries).get? key = some value := by
  intro entries
  induction entries with
  | nil =>
    intro o _ hmem
    exact nomatch hmem
  | cons e entries ih =>
    intro o hnodup hmem
    rw [List.map_cons, List.nodup_cons] at hnodup
    rcases List.mem_cons.mp hmem with rfl | hmem
    · have hrest := get?_assignAll_of_not_mem entries (o.assign key value) fun x hx hkey =>
        hnodup.1 (List.mem_map.mpr ⟨x, hx, hkey⟩)
      refine hrest.trans ?_
      rw [get?_assign, if_pos ⟨rfl, Or.inl hproto⟩]
    · exact ih (o.assign e.1 e.2) hnodup.2 hmem

theorem nodup_keys (o : JsObject α) : (o.entries.map Prod.fst).Nodup :=
  List.pairwise_map.mpr (o.ordered.imp fun h => h.1)

theorem mem_entries_iff {o : JsObject α} {key : String} {value : α} :
    (key, value) ∈ o.entries ↔ o.get? key = some value := by
  constructor
  · intro hmem
    cases hfind : o.entries.find? fun e => e.1 = key with
    | none => simpa using List.find?_eq_none.mp hfind _ hmem
    | some e =>
      have hkey : e.1 = key := by simpa using List.find?_some hfind
      have heq : e = (key, value) :=
        List.inj_on_of_nodup_map o.nodup_keys (List.mem_of_find?_eq_some hfind) hmem hkey
      rw [get?, hfind, heq]
      rfl
  · intro hget
    rcases Option.map_eq_some_iff.mp hget with ⟨e, hfind, rfl⟩
    have hkey : e.1 = key := by simpa using List.find?_some hfind
    rw [← hkey]
    exact List.mem_of_find?_eq_some hfind

/-- The last assignment to a key stands, as long as it is a key that can be assigned to. -/
theorem get?_assignAll : ∀ (entries : List (String × α)) (o : JsObject α),
    key ≠ "__proto__" ∨ (o.get? key).isSome →
    (o.assignAll entries).get? key = ((entries.reverse.find? fun e => e.1 = key).map Prod.snd).or (o.get? key) := by
  intro entries
  induction entries with
  | nil =>
    intro o _
    simp [assignAll]
  | cons e entries ih =>
    intro o h
    have hassign : (o.assign e.1 e.2).get? key = if e.1 = key then some e.2 else o.get? key := by
      rw [get?_assign]
      by_cases hkey : e.1 = key
      · rw [if_pos ⟨hkey.symm, by rw [hkey]; exact h⟩, if_pos hkey]
      · rw [if_neg fun hand => hkey hand.1.symm, if_neg hkey]
    have hable : key ≠ "__proto__" ∨ ((o.assign e.1 e.2).get? key).isSome := by
      rw [hassign]
      split
      · exact Or.inr rfl
      · exact h
    refine (ih (o.assign e.1 e.2) hable).trans ?_
    rw [hassign, List.reverse_cons, List.find?_append]
    cases entries.reverse.find? fun x => x.1 = key with
    | none => by_cases hkey : e.1 = key <;> simp [hkey]
    | some x => simp

variable {o : JsObject α}

theorem entries_put_last (value : α) (h : ∀ e ∈ o.entries, e.1 ≠ key ∧ precedes e.1 key = true) :
    (o.put key value).entries = o.entries ++ [(key, value)] := by
  have hfresh : ∀ e ∈ o.entries, e.1 ≠ key := fun e he => (h e he).1
  have htake : o.entries.takeWhile (fun e => precedes e.1 key) = o.entries :=
    List.takeWhile_eq_self_iff.mpr fun e he => (h e he).2
  have hdrop : o.entries.dropWhile (fun e => precedes e.1 key) = [] :=
    List.dropWhile_eq_nil_iff.mpr fun e he => (h e he).2
  rw [put, dif_pos hfresh]
  simp only [insertEntry, htake, hdrop]

theorem entries_assignAll_append : ∀ (entries : List (String × α)) (o : JsObject α),
    InOrder (o.entries ++ entries) → (∀ e ∈ entries, e.1 ≠ "__proto__") →
    (o.assignAll entries).entries = o.entries ++ entries := by
  intro entries
  induction entries with
  | nil =>
    intro o _ _
    simp [assignAll]
  | cons e entries ih =>
    intro o hord hproto
    have hput : (o.assign e.1 e.2).entries = o.entries ++ [e] := by
      have hne := hproto e List.mem_cons_self
      simp only [assign, hne, false_and, if_false]
      apply entries_put_last
      intro x hx
      exact (List.pairwise_append.mp hord).2.2 x hx e List.mem_cons_self
    have hrest := ih (o.assign e.1 e.2) (by simpa [hput] using hord)
      fun x hx => hproto x (List.mem_cons_of_mem e hx)
    simpa [assignAll, hput] using hrest

theorem entries_assignAll {entries : List (String × α)} (hord : InOrder entries)
    (hproto : ∀ e ∈ entries, e.1 ≠ "__proto__") : (empty.assignAll entries).entries = entries := by
  simpa [empty] using entries_assignAll_append entries empty (by simpa [empty] using hord) hproto

/-! ## Spreading -/

/-- Define properties, one after the other, as in `{ ...o, ...entries }`. -/
def putAll (o : JsObject α) (entries : List (String × α)) : JsObject α :=
  entries.foldl (fun o e => o.put e.1 e.2) o

theorem putAll_append (o : JsObject α) (entries more : List (String × α)) :
    o.putAll (entries ++ more) = (o.putAll entries).putAll more := by
  simp [putAll, List.foldl_append]

theorem entries_putAll_append (entries : List (String × α)) : ∀ o : JsObject α, InOrder (o.entries ++ entries) →
    (o.putAll entries).entries = o.entries ++ entries := by
  induction entries with
  | nil =>
    intro o _
    simp [putAll]
  | cons e entries ih =>
    intro o hord
    have hput : (o.put e.1 e.2).entries = o.entries ++ [e] := by
      apply entries_put_last
      intro x hx
      exact (List.pairwise_append.mp hord).2.2 x hx e List.mem_cons_self
    have hrest := ih (o.put e.1 e.2) (by simpa [hput] using hord)
    simpa [putAll, hput] using hrest

theorem entries_putAll {entries : List (String × α)} (hord : InOrder entries) :
    (empty.putAll entries).entries = entries := by
  simpa [empty] using entries_putAll_append entries empty (by simpa [empty] using hord)

theorem get?_putAll (o : JsObject α) (key : String) (entries : List (String × α)) :
    (o.putAll entries).get? key = ((entries.reverse.find? fun e => e.1 = key).map Prod.snd).or (o.get? key) := by
  induction entries using List.reverseRecOn with
  | nil => simp [putAll]
  | append_singleton entries e ih =>
    rw [putAll_append]
    change ((o.putAll entries).put e.1 e.2).get? key = _
    rw [get?_put, ih, List.reverse_append]
    by_cases hkey : e.1 = key
    · simp [hkey]
    · have hne : ¬ key = e.1 := fun h => hkey h.symm
      simp [hkey, hne]

theorem mem_keys_iff : key ∈ o.keys ↔ (o.get? key).isSome = true := by
  constructor
  · intro hmem
    rcases List.mem_map.mp hmem with ⟨e, he, rfl⟩
    rw [mem_entries_iff.mp he]
    rfl
  · intro hsome
    rcases Option.isSome_iff_exists.mp hsome with ⟨value, hget⟩
    exact List.mem_map.mpr ⟨_, mem_entries_iff.mpr hget, rfl⟩

theorem mem_keys_putAll (entries : List (String × α)) :
    key ∈ (empty.putAll entries).keys ↔ key ∈ entries.map Prod.fst := by
  rw [mem_keys_iff, get?_putAll]
  simp [empty, get?]

theorem keys_put (o : JsObject α) (key : String) (value : α) :
    (o.put key value).keys = if key ∈ o.keys then o.keys
      else o.keys.takeWhile (precedes · key) ++ key :: o.keys.dropWhile (precedes · key) := by
  by_cases hmem : key ∈ o.keys
  · have hfound : ¬ ∀ e ∈ o.entries, e.1 ≠ key := by
      intro hfresh
      rcases List.mem_map.mp hmem with ⟨e, he, hkey⟩
      exact hfresh e he hkey
    rw [if_pos hmem, put, dif_neg hfound]
    simp only [keys, replaceEntry, List.map_map]
    apply List.map_congr_left
    intro e _
    by_cases hkey : e.1 = key <;> simp [hkey]
  · have hfresh : ∀ e ∈ o.entries, e.1 ≠ key := fun e he hkey => hmem (List.mem_map.mpr ⟨e, he, hkey⟩)
    rw [if_neg hmem, put, dif_pos hfresh]
    simp only [keys, insertEntry, List.map_append, List.map_cons, List.takeWhile_map, List.dropWhile_map]
    rfl

theorem keys_putAll_of_subset (entries : List (String × α)) : ∀ {o : JsObject α}, (∀ e ∈ entries, e.1 ∈ o.keys) →
    (o.putAll entries).keys = o.keys := by
  induction entries with
  | nil =>
    intro o _
    rfl
  | cons e entries ih =>
    intro o h
    have hput : (o.put e.1 e.2).keys = o.keys := by rw [keys_put, if_pos (h e List.mem_cons_self)]
    have hrest : ∀ x ∈ entries, x.1 ∈ (o.put e.1 e.2).keys := by
      intro x hx
      rw [hput]
      exact h x (List.mem_cons_of_mem e hx)
    exact (ih hrest).trans hput

theorem ext_of_keys {o o' : JsObject α} (hkeys : o.keys = o'.keys) (hget : ∀ key ∈ o'.keys, o.get? key = o'.get? key) :
    o = o' := by
  apply ext
  have hlength : o.entries.length = o'.entries.length := by
    simpa [keys] using congrArg List.length hkeys
  apply List.ext_getElem hlength
  intro i hi hi'
  have hkey : o.entries[i].1 = o'.entries[i].1 := by
    have hi'' : i < o'.keys.length := by simpa [keys] using hi'
    have hget := List.getElem_of_eq hkeys (by simpa [keys] using hi)
    simpa [keys] using hget
  have hvalue : o.get? o.entries[i].1 = some o.entries[i].2 := mem_entries_iff.mp (List.getElem_mem hi)
  have hvalue' : o'.get? o'.entries[i].1 = some o'.entries[i].2 := mem_entries_iff.mp (List.getElem_mem hi')
  rw [hkey, hget _ (List.mem_map_of_mem (List.getElem_mem hi')), hvalue'] at hvalue
  exact Prod.ext hkey (Option.some.inj hvalue).symm

theorem precedes_eq_false_of_mem_dropWhile : ∀ {keys : List String},
    keys.Pairwise (fun a b => precedes a b = true) → ∀ x ∈ keys.dropWhile (precedes · key), precedes x key = false := by
  intro keys
  induction keys with
  | nil =>
    intro _ x hx
    exact nomatch hx
  | cons k keys ih =>
    intro hord x hx
    have htail := List.pairwise_cons.mp hord
    cases hk : precedes k key with
    | true =>
      rw [List.dropWhile_cons, if_pos hk] at hx
      exact ih htail.2 x hx
    | false =>
      rw [List.dropWhile_cons, if_neg (by simp [hk])] at hx
      rcases List.mem_cons.mp hx with rfl | hx
      · exact hk
      · cases hxkey : precedes x key with
        | false => rfl
        | true => simpa [hk] using precedes_trans (htail.1 x hx) hxkey

/-- Of the keys of a class, the one that is listed last. -/
def lastKey (p : String → Bool) (o : JsObject α) : Option String := (o.keys.filter p).getLast?

/-- The last one of the keys that were there and a new one. -/
def laterOf : Option String → String → Option String
  | none, key => some key
  | some last, key => if precedes last key then some key else some last

variable {p : String → Bool}

theorem lastKey_put_of_mem (hmem : key ∈ o.keys) :
    (o.put key value).lastKey p = o.lastKey p := by
  rw [lastKey, keys_put, if_pos hmem, lastKey]

theorem lastKey_put_of_not (hp : p key = false) :
    (o.put key value).lastKey p = o.lastKey p := by
  by_cases hmem : key ∈ o.keys
  · exact lastKey_put_of_mem hmem
  · rw [lastKey, keys_put, if_neg hmem, List.filter_append, List.filter_cons, if_neg (by simp [hp]),
      ← List.filter_append, List.takeWhile_append_dropWhile, lastKey]

theorem lastKey_put_of_not_mem (hmem : key ∉ o.keys)
    (hp : p key = true) : (o.put key value).lastKey p = laterOf (o.lastKey p) key := by
  have hsplit : o.lastKey p = ((o.keys.dropWhile (precedes · key)).filter p).getLast?.or
      ((o.keys.takeWhile (precedes · key)).filter p).getLast? := by
    rw [← List.getLast?_append, ← List.filter_append, List.takeWhile_append_dropWhile, lastKey]
  have hput : (o.put key value).lastKey p =
      ((o.keys.dropWhile (precedes · key)).filter p).getLast?.or (some key) := by
    rw [lastKey, keys_put, if_neg hmem, List.filter_append, List.filter_cons, if_pos hp, List.getLast?_append,
      List.getLast?_cons]
    cases ((o.keys.dropWhile (precedes · key)).filter p).getLast? <;> simp
  have hord : o.keys.Pairwise fun a b => precedes a b = true := List.pairwise_map.mpr (o.ordered.imp fun h => h.2)
  rw [hput, hsplit]
  cases hafter : ((o.keys.dropWhile (precedes · key)).filter p).getLast? with
  | some last =>
    have hlast := (List.mem_filter.mp (List.mem_of_getLast? hafter)).1
    simp [laterOf, precedes_eq_false_of_mem_dropWhile hord last hlast]
  | none =>
    cases hbefore : ((o.keys.takeWhile (precedes · key)).filter p).getLast? with
    | none => rfl
    | some last =>
      have hmem := (List.mem_filter.mp (List.mem_of_getLast? hbefore)).1
      have hlast : precedes last key = true := List.mem_takeWhile_imp (p := (precedes · key)) hmem
      simp [laterOf, hlast]

/-- Of the keys of a class, the one that an object lists last after they were all put, in this order. -/
def lastListed (p : String → Bool) (keys : List String) : Option String :=
  (keys.eraseDups.filter p).foldl laterOf none

theorem lastListed_concat (p : String → Bool) (keys : List String) (key : String) :
    lastListed p (keys ++ [key]) =
      if key ∉ keys ∧ p key = true then laterOf (lastListed p keys) key else lastListed p keys := by
  by_cases hmem : key ∈ keys
  · simp [lastListed, List.eraseDups_append, hmem, List.removeAll]
  · cases hp : p key with
    | true | false =>
      simp [lastListed, List.eraseDups_append, hmem, hp, List.removeAll, List.eraseDups_cons]

theorem mem_of_foldl_laterOf : ∀ (keys : List String) {last : Option String},
    keys.foldl laterOf last = some key → key ∈ keys ∨ last = some key := by
  intro keys
  induction keys with
  | nil =>
    intro last h
    exact Or.inr h
  | cons k keys ih =>
    intro last h
    rcases ih h with hmem | hlater
    · exact Or.inl (List.mem_cons_of_mem k hmem)
    · cases last with
      | none =>
        cases hlater
        exact Or.inl List.mem_cons_self
      | some last =>
        rw [laterOf] at hlater
        split at hlater
        · cases hlater
          exact Or.inl List.mem_cons_self
        · exact Or.inr hlater

theorem mem_of_lastListed {keys : List String}
    (h : lastListed p keys = some key) : key ∈ keys ∧ p key = true := by
  rcases mem_of_foldl_laterOf _ h with hmem | hnone
  · rcases List.mem_filter.mp hmem with ⟨hkeys, hp⟩
    exact ⟨List.mem_eraseDups.mp hkeys, hp⟩
  · exact nomatch hnone

theorem isSome_foldl_laterOf : ∀ (keys : List String) {last : Option String}, last.isSome = true →
    (keys.foldl laterOf last).isSome = true := by
  intro keys
  induction keys with
  | nil =>
    intro last h
    exact h
  | cons key keys ih =>
    intro last h
    apply ih
    cases last with
    | none => rfl
    | some last =>
      rw [laterOf]
      split <;> rfl

theorem not_of_lastListed_eq_none {keys : List String} (h : lastListed p keys = none)
    (hkey : key ∈ keys) : ¬ p key = true := by
  intro hp
  have hmem : key ∈ keys.eraseDups.filter p := List.mem_filter.mpr ⟨List.mem_eraseDups.mpr hkey, hp⟩
  rw [lastListed] at h
  cases hkeys : keys.eraseDups.filter p with
  | nil => exact nomatch hkeys ▸ hmem
  | cons first rest =>
    have hsome := @isSome_foldl_laterOf rest (some first) rfl
    rw [hkeys] at h
    simp only [List.foldl_cons, laterOf] at h
    rw [h] at hsome
    exact nomatch hsome

theorem lastKey_putAll (p : String → Bool) (entries : List (String × α)) :
    (empty.putAll entries).lastKey p = lastListed p (entries.map Prod.fst) := by
  induction entries using List.reverseRecOn with
  | nil => rfl
  | append_singleton entries e ih =>
    rw [putAll_append, List.map_append]
    change ((empty.putAll entries).put e.1 e.2).lastKey p = lastListed p (entries.map Prod.fst ++ [e.1])
    rw [lastListed_concat]
    by_cases hmem : e.1 ∈ entries.map Prod.fst
    · rw [lastKey_put_of_mem ((mem_keys_putAll entries).mpr hmem), ih, if_neg fun h => h.1 hmem]
    · cases hp : p e.1 with
      | false => rw [lastKey_put_of_not hp, ih, if_neg fun h => nomatch h.2]
      | true =>
        have hfresh : e.1 ∉ (empty.putAll entries).keys := fun h => hmem ((mem_keys_putAll entries).mp h)
        rw [lastKey_put_of_not_mem hfresh hp, ih, if_pos ⟨hmem, rfl⟩]

theorem getLast?_entries_filter (p : String → Bool) (o : JsObject α) :
    ((o.entries.filter fun e => p e.1).getLast?).map Prod.snd = (o.lastKey p).bind o.get? := by
  have hkeys : o.lastKey p = ((o.entries.filter fun e => p e.1).getLast?).map Prod.fst := by
    rw [lastKey, keys, List.filter_map, List.getLast?_map]
    rfl
  cases hlast : (o.entries.filter fun e => p e.1).getLast? with
  | none => simp [hkeys, hlast]
  | some e =>
    have hmem : e ∈ o.entries := (List.mem_filter.mp (List.mem_of_getLast? hlast)).1
    simp [hkeys, hlast, mem_entries_iff.mp hmem]

/-! ## Deleting -/

/-- `delete o[key]` -/
def delete (o : JsObject α) (key : String) : JsObject α :=
  ⟨o.entries.filter fun e => e.1 ≠ key, o.ordered.sublist List.filter_sublist⟩

@[simp] theorem get?_delete (o : JsObject α) (key key' : String) :
    (o.delete key).get? key' = if key' = key then none else o.get? key' := by
  simp only [get?, delete, List.find?_filter]
  by_cases hkey : key' = key
  · rw [if_pos hkey, Option.map_eq_none_iff, List.find?_eq_none]
    intro e _
    simp [hkey]
  · rw [if_neg hkey]
    congr 2
    funext e
    by_cases he : e.1 = key' <;> simp [he, hkey]

theorem filter_delete (o : JsObject α) (h : p key = false) :
    (o.delete key).entries.filter (fun e => p e.1) = o.entries.filter fun e => p e.1 := by
  rw [delete, List.filter_filter]
  apply List.filter_congr
  intro e _
  by_cases he : e.1 = key <;> simp [he, h]

theorem filter_put (o : JsObject α) (value : α) (h : p key = false) :
    (o.put key value).entries.filter (fun e => p e.1) = o.entries.filter fun e => p e.1 := by
  unfold put
  split
  · simp only [insertEntry, List.filter_append, List.filter_cons, h]
    rw [if_neg Bool.false_ne_true, ← List.filter_append, List.takeWhile_append_dropWhile]
  · simp only [replaceEntry, List.filter_map]
    have hpred : ((fun e : String × α => p e.1) ∘ fun e => if e.1 = key then (key, value) else e) =
        fun e => p e.1 := by
      funext e
      by_cases he : e.1 = key <;> simp [he]
    rw [hpred, List.map_congr_left (g := id) fun e he => ?_, List.map_id]
    refine if_neg ?_
    intro hkey
    have hp := (List.mem_filter.mp he).2
    rw [hkey, h] at hp
    exact nomatch hp

theorem filter_assign (o : JsObject α) (value : α) (h : p key = false) :
    (o.assign key value).entries.filter (fun e => p e.1) = o.entries.filter fun e => p e.1 := by
  unfold assign
  split
  · rfl
  · exact filter_put o value h

end JsObject
end TemporalSdk.Machine
