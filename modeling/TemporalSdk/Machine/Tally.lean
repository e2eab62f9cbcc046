import Mathlib.Algebra.BigOperators.Group.List.Basic
import Mathlib.Algebra.GroupWithZero.Nat
import Mathlib.Data.List.Nodup

/-!
# Tally — what the entries of a table add up to

A table is a function of its keys, and a step of a machine changes the entry of one key.  What the entries add up
to over a list of keys without repetition then changes by what that entry contributes before and after.
`total` adds up weights, and `tally` counts the entries in some condition.
-/

namespace TemporalSdk.Machine

variable {κ σ : Type*}

def total (keys : List κ) (weight : σ → Nat) (table : κ → σ) : Nat :=
  (keys.map fun k => weight (table k)).sum

/-- How many of the keys have an entry that satisfies `p`. -/
def tally (keys : List κ) (p : σ → Bool) (table : κ → σ) : Nat :=
  total keys (fun x => (p x).toNat) table

variable {keys : List κ} {weight : σ → Nat} {p : σ → Bool} {table : κ → σ}

theorem total_cons (k : κ) : total (k :: keys) weight table = total keys weight table + weight (table k) := by
  rw [total, List.map_cons, List.sum_cons, total]
  exact Nat.add_comm _ _

theorem total_eq_zero : total keys weight table = 0 ↔ ∀ k ∈ keys, weight (table k) = 0 := by
  induction keys with
  | nil => simp [total]
  | cons k keys ih =>
    rw [total_cons, Nat.add_eq_zero_iff, ih, List.forall_mem_cons]
    exact and_comm

theorem tally_eq_zero : tally keys p table = 0 ↔ ∀ k ∈ keys, p (table k) = false := by
  simp only [tally, total_eq_zero, Bool.toNat_eq_zero]

variable {table' : κ → σ}

theorem total_congr (h : ∀ k ∈ keys, weight (table' k) = weight (table k)) :
    total keys weight table' = total keys weight table := by
  rw [total, List.map_congr_left h, total]

theorem tally_congr (h : ∀ k ∈ keys, p (table' k) = p (table k)) :
    tally keys p table' = tally keys p table := by
  refine total_congr fun k hk => ?_
  rw [h k hk]

theorem total_mono {weight' : σ → Nat} (h : ∀ k ∈ keys, weight (table k) ≤ weight' (table' k)) :
    total keys weight table ≤ total keys weight' table' := by
  induction keys with
  | nil => exact Nat.le_refl _
  | cons k keys ih =>
    rw [List.forall_mem_cons] at h
    have hrest := ih h.2
    have hfirst := h.1
    rw [total_cons, total_cons]
    omega

variable [DecidableEq κ] {k : κ} {x : σ}

theorem total_insert (h : k ∉ keys → weight (table k) = 0) :
    total (keys.insert k) weight table = total keys weight table := by
  by_cases hk : k ∈ keys
  · rw [List.insert_of_mem hk]
  · rw [List.insert_of_not_mem hk, total_cons, h hk]
    rfl

theorem total_update_of_not_mem (hk : k ∉ keys) :
    total keys weight (Function.update table k x) = total keys weight table := by
  refine total_congr fun k' hk' => ?_
  have hne : k' ≠ k := fun h => hk (h ▸ hk')
  rw [Function.update_of_ne hne]

theorem total_update (hkeys : keys.Nodup) (hk : k ∈ keys) :
    total keys weight (Function.update table k x) + weight (table k) =
      total keys weight table + weight x := by
  induction keys with
  | nil => cases hk
  | cons k' keys ih =>
    rcases List.nodup_cons.1 hkeys with ⟨hnot, hkeys⟩
    by_cases h : k' = k
    · subst h
      rw [total_cons, total_cons, total_update_of_not_mem hnot, Function.update_self]
      omega
    · have hmem : k ∈ keys := (List.mem_cons.1 hk).resolve_left fun h' => h h'.symm
      have hrest := ih hkeys hmem
      rw [total_cons, total_cons, Function.update_of_ne h]
      omega

theorem total_change {n change : Int} (hkeys : keys.Nodup)
    (hout : k ∉ keys → weight x = weight (table k)) (hn : n = total keys weight table)
    (hchange : change = weight x - weight (table k)) :
    n + change = total keys weight (Function.update table k x) := by
  by_cases hk : k ∈ keys
  · have htotal : total keys weight (Function.update table k x) + weight (table k) =
        total keys weight table + weight x := total_update hkeys hk
    omega
  · rw [total_update_of_not_mem hk, hn, hchange, hout hk]
    omega

theorem tally_change {n change : Int} (hkeys : keys.Nodup) (hout : k ∉ keys → p x = p (table k))
    (hn : n = tally keys p table) (hchange : change = (p x).toNat - (p (table k)).toNat) :
    n + change = tally keys p (Function.update table k x) :=
  total_change hkeys (fun hk => congrArg Bool.toNat (hout hk)) hn hchange

theorem tally_update_cons (hk : k ∉ keys) :
    tally (k :: keys) p (Function.update table k x) = tally keys p table + (p x).toNat := by
  rw [tally, total_cons, total_update_of_not_mem hk, Function.update_self]
  rfl

theorem total_update_range {table : Nat → σ} (n : Nat) :
    total (List.range (n + 1)) weight (Function.update table n x) =
      total (List.range n) weight table + weight x := by
  have hinit : total (List.range n) weight (Function.update table n x) =
      total (List.range n) weight table := total_update_of_not_mem List.not_mem_range_self
  rw [← hinit, total, List.range_succ, List.map_append, List.sum_append, List.map_singleton,
    List.sum_singleton, Function.update_self, total]

theorem tally_update_range {table : Nat → σ} (n : Nat) :
    tally (List.range (n + 1)) p (Function.update table n x) =
      tally (List.range n) p table + (p x).toNat :=
  total_update_range n

end TemporalSdk.Machine
