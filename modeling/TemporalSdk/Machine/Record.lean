import Mathlib.Data.List.Basic

/-!
# Record — finite maps with a list of their keys

A record is a partial function together with a list of the keys where it is defined.  The operations are
specified by what they look up.
-/

namespace TemporalSdk.Machine

structure Record (κ ν : Type) where
  lookup : κ → Option ν
  keys : List κ
  mem_keys : ∀ k, k ∈ keys ↔ (lookup k).isSome = true

namespace Record

variable {κ ν : Type}

def empty : Record κ ν := ⟨fun _ => none, [], fun _ => by simp⟩

/-- The entries of `source` take the place of those of `target`. -/
def override (target source : Record κ ν) : Record κ ν where
  lookup k := (source.lookup k).or (target.lookup k)
  keys := source.keys ++ target.keys
  mem_keys k := by simp [source.mem_keys, target.mem_keys]

@[simp] theorem lookup_override (target source : Record κ ν) (k : κ) :
    (target.override source).lookup k = (source.lookup k).or (target.lookup k) := rfl

/-- The entries that satisfy `p`. -/
def restrict (p : κ → ν → Bool) (r : Record κ ν) : Record κ ν where
  lookup k := (r.lookup k).filter (p k)
  keys := r.keys.filter fun k => ((r.lookup k).filter (p k)).isSome
  mem_keys k := by
    rw [List.mem_filter, r.mem_keys]
    cases r.lookup k <;> simp [Option.filter]

@[simp] theorem lookup_restrict (p : κ → ν → Bool) (r : Record κ ν) (k : κ) :
    (r.restrict p).lookup k = (r.lookup k).filter (p k) := rfl

variable [DecidableEq κ]

def set (r : Record κ ν) (k : κ) (v : ν) : Record κ ν where
  lookup k' := if k' = k then some v else r.lookup k'
  keys := k :: r.keys
  mem_keys k' := by
    by_cases h : k' = k <;> simp [h, r.mem_keys]

@[simp] theorem lookup_set (r : Record κ ν) (k k' : κ) (v : ν) :
    (r.set k v).lookup k' = if k' = k then some v else r.lookup k' := rfl

def remove (r : Record κ ν) (k : κ) : Record κ ν := r.restrict fun k' _ => k' ≠ k

@[simp] theorem lookup_remove (r : Record κ ν) (k k' : κ) :
    (r.remove k).lookup k' = if k' = k then none else r.lookup k' := by
  by_cases h : k' = k
  · subst h
    cases hk : r.lookup k' <;> simp [remove, Option.filter, hk]
  · cases hk : r.lookup k' <;> simp [remove, Option.filter, h, hk]

end Record
end TemporalSdk.Machine
