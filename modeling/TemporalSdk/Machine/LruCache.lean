import Mathlib.Algebra.BigOperators.Group.Finset.Basic
import Mathlib.Algebra.Order.BigOperators.Group.Finset

/-!
# LruCache — a cache that forgets what was used least recently

Every entry has the time of its last use.  What a new value pushes out is said without a loop: an entry stays if
it fits together with the new one and with all entries that were used after it.
-/

namespace TemporalSdk.Machine

structure LruCache (K V : Type*) where
  held : Finset K
  content : K → Option V
  lastUsed : K → ℕ
  clock : ℕ

namespace LruCache

variable {K V : Type*} [DecidableEq K] (size : V → ℕ) (maxSize maxEntries : ℕ)

def empty : LruCache K V := ⟨∅, fun _ => none, fun _ => 0, 0⟩

/-- The size of the value of a key. -/
def weight (c : LruCache K V) (key : K) : ℕ := ((c.content key).map size).getD 0

def touch (key : K) (c : LruCache K V) : LruCache K V :=
  { c with lastUsed := Function.update c.lastUsed key c.clock, clock := c.clock + 1 }

def get (key : K) (c : LruCache K V) : Option V × LruCache K V :=
  match c.content key with
  | some value => (some value, c.touch key)
  | none => (none, c)

/-- The keys other than `key` that were not used before `x`. -/
def since (c : LruCache K V) (key x : K) : Finset K :=
  (c.held.erase key).filter fun y => c.lastUsed x ≤ c.lastUsed y

/-- There is room for the entries used since `x` and a new value of `key`. -/
def Stays (c : LruCache K V) (key : K) (value : V) (x : K) : Prop :=
  (c.since key x).card < maxEntries ∧ ∑ y ∈ c.since key x, c.weight size y + size value ≤ maxSize

instance (c : LruCache K V) (key : K) (value : V) (x : K) : Decidable (c.Stays size maxSize maxEntries key value x) :=
  inferInstanceAs (Decidable (_ ∧ _))

def kept (c : LruCache K V) (key : K) (value : V) : Finset K :=
  (c.held.erase key).filter fun x => c.Stays size maxSize maxEntries key value x

/-- A value that does not fit by itself is refused. -/
def set (key : K) (value : V) (c : LruCache K V) : Bool × LruCache K V :=
  if size value ≤ maxSize ∧ 0 < maxEntries then
    let kept := c.kept size maxSize maxEntries key value
    (true,
      { held := insert key kept
        content := fun x => if x = key then some value else if x ∈ kept then c.content x else none
        lastUsed := Function.update c.lastUsed key c.clock
        clock := c.clock + 1 })
  else (false, c)

end LruCache

end TemporalSdk.Machine
