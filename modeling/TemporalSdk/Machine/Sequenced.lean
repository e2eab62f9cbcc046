import Mathlib.Data.List.Induction

/-!
# Sequenced — what a receiver that keeps the highest sequence number of each sender takes

`fresh l` are the messages of `l`, in order of arrival, that have a higher number than all messages of their sender
before them.
-/

namespace TemporalSdk.Machine

variable {μ κ : Type*} [DecidableEq κ] (sender : μ → κ) (seq : μ → Nat)

/-- The message is ahead of all that its sender was heard with. -/
def Ahead (heard : List μ) (m : μ) : Prop := ∀ m' ∈ heard, sender m' = sender m → seq m' < seq m

instance (heard : List μ) (m : μ) : Decidable (Ahead sender seq heard m) :=
  inferInstanceAs (Decidable (∀ m' ∈ heard, sender m' = sender m → seq m' < seq m))

def freshAfter (heard : List μ) : List μ → List μ
  | [] => []
  | m :: rest =>
    if Ahead sender seq heard m then m :: freshAfter (heard ++ [m]) rest else freshAfter (heard ++ [m]) rest

def fresh (l : List μ) : List μ := freshAfter sender seq [] l

variable {sender seq}

theorem freshAfter_append : ∀ (l l' heard : List μ),
    freshAfter sender seq heard (l ++ l') =
      freshAfter sender seq heard l ++ freshAfter sender seq (heard ++ l) l' := by
  intro l l'
  induction l with
  | nil =>
    intro heard
    simp [freshAfter]
  | cons m l ih =>
    intro heard
    simp only [List.cons_append, freshAfter, ih, List.append_assoc]
    split <;> rfl

theorem fresh_append_singleton (l : List μ) (m : μ) :
    fresh sender seq (l ++ [m]) =
      if Ahead sender seq l m then fresh sender seq l ++ [m] else fresh sender seq l := by
  simp only [fresh, freshAfter_append, freshAfter, List.nil_append]
  split <;> simp

theorem mem_fresh_append {l l' : List μ} {m : μ} (h : m ∈ fresh sender seq l) : m ∈ fresh sender seq (l ++ l') := by
  rw [fresh, freshAfter_append]
  exact List.mem_append_left _ h

theorem mem_of_mem_fresh {l : List μ} {m : μ} : m ∈ fresh sender seq l → m ∈ l := by
  induction l using List.reverseRecOn with
  | nil => exact id
  | append_singleton l m' ih =>
    intro h
    rw [fresh_append_singleton] at h
    split at h
    · rcases List.mem_append.mp h with h | h
      · exact List.mem_append_left _ (ih h)
      · exact List.mem_append_right _ h
    · exact List.mem_append_left _ (ih h)

theorem fresh_pairwise (l : List μ) :
    (fresh sender seq l).Pairwise fun m m' => sender m = sender m' → seq m < seq m' := by
  induction l using List.reverseRecOn with
  | nil => exact List.Pairwise.nil
  | append_singleton l m' ih =>
    rw [fresh_append_singleton]
    split
    · rename_i hahead
      rw [List.pairwise_append]
      refine ⟨ih, List.pairwise_singleton _ _, ?_⟩
      intro m hm m'' hm''
      rw [List.mem_singleton.mp hm'']
      exact hahead m (mem_of_mem_fresh hm)
    · exact ih

/-- The highest number of a sender was taken. -/
theorem exists_mem_fresh {l : List μ} {k : κ} {n : Nat} (hm : ∃ m ∈ l, sender m = k ∧ seq m = n)
    (hmax : ∀ m ∈ l, sender m = k → seq m ≤ n) : ∃ m ∈ fresh sender seq l, sender m = k ∧ seq m = n := by
  induction l using List.reverseRecOn with
  | nil =>
    rcases hm with ⟨m, hm, _⟩
    cases hm
  | append_singleton l last ih =>
    by_cases hbefore : ∃ m ∈ l, sender m = k ∧ seq m = n
    · rcases ih hbefore fun m hm => hmax m (List.mem_append_left _ hm) with ⟨m, hm, heq⟩
      exact ⟨m, mem_fresh_append hm, heq⟩
    · -- it is the last message, and nothing before it has its number
      rcases hm with ⟨m, hm, hsender, hseq⟩
      have hlast : m = last := by
        rcases List.mem_append.mp hm with hm | hm
        · exact absurd ⟨m, hm, hsender, hseq⟩ hbefore
        · exact List.mem_singleton.mp hm
      subst hlast
      have hahead : Ahead sender seq l m := by
        intro m' hm' hsame
        have hle := hmax m' (List.mem_append_left _ hm') (hsame.trans hsender)
        have hne : seq m' ≠ n := fun heq => hbefore ⟨m', hm', hsame.trans hsender, heq⟩
        omega
      rw [fresh_append_singleton, if_pos hahead]
      exact ⟨m, List.mem_append_right _ (List.mem_singleton_self m), hsender, hseq⟩

end TemporalSdk.Machine
