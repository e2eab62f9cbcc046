import Mathlib.Data.List.Induction

/-!
# History — properties of append-only logs

A ghost history is a list that grows at its end.  `Always P history` says that each of its entries
met `P` when it was recorded, where `P` reads the entries before it.  Such a property is proved one
entry at a time (`Always.snoc`) and is never lost (`Always.append`).
-/

namespace TemporalSdk.Machine

variable {α : Type*}

theorem split_snoc {history before after : List α} {e x : α}
    (h : history ++ [e] = before ++ x :: after) :
    (after = [] ∧ e = x ∧ history = before) ∨
      ∃ mid, after = mid ++ [e] ∧ history = before ++ x :: mid := by
  rcases List.eq_nil_or_concat after with rfl | ⟨mid, last, rfl⟩
  · have hlast := List.append_inj_right' h rfl
    exact Or.inl ⟨rfl, by simpa using hlast, List.append_inj_left' h rfl⟩
  · have h' : history ++ [e] = (before ++ x :: mid) ++ [last] := by
      simpa using h
    have hlast := List.append_inj_right' h' rfl
    have heq : e = last := by simpa using hlast
    exact Or.inr ⟨mid, by simp [heq], List.append_inj_left' h' rfl⟩

/-- Every entry met `P` with respect to the entries recorded before it. -/
def Always (P : List α → α → Prop) (history : List α) : Prop :=
  ∀ before e after, history = before ++ e :: after → P before e

variable {P : List α → α → Prop} {history : List α}

@[simp] theorem always_nil : Always P [] := by
  intro before e after h
  simp at h

theorem Always.snoc (h : Always P history) {e : α} (he : P history e) :
    Always P (history ++ [e]) := by
  intro before e' after hsplit
  rcases split_snoc hsplit with ⟨_, rfl, rfl⟩ | ⟨mid, _, hhistory⟩
  · exact he
  · exact h before e' mid hhistory

theorem Always.append (h : Always P history) {ext : List α} (hext : ∀ e ∈ ext, ∀ l, P l e) :
    Always P (history ++ ext) := by
  induction ext using List.reverseRecOn with
  | nil => simpa using h
  | append_singleton ext e ih =>
    rw [← List.append_assoc]
    have hinit := ih fun e' he' => hext e' (List.mem_append_left _ he')
    exact hinit.snoc (hext e (by simp) _)

theorem Always.count_le_one [DecidableEq α] {e : α} (h : Always P history)
    (hfirst : ∀ l, P l e → e ∉ l) : history.count e ≤ 1 := by
  by_cases hmem : e ∈ history
  · rcases List.append_of_mem hmem with ⟨before, after, hsplit⟩
    have hbefore := hfirst _ (h before e after hsplit)
    have hafter : e ∉ after := by
      intro hagain
      rcases List.append_of_mem hagain with ⟨mid, rest, rfl⟩
      have hsplit' : history = (before ++ e :: mid) ++ e :: rest := by
        simpa using hsplit
      exact hfirst _ (h _ e rest hsplit') (by simp)
    have hone : history.count e = 0 + (0 + 1) := by
      rw [hsplit, List.count_append, List.count_cons_self, List.count_eq_zero.2 hbefore,
        List.count_eq_zero.2 hafter]
    omega
  · have hzero : history.count e = 0 := List.count_eq_zero.2 hmem
    omega

end TemporalSdk.Machine
