/-!
# Results — sequences of steps that may fail

A sequence yields a value where each of its steps yields one.
-/

namespace TemporalSdk.Machine

variable {ε α β : Type}

theorem bind_ok_iff (x : Except ε α) (f : α → Except ε β) (b : β) :
    (x >>= f) = .ok b ↔ ∃ a, x = .ok a ∧ f a = .ok b := by
  cases x with
  | error e => exact ⟨nofun, nofun⟩
  | ok a => exact ⟨fun h => ⟨a, rfl, h⟩, fun ⟨_, ha, h⟩ => by cases ha; exact h⟩

theorem map_ok_iff (f : α → β) (x : Except ε α) (b : β) : f <$> x = .ok b ↔ ∃ a, x = .ok a ∧ f a = b := by
  cases x with
  | error e => exact ⟨nofun, nofun⟩
  | ok a => exact ⟨fun h => ⟨a, rfl, Except.ok.inj h⟩, fun ⟨_, ha, h⟩ => by cases ha; exact congrArg _ h⟩

theorem seq_ok_iff (x : Except ε Unit) (y : Except ε α) (a : α) :
    (x >>= fun _ => y) = .ok a ↔ x = .ok () ∧ y = .ok a := by
  rw [bind_ok_iff]
  exact ⟨fun ⟨_, hx, hy⟩ => ⟨hx, hy⟩, fun ⟨hx, hy⟩ => ⟨(), hx, hy⟩⟩

theorem check_ok_iff (p : Prop) [Decidable p] (e : ε) (x : Except ε α) (a : α) :
    (if p then x else .error e) = .ok a ↔ p ∧ x = .ok a := by
  by_cases h : p
  · rw [if_pos h]
    exact ⟨fun hx => ⟨h, hx⟩, And.right⟩
  · rw [if_neg h]
    exact ⟨nofun, fun hx => absurd hx.1 h⟩

end TemporalSdk.Machine
