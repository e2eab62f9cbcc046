import Mathlib.Logic.Basic

/-!
# Loop — what a `while` loop comes to

`turn s` is `none` when the loop ends at `s`, and otherwise the outcome of one turn.
-/

namespace TemporalSdk.Machine

variable {σ ε : Type} {turn : σ → Option (Except ε σ)} {s s' : σ} {e : ε} {r r' : Except ε σ}

/-- The loop that starts at a state ends with an outcome. -/
inductive Loops (turn : σ → Option (Except ε σ)) : σ → Except ε σ → Prop
  | done {s : σ} : turn s = none → Loops turn s (.ok s)
  | throws {s : σ} {e : ε} : turn s = some (.error e) → Loops turn s (.error e)
  | next {s s' : σ} {r : Except ε σ} : turn s = some (.ok s') → Loops turn s' r → Loops turn s r

namespace Loops

theorem done_iff (h : turn s = none) : Loops turn s r ↔ r = .ok s := by
  constructor
  · intro hr
    cases hr with
    | done _ => rfl
    | throws hturn | next hturn => rw [h] at hturn; cases hturn
  · rintro rfl
    exact .done h

theorem throws_iff (h : turn s = some (.error e)) : Loops turn s r ↔ r = .error e := by
  constructor
  · intro hr
    cases hr with
    | done hturn | next hturn => rw [h] at hturn; cases hturn
    | throws hturn => rw [h] at hturn; cases hturn; rfl
  · rintro rfl
    exact .throws h

theorem next_iff (h : turn s = some (.ok s')) : Loops turn s r ↔ Loops turn s' r := by
  constructor
  · intro hr
    cases hr with
    | done hturn | throws hturn => rw [h] at hturn; cases hturn
    | next hturn hrest => rw [h] at hturn; cases hturn; exact hrest
  · exact .next h

end Loops
end TemporalSdk.Machine
