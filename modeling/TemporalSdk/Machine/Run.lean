import Mathlib.Data.List.Basic

/-!
# Run — deterministic machines, guarded runs, unwinding and lockstep

A machine is a step function `step : σ → ε → σ`.  This file collects the run-level rules that the
rest of the development uses at its own state and event types:

* `Guarded step G s es` — every step of the run of `es` from `s` meets the guard `G`, which reads
  the state *before* the step and the event;
* `run_invariant` — the invariant rule for guarded runs;
* `Throughout step P s es` — `P` holds of every state that the run of `es` from `s` reaches;
* `view_run_eq_solo` — the unwinding rule for noninterference: what one owner sees of a shared run
  is what it sees of the run in which only its own events happen;
* `play_lockstep` — two machines driven by the same strategy stay related;
* `run_stutter` — a second machine follows the first one and may sit out steps.
-/

namespace TemporalSdk.Machine

variable {σ ε : Type*}

/-! ## Runs -/

/-- Feed a list of events to a step function. -/
def run (step : σ → ε → σ) (s : σ) (es : List ε) : σ :=
  es.foldl step s

@[simp] theorem run_nil (step : σ → ε → σ) (s : σ) : run step s [] = s := rfl

@[simp] theorem run_cons (step : σ → ε → σ) (s : σ) (e : ε) (es : List ε) :
    run step s (e :: es) = run step (step s e) es := rfl

theorem run_append (step : σ → ε → σ) (s : σ) (es fs : List ε) :
    run step s (es ++ fs) = run step (run step s es) fs := by
  simp [run, List.foldl_append]

/-! ## Guarded runs and invariants -/

/-- Every step of the run of `es` from `s` meets the guard `G`. -/
def Guarded (step : σ → ε → σ) (G : σ → ε → Prop) : σ → List ε → Prop
  | _, [] => True
  | s, e :: es => G s e ∧ Guarded step G (step s e) es

@[simp] theorem guarded_nil (step : σ → ε → σ) (G : σ → ε → Prop) (s : σ) :
    Guarded step G s [] := trivial

@[simp] theorem guarded_cons (step : σ → ε → σ) (G : σ → ε → Prop) (s : σ) (e : ε) (es : List ε) :
    Guarded step G s (e :: es) ↔ G s e ∧ Guarded step G (step s e) es := Iff.rfl

theorem guarded_append (step : σ → ε → σ) (G : σ → ε → Prop) (es fs : List ε) :
    ∀ s, Guarded step G s (es ++ fs) ↔ Guarded step G s es ∧ Guarded step G (run step s es) fs := by
  induction es with
  | nil =>
    intro s
    simp
  | cons e es ih =>
    intro s
    simp [ih, and_assoc]

variable {step : σ → ε → σ} {G : σ → ε → Prop}

theorem guarded_of_forall (h : ∀ s e, G s e) :
    ∀ (s : σ) (es : List ε), Guarded step G s es
  | _, [] => trivial
  | s, e :: es => ⟨h s e, guarded_of_forall h (step s e) es⟩

theorem guarded_true (step : σ → ε → σ) : ∀ (s : σ) (es : List ε), Guarded step (fun _ _ => True) s es :=
  guarded_of_forall fun _ _ => trivial

theorem Guarded.and {G H : σ → ε → Prop} :
    ∀ {es : List ε} {s : σ}, Guarded step G s es → Guarded step H s es →
      Guarded step (fun s e => G s e ∧ H s e) s es := by
  intro es
  induction es with
  | nil =>
    intro s _ _
    trivial
  | cons e es ih =>
    intro s hg hh
    exact ⟨⟨hg.1, hh.1⟩, ih hg.2 hh.2⟩

theorem guarded_forall {ι : Type*} {G : ι → σ → ε → Prop} {p : ι → Prop} :
    ∀ {es : List ε} {s : σ}, (∀ i, p i → Guarded step (G i) s es) →
      Guarded step (fun s e => ∀ i, p i → G i s e) s es := by
  intro es
  induction es with
  | nil =>
    intro s _
    trivial
  | cons e es ih =>
    intro s h
    exact ⟨fun i hi => (h i hi).1, ih fun i hi => (h i hi).2⟩

instance decidableGuarded (step : σ → ε → σ) (G : σ → ε → Prop) [∀ s e, Decidable (G s e)] :
    ∀ s es, Decidable (Guarded step G s es)
  | _, [] => inferInstanceAs (Decidable True)
  | s, e :: es =>
    have := decidableGuarded step G (step s e) es
    inferInstanceAs (Decidable (G s e ∧ Guarded step G (step s e) es))

theorem run_invariant {Inv : σ → Prop} (hstep : ∀ s e, G s e → Inv s → Inv (step s e)) :
    ∀ {es : List ε} {s : σ}, Inv s → Guarded step G s es → Inv (run step s es) := by
  intro es
  induction es with
  | nil =>
    intro s hs _
    exact hs
  | cons e es ih =>
    intro s hs hg
    exact ih (hstep s e hg.1 hs) hg.2

/-- `P` holds of every state that the run of `es` from `s` reaches. -/
def Throughout (step : σ → ε → σ) (P : σ → Prop) : σ → List ε → Prop
  | s, [] => P s
  | s, e :: es => P s ∧ Throughout step P (step s e) es

theorem Throughout.first {P : σ → Prop} {s : σ} {es : List ε}
    (h : Throughout step P s es) : P s := by
  cases es with
  | nil => exact h
  | cons e es => exact h.1

theorem throughout_of_invariant {Inv P : σ → Prop}
    (hstep : ∀ s e, G s e → Inv s → Inv (step s e)) (hP : ∀ s, Inv s → P s) :
    ∀ {es : List ε} {s : σ}, Inv s → Guarded step G s es → Throughout step P s es := by
  intro es
  induction es with
  | nil =>
    intro s hs _
    exact hP s hs
  | cons e es ih =>
    intro s hs hg
    exact ⟨hP s hs, ih (hstep s e hg.1 hs) hg.2⟩

theorem guarded_of_throughout {Inv P : σ → Prop}
    (hstep : ∀ s e, Inv s → Inv (step s e)) (hP : ∀ s e, Inv s → P (step s e) → G s e) :
    ∀ {es : List ε} {s : σ}, Inv s → Throughout step P s es → Guarded step G s es := by
  intro es
  induction es with
  | nil =>
    intro s _ _
    trivial
  | cons e es ih =>
    intro s hs h
    exact ⟨hP s e hs h.2.first, ih (hstep s e hs) h.2⟩

/-! ## Unwinding: noninterference between owners -/

theorem view_run_eq_solo {κ ν : Type*} [DecidableEq κ] {owner : ε → κ}
    {view : σ → ν} {k : κ} {S : σ → Prop}
    (hother : ∀ s e, G s e → owner e ≠ k → view (step s e) = view s)
    (hown : ∀ s t e, G s e → S t → owner e = k → view s = view t →
      view (step s e) = view (step t e) ∧ S (step t e)) :
    ∀ {es : List ε} {s t : σ}, Guarded step G s es → S t → view s = view t →
      view (run step s es) = view (run step t (es.filter (fun e => owner e = k))) := by
  intro es
  induction es with
  | nil =>
    intro s t _ _ hview
    simpa using hview
  | cons e es ih =>
    intro s t hg hsolo hview
    by_cases he : owner e = k
    · rcases hown s t e hg.1 hsolo he hview with ⟨hview', hsolo'⟩
      simpa [he] using ih hg.2 hsolo' hview'
    · have hview' : view (step s e) = view t := (hother s e hg.1 he).trans hview
      simpa [he] using ih hg.2 hsolo hview'

/-! ## Lockstep: two runs of one strategy -/

/-- Run `n` steps in which the next event is a function of what has been observed so far. -/
def play {ω : Type*} (step : σ → ε → σ) (obs : σ → ω) (strategy : ω → ε) : Nat → σ → σ
  | 0, s => s
  | n + 1, s => play step obs strategy n (step s (strategy (obs s)))

/-- Every step of a played run meets the guard. -/
def PlayGuarded {ω : Type*} (step : σ → ε → σ) (obs : σ → ω) (strategy : ω → ε)
    (G : σ → ε → Prop) : Nat → σ → Prop
  | 0, _ => True
  | n + 1, s =>
    G s (strategy (obs s)) ∧ PlayGuarded step obs strategy G n (step s (strategy (obs s)))

theorem play_lockstep {ω : Type*} {obs : σ → ω}
    {R : σ → σ → Prop} (hobs : ∀ s t, R s t → obs s = obs t)
    (hstep : ∀ s t e, G s e → R s t → R (step s e) (step t e)) (strategy : ω → ε) :
    ∀ {n : Nat} {s t : σ}, PlayGuarded step obs strategy G n s → R s t →
      R (play step obs strategy n s) (play step obs strategy n t) := by
  intro n
  induction n with
  | zero =>
    intro s t _ hR
    exact hR
  | succ n ih =>
    intro s t hg hR
    have hev : strategy (obs s) = strategy (obs t) := by
      rw [hobs s t hR]
    have hR' : R (step s (strategy (obs s))) (step t (strategy (obs t))) := by
      rw [← hev]
      exact hstep s t _ hg.1 hR
    exact ih hg.2 hR'

/-! ## Stuttering: the second machine may sit out steps -/

theorem run_stutter {τ : Type*} {step' : τ → ε → τ} {R : σ → τ → Prop}
    (h : ∀ s s' e, G s e → R s s' → R (step s e) s' ∨ R (step s e) (step' s' e)) :
    ∀ {es : List ε} {s : σ} {s' : τ}, Guarded step G s es → R s s' →
      ∃ es', es'.Sublist es ∧ R (run step s es) (run step' s' es') := by
  intro es
  induction es with
  | nil =>
    intro s s' _ hR
    exact ⟨[], List.Sublist.refl _, hR⟩
  | cons e es ih =>
    intro s s' hg hR
    rcases h s s' e hg.1 hR with hR' | hR'
    · rcases ih hg.2 hR' with ⟨es', hsub, hrun⟩
      exact ⟨es', hsub.cons e, hrun⟩
    · rcases ih hg.2 hR' with ⟨es', hsub, hrun⟩
      exact ⟨e :: es', hsub.cons_cons e, hrun⟩

end TemporalSdk.Machine
