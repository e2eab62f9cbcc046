import TemporalSdk.Workflow.Timeouts

/-!
# Isolation — executions that share a context do not see each other's timers

The table of timeout scopes is shared by all executions of a context while its keys are sequence
numbers, which every execution allocates for itself.  As long as no execution sets, reads or deletes
an entry that another one made, each execution runs as it would alone (`view_run_eq_solo`).
-/

namespace TemporalSdk.Workflow

open Machine

namespace Context

variable {E : Type}

/-- The entry that the event sets, reads or deletes was made by the same execution, if there is
one. -/
def IsolationGuard (c : Context E) (p : E × Event) : Prop :=
  ∀ handle owner scope, c.touched p.1 p.2 = some handle →
    c.timeoutCancellationScopes handle = some (owner, scope) → owner = p.1

/-- The entries of the table that `e` made. -/
def ownEntries [DecidableEq E] (c : Context E) (e : E) : Seq → Option (E × ScopeId) :=
  fun handle => (c.timeoutCancellationScopes handle).filter fun entry => entry.1 = e

/-- What `e` has of the context. -/
def view [DecidableEq E] (e : E) (c : Context E) : Activator × (Seq → Option (E × ScopeId)) :=
  (c.execs e, c.ownEntries e)

/-- Only `e` has made entries. -/
def Solo (e : E) (c : Context E) : Prop :=
  ∀ handle owner scope, c.timeoutCancellationScopes handle = some (owner, scope) → owner = e

/-! ## The table under one step -/

variable {event : Event} {c : Context E}

theorem tableAfter_of_not_touched {e : E} {handle : Seq} (h : c.touched e event ≠ some handle) :
    c.tableAfter e event handle = c.timeoutCancellationScopes handle := by
  unfold tableAfter
  cases ht : c.touched e event with
  | none => rfl
  | some handle' =>
    have hne : handle ≠ handle' := by
      rintro rfl
      exact h ht
    simp [Function.update_of_ne hne]

theorem tableAfter_of_touched {e : E} {handle : Seq} (h : c.touched e event = some handle) :
    c.tableAfter e event handle = c.entryAfter e event := by
  simp [tableAfter, h]

theorem owner_of_entryAfter {e owner : E} {scope : ScopeId}
    (h : c.entryAfter e event = some (owner, scope)) : owner = e := by
  cases event with
  | setTimeout scope' ms =>
    have : (e, (c.execs e).scopes.length) = (owner, scope) := by simpa [entryAfter] using h
    injection this with ho _
    exact ho.symm
  | _ => simp [entryAfter] at h

variable [DecidableEq E]

theorem cancelForeign_of_guard {e : E} (hg : IsolationGuard c (e, event)) (execs : E → Activator) :
    c.cancelForeign e event execs = execs := by
  unfold cancelForeign
  cases event with
  | clearTimeout handle target =>
    cases hentry : c.timeoutCancellationScopes handle with
    | none => simp only [hentry]
    | some entry =>
      have howner := hg handle entry.1 entry.2 rfl hentry
      simp [hentry, howner]
  | _ => rfl

variable {k : E}

theorem step_execs_other {p : E × Event} (hg : IsolationGuard c p)
    (hk : p.1 ≠ k) : (c.step p).execs k = c.execs k := by
  simp [step, cancelForeign_of_guard hg, Function.update_of_ne (Ne.symm hk)]

/-! ## Unwinding -/

theorem view_step_other {p : E × Event} (hg : IsolationGuard c p)
    (hk : p.1 ≠ k) : view k (c.step p) = view k c := by
  have hentries : (c.step p).ownEntries k = c.ownEntries k := by
    funext handle
    by_cases ht : c.touched p.1 p.2 = some handle
    · -- Both the old and the new entry belong to the execution that steps.
      have hold : (c.timeoutCancellationScopes handle).filter (fun entry => entry.1 = k) = none := by
        cases hentry : c.timeoutCancellationScopes handle with
        | none => rfl
        | some entry =>
          have howner := hg handle entry.1 entry.2 ht hentry
          simp [howner, hk]
      have hnew : (c.entryAfter p.1 p.2).filter (fun entry => entry.1 = k) = none := by
        cases hentry : c.entryAfter p.1 p.2 with
        | none => rfl
        | some entry =>
          have howner := owner_of_entryAfter hentry
          simp [howner, hk]
      simp only [ownEntries, step, tableAfter_of_touched ht, hold, hnew]
    · simp only [ownEntries, step, tableAfter_of_not_touched ht]
  rw [view, view, step_execs_other hg hk, hentries]

/-- Where the table of a shared run may be looked up, it agrees with the table of the solo run. -/
theorem entry_eq_of_view_eq {c d : Context E} {handle : Seq}
    (hg : IsolationGuard c (k, event)) (hd : Solo k d) (hview : view k c = view k d)
    (ht : c.touched k event = some handle) :
    c.timeoutCancellationScopes handle = d.timeoutCancellationScopes handle := by
  have hown : c.ownEntries k handle = d.ownEntries k handle := by
    have h2 : c.ownEntries k = d.ownEntries k := congrArg Prod.snd hview
    rw [h2]
  have own_eq : ∀ {x : Context E}, (∀ owner scope,
      x.timeoutCancellationScopes handle = some (owner, scope) → owner = k) →
      x.ownEntries k handle = x.timeoutCancellationScopes handle := by
    intro x hx
    unfold ownEntries
    cases hentry : x.timeoutCancellationScopes handle with
    | none => rfl
    | some entry =>
      have howner := hx entry.1 entry.2 hentry
      simp [howner]
  calc
    c.timeoutCancellationScopes handle
        = c.ownEntries k handle := (own_eq fun owner scope => hg handle owner scope ht).symm
    _ = d.ownEntries k handle := hown
    _ = d.timeoutCancellationScopes handle := own_eq fun owner scope => hd handle owner scope

omit [DecidableEq E] in
theorem touched_congr {c d : Context E} (h : c.execs k = d.execs k) (event : Event) :
    c.touched k event = d.touched k event := by
  cases event <;> simp [touched, h]

omit [DecidableEq E] in
theorem entryAfter_congr {c d : Context E} (h : c.execs k = d.execs k) (event : Event) :
    c.entryAfter k event = d.entryAfter k event := by
  cases event <;> simp [entryAfter, h]

theorem resolve_congr {c d : Context E} (h : ∀ handle, c.touched k event = some handle →
      c.timeoutCancellationScopes handle = d.timeoutCancellationScopes handle) :
    c.resolve k event = d.resolve k event := by
  cases event with
  | clearTimeout handle target => simp [resolve, lookup, h handle rfl]
  | _ => rfl

theorem solo_step {d : Context E} (hd : Solo k d) (event : Event) :
    Solo k (d.step (k, event)) := by
  intro handle owner scope hentry
  by_cases ht : d.touched k event = some handle
  · have hnew : d.entryAfter k event = some (owner, scope) := by
      rw [← tableAfter_of_touched ht]
      exact hentry
    exact owner_of_entryAfter hnew
  · have hold : d.timeoutCancellationScopes handle = some (owner, scope) := by
      rw [← tableAfter_of_not_touched ht]
      exact hentry
    exact hd handle owner scope hold

theorem view_step_own {c d : Context E}
    (hg : IsolationGuard c (k, event)) (hd : Solo k d) (hview : view k c = view k d) :
    view k (c.step (k, event)) = view k (d.step (k, event)) := by
  have hexec : c.execs k = d.execs k := congrArg Prod.fst hview
  have hentries : c.ownEntries k = d.ownEntries k := congrArg Prod.snd hview
  have hres : c.resolve k event = d.resolve k event :=
    resolve_congr fun handle ht => entry_eq_of_view_eq hg hd hview ht
  have hstep : (c.step (k, event)).execs k = (d.step (k, event)).execs k := by
    rw [step_execs_self, step_execs_self, hexec, hres]
  have hafter : (c.step (k, event)).ownEntries k = (d.step (k, event)).ownEntries k := by
    funext handle
    by_cases ht : c.touched k event = some handle
    · have ht' : d.touched k event = some handle := by
        rw [← touched_congr hexec]
        exact ht
      simp only [ownEntries, step, tableAfter_of_touched ht, tableAfter_of_touched ht',
        entryAfter_congr hexec]
    · have ht' : d.touched k event ≠ some handle := by
        rw [← touched_congr hexec]
        exact ht
      have hold := congrFun hentries handle
      simpa only [ownEntries, step, tableAfter_of_not_touched ht,
        tableAfter_of_not_touched ht'] using hold
  rw [view, view, hstep, hafter]

end Context

/-! ## Isolation -/

/-- In every guarded run of a context, each execution ends as it does in the run of its own events,
no step of another execution changes it, and `clearTimeout` finds entries of its caller only. -/
theorem executions_isolated {E : Type} [DecidableEq E] (execs : E → Activator)
    (es : List (E × Event))
    (hg : Guarded Context.step Context.IsolationGuard (Context.init execs) es) (k : E) :
    (run Context.step (Context.init execs) es).execs k =
        (run Context.step (Context.init execs) (es.filter fun p => p.1 = k)).execs k ∧
      (∀ before p after, es = before ++ p :: after → p.1 ≠ k →
        (run Context.step (Context.init execs) (before ++ [p])).execs k =
          (run Context.step (Context.init execs) before).execs k) ∧
      (∀ before handle target after, es = before ++ (k, .clearTimeout handle target) :: after →
        (run Context.step (Context.init execs) before).lookup k handle ≠ .foreign) := by
  refine ⟨?_, ?_, ?_⟩
  · have hview : Context.view k (run Context.step (Context.init execs) es) =
        Context.view k
          (run Context.step (Context.init execs) (es.filter fun p => p.1 = k)) := by
      refine view_run_eq_solo (S := Context.Solo k) ?_ ?_ hg ?_ rfl
      · intro c p hc hp
        exact Context.view_step_other hc hp
      · rintro c d ⟨e, event⟩ hc hd rfl hv
        exact ⟨Context.view_step_own hc hd hv, Context.solo_step hd event⟩
      · intro handle owner scope hentry
        simp [Context.init] at hentry
    exact congrArg Prod.fst hview
  · intro before p after hsplit hp
    rw [hsplit, guarded_append, guarded_cons] at hg
    rw [run_append]
    exact Context.step_execs_other hg.2.1 hp
  · intro before handle target after hsplit hforeign
    rw [hsplit, guarded_append, guarded_cons] at hg
    have hguard := hg.2.1 handle
    unfold Context.lookup at hforeign
    cases hentry : (run Context.step (Context.init execs) before).timeoutCancellationScopes
        handle with
    | none => simp [hentry] at hforeign
    | some entry =>
      have howner := hguard entry.1 entry.2 rfl hentry
      simp [hentry, howner] at hforeign

/-- Two executions of one context; the second one starts its timer after the first one has cleared
its own. -/
def takingTurns : List (Bool × Event) :=
  [(true, .setTimeout 0 (some 1000)), (true, .clearTimeout 1 .missing), (true, .tick),
   (false, .setTimeout 0 (some 1000))]

theorem takingTurns_isolated :
    Guarded Context.step Context.IsolationGuard
        (Context.init fun _ : Bool => Activator.init false true true [] "default") takingTurns ∧
      (run Context.step (Context.init fun _ : Bool => Activator.init false true true [] "default")
          takingTurns).execs true =
        (run Context.step (Context.init fun _ : Bool => Activator.init false true true [] "default")
          (takingTurns.filter fun p => p.1 = true)).execs true := by
  have hg : Guarded Context.step Context.IsolationGuard
      (Context.init fun _ : Bool => Activator.init false true true [] "default") takingTurns := by
    refine ⟨?_, ?_, ?_, ?_, trivial⟩
    · intro handle owner scope _ hentry
      simp [Context.init] at hentry
    · intro handle owner scope htouched hentry
      have hhandle : 1 = handle := by simpa [Context.touched] using htouched
      subst hhandle
      have hown : some (true, 1) = some (owner, scope) := hentry
      have : (true, 1) = (owner, scope) := by simpa using hown
      injection this with ho _
      exact ho.symm
    · intro handle owner scope htouched _
      have hnone : (none : Option Seq) = some handle := htouched
      simp at hnone
    · intro handle owner scope htouched hentry
      have hhandle : some 1 = some handle := htouched
      have : 1 = handle := by simpa using hhandle
      subst this
      have hnone : none = some (owner, scope) := hentry
      simp at hnone
  exact ⟨hg, (executions_isolated _ takingTurns hg true).1⟩

/-- Both executions set a timer, which gets number 1 in both, and then the first one clears its
own. -/
def sameHandle : List (Bool × Event) :=
  [(true, .setTimeout 0 (some 1000)), (false, .setTimeout 0 (some 1000)),
   (true, .clearTimeout 1 .missing), (true, .tick), (false, .tick)]

/-- The clear reaches the timer of the other execution: that one gets the cancel command. -/
theorem sameHandle_not_isolated :
    let start : Context Bool :=
      Context.init fun _ => Activator.init false true true [] "default"
    let shared := run Context.step start sameHandle
    Entry.pushed (.cancelTimer 1) ∉ (shared.execs true).history ∧
      Entry.pushed (.cancelTimer 1) ∈ (shared.execs false).history ∧
      ¬ ∀ k, (shared.execs k).commands =
        ((run Context.step start (sameHandle.filter fun p => p.1 = k)).execs k).commands := by
  refine ⟨by decide, by decide, ?_⟩
  intro h
  exact absurd (h true) (by decide)

end TemporalSdk.Workflow
