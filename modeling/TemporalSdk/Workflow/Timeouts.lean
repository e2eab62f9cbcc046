import TemporalSdk.Workflow.Cancellations

/-!
# Timeouts — `setTimeout` and `clearTimeout` in a workflow context

`overrideGlobals` runs once per V8 context and closes over one table, `timeoutCancellationScopes`,
from timer handles to the scopes that `setTimeout` made for them.  `Context` is such a context: the
table, and the executions that share it.

The second half of the file is about a context with a single execution: which runs of `setTimeout`,
`clearTimeout`, scope cancellations and firings keep the timer protocol.
-/

namespace TemporalSdk.Workflow

open Machine

/-! ## Contexts -/

structure Context (E : Type) where
  execs : E → Activator
  timeoutCancellationScopes : Seq → Option (E × ScopeId)

namespace Context

variable {E : Type} [DecidableEq E]

def init (execs : E → Activator) : Context E :=
  { execs := execs, timeoutCancellationScopes := fun _ => none }

/-- `timeoutCancellationScopes.get(handle)` as `clearTimeout` called by `e` finds it. -/
def lookup (c : Context E) (e : E) (handle : Seq) : Activator.ClearTarget :=
  match c.timeoutCancellationScopes handle with
  | none => .missing
  | some (owner, scope) => if owner = e then .own scope else .foreign

/-- The event as the execution sees it: the target of `clearTimeout` is what the lookup finds. -/
def resolve (c : Context E) (e : E) : Event → Event
  | .clearTimeout handle _ => .clearTimeout handle (c.lookup e handle)
  | event => event

/-- The handle whose entry an event of `e` sets, reads or deletes. -/
def touched (c : Context E) (e : E) : Event → Option Seq
  | .setTimeout scope _ =>
    let a := c.execs e
    if scope < a.scopes.length ∧ a.shielded = true then some (a.nextSeqs .timer) else none
  | .clearTimeout handle _ => some handle
  | .tick =>
    match (c.execs e).microtasks with
    | .timeoutFired seq :: _ => some seq
    | .timeoutRejected seq :: _ => some seq
    | _ => none
  | _ => none

/-- The entry after the event: `setTimeout` registers its timer scope, the other two delete. -/
def entryAfter (c : Context E) (e : E) : Event → Option (E × ScopeId)
  | .setTimeout _ _ => some (e, (c.execs e).scopes.length)
  | _ => none

def tableAfter (c : Context E) (e : E) (event : Event) : Seq → Option (E × ScopeId) :=
  match c.touched e event with
  | some handle => Function.update c.timeoutCancellationScopes handle (c.entryAfter e event)
  | none => c.timeoutCancellationScopes

/-- `timerScope.cancel()` on a scope that belongs to another execution. -/
def cancelForeign (c : Context E) (e : E) (event : Event) (execs : E → Activator) : E → Activator :=
  match event with
  | .clearTimeout handle _ =>
    match c.timeoutCancellationScopes handle with
    | some (owner, scope) =>
      if owner = e then execs
      else Function.update execs owner ((execs owner).rejectScope scope)
    | none => execs
  | _ => execs

/-- An event of one execution, made while its activator is the current one. -/
def step (c : Context E) (p : E × Event) : Context E :=
  let execs := Function.update c.execs p.1 (Workflow.step (c.execs p.1) (c.resolve p.1 p.2))
  { execs := c.cancelForeign p.1 p.2 execs
    timeoutCancellationScopes := c.tableAfter p.1 p.2 }

theorem step_execs_self (c : Context E) (e : E) (event : Event) :
    (c.step (e, event)).execs e = Workflow.step (c.execs e) (c.resolve e event) := by
  simp only [step, cancelForeign]
  cases event with
  | clearTimeout handle target =>
    simp only
    cases c.timeoutCancellationScopes handle with
    | none => simp
    | some entry =>
      by_cases ho : entry.1 = e
      · simp [ho]
      · simp [ho, Function.update_of_ne (Ne.symm ho)]
  | _ => simp

end Context

/-! ## Timers that are about to call back -/

/-- The microtask leads to the callback of timer `handle`. -/
def Microtask.Fires (handle : Seq) : Microtask → Prop
  | .runInContextResumed seq resolved => resolved = true ∧ seq = handle
  | .timeoutFired seq => seq = handle
  | .legacyTimeoutFired seq => seq = handle
  | _ => False

theorem Microtask.not_fires_of_isPlain (m : Microtask) (h : m.isPlain = true) (handle : Seq) :
    ¬ m.Fires handle := by
  cases m with
  | runInContextResumed | timeoutFired | legacyTimeoutFired => simp [Microtask.isPlain] at h
  | _ => exact id

/-- Entries that only `clearTimeout` and the callback of a timer record. -/
def Entry.isTimeout : Entry → Bool
  | .callback _ => true
  | .clearCalled _ => true
  | .pushedByFallback _ => true
  | _ => false

namespace Activator

def Fires (a : Activator) (handle : Seq) : Prop :=
  ∃ m ∈ a.microtasks ++ a.reactions.map Prod.snd, m.Fires handle

/-- From `a` to `b` no timer fires, none calls back and none is cleared. -/
structure Calm (a b : Activator) : Prop where
  history : ∃ ext, b.history = a.history ++ ext ∧ ∀ e ∈ ext, e.isTimeout = false
  fires : ∀ h, b.Fires h → a.Fires h

theorem Calm.refl (a : Activator) : Calm a a := ⟨⟨[], by simp, by simp⟩, fun _ h => h⟩

theorem Calm.trans {a b c : Activator} (h₁ : Calm a b) (h₂ : Calm b c) : Calm a c := by
  rcases h₁.history with ⟨ext₁, hh₁, he₁⟩
  rcases h₂.history with ⟨ext₂, hh₂, he₂⟩
  refine ⟨⟨ext₁ ++ ext₂, ?_, ?_⟩, fun h hf => h₁.fires h (h₂.fires h hf)⟩
  · rw [hh₂, hh₁, List.append_assoc]
  · intro e he
    rcases List.mem_append.1 he with he | he
    · exact he₁ e he
    · exact he₂ e he

/-! ## The elementary updates are calm -/

section Elementary

variable {o a : Activator}

theorem Calm.same {b : Activator} (h : Calm o a) (hh : b.history = a.history)
    (hf : ∀ n, b.Fires n → a.Fires n) : Calm o b :=
  h.trans ⟨⟨[], by simp [hh], by simp⟩, hf⟩

theorem Calm.log (h : Calm o a) {e : Entry} (he : e.isTimeout = false) : Calm o (a.log e) :=
  h.trans ⟨⟨[e], rfl, by simpa using he⟩, fun _ hf => hf⟩

theorem Calm.setCompletion (h : Calm o a) (k : CompletionKind) (s : Seq) (w : Awaiter) :
    Calm o (a.setCompletion k s w) := h.same rfl fun _ hf => hf

theorem Calm.deleteCompletion (h : Calm o a) (k : CompletionKind) (s : Seq) :
    Calm o (a.deleteCompletion k s) := h.same rfl fun _ hf => hf

theorem Calm.bumpSeq (h : Calm o a) (n : SeqKind) : Calm o (a.bumpSeq n) :=
  h.same rfl fun _ hf => hf

theorem Calm.pushCommand (h : Calm o a) (c : Command) : Calm o (a.pushCommand c) :=
  h.trans ⟨⟨[.pushed c], rfl, by simp [Entry.isTimeout]⟩, fun _ hf => hf⟩

theorem fires_enqueue {m : Microtask} {n : Seq} (hf : (a.enqueue m).Fires n) :
    a.Fires n ∨ m.Fires n := by
  rcases hf with ⟨m', hm', hfires⟩
  simp only [enqueue, List.append_assoc, List.mem_append, List.mem_singleton] at hm'
  rcases hm' with hq | rfl | hr
  · exact Or.inl ⟨m', List.mem_append_left _ hq, hfires⟩
  · exact Or.inr hfires
  · exact Or.inl ⟨m', List.mem_append_right _ hr, hfires⟩

theorem Calm.enqueue (h : Calm o a) {m : Microtask} (hm : ∀ n, ¬ m.Fires n) :
    Calm o (a.enqueue m) := by
  refine h.same rfl ?_
  intro n hf
  rcases fires_enqueue hf with hf | hf
  · exact hf
  · exact absurd hf (hm n)

theorem fires_settle {k : CompletionKind} {s : Seq} {w : Awaiter} {st : Settlement} {n : Seq}
    (hf : (a.settle k s w st).Fires n) : a.Fires n ∨ s = n := by
  unfold Activator.settle at hf
  split at hf
  · exact (fires_enqueue hf).imp id fun h => h.2
  · exact (fires_enqueue hf).imp id fun h => h.2
  · exact (fires_enqueue hf).imp id fun h => h
  · exact Or.inl ((fires_enqueue hf).resolve_right id)
  · exact Or.inl ((fires_enqueue hf).resolve_right id)
  · exact Or.inl ((fires_enqueue hf).resolve_right id)
  · exact Or.inl hf

theorem Calm.settle (h : Calm o a) (k : CompletionKind) (s : Seq) (w : Awaiter) (st : Settlement)
    (hst : k ≠ .timer ∨ st ≠ .resolved) : Calm o (a.settle k s w st) := by
  have hlog : Calm o (a.log (.settled k s st)) := h.log rfl
  unfold Activator.settle
  split
  · exact absurd rfl (hst.resolve_left (by simp))
  · exact hlog.enqueue (by simp [Microtask.Fires])
  · exact absurd rfl (hst.resolve_left (by simp))
  · exact hlog.enqueue (by simp [Microtask.Fires])
  · exact hlog.enqueue (by simp [Microtask.Fires])
  · exact hlog.enqueue (by simp [Microtask.Fires])
  · exact hlog

theorem Calm.catchCancel (h : Calm o a) (s : ScopeId) {m : Microtask} (hm : ∀ n, ¬ m.Fires n) :
    Calm o (a.catchCancel s m) := by
  unfold Activator.catchCancel
  cases a.scopes[s]? with
  | none => exact h
  | some scope =>
    simp only
    split
    · exact h.enqueue hm
    · refine h.same rfl ?_
      rintro n ⟨m', hm', hfires⟩
      simp only [List.map_append, List.map_cons, List.map_nil, ← List.append_assoc,
        List.mem_append, List.mem_singleton] at hm'
      rcases hm' with hm' | rfl
      · exact ⟨m', List.mem_append.2 hm', hfires⟩
      · exact absurd hfires (hm n)

theorem Calm.rejectScope (h : Calm o a) (s : ScopeId) : Calm o (a.rejectScope s) := by
  unfold Activator.rejectScope
  cases a.scopes[s]? with
  | none => exact h
  | some scope =>
    simp only
    split
    · exact h.same rfl fun _ hf => hf
    · refine h.same rfl ?_
      rintro n ⟨m, hm, hfires⟩
      refine ⟨m, ?_, hfires⟩
      simp only [List.append_assoc, List.mem_append, List.mem_map, List.mem_filter] at hm ⊢
      rcases hm with hm | ⟨r, hr, rfl⟩ | ⟨r, hr, rfl⟩
      · exact Or.inl hm
      all_goals exact Or.inr ⟨r, hr.1, rfl⟩

theorem Calm.newScope (h : Calm o a) (p : ScopeId) (c : Bool) : Calm o (a.newScope p c) := by
  unfold Activator.newScope
  cases a.scopes[p]? with
  | none => exact h
  | some parent =>
    have grown : ∀ scopes, Calm o { a with scopes := scopes } := by
      intro scopes
      exact h.same rfl fun _ hf => hf
    simp only
    split <;> exact (grown _).catchCancel p (by simp [Microtask.Fires])

theorem Calm.scheduleIn (h : Calm o a) (scope : ScopeId) (listener : CancelKind)
    (kind : CompletionKind) (seq : Seq) (w : Awaiter) (command : Except JsError Command) :
    Calm o (a.scheduleIn scope listener kind seq w command) := by
  unfold Activator.scheduleIn
  cases a.scopes[scope]? with
  | none => exact h
  | some s =>
    simp only
    split
    · exact h.catchCancel scope (by simp [Microtask.Fires])
    · have hb : Calm o (if s.cancellable = true then
          a.catchCancel scope (.cancelListener listener seq) else a) := by
        split
        · exact h.catchCancel scope (by simp [Microtask.Fires])
        · exact h
      split
      · exact hb.settle _ _ _ _ (Or.inr (by simp))
      · exact (hb.pushCommand _).setCompletion _ _ _

end Elementary

theorem stepClosed_calm : StepClosed Calm where
  refl := Calm.refl
  trans := Calm.trans
  deleteCompletion a k s _ := (Calm.refl a).deleteCompletion k s
  setCompletion a k s w _ := (Calm.refl a).setCompletion k s w
  settle a k s w o ho := (Calm.refl a).settle k s w o ho
  cancelWorkflow a := by
    have h : Calm a { a with cancelled := true } := (Calm.refl a).same rfl fun _ hf => hf
    exact h.rejectScope 0
  note a e he := (Calm.refl a).log (by cases e <;> simp_all [Entry.isNote, Entry.isTimeout])
  bumpSeq a n := (Calm.refl a).bumpSeq n
  newScope a p c := (Calm.refl a).newScope p c
  rejectScope a s := (Calm.refl a).rejectScope s
  catchCancel a s m hm := (Calm.refl a).catchCancel s (m.not_fires_of_isPlain hm)
  setTimer a s w := (Calm.refl a).setCompletion .timer s w
  scheduleIn a scope listener kind w command _ :=
    ((Calm.refl a).bumpSeq _).scheduleIn scope listener kind _ w command
  pushFresh a n c k w _ _ := (((Calm.refl a).bumpSeq n).pushCommand c).setCompletion k _ w
  concludeActivation a := (Calm.refl a).same rfl fun _ hf => hf
  setShielded a value := (Calm.refl a).same rfl fun _ hf => hf
  setExternalCancelPatched a value := (Calm.refl a).same rfl fun _ hf => hf

theorem Calm.pop {a : Activator} {m : Microtask} {rest : List Microtask}
    (hm : a.microtasks = m :: rest) : Calm a { a with microtasks := rest } := by
  refine (Calm.refl a).same rfl ?_
  rintro n ⟨m', hm', hfires⟩
  refine ⟨m', ?_, hfires⟩
  rw [hm]
  exact List.mem_cons_of_mem _ hm'

theorem Calm.resume {a : Activator} {seq : Seq} {resolved : Bool} {rest : List Microtask}
    (hm : a.microtasks = .runInContextResumed seq resolved :: rest) :
    Calm a ({ a with microtasks := rest }.runMicrotask (.runInContextResumed seq resolved)) := by
  refine ⟨⟨[], by simp [runMicrotask, Activator.enqueue], by simp⟩, ?_⟩
  intro n hf
  rcases fires_enqueue hf with hf | hf
  · exact (Calm.pop hm).fires n hf
  · cases resolved with
    | false => exact absurd hf id
    | true => exact ⟨.runInContextResumed seq true, by simp [hm], rfl, hf⟩

theorem Calm.runCancelListener {o a : Activator} (h : Calm o a) (kind : CancelKind) (seq : Seq) :
    Calm o (a.runCancelListener kind seq) := by
  cases kind with
  | timer =>
    simp only [Activator.runCancelListener]
    split
    · exact h
    · exact ((h.deleteCompletion _ _).pushCommand _).settle _ _ _ _ (Or.inr (by simp))
  | _ =>
    simp only [Activator.runCancelListener]
    split
    · exact h.pushCommand _
    · exact h

/-! ## Callbacks come before clears -/

/-- A callback is recorded only while its timer has not been cleared. -/
def CallsBackUncleared (before : List Entry) (e : Entry) : Prop :=
  ∀ h, e = .callback h → Entry.clearCalled h ∉ before

/-- A timer about to call back has fired and has not been cleared. -/
structure CallbacksOrderly (a : Activator) : Prop where
  fired : ∀ h, a.Fires h → Entry.settled .timer h .resolved ∈ a.history ∧
    Entry.clearCalled h ∉ a.history
  past : Always CallsBackUncleared a.history
  noFallback : ∀ h, Entry.pushedByFallback h ∉ a.history

theorem CallbacksOrderly.of_calm {a b : Activator} (h : CallbacksOrderly a) (hc : Calm a b) :
    CallbacksOrderly b := by
  rcases hc.history with ⟨ext, hh, hext⟩
  have hno : ∀ {e : Entry}, e.isTimeout = true → e ∉ ext := by
    intro e he hin
    simp [hext e hin] at he
  refine ⟨?_, ?_, ?_⟩
  · intro n hf
    rcases h.fired n (hc.fires n hf) with ⟨hset, hclear⟩
    rw [hh]
    exact ⟨List.mem_append_left _ hset, by simp [hclear, hno (e := .clearCalled n) rfl]⟩
  · rw [hh]
    refine h.past.append ?_
    rintro e he l n rfl
    exact absurd he (hno rfl)
  · intro n
    rw [hh]
    simp [h.noFallback n, hno (e := .pushedByFallback n) rfl]

theorem CallbacksOrderly.callback {a : Activator} (h : CallbacksOrderly a) {handle : Seq}
    (hclear : Entry.clearCalled handle ∉ a.history) :
    CallbacksOrderly (a.log (.callback handle)) := by
  refine ⟨?_, ?_, by simp [log, h.noFallback]⟩
  · intro n hf
    rcases h.fired n hf with ⟨hset, hn⟩
    exact ⟨List.mem_append_left _ hset, by simp [log, hn]⟩
  · refine h.past.snoc ?_
    intro n hn
    have hnh : handle = n := by simpa using hn
    rw [← hnh]
    exact hclear

theorem CallbacksOrderly.clearTimeout {a : Activator} (h : CallbacksOrderly a) {handle : Seq}
    (hfired : Entry.settled .timer handle .resolved ∉ a.history) (scope : ScopeId) :
    CallbacksOrderly (a.clearTimeout handle (.own scope)) := by
  have hlog : CallbacksOrderly (a.log (.clearCalled handle)) := by
    refine ⟨?_, h.past.snoc (by simp [CallsBackUncleared]), by simp [log, h.noFallback]⟩
    intro n hf
    rcases h.fired n hf with ⟨hset, hn⟩
    have hne : n ≠ handle := by
      rintro rfl
      exact hfired hset
    exact ⟨List.mem_append_left _ hset, by simp [log, hn, hne]⟩
  exact hlog.of_calm ((Calm.refl _).rejectScope scope)

theorem CallbacksOrderly.fireTimer {a : Activator} (h : CallbacksOrderly a) {handle : Seq}
    (hclear : Entry.clearCalled handle ∈ a.history → a.completions .timer handle = none) :
    CallbacksOrderly (a.processJob (.fireTimer (some handle))) := by
  have hlog : CallbacksOrderly (a.log (.processed (.fireTimer (some handle)))) :=
    h.of_calm ((Calm.refl a).log rfl)
  rw [processFireTimer_eq]
  cases hc : a.completions .timer handle with
  | none => exact hlog
  | some w =>
    have huncleared : Entry.clearCalled handle ∉ a.history := by
      intro hin
      simp [hclear hin] at hc
    have hh := history_settle ((a.log (.processed (.fireTimer (some handle)))).deleteCompletion
      .timer handle) .timer handle w .resolved
    refine ⟨?_, ?_, ?_⟩
    · intro n hf
      rw [hh]
      rcases fires_settle hf with hf | rfl
      · rcases hlog.fired n hf with ⟨hset, hn⟩
        exact ⟨List.mem_append_left _ hset, by simpa [deleteCompletion] using hn⟩
      · exact ⟨by simp, by simpa [deleteCompletion, log] using huncleared⟩
    · rw [hh]
      exact hlog.past.snoc (by simp [CallsBackUncleared])
    · intro n
      rw [hh]
      simpa [deleteCompletion] using hlog.noFallback n

/-! ## The timer column of the tables -/

/-- The step leaves the timers alone. -/
def TimersSame (a b : Activator) : Prop :=
  b.keys .timer = a.keys .timer ∧ b.unresolved .timer = a.unresolved .timer

theorem jobClosed_timersSame : JobClosed TimersSame where
  refl _ := ⟨rfl, rfl⟩
  trans h₁ h₂ := ⟨h₂.1.trans h₁.1, h₂.2.trans h₁.2⟩
  deleteCompletion a k s hk := by
    refine ⟨?_, rfl⟩
    funext s'
    simp [Table.erase_apply, Ne.symm hk]
  setCompletion a k s w hk := by
    refine ⟨?_, rfl⟩
    funext s'
    simp [Table.put_apply, Ne.symm hk]
  settle a k s w o _ := ⟨by simp, by simp⟩
  cancelWorkflow a := by
    have hq := rejectScope_quiet { a with cancelled := true } 0
    refine ⟨?_, ?_⟩
    · funext s
      simp [Activator.keys, hq.completions]
    · simp [Activator.unresolved, hq.history]

theorem timersSame_processJob (a : Activator) {job : Job} (hj : ∀ seq, job ≠ .fireTimer seq) :
    TimersSame a (a.processJob job) := by
  have hlog : TimersSame a (a.log (.processed job)) := by
    refine ⟨rfl, ?_⟩
    funext s
    have hop : job.operation ≠ some (CompletionKind.timer.seqKind, s) := by
      cases job with
      | fireTimer seq => exact absurd rfl (hj seq)
      | _ => simp [Job.operation, CompletionKind.seqKind]
    simp [afterEntry, afterJob_other _ hop]
  have hjob := jobClosed_timersSame.trans hlog
    (jobClosed_timersSame.handleJob (a.log (.processed job)) job hj)
  simp only [Activator.processJob]
  split
  · exact hjob
  · exact ⟨hjob.1, by simpa [afterEntry] using hjob.2⟩

/-- The completion table of the timers mirrors the outstanding ones. -/
def TimersMirror (a : Activator) : Prop := ∀ s, a.keys .timer s = a.unresolved .timer s

theorem TimersMirror.of_same {a b : Activator} (h : TimersMirror a) (hs : TimersSame a b) :
    TimersMirror b := by
  intro s
  rw [hs.1, hs.2]
  exact h s

theorem TimersMirror.of_tracks {a b : Activator} (h : TimersMirror a) (ht : Tracks a b) :
    TimersMirror b := by
  intro s
  have hagree : a.keys.AgreeAt a.unresolved .timer s := by
    intro k hk
    cases k <;> simp_all [CompletionKind.seqKind, h s]
  exact ht.agreeAt hagree .timer rfl

theorem timersSame_startChild (a : Activator) {scope : ScopeId} {input : ChildWorkflowInput}
    {s : Scope} {e : JsError} (hs : a.scopes[scope]? = some s)
    (h : s.consideredCancelled = true ∨ input.arguments = .error e) :
    TimersSame a (a.startChild scope input) := by
  have hun := startChild_unscheduled hs h
  rw [TimersSame, hun.1, hun.2]
  refine ⟨?_, rfl⟩
  funext s'
  simp [Table.put_apply]

end Activator

open Activator in
/-- With the shielding flag on, no step sets the timers' table and their history apart. -/
theorem timersMirror_step (a : Activator) (e : Event)
    (hflag : ∀ scope ms, e = .setTimeout scope ms → a.shielded = true) (h : TimersMirror a) :
    TimersMirror (step a e) := by
  cases e with
  | setTimeout scope ms =>
    exact h.of_tracks (tracks_step a _ (Or.inl (hflag scope ms rfl)))
  | startChild scope input =>
    by_cases hg : CompletionsGuard a (.startChild scope input)
    · exact h.of_tracks (tracks_step a _ hg)
    · simp only [step, Activator.inScope]
      split
      · rename_i hlen
        refine h.of_same ?_
        have hs := List.getElem?_eq_getElem hlen
        cases hcc : a.scopes[scope].consideredCancelled with
        | true => exact timersSame_startChild (e := .cancelled) a hs (Or.inl hcc)
        | false =>
          cases harg : input.arguments with
          | error err => exact timersSame_startChild a hs (Or.inr harg)
          | ok p =>
            refine absurd ⟨?_, p, harg⟩ hg
            intro s hs'
            have : a.scopes[scope] = s := by simpa [hs] using hs'
            rw [← this]
            exact hcc
      · exact h
  | job job =>
    by_cases hj : ∃ seq, job = .fireTimer seq
    · rcases hj with ⟨seq, rfl⟩
      exact h.of_tracks (tracks_step a _ trivial)
    · exact h.of_same (timersSame_processJob a fun seq hseq => hj ⟨seq, hseq⟩)
  | _ => exact h.of_tracks (tracks_step a _ trivial)

/-! ## The guard -/

/-- What the protocol asks of a step: the flag is on, `clearTimeout` finds the scope of a timer that
has not fired, and no timer fires between its clear and the run of its cancel listener. -/
def TimeoutsGuard (c : Context Unit) : Unit × Event → Prop
  | (_, .setTimeout _ _) => (c.execs ()).shielded = true
  | (_, .clearTimeout handle _) =>
    (c.timeoutCancellationScopes handle).isSome = true ∧
      Entry.settled .timer handle .resolved ∉ (c.execs ()).history
  | (_, .job (.fireTimer (some handle))) =>
    Entry.clearCalled handle ∈ (c.execs ()).history →
      (c.execs ()).completions .timer handle = none
  | _ => True

theorem Context.step_clearTimeout {c : Context Unit} {handle : Seq}
    (target : Activator.ClearTarget) (h : (c.timeoutCancellationScopes handle).isSome = true) :
    ∃ scope, (c.step ((), .clearTimeout handle target)).execs () =
      (c.execs ()).clearTimeout handle (.own scope) := by
  rcases Option.isSome_iff_exists.1 h with ⟨⟨owner, scope⟩, hentry⟩
  refine ⟨scope, ?_⟩
  rw [Context.step_execs_self]
  simp [Context.resolve, Context.lookup, hentry, Workflow.step]

open Activator in
theorem callbacksOrderly_step (c : Context Unit) (p : Unit × Event) (hg : TimeoutsGuard c p)
    (h : CallbacksOrderly (c.execs ())) : CallbacksOrderly ((c.step p).execs ()) := by
  rcases p with ⟨⟨⟩, e⟩
  by_cases hclear : ∃ handle target, e = .clearTimeout handle target
  · rcases hclear with ⟨handle, target, rfl⟩
    rcases Context.step_clearTimeout target hg.1 with ⟨scope, hstep⟩
    rw [hstep]
    exact h.clearTimeout hg.2 scope
  · have hres : c.resolve () e = e := by
      cases e with
      | clearTimeout handle target => exact absurd ⟨handle, target, rfl⟩ hclear
      | _ => rfl
    rw [Context.step_execs_self, hres]
    by_cases hx : Exceptional (c.execs ()) e
    · cases e with
      | clearTimeout handle target => exact absurd ⟨handle, target, rfl⟩ hclear
      | job job =>
        rcases hx with ⟨seq, rfl⟩
        cases seq with
        | none => exact h.of_calm (((Calm.refl _).log rfl).log rfl)
        | some handle => exact h.fireTimer hg
      | tick =>
        rcases hx with ⟨m, rest, hm, hplain⟩
        have hpop := h.of_calm (Calm.pop hm)
        have hhead : ∀ n, m.Fires n → (c.execs ()).Fires n := by
          intro n hf
          exact ⟨m, by simp [hm], hf⟩
        simp only [step, Activator.tick, hm]
        cases m with
        | cancelListener kind seq => exact hpop.of_calm ((Calm.refl _).runCancelListener kind seq)
        | runInContextResumed seq resolved => exact h.of_calm (Calm.resume hm)
        | timeoutFired seq | legacyTimeoutFired seq =>
          exact hpop.callback (h.fired seq (hhead seq rfl)).2
        | _ => simp [Microtask.isPlain] at hplain
      | _ => exact absurd hx id
    · refine h.of_calm (stepClosed_calm.step ?_ _ e hx)
      intro b m rest hm _
      exact Calm.pop hm

/-! ## Cancel commands of timers -/

/-- Numbers of started and of cancelled timers are in use, and a cancelled timer stays resolved. -/
structure TimersOrderly (a : Activator) : Prop where
  mirror : a.TimersMirror
  started : ∀ s t, Entry.pushed (.startTimer s t) ∈ a.history → s < a.nextSeqs .timer
  spent : ∀ s, Entry.pushed (.cancelTimer s) ∈ a.history →
    a.unresolved .timer s = false ∧ s < a.nextSeqs .timer
  cancelsOutstanding : Always (CancelsOutstanding (· = .timer)) a.history

theorem Command.eq_startTimer_of_schedules {c : Command} {s : Seq}
    (h : c.schedules .timer s = true) : ∃ t, c = .startTimer s t := by
  cases c with
  | startTimer seq t =>
    have hseq : seq = s := by simpa [Command.schedules] using h
    exact ⟨t, by rw [hseq]⟩
  | _ => simp [Command.schedules] at h

theorem Command.eq_cancelTimer_of_cancels {c : Command} {s : Seq}
    (h : c.cancels = some (.timer, s)) : c = .cancelTimer s := by
  cases c <;> simp_all [Command.cancels]

/-- From `a` to `b` timers are started under fresh numbers only and none is cancelled. -/
structure TimersExtend (a b : Activator) (ext : List Entry) : Prop where
  seqs : a.nextSeqs .timer ≤ b.nextSeqs .timer
  history : b.history = a.history ++ ext
  starts : ∀ s t, Entry.pushed (.startTimer s t) ∈ ext →
    a.nextSeqs .timer ≤ s ∧ s < b.nextSeqs .timer
  cancels : ∀ s, Entry.pushed (.cancelTimer s) ∉ ext

open Activator in
theorem Activator.Extends.timersExtend {a b : Activator} (h : Extends a b) :
    ∃ ext, TimersExtend a b ext := by
  rcases h with ⟨new, ext, hx⟩
  refine ⟨ext, hx.seqs .timer, hx.history, ?_, ?_⟩
  · intro s t hs
    exact hx.opensFresh _ (.timer, s) hs rfl
  · intro s hs
    exact absurd (hx.cancelsNothing _ hs) (by simp [Command.cancels])

theorem TimersOrderly.extend {a b : Activator} (h : TimersOrderly a) (ext : List Entry)
    (hx : TimersExtend a b ext) (hm : b.TimersMirror) : TimersOrderly b := by
  have hentry : ∀ {e : Entry}, e ∈ b.history → e ∈ a.history ∨ e ∈ ext := by
    intro e he
    rw [hx.history] at he
    exact List.mem_append.1 he
  refine ⟨hm, ?_, ?_, ?_⟩
  · intro s t hs
    rcases hentry hs with hs | hs
    · exact Nat.lt_of_lt_of_le (h.started s t hs) hx.seqs
    · exact (hx.starts s t hs).2
  · intro s hs
    rcases hentry hs with hs | hs
    · rcases h.spent s hs with ⟨hres, hlt⟩
      refine ⟨?_, Nat.lt_of_lt_of_le hlt hx.seqs⟩
      by_contra hopen
      have hopen : outstanding (a.history ++ ext) .timer s = true := by
        simpa [Activator.unresolved, hx.history] using hopen
      rcases outstanding_append_cases a.history ext hopen with (hold | ⟨hk, _⟩) | ⟨c, hc, hsched⟩
      · have hres : outstanding a.history .timer s = false := hres
        simp [hres] at hold
      · simp at hk
      · rcases Command.eq_startTimer_of_schedules hsched with ⟨t, rfl⟩
        exact absurd (hx.starts s t hc).1 (Nat.not_le.2 hlt)
    · exact absurd hs (hx.cancels s)
  · rw [hx.history]
    refine h.cancelsOutstanding.append ?_
    rintro e he l c ⟨kind, s⟩ rfl hc hkind
    have hkind : kind = .timer := hkind
    rw [hkind] at hc
    rw [Command.eq_cancelTimer_of_cancels hc] at he
    exact absurd he (hx.cancels s)

theorem TimersOrderly.cancel_allowed {a : Activator} (h : TimersOrderly a) {s : Seq}
    (hopen : a.keys .timer s = true) :
    (∃ t, Entry.pushed (.startTimer s t) ∈ a.history) ∧ outstanding a.history .timer s = true ∧
      Entry.pushed (.cancelTimer s) ∉ a.history := by
  have hout : outstanding a.history .timer s = true := (h.mirror s).symm.trans hopen
  refine ⟨?_, hout, ?_⟩
  · rcases exists_schedules_of_outstanding a.history hout with ⟨d, hd, hsched⟩
    rcases Command.eq_startTimer_of_schedules hsched with ⟨t, rfl⟩
    exact ⟨t, hd⟩
  · intro hc
    have hres : outstanding a.history .timer s = false := (h.spent s hc).1
    simp [hres] at hout

open Activator in
/-- The listener of a timer deletes the completion and pushes the cancel command. -/
theorem TimersOrderly.cancelTimer {a : Activator} (h : TimersOrderly a) (seq : Seq)
    (hopen : a.keys .timer seq = true) :
    TimersOrderly ((a.deleteCompletion .timer seq).pushCommand (.cancelTimer seq)) := by
  rcases h.cancel_allowed hopen with ⟨⟨t, ht⟩, hout, hfirst⟩
  have hun : ((a.deleteCompletion .timer seq).pushCommand (.cancelTimer seq)).unresolved =
      a.unresolved.erase .timer seq := by
    simp [afterCommand]
  have htracks := (Tracks.refl a).change (b := (a.deleteCompletion .timer seq).pushCommand
    (.cancelTimer seq)) (Table.operationLocal_erase .timer seq) (by simp) hun
  refine ⟨h.mirror.of_tracks htracks, ?_, ?_, ?_⟩
  · intro s t' hs
    have hs : Entry.pushed (.startTimer s t') ∈ a.history := by
      simpa [pushCommand, deleteCompletion] using hs
    exact h.started s t' hs
  · intro s hs
    rw [hun, Table.erase_apply]
    by_cases hseq : s = seq
    · rw [hseq]
      exact ⟨by simp, h.started seq t ht⟩
    · have hs : Entry.pushed (.cancelTimer s) ∈ a.history := by
        simpa [pushCommand, deleteCompletion, hseq] using hs
      rcases h.spent s hs with ⟨hres, hlt⟩
      exact ⟨by simp [hres], hlt⟩
  · refine h.cancelsOutstanding.snoc ?_
    rintro c ⟨kind, s⟩ hc hcancels _
    have hc : Command.cancelTimer seq = c := by simpa using hc
    rw [← hc] at hcancels ⊢
    have hp : (CancelKind.timer, seq) = (kind, s) := by simpa [Command.cancels] using hcancels
    rw [← hp]
    exact ⟨⟨_, ht, rfl⟩, ⟨.timer, by simp [CancelKind.phases], hout⟩, hfirst⟩

open Activator in
theorem TimersOrderly.runCancelListener {a : Activator} (h : TimersOrderly a) (kind : CancelKind)
    (seq : Seq) : TimersOrderly (a.runCancelListener kind seq) := by
  have hm : (a.runCancelListener kind seq).TimersMirror :=
    h.mirror.of_tracks ((Tracks.refl a).runCancelListener kind seq)
  by_cases hkind : kind = .timer
  · subst hkind
    cases hc : a.completions .timer seq with
    | none => simpa [Activator.runCancelListener, hc] using h
    | some w =>
      simp only [Activator.runCancelListener, hc] at hm ⊢
      have hcancel := h.cancelTimer seq (by simp [keys, hc])
      refine hcancel.extend [.settled .timer seq (.rejected .cancelled)] ?_ hm
      exact ⟨Nat.le_of_eq (by rw [nextSeqs_settle]), history_settle _ _ _ _ _, by simp, by simp⟩
  · rcases runCancelListener_cases a kind seq with hsame | ⟨ext, _, _, hn, hh, hsettled⟩
    · rw [hsame]
      exact h
    · have hquiet : ∀ c, Entry.pushed c ∉ ext := by
        intro c hc
        rcases hsettled _ hc with ⟨k, s, o, he⟩
        simp at he
      refine h.extend (.pushed (kind.cancelCommand seq) :: ext) ?_ hm
      refine ⟨Nat.le_of_eq (by rw [hn]), by simpa using hh, ?_, ?_⟩
      · intro s t hs
        cases kind <;> simp_all [CancelKind.cancelCommand]
      · intro s hs
        cases kind <;> simp_all [CancelKind.cancelCommand]

open Activator in
theorem timersOrderly_step (a : Activator) (e : Event)
    (hflag : ∀ scope ms, e = .setTimeout scope ms → a.shielded = true) (h : TimersOrderly a) :
    TimersOrderly (step a e) := by
  by_cases hl : ∃ p, RunsListener a e p
  · rcases hl with ⟨p, rfl, rest, hm⟩
    have htick : step a .tick = { a with microtasks := rest }.runCancelListener p.1 p.2 := by
      simp [step, Activator.tick, hm, runMicrotask]
    rw [htick]
    have hpop : TimersOrderly { a with microtasks := rest } :=
      { h with }
    exact hpop.runCancelListener p.1 p.2
  · rcases (extends_step a e fun p hp => hl ⟨p, hp⟩).timersExtend with ⟨ext, hx⟩
    exact h.extend _ hx (timersMirror_step a e hflag h.mirror)

/-! ## The protocol -/

structure TimeoutsOrderly (c : Context Unit) : Prop where
  timers : TimersOrderly (c.execs ())
  callbacks : (c.execs ()).CallbacksOrderly

theorem timeoutsOrderly_init (isReplaying shielded patched : Bool) (names : List String)
    (ns : String) :
    TimeoutsOrderly
      (Context.init fun _ => Activator.init isReplaying shielded patched names ns) where
  timers := ⟨fun _ => rfl, by simp [Context.init, Activator.init],
    by simp [Context.init, Activator.init], always_nil⟩
  callbacks := ⟨by simp [Activator.Fires, Context.init, Activator.init], always_nil,
    by simp [Context.init, Activator.init]⟩

theorem timeoutsOrderly_step (c : Context Unit) (p : Unit × Event) (hg : TimeoutsGuard c p)
    (h : TimeoutsOrderly c) : TimeoutsOrderly (c.step p) := by
  refine ⟨?_, callbacksOrderly_step c p hg h.callbacks⟩
  rcases p with ⟨⟨⟩, e⟩
  rw [Context.step_execs_self]
  refine timersOrderly_step _ _ ?_ h.timers
  intro scope ms he
  cases e with
  | setTimeout scope' ms' => exact hg
  | _ => simp [Context.resolve] at he

/-- In every guarded run of one workflow, a timer is cancelled at most once and only while it is
outstanding, `clearTimeout` pushes no command and consumes no number, and no timer calls back after
it was cleared. -/
theorem timeouts_keep_protocol (isReplaying patched : Bool) (names : List String) (ns : String)
    (es : List (Unit × Event))
    (hg : Guarded Context.step TimeoutsGuard
      (Context.init fun _ => Activator.init isReplaying true patched names ns) es) :
    let start : Context Unit :=
      Context.init fun _ => Activator.init isReplaying true patched names ns
    let a := (run Context.step start es).execs ()
    (∀ h, a.history.count (.pushed (.cancelTimer h)) +
        a.history.count (.pushedByFallback h) ≤ 1) ∧
      (∀ before h after, a.history = before ++ .pushed (.cancelTimer h) :: after →
        (∃ t, Entry.pushed (.startTimer h t) ∈ before) ∧ outstanding before .timer h = true) ∧
      (∀ before h target after, es = before ++ ((), .clearTimeout h target) :: after →
        let b := (run Context.step start before).execs ()
        let b' := (run Context.step start (before ++ [((), .clearTimeout h target)])).execs ()
        b'.commands = b.commands ∧ b'.nextSeqs = b.nextSeqs ∧
          b'.history = b.history ++ [.clearCalled h]) ∧
      (∀ before h after, a.history = before ++ .callback h :: after →
        Entry.clearCalled h ∉ before) := by
  intro start a
  have h : TimeoutsOrderly (run Context.step start es) :=
    run_invariant timeoutsOrderly_step (timeoutsOrderly_init isReplaying true patched names ns) hg
  refine ⟨?_, ?_, ?_, ?_⟩
  · intro n
    have hcount : a.history.count (.pushed (.cancelTimer n)) ≤ 1 :=
      h.timers.cancelsOutstanding.count_le_one fun l hl => (hl _ (.timer, n) rfl rfl rfl).2.2
    have hnone : a.history.count (.pushedByFallback n) = 0 :=
      List.count_eq_zero.2 (h.callbacks.noFallback n)
    rw [hnone]
    exact hcount
  · intro before n after hsplit
    rcases h.timers.cancelsOutstanding before _ after hsplit _ (.timer, n) rfl rfl rfl with
      ⟨⟨d, hd, hopens⟩, ⟨k, hk, hout⟩, _⟩
    have hk : k = .timer := by simpa [CancelKind.phases] using hk
    refine ⟨?_, hk ▸ hout⟩
    cases d with
    | startTimer s t =>
      have hs : s = n := by simpa [Command.opens] using hopens
      exact ⟨t, hs ▸ hd⟩
    | _ => simp [Command.opens] at hopens
  · intro before n target after hsplit
    rw [hsplit, guarded_append, guarded_cons] at hg
    have hclear : TimeoutsGuard (run Context.step start before) ((), .clearTimeout n target) :=
      hg.2.1
    rcases Context.step_clearTimeout target hclear.1 with ⟨scope, hstep⟩
    have hq := Activator.rejectScope_quiet
      (((run Context.step start before).execs ()).log (.clearCalled n)) scope
    simp only [run_append, run_cons, run_nil, hstep]
    exact ⟨hq.commands, hq.nextSeqs, hq.history⟩
  · intro before n after hsplit
    exact h.callbacks.past before _ after hsplit n rfl

/-- A timer that is set, cleared in time and cancelled, and one that fires. -/
def clearedAndFired : List (Unit × Event) :=
  [((), .setTimeout 0 (some 1000)), ((), .setTimeout 0 (some 10)),
   ((), .clearTimeout 1 .missing), ((), .tick),
   ((), .job (.fireTimer (some 2))), ((), .tick), ((), .tick), ((), .tick), ((), .tick)]

theorem clearedAndFired_protocol :
    Guarded Context.step TimeoutsGuard
        (Context.init fun _ => Activator.init false true true [] "default") clearedAndFired ∧
      let a := (run Context.step (Context.init fun _ => Activator.init false true true [] "default")
        clearedAndFired).execs ()
      Entry.pushed (.cancelTimer 1) ∈ a.history ∧ Entry.callback 2 ∈ a.history ∧
        a.history.count (.pushed (.cancelTimer 1)) + a.history.count (.pushedByFallback 1) ≤ 1 := by
  have hg : Guarded Context.step TimeoutsGuard
      (Context.init fun _ => Activator.init false true true [] "default") clearedAndFired := by
    refine ⟨rfl, rfl, ⟨by decide, by decide⟩, trivial, ?_, trivial, trivial, trivial, trivial,
      trivial⟩
    intro hin
    exact absurd hin (by decide)
  have h := timeouts_keep_protocol false true [] "default" clearedAndFired hg
  exact ⟨hg, by decide, by decide, h.1 1⟩

/-- `clearTimeout` on a timer that has fired and called back. -/
def clearAfterFired : List (Unit × Event) :=
  [((), .setTimeout 0 (some 1000)), ((), .job (.fireTimer (some 1))), ((), .tick), ((), .tick)]

theorem clearAfterFired_pushes :
    let c := run Context.step (Context.init fun _ => Activator.init false true true [] "default")
      clearAfterFired
    let c' := c.step ((), .clearTimeout 1 .missing)
    Entry.callback 1 ∈ (c.execs ()).history ∧
      ¬ ((c'.execs ()).commands = (c.execs ()).commands ∧
        (c'.execs ()).nextSeqs = (c.execs ()).nextSeqs) := by
  refine ⟨by decide, ?_⟩
  rintro ⟨hcommands, _⟩
  exact absurd hcommands (by decide)

end TemporalSdk.Workflow
