import Mathlib.Data.List.Perm.Basic
import TemporalSdk.Machine.History
import TemporalSdk.Workflow.Completions

/-!
# Cancellations — cancel commands target outstanding operations

Each next handler chains its cancel listener on the scope before it pushes its command and before it
registers its completion.  The listener decides, when it runs, by a lookup in the completion tables.
This file shows over whole runs that the lookup is right: a cancel command is pushed at most once,
after the command that schedules the operation and while the operation is outstanding.

`Extends a b` says what a step other than the run of a cancel listener can do: allocate sequence
numbers, push commands for and chain listeners on fresh numbers only, and reorder what is pending.
-/

namespace TemporalSdk.Workflow

open Machine

/-! ## Operations, their commands and their listeners -/

namespace CancelKind

/-- The phases of which one is outstanding until the operation is terminally resolved. -/
def phases : CancelKind → List CompletionKind
  | .timer => [.timer]
  | .activity => [.activity]
  | .localActivity => [.activity]
  | .childWorkflow => [.childWorkflowComplete]
  | .signalWorkflow => [.signalWorkflow]
  | .nexusOperation => [.nexusOperationStart, .nexusOperationComplete]

/-- The command that asks to cancel an operation. -/
def cancelCommand : CancelKind → Seq → Command
  | .timer, s => .cancelTimer s
  | .activity, s => .requestCancelActivity s
  | .localActivity, s => .requestCancelLocalActivity s
  | .childWorkflow, s => .cancelChildWorkflowExecution s
  | .signalWorkflow, s => .cancelSignalWorkflow s
  | .nexusOperation, s => .requestCancelNexusOperation s

end CancelKind

theorem CancelKind.cancels_cancelCommand (kind : CancelKind) (s : Seq) :
    (kind.cancelCommand s).cancels = some (kind, s) := by
  cases kind <;> rfl

theorem CancelKind.opens_cancelCommand (kind : CancelKind) (s : Seq) :
    (kind.cancelCommand s).opens = none := by
  cases kind <;> rfl

/-- The operation whose cancel listener a microtask is. -/
def Microtask.listener : Microtask → Option (CancelKind × Seq)
  | .cancelListener kind seq => some (kind, seq)
  | _ => none

theorem Microtask.listener_of_isPlain (m : Microtask) (h : m.isPlain = true) :
    m.listener = none := by
  cases m with
  | cancelListener kind seq => simp [Microtask.isPlain] at h
  | _ => rfl

variable {p : CancelKind × Seq}

theorem Command.cancels_of_opens (c : Command) (h : c.opens = some p) :
    c.cancels = none := by
  cases c <;> simp_all [Command.opens, Command.cancels]

namespace Activator

/-- The cancel listeners that are queued or chained on a scope. -/
def listeners (a : Activator) : List (CancelKind × Seq) :=
  (a.microtasks ++ a.reactions.map Prod.snd).filterMap Microtask.listener

/-- The command is pushed while one of the phases of the operation is outstanding. -/
def OutstandingIn (history : List Entry) (p : CancelKind × Seq) : Prop :=
  ∃ k ∈ p.1.phases, outstanding history k p.2 = true

/-! ## Listeners under the elementary updates -/

section Listeners

variable (a : Activator)

theorem listeners_enqueue {m : Microtask} (hm : m.listener = none) :
    (a.enqueue m).listeners = a.listeners := by
  simp [listeners, enqueue, List.filterMap_append, hm]

theorem listeners_settle (k : CompletionKind) (s : Seq) (w : Awaiter) (o : Settlement) :
    (a.settle k s w o).listeners = a.listeners := by
  have hlog : (a.log (.settled k s o)).listeners = a.listeners := rfl
  unfold settle
  split
  · exact (listeners_enqueue _ rfl).trans hlog
  · exact (listeners_enqueue _ rfl).trans hlog
  · exact (listeners_enqueue _ rfl).trans hlog
  · exact (listeners_enqueue _ rfl).trans hlog
  · exact (listeners_enqueue _ rfl).trans hlog
  · exact (listeners_enqueue _ rfl).trans hlog
  · exact hlog

theorem nextSeqs_settle (k : CompletionKind) (s : Seq) (w : Awaiter) (o : Settlement) :
    (a.settle k s w o).nextSeqs = a.nextSeqs := by
  unfold settle
  split <;> rfl

theorem history_settle (k : CompletionKind) (s : Seq) (w : Awaiter) (o : Settlement) :
    (a.settle k s w o).history = a.history ++ [.settled k s o] := by
  unfold settle
  split <;> rfl

theorem listeners_catchCancel {s : ScopeId} {scope : Scope} (hs : a.scopes[s]? = some scope)
    (m : Microtask) :
    (a.catchCancel s m).listeners.Perm (a.listeners ++ m.listener.toList) := by
  have hone : [m].filterMap Microtask.listener = m.listener.toList := by
    cases h : m.listener with
    | none | some => simp [h]
  unfold catchCancel
  simp only [hs]
  split
  · have happ : (a.enqueue m).listeners = a.microtasks.filterMap Microtask.listener ++
        (m.listener.toList ++ (a.reactions.map Prod.snd).filterMap Microtask.listener) := by
      simp only [listeners, enqueue, List.filterMap_append, hone, List.append_assoc]
    rw [happ]
    simp only [listeners, List.filterMap_append, List.append_assoc]
    exact List.Perm.append_left _ List.perm_append_comm
  · simp only [listeners, List.map_append, List.map_cons, List.map_nil, ← List.append_assoc]
    rw [List.filterMap_append, hone]

theorem listeners_catchCancel_quiet (s : ScopeId) {m : Microtask} (hm : m.listener = none) :
    (a.catchCancel s m).listeners.Perm a.listeners := by
  cases hs : a.scopes[s]? with
  | none => simp [catchCancel, hs]
  | some scope => simpa [hm] using listeners_catchCancel a hs m

theorem listeners_rejectScope (s : ScopeId) : (a.rejectScope s).listeners.Perm a.listeners := by
  unfold rejectScope
  cases a.scopes[s]? with
  | none => exact List.Perm.refl _
  | some scope =>
    cases hr : scope.rejected with
    | true =>
      simp only [hr, if_true]
      exact List.Perm.refl _
    | false =>
      have hsplit : ((a.reactions.filter fun r => r.1 == s) ++
          (a.reactions.filter fun r => r.1 != s)).Perm a.reactions :=
        List.filter_append_perm (fun r => r.1 == s) a.reactions
      have hmap := (hsplit.map Prod.snd).filterMap Microtask.listener
      simp only [hr, listeners, Bool.false_eq_true, if_false, List.append_assoc,
        List.filterMap_append]
      refine List.Perm.append_left _ ?_
      simpa [List.filterMap_append] using hmap

theorem listeners_newScope (p : ScopeId) (c : Bool) :
    (a.newScope p c).listeners.Perm a.listeners := by
  unfold newScope
  cases a.scopes[p]? with
  | none => exact List.Perm.refl _
  | some parent =>
    simp only
    split <;> exact listeners_catchCancel_quiet _ _ rfl

end Listeners

/-! ## What a step other than a cancel listener can do -/

/-- The number was allocated between the two states. -/
def Fresh (a b : Activator) (p : CancelKind × Seq) : Prop :=
  a.nextSeqs p.1.seqKind ≤ p.2 ∧ p.2 < b.nextSeqs p.1.seqKind

/-- From `a` to `b` the listeners `new` were chained and the entries `ext` were recorded. -/
structure ExtendsBy (a b : Activator) (new : List (CancelKind × Seq)) (ext : List Entry) :
    Prop where
  seqs : ∀ n, a.nextSeqs n ≤ b.nextSeqs n
  history : b.history = a.history ++ ext
  listeners : b.listeners.Perm (a.listeners ++ new)
  nodup : new.Nodup
  fresh : ∀ p ∈ new, Fresh a b p
  cancelsNothing : ∀ c, Entry.pushed c ∈ ext → c.cancels = none
  opensFresh : ∀ c p, Entry.pushed c ∈ ext → c.opens = some p → Fresh a b p
  -- One number is not used for a listener of one kind and a command of another.
  opensMatch : ∀ c p q, Entry.pushed c ∈ ext → c.opens = some p → q ∈ new →
    q.1.seqKind = p.1.seqKind → q.2 = p.2 → q = p

def Extends (a b : Activator) : Prop := ∃ new ext, ExtendsBy a b new ext

theorem Extends.of_quiet {a b : Activator} (ext : List Entry) (hn : b.nextSeqs = a.nextSeqs)
    (hl : b.listeners.Perm a.listeners) (hh : b.history = a.history ++ ext)
    (hext : ∀ c, Entry.pushed c ∉ ext) : Extends a b := by
  refine ⟨[], ext, ?_⟩
  exact
    { seqs := fun n => Nat.le_of_eq (by rw [hn])
      history := hh
      listeners := by simpa using hl
      nodup := List.nodup_nil
      fresh := fun p hp => absurd hp List.not_mem_nil
      cancelsNothing := fun c hc => absurd hc (hext c)
      opensFresh := fun c p hc => absurd hc (hext c)
      opensMatch := fun c p q hc => absurd hc (hext c) }

theorem Extends.refl (a : Activator) : Extends a a :=
  Extends.of_quiet [] rfl (List.Perm.refl _) (by simp) (by simp)

theorem ExtendsBy.trans {a b c : Activator} {new₁ new₂ : List (CancelKind × Seq)}
    {ext₁ ext₂ : List Entry} (h₁ : ExtendsBy a b new₁ ext₁) (h₂ : ExtendsBy b c new₂ ext₂) :
    ExtendsBy a c (new₁ ++ new₂) (ext₁ ++ ext₂) := by
  have early : ∀ p, Fresh a b p → Fresh a c p := by
    intro p hp
    exact ⟨hp.1, Nat.lt_of_lt_of_le hp.2 (h₂.seqs _)⟩
  have late : ∀ p, Fresh b c p → Fresh a c p := by
    intro p hp
    exact ⟨Nat.le_trans (h₁.seqs _) hp.1, hp.2⟩
  -- A number allocated before `b` is none that is allocated after it.
  have apart : ∀ p q : CancelKind × Seq, Fresh a b p → Fresh b c q →
      q.1.seqKind = p.1.seqKind → q.2 ≠ p.2 := by
    intro p q hp hq hkind heq
    have hlt := hp.2
    rw [← hkind, ← heq] at hlt
    exact absurd hq.1 (Nat.not_le.2 hlt)
  refine
    { seqs := fun n => Nat.le_trans (h₁.seqs n) (h₂.seqs n)
      history := by rw [h₂.history, h₁.history, List.append_assoc]
      listeners := ?_
      nodup := ?_
      fresh := ?_
      cancelsNothing := ?_
      opensFresh := ?_
      opensMatch := ?_ }
  · have h := h₂.listeners.trans (h₁.listeners.append_right new₂)
    simpa [List.append_assoc] using h
  · refine List.nodup_append.2 ⟨h₁.nodup, h₂.nodup, ?_⟩
    rintro p hp q hq rfl
    exact apart p p (h₁.fresh p hp) (h₂.fresh p hq) rfl rfl
  · intro p hp
    rcases List.mem_append.1 hp with hp | hp
    · exact early p (h₁.fresh p hp)
    · exact late p (h₂.fresh p hp)
  · intro cmd hc
    rcases List.mem_append.1 hc with hc | hc
    · exact h₁.cancelsNothing cmd hc
    · exact h₂.cancelsNothing cmd hc
  · intro cmd p hc ho
    rcases List.mem_append.1 hc with hc | hc
    · exact early p (h₁.opensFresh cmd p hc ho)
    · exact late p (h₂.opensFresh cmd p hc ho)
  · intro cmd p q hc ho hq hkind hseq
    rcases List.mem_append.1 hc with hc | hc
    · have hp := h₁.opensFresh cmd p hc ho
      rcases List.mem_append.1 hq with hq | hq
      · exact h₁.opensMatch cmd p q hc ho hq hkind hseq
      · exact absurd hseq (apart p q hp (h₂.fresh q hq) hkind)
    · have hp := h₂.opensFresh cmd p hc ho
      rcases List.mem_append.1 hq with hq | hq
      · exact absurd hseq.symm (apart q p (h₁.fresh q hq) hp hkind.symm)
      · exact h₂.opensMatch cmd p q hc ho hq hkind hseq

theorem Extends.trans {a b c : Activator} (h₁ : Extends a b) (h₂ : Extends b c) : Extends a c := by
  rcases h₁ with ⟨_, _, h₁⟩
  rcases h₂ with ⟨_, _, h₂⟩
  exact ⟨_, _, h₁.trans h₂⟩

/-! ## The elementary updates extend -/

section Elementary

variable {o a : Activator}

theorem Extends.log (h : Extends o a) {e : Entry} (he : ∀ c, Entry.pushed c ≠ e) :
    Extends o (a.log e) :=
  h.trans (Extends.of_quiet [e] rfl (List.Perm.refl _) rfl (by simpa using he))

theorem Extends.settle (h : Extends o a) (k : CompletionKind) (s : Seq) (w : Awaiter)
    (st : Settlement) : Extends o (a.settle k s w st) := by
  refine h.trans (Extends.of_quiet [.settled k s st] (nextSeqs_settle a k s w st) ?_
    (history_settle a k s w st) (by simp))
  rw [listeners_settle]

theorem Extends.setCompletion (h : Extends o a) (k : CompletionKind) (s : Seq) (w : Awaiter) :
    Extends o (a.setCompletion k s w) :=
  h.trans (Extends.of_quiet [] rfl (List.Perm.refl _) (by simp [Activator.setCompletion])
    (by simp))

theorem Extends.deleteCompletion (h : Extends o a) (k : CompletionKind) (s : Seq) :
    Extends o (a.deleteCompletion k s) :=
  h.trans (Extends.of_quiet [] rfl (List.Perm.refl _)
    (by simp [Activator.deleteCompletion]) (by simp))

theorem Extends.of_scopesOnly {b : Activator} (h : Extends o a) (hq : ScopesOnly a b)
    (hl : b.listeners.Perm a.listeners) : Extends o b :=
  h.trans (Extends.of_quiet [] hq.nextSeqs hl (by simp [hq.history]) (by simp))

theorem Extends.rejectScope (h : Extends o a) (s : ScopeId) : Extends o (a.rejectScope s) :=
  h.of_scopesOnly (rejectScope_quiet a s) (listeners_rejectScope a s)

theorem Extends.newScope (h : Extends o a) (p : ScopeId) (c : Bool) : Extends o (a.newScope p c) :=
  h.of_scopesOnly (newScope_quiet a p c) (listeners_newScope a p c)

theorem Extends.catchCancel (h : Extends o a) (s : ScopeId) {m : Microtask}
    (hm : m.listener = none) : Extends o (a.catchCancel s m) :=
  h.of_scopesOnly (catchCancel_quiet a s m) (listeners_catchCancel_quiet a s hm)

theorem nextSeqs_le_bumpSeq (a : Activator) (n m : SeqKind) :
    a.nextSeqs m ≤ (a.bumpSeq n).nextSeqs m := by
  by_cases hm : m = n
  · subst hm
    simp [Activator.bumpSeq]
  · simp [Activator.bumpSeq, hm]

theorem Extends.bumpSeq (h : Extends o a) (n : SeqKind) : Extends o (a.bumpSeq n) := by
  refine h.trans ⟨[], [], ?_⟩
  exact
    { seqs := nextSeqs_le_bumpSeq a n
      history := by simp [Activator.bumpSeq]
      listeners := by
        simp only [List.append_nil]
        exact List.Perm.refl _
      nodup := List.nodup_nil
      fresh := by simp
      cancelsNothing := by simp
      opensFresh := by simp
      opensMatch := by simp }

/-- A command for a number that was just allocated, with at most its own listener chained. -/
theorem Extends.pushFresh (h : Extends o a) {b : Activator} {n : SeqKind} {c : Command}
    {new : List (CancelKind × Seq)} (hb : ScopesOnly (a.bumpSeq n) b)
    (hl : b.listeners.Perm (a.listeners ++ new)) (hnew : new.length ≤ 1)
    (hmine : ∀ p ∈ new, p.1.seqKind = n ∧ p.2 = a.nextSeqs n ∧ c.opens = some p)
    (hopens : ∀ p, c.opens = some p → p.1.seqKind = n ∧ p.2 = a.nextSeqs n)
    (hc : c.cancels = none) : Extends o (b.pushCommand c) := by
  have hseqs : ∀ m, a.nextSeqs m ≤ (b.pushCommand c).nextSeqs m := by
    intro m
    have hm : (b.pushCommand c).nextSeqs = (a.bumpSeq n).nextSeqs := hb.nextSeqs
    rw [hm]
    exact nextSeqs_le_bumpSeq a n m
  have hfresh : ∀ p : CancelKind × Seq, p.1.seqKind = n → p.2 = a.nextSeqs n →
      Fresh a (b.pushCommand c) p := by
    intro p hk hs
    have hm : (b.pushCommand c).nextSeqs = (a.bumpSeq n).nextSeqs := hb.nextSeqs
    refine ⟨?_, ?_⟩
    · exact Nat.le_of_eq (by rw [hk, hs])
    · rw [hm, hk, hs]
      simp [Activator.bumpSeq]
  refine h.trans ⟨new, [.pushed c], ?_⟩
  exact
    { seqs := hseqs
      history := by
        have hh : b.history = a.history := hb.history
        simp [Activator.pushCommand, hh]
      listeners := hl
      nodup := by
        cases new with
        | nil => exact List.nodup_nil
        | cons p rest =>
          have hrest : rest = [] := by simpa using hnew
          rw [hrest]
          exact List.pairwise_singleton _ p
      fresh := fun p hp => hfresh p (hmine p hp).1 (hmine p hp).2.1
      cancelsNothing := by
        intro cmd hcmd
        have : cmd = c := by simpa using hcmd
        rw [this]
        exact hc
      opensFresh := by
        intro cmd p hcmd hp
        have : cmd = c := by simpa using hcmd
        rw [this] at hp
        exact hfresh p (hopens p hp).1 (hopens p hp).2
      opensMatch := by
        intro cmd p q hcmd hp hq _ _
        have : cmd = c := by simpa using hcmd
        rw [this, (hmine q hq).2.2] at hp
        exact Option.some.inj hp }

/-- A listener chained for a number that was just allocated, and no command. -/
theorem Extends.listenFresh (h : Extends o a) {b : Activator} {n : SeqKind}
    (hb : ScopesOnly (a.bumpSeq n) b)
    (hl : b.listeners.Perm (a.listeners ++ [p])) (hp : p.1.seqKind = n ∧ p.2 = a.nextSeqs n) :
    Extends o b := by
  refine h.trans ⟨[p], [], ?_⟩
  exact
    { seqs := fun m => by
        rw [hb.nextSeqs]
        exact nextSeqs_le_bumpSeq a n m
      history := by
        have hh : b.history = a.history := hb.history
        simp [hh]
      listeners := hl
      nodup := by simp
      fresh := by
        intro q hq
        have hqp : q = p := by simpa using hq
        rw [hqp]
        refine ⟨?_, ?_⟩
        · exact Nat.le_of_eq (by rw [hp.1, hp.2])
        · rw [hb.nextSeqs, hp.1, hp.2]
          simp [Activator.bumpSeq]
      cancelsNothing := by simp
      opensFresh := by simp
      opensMatch := by simp }

end Elementary

/-! ## The next handlers extend -/

section Scheduling

variable {o a : Activator}

theorem Extends.scheduleIn (h : Extends o a) (n : SeqKind) (scope : ScopeId)
    (listener : CancelKind) (kind : CompletionKind) (w : Awaiter)
    (command : Except JsError Command) (hn : listener.seqKind = n)
    (hcmd : ∀ c, command = .ok c → c.opens = some (listener, a.nextSeqs n) ∧ c.cancels = none) :
    Extends o ((a.bumpSeq n).scheduleIn scope listener kind (a.nextSeqs n) w command) := by
  unfold Activator.scheduleIn
  cases hs : (a.bumpSeq n).scopes[scope]? with
  | none => exact h.bumpSeq n
  | some s =>
    cases hcc : s.consideredCancelled with
    | true =>
      simp only [hcc, if_true]
      exact (h.bumpSeq n).catchCancel scope rfl
    | false =>
      simp only [hcc, Bool.false_eq_true, if_false]
      have hmine : ∀ {c : Command}, command = .ok c →
          ∀ p, c.opens = some p → p.1.seqKind = n ∧ p.2 = a.nextSeqs n := by
        intro c hc p hp
        rw [(hcmd c hc).1] at hp
        have : p = (listener, a.nextSeqs n) := (Option.some.inj hp).symm
        rw [this]
        exact ⟨hn, rfl⟩
      cases hcan : s.cancellable with
      | true =>
        simp only [if_true]
        have hq := catchCancel_quiet (a.bumpSeq n) scope
          (.cancelListener listener (a.nextSeqs n))
        have hl : ((a.bumpSeq n).catchCancel scope
            (.cancelListener listener (a.nextSeqs n))).listeners.Perm
              (a.listeners ++ [(listener, a.nextSeqs n)]) :=
          listeners_catchCancel (a.bumpSeq n) hs (.cancelListener listener (a.nextSeqs n))
        cases command with
        | error e => exact (h.listenFresh hq hl ⟨hn, rfl⟩).settle _ _ _ _
        | ok c =>
          refine (h.pushFresh hq hl (by simp) ?_ (hmine rfl) (hcmd c rfl).2).setCompletion
            _ _ _
          intro p hp
          have : p = (listener, a.nextSeqs n) := by simpa using hp
          rw [this]
          exact ⟨hn, rfl, (hcmd c rfl).1⟩
      | false =>
        simp only [Bool.false_eq_true, if_false]
        cases command with
        | error e => exact (h.bumpSeq n).settle _ _ _ _
        | ok c =>
          have hl : (a.bumpSeq n).listeners.Perm (a.listeners ++ []) := by
            simp only [List.append_nil]
            exact List.Perm.refl _
          exact (h.pushFresh (ScopesOnly.refl _) hl (by simp) (by simp) (hmine rfl)
            (hcmd c rfl).2).setCompletion _ _ _

end Scheduling

theorem stepClosed_extends : StepClosed Extends where
  refl := Extends.refl
  trans := Extends.trans
  deleteCompletion a k s _ := (Extends.refl a).deleteCompletion k s
  setCompletion a k s w _ := (Extends.refl a).setCompletion k s w
  settle a k s w o _ := (Extends.refl a).settle k s w o
  cancelWorkflow a := by
    have h : Extends a { a with cancelled := true } :=
      Extends.of_quiet [] rfl (List.Perm.refl _) (by simp) (by simp)
    exact h.rejectScope 0
  note a e he := (Extends.refl a).log (by
    intro c hc
    simp [← hc, Entry.isNote] at he)
  bumpSeq a n := (Extends.refl a).bumpSeq n
  newScope a p c := (Extends.refl a).newScope p c
  rejectScope a s := (Extends.refl a).rejectScope s
  catchCancel a s m hm := (Extends.refl a).catchCancel s (m.listener_of_isPlain hm)
  setTimer a s w := (Extends.refl a).setCompletion .timer s w
  scheduleIn a scope listener kind w command hcmd :=
    (Extends.refl a).scheduleIn listener.seqKind scope listener kind w command rfl fun c hc =>
      ⟨hcmd c hc, c.cancels_of_opens (hcmd c hc)⟩
  pushFresh a n c k w hc hopens := by
    have hl : (a.bumpSeq n).listeners.Perm (a.listeners ++ []) := by
      simp only [List.append_nil]
      exact List.Perm.refl _
    exact ((Extends.refl a).pushFresh (ScopesOnly.refl (a.bumpSeq n)) hl (by simp) (by simp)
      hopens hc).setCompletion k (a.nextSeqs n) w
  concludeActivation a :=
    Extends.of_quiet [] rfl (List.Perm.refl _) (by simp [Activator.concludeActivation])
      (by simp)
  setShielded a value :=
    Extends.of_quiet [] rfl (List.Perm.refl _) (by simp) (by simp)
  setExternalCancelPatched a value :=
    Extends.of_quiet [] rfl (List.Perm.refl _) (by simp) (by simp)

/-! ## The exceptional steps extend, the cancel listeners apart -/

section Exceptional

variable {o a : Activator}

theorem Extends.clearTimeout (h : Extends o a) (handle : Seq) (target : ClearTarget) :
    Extends o (a.clearTimeout handle target) := by
  have h1 : Extends o (a.log (.clearCalled handle)) := h.log (by simp)
  unfold Activator.clearTimeout
  cases target with
  | own scope => exact h1.rejectScope scope
  | foreign => exact h1
  | missing =>
    have h2 := (h1.bumpSeq .timer).deleteCompletion .timer handle
    exact h2.trans (Extends.of_quiet [.pushedByFallback handle] rfl (List.Perm.refl _)
      rfl (by simp))

theorem Extends.processFireTimer (h : Extends o a) (seq : Option Seq) :
    Extends o (a.processJob (.fireTimer seq)) := by
  have h1 : Extends o (a.log (.processed (.fireTimer seq))) := h.log (by simp)
  cases seq with
  | none => exact h1.log (by simp)
  | some seq =>
    rw [processFireTimer_eq]
    split
    · exact h1
    · exact (h1.deleteCompletion _ _).settle _ _ _ _

theorem Extends.runTimeout (h : Extends o a) {m : Microtask} (hm : m.isPlain = false)
    (hl : m.listener = none) : Extends o (a.runMicrotask m) := by
  cases m with
  | cancelListener kind seq => simp [Microtask.listener] at hl
  | runInContextResumed seq resolved =>
    have hq : (a.enqueue (if resolved then .timeoutFired seq else
        .timeoutRejected seq)).listeners = a.listeners := by
      cases resolved <;> exact listeners_enqueue a rfl
    refine h.trans (Extends.of_quiet [] rfl ?_ ?_ (by simp))
    · exact List.Perm.of_eq hq
    · simp [Activator.runMicrotask, enqueue]
  | timeoutFired | legacyTimeoutFired => exact h.log (by simp)
  | _ => simp [Microtask.isPlain] at hm

theorem Extends.pop {m : Microtask} {rest : List Microtask} (hm : a.microtasks = m :: rest)
    (hl : m.listener = none) : Extends a { a with microtasks := rest } := by
  refine Extends.of_quiet [] rfl ?_ (by simp) (by simp)
  simp [Activator.listeners, hm, hl]

end Exceptional

end Activator

/-- The step runs the cancel listener at the head of the queue. -/
def RunsListener (a : Activator) (e : Event) (p : CancelKind × Seq) : Prop :=
  e = .tick ∧ ∃ rest, a.microtasks = .cancelListener p.1 p.2 :: rest

open Activator in
theorem extends_step (a : Activator) (e : Event) (he : ∀ p, ¬ RunsListener a e p) :
    Extends a (step a e) := by
  by_cases hx : Exceptional a e
  · cases e with
    | clearTimeout handle target => exact (Extends.refl a).clearTimeout handle target
    | job job =>
      rcases hx with ⟨seq, rfl⟩
      exact (Extends.refl a).processFireTimer seq
    | tick =>
      rcases hx with ⟨m, rest, hm, hplain⟩
      have hl : m.listener = none := by
        cases m with
        | cancelListener kind seq => exact absurd ⟨rfl, rest, hm⟩ (he (kind, seq))
        | _ => rfl
      simp only [step, Activator.tick, hm]
      exact (Extends.pop hm hl).runTimeout hplain hl
    | _ => exact absurd hx id
  · refine stepClosed_extends.step ?_ a e hx
    intro b m rest hm hplain
    exact Extends.pop hm (m.listener_of_isPlain hplain)

/-! ## The specification -/

/-- A cancel command of a watched kind is recorded after the command that schedules its operation,
while the operation is outstanding, and for the first time. -/
def CancelsOutstanding (watched : CancelKind → Prop) (before : List Entry) (e : Entry) : Prop :=
  ∀ c p, e = .pushed c → c.cancels = some p → watched p.1 →
    (∃ d, Entry.pushed d ∈ before ∧ d.opens = some p) ∧ Activator.OutstandingIn before p ∧
      Entry.pushed c ∉ before

theorem cancelsOutstanding_of_no_cancel {watched : CancelKind → Prop} {e : Entry}
    (he : ∀ c, e = .pushed c → c.cancels = none) (before : List Entry) :
    CancelsOutstanding watched before e := by
  intro c p hc hp _
  rw [he c hc] at hp
  exact absurd hp (by simp)

/-! ## The guard -/

/-- A child whose command cannot be built, in a scope that it listens to, and a start failure whose
handler throws leave the completion of the second phase behind for the listener to find. -/
def CancellationsGuard (a : Activator) : Event → Prop
  | .startChild scope input =>
    (∃ s, a.scopes[scope]? = some s ∧ s.consideredCancelled = false ∧ s.cancellable = true) →
      ∃ p, input.arguments = .ok p
  | .job (.resolveChildWorkflowExecutionStart (some seq) status) =>
    (a.completions .childWorkflowStart seq).isSome → status.FailureHandled seq
  | _ => True

/-! ## Orphaned completions -/

namespace Activator

/-- A step that registers a completion for a fresh number without a command and without a
listener. -/
structure Orphans (a b : Activator) (k : CompletionKind) : Prop where
  keys : b.keys = a.keys.put k (a.nextSeqs k.seqKind)
  unresolved : b.unresolved = a.unresolved
  listeners : b.listeners.Perm a.listeners
  allocated : a.nextSeqs k.seqKind < b.nextSeqs k.seqKind

/-- A child workflow whose start does not get as far as its command still registers the completion
of its second phase. -/
theorem startChild_unscheduled {a : Activator} {scope : ScopeId} {input : ChildWorkflowInput}
    {s : Scope} {e : JsError} (hs : a.scopes[scope]? = some s)
    (h : s.consideredCancelled = true ∨ input.arguments = .error e) :
    (a.startChild scope input).keys =
        a.keys.put .childWorkflowComplete (a.nextSeqs .childWorkflow) ∧
      (a.startChild scope input).unresolved = a.unresolved := by
  have hs' : (a.bumpSeq .childWorkflow).scopes[scope]? = some s := hs
  have quiet : ∀ {b : Activator}, ScopesOnly (a.bumpSeq .childWorkflow) b →
      b.keys = a.keys ∧ b.unresolved = a.unresolved := by
    intro b hq
    refine ⟨?_, ?_⟩
    · funext k s
      simp [Activator.keys, hq.completions, Activator.bumpSeq]
    · simp [Activator.unresolved, hq.history, Activator.bumpSeq]
  unfold Activator.startChild startChildWorkflowExecutionNextHandler Activator.scheduleIn
  cases hcc : s.consideredCancelled with
  | true =>
    simp only [hs', hcc, if_true]
    have hq := quiet (catchCancel_quiet (a.bumpSeq .childWorkflow) scope
      (.rejectOperation .childWorkflowStart (a.nextSeqs .childWorkflow) .childWorkflow))
    exact ⟨by simp [hq.1], by simp [hq.2, afterEntry]⟩
  | false =>
    have harg : input.arguments = .error e := h.resolve_left (by simp [hcc])
    simp only [hs', hcc, harg, bind, Except.bind, Bool.false_eq_true, if_false]
    have hb : ScopesOnly (a.bumpSeq .childWorkflow) (if s.cancellable = true then
        (a.bumpSeq .childWorkflow).catchCancel scope
          (.cancelListener .childWorkflow (a.nextSeqs .childWorkflow))
        else a.bumpSeq .childWorkflow) := by
      split
      · exact catchCancel_quiet _ _ _
      · exact ScopesOnly.refl _
    exact ⟨by simp [(quiet hb).1], by simp [(quiet hb).2, afterEntry]⟩

theorem orphans_startChild {a : Activator} {scope : ScopeId} {input : ChildWorkflowInput}
    {s : Scope} {e : JsError} (hs : a.scopes[scope]? = some s)
    (h : s.consideredCancelled = true ∨ (s.cancellable = false ∧ input.arguments = .error e)) :
    Orphans a (a.startChild scope input) .childWorkflowComplete := by
  have hs' : (a.bumpSeq .childWorkflow).scopes[scope]? = some s := hs
  have hun := startChild_unscheduled hs (h.imp_right And.right)
  refine ⟨hun.1, hun.2, ?_, ?_⟩
  · unfold Activator.startChild startChildWorkflowExecutionNextHandler Activator.scheduleIn
    rcases h with hcc | ⟨hcan, harg⟩
    · simp only [hs', hcc, if_true]
      exact listeners_catchCancel_quiet (a.bumpSeq .childWorkflow) scope rfl
    · have hcc : s.consideredCancelled = false := by simp [Scope.consideredCancelled, hcan]
      simp only [hs', hcc, hcan, harg, bind, Except.bind, Bool.false_eq_true, if_false]
      exact List.Perm.of_eq (listeners_settle (a.bumpSeq .childWorkflow) .childWorkflowStart
        (a.nextSeqs .childWorkflow) .childWorkflow (.rejected e))
  · have hseqs : (a.startChild scope input).nextSeqs = (a.bumpSeq .childWorkflow).nextSeqs := by
      unfold Activator.startChild startChildWorkflowExecutionNextHandler Activator.scheduleIn
      rcases h with hcc | ⟨hcan, harg⟩
      · simp only [hs', hcc, if_true]
        exact (catchCancel_quiet (a.bumpSeq .childWorkflow) scope _).nextSeqs
      · have hcc : s.consideredCancelled = false := by simp [Scope.consideredCancelled, hcan]
        simp only [hs', hcc, hcan, harg, bind, Except.bind, Bool.false_eq_true, if_false]
        exact nextSeqs_settle (a.bumpSeq .childWorkflow) _ _ _ _
    rw [hseqs]
    simp [Activator.bumpSeq, CompletionKind.seqKind]

theorem orphans_setTimeout {a : Activator} (hsh : a.shielded = false) (scope : ScopeId) :
    Orphans a (a.setTimeout scope none) .timer := by
  simp only [Activator.setTimeout, hsh, Bool.false_eq_true, if_false, atLeastOne, Option.map_none,
    msNumberToTs]
  refine ⟨by simp [CompletionKind.seqKind], by simp [afterEntry], ?_, ?_⟩
  · have hset := listeners_settle ((a.bumpSeq .timer).setCompletion .timer (a.nextSeqs .timer)
      .legacyTimeout) .timer (a.nextSeqs .timer) .legacyTimeout
      (.rejected (.valueError "Invalid millis NaN"))
    exact List.Perm.of_eq hset
  · simp [Activator.log, Activator.settle, Activator.setCompletion, Activator.bumpSeq,
      CompletionKind.seqKind]

end Activator

open Activator in
theorem tracks_or_orphans (a : Activator) (e : Event) (hg : CancellationsGuard a e) :
    Tracks a (step a e) ∨ ∃ k, Orphans a (step a e) k := by
  cases e with
  | startChild scope input =>
    cases hs : a.scopes[scope]? with
    | none =>
      have hlen : ¬ scope < a.scopes.length := Nat.not_lt.2 (List.getElem?_eq_none_iff.1 hs)
      refine Or.inl ?_
      simp only [step, Activator.inScope, hlen, if_false]
      exact Tracks.refl a
    | some s =>
      have hlen : scope < a.scopes.length := (List.getElem?_eq_some_iff.1 hs).1
      by_cases hcc : s.consideredCancelled = true
      · refine Or.inr ⟨.childWorkflowComplete, ?_⟩
        simp only [step, Activator.inScope, hlen, if_true]
        exact orphans_startChild (e := .cancelled) hs (Or.inl hcc)
      · have hcc : s.consideredCancelled = false := by simpa using hcc
        cases harg : input.arguments with
        | ok p =>
          refine Or.inl (tracks_step a (.startChild scope input) ⟨?_, p, harg⟩)
          intro s' hs'
          have : s' = s := by simpa [hs] using hs'.symm
          rw [this]
          exact hcc
        | error err =>
          have hcan : s.cancellable = false := by
            by_contra hcan
            have hcan : s.cancellable = true := by simpa using hcan
            rcases hg ⟨s, hs, hcc, hcan⟩ with ⟨p, hp⟩
            simp [harg] at hp
          refine Or.inr ⟨.childWorkflowComplete, ?_⟩
          simp only [step, Activator.inScope, hlen, if_true]
          exact orphans_startChild hs (Or.inr ⟨hcan, harg⟩)
  | setTimeout scope ms =>
    by_cases hms : a.shielded = true ∨ ms ≠ none
    · exact Or.inl (tracks_step a (.setTimeout scope ms) hms)
    · have hsh : a.shielded = false := by
        simpa using fun h => hms (Or.inl h)
      have hnan : ms = none := by
        by_contra h
        exact hms (Or.inr h)
      by_cases hlen : scope < a.scopes.length
      · refine Or.inr ⟨.timer, ?_⟩
        simp only [step, Activator.inScope, hlen, if_true, hnan]
        exact orphans_setTimeout hsh scope
      · refine Or.inl ?_
        simp only [step, Activator.inScope, hlen, if_false]
        exact Tracks.refl a
  | job job =>
    refine Or.inl (tracks_step a (.job job) ?_)
    cases job with
    | resolveChildWorkflowExecutionStart seq status => cases seq <;> exact hg
    | _ => trivial
  | _ => exact Or.inl (tracks_step a _ trivial)

/-! ## The invariant -/

/-- The tables and the history agree on every operation that some listener is chained for; where
they do not, the operation is an orphan. -/
structure ListenersAgree (a : Activator) (orphans : SeqKind → Seq → Prop) : Prop where
  allocated : ∀ n s, orphans n s → s < a.nextSeqs n
  unheard : ∀ p ∈ a.listeners, ¬ orphans p.1.seqKind p.2
  agree : ∀ n s, ¬ orphans n s → a.keys.AgreeAt a.unresolved n s

structure Orderly (a : Activator) : Prop where
  nodup : a.listeners.Nodup
  allocated : ∀ p ∈ a.listeners, p.2 < a.nextSeqs p.1.seqKind
  opened : ∀ c p, Entry.pushed c ∈ a.history → c.opens = some p → p.2 < a.nextSeqs p.1.seqKind
  matched : ∀ c p q, Entry.pushed c ∈ a.history → c.opens = some p → q ∈ a.listeners →
    q.1.seqKind = p.1.seqKind → q.2 = p.2 → q = p
  -- A listener that has pushed its command is gone, and no other takes its number.
  spent : ∀ c p, Entry.pushed c ∈ a.history → c.cancels = some p →
    p ∉ a.listeners ∧ p.2 < a.nextSeqs p.1.seqKind
  listenersAgree : ∃ orphans, ListenersAgree a orphans
  cancelsOutstanding : Always (CancelsOutstanding fun _ => True) a.history

theorem orderly_init (isReplaying shielded patched : Bool) (names : List String) (ns : String) :
    Orderly (Activator.init isReplaying shielded patched names ns) where
  nodup := List.nodup_nil
  allocated := by simp [Activator.init, Activator.listeners]
  opened := by simp [Activator.init]
  matched := by simp [Activator.init]
  spent := by simp [Activator.init]
  listenersAgree := by
    refine ⟨fun _ _ => False, ?_⟩
    exact ⟨fun _ _ h => h.elim, fun _ _ h => h, fun _ _ _ _ _ => rfl⟩
  cancelsOutstanding := always_nil

open Activator in
/-- Steps that extend keep everything but the agreement by numbering alone. -/
theorem Orderly.extend {a b : Activator} (h : Orderly a) {new : List (CancelKind × Seq)}
    {ext : List Entry} (hx : ExtendsBy a b new ext)
    (hagree : ∃ orphans, ListenersAgree b orphans) : Orderly b := by
  have hmem : ∀ {p : CancelKind × Seq}, p ∈ b.listeners → p ∈ a.listeners ∨ p ∈ new := by
    intro p hp
    exact List.mem_append.1 (hx.listeners.mem_iff.1 hp)
  have hentry : ∀ {e : Entry}, e ∈ b.history → e ∈ a.history ∨ e ∈ ext := by
    intro e he
    rw [hx.history] at he
    exact List.mem_append.1 he
  -- Numbers in use before the step are none of those the step allocates.
  have apart : ∀ {p q : CancelKind × Seq}, p.2 < a.nextSeqs p.1.seqKind → Fresh a b q →
      q.1.seqKind = p.1.seqKind → q.2 ≠ p.2 := by
    intro p q hp hq hkind heq
    rw [← hkind, ← heq] at hp
    exact absurd hq.1 (Nat.not_le.2 hp)
  have later : ∀ {p : CancelKind × Seq}, p.2 < a.nextSeqs p.1.seqKind →
      p.2 < b.nextSeqs p.1.seqKind := fun hp => Nat.lt_of_lt_of_le hp (hx.seqs _)
  refine
    { nodup := ?_
      allocated := ?_
      opened := ?_
      matched := ?_
      spent := ?_
      listenersAgree := hagree
      cancelsOutstanding := ?_ }
  · refine hx.listeners.nodup_iff.2 (List.nodup_append.2 ⟨h.nodup, hx.nodup, ?_⟩)
    rintro p hp q hq rfl
    exact apart (h.allocated p hp) (hx.fresh p hq) rfl rfl
  · intro p hp
    rcases hmem hp with hp | hp
    · exact later (h.allocated p hp)
    · exact (hx.fresh p hp).2
  · intro c p hc ho
    rcases hentry hc with hc | hc
    · exact later (h.opened c p hc ho)
    · exact (hx.opensFresh c p hc ho).2
  · intro c p q hc ho hq hkind hseq
    rcases hentry hc with hc | hc
    · rcases hmem hq with hq | hq
      · exact h.matched c p q hc ho hq hkind hseq
      · exact absurd hseq (apart (h.opened c p hc ho) (hx.fresh q hq) hkind)
    · rcases hmem hq with hq | hq
      · exact absurd hseq.symm
          (apart (h.allocated q hq) (hx.opensFresh c p hc ho) hkind.symm)
      · exact hx.opensMatch c p q hc ho hq hkind hseq
  · intro c p hc hp
    rcases hentry hc with hc | hc
    · rcases h.spent c p hc hp with ⟨hgone, hlt⟩
      refine ⟨?_, later hlt⟩
      intro hmem'
      rcases hmem hmem' with hmem' | hmem'
      · exact hgone hmem'
      · exact apart hlt (hx.fresh p hmem') rfl rfl
    · rw [hx.cancelsNothing c hc] at hp
      exact absurd hp (by simp)
  · rw [hx.history]
    refine h.cancelsOutstanding.append fun e he => cancelsOutstanding_of_no_cancel ?_
    rintro c rfl
    exact hx.cancelsNothing c he

open Activator in
theorem Orderly.agree_of_tracks {a b : Activator} (h : Orderly a) (hx : Extends a b)
    (ht : Tracks a b) : ∃ orphans, ListenersAgree b orphans := by
  rcases hx with ⟨new, ext, hx⟩
  rcases h.listenersAgree with ⟨orphans, ho⟩
  refine ⟨orphans, ?_⟩
  exact
    { allocated := fun n s hs => Nat.lt_of_lt_of_le (ho.allocated n s hs) (hx.seqs n)
      unheard := by
        intro p hp horphan
        rcases List.mem_append.1 (hx.listeners.mem_iff.1 hp) with hp | hp
        · exact ho.unheard p hp horphan
        · exact absurd (hx.fresh p hp).1 (Nat.not_le.2 (ho.allocated _ _ horphan))
      agree := fun n s hs => ht.agreeAt (ho.agree n s hs) }

variable {k : CompletionKind}

open Activator in
theorem Orderly.agree_of_orphans {a b : Activator} (h : Orderly a) (hx : Extends a b)
    (hk : Orphans a b k) : ∃ orphans, ListenersAgree b orphans := by
  rcases hx with ⟨new, ext, hx⟩
  rcases h.listenersAgree with ⟨orphans, ho⟩
  refine ⟨fun n s => orphans n s ∨ (n = k.seqKind ∧ s = a.nextSeqs n), ?_⟩
  refine { allocated := ?_, unheard := ?_, agree := ?_ }
  · rintro n s (hs | ⟨rfl, rfl⟩)
    · exact Nat.lt_of_lt_of_le (ho.allocated n s hs) (hx.seqs n)
    · exact hk.allocated
  · rintro p hp (horphan | ⟨hkind, hseq⟩)
    · exact ho.unheard p (hk.listeners.mem_iff.1 hp) horphan
    · have hlt := h.allocated p (hk.listeners.mem_iff.1 hp)
      rw [hseq] at hlt
      exact Nat.lt_irrefl _ hlt
  · intro n s hs k' hk'
    have hne : (k.seqKind, a.nextSeqs k.seqKind) ≠ (k'.seqKind, s) := by
      intro heq
      injection heq with hn hseq
      refine hs (Or.inr ⟨hk'.symm.trans hn.symm, ?_⟩)
      rw [← hk', ← hn, hseq]
    rw [hk.keys, hk.unresolved, Table.put_other _ hne]
    exact ho.agree n s (fun h' => hs (Or.inl h')) k' hk'

/-! ## Running a cancel listener -/

theorem CancelKind.seqKind_of_mem_phases {kind : CancelKind}
    (h : k ∈ kind.phases) : k.seqKind = kind.seqKind := by
  cases kind with
  | nexusOperation =>
    have hk : k = .nexusOperationStart ∨ k = .nexusOperationComplete := by
      simpa [CancelKind.phases] using h
    rcases hk with rfl | rfl
    · rfl
    · rfl
  | timer | activity | localActivity | childWorkflow | signalWorkflow =>
    rw [List.mem_singleton.1 h]
    rfl

theorem Command.opens_of_schedules {c : Command} {kind : CancelKind} {s : Seq}
    (hk : k ∈ kind.phases) (h : c.schedules k s = true) :
    ∃ p, c.opens = some p ∧ p.1.seqKind = kind.seqKind ∧ p.2 = s := by
  have hseq := CancelKind.seqKind_of_mem_phases hk
  unfold Command.schedules at h
  split at h
  -- An external cancel request has a completion but no cancel listener.
  case h_7 => cases kind <;> simp [CancelKind.phases] at hk
  case h_10 => exact absurd h (by simp)
  all_goals exact ⟨_, rfl, hseq, of_decide_eq_true h⟩

namespace Activator

/-- What running a cancel listener can do. -/
theorem runCancelListener_cases (a : Activator) (kind : CancelKind) (seq : Seq) :
    a.runCancelListener kind seq = a ∨
      ∃ ext, (∃ k ∈ kind.phases, a.keys k seq = true) ∧
        (a.runCancelListener kind seq).listeners = a.listeners ∧
        (a.runCancelListener kind seq).nextSeqs = a.nextSeqs ∧
        (a.runCancelListener kind seq).history =
          a.history ++ [.pushed (kind.cancelCommand seq)] ++ ext ∧
        ∀ e ∈ ext, ∃ k s o, e = .settled k s o := by
  cases kind with
  | timer =>
    cases hc : a.completions .timer seq with
    | none => exact Or.inl (by simp [runCancelListener, hc])
    | some w =>
      simp only [runCancelListener, hc]
      refine Or.inr ⟨[.settled .timer seq (.rejected .cancelled)],
        ⟨.timer, by simp [CancelKind.phases], by simp [keys, hc]⟩, ?_, ?_, ?_, by simp⟩
      · exact listeners_settle _ _ _ _ _
      · exact nextSeqs_settle _ _ _ _ _
      · exact history_settle _ _ _ _ _
  | nexusOperation =>
    simp only [runCancelListener]
    split
    · rename_i hopen
      refine Or.inr ⟨[], ?_, rfl, rfl, ?_, by simp⟩
      · rcases Bool.or_eq_true_iff.1 hopen with hopen | hopen
        · exact ⟨.nexusOperationStart, by simp [CancelKind.phases], hopen⟩
        · exact ⟨.nexusOperationComplete, by simp [CancelKind.phases], hopen⟩
      · simp [pushCommand, CancelKind.cancelCommand]
    · exact Or.inl rfl
  | activity | localActivity | childWorkflow | signalWorkflow =>
    simp only [runCancelListener]
    split
    · rename_i hopen
      refine Or.inr ⟨[], ⟨_, List.mem_singleton.2 rfl, hopen⟩, rfl, rfl, ?_, by simp⟩
      simp [pushCommand, CancelKind.cancelCommand]
    · exact Or.inl rfl

theorem listeners_cons {a : Activator} {rest : List Microtask}
    (h : a.microtasks = .cancelListener p.1 p.2 :: rest) :
    a.listeners = p :: { a with microtasks := rest }.listeners := by
  simp [listeners, h, Microtask.listener]

end Activator

open Activator in
theorem Orderly.dropListener {a : Activator} (h : Orderly a)
    {rest : List Microtask} (hm : a.microtasks = .cancelListener p.1 p.2 :: rest) :
    Orderly { a with microtasks := rest } := by
  have hl := listeners_cons hm
  have hold : ∀ {q : CancelKind × Seq}, q ∈ { a with microtasks := rest }.listeners →
      q ∈ a.listeners := by
    intro q hq
    rw [hl]
    exact List.mem_cons_of_mem _ hq
  rcases h.listenersAgree with ⟨orphans, ho⟩
  exact
    { nodup := (List.nodup_cons.1 (hl ▸ h.nodup)).2
      allocated := fun q hq => h.allocated q (hold hq)
      opened := h.opened
      matched := fun c q r hc hq hr => h.matched c q r hc hq (hold hr)
      spent := fun c q hc hq => ⟨fun hmem => (h.spent c q hc hq).1 (hold hmem), (h.spent c q hc hq).2⟩
      listenersAgree := ⟨orphans, ho.allocated, fun q hq => ho.unheard q (hold hq), ho.agree⟩
      cancelsOutstanding := h.cancelsOutstanding }

open Activator in
theorem Orderly.cancel_allowed {a : Activator} (h : Orderly a)
    (hp : p ∈ a.listeners) (hk : k ∈ p.1.phases) (hopen : a.keys k p.2 = true)
    {c : Command} (hc : c.cancels = some p) :
    (∃ d, Entry.pushed d ∈ a.history ∧ d.opens = some p) ∧ OutstandingIn a.history p ∧
      Entry.pushed c ∉ a.history := by
  rcases h.listenersAgree with ⟨orphans, ho⟩
  have hagree := ho.agree _ _ (ho.unheard p hp) k (CancelKind.seqKind_of_mem_phases hk)
  have hout : outstanding a.history k p.2 = true := hagree.symm.trans hopen
  refine ⟨?_, ⟨k, hk, hout⟩, ?_⟩
  · rcases exists_schedules_of_outstanding a.history hout with ⟨d, hd, hsched⟩
    rcases Command.opens_of_schedules hk hsched with ⟨q, hq, hkind, hseq⟩
    have hpq : p = q := h.matched d q p hd hq hp hkind.symm hseq.symm
    exact ⟨d, hd, hpq ▸ hq⟩
  · intro hpushed
    exact (h.spent c p hpushed hc).1 hp

open Activator in
theorem Orderly.runCancelListener {a : Activator} (h : Orderly a)
    (hgone : p ∉ a.listeners) (halloc : p.2 < a.nextSeqs p.1.seqKind)
    (hallowed : ∀ k ∈ p.1.phases, a.keys k p.2 = true →
      (∃ d, Entry.pushed d ∈ a.history ∧ d.opens = some p) ∧ OutstandingIn a.history p ∧
        Entry.pushed (p.1.cancelCommand p.2) ∉ a.history) :
    Orderly (a.runCancelListener p.1 p.2) := by
  have htracks := (Tracks.refl a).runCancelListener p.1 p.2
  rcases runCancelListener_cases a p.1 p.2 with hsame | ⟨ext, ⟨k, hk, hopen⟩, hl, hn, hh, hsettled⟩
  · rw [hsame]
    exact h
  · rcases h.listenersAgree with ⟨orphans, ho⟩
    generalize a.runCancelListener p.1 p.2 = b at htracks hl hn hh
    have hext : ∀ d, Entry.pushed d ∉ ext := by
      intro d hd
      rcases hsettled _ hd with ⟨k, s, o, he⟩
      simp at he
    have hentry : ∀ {d : Command}, Entry.pushed d ∈ b.history →
        Entry.pushed d ∈ a.history ∨ d = p.1.cancelCommand p.2 := by
      intro d hd
      rw [hh] at hd
      rcases List.mem_append.1 hd with hd | hd
      · rcases List.mem_append.1 hd with hd | hd
        · exact Or.inl hd
        · exact Or.inr (by simpa using hd)
      · exact absurd hd (hext d)
    have hopens : ∀ q, (p.1.cancelCommand p.2).opens ≠ some q := by
      intro q
      simp [CancelKind.opens_cancelCommand]
    have hcancels : ∀ q, (p.1.cancelCommand p.2).cancels = some q → p = q := by
      intro q hq
      rw [CancelKind.cancels_cancelCommand] at hq
      exact Option.some.inj hq
    refine
      { nodup := hl ▸ h.nodup
        allocated := ?_
        opened := ?_
        matched := ?_
        spent := ?_
        listenersAgree := ⟨orphans, ?_⟩
        cancelsOutstanding := ?_ }
    · intro q hq
      rw [hn]
      exact h.allocated q (hl ▸ hq)
    · intro d q hd hq
      rcases hentry hd with hd | rfl
      · rw [hn]
        exact h.opened d q hd hq
      · exact absurd hq (hopens q)
    · intro d q r hd hq hr
      rcases hentry hd with hd | rfl
      · exact h.matched d q r hd hq (hl ▸ hr)
      · exact absurd hq (hopens q)
    · intro d q hd hq
      rw [hl, hn]
      rcases hentry hd with hd | rfl
      · exact h.spent d q hd hq
      · rw [← hcancels q hq]
        exact ⟨hgone, halloc⟩
    · exact
        { allocated := fun n s hs => hn ▸ ho.allocated n s hs
          unheard := fun q hq => ho.unheard q (hl ▸ hq)
          agree := fun n s hs => htracks.agreeAt (ho.agree n s hs) }
    · rw [hh]
      refine Always.append (h.cancelsOutstanding.snoc ?_) fun e he =>
        cancelsOutstanding_of_no_cancel ?_
      · intro d q hd hq _
        have hdc : p.1.cancelCommand p.2 = d := by simpa using hd
        rw [← hdc] at hq ⊢
        rw [← hcancels q hq]
        exact hallowed k hk hopen
      · rintro c rfl
        exact absurd he (hext c)

/-! ## Every step, every run -/

open Activator in
theorem orderly_step (a : Activator) (e : Event) (hg : CancellationsGuard a e) (h : Orderly a) :
    Orderly (step a e) := by
  by_cases hl : ∃ p, RunsListener a e p
  · rcases hl with ⟨p, rfl, rest, hm⟩
    have htick : step a .tick = { a with microtasks := rest }.runCancelListener p.1 p.2 := by
      simp [step, Activator.tick, hm, runMicrotask]
    rw [htick]
    have hl := listeners_cons hm
    have hp : p ∈ a.listeners := by simp [hl]
    refine (h.dropListener hm).runCancelListener ?_ (h.allocated p hp) ?_
    · exact (List.nodup_cons.1 (hl ▸ h.nodup)).1
    · intro k hk hopen
      exact h.cancel_allowed hp hk hopen (CancelKind.cancels_cancelCommand p.1 p.2)
  · have hx := extends_step a e fun p hp => hl ⟨p, hp⟩
    have hagree : ∃ orphans, ListenersAgree (step a e) orphans := by
      rcases tracks_or_orphans a e hg with ht | ⟨k, hk⟩
      · exact h.agree_of_tracks hx ht
      · exact h.agree_of_orphans hx hk
    rcases hx with ⟨new, ext, hx⟩
    exact h.extend hx hagree

/-- In every guarded run, a cancel command is pushed at most once, only after the command that
schedules its operation, and only while the operation is outstanding. -/
theorem cancel_commands_target_outstanding (isReplaying shielded patched : Bool)
    (names : List String) (ns : String) (es : List Event)
    (hg : Guarded step CancellationsGuard
      (Activator.init isReplaying shielded patched names ns) es) :
    let a := run step (Activator.init isReplaying shielded patched names ns) es
    (∀ c p, c.cancels = some p → a.history.count (.pushed c) ≤ 1) ∧
      ∀ before c after p, a.history = before ++ .pushed c :: after → c.cancels = some p →
        (∃ d, Entry.pushed d ∈ before ∧ d.opens = some p) ∧
          ∃ k ∈ p.1.phases, outstanding before k p.2 = true := by
  intro a
  have h : Orderly a :=
    run_invariant orderly_step (orderly_init isReplaying shielded patched names ns) hg
  refine ⟨?_, ?_⟩
  · intro c p hp
    exact h.cancelsOutstanding.count_le_one fun l hl => (hl c p rfl hp trivial).2.2
  · intro before c after p hsplit hp
    rcases h.cancelsOutstanding before _ after hsplit c p rfl hp trivial with ⟨hsched, hout, _⟩
    exact ⟨hsched, hout⟩

/-- A child workflow and a timer, both outstanding when the workflow is cancelled. -/
def cancelChildAndTimer : List Event :=
  [.startChild 0 { workflowType := "child", workflowId := "c", arguments := .ok [] },
   .sleep 0 (.millis 1000) (.ok ()),
   .job .cancelWorkflow, .tick, .tick]

theorem cancelChildAndTimer_once :
    Guarded step CancellationsGuard (Activator.init false true true [] "default")
        cancelChildAndTimer ∧
      let a := run step (Activator.init false true true [] "default") cancelChildAndTimer
      Entry.pushed (.cancelTimer 1) ∈ a.history ∧
        Entry.pushed (.cancelChildWorkflowExecution 1) ∈ a.history ∧
        a.history.count (.pushed (.cancelTimer 1)) ≤ 1 ∧
        a.history.count (.pushed (.cancelChildWorkflowExecution 1)) ≤ 1 := by
  have hg : Guarded step CancellationsGuard (Activator.init false true true [] "default")
      cancelChildAndTimer :=
    ⟨fun _ => ⟨[], rfl⟩, trivial, trivial, trivial, trivial, trivial⟩
  have h := cancel_commands_target_outstanding false true true [] "default" cancelChildAndTimer hg
  exact ⟨hg, by decide, by decide, h.1 _ (.timer, 1) rfl, h.1 _ (.childWorkflow, 1) rfl⟩

/-- A child whose arguments do not convert, in a workflow that is cancelled afterwards. -/
def cancelUnstartedChild : List Event :=
  [.startChild 0
    { workflowType := "child", workflowId := "c", arguments := .error (.valueError "no converter") },
   .job .cancelWorkflow, .tick, .tick]

theorem cancelUnstartedChild_not_scheduled :
    ¬ ∀ before c after p,
      (run step (Activator.init false true true [] "default") cancelUnstartedChild).history =
          before ++ .pushed c :: after →
        c.cancels = some p → ∃ d, Entry.pushed d ∈ before ∧ d.opens = some p := by
  intro h
  have hsplit : (run step (Activator.init false true true [] "default")
      cancelUnstartedChild).history =
        [.settled .childWorkflowStart 1 (.rejected (.valueError "no converter")),
         .returned .childWorkflowStart 1, .processed .cancelWorkflow,
         .settled .childWorkflowComplete 1 (.rejected (.valueError "no converter"))] ++
        .pushed (.cancelChildWorkflowExecution 1) :: [] := by
    decide
  rcases h _ _ _ (.childWorkflow, 1) hsplit rfl with ⟨d, hd, _⟩
  simp at hd

end TemporalSdk.Workflow
