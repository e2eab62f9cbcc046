import TemporalSdk.Activation.Buffering
import TemporalSdk.Activation.Control
import TemporalSdk.Activation.Moves
import TemporalSdk.Machine.History

/-!
# TaskErrors — what becomes of a thrown value

A value thrown by the workflow function or by a handler is *accounted for* while the reaction to it is
queued, once a command carries it, once it is recorded as the task error, and once a promise chain
that handles it has been rejected, which fails the activation.  An activation that succeeds has run
all reactions, has no rejected promise and passed `maybeRethrowWorkflowTaskError`, so that only the
command is left.

`maybeRethrowWorkflowTaskError` tests whether the recorded value is truthy, `recordWorkflowTaskError`
whether it is `undefined`: the argument needs that the two agree.
-/

namespace TemporalSdk.Activation

open Machine

variable {σ : Type} {cfg : Config σ} {s t : Vm σ}

namespace Vm

/-! ## The condition -/

/-- The next instruction throws out of the function that its caller called. -/
def throwing (s : Vm σ) : Bool :=
  match s.stack with
  | .code c (.settle (.error _)) :: _ => !s.settledCalls.contains c
  | _ => false

/-- The value that the next step hands to `recordWorkflowTaskError`. -/
def recording (cfg : Config σ) (s : Vm σ) : Option JsValue :=
  let record (v : JsValue) :=
    if failureAction cfg.failureTypes s.cancelled v = .recordTaskError then some v else none
  match s.stack, s.phase, s.microtasks with
  | [], .microtasks, .settled (.workflow _) (.error v) :: _ => record v
  | [], .microtasks, .settled (.signal _) (.error v) :: _ => record v
  | [], .microtasks, .caught _ _ v :: _ => record v
  | _, _, _ => none

/-- The task error was recorded by `recordWorkflowTaskError`. -/
def hasRecorded (s : Vm σ) : Bool :=
  s.workflowTaskError != .undefined && s.unhandledRejection == .undefined

end Vm

/-- Recorded values are truthy, recorded before any rejected promise is reported, and no rejected
promise is reported after that; query activations throw and record nothing and do not come after a
recorded value. -/
def KeepsErrors (cfg : Config σ) (s : Vm σ) : Input → Prop
  | .activate a =>
    a.jobs.any Job.isQuery = true → a.jobs.all Job.isQuery = true → s.hasRecorded = false
  | .tick =>
    (s.query = true → s.throwing = false ∧ s.recording cfg = none) ∧
    (s.hasRecorded = true → s.rejections = []) ∧
    ∀ v ∈ s.recording cfg, v.isTruthy = true ∧ s.unhandledRejection = .undefined

instance (cfg : Config σ) (s : Vm σ) : ∀ i, Decidable (KeepsErrors cfg s i)
  | .activate a => inferInstanceAs (Decidable (a.jobs.any Job.isQuery = true →
      a.jobs.all Job.isQuery = true → s.hasRecorded = false))
  | .tick => inferInstanceAs (Decidable
      ((s.query = true → s.throwing = false ∧ s.recording cfg = none) ∧
      (s.hasRecorded = true → s.rejections = []) ∧
      ∀ v ∈ s.recording cfg, v.isTruthy = true ∧ s.unhandledRejection = .undefined))

/-! ## What the history says about thrown values -/

namespace Note

/-- Notes at which an activation starts or ends. -/
def isBoundary : Note → Bool
  | activated _ | completed _ => true
  | _ => false

def recordedValue : Note → Option JsValue
  | recorded _ v => some v
  | _ => none

end Note

/-- What has happened in the activation that is going on. -/
def current (trace : List Note) : List Note :=
  trace.foldl (fun notes n => if n.isBoundary then [] else notes ++ [n]) []

def recordedValues (trace : List Note) : List JsValue := trace.filterMap Note.recordedValue

/-- The commands that `v`, thrown out of `c`, can cause. -/
def CausedBy (c : Caller) (v : JsValue) : Command → Prop
  | .cancelWorkflowExecution | .continueAsNewWorkflowExecution | .failWorkflowExecution _ => True
  | .updateResponse pid (.rejected _) =>
    v.instanceOf .temporalFailure = true ∧ ∃ num, c = .update num pid
  | _ => False

/-- What a completion says about the values thrown before it. -/
def Reported (before : List Note) : Note → Prop
  | .completed (.successful commands) =>
    recordedValues before = [] ∧
    ∀ c v, .thrown c v ∈ current before →
      ∃ command, (.thrown c v, command) ∈ commands ∧ CausedBy c v command
  | .completed (.rejected _) => ∀ c v, .thrown c v ∉ current before
  | _ => True

theorem current_append {trace notes : List Note} (h : ∀ n ∈ notes, n.isBoundary = false) :
    current (trace ++ notes) = current trace ++ notes := by
  induction notes using List.reverseRecOn with
  | nil => simp
  | append_singleton notes n ih =>
    have hinit := ih fun m hm => h m (List.mem_append_left _ hm)
    have hn : n.isBoundary = false := h n (by simp)
    have hlast : current ((trace ++ notes) ++ [n]) = current (trace ++ notes) ++ [n] := by
      simp [current, hn]
    rw [← List.append_assoc, hlast, hinit, List.append_assoc]

theorem current_boundary {n : Note} (trace : List Note) (h : n.isBoundary = true) :
    current (trace ++ [n]) = [] := by
  simp [current, h]

/-! ## The invariant -/

/-- What keeps a value that was thrown from being lost. -/
def AccountedFor (s : Vm σ) (c : Caller) (v : JsValue) : Prop :=
  .settled c (.error v) ∈ s.reactions ∨
  (∃ num pid, c = .update num pid ∧ .caught num pid v ∈ s.reactions) ∨
  (∃ command, (.thrown c v, command) ∈ s.commands ∧ CausedBy c v command) ∨
  s.rejections ≠ [] ∨ s.unhandledRejection.isTruthy = true ∨ v ∈ recordedValues s.trace

structure Accountable (s : Vm σ) : Prop where
  thrown : ∀ c v, .thrown c v ∈ current s.trace → s.query = false ∧ AccountedFor s c v
  reported : Always Reported s.trace
  -- The first recorded value is the task error.
  first : ∀ v, (recordedValues s.trace).head? = some v →
    s.workflowTaskError = v ∧ v.isTruthy = true ∧ s.unhandledRejection = .undefined
  unrecorded : recordedValues s.trace = [] →
    s.workflowTaskError = .undefined ∨ s.unhandledRejection.isTruthy = true
  query : s.query = true → recordedValues s.trace = []

theorem accountable_init (heap : σ) : Accountable (Vm.init heap) := by
  refine ⟨?_, always_nil, ?_, fun _ => Or.inl rfl, fun _ => rfl⟩
  · intro c v h
    cases h
  · intro v h
    cases h

namespace Note

/-- Notes about neither thrown values nor the bounds of an activation. -/
def isIncidental : Note → Bool
  | thrown _ _ | recorded _ _ | activated _ | completed _ => false
  | _ => true

theorem of_isIncidental {n : Note} (h : n.isIncidental = true) :
    n.isBoundary = false ∧ n.recordedValue = none ∧ (∀ c v, n ≠ thrown c v) ∧
      ∀ before, Reported before n := by
  cases n <;> simp_all [isIncidental, isBoundary, recordedValue, Reported]

theorem isIncidental_of_isPlain {n : Note} (h : n.isPlain = true) : n.isIncidental = true := by
  cases n <;> simp_all [isPlain, isIncidental]

end Note

theorem recordedValues_append {trace notes : List Note} (h : ∀ n ∈ notes, n.recordedValue = none) :
    recordedValues (trace ++ notes) = recordedValues trace := by
  have hnil : notes.filterMap Note.recordedValue = [] := List.filterMap_eq_nil_iff.2 h
  simp [recordedValues, hnil]

variable {v : JsValue} {c : Caller}

theorem AccountedFor.mono (h : AccountedFor s c v) (hreactions : ∀ m ∈ s.reactions, m ∈ t.reactions)
    (hcommands : ∀ command ∈ s.commands, command ∈ t.commands)
    (hrejections : s.rejections ≠ [] → t.rejections ≠ [])
    (hunhandled : t.unhandledRejection = s.unhandledRejection)
    (hrecorded : ∀ v ∈ recordedValues s.trace, v ∈ recordedValues t.trace) :
    AccountedFor t c v := by
  rcases h with h | ⟨num, pid, hc, h⟩ | ⟨command, h, hcaused⟩ | h | h | h
  · exact Or.inl (hreactions _ h)
  · exact Or.inr (Or.inl ⟨num, pid, hc, hreactions _ h⟩)
  · exact Or.inr (Or.inr (Or.inl ⟨command, hcommands _ h, hcaused⟩))
  · exact Or.inr (Or.inr (Or.inr (Or.inl (hrejections h))))
  · exact Or.inr (Or.inr (Or.inr (Or.inr (Or.inl (hunhandled ▸ h)))))
  · exact Or.inr (Or.inr (Or.inr (Or.inr (Or.inr (hrecorded _ h)))))

namespace Accountable

/-- A step that records nothing and does not end the activation. -/
theorem extend (h : Accountable s) (notes : List Note) (htrace : t.trace = s.trace ++ notes)
    (hnotes : ∀ n ∈ notes, n.isIncidental = true ∨ ∃ c v, n = .thrown c v)
    (hthrown : ∀ c v, .thrown c v ∈ notes → t.query = false ∧ AccountedFor t c v)
    (hkept : ∀ c v, AccountedFor s c v → AccountedFor t c v)
    (herror : t.workflowTaskError = s.workflowTaskError)
    (hunhandled : t.unhandledRejection = s.unhandledRejection) (hquery : t.query = s.query) :
    Accountable t := by
  have hquiet : ∀ n ∈ notes, n.isBoundary = false ∧ n.recordedValue = none ∧
      ∀ before, Reported before n := by
    intro n hn
    rcases hnotes n hn with hincidental | ⟨c, v, rfl⟩
    · have := Note.of_isIncidental hincidental
      exact ⟨this.1, this.2.1, this.2.2.2⟩
    · exact ⟨rfl, rfl, fun _ => trivial⟩
  have hrecorded : recordedValues t.trace = recordedValues s.trace := by
    rw [htrace]
    exact recordedValues_append fun n hn => (hquiet n hn).2.1
  have hcurrent : current t.trace = current s.trace ++ notes := by
    rw [htrace]
    exact current_append fun n hn => (hquiet n hn).1
  refine ⟨?_, ?_, ?_, ?_, ?_⟩
  · intro c v hin
    rw [hcurrent] at hin
    rcases List.mem_append.1 hin with hold | hnew
    · have hold := h.thrown c v hold
      exact ⟨hquery.trans hold.1, hkept c v hold.2⟩
    · exact hthrown c v hnew
  · rw [htrace]
    exact h.reported.append fun n hn => (hquiet n hn).2.2
  · intro v hv
    rw [hrecorded] at hv
    rw [herror, hunhandled]
    exact h.first v hv
  · intro hnil
    rw [hrecorded] at hnil
    rw [herror, hunhandled]
    exact h.unrecorded hnil
  · intro hq
    rw [hrecorded]
    exact h.query (hquery ▸ hq)

theorem of_quiet (h : Accountable s) (hq : Quiet s t) : Accountable t := by
  rcases hq.trace with ⟨notes, htrace, hnotes⟩
  have hreactions : t.reactions = s.reactions := congrArg Core.reactions hq.core
  have hcommands : t.commands = s.commands := congrArg Core.commands hq.core
  have hrejections : t.rejections = s.rejections := congrArg Core.rejections hq.core
  have hunhandled : t.unhandledRejection = s.unhandledRejection :=
    congrArg Core.unhandledRejection hq.core
  have hincidental : ∀ n ∈ notes, n.isIncidental = true :=
    fun n hn => Note.isIncidental_of_isPlain (hnotes n hn)
  refine h.extend notes htrace (fun n hn => Or.inl (hincidental n hn)) ?_ ?_
    (congrArg Core.workflowTaskError hq.core) hunhandled (congrArg Core.query hq.core)
  · intro c v hin
    exact absurd rfl ((Note.of_isIncidental (hincidental _ hin)).2.2.1 c v)
  · intro c v hacc
    refine hacc.mono ?_ ?_ ?_ hunhandled ?_
    · intro m hm
      rw [hreactions]
      exact hm
    · intro command hin
      rw [hcommands]
      exact hin
    · intro hne
      rw [hrejections]
      exact hne
    · intro w hw
      rw [htrace, recordedValues, List.filterMap_append]
      exact List.mem_append_left _ hw

theorem pushCommand (h : Accountable s) (origin : Origin) (c : Command) :
    Accountable (s.pushCommand origin c) := by
  refine h.extend [.pushed origin c] rfl (by simp [Note.isIncidental]) (by simp) ?_ rfl rfl rfl
  intro c v hacc
  refine hacc.mono (fun m hm => hm) (fun command hin => List.mem_append_left _ hin)
    (fun hne => hne) rfl ?_
  intro w hw
  simp only [Vm.pushCommand, recordedValues, List.filterMap_append]
  exact List.mem_append_left _ hw

theorem leaveRejected (h : Accountable s) (reason : JsValue) :
    Accountable (s.leaveRejected reason) := by
  refine h.extend [] (by simp [Vm.leaveRejected]) (by simp) (by simp) ?_ rfl rfl rfl
  intro c v hacc
  exact hacc.mono (fun m hm => hm) (fun command hin => hin)
    (fun hne => by simp [Vm.leaveRejected]) rfl (fun w hw => hw)

/-- A value is thrown; the reaction to it is queued. -/
theorem settleCall (h : Accountable s) {o : Outcome}
    (hquery : s.query = true → c ∉ s.settledCalls → ∀ v, o ≠ .error v) :
    Accountable (s.settleCall c o) := by
  unfold Vm.settleCall
  split
  · exact h
  · rename_i hopen
    have hreactions : ∀ m : Microtask σ, m ∈ s.reactions ∨ m = .settled c o →
        m ∈ List.filter Microtask.isReaction (s.microtasks ++ [.settled c o]) := by
      intro m hm
      rw [List.filter_append]
      rcases hm with hm | rfl
      · exact List.mem_append_left _ hm
      · exact List.mem_append_right _ (by simp [Microtask.isReaction])
    refine h.extend (t := { s with
      settledCalls := s.settledCalls ++ [c]
      microtasks := s.microtasks ++ [.settled c o]
      trace := s.trace ++ _ }) _ rfl ?_ ?_ ?_ rfl rfl rfl
    · intro n hn
      cases o with
      | ok v => cases hn
      | error v => exact Or.inr ⟨c, v, List.mem_singleton.1 hn⟩
    · intro c' v' hin
      cases o with
      | ok v => cases hin
      | error v =>
        have heq : c' = c ∧ v' = v := by simpa using hin
        rcases heq with ⟨rfl, rfl⟩
        refine ⟨?_, Or.inl (hreactions _ (Or.inr rfl))⟩
        cases hq : s.query with
        | false => rfl
        | true => exact absurd rfl (hquery hq hopen v')
    · intro c' v' hacc
      refine hacc.mono (fun m hm => hreactions m (Or.inl hm)) (fun command hin => hin)
        (fun hne => hne) rfl ?_
      intro w hw
      simp only [recordedValues, List.filterMap_append]
      exact List.mem_append_left _ hw

theorem doUpdateImpl (h : Accountable s) (u : DoUpdate) (entry : UpdateHandler σ) :
    Accountable (s.doUpdateImpl cfg u entry) := by
  rcases Vm.doUpdateImpl_cases cfg s u entry with ⟨n, notes, hnotes, _, hcases⟩
  have hincidental : ∀ n ∈ notes, n.isIncidental = true := by
    intro m hm
    rcases hnotes with rfl | rfl
    · cases hm
    · rw [List.mem_singleton.1 hm]
      rfl
  have hdecoded : Accountable (s.decoded n notes) := by
    refine h.extend notes rfl (fun m hm => Or.inl (hincidental m hm)) ?_ ?_ rfl rfl rfl
    · intro c v hin
      exact absurd rfl ((Note.of_isIncidental (hincidental _ hin)).2.2.1 c v)
    · intro c v hacc
      refine hacc.mono (fun m hm => hm) (fun command hin => hin) (fun hne => hne) rfl ?_
      intro w hw
      simp only [Vm.decoded, recordedValues, List.filterMap_append]
      exact List.mem_append_left _ hw
  rcases hcases with ⟨e, _, ⟨failure, _, heq⟩ | ⟨e', _, heq⟩⟩ | ⟨args, _, _, _, _, heq⟩
  · rw [heq]
    exact hdecoded.pushCommand _ _
  · rw [heq]
    exact hdecoded.leaveRejected e'
  · rw [heq]
    have haccept := hdecoded.pushCommand (.update u)
      (.updateResponse u.protocolInstanceId .accepted)
    refine haccept.extend [.updateHanded u s.nextNum ((s.decoded n notes).nextObject - 1)] rfl
      (by simp [Note.isIncidental]) (by simp) ?_ rfl rfl rfl
    intro c v hacc
    refine hacc.mono (fun m hm => hm) (fun command hin => hin) (fun hne => hne) rfl ?_
    intro w hw
    simp only [Vm.handUpdate, Vm.call, Vm.note, recordedValues, List.filterMap_append]
    exact List.mem_append_left _ hw

/-! ## Reactions -/

end Accountable

/-- The value whose reaction `m` is. -/
def Microtask.reactsTo : Microtask σ → Option (Caller × JsValue)
  | .settled c (.error v) => some (c, v)
  | .caught num pid v => some (.update num pid, v)
  | _ => none

variable {microtasks : List (Microtask σ)} {m : Microtask σ}

/-- A reaction is run: the value that it was queued for is accounted for in another way. -/
theorem AccountedFor.afterReaction (h : AccountedFor s c v) (hm : s.microtasks = m :: microtasks)
    (hmine : ∀ c v, m.reactsTo = some (c, v) → AccountedFor t c v)
    (hreactions : ∀ m' ∈ microtasks, m' ∈ t.microtasks)
    (hcommands : ∀ command ∈ s.commands, command ∈ t.commands)
    (hrejections : s.rejections ≠ [] → t.rejections ≠ [])
    (hunhandled : t.unhandledRejection = s.unhandledRejection)
    (hrecorded : ∀ v ∈ recordedValues s.trace, v ∈ recordedValues t.trace) :
    AccountedFor t c v := by
  have hkept : ∀ m' ∈ s.reactions, m' = m ∨ m' ∈ t.reactions := by
    intro m' hm'
    have hm' := List.mem_filter.1 hm'
    rw [hm] at hm'
    rcases List.mem_cons.1 hm'.1 with heq | hin
    · exact Or.inl heq
    · exact Or.inr (List.mem_filter.2 ⟨hreactions m' hin, hm'.2⟩)
  rcases h with hin | ⟨num, pid, rfl, hin⟩ | ⟨command, hin, hcaused⟩ | hin | hin | hin
  · rcases hkept _ hin with heq | hin
    · exact hmine c v (by rw [← heq]; rfl)
    · exact Or.inl hin
  · rcases hkept _ hin with heq | hin
    · exact hmine _ v (by rw [← heq]; rfl)
    · exact Or.inr (Or.inl ⟨num, pid, rfl, hin⟩)
  · exact Or.inr (Or.inr (Or.inl ⟨command, hcommands _ hin, hcaused⟩))
  · exact Or.inr (Or.inr (Or.inr (Or.inl (hrejections hin))))
  · exact Or.inr (Or.inr (Or.inr (Or.inr (Or.inl (hunhandled ▸ hin)))))
  · exact Or.inr (Or.inr (Or.inr (Or.inr (Or.inr (hrecorded _ hin)))))

namespace Accountable

theorem react (h : Accountable s)
    (hm : s.microtasks = m :: microtasks) (notes : List Note) (htrace : t.trace = s.trace ++ notes)
    (hnotes : ∀ n ∈ notes, n.isIncidental = true)
    (hmine : ∀ c v, m.reactsTo = some (c, v) → AccountedFor t c v)
    (hreactions : ∀ m' ∈ microtasks, m' ∈ t.microtasks)
    (hcommands : ∀ command ∈ s.commands, command ∈ t.commands)
    (hrejections : s.rejections ≠ [] → t.rejections ≠ [])
    (herror : t.workflowTaskError = s.workflowTaskError)
    (hunhandled : t.unhandledRejection = s.unhandledRejection) (hquery : t.query = s.query) :
    Accountable t := by
  refine h.extend notes htrace (fun n hn => Or.inl (hnotes n hn)) ?_ ?_ herror hunhandled hquery
  · intro c v hin
    exact absurd rfl ((Note.of_isIncidental (hnotes _ hin)).2.2.1 c v)
  · intro c v hacc
    refine hacc.afterReaction hm hmine hreactions hcommands hrejections hunhandled ?_
    intro w hw
    rw [htrace, recordedValues, List.filterMap_append]
    exact List.mem_append_left _ hw

theorem react_push (h : Accountable s)
    (hm : s.microtasks = m :: microtasks) {origin : Origin} {command : Command}
    (hmine : ∀ c v, m.reactsTo = some (c, v) → origin = .thrown c v ∧ CausedBy c v command) :
    Accountable ({ s with microtasks := microtasks }.pushCommand origin command) := by
  refine h.react hm [.pushed origin command] rfl (by simp [Note.isIncidental]) ?_ (fun m' hin => hin)
    (fun command hin => List.mem_append_left _ hin) (fun hne => hne) rfl rfl rfl
  intro c v hv
  rcases hmine c v hv with ⟨rfl, hcaused⟩
  exact Or.inr (Or.inr (Or.inl ⟨command, by simp [Vm.pushCommand], hcaused⟩))

theorem react_leaveRejected (h : Accountable s)
    (hm : s.microtasks = m :: microtasks) (reason : JsValue) :
    Accountable ({ s with microtasks := microtasks }.leaveRejected reason) := by
  refine h.react hm [] (by simp [Vm.leaveRejected]) (by simp) ?_ (fun m' hin => hin)
    (fun command hin => hin) (fun hne => by simp [Vm.leaveRejected]) rfl rfl rfl
  intro c v _
  exact Or.inr (Or.inr (Or.inr (Or.inl (by simp [Vm.leaveRejected]))))

/-- The first value to be recorded becomes the task error. -/
theorem react_record
    (h : Accountable s) (hm : s.microtasks = m :: microtasks) (hmine : m.reactsTo = some (c, v))
    (htruthy : v.isTruthy = true) (hunhandled : s.unhandledRejection = .undefined)
    (hquery : s.query = false) :
    Accountable ({ s with microtasks := microtasks }.recordWorkflowTaskError c v) := by
  have hrecorded : recordedValues
      ({ s with microtasks := microtasks }.recordWorkflowTaskError c v).trace =
        recordedValues s.trace ++ [v] := by
    simp [Vm.recordWorkflowTaskError, recordedValues, Note.recordedValue]
  have hcurrent : current ({ s with microtasks := microtasks }.recordWorkflowTaskError c v).trace =
      current s.trace ++ [Note.recorded c v] := current_append (by simp [Note.isBoundary])
  refine ⟨?_, ?_, ?_, ?_, ?_⟩
  · intro c' v' hin
    rw [hcurrent] at hin
    have hin : .thrown c' v' ∈ current s.trace := by simpa using hin
    refine ⟨hquery, (h.thrown c' v' hin).2.afterReaction hm ?_ (fun m' hin => hin)
      (fun command hin => hin) (fun hne => hne) rfl ?_⟩
    · intro c'' v'' hreacts
      have heq : v = v'' := by
        rw [hmine] at hreacts
        exact congrArg Prod.snd (Option.some.inj hreacts)
      refine Or.inr (Or.inr (Or.inr (Or.inr (Or.inr ?_))))
      rw [hrecorded, heq]
      simp
    · intro w hw
      rw [hrecorded]
      exact List.mem_append_left _ hw
  · exact h.reported.snoc trivial
  · intro w hw
    rw [hrecorded] at hw
    cases hold : recordedValues s.trace with
    | nil =>
      have heq : v = w := by simpa [hold] using hw
      have herror : s.workflowTaskError = .undefined := by
        rcases h.unrecorded hold with herror | htrue
        · exact herror
        · rw [hunhandled] at htrue
          cases htrue
      rw [← heq]
      exact ⟨by simp [Vm.recordWorkflowTaskError, herror], htruthy, hunhandled⟩
    | cons w' ws =>
      have heq : w' = w := by simpa [hold] using hw
      have hfirst := h.first w (by simp [hold, heq])
      have hdefined : w ≠ .undefined := by
        rintro rfl
        cases hfirst.2.1
      refine ⟨?_, hfirst.2⟩
      simp [Vm.recordWorkflowTaskError, hfirst.1, hdefined]
  · intro hnil
    rw [hrecorded] at hnil
    simp at hnil
  · intro htrue
    have htrue : s.query = true := htrue
    rw [hquery] at htrue
    cases htrue

theorem react_failure
    (h : Accountable s) (hm : s.microtasks = m :: microtasks) (hmine : m.reactsTo = some (c, v))
    (hrecord : failureAction cfg.failureTypes s.cancelled v = .recordTaskError →
      v.isTruthy = true ∧ s.unhandledRejection = .undefined ∧ s.query = false) :
    Accountable ({ s with microtasks := microtasks }.handleWorkflowFailure cfg c v) := by
  rcases Vm.handleWorkflowFailure_cases cfg { s with microtasks := microtasks } c v with
    ⟨command, heq, hcommand⟩ | ⟨e, heq⟩ | ⟨haction, heq⟩
  · rw [heq]
    refine h.react_push hm ?_
    intro c' v' hreacts
    rw [hmine] at hreacts
    injection Option.some.inj hreacts with hc hv
    rw [← hc, ← hv]
    refine ⟨rfl, ?_⟩
    rcases hcommand with rfl | rfl | ⟨failure, rfl⟩
    all_goals trivial
  · rw [heq]
    exact h.react_leaveRejected hm e
  · rw [heq]
    rcases hrecord haction with ⟨htruthy, hunhandled, hquery⟩
    exact h.react_record hm hmine htruthy hunhandled hquery

theorem react_queueCaught {num : Nat} {pid : String} {o : Outcome}
    (h : Accountable s) (hm : s.microtasks = .settled (.update num pid) o :: microtasks)
    (ho : ∀ w, o = .error w → w = v) :
    Accountable { s with microtasks := microtasks ++ [.caught num pid v] } := by
  refine h.react hm [] (by simp) (by simp) ?_ (fun m' hin => List.mem_append_left _ hin)
    (fun command hin => hin) (fun hne => hne) rfl rfl rfl
  intro c w hreacts
  cases o with
  | ok _ => cases hreacts
  | error w' =>
    injection Option.some.inj hreacts with hc hw
    have hv : w = v := by rw [← hw, ho w' rfl]
    refine Or.inr (Or.inl ⟨num, pid, hc.symm, ?_⟩)
    simp [Vm.reactions, hv, Microtask.isReaction]

theorem runMicrotask (h : Accountable s)
    (hstack : s.stack = []) (hphase : s.phase = .microtasks) (hm : s.microtasks = m :: microtasks)
    (hreaction : m.isReaction = true) (hg : KeepsErrors cfg s .tick) :
    Accountable ({ s with microtasks := microtasks }.runMicrotask cfg m) := by
  rcases hg with ⟨hquery, _, hrecording⟩
  have hrecord : ∀ {v}, s.recording cfg =
      (if failureAction cfg.failureTypes s.cancelled v = .recordTaskError then some v else none) →
      failureAction cfg.failureTypes s.cancelled v = .recordTaskError →
        v.isTruthy = true ∧ s.unhandledRejection = .undefined ∧ s.query = false := by
    intro v heq haction
    rw [if_pos haction] at heq
    have hkept := hrecording v heq
    refine ⟨hkept.1, hkept.2, ?_⟩
    cases hq : s.query with
    | false => rfl
    | true =>
      have hnone := (hquery hq).2
      rw [heq] at hnone
      cases hnone
  cases m with
  | callback | respond => cases hreaction
  | settled c o =>
    cases c with
    | workflow num =>
      cases o with
      | ok v =>
        simp only [Vm.runMicrotask, Vm.completeWorkflow]
        split
        · exact h.react_push hm (by simp [Microtask.reactsTo])
        · exact h.react_leaveRejected hm _
      | error v =>
        exact h.react_failure hm rfl (hrecord (by simp [Vm.recording, hstack, hphase, hm]))
    | signal num =>
      cases o with
      | ok v =>
        exact h.react hm [] (by simp [Vm.runMicrotask]) (by simp)
          (by simp [Microtask.reactsTo]) (fun m' hin => hin) (fun command hin => hin)
          (fun hne => hne) rfl rfl rfl
      | error v =>
        exact h.react_failure hm rfl (hrecord (by simp [Vm.recording, hstack, hphase, hm]))
    | update num pid =>
      cases o with
      | ok v =>
        simp only [Vm.runMicrotask]
        split
        · exact h.react_push hm (by simp [Microtask.reactsTo])
        · exact h.react_queueCaught hm (by simp)
      | error v => exact h.react_queueCaught hm (by simp)
  | caught num pid v =>
    simp only [Vm.runMicrotask, Vm.rejectUpdate]
    split
    · rename_i hfailure
      cases cfg.errorToFailure v with
      | ok failure =>
        refine h.react_push hm ?_
        intro c w hreacts
        injection Option.some.inj hreacts with hc hw
        rw [← hc, ← hw]
        exact ⟨rfl, hfailure, num, rfl⟩
      | error e => exact h.react_leaveRejected hm e
    · exact h.react_failure hm rfl (hrecord (by simp [Vm.recording, hstack, hphase, hm]))

/-! ## The end of an activation, and its start -/

/-- A boundary of an activation: whatever was thrown before it is done with. -/
theorem bound {n : Note} (h : Accountable s) (htrace : t.trace = s.trace ++ [n])
    (hboundary : n.isBoundary = true) (hreported : Reported s.trace n)
    (hfirst : ∀ v, (recordedValues s.trace).head? = some v →
      t.workflowTaskError = s.workflowTaskError ∧ t.unhandledRejection = s.unhandledRejection)
    (hunrecorded : recordedValues s.trace = [] →
      t.workflowTaskError = .undefined ∨ t.unhandledRejection.isTruthy = true)
    (hquery : t.query = true → recordedValues s.trace = []) : Accountable t := by
  have hrecorded : recordedValues t.trace = recordedValues s.trace := by
    rw [htrace]
    refine recordedValues_append ?_
    intro m hm
    rw [List.mem_singleton.1 hm]
    cases n with
    | recorded c v => cases hboundary
    | _ => rfl
  refine ⟨?_, ?_, ?_, ?_, ?_⟩
  · intro c v hin
    rw [htrace, current_boundary _ hboundary] at hin
    cases hin
  · rw [htrace]
    exact h.reported.snoc hreported
  · intro v hv
    rw [hrecorded] at hv
    rcases hfirst v hv with ⟨herror, hunhandled⟩
    rw [herror, hunhandled]
    exact h.first v hv
  · intro hnil
    rw [hrecorded] at hnil
    exact hunrecorded hnil
  · intro hq
    rw [hrecorded]
    exact hquery hq

theorem hasRecorded (h : Accountable s)
    (hv : (recordedValues s.trace).head? = some v) : s.hasRecorded = true := by
  rcases h.first v hv with ⟨herror, htruthy, hunhandled⟩
  have hdefined : v ≠ .undefined := by
    rintro rfl
    cases htruthy
  simp [Vm.hasRecorded, herror, hunhandled, hdefined]

theorem fail (h : Accountable s) (hg : s.hasRecorded = true → s.rejections = []) (e : JsValue) :
    Accountable (s.fail e) := by
  have hreported : Reported s.trace (.completed (if s.query then .rejected e else .failed e)) := by
    cases hq : s.query with
    | false => trivial
    | true =>
      intro c v hin
      have hfalse := (h.thrown c v hin).1
      rw [hq] at hfalse
      cases hfalse
  unfold Vm.fail Vm.reportRejections
  split
  · apply h.bound (n := .completed (if s.query then .rejected e else .failed e)) rfl rfl hreported
    · intro v _
      exact ⟨rfl, rfl⟩
    · exact h.unrecorded
    · exact h.query
  · rename_i reason hlast
    apply h.bound (n := .completed (if s.query then .rejected e else .failed e)) rfl rfl hreported
    · intro v hv
      have hnil := hg (h.hasRecorded hv)
      simp [Vm.finish, hnil] at hlast
    · intro _
      exact Or.inr rfl
    · exact h.query

theorem recordedValues_nil (h : Accountable s) (hfalsy : s.workflowTaskError.isTruthy = false) :
    recordedValues s.trace = [] := by
  cases hv : recordedValues s.trace with
  | nil => rfl
  | cons v vs =>
    have hfirst := h.first v (by simp [hv])
    rw [hfirst.1, hfirst.2.1] at hfalsy
    cases hfalsy

theorem caused {c : Caller} {v : JsValue} (h : Accountable s) (hmicrotasks : s.microtasks = [])
    (hrejections : s.rejections = []) (hunhandled : ¬ s.unhandledRejection.isTruthy = true)
    (hrecorded : recordedValues s.trace = []) (hin : .thrown c v ∈ current s.trace) :
    ∃ command, (.thrown c v, command) ∈ s.commands ∧ CausedBy c v command := by
  have hnone : s.reactions = [] := by simp [Vm.reactions, hmicrotasks]
  rcases (h.thrown c v hin).2 with hacc | ⟨num, pid, _, hacc⟩ | hacc | hacc | hacc | hacc
  · rw [hnone] at hacc
    cases hacc
  · rw [hnone] at hacc
    cases hacc
  · exact hacc
  · exact absurd hrejections hacc
  · exact absurd hacc hunhandled
  · rw [hrecorded] at hacc
    cases hacc

theorem succeed (h : Accountable s) (hdrained : s.Drained) (hphase : s.phase = .conclude) :
    Accountable s.succeed := by
  rcases hdrained.conclude hphase with ⟨_, hmicrotasks, hfalsy⟩
  unfold Vm.succeed
  split
  · rename_i hq
    have hnil := h.query hq
    have hreported : Reported s.trace (.completed (.successful s.commands)) := by
      refine ⟨hnil, ?_⟩
      intro c v hin
      have hfalse := (h.thrown c v hin).1
      rw [hq] at hfalse
      cases hfalse
    unfold Vm.reportRejections
    split
    · apply h.bound (n := .completed (.successful s.commands)) rfl rfl hreported
      · intro v _
        exact ⟨rfl, rfl⟩
      · exact h.unrecorded
      · exact h.query
    · apply h.bound (n := .completed (.successful s.commands)) rfl rfl hreported
      · intro v hv
        rw [hnil] at hv
        cases hv
      · intro _
        exact Or.inr rfl
      · exact h.query
  · rename_i hq
    have hnil := h.recordedValues_nil (hfalsy (by simpa using hq))
    unfold Vm.reportRejections
    split
    · rename_i hlast
      have hrejections : s.rejections = [] := List.getLast?_eq_none_iff.1 hlast
      unfold Vm.complete
      split
      · apply h.bound (n := .completed (.failed s.unhandledRejection)) rfl rfl trivial
        · intro v _
          exact ⟨rfl, rfl⟩
        · exact h.unrecorded
        · exact h.query
      · rename_i hunhandled
        apply h.bound (n := .completed (.successful s.commands)) rfl rfl
        · exact ⟨hnil, fun c v => h.caused hmicrotasks hrejections hunhandled hnil⟩
        · intro v _
          exact ⟨rfl, rfl⟩
        · exact h.unrecorded
        · exact h.query
    · rename_i reason hlast
      apply h.bound (n := .completed (.failed (.unhandledRejectionError reason))) rfl rfl trivial
      · intro v hv
        rw [hnil] at hv
        cases hv
      · intro _
        exact Or.inr rfl
      · exact h.query

theorem activated (h : Accountable s) (query : Bool)
    (htrace : t.trace = s.trace ++ [Note.activated query])
    (herror : t.workflowTaskError = s.workflowTaskError)
    (hunhandled : t.unhandledRejection = s.unhandledRejection)
    (hquery : t.query = true → recordedValues s.trace = []) : Accountable t := by
  refine h.bound htrace rfl trivial (fun _ _ => ⟨herror, hunhandled⟩) ?_ hquery
  intro hnil
  rw [herror, hunhandled]
  exact h.unrecorded hnil

theorem activate (h : Accountable s) (a : WorkflowActivation) (hrejections : s.rejections = [])
    (hg : KeepsErrors cfg s (.activate a)) : Accountable (s.activate a) := by
  have hbegin : Accountable (s.begin a) := by
    refine h.activated false rfl rfl rfl ?_
    intro hfalse
    cases hfalse
  have hempty : (s.begin a).hasRecorded = true → (s.begin a).rejections = [] := fun _ => hrejections
  unfold Vm.activate
  split
  · rename_i hany
    split
    · rename_i hall
      refine h.activated true rfl rfl rfl ?_
      intro _
      have hnone := hg hany hall
      cases hv : recordedValues s.trace with
      | nil => rfl
      | cons v vs =>
        rw [h.hasRecorded (by rw [hv]; rfl)] at hnone
        cases hnone
    · have hmixed : Accountable ({ s with query := false }.note (.activated true)) := by
        refine h.activated true rfl rfl rfl ?_
        intro hfalse
        cases hfalse
      exact hmixed.fail (fun _ => hrejections) _
  · split
    · exact hbegin.fail hempty _
    · exact hbegin.fail hempty _
    · refine hbegin.of_quiet (.trans ?_ (.nextBatch _))
      exact .of_eq rfl rfl rfl rfl rfl

end Accountable

theorem accountable_move (h : Accountable s) (hdrained : s.Drained) (hmove : Move cfg s t)
    (hg : KeepsErrors cfg s .tick) : Accountable t := by
  cases hmove with
  | quiet hq => exact h.of_quiet hq
  | command _ hq => exact (h.pushCommand _ _).of_quiet hq
  | respond queryId response hq => exact (h.pushCommand _ _).of_quiet hq
  | unhandled hq => exact (h.leaveRejected _).of_quiet hq
  | @settle t c o rest hstack hq =>
    have hquery : t.query = s.query := congrArg Core.query hq.core
    have hsettled : t.settledCalls = s.settledCalls := congrArg Core.settledCalls hq.core
    refine (h.of_quiet hq).settleCall ?_
    rintro htrue hopen v rfl
    have hthrowing := (hg.1 (hquery ▸ htrue)).1
    rw [hsettled] at hopen
    simp [Vm.throwing, hstack, hopen] at hthrowing
  | update htaken _ => exact (h.of_quiet htaken.quiet).doUpdateImpl _ _
  | reject htaken => exact (h.of_quiet htaken.quiet).pushCommand _ _
  | reaction hstack hphase hm hreaction => exact h.runMicrotask hstack hphase hm hreaction hg
  | @fail t e hq =>
    refine (h.of_quiet hq).fail ?_ e
    have herror : t.workflowTaskError = s.workflowTaskError :=
      congrArg Core.workflowTaskError hq.core
    have hunhandled : t.unhandledRejection = s.unhandledRejection :=
      congrArg Core.unhandledRejection hq.core
    have hrejections : t.rejections = s.rejections := congrArg Core.rejections hq.core
    intro hrecorded
    rw [hrejections]
    exact hg.2.1 (by simpa [Vm.hasRecorded, herror, hunhandled] using hrecorded)
  | succeed hphase _ _ => exact h.succeed hdrained hphase

theorem accountable_next (s : Vm σ) (i : Input) (hg : KeepsErrors cfg s i)
    (h : s.Drained ∧ Accountable s) :
    (next cfg s i).Drained ∧ Accountable (next cfg s i) := by
  refine ⟨Vm.drained_next s i h.1, ?_⟩
  cases i with
  | tick => exact accountable_move h.2 h.1 (Vm.step_move cfg s) hg
  | activate a =>
    simp only [next]
    split
    · rename_i hphase hstack
      exact h.2.activate a (h.1.idle hphase).2.1 hg
    · exact h.2

/-! ## No thrown value is swallowed -/

/-- In every state of a run that keeps errors: an activation has succeeded only when every value
thrown in it caused one of its commands and nothing had been recorded before; and the task error is
the first value that was recorded. -/
theorem thrown_values_reported (cfg : Config σ) (heap : σ) (inputs : List Input)
    (hg : Guarded (next cfg) (KeepsErrors cfg) (Vm.init heap) inputs) :
    let s := run (next cfg) (Vm.init heap) inputs
    Always Reported s.trace ∧
      ∀ v, (recordedValues s.trace).head? = some v → s.workflowTaskError = v := by
  have h : (run (next cfg) (Vm.init heap) inputs).Drained ∧
      Accountable (run (next cfg) (Vm.init heap) inputs) :=
    run_invariant accountable_next ⟨Vm.drained_init heap, accountable_init heap⟩ hg
  exact ⟨h.2.reported, fun v hv => (h.2.first v hv).1⟩

/-- A workflow that throws a string, and an activation after that. -/
def throwingRun : List Input :=
  activation 8 [.initializeWorkflow [] (.ok ())] ++ activation 8 [.resolve (.ok (1, .ok .null))]

theorem throwingRun_reported :
    let cfg := plainConfig (.settle (.error (.string "oops")))
    let s := run (next cfg) (Vm.init ()) throwingRun
    Guarded (next cfg) (KeepsErrors cfg) (Vm.init ()) throwingRun ∧
    recordedValues s.trace = [.string "oops"] ∧ s.workflowTaskError = .string "oops" ∧
    Always Reported s.trace ∧
    s.trace.filter Note.isBoundary =
      [.activated false, .completed (.failed (.string "oops")), .activated false,
        .completed (.failed (.string "oops"))] := by
  intro cfg s
  have hg : Guarded (next cfg) (KeepsErrors cfg) (Vm.init ()) throwingRun := by decide
  have h := thrown_values_reported cfg () throwingRun hg
  exact ⟨hg, by decide, h.2 _ (by decide), h.1, by decide⟩

/-- `throw null`: the value is recorded and never rethrown, and the activation succeeds without a
command. -/
theorem throwNull_swallowed :
    let s := run (next (plainConfig (.settle (.error .null)))) (Vm.init ())
      (activation 8 [.initializeWorkflow [] (.ok ())])
    s.trace = [.activated false, .thrown (.workflow 0) .null, .recorded (.workflow 0) .null,
      .completed (.successful [])] ∧ ¬ Always Reported s.trace := by
  intro s
  have htrace : s.trace = [.activated false, .thrown (.workflow 0) .null,
      .recorded (.workflow 0) .null, .completed (.successful [])] := by decide
  refine ⟨htrace, ?_⟩
  intro h
  have hreported := h [.activated false, .thrown (.workflow 0) .null, .recorded (.workflow 0) .null]
    (.completed (.successful [])) [] htrace
  have hnil : recordedValues [.activated false, .thrown (.workflow 0) .null,
      .recorded (.workflow 0) .null] = [] := hreported.1
  cases hnil

end TemporalSdk.Activation
