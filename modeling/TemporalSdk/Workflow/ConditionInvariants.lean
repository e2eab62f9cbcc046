import TemporalSdk.Machine.Changed
import TemporalSdk.Workflow.Conditions

/-!
# ConditionInvariants — what every step of the race keeps

Four facts about reachable states, each closed under the elementary operations: the log of timers, the log of
conditions, the listeners that guard what is kept for a call, and the way of the two outcomes through the
queue.
-/

namespace TemporalSdk.Workflow
namespace Conditions

open Machine

/-! ## Frames -/

/-- Reactions to the rejection of a scope, as opposed to the steps of the race. -/
def Microtask.isListener : Microtask → Bool
  | .mapped .. | .raced .. | .resumed .. => false
  | _ => true

/-- Only listeners are chained on scopes. -/
def Quiet (s : State) : Prop := ∀ r ∈ s.reactions, r.2.isListener = true

/-- Scopes, their reactions and queued listeners differ, and nothing else. -/
structure ScopesOnly (s t : State) : Prop where
  timers : t.timers = s.timers
  nextTimer : t.nextTimer = s.nextTimer
  blockedConditions : t.blockedConditions = s.blockedConditions
  nextCondition : t.nextCondition = s.nextCondition
  calls : t.calls = s.calls
  history : t.history = s.history
  quiet : Quiet s → Quiet t
  queued : Quiet s → ∃ extra, t.microtasks = s.microtasks ++ extra ∧ ∀ m ∈ extra, m.isListener = true

namespace ScopesOnly

theorem refl (s : State) : ScopesOnly s s :=
  ⟨rfl, rfl, rfl, rfl, rfl, rfl, id, fun _ => ⟨[], by simp, by simp⟩⟩

theorem trans {s t u : State} (h : ScopesOnly s t) (h' : ScopesOnly t u) : ScopesOnly s u := by
  refine ⟨h'.timers.trans h.timers, h'.nextTimer.trans h.nextTimer,
    h'.blockedConditions.trans h.blockedConditions, h'.nextCondition.trans h.nextCondition,
    h'.calls.trans h.calls, h'.history.trans h.history, fun hq => h'.quiet (h.quiet hq), ?_⟩
  intro hq
  rcases h.queued hq with ⟨extra, heq, hall⟩
  rcases h'.queued (h.quiet hq) with ⟨extra', heq', hall'⟩
  refine ⟨extra ++ extra', by rw [heq', heq, List.append_assoc], ?_⟩
  intro m hm
  rcases List.mem_append.1 hm with hm | hm
  · exact hall m hm
  · exact hall' m hm

end ScopesOnly

namespace State

theorem catchCancel_only (s : State) (scope : ScopeId) {m : Microtask} (hm : m.isListener = true) :
    ScopesOnly s (s.catchCancel scope m) := by
  unfold catchCancel
  split
  · split
    · refine ⟨rfl, rfl, rfl, rfl, rfl, rfl, id, fun _ => ⟨[m], rfl, ?_⟩⟩
      intro m' hm'
      rw [List.mem_singleton.1 hm']
      exact hm
    · refine ⟨rfl, rfl, rfl, rfl, rfl, rfl, ?_, fun _ => ⟨[], by simp, by simp⟩⟩
      intro hq r hr
      rcases List.mem_append.1 hr with hr | hr
      · exact hq r hr
      · rw [List.mem_singleton.1 hr]
        exact hm
  · exact .refl s

theorem rejectScope_only (s : State) (scope : ScopeId) : ScopesOnly s (s.rejectScope scope) := by
  unfold rejectScope
  split
  · split
    · exact ⟨rfl, rfl, rfl, rfl, rfl, rfl, id, fun _ => ⟨[], by simp, by simp⟩⟩
    · refine ⟨rfl, rfl, rfl, rfl, rfl, rfl, ?_, fun hq => ⟨_, rfl, ?_⟩⟩
      · intro hq r hr
        exact hq r (List.mem_filter.1 hr).1
      · intro m hm
        rcases List.mem_map.1 hm with ⟨r, hr, rfl⟩
        exact hq r (List.mem_filter.1 hr).1
  · exact .refl s

theorem newScope_only (s : State) (parent : ScopeId) (cancellable : Bool) :
    ScopesOnly s (s.newScope parent cancellable) := by
  have hgrow : ∀ (scopes : List Scope) {m : Microtask}, m.isListener = true →
      ScopesOnly s ({ s with scopes := scopes }.catchCancel parent m) := by
    intro scopes m hm
    exact ScopesOnly.trans (t := { s with scopes := scopes })
      ⟨rfl, rfl, rfl, rfl, rfl, rfl, id, fun _ => ⟨[], by simp, by simp⟩⟩
      (catchCancel_only _ parent hm)
  unfold newScope
  split
  · simp only
    split <;> exact hgrow _ rfl
  · exact .refl s

/-- What `settle` leaves alone. -/
structure Settles (s t : State) : Prop where
  scopes : t.scopes = s.scopes
  reactions : t.reactions = s.reactions
  timers : t.timers = s.timers
  nextTimer : t.nextTimer = s.nextTimer
  blockedConditions : t.blockedConditions = s.blockedConditions
  nextCondition : t.nextCondition = s.nextCondition
  history : t.history = s.history ∨ ∃ id arm o, t.history = s.history ++ [.settled id arm o]

theorem settle_settles (s : State) (arm : Arm) (w : Waiter) (o : Outcome) :
    Settles s (s.settle arm w o) := by
  unfold settle
  split
  · exact ⟨rfl, rfl, rfl, rfl, rfl, rfl, Or.inl rfl⟩
  · split
    · exact ⟨rfl, rfl, rfl, rfl, rfl, rfl, Or.inl rfl⟩
    · split
      · exact ⟨rfl, rfl, rfl, rfl, rfl, rfl, Or.inl rfl⟩
      · exact ⟨rfl, rfl, rfl, rfl, rfl, rfl, Or.inr ⟨_, _, _, rfl⟩⟩

/-- The cancel listener that is chained before the operation starts. -/
def listen (s : State) (scope : ScopeId) (cancellable : Bool) (m : Microtask) : State :=
  if cancellable then s.catchCancel scope m else s

theorem listen_only (s : State) (scope : ScopeId) (cancellable : Bool) {m : Microtask}
    (hm : m.isListener = true) : ScopesOnly s (s.listen scope cancellable m) := by
  unfold State.listen
  split
  · exact catchCancel_only s scope hm
  · exact .refl s

/-- What `timerNextHandler` may do. -/
theorem timerNextHandler_cases (s : State) (scope : ScopeId) (seq : Seq) (d : Option Nat)
    (summary : Except JsError Unit) (w : Waiter) :
    s.timerNextHandler scope seq d summary w = s ∨
    s.timerNextHandler scope seq d summary w = s.catchCancel scope (.refuse .timer w) ∨
    ∃ sc, s.scopes[scope]? = some sc ∧
      ((∃ e, s.timerNextHandler scope seq d summary w =
        (s.listen scope sc.cancellable (.timerListener seq)).settle .timer w (.error e)) ∨
      s.timerNextHandler scope seq d summary w =
        { s.listen scope sc.cancellable (.timerListener seq) with
          timers := Function.update s.timers seq (some w) }.log (.startTimer seq)) := by
  unfold timerNextHandler
  cases hsc : s.scopes[scope]? with
  | none => exact Or.inl rfl
  | some sc =>
    simp only
    by_cases hc : sc.consideredCancelled = true
    · rw [if_pos hc]
      exact Or.inr (Or.inl rfl)
    · rw [if_neg hc]
      refine Or.inr (Or.inr ⟨sc, rfl, ?_⟩)
      have hlisten : (if sc.cancellable = true then s.catchCancel scope (.timerListener seq) else s)
          = s.listen scope sc.cancellable (.timerListener seq) := rfl
      rw [hlisten]
      have htimers := (listen_only s scope sc.cancellable (m := .timerListener seq) rfl).timers
      cases msNumberToTs d with
      | error e => exact Or.inl ⟨e, rfl⟩
      | ok ts =>
        cases summary with
        | error e => exact Or.inl ⟨e, rfl⟩
        | ok _ =>
          refine Or.inr ?_
          simp only [htimers]

@[simp] theorem takeCondition_scopes (s : State) (w : Waiter) :
    (s.takeCondition w).scopes = s.scopes := by
  unfold takeCondition
  split
  · rfl
  · split <;> rfl

@[simp] theorem takeCondition_nextCondition (s : State) (w : Waiter) :
    (s.takeCondition w).nextCondition = s.nextCondition + 1 := by
  unfold takeCondition
  split
  · rfl
  · split <;> rfl

@[simp] theorem takeCondition_blockedConditions (s : State) (w : Waiter) :
    (s.takeCondition w).blockedConditions = s.blockedConditions := by
  unfold takeCondition
  split
  · rfl
  · split <;> rfl

@[simp] theorem takeCondition_history (s : State) (w : Waiter) :
    (s.takeCondition w).history = s.history := by
  unfold takeCondition
  split
  · rfl
  · split <;> rfl

theorem takeCondition_call {s : State} {id : CallId} {c : Call} (hc : s.calls[id]? = some c) :
    s.takeCondition (.call id) = { s with
      nextCondition := s.nextCondition + 1
      calls := s.calls.set id { c with condition := some s.nextCondition } } := by
  unfold takeCondition
  simp only [hc]

/-- What `conditionInner` may do. -/
theorem conditionInner_cases (s : State) (scope : ScopeId) (fn : Except JsError Bool) (w : Waiter) :
    s.conditionInner scope fn w = s ∨
    s.conditionInner scope fn w = s.catchCancel scope (.refuse .condition w) ∨
    ∃ sc, s.scopes[scope]? = some sc ∧
      ∃ t, t = (s.takeCondition w).listen scope sc.cancellable
          (.conditionListener s.nextCondition w) ∧
      ((∃ e, s.conditionInner scope fn w = t.settle .condition w (.error e)) ∨
        s.conditionInner scope fn w =
          (t.log (.unblocked s.nextCondition)).settle .condition w (.ok ()) ∨
        s.conditionInner scope fn w =
          { t with blockedConditions := t.blockedConditions ++ [(s.nextCondition, w)] }) := by
  unfold conditionInner
  cases hsc : s.scopes[scope]? with
  | none => exact Or.inl rfl
  | some sc =>
    simp only
    by_cases hc : sc.consideredCancelled = true
    · rw [if_pos hc]
      exact Or.inr (Or.inl rfl)
    · rw [if_neg hc]
      refine Or.inr (Or.inr ⟨sc, rfl, _, rfl, ?_⟩)
      cases fn with
      | error e => exact Or.inl ⟨e, rfl⟩
      | ok b =>
        cases b with
        | true => exact Or.inr (Or.inl rfl)
        | false => exact Or.inr (Or.inr rfl)

end State

/-! ## Timers: started once, and then fired or cancelled once -/

/-- How often a timer was started, fired and cancelled. -/
def timerLog (history : List Entry) (seq : Seq) : Nat × Nat × Nat :=
  (history.count (.startTimer seq), history.count (.fired seq), history.count (.cancelTimer seq))

/-- The entry is not about timers. -/
def Entry.isPlain : Entry → Bool
  | .startTimer _ | .cancelTimer _ | .fired _ => false
  | _ => true

variable {e : Entry}

theorem timerLog_plain {history : List Entry} (he : e.isPlain = true) (seq : Seq) :
    timerLog (history ++ [e]) seq = timerLog history seq := by
  cases e with
  | startTimer | cancelTimer | fired => cases he
  | unblocked | settled => simp [timerLog, List.count_append]

structure TimersLogged (s : State) : Prop where
  running : ∀ seq w, s.timers seq = some w → timerLog s.history seq = (1, 0, 0)
  stopped : ∀ seq, s.timers seq = none → timerLog s.history seq = (0, 0, 0) ∨
    timerLog s.history seq = (1, 1, 0) ∨ timerLog s.history seq = (1, 0, 1)
  fresh : ∀ seq, s.nextTimer ≤ seq → s.timers seq = none ∧ timerLog s.history seq = (0, 0, 0)

namespace TimersLogged

variable {s t : State}

theorem congr (h : TimersLogged s) (htimers : t.timers = s.timers)
    (hnext : s.nextTimer ≤ t.nextTimer)
    (hlog : ∀ seq, timerLog t.history seq = timerLog s.history seq) : TimersLogged t := by
  refine ⟨?_, ?_, ?_⟩
  · intro seq w hseq
    rw [hlog]
    exact h.running seq w (htimers ▸ hseq)
  · intro seq hseq
    rw [hlog]
    exact h.stopped seq (htimers ▸ hseq)
  · intro seq hseq
    rw [hlog, htimers]
    exact h.fresh seq (Nat.le_trans hnext hseq)

theorem scopesOnly (h : TimersLogged s) (hs : ScopesOnly s t) : TimersLogged t :=
  h.congr hs.timers (Nat.le_of_eq hs.nextTimer.symm) fun seq => by rw [hs.history]

theorem log (h : TimersLogged s) (he : e.isPlain = true) : TimersLogged (s.log e) :=
  h.congr rfl (Nat.le_refl _) (timerLog_plain he)

theorem settle (h : TimersLogged s) (arm : Arm) (w : Waiter) (o : Outcome) :
    TimersLogged (s.settle arm w o) := by
  have hs := State.settle_settles s arm w o
  refine h.congr hs.timers (Nat.le_of_eq hs.nextTimer.symm) ?_
  intro seq
  rcases hs.history with heq | ⟨id, arm, o, heq⟩
  · rw [heq]
  · rw [heq, timerLog_plain rfl]

/-- A timer starts or stops, and the log says so. -/
theorem set (h : TimersLogged s) {seq : Seq} (hlt : seq < s.nextTimer) (new : Option Waiter)
    (hother : ∀ q, q ≠ seq → timerLog (s.history ++ [e]) q = timerLog s.history q)
    (hrunning : new ≠ none → timerLog (s.history ++ [e]) seq = (1, 0, 0))
    (hstopped : new = none →
      timerLog (s.history ++ [e]) seq = (1, 1, 0) ∨ timerLog (s.history ++ [e]) seq = (1, 0, 1)) :
    TimersLogged ({ s with timers := Function.update s.timers seq new }.log e) := by
  refine ⟨?_, ?_, ?_⟩
  · intro q w hq
    have hq : Function.update s.timers seq new q = some w := hq
    by_cases heq : q = seq
    · rw [heq, Function.update_self] at hq
      rw [heq]
      exact hrunning (by rw [hq]; nofun)
    · rw [Function.update_of_ne heq] at hq
      exact (hother q heq).trans (h.running q w hq)
  · intro q hq
    have hq : Function.update s.timers seq new q = none := hq
    by_cases heq : q = seq
    · rw [heq, Function.update_self] at hq
      rw [heq]
      exact Or.inr (hstopped hq)
    · rw [Function.update_of_ne heq] at hq
      simp only [State.log, hother q heq]
      exact h.stopped q hq
  · intro q hge
    have hne : q ≠ seq := fun heq => Nat.not_lt.2 hge (heq ▸ hlt)
    have hfresh := h.fresh q hge
    exact ⟨(Function.update_of_ne hne _ _).trans hfresh.1, (hother q hne).trans hfresh.2⟩

theorem start (h : TimersLogged s) {seq : Seq} (hlt : seq < s.nextTimer)
    (hfresh : timerLog s.history seq = (0, 0, 0)) (w : Waiter) :
    TimersLogged ({ s with timers := Function.update s.timers seq (some w) }.log
      (.startTimer seq)) := by
  refine h.set hlt (some w) (fun q hne => ?_) (fun _ => ?_) nofun
  · simp [timerLog, List.count_append, hne.symm]
  · simp only [timerLog, Prod.mk.injEq] at hfresh
    simp [timerLog, List.count_append, hfresh]

/-- A running timer is fired or cancelled. -/
theorem stop (h : TimersLogged s) {seq : Seq} {w : Waiter} (hw : s.timers seq = some w)
    (he : e = .fired seq ∨ e = .cancelTimer seq) :
    TimersLogged ({ s with timers := Function.update s.timers seq none }.log e) := by
  have hlt : seq < s.nextTimer := by
    by_contra hge
    rw [(h.fresh seq (Nat.not_lt.1 hge)).1] at hw
    cases hw
  have hrunning := h.running seq w hw
  simp only [timerLog, Prod.mk.injEq] at hrunning
  refine h.set hlt none (fun q hne => ?_) (fun hne => absurd rfl hne) fun _ => ?_
  · rcases he with rfl | rfl <;> simp [timerLog, List.count_append, hne.symm]
  · rcases he with rfl | rfl
    · exact Or.inl (by simp [timerLog, List.count_append, hrunning])
    · exact Or.inr (by simp [timerLog, List.count_append, hrunning])

end TimersLogged

/-! ## Conditions: resolved once, and removed when they are -/

structure ConditionsLogged (s : State) : Prop where
  blocked : ∀ seq w, (seq, w) ∈ s.blockedConditions →
    seq < s.nextCondition ∧ .unblocked seq ∉ s.history
  keys : (s.blockedConditions.map Prod.fst).Nodup
  once : ∀ seq, s.history.count (.unblocked seq) ≤ 1
  fresh : ∀ seq, s.nextCondition ≤ seq → .unblocked seq ∉ s.history

/-- The entry does not resolve a condition. -/
def Entry.isQuiet : Entry → Bool
  | .unblocked _ => false
  | _ => true

namespace ConditionsLogged

variable {s t : State}

theorem congr (h : ConditionsLogged s) (hblocked : t.blockedConditions.Sublist s.blockedConditions)
    (hnext : s.nextCondition ≤ t.nextCondition)
    (hlog : ∀ seq, t.history.count (.unblocked seq) = s.history.count (.unblocked seq)) :
    ConditionsLogged t := by
  have hmem : ∀ seq, Entry.unblocked seq ∈ t.history ↔ Entry.unblocked seq ∈ s.history := by
    intro seq
    rw [← List.count_pos_iff, ← List.count_pos_iff, hlog]
  refine ⟨?_, ?_, ?_, ?_⟩
  · intro seq w hin
    rcases h.blocked seq w (hblocked.subset hin) with ⟨hlt, hnot⟩
    exact ⟨Nat.lt_of_lt_of_le hlt hnext, fun hin => hnot ((hmem seq).1 hin)⟩
  · exact h.keys.sublist (hblocked.map Prod.fst)
  · intro seq
    rw [hlog]
    exact h.once seq
  · intro seq hseq hin
    exact h.fresh seq (Nat.le_trans hnext hseq) ((hmem seq).1 hin)

theorem count_quiet {history : List Entry} (he : e.isQuiet = true) (seq : Seq) :
    (history ++ [e]).count (.unblocked seq) = history.count (.unblocked seq) := by
  cases e with
  | unblocked _ => cases he
  | _ => simp [List.count_append]

theorem scopesOnly (h : ConditionsLogged s) (hs : ScopesOnly s t) : ConditionsLogged t := by
  refine h.congr ?_ (Nat.le_of_eq hs.nextCondition.symm) fun seq => by rw [hs.history]
  rw [hs.blockedConditions]

theorem settle (h : ConditionsLogged s) (arm : Arm) (w : Waiter) (o : Outcome) :
    ConditionsLogged (s.settle arm w o) := by
  have hs := State.settle_settles s arm w o
  refine h.congr ?_ (Nat.le_of_eq hs.nextCondition.symm) ?_
  · rw [hs.blockedConditions]
  · intro seq
    rcases hs.history with heq | ⟨id, arm, o, heq⟩
    · rw [heq]
    · rw [heq, count_quiet rfl]

theorem block (h : ConditionsLogged s) {seq : Seq} (hlt : seq < s.nextCondition)
    (hkey : seq ∉ s.blockedConditions.map Prod.fst) (hfresh : .unblocked seq ∉ s.history)
    (w : Waiter) :
    ConditionsLogged { s with blockedConditions := s.blockedConditions ++ [(seq, w)] } := by
  refine ⟨?_, ?_, h.once, h.fresh⟩
  · intro seq' w' hin
    rcases List.mem_append.1 hin with hin | hin
    · exact h.blocked seq' w' hin
    · cases List.mem_singleton.1 hin
      exact ⟨hlt, hfresh⟩
  · rw [List.map_append, List.nodup_append]
    refine ⟨h.keys, by simp, ?_⟩
    intro a ha b hb heq
    have hb : b = seq := by simpa using hb
    exact hkey (hb ▸ heq ▸ ha)

/-- A condition that is not blocked, any more or yet, is resolved. -/
theorem resolve (h : ConditionsLogged s) {seq : Seq} (hlt : seq < s.nextCondition)
    (hkey : seq ∉ s.blockedConditions.map Prod.fst) (hfresh : .unblocked seq ∉ s.history) :
    ConditionsLogged (s.log (.unblocked seq)) := by
  refine ⟨?_, h.keys, ?_, ?_⟩
  · intro seq' w hin
    rcases h.blocked seq' w hin with ⟨hlt', hnot⟩
    refine ⟨hlt', ?_⟩
    intro hin'
    rcases List.mem_append.1 hin' with hin' | hin'
    · exact hnot hin'
    · cases List.mem_singleton.1 hin'
      exact hkey (List.mem_map.2 ⟨_, hin, rfl⟩)
  · intro seq'
    by_cases heq : seq' = seq
    · have hzero : s.history.count (.unblocked seq) = 0 := List.count_eq_zero.2 hfresh
      rw [heq]
      simp [State.log, List.count_append, hzero]
    · have hne : ¬ Entry.unblocked seq = .unblocked seq' := by
        intro h
        cases h
        exact heq rfl
      simp only [State.log, List.count_append, List.count_singleton, beq_iff_eq, hne, if_false]
      exact h.once seq'
  · intro seq' hge hin
    rcases List.mem_append.1 hin with hin | hin
    · exact h.fresh seq' hge hin
    · cases List.mem_singleton.1 hin
      exact Nat.lt_irrefl seq (Nat.lt_of_lt_of_le hlt hge)

theorem remove (h : ConditionsLogged s) (seq : Seq) :
    ConditionsLogged
      { s with blockedConditions := s.blockedConditions.filter fun b => b.1 != seq } :=
  h.congr List.filter_sublist (Nat.le_refl _) fun _ => rfl

end ConditionsLogged

/-! ## Listeners stay armed -/

namespace State

variable {s t : State}

/-- The listener is chained on the scope, or about to run. -/
def Listens (s : State) (scope : ScopeId) (m : Microtask) : Prop :=
  (scope, m) ∈ s.reactions ∨ m ∈ s.microtasks

/-- Reactions are chained on scopes that are not rejected. -/
def Closed (s : State) : Prop :=
  ∀ r ∈ s.reactions, ∃ sc, s.scopes[r.1]? = some sc ∧ sc.rejected = false

/-- Scopes stay, rejected ones stay rejected, and no listener is lost. -/
structure Grows (s t : State) : Prop where
  scopes : ∀ (p : ScopeId) (sc : Scope), s.scopes[p]? = some sc → ∃ sc', t.scopes[p]? = some sc' ∧
    sc'.cancellable = sc.cancellable ∧ (sc.rejected = true → sc'.rejected = true)
  listens : ∀ p m, s.Listens p m → t.Listens p m
  closed : s.Closed → t.Closed

theorem Grows.of_same (hscopes : t.scopes = s.scopes) (hreactions : t.reactions = s.reactions)
    (hqueue : ∀ m, m ∈ s.microtasks → m ∈ t.microtasks) : Grows s t := by
  refine ⟨?_, ?_, ?_⟩
  · intro p sc hsc
    exact ⟨sc, hscopes ▸ hsc, rfl, id⟩
  · rintro p m (hin | hin)
    · exact Or.inl (hreactions ▸ hin)
    · exact Or.inr (hqueue m hin)
  · intro hclosed r hr
    rw [hscopes]
    exact hclosed r (hreactions ▸ hr)

theorem Grows.trans {u : State} (h : Grows s t) (h' : Grows t u) : Grows s u := by
  refine ⟨?_, fun p m hin => h'.listens p m (h.listens p m hin), fun hc => h'.closed (h.closed hc)⟩
  intro p sc hsc
  rcases h.scopes p sc hsc with ⟨sc', hsc', hsame, hrejected⟩
  rcases h'.scopes p sc' hsc' with ⟨sc'', hsc'', hsame', hrejected'⟩
  exact ⟨sc'', hsc'', hsame'.trans hsame, fun h => hrejected' (hrejected h)⟩

theorem grows_catchCancel (s : State) (scope : ScopeId) (m : Microtask) :
    Grows s (s.catchCancel scope m) := by
  unfold catchCancel
  split
  · rename_i sc hsc
    split
    · exact .of_same rfl rfl fun m' hm' => List.mem_append_left _ hm'
    · rename_i hopen
      refine ⟨fun p sc hp => ⟨sc, hp, rfl, id⟩, ?_, ?_⟩
      · rintro p m' (hin | hin)
        · exact Or.inl (List.mem_append_left _ hin)
        · exact Or.inr hin
      · intro hclosed r hr
        rcases List.mem_append.1 hr with hr | hr
        · exact hclosed r hr
        · rw [List.mem_singleton.1 hr]
          exact ⟨sc, hsc, by simpa using hopen⟩
  · exact .of_same rfl rfl fun _ hm => hm

theorem listens_catchCancel {scope : ScopeId} {sc : Scope} (hsc : s.scopes[scope]? = some sc)
    (m : Microtask) : (s.catchCancel scope m).Listens scope m := by
  unfold catchCancel
  rw [hsc]
  simp only
  split
  · exact Or.inr (List.mem_append_right _ (List.mem_singleton.2 rfl))
  · exact Or.inl (List.mem_append_right _ (List.mem_singleton.2 rfl))

theorem grows_rejectScope (s : State) (scope : ScopeId) : Grows s (s.rejectScope scope) := by
  unfold rejectScope
  split
  · rename_i sc hsc
    have hset : ∀ new : Scope, new.cancellable = sc.cancellable →
        (sc.rejected = true → new.rejected = true) → ∀ (p : ScopeId) (old : Scope),
          s.scopes[p]? = some old → ∃ sc', (s.scopes.set scope new)[p]? = some sc' ∧
            sc'.cancellable = old.cancellable ∧ (old.rejected = true → sc'.rejected = true) := by
      intro new hsame hrejected p old hp
      refine (Changed.set hsc new).exists_of_exists (fun _ c hc hkept => ?_) ⟨old, hp, rfl, id⟩
      rw [hsc] at hc
      cases hc
      exact ⟨hsame.trans hkept.1, hrejected ∘ hkept.2⟩
    split
    · rename_i hrejected
      refine ⟨hset _ rfl id, fun p m hin => hin, ?_⟩
      intro hclosed r hr
      rcases hclosed r hr with ⟨old, hold, hopen⟩
      have hne : ¬ scope = r.1 := by
        intro heq
        rw [← heq, hsc] at hold
        cases hold
        rw [hrejected] at hopen
        cases hopen
      exact ⟨old, by simp [hne, hold], hopen⟩
    · refine ⟨hset _ rfl (fun _ => rfl), ?_, ?_⟩
      · rintro p m (hin | hin)
        · by_cases heq : p = scope
          · refine Or.inr (List.mem_append_right _ (List.mem_map.2 ⟨(p, m), ?_, rfl⟩))
            exact List.mem_filter.2 ⟨hin, by simp [heq]⟩
          · exact Or.inl (List.mem_filter.2 ⟨hin, by simp [heq]⟩)
        · exact Or.inr (List.mem_append_left _ hin)
      · intro hclosed r hr
        rcases List.mem_filter.1 hr with ⟨hr, hne⟩
        rcases hclosed r hr with ⟨old, hold, hopen⟩
        have hne : ¬ scope = r.1 := by
          intro heq
          simp [heq] at hne
        exact ⟨old, by simp [hne, hold], hopen⟩
  · exact .of_same rfl rfl fun _ hm => hm

theorem rejected_rejectScope {scope : ScopeId} {sc : Scope} (hsc : s.scopes[scope]? = some sc) :
    ∃ sc', (s.rejectScope scope).scopes[scope]? = some sc' ∧ sc'.rejected = true := by
  have hlt : scope < s.scopes.length := (List.getElem?_eq_some_iff.1 hsc).1
  unfold rejectScope
  rw [hsc]
  simp only
  split
  · rename_i hrejected
    exact ⟨{ sc with cancelRequested := true }, by simp [hlt], hrejected⟩
  · exact ⟨{ sc with cancelRequested := true, rejected := true }, by simp [hlt], rfl⟩

theorem grows_newScope (s : State) (parent : ScopeId) (cancellable : Bool) :
    Grows s (s.newScope parent cancellable) := by
  have hgrow : ∀ (scope : Scope) (m : Microtask),
      Grows s ({ s with scopes := s.scopes ++ [scope] }.catchCancel parent m) := by
    intro scope m
    refine Grows.trans (t := { s with scopes := s.scopes ++ [scope] }) ?_ (grows_catchCancel _ _ _)
    have hleft : ∀ (p : ScopeId) (sc : Scope), s.scopes[p]? = some sc →
        (s.scopes ++ [scope])[p]? = some sc := fun p sc hp =>
      (List.getElem?_append_left (List.getElem?_eq_some_iff.1 hp).1).trans hp
    refine ⟨fun p sc hp => ⟨sc, hleft p sc hp, rfl, id⟩, fun p m hin => hin, ?_⟩
    intro hclosed r hr
    rcases hclosed r hr with ⟨sc, hsc, hopen⟩
    exact ⟨sc, hleft r.1 sc hsc, hopen⟩
  unfold newScope
  split
  · simp only
    split <;> exact hgrow _ _
  · exact .of_same rfl rfl fun _ hm => hm

theorem newScope_getElem {parent : ScopeId} (hlt : parent < s.scopes.length) (cancellable : Bool) :
    ∃ sc, (s.newScope parent cancellable).scopes[s.scopes.length]? = some sc ∧
      sc.cancellable = cancellable := by
  have hscopes : ∀ (t : State) (m : Microtask), (t.catchCancel parent m).scopes = t.scopes := by
    intro t m
    unfold catchCancel
    split
    · split <;> rfl
    · rfl
  unfold newScope
  rw [List.getElem?_eq_getElem hlt]
  simp only
  split
  all_goals
    rw [hscopes]
    exact ⟨_, List.getElem?_concat_length, rfl⟩

end State

/-- What is kept for a call is guarded by a listener of its scope; once the call has a result, the scope
has been cancelled. -/
structure Armed (s : State) : Prop where
  closed : s.Closed
  timers : ∀ seq id, s.timers seq = some (.call id) → ∃ c, s.calls[id]? = some c ∧
    s.Listens c.scope (.timerListener seq)
  blocked : ∀ seq id, (seq, .call id) ∈ s.blockedConditions → ∃ c, s.calls[id]? = some c ∧
    s.Listens c.scope (.conditionListener seq (.call id))
  ended : ∀ (id : CallId) (c : Call), s.calls[id]? = some c → c.result.isSome = true →
    ∃ sc, s.scopes[c.scope]? = some sc ∧ sc.rejected = true
  -- The numbers of timers are not reused.
  owner : ∀ (id : CallId) (c : Call) w, s.calls[id]? = some c → s.timers c.timer = some w →
    w = .call id
  bound : ∀ (id : CallId) (c : Call), s.calls[id]? = some c → c.timer < s.nextTimer
  inScope : ∀ (id : CallId) (c : Call), s.calls[id]? = some c →
    ∃ sc, s.scopes[c.scope]? = some sc ∧ sc.cancellable = true

namespace Armed

variable {s t : State}

open State

/-- The scopes grow, and of what is kept for calls nothing is added. -/
theorem congr (h : Armed s) (hg : Grows s t) (htimers : ∀ seq w, t.timers seq = some w →
      s.timers seq = some w) (hnext : s.nextTimer ≤ t.nextTimer)
    (hblocked : ∀ b ∈ t.blockedConditions, b ∈ s.blockedConditions) (hcalls : t.calls = s.calls) :
    Armed t := by
  refine ⟨hg.closed h.closed, ?_, ?_, ?_, ?_, ?_, ?_⟩
  · intro seq id hseq
    rcases h.timers seq id (htimers seq _ hseq) with ⟨c, hc, hlistens⟩
    exact ⟨c, hcalls ▸ hc, hg.listens _ _ hlistens⟩
  · intro seq id hin
    rcases h.blocked seq id (hblocked _ hin) with ⟨c, hc, hlistens⟩
    exact ⟨c, hcalls ▸ hc, hg.listens _ _ hlistens⟩
  · intro id c hc hresult
    rcases h.ended id c (hcalls ▸ hc) hresult with ⟨sc, hsc, hrejected⟩
    rcases hg.scopes _ sc hsc with ⟨sc', hsc', _, hkept⟩
    exact ⟨sc', hsc', hkept hrejected⟩
  · intro id c w hc hw
    exact h.owner id c w (hcalls ▸ hc) (htimers _ _ hw)
  · intro id c hc
    exact Nat.lt_of_lt_of_le (h.bound id c (hcalls ▸ hc)) hnext
  · intro id c hc
    rcases h.inScope id c (hcalls ▸ hc) with ⟨sc, hsc, hcancellable⟩
    rcases hg.scopes _ sc hsc with ⟨sc', hsc', hsame, _⟩
    exact ⟨sc', hsc', hsame.trans hcancellable⟩

theorem scopesOnly (h : Armed s) (hs : ScopesOnly s t) (hg : Grows s t) : Armed t := by
  refine h.congr hg ?_ (Nat.le_of_eq hs.nextTimer.symm) ?_ hs.calls
  · intro seq w hw
    rw [← hs.timers]
    exact hw
  · intro b hb
    rw [← hs.blockedConditions]
    exact hb

/-- A call is changed in fields that are not looked at here, or added. -/
theorem change (h : Armed s) {id : CallId} {c' : Call} {calls : List Call} (hcalls : Changed s.calls id c' calls)
    (hscope : ∀ c, s.calls[id]? = some c → c'.scope = c.scope)
    (hended : c'.result.isSome = true → ∃ sc, s.scopes[c'.scope]? = some sc ∧ sc.rejected = true)
    (howner : ∀ w, s.timers c'.timer = some w → w = .call id) (hbound : c'.timer < s.nextTimer)
    (hinScope : ∃ sc, s.scopes[c'.scope]? = some sc ∧ sc.cancellable = true) : Armed { s with calls := calls } := by
  refine ⟨h.closed, ?_, ?_, ?_, ?_, ?_, ?_⟩
  · intro seq i hseq
    exact hcalls.exists_of_exists (fun _ c hc hlistens => hscope c hc ▸ hlistens) (h.timers seq i hseq)
  · intro seq i hin
    exact hcalls.exists_of_exists (fun _ c hc hlistens => hscope c hc ▸ hlistens) (h.blocked seq i hin)
  · intro i d hd hsome
    rcases hcalls.cases hd with ⟨_, rfl⟩ | ⟨_, hd⟩
    · exact hended hsome
    · exact h.ended i d hd hsome
  · intro i d w hd hw
    rcases hcalls.cases hd with ⟨rfl, rfl⟩ | ⟨_, hd⟩
    · exact howner w hw
    · exact h.owner i d w hd hw
  · intro i d hd
    rcases hcalls.cases hd with ⟨_, rfl⟩ | ⟨_, hd⟩
    · exact hbound
    · exact h.bound i d hd
  · intro i d hd
    rcases hcalls.cases hd with ⟨_, rfl⟩ | ⟨_, hd⟩
    · exact hinScope
    · exact h.inScope i d hd

theorem setCall (h : Armed s) {id : CallId} {c c' : Call} (hc : s.calls[id]? = some c)
    (hscope : c'.scope = c.scope) (htimer : c'.timer = c.timer)
    (hresult : c'.result.isSome = true → ∃ sc, s.scopes[c.scope]? = some sc ∧ sc.rejected = true) :
    Armed { s with calls := s.calls.set id c' } := by
  refine h.change (Changed.set hc c') (fun d hd => ?_) ?_ (fun w hw => ?_) ?_ ?_
  · rw [hscope, Option.some.inj (hc.symm.trans hd)]
  · rwa [hscope]
  · exact h.owner id c w hc (htimer ▸ hw)
  · exact htimer ▸ h.bound id c hc
  · exact hscope ▸ h.inScope id c hc

theorem settle (h : Armed s) (arm : Arm) (w : Waiter) (o : Outcome) : Armed (s.settle arm w o) := by
  unfold State.settle
  split
  · exact h
  · rename_i id
    split
    · exact h
    · rename_i c hc
      split
      · exact h
      · have hset : Armed { s with calls := s.calls.set id (c.setPromise o arm) } := by
          refine h.setCall hc ?_ ?_ ?_
          · cases arm <;> rfl
          · cases arm <;> rfl
          · intro hsome
            refine h.ended id c hc ?_
            cases arm <;> exact hsome
        exact hset.congr (.of_same rfl rfl fun m hm => List.mem_append_left _ hm) (fun _ _ h => h)
          (Nat.le_refl _) (fun _ h => h) rfl

/-- A timer is registered. -/
theorem start (h : Armed s) {seq : Seq} {w : Waiter}
    (hfree : ∀ (id : CallId) (c : Call), s.calls[id]? = some c → c.timer = seq → w = .call id)
    (hlistens : ∀ id, w = .call id → ∃ c, s.calls[id]? = some c ∧
      s.Listens c.scope (.timerListener seq)) :
    Armed { s with timers := Function.update s.timers seq (some w) } := by
  refine { h with timers := ?_, owner := ?_ }
  · intro seq' id hseq'
    have hseq' : Function.update s.timers seq (some w) seq' = some (.call id) := hseq'
    by_cases heq : seq' = seq
    · rw [heq, Function.update_self] at hseq'
      rw [heq]
      exact hlistens id (Option.some.inj hseq')
    · rw [Function.update_of_ne heq] at hseq'
      exact h.timers seq' id hseq'
  · intro id c w' hc hw'
    have hw' : Function.update s.timers seq (some w) c.timer = some w' := hw'
    by_cases heq : c.timer = seq
    · rw [heq, Function.update_self] at hw'
      rw [← Option.some.inj hw']
      exact hfree id c hc heq
    · rw [Function.update_of_ne heq] at hw'
      exact h.owner id c w' hc hw'

theorem block (h : Armed s) {seq : Seq} {w : Waiter}
    (hlistens : ∀ id, w = .call id → ∃ c, s.calls[id]? = some c ∧
      s.Listens c.scope (.conditionListener seq (.call id))) :
    Armed { s with blockedConditions := s.blockedConditions ++ [(seq, w)] } := by
  refine { h with blocked := ?_ }
  intro seq' id hin
  rcases List.mem_append.1 hin with hin | hin
  · exact h.blocked seq' id hin
  · have heq : (seq', Waiter.call id) = (seq, w) := List.mem_singleton.1 hin
    injection heq with hseq hw
    rw [hseq]
    exact hlistens id hw.symm

/-- A call is added, in a scope that is cancellable. -/
theorem addCall (h : Armed s) {c : Call} {sc : Scope} (hsc : s.scopes[c.scope]? = some sc)
    (hcancellable : sc.cancellable = true) (hresult : c.result.isSome = true → sc.rejected = true)
    (hfree : s.timers c.timer = none) (hbound : c.timer < s.nextTimer) :
    Armed { s with calls := s.calls ++ [c] } := by
  refine h.change (Changed.concat s.calls c) (fun d hd => ?_) (fun hsome => ⟨sc, hsc, hresult hsome⟩) (fun w hw => ?_)
    hbound ⟨sc, hsc, hcancellable⟩
  · exact absurd hd getElem?_length_ne
  · rw [hfree] at hw
    cases hw

/-- A microtask is taken from the queue; what it guarded is gone. -/
theorem pop (h : Armed s) {m : Microtask} {rest : List Microtask} (hm : s.microtasks = m :: rest)
    (htimer : ∀ seq w, m = .timerListener seq → s.timers seq ≠ some w)
    (hcondition : ∀ seq w, m = .conditionListener seq w → (seq, w) ∉ s.blockedConditions) :
    Armed { s with microtasks := rest } := by
  have hkept : ∀ (p : ScopeId) (m' : Microtask), m' ≠ m → s.Listens p m' →
      ({ s with microtasks := rest } : State).Listens p m' := by
    rintro p m' hne (hin | hin)
    · exact Or.inl hin
    · rw [hm] at hin
      rcases List.mem_cons.1 hin with heq | hin
      · exact absurd heq hne
      · exact Or.inr hin
  refine { h with timers := ?_, blocked := ?_ }
  · intro seq id hseq
    rcases h.timers seq id hseq with ⟨c, hc, hlistens⟩
    refine ⟨c, hc, hkept _ _ ?_ hlistens⟩
    intro heq
    exact htimer seq _ heq.symm hseq
  · intro seq id hin
    rcases h.blocked seq id hin with ⟨c, hc, hlistens⟩
    refine ⟨c, hc, hkept _ _ ?_ hlistens⟩
    intro heq
    exact hcondition seq _ heq.symm hin

end Armed

/-! ## The way of the outcomes through the queue -/

def Arm.other : Arm → Arm
  | .timer => .condition
  | .condition => .timer

theorem Arm.eq_other {a b : Arm} (h : a ≠ b) : a = b.other := by
  cases a <;> cases b <;> first | rfl | exact absurd rfl h

/-- A microtask that carries an outcome of the call: `false` before the `then`, `true` before the
race. -/
def Microtask.hop (id : CallId) : Microtask → Option (Bool × Arm × Outcome)
  | .mapped arm i o => if i = id then some (false, arm, o) else none
  | .raced arm i o => if i = id then some (true, arm, o) else none
  | _ => none

def State.lane (s : State) (id : CallId) : List (Bool × Arm × Outcome) :=
  s.microtasks.filterMap (Microtask.hop id)

def Entry.settlement (id : CallId) : Entry → Option (Arm × Outcome)
  | .settled i arm o => if i = id then some (arm, o) else none
  | _ => none

/-- The arm that was settled first. -/
def firstSettled (history : List Entry) (id : CallId) : Option (Arm × Outcome) :=
  history.findSome? (Entry.settlement id)

/-- The first outcome is never overtaken by the other one. -/
def Shape (arm : Arm) (o : Outcome) (other : Option Outcome) (lane : List (Bool × Arm × Outcome)) :
    Prop :=
  match other with
  | none => lane = [(false, arm, o)] ∨ lane = [(true, arm, o)]
  | some o' =>
    lane = [(false, arm, o), (false, arm.other, o')] ∨
    lane = [(false, arm.other, o'), (true, arm, o)] ∨
    lane = [(true, arm, o), (false, arm.other, o')] ∨
    lane = [(true, arm, o), (true, arm.other, o')]

def LaneOk (c : Call) (first : Option (Arm × Outcome)) (lane : List (Bool × Arm × Outcome)) : Prop :=
  match first with
  | none => c.timerPromise = none ∧ c.conditionPromise = none ∧ c.race = none ∧ lane = []
  | some (arm, o) => c.promise arm = some o ∧
      match c.race with
      | some r => r = arm.result o
      | none => Shape arm o (c.promise arm.other) lane

structure Raced (s : State) : Prop where
  lanes : ∀ (id : CallId) (c : Call), s.calls[id]? = some c →
    LaneOk c (firstSettled s.history id) (s.lane id)
  fresh : ∀ id, s.calls.length ≤ id → firstSettled s.history id = none ∧ s.lane id = []
  resumes : ∀ id r, .resumed id r ∈ s.microtasks → ∃ c, s.calls[id]? = some c ∧ c.race = some r
  results : ∀ (id : CallId) (c : Call) r, s.calls[id]? = some c → c.result = some r →
    c.race = some r

theorem firstSettled_append (history : List Entry) (e : Entry) (id : CallId) :
    firstSettled (history ++ [e]) id = (firstSettled history id).or (e.settlement id) := by
  unfold firstSettled
  rw [List.findSome?_append]
  simp [List.findSome?_cons]
  cases e.settlement id <;> rfl

namespace Raced

variable {s t : State}

theorem congr (h : Raced s) (hcalls : t.calls = s.calls)
    (hfirst : ∀ id, firstSettled t.history id = firstSettled s.history id)
    (hlane : ∀ id, t.lane id = s.lane id)
    (hresumed : ∀ id r, .resumed id r ∈ t.microtasks → .resumed id r ∈ s.microtasks) : Raced t := by
  refine ⟨?_, ?_, ?_, ?_⟩
  · intro id c hc
    rw [hfirst, hlane]
    exact h.lanes id c (hcalls ▸ hc)
  · intro id hid
    rw [hfirst, hlane]
    exact h.fresh id (hcalls ▸ hid)
  · intro id r hin
    rw [hcalls]
    exact h.resumes id r (hresumed id r hin)
  · intro id c r hc
    exact h.results id c r (hcalls ▸ hc)

theorem lane_append_listeners {extra : List Microtask} (hall : ∀ m ∈ extra, m.isListener = true)
    (id : CallId) : extra.filterMap (Microtask.hop id) = [] := by
  refine List.filterMap_eq_nil_iff.2 ?_
  intro m hm
  have hl := hall m hm
  cases m with
  | mapped | raced => cases hl
  | _ => rfl

theorem scopesOnly (h : Raced s) (hq : Quiet s) (hs : ScopesOnly s t) : Raced t := by
  rcases hs.queued hq with ⟨extra, hqueue, hall⟩
  refine h.congr hs.calls (fun id => by rw [hs.history]) ?_ ?_
  · intro id
    unfold State.lane
    rw [hqueue, List.filterMap_append, lane_append_listeners hall, List.append_nil]
  · intro id r hin
    rw [hqueue] at hin
    rcases List.mem_append.1 hin with hin | hin
    · exact hin
    · cases hall _ hin

theorem lane_enqueue (s : State) (m : Microtask) (id : CallId) :
    (s.enqueue m).lane id = s.lane id ++ (m.hop id).toList := by
  simp only [State.lane, State.enqueue, List.filterMap_append]
  cases hm : m.hop id <;> simp [hm]

theorem log (h : Raced s) (he : ∀ id, e.settlement id = none) : Raced (s.log e) := by
  refine h.congr rfl ?_ (fun _ => rfl) (fun _ _ hin => hin)
  intro id
  simp only [State.log, firstSettled_append, he, Option.or_none]

variable {c : Call} {id : CallId}

/-- One call is changed or added, and what is said about the others stays. -/
theorem change (h : Raced s) {c' : Call} (hcalls : Changed s.calls id c' t.calls)
    (hfirst : ∀ i, i ≠ id → firstSettled t.history i = firstSettled s.history i)
    (hlane : ∀ i, i ≠ id → t.lane i = s.lane i) (hok : LaneOk c' (firstSettled t.history id) (t.lane id))
    (hresumed : ∀ i r, .resumed i r ∈ t.microtasks → .resumed i r ∈ s.microtasks ∨ i = id ∧ c'.race = some r)
    (hrace : ∀ c r, s.calls[id]? = some c → c.race = some r → c'.race = some r)
    (hresult : ∀ r, c'.result = some r → c'.race = some r) : Raced t := by
  refine ⟨?_, ?_, ?_, ?_⟩
  · intro i d hd
    rcases hcalls.cases hd with ⟨rfl, rfl⟩ | ⟨hne, hd⟩
    · exact hok
    · rw [hfirst i hne, hlane i hne]
      exact h.lanes i d hd
  · intro i hi
    rcases hcalls.length_le hi with ⟨hne, hi⟩
    rw [hfirst i hne, hlane i hne]
    exact h.fresh i hi
  · intro i r hin
    rcases hresumed i r hin with hin | ⟨rfl, hr⟩
    · exact hcalls.exists_of_exists (fun _ c hc => hrace c r hc) (h.resumes i r hin)
    · exact ⟨c', hcalls.self, hr⟩
  · intro i d r hd hr
    rcases hcalls.cases hd with ⟨_, rfl⟩ | ⟨_, hd⟩
    · exact hresult r hr
    · exact h.results i d r hd hr

variable {lane : List (Bool × Arm × Outcome)} {first : Option (Arm × Outcome)} {arm : Arm}

/-- An arm is settled: its outcome goes to the end of the queue. -/
theorem laneOk_settle (h : LaneOk c first lane) (hpromise : c.promise arm = none) (o : Outcome) :
    LaneOk (c.setPromise o arm) (first.or (some (arm, o))) (lane ++ [(false, arm, o)]) := by
  have hset : (c.setPromise o arm).promise arm = some o := by cases arm <;> rfl
  have hkept : (c.setPromise o arm).promise arm.other = c.promise arm.other := by cases arm <;> rfl
  have hrace : (c.setPromise o arm).race = c.race := by cases arm <;> rfl
  cases first with
  | none =>
    rcases h with ⟨htimer, hcondition, hnone, rfl⟩
    have hother : c.promise arm.other = none := by cases arm <;> assumption
    refine ⟨hset, ?_⟩
    rw [hrace, hnone]
    simp only [hkept, hother, Shape, List.nil_append, true_or]
  | some f =>
    rcases f with ⟨farm, fo⟩
    rcases h with ⟨hfirst, hrest⟩
    have hne : arm ≠ farm := by
      intro heq
      rw [heq, hfirst] at hpromise
      cases hpromise
    have heq : farm = arm.other := Arm.eq_other (fun h => hne h.symm)
    have hback : arm.other.other = arm := by cases arm <;> rfl
    subst heq
    refine ⟨hkept.trans hfirst, ?_⟩
    rw [hrace]
    cases hr : c.race with
    | some r =>
      rw [hr] at hrest
      exact hrest
    | none =>
      rw [hr, hback, hpromise] at hrest
      simp only [hback, hset, Shape]
      rcases hrest with rfl | rfl
      · exact Or.inl rfl
      · exact Or.inr (Or.inr (Or.inl rfl))

theorem settle (h : Raced s) (arm : Arm) (w : Waiter) (o : Outcome) : Raced (s.settle arm w o) := by
  unfold State.settle
  split
  · exact h
  · rename_i id
    split
    · exact h
    · rename_i c hc
      split
      · exact h
      · rename_i hopen
        have hpromise : c.promise arm = none := by
          cases hp : c.promise arm with
          | none => rfl
          | some _ => simp [hp] at hopen
        have hrace : (c.setPromise o arm).race = c.race := by cases arm <;> rfl
        refine h.change (Changed.set hc _) (fun i hne => ?_) (fun i hne => ?_) ?_ (fun i r hin => ?_) (fun d r hd hr => ?_)
          fun r hr => ?_
        · simp [State.log, State.enqueue, firstSettled_append, Entry.settlement, hne.symm]
        · refine (lane_enqueue _ _ i).trans ?_
          simp [Microtask.hop, hne.symm, State.lane]
        · have hlane : (State.enqueue { s with calls := s.calls.set id (c.setPromise o arm) } (.mapped arm id o)).lane id =
              s.lane id ++ [(false, arm, o)] := by
            rw [lane_enqueue]
            simp [Microtask.hop, State.lane]
          have hfirst : firstSettled (s.history ++ [.settled id arm o]) id =
              (firstSettled s.history id).or (some (arm, o)) := by
            simp [firstSettled_append, Entry.settlement]
          have hok := laneOk_settle (h.lanes id c hc) hpromise o
          rw [← hlane, ← hfirst] at hok
          exact hok
        · rcases List.mem_append.1 hin with hin | hin
          · exact Or.inl hin
          · cases List.mem_singleton.1 hin
        · rw [hrace, Option.some.inj (hc.symm.trans hd), hr]
        · rw [hrace]
          refine h.results id c r hc ?_
          cases arm <;> exact hr

variable {rest : List Microtask}

theorem pop (h : Raced s) {m : Microtask} (hm : s.microtasks = m :: rest)
    (hl : m.isListener = true) : Raced { s with microtasks := rest } := by
  refine h.congr rfl (fun _ => rfl) ?_ ?_
  · intro id
    have hnone : m.hop id = none := by
      cases m with
      | mapped | raced => cases hl
      | _ => rfl
    simp only [State.lane, hm, List.filterMap_cons, hnone]
  · intro id r hin
    rw [hm]
    exact List.mem_cons_of_mem m hin

variable {o : Outcome}

/-- What a lane is made of when its first microtask runs. -/
theorem laneOk_mapped (h : LaneOk c first ((false, arm, o) :: lane)) :
    LaneOk c first (lane ++ [(true, arm, o)]) := by
  cases first with
  | none =>
    rcases h with ⟨_, _, _, hnil⟩
    cases hnil
  | some f =>
    rcases f with ⟨farm, fo⟩
    rcases h with ⟨hfirst, hrest⟩
    refine ⟨hfirst, ?_⟩
    cases hr : c.race with
    | some r =>
      rw [hr] at hrest
      exact hrest
    | none =>
      rw [hr] at hrest
      simp only [Shape] at hrest ⊢
      cases hother : c.promise farm.other with
      | none =>
        rw [hother] at hrest
        rcases hrest with heq | heq
        · cases heq
          exact Or.inr rfl
        · cases heq
      | some o' =>
        rw [hother] at hrest
        rcases hrest with heq | heq | heq | heq
        · cases heq
          exact Or.inr (Or.inl rfl)
        · cases heq
          exact Or.inr (Or.inr (Or.inr rfl))
        · cases heq
        · cases heq

theorem laneOk_raced (h : LaneOk c first ((true, arm, o) :: lane)) :
    (∃ r, c.race = some r ∧ LaneOk c first lane) ∨
      (c.race = none ∧ LaneOk { c with race := some (arm.result o) } first lane) := by
  cases first with
  | none =>
    rcases h with ⟨_, _, _, hnil⟩
    cases hnil
  | some f =>
    rcases f with ⟨farm, fo⟩
    rcases h with ⟨hfirst, hrest⟩
    have hpromise : ({ c with race := some (arm.result o) } : Call).promise farm = some fo := by
      rw [← hfirst]
      cases farm <;> rfl
    cases hr : c.race with
    | some r =>
      rw [hr] at hrest
      refine Or.inl ⟨r, rfl, hfirst, ?_⟩
      rw [hr]
      exact hrest
    | none =>
      rw [hr] at hrest
      refine Or.inr ⟨rfl, hpromise, ?_⟩
      -- The arm at the front is the one that was settled first.
      simp only [Shape] at hrest ⊢
      cases hother : c.promise farm.other with
      | none =>
        rw [hother] at hrest
        rcases hrest with heq | heq
        · cases heq
        · cases heq
          rfl
      | some o' =>
        rw [hother] at hrest
        rcases hrest with heq | heq | heq | heq
        · cases heq
        · cases heq
        all_goals
          cases heq
          rfl

theorem lane_cons {m : Microtask} (hm : s.microtasks = m :: rest)
    (id : CallId) : s.lane id = (m.hop id).toList ++ rest.filterMap (Microtask.hop id) := by
  simp only [State.lane, hm, List.filterMap_cons]
  cases m.hop id <;> rfl

/-- The microtask at the front carries an outcome of a call. -/
theorem running (h : Raced s) {m : Microtask} (hm : s.microtasks = m :: rest) {hop : Bool × Arm × Outcome}
    (hhop : m.hop id = some hop) : ∃ c, s.calls[id]? = some c ∧
      LaneOk c (firstSettled s.history id) (hop :: rest.filterMap (Microtask.hop id)) := by
  have hlane : s.lane id = hop :: rest.filterMap (Microtask.hop id) := by
    rw [lane_cons hm, hhop]
    rfl
  cases hc : s.calls[id]? with
  | none =>
    have hfresh := (h.fresh id (List.getElem?_eq_none_iff.1 hc)).2
    rw [hlane] at hfresh
    cases hfresh
  | some c => exact ⟨c, rfl, hlane ▸ h.lanes id c hc⟩

theorem runMapped (h : Raced s) (hm : s.microtasks = .mapped arm id o :: rest) :
    Raced ({ s with microtasks := rest }.enqueue (.raced arm id o)) := by
  rcases h.running hm (if_pos rfl) with ⟨c, hc, hok⟩
  have hlane := lane_enqueue { s with microtasks := rest } (.raced arm id o)
  refine h.change (Changed.same hc) (fun _ _ => rfl) (fun i hne => ?_) ?_ (fun i r hin => ?_) (fun d r hd hr => ?_)
    fun r => h.results id c r hc
  · rw [hlane, lane_cons hm]
    simp [Microtask.hop, hne.symm, State.lane]
  · have hnew := laneOk_mapped hok
    rw [hlane]
    simpa [Microtask.hop, State.lane, State.enqueue] using hnew
  · rcases List.mem_append.1 hin with hin | hin
    · exact Or.inl (hm ▸ List.mem_cons_of_mem _ hin)
    · cases List.mem_singleton.1 hin
  · rw [Option.some.inj (hc.symm.trans hd), hr]

theorem runRaced (h : Raced s) (hm : s.microtasks = .raced arm id o :: rest) :
    Raced ({ s with microtasks := rest }.runMicrotask (.raced arm id o)) := by
  rcases h.running hm (if_pos rfl) with ⟨c, hc, hok⟩
  have hpop : ∀ i, i ≠ id → ({ s with microtasks := rest } : State).lane i = s.lane i := by
    intro i hne
    rw [lane_cons hm]
    simp [Microtask.hop, hne.symm, State.lane]
  have hrest : ∀ i r, .resumed i r ∈ rest → .resumed i r ∈ s.microtasks := by
    intro i r hin
    exact hm ▸ List.mem_cons_of_mem _ hin
  simp only [State.runMicrotask, hc]
  rcases laneOk_raced hok with ⟨r, hr, hdone⟩ | ⟨hr, hnew⟩
  · rw [if_pos (by rw [hr]; rfl)]
    refine h.change (Changed.same hc) (fun _ _ => rfl) hpop hdone (fun i r hin => Or.inl (hrest i r hin))
      (fun d r hd hr => ?_) fun r => h.results id c r hc
    rw [Option.some.inj (hc.symm.trans hd), hr]
  · rw [if_neg (by rw [hr]; nofun)]
    have hlane := lane_enqueue { s with
      microtasks := rest
      calls := s.calls.set id { c with race := some (arm.result o) } } (.resumed id (arm.result o))
    refine h.change (Changed.set hc _) (fun _ _ => rfl) (fun i hne => ?_) ?_ (fun i r hin => ?_) (fun d r hd hrace => ?_)
      fun r hresult => ?_
    · rw [hlane, ← hpop i hne]
      exact List.append_nil _
    · rw [hlane]
      exact (List.append_nil _).symm ▸ hnew
    · rcases List.mem_append.1 hin with hin | hin
      · exact Or.inl (hrest i r hin)
      · cases List.mem_singleton.1 hin
        exact Or.inr ⟨rfl, rfl⟩
    · rw [← Option.some.inj (hc.symm.trans hd), hr] at hrace
      cases hrace
    · have hrace := h.results id c r hc hresult
      rw [hr] at hrace
      cases hrace

theorem laneOk_congr {c c' : Call} (h : LaneOk c first lane)
    (hpromise : ∀ arm, c'.promise arm = c.promise arm) (hrace : c'.race = c.race) :
    LaneOk c' first lane := by
  have htimer : c'.timerPromise = c.timerPromise := hpromise .timer
  have hcondition : c'.conditionPromise = c.conditionPromise := hpromise .condition
  unfold LaneOk at h ⊢
  simp only [htimer, hcondition, hpromise, hrace]
  exact h

/-- A call is changed, except for what is raced. -/
theorem setCall (h : Raced s) {c c' : Call} (hc : s.calls[id]? = some c)
    (hpromise : ∀ arm, c'.promise arm = c.promise arm) (hrace : c'.race = c.race)
    (hresult : ∀ r, c'.result = some r → c.race = some r) :
    Raced { s with calls := s.calls.set id c' } := by
  refine h.change (Changed.set hc c') (fun _ _ => rfl) (fun _ _ => rfl) (laneOk_congr (h.lanes id c hc) hpromise hrace)
    (fun _ _ hin => Or.inl hin) (fun d r hd hr => ?_) fun r hr => hrace.trans (hresult r hr)
  rw [hrace, Option.some.inj (hc.symm.trans hd), hr]

theorem addCall (h : Raced s) (hpromises : c.timerPromise = none ∧ c.conditionPromise = none)
    (hopen : c.race = none ∧ c.result = none) : Raced { s with calls := s.calls ++ [c] } := by
  have hfresh := h.fresh _ (Nat.le_refl s.calls.length)
  have hok : LaneOk c none [] := ⟨hpromises.1, hpromises.2, hopen.1, rfl⟩
  rw [← hfresh.1, ← hfresh.2] at hok
  refine h.change (Changed.concat s.calls c) (fun _ _ => rfl) (fun _ _ => rfl) hok (fun _ _ hin => Or.inl hin)
    (fun d r hd => ?_) fun r hr => ?_
  · exact absurd hd getElem?_length_ne
  · rw [hopen.2] at hr
    cases hr

/-- A call is added whose `sleep` has thrown: there is no race. -/
theorem addThrownCall (h : Raced s) {e : JsError}
    (hpromise : c.timerPromise = some (.error e)) (hrace : c.race = some (.error e))
    (hdone : c.result = some (.error e)) :
    Raced ({ s with calls := s.calls ++ [c] }.log
      (.settled s.calls.length .timer (.error e))) := by
  refine h.change (Changed.concat s.calls c) (fun i hne => ?_) (fun _ _ => rfl) ?_ (fun _ _ hin => Or.inl hin)
    (fun d r hd => ?_) fun r hr => ?_
  · simp [State.log, firstSettled_append, Entry.settlement, hne.symm]
  · have hfirst : firstSettled (s.history ++ [.settled s.calls.length .timer (.error e)]) s.calls.length =
        some (.timer, .error e) := by
      simp [firstSettled_append, (h.fresh _ (Nat.le_refl s.calls.length)).1, Entry.settlement]
    rw [State.log, hfirst]
    refine ⟨hpromise, ?_⟩
    rw [hrace]
    rfl
  · exact absurd hd getElem?_length_ne
  · rw [hrace, ← hdone, hr]

end Raced

end Conditions
end TemporalSdk.Workflow
