import TemporalSdk.Workflow.ConditionNumbers

/-!
# ConditionRace — `condition(fn, timeout)` leaves nothing behind

The invariants of `ConditionInvariants` are carried together through every operation, and then through every
run.  Once a call has a result and the queue is empty, what they say about the call is that its condition and
its timer are gone, that the timer was fired or cancelled once if it was started, and which arm won.
-/

namespace TemporalSdk.Workflow
namespace Conditions

open Machine

structure Tidy (s : State) : Prop where
  quiet : Quiet s
  timers : TimersLogged s
  conditions : ConditionsLogged s
  armed : Armed s
  raced : Raced s
  numbered : Numbered s
  observed : Observed s

namespace Tidy

open State

variable {s t : State}

theorem init (shielded : Bool) : Tidy (State.init shielded) where
  quiet _ hin := nomatch hin
  timers := ⟨fun _ _ hw => (nomatch hw), fun _ _ => Or.inl rfl, fun _ _ => ⟨rfl, rfl⟩⟩
  conditions := ⟨fun _ _ hin => (nomatch hin), List.nodup_nil, fun _ => Nat.zero_le 1, fun _ _ hin => (nomatch hin)⟩
  armed := ⟨fun _ hin => (nomatch hin), fun _ _ hw => (nomatch hw), fun _ _ hin => (nomatch hin),
    fun _ _ hcall => (nomatch hcall), fun _ _ _ hcall => (nomatch hcall), fun _ _ hcall => (nomatch hcall),
    fun _ _ hcall => (nomatch hcall)⟩
  raced := ⟨fun _ _ hcall => (nomatch hcall), fun id _ => ⟨rfl, rfl⟩, fun _ _ hin => (nomatch hin),
    fun _ _ _ hcall => (nomatch hcall)⟩
  numbered := by
    refine ⟨fun _ _ hin => (nomatch hin), fun _ _ _ _ hin => (nomatch hin), fun _ _ _ hcall => (nomatch hcall), ?_⟩
    rintro m (hin | ⟨p, hin⟩) <;> cases hin
  observed := by
    refine ⟨fun _ _ _ hin => (nomatch hin), fun _ _ _ hcall => (nomatch hcall), fun id before after hsplit => ?_⟩
    cases before <;> cases hsplit

/-! ## Elementary operations -/

theorem scopesOnly (h : Tidy s) (hs : ScopesOnly s t) (hg : Grows s t)
    (hpending : ∀ m, t.Pending m → s.Pending m ∨ Fits s.calls m) : Tidy t :=
  ⟨hs.quiet h.quiet, h.timers.scopesOnly hs, h.conditions.scopesOnly hs, h.armed.scopesOnly hs hg,
    h.raced.scopesOnly h.quiet hs, h.numbered.scopesOnly hs hpending, h.observed.scopesOnly hs⟩

theorem newScope (h : Tidy s) (parent : ScopeId) (cancellable : Bool) :
    Tidy (s.newScope parent cancellable) := by
  refine h.scopesOnly (newScope_only s parent cancellable) (grows_newScope s parent cancellable) ?_
  intro m hm
  rcases pending_newScope hm with rfl | rfl | hm
  · exact Or.inr trivial
  · exact Or.inr trivial
  · exact Or.inl hm

theorem rejectScope (h : Tidy s) (scope : ScopeId) : Tidy (s.rejectScope scope) :=
  h.scopesOnly (rejectScope_only s scope) (grows_rejectScope s scope) fun _ hm =>
    Or.inl (pending_rejectScope hm)

variable {m : Microtask}

theorem catchCancel (h : Tidy s) (scope : ScopeId) (hm : m.isListener = true)
    (hfits : Fits s.calls m) : Tidy (s.catchCancel scope m) := by
  refine h.scopesOnly (catchCancel_only s scope hm) (grows_catchCancel s scope m) ?_
  intro m' hm'
  rcases pending_catchCancel hm' with rfl | hm'
  · exact Or.inr hfits
  · exact Or.inl hm'

theorem grows_listen (s : State) (scope : ScopeId) (cancellable : Bool) (m : Microtask) :
    Grows s (s.listen scope cancellable m) := by
  unfold State.listen
  split
  · exact grows_catchCancel s scope m
  · exact .of_same rfl rfl fun _ hm => hm

theorem listen (h : Tidy s) (scope : ScopeId) (cancellable : Bool)
    (hm : m.isListener = true) (hfits : Fits s.calls m) : Tidy (s.listen scope cancellable m) := by
  refine h.scopesOnly (listen_only s scope cancellable hm) (grows_listen s scope cancellable m) ?_
  intro m' hm'
  rcases pending_listen hm' with rfl | hm'
  · exact Or.inr hfits
  · exact Or.inl hm'

theorem quiet_settle (h : Quiet s) (arm : Arm) (w : Waiter) (o : Outcome) :
    Quiet (s.settle arm w o) := by
  intro r hr
  rw [(settle_settles s arm w o).reactions] at hr
  exact h r hr

theorem settleTimer (h : Tidy s) (w : Waiter) (o : Outcome) : Tidy (s.settle .timer w o) :=
  ⟨quiet_settle h.quiet .timer w o, h.timers.settle .timer w o, h.conditions.settle .timer w o,
    h.armed.settle .timer w o, h.raced.settle .timer w o, h.numbered.settle o nofun,
    h.observed.settle w fun hne => nomatch hne.1⟩

variable {w : Waiter}

theorem rejectCondition (h : Tidy s) (e : JsError)
    (hunblocked : ∀ seq id, w = .call id → (seq, w) ∉ s.blockedConditions) :
    Tidy (s.settle .condition w (.error e)) :=
  ⟨quiet_settle h.quiet .condition w _, h.timers.settle .condition w _,
    h.conditions.settle .condition w _, h.armed.settle .condition w _, h.raced.settle .condition w _,
    h.numbered.settle _ fun _ => hunblocked, h.observed.settle w fun hne => nomatch hne.2⟩

/-- Only the counters and the flag differ. -/
theorem congr (h : Tidy s) (hscopes : t.scopes = s.scopes) (hreactions : t.reactions = s.reactions)
    (hqueue : t.microtasks = s.microtasks) (htimers : t.timers = s.timers)
    (hblocked : t.blockedConditions = s.blockedConditions) (hcalls : t.calls = s.calls)
    (hhistory : t.history = s.history) (hnextTimer : s.nextTimer ≤ t.nextTimer)
    (hnextCondition : s.nextCondition ≤ t.nextCondition) : Tidy t := by
  refine ⟨?_, ?_, ?_, ?_, ?_, ?_, h.observed.congr hcalls hhistory⟩
  · intro r hr
    exact h.quiet r (hreactions ▸ hr)
  · exact h.timers.congr htimers hnextTimer fun seq => by rw [hhistory]
  · refine h.conditions.congr ?_ hnextCondition fun seq => by rw [hhistory]
    rw [hblocked]
  · refine h.armed.congr (.of_same hscopes hreactions fun m hm => hqueue ▸ hm) ?_ hnextTimer ?_ hcalls
    · intro seq w hw
      rwa [htimers] at hw
    · intro b hb
      rwa [hblocked] at hb
  · refine h.raced.congr hcalls (fun id => by rw [hhistory]) ?_ ?_
    · intro id
      simp only [State.lane, hqueue]
    · intro id r hin
      rwa [hqueue] at hin
  · refine h.numbered.congr ?_ hnextCondition hcalls ?_
    · intro b hb
      rwa [hblocked] at hb
    · intro m hm
      unfold Pending at hm
      rw [hqueue, hreactions] at hm
      exact Or.inl hm

theorem takeTimer (h : Tidy s) : Tidy s.takeTimer :=
  h.congr rfl rfl rfl rfl rfl rfl rfl (Nat.le_succ _) (Nat.le_refl _)

variable {seq : Seq}

theorem not_blocked_of_ge (h : Tidy s) (hge : s.nextCondition ≤ seq) :
    seq ∉ s.blockedConditions.map Prod.fst := by
  intro hin
  rcases List.mem_map.1 hin with ⟨⟨seq', w⟩, hblocked, rfl⟩
  exact Nat.lt_irrefl _ (Nat.lt_of_lt_of_le (h.conditions.blocked seq' w hblocked).1 hge)

theorem takeCondition (h : Tidy s) (hw : ∀ id, w = .call id → Untouched s id) :
    Tidy (s.takeCondition w) := by
  have hnumbered : Numbered (s.takeCondition w) := by
    refine h.numbered.takeCondition hw ?_
    intro w' hin
    exact h.not_blocked_of_ge (Nat.le_refl _) (List.mem_map.2 ⟨_, hin, rfl⟩)
  have hobserved := h.observed.takeCondition hw (h.conditions.fresh _ (Nat.le_refl _))
  cases w with
  | program => exact h.congr rfl rfl rfl rfl rfl rfl rfl (Nat.le_refl _) (Nat.le_succ _)
  | call id =>
    rcases (hw id rfl).call with ⟨c, hc, _⟩
    rw [takeCondition_call hc] at hnumbered hobserved ⊢
    refine ⟨h.quiet, ?_, ?_, ?_, ?_, hnumbered, hobserved⟩
    · exact { h.timers with }
    · exact h.conditions.congr (List.Sublist.refl _) (Nat.le_succ _) fun _ => rfl
    · have harmed : Armed { s with calls := s.calls.set id { c with condition := some s.nextCondition } } :=
        h.armed.setCall hc rfl rfl (h.armed.ended id c hc)
      exact { harmed with }
    · have hraced : Raced { s with calls := s.calls.set id { c with condition := some s.nextCondition } } :=
        h.raced.setCall hc (fun arm => by cases arm <;> rfl) rfl fun r => h.raced.results id c r hc
      exact { hraced with }

theorem setShielded (h : Tidy s) (value : Bool) : Tidy { s with shielded := value } :=
  h.congr rfl rfl rfl rfl rfl rfl rfl (Nat.le_refl _) (Nat.le_refl _)

theorem armed_log (h : Armed s) (e : Entry) : Armed (s.log e) := { h with }

theorem start (h : Tidy s) (hlt : seq < s.nextTimer) (hfresh : timerLog s.history seq = (0, 0, 0))
    (hfree : ∀ (id : CallId) (c : Call), s.calls[id]? = some c → c.timer = seq → w = .call id)
    (hlistens : ∀ id, w = .call id → ∃ c, s.calls[id]? = some c ∧
      s.Listens c.scope (.timerListener seq)) :
    Tidy ({ s with timers := Function.update s.timers seq (some w) }.log (.startTimer seq)) := by
  refine ⟨h.quiet, h.timers.start hlt hfresh w, ?_, armed_log (h.armed.start hfree hlistens) _, ?_,
    h.numbered.congr (fun _ hb => hb) (Nat.le_refl _) rfl fun _ hm => Or.inl hm, ?_⟩
  · exact h.conditions.congr (List.Sublist.refl _) (Nat.le_refl _)
      (ConditionsLogged.count_quiet rfl)
  · refine h.raced.congr rfl ?_ (fun _ => rfl) fun _ _ hin => hin
    intro id
    simp only [State.log, firstSettled_append, Entry.settlement, Option.or_none]
  · have hlogged : Observed (s.log (.startTimer seq)) := h.observed.log rfl (by rintro _ _ _ ⟨⟩)
    exact hlogged.congr rfl rfl

/-- A running timer is taken out, and its waiter is told. -/
theorem stop (h : Tidy s) (hw : s.timers seq = some w) {e : Entry}
    (he : e = .fired seq ∨ e = .cancelTimer seq) :
    Tidy ({ s with timers := Function.update s.timers seq none }.log e) := by
  have hquiet : e.isQuiet = true := by rcases he with rfl | rfl <;> rfl
  have hsettlement : ∀ id, e.settlement id = none := by rcases he with rfl | rfl <;> exact fun _ => rfl
  refine ⟨h.quiet, h.timers.stop hw he, ?_, ?_, ?_,
    h.numbered.congr (fun _ hb => hb) (Nat.le_refl _) rfl fun _ hm => Or.inl hm, ?_⟩
  · exact h.conditions.congr (List.Sublist.refl _) (Nat.le_refl _) (ConditionsLogged.count_quiet hquiet)
  · refine h.armed.congr (.of_same rfl rfl fun _ hm => hm) ?_ (Nat.le_refl _) (fun _ hb => hb) rfl
    intro seq' w' hw'
    have hw' : Function.update s.timers seq none seq' = some w' := hw'
    by_cases heq : seq' = seq
    · rw [heq, Function.update_self] at hw'
      cases hw'
    · rwa [Function.update_of_ne heq] at hw'
  · refine h.raced.congr rfl ?_ (fun _ => rfl) fun _ _ hin => hin
    intro id
    simp only [State.log, firstSettled_append, hsettlement, Option.or_none]
  · refine (h.observed.log ?_ ?_).congr rfl rfl
    · rcases he with rfl | rfl <;> rfl
    · rcases he with rfl | rfl <;> rintro _ _ _ ⟨⟩

theorem remove (h : Tidy s) (seq : Seq) :
    Tidy { s with blockedConditions := s.blockedConditions.filter fun b => b.1 != seq } :=
  ⟨h.quiet, { h.timers with }, h.conditions.remove seq,
    h.armed.congr (.of_same rfl rfl fun _ hm => hm) (fun _ _ hw => hw) (Nat.le_refl _)
      (fun _ hb => (List.mem_filter.1 hb).1) rfl,
    { h.raced with },
    h.numbered.congr (fun _ hb => (List.mem_filter.1 hb).1) (Nat.le_refl _) rfl
      fun _ hm => Or.inl hm, { h.observed with }⟩

/-- A condition that is not blocked is resolved, and its waiter told. -/
theorem resolve (h : Tidy s) (hlt : seq < s.nextCondition)
    (hkey : seq ∉ s.blockedConditions.map Prod.fst) (hfresh : .unblocked seq ∉ s.history)
    (howned : Owned s seq w) :
    Tidy ((s.log (.unblocked seq)).settle .condition w (.ok ())) := by
  have hraced : Raced (s.log (.unblocked seq)) := h.raced.log fun _ => rfl
  have hnumbered : Numbered (s.log (.unblocked seq)) :=
    h.numbered.congr (fun _ hb => hb) (Nat.le_refl _) rfl fun _ hm => Or.inl hm
  refine ⟨quiet_settle (s := s.log (.unblocked seq)) h.quiet .condition w _, ?_, ?_, ?_,
    hraced.settle .condition w _, ?_, h.observed.resolve howned⟩
  · exact (h.timers.log rfl).settle .condition w _
  · exact (h.conditions.resolve hlt hkey hfresh).settle .condition w _
  · exact (armed_log h.armed _).settle .condition w _
  · refine hnumbered.settle _ ?_
    intro _ seq' id hid hin
    -- A call waits on one condition only.
    rcases howned.call id hid with ⟨c, hc, hseq, _⟩
    rw [hid] at hin
    rcases h.numbered.blocked seq' id hin with ⟨c', hc', hseq', _⟩
    cases hc.symm.trans hc'
    rw [hseq] at hseq'
    cases hseq'
    exact hkey (List.mem_map.2 ⟨_, hin, rfl⟩)

theorem block (h : Tidy s) (hlt : seq < s.nextCondition)
    (hkey : seq ∉ s.blockedConditions.map Prod.fst) (hfresh : .unblocked seq ∉ s.history)
    (hlistens : ∀ id, w = .call id → ∃ c, s.calls[id]? = some c ∧
      s.Listens c.scope (.conditionListener seq (.call id))) (howned : Owned s seq w) :
    Tidy { s with blockedConditions := s.blockedConditions ++ [(seq, w)] } :=
  ⟨h.quiet, { h.timers with }, h.conditions.block hlt hkey hfresh w,
    h.armed.block hlistens, { h.raced with },
    h.numbered.block howned, { h.observed with }⟩

variable {rest : List Microtask}

theorem numbered_pop (h : Numbered s)
    (hm : s.microtasks = m :: rest) : Numbered { s with microtasks := rest } := by
  refine h.congr (fun _ hb => hb) (Nat.le_refl _) rfl ?_
  rintro m' (hin | hin)
  · exact Or.inl (Or.inl (hm ▸ List.mem_cons_of_mem m hin))
  · exact Or.inl (Or.inr hin)

theorem numbered_enqueue (h : Numbered s) (hfits : Fits s.calls m) : Numbered (s.enqueue m) := by
  refine h.congr (fun _ hb => hb) (Nat.le_refl _) rfl ?_
  rintro m' (hin | hin)
  · rcases List.mem_append.1 hin with hin | hin
    · exact Or.inl (Or.inl hin)
    · exact Or.inr (List.mem_singleton.1 hin ▸ hfits)
  · exact Or.inl (Or.inr hin)

theorem armed_enqueue (h : Armed s) (m : Microtask) : Armed (s.enqueue m) :=
  h.congr (.of_same rfl rfl fun _ hm => List.mem_append_left _ hm) (fun _ _ hw => hw) (Nat.le_refl _) (fun _ hb => hb) rfl

theorem pop (h : Tidy s) (hm : s.microtasks = m :: rest)
    (hl : m.isListener = true) (htimer : ∀ seq w, m = .timerListener seq → s.timers seq ≠ some w)
    (hcondition : ∀ seq w, m = .conditionListener seq w → (seq, w) ∉ s.blockedConditions) :
    Tidy { s with microtasks := rest } :=
  ⟨h.quiet, { h.timers with },
    { h.conditions with },
    h.armed.pop hm htimer hcondition, h.raced.pop hm hl, numbered_pop h.numbered hm,
    { h.observed with }⟩

/-! ## Calls of workflow code -/

/-- The waiter is workflow code, or a call that was made in the scope. -/
def Serves (s : State) (scope : ScopeId) (w : Waiter) : Prop :=
  ∀ id, w = .call id → ∃ c, s.calls[id]? = some c ∧ c.scope = scope

theorem serves_program (s : State) (scope : ScopeId) : Serves s scope .program := by
  intro id h
  cases h

variable {scope : ScopeId}

theorem listens_listen (h : Tidy s) {sc : Scope}
    (hsc : s.scopes[scope]? = some sc) (hserves : Serves s scope w)
    (hm : m.isListener = true) : ∀ id, w = .call id →
      ∃ c, (s.listen scope sc.cancellable m).calls[id]? = some c ∧
        (s.listen scope sc.cancellable m).Listens c.scope m := by
  intro id hid
  rcases hserves id hid with ⟨c, hc, rfl⟩
  rcases h.armed.inScope id c hc with ⟨sc', hsc', hcancellable⟩
  rw [hsc] at hsc'
  cases hsc'
  refine ⟨c, ?_, ?_⟩
  · rw [(listen_only s c.scope sc.cancellable hm).calls]
    exact hc
  · simp only [State.listen, hcancellable, if_true]
    exact listens_catchCancel hsc m

theorem timerNextHandler (h : Tidy s)
    (d : Option Nat) (summary : Except JsError Unit) (hlt : seq < s.nextTimer)
    (hfresh : timerLog s.history seq = (0, 0, 0))
    (hfree : ∀ (id : CallId) (c : Call), s.calls[id]? = some c → c.timer = seq → w = .call id)
    (hserves : Serves s scope w) : Tidy (s.timerNextHandler scope seq d summary w) := by
  rcases timerNextHandler_cases s scope seq d summary w with heq | heq | ⟨sc, hsc, ⟨e, heq⟩ | heq⟩
  · rw [heq]
    exact h
  · rw [heq]
    exact h.catchCancel scope rfl trivial
  · rw [heq]
    exact (h.listen (m := .timerListener seq) scope _ rfl trivial).settleTimer w (.error e)
  · have honly := listen_only s scope sc.cancellable (m := .timerListener seq) rfl
    have hlistening := h.listen scope sc.cancellable (m := .timerListener seq) rfl trivial
    rw [heq, ← honly.timers]
    refine hlistening.start ?_ ?_ ?_ (h.listens_listen hsc hserves rfl)
    · rw [honly.nextTimer]
      exact hlt
    · rw [honly.history]
      exact hfresh
    · rw [honly.calls]
      exact hfree

theorem sleep (h : Tidy s) (scope : ScopeId) (ms : Duration) (summary : Except JsError Unit) :
    Tidy (s.sleep scope ms summary .program).1 := by
  unfold State.sleep
  cases msToNumber ms with
  | error e => exact h.takeTimer
  | ok n =>
    refine h.takeTimer.timerNextHandler _ _ (Nat.lt_succ_self _) ?_ ?_ (serves_program _ _)
    · exact (h.timers.fresh s.nextTimer (Nat.le_refl _)).2
    · intro id c hc heq
      have hbound := h.armed.bound id c hc
      rw [heq] at hbound
      exact absurd hbound (Nat.lt_irrefl _)

theorem serves_takeCondition (hserves : Serves s scope w) :
    Serves (s.takeCondition w) scope w := by
  intro id hid
  rcases hserves id hid with ⟨c, hc, hscope⟩
  have hlt := (List.getElem?_eq_some_iff.1 hc).1
  rw [hid, takeCondition_call hc]
  exact ⟨{ c with condition := some s.nextCondition }, by simp [hlt], hscope⟩

theorem conditionInner (h : Tidy s) (fn : Except JsError Bool)
    (hserves : Serves s scope w) (hw : ∀ id, w = .call id → Untouched s id) :
    Tidy (s.conditionInner scope fn w) := by
  rcases conditionInner_cases s scope fn w with heq | heq | ⟨sc, hsc, t, ht, hcases⟩
  · rw [heq]
    exact h
  · rw [heq]
    refine h.catchCancel scope (m := .refuse .condition w) rfl ?_
    cases w with
    | program => trivial
    | call id =>
      rcases (hw id rfl).call with ⟨c, hc, hnumber, _⟩
      exact ⟨c, hc, hnumber⟩
  · have honly := listen_only (s.takeCondition w) scope sc.cancellable
      (m := .conditionListener s.nextCondition w) rfl
    have howned := h.numbered.owned_takeCondition hw
    have htaken := h.takeCondition hw
    have htidy : Tidy t := by
      rw [ht]
      refine htaken.listen scope sc.cancellable rfl ?_
      cases w with
      | program => trivial
      | call id =>
        rcases howned.call id rfl with ⟨c, hc, hnumber, _⟩
        exact ⟨c, hc, hnumber⟩
    have howned' : Owned t s.nextCondition w := by
      refine ⟨?_, ?_⟩
      · rw [ht, honly.calls]
        exact howned.call
      · rw [ht, honly.calls]
        exact howned.owner
    have hblocked : t.blockedConditions = s.blockedConditions := by
      rw [ht, honly.blockedConditions, takeCondition_blockedConditions]
    have hlt : s.nextCondition < t.nextCondition := by
      rw [ht, honly.nextCondition, takeCondition_nextCondition]
      exact Nat.lt_succ_self _
    have hkey : s.nextCondition ∉ t.blockedConditions.map Prod.fst := by
      rw [hblocked]
      exact h.not_blocked_of_ge (Nat.le_refl _)
    have hfresh : Entry.unblocked s.nextCondition ∉ t.history := by
      rw [ht, honly.history, takeCondition_history]
      exact h.conditions.fresh _ (Nat.le_refl _)
    rcases hcases with ⟨e, heq⟩ | heq | heq
    · rw [heq]
      refine htidy.rejectCondition e ?_
      intro seq id hid
      rw [hblocked, hid]
      exact (hw id hid).blocked seq
    · rw [heq]
      exact htidy.resolve hlt hkey hfresh howned'
    · rw [heq]
      refine htidy.block hlt hkey hfresh ?_ howned'
      intro id hid
      have hsc' : (s.takeCondition w).scopes[scope]? = some sc := by
        rw [takeCondition_scopes]
        exact hsc
      rw [ht, ← hid]
      exact htaken.listens_listen hsc' (serves_takeCondition hserves) rfl id hid

theorem conditionInner_program (h : Tidy s) (scope : ScopeId) (fn : Except JsError Bool) :
    Tidy (s.conditionInner scope fn .program) :=
  h.conditionInner fn (serves_program s scope) nofun

/-- A call keeps its scope while its timer is started. -/
theorem serves_timerNextHandler {id : CallId} (seq : Seq) (d : Option Nat)
    (summary : Except JsError Unit) (hserves : Serves s scope (.call id)) :
    Serves (s.timerNextHandler scope seq d summary (.call id)) scope (.call id) := by
  have hsettle : ∀ (t : State) (o : Outcome), t.calls = s.calls →
      Serves (t.settle .timer (.call id) o) scope (.call id) := by
    intro t o ht i hi
    cases hi
    rcases hserves id rfl with ⟨c, hc, hscope⟩
    rw [← ht] at hc
    have hlt := (List.getElem?_eq_some_iff.1 hc).1
    unfold State.settle
    simp only [hc]
    split
    · exact ⟨c, hc, hscope⟩
    · exact ⟨c.setPromise o .timer, by simp [State.log, State.enqueue, hlt], hscope⟩
  have hsame : ∀ t : State, t.calls = s.calls → Serves t scope (.call id) := by
    intro t ht i hi
    rw [ht]
    exact hserves i hi
  rcases timerNextHandler_cases s scope seq d summary (.call id) with heq | heq |
    ⟨sc, hsc, ⟨e, heq⟩ | heq⟩
  · rw [heq]
    exact hserves
  · rw [heq]
    exact hsame _ (catchCancel_only s scope rfl).calls
  · rw [heq]
    exact hsettle _ _ (listen_only s scope sc.cancellable rfl).calls
  · rw [heq]
    exact hsame _ (listen_only s scope sc.cancellable (m := .timerListener seq) rfl).calls

theorem addCall (h : Tidy s) {c : Call} {sc : Scope} (hsc : s.scopes[c.scope]? = some sc)
    (hcancellable : sc.cancellable = true) (hfree : s.timers c.timer = none)
    (hbound : c.timer < s.nextTimer)
    (hpromises : c.timerPromise = none ∧ c.conditionPromise = none)
    (hopen : c.race = none ∧ c.result = none) (hnumber : c.condition = none) :
    Tidy { s with calls := s.calls ++ [c] } := by
  refine ⟨h.quiet, ?_, ?_, ?_, h.raced.addCall hpromises hopen, h.numbered.addCall hnumber,
    h.observed.addCall hnumber⟩
  · exact { h.timers with }
  · exact { h.conditions with }
  · refine h.armed.addCall hsc hcancellable ?_ hfree hbound
    intro hsome
    rw [hopen.2] at hsome
    cases hsome

theorem addThrownCall (h : Tidy s) {c : Call} {sc : Scope} {e : JsError}
    (hsc : s.scopes[c.scope]? = some sc) (hcancellable : sc.cancellable = true)
    (hrejected : sc.rejected = true) (hfree : s.timers c.timer = none)
    (hbound : c.timer < s.nextTimer) (hpromise : c.timerPromise = some (.error e))
    (hrace : c.race = some (.error e)) (hdone : c.result = some (.error e))
    (hnumber : c.condition = none) :
    Tidy ({ s with calls := s.calls ++ [c] }.log (.settled s.calls.length .timer (.error e))) := by
  refine ⟨h.quiet, ?_, ?_, ?_, h.raced.addThrownCall hpromise hrace hdone, ?_, ?_⟩
  · exact h.timers.congr rfl (Nat.le_refl _) (timerLog_plain rfl)
  · exact h.conditions.congr (List.Sublist.refl _) (Nat.le_refl _) (ConditionsLogged.count_quiet rfl)
  · exact armed_log (h.armed.addCall hsc hcancellable (fun _ => hrejected) hfree hbound) _
  · exact (h.numbered.addCall hnumber).congr (fun _ hb => hb) (Nat.le_refl _) rfl fun _ hm => Or.inl hm
  · refine (h.observed.addCall hnumber).log rfl ?_
    intro id arm o heq
    cases heq
    exact ⟨c, List.getElem?_concat_length, hpromise⟩

theorem rejectScope_addCall (s : State) (c : Call) (e : Entry) (scope : ScopeId) :
    ({ s with calls := s.calls ++ [c] }.log e).rejectScope scope =
      { s.rejectScope scope with calls := (s.rejectScope scope).calls ++ [c] }.log e := by
  unfold State.rejectScope State.log
  simp only
  cases s.scopes[scope]? with
  | none => rfl
  | some sc =>
    rcases sc with ⟨_, _, _, rejected⟩
    cases rejected <;> rfl

theorem conditionTimeout (h : Tidy s) {parent : ScopeId} (hlt : parent < s.scopes.length)
    (timeout : Duration) (summary : Except JsError Unit) (fn : Except JsError Bool) :
    Tidy (s.conditionTimeout parent timeout summary fn) := by
  have honly := newScope_only s parent true
  have hopened : Tidy (s.newScope parent true).takeTimer := (h.newScope parent true).takeTimer
  have hfresh := h.timers.fresh s.nextTimer (Nat.le_refl _)
  rcases newScope_getElem hlt true with ⟨sc, hsc, hcancellable⟩
  have hfree : (s.newScope parent true).takeTimer.timers s.nextTimer = none := by
    rw [State.takeTimer, honly.timers]
    exact hfresh.1
  have hbound : s.nextTimer < (s.newScope parent true).takeTimer.nextTimer := by
    rw [State.takeTimer, honly.nextTimer]
    exact Nat.lt_succ_self _
  have hid : s.calls.length = (s.newScope parent true).takeTimer.calls.length := by
    rw [State.takeTimer, honly.calls]
  unfold State.conditionTimeout
  simp only
  cases msToNumber timeout with
  | error e =>
    simp only
    rw [rejectScope_addCall, hid]
    have hrejected := hopened.rejectScope s.scopes.length
    have honly' := rejectScope_only (s.newScope parent true).takeTimer s.scopes.length
    rcases rejected_rejectScope (s := (s.newScope parent true).takeTimer) hsc with ⟨sc', hsc', hdone⟩
    rcases (grows_rejectScope (s.newScope parent true).takeTimer s.scopes.length).scopes _ sc hsc with
      ⟨sc'', hsc'', hsame, _⟩
    have heq : sc' = sc'' := Option.some.inj (hsc'.symm.trans hsc'')
    rw [← honly'.calls]
    refine hrejected.addThrownCall hsc' ?_ hdone ?_ ?_ rfl rfl rfl rfl
    · rw [heq, hsame, hcancellable]
    · rw [honly'.timers]
      exact hfree
    · rw [honly'.nextTimer]
      exact hbound
  | ok n =>
    simp only
    have hadded := hopened.addCall (c := ⟨s.scopes.length, s.nextTimer, none, none, none, none, none⟩)
      hsc hcancellable hfree hbound ⟨rfl, rfl⟩ ⟨rfl, rfl⟩ rfl
    rw [hid]
    have hserves : Serves { (s.newScope parent true).takeTimer with
        calls := (s.newScope parent true).takeTimer.calls ++
          [⟨s.scopes.length, s.nextTimer, none, none, none, none, none⟩] } s.scopes.length
        (.call (s.newScope parent true).takeTimer.calls.length) := by
      intro i hi
      cases hi
      exact ⟨_, List.getElem?_concat_length, rfl⟩
    refine (hadded.timerNextHandler _ _ hbound ?_ ?_ hserves).conditionInner fn
      (serves_timerNextHandler _ _ _ hserves) ?_
    · simp only [State.takeTimer, honly.history]
      exact hfresh.2
    · intro i c hc hseq
      rcases (Changed.concat _ _).cases hc with ⟨rfl, rfl⟩ | ⟨_, hc⟩
      · rfl
      · simp only [State.takeTimer, honly.calls] at hc
        have hold := h.armed.bound i c hc
        rw [hseq] at hold
        exact absurd hold (Nat.lt_irrefl _)
    · intro i hi
      cases hi
      exact (Untouched.addCall hopened.numbered rfl rfl).timerNextHandler _ _ _ _ _

theorem condition (h : Tidy s) (hlt : scope < s.scopes.length)
    (timeout : Option Duration) (patched : Bool) (summary : Except JsError Unit)
    (fn : Except JsError Bool) : Tidy (s.condition scope timeout patched summary fn) := by
  unfold State.condition
  cases timeout with
  | none => exact h.conditionInner_program scope fn
  | some timeout =>
    simp only
    split
    · exact h.conditionInner_program scope fn
    · exact h.conditionTimeout hlt timeout summary fn

/-! ## Jobs and microtasks -/

theorem tryUnblock (h : Tidy s) (seq : Seq) (fn : Bool) : Tidy (s.tryUnblock seq fn) := by
  unfold State.tryUnblock
  cases hfind : s.blockedConditions.find? fun b => b.1 == seq with
  | none => exact h
  | some b =>
    have hmem := List.mem_of_find?_eq_some hfind
    have hseq : b.1 = seq := by simpa using List.find?_some hfind
    rcases h.conditions.blocked b.1 b.2 hmem with ⟨hlt, hfresh⟩
    rw [hseq] at hlt hfresh
    cases fn with
    | false => exact h
    | true =>
      have howned : Owned s b.1 b.2 := h.numbered.owned hmem
      rw [hseq] at howned
      refine (h.remove seq).resolve hlt ?_ hfresh ⟨howned.call, howned.owner⟩
      intro hin
      rcases List.mem_map.1 hin with ⟨b', hb', hkey⟩
      have hne := (List.mem_filter.1 hb').2
      simp [hkey] at hne

theorem fireTimer (h : Tidy s) (seq : Seq) : Tidy (s.fireTimer seq) := by
  unfold State.fireTimer
  cases hw : s.timers seq with
  | none => exact h
  | some w => exact (h.stop hw (Or.inl rfl)).settleTimer w (.ok ())

theorem popPlain (h : Tidy s) (hm : s.microtasks = m :: rest)
    (hl : m.isListener = true) (htimer : ∀ seq, m ≠ .timerListener seq)
    (hcondition : ∀ seq w, m ≠ .conditionListener seq w) : Tidy { s with microtasks := rest } :=
  h.pop hm hl (fun seq _ heq => absurd heq (htimer seq)) fun seq w heq =>
    absurd heq (hcondition seq w)

/-- The cancel listener of `timerNextHandler` runs. -/
theorem runTimerListener (h : Tidy s) (hm : s.microtasks = .timerListener seq :: rest) :
    Tidy ({ s with microtasks := rest }.runMicrotask (.timerListener seq)) := by
  simp only [State.runMicrotask]
  cases hw : s.timers seq with
  | none =>
    refine h.pop hm rfl ?_ (by rintro _ _ ⟨⟩)
    intro seq' w heq hw'
    cases heq
    rw [hw] at hw'
    cases hw'
  | some w =>
    -- The timer is taken out before the listener is.
    have hstopped := h.stop hw (e := .cancelTimer seq) (Or.inr rfl)
    have hpopped := hstopped.pop hm rfl
      (by
        intro seq' w' heq hw'
        cases heq
        simp [State.log] at hw')
      (by rintro _ _ ⟨⟩)
    exact hpopped.settleTimer w (.error .cancelled)

/-- The cancel listener of `conditionInner` runs. -/
theorem runConditionListener (h : Tidy s) (hm : s.microtasks = .conditionListener seq w :: rest) :
    Tidy ({ s with microtasks := rest }.runMicrotask (.conditionListener seq w)) := by
  have hpopped := (h.remove seq).pop hm rfl nofun
    (by
      intro seq' w' heq hin
      cases heq
      have hne := (List.mem_filter.1 hin).2
      simp at hne)
  refine hpopped.rejectCondition .cancelled ?_
  intro seq' id hid hin
  -- The listener is that of the condition the call waits on.
  subst hid
  rcases List.mem_filter.1 hin with ⟨hin, hne⟩
  rcases h.numbered.blocked seq' id hin with ⟨c, hc, hseq', _⟩
  rcases h.numbered.fits _ (Or.inl (hm ▸ List.mem_cons_self)) with ⟨c', hc', hseq⟩
  cases hc.symm.trans hc'
  rw [hseq'] at hseq
  cases hseq
  simp at hne

theorem runRefuse (h : Tidy s) {arm : Arm} (hm : s.microtasks = .refuse arm w :: rest) :
    Tidy ({ s with microtasks := rest }.runMicrotask (.refuse arm w)) := by
  have hpopped := h.popPlain hm rfl nofun nofun
  cases arm with
  | timer => exact hpopped.settleTimer w (.error .cancelled)
  | condition =>
    refine hpopped.rejectCondition .cancelled ?_
    intro seq id hid hin
    subst hid
    rcases h.numbered.blocked seq id hin with ⟨c, hc, hseq, _⟩
    rcases h.numbered.fits _ (Or.inl (hm ▸ List.mem_cons_self)) with ⟨c', hc', hnone⟩
    cases hc.symm.trans hc'
    rw [hseq] at hnone
    cases hnone

theorem runMapped (h : Tidy s) {arm : Arm} {id : CallId} {o : Outcome}
    (hm : s.microtasks = .mapped arm id o :: rest) :
    Tidy ({ s with microtasks := rest }.runMicrotask (.mapped arm id o)) := by
  have hpopped := h.armed.pop hm nofun nofun
  exact ⟨h.quiet, { h.timers with }, { h.conditions with }, armed_enqueue hpopped _, h.raced.runMapped hm,
    numbered_enqueue (numbered_pop h.numbered hm) trivial, { h.observed with }⟩

theorem runRaced (h : Tidy s) {arm : Arm} {id : CallId} {o : Outcome}
    (hm : s.microtasks = .raced arm id o :: rest) :
    Tidy ({ s with microtasks := rest }.runMicrotask (.raced arm id o)) := by
  have hpopped := h.armed.pop hm nofun nofun
  have hraced := h.raced.runRaced hm
  have hsame (hraced : Raced { s with microtasks := rest }) : Tidy { s with microtasks := rest } :=
    ⟨h.quiet, { h.timers with }, { h.conditions with }, hpopped, hraced, numbered_pop h.numbered hm, { h.observed with }⟩
  simp only [State.runMicrotask] at hraced ⊢
  cases hc : s.calls[id]? with
  | none =>
    simp only [hc] at hraced ⊢
    exact hsame hraced
  | some c =>
    simp only [hc] at hraced ⊢
    by_cases hdecided : c.race.isSome = true
    · rw [if_pos hdecided] at hraced ⊢
      exact hsame hraced
    · rw [if_neg hdecided] at hraced ⊢
      let c' : Call := { c with race := some (arm.result o) }
      have harmed := hpopped.setCall hc (show c'.scope = c.scope from rfl) rfl (hpopped.ended id c hc)
      have hnumbered := (numbered_pop h.numbered hm).setCall hc (show c'.condition = c.condition from rfl) (Or.inl rfl)
      have hobserved := h.observed.setCall hc (show c'.condition = c.condition from rfl)
        fun arm o hsettled => by cases arm <;> exact hsettled
      exact ⟨h.quiet, { h.timers with }, { h.conditions with }, armed_enqueue harmed _, hraced,
        numbered_enqueue hnumbered trivial, { hobserved with }⟩

theorem finish (h : Tidy s) {id : CallId} {c : Call} {r : Result} (hc : s.calls[id]? = some c)
    (hrace : c.race = some r)
    (hrejected : ∃ sc, s.scopes[c.scope]? = some sc ∧ sc.rejected = true) :
    Tidy { s with calls := s.calls.set id { c with result := some r } } := by
  refine ⟨h.quiet, ?_, ?_, ?_, ?_, h.numbered.setCall hc rfl (Or.inl rfl), ?_⟩
  · exact { h.timers with }
  · exact { h.conditions with }
  · exact h.armed.setCall hc rfl rfl fun _ => hrejected
  · refine h.raced.setCall hc ?_ rfl ?_
    · intro arm
      cases arm <;> rfl
    · intro r' hr'
      rw [← hr']
      exact hrace
  · refine h.observed.setCall hc rfl ?_
    intro arm o hsettled
    cases arm <;> exact hsettled

/-- `await` resumes: `finally` cancels the scope, and the call is settled. -/
theorem runResumed (h : Tidy s) {id : CallId} {r : Result}
    (hm : s.microtasks = .resumed id r :: rest) :
    Tidy ({ s with microtasks := rest }.runMicrotask (.resumed id r)) := by
  rcases h.raced.resumes id r (hm ▸ List.mem_cons_self) with ⟨c, hc, hrace⟩
  have hpopped : Tidy { s with microtasks := rest } := by
    refine ⟨h.quiet, ?_, ?_, ?_, ?_, numbered_pop h.numbered hm, { h.observed with }⟩
    · exact { h.timers with }
    · exact { h.conditions with }
    · exact h.armed.pop hm nofun nofun
    · refine h.raced.congr rfl (fun _ => rfl) ?_ ?_
      · intro i
        exact (Raced.lane_cons hm i).symm
      · intro i r' hin
        exact hm ▸ List.mem_cons_of_mem _ hin
  have hrejected := hpopped.rejectScope c.scope
  have honly := rejectScope_only { s with microtasks := rest } c.scope
  have hcalls : (State.rejectScope { s with microtasks := rest } c.scope).calls = s.calls := honly.calls
  have hc' : (State.rejectScope { s with microtasks := rest } c.scope).calls[id]? = some c := by
    rw [hcalls]
    exact hc
  rcases h.armed.inScope id c hc with ⟨sc, hsc, _⟩
  have hfinished := hrejected.finish hc' hrace
    (rejected_rejectScope (s := { s with microtasks := rest }) hsc)
  rw [hcalls] at hfinished
  simp only [State.runMicrotask, hc]
  exact hfinished

theorem tick (h : Tidy s) : Tidy s.tick := by
  unfold State.tick
  cases hm : s.microtasks with
  | nil => exact h
  | cons m rest =>
    simp only
    cases m with
    | propagate child =>
      exact (h.popPlain hm rfl nofun nofun).rejectScope child
    | propagateUnlessShielded child =>
      have hpopped := h.popPlain hm rfl nofun nofun
      simp only [State.runMicrotask]
      split
      · exact hpopped
      · exact hpopped.rejectScope child
    | timerListener seq => exact h.runTimerListener hm
    | conditionListener seq w => exact h.runConditionListener hm
    | refuse arm w => exact h.runRefuse hm
    | mapped arm id o => exact h.runMapped hm
    | raced arm id o => exact h.runRaced hm
    | resumed id r => exact h.runResumed hm

theorem step (h : Tidy s) (e : Event) : Tidy (step s e) := by
  cases e with
  | newScope parent cancellable => exact h.newScope parent cancellable
  | cancelScope scope => exact h.rejectScope scope
  | sleep scope ms summary =>
    simp only [Conditions.step]
    split
    · exact h.sleep scope ms summary
    · exact h
  | condition scope timeout patched summary fn =>
    simp only [Conditions.step]
    split
    · rename_i hlt
      exact h.condition hlt timeout patched summary fn
    · exact h
  | tryUnblock seq fn => exact h.tryUnblock seq fn
  | fireTimer seq => exact h.fireTimer seq
  | tick => exact h.tick
  | setShielded value => exact h.setShielded value

theorem run (shielded : Bool) (es : List Event) :
    Tidy (Machine.run Conditions.step (State.init shielded) es) :=
  run_invariant (fun _ e _ h => h.step e) (init shielded) (guarded_true _ _ es)

end Tidy

/-! ## Nothing is left behind -/

variable {id : CallId}

theorem Tidy.queued_of_ended {s : State} (h : Tidy s) {c : Call}
    (hc : s.calls[id]? = some c) (hresult : c.result.isSome = true) {m : Microtask}
    (hlistens : s.Listens c.scope m) : m ∈ s.microtasks := by
  rcases hlistens with hin | hin
  · rcases h.armed.ended id c hc hresult with ⟨sc, hsc, hrejected⟩
    rcases h.armed.closed _ hin with ⟨sc', hsc', hopen⟩
    rw [hsc] at hsc'
    cases hsc'
    rw [hrejected] at hopen
    cases hopen
  · exact hin

theorem Tidy.not_blocked {s : State} (h : Tidy s) {c : Call}
    (hc : s.calls[id]? = some c) (hresult : c.result.isSome = true) (hdrained : s.microtasks = [])
    (seq : Seq) : (seq, .call id) ∉ s.blockedConditions := by
  intro hin
  rcases h.armed.blocked seq id hin with ⟨c', hc', hlistens⟩
  cases hc.symm.trans hc'
  have hqueued := h.queued_of_ended hc hresult hlistens
  rw [hdrained] at hqueued
  cases hqueued

theorem Tidy.not_running {s : State} (h : Tidy s) {c : Call}
    (hc : s.calls[id]? = some c) (hresult : c.result.isSome = true) (hdrained : s.microtasks = []) :
    s.timers c.timer = none := by
  cases hw : s.timers c.timer with
  | none => rfl
  | some w =>
    have howner := h.armed.owner id c w hc hw
    rw [howner] at hw
    rcases h.armed.timers c.timer id hw with ⟨c', hc', hlistens⟩
    cases hc.symm.trans hc'
    have hqueued := h.queued_of_ended hc hresult hlistens
    rw [hdrained] at hqueued
    cases hqueued

/-- The condition of the call was observed to be true before the promise of its timer was settled. -/
def ObservedFirst (history : List Entry) (id : CallId) (c : Call) : Prop :=
  ∃ seq before after, c.condition = some seq ∧ history = before ++ .unblocked seq :: after ∧
    ∀ o, .settled id .timer o ∉ before

theorem mem_of_firstSettled {history : List Entry} {arm : Arm} {o : Outcome}
    (h : firstSettled history id = some (arm, o)) : ∃ before after,
      history = before ++ .settled id arm o :: after ∧
        ∀ arm' o', .settled id arm' o' ∉ before := by
  rcases List.findSome?_eq_some_iff.1 h with ⟨before, e, after, hsplit, he, hnone⟩
  have heq : e = .settled id arm o := by
    cases e with
    | settled i arm' o' =>
      simp only [Entry.settlement] at he
      split at he
      · rename_i hi
        cases he
        rw [hi]
      · cases he
    | _ => cases he
  refine ⟨before, after, heq ▸ hsplit, ?_⟩
  intro arm' o' hin
  have hskip := hnone _ hin
  simp [Entry.settlement] at hskip

/-- The result is `true` when the condition was first. -/
theorem Tidy.result_true_iff {s : State} (h : Tidy s) {c : Call} {r : Result}
    (hc : s.calls[id]? = some c) (hresult : c.result = some r) :
    r = .ok true ↔ ObservedFirst s.history id c := by
  have hrace := h.raced.results id c r hc hresult
  have hlane := h.raced.lanes id c hc
  cases hfirst : firstSettled s.history id with
  | none =>
    rw [hfirst] at hlane
    have hopen : c.race = none := hlane.2.2.1
    rw [hopen] at hrace
    cases hrace
  | some f =>
    rcases f with ⟨arm, o⟩
    rw [hfirst] at hlane
    rcases hlane with ⟨hpromise, hwinner⟩
    rw [hrace] at hwinner
    have hwinner : r = arm.result o := hwinner
    rcases mem_of_firstSettled hfirst with ⟨before, after, hsplit, hnone⟩
    constructor
    · intro hr
      have hcondition : arm = .condition ∧ o = .ok () := by
        rw [hr] at hwinner
        cases arm <;> cases o <;> first | exact ⟨rfl, rfl⟩ | cases hwinner
      rcases hcondition with ⟨rfl, rfl⟩
      rcases h.observed.resolved id before after hsplit with ⟨c', seq, init, hc', hseq, hbefore⟩
      cases hc.symm.trans hc'
      refine ⟨seq, init, .settled id .condition (.ok ()) :: after, hseq, ?_, ?_⟩
      · rw [hsplit, hbefore, List.append_assoc]
        rfl
      · intro o hin
        exact hnone .timer o (hbefore ▸ List.mem_append_left _ hin)
    · rintro ⟨seq, init, rest, hseq, hsplit', hnotimer⟩
      rcases h.observed.resolves id c seq hc hseq init rest hsplit' with ⟨tail, rfl⟩
      have hok : c.promise .condition = some (.ok ()) := by
        have hin : Entry.settled id .condition (.ok ()) ∈ s.history := by
          rw [hsplit']
          simp
        rcases h.observed.settled id .condition (.ok ()) hin with ⟨c', hc', hok⟩
        cases hc.symm.trans hc'
        exact hok
      -- The first of the two is not the timer: it comes after the observation.
      cases arm with
      | condition =>
        rw [hpromise] at hok
        cases hok
        exact hwinner
      | timer =>
        refine absurd ?_ (hnotimer o)
        have hmem := List.append_eq_append_iff.1 (hsplit.symm.trans hsplit')
        rcases hmem with ⟨mid, hinit, hmid⟩ | ⟨mid, hbefore, hmid⟩
        · cases mid with
          | nil => cases hmid
          | cons e mid =>
            rw [List.cons_append] at hmid
            injection hmid with he _
            rw [hinit, ← he]
            simp
        · cases mid with
          | nil => cases hmid
          | cons e mid =>
            rw [List.cons_append] at hmid
            injection hmid with _ htail
            cases mid with
            | nil => cases htail
            | cons e' mid =>
              rw [List.cons_append] at htail
              injection htail with he' _
              exact absurd (hbefore ▸ he' ▸ by simp) (hnone .condition (.ok ()))

theorem Tidy.count_cancelTimer {s : State} (h : Tidy s) {seq : Seq} (hnone : s.timers seq = none) :
    s.history.count (.cancelTimer seq) =
      if .startTimer seq ∈ s.history ∧ .fired seq ∉ s.history then 1 else 0 := by
  have hmem : ∀ e : Entry, e ∈ s.history ↔ s.history.count e ≠ 0 := by
    intro e
    rw [Ne, List.count_eq_zero, not_not]
  rcases h.timers.stopped seq hnone with hlog | hlog | hlog
  all_goals
    simp only [timerLog, Prod.mk.injEq] at hlog
    rcases hlog with ⟨hstart, hfired, hcancel⟩
    simp [hmem, hstart, hfired, hcancel]

/-- In every run, a call of `condition(fn, timeout)` that is settled leaves nothing behind once the
microtasks have run, and its result says which of the condition and the timer was first.  A condition is
resolved at most once, and is gone when it is. -/
theorem condition_leaves_nothing_behind (shielded : Bool) (es : List Event) (s : State)
    (hs : s = run step (State.init shielded) es) :
    (∀ (id : CallId) (c : Call) (r : Result), s.calls[id]? = some c → c.result = some r →
      s.microtasks = [] →
        (∀ seq, (seq, .call id) ∉ s.blockedConditions) ∧ s.timers c.timer = none ∧
        s.history.count (.cancelTimer c.timer) =
          (if .startTimer c.timer ∈ s.history ∧ .fired c.timer ∉ s.history then 1 else 0) ∧
        (r = .ok true ↔ ObservedFirst s.history id c)) ∧
    ∀ seq, s.history.count (.unblocked seq) ≤ 1 ∧
      (.unblocked seq ∈ s.history → seq ∉ s.blockedConditions.map Prod.fst) := by
  have h : Tidy s := hs ▸ Tidy.run shielded es
  refine ⟨?_, fun seq => ⟨h.conditions.once seq, ?_⟩⟩
  · intro id c r hc hresult hdrained
    have hsome : c.result.isSome = true := by rw [hresult]; rfl
    have hstopped := h.not_running hc hsome hdrained
    exact ⟨h.not_blocked hc hsome hdrained, hstopped, h.count_cancelTimer hstopped,
      h.result_true_iff hc hresult⟩
  · intro hin hkey
    rcases List.mem_map.1 hkey with ⟨⟨seq', w⟩, hblocked, rfl⟩
    exact (h.conditions.blocked seq' w hblocked).2 hin

/-- `condition(fn, 1000)` blocks, and `fn` becomes true before the timer fires. -/
def becomesTrue : List Event :=
  [.condition 0 (some (.millis 1000)) true (.ok ()) (.ok false), .tryUnblock 1 true] ++
    List.replicate 9 .tick

theorem becomesTrue_leaves_nothing_behind :
    (run step (State.init true) becomesTrue).calls = [⟨1, 1, some 1, some (.error .cancelled),
      some (.ok ()), some (.ok true), some (.ok true)⟩] ∧
    (run step (State.init true) becomesTrue).timers 1 = none ∧
    (run step (State.init true) becomesTrue).history.count (.cancelTimer 1) = 1 ∧
    ObservedFirst (run step (State.init true) becomesTrue).history 0
      ⟨1, 1, some 1, some (.error .cancelled), some (.ok ()), some (.ok true), some (.ok true)⟩ := by
  have hcalls : (run step (State.init true) becomesTrue).calls = [⟨1, 1, some 1,
      some (.error .cancelled), some (.ok ()), some (.ok true), some (.ok true)⟩] := by decide +kernel
  have hcall : (run step (State.init true) becomesTrue).calls[0]? = some ⟨1, 1, some 1,
      some (.error .cancelled), some (.ok ()), some (.ok true), some (.ok true)⟩ := by
    rw [hcalls]
    rfl
  have hdrained : (run step (State.init true) becomesTrue).microtasks = [] :=
    List.length_eq_zero_iff.1 (by decide +kernel)
  rcases (condition_leaves_nothing_behind true becomesTrue _ rfl).1 0 _ (.ok true) hcall rfl hdrained
    with ⟨_, hstopped, hcount, hfirst⟩
  exact ⟨hcalls, hstopped, hcount.trans (by decide +kernel), hfirst.1 rfl⟩

/-- `condition(fn, NaN)`: the timer is not started, and `fn` is true. -/
def neverStarted : List Event :=
  [.condition 0 (some .nan) true (.ok ()) (.ok true)] ++ List.replicate 9 .tick

/-- The race is then lost by the condition, although `fn` was observed to be true and no timer fired. -/
theorem neverStarted_rejects :
    ¬ ∀ (shielded : Bool) (es : List Event) (id : CallId) (c : Call) (r : Result),
      (run step (State.init shielded) es).calls[id]? = some c → c.result = some r →
      (run step (State.init shielded) es).microtasks = [] →
      (r = .ok true ↔ ∃ seq before after, c.condition = some seq ∧
        (run step (State.init shielded) es).history = before ++ .unblocked seq :: after ∧
        .fired c.timer ∉ before) := by
  intro h
  have hcalls : (run step (State.init true) neverStarted).calls = [⟨1, 1, some 1,
      some (.error (.valueError "Invalid millis NaN")), some (.ok ()),
      some (.error (.valueError "Invalid millis NaN")),
      some (.error (.valueError "Invalid millis NaN"))⟩] := by decide +kernel
  have hcall : (run step (State.init true) neverStarted).calls[0]? = some ⟨1, 1, some 1,
      some (.error (.valueError "Invalid millis NaN")), some (.ok ()),
      some (.error (.valueError "Invalid millis NaN")),
      some (.error (.valueError "Invalid millis NaN"))⟩ := by
    rw [hcalls]
    rfl
  have hdrained : (run step (State.init true) neverStarted).microtasks = [] :=
    List.length_eq_zero_iff.1 (by decide +kernel)
  have hhistory : (run step (State.init true) neverStarted).history =
      [.settled 0 .timer (.error (.valueError "Invalid millis NaN")), .unblocked 1,
        .settled 0 .condition (.ok ())] := by decide +kernel
  have htrue := (h true neverStarted 0 _ _ hcall rfl hdrained).2
    ⟨1, [.settled 0 .timer (.error (.valueError "Invalid millis NaN"))],
      [.settled 0 .condition (.ok ())], rfl, hhistory, by simp⟩
  cases htrue

end Conditions
end TemporalSdk.Workflow
