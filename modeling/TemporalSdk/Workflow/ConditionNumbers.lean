import TemporalSdk.Machine.History
import TemporalSdk.Workflow.ConditionInvariants

/-!
# ConditionNumbers — which condition belongs to which call

A call of `condition(fn, timeout)` waits on at most one condition, the one whose number it took, and waits on it
only while its promise is open.  So an evaluation to `true` of that condition is what settles the promise,
and nothing else resolves it.
-/

namespace TemporalSdk.Workflow
namespace Conditions

open Machine

namespace State

variable {s : State}

/-- The microtask is queued, or will be when a scope is rejected. -/
def Pending (s : State) (m : Microtask) : Prop :=
  m ∈ s.microtasks ∨ ∃ scope, (scope, m) ∈ s.reactions

variable {scope : ScopeId}

theorem pending_catchCancel {m m' : Microtask}
    (h : (s.catchCancel scope m).Pending m') : m' = m ∨ s.Pending m' := by
  unfold catchCancel at h
  split at h
  · split at h
    · rcases h with hin | hin
      · rcases List.mem_append.1 hin with hin | hin
        · exact Or.inr (Or.inl hin)
        · exact Or.inl (List.mem_singleton.1 hin)
      · exact Or.inr (Or.inr hin)
    · rcases h with hin | ⟨p, hin⟩
      · exact Or.inr (Or.inl hin)
      · rcases List.mem_append.1 hin with hin | hin
        · exact Or.inr (Or.inr ⟨p, hin⟩)
        · cases List.mem_singleton.1 hin
          exact Or.inl rfl
  · exact Or.inr h

theorem pending_rejectScope {m : Microtask}
    (h : (s.rejectScope scope).Pending m) : s.Pending m := by
  unfold rejectScope at h
  split at h
  · split at h
    · exact h
    · rcases h with hin | ⟨p, hin⟩
      · rcases List.mem_append.1 hin with hin | hin
        · exact Or.inl hin
        · rcases List.mem_map.1 hin with ⟨⟨p, m'⟩, hr, rfl⟩
          exact Or.inr ⟨p, (List.mem_filter.1 hr).1⟩
      · exact Or.inr ⟨p, (List.mem_filter.1 hin).1⟩
  · exact h

theorem pending_newScope {parent : ScopeId} {cancellable : Bool} {m : Microtask}
    (h : (s.newScope parent cancellable).Pending m) :
    m = .propagate s.scopes.length ∨ m = .propagateUnlessShielded s.scopes.length ∨ s.Pending m := by
  unfold newScope at h
  split at h
  · simp only at h
    split at h
    · rcases pending_catchCancel h with heq | hin
      · exact Or.inl heq
      · exact Or.inr (Or.inr hin)
    · rcases pending_catchCancel h with heq | hin
      · exact Or.inr (Or.inl heq)
      · exact Or.inr (Or.inr hin)
  · exact Or.inr (Or.inr h)

theorem pending_listen {cancellable : Bool} {m m' : Microtask}
    (h : (s.listen scope cancellable m).Pending m') : m' = m ∨ s.Pending m' := by
  unfold State.listen at h
  split at h
  · exact pending_catchCancel h
  · exact Or.inr h

end State

/-- What a pending listener of a condition says about the call it serves. -/
def Fits (calls : List Call) : Microtask → Prop
  | .conditionListener seq (.call id) => ∃ c, calls[id]? = some c ∧ c.condition = some seq
  | .refuse .condition (.call id) => ∃ c, calls[id]? = some c ∧ c.condition = none
  | _ => True

/-- The number of the condition is that of the call that waits on it, if one does. -/
structure Owned (s : State) (seq : Seq) (w : Waiter) : Prop where
  call : ∀ id, w = .call id → ∃ c, s.calls[id]? = some c ∧ c.condition = some seq ∧
    c.conditionPromise = none
  owner : ∀ (id : CallId) (c : Call), s.calls[id]? = some c → c.condition = some seq → w = .call id

structure Numbered (s : State) : Prop where
  blocked : ∀ seq id, (seq, .call id) ∈ s.blockedConditions → ∃ c, s.calls[id]? = some c ∧
    c.condition = some seq ∧ c.conditionPromise = none
  owner : ∀ seq w (id : CallId) (c : Call), (seq, w) ∈ s.blockedConditions →
    s.calls[id]? = some c → c.condition = some seq → w = .call id
  bound : ∀ (id : CallId) (c : Call) seq, s.calls[id]? = some c → c.condition = some seq →
    seq < s.nextCondition
  fits : ∀ m, s.Pending m → Fits s.calls m

namespace Numbered

variable {s t : State}

theorem congr (h : Numbered s) (hblocked : ∀ b ∈ t.blockedConditions, b ∈ s.blockedConditions)
    (hnext : s.nextCondition ≤ t.nextCondition) (hcalls : t.calls = s.calls)
    (hpending : ∀ m, t.Pending m → s.Pending m ∨ Fits s.calls m) : Numbered t := by
  refine ⟨?_, ?_, ?_, ?_⟩
  · intro seq id hin
    rw [hcalls]
    exact h.blocked seq id (hblocked _ hin)
  · intro seq w id c hin hc hseq
    exact h.owner seq w id c (hblocked _ hin) (hcalls ▸ hc) hseq
  · intro id c seq hc hseq
    exact Nat.lt_of_lt_of_le (h.bound id c seq (hcalls ▸ hc) hseq) hnext
  · intro m hm
    rw [hcalls]
    rcases hpending m hm with hm | hm
    · exact h.fits m hm
    · exact hm

theorem scopesOnly (h : Numbered s) (hs : ScopesOnly s t)
    (hpending : ∀ m, t.Pending m → s.Pending m ∨ Fits s.calls m) : Numbered t := by
  refine h.congr ?_ (Nat.le_of_eq hs.nextCondition.symm) hs.calls hpending
  intro b hb
  rwa [hs.blockedConditions] at hb

/-- One call is changed or added, and numbers are taken. -/
theorem change (h : Numbered s) {id : CallId} {c' : Call} {calls : List Call} {next : Seq}
    (hcalls : Changed s.calls id c' calls) (hnext : s.nextCondition ≤ next)
    (hblocked : ∀ seq, (seq, .call id) ∈ s.blockedConditions → c'.condition = some seq ∧ c'.conditionPromise = none)
    (howner : ∀ seq w, (seq, w) ∈ s.blockedConditions → c'.condition = some seq → w = .call id)
    (hbound : ∀ seq, c'.condition = some seq → seq < next)
    (hlistener : ∀ seq, s.Pending (.conditionListener seq (.call id)) → c'.condition = some seq)
    (hrefused : s.Pending (.refuse .condition (.call id)) → c'.condition = none) :
    Numbered { s with nextCondition := next, calls := calls } := by
  refine ⟨?_, ?_, ?_, ?_⟩
  · intro seq i hin
    by_cases heq : i = id
    · exact ⟨c', heq ▸ hcalls.self, hblocked seq (heq ▸ hin)⟩
    · rcases h.blocked seq i hin with ⟨d, hd, hrest⟩
      exact ⟨d, (hcalls.other i heq).trans hd, hrest⟩
  · intro seq w i d hin hd hseq
    rcases hcalls.cases hd with ⟨rfl, rfl⟩ | ⟨_, hd⟩
    · exact howner seq w hin hseq
    · exact h.owner seq w i d hin hd hseq
  · intro i d seq hd hseq
    rcases hcalls.cases hd with ⟨_, rfl⟩ | ⟨_, hd⟩
    · exact hbound seq hseq
    · exact Nat.lt_of_lt_of_le (h.bound i d seq hd hseq) hnext
  · intro m hm
    have hfits := h.fits m hm
    unfold Fits at hfits ⊢
    split
    · exact hcalls.exists_of_exists (fun heq _ _ _ => hlistener _ (heq ▸ hm)) hfits
    · exact hcalls.exists_of_exists (fun heq _ _ _ => hrefused (heq ▸ hm)) hfits
    · trivial

/-- A call is changed, but not its number; its promise is only settled when no condition of its is
blocked. -/
theorem setCall (h : Numbered s) {id : CallId} {c c' : Call} (hc : s.calls[id]? = some c)
    (hnumber : c'.condition = c.condition)
    (hpromise : c'.conditionPromise = c.conditionPromise ∨
      ∀ seq, (seq, .call id) ∉ s.blockedConditions) :
    Numbered { s with calls := s.calls.set id c' } := by
  refine h.change (Changed.set hc c') (Nat.le_refl _) (fun seq hin => ?_)
    (fun seq w hin hseq => h.owner seq w id c hin hc (hnumber ▸ hseq))
    (fun seq hseq => h.bound id c seq hc (hnumber ▸ hseq)) (fun seq hm => ?_) fun hm => ?_
  · rcases h.blocked seq id hin with ⟨d, hd, hseq, hopen⟩
    cases hc.symm.trans hd
    refine ⟨hnumber.trans hseq, ?_⟩
    rcases hpromise with hsame | hnone
    · exact hsame.trans hopen
    · exact absurd hin (hnone seq)
  all_goals
    rcases h.fits _ hm with ⟨d, hd, hseq⟩
    cases hc.symm.trans hd
    exact hnumber.trans hseq

/-- The promise of a condition is only settled when none of its is blocked any more. -/
theorem settle (h : Numbered s) {arm : Arm} {w : Waiter} (o : Outcome)
    (hunblocked : arm = .condition → ∀ seq id, w = .call id → (seq, w) ∉ s.blockedConditions) :
    Numbered (s.settle arm w o) := by
  unfold State.settle
  split
  · exact h
  · rename_i id
    split
    · exact h
    · rename_i c hc
      split
      · exact h
      · have hset : Numbered { s with calls := s.calls.set id (c.setPromise o arm) } := by
          refine h.setCall hc ?_ ?_
          · cases arm <;> rfl
          · cases arm with
            | timer => exact Or.inl rfl
            | condition => exact Or.inr fun seq => hunblocked rfl seq id rfl
        refine hset.congr (fun _ hb => hb) (Nat.le_refl _) rfl ?_
        rintro m (hin | hin)
        · rcases List.mem_append.1 hin with hin | hin
          · exact Or.inl (Or.inl hin)
          · cases List.mem_singleton.1 hin
            exact Or.inr trivial
        · exact Or.inl (Or.inr hin)

theorem owned (h : Numbered s) {seq : Seq} {w : Waiter} (hin : (seq, w) ∈ s.blockedConditions) :
    Owned s seq w := by
  refine ⟨?_, fun id c hc hseq => h.owner seq w id c hin hc hseq⟩
  intro id hid
  rw [hid] at hin
  exact h.blocked seq id hin

theorem block (h : Numbered s) {seq : Seq} {w : Waiter} (howned : Owned s seq w) :
    Numbered { s with blockedConditions := s.blockedConditions ++ [(seq, w)] } := by
  refine ⟨?_, ?_, h.bound, h.fits⟩
  · intro seq' id hin
    rcases List.mem_append.1 hin with hin | hin
    · exact h.blocked seq' id hin
    · have heq : (seq', Waiter.call id) = (seq, w) := List.mem_singleton.1 hin
      injection heq with hseq hw
      rw [hseq]
      exact howned.call id hw.symm
  · intro seq' w' id c hin hc hseq
    rcases List.mem_append.1 hin with hin | hin
    · exact h.owner seq' w' id c hin hc hseq
    · cases List.mem_singleton.1 hin
      exact howned.owner id c hc hseq

theorem addCall (h : Numbered s) {c : Call} (hnumber : c.condition = none) :
    Numbered { s with calls := s.calls ++ [c] } := by
  refine h.change (Changed.concat s.calls c) (Nat.le_refl _) (fun seq hin => ?_) (fun seq w _ hseq => ?_)
    (fun seq hseq => ?_) (fun seq hm => ?_) fun _ => hnumber
  · rcases h.blocked seq _ hin with ⟨d, hd, _⟩
    exact absurd hd getElem?_length_ne
  · rw [hnumber] at hseq
    cases hseq
  · rw [hnumber] at hseq
    cases hseq
  · rcases h.fits _ hm with ⟨d, hd, _⟩
    exact absurd hd getElem?_length_ne

end Numbered

/-- The call has not come to its condition: nothing is kept or pending for it. -/
structure Untouched (s : State) (id : CallId) : Prop where
  call : ∃ c, s.calls[id]? = some c ∧ c.condition = none ∧ c.conditionPromise = none
  blocked : ∀ seq, (seq, .call id) ∉ s.blockedConditions
  listener : ∀ seq, ¬ s.Pending (.conditionListener seq (.call id))
  refused : ¬ s.Pending (.refuse .condition (.call id))

namespace Numbered

variable {s t : State}

theorem takeCondition (h : Numbered s) {w : Waiter} (hw : ∀ id, w = .call id → Untouched s id)
    (hfree : ∀ w', (s.nextCondition, w') ∉ s.blockedConditions) :
    Numbered (s.takeCondition w) := by
  cases w with
  | program =>
    exact h.congr (fun _ hb => hb) (Nat.le_succ _) rfl fun m hm => Or.inl hm
  | call id =>
    have hu := hw id rfl
    rcases hu.call with ⟨c, hc, hnumber, hopen⟩
    rw [State.takeCondition_call hc]
    refine h.change (Changed.set hc _) (Nat.le_succ _) (fun seq hin => absurd hin (hu.blocked seq))
      (fun seq w hin hseq => ?_) (fun seq hseq => ?_) (fun seq hm => absurd hm (hu.listener seq))
      fun hm => absurd hm hu.refused
    · cases hseq
      exact absurd hin (hfree w)
    · cases hseq
      exact Nat.lt_succ_self _

/-- The number that was taken belongs to the call. -/
theorem owned_takeCondition (h : Numbered s) {w : Waiter}
    (hw : ∀ id, w = .call id → Untouched s id) : Owned (s.takeCondition w) s.nextCondition w := by
  have hold : ∀ (i : CallId) (d : Call), s.calls[i]? = some d → d.condition ≠ some s.nextCondition := by
    intro i d hd hseq
    exact Nat.lt_irrefl _ (h.bound i d _ hd hseq)
  cases w with
  | program =>
    refine ⟨nofun, ?_⟩
    intro i d hd hseq
    exact absurd hseq (hold i d hd)
  | call id =>
    rcases (hw id rfl).call with ⟨c, hc, _, hopen⟩
    have hcalls := Changed.set hc { c with condition := some s.nextCondition }
    rw [State.takeCondition_call hc]
    refine ⟨?_, ?_⟩
    · intro i hi
      cases hi
      exact ⟨{ c with condition := some s.nextCondition }, hcalls.self, rfl, hopen⟩
    · intro i d hd hseq
      rcases hcalls.cases hd with ⟨rfl, _⟩ | ⟨_, hd⟩
      · rfl
      · exact absurd hseq (hold i d hd)

end Numbered

namespace Untouched

variable {s t : State} {id : CallId}

theorem addCall (h : Numbered s) {c : Call} (hnumber : c.condition = none)
    (hopen : c.conditionPromise = none) :
    Untouched { s with calls := s.calls ++ [c] } s.calls.length := by
  refine ⟨⟨c, List.getElem?_concat_length, hnumber, hopen⟩, ?_, ?_, ?_⟩
  · intro seq hin
    rcases h.blocked seq _ hin with ⟨d, hd, _⟩
    exact getElem?_length_ne hd
  · intro seq hpending
    rcases h.fits _ hpending with ⟨d, hd, _⟩
    exact getElem?_length_ne hd
  · intro hpending
    rcases h.fits _ hpending with ⟨d, hd, _⟩
    exact getElem?_length_ne hd

theorem congr (h : Untouched s id) (hcalls : t.calls = s.calls)
    (hblocked : t.blockedConditions = s.blockedConditions)
    (hpending : ∀ m, t.Pending m → s.Pending m ∨ ∀ seq w, m ≠ .conditionListener seq w ∧
      m ≠ .refuse .condition w) : Untouched t id := by
  refine ⟨hcalls ▸ h.call, hblocked ▸ h.blocked, ?_, ?_⟩
  · intro seq hm
    rcases hpending _ hm with hm | hm
    · exact h.listener seq hm
    · exact (hm seq (.call id)).1 rfl
  · intro hm
    rcases hpending _ hm with hm | hm
    · exact h.refused hm
    · exact (hm 0 (.call id)).2 rfl

theorem settleTimer (h : Untouched s id) (w : Waiter) (o : Outcome) :
    Untouched (s.settle .timer w o) id := by
  unfold State.settle
  split
  · exact h
  · rename_i i
    split
    · exact h
    · rename_i c hc
      split
      · exact h
      · have hset : Untouched { s with calls := s.calls.set i (c.setPromise o .timer) } id := by
          refine { h with call := ?_ }
          refine (Changed.set hc _).exists_of_exists (fun _ d hd hkept => ?_) h.call
          cases hc.symm.trans hd
          exact hkept
        refine hset.congr rfl rfl ?_
        rintro m (hin | hin)
        · rcases List.mem_append.1 hin with hin | hin
          · exact Or.inl (Or.inl hin)
          · rw [List.mem_singleton.1 hin]
            exact Or.inr fun seq w => ⟨nofun, nofun⟩
        · exact Or.inl (Or.inr hin)

/-- The timer of the call is started first. -/
theorem timerNextHandler (h : Untouched s id) (scope : ScopeId) (seq : Seq) (d : Option Nat)
    (summary : Except JsError Unit) (w : Waiter) :
    Untouched (s.timerNextHandler scope seq d summary w) id := by
  rcases State.timerNextHandler_cases s scope seq d summary w with heq | heq |
    ⟨sc, _, ⟨e, heq⟩ | heq⟩
  · rw [heq]
    exact h
  · have honly := State.catchCancel_only s scope (m := .refuse .timer w) rfl
    rw [heq]
    refine h.congr honly.calls honly.blockedConditions ?_
    intro m hm
    rcases State.pending_catchCancel hm with rfl | hm
    · exact Or.inr fun seq w => ⟨nofun, nofun⟩
    · exact Or.inl hm
  all_goals
    have honly := State.listen_only s scope sc.cancellable (m := .timerListener seq) rfl
    have hlistening : Untouched (s.listen scope sc.cancellable (.timerListener seq)) id := by
      refine h.congr honly.calls honly.blockedConditions ?_
      intro m hm
      rcases State.pending_listen hm with rfl | hm
      · exact Or.inr fun seq w => ⟨nofun, nofun⟩
      · exact Or.inl hm
    rw [heq]
  · exact hlistening.settleTimer w (.error e)
  · exact hlistening.congr rfl rfl fun m hm => Or.inl hm

end Untouched

/-! ## What is resolved was observed -/

structure Observed (s : State) : Prop where
  settled : ∀ id arm o, .settled id arm o ∈ s.history → ∃ c, s.calls[id]? = some c ∧
    c.promise arm = some o
  -- The condition of a call is resolved: its promise is, at once.
  resolves : ∀ (id : CallId) (c : Call) seq, s.calls[id]? = some c → c.condition = some seq →
    ∀ before after, s.history = before ++ .unblocked seq :: after →
      ∃ rest, after = .settled id .condition (.ok ()) :: rest
  -- Nothing else resolves it.
  resolved : ∀ id before after, s.history = before ++ .settled id .condition (.ok ()) :: after →
    ∃ c seq init, s.calls[id]? = some c ∧ c.condition = some seq ∧ before = init ++ [.unblocked seq]

namespace Observed

variable {s t : State}

theorem congr (h : Observed s) (hcalls : t.calls = s.calls) (hhistory : t.history = s.history) :
    Observed t := by
  refine ⟨?_, ?_, ?_⟩
  · rw [hcalls, hhistory]
    exact h.settled
  · rw [hcalls, hhistory]
    exact h.resolves
  · rw [hcalls, hhistory]
    exact h.resolved

theorem scopesOnly (h : Observed s) (hs : ScopesOnly s t) : Observed t := h.congr hs.calls hs.history

/-- One call is changed or added. -/
theorem change (h : Observed s) {id : CallId} {c' : Call} {calls : List Call} (hcalls : Changed s.calls id c' calls)
    (hpromise : ∀ c arm o, s.calls[id]? = some c → c.promise arm = some o → c'.promise arm = some o)
    (hnumber : ∀ c seq, s.calls[id]? = some c → c.condition = some seq → c'.condition = some seq)
    (hresolves : ∀ seq, c'.condition = some seq → ∀ before after, s.history = before ++ .unblocked seq :: after →
      ∃ rest, after = .settled id .condition (.ok ()) :: rest) : Observed { s with calls := calls } := by
  refine ⟨?_, ?_, ?_⟩
  · intro i arm o hin
    exact hcalls.exists_of_exists (fun _ c hc => hpromise c arm o hc) (h.settled i arm o hin)
  · intro i d seq hd hseq
    rcases hcalls.cases hd with ⟨rfl, rfl⟩ | ⟨_, hd⟩
    · exact hresolves seq hseq
    · exact h.resolves i d seq hd hseq
  · intro i before after hsplit
    rcases h.resolved i before after hsplit with ⟨d, seq, init, hd, hseq, hbefore⟩
    rcases hcalls.exists_of_exists (fun _ c hc => hnumber c seq hc) ⟨d, hd, hseq⟩ with ⟨d', hd', hseq'⟩
    exact ⟨d', seq, init, hd', hseq', hbefore⟩

/-- A call is changed, but not its number, and its promises stay settled. -/
theorem setCall (h : Observed s) {id : CallId} {c c' : Call} (hc : s.calls[id]? = some c)
    (hnumber : c'.condition = c.condition)
    (hpromise : ∀ arm o, c.promise arm = some o → c'.promise arm = some o) :
    Observed { s with calls := s.calls.set id c' } := by
  refine h.change (Changed.set hc c') (fun d arm o hd hsettled => ?_) (fun d seq hd hseq => ?_)
    fun seq hseq => h.resolves id c seq hc (hnumber ▸ hseq)
  · cases hc.symm.trans hd
    exact hpromise arm o hsettled
  · cases hc.symm.trans hd
    exact hnumber.trans hseq

/-- An entry that is not about a condition. -/
def isAside : Entry → Bool
  | .unblocked _ => false
  | .settled _ .condition (.ok _) => false
  | _ => true

theorem log (h : Observed s) {e : Entry} (he : isAside e = true)
    (hsettled : ∀ id arm o, e = .settled id arm o → ∃ c, s.calls[id]? = some c ∧
      c.promise arm = some o) : Observed (s.log e) := by
  refine ⟨?_, ?_, ?_⟩
  · intro id arm o hin
    rcases List.mem_append.1 hin with hin | hin
    · exact h.settled id arm o hin
    · exact hsettled id arm o (List.mem_singleton.1 hin).symm
  · intro id c seq hc hseq before after hsplit
    rcases split_snoc hsplit with ⟨_, rfl, _⟩ | ⟨mid, rfl, hhistory⟩
    · cases he
    · rcases h.resolves id c seq hc hseq before mid hhistory with ⟨rest, rfl⟩
      exact ⟨rest ++ [e], rfl⟩
  · intro id before after hsplit
    rcases split_snoc hsplit with ⟨_, rfl, _⟩ | ⟨mid, rfl, hhistory⟩
    · cases he
    · exact h.resolved id before mid hhistory

theorem settle (h : Observed s) {arm : Arm} (w : Waiter) {o : Outcome}
    (hne : ¬ (arm = .condition ∧ o = .ok ())) : Observed (s.settle arm w o) := by
  unfold State.settle
  split
  · exact h
  · rename_i id
    split
    · exact h
    · rename_i c hc
      split
      · exact h
      · rename_i hopen
        have hset : Observed { s with calls := s.calls.set id (c.setPromise o arm) } := by
          refine h.setCall hc ?_ ?_
          · cases arm <;> rfl
          · intro arm' o' hsettled
            have hother : arm' ≠ arm := by
              rintro rfl
              simp [hsettled] at hopen
            cases arm <;> cases arm' <;> first | exact hsettled | exact absurd rfl hother
        have hqueued : Observed (State.enqueue { s with calls := s.calls.set id (c.setPromise o arm) }
          (.mapped arm id o)) := hset.congr rfl rfl
        refine hqueued.log ?_ ?_
        · cases arm with
          | timer => rfl
          | condition =>
            cases o with
            | error _ => rfl
            | ok u => exact absurd ⟨rfl, rfl⟩ hne
        · intro id' arm' o' heq
          cases heq
          have hlt := (List.getElem?_eq_some_iff.1 hc).1
          refine ⟨c.setPromise o arm, by simp [State.enqueue, hlt], ?_⟩
          cases arm <;> rfl

theorem resolve_program (h : Observed s) {seq : Seq} (howned : Owned s seq .program) :
    Observed (s.log (.unblocked seq)) := by
  refine ⟨?_, ?_, ?_⟩
  · intro id arm o hin
    rcases List.mem_append.1 hin with hin | hin
    · exact h.settled id arm o hin
    · cases List.mem_singleton.1 hin
  · intro id c seq' hc hseq before after hsplit
    rcases split_snoc hsplit with ⟨_, heq, _⟩ | ⟨mid, rfl, hhistory⟩
    · cases heq
      cases howned.owner id c hc hseq
    · rcases h.resolves id c seq' hc hseq before mid hhistory with ⟨rest, rfl⟩
      exact ⟨rest ++ [.unblocked seq], rfl⟩
  · intro id before after hsplit
    rcases split_snoc hsplit with ⟨_, heq, _⟩ | ⟨mid, rfl, hhistory⟩
    · cases heq
    · exact h.resolved id before mid hhistory

/-- `fn` is observed to be true: the number is logged, and the promise settled. -/
theorem resolve (h : Observed s) {seq : Seq} {w : Waiter} (howned : Owned s seq w) :
    Observed ((s.log (.unblocked seq)).settle .condition w (.ok ())) := by
  cases w with
  | program => exact h.resolve_program howned
  | call id =>
    rcases howned.call id rfl with ⟨c, hc, hnumber, hopen⟩
    have hset : Observed { s with calls := s.calls.set id (c.setPromise (.ok ()) .condition) } := by
      refine h.setCall hc rfl ?_
      intro arm o hsettled
      cases arm with
      | timer => exact hsettled
      | condition =>
        have hsettled : c.conditionPromise = some o := hsettled
        rw [hopen] at hsettled
        cases hsettled
    have hcalls := Changed.set hc (c.setPromise (.ok ()) .condition)
    have hnew := hcalls.self
    have howner : ∀ (i : CallId) (d : Call),
        (s.calls.set id (c.setPromise (.ok ()) .condition))[i]? = some d →
          d.condition = some seq → i = id := by
      intro i d hd hseq
      rcases hcalls.cases hd with ⟨heq, _⟩ | ⟨_, hd⟩
      · exact heq
      · cases howned.owner i d hd hseq
        rfl
    have hstate : (s.log (.unblocked seq)).settle .condition (.call id) (.ok ()) =
        { s with
          calls := s.calls.set id (c.setPromise (.ok ()) .condition)
          microtasks := s.microtasks ++ [.mapped .condition id (.ok ())]
          history := s.history ++ [.unblocked seq] ++ [.settled id .condition (.ok ())] } := by
      have hopen' : c.promise .condition = none := hopen
      simp only [State.settle, State.log, hc, hopen', Option.isSome_none, Bool.false_eq_true,
        if_false, State.enqueue]
    rw [hstate]
    refine ⟨?_, ?_, ?_⟩
    · intro i arm o hin
      rcases List.mem_append.1 hin with hin | hin
      · rcases List.mem_append.1 hin with hin | hin
        · exact hset.settled i arm o hin
        · cases List.mem_singleton.1 hin
      · cases List.mem_singleton.1 hin
        exact ⟨_, hnew, rfl⟩
    · intro i d seq' hd hseq before after hsplit
      rcases split_snoc hsplit with ⟨_, heq, _⟩ | ⟨mid, rfl, hhistory⟩
      · cases heq
      · rcases split_snoc hhistory with ⟨rfl, heq, _⟩ | ⟨mid', rfl, hhistory'⟩
        · cases heq
          rw [howner i d hd hseq]
          exact ⟨[], rfl⟩
        · rcases hset.resolves i d seq' hd hseq before mid' hhistory' with ⟨rest, rfl⟩
          exact ⟨rest ++ [.unblocked seq] ++ [.settled id .condition (.ok ())], by simp⟩
    · intro i before after hsplit
      rcases split_snoc hsplit with ⟨_, heq, hbefore⟩ | ⟨mid, rfl, hhistory⟩
      · cases heq
        exact ⟨_, seq, s.history, hnew, hnumber, hbefore.symm⟩
      · rcases split_snoc hhistory with ⟨_, heq, _⟩ | ⟨mid', rfl, hhistory'⟩
        · cases heq
        · exact hset.resolved i before mid' hhistory'

/-- A number is taken that was not in use. -/
theorem takeCondition (h : Observed s) {w : Waiter} (hw : ∀ id, w = .call id → Untouched s id)
    (hfresh : .unblocked s.nextCondition ∉ s.history) : Observed (s.takeCondition w) := by
  cases w with
  | program => exact h.congr rfl rfl
  | call id =>
    rcases (hw id rfl).call with ⟨c, hc, hnumber, _⟩
    rw [State.takeCondition_call hc]
    have hset : Observed { s with calls := s.calls.set id { c with condition := some s.nextCondition } } := by
      refine h.change (Changed.set hc _) (fun d arm o hd hsettled => ?_) (fun d seq hd hseq => ?_)
        fun seq hseq before after hsplit => ?_
      · cases hc.symm.trans hd
        cases arm <;> exact hsettled
      · cases hc.symm.trans hd
        rw [hnumber] at hseq
        cases hseq
      · cases hseq
        exact absurd (hsplit ▸ List.mem_append_right _ List.mem_cons_self) hfresh
    exact hset.congr rfl rfl

theorem addCall (h : Observed s) {c : Call} (hnumber : c.condition = none) :
    Observed { s with calls := s.calls ++ [c] } := by
  refine h.change (Changed.concat s.calls c) (fun d _ _ hd => absurd hd getElem?_length_ne)
    (fun d _ hd => absurd hd getElem?_length_ne) fun seq hseq => ?_
  rw [hnumber] at hseq
  cases hseq

end Observed

end Conditions
end TemporalSdk.Workflow
