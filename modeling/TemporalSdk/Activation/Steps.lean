import TemporalSdk.Activation.Vm

/-!
# Steps — what the parts of a step can do

One lemma for each operation of the machine, in the form that the invariants use: which branch was
taken and what it changed.  Later modules cite these and do not unfold the operations.
-/

namespace TemporalSdk.Activation

variable {σ : Type} {cfg : Config σ} {s t : Vm σ}

/-! ## Callers -/

namespace Frame

def caller : Frame σ → Caller
  | code c _ => c
  | dispatchSignals c _ => c
  | dispatchUpdates c _ => c

def isSignalLoop : Frame σ → Bool
  | dispatchSignals _ _ => true
  | _ => false

def isUpdateLoop : Frame σ → Bool
  | dispatchUpdates _ _ => true
  | _ => false

end Frame

/-- Microtasks that react to the outcome of a call. -/
def Microtask.isReaction : Microtask σ → Bool
  | .settled _ _ | .caught _ _ _ => true
  | _ => false

namespace Vm

/-- Code of `c` is running, or will when a promise settles. -/
def Mentions (s : Vm σ) (c : Caller) : Prop :=
  (∃ f ∈ s.stack, f.caller = c) ∨ (∃ code, .callback c code ∈ s.microtasks) ∨
    (∃ p callback, (c, callback) ∈ (s.promises p).callbacks)

/-- The queued reactions. -/
def reactions (s : Vm σ) : List (Microtask σ) := s.microtasks.filter Microtask.isReaction

/-! ## Buffers -/

section TakeFirst

variable {α : Type} {p : α → Bool}

theorem takeFirst_ne_none {l : List α} : takeFirst p l ≠ none ↔ ∃ x ∈ l, p x = true := by
  induction l with
  | nil => simp [takeFirst]
  | cons y ys ih =>
    cases hy : p y with
    | true => simp [takeFirst, hy]
    | false => simpa [takeFirst, hy] using ih

/-- What is removed is the first element that satisfies `p`; the others keep their order. -/
theorem takeFirst_some : ∀ {l : List α} {x : α} {rest : List α}, takeFirst p l = some (x, rest) →
    p x = true ∧ ∃ front back, l = front ++ x :: back ∧ rest = front ++ back ∧
      ∀ y ∈ front, p y = false := by
  intro l
  induction l with
  | nil =>
    intro x rest h
    simp [takeFirst] at h
  | cons y ys ih =>
    intro x rest h
    cases hy : p y with
    | true =>
      have hxy : y = x ∧ ys = rest := by simpa [takeFirst, hy] using h
      rcases hxy with ⟨rfl, rfl⟩
      exact ⟨hy, [], ys, rfl, rfl, by simp⟩
    | false =>
      have hys : ∃ r, takeFirst p ys = some r ∧ r.1 = x ∧ y :: r.2 = rest := by
        simpa [takeFirst, hy] using h
      rcases hys with ⟨⟨x', rest'⟩, hr, rfl, rfl⟩
      rcases ih hr with ⟨hx, front, back, rfl, hrest, hfront⟩
      have hrest : rest' = front ++ back := hrest
      refine ⟨hx, y :: front, back, rfl, by simp [hrest], ?_⟩
      intro z hz
      rcases List.mem_cons.1 hz with rfl | hz
      · exact hy
      · exact hfront z hz

theorem filter_takeFirst {l rest : List α} {x : α} (h : takeFirst p l = some (x, rest))
    {q : α → Bool} (hq : ∀ y, q y = true → q x = true → p y = p x) :
    l.filter q = if q x then x :: rest.filter q else rest.filter q := by
  rcases takeFirst_some h with ⟨hx, front, back, rfl, rfl, hfront⟩
  cases hqx : q x with
  | false => simp [hqx]
  | true =>
    have hnone : front.filter q = [] := by
      refine List.filter_eq_nil_iff.2 ?_
      intro y hy hqy
      have hpy := hq y hqy hqx
      rw [hfront y hy, hx] at hpy
      cases hpy
    simp [hqx, hnone]

end TakeFirst

/-! ## Conditions -/

theorem unblockPass_closed {P : Vm σ → Prop} (hP : ∀ s b, P s → P (s.unblock b)) :
    ∀ (bs : List (BlockedCondition σ)) (s : Vm σ), P s → P (unblockPass bs s).1 := by
  intro bs
  induction bs with
  | nil =>
    intro s hs
    exact hs
  | cons b bs ih =>
    intro s hs
    by_cases hb : b.fn s.heap s.info = true
    · simpa [unblockPass, hb] using ih _ (hP s b hs)
    · simpa [unblockPass, hb] using ih s hs

theorem unblockPass_frame (bs : List (BlockedCondition σ)) (s : Vm σ) :
    (unblockPass bs s).1.heap = s.heap ∧ (unblockPass bs s).1.info = s.info ∧
      (unblockPass bs s).1.checkConditions = s.checkConditions ∧
      (unblockPass bs s).1.workflowTaskError = s.workflowTaskError := by
  refine unblockPass_closed (P := fun t => t.heap = s.heap ∧ t.info = s.info ∧
    t.checkConditions = s.checkConditions ∧ t.workflowTaskError = s.workflowTaskError) ?_ bs s
    ⟨rfl, rfl, rfl, rfl⟩
  intro t b ht
  exact ht

/-- No blocked condition holds. -/
def Settled (s : Vm σ) : Prop := ∀ b ∈ s.blockedConditions, b.fn s.heap s.info = false

theorem unblockPass_of_false : ∀ {bs : List (BlockedCondition σ)} {s : Vm σ},
    (∀ b ∈ bs, b.fn s.heap s.info = false) → unblockPass bs s = (s, 0) := by
  intro bs
  induction bs with
  | nil =>
    intro s _
    rfl
  | cons b bs ih =>
    intro s h
    have hb : b.fn s.heap s.info = false := h b (by simp)
    simpa [unblockPass, hb] using ih fun b' hb' => h b' (List.mem_cons_of_mem _ hb')

theorem unblockPass_settled : ∀ {bs : List (BlockedCondition σ)} {s : Vm σ},
    (∀ b ∈ s.blockedConditions, b.fn s.heap s.info = true → b ∈ bs) →
      (unblockPass bs s).1.Settled := by
  intro bs
  induction bs with
  | nil =>
    intro s h b hb
    cases hfn : b.fn s.heap s.info with
    | false => exact hfn
    | true => exact absurd (h b hb hfn) (by simp)
  | cons b bs ih =>
    intro s h
    cases hfn : b.fn s.heap s.info with
    | true =>
      have hrest := ih (s := s.unblock b) ?_
      · simpa [unblockPass, hfn] using hrest
      · intro b' hb' hfn'
        have hb' : b' ∈ s.blockedConditions ∧ (b'.seq != b.seq) = true :=
          List.mem_filter.1 hb'
        have hne : b' ≠ b := by
          rintro rfl
          simp at hb'
        rcases List.mem_cons.1 (h b' hb'.1 hfn') with heq | hin
        · exact absurd heq hne
        · exact hin
    | false =>
      have hrest := ih (s := s) ?_
      · simpa [unblockPass, hfn] using hrest
      · intro b' hb' hfn'
        rcases List.mem_cons.1 (h b' hb' hfn') with rfl | hin
        · simp [hfn] at hfn'
        · exact hin

theorem taskError_unblockPass (bs : List (BlockedCondition σ)) (s : Vm σ) :
    (unblockPass bs s).1.taskError = s.taskError := by
  simp [taskError, (unblockPass_frame bs s).2.2.2]

theorem unblockLoop_of_settled (fuel : Nat) (h : s.Settled) (he : s.taskError = none) :
    unblockLoop fuel s = .ok (s, 0) := by
  unfold unblockLoop
  have hpass := unblockPass_of_false h
  cases fuel with
  | zero | succ => simp [he, hpass]

/-- The predicates are pure, so that one pass is enough. -/
theorem tryUnblockConditions_eq (s : Vm σ) :
    s.tryUnblockConditions =
      match s.taskError with
      | some e => .error e
      | none =>
        if s.checkConditions then .ok (unblockPass s.blockedConditions s) else .ok (s, 0) := by
  have hsettled : (unblockPass s.blockedConditions s).1.Settled :=
    unblockPass_settled fun b hb _ => hb
  have herr := taskError_unblockPass s.blockedConditions s
  unfold tryUnblockConditions unblockLoop
  cases he : s.taskError with
  | some e => rfl
  | none =>
    by_cases hc : s.checkConditions = true
    · cases hlen : s.blockedConditions.length with
      | zero => simp [hc]
      | succ fuel =>
        have hloop := unblockLoop_of_settled fuel hsettled (herr.trans he)
        by_cases hz : (unblockPass s.blockedConditions s).2 = 0
        · simp [hc, hz]
        · simp [hc, hz, hloop, Except.map]
    · simp [hc]

theorem tryUnblockConditions_closed {P : Vm σ → Prop} (hP : ∀ s b, P s → P (s.unblock b))
    {n : Nat} (h : s.tryUnblockConditions = .ok (t, n)) (hs : P s) : P t := by
  rw [tryUnblockConditions_eq] at h
  cases he : s.taskError with
  | some e => simp [he] at h
  | none =>
    by_cases hc : s.checkConditions = true
    · have hr : unblockPass s.blockedConditions s = (t, n) := by simpa [he, hc] using h
      simpa [hr] using unblockPass_closed hP s.blockedConditions s hs
    · have hr : s = t ∧ 0 = n := by simpa [he, hc] using h
      exact hr.1 ▸ hs

theorem tryUnblockConditions_settled {n : Nat} (hc : s.checkConditions = true)
    (h : s.tryUnblockConditions = .ok (t, n)) : t.Settled := by
  rw [tryUnblockConditions_eq] at h
  cases he : s.taskError with
  | some e => simp [he] at h
  | none =>
    have hr : unblockPass s.blockedConditions s = (t, n) := by simpa [he, hc] using h
    have hsettled : (unblockPass s.blockedConditions s).1.Settled :=
      unblockPass_settled fun b hb _ => hb
    simpa [hr] using hsettled

theorem taskError_of_tryUnblockConditions {n : Nat} (h : s.tryUnblockConditions = .ok (t, n)) :
    s.workflowTaskError.isTruthy = false := by
  rw [tryUnblockConditions_eq] at h
  cases ht : s.workflowTaskError.isTruthy with
  | false => rfl
  | true => simp [taskError, ht] at h

/-! ## Quiet steps -/

end Vm

/-- What the answers to updates and the fate of thrown values depend on. -/
structure Core (σ : Type) where
  commands : List (Origin × Command)
  workflowTaskError : JsValue
  unhandledRejection : JsValue
  rejections : List JsValue
  nextObject : Nat
  settledCalls : List Caller
  query : Bool
  reactions : List (Microtask σ)

def Vm.core (s : Vm σ) : Core σ :=
  { commands := s.commands
    workflowTaskError := s.workflowTaskError
    unhandledRejection := s.unhandledRejection
    rejections := s.rejections
    nextObject := s.nextObject
    settledCalls := s.settledCalls
    query := s.query
    reactions := s.reactions }

/-- Notes of promises, conditions and signals, and of the arrival of updates. -/
def Note.isPlain : Note → Bool
  | .resolved _ | .unblocked _ | .signalArrived _ | .signalHanded _ _ | .updateArrived _ => true
  | _ => false

/-- `t` comes from `s` by running code, by settling promises, by starting the workflow or the handler
of a signal, by changing the inbox, or by moving to another phase. -/
structure Quiet (s t : Vm σ) : Prop where
  core : t.core = s.core
  trace : ∃ notes, t.trace = s.trace ++ notes ∧ ∀ n ∈ notes, n.isPlain = true
  mentions : ∀ num pid, t.Mentions (.update num pid) → s.Mentions (.update num pid)

namespace Quiet

theorem refl (s : Vm σ) : Quiet s s := ⟨rfl, ⟨[], by simp, by simp⟩, fun _ _ h => h⟩

theorem trans {u : Vm σ} (h : Quiet s t) (h' : Quiet t u) : Quiet s u := by
  rcases h.trace with ⟨notes, htrace, hnotes⟩
  rcases h'.trace with ⟨notes', htrace', hnotes'⟩
  refine ⟨h'.core.trans h.core, ⟨notes ++ notes', ?_, ?_⟩, ?_⟩
  · rw [htrace', htrace, List.append_assoc]
  · intro n hn
    rcases List.mem_append.1 hn with hn | hn
    · exact hnotes n hn
    · exact hnotes' n hn
  · intro num pid hc
    exact h.mentions num pid (h'.mentions num pid hc)

theorem of_eq (hcore : t.core = s.core) (htrace : t.trace = s.trace) (hstack : t.stack = s.stack)
    (hmicrotasks : t.microtasks = s.microtasks) (hpromises : t.promises = s.promises) :
    Quiet s t := by
  refine ⟨hcore, ⟨[], by simp [htrace], by simp⟩, ?_⟩
  intro num pid hc
  simpa [Vm.Mentions, hstack, hmicrotasks, hpromises] using hc

theorem enter (s : Vm σ) (phase : Phase) : Quiet s (s.enter phase) := of_eq rfl rfl rfl rfl rfl

theorem nextBatch (s : Vm σ) : Quiet s s.nextBatch := by
  unfold Vm.nextBatch
  split
  · exact of_eq rfl rfl rfl rfl rfl
  · split <;> exact of_eq rfl rfl rfl rfl rfl

theorem settlePromise (s : Vm σ) (p : PromiseId) (o : Outcome) :
    Quiet s (s.settlePromise p o) := by
  have hnone : ∀ cbs : List (Caller × (Outcome → Prog σ)),
      (cbs.map fun cb => Microtask.callback cb.1 (cb.2 o)).filter Microtask.isReaction = [] := by
    intro cbs
    refine List.filter_eq_nil_iff.2 ?_
    intro m hm
    rcases List.mem_map.1 hm with ⟨cb, _, rfl⟩
    simp [Microtask.isReaction]
  refine ⟨?_, ⟨_, rfl, ?_⟩, ?_⟩
  · simp [Vm.core, Vm.reactions, Vm.settlePromise, hnone]
  · intro n hn
    split at hn
    · have hn : n = .resolved p := by simpa using hn
      rw [hn]
      rfl
    · cases hn
  · rintro num pid (hstack | ⟨code, hcode⟩ | ⟨p', callback, hcb⟩)
    · exact Or.inl hstack
    · rcases List.mem_append.1 hcode with hold | hnew
      · exact Or.inr (Or.inl ⟨code, hold⟩)
      · rcases List.mem_map.1 hnew with ⟨⟨c', callback⟩, hcb, heq⟩
        have hc : c' = .update num pid := by
          injection heq
        exact Or.inr (Or.inr ⟨p, callback, hc ▸ hcb⟩)
    · by_cases hp : p' = p
      · subst hp
        simp [Vm.settlePromise] at hcb
      · exact Or.inr (Or.inr ⟨p', callback, by
          simpa [Vm.settlePromise, Function.update_of_ne hp] using hcb⟩)

theorem unblock (s : Vm σ) (b : BlockedCondition σ) : Quiet s (s.unblock b) := by
  refine Quiet.trans (t := { s with
    blockedConditions := s.blockedConditions.filter fun b' => b'.seq != b.seq }.note
      (.unblocked b.seq)) ?_ (settlePromise _ _ _)
  exact ⟨rfl, ⟨[.unblocked b.seq], rfl, by simp [Note.isPlain]⟩, fun _ _ h => h⟩

theorem tryUnblockConditions {n : Nat} (h : s.tryUnblockConditions = .ok (t, n)) : Quiet s t := by
  refine Vm.tryUnblockConditions_closed (P := fun t => Quiet s t) ?_ h (refl s)
  intro t b ht
  exact ht.trans (unblock t b)

theorem replaceTop (s : Vm σ) {f : Frame σ} {rest stack : List (Frame σ)}
    (hstack : s.stack = f :: rest) (hnew : ∀ g ∈ stack, g.caller = f.caller ∨ g ∈ rest) :
    Quiet s { s with stack := stack } := by
  refine ⟨rfl, ⟨[], by simp, by simp⟩, ?_⟩
  rintro num pid (⟨g, hg, hc⟩ | hrest)
  · rcases hnew g hg with hsame | hin
    · exact Or.inl ⟨f, by simp [hstack], hsame.symm.trans hc⟩
    · exact Or.inl ⟨g, by simp [hstack, hin], hc⟩
  · exact Or.inr hrest

theorem continueWith (s : Vm σ) {f : Frame σ} {rest : List (Frame σ)} (code : Prog σ)
    (hstack : s.stack = f :: rest) : Quiet s (s.continueWith f.caller code rest) := by
  refine replaceTop s hstack ?_
  intro g hg
  rcases List.mem_cons.1 hg with rfl | hg
  · exact Or.inl rfl
  · exact Or.inr hg

/-- `c` is running code. -/
theorem andThen (s : Vm σ) {c : Caller} (hc : s.Mentions c) (p : PromiseId)
    (callback : Outcome → Prog σ) : Quiet s (s.andThen p c callback) := by
  unfold Vm.andThen
  split
  · refine ⟨?_, ⟨[], by simp, by simp⟩, ?_⟩
    · simp [Vm.core, Vm.reactions, Microtask.isReaction]
    · rintro num pid (hstack | ⟨code, hcode⟩ | hcb)
      · exact Or.inl hstack
      · rcases List.mem_append.1 hcode with hold | hnew
        · exact Or.inr (Or.inl ⟨code, hold⟩)
        · have hsame : .update num pid = c := by
            have := List.mem_singleton.1 hnew
            injection this
          exact hsame ▸ hc
      · exact Or.inr (Or.inr hcb)
  · refine ⟨rfl, ⟨[], by simp, by simp⟩, ?_⟩
    rintro num pid (hstack | hcode | ⟨p', callback', hcb⟩)
    · exact Or.inl hstack
    · exact Or.inr (Or.inl hcode)
    · by_cases hp : p' = p
      · subst hp
        have hcb : (.update num pid, callback') ∈ (s.promises p').callbacks ++ [(c, callback)] := by
          simpa using hcb
        rcases List.mem_append.1 hcb with hold | hnew
        · exact Or.inr (Or.inr ⟨p', callback', hold⟩)
        · have hsame : .update num pid = c := by
            have := List.mem_singleton.1 hnew
            injection this
          exact hsame ▸ hc
      · exact Or.inr (Or.inr ⟨p', callback', by
          simpa [Function.update_of_ne hp] using hcb⟩)

theorem note (s : Vm σ) {n : Note} (hn : n.isPlain = true) : Quiet s (s.note n) :=
  ⟨rfl, ⟨[n], rfl, by simpa using hn⟩, fun _ _ h => h⟩

theorem call (s : Vm σ) {c : Caller} (hc : ∀ num pid, c ≠ .update num pid) (code : Prog σ) :
    Quiet s (s.call c code) := by
  refine ⟨rfl, ⟨[], by simp [Vm.call], by simp⟩, ?_⟩
  rintro num pid (⟨f, hf, hcaller⟩ | hrest)
  · rcases List.mem_cons.1 hf with rfl | hf
    · exact absurd hcaller (hc num pid)
    · exact Or.inl ⟨f, hf, hcaller⟩
  · exact Or.inr hrest

end Quiet

namespace Vm

/-- What an instruction does: mostly something quiet. -/
theorem stepCode_cases {c : Caller} {code : Prog σ} {rest : List (Frame σ)}
    (hstack : s.stack = .code c code :: rest) :
    Quiet s (s.stepCode c rest code) ∨
    (∃ id k, code = .command id k ∧
      s.stepCode c rest code = (s.pushCommand (.code c) (.user id)).continueWith c k rest) ∨
    (∃ reason k, code = .unhandled reason k ∧
      s.stepCode c rest code = (s.leaveRejected reason).continueWith c k rest) ∨
    (∃ o, code = .settle o ∧ s.stepCode c rest code = { s with stack := rest }.settleCall c o) := by
  have hc : s.Mentions c := Or.inl ⟨.code c code, by simp [hstack], rfl⟩
  have hgoOn : ∀ {t : Vm σ} (code' : Prog σ), Quiet s t → t.stack = s.stack →
      Quiet s (t.continueWith c code' rest) := by
    intro t code' hst hsame
    exact hst.trans (.continueWith t code' (hsame.trans hstack))
  have hloop : ∀ {t : Vm σ} {f : Frame σ}, Quiet s t → t.stack = s.stack → f.caller = c →
      Quiet s { t with stack := f :: rest } := by
    intro t f hst hsame hf
    refine hst.trans (.replaceTop t (hsame.trans hstack) ?_)
    intro g hg
    rcases List.mem_cons.1 hg with rfl | hg
    · exact Or.inl hf
    · exact Or.inr hg
  cases code with
  | pause =>
    refine Or.inl (.replaceTop s hstack ?_)
    intro g hg
    exact Or.inr hg
  | settle o => exact Or.inr (Or.inr (Or.inr ⟨o, rfl, rfl⟩))
  | read k => exact Or.inl (hgoOn _ (.refl s) rfl)
  | write | deleteCondition | unsetDefaultSignalHandler | unsetDefaultUpdateHandler =>
    exact Or.inl (hgoOn _ (.of_eq rfl rfl rfl rfl rfl) rfl)
  | command id k => exact Or.inr (Or.inl ⟨id, k, rfl, rfl⟩)
  | andThen p callback k =>
    refine Or.inl (hgoOn _ (.andThen s hc p callback) ?_)
    unfold Vm.andThen
    split <;> rfl
  | settlePromise p o k => exact Or.inl (hgoOn _ (.settlePromise s p o) rfl)
  | condition fn p k =>
    refine Or.inl ?_
    have hseq : Quiet s { s with nextCondition := s.nextCondition + 1 } :=
      .of_eq rfl rfl rfl rfl rfl
    simp only [stepCode]
    split
    · exact hgoOn _ (hseq.trans (.settlePromise _ p _)) rfl
    · exact hgoOn _ (.of_eq rfl rfl rfl rfl rfl) rfl
  | unhandled reason k => exact Or.inr (Or.inr (Or.inl ⟨reason, k, rfl, rfl⟩))
  | setSignalHandler name handler k =>
    refine Or.inl ?_
    simp only [stepCode]
    split
    · exact hgoOn _ (.refl s) rfl
    · exact hloop (t := { s with inbox := { s.inbox with
        signalHandlers := Function.update s.inbox.signalHandlers name (some handler) } })
        (.of_eq rfl rfl rfl rfl rfl) rfl rfl
  | unsetSignalHandler | unsetUpdateHandler =>
    refine Or.inl ?_
    simp only [stepCode]
    split
    · exact hgoOn _ (.refl s) rfl
    · exact hgoOn _ (.of_eq rfl rfl rfl rfl rfl) rfl
  | setDefaultSignalHandler handler k =>
    exact Or.inl (hloop (t := { s with
      inbox := { s.inbox with defaultSignalHandler := some handler } })
      (.of_eq rfl rfl rfl rfl rfl) rfl rfl)
  | setUpdateHandler name validator handler k =>
    refine Or.inl ?_
    simp only [stepCode]
    split
    · exact hgoOn _ (.refl s) rfl
    · exact hloop (t := { s with inbox := { s.inbox with
        updateHandlers :=
          Function.update s.inbox.updateHandlers name (some ⟨validator, handler⟩) } })
        (.of_eq rfl rfl rfl rfl rfl) rfl rfl
  | setDefaultUpdateHandler handler k =>
    exact Or.inl (hloop (t := { s with
      inbox := { s.inbox with defaultUpdateHandler := some handler } })
      (.of_eq rfl rfl rfl rfl rfl) rfl rfl)

/-! ## Updates -/

/-- `s` with `n` new argument objects and the notes of `validate`. -/
def decoded (s : Vm σ) (n : Nat) (notes : List Note) : Vm σ :=
  { s with nextObject := s.nextObject + n, trace := s.trace ++ notes }

/-- The ways out of `validate`: the arguments cannot be decoded, the validator throws, or both
succeed, and then the handler's object is decoded after the validator's one. -/
theorem validate_cases (cfg : Config σ) (s : Vm σ) (u : DoUpdate) (entry : UpdateHandler σ) :
    (∃ e, cfg.arrayFromPayloads u.input = .error e ∧
      s.validate cfg u entry = (s.decoded 0 [], .error e)) ∨
    (∃ args validator e, cfg.arrayFromPayloads u.input = .ok args ∧
      validatorFor u entry = some validator ∧ validator s.heap s.info args = .error e ∧
      s.validate cfg u entry = (s.decoded 1 [.validated u s.nextObject], .error e)) ∨
    (∃ args validator, cfg.arrayFromPayloads u.input = .ok args ∧
      validatorFor u entry = some validator ∧ validator s.heap s.info args = .ok () ∧
      s.validate cfg u entry = (s.decoded 2 [.validated u s.nextObject], .ok args)) ∨
    (∃ args, cfg.arrayFromPayloads u.input = .ok args ∧ validatorFor u entry = none ∧
      s.validate cfg u entry = (s.decoded 1 [], .ok args)) := by
  cases hd : cfg.arrayFromPayloads u.input with
  | error e =>
    refine Or.inl ⟨e, rfl, ?_⟩
    cases hv : validatorFor u entry with
    | none | some => simp [validate, makeInput, hd, hv, decoded]
  | ok args =>
    cases hv : validatorFor u entry with
    | none =>
      refine Or.inr (Or.inr (Or.inr ⟨args, rfl, rfl, ?_⟩))
      simp [validate, makeInput, hd, hv, decoded]
    | some validator =>
      cases hr : validator s.heap s.info args with
      | error e =>
        refine Or.inr (Or.inl ⟨args, validator, e, rfl, rfl, hr, ?_⟩)
        simp [validate, makeInput, hd, hv, hr, decoded, note]
      | ok _ =>
        refine Or.inr (Or.inr (Or.inl ⟨args, validator, rfl, rfl, hr, ?_⟩))
        simp [validate, makeInput, hd, hv, hr, decoded, note]

theorem validate_congr (hheap : t.heap = s.heap) (hinfo : t.info = s.info) (u : DoUpdate)
    (entry : UpdateHandler σ) : (t.validate cfg u entry).2 = (s.validate cfg u entry).2 := by
  unfold validate makeInput
  cases validatorFor u entry with
  | none =>
    cases cfg.arrayFromPayloads u.input <;> rfl
  | some validator =>
    cases hd : cfg.arrayFromPayloads u.input with
    | error e => rfl
    | ok args =>
      simp only [hheap, hinfo]
      cases validator s.heap s.info args <;> rfl

/-- The state in which the handler of an accepted update starts. -/
def handUpdate (s : Vm σ) (u : DoUpdate) (code : Prog σ) : Vm σ :=
  ((s.acceptUpdate u).note (.updateHanded u s.nextNum (s.nextObject - 1))).call
    (.update s.nextNum u.protocolInstanceId) code

/-- An update with a handler is rejected, or the rejection throws, or its handler starts.  `n` and
`notes` are what validation leaves behind. -/
theorem doUpdateImpl_cases (cfg : Config σ) (s : Vm σ) (u : DoUpdate) (entry : UpdateHandler σ) :
    ∃ n notes, (notes = [] ∨ notes = [.validated u s.nextObject]) ∧ notes.length ≤ n ∧
      ((∃ e, (s.validate cfg u entry).2 = .error e ∧
        ((∃ failure, cfg.errorToFailure e = .ok failure ∧
          s.doUpdateImpl cfg u entry = (s.decoded n notes).pushCommand (.update u)
            (.updateResponse u.protocolInstanceId (.rejected failure))) ∨
        (∃ e', cfg.errorToFailure e = .error e' ∧
          s.doUpdateImpl cfg u entry = (s.decoded n notes).leaveRejected e'))) ∨
      (∃ args, (s.validate cfg u entry).2 = .ok args ∧ n = notes.length + 1 ∧
        cfg.arrayFromPayloads u.input = .ok args ∧
        (∀ validator, validatorFor u entry = some validator →
          validator s.heap s.info args = .ok () ∧ notes = [.validated u s.nextObject]) ∧
        s.doUpdateImpl cfg u entry = (s.decoded n notes).handUpdate u (entry.handler args))) := by
  have hreject : ∀ {t : Vm σ} {e : JsValue}, s.validate cfg u entry = (t, .error e) →
      (∃ failure, cfg.errorToFailure e = .ok failure ∧
        s.doUpdateImpl cfg u entry = t.pushCommand (.update u)
          (.updateResponse u.protocolInstanceId (.rejected failure))) ∨
      (∃ e', cfg.errorToFailure e = .error e' ∧
        s.doUpdateImpl cfg u entry = t.leaveRejected e') := by
    intro t e hv
    cases hf : cfg.errorToFailure e with
    | ok failure => exact Or.inl ⟨failure, rfl, by simp [doUpdateImpl, hv, rejectUpdate, hf]⟩
    | error e' => exact Or.inr ⟨e', rfl, by simp [doUpdateImpl, hv, rejectUpdate, hf]⟩
  have haccept : ∀ {t : Vm σ} {args : Args}, s.validate cfg u entry = (t, .ok args) →
      s.doUpdateImpl cfg u entry = t.handUpdate u (entry.handler args) := by
    intro t args hv
    simp [doUpdateImpl, hv, handUpdate, acceptUpdate, pushCommand]
  rcases validate_cases cfg s u entry with
    ⟨e, _, hv⟩ | ⟨args, validator, e, _, _, _, hv⟩ | ⟨args, validator, hd, hval, hok, hv⟩ |
    ⟨args, hd, hval, hv⟩
  · exact ⟨0, [], Or.inl rfl, by simp, Or.inl ⟨e, by rw [hv], hreject hv⟩⟩
  · exact ⟨1, _, Or.inr rfl, by simp, Or.inl ⟨e, by rw [hv], hreject hv⟩⟩
  · refine ⟨2, _, Or.inr rfl, by simp, Or.inr ⟨args, by rw [hv], rfl, hd, ?_, haccept hv⟩⟩
    intro validator' hval'
    have hsame : validator = validator' := by simpa [hval] using hval'
    exact ⟨hsame ▸ hok, rfl⟩
  · refine ⟨1, [], Or.inl rfl, by simp, Or.inr ⟨args, by rw [hv], rfl, hd, ?_, haccept hv⟩⟩
    intro validator' hval'
    simp [hval] at hval'

/-! ## What throws -/

/-- `signalWorkflow` throws. -/
def refusesSignal (cfg : Config σ) (s : Vm σ) (sig : SignalWorkflow) : Bool :=
  sig.signalName == "" ||
    reservedClash sig.signalName (s.inbox.signalHandlers sig.signalName).isSome
      s.inbox.defaultSignalHandler.isSome ||
    ((s.signalFunction sig.signalName).isSome && !(cfg.arrayFromPayloads sig.input).isOk)

/-- `doUpdate` throws, or the failure converter does when the update is to be rejected. -/
def refusesUpdate (cfg : Config σ) (s : Vm σ) (u : DoUpdate) : Bool :=
  u.id == "" || u.name == "" || u.protocolInstanceId == "" ||
    reservedClash u.name (s.inbox.updateHandlers u.name).isSome
      s.inbox.defaultUpdateHandler.isSome ||
    match s.updateEntry u.name with
    | none => false
    | some entry =>
      match (s.validate cfg u entry).2 with
      | .error e => !(cfg.errorToFailure e).isOk
      | .ok _ => false

theorem refusesUpdate_congr (hheap : t.heap = s.heap) (hinfo : t.info = s.info)
    (hhandlers : t.inbox.updateHandlers = s.inbox.updateHandlers)
    (hdefault : t.inbox.defaultUpdateHandler = s.inbox.defaultUpdateHandler) (u : DoUpdate) :
    refusesUpdate cfg t u = refusesUpdate cfg s u := by
  have hentry : t.updateEntry u.name = s.updateEntry u.name := by
    simp [updateEntry, hhandlers, hdefault]
  unfold refusesUpdate
  rw [hentry, hhandlers, hdefault]
  cases s.updateEntry u.name with
  | none => rfl
  | some entry => simp only [validate_congr hheap hinfo]

/-- The state in which the handler of a signal starts. -/
def handSignal (s : Vm σ) (sig : SignalWorkflow) (code : Prog σ) : Vm σ :=
  (s.note (.signalHanded sig s.nextNum)).call (.signal s.nextNum) code

theorem signalWorkflow_cases {sig : SignalWorkflow} (h : refusesSignal cfg s sig = false) :
    (s.signalFunction sig.signalName = none ∧
      s.signalWorkflow cfg sig = (s.bufferSignal sig, none)) ∨
    (∃ handler args, s.signalFunction sig.signalName = some handler ∧
      s.signalWorkflow cfg sig = (s.handSignal sig (handler args), none)) := by
  simp only [refusesSignal, Bool.or_eq_false_iff, beq_eq_false_iff_ne] at h
  rcases h with ⟨⟨hname, hclash⟩, hdecode⟩
  cases hf : s.signalFunction sig.signalName with
  | none =>
    refine Or.inl ⟨rfl, ?_⟩
    simp [signalWorkflow, hname, hclash, hf]
  | some handler =>
    cases hd : cfg.arrayFromPayloads sig.input with
    | error e => simp [hf, hd, Except.isOk, Except.toBool] at hdecode
    | ok args =>
      refine Or.inr ⟨handler, args, rfl, ?_⟩
      simp [signalWorkflow, hname, hclash, hf, hd, handSignal]

theorem doUpdate_cases {u : DoUpdate} (h : refusesUpdate cfg s u = false) :
    (s.updateEntry u.name = none ∧ s.doUpdate cfg u = (s.bufferUpdate u, none)) ∨
    (∃ entry, s.updateEntry u.name = some entry ∧
      (∀ e, (s.validate cfg u entry).2 = .error e → (cfg.errorToFailure e).isOk = true) ∧
      s.doUpdate cfg u = (s.doUpdateImpl cfg u entry, none)) := by
  simp only [refusesUpdate, Bool.or_eq_false_iff, beq_eq_false_iff_ne] at h
  rcases h with ⟨⟨⟨⟨hid, hname⟩, hpid⟩, hclash⟩, hreject⟩
  cases hentry : s.updateEntry u.name with
  | none =>
    refine Or.inl ⟨rfl, ?_⟩
    simp [doUpdate, hid, hname, hpid, hclash, hentry]
  | some entry =>
    refine Or.inr ⟨entry, rfl, ?_, ?_⟩
    · intro e he
      simpa [hentry, he] using hreject
    · simp [doUpdate, hid, hname, hpid, hclash, hentry]

/-! ## All branches -/

theorem signalWorkflow_any (cfg : Config σ) (s : Vm σ) (sig : SignalWorkflow) :
    (∃ n e, s.signalWorkflow cfg sig = ({ s with nextNum := n }, some e) ∧ s.nextNum ≤ n) ∨
    s.signalWorkflow cfg sig = (s.bufferSignal sig, none) ∨
    (∃ code, s.signalWorkflow cfg sig = (s.handSignal sig code, none)) := by
  unfold signalWorkflow
  split
  · exact Or.inl ⟨s.nextNum, _, rfl, Nat.le_refl _⟩
  · split
    · exact Or.inl ⟨s.nextNum, _, rfl, Nat.le_refl _⟩
    · split
      · exact Or.inr (Or.inl rfl)
      · split
        · exact Or.inl ⟨s.nextNum + 1, _, rfl, Nat.le_succ _⟩
        · exact Or.inr (Or.inr ⟨_, rfl⟩)

theorem doUpdate_any (cfg : Config σ) (s : Vm σ) (u : DoUpdate) :
    (∃ e, s.doUpdate cfg u = (s, some e)) ∨
    (s.updateEntry u.name = none ∧ s.doUpdate cfg u = (s.bufferUpdate u, none)) ∨
    (∃ entry, s.updateEntry u.name = some entry ∧
      s.doUpdate cfg u = (s.doUpdateImpl cfg u entry, none)) := by
  unfold doUpdate
  split
  · exact Or.inl ⟨_, rfl⟩
  · split
    · exact Or.inl ⟨_, rfl⟩
    · split
      · exact Or.inl ⟨_, rfl⟩
      · split
        · exact Or.inl ⟨_, rfl⟩
        · split
          · rename_i hnone
            exact Or.inr (Or.inl ⟨hnone, rfl⟩)
          · rename_i entry hentry
            exact Or.inr (Or.inr ⟨entry, hentry, rfl⟩)

/-- The answer to a query whose promise has settled, unless a converter throws. -/
def queryResponse (cfg : Config σ) : Outcome → Except JsValue QueryResponse
  | .ok v => (cfg.toPayload v).map .succeeded
  | .error v => (cfg.errorToFailure v).map .failed

theorem runMicrotask_respond (cfg : Config σ) (s : Vm σ) (queryId : String) (o : Outcome) :
    s.runMicrotask cfg (.respond queryId o) =
      match queryResponse cfg o with
      | .ok response => s.pushCommand (.query queryId) (.respondToQuery queryId response)
      | .error e => s.leaveRejected e := by
  cases o with
  | ok v =>
    simp only [runMicrotask, completeQuery, queryResponse]
    cases cfg.toPayload v <;> rfl
  | error v =>
    simp only [runMicrotask, failQuery, queryResponse]
    cases cfg.errorToFailure v <;> rfl

theorem queryWorkflow_eq (s : Vm σ) (queryId : String) (handling : QueryHandling) :
    s.queryWorkflow queryId handling = { s with
      rejections := s.rejections ++ handling.leftRejected.toList
      microtasks := s.microtasks ++ (handling.answer.map (.respond queryId)).toList } := by
  unfold queryWorkflow
  cases handling.leftRejected <;> cases handling.answer <;> simp [leaveRejected]

theorem handleWorkflowFailure_cases (cfg : Config σ) (s : Vm σ) (c : Caller) (v : JsValue) :
    (∃ command, s.handleWorkflowFailure cfg c v = s.pushCommand (.thrown c v) command ∧
      (command = .cancelWorkflowExecution ∨ command = .continueAsNewWorkflowExecution ∨
        ∃ failure, command = .failWorkflowExecution failure)) ∨
    (∃ e, s.handleWorkflowFailure cfg c v = s.leaveRejected e) ∨
    (failureAction cfg.failureTypes s.cancelled v = .recordTaskError ∧
      s.handleWorkflowFailure cfg c v = s.recordWorkflowTaskError c v) := by
  unfold handleWorkflowFailure
  split
  · exact Or.inl ⟨_, rfl, Or.inl rfl⟩
  · exact Or.inl ⟨_, rfl, Or.inr (Or.inl rfl)⟩
  · split
    · exact Or.inl ⟨_, rfl, Or.inr (Or.inr ⟨_, rfl⟩)⟩
    · exact Or.inr (Or.inl ⟨_, rfl⟩)
  · rename_i haction
    exact Or.inr (Or.inr ⟨haction, rfl⟩)

end Vm
end TemporalSdk.Activation
