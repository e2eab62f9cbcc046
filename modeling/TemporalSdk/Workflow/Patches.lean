import TemporalSdk.Workflow.Protocol

/-!
# Patches — `patched` and `deprecatePatch`, live and in replay

`patchInternal` keeps three sets: the patches that Core says are present (`notifyHasPatch`), the
decisions taken so far, and the markers sent.  A program is an adaptive tree of calls, cut into
workflow tasks.  `liveTasks` runs it with the worker's callback; `replay` runs it again from scratch,
with `notifyHasPatch` delivered before each task for the markers that the live run emitted in it.
-/

namespace TemporalSdk.Workflow

/-- The `setPatchMarker` command. -/
structure SetPatchMarker where
  patchId : String
  deprecated : Bool
  deriving DecidableEq

/-- The user's `patchActivationCallback`.  It may use time, randomness and side effects, so its
outcome depends on how often it has been called, and it may throw. -/
abbrev PatchActivationCallback := Nat → String → Except JsError Bool

/-! ## The state -/

/-- What `Activator` keeps about patches. -/
structure Patches where
  -- `this.workflow !== undefined`.
  started : Bool
  isReplaying : Bool
  knownPresentPatches : String → Bool
  patchDecisions : String → Option Bool
  sentPatches : String → Bool
  commands : List SetPatchMarker
  -- How often the callback has been called.
  callbackCalls : Nat

namespace Patches

def init (isReplaying : Bool) : Patches :=
  { started := true
    isReplaying := isReplaying
    knownPresentPatches := fun _ => false
    patchDecisions := fun _ => none
    sentPatches := fun _ => false
    commands := []
    callbackCalls := 0 }

/-! ## Operations -/

/-- `this.knownPresentPatches.add(patchId)`. -/
def know (p : Patches) (patchId : String) : Patches :=
  { p with knownPresentPatches := Function.update p.knownPresentPatches patchId true }

def notifyHasPatch (p : Patches) (patchId : String) : Except JsError Patches :=
  if !p.isReplaying then
    .error (.illegalState "Unexpected notifyHasPatch job on non-replay activation")
  else if patchId = "" then
    .error (.typeError "notifyHasPatch missing patch id")
  else
    .ok (p.know patchId)

/-- `this.patchActivationCallback(this.info, patchId)`. -/
def callCallback (p : Patches) (callback : PatchActivationCallback) (patchId : String) :
    Patches × Except JsError Bool :=
  ({ p with callbackCalls := p.callbackCalls + 1 }, callback p.callbackCalls patchId)

/-- `usePatch`, before it is recorded. -/
def usePatch (p : Patches) (callback : Option PatchActivationCallback) (patchId : String)
    (deprecated : Bool) : Patches × Except JsError Bool :=
  match callback with
  | some callback =>
    if !p.knownPresentPatches patchId && !deprecated then p.callCallback callback patchId
    else (p, .ok true)
  | none => (p, .ok true)

/-- Record the decision and push the marker once.  `eventGroups` is the outcome of converting the
groups attached to the command. -/
def decide (p : Patches) (patchId : String) (deprecated usePatch : Bool)
    (eventGroups : Except JsError Unit) : Patches × Except JsError Bool :=
  let p := { p with patchDecisions := Function.update p.patchDecisions patchId (some usePatch) }
  if usePatch && !p.sentPatches patchId then
    match eventGroups with
    | .error e => (p, .error e)
    | .ok _ =>
      ({ p with
        commands := p.commands ++ [⟨patchId, deprecated⟩]
        sentPatches := Function.update p.sentPatches patchId true }, .ok usePatch)
  else
    (p, .ok usePatch)

def patchInternal (p : Patches) (callback : Option PatchActivationCallback) (patchId : String)
    (deprecated : Bool) (eventGroups : Except JsError Unit) : Patches × Except JsError Bool :=
  if !p.started then
    (p, .error (.illegalState "Patches cannot be used before Workflow starts"))
  else
    match p.patchDecisions patchId with
    | some previousDecision => (p, .ok previousDecision)
    | none =>
      -- A missing marker during replay is not a final decision.
      if p.isReplaying && !p.knownPresentPatches patchId then
        (p, .ok false)
      else
        match p.usePatch callback patchId deprecated with
        | (p, .error e) => (p, .error e)
        | (p, .ok usePatch) => p.decide patchId deprecated usePatch eventGroups

end Patches

/-! ## Programs -/

/-- A program that calls `patched(id)` (`deprecated = false`) and `deprecatePatch(id)`
(`deprecated = true`) and goes on according to what the calls return or throw.  `endTask` ends a
workflow task. -/
inductive PatchProgram
  | done
  | call (patchId : String) (deprecated : Bool) (next : Except JsError Bool → PatchProgram)
  | endTask (next : PatchProgram)

/-- Every patch id that the program may use is non-empty. -/
def PatchProgram.Named : PatchProgram → Prop
  | .done => True
  | .call patchId _ next => patchId ≠ "" ∧ ∀ r, (next r).Named
  | .endTask next => next.Named

structure PatchCall where
  patchId : String
  deprecated : Bool
  result : Except JsError Bool

/-- What a workflow task leaves behind: its calls in order and its commands. -/
structure PatchTask where
  calls : List PatchCall
  markers : List SetPatchMarker

/-- The ids for which `notifyHasPatch` is delivered when the task is replayed. -/
def PatchTask.ids (t : PatchTask) : List String := t.markers.map SetPatchMarker.patchId

namespace Patches

/-- The rest of the current task, in which `calls` have been made, and the tasks after it. -/
def liveTasks (callback : Option PatchActivationCallback) :
    PatchProgram → Patches → List PatchCall → List PatchTask
  | .done, p, calls => [⟨calls, p.commands⟩]
  | .endTask next, p, calls =>
    ⟨calls, p.commands⟩ :: liveTasks callback next { p with commands := [] } []
  | .call patchId deprecated next, p, calls =>
    let r := p.patchInternal callback patchId deprecated (.ok ())
    liveTasks callback (next r.2) r.1 (calls ++ [⟨patchId, deprecated, r.2⟩])

def live (callback : Option PatchActivationCallback) (program : PatchProgram) : List PatchTask :=
  liveTasks callback program (init false) []

/-- The `notifyHasPatch` jobs of an activation. -/
def notifyAll (p : Patches) (ids : List String) : Except JsError Patches :=
  ids.foldlM notifyHasPatch p

/-- `liveTasks` in replay: each task starts with the jobs that `notify` lists for it, and a job that
throws fails the activation. -/
def replayTasks (callback : Option PatchActivationCallback) :
    PatchProgram → Patches → List PatchCall → List (List String) → Except JsError (List PatchTask)
  | .done, p, calls, _ => .ok [⟨calls, p.commands⟩]
  | .endTask next, p, calls, notify => do
    let p' ← notifyAll { p with commands := [] } (notify.headD [])
    let rest ← replayTasks callback next p' [] notify.tail
    return ⟨calls, p.commands⟩ :: rest
  | .call patchId deprecated next, p, calls, notify =>
    let r := p.patchInternal callback patchId deprecated (.ok ())
    replayTasks callback (next r.2) r.1 (calls ++ [⟨patchId, deprecated, r.2⟩]) notify

def replay (callback : Option PatchActivationCallback) (program : PatchProgram)
    (notify : List (List String)) : Except JsError (List PatchTask) := do
  let p ← notifyAll (init true) (notify.headD [])
  replayTasks callback program p [] notify.tail

/-! ## One decision -/

section Decide

variable (p : Patches) (patchId : String) (deprecated : Bool)

theorem decide_result (b : Bool) : (p.decide patchId deprecated b (.ok ())).2 = .ok b := by
  unfold decide
  cases b with
  | false => rfl
  | true =>
    simp only [Bool.true_and]
    split <;> rfl

theorem decide_patchDecisions (b : Bool) :
    (p.decide patchId deprecated b (.ok ())).1.patchDecisions =
      Function.update p.patchDecisions patchId (some b) := by
  unfold decide
  cases b with
  | false => rfl
  | true =>
    simp only [Bool.true_and]
    split <;> rfl

theorem decide_true (h : p.sentPatches patchId = false) :
    (p.decide patchId deprecated true (.ok ())).1 =
      { p with
        patchDecisions := Function.update p.patchDecisions patchId (some true)
        commands := p.commands ++ [⟨patchId, deprecated⟩]
        sentPatches := Function.update p.sentPatches patchId true } := by
  simp [decide, h]

theorem decide_false :
    (p.decide patchId deprecated false (.ok ())).1 =
      { p with patchDecisions := Function.update p.patchDecisions patchId (some false) } := by
  simp [decide]

end Decide

/-! ## The live run -/

/-- The live run knows of no markers but those it has sent, one for each patch it has decided to
use. -/
structure LiveOk (p : Patches) : Prop where
  started : p.started = true
  live : p.isReplaying = false
  unknown : ∀ id, p.knownPresentPatches id = false
  sent : ∀ id, p.sentPatches id = true ↔ p.patchDecisions id = some true
  pushed : ∀ m ∈ p.commands, p.sentPatches m.patchId = true

/-- The callback returns an actual boolean, as its documentation asks. -/
def ReturnsBoolean (callback : Option PatchActivationCallback) : Prop :=
  ∀ f, callback = some f → ∀ n id, ∃ b, f n id = .ok b

variable {callback : Option PatchActivationCallback} {p : Patches}

variable {id : String}

theorem LiveOk.not_sent (h : LiveOk p) (hid : p.patchDecisions id = none) :
    p.sentPatches id = false := by
  by_contra hs
  have hs : p.sentPatches id = true := by simpa using hs
  rw [(h.sent id).1 hs] at hid
  simp at hid

theorem LiveOk.decide (h : LiveOk p) (hid : p.patchDecisions id = none)
    (deprecated b : Bool) : LiveOk (p.decide id deprecated b (.ok ())).1 := by
  have hns := h.not_sent hid
  cases b with
  | false =>
    rw [decide_false]
    refine { h with sent := ?_ }
    intro id'
    by_cases heq : id' = id
    · subst heq
      simp [hns]
    · simpa [Function.update_of_ne heq] using h.sent id'
  | true =>
    rw [decide_true _ _ _ hns]
    refine ⟨h.started, h.live, h.unknown, ?_, ?_⟩
    · intro id'
      by_cases heq : id' = id
      · subst heq
        simp
      · simpa [Function.update_of_ne heq] using h.sent id'
    · intro m hm
      by_cases heq : m.patchId = id
      · simp [heq]
      · rcases List.mem_append.1 hm with hm | hm
        · simpa [Function.update_of_ne heq] using h.pushed m hm
        · have : m = ⟨id, deprecated⟩ := by simpa using hm
          exact absurd (by rw [this]) heq

theorem patchInternal_decided (hstarted : p.started = true) {d : Bool}
    (hid : p.patchDecisions id = some d) (deprecated : Bool) :
    p.patchInternal callback id deprecated (.ok ()) = (p, .ok d) := by
  simp [patchInternal, hstarted, hid]

theorem patchInternal_live (h : LiveOk p) (hcb : ReturnsBoolean callback)
    (hid : p.patchDecisions id = none) (deprecated : Bool) :
    ∃ n b, p.patchInternal callback id deprecated (.ok ()) =
      { p with callbackCalls := n }.decide id deprecated b (.ok ()) := by
  have huse : ∃ n b, p.usePatch callback id deprecated =
      ({ p with callbackCalls := n }, .ok b) := by
    unfold usePatch
    cases hc : callback with
    | none => exact ⟨p.callbackCalls, true, rfl⟩
    | some f =>
      simp only
      split
      · rcases hcb f hc p.callbackCalls id with ⟨b, hb⟩
        exact ⟨p.callbackCalls + 1, b, by simp [callCallback, hb]⟩
      · exact ⟨p.callbackCalls, true, rfl⟩
  rcases huse with ⟨n, b, huse⟩
  refine ⟨n, b, ?_⟩
  simp [patchInternal, h.started, h.live, hid, huse]

/-- What a live call does: it keeps the invariant, returns a boolean, and is decided from then on;
whatever it decides anew stays undecided for every other patch. -/
theorem liveCall_cases (h : LiveOk p) (hcb : ReturnsBoolean callback) (id : String)
    (deprecated : Bool) :
    (∃ d, p.patchDecisions id = some d ∧
      p.patchInternal callback id deprecated (.ok ()) = (p, .ok d)) ∨
    (p.patchDecisions id = none ∧ ∃ p' b, LiveOk p' ∧
      p.patchInternal callback id deprecated (.ok ()) = (p', .ok b) ∧
      p'.patchDecisions = Function.update p.patchDecisions id (some b) ∧
      p'.commands = p.commands ++ (if b then [⟨id, deprecated⟩] else []) ∧
      p'.sentPatches = if b then Function.update p.sentPatches id true else p.sentPatches) := by
  cases hid : p.patchDecisions id with
  | some d => exact Or.inl ⟨d, rfl, patchInternal_decided h.started hid deprecated⟩
  | none =>
    rcases patchInternal_live h hcb hid deprecated with ⟨n, b, heq⟩
    have hq : LiveOk { p with callbackCalls := n } :=
      { h with }
    have hns : { p with callbackCalls := n }.sentPatches id = false := h.not_sent hid
    refine Or.inr ⟨rfl, _, b, hq.decide hid deprecated b, ?_, ?_, ?_, ?_⟩
    · rw [heq]
      exact Prod.ext rfl (decide_result _ _ _ _)
    · exact decide_patchDecisions _ _ _ _
    all_goals
      cases b with
      | false => simp [decide_false]
      | true => simp [decide_true _ _ _ hns]

/-! ## Markers and results of the live run -/

theorem undecided_of_update {decisions : String → Option Bool} {id id' : String} {b : Bool}
    (h : Function.update decisions id (some b) id' = none) :
    id' ≠ id ∧ decisions id' = none := by
  have hne : id' ≠ id := by
    rintro rfl
    simp at h
  exact ⟨hne, by simpa [Function.update_of_ne hne] using h⟩

/-- From any state on, the live run emits each marker once, and only for patches that are not
decided yet. -/
theorem liveTasks_markers (hcb : ReturnsBoolean callback) (program : PatchProgram) :
    ∀ {p : Patches} (calls : List PatchCall), LiveOk p →
      ∃ new, (liveTasks callback program p calls).flatMap PatchTask.ids =
          p.commands.map SetPatchMarker.patchId ++ new ∧
        new.Nodup ∧ ∀ id ∈ new, p.patchDecisions id = none := by
  induction program with
  | done =>
    intro p calls _
    exact ⟨[], by simp [liveTasks, PatchTask.ids], List.nodup_nil, by simp⟩
  | endTask next ih =>
    intro p calls h
    have h' : LiveOk { p with commands := [] } :=
      { h with pushed := by simp }
    rcases ih [] h' with ⟨new, hnew, hnodup, hund⟩
    refine ⟨new, ?_, hnodup, hund⟩
    simp only [liveTasks, List.flatMap_cons, hnew]
    simp [PatchTask.ids]
  | call id deprecated next ih =>
    intro p calls h
    rcases liveCall_cases h hcb id deprecated with
      ⟨d, _, heq⟩ | ⟨hid, p', b, h', heq, hdec, hcmd, _⟩
    · simp only [liveTasks, heq]
      exact ih _ _ h
    · simp only [liveTasks, heq]
      rcases ih (.ok b) (calls ++ [⟨id, deprecated, .ok b⟩]) h' with ⟨new, hnew, hnodup, hund⟩
      have hund' : ∀ id' ∈ new, id' ≠ id ∧ p.patchDecisions id' = none := by
        intro id' hin
        exact undecided_of_update (hdec ▸ hund id' hin)
      cases b with
      | false =>
        refine ⟨new, ?_, hnodup, fun id' hin => (hund' id' hin).2⟩
        simpa [hcmd] using hnew
      | true =>
        refine ⟨id :: new, ?_, ?_, ?_⟩
        · simpa [hcmd] using hnew
        · exact List.nodup_cons.2 ⟨fun hin => (hund' id hin).1 rfl, hnodup⟩
        · intro id' hin
          rcases List.mem_cons.1 hin with rfl | hin
          · exact hid
          · exact (hund' id' hin).2

/-- From any state on, calls of one patch return one value, which is the decision if there is one
already. -/
theorem liveTasks_calls (hcb : ReturnsBoolean callback) (program : PatchProgram) :
    ∀ {p : Patches} (calls : List PatchCall), LiveOk p →
      ∃ new, (liveTasks callback program p calls).flatMap PatchTask.calls = calls ++ new ∧
        (∀ c ∈ new, ∀ d, p.patchDecisions c.patchId = some d → c.result = .ok d) ∧
        new.Pairwise fun c d => c.patchId = d.patchId → c.result = d.result := by
  induction program with
  | done =>
    intro p calls _
    exact ⟨[], by simp [liveTasks], by simp, List.Pairwise.nil⟩
  | endTask next ih =>
    intro p calls h
    have h' : LiveOk { p with commands := [] } :=
      { h with pushed := by simp }
    rcases ih [] h' with ⟨new, hnew, hdec, hpair⟩
    refine ⟨new, ?_, hdec, hpair⟩
    simp [liveTasks, hnew]
  | call id deprecated next ih =>
    intro p calls h
    rcases liveCall_cases h hcb id deprecated with
      ⟨d, hid, heq⟩ | ⟨hid, p', b, h', heq, hdec', _, _⟩
    · simp only [liveTasks, heq]
      rcases ih (.ok d) (calls ++ [⟨id, deprecated, .ok d⟩]) h with ⟨new, hnew, hdec, hpair⟩
      refine ⟨⟨id, deprecated, .ok d⟩ :: new, by simpa using hnew, ?_, ?_⟩
      · intro c hc d' hd'
        rcases List.mem_cons.1 hc with rfl | hc
        · have : d = d' := by simpa [hid] using hd'
          rw [this]
        · exact hdec c hc d' hd'
      · refine List.Pairwise.cons ?_ hpair
        intro c hc hsame
        have hsame : id = c.patchId := hsame
        exact (hdec c hc d (hsame ▸ hid)).symm
    · simp only [liveTasks, heq]
      rcases ih (.ok b) (calls ++ [⟨id, deprecated, .ok b⟩]) h' with ⟨new, hnew, hdec, hpair⟩
      refine ⟨⟨id, deprecated, .ok b⟩ :: new, by simpa using hnew, ?_, ?_⟩
      · intro c hc d' hd'
        rcases List.mem_cons.1 hc with rfl | hc
        · simp [hid] at hd'
        · have hne : c.patchId ≠ id := by
            intro heq'
            rw [heq', hid] at hd'
            simp at hd'
          exact hdec c hc d' (by simpa [hdec', Function.update_of_ne hne] using hd')
      · refine List.Pairwise.cons ?_ hpair
        intro c hc hsame
        have hsame : id = c.patchId := hsame
        exact (hdec c hc b (by simp [hdec', ← hsame])).symm

/-! ## The replay -/

/-- The replay has decided, always to use the patch, exactly the patches that the live run has
decided to use, and has sent the same markers. -/
structure Replays (p q : Patches) : Prop where
  started : q.started = true
  replaying : q.isReplaying = true
  decisions : ∀ id, q.patchDecisions id = if p.patchDecisions id = some true then some true else none
  sent : q.sentPatches = p.sentPatches
  commands : q.commands = p.commands

variable {q : Patches}

theorem notifyAll_ok (hq : q.isReplaying = true) :
    ∀ {ids : List String}, (∀ id ∈ ids, id ≠ "") →
      ∃ known, notifyAll q ids = .ok { q with knownPresentPatches := known } ∧
        ∀ id, known id = true ↔ q.knownPresentPatches id = true ∨ id ∈ ids := by
  intro ids
  induction ids generalizing q with
  | nil =>
    intro _
    exact ⟨q.knownPresentPatches, rfl, by simp⟩
  | cons id ids ih =>
    intro hne
    have hid : id ≠ "" := hne id (by simp)
    have hone : q.notifyHasPatch id = .ok (q.know id) := by
      simp [notifyHasPatch, hq, hid]
    have hne' : ∀ id' ∈ ids, id' ≠ "" := fun id' hin => hne id' (List.mem_cons_of_mem _ hin)
    have hq' : (q.know id).isReplaying = true := hq
    rcases ih hq' hne' with ⟨known, hrest, hknown⟩
    refine ⟨known, ?_, ?_⟩
    · simp only [notifyAll, List.foldlM_cons, hone, bind, Except.bind]
      exact hrest
    · intro id'
      rw [hknown id']
      by_cases heq : id' = id <;> simp [know, heq]

theorem replayCall_true (hstarted : q.started = true)
    (hid : q.patchDecisions id = none) (hknown : q.knownPresentPatches id = true)
    (callback : Option PatchActivationCallback) (deprecated : Bool) :
    q.patchInternal callback id deprecated (.ok ()) = q.decide id deprecated true (.ok ()) := by
  have huse : q.usePatch callback id deprecated = (q, .ok true) := by
    unfold usePatch
    cases callback with
    | none => rfl
    | some f => simp [hknown]
  simp [patchInternal, hstarted, hid, hknown, huse]

theorem replayCall_false (hstarted : q.started = true) (hreplay : q.isReplaying = true)
    (hid : q.patchDecisions id = none) (hknown : q.knownPresentPatches id = false)
    (callback : Option PatchActivationCallback) (deprecated : Bool) :
    q.patchInternal callback id deprecated (.ok ()) = (q, .ok false) := by
  simp [patchInternal, hstarted, hreplay, hid, hknown]

/-- One call, live and replayed: the same result, and the states stay related.  What the replay
knows of the patch is whether the live run uses it. -/
theorem replayCall (h : LiveOk p) (hcb : ReturnsBoolean callback)
    (hr : Replays p q) (id : String) (deprecated : Bool)
    (callback' : Option PatchActivationCallback)
    (hknown : p.patchDecisions id ≠ some true → (q.knownPresentPatches id = true ↔
      (p.patchInternal callback id deprecated (.ok ())).2 = .ok true)) :
    ∃ p' q' b, LiveOk p' ∧ Replays p' q' ∧ q'.knownPresentPatches = q.knownPresentPatches ∧
      p.patchInternal callback id deprecated (.ok ()) = (p', .ok b) ∧
      q.patchInternal callback' id deprecated (.ok ()) = (q', .ok b) := by
  have hdec := hr.decisions id
  rcases liveCall_cases h hcb id deprecated with
    ⟨d, hid, heq⟩ | ⟨hid, p', b, h', heq, hdec', hcmd, hsent⟩
  · cases d with
    | true =>
      have hq : q.patchDecisions id = some true := by simpa [hid] using hdec
      exact ⟨p, q, true, h, hr, rfl, heq, patchInternal_decided hr.started hq deprecated⟩
    | false =>
      have hq : q.patchDecisions id = none := by simpa [hid] using hdec
      have hk : q.knownPresentPatches id = false := by
        have := hknown (by simp [hid])
        simpa [heq] using this
      exact ⟨p, q, false, h, hr, rfl, heq,
        replayCall_false hr.started hr.replaying hq hk callback' deprecated⟩
  · have hq : q.patchDecisions id = none := by simpa [hid] using hdec
    have hknown := hknown (by simp [hid])
    cases b with
    | false =>
      have hk : q.knownPresentPatches id = false := by simpa [heq] using hknown
      refine ⟨p', q, false, h', ⟨hr.started, hr.replaying, ?_, ?_, ?_⟩, rfl, heq,
        replayCall_false hr.started hr.replaying hq hk callback' deprecated⟩
      · intro id'
        rw [hdec']
        by_cases hne : id' = id
        · subst hne
          simp [hq]
        · simpa [Function.update_of_ne hne] using hr.decisions id'
      · simp [hsent, hr.sent]
      · simp [hcmd, hr.commands]
    | true =>
      have hk : q.knownPresentPatches id = true := by simpa [heq] using hknown
      have hns : q.sentPatches id = false := by
        rw [hr.sent]
        exact h.not_sent hid
      have hcall := replayCall_true hr.started hq hk callback' deprecated
      have hstate := decide_true q id deprecated hns
      refine ⟨p', (q.decide id deprecated true (.ok ())).1, true, h', ?_, ?_, heq, ?_⟩
      · rw [hstate]
        refine ⟨hr.started, hr.replaying, ?_, ?_, ?_⟩
        · intro id'
          rw [hdec']
          by_cases hne : id' = id
          · simp [hne]
          · simpa [Function.update_of_ne hne] using hr.decisions id'
        · simp [hsent, hr.sent]
        · simp [hcmd, hr.commands]
      · rw [hstate]
      · rw [hcall]
        exact Prod.ext rfl (decide_result _ _ _ _)

/-- What a live call leaves behind: the marker is sent if the call returned `true`, and the patch is
decided against if it returned `false`. -/
theorem liveCall_sent (h : LiveOk p) (hcb : ReturnsBoolean callback)
    {deprecated : Bool} {p' : Patches} {b : Bool}
    (hcall : p.patchInternal callback id deprecated (.ok ()) = (p', .ok b)) :
    (∀ id', p'.sentPatches id' = true ↔ p.sentPatches id' = true ∨ id' = id ∧ b = true) ∧
    (b = true → p.sentPatches id = true ∨ id ∈ p'.commands.map SetPatchMarker.patchId) ∧
    (b = false → p'.patchDecisions id = some false) := by
  rcases liveCall_cases h hcb id deprecated with
    ⟨d, hid, heq⟩ | ⟨hid, p₁, b₁, _, heq, hdec, hcmd, hsent⟩
  · have hp : p = p' ∧ d = b := by simpa [heq] using hcall
    rcases hp with ⟨rfl, rfl⟩
    refine ⟨?_, ?_, fun hd => hd ▸ hid⟩
    · intro id'
      constructor
      · exact Or.inl
      · rintro (hs | ⟨rfl, rfl⟩)
        · exact hs
        · exact (h.sent _).2 hid
    · rintro rfl
      exact Or.inl ((h.sent _).2 hid)
  · have hp : p₁ = p' ∧ b₁ = b := by simpa [heq] using hcall
    rcases hp with ⟨rfl, rfl⟩
    cases b₁ with
    | false => exact ⟨by simp [hsent], by simp, by simp [hdec]⟩
    | true =>
      refine ⟨?_, by simp [hcmd], by simp⟩
      intro id'
      by_cases hne : id' = id <;> simp [hsent, hne]

theorem liveCall_ok (h : LiveOk p) (hcb : ReturnsBoolean callback) (id : String)
    (deprecated : Bool) :
    ∃ p' b, LiveOk p' ∧ p.patchInternal callback id deprecated (.ok ()) = (p', .ok b) := by
  rcases liveCall_cases h hcb id deprecated with ⟨d, _, heq⟩ | ⟨_, p', b, h', heq, _⟩
  · exact ⟨p, d, h, heq⟩
  · exact ⟨p', b, h', heq⟩

theorem liveCall_named (h : LiveOk p) (hcb : ReturnsBoolean callback)
    {deprecated : Bool} {p' : Patches} {r : Except JsError Bool}
    (hcall : p.patchInternal callback id deprecated (.ok ()) = (p', r)) (hid : id ≠ "")
    (hcmd : ∀ m ∈ p.commands, m.patchId ≠ "") : ∀ m ∈ p'.commands, m.patchId ≠ "" := by
  rcases liveCall_cases h hcb id deprecated with
    ⟨d, _, heq⟩ | ⟨_, p₁, b, _, heq, _, hcmd', _⟩
  · have hp : p = p' := by simpa [hcall] using (congrArg Prod.fst heq).symm
    exact hp ▸ hcmd
  · have hp : p' = p₁ := by simpa [hcall] using congrArg Prod.fst heq
    intro m hm
    rw [hp, hcmd'] at hm
    rcases List.mem_append.1 hm with hm | hm
    · exact hcmd m hm
    · cases b with
      | false => simp at hm
      | true =>
        have hm : m = ⟨id, deprecated⟩ := by simpa using hm
        rw [hm]
        exact hid

theorem liveTasks_head (callback : Option PatchActivationCallback) (program : PatchProgram) :
    ∀ (p : Patches) (calls : List PatchCall), ∃ t ts,
      liveTasks callback program p calls = t :: ts := by
  induction program with
  | done | endTask =>
    intro p calls
    exact ⟨_, _, rfl⟩
  | call id deprecated next ih =>
    intro p calls
    simp only [liveTasks]
    exact ih _ _ _

/-- The markers already pushed in the current task are markers of that task. -/
theorem pushed_mem_head (hcb : ReturnsBoolean callback) (program : PatchProgram) :
    ∀ {p : Patches} {calls : List PatchCall} {t : PatchTask} {ts : List PatchTask}, LiveOk p →
      liveTasks callback program p calls = t :: ts →
      ∀ id ∈ p.commands.map SetPatchMarker.patchId, id ∈ t.ids := by
  induction program with
  | done | endTask =>
    intro p calls t ts _ hlive id hin
    have ht : t = ⟨calls, p.commands⟩ := by simpa [liveTasks] using (List.cons.inj hlive).1.symm
    simpa [ht, PatchTask.ids] using hin
  | call id' deprecated next ih =>
    intro p calls t ts h hlive id hin
    simp only [liveTasks] at hlive
    rcases liveCall_cases h hcb id' deprecated with
      ⟨d, _, heq⟩ | ⟨_, p', b, h', heq, _, hcmd, _⟩
    · rw [heq] at hlive
      exact ih _ h hlive id hin
    · rw [heq] at hlive
      refine ih _ h' hlive id ?_
      rw [hcmd, List.map_append]
      exact List.mem_append_left _ hin

theorem mem_head_cases (hcb : ReturnsBoolean callback) {program : PatchProgram}
    {calls : List PatchCall} {t : PatchTask} {ts : List PatchTask} (h : LiveOk p)
    (hlive : liveTasks callback program p calls = t :: ts) (hin : id ∈ t.ids) :
    p.sentPatches id = true ∨ p.patchDecisions id = none := by
  rcases liveTasks_markers hcb program calls h with ⟨new, hnew, _, hund⟩
  have hall : id ∈ p.commands.map SetPatchMarker.patchId ++ new := by
    rw [← hnew, hlive, List.flatMap_cons]
    exact List.mem_append_left _ hin
  rcases List.mem_append.1 hall with hold | hin
  · rcases List.mem_map.1 hold with ⟨m, hm, rfl⟩
    exact Or.inl (h.pushed m hm)
  · exact Or.inr (hund id hin)

/-- The live run of a program that names its patches emits no marker without a name. -/
theorem liveTasks_named (hcb : ReturnsBoolean callback) (program : PatchProgram) :
    ∀ {p : Patches} (calls : List PatchCall), LiveOk p → program.Named →
      (∀ m ∈ p.commands, m.patchId ≠ "") →
      ∀ t ∈ liveTasks callback program p calls, ∀ id ∈ t.ids, id ≠ "" := by
  induction program with
  | done =>
    intro p calls _ _ hcmd t ht id hin
    have ht : t = ⟨calls, p.commands⟩ := by simpa [liveTasks] using ht
    rw [ht] at hin
    rcases List.mem_map.1 hin with ⟨m, hm, rfl⟩
    exact hcmd m hm
  | endTask next ih =>
    intro p calls h hnamed hcmd t ht id hin
    rcases List.mem_cons.1 ht with rfl | ht
    · rcases List.mem_map.1 hin with ⟨m, hm, rfl⟩
      exact hcmd m hm
    · have h' : LiveOk { p with commands := [] } :=
        { h with pushed := by simp }
      exact ih [] h' hnamed (by simp) t ht id hin
  | call id' deprecated next ih =>
    intro p calls h hnamed hcmd
    rcases liveCall_ok h hcb id' deprecated with ⟨p', b, h', hcall⟩
    simp only [liveTasks, hcall]
    exact ih _ _ h' (hnamed.2 _) (liveCall_named h hcb hcall hnamed.1 hcmd)

/-- The marker of a patch that is called is one of the current task exactly if it is not sent yet and
the call returns `true`. -/
theorem mem_head_iff (h : LiveOk p) (hcb : ReturnsBoolean callback)
    {deprecated : Bool} {p' : Patches} {b : Bool} {program : PatchProgram}
    {calls : List PatchCall} {t : PatchTask} {ts : List PatchTask} (h' : LiveOk p')
    (hcall : p.patchInternal callback id deprecated (.ok ()) = (p', .ok b))
    (hlive : liveTasks callback program p' calls = t :: ts) (hns : p.sentPatches id ≠ true) :
    id ∈ t.ids ↔ b = true := by
  rcases liveCall_sent h hcb hcall with ⟨hsent, htrue, hfalse⟩
  constructor
  · intro hin
    cases b with
    | true => rfl
    | false =>
      have hdec := hfalse rfl
      rcases mem_head_cases hcb h' hlive hin with hs | hund
      · rcases (hsent id).1 hs with hs | ⟨_, hb⟩
        · exact absurd hs hns
        · exact hb
      · simp [hdec] at hund
  · intro hb
    rcases htrue hb with hs | hin
    · exact absurd hs hns
    · exact pushed_mem_head hcb _ h' hlive id hin

/-- The simulation.  Live and replayed states are related, and the replay knows the markers sent so
far and those that the live run emits in the rest of this task. -/
theorem replayTasks_eq (hcb : ReturnsBoolean callback)
    (callback' : Option PatchActivationCallback) (program : PatchProgram) :
    ∀ {p q : Patches} {calls : List PatchCall} {t : PatchTask} {ts : List PatchTask},
      LiveOk p → Replays p q → program.Named → (∀ m ∈ p.commands, m.patchId ≠ "") →
      liveTasks callback program p calls = t :: ts →
      (∀ id, q.knownPresentPatches id = true ↔ p.sentPatches id = true ∨ id ∈ t.ids) →
      replayTasks callback' program q calls (ts.map PatchTask.ids) = .ok (t :: ts) := by
  induction program with
  | done =>
    intro p q calls t ts _ hr _ _ hlive _
    have hlive : (⟨calls, p.commands⟩ : PatchTask) = t ∧ [] = ts := by
      simpa [liveTasks] using hlive
    rcases hlive with ⟨rfl, rfl⟩
    simp [replayTasks, hr.commands]
  | endTask next ih =>
    intro p q calls t ts h hr hnamed _ hlive hknown
    have h' : LiveOk { p with commands := [] } :=
      { h with pushed := by simp }
    rcases liveTasks_head callback next { p with commands := [] } [] with ⟨t', ts', hnext⟩
    have hlive : (⟨calls, p.commands⟩ : PatchTask) = t ∧ t' :: ts' = ts := by
      simpa [liveTasks, hnext] using hlive
    rcases hlive with ⟨rfl, rfl⟩
    have hids : ∀ id ∈ t'.ids, id ≠ "" := by
      have hall := liveTasks_named hcb next [] h' hnamed (by simp)
      exact hall t' (by simp [hnext])
    have hq : ({ q with commands := [] } : Patches).isReplaying = true := hr.replaying
    rcases notifyAll_ok hq hids with ⟨known, hnotify, hknown'⟩
    have hr' : Replays { p with commands := [] }
        { q with commands := [], knownPresentPatches := known } :=
      { hr with commands := rfl }
    have hrest := ih h' hr' hnamed (by simp) hnext ?_
    · simp [replayTasks, hnotify, hrest, hr.commands, bind, Except.bind, pure, Except.pure]
    · intro id
      -- The markers of the task just ended are among those sent.
      have hold : id ∈ PatchTask.ids ⟨calls, p.commands⟩ → p.sentPatches id = true := by
        intro hin
        rcases List.mem_map.1 hin with ⟨m, hm, rfl⟩
        exact h.pushed m hm
      have hk : known id = true ↔ q.knownPresentPatches id = true ∨ id ∈ t'.ids := hknown' id
      have hbefore := hknown id
      show known id = true ↔ p.sentPatches id = true ∨ id ∈ t'.ids
      tauto
  | call id deprecated next ih =>
    intro p q calls t ts h hr hnamed hcmd hlive hknown
    rcases liveCall_ok h hcb id deprecated with ⟨p₁, b, h₁, hcall⟩
    simp only [liveTasks, hcall] at hlive
    have hmem := mem_head_iff h hcb h₁ hcall hlive
    have hsees : p.patchDecisions id ≠ some true → (q.knownPresentPatches id = true ↔
        (p.patchInternal callback id deprecated (.ok ())).2 = .ok true) := by
      intro hd
      have hns : p.sentPatches id ≠ true := fun hs => hd ((h.sent id).1 hs)
      rw [hknown id, hmem hns, hcall]
      simp [hns]
    rcases replayCall h hcb hr id deprecated callback' hsees with
      ⟨p', q', b', _, hr', hkeep, hcall', hreplay⟩
    have hsame : p₁ = p' ∧ b = b' := by simpa [hcall] using hcall'
    rcases hsame with ⟨rfl, rfl⟩
    simp only [replayTasks, hreplay]
    refine ih (.ok b) h₁ hr' (hnamed.2 _) (liveCall_named h hcb hcall hnamed.1 hcmd) hlive ?_
    intro id'
    rw [hkeep, hknown id', (liveCall_sent h hcb hcall).1 id']
    constructor
    · rintro (hs | hin)
      · exact Or.inl (Or.inl hs)
      · exact Or.inr hin
    · rintro ((hs | ⟨rfl, hb⟩) | hin)
      · exact Or.inl hs
      · by_cases hs : p.sentPatches id' = true
        · exact Or.inl hs
        · exact Or.inr ((hmem hs).2 hb)
      · exact Or.inr hin

theorem liveOk_init : LiveOk (init false) :=
  ⟨rfl, rfl, fun _ => rfl, by simp [init], by simp [init]⟩

/-! ## Replay fidelity -/

/-- Replayed with `notifyHasPatch` for the markers of each task, a program makes the same calls with
the same results and emits the same markers; a run emits each marker once, and once a patch is used
it stays used.  The callback of the replay may be any. -/
theorem patches_replay_faithfully (callback callback' : Option PatchActivationCallback)
    (program : PatchProgram) (hcb : ReturnsBoolean callback) (hnamed : program.Named) :
    replay callback' program ((live callback program).map PatchTask.ids) =
        .ok (live callback program) ∧
      ((live callback program).flatMap PatchTask.ids).Nodup ∧
      ((live callback program).flatMap PatchTask.calls).Pairwise fun c d =>
        c.patchId = d.patchId → c.result = .ok true → d.result = .ok true := by
  have h := liveOk_init
  refine ⟨?_, ?_, ?_⟩
  · rcases liveTasks_head callback program (init false) [] with ⟨t, ts, hlive⟩
    have hids : ∀ id ∈ t.ids, id ≠ "" := by
      have hall := liveTasks_named hcb program [] h hnamed (by simp [init])
      exact hall t (by simp [hlive])
    have hq : (init true).isReplaying = true := rfl
    rcases notifyAll_ok hq hids with ⟨known, hnotify, hknown⟩
    have hr : Replays (init false) { init true with knownPresentPatches := known } :=
      ⟨rfl, rfl, fun _ => rfl, rfl, rfl⟩
    have hrest := replayTasks_eq hcb callback' program h hr hnamed (by simp [init]) hlive
      (by simpa [init] using hknown)
    simp only [replay, live, hlive, List.map_cons, List.headD_cons, List.tail_cons, hnotify]
    exact hrest
  · rcases liveTasks_markers hcb program [] h with ⟨new, hnew, hnodup, _⟩
    have hall : (live callback program).flatMap PatchTask.ids = new := by
      simpa [live, init] using hnew
    exact hall ▸ hnodup
  · rcases liveTasks_calls hcb program [] h with ⟨new, hnew, _, hpair⟩
    have hall : (live callback program).flatMap PatchTask.calls = new := by
      simpa [live] using hnew
    rw [hall]
    exact hpair.imp fun hsame hid hc => hsame hid ▸ hc

/-- A program that uses `change` in both of its tasks, and `cleanup` in the second one only if
`change` is used. -/
def changeThenCleanup : PatchProgram :=
  .call "change" false fun r => .endTask <|
    match r with
    | .ok true => .call "change" false fun _ => .call "cleanup" true fun _ => .done
    | _ => .done

theorem changeThenCleanup_named : changeThenCleanup.Named := by
  refine ⟨by decide, fun r => ?_⟩
  show PatchProgram.Named (match r with
    | .ok true => .call "change" false fun _ => .call "cleanup" true fun _ => .done
    | _ => .done)
  split
  · exact ⟨by decide, fun _ => ⟨by decide, fun _ => trivial⟩⟩
  · trivial

/-- A callback that activates a patch when it is asked for the first time only. -/
def firstTimeOnly : PatchActivationCallback := fun n _ => .ok (n == 0)

/-- The replay needs no callback to repeat what `firstTimeOnly` has decided. -/
theorem changeThenCleanup_replayed :
    (live (some firstTimeOnly) changeThenCleanup).map PatchTask.ids = [["change"], ["cleanup"]] ∧
    replay none changeThenCleanup [["change"], ["cleanup"]] =
      .ok (live (some firstTimeOnly) changeThenCleanup) := by
  have hcb : ReturnsBoolean (some firstTimeOnly) := by
    intro f hf n id
    have hf : firstTimeOnly = f := by simpa using hf
    exact ⟨n == 0, by simp [← hf, firstTimeOnly]⟩
  have hmarkers : (live (some firstTimeOnly) changeThenCleanup).map PatchTask.ids =
      [["change"], ["cleanup"]] := by decide
  have hreplay := (patches_replay_faithfully (some firstTimeOnly) none changeThenCleanup hcb
    changeThenCleanup_named).1
  exact ⟨hmarkers, hmarkers ▸ hreplay⟩

/-- `patched("")` works live, but its marker cannot be notified; and the result of a callback that
throws is not in history, so a program that catches it sees another result in replay. -/
theorem unnamedPatch_not_replayed :
    ((live none (.call "" false fun _ => .done)).map PatchTask.ids = [[""]] ∧
      replay none (.call "" false fun _ => .done) [[""]] =
        .error (.typeError "notifyHasPatch missing patch id")) ∧
    ((live (some fun _ _ => .error (.valueError "no")) (.call "p" false fun _ => .done)).map
        PatchTask.calls = [[⟨"p", false, .error (.valueError "no")⟩]] ∧
      replay (some fun _ _ => .error (.valueError "no")) (.call "p" false fun _ => .done) [[]] =
        .ok [⟨[⟨"p", false, .ok false⟩], []⟩]) := by
  refine ⟨⟨by decide, rfl⟩, ⟨?_, ?_⟩⟩
  · simp [live, liveTasks, patchInternal, usePatch, callCallback, init]
  · simp [replay, replayTasks, notifyAll, patchInternal, init, pure, Except.pure, bind, Except.bind]

end Patches
end TemporalSdk.Workflow
