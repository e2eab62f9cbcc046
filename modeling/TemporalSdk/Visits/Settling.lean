import TemporalSdk.Visits.Permits
import TemporalSdk.Visits.Walkers

/-!
# What a visit has done when it settles

What has been seen of the transform at a site agrees with what has become of its call, the message is
the original one with the results written so far in their places, and the visit ends only when no
transform is left running.  The last holds as long as no unlimited transform throws in the middle of
the walk.
-/

namespace TemporalSdk.Visits

open Machine State

variable {L K α C E : Type}

namespace Event

def index : Event α E → Nat
  | started i => i
  | returned i _ => i
  | failed i _ => i

def startedAt : Event α E → Option Nat
  | started i => some i
  | _ => none

def isFailure : Event α E → Bool
  | failed _ _ => true
  | _ => false

end Event

/-! ## Sightings -/

/-- What has been seen of the transform of a call with the status. -/
def Entry (log : List (Event α E)) (aborted : Bool) (i : Nat) : Status α E → Prop
  | .uncalled => ∀ event ∈ log, event.index ≠ i
  | .queued => ∀ event ∈ log, event.index ≠ i
  | .granted => ∀ event ∈ log, event.index ≠ i
  | .running => .started i ∈ log ∧ ∀ event ∈ log, event.index = i → event = .started i
  | .returned v => .started i ∈ log ∧ .returned i v ∈ log ∧
      ∀ event ∈ log, event.index = i → event = .started i ∨ event = .returned i v
  | .written v => .started i ∈ log ∧ .returned i v ∈ log ∧
      ∀ event ∈ log, event.index = i → event = .started i ∨ event = .returned i v
  | .rejected e => aborted = true ∧ (.started i ∈ log → .failed i e ∈ log) ∧
      ∀ event ∈ log, event.index = i → event = .started i ∨ event = .failed i e

theorem Entry.frame {log : List (Event α E)} {aborted aborted' : Bool} {i : Nat}
    {st : Status α E} (h : Entry log aborted i st) (extra : List (Event α E)) (hextra : ∀ event ∈ extra, event.index ≠ i)
    (haborted : aborted = true → aborted' = true) : Entry (log ++ extra) aborted' i st := by
  have hmem : ∀ event : Event α E, event.index = i → event ∈ log ++ extra → event ∈ log := by
    intro event hindex hevent
    rcases List.mem_append.1 hevent with hold | hnew
    · exact hold
    · exact absurd hindex (hextra event hnew)
  have hfresh : (∀ event ∈ log, event.index ≠ i) → ∀ event ∈ log ++ extra, event.index ≠ i :=
    fun hlog event hevent hindex => hlog event (hmem event hindex hevent) hindex
  cases st with
  | uncalled | queued | granted => exact hfresh h
  | running =>
    exact ⟨List.mem_append_left _ h.1, fun event hevent hindex =>
      h.2 event (hmem event hindex hevent) hindex⟩
  | returned | written =>
    exact ⟨List.mem_append_left _ h.1, List.mem_append_left _ h.2.1, fun event hevent hindex =>
      h.2.2 event (hmem event hindex hevent) hindex⟩
  | rejected e =>
    exact ⟨haborted h.1, fun hstarted => List.mem_append_left _ (h.2.1 (hmem _ rfl hstarted)),
      fun event hevent hindex => h.2.2 event (hmem event hindex hevent) hindex⟩

/-- What has been seen agrees with the calls; each transform is called once, and none after one has
failed. -/
structure Logged (s : State L K α E) : Prop where
  entries : ∀ i, Entry s.log s.failure.isSome i (s.status i)
  once : (s.log.filterMap Event.startedAt).Nodup
  stopped : s.log.Pairwise fun event later => event.isFailure = true → later.startedAt = none
  failed : ∀ event ∈ s.log, event.isFailure = true → s.failure.isSome = true

namespace Logged

variable {s s' : State L K α E} {i : Nat} {st : Status α E}

theorem start (limit : Limit) (message : SiteTree L K α) :
    Logged (start limit message : State L K α E) :=
  ⟨fun _ => nofun, by simp [State.start], by simp [State.start], nofun⟩

/-- One call moves on, and what is seen is about that call. -/
theorem update (h : Logged s) (extra : List (Event α E))
    (hstatus : s'.status = Function.update s.status i st) (hlog : s'.log = s.log ++ extra)
    (hfailure : s.failure.isSome = true → s'.failure.isSome = true)
    (hextra : ∀ event ∈ extra, event.index = i)
    (hentry : Entry (s.log ++ extra) s'.failure.isSome i st)
    (honce : ((s.log ++ extra).filterMap Event.startedAt).Nodup)
    (hstopped : (s.log ++ extra).Pairwise fun event later =>
      event.isFailure = true → later.startedAt = none)
    (hfailed : ∀ event ∈ extra, event.isFailure = true → s'.failure.isSome = true) : Logged s' := by
  refine ⟨fun j => ?_, by rw [hlog]; exact honce, by rw [hlog]; exact hstopped, ?_⟩
  · rw [hstatus, hlog]
    by_cases hj : j = i
    · subst hj
      rw [Function.update_self]
      exact hentry
    · rw [Function.update_of_ne hj]
      refine (h.entries j).frame extra (fun event hevent hindex => hj ?_) hfailure
      rw [← hindex, hextra event hevent]
  · intro event hevent hisFailure
    rw [hlog] at hevent
    rcases List.mem_append.1 hevent with hold | hnew
    · exact hfailure (h.failed event hold hisFailure)
    · exact hfailed event hnew hisFailure

theorem setStatus (h : Logged s) (st : Status α E) (hentry : Entry s.log s.failure.isSome i st) :
    Logged (s.setStatus i st) := by
  refine h.update [] rfl (by simp [State.setStatus]) id nofun ?_ ?_ ?_ nofun
  · rw [List.append_nil]
    exact hentry
  · simpa using h.once
  · simpa using h.stopped

theorem invoke (h : Logged s) (hfresh : ∀ event ∈ s.log, event.index ≠ i)
    (hfailure : s.failure = none) : Logged (s.invoke i) := by
  refine h.update [.started i] rfl rfl id ?_ ?_ ?_ ?_ ?_
  · simp [Event.index]
  · refine ⟨by simp, fun event hevent hindex => ?_⟩
    rcases List.mem_append.1 hevent with hold | hnew
    · exact absurd hindex (hfresh event hold)
    · exact List.mem_singleton.1 hnew
  · rw [List.filterMap_append]
    refine List.nodup_append.2 ⟨h.once, by simp [Event.startedAt], ?_⟩
    intro j hj j' hj' heq
    obtain ⟨event, hevent, hstarted⟩ := List.mem_filterMap.1 hj
    have hi : j' = i := by simpa [Event.startedAt] using hj'
    refine hfresh event hevent ?_
    cases event with
    | started k =>
      have hk : k = j := by simpa [Event.startedAt] using hstarted
      simp [Event.index, hk, heq, hi]
    | returned | failed => cases hstarted
  · refine List.pairwise_append.2 ⟨h.stopped, by simp, ?_⟩
    intro event hevent later _ hisFailure
    have := h.failed event hevent hisFailure
    rw [hfailure] at this
    cases this
  · simp [Event.isFailure]

theorem fail {e : E} (h : Logged s) (hrunning : s.status i = .running) : Logged (s.fail i e) := by
  have hentry := h.entries i
  rw [hrunning] at hentry
  have hsome : (s.failure.or (some e)).isSome = true := by cases s.failure <;> rfl
  refine h.update [.failed i e] rfl rfl (fun _ => hsome) ?_ ?_ ?_ ?_ (fun _ _ _ => hsome)
  · simp [Event.index]
  · refine ⟨hsome, fun _ => by simp, fun event hevent hindex => ?_⟩
    rcases List.mem_append.1 hevent with hold | hnew
    · exact .inl (hentry.2 event hold hindex)
    · exact .inr (List.mem_singleton.1 hnew)
  · simpa [List.filterMap_cons, Event.startedAt] using h.once
  · refine List.pairwise_append.2 ⟨h.stopped, by simp, ?_⟩
    intro event _ later hlater _
    rw [List.mem_singleton.1 hlater]
    rfl

theorem returned {v : SiteValue α} (h : Logged s) (hrunning : s.status i = .running) :
    Logged { s.setStatus i (.returned v) with log := s.log ++ [.returned i v] } := by
  have hentry := h.entries i
  rw [hrunning] at hentry
  refine h.update [.returned i v] rfl rfl id ?_ ?_ ?_ ?_ (by simp [Event.isFailure])
  · simp [Event.index]
  · refine ⟨List.mem_append_left _ hentry.1, by simp, fun event hevent hindex => ?_⟩
    rcases List.mem_append.1 hevent with hold | hnew
    · exact .inl (hentry.2 event hold hindex)
    · exact .inr (List.mem_singleton.1 hnew)
  · simpa [List.filterMap_cons, Event.startedAt] using h.once
  · refine List.pairwise_append.2 ⟨h.stopped, by simp, ?_⟩
    intro event _ later hlater _
    rw [List.mem_singleton.1 hlater]
    rfl

theorem congr (h : Logged s) (hstatus : s'.status = s.status) (hlog : s'.log = s.log)
    (hfailure : s.failure.isSome = true → s'.failure.isSome = true) : Logged s' := by
  refine ⟨fun j => ?_, by rw [hlog]; exact h.once, by rw [hlog]; exact h.stopped, fun event hevent hf => ?_⟩
  · have := (h.entries j).frame [] nofun hfailure
    rw [hstatus, hlog]
    simpa using this
  · rw [hlog] at hevent
    exact hfailure (h.failed event hevent hf)

end Logged

namespace Plan

variable {plan : Plan C α} {original : SiteTree L K α} {s s' : State L K α E} {i : Nat}
  {st : Status α E} {inHand : Nat}

/-! ## The message -/

/-- The message is the original one with the results written so far in their places. -/
structure Placed (plan : Plan C α) (original : SiteTree L K α) (s : State L K α E) : Prop where
  filled : ∃ results, s.message = fillTree results original ∧
    (∀ path, results path ≠ none → ∃ site ∈ plan.sites, site.path = path) ∧
    ∀ i site, plan.sites[i]? = some site → results site.path = (s.status i).writtenValue
  kinds : ∀ i v, s.status i = .returned v ∨ s.status i = .written v → plan.isResult i v = true

namespace Placed

theorem start (plan : Plan C α) (original : SiteTree L K α) :
    plan.Placed original (start plan.limit original : State L K α E) := by
  refine ⟨⟨fun _ => none, (fillTree_none original).symm, nofun, fun _ _ _ => rfl⟩, ?_⟩
  rintro i v (h | h) <;> cases h

theorem update (h : plan.Placed original s) (hmessage : s'.message = s.message)
    (hstatus : s'.status = Function.update s.status i st)
    (hwritten : st.writtenValue = (s.status i).writtenValue)
    (hkind : ∀ v, st = .returned v ∨ st = .written v → plan.isResult i v = true) :
    plan.Placed original s' := by
  obtain ⟨results, hfill, houtside, hresults⟩ := h.filled
  refine ⟨⟨results, hmessage.trans hfill, houtside, fun j site hsite => ?_⟩, fun j v hv => ?_⟩
  · rw [hresults j site hsite, hstatus]
    by_cases hj : j = i
    · rw [hj, Function.update_self, hwritten]
    · rw [Function.update_of_ne hj]
  · rw [hstatus] at hv
    by_cases hj : j = i
    · subst hj
      rw [Function.update_self] at hv
      exact hkind v hv
    · rw [Function.update_of_ne hj] at hv
      exact h.kinds j v hv

theorem congr (h : plan.Placed original s) (hmessage : s'.message = s.message)
    (hstatus : s'.status = s.status) : plan.Placed original s' := by
  obtain ⟨results, hfill, houtside, hresults⟩ := h.filled
  exact ⟨⟨results, hmessage.trans hfill, houtside, by rw [hstatus]; exact hresults⟩,
    by rw [hstatus]; exact h.kinds⟩

/-- A write is one more result: no other site has its place. -/
theorem write {v : SiteValue α} {site : Site C α} (h : plan.Placed original s)
    (hdistinct : (plan.sites.map Site.path).Nodup) (hsite : plan.sites[i]? = some site)
    (hreturned : s.status i = .returned v) :
    plan.Placed original
      { s.setStatus i (.written v) with message := writeTree site.path v s.message } := by
  obtain ⟨results, hfill, houtside, hresults⟩ := h.filled
  have hnone : results site.path = none := by
    rw [hresults i site hsite, hreturned]
    rfl
  refine ⟨⟨Function.update results site.path (some v), ?_, ?_, ?_⟩, ?_⟩
  · rw [hfill]
    exact writeTree_fillTree hnone
  · intro path hpath
    by_cases heq : path = site.path
    · exact ⟨site, List.mem_of_getElem? hsite, heq.symm⟩
    · rw [Function.update_of_ne heq] at hpath
      exact houtside path hpath
  · intro j other hother
    by_cases hj : j = i
    · subst hj
      rw [hsite] at hother
      cases hother
      simp [setStatus, Status.writtenValue]
    · have hpaths : other.path ≠ site.path := by
        intro heq
        refine hj ((List.getElem?_inj ?_ hdistinct).1 ?_)
        · simpa using (List.getElem?_eq_some_iff.1 hother).1
        · simp [hother, hsite, heq]
      simp [setStatus, Function.update_of_ne hj, Function.update_of_ne hpaths,
        hresults j other hother]
  · intro j v' hv'
    by_cases hj : j = i
    · subst hj
      simp only [setStatus, Function.update_self] at hv'
      rcases hv' with hv' | hv' <;> cases hv'
      exact h.kinds j v (.inl hreturned)
    · simp only [setStatus, Function.update_of_ne hj] at hv'
      exact h.kinds j v' hv'

end Placed

/-! ## Calls -/

structure Sound (plan : Plan C α) (original : SiteTree L K α) (inHand : Nat) (s : State L K α E) :
    Prop where
  held : plan.Held inHand s
  logged : Logged s
  placed : plan.Placed original s

namespace Sound

theorem congr (h : plan.Sound original inHand s) (hmessage : s'.message = s.message)
    (hstatus : s'.status = s.status) (hnext : s'.next = s.next) (hpermits : s'.permits = s.permits)
    (hwaiters : s'.waiters = s.waiters) (hothers : s'.others = s.others) (hlog : s'.log = s.log)
    (hfailure : s.failure.isSome = true → s'.failure.isSome = true) :
    plan.Sound original inHand s' :=
  ⟨h.held.congr hstatus hnext hpermits hwaiters hothers, h.logged.congr hstatus hlog hfailure,
    h.placed.congr hmessage hstatus⟩

theorem release {c : Nat} (h : plan.Sound original 1 s) (hlimit : plan.limit = .bounded c) :
    plan.Sound original 0 s.release := by
  refine ⟨h.held.release hlimit, ?_, ?_⟩
  all_goals
    unfold State.release
    split
  next => exact h.logged.congr rfl rfl id
  next i waiters hwaiters =>
    have hqueued : s.status i = .queued := (h.held.queue i).2 (by simp [hwaiters])
    have hentry := h.logged.entries i
    rw [hqueued] at hentry
    exact (h.logged.setStatus .granted hentry).congr rfl rfl id
  next => exact h.logged.congr rfl rfl id
  next => exact h.placed.congr rfl rfl
  next i waiters hwaiters =>
    have hqueued : s.status i = .queued := (h.held.queue i).2 (by simp [hwaiters])
    refine h.placed.update rfl rfl (by rw [hqueued]; rfl) ?_
    rintro v (hv | hv) <;> cases hv
  next => exact h.placed.congr rfl rfl

theorem free (h : plan.Sound original 1 s) : plan.Sound original 0 (free plan.limit s) := by
  cases hlimit : plan.limit with
  | bounded c => exact h.release hlimit
  | unbounded =>
    have hheld := h.held.free
    rw [hlimit] at hheld
    exact ⟨hheld, h.logged, h.placed⟩

theorem invoke (h : plan.Sound original 0 s) (hgranted : s.status i = .granted)
    (hfailure : s.failure = none) : plan.Sound original 0 (s.invoke i) := by
  have hentry := h.logged.entries i
  rw [hgranted] at hentry
  refine ⟨?_, h.logged.invoke hentry hfailure, ?_⟩
  · have hmoved : plan.Held 0 (s.setStatus i .running) :=
      h.held.move hgranted nofun nofun nofun nofun nofun rfl
    exact hmoved.congr rfl rfl rfl rfl rfl
  · refine h.placed.update rfl rfl (by rw [hgranted]; rfl) ?_
    rintro v (hv | hv) <;> cases hv

theorem fail {e : E} (h : plan.Sound original 0 s) (hrunning : s.status i = .running) :
    plan.Sound original 1 (s.fail i e) := by
  refine ⟨?_, h.logged.fail hrunning, ?_⟩
  · have hmoved : plan.Held 1 (s.setStatus i (.rejected e)) :=
      h.held.move hrunning nofun nofun nofun nofun nofun rfl
    exact hmoved.congr rfl rfl rfl rfl rfl
  · refine h.placed.update rfl rfl (by rw [hrunning]; rfl) ?_
    rintro v (hv | hv) <;> cases hv

theorem returned {v : SiteValue α} (h : plan.Sound original 0 s) (hrunning : s.status i = .running)
    (hresult : plan.isResult i v = true) :
    plan.Sound original 1 { s.setStatus i (.returned v) with log := s.log ++ [.returned i v] } := by
  refine ⟨?_, h.logged.returned hrunning, ?_⟩
  · have hmoved : plan.Held 1 (s.setStatus i (.returned v)) :=
      h.held.move hrunning nofun nofun nofun nofun nofun rfl
    exact hmoved.congr rfl rfl rfl rfl rfl
  · refine h.placed.update rfl rfl (by rw [hrunning]; rfl) ?_
    rintro v' (hv | hv) <;> cases hv
    exact hresult

theorem refuse {e : E} (h : plan.Sound original 0 s) (hgranted : s.status i = .granted)
    (hfailure : s.failure = some e) : plan.Sound original 1 (s.setStatus i (.rejected e)) := by
  have hentry := h.logged.entries i
  rw [hgranted] at hentry
  refine ⟨?_, h.logged.setStatus _ ⟨by simp [hfailure], fun hstarted => ?_, fun event hevent hindex => ?_⟩, ?_⟩
  · exact h.held.move hgranted nofun nofun nofun nofun nofun rfl
  · exact absurd rfl (hentry _ hstarted)
  · exact absurd hindex (hentry event hevent)
  · refine h.placed.update rfl rfl (by rw [hgranted]; rfl) ?_
    rintro v (hv | hv) <;> cases hv

theorem write {v : SiteValue α} {site : Site C α} (h : plan.Sound original 0 s)
    (hdistinct : (plan.sites.map Site.path).Nodup) (hsite : plan.sites[i]? = some site)
    (hreturned : s.status i = .returned v) :
    plan.Sound original 0
      { s.setStatus i (.written v) with message := writeTree site.path v s.message } := by
  have hentry := h.logged.entries i
  rw [hreturned] at hentry
  refine ⟨?_, ?_, h.placed.write hdistinct hsite hreturned⟩
  · have hmoved : plan.Held 0 (s.setStatus i (.written v)) :=
      h.held.move hreturned nofun nofun nofun nofun nofun rfl
    exact hmoved.congr rfl rfl rfl rfl rfl
  · exact (h.logged.setStatus (.written v) hentry).congr rfl rfl id

theorem acquire {c : Nat} (h : plan.Sound original 0 s) (hlimit : plan.limit = .bounded c)
    (hnext : s.next < plan.sites.length) :
    plan.Sound original 0 ({ s with next := s.next + 1 }.acquire s.next) := by
  have huncalled : s.status s.next = .uncalled := (h.held.uncalled s.next).2 (Nat.le_refl _)
  have hentry := h.logged.entries s.next
  rw [huncalled] at hentry
  refine ⟨h.held.acquire hlimit hnext, ?_, ?_⟩
  all_goals
    unfold State.acquire
    split
  next => exact (h.logged.setStatus .granted hentry).congr rfl rfl id
  next => exact (h.logged.setStatus .queued hentry).congr rfl rfl id
  next =>
    refine h.placed.update rfl rfl (by rw [huncalled]; rfl) ?_
    rintro v (hv | hv) <;> cases hv
  next =>
    refine h.placed.update rfl rfl (by rw [huncalled]; rfl) ?_
    rintro v (hv | hv) <;> cases hv

theorem advance (h : plan.Sound original 0 s) (hlimit : plan.limit = .unbounded)
    (hnext : s.next < plan.sites.length) (hfailure : s.failure = none) :
    plan.Sound original 0 ({ s with next := s.next + 1 }.invoke s.next) := by
  have huncalled : s.status s.next = .uncalled := (h.held.uncalled s.next).2 (Nat.le_refl _)
  have hentry := h.logged.entries s.next
  rw [huncalled] at hentry
  refine ⟨?_, ?_, ?_⟩
  · have hmoved := h.held.advance .running hlimit hnext nofun nofun nofun
    exact hmoved.congr rfl rfl rfl rfl rfl
  · exact (h.logged.invoke hentry hfailure).congr rfl rfl id
  · refine h.placed.update rfl rfl (by rw [huncalled]; rfl) ?_
    rintro v (hv | hv) <;> cases hv

theorem unlimited (h : plan.Sound original 1 s) (hlimit : plan.limit = .unbounded) :
    plan.Sound original 0 s := by
  have hfree := h.free
  rw [hlimit] at hfree
  exact hfree

end Sound

/-! ## Ends -/

/-- Once the visit has ended, or was aborted before the end of the walk, nothing is left to do. -/
structure Ended (plan : Plan C α) (s : State L K α E) : Prop where
  early : s.failure.isSome = true → s.next < plan.sites.length →
    ∀ i, (s.status i).isInactive = true
  finished : s.outcome.isSome = true → ∀ i, (s.status i).isInactive = true
  resolved : s.outcome = some (.ok ()) →
    ∀ i < plan.sites.length, (s.status i).writtenValue.isSome = true
  aborted : ∀ e, s.outcome = some (.error e) → s.failure.isSome = true

namespace Ended

theorem of_complete (hnext : s.next = plan.sites.length) (houtcome : s.outcome = none) :
    plan.Ended s := by
  refine ⟨fun _ hlt => ?_, fun h => ?_, fun h => ?_, fun _ h => ?_⟩
  · omega
  all_goals
    rw [houtcome] at h
    cases h

theorem of_running (hfailure : s.failure = none) (houtcome : s.outcome = none) : plan.Ended s := by
  refine ⟨fun h => ?_, fun h => ?_, fun h => ?_, fun _ h => ?_⟩
  · rw [hfailure] at h
    cases h
  all_goals
    rw [houtcome] at h
    cases h

theorem congr (h : plan.Ended s) (hstatus : s'.status = s.status) (hnext : s'.next = s.next)
    (hfailure : s'.failure = s.failure) (houtcome : s'.outcome = s.outcome) : plan.Ended s' := by
  refine ⟨?_, ?_, ?_, ?_⟩
  · rw [hstatus, hnext, hfailure]
    exact h.early
  · rw [hstatus, houtcome]
    exact h.finished
  · rw [hstatus, houtcome]
    exact h.resolved
  · rw [houtcome, hfailure]
    exact h.aborted

end Ended

structure Kept (plan : Plan C α) (original : SiteTree L K α) (s : State L K α E) : Prop where
  sound : plan.Sound original 0 s
  ended : plan.Ended s

/-- Without a limit, a transform that throws when it is called is the first or the last one: in between,
the next call throws out of the walk and the transforms called before are left running. -/
def Prompt (plan : Plan C α) (s : State L K α E) : Action α E → Prop
  | .call (some _) => plan.limit = .unbounded → s.failure = none → s.outcome = none →
      s.next = 0 ∨ plan.sites.length ≤ s.next + 1
  | _ => True

namespace Kept

theorem start (plan : Plan C α) (original : SiteTree L K α) :
    plan.Kept original (start plan.limit original : State L K α E) :=
  ⟨⟨plan.held_start original, .start plan.limit original, .start plan original⟩,
    .of_running rfl rfl⟩

theorem complete (h : plan.Kept original s) (hwalking : plan.isWalking s = false)
    (hactive : (s.status i).isInactive = false) :
    s.next = plan.sites.length ∧ s.outcome = none := by
  have houtcome : s.outcome = none := by
    cases ho : s.outcome with
    | none => rfl
    | some outcome =>
      have := h.ended.finished (by rw [ho]; rfl) i
      rw [hactive] at this
      cases this
  refine ⟨?_, houtcome⟩
  have hcalled : s.status i ≠ .uncalled := by
    intro hst
    rw [hst] at hactive
    cases hactive
  have hi := mt (h.sound.held.uncalled i).2 hcalled
  have hle := h.sound.held.next_le
  simp only [isWalking, houtcome, Option.isNone_none, Bool.true_and, Bool.and_eq_false_iff,
    decide_eq_false_iff_not] at hwalking
  omega

theorem call {thrown : Option E} (h : plan.Kept original s) (hprompt : plan.Prompt s (.call thrown)) :
    plan.Kept original (plan.call thrown s) := by
  unfold Plan.call
  split
  next => exact h
  next hgo =>
    simp only [Bool.or_eq_true, decide_eq_true_eq, not_or, Bool.not_eq_true,
      Option.isSome_eq_false_iff, Option.isNone_iff_eq_none, Nat.not_le] at hgo
    obtain ⟨houtcome, hnext⟩ := hgo
    split
    next e hfailure =>
      -- the walk is left before its end, when nothing has been called or all of it is done
      have hsome : s.failure.isSome = true := by rw [hfailure]; rfl
      refine ⟨h.sound.congr rfl rfl rfl rfl rfl rfl rfl id, ?_⟩
      exact ⟨h.ended.early, fun _ => h.ended.early hsome hnext, nofun, fun _ _ => hsome⟩
    next hfailure =>
      dsimp only
      split
      next c hlimit => exact ⟨h.sound.acquire hlimit hnext, by
        unfold State.acquire
        split <;> exact .of_running hfailure houtcome⟩
      next hlimit => exact ⟨h.sound.advance hlimit hnext hfailure, .of_running hfailure houtcome⟩
      next e hlimit =>
        have hsound := h.sound.advance hlimit hnext hfailure
        have hrunning : ({ s with next := s.next + 1 }.invoke s.next).status s.next = .running := by
          simp [State.invoke, setStatus]
        refine ⟨(hsound.fail hrunning).unlimited hlimit, ?_⟩
        rcases hprompt hlimit hfailure houtcome with hfirst | hlast
        · -- the first transform threw, and no other one was called
          refine ⟨fun _ _ j => ?_, fun ho => ?_, fun ho => ?_, fun _ ho => ?_⟩
          · by_cases hj : j = s.next
            · subst hj
              simp [State.fail, State.invoke, setStatus, Status.isInactive]
            · have huncalled : s.status j = .uncalled :=
                (h.sound.held.uncalled j).2 (by omega)
              simp [State.fail, State.invoke, setStatus, Function.update_of_ne hj, huncalled,
                Status.isInactive]
          all_goals
            simp only [State.fail, State.invoke, setStatus, houtcome] at ho
            cases ho
        · exact .of_complete (by simp only [State.fail, State.invoke, setStatus]; omega) houtcome

theorem resume {thrown : Option E} (h : plan.Kept original s) (hwalking : plan.isWalking s = false) :
    plan.Kept original (resume i thrown s) := by
  unfold Plan.resume
  split
  next hgranted =>
    have hactive : (s.status i).isInactive = false := by rw [hgranted]; rfl
    obtain ⟨hnext, houtcome⟩ := h.complete hwalking hactive
    cases hlimit : plan.limit with
    | unbounded => exact absurd hgranted (h.sound.held.unlimited hlimit i).2
    | bounded c =>
      split
      next e _ hfailure =>
        exact ⟨(h.sound.refuse hgranted hfailure).release hlimit, by
          unfold State.release
          split <;> exact .of_complete hnext houtcome⟩
      next hfailure =>
        exact ⟨h.sound.invoke hgranted hfailure, .of_complete hnext houtcome⟩
      next e hfailure =>
        have hrunning : (s.invoke i).status i = .running := by simp [State.invoke, setStatus]
        refine ⟨((h.sound.invoke hgranted hfailure).fail hrunning).release hlimit, ?_⟩
        unfold State.release
        split <;> exact .of_complete hnext houtcome
  next => exact h

theorem free_ended (hnext : s.next = plan.sites.length) (houtcome : s.outcome = none) :
    plan.Ended (free plan.limit s) := by
  unfold State.free
  split
  next =>
    unfold State.release
    split <;> exact .of_complete hnext houtcome
  next => exact .of_complete hnext houtcome

theorem settle {result : Except E (SiteValue α)} (h : plan.Kept original s)
    (hwalking : plan.isWalking s = false) : plan.Kept original (plan.settle i result s) := by
  unfold Plan.settle
  split
  next v hrunning =>
    have hactive : (s.status i).isInactive = false := by rw [hrunning]; rfl
    obtain ⟨hnext, houtcome⟩ := h.complete hwalking hactive
    split
    next hresult => exact ⟨(h.sound.returned hrunning hresult).free, free_ended hnext houtcome⟩
    next => exact h
  next e hrunning =>
    have hactive : (s.status i).isInactive = false := by rw [hrunning]; rfl
    obtain ⟨hnext, houtcome⟩ := h.complete hwalking hactive
    exact ⟨(h.sound.fail hrunning).free, free_ended hnext houtcome⟩
  next => exact h

theorem write (h : plan.Kept original s) (hdistinct : (plan.sites.map Site.path).Nodup)
    (hwalking : plan.isWalking s = false) : plan.Kept original (plan.write i s) := by
  unfold Plan.write
  split
  next v site hreturned hsite =>
    have hactive : (s.status i).isInactive = false := by rw [hreturned]; rfl
    obtain ⟨hnext, houtcome⟩ := h.complete hwalking hactive
    exact ⟨h.sound.write hdistinct hsite hreturned, .of_complete hnext houtcome⟩
  next => exact h

theorem drain (h : plan.Kept original s) : plan.Kept original (plan.drain s) := by
  unfold Plan.drain
  dsimp only
  split
  next hready =>
    obtain ⟨houtcome, hnext, hsettled⟩ := hready
    have hsettled' : ∀ i < plan.sites.length, (s.status i).isSettled = true := by
      simpa using hsettled
    have hinactive : ∀ i, (s.status i).isInactive = true := by
      intro i
      by_cases hi : i < plan.sites.length
      · have := hsettled' i hi
        cases hst : s.status i <;> simp_all [Status.isSettled, Status.isInactive]
      · rw [(h.sound.held.uncalled i).2 (by omega)]
        rfl
    split
    next e hfirst =>
      obtain ⟨i, -, hrejection⟩ := List.exists_of_findSome?_eq_some hfirst
      have haborted : s.failure.isSome = true := by
        have hentry := h.sound.logged.entries i
        cases hst : s.status i with
        | rejected e' =>
          rw [hst] at hentry
          exact hentry.1
        | _ =>
          rw [hst] at hrejection
          cases hrejection
      exact ⟨h.sound.congr rfl rfl rfl rfl rfl rfl rfl id,
        h.ended.early, fun _ => hinactive, nofun, fun _ _ => haborted⟩
    next hnone =>
      refine ⟨h.sound.congr rfl rfl rfl rfl rfl rfl rfl id, h.ended.early, fun _ => hinactive,
        fun _ i hi => ?_, nofun⟩
      have hrejection := List.findSome?_eq_none_iff.1 hnone i (List.mem_range.2 hi)
      have := hsettled' i hi
      cases hst : s.status i <;> simp_all [Status.isSettled, Status.rejection, Status.writtenValue]
  next => exact h

theorem abort {e : E} (h : plan.Kept original s) (hwalking : plan.isWalking s = false) :
    plan.Kept original (Plan.abort e s) := by
  unfold Plan.abort
  split
  next => exact h
  next houtcome =>
    have houtcome : s.outcome = none := by simpa using houtcome
    have hsome : (s.failure.or (some e)).isSome = true := by cases s.failure <;> rfl
    refine ⟨h.sound.congr rfl rfl rfl rfl rfl rfl rfl fun _ => hsome, ?_⟩
    refine ⟨fun _ hlt j => ?_, fun ho => ?_, fun ho => ?_, fun _ ho => ?_⟩
    · -- before the walk nothing is called
      have hlt : s.next < plan.sites.length := hlt
      simp only [isWalking, houtcome, Option.isNone_none, Bool.true_and, Bool.and_eq_false_iff,
        decide_eq_false_iff_not] at hwalking
      rw [(h.sound.held.uncalled j).2 (by omega)]
      rfl
    all_goals
      rw [houtcome] at ho
      cases ho

theorem acquireOther (h : plan.Kept original s) : plan.Kept original s.acquireOther := by
  refine ⟨⟨h.sound.held.acquireOther, ?_, ?_⟩, ?_⟩
  all_goals
    unfold State.acquireOther
    split
  · exact h.sound.logged.congr rfl rfl id
  · exact h.sound.logged.congr rfl rfl id
  · exact h.sound.placed.congr rfl rfl
  · exact h.sound.placed.congr rfl rfl
  all_goals exact h.ended.congr rfl rfl rfl rfl

theorem releaseOther (h : plan.Kept original s) (hwalking : plan.isWalking s = false)
    (hothers : s.others ≠ 0) :
    plan.Kept original (free plan.limit { s with others := s.others - 1 }) := by
  have hsound : plan.Sound original 1 { s with others := s.others - 1 } :=
    ⟨h.sound.held.returnOther hothers, h.sound.logged.congr rfl rfl id,
      h.sound.placed.congr rfl rfl⟩
  refine ⟨hsound.free, ?_⟩
  unfold State.free
  split
  next =>
    unfold State.release
    split
    next => exact h.ended.congr rfl rfl rfl rfl
    next i waiters hwaiters =>
      -- a call of this visit waits, so that the walk is over
      have hqueued : s.status i = .queued :=
        (h.sound.held.queue i).2 (by rw [show s.waiters = some i :: waiters from hwaiters]; simp)
      have hactive : (s.status i).isInactive = false := by rw [hqueued]; rfl
      obtain ⟨hnext, houtcome⟩ := h.complete hwalking hactive
      exact .of_complete hnext houtcome
    next => exact h.ended.congr rfl rfl rfl rfl
  next => exact h.ended.congr rfl rfl rfl rfl

theorem step {a : Action α E} (h : plan.Kept original s)
    (hdistinct : (plan.sites.map Site.path).Nodup) (hprompt : plan.Prompt s a) :
    plan.Kept original (plan.step s a) := by
  cases hwalking : plan.isWalking s with
  | true =>
    cases a with
    | call thrown => exact h.call hprompt
    | _ => simpa [Plan.step, hwalking] using h
  | false =>
    cases a with
    | call thrown => exact h.call hprompt
    | resume i thrown => simpa [Plan.step, hwalking] using h.resume hwalking
    | settle i result => simpa [Plan.step, hwalking] using h.settle hwalking
    | write i => simpa [Plan.step, hwalking] using h.write hdistinct hwalking
    | drain => simpa [Plan.step, hwalking] using h.drain
    | abort e => simpa [Plan.step, hwalking] using h.abort hwalking
    | acquireOther => simpa [Plan.step, hwalking] using h.acquireOther
    | releaseOther =>
      simp only [Plan.step, hwalking, Bool.false_or, decide_eq_true_eq]
      split
      next => exact h
      next hothers => exact h.releaseOther hwalking hothers

end Kept

end Plan

end TemporalSdk.Visits
