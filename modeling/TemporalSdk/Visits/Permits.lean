import TemporalSdk.Visits.Visit

/-!
# Permits of a visit

The permits of the semaphore are in its pool, with other visits or with calls of this visit; a call
that waits for one is in the queue, and then the pool is empty.
-/

namespace TemporalSdk.Visits
namespace Plan

open Machine State

variable {L K α C E : Type} (plan : Plan C α)

/-- How many calls have a permit. -/
def holders (s : State L K α E) : Nat :=
  tally (List.range plan.sites.length) Status.holdsPermit s.status

/-- The bookkeeping of calls and permits, with `inHand` permits on their way back. -/
structure Held (inHand : Nat) (s : State L K α E) : Prop where
  next_le : s.next ≤ plan.sites.length
  uncalled : ∀ i, s.status i = .uncalled ↔ s.next ≤ i
  capacity : ∀ c, plan.limit = .bounded c →
    s.permits + s.others + plan.holders s + inHand = max 1 c
  waiting : s.waiters ≠ [] → s.permits = 0
  queue : ∀ i, s.status i = .queued ↔ some i ∈ s.waiters
  distinct : (s.waiters.filterMap id).Nodup
  unlimited : plan.limit = .unbounded → ∀ i, s.status i ≠ .queued ∧ s.status i ≠ .granted

theorem held_start (message : SiteTree L K α) :
    plan.Held 0 (start plan.limit message : State L K α E) where
  next_le := Nat.zero_le _
  uncalled i := by simp [start]
  capacity c hc := by
    have hnone : plan.holders (start plan.limit message : State L K α E) = 0 :=
      tally_eq_zero.2 fun _ _ => rfl
    rw [hnone]
    simp [start, hc, Limit.permits]
  waiting h := absurd rfl h
  queue i := by simp [start]
  distinct := by simp [start]
  unlimited _ i := ⟨nofun, nofun⟩

variable {plan} {s : State L K α E} {inHand : Nat}

namespace Held

theorem lt_of_called (h : plan.Held inHand s) {i : Nat} (hi : s.status i ≠ .uncalled) :
    i < plan.sites.length := by
  have hnext := mt (h.uncalled i).2 hi
  have := h.next_le
  omega

theorem congr {s' : State L K α E} (h : plan.Held inHand s) (hstatus : s'.status = s.status)
    (hnext : s'.next = s.next) (hpermits : s'.permits = s.permits)
    (hwaiters : s'.waiters = s.waiters) (hothers : s'.others = s.others) :
    plan.Held inHand s' := by
  obtain ⟨message, status, next, failure, permits, waiters, others, outcome, log⟩ := s
  cases hstatus
  cases hnext
  cases hpermits
  cases hwaiters
  cases hothers
  exact { h with }

theorem holders_setStatus (s : State L K α E) {i : Nat} (hi : i < plan.sites.length)
    (st : Status α E) :
    plan.holders (s.setStatus i st) + (s.status i).holdsPermit.toNat =
      plan.holders s + st.holdsPermit.toNat := by
  simp only [holders, tally, setStatus]
  exact total_update List.nodup_range (List.mem_range.2 hi)

theorem uncalled_of_ne (h : plan.Held inHand s) {j : Nat} (hj : j ≠ s.next) :
    s.status j = .uncalled ↔ s.next + 1 ≤ j := by
  rw [h.uncalled j]
  omega

/-- A call moves on, and takes or gives back a permit. -/
theorem move {i inHand' : Nat} {old st : Status α E} (h : plan.Held inHand s) (hstatus : s.status i = old)
    (hcalled : old ≠ .uncalled) (hqueued : old ≠ .queued) (hst : st ≠ .uncalled) (hst' : st ≠ .queued)
    (hst'' : st ≠ .granted) (hbalance : old.holdsPermit.toNat + inHand = st.holdsPermit.toNat + inHand') :
    plan.Held inHand' (s.setStatus i st) where
  next_le := h.next_le
  uncalled j := by
    by_cases hj : j = i
    · subst hj
      have := mt (h.uncalled j).2 (hstatus ▸ hcalled)
      simp [setStatus, hst, this]
    · simpa [setStatus, Function.update_of_ne hj] using h.uncalled j
  capacity c hc := by
    have hold := h.capacity c hc
    have hholders := holders_setStatus s (h.lt_of_called (hstatus ▸ hcalled)) st
    simp only [hstatus, setStatus] at hholders ⊢
    omega
  waiting := h.waiting
  queue j := by
    by_cases hj : j = i
    · subst hj
      have := mt (h.queue j).2 (hstatus ▸ hqueued)
      simp [setStatus, hst', this]
    · simpa [setStatus, Function.update_of_ne hj] using h.queue j
  distinct := h.distinct
  unlimited hlimit j := by
    by_cases hj : j = i
    · subst hj
      simp [setStatus, hst', hst'']
    · simpa [setStatus, Function.update_of_ne hj] using h.unlimited hlimit j

/-- Without a limit, the call at the next site is made at once. -/
theorem advance (h : plan.Held inHand s) (st : Status α E) (hlimit : plan.limit = .unbounded)
    (hnext : s.next < plan.sites.length) (hst : st ≠ .uncalled) (hst' : st ≠ .queued)
    (hst'' : st ≠ .granted) :
    plan.Held inHand { s.setStatus s.next st with next := s.next + 1 } where
  next_le := hnext
  uncalled j := by
    by_cases hj : j = s.next
    · subst hj
      simp [setStatus, hst]
    · simpa [setStatus, Function.update_of_ne hj] using h.uncalled_of_ne hj
  capacity c hc := by
    rw [hlimit] at hc
    cases hc
  waiting := h.waiting
  queue j := by
    by_cases hj : j = s.next
    · subst hj
      have huncalled := (h.uncalled s.next).2 (Nat.le_refl _)
      have := mt (h.queue s.next).2 (by rw [huncalled]; nofun)
      simp [setStatus, hst', this]
    · simpa [setStatus, Function.update_of_ne hj] using h.queue j
  distinct := h.distinct
  unlimited _ j := by
    by_cases hj : j = s.next
    · subst hj
      simp [setStatus, hst', hst'']
    · simpa [setStatus, Function.update_of_ne hj] using h.unlimited hlimit j

/-- The call at the next site gets a permit from the pool or waits. -/
theorem acquire {c : Nat} (h : plan.Held inHand s) (hlimit : plan.limit = .bounded c)
    (hnext : s.next < plan.sites.length) :
    plan.Held inHand ({ s with next := s.next + 1 }.acquire s.next) := by
  have huncalled : s.status s.next = .uncalled := (h.uncalled s.next).2 (Nat.le_refl _)
  have hnotQueued : some s.next ∉ s.waiters :=
    mt (h.queue s.next).2 (by rw [huncalled]; nofun)
  have hcap := h.capacity c hlimit
  unfold State.acquire
  split
  next hpermits =>
    have hholders := holders_setStatus s hnext .granted
    rw [huncalled] at hholders
    refine ⟨hnext, fun j => ?_, fun c' hc' => ?_, fun hwait => ?_, fun j => ?_, h.distinct, ?_⟩
    · by_cases hj : j = s.next
      · simp [setStatus, hj]
      · simpa [setStatus, Function.update_of_ne hj] using h.uncalled_of_ne hj
    · rw [hlimit] at hc'
      cases hc'
      simp only [setStatus, holders, Status.holdsPermit, Bool.toNat_false, Bool.toNat_true] at *
      omega
    · have : s.permits = 0 := h.waiting hwait
      have hpos : 0 < s.permits := hpermits
      omega
    · by_cases hj : j = s.next
      · subst hj
        simp [setStatus, hnotQueued]
      · simpa [setStatus, Function.update_of_ne hj] using h.queue j
    · intro hunbounded
      rw [hlimit] at hunbounded
      cases hunbounded
  next hpermits =>
    have hholders := holders_setStatus s hnext .queued
    rw [huncalled] at hholders
    refine ⟨hnext, fun j => ?_, fun c' hc' => ?_, fun _ => ?_, fun j => ?_, ?_, ?_⟩
    · by_cases hj : j = s.next
      · simp [setStatus, hj]
      · simpa [setStatus, Function.update_of_ne hj] using h.uncalled_of_ne hj
    · rw [hlimit] at hc'
      cases hc'
      simp only [setStatus, holders, Status.holdsPermit, Bool.toNat_false] at *
      omega
    · have : ¬ 0 < s.permits := hpermits
      exact Nat.eq_zero_of_not_pos this
    · by_cases hj : j = s.next
      · simp [setStatus, hj]
      · simpa [setStatus, Function.update_of_ne hj, hj] using h.queue j
    · simp only [List.filterMap_append]
      refine List.nodup_append.2 ⟨h.distinct, by simp, ?_⟩
      intro i hi j hj heq
      have hj' : j = s.next := by simpa using hj
      have hi' : some i ∈ s.waiters := by simpa using hi
      rw [heq, hj'] at hi'
      exact hnotQueued hi'
    · intro hunbounded
      rw [hlimit] at hunbounded
      cases hunbounded

/-- A permit in hand goes to the pool, to another visit or to the longest waiting call. -/
theorem release {c : Nat} (h : plan.Held 1 s) (hlimit : plan.limit = .bounded c) :
    plan.Held 0 s.release := by
  have hcap := h.capacity c hlimit
  have hbounded : plan.limit ≠ .unbounded := by rw [hlimit]; nofun
  unfold State.release
  split
  next hwaiters =>
    refine ⟨h.next_le, h.uncalled, fun c' hc' => ?_, fun hwait => absurd hwaiters hwait, h.queue,
      h.distinct, fun hunbounded => absurd hunbounded hbounded⟩
    rw [hlimit] at hc'
    cases hc'
    simp only [holders] at *
    omega
  next i waiters hwaiters =>
    have hqueued : s.status i = .queued := (h.queue i).2 (by simp [hwaiters])
    have hdistinct := h.distinct
    rw [hwaiters] at hdistinct
    simp only [List.filterMap_cons, id_eq, List.nodup_cons] at hdistinct
    have hi : i < plan.sites.length := h.lt_of_called (by rw [hqueued]; nofun)
    have hholders := holders_setStatus s hi .granted
    rw [hqueued] at hholders
    refine ⟨h.next_le, fun j => ?_, fun c' hc' => ?_, fun _ => h.waiting (by simp [hwaiters]),
      fun j => ?_, hdistinct.2, fun hunbounded => absurd hunbounded hbounded⟩
    · by_cases hj : j = i
      · subst hj
        have := h.uncalled j
        rw [hqueued] at this
        simpa [setStatus] using this
      · simpa [setStatus, Function.update_of_ne hj] using h.uncalled j
    · rw [hlimit] at hc'
      cases hc'
      simp only [setStatus, holders, Status.holdsPermit, Bool.toNat_false, Bool.toNat_true] at *
      omega
    · by_cases hj : j = i
      · subst hj
        simpa [setStatus] using hdistinct.1
      · have := h.queue j
        rw [hwaiters] at this
        simpa [setStatus, Function.update_of_ne hj, hj] using this
  next waiters hwaiters =>
    have hdistinct := h.distinct
    rw [hwaiters] at hdistinct
    refine ⟨h.next_le, h.uncalled, fun c' hc' => ?_, fun _ => h.waiting (by simp [hwaiters]),
      fun j => ?_, by simpa using hdistinct, fun hunbounded => absurd hunbounded hbounded⟩
    · rw [hlimit] at hc'
      cases hc'
      simp only [holders] at *
      omega
    · have := h.queue j
      rw [hwaiters] at this
      simpa using this

theorem free (h : plan.Held 1 s) : plan.Held 0 (free plan.limit s) := by
  cases hlimit : plan.limit with
  | bounded c => exact h.release hlimit
  | unbounded =>
    refine { h with capacity := fun c hc => ?_ }
    rw [hlimit] at hc
    cases hc

theorem acquireOther (h : plan.Held 0 s) : plan.Held 0 s.acquireOther := by
  unfold State.acquireOther
  split
  next hpermits =>
    refine { h with capacity := fun c hc => ?_, waiting := fun hwait => ?_ }
    · have := h.capacity c hc
      simp only [holders] at *
      omega
    · have := h.waiting hwait
      omega
  next hpermits =>
    refine ⟨h.next_le, h.uncalled, h.capacity, fun _ => ?_, fun j => ?_, ?_, h.unlimited⟩
    · exact Nat.eq_zero_of_not_pos hpermits
    · simpa using h.queue j
    · simpa using h.distinct

theorem returnOther (h : plan.Held 0 s) (hothers : s.others ≠ 0) :
    plan.Held 1 { s with others := s.others - 1 } := by
  refine { h with capacity := fun c hc => ?_ }
  have := h.capacity c hc
  simp only [holders] at *
  omega

theorem running_le (h : plan.Held 0 s) {c : Nat} (hc : plan.limit = .bounded c) :
    tally (List.range plan.sites.length) Status.isRunning s.status ≤ max 1 c := by
  have hcap := h.capacity c hc
  have hle : tally (List.range plan.sites.length) Status.isRunning s.status ≤ plan.holders s := by
    unfold holders tally
    refine total_mono fun i _ => ?_
    cases s.status i <;> simp [Status.isRunning, Status.holdsPermit]
  omega

theorem exists_holder (h : plan.Held 0 s) {i : Nat} (hi : s.status i = .queued) :
    0 < s.others ∨ ∃ j, (s.status j).holdsPermit = true := by
  cases hlimit : plan.limit with
  | unbounded => exact absurd hi (h.unlimited hlimit i).1
  | bounded c =>
    have hcap := h.capacity c hlimit
    have hpool : s.permits = 0 := by
      refine h.waiting fun hnil => ?_
      have := (h.queue i).1 hi
      rw [hnil] at this
      cases this
    by_contra hnone
    simp only [not_or, not_exists, Nat.not_lt, Nat.le_zero, Bool.not_eq_true] at hnone
    have hzero : plan.holders s = 0 := tally_eq_zero.2 fun j _ => hnone.2 j
    omega

end Held

end Plan
end TemporalSdk.Visits
