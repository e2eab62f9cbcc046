import TemporalSdk.Visits.Settling

/-!
# A visit gets on

Every step that the visit takes by itself brings its end nearer, and as long as it has not ended it
can take one, or a transform is running, or another visit has a permit.
-/

namespace TemporalSdk.Visits

open Machine State

variable {L K α C E : Type}

/-- How many steps a call is from its end. -/
def Status.distance : Status α E → Nat
  | .uncalled => 5
  | .queued => 4
  | .granted => 3
  | .running => 2
  | .returned _ => 1
  | .written _ => 0
  | .rejected _ => 0

/-- The steps of the visit itself and of its transforms. -/
def Action.isOwn : Action α E → Bool
  | .abort _ => false
  | .acquireOther => false
  | .releaseOther => false
  | _ => true

namespace Plan

/-- How far the calls are from their ends, and the visit from its own. -/
def remaining (plan : Plan C α) (s : State L K α E) : Nat :=
  total (List.range plan.sites.length) Status.distance s.status + s.outcome.isNone.toNat

variable {plan : Plan C α} {original : SiteTree L K α} {s s' : State L K α E} {i inHand : Nat}

theorem remaining_setStatus (hi : i < plan.sites.length) (st : Status α E)
    (hstatus : s'.status = Function.update s.status i st) (houtcome : s'.outcome = s.outcome) :
    plan.remaining s' + (s.status i).distance = plan.remaining s + st.distance := by
  have htotal : total (List.range plan.sites.length) Status.distance (Function.update s.status i st) +
      (s.status i).distance =
        total (List.range plan.sites.length) Status.distance s.status + st.distance :=
    total_update List.nodup_range (List.mem_range.2 hi)
  rw [remaining, remaining, hstatus, houtcome]
  omega

theorem remaining_lt (hi : i < plan.sites.length) (st : Status α E)
    (hstatus : s'.status = Function.update s.status i st) (houtcome : s'.outcome = s.outcome)
    (hlt : st.distance < (s.status i).distance) : plan.remaining s' < plan.remaining s := by
  have hmoved : plan.remaining s' + (s.status i).distance = plan.remaining s + st.distance :=
    remaining_setStatus hi st hstatus houtcome
  omega

theorem remaining_release (h : plan.Held inHand s) : plan.remaining s.release ≤ plan.remaining s := by
  unfold State.release
  split
  next => exact Nat.le_refl _
  next i waiters hwaiters =>
    have hqueued : s.status i = .queued := (h.queue i).2 (by simp [hwaiters])
    have hi : i < plan.sites.length := h.lt_of_called (by rw [hqueued]; nofun)
    refine Nat.le_of_lt (remaining_lt hi .granted rfl rfl ?_)
    rw [hqueued]
    simp [Status.distance]
  next => exact Nat.le_refl _

theorem remaining_free (h : plan.Held inHand s) :
    plan.remaining (free plan.limit s) ≤ plan.remaining s := by
  unfold State.free
  split
  next => exact remaining_release h
  next => exact Nat.le_refl _

namespace Kept

theorem remaining_call {thrown : Option E} (h : plan.Kept original s) :
    plan.call thrown s = s ∨ plan.remaining (plan.call thrown s) < plan.remaining s := by
  unfold Plan.call
  split
  next => exact .inl rfl
  next hgo =>
    right
    simp only [Bool.or_eq_true, decide_eq_true_eq, not_or, Bool.not_eq_true,
      Option.isSome_eq_false_iff, Option.isNone_iff_eq_none, Nat.not_le] at hgo
    obtain ⟨houtcome, hnext⟩ := hgo
    have huncalled : s.status s.next = .uncalled := (h.sound.held.uncalled s.next).2 (Nat.le_refl _)
    split
    next => simp [remaining, houtcome]
    next =>
      dsimp only
      split
      next =>
        unfold State.acquire
        split
        next => exact remaining_lt hnext .granted rfl rfl (by simp [huncalled, Status.distance])
        next => exact remaining_lt hnext .queued rfl rfl (by simp [huncalled, Status.distance])
      next => exact remaining_lt hnext .running rfl rfl (by simp [huncalled, Status.distance])
      next e _ =>
        refine remaining_lt hnext (.rejected e) ?_ rfl (by simp [huncalled, Status.distance])
        simp [State.fail, State.invoke, setStatus]

theorem remaining_resume {thrown : Option E} (h : plan.Kept original s) :
    Plan.resume i thrown s = s ∨ plan.remaining (Plan.resume i thrown s) < plan.remaining s := by
  unfold Plan.resume
  split
  next hgranted =>
    right
    have hi : i < plan.sites.length := h.sound.held.lt_of_called (by rw [hgranted]; nofun)
    split
    next _ e hfailure =>
      have hreleased := remaining_release (h.sound.refuse hgranted hfailure).held
      have hmoved : plan.remaining (s.setStatus i (.rejected e)) < plan.remaining s :=
        remaining_lt hi (.rejected e) rfl rfl (by simp [hgranted, Status.distance])
      omega
    next => exact remaining_lt hi .running rfl rfl (by simp [hgranted, Status.distance])
    next e hfailure =>
      have hrunning : (s.invoke i).status i = .running := by simp [State.invoke, setStatus]
      have hfailed := (h.sound.invoke hgranted hfailure).fail (e := e) hrunning
      have hreleased := remaining_release hfailed.held
      have hmoved : plan.remaining ((s.invoke i).fail i e) < plan.remaining s := by
        refine remaining_lt hi (.rejected e) ?_ rfl (by simp [hgranted, Status.distance])
        simp [State.fail, State.invoke, setStatus]
      omega
  next => exact .inl rfl

theorem remaining_settle {result : Except E (SiteValue α)} (h : plan.Kept original s) :
    plan.settle i result s = s ∨ plan.remaining (plan.settle i result s) < plan.remaining s := by
  unfold Plan.settle
  split
  next v hrunning =>
    have hi : i < plan.sites.length := h.sound.held.lt_of_called (by rw [hrunning]; nofun)
    split
    next hresult =>
      right
      have hfreed := remaining_free (h.sound.returned hrunning hresult).held
      have hmoved : plan.remaining
          { s.setStatus i (.returned v) with log := s.log ++ [.returned i v] } < plan.remaining s :=
        remaining_lt hi (.returned v) rfl rfl (by simp [hrunning, Status.distance])
      omega
    next => exact .inl rfl
  next e hrunning =>
    right
    have hi : i < plan.sites.length := h.sound.held.lt_of_called (by rw [hrunning]; nofun)
    have hfreed := remaining_free (h.sound.fail (e := e) hrunning).held
    have hmoved : plan.remaining (s.fail i e) < plan.remaining s :=
      remaining_lt hi (.rejected e) rfl rfl (by simp [hrunning, Status.distance])
    omega
  next => exact .inl rfl

theorem remaining_write (h : plan.Kept original s) :
    plan.write i s = s ∨ plan.remaining (plan.write i s) < plan.remaining s := by
  unfold Plan.write
  split
  next v site hreturned hsite =>
    have hi : i < plan.sites.length := h.sound.held.lt_of_called (by rw [hreturned]; nofun)
    exact .inr (remaining_lt hi (.written v) rfl rfl (by simp [hreturned, Status.distance]))
  next => exact .inl rfl

theorem remaining_drain :
    plan.drain s = s ∨ plan.remaining (plan.drain s) < plan.remaining s := by
  unfold Plan.drain
  dsimp only
  split
  next hready =>
    right
    split
    next => simp [remaining, hready.1]
    next => simp [remaining, hready.1]
  next => exact .inl rfl

/-- A step of the visit or of a transform does nothing or brings the end nearer. -/
theorem remaining_step (h : plan.Kept original s) (a : Action α E) (hown : a.isOwn = true) :
    plan.step s a = s ∨ plan.remaining (plan.step s a) < plan.remaining s := by
  cases a with
  | call thrown => exact h.remaining_call
  | resume i thrown =>
    simp only [Plan.step]
    split
    next => exact .inl rfl
    next => exact h.remaining_resume
  | settle i result =>
    simp only [Plan.step]
    split
    next => exact .inl rfl
    next => exact h.remaining_settle
  | write i =>
    simp only [Plan.step]
    split
    next => exact .inl rfl
    next => exact h.remaining_write
  | drain =>
    simp only [Plan.step]
    split
    next => exact .inl rfl
    next => exact remaining_drain
  | abort | acquireOther | releaseOther => cases hown

end Kept

/-- The visit can go on: with its walk, with a call that has its permit or its result, or with its end;
or it waits for a transform or for another visit. -/
def CanMove (plan : Plan C α) (s : State L K α E) : Prop :=
  s.next < plan.sites.length ∨ (∃ i, s.status i = .granted) ∨ (∃ i, s.status i = .running) ∨
    (∃ i v, s.status i = .returned v) ∨ 0 < s.others ∨
    ∀ i < plan.sites.length, (s.status i).isSettled = true

theorem Kept.canMove (h : plan.Kept original s) : plan.CanMove s := by
  by_cases hnext : s.next < plan.sites.length
  · exact .inl hnext
  · by_cases hsettled : ∀ i < plan.sites.length, (s.status i).isSettled = true
    · exact .inr (.inr (.inr (.inr (.inr hsettled))))
    · -- a call is left; one that waits for a permit waits for somebody
      simp only [not_forall] at hsettled
      obtain ⟨i, hi, hleft⟩ := hsettled
      cases hst : s.status i with
      | uncalled =>
        have := (h.sound.held.uncalled i).1 hst
        omega
      | queued =>
        rcases h.sound.held.exists_holder hst with hothers | ⟨j, hj⟩
        · exact .inr (.inr (.inr (.inr (.inl hothers))))
        · cases hst' : s.status j with
          | granted => exact .inr (.inl ⟨j, hst'⟩)
          | running => exact .inr (.inr (.inl ⟨j, hst'⟩))
          | _ =>
            rw [hst'] at hj
            cases hj
      | granted => exact .inr (.inl ⟨i, hst⟩)
      | running => exact .inr (.inr (.inl ⟨i, hst⟩))
      | returned v => exact .inr (.inr (.inr (.inl ⟨i, v, hst⟩)))
      | written | rejected => exact absurd (by rw [hst]; rfl) hleft

end Plan
end TemporalSdk.Visits
