import TemporalSdk.Visits.Progress

/-!
# Visits of messages

A visit calls the transform once at every payload of a message and puts the results in their places;
when a transform fails it ends with an error, after the transforms that were called have settled.
-/

namespace TemporalSdk.Visits

open Machine State

namespace Plan

variable {L K α C E : Type} {plan : Plan C α} {original : SiteTree L K α} {s : State L K α E}

/-- What is promised of a visit in a state it reaches. -/
structure Correct (plan : Plan C α) (original : SiteTree L K α) (s : State L K α E) : Prop where
  /-- a transform is called at sites only, and at most once at each of them -/
  calls : (s.log.filterMap Event.startedAt).Nodup ∧ ∀ i, .started i ∈ s.log → i < plan.sites.length
  /-- at most the configured number of transforms run at once -/
  capped : ∀ c, plan.limit = .bounded c →
    tally (List.range plan.sites.length) Status.isRunning s.status ≤ max 1 c
  /-- only sites change, and to what their transform returned; at the end all of them have -/
  replaced : ∃ results, s.message = fillTree results original ∧
    (∀ path, results path ≠ none → ∃ site ∈ plan.sites, site.path = path) ∧
    (∀ i site v, plan.sites[i]? = some site → results site.path = some v →
      .returned i v ∈ s.log ∧ v.sameKind site.input = true) ∧
    (s.outcome = some (.ok ()) → ∀ site ∈ plan.sites, results site.path ≠ none)
  /-- no transform returns twice -/
  unique : ∀ i v v', .returned i v ∈ s.log → .returned i v' ∈ s.log → v' = v
  /-- a failure rejects the visit, and only a failure or an abort does -/
  failing : (∃ event ∈ s.log, event.isFailure = true) → s.outcome ≠ some (.ok ())
  aborted : ∀ e, s.outcome = some (.error e) → s.failure ≠ none
  /-- when the visit is rejected, every transform that was called has settled -/
  settled : ∀ e, s.outcome = some (.error e) → ∀ i, .started i ∈ s.log →
    (∃ v, .returned i v ∈ s.log) ∨ ∃ e', .failed i e' ∈ s.log
  /-- no transform is called after one has failed -/
  stopped : s.log.Pairwise fun event later => event.isFailure = true → later.startedAt = none
  /-- the visit ends once its transforms have settled and other visits have let go of the limit -/
  moves : s.outcome = none → plan.CanMove s
  nearer : ∀ a : Action α E, a.isOwn = true →
    plan.step s a = s ∨ plan.remaining (plan.step s a) < plan.remaining s

namespace Kept

theorem called_lt (h : plan.Kept original s) {event : Event α E} (hevent : event ∈ s.log) :
    event.index < plan.sites.length := by
  refine h.sound.held.lt_of_called fun huncalled => ?_
  have hentry := h.sound.logged.entries event.index
  rw [huncalled] at hentry
  exact hentry event hevent rfl

theorem returned_unique (h : plan.Kept original s) {i : Nat} {v v' : SiteValue α}
    (hv : .returned i v ∈ s.log) (hv' : .returned i v' ∈ s.log) : v' = v := by
  have hentry := h.sound.logged.entries i
  cases hst : s.status i with
  | uncalled | queued | granted =>
    rw [hst] at hentry
    exact absurd rfl (hentry _ hv)
  | running =>
    rw [hst] at hentry
    cases hentry.2 _ hv rfl
  | returned | written =>
    rw [hst] at hentry
    have hw := hentry.2.2 _ hv rfl
    have hw' := hentry.2.2 _ hv' rfl
    simp_all
  | rejected e =>
    rw [hst] at hentry
    rcases hentry.2.2 _ hv rfl with hw | hw <;> cases hw

theorem not_resolved (h : plan.Kept original s) {event : Event α E} (hevent : event ∈ s.log)
    (hfailure : event.isFailure = true) : s.outcome ≠ some (.ok ()) := by
  intro hresolved
  have hwritten := h.ended.resolved hresolved event.index (h.called_lt hevent)
  have hentry := h.sound.logged.entries event.index
  cases hst : s.status event.index with
  | written v =>
    rw [hst] at hentry
    rcases hentry.2.2 event hevent rfl with heq | heq <;>
    · rw [heq] at hfailure
      cases hfailure
  | _ =>
    rw [hst] at hwritten
    cases hwritten

theorem started_settled (h : plan.Kept original s) {e : E} (hrejected : s.outcome = some (.error e))
    {i : Nat} (hstarted : .started i ∈ s.log) :
    (∃ v, .returned i v ∈ s.log) ∨ ∃ e', .failed i e' ∈ s.log := by
  have hinactive := h.ended.finished (by rw [hrejected]; rfl) i
  have hentry := h.sound.logged.entries i
  cases hst : s.status i with
  | uncalled =>
    rw [hst] at hentry
    exact absurd rfl (hentry _ hstarted)
  | written v =>
    rw [hst] at hentry
    exact .inl ⟨v, hentry.2.1⟩
  | rejected e' =>
    rw [hst] at hentry
    exact .inr ⟨e', hentry.2.1 hstarted⟩
  | _ =>
    rw [hst] at hinactive
    cases hinactive

theorem replaced (h : plan.Kept original s) :
    ∃ results, s.message = fillTree results original ∧
      (∀ path, results path ≠ none → ∃ site ∈ plan.sites, site.path = path) ∧
      (∀ i site v, plan.sites[i]? = some site → results site.path = some v →
        .returned i v ∈ s.log ∧ v.sameKind site.input = true) ∧
      (s.outcome = some (.ok ()) → ∀ site ∈ plan.sites, results site.path ≠ none) := by
  obtain ⟨results, hfill, houtside, hresults⟩ := h.sound.placed.filled
  refine ⟨results, hfill, houtside, fun i site v hsite hv => ?_, fun hresolved site hsite => ?_⟩
  · rw [hresults i site hsite] at hv
    have hentry := h.sound.logged.entries i
    cases hst : s.status i with
    | written w =>
      rw [hst] at hv hentry
      cases hv
      have hkind := h.sound.placed.kinds i v (.inr hst)
      simp only [isResult, hsite] at hkind
      exact ⟨hentry.2.1, hkind⟩
    | _ =>
      rw [hst] at hv
      cases hv
  · obtain ⟨i, hi, hget⟩ := List.getElem_of_mem hsite
    have hsite' : plan.sites[i]? = some site := by rw [List.getElem?_eq_getElem hi, hget]
    rw [hresults i site hsite']
    exact Option.isSome_iff_ne_none.1 (h.ended.resolved hresolved i hi)

theorem correct (h : plan.Kept original s) : plan.Correct original s where
  calls := ⟨h.sound.logged.once, fun _ hstarted => h.called_lt hstarted⟩
  capped _ hc := h.sound.held.running_le hc
  replaced := h.replaced
  unique _ _ _ hv hv' := h.returned_unique hv hv'
  failing := fun ⟨_, hevent, hfailure⟩ => h.not_resolved hevent hfailure
  aborted e he := Option.isSome_iff_ne_none.1 (h.ended.aborted e he)
  settled _ he _ hstarted := h.started_settled he hstarted
  stopped := h.sound.logged.stopped
  moves _ := h.canMove
  nearer := h.remaining_step

end Kept

end Plan

section Visit

variable {T S P C E : Type} [DecidableEq T]

/-- The visit of a message with the walker of its type. -/
def visitPlan (root : Root T) (env : WalkEnv T S P C) (limit : Limit) (c : C)
    (message : Message T S P) : Plan C P :=
  ⟨walk root env c message, limit⟩

end Visit

/-! ## A failure with causes -/

inductive SampleType where
  | payload
  | any
  | activation
  | failure
  deriving DecidableEq

/-- An activation with arguments, headers and a failure, which has encoded attributes and a cause. -/
def sampleRoot : Root SampleType where
  PAYLOAD := .payload
  ANY := .any
  fieldsArray
    | .activation => [⟨"arguments", .repeated, some .payload⟩, ⟨"headers", .map, some .payload⟩,
        ⟨"failure", .singular, some .failure⟩, ⟨"envelope", .singular, some .any⟩]
    | .failure => [⟨"message", .singular, none⟩, ⟨"encodedAttributes", .singular, some .payload⟩,
        ⟨"cause", .singular, some .failure⟩]
    | _ => []
  candidates := [.activation]
  declared := [.payload, .any, .activation, .failure]
  mem_declared t := by cases t <;> simp
  opaque_any := by simp
  payload_not_candidate := by simp

/-- Contexts are the number of messages on the way. -/
def sampleEnv : WalkEnv SampleType Unit String Nat where
  deriveContext := some fun _ _ c => c + 1
  skipHeaders := true
  skipSearchAttributes := false

def sampleMessage : Message SampleType Unit String :=
  .node (.activation, ()) <|
    .cons ⟨"arguments", .repeated, some .payload⟩ (.values ["a", "b"]) <|
    .cons ⟨"headers", .map, some .payload⟩ (.value "h") <|
    .cons ⟨"failure", .singular, some .failure⟩
      (.child <| .node (.failure, ()) <|
        .cons ⟨"encodedAttributes", .singular, some .payload⟩ (.value "f") <|
        .cons ⟨"cause", .singular, some .failure⟩
          (.child <| .node (.failure, ()) <|
            .cons ⟨"encodedAttributes", .singular, some .payload⟩ (.value "g") .nil) .nil) .nil

theorem sampleMessage_wellTyped : WellTyped sampleRoot sampleMessage := by
  simp [WellTyped, WellTypedFields, WellTypedField, sampleMessage, sampleRoot, SiteTree.label]

def samplePlan (limit : Limit) : Plan Nat String :=
  visitPlan sampleRoot sampleEnv limit 0 sampleMessage

/-- One transform at a time: the first returns, the second fails and the third is not called. -/
def failingRun : List (Action String String) :=
  [.call none, .call none, .call none, .resume 0 none, .settle 0 (.ok (.many ["x"])),
    .resume 1 none, .write 0, .settle 1 (.error "boom"), .resume 2 none, .drain]

/-- Without a limit: the first transform is running when the second throws. -/
def throwingRun : List (Action String String) := [.call none, .call (some "boom"), .call none]

theorem throwingRun_log :
    (run (samplePlan .unbounded).step (start .unbounded sampleMessage) throwingRun).log =
      [.started 0, .started 1, .failed 1 "boom"] := by
  decide +kernel

theorem throwingRun_outcome :
    (run (samplePlan .unbounded).step (start .unbounded sampleMessage) throwingRun).outcome =
      some (.error "boom") := by
  rfl

end TemporalSdk.Visits
