import TemporalSdk.Machine.Run
import TemporalSdk.Machine.SiteWrites
import TemporalSdk.Machine.Tally

/-!
# A visit with concurrent transforms

`visit` of `packages/common/src/internal-non-workflow/payload-visitor.ts` with the limits of
`packages/common/src/concurrency`.  The walk is synchronous: while it goes from site to site nothing
else happens.  A limit backed by a semaphore calls its function later, and the unlimited one at once.
The semaphore may be shared with other visits.
-/

namespace TemporalSdk.Visits

open Machine

/-- `limit(concurrency)` or `unbounded()`; `sequential()` is the limit 1. -/
inductive Limit where
  | bounded (concurrency : Nat)
  | unbounded
  deriving DecidableEq

/-- The permits of a new semaphore. -/
def Limit.permits : Limit → Nat
  | .bounded concurrency => max 1 concurrency
  | .unbounded => 0

/-- The sites the walk comes to, in order, and the limit of the visit. -/
structure Plan (C α : Type) where
  sites : List (Site C α)
  limit : Limit

/-- What has become of the call at a site. -/
inductive Status (α E : Type) where
  | uncalled
  /-- waiting for a permit -/
  | queued
  /-- has a permit; the transform is not called yet -/
  | granted
  | running
  /-- the transform has returned and nothing is written yet -/
  | returned (v : SiteValue α)
  | written (v : SiteValue α)
  | rejected (e : E)
  deriving DecidableEq

/-- What is seen of the transform at a site. -/
inductive Event (α E : Type) where
  | started (i : Nat)
  | returned (i : Nat) (v : SiteValue α)
  | failed (i : Nat) (e : E)
  deriving DecidableEq

/-- `waiters` has a number for a call of this visit and `none` for one of another visit, and `others`
counts the permits that other visits have. -/
structure State (L K α E : Type) where
  message : SiteTree L K α
  status : Nat → Status α E
  next : Nat
  failure : Option E
  permits : Nat
  waiters : List (Option Nat)
  others : Nat
  outcome : Option (Except E Unit)
  log : List (Event α E)

inductive Action (α E : Type) where
  /-- the walk comes to its next site; an unlimited transform may throw right away -/
  | call (thrown : Option E)
  /-- a call that was granted its permit goes on -/
  | resume (i : Nat) (thrown : Option E)
  /-- the promise of a transform settles -/
  | settle (i : Nat) (result : Except E (SiteValue α))
  | write (i : Nat)
  | drain
  | abort (e : E)
  | acquireOther
  | releaseOther

variable {L K α C E : Type}

namespace Status

def isSettled : Status α E → Bool
  | written _ => true
  | rejected _ => true
  | _ => false

/-- Nothing is left to do for the call, or it was never made. -/
def isInactive : Status α E → Bool
  | uncalled => true
  | written _ => true
  | rejected _ => true
  | _ => false

def holdsPermit : Status α E → Bool
  | granted => true
  | running => true
  | _ => false

def isRunning : Status α E → Bool
  | running => true
  | _ => false

def writtenValue : Status α E → Option (SiteValue α)
  | written v => some v
  | _ => none

def rejection : Status α E → Option E
  | rejected e => some e
  | _ => none

end Status

namespace State

def start (limit : Limit) (message : SiteTree L K α) : State L K α E where
  message := message
  status _ := .uncalled
  next := 0
  failure := none
  permits := limit.permits
  waiters := []
  others := 0
  outcome := none
  log := []

def setStatus (i : Nat) (status : Status α E) (s : State L K α E) : State L K α E :=
  { s with status := Function.update s.status i status }

/-! ## The semaphore -/

def acquire (i : Nat) (s : State L K α E) : State L K α E :=
  if 0 < s.permits then { s.setStatus i .granted with permits := s.permits - 1 }
  else { s.setStatus i .queued with waiters := s.waiters ++ [some i] }

def acquireOther (s : State L K α E) : State L K α E :=
  if 0 < s.permits then { s with permits := s.permits - 1, others := s.others + 1 }
  else { s with waiters := s.waiters ++ [none] }

/-- The permit goes to the longest waiting call, if there is one. -/
def release (s : State L K α E) : State L K α E :=
  match s.waiters with
  | [] => { s with permits := s.permits + 1 }
  | some i :: waiters => { s.setStatus i .granted with waiters := waiters }
  | none :: waiters => { s with waiters := waiters, others := s.others + 1 }

/-- The `finally` of a limit. -/
def free (limit : Limit) (s : State L K α E) : State L K α E :=
  match limit with
  | .bounded _ => s.release
  | .unbounded => s

/-! ## Transforms -/

/-- The transform at the site has failed, and the first failure is the reason of the abort. -/
def fail (i : Nat) (e : E) (s : State L K α E) : State L K α E :=
  { s.setStatus i (.rejected e) with
    failure := s.failure.or (some e), log := s.log ++ [.failed i e] }

/-- The transform is called with the input and the context of its site. -/
def invoke (i : Nat) (s : State L K α E) : State L K α E :=
  { s.setStatus i .running with log := s.log ++ [.started i] }

end State

namespace Plan

variable (plan : Plan C α)

open State

/-- `runTransform` at the next site of the walk. -/
def call (thrown : Option E) (s : State L K α E) : State L K α E :=
  if s.outcome.isSome || plan.sites.length ≤ s.next then s
  else
    match s.failure with
    -- `throwIfAborted` throws out of the walk
    | some e => { s with outcome := some (.error e) }
    | none =>
      let s' := { s with next := s.next + 1 }
      match plan.limit, thrown with
      | .bounded _, _ => s'.acquire s.next
      | .unbounded, none => s'.invoke s.next
      | .unbounded, some e => (s'.invoke s.next).fail s.next e

def resume (i : Nat) (thrown : Option E) (s : State L K α E) : State L K α E :=
  match s.status i with
  | .granted =>
    match s.failure, thrown with
    | some e, _ => (s.setStatus i (.rejected e)).release
    | none, none => s.invoke i
    | none, some e => ((s.invoke i).fail i e).release
  | _ => s

/-- A transform of one payload returns one, and a transform of a list returns a list. -/
def isResult (i : Nat) (v : SiteValue α) : Bool :=
  match plan.sites[i]? with
  | some site => v.sameKind site.input
  | none => false

def settle (i : Nat) (result : Except E (SiteValue α)) (s : State L K α E) : State L K α E :=
  match s.status i, result with
  | .running, .ok v =>
    if plan.isResult i v then
      free plan.limit { s.setStatus i (.returned v) with log := s.log ++ [.returned i v] }
    else s
  | .running, .error e => free plan.limit (s.fail i e)
  | _, _ => s

/-- The result is assigned to the field, the element of the map or the list of its site. -/
def write (i : Nat) (s : State L K α E) : State L K α E :=
  match s.status i, plan.sites[i]? with
  | .returned v, some site =>
    { s.setStatus i (.written v) with message := writeTree site.path v s.message }
  | _, _ => s

/-- `drain`: once every call has settled, the first rejection in the order of the walk is thrown. -/
def drain (s : State L K α E) : State L K α E :=
  let calls := List.range plan.sites.length
  if s.outcome = none ∧ s.next = plan.sites.length ∧ calls.all fun i => (s.status i).isSettled then
    match calls.findSome? fun i => (s.status i).rejection with
    | some e => { s with outcome := some (.error e) }
    | none => { s with outcome := some (.ok ()) }
  else s

/-- The signal given to the visit; its listener is removed when the visit ends. -/
def abort (e : E) (s : State L K α E) : State L K α E :=
  if s.outcome.isSome then s else { s with failure := s.failure.or (some e) }

/-- In the middle of the walk nothing else happens. -/
def isWalking (s : State L K α E) : Bool :=
  s.outcome.isNone && 0 < s.next && s.next < plan.sites.length

def step (s : State L K α E) : Action α E → State L K α E
  | .call thrown => plan.call thrown s
  | .resume i thrown => if plan.isWalking s then s else resume i thrown s
  | .settle i result => if plan.isWalking s then s else plan.settle i result s
  | .write i => if plan.isWalking s then s else plan.write i s
  | .drain => if plan.isWalking s then s else plan.drain s
  | .abort e => if plan.isWalking s then s else abort e s
  | .acquireOther => if plan.isWalking s then s else s.acquireOther
  | .releaseOther =>
    if plan.isWalking s || s.others = 0 then s
    else free plan.limit { s with others := s.others - 1 }

end Plan

end TemporalSdk.Visits
