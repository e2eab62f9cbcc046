import TemporalSdk.Machine.Run

/-!
# InstrumentAsyncIterable — spans around an iteration

`instrumentAsyncIterable` of `contrib/interceptors-opentelemetry-v2`: the first request starts a span and the wrapped
iteration, and the span ends with the iteration.  Beside it stands the iteration alone, which answers the same calls.
-/

namespace TemporalSdk.Client
namespace InstrumentAsyncIterable

open Machine

/-- Any value can be thrown. -/
inductive Exception (E : Type) where
  | undefined
  | value (e : E)
deriving DecidableEq

inductive SpanStatusCode where
  | UNSET
  | OK
  | ERROR
deriving DecidableEq

structure Span (E : Type) where
  status : Option (SpanStatusCode × Option String)
  exceptions : List (Exception E)
  -- How often `end` was called.
  ended : ℕ
deriving DecidableEq

structure InstrumentOptions (E : Type) where
  acceptableErrors : Option (Exception E → Bool)
  -- `err instanceof ApplicationFailure && err.category === ApplicationFailureCategory.BENIGN`
  isBenignErr : Exception E → Bool
  -- `err != null && typeof err.message === 'string' ? err.message : String(err)`, which may throw
  message : Exception E → Except (Exception E) String

structure IteratorResult (V : Type) where
  done : Bool
  value : Option V
deriving DecidableEq

/-- What the wrapped iterator has besides `next`. -/
structure AsyncIterator where
  hasReturn : Bool
  hasThrow : Bool
deriving DecidableEq

inductive Method where
  | next
  | return
  | throw
deriving DecidableEq

inductive Outcome (V E : Type) where
  | result (result : IteratorResult V)
  | thrown (err : Exception E)
deriving DecidableEq

/-- A call of the consumer: it awaits the wrapped iterator, or it was answered. -/
inductive Call (V E : Type) where
  | awaiting (method : Method)
  | answered (outcome : Outcome V E)
deriving DecidableEq

/-- `start` is what `fn` and `[Symbol.asyncIterator]` do if they are called. -/
inductive IterationEvent (V E : Type) where
  | next (start : Except (Exception E) AsyncIterator)
  | return
  | throw (err : Exception E) (start : Except (Exception E) AsyncIterator)
  | settle (call : ℕ) (outcome : Outcome V E)

variable {V E : Type}

/-! ## The instrumented iterator -/

/-- The variables of the iterator, the spans that `span` had before, and the calls. -/
structure Instrumented (V E : Type) where
  span : Option (Span E)
  replaced : List (Span E)
  iterator : Option AsyncIterator
  finished : Bool
  calls : List (Call V E)
deriving DecidableEq

namespace Instrumented

def initial : Instrumented V E := ⟨none, [], none, false, []⟩

def started (s : Instrumented V E) : List (Span E) := s.replaced ++ s.span.toList

/-- What is thrown, if the start fails. -/
def ensureStarted (s : Instrumented V E) (start : Except (Exception E) AsyncIterator) :
    Instrumented V E × Option (Exception E) :=
  match s.iterator with
  | some _ => (s, none)
  | none =>
    let s := { s with replaced := s.replaced ++ s.span.toList, span := some ⟨none, [], 0⟩ }
    match start with
    | .ok iterator => ({ s with iterator := some iterator }, none)
    | .error err => (s, some err)

end Instrumented

def Span.setStatus (span : Span E) (code : SpanStatusCode) (message : Option String) : Span E :=
  { span with status := some (code, message) }

def Span.end (span : Span E) : Span E := { span with ended := span.ended + 1 }

namespace InstrumentOptions

variable (o : InstrumentOptions E)

def accepts (err : Exception E) : Bool := o.acceptableErrors.any fun acceptable => acceptable err

def maybeAddErrorToSpan (err : Exception E) (span : Span E) : Except (Exception E) (Span E) :=
  if o.accepts err then .ok (span.setStatus .OK none)
  else
    (o.message err).map fun message =>
      let span := span.setStatus (if o.isBenignErr err then .UNSET else .ERROR) (some message)
      { span with exceptions := span.exceptions ++ [err] }

/-- The state that is left, and what is thrown instead. -/
def finish (s : Instrumented V E) (err : Exception E) : Instrumented V E × Option (Exception E) :=
  match s.span with
  | none => (s, none)
  | some span =>
    if s.finished then (s, none)
    else
      match err with
      | .undefined => ({ s with finished := true, span := some (span.setStatus .OK none).end }, none)
      | .value e =>
        match o.maybeAddErrorToSpan (.value e) span with
        | .ok span => ({ s with finished := true, span := some span.end }, none)
        | .error thrown => ({ s with finished := true }, some thrown)

/-- The `catch` of each method. -/
def caught (s : Instrumented V E) (err : Exception E) : Instrumented V E × Outcome V E :=
  ((o.finish s err).1, .thrown ((o.finish s err).2.getD err))

def callNext (s : Instrumented V E) (start : Except (Exception E) AsyncIterator) : Instrumented V E × Call V E :=
  match s.ensureStarted start with
  | (s, none) => (s, .awaiting .next)
  | (s, some err) => ((o.caught s err).1, .answered (o.caught s err).2)

def callReturn (s : Instrumented V E) : Instrumented V E × Call V E :=
  match s.iterator with
  | none => (s, .answered (.result ⟨true, none⟩))
  | some iterator =>
    if iterator.hasReturn then (s, .awaiting .return)
    else ((o.finish s .undefined).1, .answered (.result ⟨true, none⟩))

def callThrow (s : Instrumented V E) (err : Exception E) (start : Except (Exception E) AsyncIterator) :
    Instrumented V E × Call V E :=
  match s.ensureStarted start with
  | (s, none) =>
    if s.iterator.any AsyncIterator.hasThrow then (s, .awaiting .throw)
    else ((o.caught s err).1, .answered (o.caught s err).2)
  | (s, some err) => ((o.caught s err).1, .answered (o.caught s err).2)

/-- What follows the `await` of a method. -/
def resume (s : Instrumented V E) (method : Method) : Outcome V E → Instrumented V E × Outcome V E
  | .result result =>
    if method = .return ∨ result.done then ((o.finish s .undefined).1, .result result) else (s, .result result)
  | .thrown err => o.caught s err

def step (s : Instrumented V E) : IterationEvent V E → Instrumented V E
  | .next start => { (o.callNext s start).1 with calls := s.calls ++ [(o.callNext s start).2] }
  | .return => { (o.callReturn s).1 with calls := s.calls ++ [(o.callReturn s).2] }
  | .throw err start => { (o.callThrow s err start).1 with calls := s.calls ++ [(o.callThrow s err start).2] }
  | .settle call outcome =>
    match s.calls[call]? with
    | some (.awaiting method) =>
      { (o.resume s method outcome).1 with calls := s.calls.set call (.answered (o.resume s method outcome).2) }
    | _ => s

end InstrumentOptions

/-! ## The iteration alone -/

/-- The end of an iteration: it finished or was returned, or it failed. -/
inductive Ending (E : Type) where
  | finished
  | failed (err : Exception E)
deriving DecidableEq

/-- The iteration that is wrapped, started by the first request: whether a value was ever requested, whether the start
failed, and how the iteration ended first. -/
structure Iteration (V E : Type) where
  iterator : Option AsyncIterator
  pulled : Bool
  failedStart : Bool
  ending : Option (Ending E)
  calls : List (Call V E)
deriving DecidableEq

namespace Iteration

def initial : Iteration V E := ⟨none, false, false, none, []⟩

def finishWith (it : Iteration V E) (ending : Ending E) : Iteration V E :=
  { it with ending := it.ending.or (some ending) }

def record (it : Iteration V E) (call : Call V E) : Iteration V E := { it with calls := it.calls ++ [call] }

/-- A request to an iterator that is there, or is started. -/
def request (it : Iteration V E) (start : Except (Exception E) AsyncIterator)
    (ask : Iteration V E → AsyncIterator → Iteration V E) : Iteration V E :=
  match it.iterator with
  | some iterator => ask it iterator
  | none =>
    match start with
    | .ok iterator => ask { it with iterator := some iterator } iterator
    | .error err => ({ it with failedStart := true }.finishWith (.failed err)).record (.answered (.thrown err))

def endingOf (method : Method) : Outcome V E → Option (Ending E)
  | .result result => if method = .return ∨ result.done then some .finished else none
  | .thrown err => some (.failed err)

def step (it : Iteration V E) : IterationEvent V E → Iteration V E
  | .next start => { it with pulled := true }.request start fun it _ => it.record (.awaiting .next)
  | .return =>
    match it.iterator with
    | none => it.record (.answered (.result ⟨true, none⟩))
    | some iterator =>
      if iterator.hasReturn then it.record (.awaiting .return)
      else (it.finishWith .finished).record (.answered (.result ⟨true, none⟩))
  | .throw err start =>
    it.request start fun it iterator =>
      if iterator.hasThrow then it.record (.awaiting .throw)
      else (it.finishWith (.failed err)).record (.answered (.thrown err))
  | .settle call outcome =>
    match it.calls[call]? with
    | some (.awaiting method) =>
      { it with
        calls := it.calls.set call (.answered outcome)
        ending := it.ending.or (endingOf method outcome) }
    | _ => it

end Iteration

/-! ## What is required of the spans -/

variable (o : InstrumentOptions E)

/-- An end that is not by a benign or an acceptable error. -/
def IsError : Ending E → Prop
  | .finished => False
  | .failed err => o.accepts err = false ∧ o.isBenignErr err = false

/-- An error that the span can be told of. -/
def CanTell (err : Exception E) : Prop :=
  o.accepts err = true ∨ err ≠ .undefined ∧ ∃ message, o.message err = .ok message

/-- At most one span is started, and only for a request; it is ended once, with the iteration; calls are answered as by
the iteration alone; and the status is that of an error exactly if the iteration ended by one. -/
structure Traced (s : Instrumented V E) (it : Iteration V E) : Prop where
  one_span : s.started.length ≤ 1
  pulled : s.started ≠ [] → it.pulled = true
  ended : ∀ span ∈ s.started, span.ended = if it.ending.isSome then 1 else 0
  calls_eq : s.calls = it.calls
  status : ∀ span ∈ s.started, ∀ ending, it.ending = some ending →
    (span.status.map Prod.fst = some .ERROR ↔ IsError o ending)

/-- Both iterators, that get the same calls and answers. -/
def stepBoth (p : Instrumented V E × Iteration V E) (event : IterationEvent V E) :
    Instrumented V E × Iteration V E :=
  (o.step p.1 event, p.2.step event)

/-- No request follows a start that failed, nothing is thrown into an iterator before a value was requested, and the
error that ends the iteration is one that the span can be told of. -/
def Careful (p : Instrumented V E × Iteration V E) : IterationEvent V E → Prop
  | .next start => p.2.failedStart = false ∧ (p.2.iterator = none → ∀ err, start = .error err → CanTell o err)
  | .return => True
  | .throw err _ => p.2.failedStart = false ∧ p.2.pulled = true ∧ (p.2.ending = none →
      (∀ iterator ∈ p.2.iterator, iterator.hasThrow = false → CanTell o err))
  | .settle call outcome => p.2.ending = none →
      ∀ method, p.2.calls[call]? = some (.awaiting method) → ∀ err, outcome = .thrown err → CanTell o err

/-! ## One call -/

/-- What the variables say about the iteration. -/
structure Follows (s : Instrumented V E) (it : Iteration V E) : Prop where
  replaced : s.replaced = []
  iterator_eq : s.iterator = it.iterator
  calls_eq : s.calls = it.calls
  awaiting : ∀ method, Call.awaiting method ∈ it.calls → it.iterator.isSome = true
  span_iff : s.span.isSome = true ↔ it.iterator.isSome = true ∨ it.failedStart = true
  pulled_iff : it.pulled = true ↔ it.iterator.isSome = true ∨ it.failedStart = true
  finished_eq : s.finished = it.ending.isSome
  ending_span : it.ending.isSome = true → s.span.isSome = true
  ended : ∀ span ∈ s.span, span.ended = if it.ending.isSome then 1 else 0
  status : ∀ span ∈ s.span, ∀ ending, it.ending = some ending →
    (span.status.map Prod.fst = some .ERROR ↔ IsError o ending)

variable {o} {s : Instrumented V E} {it : Iteration V E}

theorem Follows.traced (h : Follows o s it) : Traced o s it := by
  have hstarted : s.started = s.span.toList := by rw [Instrumented.started, h.replaced, List.nil_append]
  refine ⟨?_, fun hne => ?_, ?_, h.calls_eq, ?_⟩
  · rw [hstarted]
    exact Option.length_toList_le
  · apply h.pulled_iff.mpr
    apply h.span_iff.mp
    cases hspan : s.span with
    | none =>
      rw [hstarted, hspan] at hne
      exact absurd rfl hne
    | some span => rfl
  · rw [hstarted]
    exact fun span hspan => h.ended span (Option.mem_toList.mp hspan)
  · rw [hstarted]
    exact fun span hspan => h.status span (Option.mem_toList.mp hspan)

/-- What `finish` is called with at an end of the iteration. -/
inductive Tells (o : InstrumentOptions E) : Exception E → Ending E → Prop where
  | finished : Tells o .undefined .finished
  | failed {err : Exception E} (h : CanTell o err) : Tells o err (.failed err)

variable {err : Exception E}

theorem maybeAddErrorToSpan_spec (h : CanTell o err) (span : Span E) :
    ∃ span', o.maybeAddErrorToSpan err span = .ok span' ∧ span'.ended = span.ended ∧
      (span'.status.map Prod.fst = some .ERROR ↔ IsError o (.failed err)) := by
  unfold InstrumentOptions.maybeAddErrorToSpan
  split
  · next haccepts =>
      refine ⟨_, rfl, rfl, ?_⟩
      simp [Span.setStatus, IsError, haccepts]
  · next hrefuses =>
      rcases h with haccepts | ⟨_, message, hmessage⟩
      · exact absurd haccepts hrefuses
      · rw [hmessage]
        refine ⟨_, rfl, rfl, ?_⟩
        rw [Bool.not_eq_true] at hrefuses
        cases hbenign : o.isBenignErr err with
        | true | false => simp [Span.setStatus, IsError, hrefuses, hbenign]

theorem Follows.finish (h : Follows o s it) (hspan : s.span.isSome = true) {ending : Ending E}
    (htells : it.ending = none → Tells o err ending) :
    Follows o (o.finish s err).1 (it.finishWith ending) ∧ (o.finish s err).2 = none := by
  rcases Option.isSome_iff_exists.mp hspan with ⟨span, hsome⟩
  unfold InstrumentOptions.finish
  simp only [hsome]
  cases hending : it.ending with
  | some first =>
    have hfinished : s.finished = true := by rw [h.finished_eq, hending]; rfl
    have hsame : it.finishWith ending = it := by rw [Iteration.finishWith, hending, Option.some_or, ← hending]
    rw [if_pos hfinished, hsame]
    exact ⟨h, rfl⟩
  | none =>
    have hfinished : s.finished = false := by rw [h.finished_eq, hending]; rfl
    have hended : span.ended = 0 := by
      have := h.ended span hsome
      rwa [hending] at this
    -- A span that is ended now, with the status of the end.
    have hkept : ∀ span' : Span E, span'.ended = span.ended →
        (span'.status.map Prod.fst = some .ERROR ↔ IsError o ending) →
        Follows o { s with finished := true, span := some span'.end } (it.finishWith ending) := by
      intro span' hcount hstatus
      have hfirst : (it.finishWith ending).ending = some ending := by
        rw [Iteration.finishWith, hending, Option.none_or]
      refine ⟨h.replaced, h.iterator_eq, h.calls_eq, h.awaiting, ?_, h.pulled_iff, ?_, fun _ => rfl, ?_, ?_⟩
      · exact iff_of_true rfl (h.span_iff.mp hspan)
      · rw [hfirst]
        rfl
      · rintro _ ⟨⟩
        rw [hfirst, Span.end, hcount, hended]
        rfl
      · rintro _ ⟨⟩ _ hsome'
        rw [hfirst, Option.some.injEq] at hsome'
        rw [← hsome']
        exact hstatus
    rw [hfinished, if_neg Bool.false_ne_true]
    cases htells hending with
    | finished =>
      refine ⟨hkept (span.setStatus .OK none) rfl ?_, rfl⟩
      simp [Span.setStatus, IsError]
    | failed hcan =>
      cases err with
      | undefined =>
        refine ⟨hkept (span.setStatus .OK none) rfl ?_, rfl⟩
        rcases hcan with haccepts | ⟨hne, _⟩
        · simp [Span.setStatus, IsError, haccepts]
        · exact absurd rfl hne
      | value e =>
        rcases maybeAddErrorToSpan_spec hcan span with ⟨span', hadd, hcount, hstatus⟩
        simp only [hadd]
        exact ⟨hkept span' hcount hstatus, trivial⟩

theorem Follows.withCalls (h : Follows o s it) {calls : List (Call V E)}
    (hawaiting : ∀ method, Call.awaiting method ∈ calls → it.iterator.isSome = true) :
    Follows o { s with calls := calls } { it with calls := calls } :=
  { h with calls_eq := rfl, awaiting := hawaiting }

theorem Follows.record {s' : Instrumented V E} {it' : Iteration V E} (h : Follows o s' it') (hcalls : s.calls = s'.calls)
    {call : Call V E} (hcall : ∀ method, call = .awaiting method → it'.iterator.isSome = true) :
    Follows o { s' with calls := s.calls ++ [call] } (it'.record call) := by
  rw [hcalls, h.calls_eq]
  refine h.withCalls fun method hmem => ?_
  rcases List.mem_append.mp hmem with hmem | hmem
  · exact h.awaiting method hmem
  · exact hcall method (List.mem_singleton.mp hmem).symm

theorem Follows.calls_finish (h : Follows o s it) (hspan : s.span.isSome = true) {ending : Ending E}
    (htells : it.ending = none → Tells o err ending) : s.calls = (o.finish s err).1.calls :=
  h.calls_eq.trans (h.finish hspan htells).1.calls_eq.symm

theorem Follows.caught (h : Follows o s it) (hspan : s.span.isSome = true)
    (hcan : it.ending = none → CanTell o err) :
    Follows o { (o.caught s err).1 with calls := s.calls ++ [.answered (o.caught s err).2] }
      ((it.finishWith (.failed err)).record (.answered (.thrown err))) := by
  have htells : it.ending = none → Tells o err (.failed err) := fun hnone => Tells.failed (hcan hnone)
  rcases h.finish hspan htells with ⟨hfollows, hthrown⟩
  have houtcome : (o.caught s err).2 = .thrown err := by
    rw [InstrumentOptions.caught, hthrown]
    rfl
  rw [houtcome]
  exact hfollows.record (h.calls_finish hspan htells) nofun

theorem Follows.fresh (h : Follows o s it) (hnone : it.iterator = none) (hstart : it.failedStart = false) :
    s.span = none ∧ it.ending = none := by
  have hspan : s.span = none := by
    rw [← Option.not_isSome_iff_eq_none, h.span_iff, hnone, hstart]
    simp
  refine ⟨hspan, ?_⟩
  rw [← Option.not_isSome_iff_eq_none]
  intro hending
  have := h.ending_span hending
  rw [hspan] at this
  exact Bool.false_ne_true this

theorem Follows.start (h : Follows o s it) (hnone : it.iterator = none) (hstart : it.failedStart = false)
    {iterator : Option AsyncIterator} {failedStart : Bool} (hone : iterator.isSome = true ∨ failedStart = true) :
    Follows o { s with replaced := s.replaced ++ s.span.toList, span := some ⟨none, [], 0⟩, iterator := iterator }
      { it with pulled := true, iterator := iterator, failedStart := failedStart } := by
  rcases h.fresh hnone hstart with ⟨hspan, hending⟩
  refine ⟨?_, rfl, h.calls_eq, fun method hmem => ?_, iff_of_true rfl hone, iff_of_true rfl hone, h.finished_eq,
    fun _ => rfl, ?_, ?_⟩
  · rw [h.replaced, hspan]
    rfl
  · have hsome := h.awaiting method hmem
    rw [hnone] at hsome
    exact absurd hsome Bool.false_ne_true
  · rintro _ ⟨⟩
    rw [hending]
    rfl
  · rintro _ ⟨⟩ ending hsome
    rw [hending] at hsome
    exact nomatch hsome

theorem ensureStarted_of_started {iterator : AsyncIterator} (h : s.iterator = some iterator)
    (start : Except (Exception E) AsyncIterator) : s.ensureStarted start = (s, none) := by
  rw [Instrumented.ensureStarted, h]

theorem ensureStarted_ok (h : s.iterator = none) (iterator : AsyncIterator) :
    s.ensureStarted (.ok iterator) =
      ({ s with replaced := s.replaced ++ s.span.toList, span := some ⟨none, [], 0⟩, iterator := some iterator },
        none) := by
  rw [Instrumented.ensureStarted, h]

theorem ensureStarted_error (h : s.iterator = none) (err : Exception E) :
    s.ensureStarted (.error err) =
      ({ s with replaced := s.replaced ++ s.span.toList, span := some ⟨none, [], 0⟩, iterator := none }, some err) := by
  rw [Instrumented.ensureStarted, h]

theorem Follows.startFails (h : Follows o s it) (hnone : it.iterator = none) (hstart : it.failedStart = false)
    (hcan : CanTell o err) {s' : Instrumented V E}
    (hs : s' = { s with replaced := s.replaced ++ s.span.toList, span := some ⟨none, [], 0⟩, iterator := none }) :
    Follows o { (o.caught s' err).1 with calls := s.calls ++ [.answered (o.caught s' err).2] }
      (({ it with pulled := true, failedStart := true }.finishWith (.failed err)).record (.answered (.thrown err))) := by
  have hstarted : Follows o _ { it with pulled := true, iterator := none, failedStart := true } :=
    h.start hnone hstart (Or.inr rfl)
  rw [← hs] at hstarted
  have hspan : s'.span.isSome = true := by rw [hs]; rfl
  have hcaught := hstarted.caught hspan fun _ => hcan
  have hcalls : s'.calls = s.calls := by rw [hs]
  rw [hcalls, ← hnone] at hcaught
  exact hcaught

theorem Follows.callNext (h : Follows o s it) (start : Except (Exception E) AsyncIterator)
    (hcareful : Careful o (s, it) (.next start)) : Follows o (o.step s (.next start)) (it.step (.next start)) := by
  rcases hcareful with ⟨hstart, hcan⟩
  cases hiterator : it.iterator with
  | some iterator =>
    have hcall : o.callNext s start = (s, .awaiting .next) := by
      rw [InstrumentOptions.callNext, ensureStarted_of_started (h.iterator_eq.trans hiterator)]
    have hpulled : { it with pulled := true } = it := by
      rw [← h.pulled_iff.mpr (Or.inl (by rw [hiterator]; rfl))]
    have hstep : it.step (.next start) = it.record (.awaiting .next) := by
      rw [Iteration.step, hpulled]
      simp only [Iteration.request, hiterator]
    rw [InstrumentOptions.step, hcall, hstep]
    exact h.record rfl fun _ _ => by rw [hiterator]; rfl
  | none =>
    have hnone := h.iterator_eq.trans hiterator
    cases start with
    | ok iterator =>
      have hstarted : Follows o _ { it with pulled := true, iterator := some iterator, failedStart := false } :=
        h.start hiterator hstart (Or.inl rfl)
      have hstep : it.step (.next (.ok iterator)) =
          ({ it with pulled := true, iterator := some iterator, failedStart := false } : Iteration V E).record
            (.awaiting .next) := by
        rw [Iteration.step, Iteration.request, hiterator, ← hstart]
      rw [hstep, InstrumentOptions.step, InstrumentOptions.callNext, ensureStarted_ok hnone]
      exact hstarted.record rfl fun _ _ => rfl
    | error err =>
      have hstep : it.step (.next (.error err)) =
          (({ it with pulled := true, failedStart := true } : Iteration V E).finishWith (.failed err)).record
            (.answered (.thrown err)) := by
        rw [Iteration.step, Iteration.request, hiterator]
      rw [hstep, InstrumentOptions.step, InstrumentOptions.callNext, ensureStarted_error hnone]
      exact h.startFails hiterator hstart (hcan hiterator err rfl) rfl

theorem Follows.callReturn (h : Follows o s it) : Follows o (o.step s .return) (it.step .return) := by
  cases hiterator : it.iterator with
  | none =>
    have hcall : o.callReturn s = (s, .answered (.result ⟨true, none⟩)) := by
      rw [InstrumentOptions.callReturn, h.iterator_eq, hiterator]
    have hstep : it.step .return = it.record (.answered (.result ⟨true, none⟩)) := by
      simp only [Iteration.step, hiterator]
    rw [InstrumentOptions.step, hcall, hstep]
    exact h.record rfl nofun
  | some iterator =>
    cases hreturn : iterator.hasReturn with
    | true =>
      have hcall : o.callReturn s = (s, .awaiting .return) := by
        rw [InstrumentOptions.callReturn, h.iterator_eq, hiterator]
        exact if_pos hreturn
      have hstep : it.step .return = it.record (.awaiting .return) := by
        simp only [Iteration.step, hiterator, hreturn, if_true]
      rw [InstrumentOptions.step, hcall, hstep]
      exact h.record rfl fun _ _ => by rw [hiterator]; rfl
    | false =>
      have hcall : o.callReturn s = ((o.finish s .undefined).1, .answered (.result ⟨true, none⟩)) := by
        rw [InstrumentOptions.callReturn, h.iterator_eq, hiterator]
        exact if_neg (by rw [hreturn]; exact Bool.false_ne_true)
      have hstep : it.step .return = (it.finishWith .finished).record (.answered (.result ⟨true, none⟩)) := by
        simp only [Iteration.step, hiterator, hreturn, Bool.false_eq_true, if_false]
      have hspan := h.span_iff.mpr (Or.inl (by rw [hiterator]; rfl))
      have htells : it.ending = none → Tells o .undefined .finished := fun _ => Tells.finished
      rw [InstrumentOptions.step, hcall, hstep]
      exact (h.finish hspan htells).1.record (h.calls_finish hspan htells) nofun

/-- After a request the iteration was started, or its start failed. -/
theorem Follows.callThrow (h : Follows o s it) (err : Exception E) (start : Except (Exception E) AsyncIterator)
    (hcareful : Careful o (s, it) (.throw err start)) :
    Follows o (o.step s (.throw err start)) (it.step (.throw err start)) := by
  rcases hcareful with ⟨hstart, hpulled, hcan⟩
  obtain ⟨iterator, hiterator⟩ : ∃ iterator, it.iterator = some iterator := by
    rcases h.pulled_iff.mp hpulled with hsome | hfailed
    · exact Option.isSome_iff_exists.mp hsome
    · rw [hstart] at hfailed
      exact absurd hfailed Bool.false_ne_true
  have hspan := h.span_iff.mpr (Or.inl (by rw [hiterator]; rfl))
  cases hthrow : iterator.hasThrow with
  | true =>
    have hcall : o.callThrow s err start = (s, .awaiting .throw) := by
      rw [InstrumentOptions.callThrow, ensureStarted_of_started (h.iterator_eq.trans hiterator)]
      simp only [h.iterator_eq, hiterator, Option.any_some, hthrow, if_true]
    have hstep : it.step (.throw err start) = it.record (.awaiting .throw) := by
      simp only [Iteration.step, Iteration.request, hiterator, hthrow, if_true]
    rw [InstrumentOptions.step, hcall, hstep]
    exact h.record rfl fun _ _ => by rw [hiterator]; rfl
  | false =>
    have hcall : o.callThrow s err start = ((o.caught s err).1, .answered (o.caught s err).2) := by
      rw [InstrumentOptions.callThrow, ensureStarted_of_started (h.iterator_eq.trans hiterator)]
      simp only [h.iterator_eq, hiterator, Option.any_some, hthrow, Bool.false_eq_true, if_false]
    have hstep : it.step (.throw err start) =
        (it.finishWith (.failed err)).record (.answered (.thrown err)) := by
      simp only [Iteration.step, Iteration.request, hiterator, hthrow, Bool.false_eq_true, if_false]
    rw [InstrumentOptions.step, hcall, hstep]
    exact h.caught hspan fun hnone => hcan hnone iterator hiterator hthrow

theorem Follows.resume (h : Follows o s it) (hspan : s.span.isSome = true) (method : Method) (outcome : Outcome V E)
    (hcan : it.ending = none → ∀ err, outcome = .thrown err → CanTell o err) :
    Follows o (o.resume s method outcome).1 { it with ending := it.ending.or (Iteration.endingOf method outcome) } ∧
      (o.resume s method outcome).2 = outcome := by
  cases outcome with
  | result result =>
    by_cases hdone : method = .return ∨ result.done = true
    · rw [InstrumentOptions.resume, Iteration.endingOf, if_pos hdone, if_pos hdone]
      exact ⟨(h.finish hspan fun _ => Tells.finished).1, rfl⟩
    · rw [InstrumentOptions.resume, Iteration.endingOf, if_neg hdone, if_neg hdone, Option.or_none]
      exact ⟨h, rfl⟩
  | thrown err =>
    rcases h.finish hspan fun hnone => Tells.failed (hcan hnone err rfl) with ⟨hfollows, hthrown⟩
    refine ⟨hfollows, ?_⟩
    rw [InstrumentOptions.resume, InstrumentOptions.caught, hthrown]
    rfl

theorem Follows.settle (h : Follows o s it) (call : ℕ) (outcome : Outcome V E)
    (hcareful : Careful o (s, it) (.settle call outcome)) :
    Follows o (o.step s (.settle call outcome)) (it.step (.settle call outcome)) := by
  cases hcall : it.calls[call]? with
  | none =>
    simp only [InstrumentOptions.step, Iteration.step, h.calls_eq, hcall]
    exact h
  | some state =>
    cases state with
    | answered outcome' =>
      simp only [InstrumentOptions.step, Iteration.step, h.calls_eq, hcall]
      exact h
    | awaiting method =>
      have hstarted := h.awaiting method (List.mem_of_getElem? hcall)
      have hspan := h.span_iff.mpr (Or.inl hstarted)
      rcases h.resume hspan method outcome fun hnone => hcareful hnone method hcall with ⟨hresumed, hanswer⟩
      simp only [InstrumentOptions.step, Iteration.step, h.calls_eq, hcall, hanswer]
      refine hresumed.withCalls fun method' hmem => ?_
      rcases List.mem_or_eq_of_mem_set hmem with hmem | hnew
      · exact h.awaiting method' hmem
      · exact nomatch hnew

theorem Follows.stepBoth {p : Instrumented V E × Iteration V E} {event : IterationEvent V E}
    (hcareful : Careful o p event) (h : Follows o p.1 p.2) :
    Follows o (InstrumentAsyncIterable.stepBoth o p event).1 (InstrumentAsyncIterable.stepBoth o p event).2 := by
  cases event with
  | next start => exact h.callNext start hcareful
  | «return» => exact h.callReturn
  | throw err start => exact h.callThrow err start hcareful
  | settle call outcome => exact h.settle call outcome hcareful

theorem follows_initial : Follows o (Instrumented.initial : Instrumented V E) Iteration.initial := by
  refine ⟨rfl, rfl, rfl, nofun, ?_, ?_, rfl, nofun, nofun, nofun⟩
  · simp [Instrumented.initial, Iteration.initial]
  · simp [Iteration.initial]

/-- In a run in which all steps are careful, the span tells of the iteration in every state. -/
theorem careful_run_traced (o : InstrumentOptions E) (events : List (IterationEvent V E))
    (h : Guarded (stepBoth o) (Careful o) (Instrumented.initial, Iteration.initial) events) :
    Throughout (stepBoth o) (fun p => Traced o p.1 p.2) (Instrumented.initial, Iteration.initial) events := by
  have hstep : ∀ (p : Instrumented V E × Iteration V E) (event : IterationEvent V E), Careful o p event →
      Follows o p.1 p.2 → Follows o (stepBoth o p event).1 (stepBoth o p event).2 :=
    fun _ _ hcareful hfollows => hfollows.stepBoth hcareful
  exact throughout_of_invariant hstep (fun _ hfollows => Follows.traced hfollows) follows_initial h

/-- Errors are told of by one message, and none of them is benign. -/
def plainOptions : InstrumentOptions Unit where
  acceptableErrors := none
  isBenignErr := fun _ => false
  message := fun _ => .ok "failed"

/-- After a start that failed, the next request starts a second span, which is never ended. -/
theorem second_span_not_ended :
    let p := run (stepBoth plainOptions) ((Instrumented.initial : Instrumented Unit Unit), Iteration.initial)
      [.next (.error (.value ())), .next (.ok ⟨true, true⟩), .settle 1 (.result ⟨true, none⟩)]
    p.1.started.map Span.ended = [1, 0] ∧ p.1.calls = p.2.calls ∧
      p.1.calls = [.answered (.thrown (.value ())), .answered (.result ⟨true, none⟩)] := by
  decide

theorem careful_run_traced_returned :
    Throughout (stepBoth plainOptions) (fun p => Traced plainOptions p.1 p.2)
      ((Instrumented.initial : Instrumented Unit Unit), Iteration.initial)
      [.next (.ok ⟨true, true⟩), .settle 0 (.result ⟨false, some ()⟩), .return, .settle 1 (.result ⟨true, none⟩)] := by
  apply careful_run_traced
  exact ⟨⟨rfl, fun _ _ h => (nomatch h)⟩, fun _ _ _ _ h => (nomatch h), trivial, fun _ _ _ _ h => (nomatch h), trivial⟩

end InstrumentAsyncIterable
end TemporalSdk.Client
