import TemporalSdk.Machine.Run
import Mathlib.Algebra.Order.Floor.Ring
import Mathlib.Data.List.Nodup
import Mathlib.Data.Rat.Floor
import Mathlib.Tactic.Linarith

/-!
# Limit — functions that wait for permits

`limit` and `Semaphore` of `packages/common/src/concurrency`.  Calls are numbered in the order of their submission.
The continuation of a call that found a permit is due at once.  That of a call which had to wait comes behind the
reactions of two more promises, and how many continuations come before it then is left open.
-/

namespace TemporalSdk.Concurrency

open Machine

/-- The state of a call of the limited function. -/
inductive Status (V E : Type) where
  | waiting
  /-- has a permit, and the function is not called yet -/
  | granted
  | running
  /-- the promise of the function has settled -/
  | returned (outcome : Except E V)
  /-- the promise of the caller has settled -/
  | settled (outcome : Except E V)
  deriving DecidableEq

namespace Status

variable {V E : Type}

def holdsPermit : Status V E → Bool
  | granted => true
  | running => true
  | returned _ => true
  | _ => false

def isRunning : Status V E → Bool
  | running => true
  | _ => false

/-- The function was called. -/
def hasStarted : Status V E → Bool
  | waiting => false
  | granted => false
  | _ => true

end Status

/-- `handed` has the calls that were handed a permit and whose continuation is not due yet.  `ready` has the
continuations that are due, and whether the call had to wait.  The last three fields are logs: of the permits given, of
the functions called and of what became of them. -/
structure State (V E : Type) where
  permits : ℚ
  waiters : List ℕ
  handed : List ℕ
  ready : List (ℕ × Bool)
  calls : List (Status V E)
  granted : List ℕ
  started : List (ℕ × Bool)
  outcomes : List (ℕ × Except E V)

inductive Action (V E : Type) where
  /-- the limited function is called -/
  | submit
  /-- the continuation of a call that was handed a permit becomes due -/
  | deliver
  /-- the next continuation calls its function -/
  | start
  /-- the function has thrown before it gave a promise -/
  | throwNow (i : ℕ) (e : E)
  | settle (i : ℕ) (outcome : Except E V)
  /-- the continuation behind the promise of the function -/
  | finish (i : ℕ)

variable {V E : Type}

namespace State

def create (concurrency : ℚ) : State V E := ⟨max 1 concurrency, [], [], [], [], [], [], []⟩

def setStatus (i : ℕ) (status : Status V E) (s : State V E) : State V E := { s with calls := s.calls.set i status }

/-- `acquire`, for a new call. -/
def acquire (s : State V E) : State V E :=
  let i := s.calls.length
  if s.permits > 0 then
    { s with
      permits := s.permits - 1
      ready := s.ready ++ [(i, false)]
      calls := s.calls ++ [.granted]
      granted := s.granted ++ [i] }
  else { s with waiters := s.waiters ++ [i], calls := s.calls ++ [.waiting] }

def release (s : State V E) : State V E :=
  match s.waiters with
  | waiter :: waiters =>
    { s.setStatus waiter .granted with
      waiters := waiters
      handed := s.handed ++ [waiter]
      granted := s.granted ++ [waiter] }
  | [] => { s with permits := s.permits + 1 }

/-- What the function of the call `i` comes to. -/
def record (i : ℕ) (outcome : Except E V) (s : State V E) : State V E :=
  { s with outcomes := s.outcomes ++ [(i, outcome)] }

/-- An action that is not possible changes nothing. -/
def step (s : State V E) : Action V E → State V E
  | .submit => s.acquire
  | .deliver =>
    match s.handed with
    | i :: handed => { s with handed := handed, ready := s.ready ++ [(i, true)] }
    | [] => s
  | .start =>
    match s.ready with
    | (i, waited) :: ready =>
      { s.setStatus i .running with ready := ready, started := s.started ++ [(i, waited)] }
    | [] => s
  | .throwNow i e =>
    match s.calls[i]? with
    | some .running => ((s.setStatus i (.settled (.error e))).record i (.error e)).release
    | _ => s
  | .settle i outcome =>
    match s.calls[i]? with
    | some .running => (s.setStatus i (.returned outcome)).record i outcome
    | _ => s
  | .finish i =>
    match s.calls[i]? with
    | some (.returned outcome) => (s.setStatus i (.settled outcome)).release
    | _ => s

def held (s : State V E) : ℕ := s.calls.countP Status.holdsPermit

def running (s : State V E) : ℕ := s.calls.countP Status.isRunning

/-- The order in which functions are called: those that were, those that are due, and those that will be due. -/
def turns (s : State V E) : List (ℕ × Bool) := s.started ++ s.ready ++ (s.handed ++ s.waiters).map (·, true)

end State

/-- A later call comes first only if it found a permit and the other one had to wait. -/
def MayPrecede (a b : ℕ × Bool) : Prop := a.1 ≠ b.1 ∧ (a.1 < b.1 ∨ a.2 = false ∧ b.2 = true)

/-- The lists of the state that a call with the status `st` is in. -/
structure Placed (s : State V E) (i : ℕ) (st : Option (Status V E)) : Prop where
  waiting : i ∈ s.waiters ↔ st = some .waiting
  pending : i ∈ s.ready.map Prod.fst ++ s.handed ↔ st = some .granted
  started : i ∈ s.started.map Prod.fst ↔ st.any Status.hasStarted = true
  ended : ∀ o, (i, o) ∈ s.outcomes ↔ st = some (.returned o) ∨ st = some (.settled o)

/-- `inHand` counts the permits that a call has given up and that are not yet passed on. -/
structure Kept (concurrency : ℚ) (inHand : ℕ) (s : State V E) : Prop where
  permits : s.permits + s.held + inHand = max 1 concurrency
  above : -1 < s.permits
  free : s.waiters ≠ [] → s.permits ≤ 0
  granted : s.granted ++ s.waiters = List.range s.calls.length
  placed : ∀ i, Placed s i s.calls[i]?
  order : s.turns.Pairwise MayPrecede
  outcomes : (s.outcomes.map Prod.fst).Nodup

section Lists

variable {α : Type} {R : α → α → Prop} {as bs : List α} {a : α}

theorem pairwise_insert (h : (as ++ bs).Pairwise R) (has : ∀ x ∈ as, R x a) (hbs : ∀ x ∈ bs, R a x) :
    (as ++ a :: bs).Pairwise R := by
  rcases List.pairwise_append.mp h with ⟨has', hbs', hcross⟩
  refine List.pairwise_append.mpr ⟨has', List.pairwise_cons.mpr ⟨hbs, hbs'⟩, fun x hx y hy => ?_⟩
  rcases List.mem_cons.mp hy with rfl | hy
  · exact has x hx
  · exact hcross x hx y hy

theorem getElem?_concat (i : ℕ) : (as ++ [a])[i]? = if as.length = i then some a else as[i]? := by
  rcases lt_trichotomy i as.length with hi | hi | hi
  · rw [List.getElem?_append_left hi, if_neg hi.ne']
  · simp [hi]
  · rw [if_neg hi.ne, List.getElem?_eq_none hi.le, List.getElem?_eq_none]
    rw [List.length_append]
    exact hi

theorem getElem?_set_of_some {x : α} {i : ℕ} (hx : as[i]? = some x) (j : ℕ) :
    (as.set i a)[j]? = if i = j then some a else as[j]? := by
  rw [List.getElem?_set]
  split
  · next heq => rw [if_pos (heq ▸ (List.getElem?_eq_some_iff.mp hx).1)]
  · rfl

end Lists

theorem Placed.congr {s s' : State V E} {i : ℕ} {st : Option (Status V E)} (h : Placed s i st)
    (hwaiting : i ∈ s'.waiters ↔ i ∈ s.waiters)
    (hpending : i ∈ s'.ready.map Prod.fst ++ s'.handed ↔ i ∈ s.ready.map Prod.fst ++ s.handed)
    (hstarted : i ∈ s'.started.map Prod.fst ↔ i ∈ s.started.map Prod.fst)
    (hended : ∀ o, (i, o) ∈ s'.outcomes ↔ (i, o) ∈ s.outcomes) : Placed s' i st :=
  ⟨hwaiting.trans h.waiting, hpending.trans h.pending, hstarted.trans h.started,
    fun o => (hended o).trans (h.ended o)⟩

namespace Kept

variable {concurrency : ℚ} {inHand : ℕ} {s : State V E} {i : ℕ}

theorem create (concurrency : ℚ) : Kept concurrency 0 (State.create concurrency : State V E) where
  permits := by simp [State.create, State.held]
  above := lt_of_lt_of_le (by norm_num) (le_max_left 1 concurrency)
  free := fun h => absurd rfl h
  granted := rfl
  placed i := by constructor <;> simp [State.create]
  order := List.Pairwise.nil
  outcomes := List.nodup_nil

theorem lt_length (h : Kept concurrency inHand s) {t : ℕ × Bool} (ht : t ∈ s.turns) : t.1 < s.calls.length := by
  have hplaced := h.placed t.1
  by_contra hge
  rw [List.getElem?_eq_none (Nat.not_lt.mp hge)] at hplaced
  rcases List.mem_append.mp ht with ht | ht
  · rcases List.mem_append.mp ht with ht | ht
    · exact absurd (hplaced.started.mp (List.mem_map_of_mem ht)) (by simp)
    · exact absurd (hplaced.pending.mp (List.mem_append_left _ (List.mem_map_of_mem ht))) nofun
  · rcases List.mem_map.mp ht with ⟨j, hj, rfl⟩
    rcases List.mem_append.mp hj with hj | hj
    · exact absurd (hplaced.pending.mp (List.mem_append_right _ hj)) nofun
    · exact absurd (hplaced.waiting.mp hj) nofun

theorem held_setStatus {st st' : Status V E} (hst : s.calls[i]? = some st) :
    (s.setStatus i st').held + (if st.holdsPermit then 1 else 0) = s.held + (if st'.holdsPermit then 1 else 0) := by
  rcases List.getElem?_eq_some_iff.mp hst with ⟨hlt, hget⟩
  have hpos : st.holdsPermit = true → 0 < s.held := fun hholds =>
    List.countP_pos_iff.mpr ⟨st, hget ▸ List.getElem_mem hlt, hholds⟩
  rw [State.held, State.setStatus, List.countP_set hlt, hget]
  unfold State.held at *
  split
  · next hholds =>
      have := hpos hholds
      omega
  · omega

theorem acquire (h : Kept concurrency 0 s) : Kept concurrency 0 s.acquire := by
  have hnew := h.placed s.calls.length
  rw [List.getElem?_eq_none le_rfl] at hnew
  have hlater : ∀ t ∈ s.turns, ∀ waited, MayPrecede t (s.calls.length, waited) := fun t ht _ =>
    ⟨(h.lt_length ht).ne, Or.inl (h.lt_length ht)⟩
  unfold State.acquire
  dsimp only
  split
  · next hpermits =>
    have hwaiters : s.waiters = [] := by
      by_contra hne
      exact absurd (h.free hne) (not_le.mpr hpermits)
    have hgranted := h.granted
    rw [hwaiters, List.append_nil] at hgranted
    refine { permits := ?_, above := ?_, free := ?_, granted := ?_, placed := ?_, order := ?_, outcomes := h.outcomes }
    · have hkept := h.permits
      simp only [State.held, List.countP_append, List.countP_singleton, Status.holdsPermit, if_true] at *
      push_cast at *
      linarith
    · change -1 < s.permits - 1
      linarith
    · exact fun hne => absurd hwaiters hne
    · simp [hwaiters, hgranted, List.range_succ]
    · intro j
      rw [getElem?_concat]
      by_cases hj : s.calls.length = j
      · subst hj
        rw [if_pos rfl]
        exact ⟨by simp [hnew.waiting], by simp, by simp [hnew.started, Status.hasStarted], by simp [hnew.ended]⟩
      · rw [if_neg hj]
        exact (h.placed j).congr Iff.rfl (by simp [Ne.symm hj]) Iff.rfl fun _ => Iff.rfl
    · have horder := h.order
      rw [State.turns] at horder ⊢
      rw [← List.append_assoc s.started, List.append_assoc (s.started ++ s.ready)]
      refine pairwise_insert horder (fun t ht => hlater t (List.mem_append_left _ ht) _) fun t ht => ?_
      refine ⟨(h.lt_length (List.mem_append_right _ ht)).ne', Or.inr ⟨rfl, ?_⟩⟩
      rcases List.mem_map.mp ht with ⟨j, -, rfl⟩
      rfl
  · next hpermits =>
    refine
      { permits := ?_, above := h.above, free := ?_, granted := ?_, placed := ?_, order := ?_, outcomes := h.outcomes }
    · have hkept := h.permits
      simpa [State.held, List.countP_append, Status.holdsPermit] using hkept
    · exact fun _ => not_lt.mp hpermits
    · simp [← List.append_assoc, h.granted, List.range_succ]
    · intro j
      rw [getElem?_concat]
      by_cases hj : s.calls.length = j
      · subst hj
        rw [if_pos rfl]
        exact ⟨by simp, by simp [hnew.pending], by simp [hnew.started, Status.hasStarted], by simp [hnew.ended]⟩
      · rw [if_neg hj]
        exact (h.placed j).congr (by simp [Ne.symm hj]) Iff.rfl Iff.rfl fun _ => Iff.rfl
    · have hturns : s.turns ++ [(s.calls.length, true)] = s.started ++ s.ready ++
          (s.handed ++ (s.waiters ++ [s.calls.length])).map (·, true) := by
        simp [State.turns]
      rw [State.turns, ← hturns]
      refine List.pairwise_append.mpr ⟨h.order, List.pairwise_singleton _ _, fun t ht x hx => ?_⟩
      rw [List.mem_singleton.mp hx]
      exact hlater t ht _

/-- The first waiter gets the permit that a call has given up. -/
theorem release (h : Kept concurrency 1 s) : Kept concurrency 0 s.release := by
  unfold State.release
  split
  · next waiter waiters hwaiters =>
    have hst : s.calls[waiter]? = some .waiting := (h.placed waiter).waiting.mp (hwaiters ▸ List.mem_cons_self)
    have hwaiter := hst ▸ h.placed waiter
    have hnodup : (waiter :: waiters).Nodup := by
      have hgranted : (s.granted ++ s.waiters).Nodup := h.granted ▸ List.nodup_range
      exact hwaiters ▸ (List.nodup_append.mp hgranted).2.1
    refine { permits := ?_, above := h.above, free := ?_, granted := ?_, placed := ?_, order := ?_,
             outcomes := h.outcomes }
    · have hheld : (s.setStatus waiter .granted).held + _ = _ := held_setStatus hst
      have hkept := h.permits
      simp only [Status.holdsPermit, if_true, Bool.false_eq_true, if_false, Nat.add_zero] at hheld
      change s.permits + ((s.setStatus waiter .granted).held : ℕ) + ((0 : ℕ) : ℚ) = _
      rw [hheld]
      push_cast at *
      linarith
    · exact fun _ => h.free (by rw [hwaiters]; exact List.cons_ne_nil _ _)
    · have hgranted := h.granted
      rw [hwaiters] at hgranted
      simpa [State.setStatus] using hgranted
    · intro j
      change Placed _ j (s.calls.set waiter .granted)[j]?
      rw [getElem?_set_of_some hst]
      by_cases hj : waiter = j
      · subst hj
        rw [if_pos rfl]
        refine ⟨?_, by simp, hwaiter.started.trans (by simp [Status.hasStarted]), fun o => ?_⟩
        · exact iff_of_false (List.nodup_cons.mp hnodup).1 nofun
        · exact (hwaiter.ended o).trans (by simp)
      · rw [if_neg hj]
        refine (h.placed j).congr ?_ ?_ Iff.rfl fun _ => Iff.rfl
        · rw [hwaiters, List.mem_cons, or_iff_right (Ne.symm hj)]
        · simp [State.setStatus, Ne.symm hj]
    · have horder := h.order
      rw [State.turns, hwaiters] at horder
      simpa [State.turns, State.setStatus] using horder
  · next hwaiters =>
    refine { h with permits := ?_, above := ?_, free := ?_, placed := fun i => ?_ }
    · have hkept := h.permits
      change s.permits + 1 + (s.held : ℚ) + ((0 : ℕ) : ℚ) = _
      push_cast at *
      linarith
    · have habove := h.above
      change -1 < s.permits + 1
      linarith
    · exact fun hne => absurd hwaiters hne
    · exact (h.placed i).congr Iff.rfl Iff.rfl Iff.rfl fun _ => Iff.rfl

theorem deliver (h : Kept concurrency 0 s) : Kept concurrency 0 (s.step .deliver) := by
  simp only [State.step]
  split
  · next i handed hhanded =>
    refine { h with placed := fun j => ?_, order := ?_ }
    · refine (h.placed j).congr Iff.rfl ?_ Iff.rfl fun _ => Iff.rfl
      simp only [hhanded, List.map_append, List.map_cons, List.map_nil, List.mem_append, List.mem_cons, List.not_mem_nil]
      tauto
    · have horder := h.order
      rw [State.turns, hhanded] at horder
      simpa [State.turns] using horder
  · exact h

theorem start (h : Kept concurrency 0 s) : Kept concurrency 0 (s.step .start) := by
  simp only [State.step]
  split
  · next i waited ready hready =>
    have hst : s.calls[i]? = some .granted := (h.placed i).pending.mp (by simp [hready])
    have hi := hst ▸ h.placed i
    have horder := h.order
    rw [State.turns, hready] at horder
    have hfresh : i ∉ ready.map Prod.fst ++ s.handed := by
      have hafter := (List.pairwise_append.mp (by simpa using horder)).2.1
      have hne := (List.pairwise_cons.mp hafter).1
      intro hmem
      rcases List.mem_append.mp hmem with hmem | hmem
      · rcases List.mem_map.mp hmem with ⟨t, ht, heq⟩
        exact (hne t (List.mem_append_left _ ht)).1 heq.symm
      · exact (hne (i, true) (by simp [hmem])).1 rfl
    refine { h with permits := ?_, granted := ?_, placed := fun j => ?_, order := ?_ }
    · have hheld : (s.setStatus i .running).held + _ = _ := held_setStatus hst
      have hkept := h.permits
      simp only [Status.holdsPermit, if_true, Nat.add_right_cancel_iff] at hheld
      change s.permits + ((s.setStatus i .running).held : ℕ) + ((0 : ℕ) : ℚ) = _
      rw [hheld]
      exact hkept
    · simpa [State.setStatus] using h.granted
    · change Placed _ j (s.calls.set i .running)[j]?
      rw [getElem?_set_of_some hst]
      by_cases hj : i = j
      · subst hj
        rw [if_pos rfl]
        refine ⟨hi.waiting.trans (by simp), iff_of_false hfresh nofun, by simp [Status.hasStarted], fun o => ?_⟩
        exact (hi.ended o).trans (by simp)
      · rw [if_neg hj]
        refine (h.placed j).congr Iff.rfl ?_ ?_ fun _ => Iff.rfl
        · simp [State.setStatus, hready, Ne.symm hj]
        · simp [Ne.symm hj]
    · simpa [State.turns, State.setStatus] using horder
  · exact h

/-- A function that was called goes on, and gives up its permit or not. -/
theorem progress {st st' : Status V E} {outcomes : List (ℕ × Except E V)} (h : Kept concurrency 0 s)
    (hst : s.calls[i]? = some st) (hholds : st.holdsPermit = true) (hstarted : st.hasStarted = true)
    (hstarted' : st'.hasStarted = true) (hnodup : (outcomes.map Prod.fst).Nodup)
    (hown : ∀ o, (i, o) ∈ outcomes ↔ st' = .returned o ∨ st' = .settled o)
    (hothers : ∀ j ≠ i, ∀ o, (j, o) ∈ outcomes ↔ (j, o) ∈ s.outcomes) :
    Kept concurrency (if st'.holdsPermit then 0 else 1) { s.setStatus i st' with outcomes := outcomes } := by
  have hi := hst ▸ h.placed i
  refine { h with permits := ?_, granted := ?_, placed := fun j => ?_, outcomes := hnodup }
  · have hheld : (s.setStatus i st').held + _ = _ := held_setStatus hst
    have hkept := h.permits
    rw [hholds, if_pos rfl] at hheld
    change s.permits + ((s.setStatus i st').held : ℕ) + _ = _
    have hsum : (((s.setStatus i st').held + (if st'.holdsPermit then 0 else 1) : ℕ) : ℚ) = (s.held : ℕ) := by
      congr 1
      cases hnew : st'.holdsPermit with
      | true | false => simpa [hnew] using hheld
    push_cast at *
    linarith
  · simpa [State.setStatus] using h.granted
  · change Placed _ j (s.calls.set i st')[j]?
    rw [getElem?_set_of_some hst]
    by_cases hj : i = j
    · subst hj
      rw [if_pos rfl]
      have hne : ∀ {st₀ : Status V E}, st₀.hasStarted = false → (some st = some st₀ ↔ some st' = some st₀) := by
        intro st₀ hst₀
        refine iff_of_false ?_ ?_
        · rintro ⟨⟩
          rw [hstarted] at hst₀
          cases hst₀
        · rintro ⟨⟩
          rw [hstarted'] at hst₀
          cases hst₀
      refine ⟨hi.waiting.trans (hne rfl), hi.pending.trans (hne rfl), hi.started.trans ?_, fun o => ?_⟩
      · rw [Option.any_some, Option.any_some, hstarted, hstarted']
      · rw [Option.some_inj, Option.some_inj]
        exact hown o
    · rw [if_neg hj]
      exact (h.placed j).congr Iff.rfl Iff.rfl Iff.rfl (hothers j (Ne.symm hj))

theorem recorded {st' : Status V E} {o : Except E V} (h : Kept concurrency 0 s) (hst : s.calls[i]? = some .running)
    (hst' : st' = .returned o ∨ st' = .settled o) :
    Kept concurrency (if st'.holdsPermit then 0 else 1) ((s.setStatus i st').record i o) := by
  have hfresh : ∀ o', (i, o') ∉ s.outcomes := fun o' hmem =>
    absurd (((h.placed i).ended o').mp hmem) (by simp [hst])
  refine h.progress hst rfl rfl ?_ ?_ ?_ ?_
  · rcases hst' with rfl | rfl
    · rfl
    · rfl
  · rw [State.setStatus, List.map_append, List.map_cons, List.map_nil]
    refine List.nodup_append.mpr ⟨h.outcomes, List.nodup_singleton _, fun a ha b hb => ?_⟩
    rw [List.mem_singleton.mp hb]
    rintro rfl
    rcases List.mem_map.mp ha with ⟨⟨j, o'⟩, hmem, rfl⟩
    exact hfresh o' hmem
  · intro o'
    simp only [State.setStatus, List.mem_append, hfresh o', false_or, List.mem_singleton, Prod.mk.injEq, true_and]
    rcases hst' with rfl | rfl
    all_goals simp [eq_comm]
  · intro j hj o'
    simp [State.setStatus, hj]

theorem step (h : Kept concurrency 0 s) (a : Action V E) : Kept concurrency 0 (s.step a) := by
  cases a with
  | submit => exact h.acquire
  | deliver => exact h.deliver
  | start => exact h.start
  | throwNow i e =>
    simp only [State.step]
    split
    · next hst => exact (h.recorded hst (Or.inr rfl)).release
    · exact h
  | settle i outcome =>
    simp only [State.step]
    split
    · next hst => exact h.recorded hst (Or.inl rfl)
    · exact h
  | finish i =>
    simp only [State.step]
    split
    · next outcome hst =>
      have hended : ∀ o, (i, o) ∈ s.outcomes ↔ Status.settled outcome = .returned o ∨
          Status.settled outcome = .settled o := fun o => ((h.placed i).ended o).trans (by simp [hst])
      exact Kept.release
        (h.progress hst rfl rfl (show (Status.settled outcome).hasStarted = true from rfl) h.outcomes hended
          fun _ _ _ => Iff.rfl)
    · exact h

theorem running_le (h : Kept concurrency 0 s) : (s.running : ℤ) ≤ ⌈max 1 concurrency⌉ := by
  have hle : s.running ≤ s.held := by
    refine List.countP_mono_left fun st _ hrunning => ?_
    cases st with
    | running => rfl
    | _ => cases hrunning
  have hkept := h.permits
  have habove := h.above
  have hceil : max 1 concurrency ≤ ⌈max 1 concurrency⌉ := Int.le_ceil _
  have hlt : ((s.held : ℤ) : ℚ) < ((⌈max 1 concurrency⌉ + 1 : ℤ) : ℚ) := by
    push_cast at *
    linarith
  have hheld := Int.lt_add_one_iff.mp (Int.cast_lt.mp hlt)
  omega

theorem granted_eq (h : Kept concurrency 0 s) : s.granted = List.range s.granted.length := by
  have hprefix : s.granted <+: List.range s.calls.length := h.granted ▸ List.prefix_append _ _
  rw [List.prefix_iff_eq_take.mp hprefix, List.take_range, List.length_range]

end Kept

/-! ## Runs -/

/-- No continuation is due, and every function that was called has settled. -/
structure Idle (s : State V E) : Prop where
  ready : s.ready = []
  handed : s.handed = []
  ended : ∀ st ∈ s.calls, st.hasStarted = true → ∃ o, st = .settled o

theorem Kept.settled_of_idle {concurrency : ℚ} {s : State V E} (h : Kept concurrency 0 s) (hidle : Idle s) :
    ∀ st ∈ s.calls, ∃ o, st = Status.settled o := by
  have hgranted : ∀ st ∈ s.calls, st ≠ .granted := by
    rintro st hmem rfl
    rcases List.mem_iff_getElem?.mp hmem with ⟨i, hi⟩
    have hpending := (h.placed i).pending.mpr hi
    rw [hidle.ready, hidle.handed] at hpending
    cases hpending
  have hheld : s.held = 0 := by
    refine List.countP_eq_zero.mpr fun st hmem hholds => ?_
    cases st with
    | waiting | settled => cases hholds
    | granted => exact hgranted _ hmem rfl
    | running | returned => exact absurd (hidle.ended _ hmem rfl) nofun
  -- All permits are free, so nobody waits for one.
  have hwaiters : s.waiters = [] := by
    by_contra hne
    have hkept := h.permits
    have hfree := h.free hne
    have hone := le_max_left 1 concurrency
    rw [hheld] at hkept
    push_cast at hkept
    linarith
  intro st hmem
  cases st with
  | waiting =>
    rcases List.mem_iff_getElem?.mp hmem with ⟨i, hi⟩
    have hwaiting := (h.placed i).waiting.mpr hi
    rw [hwaiters] at hwaiting
    cases hwaiting
  | granted => exact absurd rfl (hgranted _ hmem)
  | running | returned => exact hidle.ended _ hmem rfl
  | settled o => exact ⟨o, rfl⟩

theorem getElem?_step_of_settled {s : State V E} {i : ℕ} {o : Except E V} (hwaiting : i ∉ s.waiters)
    (hpending : i ∉ s.ready.map Prod.fst) (hi : s.calls[i]? = some (.settled o)) (a : Action V E) :
    (s.step a).calls[i]? = some (.settled o) := by
  have hset : ∀ {s : State V E} {j : ℕ} {st : Status V E}, s.calls[i]? = some (.settled o) → j ≠ i →
      (s.setStatus j st).calls[i]? = some (.settled o) := fun hi hj => by
    rw [State.setStatus, List.getElem?_set_ne hj]
    exact hi
  have hrelease : ∀ {s : State V E}, s.calls[i]? = some (.settled o) → i ∉ s.waiters →
      s.release.calls[i]? = some (.settled o) := by
    intro s hi hwaiting
    unfold State.release
    split
    · next waiter waiters hwaiters => exact hset hi fun hw => hwaiting (hw ▸ hwaiters ▸ List.mem_cons_self)
    · exact hi
  have hother : ∀ {j : ℕ} {st : Status V E}, s.calls[j]? = some st → st ≠ .settled o → j ≠ i := by
    rintro j st hj hne rfl
    exact hne (Option.some.inj (hj.symm.trans hi))
  cases a with
  | submit =>
    simp only [State.step, State.acquire]
    split <;> exact (List.getElem?_append_left (List.getElem?_eq_some_iff.mp hi).1).trans hi
  | deliver =>
    simp only [State.step]
    split <;> exact hi
  | start =>
    simp only [State.step]
    split
    · next j waited ready hready =>
      refine hset hi ?_
      rintro rfl
      exact hpending (by simp [hready])
    · exact hi
  | throwNow | finish =>
    simp only [State.step]
    split
    · next hj => exact hrelease (hset hi (hother hj nofun)) hwaiting
    · exact hi
  | settle j outcome =>
    simp only [State.step]
    split
    · next hj => exact hset hi (hother hj nofun)
    · exact hi

/-- What holds after a run of the limited function. -/
structure Limited (concurrency : ℚ) (s : State V E) : Prop where
  running_le : (s.running : ℤ) ≤ ⌈max 1 concurrency⌉
  permits : s.permits + s.held = max 1 concurrency
  /-- Permits are given in the order of submission. -/
  granted : s.granted = List.range s.granted.length
  /-- A call finds a free permit only if no other one waits. -/
  free : 0 < s.permits → s.waiters = []
  /-- A function is called once, and out of turn only before one that was handed its permit. -/
  order : s.started.Pairwise MayPrecede
  once : (s.started.map Prod.fst).Nodup
  outcomes : (s.outcomes.map Prod.fst).Nodup
  settled : ∀ i o, s.calls[i]? = some (.settled o) → (i, o) ∈ s.outcomes ∧ ∀ a, (s.step a).calls[i]? = some (.settled o)
  idle : Idle s → (s.started.map Prod.fst).Perm (List.range s.calls.length) ∧ ∀ st ∈ s.calls, ∃ o, st = Status.settled o

theorem limited_run (concurrency : ℚ) (actions : List (Action V E)) :
    Limited concurrency (run State.step (State.create concurrency) actions) := by
  obtain ⟨s, hs⟩ : ∃ s : State V E, s = run State.step (State.create concurrency) actions := ⟨_, rfl⟩
  rw [← hs]
  have h : Kept concurrency 0 s := by
    have hstep : ∀ (s : State V E) (a : Action V E), True → Kept concurrency 0 s → Kept concurrency 0 (s.step a) :=
      fun _ a _ hkept => hkept.step a
    rw [hs]
    exact run_invariant hstep (Kept.create concurrency) (guarded_of_forall (fun _ _ => trivial) _ _)
  have horder : s.started.Pairwise MayPrecede := by
    have hturns := h.order
    rw [State.turns, List.append_assoc] at hturns
    exact (List.pairwise_append.mp hturns).1
  have honce : (s.started.map Prod.fst).Nodup := List.pairwise_map.mpr (horder.imp fun hmay => hmay.1)
  refine
    { running_le := h.running_le
      permits := by simpa using h.permits
      granted := h.granted_eq
      free := fun hpos => by_contra fun hne => absurd (h.free hne) (not_le.mpr hpos)
      order := horder
      once := honce
      outcomes := h.outcomes
      settled := fun i o hi => ⟨((h.placed i).ended o).mpr (Or.inr hi), ?_⟩
      idle := fun hidle => ⟨?_, h.settled_of_idle hidle⟩ }
  · have hplaced := hi ▸ h.placed i
    refine getElem?_step_of_settled (fun hmem => ?_) (fun hmem => ?_) hi
    · exact absurd (hplaced.waiting.mp hmem) (by simp)
    · exact absurd (hplaced.pending.mp (List.mem_append_left _ hmem)) (by simp)
  · refine (List.perm_ext_iff_of_nodup honce List.nodup_range).mpr fun i => ?_
    rw [(h.placed i).started, List.mem_range]
    constructor
    · intro hstarted
      by_contra hge
      rw [List.getElem?_eq_none (Nat.not_lt.mp hge)] at hstarted
      cases hstarted
    · intro hlt
      rcases h.settled_of_idle hidle _ (List.getElem_mem hlt) with ⟨o, ho⟩
      rw [List.getElem?_eq_getElem hlt, ho]
      rfl

/-- Two permits for four calls.  The third one has to wait, and is handed its permit when the first one ends.  The
fourth one finds the permit of the second one and calls its function first.  With no permits one function runs. -/
theorem later_call_starts_first :
    (run State.step (State.create 2 : State Unit Unit)
        [.submit, .submit, .submit, .start, .start, .settle 0 (.ok ()), .settle 1 (.ok ()), .finish 0, .finish 1,
          .submit, .deliver, .start, .start]).started = [(0, false), (1, false), (3, false), (2, true)] ∧
      (run State.step (State.create 0 : State Unit Unit) [.submit, .start]).running = 1 := by
  decide +kernel

end TemporalSdk.Concurrency
