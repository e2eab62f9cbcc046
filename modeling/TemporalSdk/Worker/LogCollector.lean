import TemporalSdk.Machine.PriorityQueue
import TemporalSdk.Machine.Run

/-!
# LogCollector — `NativeLogCollector`

Entries come one by one from the collector's logger and in batches from the native layer.  They are held in
a heap by their time and are passed down when they are old enough, when there are too many, on a flush and
at the end.  The heap is any queue that gives the oldest entry first.
-/

namespace TemporalSdk.Worker
namespace LogCollector

open Machine

/-- `M` has the level, message and metadata of an entry. -/
structure LogEntry (M : Type) where
  timestampNanos : Int
  content : M
  deriving DecidableEq

/-- A flush pass: what it passed down, and what it left in the buffer. -/
structure Pass (M : Type) where
  emitted : List (LogEntry M)
  left : Multiset (LogEntry M)

/-- In time order, and nothing older is left. -/
def Pass.Ordered {M : Type} (pass : Pass M) : Prop :=
  pass.emitted.Pairwise (fun a b => a.timestampNanos ≤ b.timestampNanos) ∧
    ∀ e ∈ pass.emitted, ∀ x ∈ pass.left, e.timestampNanos ≤ x.timestampNanos

/-- The downstream logger is what it was given: the passes, and how many conversion errors. -/
structure Collector (η M : Type) where
  buffer : η
  closed : Bool
  passes : List (Pass M)
  errors : Nat

inductive Event (M : Type)
  | appendOne (entry : LogEntry M)
  -- A native entry that cannot be converted is `none`.
  | receive (entries : List (Option (LogEntry M))) (dateNow : Int)
  | flushInterval (dateNow : Int)
  | flush
  | close

/-- The well-formed entries that an event brings. -/
def Event.entries {M : Type} : Event M → List (LogEntry M)
  | .appendOne entry => [entry]
  | .receive entries _ => entries.filterMap id
  | .flushInterval _ => []
  | .flush => []
  | .close => []

def minBufferTimeMs : Int := 100

def maxBufferSize : Nat := 2000

abbrev EntryQueue (η M : Type) : Type := PriorityQueue η (LogEntry M) LogEntry.timestampNanos

namespace Collector

variable {η M : Type} (q : EntryQueue η M)

def init : Collector η M := ⟨q.empty, false, [], 0⟩

def add (s : Collector η M) (entry : LogEntry M) : Collector η M :=
  { s with buffer := q.add s.buffer entry }

/-- Pass down what the loop of a flush pass pops. -/
def emit (s : Collector η M) (popped : List (LogEntry M) × η) : Collector η M :=
  { s with
    buffer := popped.2
    passes := s.passes ++ [⟨popped.1, q.elements popped.2⟩] }

/-- `BigInt(Date.now() - this.minBufferTimeMs) * 1_000_000n`. -/
def thresholdTimeNanos (dateNow : Int) : Int := (dateNow - minBufferTimeMs) * 1000000

def flushMatured (s : Collector η M) (dateNow : Int) : Collector η M :=
  s.emit q (q.popWhile (fun entry => entry.timestampNanos ≤ thresholdTimeNanos dateNow)
    (q.size s.buffer) s.buffer)

def flushExcess (s : Collector η M) : Collector η M :=
  s.emit q (q.popWhile (fun _ => true)
    (q.size s.buffer - if s.closed then 0 else maxBufferSize) s.buffer)

def flush (s : Collector η M) : Collector η M :=
  s.emit q (q.popWhile (fun _ => true) (q.size s.buffer) s.buffer)

def appendOne (s : Collector η M) (entry : LogEntry M) : Collector η M := (s.add q entry).flushExcess q

/-- The loop of `receive`. -/
def addNative (s : Collector η M) : Option (LogEntry M) → Collector η M
  | some entry => s.add q entry
  | none => { s with errors := s.errors + 1 }

def receive (s : Collector η M) (entries : List (Option (LogEntry M))) (dateNow : Int) :
    Collector η M :=
  ((entries.foldl (addNative q) s).flushExcess q).flushMatured q dateNow

def close (s : Collector η M) : Collector η M := { s.flush q with closed := true }

def step (s : Collector η M) : Event M → Collector η M
  | .appendOne entry => s.appendOne q entry
  | .receive entries dateNow => s.receive q entries dateNow
  -- The interval is cleared when the collector is closed.
  | .flushInterval dateNow => if s.closed then s else s.flushMatured q dateNow
  | .flush => s.flush q
  | .close => s.close q

/-- What has been passed down so far. -/
def downstream (s : Collector η M) : List (LogEntry M) := s.passes.flatMap Pass.emitted

/-- What is held or has been passed down. -/
def accounted (s : Collector η M) : Multiset (LogEntry M) :=
  Multiset.ofList s.downstream + q.elements s.buffer

/-! ## Passes -/

variable {q} {s : Collector η M}

theorem accounted_add (entry : LogEntry M) :
    (s.add q entry).accounted q = s.accounted q + Multiset.ofList [entry] := by
  show Multiset.ofList s.downstream + q.elements (q.add s.buffer entry) = _
  rw [q.elements_add, accounted, Multiset.add_assoc, ← Multiset.singleton_add, Multiset.add_comm {entry}]
  rfl

theorem accounted_emit (p : LogEntry M → Bool) (n : Nat) :
    (s.emit q (q.popWhile p n s.buffer)).accounted q = s.accounted q := by
  have hmoved := q.popWhile_elements p n s.buffer
  simp only [accounted, downstream, emit, List.flatMap_append, List.flatMap_singleton]
  rw [← Multiset.coe_add, Multiset.add_assoc, hmoved]

theorem accounted_addNative (entry : Option (LogEntry M)) :
    (s.addNative q entry).accounted q = s.accounted q + Multiset.ofList entry.toList := by
  cases entry with
  | none => exact (Multiset.add_zero _).symm
  | some entry => exact accounted_add entry

theorem accounted_addAll (entries : List (Option (LogEntry M))) (s : Collector η M) :
    (entries.foldl (addNative q) s).accounted q =
      s.accounted q + Multiset.ofList (entries.filterMap id) := by
  induction entries generalizing s with
  | nil => exact (Multiset.add_zero _).symm
  | cons entry entries ih =>
    rw [List.foldl_cons, ih, accounted_addNative, Multiset.add_assoc, Multiset.coe_add]
    cases entry <;> rfl

theorem accounted_step (event : Event M) :
    (s.step q event).accounted q = s.accounted q + Multiset.ofList event.entries := by
  cases event with
  | appendOne entry => rw [step, appendOne, flushExcess, accounted_emit, accounted_add]; rfl
  | receive entries dateNow =>
    rw [step, receive, flushMatured, accounted_emit, flushExcess, accounted_emit, accounted_addAll]
    rfl
  | flushInterval dateNow =>
    simp only [step]
    split
    · exact (Multiset.add_zero _).symm
    · exact (accounted_emit _ _).trans (Multiset.add_zero _).symm
  | flush | close => exact (accounted_emit _ _).trans (Multiset.add_zero _).symm

/-! ## What a run keeps -/

/-- Every pass was in order, the buffer is bounded, and empty once the collector is closed. -/
structure Kept (q : EntryQueue η M) (s : Collector η M) : Prop where
  ordered : ∀ pass ∈ s.passes, pass.Ordered
  bounded : q.size s.buffer ≤ if s.closed then 0 else maxBufferSize

theorem ordered_emit (h : ∀ pass ∈ s.passes, pass.Ordered) (p : LogEntry M → Bool) (n : Nat) :
    ∀ pass ∈ (s.emit q (q.popWhile p n s.buffer)).passes, pass.Ordered := by
  intro pass hpass
  rcases List.mem_append.1 hpass with hpass | hpass
  · exact h pass hpass
  · rw [List.mem_singleton.1 hpass]
    exact ⟨q.popWhile_sorted p n s.buffer, q.popWhile_least p n s.buffer⟩

theorem size_emit_le (p : LogEntry M → Bool) (n : Nat) :
    q.size (s.emit q (q.popWhile p n s.buffer)).buffer ≤ q.size s.buffer := by
  show Multiset.card (q.elements (q.popWhile p n s.buffer).2) ≤ Multiset.card (q.elements s.buffer)
  rw [q.popWhile_elements p n s.buffer, Multiset.card_add]
  exact Nat.le_add_left _ _

theorem Kept.emit (h : Kept q s) (p : LogEntry M → Bool) (n : Nat) :
    Kept q (s.emit q (q.popWhile p n s.buffer)) :=
  ⟨ordered_emit h.ordered p n, Nat.le_trans (size_emit_le p n) h.bounded⟩

theorem kept_flushExcess (h : ∀ pass ∈ s.passes, pass.Ordered) : Kept q (s.flushExcess q) := by
  refine ⟨ordered_emit h _ _, ?_⟩
  show q.size (q.popWhile (fun _ => true) _ s.buffer).2 ≤ if s.closed then 0 else maxBufferSize
  rw [q.size_popWhile_true]
  omega

theorem kept_close (h : Kept q s) : Kept q (s.close q) := by
  refine ⟨ordered_emit h.ordered _ _, ?_⟩
  show q.size (q.popWhile (fun _ => true) (q.size s.buffer) s.buffer).2 ≤ 0
  rw [q.size_popWhile_true]
  omega

theorem passes_addAll (entries : List (Option (LogEntry M))) (s : Collector η M) :
    (entries.foldl (addNative q) s).passes = s.passes := by
  induction entries generalizing s with
  | nil => rfl
  | cons entry entries ih =>
    rw [List.foldl_cons, ih]
    cases entry <;> rfl

theorem Kept.step (h : Kept q s) (event : Event M) : Kept q (s.step q event) := by
  cases event with
  | appendOne entry => exact kept_flushExcess h.ordered
  | receive entries dateNow =>
    have hpasses : ∀ pass ∈ (entries.foldl (addNative q) s).passes, pass.Ordered := by
      rw [passes_addAll]
      exact h.ordered
    exact (kept_flushExcess hpasses).emit _ _
  | flushInterval dateNow =>
    simp only [Collector.step]
    split
    · exact h
    · exact h.emit _ _
  | flush => exact h.emit _ _
  | close => exact kept_close h

theorem kept_init : Kept q (init q) := by
  refine ⟨fun pass hpass => absurd hpass List.not_mem_nil, ?_⟩
  show Multiset.card (q.elements q.empty) ≤ maxBufferSize
  rw [q.elements_empty]
  exact Nat.zero_le _

theorem kept_run (q : EntryQueue η M) (events : List (Event M)) :
    Kept q (run (step q) (init q) events) := by
  have hstep : ∀ (s : Collector η M) (e : Event M), True → Kept q s → Kept q (s.step q e) :=
    fun s e _ h => h.step e
  exact run_invariant hstep kept_init (guarded_true _ _ _)

theorem accounted_run (events : List (Event M)) (s : Collector η M) :
    (run (step q) s events).accounted q =
      s.accounted q + Multiset.ofList (events.flatMap Event.entries) := by
  induction events generalizing s with
  | nil => exact (Multiset.add_zero _).symm
  | cons event events ih =>
    rw [run_cons, ih, accounted_step, Multiset.add_assoc, Multiset.coe_add, List.flatMap_cons]

theorem closed_addAll (entries : List (Option (LogEntry M))) (s : Collector η M) :
    (entries.foldl (addNative q) s).closed = s.closed := by
  induction entries generalizing s with
  | nil => rfl
  | cons entry entries ih =>
    rw [List.foldl_cons, ih]
    cases entry <;> rfl

theorem closed_step (h : s.closed = true) (event : Event M) : (s.step q event).closed = true := by
  cases event with
  | appendOne | flush => exact h
  | receive entries dateNow => exact (closed_addAll entries s).trans h
  | flushInterval dateNow =>
    simp only [step, h, if_true]
  | close => rfl

theorem closed_run (h : s.closed = true) (events : List (Event M)) :
    (run (step q) s events).closed = true := by
  have hstep : ∀ (s : Collector η M) (e : Event M), True → s.closed = true →
      (s.step q e).closed = true := fun s e _ h => closed_step h e
  exact run_invariant hstep h (guarded_true _ _ _)

theorem closed_of_close_mem {events : List (Event M)} (h : Event.close ∈ events) (s : Collector η M) :
    (run (step q) s events).closed = true := by
  rcases List.append_of_mem h with ⟨before, after, rfl⟩
  rw [run_append, run_cons]
  exact closed_run rfl after

/-- Whatever comes in whatever order, the entries that came are those passed down and those held, each as
often as it came; every pass is in time order and leaves nothing older; the buffer is never larger than
its bound, and a collector that has been closed holds nothing. -/
theorem entries_kept_and_ordered (q : EntryQueue η M) (events : List (Event M)) :
    Multiset.ofList (events.flatMap Event.entries) =
        Multiset.ofList (run (step q) (init q) events).downstream +
          q.elements (run (step q) (init q) events).buffer ∧
      (∀ pass ∈ (run (step q) (init q) events).passes, pass.Ordered) ∧
      q.size (run (step q) (init q) events).buffer ≤ maxBufferSize ∧
      (Event.close ∈ events → q.elements (run (step q) (init q) events).buffer = 0) := by
  have hkept := kept_run q events
  have haccounted := accounted_run (q := q) events (init q)
  have hinit : (init q).accounted q = 0 := by
    simp [accounted, downstream, init, q.elements_empty]
  refine ⟨?_, hkept.ordered, ?_, ?_⟩
  · rw [hinit, Multiset.zero_add] at haccounted
    exact haccounted.symm
  · refine Nat.le_trans hkept.bounded ?_
    split
    · exact Nat.zero_le _
    · exact Nat.le_refl _
  · intro hclose
    have hsize := hkept.bounded
    rw [closed_of_close_mem hclose, if_pos rfl] at hsize
    exact Multiset.card_eq_zero.1 (Nat.le_zero.1 hsize)

-- Two entries that come in the wrong order, held in a sorted list, and one after the end.
example :
    (run (step (PriorityQueue.sortedList LogEntry.timestampNanos))
      (init (PriorityQueue.sortedList LogEntry.timestampNanos))
      [.appendOne ⟨2, "b"⟩, .receive [some ⟨1, "a"⟩, none] 0, .close, .appendOne ⟨0, "c"⟩]).downstream =
      [⟨1, "a"⟩, ⟨2, "b"⟩, ⟨0, "c"⟩] := by
  decide

end Collector
end LogCollector
end TemporalSdk.Worker
