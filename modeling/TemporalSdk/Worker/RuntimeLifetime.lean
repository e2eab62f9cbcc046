import TemporalSdk.Machine.Run
import TemporalSdk.Machine.Tally

/-!
# RuntimeLifetime — `Runtime` and its native objects

A `Runtime` counts the creations in progress and keeps a reference to every native object that was created on it.
When a creation fails and when an object is released, it checks whether it is idle, and then shuts itself down.
`Runtime._instance` is the one that new objects are created on.

`O` is the type of native objects and `R` that of runtimes.
-/

namespace TemporalSdk.Worker
namespace RuntimeLifetime

open Machine

inductive Kind
  | client
  | worker
  | replayWorker
  | ephemeralServer
  deriving DecidableEq

/-- How far a native object is. -/
inductive Phase
  | absent
  -- The native call has not returned; it has, and the creation has not.
  | creating
  | added
  | live
  | notCreated
  | released
  -- The native call that releases it failed, and nothing was done after it.
  | notReleased
  deriving DecidableEq

namespace Phase

def inProgress : Phase → Bool
  | .creating => true
  | .added => true
  | _ => false

/-- It is being created, or live. -/
def inUse : Phase → Bool
  | .creating => true
  | .added => true
  | .live => true
  | _ => false

/-- It is in `backRefs`. -/
def referenced : Phase → Bool
  | .added => true
  | .live => true
  | .notReleased => true
  | _ => false

end Phase

/-- `native` tells whether that property is still set.  The fields after it are for stating properties only: how
often the native runtime was shut down, whether the idle check did so while an object was in use, and the objects
and their kinds. -/
structure Runtime (O : Type) where
  pendingCreations : Int
  backRefs : List O
  native : Bool
  shutdowns : Nat
  shutDownInUse : Bool
  objects : List O
  kind : O → Kind
  phase : O → Phase

inductive Event (O : Type)
  | createNative (o : O) (kind : Kind)
  -- `backRefs.add`.
  | added (o : O)
  | created (o : O)
  | notCreated (o : O)
  -- `closeNativeClient`, `deregisterWorker`, `shutdownEphemeralServer`: the native call returns, or fails.
  | release (o : O) (failed : Bool)
  | shutdown
  deriving DecidableEq

namespace Runtime

variable {O : Type} [DecidableEq O]

def init : Runtime O := ⟨0, [], true, 0, false, [], fun _ => .client, fun _ => .absent⟩

def isIdle (r : Runtime O) : Bool := r.pendingCreations = 0 && r.backRefs.isEmpty

def shutdown (r : Runtime O) : Runtime O :=
  if r.native then { r with native := false, shutdowns := r.shutdowns + 1 } else r

def inUse (r : Runtime O) : Bool := r.objects.any fun o => (r.phase o).inUse

def shutdownIfIdle (r : Runtime O) : Runtime O :=
  if r.isIdle then
    { r.shutdown with shutDownInUse := r.shutDownInUse || (r.native && r.inUse) }
  else r

def setPhase (r : Runtime O) (o : O) (phase : Phase) : Runtime O :=
  { r with phase := Function.update r.phase o phase }

/-- `backRefs.delete`, and the idle check. -/
def drop (r : Runtime O) (o : O) : Runtime O :=
  ({ r with backRefs := r.backRefs.erase o }.setPhase o .released).shutdownIfIdle

/-- The release of a worker, which has a `finally`. -/
def deregisterWorker (r : Runtime O) (o : O) : Runtime O := r.drop o

/-- The release of a client or of an ephemeral server. -/
def close (r : Runtime O) (o : O) (failed : Bool) : Runtime O :=
  if failed then r.setPhase o .notReleased else r.drop o

/-- Nothing happens where the event is not possible. -/
def step (r : Runtime O) : Event O → Runtime O
  | .createNative o kind =>
    { r with
      pendingCreations := r.pendingCreations + 1
      objects := o :: r.objects
      kind := Function.update r.kind o kind }.setPhase o .creating
  | .added o =>
    if r.phase o = .creating then { r with backRefs := o :: r.backRefs }.setPhase o .added else r
  | .created o =>
    if r.phase o = .added then
      { r with pendingCreations := r.pendingCreations - 1 }.setPhase o .live
    else r
  | .notCreated o =>
    if r.phase o = .creating then
      ({ r with pendingCreations := r.pendingCreations - 1 }.setPhase o .notCreated).shutdownIfIdle
    else r
  -- A release that failed may be tried again.
  | .release o failed =>
    if r.phase o = .live ∨ r.phase o = .notReleased then
      match r.kind o with
      | .client => r.close o failed
      | .worker => r.deregisterWorker o
      | .replayWorker => r.deregisterWorker o
      | .ephemeralServer => r.close o failed
    else r
  | .shutdown => r.shutdown

/-- Every native object is created once. -/
def Conforming (r : Runtime O) : Event O → Prop
  | .createNative o _ => o ∉ r.objects
  | _ => True

/-- A client or an ephemeral server whose native release call fails. -/
def FailsToClose (r : Runtime O) : Event O → Prop
  | .release o true => r.kind o = .client ∨ r.kind o = .ephemeralServer
  | _ => False

instance (r : Runtime O) : ∀ e, Decidable (r.Conforming e)
  | .createNative o _ => inferInstanceAs (Decidable (o ∉ r.objects))
  | .added _ => inferInstanceAs (Decidable True)
  | .created _ => inferInstanceAs (Decidable True)
  | .notCreated _ => inferInstanceAs (Decidable True)
  | .release _ _ => inferInstanceAs (Decidable True)
  | .shutdown => inferInstanceAs (Decidable True)

instance (r : Runtime O) : ∀ e, Decidable (r.FailsToClose e)
  | .createNative _ _ => inferInstanceAs (Decidable False)
  | .added _ => inferInstanceAs (Decidable False)
  | .created _ => inferInstanceAs (Decidable False)
  | .notCreated _ => inferInstanceAs (Decidable False)
  | .release _ false => inferInstanceAs (Decidable False)
  | .release o true => inferInstanceAs (Decidable (r.kind o = .client ∨ r.kind o = .ephemeralServer))
  | .shutdown => inferInstanceAs (Decidable False)

/-- Shut down once at most, not by the idle check while in use, and with the right count. -/
structure Careful (r : Runtime O) : Prop where
  shutdowns : r.shutdowns ≤ 1
  notInUse : r.shutDownInUse = false
  pending : r.pendingCreations = tally r.objects Phase.inProgress r.phase

/-- Shut down when the last object has been released, or could not be. -/
def LetsGo (r : Runtime O) : Prop :=
  r.objects ≠ [] → (∀ o ∈ r.objects, (r.phase o).inUse = false) → r.shutdowns = 1

/-! ## What a runtime keeps -/

structure Kept (r : Runtime O) : Prop where
  objects : r.objects.Nodup
  absent : ∀ o, o ∉ r.objects → r.phase o = .absent
  pending : r.pendingCreations = tally r.objects Phase.inProgress r.phase
  backRefs : r.backRefs.Nodup
  referenced : ∀ o, o ∈ r.backRefs ↔ (r.phase o).referenced = true
  shutdowns : r.shutdowns = (!r.native).toNat
  notInUse : r.shutDownInUse = false

variable {r : Runtime O}

omit [DecidableEq O] in
theorem kept_init : Kept (init : Runtime O) :=
  ⟨List.nodup_nil, fun _ _ => rfl, rfl, List.nodup_nil,
    fun o => iff_of_false List.not_mem_nil (by simp [init, Phase.referenced]), rfl, rfl⟩

omit [DecidableEq O] in
theorem Kept.careful (h : Kept r) : r.Careful := by
  refine ⟨?_, h.notInUse, h.pending⟩
  rw [h.shutdowns]
  exact Bool.toNat_le _

variable {o : O}

omit [DecidableEq O] in
theorem Kept.mem_objects (h : Kept r) (ho : r.phase o ≠ .absent) : o ∈ r.objects :=
  Classical.byContradiction fun hnot => ho (h.absent o hnot)

theorem Kept.change (h : Kept r) (ho : o ∈ r.objects) (phase : Phase) (change : Int)
    (backRefs : List O) (hchange : change = phase.inProgress.toNat - (r.phase o).inProgress.toNat)
    (hbackRefs : backRefs.Nodup) (hself : o ∈ backRefs ↔ phase.referenced = true)
    (hother : ∀ o', o' ≠ o → (o' ∈ backRefs ↔ o' ∈ r.backRefs)) :
    Kept ({ r with
      pendingCreations := r.pendingCreations + change
      backRefs := backRefs }.setPhase o phase) := by
  refine ⟨h.objects, fun o' ho' => ?_, ?_, hbackRefs, fun o' => ?_, h.shutdowns, h.notInUse⟩
  · have hne : o' ≠ o := fun heq => ho' (heq ▸ ho)
    simpa [setPhase, Function.update_of_ne hne] using h.absent o' ho'
  · exact tally_change h.objects (fun hnot => absurd ho hnot) h.pending hchange
  · by_cases heq : o' = o
    · rw [heq]
      simpa [setPhase] using hself
    · simpa [setPhase, Function.update_of_ne heq, hother o' heq] using h.referenced o'

omit [DecidableEq O] in
theorem inUse_eq_false (hidle : r.isIdle = true) (h : Kept r) :
    ∀ o ∈ r.objects, (r.phase o).inUse = false := by
  simp only [isIdle, Bool.and_eq_true, decide_eq_true_eq, List.isEmpty_iff] at hidle
  have hpending := h.pending
  rw [hidle.1] at hpending
  have hprogress := tally_eq_zero.1 (Int.ofNat_eq_zero.1 hpending.symm)
  intro o ho
  have hnot := hprogress o ho
  have href : (r.phase o).referenced = false := by
    rw [← Bool.not_eq_true, ← h.referenced o, hidle.2]
    exact List.not_mem_nil
  cases hphase : r.phase o with
  | creating | added => rw [hphase] at hnot; cases hnot
  | live => rw [hphase] at href; cases href
  | absent => rfl
  | notCreated => rfl
  | released => rfl
  | notReleased => rfl

omit [DecidableEq O] in
theorem Kept.shutdown (h : Kept r) : Kept r.shutdown := by
  simp only [Runtime.shutdown]
  split
  · rename_i hnative
    have hshutdowns := h.shutdowns
    rw [hnative] at hshutdowns
    exact { h with shutdowns := by simp [hshutdowns] }
  · exact h

omit [DecidableEq O] in
theorem Kept.shutdownIfIdle (h : Kept r) : Kept r.shutdownIfIdle := by
  simp only [Runtime.shutdownIfIdle]
  split
  · rename_i hidle
    have hshutdown := h.shutdown
    have hinUse : r.inUse = false := by
      simp only [Runtime.inUse, List.any_eq_false, Bool.not_eq_true]
      exact inUse_eq_false hidle h
    exact { hshutdown with notInUse := by simp [h.notInUse, hinUse] }
  · exact h

omit [DecidableEq O] in
theorem Kept.releasable (h : Kept r) (ho : r.phase o = .live ∨ r.phase o = .notReleased) :
    o ∈ r.objects ∧ (r.phase o).inProgress = false ∧ o ∈ r.backRefs := by
  rcases ho with ho | ho
  all_goals exact ⟨h.mem_objects (by simp [ho]), by rw [ho]; rfl, (h.referenced o).2 (by rw [ho]; rfl)⟩

theorem Kept.dropped (h : Kept r) (ho : r.phase o = .live ∨ r.phase o = .notReleased) :
    Kept ({ r with backRefs := r.backRefs.erase o }.setPhase o .released) := by
  rcases h.releasable ho with ⟨hmem, hprogress, _⟩
  have hself : o ∈ r.backRefs.erase o ↔ Phase.released.referenced = true := by
    simp [Phase.referenced, h.backRefs.mem_erase_iff]
  have hother : ∀ o', o' ≠ o → (o' ∈ r.backRefs.erase o ↔ o' ∈ r.backRefs) := by
    intro o' hne
    simp [h.backRefs.mem_erase_iff, hne]
  have hchanged := h.change hmem .released 0 (r.backRefs.erase o) (by rw [hprogress]; rfl)
    (h.backRefs.erase o) hself hother
  simpa using hchanged

theorem Kept.notReleased (h : Kept r) (ho : r.phase o = .live ∨ r.phase o = .notReleased) :
    Kept (r.setPhase o .notReleased) := by
  rcases h.releasable ho with ⟨hmem, hprogress, href⟩
  have hchanged := h.change hmem .notReleased 0 r.backRefs (by rw [hprogress]; rfl) h.backRefs
    (iff_of_true href rfl) fun o' _ => Iff.rfl
  simpa using hchanged

theorem Kept.createNative (h : Kept r) (ho : o ∉ r.objects) (kind : Kind) :
    Kept (r.step (.createNative o kind)) := by
  refine ⟨List.nodup_cons.2 ⟨ho, h.objects⟩, fun o' ho' => ?_, ?_, h.backRefs, fun o' => ?_, h.shutdowns,
    h.notInUse⟩
  · have hne : o' ≠ o := fun heq => ho' (heq ▸ List.mem_cons_self)
    have hold : o' ∉ r.objects := fun hmem => ho' (List.mem_cons_of_mem o hmem)
    simpa [step, setPhase, Function.update_of_ne hne] using h.absent o' hold
  · simp only [step, setPhase, tally_update_cons ho]
    simpa [Phase.inProgress] using h.pending
  · by_cases heq : o' = o
    · have hold := h.referenced o
      rw [h.absent o ho] at hold
      rw [heq]
      simpa [step, setPhase, Phase.referenced] using hold
    · simpa [step, setPhase, Function.update_of_ne heq] using h.referenced o'

theorem Kept.added (h : Kept r) (ho : r.phase o = .creating) :
    Kept ({ r with backRefs := o :: r.backRefs }.setPhase o .added) := by
  have hnot : o ∉ r.backRefs := fun hmem => by
    have href := (h.referenced o).1 hmem
    rw [ho] at href
    cases href
  have hchanged := h.change (h.mem_objects (by simp [ho])) .added 0 (o :: r.backRefs) (by rw [ho]; rfl)
    (List.nodup_cons.2 ⟨hnot, h.backRefs⟩) (iff_of_true List.mem_cons_self rfl)
    fun o' hne => by simp [hne]
  simpa using hchanged

theorem Kept.finished (h : Kept r) {phase : Phase} (ho : (r.phase o).inProgress = true)
    (hphase : phase.inProgress = false) (href : phase.referenced = (r.phase o).referenced) :
    Kept ({ r with pendingCreations := r.pendingCreations - 1 }.setPhase o phase) := by
  have hmem : o ∈ r.objects := h.mem_objects fun habsent => by rw [habsent] at ho; cases ho
  exact h.change hmem phase (-1) r.backRefs (by rw [ho, hphase]; rfl) h.backRefs
    (by rw [href]; exact h.referenced o) fun o' _ => Iff.rfl

theorem Kept.step (h : Kept r) {e : Event O} (he : r.Conforming e) : Kept (r.step e) := by
  cases e with
  | createNative o kind => exact h.createNative he kind
  | added o =>
    simp only [Runtime.step]
    split
    · rename_i ho
      exact h.added ho
    · exact h
  | created o =>
    simp only [Runtime.step]
    split
    · rename_i ho
      exact h.finished (by rw [ho]; rfl) rfl (by rw [ho]; rfl)
    · exact h
  | notCreated o =>
    simp only [Runtime.step]
    split
    · rename_i ho
      exact (h.finished (by rw [ho]; rfl) rfl (by rw [ho]; rfl)).shutdownIfIdle
    · exact h
  | release o failed =>
    simp only [Runtime.step]
    split
    · rename_i ho
      have hdrop : Kept (r.drop o) := (h.dropped ho).shutdownIfIdle
      have hclose : Kept (r.close o failed) := by
        cases failed with
        | false => exact hdrop
        | true => exact h.notReleased ho
      cases r.kind o with
      | client | ephemeralServer => exact hclose
      | worker | replayWorker => exact hdrop
    · exact h
  | shutdown => exact h.shutdown

/-! ## When a runtime is shut down -/

/-- No release has failed for good, and the runtime is shut down where it is not in use. -/
structure Free (r : Runtime O) : Prop where
  released : ∀ o, r.phase o ≠ .notReleased
  letsGo : r.LetsGo

omit [DecidableEq O] in
theorem isIdle_of_not_inUse (h : Kept r) (hreleased : ∀ o, r.phase o ≠ .notReleased)
    (hnone : ∀ o ∈ r.objects, (r.phase o).inUse = false) : r.isIdle = true := by
  have hpending : r.pendingCreations = 0 := by
    rw [h.pending, tally_eq_zero.2 fun o ho => ?_]
    · rfl
    · have hnot := hnone o ho
      cases hphase : r.phase o <;> simp_all [Phase.inUse, Phase.inProgress]
  have hbackRefs : r.backRefs = [] := by
    rw [List.eq_nil_iff_forall_not_mem]
    intro o ho
    have href := (h.referenced o).1 ho
    have hmem := h.mem_objects fun habsent => by rw [habsent] at href; cases href
    have hnot := hnone o hmem
    have hneat := hreleased o
    cases hphase : r.phase o <;> simp_all [Phase.inUse, Phase.referenced]
  simp [isIdle, hpending, hbackRefs]

omit [DecidableEq O] in
theorem Kept.shutdowns_eq_one (h : Kept r) (hnative : r.native = false) : r.shutdowns = 1 := by
  rw [h.shutdowns, hnative]
  rfl

omit [DecidableEq O] in
@[simp] theorem native_shutdown : r.shutdown.native = false := by
  simp only [Runtime.shutdown]
  split
  · rfl
  · rename_i hnative
    exact Bool.eq_false_iff.2 hnative

omit [DecidableEq O] in
@[simp] theorem phase_shutdown : r.shutdown.phase = r.phase := by
  simp only [Runtime.shutdown]
  split <;> rfl

omit [DecidableEq O] in
theorem free_shutdownIfIdle (h : Kept r) (hreleased : ∀ o, r.phase o ≠ .notReleased) :
    Free r.shutdownIfIdle := by
  have hkept := h.shutdownIfIdle
  cases hidle : r.isIdle with
  | true =>
    simp only [Runtime.shutdownIfIdle, hidle, if_true] at hkept ⊢
    exact ⟨by simpa using hreleased, fun _ _ => hkept.shutdowns_eq_one native_shutdown⟩
  | false =>
    simp only [Runtime.shutdownIfIdle, hidle]
    refine ⟨hreleased, fun _ hnone => ?_⟩
    exact absurd (hidle.symm.trans (isIdle_of_not_inUse h hreleased hnone)) (by decide)

omit [DecidableEq O] in
theorem free_of_inUse (hreleased : ∀ o, r.phase o ≠ .notReleased) (ho : o ∈ r.objects)
    (hinUse : (r.phase o).inUse = true) : Free r := by
  refine ⟨hreleased, fun _ hnone => ?_⟩
  exact absurd ((hnone o ho).symm.trans hinUse) (by decide)

theorem released_setPhase (h : ∀ o, r.phase o ≠ .notReleased) {phase : Phase}
    (hphase : phase ≠ .notReleased) : ∀ o', (r.setPhase o phase).phase o' ≠ .notReleased := by
  intro o'
  by_cases heq : o' = o
  · simpa [setPhase, heq] using hphase
  · simpa [setPhase, Function.update_of_ne heq] using h o'

theorem Free.step (hkept : Kept r) (h : Free r) {e : Event O} (he : r.Conforming e)
    (hcloses : ¬ r.FailsToClose e) : Free (r.step e) := by
  cases e with
  | createNative o kind =>
    refine free_of_inUse (released_setPhase h.released nofun) (o := o) List.mem_cons_self ?_
    simp [Runtime.step, setPhase, Phase.inUse]
  | added o | created o =>
    simp only [Runtime.step]
    split
    · rename_i ho
      refine free_of_inUse (released_setPhase h.released nofun) (o := o)
        (hkept.mem_objects (by simp [ho])) ?_
      simp [setPhase, Phase.inUse]
    · exact h
  | notCreated o =>
    simp only [Runtime.step]
    split
    · rename_i ho
      have hfinished :
          Kept ({ r with pendingCreations := r.pendingCreations - 1 }.setPhase o .notCreated) :=
        hkept.finished (by rw [ho]; rfl) rfl (by rw [ho]; rfl)
      exact free_shutdownIfIdle hfinished (released_setPhase h.released nofun)
    · exact h
  | release o failed =>
    simp only [Runtime.step]
    split
    · rename_i ho
      have hdrop : Free (r.drop o) :=
        free_shutdownIfIdle (hkept.dropped ho) (released_setPhase h.released nofun)
      cases failed with
      | false => cases r.kind o <;> exact hdrop
      | true =>
        cases hkind : r.kind o with
        | client => exact absurd (.inl hkind) hcloses
        | worker | replayWorker => exact hdrop
        | ephemeralServer => exact absurd (.inr hkind) hcloses
    · exact h
  | shutdown =>
    refine ⟨by simpa [Runtime.step] using h.released, fun _ _ => ?_⟩
    exact hkept.shutdown.shutdowns_eq_one native_shutdown

end Runtime

/-! ## All runtimes of a process -/

/-- `runtimes` has also those that were not made yet; `made` is for stating properties only. -/
structure Process (R O : Type) where
  runtimes : R → Runtime O
  -- `Runtime._instance`.
  singleton : Option R
  made : List R

inductive ProcessEvent (R O : Type)
  -- `Runtime.instance` and `Runtime.install`.
  | create (k : R)
  | on (k : R) (e : Event O)

namespace Process

variable {R O : Type}

def init : Process R O := ⟨fun _ => .init, none, []⟩

variable [DecidableEq R] [DecidableEq O]

/-- A runtime is made only where there is no instance; one that is shut down stops being the instance. -/
def step (s : Process R O) : ProcessEvent R O → Process R O
  | .create k =>
    match s.singleton with
    | some _ => s
    | none => ⟨Function.update s.runtimes k .init, some k, k :: s.made⟩
  | .on k e =>
    let r := (s.runtimes k).step e
    { s with
      runtimes := Function.update s.runtimes k r
      singleton := if (s.runtimes k).native && !r.native && s.singleton = some k then none
        else s.singleton }

/-- Objects are created on a runtime that was made, and a runtime is made once. -/
def Conforming (s : Process R O) : ProcessEvent R O → Prop
  | .create k => k ∉ s.made
  | .on k e => k ∈ s.made ∧ (s.runtimes k).Conforming e

def FailsToClose (s : Process R O) : ProcessEvent R O → Prop
  | .create _ => False
  | .on k e => (s.runtimes k).FailsToClose e

instance (s : Process R O) : ∀ e, Decidable (s.Conforming e)
  | .create k => inferInstanceAs (Decidable (k ∉ s.made))
  | .on k e => inferInstanceAs (Decidable (k ∈ s.made ∧ (s.runtimes k).Conforming e))

instance (s : Process R O) : ∀ e, Decidable (s.FailsToClose e)
  | .create _ => inferInstanceAs (Decidable False)
  | .on k e => inferInstanceAs (Decidable ((s.runtimes k).FailsToClose e))

/-- Every runtime is careful, and the instance has not been shut down. -/
def Careful (s : Process R O) : Prop :=
  (∀ k, (s.runtimes k).Careful) ∧ ∀ k, s.singleton = some k → (s.runtimes k).shutdowns = 0

def LetsGo (s : Process R O) : Prop := ∀ k, (s.runtimes k).LetsGo

structure Kept (s : Process R O) : Prop where
  runtimes : ∀ k, (s.runtimes k).Kept
  singleton : ∀ k, s.singleton = some k → (s.runtimes k).native = true

variable {s : Process R O}

omit [DecidableEq R] [DecidableEq O] in
theorem Kept.careful (h : Kept s) : s.Careful := by
  refine ⟨fun k => (h.runtimes k).careful, fun k hk => ?_⟩
  rw [(h.runtimes k).shutdowns, h.singleton k hk]
  rfl

theorem Kept.step (h : Kept s) {e : ProcessEvent R O} (he : s.Conforming e) : Kept (s.step e) := by
  cases e with
  | create k =>
    simp only [Process.step]
    cases hsingleton : s.singleton with
    | some _ => exact h
    | none =>
      refine ⟨fun k' => ?_, fun k' hk' => ?_⟩
      · by_cases heq : k' = k
        · rw [heq]
          simpa using Runtime.kept_init
        · simpa [Function.update_of_ne heq] using h.runtimes k'
      · rw [← Option.some.inj hk']
        simp [Runtime.init]
  | on k e =>
    have hrun := (h.runtimes k).step he.2
    refine ⟨fun k' => ?_, fun k' hk' => ?_⟩
    · by_cases heq : k' = k
      · rw [heq]
        simpa [Process.step] using hrun
      · simpa [Process.step, Function.update_of_ne heq] using h.runtimes k'
    · simp only [Process.step] at hk' ⊢
      split at hk'
      · cases hk'
      · rename_i hkeeps
        by_cases heq : k' = k
        · subst heq
          have hold := h.singleton k' hk'
          simp only [hold, hk', Bool.true_and, decide_true, Bool.and_true, Bool.not_eq_true,
            Bool.not_eq_false'] at hkeeps
          simpa using hkeeps
        · simpa [Function.update_of_ne heq] using h.singleton k' hk'

theorem free_step (h : Kept s) (hfree : ∀ k, (s.runtimes k).Free) {e : ProcessEvent R O}
    (he : s.Conforming e) (hcloses : ¬ s.FailsToClose e) : ∀ k, ((s.step e).runtimes k).Free := by
  cases e with
  | create k =>
    simp only [Process.step]
    cases hsingleton : s.singleton with
    | some _ => exact hfree
    | none =>
      intro k'
      by_cases heq : k' = k
      · rw [heq]
        simpa using ⟨fun _ => nofun, fun hne => absurd rfl hne⟩
      · simpa [Function.update_of_ne heq] using hfree k'
  | on k e =>
    intro k'
    by_cases heq : k' = k
    · rw [heq]
      simpa [Process.step] using (hfree k).step (h.runtimes k) he.2 hcloses
    · simpa [Process.step, Function.update_of_ne heq] using hfree k'

/-- However creations, releases and shutdowns are interleaved and whichever of them fail, a runtime is shut down at
most once and not by the idle check while it is in use, `pendingCreations` is the number of creations in progress,
and the instance has not been shut down.  When no close of a client or shutdown of an ephemeral server fails, a
runtime is shut down as soon as its last object has been released or could not be. -/
theorem careful_and_lets_go (es : List (ProcessEvent R O))
    (hes : Guarded step Conforming (init : Process R O) es) :
    Throughout step Careful init es ∧
      (Guarded step (fun s e => ¬ s.FailsToClose e) init es → Throughout step LetsGo init es) := by
  have hinit : Kept (init : Process R O) := ⟨fun _ => Runtime.kept_init, nofun⟩
  constructor
  · have hstep : ∀ (s : Process R O) (e : ProcessEvent R O), s.Conforming e → Kept s → Kept (s.step e) :=
      fun s e he h => h.step he
    exact throughout_of_invariant hstep (fun s h => h.careful) hinit hes
  · intro hcloses
    have hstep : ∀ (s : Process R O) (e : ProcessEvent R O), s.Conforming e ∧ ¬ s.FailsToClose e →
        (Kept s ∧ ∀ k, (s.runtimes k).Free) → Kept (s.step e) ∧ ∀ k, ((s.step e).runtimes k).Free :=
      fun s e he h => ⟨h.1.step he.1, free_step h.1 h.2 he.1 he.2⟩
    have hfree : ∀ k, ((init : Process R O).runtimes k).Free :=
      fun _ => ⟨fun _ => nofun, fun hne => absurd rfl hne⟩
    exact throughout_of_invariant hstep (fun s h k => (h.2 k).letsGo) ⟨hinit, hfree⟩ (hes.and hcloses)

/-- A client and a worker are created and released, though the worker cannot be finalized; then a runtime is made
on which the creation of a client fails. -/
theorem lets_go_of_worker :
    Throughout step LetsGo (init : Process Nat Nat)
      [.create 0, .on 0 (.createNative 0 .client), .on 0 (.added 0), .on 0 (.created 0),
        .on 0 (.createNative 1 .worker), .on 0 (.added 1), .on 0 (.created 1), .on 0 (.release 1 true),
        .on 0 (.release 0 false), .create 1, .on 1 (.createNative 2 .client), .on 1 (.notCreated 2)] :=
  (careful_and_lets_go _ (by decide)).2 (by decide)

/-- A client that cannot be closed keeps its runtime. -/
theorem not_lets_go_of_failed_close :
    Guarded step Conforming (init : Process Nat Nat)
        [.create 0, .on 0 (.createNative 0 .client), .on 0 (.added 0), .on 0 (.created 0),
          .on 0 (.release 0 true)] ∧
      ¬ LetsGo (run step (init : Process Nat Nat)
        [.create 0, .on 0 (.createNative 0 .client), .on 0 (.added 0), .on 0 (.created 0),
          .on 0 (.release 0 true)]) := by
  refine ⟨by decide, fun h => ?_⟩
  exact absurd (h 0 (by decide) (by decide)) (by decide)

end Process
end RuntimeLifetime
end TemporalSdk.Worker
