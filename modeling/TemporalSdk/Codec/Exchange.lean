import TemporalSdk.Codec.Runner
import TemporalSdk.Machine.Run

/-!
# Exchange — a runner and a conforming core

A conforming core resolves each operation that a completion scheduled, in the order of its protocol, and
nothing else.  Over every exchange with such a core the tables of the runner are a function of where
each operation stands (`Tracks`).  This file has the protocol, and what encoding a completion does to the
tables.
-/

namespace TemporalSdk.Codec

open Machine

/-! ## The protocol of core -/

/-- Where an operation stands. -/
inductive Status
  | unscheduled
  | scheduled
  | started
  | resolved
  -- A child workflow whose start failed or was cancelled.
  | notStarted
  deriving DecidableEq

/-- The status that a resolution job leads to, `none` when core does not send it. -/
def JobVariant.advance : JobVariant → Status → Option Status
  | .resolveActivity _ _, .scheduled => some .resolved
  | .resolveChildWorkflowExecutionStart _ .succeeded, .scheduled => some .started
  | .resolveChildWorkflowExecutionStart _ .failed, .scheduled => some .notStarted
  | .resolveChildWorkflowExecutionStart _ .cancelled, .scheduled => some .notStarted
  | .resolveChildWorkflowExecution _ _, .started => some .resolved
  | .resolveSignalExternalWorkflow _, .scheduled => some .resolved
  | .resolveRequestCancelExternalWorkflow _, .scheduled => some .resolved
  | .resolveNexusOperationStart _ .operationToken, .scheduled => some .started
  | .resolveNexusOperationStart _ .startedSync, .scheduled => some .started
  | .resolveNexusOperationStart _ .failed, .scheduled => some .resolved
  -- The handler may complete the operation at once.
  | .resolveNexusOperation _ _, .scheduled => some .resolved
  | .resolveNexusOperation _ _, .started => some .resolved
  | _, _ => none

structure Core where
  initialized : Bool
  status : OperationKind → Nat → Status

namespace Core

def init : Core := ⟨false, fun _ _ => .unscheduled⟩

def setStatus (core : Core) (k : OperationKind) (seq : Nat) (status : Status) : Core :=
  { core with status := setAt core.status k seq status }

/-- A command schedules its operation; a sequence number is not used twice. -/
def schedule (core : Core) (v : CommandVariant) : Option Core :=
  match v.schedules with
  | none => some core
  | some (k, seq) =>
    if core.status k seq = .unscheduled then some (core.setStatus k seq .scheduled) else none

def resolve (core : Core) (v : JobVariant) : Option Core :=
  match v.resolves with
  | some (k, seq) => (v.advance (core.status k seq)).map (core.setStatus k seq)
  | none =>
    match v with
    | .initializeWorkflow _ =>
      if core.initialized then none else some { core with initialized := true }
    | _ => some core

def scheduleAll {P : Type} (core : Core) : List (Command P) → Option Core
  | [] => some core
  | command :: commands => (core.schedule command.variant).bind (·.scheduleAll commands)

def resolveAll {P : Type} (core : Core) : List (Job P) → Option Core
  | [] => some core
  | job :: jobs => (core.resolve job.variant).bind (·.resolveAll jobs)

end Core

/-! ## Exchanges -/

/-- The entry that a scheduling command has the runner put into its tables. -/
def Runner.scheduledEntry (r : Runner) (v : CommandVariant) : PendingContext :=
  match v with
  | .requestCancelExternalWorkflowExecution _ ns workflowId =>
    ⟨.ordinary, r.externalWorkflowContext (.external ns workflowId)⟩
  | .scheduleNexusOperation _ _ service operation (.systemEnvelope _) =>
    ⟨.systemNexus (some service) operation, r.envelopeContext v⟩
  | _ => ⟨.ordinary, r.variantContext v⟩

/-- A runner and the core it works for.  `registered` and `delivered` are for stating properties only:
the entry that each operation was registered with when its command was encoded, and the jobs as they
were decoded. -/
structure Exchange (P : Type) where
  runner : Runner
  core : Core
  registered : OperationKind → Nat → Option PendingContext
  delivered : List (Job (Coded P))

inductive Call (P : Type)
  | encodeCompletion (commands : List (Command P))
  | decodeActivation (jobs : List (Job P))

namespace Exchange

variable {P : Type}

def init (P : Type) (ns workflowId : String) (codecHeaders : Bool) : Exchange P :=
  ⟨.init ns workflowId codecHeaders, .init, fun _ _ => none, []⟩

def registerCommand (r : Runner) (registered : OperationKind → Nat → Option PendingContext)
    (v : CommandVariant) : OperationKind → Nat → Option PendingContext :=
  match v.schedules with
  | none => registered
  | some (k, seq) => setAt registered k seq (some (r.scheduledEntry v))

def register (r : Runner) (registered : OperationKind → Nat → Option PendingContext)
    (commands : List (Command P)) : OperationKind → Nat → Option PendingContext :=
  commands.foldl (fun registered command => registerCommand r registered command.variant) registered

/-- A call that rejects, or that core does not make, ends the run: it is left out. -/
def step (s : Exchange P) : Call P → Exchange P
  | .encodeCompletion commands =>
    match s.runner.encodeCompletion commands, s.core.scheduleAll commands with
    | some (runner, _), some core =>
      { s with
        runner := runner
        core := core
        registered := register s.runner s.registered commands }
    | _, _ => s
  | .decodeActivation jobs =>
    match s.core.resolveAll jobs with
    | some core =>
      { s with
        runner := (s.runner.decodeActivation jobs).1
        core := core
        delivered := s.delivered ++ (s.runner.decodeActivation jobs).2 }
    | none => s

/-- The calls of a conforming core. -/
def Conforming (s : Exchange P) : Call P → Prop
  | .encodeCompletion commands =>
    (s.runner.encodeCompletion commands).isSome ∧ (s.core.scheduleAll commands).isSome
  | .decodeActivation jobs => (s.core.resolveAll jobs).isSome

instance decidableConforming (s : Exchange P) : (call : Call P) → Decidable (s.Conforming call)
  | .encodeCompletion commands =>
    inferInstanceAs (Decidable ((s.runner.encodeCompletion commands).isSome ∧
      (s.core.scheduleAll commands).isSome))
  | .decodeActivation jobs => inferInstanceAs (Decidable ((s.core.resolveAll jobs).isSome = true))

end Exchange

/-! ## The tables, by status -/

/-- Whether a table has an entry for an operation of its kind. -/
def Table.holds : Table → Status → Bool
  | _, .scheduled => true
  | .childWorkflowComplete, .started => true
  | .childWorkflowComplete, .notStarted => true
  | .nexusOperation, .started => true
  | _, _ => false

/-- The tables have the registered entries of the operations that are to be resolved, but for the
System Nexus operations whose entries were `taken` before the visit of an activation. -/
def Tracks (taken : List Nat) (tables : Table → Nat → Option PendingContext) (core : Core)
    (registered : OperationKind → Nat → Option PendingContext) : Prop :=
  ∀ table seq, tables table seq =
    if table.holds (core.status table.kind seq) ∧ ¬ (table = .nexusOperation ∧ seq ∈ taken) then
      registered table.kind seq
    else none

/-- The operations that core knows are the registered ones. -/
structure Known (core : Core) (registered : OperationKind → Nat → Option PendingContext) : Prop where
  isSome_iff : ∀ k seq, core.status k seq ≠ .unscheduled ↔ (registered k seq).isSome
  ordinary : ∀ k seq entry, registered k seq = some entry → entry.isSystem → k = .nexusOperation

/-! ## Encoding -/

def CommandVariant.isEnvelope : CommandVariant → Bool
  | .scheduleNexusOperation _ _ _ _ (.systemEnvelope _) => true
  | _ => false

/-- What a pass over the commands puts into the tables, when it looks at those that satisfy `p`. -/
def Runner.put (r : Runner) (p : CommandVariant → Bool)
    (tables : Table → Nat → Option PendingContext) (v : CommandVariant) :
    Table → Nat → Option PendingContext :=
  fun table seq =>
    if v.schedules = some (table.kind, seq) ∧ p v then some (r.scheduledEntry v) else tables table seq

variable {v : CommandVariant} {tables : Table → Nat → Option PendingContext}

theorem Runner.put_of_not {r : Runner} {p : CommandVariant → Bool}
    (h : v.schedules = none ∨ p v = false) :
    r.put p tables v = tables := by
  funext table seq
  rcases h with h | h <;> simp [put, h]

theorem Runner.rememberCommand_eq (r : Runner) (v : CommandVariant) :
    r.rememberCommand v =
      { r with
        pendingCompletionContexts :=
          r.put (fun v => !v.isEnvelope) r.pendingCompletionContexts v } := by
  cases v with
  | scheduleNexusOperation seq endpoint service operation input =>
    cases input with
    | payload =>
      change r.setPending .nexusOperation seq _ = _
      simp only [setPending]
      congr 1
      funext table n
      cases table <;>
        simp [put, setAt, CommandVariant.schedules, CommandVariant.isEnvelope, Table.kind,
          scheduledEntry, variantContext, nexusOperationContext, isSystemNexus, eq_comm]
    | systemEnvelope context =>
      rw [put_of_not (.inr rfl)]
      rfl
  | scheduleActivity | scheduleLocalActivity | startChildWorkflowExecution
  | signalExternalWorkflowExecution | requestCancelExternalWorkflowExecution =>
    simp only [rememberCommand, setPending]
    congr 1
    funext table n
    cases table <;>
      simp [put, setAt, CommandVariant.schedules, CommandVariant.isEnvelope, Table.kind,
        scheduledEntry, variantContext, eq_comm]
  | _ =>
    rw [put_of_not (.inl rfl)]
    rfl

theorem Runner.rememberSystemInput_eq (r : Runner) (v : CommandVariant) :
    r.rememberSystemInput v =
      { r with
        pendingCompletionContexts :=
          r.put CommandVariant.isEnvelope r.pendingCompletionContexts v } := by
  cases v with
  | scheduleNexusOperation seq endpoint service operation input =>
    cases input with
    | payload =>
      rw [put_of_not (.inr rfl)]
      rfl
    | systemEnvelope context =>
      simp only [rememberSystemInput, setPending]
      congr 1
      funext table n
      cases table <;>
        simp [put, setAt, CommandVariant.schedules, CommandVariant.isEnvelope, Table.kind,
          scheduledEntry, eq_comm]
  | _ =>
    rw [put_of_not (.inr rfl)]
    rfl

section Encoding

variable {P : Type} {r : Runner}

theorem Runner.foldl_put (p : CommandVariant → Bool) (commands : List (Command P)) (r : Runner) :
    commands.foldl (fun r command =>
        { r with pendingCompletionContexts :=
            r.put p r.pendingCompletionContexts command.variant }) r =
      { r with
        pendingCompletionContexts :=
          commands.foldl (fun tables command => r.put p tables command.variant)
            r.pendingCompletionContexts } := by
  induction commands generalizing r with
  | nil => rfl
  | cons command commands ih =>
    simp only [List.foldl_cons]
    rw [ih]
    rfl

theorem Runner.put_comm {p q : CommandVariant → Bool} {v w : CommandVariant}
    (h : v.schedules = none ∨ w.schedules ≠ v.schedules) :
    r.put p (r.put q tables v) w = r.put q (r.put p tables w) v := by
  funext table seq
  simp only [put]
  by_cases hv : v.schedules = some (table.kind, seq) ∧ q v
  · have hw : ¬ (w.schedules = some (table.kind, seq) ∧ p w) := by
      intro hw
      rcases h with h | h
      · simp [h] at hv
      · exact h (hw.1.trans hv.1.symm)
    simp [hv, hw]
  · simp [hv]

variable {commands : List (Command P)}

theorem Runner.foldl_put_comm {p q : CommandVariant → Bool}
    (h : v.schedules = none ∨ ∀ command ∈ commands, command.variant.schedules ≠ v.schedules) :
    ∀ {tables : Table → Nat → Option PendingContext},
      commands.foldl (fun tables command => r.put p tables command.variant) (r.put q tables v) =
        r.put q (commands.foldl (fun tables command => r.put p tables command.variant) tables) v := by
  induction commands with
  | nil => simp
  | cons command commands ih =>
    intro tables
    have hhead : v.schedules = none ∨ command.variant.schedules ≠ v.schedules :=
      h.imp id fun h => h command List.mem_cons_self
    have htail : v.schedules = none ∨ ∀ c ∈ commands, c.variant.schedules ≠ v.schedules :=
      h.imp id fun h c hc => h c (List.mem_cons_of_mem _ hc)
    simp only [List.foldl_cons]
    rw [put_comm hhead, ih htail]

variable {k : OperationKind}

/-- An operation that is known to core is not scheduled again. -/
theorem Core.not_scheduled_again {seq : Nat} :
    ∀ {core core' : Core}, core.scheduleAll commands = some core' →
      core.status k seq ≠ .unscheduled →
      ∀ command ∈ commands, command.variant.schedules ≠ some (k, seq) := by
  induction commands with
  | nil => simp
  | cons command commands ih =>
    intro core core' h hknown
    rcases Option.bind_eq_some_iff.1 h with ⟨next, hnext, hrest⟩
    have hhead : command.variant.schedules ≠ some (k, seq) := by
      intro hop
      simp [schedule, hop, hknown] at hnext
    have hknown' : next.status k seq ≠ .unscheduled := by
      cases hop : command.variant.schedules with
      | none =>
        simp only [schedule, hop, Option.some.injEq] at hnext
        rwa [← hnext]
      | some op =>
        have hne : ¬ (k = op.1 ∧ seq = op.2) := by
          rintro ⟨rfl, rfl⟩
          exact hhead hop
        simp only [schedule, hop] at hnext
        split at hnext
        · cases hnext
          simpa [setStatus, setAt_of_ne hne] using hknown
        · cases hnext
    intro c hc
    rcases List.mem_cons.1 hc with rfl | hc
    · exact hhead
    · exact ih hrest hknown' c hc

theorem Runner.put_all (tables : Table → Nat → Option PendingContext) (v : CommandVariant) :
    r.put CommandVariant.isEnvelope (r.put (fun v => !v.isEnvelope) tables v) v =
      r.put (fun _ => true) tables v := by
  funext table seq
  cases h : v.isEnvelope <;> simp [put, h]

/-- The visit and the loop over the system inputs together put every entry once. -/
theorem Runner.put_passes :
    ∀ {core core' : Core} {tables : Table → Nat → Option PendingContext},
      core.scheduleAll commands = some core' →
      commands.foldl (fun tables command => r.put CommandVariant.isEnvelope tables command.variant)
        (commands.foldl
          (fun tables command => r.put (fun v => !v.isEnvelope) tables command.variant) tables) =
        commands.foldl (fun tables command => r.put (fun _ => true) tables command.variant)
          tables := by
  induction commands with
  | nil => simp
  | cons command commands ih =>
    intro core core' tables h
    rcases Option.bind_eq_some_iff.1 h with ⟨next, hnext, hrest⟩
    have hothers : command.variant.schedules = none ∨
        ∀ c ∈ commands, c.variant.schedules ≠ command.variant.schedules := by
      cases hop : command.variant.schedules with
      | none => exact .inl rfl
      | some op =>
        refine .inr (Core.not_scheduled_again hrest ?_)
        simp only [Core.schedule, hop] at hnext
        split at hnext
        · cases hnext
          simp [Core.setStatus]
        · cases hnext
    simp only [List.foldl_cons]
    rw [← foldl_put_comm hothers, put_all]
    exact ih hrest

variable {core core' : Core}

theorem Runner.encodeCompletion_spec {r' : Runner} {encoded : List (Command (Coded P))}
    (h : r.encodeCompletion commands = some (r', encoded))
    (hs : core.scheduleAll commands = some core') :
    encoded = commands.map r.encodeCommand ∧
      r' = { r with
        pendingCompletionContexts :=
          commands.foldl (fun tables command => r.put (fun _ => true) tables command.variant)
            r.pendingCompletionContexts } := by
  simp only [encodeCompletion, rememberCommand_eq, rememberSystemInput_eq] at h
  split at h
  · simp only [Option.some.injEq, Prod.mk.injEq] at h
    rcases h with ⟨hr, hencoded⟩
    refine ⟨hencoded.symm, ?_⟩
    rw [← hr, foldl_put, foldl_put, ← put_passes hs]
    rfl
  · cases h

theorem Core.schedule_cases (h : core.schedule v = some core') :
    (v.schedules = none ∧ core' = core) ∨
      ∃ k seq, v.schedules = some (k, seq) ∧ core.status k seq = .unscheduled ∧
        core' = core.setStatus k seq .scheduled := by
  unfold schedule at h
  split at h
  · rename_i hop
    cases h
    exact .inl ⟨hop, rfl⟩
  · rename_i k seq hop
    split at h
    · rename_i hnew
      cases h
      exact .inr ⟨k, seq, hop, hnew, rfl⟩
    · cases h

variable {registered : OperationKind → Nat → Option PendingContext}

theorem tracks_schedule (h : core.schedule v = some core') (ht : Tracks [] tables core registered) :
    Tracks [] (r.put (fun _ => true) tables v) core' (Exchange.registerCommand r registered v) := by
  intro table seq
  rcases Core.schedule_cases h with ⟨hop, rfl⟩ | ⟨k, n, hop, hnew, rfl⟩
  · simpa [Runner.put, Exchange.registerCommand, hop] using ht table seq
  · by_cases heq : table.kind = k ∧ seq = n
    · rcases heq with ⟨rfl, rfl⟩
      simp [Runner.put, Exchange.registerCommand, hop, Core.setStatus, Table.holds]
    · have hne : ¬ (k = table.kind ∧ n = seq) := fun h => heq ⟨h.1.symm, h.2.symm⟩
      simpa [Runner.put, Exchange.registerCommand, hop, Core.setStatus, setAt_of_ne heq, hne]
        using ht table seq

theorem Runner.scheduledEntry_isSystem {seq : Nat}
    (hop : v.schedules = some (k, seq)) (h : (r.scheduledEntry v).isSystem) :
    k = .nexusOperation := by
  cases v with
  | scheduleNexusOperation => simpa [CommandVariant.schedules, eq_comm] using congrArg (·.map Prod.fst) hop
  | _ => simp [scheduledEntry, PendingContext.isSystem] at h

theorem known_schedule (h : core.schedule v = some core') (hk : Known core registered) :
    Known core' (Exchange.registerCommand r registered v) := by
  rcases Core.schedule_cases h with ⟨hop, rfl⟩ | ⟨k', n, hop, hnew, rfl⟩
  · simpa [Exchange.registerCommand, hop] using hk
  · constructor
    · intro k seq
      by_cases heq : k = k' ∧ seq = n
      · rcases heq with ⟨rfl, rfl⟩
        simp [Exchange.registerCommand, hop, Core.setStatus]
      · simpa [Exchange.registerCommand, hop, Core.setStatus, setAt_of_ne heq]
          using hk.isSome_iff k seq
    · intro k seq entry he hsystem
      by_cases heq : k = k' ∧ seq = n
      · rcases heq with ⟨rfl, rfl⟩
        simp only [Exchange.registerCommand, hop, setAt_same, Option.some.injEq] at he
        cases he
        exact Runner.scheduledEntry_isSystem hop hsystem
      · simp only [Exchange.registerCommand, hop, setAt_of_ne heq] at he
        exact hk.ordinary k seq entry he hsystem

theorem registered_schedule {seq : Nat} {entry : PendingContext}
    (h : core.schedule v = some core') (hk : Known core registered)
    (he : registered k seq = some entry) :
    Exchange.registerCommand r registered v k seq = some entry := by
  rcases Core.schedule_cases h with ⟨hop, rfl⟩ | ⟨k', n, hop, hnew, rfl⟩
  · simpa [Exchange.registerCommand, hop] using he
  · have hne : ¬ (k = k' ∧ seq = n) := by
      rintro ⟨rfl, rfl⟩
      exact (hk.isSome_iff k seq).2 (by simp [he]) hnew
    simpa [Exchange.registerCommand, hop, setAt_of_ne hne] using he

theorem tracks_scheduleAll :
    ∀ {core core' : Core} {tables : Table → Nat → Option PendingContext}
      {registered : OperationKind → Nat → Option PendingContext},
      core.scheduleAll commands = some core' → Tracks [] tables core registered →
      Tracks []
        (commands.foldl (fun tables command => r.put (fun _ => true) tables command.variant) tables)
        core' (Exchange.register r registered commands) := by
  induction commands with
  | nil =>
    intro core core' tables registered h ht
    cases h
    exact ht
  | cons command commands ih =>
    intro core core' tables registered h ht
    rcases Option.bind_eq_some_iff.1 h with ⟨next, hnext, hrest⟩
    exact ih hrest (tracks_schedule hnext ht)

theorem known_scheduleAll :
    ∀ {core core' : Core} {registered : OperationKind → Nat → Option PendingContext},
      core.scheduleAll commands = some core' → Known core registered →
      Known core' (Exchange.register r registered commands) ∧
        ∀ k seq entry, registered k seq = some entry →
          Exchange.register r registered commands k seq = some entry := by
  induction commands with
  | nil =>
    intro core core' registered h hk
    cases h
    exact ⟨hk, fun _ _ _ he => he⟩
  | cons command commands ih =>
    intro core core' registered h hk
    rcases Option.bind_eq_some_iff.1 h with ⟨next, hnext, hrest⟩
    rcases ih hrest (known_schedule hnext hk) with ⟨hk', hkeep⟩
    exact ⟨hk', fun k seq entry he =>
      hkeep k seq entry (registered_schedule hnext hk he)⟩

theorem Core.scheduleAll_append {commands new : List (Command P)} :
    ∀ {core : Core}, core.scheduleAll (commands ++ new) =
      (core.scheduleAll commands).bind (·.scheduleAll new) := by
  induction commands with
  | nil => simp [scheduleAll]
  | cons command commands ih =>
    intro core
    simp [scheduleAll, ih, Option.bind_assoc]

end Encoding

end TemporalSdk.Codec
