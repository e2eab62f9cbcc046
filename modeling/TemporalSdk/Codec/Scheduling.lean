import TemporalSdk.Codec.Isolate
import TemporalSdk.Codec.Lifecycle

/-!
# Scheduling — the isolate and the runner agree on the commands

The isolate and the runner derive the context of a payload on their own.  What they have to agree on is
the `ledger`: the entries that the runner has registered, and those that it will register for the commands
that the isolate has pushed since.  Every call of the workflow keeps the agreement, if it gives the
operation that it schedules a name that the runner can see (`Api.Named`).
-/

namespace TemporalSdk.Codec

open Machine

variable {V : Type} {r : Runner} {registered : OperationKind → Nat → Option PendingContext}

/-! ## What agreement is -/

/-- The codecs ran with the context that the converter was given, or they did not run: they skip the
headers inside of an envelope when they skip headers. -/
def Pass.AgreesIn (field : Field) (converter codec : Pass) : Prop :=
  ∀ context, converter = .ran context → codec = .ran context ∨
    field = .nestedHeaders ∧ codec = .skipped

/-- Agreement on a payload of a command. -/
def CommandAgrees (command : Command (Coded (Converted V))) : Prop :=
  ∀ f p, (f, p) ∈ command.payloads → p.payload.converter.AgreesIn f p.codec

/-- Agreement on a payload of a job. -/
def Conversion.Agrees (c : Conversion V) : Prop :=
  (Pass.ran c.context).AgreesIn c.field c.payload.codec

/-! ## The isolate and the ledger -/

/-- The entries of all the operations that the isolate has pushed commands for. -/
def Isolate.ledger (r : Runner) (registered : OperationKind → Nat → Option PendingContext)
    (s : Isolate V) : OperationKind → Nat → Option PendingContext :=
  Exchange.register r registered s.commands

structure Isolate.Inv (r : Runner) (registered : OperationKind → Nat → Option PendingContext)
    (s : Isolate V) : Prop where
  ns : s.ns = r.ns
  workflowId : s.workflowId = r.workflowId
  ledger_lt : ∀ k seq, (s.ledger r registered k seq).isSome → seq < s.nextSeqs k
  completion_lt : ∀ k seq, (s.completions k seq).isSome → seq < s.nextSeqs k.kind
  completion : ∀ k seq context entry, s.completions k seq = some context →
    s.ledger r registered k.kind seq = some entry → context = some entry.context
  systemNexus : ∀ seq systemNexus, s.systemNexusOperationContexts seq = some systemNexus →
    Runner.operationDefinition systemNexus.service systemNexus.operation ∧
    ∃ entry, s.ledger r registered .nexusOperation seq = some entry ∧ entry.isSystem ∧
      systemNexus.context = some entry.context
  systemNexus_of_entry : ∀ k seq entry, k.kind = .nexusOperation → (s.completions k seq).isSome →
    s.ledger r registered .nexusOperation seq = some entry → entry.isSystem →
    (s.systemNexusOperationContexts seq).isSome
  nexusCompletion : ∀ seq, s.completions .nexusOperationStart seq = none ∨
    s.completions .nexusOperationComplete seq = none
  unregistered : ∀ command ∈ s.commands, ∀ k seq,
    command.variant.schedules = some (k, seq) → registered k seq = none
  nodup : (s.commands.filterMap fun command => command.variant.schedules).Nodup
  accepted : ∀ command ∈ s.commands, Runner.acceptsInput command.variant
  agrees : ∀ command ∈ s.commands, CommandAgrees (r.encodeCommand command)

variable {seq : Nat}

theorem register_isSome_iff {P : Type} {k : OperationKind} (commands : List (Command P)) :
    ∀ registered : OperationKind → Nat → Option PendingContext,
      (Exchange.register r registered commands k seq).isSome ↔
        (registered k seq).isSome ∨
          ∃ command ∈ commands, command.variant.schedules = some (k, seq) := by
  induction commands with
  | nil => simp [Exchange.register]
  | cons command commands ih =>
    intro registered
    have hhead : (Exchange.registerCommand r registered command.variant k seq).isSome ↔
        (registered k seq).isSome ∨ command.variant.schedules = some (k, seq) := by
      unfold Exchange.registerCommand
      cases hop : command.variant.schedules with
      | none => simp
      | some op =>
        by_cases heq : k = op.1 ∧ seq = op.2
        · rcases heq with ⟨rfl, rfl⟩
          simp
        · have hne : ¬ op = (k, seq) := by
            rintro rfl
            exact heq ⟨rfl, rfl⟩
          simp [setAt_of_ne heq, hne]
    have htail := ih (Exchange.registerCommand r registered command.variant)
    rw [hhead] at htail
    simpa [Exchange.register, or_assoc] using htail

namespace Isolate

variable {command : Command (Converted V)}

/-- Push a command that schedules nothing. -/
theorem inv_pushCommand {s : Isolate V} (h : s.Inv r registered)
    (hop : command.variant.schedules = none) (hagrees : CommandAgrees (r.encodeCommand command)) :
    (s.pushCommand command).Inv r registered := by
  have hledger : (s.pushCommand command).ledger r registered = s.ledger r registered := by
    simp [ledger, pushCommand, Exchange.register, Exchange.registerCommand, hop]
  have haccepts : Runner.acceptsInput command.variant := by
    cases hv : command.variant <;> simp_all [Runner.acceptsInput, CommandVariant.schedules]
  constructor
  case ns => exact h.ns
  case workflowId => exact h.workflowId
  case ledger_lt =>
    rw [hledger]
    exact h.ledger_lt
  case completion_lt => exact h.completion_lt
  case completion =>
    rw [hledger]
    exact h.completion
  case systemNexus =>
    rw [hledger]
    exact h.systemNexus
  case systemNexus_of_entry =>
    rw [hledger]
    exact h.systemNexus_of_entry
  case nexusCompletion => exact h.nexusCompletion
  case unregistered =>
    intro c hc k seq hschedules
    rcases List.mem_append.1 hc with hc | hc
    · exact h.unregistered c hc k seq hschedules
    · simp_all
  case nodup => simpa [pushCommand, List.filterMap_append, hop] using h.nodup
  case accepted =>
    intro c hc
    rcases List.mem_append.1 hc with hc | hc
    · exact h.accepted c hc
    · simp_all
  case agrees =>
    intro c hc
    rcases List.mem_append.1 hc with hc | hc
    · exact h.agrees c hc
    · simp_all

theorem inv_takeSeq {s : Isolate V} (h : s.Inv r registered) (k : OperationKind) :
    (s.takeSeq k).Inv r registered := by
  have hle : ∀ k', s.nextSeqs k' ≤ (s.takeSeq k).nextSeqs k' := by
    intro k'
    simp only [takeSeq]
    split
    · rename_i heq
      subst heq
      omega
    · exact Nat.le_refl _
  exact { h with
    ledger_lt := fun k' seq hsome => Nat.lt_of_lt_of_le (h.ledger_lt k' seq hsome) (hle k')
    completion_lt := fun k' seq hsome =>
      Nat.lt_of_lt_of_le (h.completion_lt k' seq hsome) (hle k'.kind) }

theorem Inv.ledger_next {s : Isolate V} (h : s.Inv r registered) (k : OperationKind) :
    s.ledger r registered k (s.nextSeqs k) = none := by
  cases hsome : s.ledger r registered k (s.nextSeqs k) with
  | none => rfl
  | some entry => exact absurd (h.ledger_lt k (s.nextSeqs k) (by simp [hsome])) (Nat.lt_irrefl _)

theorem Inv.completion_next {s : Isolate V} (h : s.Inv r registered) (k : CompletionKind) :
    s.completions k (s.nextSeqs k.kind) = none := by
  cases hsome : s.completions k (s.nextSeqs k.kind) with
  | none => rfl
  | some context =>
    exact absurd (h.completion_lt k (s.nextSeqs k.kind) (by simp [hsome])) (Nat.lt_irrefl _)

/-- Push a command that schedules the next operation of its kind. -/
theorem inv_pushScheduling {s : Isolate V} {k : OperationKind}
    (h : s.Inv r registered) (hop : command.variant.schedules = some (k, s.nextSeqs k))
    (haccepts : Runner.acceptsInput command.variant)
    (hagrees : CommandAgrees (r.encodeCommand command)) :
    ((s.takeSeq k).pushCommand command).Inv r registered ∧
      ((s.takeSeq k).pushCommand command).ledger r registered k (s.nextSeqs k) =
        some (r.scheduledEntry command.variant) := by
  have hledger : ((s.takeSeq k).pushCommand command).ledger r registered =
      setAt (s.ledger r registered) k (s.nextSeqs k) (some (r.scheduledEntry command.variant)) := by
    simp [ledger, pushCommand, takeSeq, Exchange.register, Exchange.registerCommand, hop]
  have hnew : ∀ c ∈ s.commands, c.variant.schedules ≠ some (k, s.nextSeqs k) := by
    intro c hc hschedules
    have hsome := (register_isSome_iff (r := r) s.commands registered).2
      (.inr ⟨c, hc, hschedules⟩)
    have hlt := h.ledger_lt k _ hsome
    omega
  have hnext := inv_takeSeq h k
  refine ⟨?_, by rw [hledger, setAt_same]⟩
  constructor
  case ns => exact h.ns
  case workflowId => exact h.workflowId
  case ledger_lt =>
    intro k' seq hsome
    rw [hledger] at hsome
    by_cases heq : k' = k ∧ seq = s.nextSeqs k
    · rcases heq with ⟨rfl, rfl⟩
      simp [pushCommand, takeSeq]
    · rw [setAt_of_ne heq] at hsome
      exact hnext.ledger_lt k' seq hsome
  case completion_lt => exact hnext.completion_lt
  case completion =>
    intro k' seq context entry hcompletion hentry
    have hne : ¬ (k'.kind = k ∧ seq = s.nextSeqs k) := by
      rintro ⟨rfl, rfl⟩
      cases (h.completion_next k').symm.trans hcompletion
    rw [hledger, setAt_of_ne hne] at hentry
    exact h.completion k' seq context entry hcompletion hentry
  case systemNexus =>
    intro seq systemNexus hsystem
    rcases h.systemNexus seq systemNexus hsystem with ⟨hdefined, entry, hentry, hrest⟩
    have hne : ¬ (OperationKind.nexusOperation = k ∧ seq = s.nextSeqs k) := by
      rintro ⟨rfl, rfl⟩
      cases (h.ledger_next _).symm.trans hentry
    refine ⟨hdefined, entry, ?_, hrest⟩
    rw [hledger, setAt_of_ne hne]
    exact hentry
  case systemNexus_of_entry =>
    intro k' seq entry hkind hsome hentry
    have hne : ¬ (OperationKind.nexusOperation = k ∧ seq = s.nextSeqs k) := by
      rintro ⟨rfl, rfl⟩
      rw [← hkind] at hsome
      have hsome' : (s.completions k' (s.nextSeqs k'.kind)).isSome := hsome
      simp [h.completion_next k'] at hsome'
    rw [hledger, setAt_of_ne hne] at hentry
    exact h.systemNexus_of_entry k' seq entry hkind hsome hentry
  case nexusCompletion => exact h.nexusCompletion
  case unregistered =>
    intro c hc k' seq hschedules
    rcases List.mem_append.1 hc with hc | hc
    · exact h.unregistered c hc k' seq hschedules
    · cases List.mem_singleton.1 hc
      cases hop.symm.trans hschedules
      cases hsome : registered k (s.nextSeqs k) with
      | none => rfl
      | some entry =>
        have hledgerSome := (register_isSome_iff (r := r) s.commands registered).2
          (.inl (by simp [hsome] : (registered k (s.nextSeqs k)).isSome))
        exact absurd (h.ledger_lt k _ hledgerSome) (by omega)
  case nodup =>
    have hnodup := h.nodup
    simp only [pushCommand, takeSeq, List.filterMap_append, List.filterMap_cons, hop,
      List.filterMap_nil]
    refine List.nodup_append.2 ⟨hnodup, by simp, ?_⟩
    intro op hmem op' hmem' heq
    rcases List.mem_filterMap.1 hmem with ⟨c, hc, hschedules⟩
    cases List.mem_singleton.1 hmem'
    exact hnew c hc (hschedules.trans (by rw [heq]))
  case accepted =>
    intro c hc
    rcases List.mem_append.1 hc with hc | hc
    · exact h.accepted c hc
    · simp_all
  case agrees =>
    intro c hc
    rcases List.mem_append.1 hc with hc | hc
    · exact h.agrees c hc
    · simp_all

/-- Register a completion with the context of its operation. -/
theorem inv_setCompletion {s : Isolate V} {k : CompletionKind}
    {context : Option SerializationContext} (h : s.Inv r registered) (hlt : seq < s.nextSeqs k.kind)
    (hcontext : ∀ entry, s.ledger r registered k.kind seq = some entry →
      context = some entry.context) (hsystem : ∀ entry, k.kind = .nexusOperation →
      s.ledger r registered .nexusOperation seq = some entry → entry.isSystem →
      (s.systemNexusOperationContexts seq).isSome)
    (hother : ∀ k', k.kind = .nexusOperation → k'.kind = .nexusOperation → k' ≠ k →
      s.completions k' seq = none) :
    (s.setCompletion k seq (some context)).Inv r registered := by
  refine
    { h with
      completion_lt := ?_
      completion := ?_
      systemNexus_of_entry := ?_
      nexusCompletion := ?_ }
  · intro k' seq' hsome
    by_cases heq : k' = k ∧ seq' = seq
    · rcases heq with ⟨rfl, rfl⟩
      exact hlt
    · simp only [setCompletion, setAt_of_ne heq] at hsome
      exact h.completion_lt k' seq' hsome
  · intro k' seq' context' entry hcompletion hentry
    by_cases heq : k' = k ∧ seq' = seq
    · rcases heq with ⟨rfl, rfl⟩
      simp only [setCompletion, setAt_same, Option.some.injEq] at hcompletion
      rw [← hcompletion]
      exact hcontext entry hentry
    · simp only [setCompletion, setAt_of_ne heq] at hcompletion
      exact h.completion k' seq' context' entry hcompletion hentry
  · intro k' seq' entry hkind hsome hentry hsys
    by_cases heq : k' = k ∧ seq' = seq
    · rcases heq with ⟨rfl, rfl⟩
      exact hsystem entry hkind hentry hsys
    · simp only [setCompletion, setAt_of_ne heq] at hsome
      exact h.systemNexus_of_entry k' seq' entry hkind hsome hentry hsys
  · intro seq'
    by_cases hnexus : k.kind = .nexusOperation ∧ seq' = seq
    · rcases hnexus with ⟨hkind, rfl⟩
      cases k <;> cases hkind
      · exact .inr (hother .nexusOperationComplete rfl rfl (by simp))
      · exact .inl (hother .nexusOperationStart rfl rfl (by simp))
    · have hsame : ∀ k' : CompletionKind, k'.kind = .nexusOperation →
          (s.setCompletion k seq (some context)).completions k' seq' = s.completions k' seq' := by
        intro k' hkind
        refine setAt_of_ne ?_
        rintro ⟨rfl, rfl⟩
        exact hnexus ⟨hkind, rfl⟩
      rw [hsame _ rfl, hsame _ rfl]
      exact h.nexusCompletion seq'

/-- Drop a completion. -/
theorem inv_clearCompletion {s : Isolate V} {k : CompletionKind}
    (h : s.Inv r registered) : (s.setCompletion k seq none).Inv r registered := by
  have hsome : ∀ {k' : CompletionKind} {seq' : Nat} {context : Option SerializationContext},
      (s.setCompletion k seq none).completions k' seq' = some context →
      s.completions k' seq' = some context := by
    intro k' seq' context hcompletion
    by_cases heq : k' = k ∧ seq' = seq
    · rcases heq with ⟨rfl, rfl⟩
      simp [setCompletion] at hcompletion
    · simpa [setCompletion, setAt_of_ne heq] using hcompletion
  have hisSome : ∀ {k' : CompletionKind} {seq' : Nat},
      ((s.setCompletion k seq none).completions k' seq').isSome → (s.completions k' seq').isSome := by
    intro k' seq' h'
    rcases Option.isSome_iff_exists.1 h' with ⟨context, hcontext⟩
    simp [hsome hcontext]
  have hnone : ∀ {k' : CompletionKind} {seq' : Nat}, s.completions k' seq' = none →
      (s.setCompletion k seq none).completions k' seq' = none := by
    intro k' seq' h'
    refine Option.eq_none_iff_forall_ne_some.2 fun context hcontext => ?_
    cases h'.symm.trans (hsome hcontext)
  exact
    { h with
      completion_lt := fun k' seq' h' => h.completion_lt k' seq' (hisSome h')
      completion := fun k' seq' context entry h' => h.completion k' seq' context entry (hsome h')
      systemNexus_of_entry := fun k' seq' entry hkind h' =>
        h.systemNexus_of_entry k' seq' entry hkind (hisSome h')
      nexusCompletion := fun seq' => (h.nexusCompletion seq').imp hnone hnone }

/-- Register the context of a System Nexus operation. -/
theorem inv_setSystemNexus {s : Isolate V} (systemNexus : SystemNexus)
    {entry : PendingContext} (h : s.Inv r registered)
    (hdefined : Runner.operationDefinition systemNexus.service systemNexus.operation)
    (hentry : s.ledger r registered .nexusOperation seq = some entry) (hsystem : entry.isSystem)
    (hcontext : systemNexus.context = some entry.context) :
    (s.setSystemNexus seq (some systemNexus)).Inv r registered := by
  refine
    { h with
      systemNexus := ?_
      systemNexus_of_entry := ?_ }
  · intro seq' systemNexus' hsome
    by_cases heq : seq' = seq
    · subst heq
      simp only [setSystemNexus, if_true, Option.some.injEq] at hsome
      subst hsome
      exact ⟨hdefined, entry, hentry, hsystem, hcontext⟩
    · simp only [setSystemNexus, heq, if_false] at hsome
      exact h.systemNexus seq' systemNexus' hsome
  · intro k seq' entry' hkind hcompletion hentry' hsystem'
    by_cases heq : seq' = seq
    · simp [setSystemNexus, heq]
    · simp only [setSystemNexus, heq, if_false]
      exact h.systemNexus_of_entry k seq' entry' hkind hcompletion hentry' hsystem'

theorem inv_clearSystemNexus {s : Isolate V} (h : s.Inv r registered)
    (hresolved : ∀ k : CompletionKind, k.kind = .nexusOperation → s.completions k seq = none) :
    (s.setSystemNexus seq none).Inv r registered := by
  refine
    { h with
      systemNexus := ?_
      systemNexus_of_entry := ?_ }
  · intro seq' systemNexus' hsome
    by_cases heq : seq' = seq
    · simp [setSystemNexus, heq] at hsome
    · simp only [setSystemNexus, heq, if_false] at hsome
      exact h.systemNexus seq' systemNexus' hsome
  · intro k seq' entry' hkind hcompletion hentry' hsystem'
    by_cases heq : seq' = seq
    · subst heq
      have hcompletion : (s.completions k seq').isSome := hcompletion
      simp [hresolved k hkind] at hcompletion
    · simp only [setSystemNexus, heq, if_false]
      exact h.systemNexus_of_entry k seq' entry' hkind hcompletion hentry' hsystem'

/-- Schedule an operation that is not a System Nexus operation. -/
theorem inv_scheduleOperation {s : Isolate V} (k : CompletionKind)
    {context : SerializationContext} (h : s.Inv r registered)
    (hop : command.variant.schedules = some (k.kind, s.nextSeqs k.kind))
    (haccepts : Runner.acceptsInput command.variant)
    (hagrees : CommandAgrees (r.encodeCommand command))
    (hentry : r.scheduledEntry command.variant = ⟨.ordinary, context⟩) :
    (((s.takeSeq k.kind).pushCommand command).setCompletion k (s.nextSeqs k.kind)
      (some (some context))).Inv r registered := by
  rcases inv_pushScheduling h hop haccepts hagrees with ⟨hpush, hledger⟩
  rw [hentry] at hledger
  refine inv_setCompletion hpush (by simp [pushCommand, takeSeq]) ?_ ?_ ?_
  · intro entry he
    cases hledger.symm.trans he
    rfl
  · intro entry hkind he hsystem
    rw [← hkind] at he
    cases hledger.symm.trans he
    simp [PendingContext.isSystem] at hsystem
  · intro k' hkind hkind' _
    have hnext := h.completion_next k'
    rw [hkind', ← hkind] at hnext
    exact hnext

end Isolate

/-! ## The payloads of a command -/

/-- Agreement on the payloads of a command that the isolate pushes. -/
def PayloadsAgree (r : Runner) (v : CommandVariant) (payloads : List (Field × Converted V)) : Prop :=
  ∀ f p, (f, p) ∈ payloads → p.converter.AgreesIn f (r.commandPass v f)

variable {v : CommandVariant}

theorem PayloadsAgree.encodeCommand {payloads : List (Field × Converted V)}
    (h : PayloadsAgree r v payloads) : CommandAgrees (r.encodeCommand ⟨v, payloads⟩) := by
  intro f p hp
  rcases Message.mem_visit hp with ⟨hcodec, hmem⟩
  rw [hcodec]
  exact h f p.payload hmem

@[simp] theorem payloadsAgree_nil (v : CommandVariant) :
    PayloadsAgree r v ([] : List (Field × Converted V)) := by
  simp [PayloadsAgree]

@[simp] theorem payloadsAgree_append (v : CommandVariant) (ps qs : List (Field × Converted V)) :
    PayloadsAgree r v (ps ++ qs) ↔ PayloadsAgree r v ps ∧ PayloadsAgree r v qs := by
  simp only [PayloadsAgree, List.mem_append]
  constructor
  · intro h
    exact ⟨fun f p hp => h f p (.inl hp), fun f p hp => h f p (.inr hp)⟩
  · rintro ⟨hps, hqs⟩ f p (hp | hp)
    · exact hps f p hp
    · exact hqs f p hp

@[simp] theorem payloadsAgree_otherPayloads (v : CommandVariant) (f : Field) (values : List V) :
    PayloadsAgree r v (otherPayloads f values) := by
  intro g p hp context hran
  rcases List.mem_map.1 hp with ⟨value, _, heq⟩
  cases heq
  cases hran

theorem payloadsAgree_toPayloads {f : Field} {context : SerializationContext}
    {values : List V} (h : r.commandPass v f = .ran context ∨
      f = .nestedHeaders ∧ r.commandPass v f = .skipped) :
    PayloadsAgree r v (toPayloads f context values) := by
  intro g p hp context' hran
  rcases List.mem_map.1 hp with ⟨value, _, heq⟩
  cases heq
  cases hran
  exact h

theorem payloadsAgree_ran {f : Field} {context context' : SerializationContext} {values : List V}
    (h : context = context') (hpass : r.commandPass v f = .ran context) :
    PayloadsAgree r v (toPayloads f context' values) :=
  payloadsAgree_toPayloads (.inl (h ▸ hpass))

/-! ## Calls -/

/-- The call gives each operation that it schedules a name that the runner sees: an activity id that is
not empty, if there is one, and the operation of a Nexus service. -/
def Api.Named : Api V → Prop
  | .scheduleActivity activityId _ _ _ _ _ => activityId ≠ some ""
  | .startOperation endpoint _ operation _ _ _ _ =>
    endpoint = Isolate.temporalSystemNexusEndpoint ∨ operation ≠ none
  | _ => True

namespace Isolate

section Contexts

variable {s : Isolate V}

theorem Inv.workflowContext (h : s.Inv r registered) :
    r.workflowContext = s.workflowSerializationContext := by
  simp [workflowSerializationContext, Runner.workflowContext, h.ns, h.workflowId]

theorem Inv.activityContext (h : s.Inv r registered) {activityId : String} (hid : activityId ≠ "")
    (isLocal : Bool) :
    r.activityContext activityId isLocal = s.activitySerializationContext activityId isLocal := by
  simp [Runner.activityContext, activitySerializationContext, hid, h.ns, h.workflowId]

theorem Inv.targetContext (h : s.Inv r registered) (workflowId : String) :
    .workflow (r.namespaceOr s.ns) workflowId = s.targetWorkflowSerializationContext workflowId := by
  simp only [Runner.namespaceOr, targetWorkflowSerializationContext, h.ns]
  split <;> simp_all

theorem Inv.childTargetContext (h : s.Inv r registered) (workflowId : String) :
    .workflow r.ns workflowId = s.targetWorkflowSerializationContext workflowId := by
  simp [targetWorkflowSerializationContext, h.ns]

end Contexts

theorem inv_scheduleWith {s : Isolate V}
    {payloads : List (Field × Converted V)} (k : CompletionKind) {context : SerializationContext}
    (h : s.Inv r registered) (hop : v.schedules = some (k.kind, s.nextSeqs k.kind))
    (haccepts : Runner.acceptsInput v) (hagrees : PayloadsAgree r v payloads)
    (hentry : r.scheduledEntry v = ⟨.ordinary, context⟩) :
    (((s.takeSeq k.kind).pushCommand ⟨v, payloads⟩).setCompletion k (s.nextSeqs k.kind)
      (some (some context))).Inv r registered :=
  inv_scheduleOperation k h hop haccepts hagrees.encodeCommand hentry

theorem inv_scheduleActivity {s : Isolate V} {activityId : Option String}
    {args headers summary groups : List V} (h : s.Inv r registered)
    (hnamed : activityId ≠ some "") :
    ((s.takeSeq .activity).scheduleActivityNextHandler (s.nextSeqs .activity) activityId args headers
      summary groups).Inv r registered := by
  have hid : activityId.getD (toString (s.nextSeqs .activity)) ≠ "" := by
    cases activityId with
    | none => exact Nat.repr_ne_empty
    | some activityId => simpa using hnamed
  have hcontext := h.activityContext hid false
  refine inv_scheduleWith .activity h rfl rfl ?_ (congrArg (PendingContext.mk .ordinary) hcontext)
  simp only [payloadsAgree_append, payloadsAgree_otherPayloads, and_true]
  exact ⟨payloadsAgree_ran hcontext rfl, payloadsAgree_ran hcontext rfl⟩

theorem inv_scheduleLocalActivity {s : Isolate V} {args headers summary groups : List V}
    (h : s.Inv r registered) :
    ((s.takeSeq .activity).scheduleLocalActivityNextHandler (s.nextSeqs .activity) args headers
      summary groups).Inv r registered := by
  have hid : toString (s.nextSeqs .activity) ≠ "" := Nat.repr_ne_empty
  have hcontext := h.activityContext hid true
  refine inv_scheduleWith .activity h rfl rfl ?_ (congrArg (PendingContext.mk .ordinary) hcontext)
  simp only [payloadsAgree_append, payloadsAgree_otherPayloads, and_true]
  exact ⟨payloadsAgree_ran hcontext rfl, payloadsAgree_ran hcontext rfl⟩

theorem inv_startChildWorkflowExecution {s : Isolate V} {workflowId : String}
    {args headers memo searchAttributes summary groups : List V} {refused : Bool}
    (h : s.Inv r registered) :
    ((s.takeSeq .childWorkflow).startChildWorkflowExecutionNextHandler (s.nextSeqs .childWorkflow)
      workflowId args headers memo searchAttributes summary groups refused).Inv r registered := by
  have hcontext := h.targetContext workflowId
  have hlt : s.nextSeqs .childWorkflow < (s.takeSeq .childWorkflow).nextSeqs .childWorkflow := by
    simp [takeSeq]
  cases refused with
  | true =>
    refine inv_setCompletion (inv_takeSeq h .childWorkflow) hlt ?_ ?_ ?_
    · intro entry he
      cases (h.ledger_next .childWorkflow).symm.trans he
    · intro entry hkind
      cases hkind
    · intro k' hkind
      cases hkind
  | false =>
    have hagrees : PayloadsAgree r
        (.startChildWorkflowExecution (s.nextSeqs .childWorkflow) s.ns workflowId)
        (toPayloads .arguments (s.targetWorkflowSerializationContext workflowId) args ++
          otherPayloads .headers headers ++
          toPayloads .memo (s.targetWorkflowSerializationContext workflowId) memo ++
          otherPayloads .searchAttributes searchAttributes ++
          toPayloads .userMetadata (s.targetWorkflowSerializationContext workflowId) summary ++
          otherPayloads .eventGroupMarkers groups) := by
      simp only [payloadsAgree_append, payloadsAgree_otherPayloads, and_true]
      exact ⟨⟨payloadsAgree_ran hcontext rfl, payloadsAgree_ran hcontext rfl⟩, payloadsAgree_ran hcontext rfl⟩
    have hentry : r.scheduledEntry
        (.startChildWorkflowExecution (s.nextSeqs .childWorkflow) s.ns workflowId) =
          ⟨.ordinary, s.targetWorkflowSerializationContext workflowId⟩ :=
      congrArg (PendingContext.mk .ordinary) hcontext
    rcases inv_pushScheduling h rfl rfl hagrees.encodeCommand with ⟨_, hledger⟩
    rw [hentry] at hledger
    refine inv_setCompletion (inv_scheduleWith .childWorkflowStart h rfl rfl hagrees hentry) hlt
      ?_ ?_ ?_
    · intro entry he
      cases hledger.symm.trans he
      rfl
    · intro entry hkind
      cases hkind
    · intro k' hkind
      cases hkind

theorem inv_signalWorkflow {s : Isolate V} {target : SignalTarget} {workflowId : String}
    {args headers groups : List V} (h : s.Inv r registered)
    (hcontext : r.externalWorkflowContext target =
      s.targetWorkflowSerializationContext workflowId) :
    ((s.takeSeq .signalWorkflow).signalWorkflowNextHandler (s.nextSeqs .signalWorkflow) target
      workflowId args headers groups).Inv r registered := by
  refine inv_scheduleWith .signalWorkflow h rfl rfl ?_
    (congrArg (PendingContext.mk .ordinary) hcontext)
  simp only [payloadsAgree_append, payloadsAgree_otherPayloads, and_true]
  exact payloadsAgree_ran hcontext rfl

theorem inv_startNexusOperation {s : Isolate V} {endpoint service : String}
    {operation : Option String} {input : OperationInput V} {summary groups : List V}
    (h : s.Inv r registered)
    (hnamed : endpoint = temporalSystemNexusEndpoint ∨ operation ≠ none) :
    ((s.takeSeq .nexusOperation).startNexusOperationNextHandler (s.nextSeqs .nexusOperation) endpoint
      service operation input summary groups).Inv r registered := by
  have hworkflow := h.workflowContext
  unfold startNexusOperationNextHandler
  by_cases hendpoint : endpoint ≠ temporalSystemNexusEndpoint
  · simp only [hendpoint, not_false_eq_true, if_true, ne_eq]
    have hcontext : SerializationContext.nexus endpoint service (some (operation.getD "")) =
        .nexus endpoint service operation := by
      cases operation with
      | none => exact absurd rfl (hnamed.resolve_left hendpoint)
      | some operation => rfl
    refine inv_scheduleWith .nexusOperationStart h rfl rfl ?_
      (congrArg (PendingContext.mk .ordinary) hcontext)
    simp only [payloadsAgree_append, payloadsAgree_otherPayloads, and_true]
    exact ⟨payloadsAgree_ran hcontext rfl, payloadsAgree_ran hworkflow rfl⟩
  · simp only [hendpoint, if_false]
    split
    · rename_i hdefined
      have hagrees : PayloadsAgree r
          (.scheduleNexusOperation (s.nextSeqs .nexusOperation) endpoint service operation
            (.systemEnvelope (some (s.signalWithStartWorkflowSerializationContext input.request))))
          (otherPayloads .input [input.value] ++
            toPayloads .nested (s.signalWithStartWorkflowSerializationContext input.request)
              input.request.values ++
            toPayloads .nestedHeaders (s.signalWithStartWorkflowSerializationContext input.request)
              input.request.headers ++
            toPayloads .userMetadata s.workflowSerializationContext summary ++
            otherPayloads .eventGroupMarkers groups) := by
        simp only [payloadsAgree_append, payloadsAgree_otherPayloads, and_true, true_and]
        refine ⟨⟨payloadsAgree_toPayloads (.inl rfl), payloadsAgree_toPayloads ?_⟩,
          payloadsAgree_ran hworkflow rfl⟩
        -- Headers are skipped inside of an envelope as they are elsewhere.
        cases hheaders : r.codecHeaders <;> simp [Runner.commandPass, hheaders, Runner.envelopeContext]
      have haccepts : Runner.acceptsInput
          (.scheduleNexusOperation (s.nextSeqs .nexusOperation) endpoint service operation
            (.systemEnvelope
              (some (s.signalWithStartWorkflowSerializationContext input.request)))) := by
        simpa [Runner.acceptsInput] using hdefined
      rcases inv_pushScheduling h rfl haccepts hagrees.encodeCommand with ⟨hpush, hledger⟩
      have hset := inv_setSystemNexus
        ⟨service, operation, some (s.signalWithStartWorkflowSerializationContext input.request)⟩
        hpush hdefined hledger rfl rfl
      have hlt : s.nextSeqs .nexusOperation <
          (s.takeSeq .nexusOperation).nextSeqs .nexusOperation := by
        simp [takeSeq]
      refine inv_setCompletion hset hlt ?_ ?_ ?_
      · intro entry he
        cases hledger.symm.trans he
        rfl
      · intro _ _ _ _
        simp [setSystemNexus]
      · intro k' _ hkind' _
        have hnext := h.completion_next k'
        rw [hkind'] at hnext
        exact hnext
    · exact inv_takeSeq h .nexusOperation

theorem inv_cancelIf {s : Isolate V} {pending : Bool} {groups : List V}
    (h : s.Inv r registered) (hop : v.schedules = none) :
    (s.cancelIf pending v groups).Inv r registered := by
  unfold cancelIf
  split
  · exact inv_pushCommand h hop (PayloadsAgree.encodeCommand (payloadsAgree_otherPayloads _ _ _))
  · exact h

/-- What the workflow does keeps the isolate in agreement with the runner. -/
theorem inv_call {s : Isolate V} {api : Api V} (h : s.Inv r registered)
    (hnexus : s.nexusSerializationContext = r.nexusContext) (hnamed : api.Named) :
    (s.call api).Inv r registered := by
  have hworkflow := h.workflowContext
  have hresult : r.nexusContext.getD r.workflowContext = s.resultSerializationContext := by
    simp [resultSerializationContext, hnexus, hworkflow]
  have hpush : ∀ {v : CommandVariant} {payloads : List (Field × Converted V)},
      v.schedules = none → PayloadsAgree r v payloads →
      (s.pushCommand ⟨v, payloads⟩).Inv r registered :=
    fun hop hagrees => inv_pushCommand h hop hagrees.encodeCommand
  -- Commands of the workflow itself have its context, and its outcome that of the result.
  have hown : ∀ {v : CommandVariant} {f : Field} {values : List V},
      r.commandPass v f = .ran r.workflowContext →
      PayloadsAgree r v (toPayloads f s.workflowSerializationContext values) :=
    fun hpass => payloadsAgree_toPayloads (.inl (hpass.trans (congrArg (Pass.ran ∘ some) hworkflow)))
  have houtcome : ∀ {v : CommandVariant} {f : Field} {values : List V},
      r.commandPass v f = .ran (r.nexusContext.getD r.workflowContext) →
      PayloadsAgree r v (toPayloads f s.resultSerializationContext values) :=
    fun hpass => payloadsAgree_toPayloads (.inl (hpass.trans (congrArg (Pass.ran ∘ some) hresult)))
  cases api with
  | sleep summary groups refused =>
    simp only [call]
    split
    · exact { h with }
    · have hagrees : PayloadsAgree r (.startTimer s.nextTimerSeq)
          (toPayloads .userMetadata s.workflowSerializationContext summary ++
            otherPayloads .eventGroupMarkers groups) := by
        simp only [payloadsAgree_append, payloadsAgree_otherPayloads, and_true]
        exact hown rfl
      have hsleep := hpush rfl hagrees
      exact { hsleep with }
  | scheduleActivity activityId args headers summary groups refused =>
    simp only [call]
    split
    · exact inv_takeSeq h .activity
    · exact inv_scheduleActivity h hnamed
  | scheduleLocalActivity args headers summary groups refused =>
    simp only [call]
    split
    · exact inv_takeSeq h .activity
    · exact inv_scheduleLocalActivity h
  | startChildWorkflowExecution => exact inv_startChildWorkflowExecution h
  | signalExternal workflowId args headers groups refused =>
    simp only [call]
    split
    · exact inv_takeSeq h .signalWorkflow
    · exact inv_signalWorkflow h (h.targetContext workflowId)
  | signalChild childWorkflowId args headers groups refused =>
    simp only [call]
    split
    · exact inv_takeSeq h .signalWorkflow
    · exact inv_signalWorkflow h (h.childTargetContext childWorkflowId)
  | cancelExternal workflowId groups =>
    exact inv_scheduleWith .cancelWorkflow h rfl rfl (payloadsAgree_otherPayloads _ _ _)
      (congrArg (PendingContext.mk .ordinary) (h.targetContext workflowId))
  | startOperation endpoint service operation input summary groups refused =>
    simp only [call]
    split
    · exact inv_takeSeq h .nexusOperation
    · exact inv_startNexusOperation h hnamed
  | cancelTimer seq groups =>
    have hcancel : (s.cancelIf (s.timers seq) (.cancelTimer seq) groups).Inv r registered :=
      inv_cancelIf h rfl
    exact { hcancel with }
  | cancelActivity | cancelLocalActivity | cancelChildWorkflow | cancelSignal | cancelOperation =>
    exact inv_cancelIf h rfl
  | upsertMemo memo groups =>
    refine hpush rfl ?_
    simp only [payloadsAgree_append, payloadsAgree_otherPayloads, and_true]
    exact hown rfl
  | upsertSearchAttributes searchAttributes groups =>
    refine hpush rfl ?_
    simp only [payloadsAgree_append, payloadsAgree_otherPayloads, and_true]
  | completeQuery | failQuery | completeUpdate | rejectUpdate => exact hpush rfl (hown rfl)
  | acceptUpdate | cancelWorkflowExecution => exact hpush rfl (payloadsAgree_nil _)
  | completeWorkflow | failWorkflow => exact hpush rfl (houtcome rfl)
  | continueAsNew args headers memo searchAttributes groups =>
    refine hpush rfl ?_
    simp only [payloadsAgree_append, payloadsAgree_otherPayloads, and_true]
    exact ⟨hown rfl, hown rfl⟩

end Isolate

end TemporalSdk.Codec
