import TemporalSdk.Codec.Scheduling

/-!
# Agreement — converters and codecs use the same contexts

The isolate and the runner together, over whole runs with a conforming core: the isolate pushes commands,
the runner encodes them when an activation is concluded and decodes the jobs of the next one, and the
isolate converts the payloads of the jobs.  Each side keeps its entry of an operation until the operation
is resolved, so agreement on the command is agreement on the jobs.
-/

namespace TemporalSdk.Codec

open Machine

variable {V : Type} {r : Runner} {registered : OperationKind → Nat → Option PendingContext}

namespace Isolate

/-! ## Jobs -/

/-- The isolate agrees with the runner, and did so on every payload that it has converted. -/
structure Sound (r : Runner) (registered : OperationKind → Nat → Option PendingContext)
    (s : Isolate V) : Prop where
  inv : s.Inv r registered
  agrees : ∀ c ∈ s.conversions, c.Agrees

variable {context : Option SerializationContext}

theorem agreesIn_of_eq {f : Field} {codec : Pass}
    (h : codec = .ran context) : (Pass.ran context).AgreesIn f codec := by
  intro context' heq
  cases heq
  exact .inl h

variable {job : Job (Coded (Converted V))} {s : Isolate V}

theorem Sound.convert {f : Field} (h : s.Sound r registered)
    (hp : ∀ p, (f, p) ∈ job.payloads → (Pass.ran context).AgreesIn f p.codec) :
    (s.convert job f context).Sound r registered := by
  refine ⟨{ h.inv with }, fun c hc => ?_⟩
  rcases List.mem_append.1 hc with hc | hc
  · exact h.agrees c hc
  · rcases List.mem_map.1 hc with ⟨⟨f', p⟩, hmem, rfl⟩
    have hin : (f', p) ∈ job.payloads ∧ f' = f := by simpa using List.mem_filter.1 hmem
    rcases hin with ⟨hin, rfl⟩
    exact hp p hin

variable {seq : Nat} {k : CompletionKind}

theorem Sound.clearCompletion
    (h : s.Sound r registered) : (s.setCompletion k seq none).Sound r registered :=
  ⟨inv_clearCompletion h.inv, h.agrees⟩

theorem Sound.consumeCompletion
    {resolve : Isolate V → Option SerializationContext → Isolate V} (h : s.Sound r registered)
    (hresolve : ∀ context, s.completions k seq = some context →
      (resolve (s.setCompletion k seq none) context).Sound r registered) :
    (s.consumeCompletion k seq resolve).Sound r registered := by
  unfold Isolate.consumeCompletion
  split
  · exact h
  · rename_i context hcontext
    exact hresolve context hcontext

theorem Sound.resolveOrdinary {resolve : Isolate V → Option SerializationContext → Isolate V}
    (h : s.Sound r registered) (hkind : k.kind ≠ .nexusOperation)
    (hordinary : ∀ k seq entry, s.ledger r registered k seq = some entry → entry.isSystem →
      k = .nexusOperation) (hop : job.variant.resolves = some (k.kind, seq))
    (hjob : DecodedWith r (s.ledger r registered) job)
    (hresolve : ∀ context, (∀ f, f = .result ∨ f = .failure → job.variant.carries f →
        ∀ p, (f, p) ∈ job.payloads → (Pass.ran context).AgreesIn f p.codec) →
      (resolve (s.setCompletion k seq none) context).Sound r registered) :
    (s.consumeCompletion k seq resolve).Sound r registered := by
  refine h.consumeCompletion fun context hcontext => hresolve context fun f hf hcarries p hp => ?_
  unfold DecodedWith at hjob
  rw [hop] at hjob
  rcases hjob with ⟨entry, he, hpass⟩
  have hsystem : entry.isSystem = false := by
    cases hsystem : entry.isSystem with
    | false => rfl
    | true => exact absurd (hordinary k.kind seq entry he hsystem) hkind
  rw [h.inv.completion k seq context entry hcontext he]
  refine agreesIn_of_eq ((hpass f p hp hcarries).trans ?_)
  rcases hf with rfl | rfl <;> simp [resolutionPass, hsystem]

theorem Sound.resolveNexus (h : s.Sound r registered) (hkind : k.kind = .nexusOperation)
    (hop : job.variant.resolves = some (.nexusOperation, seq))
    (hjob : DecodedWith r (s.ledger r registered) job)
    (hcontext : s.completions k seq = some context) :
    ∃ entry, s.ledger r registered .nexusOperation seq = some entry ∧ context = some entry.context ∧
      (entry.isSystem → (s.systemNexusOperationContexts seq).isSome) ∧
      ∀ f p, (f, p) ∈ job.payloads → job.variant.carries f →
        p.codec = resolutionPass r.codecHeaders entry f := by
  unfold DecodedWith at hjob
  rw [hop] at hjob
  rcases hjob with ⟨entry, he, hpass⟩
  have he' : s.ledger r registered k.kind seq = some entry := by rwa [hkind]
  exact ⟨entry, he, h.inv.completion k seq context entry hcontext he',
    h.inv.systemNexus_of_entry k seq entry hkind (by simp [hcontext]) he, hpass⟩

theorem Sound.resolveNexusOperationStart {status : NexusStartStatus} (h : s.Sound r registered)
    (hv : job.variant = .resolveNexusOperationStart seq status)
    (hjob : DecodedWith r (s.ledger r registered) job) : (s.handle job).Sound r registered := by
  unfold handle
  rw [hv]
  refine h.consumeCompletion fun context hcontext => ?_
  have hop : job.variant.resolves = some (.nexusOperation, seq) := by rw [hv]; rfl
  rcases h.resolveNexus rfl hop hjob hcontext with ⟨entry, he, rfl, hsystem, hpass⟩
  have hstarted : ((s.setCompletion .nexusOperationStart seq none).setCompletion
      .nexusOperationComplete seq (some (some entry.context))).Sound r registered := by
    refine ⟨inv_setCompletion (inv_clearCompletion h.inv) ?_ ?_ ?_ ?_, h.agrees⟩
    · exact h.inv.ledger_lt .nexusOperation seq (by simp [he])
    · intro entry' he'
      cases he.symm.trans he'
      rfl
    · intro entry' _ he' hsystem'
      cases he.symm.trans he'
      exact hsystem hsystem'
    · intro k' _ hkind hne
      cases k' <;> cases hkind
      · simp [setCompletion]
      · exact absurd rfl hne
  cases status with
  | operationToken | startedSync => exact hstarted
  | failed =>
    refine h.clearCompletion.convert fun p hp => agreesIn_of_eq ?_
    exact hpass .failure p hp (by rw [hv]; rfl)

/-- Once its completion is consumed, nothing of a Nexus operation is left in the isolate. -/
theorem Sound.consumeNexusCompletion
    {resolve : Isolate V → Option SerializationContext → Isolate V} (h : s.Sound r registered)
    (hresolve : ∀ (k : CompletionKind) (context : Option SerializationContext) (s' : Isolate V),
      k.kind = .nexusOperation → s.completions k seq = some context → s'.Sound r registered →
      (resolve s' context).Sound r registered) :
    ((s.setSystemNexus seq none).consumeNexusCompletion seq resolve).Sound r registered := by
  unfold Isolate.consumeNexusCompletion Isolate.consumeCompletion
  split
  · rename_i context hstart
    have hcomplete : s.completions .nexusOperationComplete seq = none := by
      rcases h.inv.nexusCompletion seq with hnone | hnone
      · cases hnone.symm.trans hstart
      · exact hnone
    refine hresolve .nexusOperationStart context _ rfl hstart ⟨?_, h.agrees⟩
    have hclear : (s.setCompletion .nexusOperationStart seq none).Inv r registered :=
      inv_clearCompletion h.inv
    refine inv_clearSystemNexus hclear fun k hkind => ?_
    cases k <;> cases hkind
    · simp [setCompletion]
    · exact hcomplete
  · rename_i hstart
    have hstart : s.completions .nexusOperationStart seq = none := hstart
    split
    · rename_i hcomplete
      have hcomplete : s.completions .nexusOperationComplete seq = none := hcomplete
      refine ⟨inv_clearSystemNexus h.inv fun k hkind => ?_, h.agrees⟩
      cases k <;> cases hkind
      · exact hstart
      · exact hcomplete
    · rename_i context hcomplete
      refine hresolve .nexusOperationComplete context _ rfl hcomplete ⟨?_, h.agrees⟩
      have hclear : (s.setCompletion .nexusOperationComplete seq none).Inv r registered :=
        inv_clearCompletion h.inv
      refine inv_clearSystemNexus hclear fun k hkind => ?_
      cases k <;> cases hkind
      · exact hstart
      · simp [setCompletion]

theorem Sound.resolveNexusOperation {result : NexusStatus} (h : s.Sound r registered)
    (hv : job.variant = .resolveNexusOperation seq result)
    (hjob : DecodedWith r (s.ledger r registered) job) : (s.handle job).Sound r registered := by
  unfold handle
  rw [hv]
  refine h.consumeNexusCompletion fun k context s' hkind hcontext hs' => ?_
  have hop : job.variant.resolves = some (.nexusOperation, seq) := by rw [hv]; rfl
  rcases h.resolveNexus hkind hop hjob hcontext with ⟨entry, he, rfl, hsystem, hpass⟩
  have hfailure : job.variant.carries .failure →
      (s'.convert job .failure (some entry.context)).Sound r registered :=
    fun hcarries => hs'.convert fun p hp => agreesIn_of_eq (hpass .failure p hp hcarries)
  cases result with
  | failed | cancelled | timedOut => exact hfailure (by rw [hv]; rfl)
  | completed =>
    have hcarries : ∀ f, f = .result ∨ f = .nested ∨ f = .nestedHeaders → job.variant.carries f := by
      intro f hf
      rw [hv]
      rcases hf with rfl | rfl | rfl <;> rfl
    cases hsn : s.systemNexusOperationContexts seq with
    | some systemNexus =>
      rcases h.inv.systemNexus seq systemNexus hsn with ⟨hdefined, entry', he', hsys, hctx⟩
      cases he.symm.trans he'
      simp only [isSystemNexusOperation, hdefined, if_true, Option.bind_some, hctx]
      refine (hs'.convert fun p hp => ?_).convert fun p hp => ?_
      · refine agreesIn_of_eq ((hpass .nested p hp (hcarries _ (by simp))).trans ?_)
        simp [resolutionPass, hsys]
      · intro context' heq
        cases heq
        rw [hpass .nestedHeaders p hp (hcarries _ (by simp))]
        cases hheaders : r.codecHeaders <;> simp [resolutionPass, hsys]
    | none =>
      have hordinary : entry.isSystem = false := by
        cases hsys : entry.isSystem with
        | false => rfl
        | true => simpa [hsn] using hsystem hsys
      simp only [isSystemNexusOperation]
      refine hs'.convert fun p hp => ?_
      refine agreesIn_of_eq ((hpass .result p hp (hcarries _ (by simp))).trans ?_)
      simp [resolutionPass, hordinary]

/-- What a job has the isolate do keeps it in agreement with the runner. -/
theorem Sound.handle (h : s.Sound r registered)
    (hordinary : ∀ k seq entry, s.ledger r registered k seq = some entry → entry.isSystem →
      k = .nexusOperation)
    (hjob : DecodedWith r (s.ledger r registered) job) : (s.handle job).Sound r registered := by
  have hworkflow : SerializationContext.workflow r.ns r.workflowId =
      s.workflowSerializationContext := h.inv.workflowContext
  cases hv : job.variant with
  | initializeWorkflow propagated =>
    unfold DecodedWith at hjob
    simp only [hv, JobVariant.resolves] at hjob
    have hstart : ({ s with
        initialized := true
        nexusSerializationContext := nexusSerializationContextFromProto propagated } :
        Isolate V).Sound r registered := ⟨{ h.inv with }, h.agrees⟩
    have hprevious : ∀ f, f = .lastCompletionResult ∨ f = .continuedFailure →
        ∀ p, (f, p) ∈ job.payloads →
        (Pass.ran (some ((nexusSerializationContextFromProto propagated).getD
          s.workflowSerializationContext))).AgreesIn f p.codec := by
      intro f hf p hp
      rcases hf with rfl | rfl <;> refine agreesIn_of_eq ((hjob _ p hp rfl).trans ?_) <;>
        simp only [plainPass, hworkflow] <;>
        cases nexusSerializationContextFromProto propagated <;> rfl
    have hown : ∀ f, f = .memo ∨ f = .arguments → ∀ p, (f, p) ∈ job.payloads →
        (Pass.ran (some s.workflowSerializationContext)).AgreesIn f p.codec := by
      intro f hf p hp
      rcases hf with rfl | rfl <;> refine agreesIn_of_eq ((hjob _ p hp rfl).trans ?_) <;>
        simp only [plainPass, hworkflow]
    unfold Isolate.handle
    rw [hv]
    exact (((hstart.convert (hown .memo (.inl rfl))).convert
      (hprevious .lastCompletionResult (.inl rfl))).convert
      (hprevious .continuedFailure (.inr rfl))).convert (hown .arguments (.inr rfl))
  | signalWorkflow | queryWorkflow | doUpdate =>
    unfold DecodedWith at hjob
    simp only [hv, JobVariant.resolves] at hjob
    unfold Isolate.handle
    rw [hv]
    refine h.convert fun p hp => agreesIn_of_eq ((hjob .arguments p hp rfl).trans ?_)
    simp only [plainPass, hworkflow]
  | fireTimer | cancelWorkflow | updateRandomSeed | notifyHasPatch =>
    unfold Isolate.handle
    rw [hv]
    exact ⟨{ h.inv with }, h.agrees⟩
  | resolveNexusOperationStart => exact h.resolveNexusOperationStart hv hjob
  | resolveNexusOperation => exact h.resolveNexusOperation hv hjob
  | resolveActivity seq result =>
    unfold Isolate.handle
    rw [hv]
    refine h.resolveOrdinary (by decide) hordinary (by rw [hv]; rfl) hjob fun context hfield => ?_
    cases result with
    | completed =>
      exact h.clearCompletion.convert (hfield .result (.inl rfl) (by rw [hv]; rfl))
    | failed | cancelled =>
      exact h.clearCompletion.convert (hfield .failure (.inr rfl) (by rw [hv]; rfl))
    | backoff => exact h.clearCompletion
  | resolveChildWorkflowExecutionStart seq status =>
    unfold Isolate.handle
    rw [hv]
    refine h.resolveOrdinary (by decide) hordinary (by rw [hv]; rfl) hjob fun context hfield => ?_
    cases status with
    | succeeded => exact h.clearCompletion
    | failed => exact h.clearCompletion.clearCompletion
    | cancelled =>
      exact (h.clearCompletion.convert
        (hfield .failure (.inr rfl) (by rw [hv]; rfl))).clearCompletion
  | resolveChildWorkflowExecution seq result =>
    unfold Isolate.handle
    rw [hv]
    refine h.resolveOrdinary (by decide) hordinary (by rw [hv]; rfl) hjob fun context hfield => ?_
    cases result with
    | completed =>
      exact h.clearCompletion.convert (hfield .result (.inl rfl) (by rw [hv]; rfl))
    | failed | cancelled =>
      exact h.clearCompletion.convert (hfield .failure (.inr rfl) (by rw [hv]; rfl))
  | resolveSignalExternalWorkflow seq | resolveRequestCancelExternalWorkflow seq =>
    unfold Isolate.handle
    rw [hv]
    refine h.resolveOrdinary (by decide) hordinary (by rw [hv]; rfl) hjob fun context hfield => ?_
    exact h.clearCompletion.convert (hfield .failure (.inr rfl) (by rw [hv]; rfl))

end Isolate

/-! ## The isolate, the runner and core -/

/-- A workflow run.  `inbox` has the decoded jobs that the isolate has not got to, `sent` the commands
that core got. -/
structure System (V : Type) where
  isolate : Isolate V
  exchange : Exchange (Converted V)
  inbox : List (Job (Coded (Converted V)))
  sent : List (Command (Coded (Converted V)))

inductive Event (V : Type)
  | activate (jobs : List (Job (Converted V)))
  | handle
  | call (api : Api V)
  | conclude

/-- The calls of the workflow name the operations that they schedule. -/
def Event.Named : Event V → Prop
  | .call api => api.Named
  | _ => True

namespace System

def init (V : Type) (ns workflowId : String) (codecHeaders : Bool) : System V :=
  ⟨.init V ns workflowId, .init _ ns workflowId codecHeaders, [], []⟩

def step (s : System V) : Event V → System V
  | .activate jobs =>
    match s.exchange.core.resolveAll jobs with
    | some _ =>
      { s with
        exchange := s.exchange.step (.decodeActivation jobs)
        inbox := s.inbox ++ (s.exchange.runner.decodeActivation jobs).2 }
    -- Core does not send these jobs.
    | none => s
  | .handle =>
    match s.inbox with
    | [] => s
    | job :: inbox => { s with isolate := s.isolate.handle job, inbox := inbox }
  -- No code of the workflow runs before it is initialized.
  | .call api => if s.isolate.initialized then { s with isolate := s.isolate.call api } else s
  | .conclude =>
    match s.exchange.runner.encodeCompletion s.isolate.commands with
    | some (_, encoded) =>
      { s with
        isolate := { s.isolate with commands := [] }
        exchange := s.exchange.step (.encodeCompletion s.isolate.commands)
        sent := s.sent ++ encoded }
    -- The call rejects, and the workflow task fails.
    | none => s

/-- Core sends the jobs of the operations that it knows. -/
def Conforming (s : System V) : Event V → Prop
  | .activate jobs => (s.exchange.core.resolveAll jobs).isSome
  | _ => True

instance decidableConforming (s : System V) : (e : Event V) → Decidable (s.Conforming e)
  | .activate jobs => inferInstanceAs (Decidable ((s.exchange.core.resolveAll jobs).isSome = true))
  | .handle => isTrue trivial
  | .call _ => isTrue trivial
  | .conclude => isTrue trivial

structure Inv (s : System V) : Prop where
  exchange : s.exchange.Inv
  sound : s.isolate.Sound s.exchange.runner s.exchange.registered
  inbox : ∀ job ∈ s.inbox,
    DecodedWith s.exchange.runner
      (s.isolate.ledger s.exchange.runner s.exchange.registered) job
  nexus : s.isolate.initialized →
    s.isolate.nexusSerializationContext = s.exchange.runner.nexusContext
  nexus_inbox : ∀ job ∈ s.inbox, ∀ propagated, job.variant = .initializeWorkflow propagated →
    s.exchange.runner.nexusContext = nexusSerializationContextFromProto propagated
  initialized : s.isolate.initialized ∨ (∃ job ∈ s.inbox, job.variant.initializes.isSome) →
    s.exchange.core.initialized
  commands : s.isolate.commands ≠ [] → s.isolate.initialized
  sent : ∀ command ∈ s.sent, CommandAgrees command

end System

/-! ## What the steps leave alone -/

theorem Core.scheduleAll_isSome {P : Type} {commands : List (Command P)} :
    ∀ {core : Core}, (commands.filterMap fun command => command.variant.schedules).Nodup →
      (∀ command ∈ commands, ∀ k seq, command.variant.schedules = some (k, seq) →
        core.status k seq = .unscheduled) →
      (core.scheduleAll commands).isSome := by
  induction commands with
  | nil => simp [scheduleAll]
  | cons command commands ih =>
    intro core hnodup hnew
    have htail : ∀ c ∈ commands, ∀ k seq, c.variant.schedules = some (k, seq) →
        core.status k seq = .unscheduled := fun c hc => hnew c (List.mem_cons_of_mem _ hc)
    cases hop : command.variant.schedules with
    | none =>
      rw [List.filterMap_cons, hop] at hnodup
      simpa [scheduleAll, schedule, hop] using ih hnodup htail
    | some op =>
      rw [List.filterMap_cons, hop] at hnodup
      rcases List.nodup_cons.1 hnodup with ⟨hnotin, hnodup⟩
      have hfree := hnew command List.mem_cons_self op.1 op.2 hop
      have hrest : ∀ c ∈ commands, ∀ k seq, c.variant.schedules = some (k, seq) →
          (core.setStatus op.1 op.2 .scheduled).status k seq = .unscheduled := by
        intro c hc k seq hschedules
        have hne : ¬ (k = op.1 ∧ seq = op.2) := by
          rintro ⟨rfl, rfl⟩
          exact hnotin (List.mem_filterMap.2 ⟨c, hc, hschedules⟩)
        simpa [setStatus, setAt_of_ne hne] using htail c hc k seq hschedules
      simpa [scheduleAll, schedule, hop, hfree] using ih hnodup hrest

theorem Isolate.Inv.scheduleAll {s : Isolate V} {core : Core} (h : s.Inv r registered)
    (hk : Known core registered) : ∃ core', core.scheduleAll s.commands = some core' := by
  refine Option.isSome_iff_exists.1 (Core.scheduleAll_isSome h.nodup ?_)
  intro command hcommand k seq hschedules
  have hnone := h.unregistered command hcommand k seq hschedules
  by_contra hknown
  simpa [hnone] using (hk.isSome_iff k seq).1 hknown

/-- What neither the runner nor core reads of the isolate. -/
def Isolate.frame (s : Isolate V) : Bool × Option SerializationContext × List (Command (Converted V)) :=
  (s.initialized, s.nexusSerializationContext, s.commands)

namespace Isolate

theorem frame_consumeCompletion {s : Isolate V} {k : CompletionKind} {seq : Nat}
    {resolve : Isolate V → Option SerializationContext → Isolate V}
    (h : ∀ s context, (resolve s context).frame = s.frame) :
    (s.consumeCompletion k seq resolve).frame = s.frame := by
  unfold consumeCompletion
  split
  · rfl
  · exact h _ _

theorem frame_handle (s : Isolate V) (job : Job (Coded (Converted V))) :
    (s.handle job).frame =
      (s.initialized || job.variant.initializes.isSome,
        (job.variant.initializes.map nexusSerializationContextFromProto).getD
          s.nexusSerializationContext,
        s.commands) := by
  have hsame : s.frame = (s.initialized || false, s.nexusSerializationContext, s.commands) := by
    simp [frame]
  unfold handle
  cases hv : job.variant with
  | initializeWorkflow =>
    simp only [JobVariant.initializes, Option.isSome_some, Bool.or_true]
    rfl
  | resolveActivity seq result | resolveChildWorkflowExecutionStart seq result
  | resolveChildWorkflowExecution seq result | resolveNexusOperationStart seq result =>
    refine (frame_consumeCompletion fun s context => ?_).trans hsame
    cases result <;> rfl
  | resolveSignalExternalWorkflow | resolveRequestCancelExternalWorkflow =>
    refine (frame_consumeCompletion fun s context => ?_).trans hsame
    rfl
  | resolveNexusOperation seq result =>
    refine Eq.trans ?_ hsame
    simp only
    unfold consumeNexusCompletion
    split
    · cases result <;> dsimp only <;> first | rfl | (split <;> rfl)
    · refine (frame_consumeCompletion fun s context => ?_).trans rfl
      cases result <;> dsimp only <;> first | rfl | (split <;> rfl)
  | fireTimer | signalWorkflow | queryWorkflow | doUpdate | cancelWorkflow | updateRandomSeed
  | notifyHasPatch => exact hsame

theorem call_frame (s : Isolate V) (api : Api V) :
    (s.call api).initialized = s.initialized ∧
      (s.call api).nexusSerializationContext = s.nexusSerializationContext ∧
      (s.call api).conversions = s.conversions ∧
      ∃ new, (s.call api).commands = s.commands ++ new := by
  have hsame : ∀ t : Isolate V, t.frame = s.frame → t.conversions = s.conversions →
      t.initialized = s.initialized ∧ t.nexusSerializationContext = s.nexusSerializationContext ∧
      t.conversions = s.conversions ∧ ∃ new, t.commands = s.commands ++ new := by
    intro t ht hconversions
    simp only [frame, Prod.mk.injEq] at ht
    exact ⟨ht.1, ht.2.1, hconversions, [], by simp [ht.2.2]⟩
  cases api with
  | sleep _ _ refused | scheduleActivity _ _ _ _ _ refused | scheduleLocalActivity _ _ _ _ refused
  | signalExternal _ _ _ _ refused | signalChild _ _ _ _ refused
  | startChildWorkflowExecution _ _ _ _ _ _ _ refused =>
    cases refused
    · exact ⟨rfl, rfl, rfl, _, rfl⟩
    · exact hsame _ rfl rfl
  | startOperation endpoint service operation input summary groups refused =>
    cases refused
    · simp only [call, Bool.false_eq_true, if_false, startNexusOperationNextHandler]
      split
      · exact ⟨rfl, rfl, rfl, _, rfl⟩
      · split
        · exact ⟨rfl, rfl, rfl, _, rfl⟩
        · exact hsame _ rfl rfl
    · exact hsame _ rfl rfl
  | cancelTimer | cancelActivity | cancelLocalActivity | cancelChildWorkflow | cancelSignal
  | cancelOperation =>
    simp only [call, cancelIf]
    split
    · exact ⟨rfl, rfl, rfl, _, rfl⟩
    · exact hsame _ rfl rfl
  | _ => exact ⟨rfl, rfl, rfl, _, rfl⟩

end Isolate

/-! ## Every run -/

theorem JobVariant.initializes_of_resolves {v : JobVariant} {op : OperationKind × Nat}
    (h : v.resolves = some op) : v.initializes = none := by
  cases v with
  | initializeWorkflow propagated => cases h
  | _ => rfl

theorem Core.resolve_initialized {core next : Core} {v : JobVariant} (hnext : core.resolve v = some next)
    (h : core.initialized ∨ v.initializes.isSome) : next.initialized := by
  unfold resolve at hnext
  cases hop : v.resolves with
  | some op =>
    rw [hop] at hnext
    rcases Option.map_eq_some_iff.1 hnext with ⟨_, _, rfl⟩
    refine h.resolve_right fun hsome => ?_
    rw [JobVariant.initializes_of_resolves hop] at hsome
    cases hsome
  | none =>
    rw [hop] at hnext
    cases v with
    | initializeWorkflow propagated =>
      by_cases hinit : core.initialized
      · rw [if_pos hinit] at hnext
        cases hnext
      · rw [if_neg hinit] at hnext
        cases hnext
        rfl
    | _ =>
      cases hnext
      exact h.resolve_right nofun

theorem Core.resolveAll_initialized {P : Type} {jobs : List (Job P)} :
    ∀ {core core' : Core}, core.resolveAll jobs = some core' →
      core.initialized ∨ (∃ job ∈ jobs, job.variant.initializes.isSome) → core'.initialized := by
  induction jobs with
  | nil =>
    intro core core' hc h
    cases hc
    simpa using h
  | cons job jobs ih =>
    intro core core' hc h
    rcases Option.bind_eq_some_iff.1 hc with ⟨next, hnext, hrest⟩
    refine ih hrest ?_
    have hstep := Core.resolve_initialized hnext
    rcases h with h | ⟨job', hjob', hsome⟩
    · exact .inl (hstep (.inl h))
    · rcases List.mem_cons.1 hjob' with rfl | hjob'
      · exact .inl (hstep (.inr hsome))
      · exact .inr ⟨job', hjob', hsome⟩

theorem Core.scheduleAll_initialized {P : Type} {commands : List (Command P)} :
    ∀ {core core' : Core}, core.scheduleAll commands = some core' →
      core'.initialized = core.initialized := by
  induction commands with
  | nil =>
    intro core core' h
    cases h
    rfl
  | cons command commands ih =>
    intro core core' h
    rcases Option.bind_eq_some_iff.1 h with ⟨next, hnext, hrest⟩
    rw [ih hrest]
    rcases schedule_cases hnext with ⟨_, rfl⟩ | ⟨_, _, _, _, rfl⟩ <;> rfl

theorem Runner.setNexusContext_of_initialized {P : Type} {r : Runner} {core core' : Core}
    {jobs : List (Job P)} (hc : core.resolveAll jobs = some core') (hinit : core.initialized) :
    r.setNexusContext jobs = r := by
  have hnone : (jobs.findSome? fun job => job.variant.initializes) = none :=
    List.findSome?_eq_none_iff.2 (Core.not_initialized_again hc hinit)
  simp [setNexusContext, hnone]

theorem Isolate.Inv.changeRunner {s : Isolate V} {r' : Runner} (h : s.Inv r registered)
    (hns : r'.ns = r.ns) (hid : r'.workflowId = r.workflowId)
    (hledger : s.ledger r' registered = s.ledger r registered)
    (hagrees : ∀ command ∈ s.commands, CommandAgrees (r'.encodeCommand command)) :
    s.Inv r' registered where
  ns := h.ns.trans hns.symm
  workflowId := h.workflowId.trans hid.symm
  ledger_lt := hledger ▸ h.ledger_lt
  completion_lt := h.completion_lt
  completion := hledger ▸ h.completion
  systemNexus := hledger ▸ h.systemNexus
  systemNexus_of_entry := hledger ▸ h.systemNexus_of_entry
  nexusCompletion := h.nexusCompletion
  unregistered := h.unregistered
  nodup := h.nodup
  accepted := h.accepted
  agrees := hagrees

namespace System

theorem inv_init (ns workflowId : String) (codecHeaders : Bool) :
    (init V ns workflowId codecHeaders).Inv where
  exchange := Exchange.inv_init ns workflowId codecHeaders
  sound :=
    { inv :=
        { ns := rfl
          workflowId := rfl
          ledger_lt := by simp [init, Isolate.init, Isolate.ledger, Exchange.register, Exchange.init]
          completion_lt := by simp [init, Isolate.init]
          completion := by simp [init, Isolate.init]
          systemNexus := by simp [init, Isolate.init]
          systemNexus_of_entry := by simp [init, Isolate.init]
          nexusCompletion := by simp [init, Isolate.init]
          unregistered := by simp [init, Isolate.init]
          nodup := by simp [init, Isolate.init]
          accepted := by simp [init, Isolate.init]
          agrees := by simp [init, Isolate.init] }
      agrees := by simp [init, Isolate.init] }
  inbox := by simp [init]
  nexus := by simp [init, Isolate.init]
  nexus_inbox := by simp [init]
  initialized := by simp [init, Isolate.init]
  commands := by simp [init, Isolate.init]
  sent := by simp [init]

variable {s : System V}

theorem Inv.ledger (h : s.Inv) :
    ∃ core, s.exchange.core.scheduleAll s.isolate.commands = some core ∧
      Known core (s.isolate.ledger s.exchange.runner s.exchange.registered) ∧
      ∀ k seq entry, s.exchange.registered k seq = some entry →
        s.isolate.ledger s.exchange.runner s.exchange.registered k seq = some entry := by
  rcases h.sound.inv.scheduleAll h.exchange.known with ⟨core, hcore⟩
  rcases known_scheduleAll (r := s.exchange.runner) hcore h.exchange.known with ⟨hknown, hkeep⟩
  exact ⟨core, hcore, hknown, hkeep⟩

theorem inv_handle (h : s.Inv) : (s.step .handle).Inv := by
  rcases h.ledger with ⟨core, _, hknown, _⟩
  simp only [step]
  split
  · exact h
  · rename_i job inbox hinbox
    have hjob : job ∈ s.inbox := by simp [hinbox]
    have hin : ∀ job' ∈ inbox, job' ∈ s.inbox := fun job' hjob' => by simp [hinbox, hjob']
    have hsound := h.sound.handle hknown.ordinary (h.inbox job hjob)
    have hframe := Isolate.frame_handle s.isolate job
    simp only [Isolate.frame, Prod.mk.injEq] at hframe
    rcases hframe with ⟨hinitialized, hnexus, hcommands⟩
    have hledger : (s.isolate.handle job).ledger s.exchange.runner s.exchange.registered =
        s.isolate.ledger s.exchange.runner s.exchange.registered := by
      simp [Isolate.ledger, hcommands]
    constructor
    case exchange => exact h.exchange
    case sound => exact hsound
    case inbox =>
      rw [hledger]
      exact fun job' hjob' => h.inbox job' (hin job' hjob')
    case nexus =>
      rw [hinitialized, hnexus]
      cases hv : job.variant with
      | initializeWorkflow propagated =>
        exact fun _ => (h.nexus_inbox job hjob propagated hv).symm
      | _ => simpa [JobVariant.initializes] using h.nexus
    case nexus_inbox => exact fun job' hjob' => h.nexus_inbox job' (hin job' hjob')
    case initialized =>
      rw [hinitialized]
      rintro (hinit | ⟨job', hjob', hinit⟩)
      · rcases Bool.or_eq_true_iff.1 hinit with hinit | hinit
        · exact h.initialized (.inl hinit)
        · exact h.initialized (.inr ⟨job, hjob, hinit⟩)
      · exact h.initialized (.inr ⟨job', hin job' hjob', hinit⟩)
    case commands =>
      rw [hinitialized, hcommands]
      exact fun hne => by simp [h.commands hne]
    case sent => exact h.sent

theorem inv_call {api : Api V} (h : s.Inv) (hnamed : api.Named) :
    (s.step (.call api)).Inv := by
  simp only [step]
  split
  · rename_i hinit
    have hcall := Isolate.inv_call h.sound.inv (h.nexus hinit) hnamed
    rcases Isolate.call_frame s.isolate api with ⟨hinitialized, hnexus, hconversions, new, hnew⟩
    -- The ledger only grows: core takes the new commands after the pushed ones.
    have hkeep : ∀ k seq entry,
        s.isolate.ledger s.exchange.runner s.exchange.registered k seq = some entry →
        (s.isolate.call api).ledger s.exchange.runner s.exchange.registered k seq =
          some entry := by
      rcases hcall.scheduleAll h.exchange.known with ⟨core', hcore'⟩
      rcases h.ledger with ⟨core, hcore, hknown, _⟩
      rw [hnew, Core.scheduleAll_append, hcore] at hcore'
      have hledger : (s.isolate.call api).ledger s.exchange.runner s.exchange.registered =
          Exchange.register s.exchange.runner
            (s.isolate.ledger s.exchange.runner s.exchange.registered) new := by
        simp [Isolate.ledger, Exchange.register, hnew]
      rw [hledger]
      exact (known_scheduleAll hcore' hknown).2
    constructor
    case exchange => exact h.exchange
    case sound =>
      refine ⟨hcall, ?_⟩
      rw [hconversions]
      exact h.sound.agrees
    case inbox => exact fun job hjob => (h.inbox job hjob).mono rfl rfl rfl hkeep
    case nexus =>
      rw [hinitialized, hnexus]
      exact h.nexus
    case nexus_inbox => exact h.nexus_inbox
    case initialized =>
      rw [hinitialized]
      exact h.initialized
    case commands =>
      rw [hinitialized]
      exact fun _ => hinit
    case sent => exact h.sent
  · exact h

theorem inv_conclude (h : s.Inv) : (s.step .conclude).Inv := by
  rcases h.ledger with ⟨core, hcore, hknown, hkeep⟩
  simp only [step]
  split
  · rename_i runner encoded hencode
    rcases Runner.encodeCompletion_spec hencode hcore with ⟨hencoded, hrunner⟩
    have hexchange : s.exchange.step (.encodeCompletion s.isolate.commands) =
        { s.exchange with
          runner := runner
          core := core
          registered := Exchange.register s.exchange.runner s.exchange.registered
            s.isolate.commands } := by
      simp [Exchange.step, hencode, hcore]
    have hinv := Exchange.inv_step s.exchange (.encodeCompletion s.isolate.commands) h.exchange
    rw [hexchange] at hinv ⊢
    subst hrunner
    constructor
    case exchange => exact hinv
    case sound =>
      refine ⟨?_, h.sound.agrees⟩
      exact
        { h.sound.inv with
          unregistered := by simp
          nodup := by simp
          accepted := by simp
          agrees := by simp }
    case inbox => exact fun job hjob => (h.inbox job hjob).mono rfl rfl rfl fun _ _ _ he => he
    case nexus => exact h.nexus
    case nexus_inbox => exact h.nexus_inbox
    case initialized =>
      intro hinit
      have hsame : core.initialized = s.exchange.core.initialized :=
        Core.scheduleAll_initialized hcore
      rw [hsame]
      exact h.initialized hinit
    case commands => simp
    case sent =>
      intro command hcommand
      rcases List.mem_append.1 hcommand with hcommand | hcommand
      · exact h.sent command hcommand
      · rw [hencoded] at hcommand
        rcases List.mem_map.1 hcommand with ⟨command', hcommand', rfl⟩
        exact h.sound.inv.agrees command' hcommand'
  · exact h

theorem inv_activate {jobs : List (Job (Converted V))} (h : s.Inv) :
    (s.step (.activate jobs)).Inv := by
  rcases h.ledger with ⟨_, _, _, hkeep⟩
  simp only [step]
  split
  · rename_i core hresolve
    have hinv := Exchange.inv_step s.exchange (.decodeActivation jobs) h.exchange
    rcases decodeActivation_spec h.exchange.tracks h.exchange.known hresolve
      with ⟨⟨tables, _, hr⟩, hdecoded⟩
    simp only [Exchange.step, hresolve] at hinv ⊢
    have hsame : (s.exchange.runner.decodeActivation jobs).1.ns = s.exchange.runner.ns ∧
        (s.exchange.runner.decodeActivation jobs).1.workflowId = s.exchange.runner.workflowId ∧
        (s.exchange.runner.decodeActivation jobs).1.codecHeaders =
          s.exchange.runner.codecHeaders := by
      rw [hr]
      unfold Runner.setNexusContext
      split <;> exact ⟨rfl, rfl, rfl⟩
    -- Commands are pushed after the workflow is initialized, and it is initialized once.
    have hold : s.exchange.core.initialized →
        (s.exchange.runner.decodeActivation jobs).1 =
          { s.exchange.runner with pendingCompletionContexts := tables } := by
      intro hinit
      rw [hr, Runner.setNexusContext_of_initialized hresolve hinit]
    have hnexus : s.exchange.core.initialized →
        (s.exchange.runner.decodeActivation jobs).1.nexusContext =
          s.exchange.runner.nexusContext := by
      intro hinit
      rw [hold hinit]
    have hledger : s.isolate.ledger (s.exchange.runner.decodeActivation jobs).1
        s.exchange.registered = s.isolate.ledger s.exchange.runner s.exchange.registered := by
      by_cases hcommands : s.isolate.commands = []
      · simp [Isolate.ledger, hcommands, Exchange.register]
      · rw [hold (h.initialized (.inl (h.commands hcommands)))]
        rfl
    have hagrees : ∀ command ∈ s.isolate.commands,
        CommandAgrees ((s.exchange.runner.decodeActivation jobs).1.encodeCommand command) := by
      intro command hcommand
      rw [hold (h.initialized (.inl (h.commands (List.ne_nil_of_mem hcommand))))]
      exact h.sound.inv.agrees command hcommand
    have hjobs : ∀ job ∈ (s.exchange.runner.decodeActivation jobs).2,
        ∃ job' ∈ jobs, job'.variant = job.variant := by
      intro job hjob
      have hmem := List.mem_map_of_mem (f := fun job : Job (Coded (Converted V)) => job.variant) hjob
      rw [decodeActivation_variants] at hmem
      exact List.mem_map.1 hmem
    constructor
    case exchange => exact hinv
    case sound =>
      exact ⟨h.sound.inv.changeRunner hsame.1 hsame.2.1 hledger hagrees, h.sound.agrees⟩
    case inbox =>
      intro job hjob
      rw [hledger]
      rcases List.mem_append.1 hjob with hjob | hjob
      · exact (h.inbox job hjob).mono hsame.1 hsame.2.1 hsame.2.2 fun _ _ _ he => he
      · exact (hdecoded job hjob).mono hsame.1 hsame.2.1 hsame.2.2 hkeep
    case nexus =>
      intro hinit
      rw [hnexus (h.initialized (.inl hinit))]
      exact h.nexus hinit
    case nexus_inbox =>
      intro job hjob propagated hv
      rcases List.mem_append.1 hjob with hjob | hjob
      · have hinit : s.exchange.core.initialized :=
          h.initialized (.inr ⟨job, hjob, by simp [hv, JobVariant.initializes]⟩)
        rw [hnexus hinit]
        exact h.nexus_inbox job hjob propagated hv
      · rcases hjobs job hjob with ⟨job', hjob', hsameVariant⟩
        have hinitializes : job'.variant.initializes = some propagated := by
          rw [hsameVariant, hv]
          rfl
        have hfind := findSome_initializes hresolve job' hjob' hinitializes
        rw [hr]
        simp [Runner.setNexusContext, hfind]
    case initialized =>
      intro hinit
      refine Core.resolveAll_initialized hresolve ?_
      rcases hinit with hinit | ⟨job, hjob, hinit⟩
      · exact .inl (h.initialized (.inl hinit))
      · rcases List.mem_append.1 hjob with hjob | hjob
        · exact .inl (h.initialized (.inr ⟨job, hjob, hinit⟩))
        · rcases hjobs job hjob with ⟨job', hjob', hsameVariant⟩
          exact .inr ⟨job', hjob', by rw [hsameVariant]; exact hinit⟩
    case commands => exact h.commands
    case sent => exact h.sent
  · exact h

/-- Every run with a conforming core in which the workflow names the operations that it schedules: the
converters and the codecs used the same context for each payload of each command that was sent, and for
each payload of each job that was converted. -/
theorem converters_agree_with_codecs (ns workflowId : String) (codecHeaders : Bool)
    (events : List (Event V))
    (h : Guarded step (fun s e => s.Conforming e ∧ e.Named) (init V ns workflowId codecHeaders)
      events) :
    (∀ command ∈ (run step (init V ns workflowId codecHeaders) events).sent, CommandAgrees command) ∧
      ∀ c ∈ (run step (init V ns workflowId codecHeaders) events).isolate.conversions, c.Agrees := by
  have hinit : (init V ns workflowId codecHeaders).Inv := inv_init ns workflowId codecHeaders
  have hstep : ∀ (s : System V) (e : Event V), (s.Conforming e ∧ e.Named) → s.Inv → (s.step e).Inv := by
    intro s e hguard hinv
    cases e with
    | activate jobs => exact inv_activate hinv
    | handle => exact inv_handle hinv
    | call api => exact inv_call hinv hguard.2
    | conclude => exact inv_conclude hinv
  have hinv := run_invariant hstep hinit h
  exact ⟨hinv.sent, hinv.sound.agrees⟩

/-- A workflow that runs one activity and completes with its result. -/
def runsActivity (activityId : Option String) : List (Event Nat) :=
  [.activate [⟨.initializeWorkflow none, [(.arguments, ⟨1, .skipped⟩)]⟩],
   .handle,
   .call (.scheduleActivity activityId [2] [] [3] [] false),
   .conclude,
   .activate [⟨.resolveActivity 1 .completed, [(.result, ⟨4, .skipped⟩)]⟩],
   .handle,
   .call (.completeWorkflow 5),
   .conclude]

theorem runsActivity_agrees :
    (∀ command ∈ (run step (init Nat "default" "workflow" false) (runsActivity none)).sent,
      CommandAgrees command) ∧
    ∀ c ∈ (run step (init Nat "default" "workflow" false) (runsActivity none)).isolate.conversions,
      c.Agrees :=
  converters_agree_with_codecs "default" "workflow" false (runsActivity none)
    ⟨⟨by decide +kernel, trivial⟩, ⟨by decide +kernel, trivial⟩,
      ⟨by decide +kernel, by simp [Event.Named, Api.Named]⟩, ⟨by decide +kernel, trivial⟩,
      ⟨by decide +kernel, trivial⟩, ⟨by decide +kernel, trivial⟩, ⟨by decide +kernel, trivial⟩,
      ⟨by decide +kernel, trivial⟩, trivial⟩

/-- A workflow that starts an operation that its Nexus service does not have. -/
def startsUnknownOperation : List (Event Nat) :=
  [.activate [⟨.initializeWorkflow none, []⟩],
   .handle,
   .call (.startOperation "endpoint" "service" none ⟨2, ⟨none, "", [], []⟩⟩ [] [] false),
   .conclude]

/-- With the empty string for an activity id, the converter is given the id and the codecs are given
none, for the arguments and for the result; without the name of an operation, the codecs are given the
empty string. -/
theorem unnamed_operations_disagree :
    (Guarded step Conforming (init Nat "default" "workflow" false) (runsActivity (some "")) ∧
      (¬ ∀ command ∈ (run step (init Nat "default" "workflow" false) (runsActivity (some ""))).sent,
        CommandAgrees command) ∧
      ¬ ∀ c ∈ (run step (init Nat "default" "workflow" false) (runsActivity (some ""))
          ).isolate.conversions, c.Agrees) ∧
    Guarded step Conforming (init Nat "default" "workflow" false) startsUnknownOperation ∧
      ¬ ∀ command ∈ (run step (init Nat "default" "workflow" false) startsUnknownOperation).sent,
        CommandAgrees command := by
  refine ⟨⟨by decide +kernel, fun hall => ?_, fun hall => ?_⟩, by decide +kernel, fun hall => ?_⟩
  · have hsent : (run step (init Nat "default" "workflow" false) (runsActivity (some ""))).sent.head? =
        some ⟨.scheduleActivity 1 "",
          [(.arguments, ⟨⟨2, .ran (some (.activity "default" (some "workflow") (some "") false))⟩,
              .ran (some (.activity "default" (some "workflow") none false))⟩),
           (.userMetadata, ⟨⟨3, .ran (some (.activity "default" (some "workflow") (some "") false))⟩,
              .ran (some (.activity "default" (some "workflow") none false))⟩)]⟩ := by
      decide +kernel
    have hagrees := hall _ (List.mem_of_mem_head? hsent) _ _ List.mem_cons_self _ rfl
    simp at hagrees
  · have hconversions :
        (run step (init Nat "default" "workflow" false) (runsActivity (some ""))
          ).isolate.conversions.getLast? =
        some ⟨.result, ⟨⟨4, .skipped⟩, .ran (some (.activity "default" (some "workflow") none false))⟩,
          some (.activity "default" (some "workflow") (some "") false)⟩ := by
      decide +kernel
    have hagrees := hall _ (List.mem_of_mem_getLast? hconversions) _ rfl
    simp at hagrees
  · have hsent : (run step (init Nat "default" "workflow" false) startsUnknownOperation).sent.head? =
        some ⟨.scheduleNexusOperation 1 "endpoint" "service" none .payload,
          [(.input, ⟨⟨2, .ran (some (.nexus "endpoint" "service" none))⟩,
              .ran (some (.nexus "endpoint" "service" (some "")))⟩)]⟩ := by
      decide +kernel
    have hagrees := hall _ (List.mem_of_mem_head? hsent) _ _ List.mem_cons_self _ rfl
    simp at hagrees

end System

end TemporalSdk.Codec
