import TemporalSdk.Codec.Exchange

/-!
# Resolutions — decoding the jobs of an activation

What one job of an activation does to the tables, and the context that its payloads are visited with.
A loop before the visit takes the entries of the System Nexus operations that the activation resolves,
so in the visit the tables are those of `Tracks` without the `taken` ones.
-/

namespace TemporalSdk.Codec

/-! ## Contexts -/

/-- What the codecs do to the payloads of a job that resolves an operation registered with `entry`. -/
def resolutionPass (codecHeaders : Bool) (entry : PendingContext) : Field → Pass
  | .result => if entry.isSystem then .skipped else .ran entry.context
  | .nested => if entry.isSystem then .ran entry.context else .skipped
  | .nestedHeaders => if entry.isSystem ∧ codecHeaders then .ran entry.context else .skipped
  | _ => .ran entry.context

/-- What the codecs do to the payloads of the other jobs. -/
def plainPass (ns workflowId : String) (codecHeaders : Bool) (v : JobVariant) : Field → Pass
  | .headers =>
    if codecHeaders then .ran (some (.workflow ns workflowId)) else .skipped
  | .searchAttributes => .skipped
  | .continuedFailure | .lastCompletionResult =>
    match v with
    | .initializeWorkflow propagated =>
      .ran ((nexusSerializationContextFromProto propagated).or (some (.workflow ns workflowId)))
    | _ => .ran (some (.workflow ns workflowId))
  | _ => .ran (some (.workflow ns workflowId))

/-- A job was decoded with the entry of the operation that it resolves, and without any entry when it
resolves none. -/
def DecodedWith {P : Type} (r : Runner)
    (registered : OperationKind → Nat → Option PendingContext) (job : Job (Coded P)) : Prop :=
  match job.variant.resolves with
  | some (k, seq) =>
    ∃ entry, registered k seq = some entry ∧
      ∀ f p, (f, p) ∈ job.payloads → job.variant.carries f →
        p.codec = resolutionPass r.codecHeaders entry f
  | none =>
    ∀ f p, (f, p) ∈ job.payloads → job.variant.carries f →
      p.codec = plainPass r.ns r.workflowId r.codecHeaders job.variant f

section Decoding

variable {P : Type} {registered : OperationKind → Nat → Option PendingContext}

theorem Core.resolve_cases {core core' : Core} {v : JobVariant} (h : core.resolve v = some core') :
    (v.resolves = none ∧ core'.status = core.status) ∨
      ∃ k seq st, v.resolves = some (k, seq) ∧ v.advance (core.status k seq) = some st ∧
        core' = core.setStatus k seq st := by
  unfold resolve at h
  split at h
  · rename_i k seq hop
    rcases Option.map_eq_some_iff.1 h with ⟨st, hst, rfl⟩
    exact .inr ⟨k, seq, st, hop, hst, rfl⟩
  · rename_i hop
    split at h
    · split at h
      · cases h
      · cases h
        exact .inl ⟨hop, rfl⟩
    · cases h
      exact .inl ⟨hop, rfl⟩

theorem JobVariant.advance_pending {v : JobVariant} {st st' : Status} (h : v.advance st = some st') :
    st = .scheduled ∨ st = .started := by
  cases st with
  | scheduled => exact .inl rfl
  | started => exact .inr rfl
  | unscheduled | resolved | notStarted => cases v <;> simp [advance] at h

variable {k : OperationKind}

/-- An operation that core has resolved gets no further job. -/
theorem Core.not_resolved_again {seq : Nat} {jobs : List (Job P)} :
    ∀ {core core' : Core}, core.resolveAll jobs = some core' →
      core.status k seq ≠ .scheduled → core.status k seq ≠ .started →
      ∀ job ∈ jobs, job.variant.resolves ≠ some (k, seq) := by
  induction jobs with
  | nil => simp
  | cons job jobs ih =>
    intro core core' h hs hs'
    rcases Option.bind_eq_some_iff.1 h with ⟨next, hnext, hrest⟩
    have hhead : job.variant.resolves ≠ some (k, seq) := by
      intro hop
      rcases resolve_cases hnext with ⟨hnone, _⟩ | ⟨k', n, st, hop', hst, rfl⟩
      · simp [hnone] at hop
      · rw [hop] at hop'
        cases hop'
        exact (JobVariant.advance_pending hst).elim hs hs'
    have hstatus : next.status k seq = core.status k seq := by
      rcases resolve_cases hnext with ⟨_, hsame⟩ | ⟨k', n, st, hop, hst, rfl⟩
      · rw [hsame]
      · refine setAt_of_ne ?_
        rintro ⟨rfl, rfl⟩
        exact hhead hop
    intro c hc
    rcases List.mem_cons.1 hc with rfl | hc
    · exact hhead
    · exact ih hrest (hstatus ▸ hs) (hstatus ▸ hs') c hc

variable {taken : List Nat} {core : Core} {st : Status}

theorem Tracks.setStatus {tables tables' : Table → Nat → Option PendingContext} {seq : Nat}
    (h : Tracks taken tables core registered)
    (hown : ∀ table : Table, table.kind = k → tables' table seq =
      if table.holds st ∧ ¬ (table = .nexusOperation ∧ seq ∈ taken) then registered k seq else none)
    (hother : ∀ table n, ¬ (table.kind = k ∧ n = seq) → tables' table n = tables table n) :
    Tracks taken tables' (core.setStatus k seq st) registered := by
  intro table n
  by_cases heq : table.kind = k ∧ n = seq
  · rcases heq with ⟨rfl, rfl⟩
    simpa [Core.setStatus] using hown table rfl
  · rw [hother table n heq]
    simpa [Core.setStatus, setAt_of_ne heq] using h table n

theorem Tracks.entry {taken : List Nat} {tables : Table → Nat → Option PendingContext} {core : Core}
    {table : Table} {seq : Nat} (h : Tracks taken tables core registered)
    (hk : Known core registered) (hholds : table.holds (core.status table.kind seq))
    (htaken : ¬ (table = .nexusOperation ∧ seq ∈ taken)) :
    ∃ entry, registered table.kind seq = some entry ∧ tables table seq = some entry := by
  have hknown : core.status table.kind seq ≠ .unscheduled := by
    intro hst
    simp [hst, Table.holds] at hholds
  rcases Option.isSome_iff_exists.1 ((hk.isSome_iff table.kind seq).1 hknown) with ⟨entry, he⟩
  refine ⟨entry, he, ?_⟩
  rw [h table seq, if_pos ⟨hholds, htaken⟩, he]

variable {r : Runner}

/-- The entry of an operation that is not a System Nexus operation is consumed with its resolution. -/
theorem Tracks.consume {table : Table} {seq : Nat}
    (h : Tracks taken r.pendingCompletionContexts core registered)
    (hk : Known core registered) (hholds : table.holds (core.status table.kind seq))
    (htaken : ¬ (table = .nexusOperation ∧ seq ∈ taken)) (hst : table.holds st = false)
    (hsame : ∀ t : Table, t.kind = table.kind → t ≠ table →
      t.holds st = t.holds (core.status table.kind seq)) :
    ∃ entry, registered table.kind seq = some entry ∧
      r.consumeContext table seq = (some entry, r.setPending table seq none) ∧
      Tracks taken (r.setPending table seq none).pendingCompletionContexts
        (core.setStatus table.kind seq st) registered := by
  rcases h.entry hk hholds htaken with ⟨entry, he, hpending⟩
  refine ⟨entry, he, by simp [Runner.consumeContext, hpending], ?_⟩
  refine h.setStatus ?_ ?_
  · intro t hkind
    by_cases ht : t = table
    · subst ht
      simp [hst]
    · have hne : ¬ (t = table ∧ seq = seq) := fun h => ht h.1
      rw [Runner.setPending_pendingCompletionContexts, setAt_of_ne hne, h t seq, hkind,
        hsame t hkind ht]
  · intro t n hne
    have hne' : ¬ (t = table ∧ n = seq) := by
      rintro ⟨rfl, rfl⟩
      exact hne ⟨rfl, rfl⟩
    exact setAt_of_ne hne'

/-- What the loop before the visit takes for a job, by the entry of the operation. -/
def resolvedInfo (registered : OperationKind → Nat → Option PendingContext) :
    JobVariant → Option PendingContext
  | .resolveNexusOperation seq _ => (registered .nexusOperation seq).filter PendingContext.isSystem
  | _ => none

/-- What `systemResultContexts` has for the Nexus operations that `v` resolves. -/
def TakenRight (registered : OperationKind → Nat → Option PendingContext) (taken : List Nat)
    (systemResult : Nat → Option SerializationContext) (v : JobVariant) : Prop :=
  ∀ seq result entry, v = .resolveNexusOperation seq result →
    registered .nexusOperation seq = some entry →
    if entry.isSystem then seq ∈ taken ∧ systemResult seq = some entry.context
    else seq ∉ taken ∧ systemResult seq = none

/-- The job `v` is visited with the context of the entry of its operation. -/
def VisitedWith (r : Runner) (registered : OperationKind → Nat → Option PendingContext)
    (v : JobVariant) (context : Option SerializationContext) : Prop :=
  match v.resolves with
  | none => context = some r.workflowContext
  | some (k, seq) =>
    ∃ entry, registered k seq = some entry ∧ ∀ f, v.carries f →
      r.jobPass context (resolvedInfo registered v) f = resolutionPass r.codecHeaders entry f

theorem Known.isSystem_eq_false (hk : Known core registered)
    {seq : Nat} {entry : PendingContext} (he : registered k seq = some entry)
    (hkind : k ≠ .nexusOperation) : entry.isSystem = false := by
  cases hsystem : entry.isSystem with
  | false => rfl
  | true => exact absurd (hk.ordinary k seq entry he hsystem) hkind

theorem ordinary_pass {entry : PendingContext} {f : Field}
    (ho : entry.isSystem = false) (hf : f = .result ∨ f = .failure) :
    r.jobPass (some entry.context) none f = resolutionPass r.codecHeaders entry f := by
  rcases hf with rfl | rfl <;> simp [Runner.jobPass, resolutionPass, ho]

/-- The entry that a job consumes, but for those of Nexus operations. -/
def JobVariant.consumes : JobVariant → Option (Table × Nat)
  | .resolveActivity seq _ => some (.activity, seq)
  | .resolveChildWorkflowExecutionStart seq _ => some (.childWorkflowStart, seq)
  | .resolveChildWorkflowExecution seq _ => some (.childWorkflowComplete, seq)
  | .resolveSignalExternalWorkflow seq => some (.signalWorkflow, seq)
  | .resolveRequestCancelExternalWorkflow seq => some (.cancelWorkflow, seq)
  | _ => none

section Consuming

variable {v : JobVariant} {table : Table} {seq : Nat}

theorem JobVariant.consumes_resolves (h : v.consumes = some (table, seq)) :
    v.resolves = some (table.kind, seq) ∧ table.kind ≠ .nexusOperation := by
  cases v <;> cases h <;> simp [resolves, Table.kind]

theorem JobVariant.consumes_carries (h : v.consumes = some (table, seq)) {f : Field}
    (hf : v.carries f) : f = .result ∨ f = .failure := by
  cases v with
  | resolveActivity _ status | resolveChildWorkflowExecutionStart _ status
  | resolveChildWorkflowExecution _ status => cases status <;> simp_all [carries]
  | resolveSignalExternalWorkflow | resolveRequestCancelExternalWorkflow => simp_all [carries]
  | _ => cases h

theorem JobVariant.consumes_holds (h : v.consumes = some (table, seq)) {cur st : Status}
    (hst : v.advance cur = some st) :
    table.holds cur ∧ table.holds st = false ∧
      ∀ t : Table, t.kind = table.kind → t ≠ table → t.holds st = t.holds cur := by
  cases v with
  | resolveActivity _ status | resolveChildWorkflowExecutionStart _ status
  | resolveChildWorkflowExecution _ status =>
    cases h
    cases status <;> cases cur <;> cases hst <;> refine ⟨rfl, rfl, fun t hkind hne => ?_⟩ <;>
      cases t <;> simp_all [Table.kind, Table.holds]
  | resolveSignalExternalWorkflow | resolveRequestCancelExternalWorkflow =>
    cases h
    cases cur <;> cases hst
    refine ⟨rfl, rfl, fun t hkind hne => ?_⟩
    cases t <;> simp_all [Table.kind]
  | _ => cases h

theorem Runner.jobContext_consumes (h : v.consumes = some (table, seq)) (r : Runner)
    (systemResult : Nat → Option SerializationContext) :
    r.jobContext systemResult v =
      ((r.consumeContext table seq).1.map (·.context), (r.consumeContext table seq).2) := by
  cases v <;> cases h <;> rfl

theorem resolvedInfo_consumes (h : v.consumes = some (table, seq)) :
    resolvedInfo registered v = none := by
  cases v <;> cases h <;> rfl

end Consuming

variable {systemResult : Nat → Option SerializationContext}

theorem Tracks.consume_spec {seq n : Nat} {v : JobVariant}
    {table : Table} (h : Tracks taken r.pendingCompletionContexts core registered)
    (hk : Known core registered) (hv : v.consumes = some (table, n))
    (hop : v.resolves = some (k, seq)) (hst : v.advance (core.status k seq) = some st) :
    (∃ tables, Tracks taken tables (core.setStatus k seq st) registered ∧
      (r.jobContext systemResult v).2 = { r with pendingCompletionContexts := tables }) ∧
    VisitedWith r registered v (r.jobContext systemResult v).1 := by
  rcases JobVariant.consumes_resolves hv with ⟨hop', hkind⟩
  rw [hop] at hop'
  cases hop'
  rcases JobVariant.consumes_holds hv hst with ⟨hholds, hfree, hsame⟩
  have htaken : ¬ (table = .nexusOperation ∧ seq ∈ taken) := by
    rintro ⟨rfl, _⟩
    exact hkind rfl
  rcases h.consume hk hholds htaken hfree hsame with ⟨entry, he, hconsume, htracks⟩
  rw [Runner.jobContext_consumes hv, hconsume]
  refine ⟨⟨_, htracks, rfl⟩, ?_⟩
  unfold VisitedWith
  rw [hop, resolvedInfo_consumes hv]
  exact ⟨entry, he, fun f hf =>
    ordinary_pass (hk.isSystem_eq_false he hkind) (JobVariant.consumes_carries hv hf)⟩

theorem Table.eq_nexusOperation {table : Table} (h : table.kind = .nexusOperation) :
    table = .nexusOperation := by
  cases table <;> simp_all [kind]

/-- The start of a Nexus operation: a failed one releases the entry. -/
theorem Tracks.nexusStart_spec {seq : Nat} {status : NexusStartStatus}
    (h : Tracks taken r.pendingCompletionContexts core registered) (hk : Known core registered)
    (hst : (JobVariant.resolveNexusOperationStart seq status).advance
      (core.status .nexusOperation seq) = some st) (hstart : status = .failed → seq ∉ taken) :
    (∃ tables, Tracks taken tables (core.setStatus .nexusOperation seq st) registered ∧
      (r.jobContext systemResult (.resolveNexusOperationStart seq status)).2 =
        { r with pendingCompletionContexts := tables }) ∧
    VisitedWith r registered (.resolveNexusOperationStart seq status)
      (r.jobContext systemResult (.resolveNexusOperationStart seq status)).1 := by
  have hs : core.status .nexusOperation seq = .scheduled := by
    cases hs : core.status .nexusOperation seq <;> rw [hs] at hst <;> cases status <;>
      simp [JobVariant.advance] at hst ⊢
  rw [hs] at hst
  have hholds : Table.nexusOperation.holds (core.status .nexusOperation seq) := by
    simp [hs, Table.holds]
  by_cases hfailed : status = .failed
  · subst hfailed
    cases hst
    have htaken : ¬ (Table.nexusOperation = .nexusOperation ∧ seq ∈ taken) :=
      fun h => hstart rfl h.2
    have hfree : Table.nexusOperation.holds .resolved = false := rfl
    have hother : ∀ t : Table, t.kind = Table.nexusOperation.kind → t ≠ .nexusOperation →
        t.holds .resolved = t.holds (core.status .nexusOperation seq) :=
      fun t hkind hne => absurd (Table.eq_nexusOperation hkind) hne
    rcases h.entry hk hholds htaken with ⟨entry, he, hpending⟩
    rcases h.consume hk hholds htaken hfree hother with ⟨_, _, _, htracks⟩
    refine ⟨⟨_, htracks, rfl⟩, entry, he, ?_⟩
    intro f hf
    have hf : f = .failure := by simpa [JobVariant.carries] using hf
    simp [hf, Runner.jobContext, Runner.jobPass, resolutionPass, hpending]
  · have hst : st = .started := by
      cases status <;> simp_all [JobVariant.advance]
    refine ⟨⟨r.pendingCompletionContexts, ?_, ?_⟩, ?_⟩
    · refine h.setStatus ?_ fun _ _ _ => rfl
      intro table hkind
      cases Table.eq_nexusOperation hkind
      rw [h]
      simp [hst, hs, Table.holds, Table.kind]
    · simp [Runner.jobContext, hfailed]
    · rcases Option.isSome_iff_exists.1
        ((hk.isSome_iff .nexusOperation seq).1 (by simp [hs])) with ⟨entry, he⟩
      refine ⟨entry, he, ?_⟩
      intro f hf
      cases status <;> simp_all [JobVariant.carries]

theorem JobVariant.carries_nexusOperation {seq : Nat} {result : NexusStatus} {f : Field}
    (h : (JobVariant.resolveNexusOperation seq result).carries f) :
    f = .result ∨ f = .nested ∨ f = .nestedHeaders ∨ f = .failure := by
  cases result <;> simp [carries] at h <;> grind

/-- The resolution of a Nexus operation. -/
theorem Tracks.nexusOperation_spec {seq : Nat} {result : NexusStatus}
    (h : Tracks taken r.pendingCompletionContexts core registered) (hk : Known core registered)
    (hst : (JobVariant.resolveNexusOperation seq result).advance
      (core.status .nexusOperation seq) = some st)
    (hright : TakenRight registered taken systemResult (.resolveNexusOperation seq result)) :
    (∃ tables, Tracks taken tables (core.setStatus .nexusOperation seq st) registered ∧
      (r.jobContext systemResult (.resolveNexusOperation seq result)).2 =
        { r with pendingCompletionContexts := tables }) ∧
    VisitedWith r registered (.resolveNexusOperation seq result)
      (r.jobContext systemResult (.resolveNexusOperation seq result)).1 := by
  have hholds : Table.nexusOperation.holds (core.status .nexusOperation seq) := by
    rcases JobVariant.advance_pending hst with hs | hs <;> simp [hs, Table.holds]
  have hresolved : st = .resolved := by
    rcases JobVariant.advance_pending hst with hs | hs <;> rw [hs] at hst <;> cases hst <;> rfl
  subst hresolved
  have hknown : core.status .nexusOperation seq ≠ .unscheduled := by
    rcases JobVariant.advance_pending hst with hs | hs <;> simp [hs]
  rcases Option.isSome_iff_exists.1 ((hk.isSome_iff .nexusOperation seq).1 hknown)
    with ⟨entry, he⟩
  have hentry := hright seq result entry rfl he
  cases hsystem : entry.isSystem with
  | true =>
    -- The entry was taken before the visit; `systemResultContexts` has its context.
    rw [hsystem, if_pos rfl] at hentry
    have hctx : r.jobContext systemResult (.resolveNexusOperation seq result) =
        (some entry.context, r) := by
      simp [Runner.jobContext, hentry.2]
    rw [hctx]
    refine ⟨⟨r.pendingCompletionContexts, ?_, rfl⟩, entry, he, ?_⟩
    · refine h.setStatus ?_ fun _ _ _ => rfl
      intro table hkind
      cases Table.eq_nexusOperation hkind
      rw [h]
      simp [hentry.1]
    · intro f hf
      have hinfo : resolvedInfo registered (.resolveNexusOperation seq result) = some entry := by
        simp [resolvedInfo, he, hsystem]
      rw [hinfo]
      rcases JobVariant.carries_nexusOperation hf with rfl | rfl | rfl | rfl <;>
        simp [Runner.jobPass, resolutionPass, hsystem]
  | false =>
    rw [hsystem] at hentry
    have hentry : seq ∉ taken ∧ systemResult seq = none := by simpa using hentry
    have htaken : ¬ (Table.nexusOperation = .nexusOperation ∧ seq ∈ taken) :=
      fun h => hentry.1 h.2
    have hother : ∀ t : Table, t.kind = Table.nexusOperation.kind → t ≠ .nexusOperation →
        t.holds .resolved = t.holds (core.status .nexusOperation seq) :=
      fun t hkind hne => absurd (Table.eq_nexusOperation hkind) hne
    rcases h.entry hk hholds htaken with ⟨_, he', hpending⟩
    cases he.symm.trans he'
    rcases h.consume hk hholds htaken rfl hother with ⟨_, _, _, htracks⟩
    have hctx : r.jobContext systemResult (.resolveNexusOperation seq result) =
        (some entry.context, r.setPending .nexusOperation seq none) := by
      simp [Runner.jobContext, hentry.2, Runner.consumeContext, hpending]
    rw [hctx]
    refine ⟨⟨_, htracks, rfl⟩, entry, he, ?_⟩
    intro f hf
    have hinfo : resolvedInfo registered (.resolveNexusOperation seq result) = none := by
      simp [resolvedInfo, he, hsystem]
    rw [hinfo]
    rcases JobVariant.carries_nexusOperation hf with rfl | rfl | rfl | rfl <;>
      simp [Runner.jobPass, resolutionPass, hsystem]

/-- One job of the visit: the tables follow core, and the job is visited with the right context. -/
theorem jobContext_spec {core core' : Core} {v : JobVariant}
    (h : Tracks taken r.pendingCompletionContexts core registered) (hk : Known core registered)
    (hc : core.resolve v = some core') (hright : TakenRight registered taken systemResult v)
    (hstart : ∀ seq, v = .resolveNexusOperationStart seq .failed → seq ∉ taken) :
    (∃ tables, Tracks taken tables core' registered ∧
      (r.jobContext systemResult v).2 = { r with pendingCompletionContexts := tables }) ∧
    VisitedWith r registered v (r.jobContext systemResult v).1 := by
  rcases Core.resolve_cases hc with ⟨hop, hsame⟩ | ⟨k, seq, st, hop, hst, rfl⟩
  · refine ⟨⟨r.pendingCompletionContexts, ?_, ?_⟩, ?_⟩
    · intro table seq
      rw [hsame]
      exact h table seq
    all_goals cases v <;> first | rfl | cases hop
  · cases v with
    | resolveNexusOperationStart =>
      cases hop
      exact h.nexusStart_spec hk hst fun hfailed => hstart seq (by rw [hfailed])
    | resolveNexusOperation =>
      cases hop
      exact h.nexusOperation_spec hk hst hright
    | resolveActivity | resolveChildWorkflowExecutionStart | resolveChildWorkflowExecution
    | resolveSignalExternalWorkflow | resolveRequestCancelExternalWorkflow =>
      exact h.consume_spec hk rfl hop hst
    | _ => cases hop

end Decoding

end TemporalSdk.Codec
