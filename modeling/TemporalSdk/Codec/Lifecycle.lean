import TemporalSdk.Codec.Resolutions

/-!
# Lifecycle — what the runner remembers of the operations of a run

Over every exchange with a conforming core, an entry is in the tables from the command that schedules an
operation to the job that uses it last, and no other job uses it.

The exception is a child workflow that fails to start.  Its start is terminal, but only the entry of
`childWorkflowStart` is consumed with it.
-/

namespace TemporalSdk.Codec

open Machine

variable {P : Type} {registered : OperationKind → Nat → Option PendingContext}

/-! ## The loop before the visit -/

/-- The job resolves a System Nexus operation, and its entry is taken before the visit. -/
def Takes (registered : OperationKind → Nat → Option PendingContext) (seq : Nat)
    (v : JobVariant) : Prop :=
  ∃ result entry, v = .resolveNexusOperation seq result ∧
    registered .nexusOperation seq = some entry ∧ entry.isSystem

variable {seq : Nat} {v : JobVariant} {core core' : Core}

theorem Core.holds_of_resolve (h : core.resolve v = some core')
    (hholds : Table.nexusOperation.holds (core'.status .nexusOperation seq)) :
    Table.nexusOperation.holds (core.status .nexusOperation seq) := by
  rcases resolve_cases h with ⟨_, hsame⟩ | ⟨k, n, st, hop, hst, rfl⟩
  · rwa [hsame] at hholds
  · by_cases heq : OperationKind.nexusOperation = k ∧ seq = n
    · rcases heq with ⟨rfl, rfl⟩
      rcases JobVariant.advance_pending hst with hs | hs <;> simp [hs, Table.holds]
    · simpa [setStatus, setAt_of_ne heq] using hholds

theorem Core.resolve_nexusOperation {result : NexusStatus}
    (h : core.resolve (.resolveNexusOperation seq result) = some core') :
    Table.nexusOperation.holds (core.status .nexusOperation seq) ∧
      Table.nexusOperation.holds (core'.status .nexusOperation seq) = false := by
  rcases resolve_cases h with ⟨hop, _⟩ | ⟨k, n, st, hop, hst, rfl⟩
  · cases hop
  · cases hop
    rcases JobVariant.advance_pending hst with hs | hs <;> rw [hs] at hst ⊢ <;> cases hst <;>
      simp [setStatus, Table.holds]

variable {r : Runner} {taken : List Nat}

/-- One turn of the loop. -/
theorem takeSystemInfo_spec {core : Core}
    (h : Tracks taken r.pendingCompletionContexts core registered)
    (hv : ∀ seq result, v = .resolveNexusOperation seq result →
      Table.nexusOperation.holds (core.status .nexusOperation seq) ∧ seq ∉ taken) :
    r.systemInfo v = resolvedInfo registered v ∧
      ∃ tables taken', Tracks taken' tables core registered ∧
        r.takeSystemInfo v = { r with pendingCompletionContexts := tables } ∧
        ∀ seq, seq ∈ taken' ↔ seq ∈ taken ∨ Takes registered seq v := by
  cases v with
  | resolveNexusOperation seq result =>
    rcases hv seq result rfl with ⟨hholds, htaken⟩
    have hpending : r.pendingCompletionContexts .nexusOperation seq =
        registered .nexusOperation seq := by
      rw [h .nexusOperation seq, if_pos ⟨hholds, fun h => htaken h.2⟩]
      rfl
    have hinfo : r.systemInfo (.resolveNexusOperation seq result) =
        resolvedInfo registered (.resolveNexusOperation seq result) := by
      simp [Runner.systemInfo, resolvedInfo, hpending]
    refine ⟨hinfo, ?_⟩
    cases hsome : resolvedInfo registered (.resolveNexusOperation seq result) with
    | none =>
      refine ⟨_, taken, h, by simp [Runner.takeSystemInfo, hinfo, hsome], fun n => ?_⟩
      have hnot : ¬ Takes registered n (.resolveNexusOperation seq result) := by
        rintro ⟨result', entry, heq, he, hsystem⟩
        cases heq
        simp [resolvedInfo, he, hsystem] at hsome
      simp [hnot]
    | some entry =>
      have hentry : registered .nexusOperation seq = some entry ∧ entry.isSystem := by
        simpa [resolvedInfo, Option.filter_eq_some_iff] using hsome
      refine ⟨setAt r.pendingCompletionContexts .nexusOperation seq none, seq :: taken, ?_,
        by simp [Runner.takeSystemInfo, hinfo, hsome, Runner.setPending], fun n => ?_⟩
      · intro table n
        by_cases heq : table = .nexusOperation ∧ n = seq
        · simp [heq]
        · rw [setAt_of_ne heq, h table n]
          grind
      · have htakes : Takes registered n (.resolveNexusOperation seq result) ↔ n = seq := by
          constructor
          · rintro ⟨_, _, heq, _⟩
            cases heq
            rfl
          · rintro rfl
            exact ⟨result, entry, rfl, hentry⟩
        rw [htakes, List.mem_cons, or_comm]
  | _ =>
    refine ⟨rfl, r.pendingCompletionContexts, taken, h, rfl, fun seq => ?_⟩
    simp [Takes]

variable {jobs : List (Job P)}

/-- The whole loop: it takes the entries of the System Nexus operations that the activation resolves. -/
theorem takeSystemInfos_spec {core₀ : Core} :
    ∀ {r : Runner} {core core' : Core} {taken : List Nat},
      Tracks taken r.pendingCompletionContexts core₀ registered →
      core.resolveAll jobs = some core' →
      (∀ seq, Table.nexusOperation.holds (core.status .nexusOperation seq) →
        Table.nexusOperation.holds (core₀.status .nexusOperation seq) ∧ seq ∉ taken) →
      ∃ tables taken', Tracks taken' tables core₀ registered ∧
        r.takeSystemInfos jobs =
          (jobs.map fun job => (job, resolvedInfo registered job.variant),
            { r with pendingCompletionContexts := tables }) ∧
        ∀ seq, seq ∈ taken' ↔ seq ∈ taken ∨ ∃ job ∈ jobs, Takes registered seq job.variant := by
  induction jobs with
  | nil =>
    intro r core core' taken h _ _
    exact ⟨_, taken, h, rfl, by simp⟩
  | cons job jobs ih =>
    intro r core core' taken h hc hholds
    rcases Option.bind_eq_some_iff.1 hc with ⟨next, hnext, hrest⟩
    have hv : ∀ seq result, job.variant = .resolveNexusOperation seq result →
        Table.nexusOperation.holds (core₀.status .nexusOperation seq) ∧ seq ∉ taken := by
      intro seq result heq
      rw [heq] at hnext
      exact hholds seq (Core.resolve_nexusOperation hnext).1
    rcases takeSystemInfo_spec h hv with ⟨hinfo, tables, taken', htracks, htake, htaken'⟩
    have hnextHolds : ∀ seq, Table.nexusOperation.holds (next.status .nexusOperation seq) →
        Table.nexusOperation.holds (core₀.status .nexusOperation seq) ∧ seq ∉ taken' := by
      intro seq hseq
      rcases hholds seq (Core.holds_of_resolve hnext hseq) with ⟨hseq₀, hnot⟩
      refine ⟨hseq₀, fun hmem => ?_⟩
      rcases (htaken' seq).1 hmem with hmem | ⟨result, _, heq, _⟩
      · exact hnot hmem
      · rw [heq] at hnext
        simp [(Core.resolve_nexusOperation hnext).2] at hseq
    have htracks' : Tracks taken'
        ({ r with pendingCompletionContexts := tables } : Runner).pendingCompletionContexts
        core₀ registered := htracks
    rcases ih htracks' hrest hnextHolds with ⟨tables', taken'', htracks'', hloop, htaken''⟩
    refine ⟨tables', taken'', htracks'', ?_, fun seq => ?_⟩
    · simp [Runner.takeSystemInfos, htake, hinfo, hloop]
    · rw [htaken'' seq, htaken' seq]
      simp [or_assoc]

/-! ## The visit -/

theorem systemResultContext_eq_some {context : SerializationContext} (h : Runner.systemResultContext
      (jobs.map fun job => (job, resolvedInfo registered job.variant)) seq = some context) :
    ∃ entry, registered .nexusOperation seq = some entry ∧ entry.isSystem ∧
      entry.context = context := by
  rcases List.exists_of_findSome?_eq_some h with ⟨⟨job, info⟩, hmem, hsome⟩
  have hmem : ∃ job' ∈ jobs, (job', resolvedInfo registered job'.variant) = (job, info) := by
    simpa using hmem
  rcases hmem with ⟨job', _, heq⟩
  cases heq
  dsimp only at hsome
  split at hsome
  · rename_i n result info hv hinfo
    rw [hv] at hinfo
    split at hsome
    · rename_i heq
      cases hsome
      subst heq
      have hentry : registered .nexusOperation n = some info ∧ info.isSystem := by
        simpa [resolvedInfo, Option.filter_eq_some_iff] using hinfo
      exact ⟨info, hentry.1, hentry.2, rfl⟩
    · cases hsome
  · cases hsome

theorem systemResultContext_of_takes {job : Job P}
    {result : NexusStatus} {entry : PendingContext} (hjob : job ∈ jobs)
    (hv : job.variant = .resolveNexusOperation seq result)
    (he : registered .nexusOperation seq = some entry) (hsystem : entry.isSystem) :
    Runner.systemResultContext
      (jobs.map fun job => (job, resolvedInfo registered job.variant)) seq =
        some entry.context := by
  cases h : Runner.systemResultContext
      (jobs.map fun job => (job, resolvedInfo registered job.variant)) seq with
  | some context =>
    rcases systemResultContext_eq_some h with ⟨entry', he', _, rfl⟩
    cases he.symm.trans he'
    rfl
  | none =>
    have hmem : (job, resolvedInfo registered job.variant) ∈
        (jobs.map fun job => (job, resolvedInfo registered job.variant)).reverse :=
      List.mem_reverse.2 (List.mem_map.2 ⟨job, hjob, rfl⟩)
    have hinfo : resolvedInfo registered job.variant = some entry := by
      simp [hv, resolvedInfo, he, hsystem]
    have hnone := List.findSome?_eq_none_iff.1 h _ hmem
    rw [hinfo] at hnone
    simp [hv] at hnone

theorem plain_pass {f : Field} (hop : v.resolves = none)
    (hinit : ∀ propagated, v = .initializeWorkflow propagated →
      r.nexusContext = nexusSerializationContextFromProto propagated) (hf : v.carries f) :
    r.jobPass (some r.workflowContext) (resolvedInfo registered v) f =
      plainPass r.ns r.workflowId r.codecHeaders v f := by
  have hinfo : resolvedInfo registered v = none := by
    cases v <;> first | rfl | cases hop
  cases v with
  | initializeWorkflow propagated =>
    have hnexus := hinit propagated rfl
    cases f <;> simp_all [JobVariant.carries, Runner.jobPass, plainPass, Runner.workflowContext]
  | signalWorkflow | queryWorkflow | doUpdate =>
    cases f <;> simp_all [JobVariant.carries, Runner.jobPass, plainPass, Runner.workflowContext]
  | fireTimer | cancelWorkflow | updateRandomSeed | notifyHasPatch => cases hf
  | _ => cases hop

theorem JobVariant.advance_ne_unscheduled {st st' : Status}
    (h : v.advance st = some st') : st' ≠ .unscheduled := by
  rintro rfl
  unfold advance at h
  split at h <;> cases h

theorem known_resolve (h : core.resolve v = some core')
    (hk : Known core registered) : Known core' registered := by
  refine ⟨fun k seq => ?_, hk.ordinary⟩
  rw [← hk.isSome_iff k seq]
  rcases Core.resolve_cases h with ⟨_, hsame⟩ | ⟨k', n, st, _, hst, rfl⟩
  · rw [hsame]
  · by_cases heq : k = k' ∧ seq = n
    · rcases heq with ⟨rfl, rfl⟩
      have hpending : core.status k seq ≠ .unscheduled := by
        rcases JobVariant.advance_pending hst with hs | hs <;> simp [hs]
      simp [Core.setStatus, JobVariant.advance_ne_unscheduled hst, hpending]
    · simp [Core.setStatus, setAt_of_ne heq]

theorem Tracks.untaken {tables : Table → Nat → Option PendingContext} {core : Core}
    (h : Tracks taken tables core registered)
    (hgone : ∀ seq ∈ taken, ¬ Table.nexusOperation.holds (core.status .nexusOperation seq)) :
    Tracks [] tables core registered := by
  intro table seq
  rw [h table seq]
  by_cases heq : table = .nexusOperation ∧ seq ∈ taken
  · rcases heq with ⟨rfl, hmem⟩
    have hfree := hgone seq hmem
    simp [Table.kind, hfree]
  · simp [heq]

theorem Core.resolve_nexusStart_failed
    (h : core.resolve (.resolveNexusOperationStart seq .failed) = some core') :
    core.status .nexusOperation seq = .scheduled ∧ core'.status .nexusOperation seq = .resolved := by
  rcases resolve_cases h with ⟨hop, _⟩ | ⟨k, n, st, hop, hst, rfl⟩
  · cases hop
  · cases hop
    cases hcur : core.status .nexusOperation seq <;> rw [hcur] at hst <;> cases hst
    simp [setStatus]

variable {systemResult : Nat → Option SerializationContext}

/-- A job that is visited with the context of its operation is decoded with it. -/
theorem decodedWith_decodeJob
    {job : Job P} (h : VisitedWith r registered job.variant (r.jobContext systemResult job.variant).1)
    (hinit : ∀ propagated, job.variant = .initializeWorkflow propagated →
      r.nexusContext = nexusSerializationContextFromProto propagated) :
    DecodedWith r registered
      (r.decodeJob systemResult job (resolvedInfo registered job.variant)) := by
  unfold VisitedWith at h
  unfold DecodedWith
  simp only [Runner.decodeJob, Message.visit_variant]
  cases hop : job.variant.resolves with
  | none =>
    simp only [hop] at h ⊢
    intro f p hp hf
    rw [(Message.mem_visit hp).1, h]
    exact plain_pass hop hinit hf
  | some op =>
    simp only [hop] at h ⊢
    rcases h with ⟨entry, he, hpass⟩
    refine ⟨entry, he, fun f p hp hf => ?_⟩
    rw [(Message.mem_visit hp).1]
    exact hpass f hf

/-- The visit of an activation, as a whole.  The taken entries are those of operations that a job yet to
be visited resolves. -/
theorem decodeJobs_spec
    :
    ∀ {r : Runner} {core core' : Core},
      Tracks taken r.pendingCompletionContexts core registered → Known core registered →
      core.resolveAll jobs = some core' →
      (∀ job ∈ jobs, TakenRight registered taken systemResult job.variant) →
      (∀ job ∈ jobs, ∀ propagated, job.variant = .initializeWorkflow propagated →
        r.nexusContext = nexusSerializationContextFromProto propagated) →
      (∀ seq ∈ taken, Table.nexusOperation.holds (core.status .nexusOperation seq) →
        ∃ job ∈ jobs, ∃ result, job.variant = .resolveNexusOperation seq result) →
      (∃ tables, Tracks [] tables core' registered ∧
        (Runner.decodeJobs systemResult r
          (jobs.map fun job => (job, resolvedInfo registered job.variant))).1 =
            { r with pendingCompletionContexts := tables }) ∧
      ∀ job ∈ (Runner.decodeJobs systemResult r
          (jobs.map fun job => (job, resolvedInfo registered job.variant))).2,
        DecodedWith r registered job := by
  induction jobs with
  | nil =>
    intro r core core' h hk hc _ _ htaken
    cases hc
    refine ⟨⟨r.pendingCompletionContexts, h.untaken ?_, rfl⟩, by simp [Runner.decodeJobs]⟩
    intro seq hmem hholds
    simpa using htaken seq hmem hholds
  | cons job jobs ih =>
    intro r core core' h hk hc hright hinit htaken
    rcases Option.bind_eq_some_iff.1 hc with ⟨next, hnext, hrest⟩
    have hstart : ∀ seq, job.variant = .resolveNexusOperationStart seq .failed → seq ∉ taken := by
      -- A failed start is terminal: no job of the activation resolves the operation once more.
      intro seq hv hmem
      have hhead := hnext
      rw [hv] at hhead
      rcases Core.resolve_nexusStart_failed hhead with ⟨hcur, hst⟩
      rcases htaken seq hmem (by simp [hcur, Table.holds]) with ⟨job', hjob', result, hv'⟩
      rcases List.mem_cons.1 hjob' with rfl | hjob'
      · simp [hv] at hv'
      · have hnot : job'.variant.resolves ≠ some (.nexusOperation, seq) :=
          Core.not_resolved_again hrest (by simp [hst]) (by simp [hst]) job' hjob'
        exact hnot (by rw [hv']; rfl)
    rcases jobContext_spec h hk hnext (hright job List.mem_cons_self) hstart
      with ⟨⟨tables, htracks, hr⟩, hvisited⟩
    have hleft : ∀ seq ∈ taken, Table.nexusOperation.holds (next.status .nexusOperation seq) →
        ∃ job ∈ jobs, ∃ result, job.variant = .resolveNexusOperation seq result := by
      intro seq hmem hholds
      rcases htaken seq hmem (Core.holds_of_resolve hnext hholds) with ⟨job', hjob', result, hv'⟩
      rcases List.mem_cons.1 hjob' with rfl | hjob'
      · rw [hv'] at hnext
        simp [(Core.resolve_nexusOperation hnext).2] at hholds
      · exact ⟨job', hjob', result, hv'⟩
    have htracks' : Tracks taken (r.jobContext systemResult job.variant).2.pendingCompletionContexts
        next registered := by
      rw [hr]
      exact htracks
    have hinit' : ∀ job' ∈ jobs, ∀ propagated, job'.variant = .initializeWorkflow propagated →
        (r.jobContext systemResult job.variant).2.nexusContext =
          nexusSerializationContextFromProto propagated := by
      intro job' hjob' propagated hv
      rw [hr]
      exact hinit job' (List.mem_cons_of_mem _ hjob') propagated hv
    rcases ih htracks' (known_resolve hnext hk) hrest
      (fun job' hjob' => hright job' (List.mem_cons_of_mem _ hjob')) hinit' hleft
      with ⟨⟨tables', htracks'', hr'⟩, hdecoded⟩
    refine ⟨⟨tables', htracks'', ?_⟩, ?_⟩
    · simp only [List.map_cons, Runner.decodeJobs]
      rw [hr', hr]
    · intro job' hjob'
      simp only [List.map_cons, Runner.decodeJobs, List.mem_cons] at hjob'
      rcases hjob' with rfl | hjob'
      · exact decodedWith_decodeJob hvisited (hinit job List.mem_cons_self)
      · have hdone := hdecoded job' hjob'
        rw [hr] at hdone
        exact hdone

/-! ## `decodeActivation` -/

theorem Core.not_initialized_again :
    ∀ {core core' : Core}, core.resolveAll jobs = some core' → core.initialized →
      ∀ job ∈ jobs, job.variant.initializes = none := by
  induction jobs with
  | nil => simp
  | cons job jobs ih =>
    intro core core' hc hinit
    rcases Option.bind_eq_some_iff.1 hc with ⟨next, hnext, hrest⟩
    have hhead : job.variant.initializes = none := by
      cases hv : job.variant with
      | initializeWorkflow => simp [hv, resolve, JobVariant.resolves, hinit] at hnext
      | _ => rfl
    have hnextInit : next.initialized := by
      unfold resolve at hnext
      split at hnext
      · rcases Option.map_eq_some_iff.1 hnext with ⟨_, _, rfl⟩
        exact hinit
      · split at hnext <;> simp_all
    intro job' hjob'
    rcases List.mem_cons.1 hjob' with rfl | hjob'
    · exact hhead
    · exact ih hrest hnextInit job' hjob'

/-- The job that initializes the workflow is the one that `decodeActivation` finds. -/
theorem findSome_initializes {propagated : Option PropagatedContext} :
    ∀ {core core' : Core}, core.resolveAll jobs = some core' →
      ∀ job ∈ jobs, job.variant.initializes = some propagated →
        (jobs.findSome? fun job => job.variant.initializes) = some propagated := by
  induction jobs with
  | nil => simp
  | cons head jobs ih =>
    intro core core' hc job hjob hv
    rcases Option.bind_eq_some_iff.1 hc with ⟨next, hnext, hrest⟩
    cases hhead : head.variant.initializes with
    | none =>
      rcases List.mem_cons.1 hjob with rfl | hjob
      · simp [hhead] at hv
      · simpa [List.findSome?_cons, hhead] using ih hrest job hjob hv
    | some first =>
      rcases List.mem_cons.1 hjob with rfl | hjob
      · simp [hv]
      · have hnextInit : next.initialized := by
          cases hh : head.variant <;> rw [hh] at hhead hnext <;> cases hhead
          simp only [Core.resolve, JobVariant.resolves] at hnext
          split at hnext <;> cases hnext
          rfl
        have hnone := Core.not_initialized_again hrest hnextInit job hjob
        simp [hnone] at hv

/-- Decoding an activation of a conforming core. -/
theorem decodeActivation_spec
    (h : Tracks [] r.pendingCompletionContexts core registered) (hk : Known core registered)
    (hc : core.resolveAll jobs = some core') :
    (∃ tables, Tracks [] tables core' registered ∧
      (r.decodeActivation jobs).1 =
        { r.setNexusContext jobs with pendingCompletionContexts := tables }) ∧
    ∀ job ∈ (r.decodeActivation jobs).2, DecodedWith r registered job := by
  have hsame : ∃ nexusContext, r.setNexusContext jobs = { r with nexusContext := nexusContext } := by
    unfold Runner.setNexusContext
    split
    · exact ⟨_, rfl⟩
    · exact ⟨r.nexusContext, rfl⟩
  rcases hsame with ⟨nexusContext, hsame⟩
  have hinit : ∀ job ∈ jobs, ∀ propagated, job.variant = .initializeWorkflow propagated →
      nexusContext = nexusSerializationContextFromProto propagated := by
    intro job hjob propagated hv
    have hfind := findSome_initializes hc job hjob (by rw [hv]; rfl)
    have hset : (r.setNexusContext jobs).nexusContext =
        nexusSerializationContextFromProto propagated := by
      simp [Runner.setNexusContext, hfind]
    rwa [hsame] at hset
  unfold Runner.decodeActivation
  rw [hsame]
  have htracks : Tracks [] ({ r with nexusContext := nexusContext } : Runner).pendingCompletionContexts
      core registered := h
  rcases takeSystemInfos_spec htracks hc (fun seq hholds => ⟨hholds, by simp⟩)
    with ⟨tables, taken, htaken, hloop, hmem⟩
  have hmem : ∀ seq, seq ∈ taken ↔ ∃ job ∈ jobs, Takes registered seq job.variant := by
    simpa using hmem
  simp only [hloop]
  refine decodeJobs_spec htaken hk hc ?_ hinit ?_
  · intro job hjob seq result entry hv he
    cases hsystem : entry.isSystem with
    | true =>
      refine ⟨(hmem seq).2 ⟨job, hjob, result, entry, hv, he, hsystem⟩, ?_⟩
      exact systemResultContext_of_takes hjob hv he hsystem
    | false =>
      refine ⟨fun hin => ?_, ?_⟩
      · rcases (hmem seq).1 hin with ⟨_, _, _, entry', _, he', hsystem'⟩
        cases he.symm.trans he'
        simp [hsystem] at hsystem'
      · refine Option.eq_none_iff_forall_ne_some.2 fun context hcontext => ?_
        rcases systemResultContext_eq_some hcontext with ⟨entry', he', hsystem', _⟩
        cases he.symm.trans he'
        simp [hsystem] at hsystem'
  · intro seq hin _
    rcases (hmem seq).1 hin with ⟨job, hjob, result, _, hv, _⟩
    exact ⟨job, hjob, result, hv⟩

theorem known_resolveAll :
    ∀ {core core' : Core}, core.resolveAll jobs = some core' → Known core registered →
      Known core' registered := by
  induction jobs with
  | nil =>
    intro core core' hc hk
    cases hc
    exact hk
  | cons job jobs ih =>
    intro core core' hc hk
    rcases Option.bind_eq_some_iff.1 hc with ⟨next, hnext, hrest⟩
    exact ih hrest (known_resolve hnext hk)

theorem DecodedWith.mono {r r' : Runner} {job : Job (Coded P)}
    {registered' : OperationKind → Nat → Option PendingContext}
    (hns : r'.ns = r.ns) (hid : r'.workflowId = r.workflowId)
    (hheaders : r'.codecHeaders = r.codecHeaders)
    (hkeep : ∀ k seq entry, registered k seq = some entry → registered' k seq = some entry)
    (h : DecodedWith r registered job) : DecodedWith r' registered' job := by
  unfold DecodedWith at h ⊢
  rw [hns, hid, hheaders]
  cases hop : job.variant.resolves with
  | none =>
    simp only [hop] at h ⊢
    exact h
  | some op =>
    simp only [hop] at h ⊢
    rcases h with ⟨entry, he, hpass⟩
    exact ⟨entry, hkeep op.1 op.2 entry he, hpass⟩

/-! ## Child workflows that do not start -/

/-- The job reports that the child workflow `seq` did not start. -/
def JobVariant.failsToStart (v : JobVariant) (seq : Nat) : Prop :=
  v = .resolveChildWorkflowExecutionStart seq .failed ∨
    v = .resolveChildWorkflowExecutionStart seq .cancelled

variable {k : OperationKind}

theorem JobVariant.advance_notStarted
    {st st' : Status} (hop : v.resolves = some (k, seq)) (h : v.advance st = some st') :
    st' = .notStarted ↔ k = .childWorkflow ∧ v.failsToStart seq := by
  cases v with
  | resolveChildWorkflowExecutionStart n status | resolveNexusOperationStart n status =>
    cases hop
    cases status <;> cases st <;> cases h <;> simp [failsToStart]
  | resolveActivity | resolveChildWorkflowExecution | resolveSignalExternalWorkflow
  | resolveRequestCancelExternalWorkflow | resolveNexusOperation =>
    cases hop
    cases st <;> cases h <;> simp [failsToStart]
  | _ => cases hop

theorem Core.resolve_notStarted (h : core.resolve v = some core') :
    core'.status k seq = .notStarted ↔
      core.status k seq = .notStarted ∨ k = .childWorkflow ∧ v.failsToStart seq := by
  rcases resolve_cases h with ⟨hop, hsame⟩ | ⟨k', n, st, hop, hst, rfl⟩
  · have hnot : ¬ v.failsToStart seq := by
      rintro (rfl | rfl) <;> cases hop
    simp [hsame, hnot]
  · by_cases heq : k = k' ∧ seq = n
    · rcases heq with ⟨rfl, rfl⟩
      have hcur : core.status k seq ≠ .notStarted := by
        rcases JobVariant.advance_pending hst with hs | hs <;> simp [hs]
      simp only [setStatus, setAt_same, hcur, false_or]
      exact JobVariant.advance_notStarted hop hst
    · have hnot : ¬ (k = .childWorkflow ∧ v.failsToStart seq) := by
        rintro ⟨rfl, rfl | rfl⟩ <;> cases hop <;> exact heq ⟨rfl, rfl⟩
      simp [setStatus, setAt_of_ne heq, hnot]

theorem Core.resolveAll_notStarted :
    ∀ {core core' : Core}, core.resolveAll jobs = some core' →
      (core'.status k seq = .notStarted ↔
        core.status k seq = .notStarted ∨
          k = .childWorkflow ∧ ∃ job ∈ jobs, job.variant.failsToStart seq) := by
  induction jobs with
  | nil =>
    intro core core' hc
    cases hc
    simp
  | cons job jobs ih =>
    intro core core' hc
    rcases Option.bind_eq_some_iff.1 hc with ⟨next, hnext, hrest⟩
    rw [ih hrest, resolve_notStarted hnext]
    simp only [List.exists_mem_cons_iff]
    tauto

theorem Core.scheduleAll_notStarted {commands : List (Command P)} :
    ∀ {core core' : Core}, core.scheduleAll commands = some core' →
      (core'.status k seq = .notStarted ↔ core.status k seq = .notStarted) := by
  induction commands with
  | nil =>
    intro core core' hc
    cases hc
    rfl
  | cons command commands ih =>
    intro core core' hc
    rcases Option.bind_eq_some_iff.1 hc with ⟨next, hnext, hrest⟩
    rw [ih hrest]
    rcases schedule_cases hnext with ⟨_, rfl⟩ | ⟨k', n, _, hnew, rfl⟩
    · rfl
    · by_cases heq : k = k' ∧ seq = n
      · rcases heq with ⟨rfl, rfl⟩
        simp [setStatus, hnew]
      · simp [setStatus, setAt_of_ne heq]

theorem decodeJobs_variants :
    ∀ (infos : List (Job P × Option PendingContext)) (r : Runner),
      (Runner.decodeJobs systemResult r infos).2.map (·.variant) = infos.map (·.1.variant) := by
  intro infos
  induction infos with
  | nil => simp [Runner.decodeJobs]
  | cons info infos ih =>
    intro r
    simp [Runner.decodeJobs, Runner.decodeJob, ih]

theorem takeSystemInfos_jobs : ∀ (jobs : List (Job P)) (r : Runner),
    (r.takeSystemInfos jobs).1.map (·.1) = jobs := by
  intro jobs
  induction jobs with
  | nil => simp [Runner.takeSystemInfos]
  | cons job jobs ih =>
    intro r
    simp [Runner.takeSystemInfos, ih]

theorem decodeActivation_variants (r : Runner) (jobs : List (Job P)) :
    (r.decodeActivation jobs).2.map (·.variant) = jobs.map (·.variant) := by
  unfold Runner.decodeActivation
  rw [decodeJobs_variants]
  have hjobs := takeSystemInfos_jobs jobs (r.setNexusContext jobs)
  conv_rhs => rw [← hjobs]
  simp

theorem decodeActivation_failsToStart (r : Runner) (jobs : List (Job P)) (seq : Nat) :
    (∃ job ∈ (r.decodeActivation jobs).2, job.variant.failsToStart seq) ↔
      ∃ job ∈ jobs, job.variant.failsToStart seq := by
  have hmap : (∃ v ∈ (r.decodeActivation jobs).2.map (·.variant), v.failsToStart seq) ↔
      ∃ v ∈ jobs.map (·.variant), v.failsToStart seq := by
    rw [decodeActivation_variants]
  simpa using hmap

/-! ## Every exchange -/

namespace Exchange

structure Inv (s : Exchange P) : Prop where
  tracks : Tracks [] s.runner.pendingCompletionContexts s.core s.registered
  known : Known s.core s.registered
  delivered : ∀ job ∈ s.delivered, DecodedWith s.runner s.registered job
  notStarted : ∀ k seq, s.core.status k seq = .notStarted ↔
    k = .childWorkflow ∧ ∃ job ∈ s.delivered, job.variant.failsToStart seq

theorem inv_init (ns workflowId : String) (codecHeaders : Bool) :
    (init P ns workflowId codecHeaders).Inv where
  tracks := by
    intro table seq
    simp [init, Runner.init, Core.init, Table.holds]
  known := ⟨by simp [init, Core.init], by simp [init]⟩
  delivered := by simp [init]
  notStarted := by simp [init, Core.init]

theorem inv_step (s : Exchange P) (call : Call P) (h : s.Inv) : (s.step call).Inv := by
  cases call with
  | encodeCompletion commands =>
    simp only [step]
    split
    · rename_i runner encoded core hencode hschedule
      rcases Runner.encodeCompletion_spec hencode hschedule with ⟨_, rfl⟩
      rcases known_scheduleAll (r := s.runner) hschedule h.known with ⟨hknown, hkeep⟩
      refine ⟨tracks_scheduleAll hschedule h.tracks, hknown, fun job hjob => ?_, fun k seq => ?_⟩
      · exact (h.delivered job hjob).mono rfl rfl rfl hkeep
      · exact (Core.scheduleAll_notStarted hschedule).trans (h.notStarted k seq)
    · exact h
  | decodeActivation jobs =>
    simp only [step]
    split
    · rename_i core hresolve
      rcases decodeActivation_spec h.tracks h.known hresolve with ⟨⟨tables, htracks, hr⟩, hdecoded⟩
      have hsame : (s.runner.decodeActivation jobs).1.ns = s.runner.ns ∧
          (s.runner.decodeActivation jobs).1.workflowId = s.runner.workflowId ∧
          (s.runner.decodeActivation jobs).1.codecHeaders = s.runner.codecHeaders := by
        rw [hr]
        unfold Runner.setNexusContext
        split <;> exact ⟨rfl, rfl, rfl⟩
      refine ⟨by rw [hr]; exact htracks, known_resolveAll hresolve h.known, ?_, ?_⟩
      · intro job hjob
        have hdone : DecodedWith s.runner s.registered job := by
          rcases List.mem_append.1 hjob with hjob | hjob
          · exact h.delivered job hjob
          · exact hdecoded job hjob
        exact hdone.mono hsame.1 hsame.2.1 hsame.2.2 fun _ _ _ he => he
      · intro k seq
        have hnew := decodeActivation_failsToStart s.runner jobs seq
        have hiff : core.status k seq = .notStarted ↔ s.core.status k seq = .notStarted ∨
            k = .childWorkflow ∧ ∃ job ∈ jobs, job.variant.failsToStart seq :=
          Core.resolveAll_notStarted hresolve
        rw [hiff, h.notStarted k seq, ← hnew]
        simp only [List.mem_append, or_and_right, exists_or]
        exact and_or_left.symm
    · exact h

/-- No table has an entry for the operation. -/
def Released (s : Exchange P) (k : OperationKind) (seq : Nat) : Prop :=
  ∀ table : Table, table.kind = k → s.runner.pendingCompletionContexts table seq = none

/-- The operation got the job that resolves it terminally. -/
def Terminated (s : Exchange P) (k : OperationKind) (seq : Nat) : Prop :=
  s.core.status k seq = .resolved ∨ s.core.status k seq = .notStarted

theorem Inv.released_iff {s : Exchange P} (h : s.Inv)
    (ht : s.Terminated k seq) : s.Released k seq ↔ s.core.status k seq ≠ .notStarted := by
  constructor
  · intro hreleased hst
    have hchild := ((h.notStarted k seq).1 hst).1
    subst hchild
    have hentry := hreleased .childWorkflowComplete rfl
    rw [h.tracks] at hentry
    have hsome := (h.known.isSome_iff .childWorkflow seq).1 (by simp [hst])
    simp [Table.kind, hst, Table.holds] at hentry
    simp [hentry] at hsome
  · intro hst table hkind
    have hresolved : s.core.status table.kind seq = .resolved := by
      rw [hkind]
      exact ht.resolve_right hst
    rw [h.tracks]
    simp [hresolved, Table.holds]

/-- In every exchange with a conforming core, each job is decoded with the entry that the command of its
operation had the runner put, and with no other; and when an operation got its last job, no entry of it
is left, unless it is a child workflow whose start was reported as failed or cancelled. -/
theorem entries_released_with_last_job (ns workflowId : String) (codecHeaders : Bool)
    (calls : List (Call P))
    (h : Guarded step Conforming (init P ns workflowId codecHeaders) calls) :
    (∀ job ∈ (run step (init P ns workflowId codecHeaders) calls).delivered,
      DecodedWith (run step (init P ns workflowId codecHeaders) calls).runner
        (run step (init P ns workflowId codecHeaders) calls).registered job) ∧
    ∀ k seq, (run step (init P ns workflowId codecHeaders) calls).Terminated k seq →
      ((run step (init P ns workflowId codecHeaders) calls).Released k seq ↔
        ¬ (k = .childWorkflow ∧
          ∃ job ∈ (run step (init P ns workflowId codecHeaders) calls).delivered,
            job.variant.failsToStart seq)) := by
  have hinit : (init P ns workflowId codecHeaders).Inv := inv_init ns workflowId codecHeaders
  have hstep : ∀ (s : Exchange P) call, s.Conforming call → s.Inv → (s.step call).Inv :=
    fun s call _ hinv => inv_step s call hinv
  have hinv := run_invariant hstep hinit h
  refine ⟨hinv.delivered, fun k seq hterminated => ?_⟩
  rw [hinv.released_iff hterminated, ← hinv.notStarted k seq]

/-- An activity and a Nexus operation that is resolved without a start. -/
def resolvesAll : List (Call Nat) :=
  [.decodeActivation [⟨.initializeWorkflow none, [(.arguments, 0)]⟩],
   .encodeCompletion
    [⟨.scheduleActivity 1 "1", [(.arguments, 1)]⟩,
     ⟨.scheduleNexusOperation 1 "endpoint" "service" (some "operation") .payload, [(.input, 2)]⟩],
   .decodeActivation
    [⟨.resolveActivity 1 .completed, [(.result, 3)]⟩,
     ⟨.resolveNexusOperation 1 .failed, [(.failure, 4)]⟩]]

theorem resolvesAll_releases :
    (run step (init Nat "default" "workflow" false) resolvesAll).Released .activity 1 ∧
      (run step (init Nat "default" "workflow" false) resolvesAll).Released .nexusOperation 1 := by
  have hall := (entries_released_with_last_job "default" "workflow" false resolvesAll
    (by decide +kernel)).2
  exact ⟨(hall .activity 1 (.inl (by decide +kernel))).2 (by simp),
    (hall .nexusOperation 1 (.inl (by decide +kernel))).2 (by simp)⟩

/-- A child workflow that fails to start. -/
def childNotStarted : List (Call Nat) :=
  [.encodeCompletion [⟨.startChildWorkflowExecution 1 "default" "child", [(.arguments, 1)]⟩],
   .decodeActivation [⟨.resolveChildWorkflowExecutionStart 1 .failed, []⟩]]

/-- Its entry in `childWorkflowComplete` is left after its last job. -/
theorem childNotStarted_not_released :
    Guarded step Conforming (init Nat "default" "workflow" false) childNotStarted ∧
      (run step (init Nat "default" "workflow" false) childNotStarted).Terminated .childWorkflow 1 ∧
      ¬ (run step (init Nat "default" "workflow" false) childNotStarted).Released .childWorkflow 1 := by
  refine ⟨by decide +kernel, .inr (by decide +kernel), fun hreleased => ?_⟩
  have hentry := hreleased .childWorkflowComplete rfl
  revert hentry
  decide +kernel

end Exchange

end TemporalSdk.Codec
