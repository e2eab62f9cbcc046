import TemporalSdk.Storage.StorePass

/-!
# Transparency — what external storage changes in a completion

`Transparent` compares the completion that is sent with external storage to the one that is sent
without it: payloads that are selected for storage have given way to their references, inside of the
envelopes of System Nexus operations too, and nothing else has changed.

The envelopes do not keep their metadata: `transformEncodedSystemNexusEnvelope` makes a new payload of
the request, and the marker of the envelope is lost.  `StatusRelated` takes what becomes of an envelope
as a parameter, so that the pass is described once: `EnvelopeRebuilt` is what the code does,
`EnvelopeKept` what transparency asks for.
-/

namespace TemporalSdk.Storage

open Machine

variable {D W : Type} [DecidableEq D]

/-! ## The visitor of the pass -/

section StoreVisitor

variable (a : Activation D W) (st : ExternalStorage D W)

def MessageReplaced (target : Option StorageDriverTargetInfo) (m m' : Message) : Prop :=
  Visitor.Related (storeVisitor a st) (st.Moved a.pb) target m m'

/-- No payload of the message is selected. -/
def MessageUntouched (target : Option StorageDriverTargetInfo) (m : Message) : Prop :=
  Visitor.Every (storeVisitor a st) (fun target p => st.selected a.pb target p = none) target m

variable {a st}

theorem storeVisitor_one_moved {target : Option StorageDriverTargetInfo} {p q : Payload} {s s' : Session W}
    (h : (storeVisitor a st).one target p s = .ok (q, s')) : st.Moved a.pb target p q := by
  rcases bind_eq_ok.1 h with ⟨stored, s₁, hstore, h⟩
  cases pure_eq_ok.1 h
  have hmoved := ExternalStorage.store_moved hstore
  cases hmoved with
  | cons hp hrest =>
    cases hrest
    exact hp

theorem visitTree_replaced {target : Option StorageDriverTargetInfo} {m m' : Message} {s s' : Session W}
    (h : (storeVisitor a st).visitTree target m s = .ok (m', s')) : MessageReplaced a st target m m' :=
  Visitor.related_of_visitTree (fun _ _ _ _ _ => storeVisitor_one_moved)
    (fun _ _ _ _ _ => ExternalStorage.store_moved) h

theorem storeVisitor_one_returns (hst : st.Reliable a.pb) (target : Option StorageDriverTargetInfo)
    (p : Payload) : Returns ((storeVisitor a st).one target p) :=
  Returns.bind (ExternalStorage.store_returns hst [p]) fun _ _ _ _ => Returns.pure _

theorem storeVisitor_returns (hst : st.Reliable a.pb) (target : Option StorageDriverTargetInfo)
    (m : Message) : Returns ((storeVisitor a st).visitTree target m) :=
  Visitor.visitTree_returns (storeVisitor_one_returns hst)
    (fun _ payloads => ExternalStorage.store_returns hst payloads) m target

theorem storeVisitor_one_inert {target : Option StorageDriverTargetInfo} {p : Payload}
    (h : st.selected a.pb target p = none) (s : Session W) :
    (storeVisitor a st).one target p s = .ok (p, s) := by
  have hstore : st.store a.pb target [p] s = .ok ([p], s) :=
    ExternalStorage.store_inert (fun q hq => by rw [List.mem_singleton.1 hq]; exact h) s
  exact bind_eq_ok.2 ⟨[p], s, hstore, rfl⟩

theorem visitTree_untouched {target : Option StorageDriverTargetInfo} {m : Message}
    (h : MessageUntouched a st target m) (s : Session W) :
    (storeVisitor a st).visitTree target m s = .ok (m, s) :=
  Visitor.visitTree_inert (fun _ _ s hp => storeVisitor_one_inert hp s)
    (fun _ _ s hps => ExternalStorage.store_inert hps s) s h

end StoreVisitor

/-! ## Completions with their payloads replaced -/

section Related

variable (a : Activation D W) (st : ExternalStorage D W)
variable (E : Option Nat → Payload → Payload → Prop) (target : Option StorageDriverTargetInfo)

/-- What becomes of the input of the Nexus operation `seq`. -/
inductive InputRelated (seq : Option Nat) : Option Payload → Option Payload → Prop
  | none : InputRelated seq none none
  | plain {p q : Payload} : isSystemNexusEnvelope p = false → st.Moved a.pb target p q →
      InputRelated seq (some p) (some q)
  | envelope {p q : Payload} : isSystemNexusEnvelope p = true → E seq p q →
      InputRelated seq (some p) (some q)

inductive VariantRelated : CommandVariant → CommandVariant → Prop
  | scheduleNexusOperation {schedule : ScheduleNexusOperation} {input : Option Payload} :
      InputRelated a st E target schedule.seq schedule.input input →
      VariantRelated (.scheduleNexusOperation schedule)
        (.scheduleNexusOperation { schedule with input := input })
  | other {m m' : Message} : MessageReplaced a st target m m' → VariantRelated (.other m) (.other m')

structure CommandRelated (command command' : WorkflowCommand) : Prop where
  userMetadata : Option.Rel (MessageReplaced a st target) command.userMetadata command'.userMetadata
  eventGroupMarkers :
    List.Forall₂ (MessageReplaced a st target) command.eventGroupMarkers command'.eventGroupMarkers
  variant : VariantRelated a st E target command.variant command'.variant

inductive StatusRelated : CompletionStatus → CompletionStatus → Prop
  | successful {commands commands' : List WorkflowCommand} {plain : Bytes} :
      List.Forall₂ (CommandRelated a st E target) commands commands' →
      StatusRelated (.successful commands plain) (.successful commands' plain)
  | failed {failure failure' : Option Message} {plain : Bytes} :
      Option.Rel (MessageReplaced a st target) failure failure' →
      StatusRelated (.failed failure plain) (.failed failure' plain)

end Related

/-- The payloads of the request in an envelope are replaced, and the envelope stays as it is. -/
def EnvelopeKept (a : Activation D W) (st : ExternalStorage D W) (seq : Option Nat) (p q : Payload) : Prop :=
  q.metadata = p.metadata ∧ q.externalPayloads = p.externalPayloads ∧
    match a.pb.fromPayload p with
    | .error _ => q = p
    | .ok m => ∃ m', a.pb.fromPayload q = .ok m' ∧
        MessageReplaced a st (some (systemNexusTarget a.workflowCodecRunner seq)) m m'

/-- The payloads of the request in an envelope are replaced, and the request gets a new envelope. -/
def EnvelopeRebuilt (a : Activation D W) (st : ExternalStorage D W) (seq : Option Nat) (p q : Payload) :
    Prop :=
  ∃ m m', a.pb.fromPayload p = .ok m ∧ q = a.pb.toPayload m' ∧
    MessageReplaced a st (some (systemNexusTarget a.workflowCodecRunner seq)) m m'

/-! ## What the pass does -/

section Pass

variable {a : Activation D W} {st : ExternalStorage D W} {target : Option StorageDriverTargetInfo}

variable {s s' : Session W}

theorem visitOption_replaced {m m' : Option Message}
    (h : visitOption (storeVisitor a st) target m s = .ok (m', s')) :
    Option.Rel (MessageReplaced a st target) m m' := by
  cases m with
  | none =>
    cases pure_eq_ok.1 h
    exact .none
  | some m =>
    rcases bind_eq_ok.1 h with ⟨m₁, s₁, hm, h⟩
    cases pure_eq_ok.1 h
    exact .some (visitTree_replaced hm)

omit [DecidableEq D] in
theorem detach_of_none {command : WorkflowCommand} (h : command.systemNexusInput = none) :
    command.detach = command := by
  unfold WorkflowCommand.detach
  rw [h]

theorem walkVariant_related {variant variant' : CommandVariant}
    (hplain : ∀ schedule p, variant = .scheduleNexusOperation schedule → schedule.input = some p →
      isSystemNexusEnvelope p = false)
    (h : walkVariant (storeVisitor a st) target variant s = .ok (variant', s')) :
    VariantRelated a st (fun _ _ _ => False) target variant variant' := by
  cases variant with
  | scheduleNexusOperation schedule =>
    rcases bind_eq_ok.1 h with ⟨schedule', s₁, hwalk, h⟩
    cases pure_eq_ok.1 h
    unfold walkScheduleNexusOperation at hwalk
    cases hinput : schedule.input with
    | none =>
      rw [hinput] at hwalk
      cases pure_eq_ok.1 hwalk
      have heq : schedule = { schedule with input := none } := by
        rw [← hinput]
      rw [heq]
      exact .scheduleNexusOperation .none
    | some p =>
      rw [hinput] at hwalk
      rcases bind_eq_ok.1 hwalk with ⟨q, s₂, hone, hwalk⟩
      cases pure_eq_ok.1 hwalk
      refine .scheduleNexusOperation ?_
      rw [hinput]
      exact .plain (hplain schedule p rfl hinput) (storeVisitor_one_moved hone)
  | other m =>
    rcases bind_eq_ok.1 h with ⟨m', s₁, hm, h⟩
    cases pure_eq_ok.1 h
    exact .other (visitTree_replaced hm)

theorem detach_plain {command : WorkflowCommand} {schedule : ScheduleNexusOperation} {p : Payload}
    (hv : command.detach.variant = .scheduleNexusOperation schedule) (hp : schedule.input = some p) :
    isSystemNexusEnvelope p = false := by
  rcases command with ⟨userMetadata, eventGroupMarkers, variant⟩
  cases variant with
  | other m => cases hv
  | scheduleNexusOperation schedule₀ =>
    unfold WorkflowCommand.detach at hv
    split at hv
    next hinput =>
      cases hv
      simp only [WorkflowCommand.systemNexusInput, hp, Option.filter] at hinput
      cases hm : isSystemNexusEnvelope p with
      | false => rfl
      | true => simp [hm] at hinput
    next =>
      cases hv
      cases hp

theorem walkWorkflowCommand_related {command visited : WorkflowCommand}
    (h : walkWorkflowCommand (storeVisitor a st) target command.detach s = .ok (visited, s')) :
    CommandRelated a st (fun _ _ _ => False) target command.detach visited := by
  rcases bind_eq_ok.1 h with ⟨userMetadata, s₁, huser, h⟩
  rcases bind_eq_ok.1 h with ⟨markers, s₂, hmarkers, h⟩
  rcases bind_eq_ok.1 h with ⟨variant, s₃, hvariant, h⟩
  cases pure_eq_ok.1 h
  exact
    { userMetadata := visitOption_replaced huser
      eventGroupMarkers := forall₂_of_mapM (fun _ _ _ _ => visitTree_replaced) hmarkers
      variant := walkVariant_related (fun _ _ hv hp => detach_plain hv hp) hvariant }

theorem transformEncodedSystemNexusEnvelope_rebuilt {seq : Option Nat} {service operation : Option String}
    {p q : Payload} (h : transformEncodedSystemNexusEnvelope a.pb (storeVisitor a st)
      (some (systemNexusTarget a.workflowCodecRunner seq)) service operation p s = .ok (q, s')) :
    EnvelopeRebuilt a st seq p q := by
  rcases bind_eq_ok.1 h with ⟨_, s₁, _, h⟩
  rcases bind_eq_ok.1 h with ⟨m, s₂, hm, h⟩
  rcases liftM_eq_ok.1 hm with ⟨m', hm', heq⟩
  cases heq
  split at h
  · rcases bind_eq_ok.1 h with ⟨m₁, s₃, hvisit, h⟩
    cases pure_eq_ok.1 h
    exact ⟨m, m₁, hm', rfl, visitTree_replaced hvisit⟩
  · exact absurd h throw_ne_ok

omit [DecidableEq D] in
theorem InputRelated.mono {E E' : Option Nat → Payload → Payload → Prop} {seq : Option Nat}
    {input input' : Option Payload} (h : InputRelated a st E target seq input input')
    (hE : ∀ p q, input = some p → isSystemNexusEnvelope p = true → E seq p q → E' seq p q) :
    InputRelated a st E' target seq input input' := by
  cases h with
  | none => exact .none
  | plain hp hmoved => exact .plain hp hmoved
  | envelope hp he => exact .envelope hp (hE _ _ rfl hp he)

theorem CommandRelated.mono {E E' : Option Nat → Payload → Payload → Prop} {command command' : WorkflowCommand}
    (h : CommandRelated a st E target command command')
    (hE : ∀ seq p q, command.systemNexusInput = some p → E seq p q → E' seq p q) :
    CommandRelated a st E' target command command' := by
  rcases command with ⟨userMetadata, eventGroupMarkers, variant⟩
  refine ⟨h.userMetadata, h.eventGroupMarkers, ?_⟩
  have hvariant := h.variant
  rcases command' with ⟨userMetadata', eventGroupMarkers', variant'⟩
  cases hvariant with
  | scheduleNexusOperation hinput =>
    refine .scheduleNexusOperation (hinput.mono fun p q hp hm => hE _ p q ?_)
    exact Option.filter_eq_some_iff.2 ⟨hp, hm⟩
  | other hm => exact .other hm

theorem StatusRelated.mono {E E' : Option Nat → Payload → Payload → Prop} {status status' : CompletionStatus}
    (h : StatusRelated a st E target status status')
    (hE : ∀ command ∈ status.commands, ∀ seq p q, command.systemNexusInput = some p →
      E seq p q → E' seq p q) : StatusRelated a st E' target status status' := by
  cases h with
  | failed hfailure => exact .failed hfailure
  | successful hcommands =>
    refine .successful (List.Forall₂.mp ?_ ((List.forall₂_and_left _ _).2 ⟨hE, hcommands⟩) hcommands)
    rintro command command' ⟨hcommand, -⟩ hrelated
    exact hrelated.mono hcommand

theorem reattach_related {command visited command' : WorkflowCommand}
    (hvisited : CommandRelated a st (fun _ _ _ => False) target command.detach visited)
    (h : reattach a st visited command.systemNexusInput s = .ok (command', s')) :
    CommandRelated a st (EnvelopeRebuilt a st) target command command' := by
  cases hinput : command.systemNexusInput with
  | none =>
    rw [hinput] at h
    cases pure_eq_ok.1 h
    rw [detach_of_none hinput] at hvisited
    exact hvisited.mono nofun
  | some p =>
    rcases command with ⟨userMetadata, eventGroupMarkers, variant⟩
    rw [hinput] at h
    cases variant with
    | other m => cases hinput
    | scheduleNexusOperation schedule =>
      rcases visited with ⟨userMetadata', eventGroupMarkers', variant'⟩
      unfold WorkflowCommand.detach at hvisited
      rw [hinput] at hvisited
      cases hvisited.variant with
      | scheduleNexusOperation hnone =>
        rcases bind_eq_ok.1 h with ⟨q, s₁, htransform, h⟩
        cases pure_eq_ok.1 h
        have hp : schedule.input = some p ∧ isSystemNexusEnvelope p = true :=
          Option.filter_eq_some_iff.1 hinput
        have hrebuilt : InputRelated a st (EnvelopeRebuilt a st) target schedule.seq schedule.input
            (some q) := by
          rw [hp.1]
          exact .envelope hp.2 (transformEncodedSystemNexusEnvelope_rebuilt htransform)
        exact ⟨hvisited.userMetadata, hvisited.eventGroupMarkers, .scheduleNexusOperation hrebuilt⟩

theorem reattachAll_related {commands visited : List WorkflowCommand}
    (hvisited : List.Forall₂
      (fun command => CommandRelated a st (fun _ _ _ => False) target command.detach) commands visited) :
    ∀ {commands' : List WorkflowCommand} {s s' : Session W},
      ((visited.zip (commands.map (·.systemNexusInput))).mapM fun entry =>
        reattach a st entry.1 entry.2) s = .ok (commands', s') →
      List.Forall₂ (CommandRelated a st (EnvelopeRebuilt a st) target) commands commands' := by
  induction hvisited with
  | nil =>
    intro commands' s s' h
    cases pure_eq_ok.1 h
    exact .nil
  | cons hcommand _ ih =>
    intro commands' s s' h
    rw [List.map_cons, List.zip_cons_cons, List.mapM_cons] at h
    rcases bind_eq_ok.1 h with ⟨command', s₁, hreattach, h⟩
    rcases bind_eq_ok.1 h with ⟨rest', s₂, hrest, h⟩
    cases pure_eq_ok.1 h
    exact .cons (reattach_related hcommand hreattach) (ih hrest)

theorem storePass_related {completion stored : Completion}
    (h : storePass a st completion s = .ok (stored, s')) :
    stored.runId = completion.runId ∧
      StatusRelated a st (EnvelopeRebuilt a st) (some (initialTarget a)) completion.status stored.status := by
  rcases completion with ⟨runId, status, download, upload⟩
  rcases bind_eq_ok.1 h with ⟨visited, s₁, hwalk, h⟩
  rcases bind_eq_ok.1 h with ⟨commands', s₂, hreattach, h⟩
  cases pure_eq_ok.1 h
  rcases bind_eq_ok.1 hwalk with ⟨status', s₃, hstatus, hwalk⟩
  cases pure_eq_ok.1 hwalk
  refine ⟨rfl, ?_⟩
  cases status with
  | successful commands plain =>
    rcases bind_eq_ok.1 hstatus with ⟨visited, s₄, hcommands, hstatus⟩
    cases pure_eq_ok.1 hstatus
    have hdetached : List.Forall₂
        (fun command => CommandRelated a st (fun _ _ _ => False) (some (initialTarget a)) command.detach)
        commands visited := by
      rw [List.mapM_map] at hcommands
      exact forall₂_of_mapM (fun _ _ _ _ => walkWorkflowCommand_related) hcommands
    exact .successful (reattachAll_related hdetached hreattach)
  | failed failure plain =>
    rcases bind_eq_ok.1 hstatus with ⟨failure', s₄, hfailure, hstatus⟩
    cases pure_eq_ok.1 hstatus
    exact .failed (visitOption_replaced hfailure)

/-! ## Passes that return, and passes that change nothing -/

theorem visitOption_returns (hst : st.Reliable a.pb) (m : Option Message) :
    Returns (visitOption (storeVisitor a st) target m) := by
  cases m with
  | none => exact Returns.pure none
  | some m => exact Returns.bind (storeVisitor_returns hst target m) fun _ _ _ _ => Returns.pure _

theorem walkVariant_returns (hst : st.Reliable a.pb) (variant : CommandVariant) :
    Returns (walkVariant (storeVisitor a st) target variant) := by
  cases variant with
  | scheduleNexusOperation schedule =>
    refine Returns.bind ?_ fun _ _ _ _ => Returns.pure _
    unfold walkScheduleNexusOperation
    cases schedule.input with
    | none => exact Returns.pure _
    | some p => exact Returns.bind (storeVisitor_one_returns hst target p) fun _ _ _ _ => Returns.pure _
  | other m => exact Returns.bind (storeVisitor_returns hst target m) fun _ _ _ _ => Returns.pure _

theorem walkWorkflowCommand_returns (hst : st.Reliable a.pb) (command : WorkflowCommand) :
    Returns (walkWorkflowCommand (storeVisitor a st) target command) := by
  refine Returns.bind (visitOption_returns hst _) fun _ _ _ _ => ?_
  refine Returns.bind (Returns.mapM fun m _ => storeVisitor_returns hst target m) fun _ _ _ _ => ?_
  exact Returns.bind (walkVariant_returns hst _) fun _ _ _ _ => Returns.pure _

theorem walkWorkflowActivationCompletion_returns (hst : st.Reliable a.pb) (completion : Completion) :
    Returns (walkWorkflowActivationCompletion (storeVisitor a st) target completion) := by
  refine Returns.bind ?_ fun _ _ _ _ => Returns.pure _
  cases completion.status with
  | successful commands plain =>
    exact Returns.bind (Returns.mapM fun command _ => walkWorkflowCommand_returns hst command)
      fun _ _ _ _ => Returns.pure _
  | failed failure plain =>
    exact Returns.bind (visitOption_returns hst failure) fun _ _ _ _ => Returns.pure _

theorem storePass_returns (hst : st.Reliable a.pb) {completion : Completion}
    (hplain : ∀ command ∈ completion.status.commands, command.systemNexusInput = none) :
    Returns (storePass a st completion) := by
  refine Returns.bind (walkWorkflowActivationCompletion_returns hst _) fun visited _ _ _ => ?_
  refine Returns.bind (Returns.mapM fun entry hentry => ?_) fun _ _ _ _ => Returns.pure _
  rcases List.mem_map.1 (List.of_mem_zip hentry).2 with ⟨command, hcommand, heq⟩
  rw [← heq, hplain command hcommand]
  exact Returns.pure _

end Pass

section Untouched

variable (a : Activation D W) (st : ExternalStorage D W) (target : Option StorageDriverTargetInfo)

/-- No payload of the command is selected, nor one inside of its envelope. -/
structure CommandUntouched (command : WorkflowCommand) : Prop where
  userMetadata : ∀ m, command.userMetadata = some m → MessageUntouched a st target m
  eventGroupMarkers : ∀ m ∈ command.eventGroupMarkers, MessageUntouched a st target m
  message : ∀ m, command.variant = .other m → MessageUntouched a st target m
  input : ∀ schedule p, command.variant = .scheduleNexusOperation schedule → schedule.input = some p →
    isSystemNexusEnvelope p = false → st.selected a.pb target p = none
  envelope : ∀ schedule p m, command.variant = .scheduleNexusOperation schedule →
    schedule.input = some p → isSystemNexusEnvelope p = true → a.pb.fromPayload p = .ok m →
    MessageUntouched a st (some (systemNexusTarget a.workflowCodecRunner schedule.seq)) m

def StatusUntouched : CompletionStatus → Prop
  | .successful commands _ => ∀ command ∈ commands, CommandUntouched a st target command
  | .failed failure _ => ∀ m, failure = some m → MessageUntouched a st target m

variable {a st target}

theorem visitOption_untouched {m : Option Message}
    (h : ∀ m', m = some m' → MessageUntouched a st target m') (s : Session W) :
    visitOption (storeVisitor a st) target m s = .ok (m, s) := by
  cases m with
  | none => rfl
  | some m => exact bind_eq_ok.2 ⟨m, s, visitTree_untouched (h m rfl) s, rfl⟩

theorem walkWorkflowCommand_untouched {command : WorkflowCommand}
    (hplain : command.systemNexusInput = none) (h : CommandUntouched a st target command) (s : Session W) :
    walkWorkflowCommand (storeVisitor a st) target command s = .ok (command, s) := by
  have hmarkers : command.eventGroupMarkers.mapM ((storeVisitor a st).visitTree target) s =
      .ok (command.eventGroupMarkers, s) := mapM_inert fun m hm => visitTree_untouched (h.eventGroupMarkers m hm)
  have hvariant : walkVariant (storeVisitor a st) target command.variant s = .ok (command.variant, s) := by
    rcases command with ⟨userMetadata, eventGroupMarkers, variant⟩
    cases variant with
    | other m => exact bind_eq_ok.2 ⟨m, s, visitTree_untouched (h.message m rfl) s, rfl⟩
    | scheduleNexusOperation schedule =>
      refine bind_eq_ok.2 ⟨schedule, s, ?_, rfl⟩
      unfold walkScheduleNexusOperation
      cases hinput : schedule.input with
      | none => rfl
      | some p =>
        have hp : isSystemNexusEnvelope p = false := by
          have hfilter : schedule.input.filter isSystemNexusEnvelope = none := hplain
          rw [hinput] at hfilter
          simpa using hfilter
        have hsel := h.input schedule p rfl hinput hp
        refine bind_eq_ok.2 ⟨p, s, storeVisitor_one_inert hsel s, ?_⟩
        rw [← hinput]
        rfl
  refine bind_eq_ok.2 ⟨_, s, visitOption_untouched h.userMetadata s, ?_⟩
  refine bind_eq_ok.2 ⟨_, s, hmarkers, ?_⟩
  exact bind_eq_ok.2 ⟨_, s, hvariant, rfl⟩

theorem storePass_untouched {completion : Completion}
    (hplain : ∀ command ∈ completion.status.commands, command.systemNexusInput = none)
    (h : StatusUntouched a st (some (initialTarget a)) completion.status) (s : Session W) :
    storePass a st completion s = .ok (completion, s) := by
  rcases completion with ⟨runId, status, download, upload⟩
  cases status with
  | failed failure plain =>
    refine bind_eq_ok.2 ⟨⟨runId, .failed failure plain, download, upload⟩, s, ?_, rfl⟩
    refine bind_eq_ok.2 ⟨.failed failure plain, s, ?_, rfl⟩
    exact bind_eq_ok.2 ⟨failure, s, visitOption_untouched h s, rfl⟩
  | successful commands plain =>
    change ∀ command ∈ commands, command.systemNexusInput = none at hplain
    have hdetach : commands.map (·.detach) = commands := by
      rw [List.map_congr_left fun command hc => detach_of_none (hplain command hc), List.map_id']
    have hwalk : commands.mapM (walkWorkflowCommand (storeVisitor a st) (some (initialTarget a))) s =
        .ok (commands, s) :=
      mapM_inert fun command hc => walkWorkflowCommand_untouched (hplain command hc) (h command hc)
    have hzip : commands.zip (commands.map (·.systemNexusInput)) =
        commands.map fun command => (command, command.systemNexusInput) :=
      List.map_prod_left_eq_zip.symm
    have hreattach : (commands.mapM fun command => reattach a st command command.systemNexusInput) s =
        .ok (commands, s) := by
      refine mapM_inert fun command hc s => ?_
      rw [hplain command hc]
      rfl
    refine bind_eq_ok.2 ⟨⟨runId, .successful commands plain, download, upload⟩, s, ?_, ?_⟩
    · refine bind_eq_ok.2 ⟨.successful commands plain, s, ?_, rfl⟩
      refine bind_eq_ok.2 ⟨commands, s, ?_, rfl⟩
      show (commands.map (·.detach)).mapM
        (walkWorkflowCommand (storeVisitor a st) (some (initialTarget a))) s = _
      rw [hdetach]
      exact hwalk
    · refine bind_eq_ok.2 ⟨commands, s, ?_, rfl⟩
      show (commands.zip (commands.map (·.systemNexusInput))).mapM
        (fun entry => reattach a st entry.1 entry.2) s = _
      rw [hzip, List.mapM_map]
      exact hreattach

end Untouched

/-! ## Transparency -/

def Activation.withoutExternalStorage (a : Activation D W) : Activation D W :=
  { a with externalStorage := none }

/-- `sent` is `plain` with every payload that is selected replaced by its reference. -/
def Replaced (a : Activation D W) (plain sent : Completion) : Prop :=
  sent.runId = plain.runId ∧
    match a.stores with
    | none => sent.status = plain.status
    | some st => StatusRelated a st (EnvelopeKept a st) (some (initialTarget a)) plain.status sent.status

/-- No payload of the completion is selected. -/
def Untouched (a : Activation D W) (completion : Completion) : Prop :=
  ∀ st, a.stores = some st → StatusUntouched a st (some (initialTarget a)) completion.status

/-- Both completions are sent and differ only in the payloads that are selected.  The metrics report on the
storage itself; they are missing from both when nothing was retrieved, which an activation without
references does not, and nothing is stored. -/
def Transparent (a : Activation D W) (completion : Completion) (w : W) : Prop :=
  ∃ plain sent w',
    handleCompletion a.withoutExternalStorage completion w = .ok (plain, w) ∧
    handleCompletion a completion w = .ok (sent, w') ∧
    Replaced a plain sent ∧
    (a.downloadMetrics.payloadCount = 0 → Untouched a completion → sent = plain)

section Transparent

variable {a : Activation D W} {completion : Completion} {w : W}

/-- What is sent without external storage. -/
def Completion.plain (completion : Completion) : Completion :=
  { completion with payloadDownloadMetrics := none, payloadUploadMetrics := none }

theorem handleCompletion_withoutExternalStorage :
    handleCompletion a.withoutExternalStorage completion w = .ok (completion.plain, w) := by
  have hstores : a.withoutExternalStorage.stores = none := by
    unfold Activation.stores Activation.withoutExternalStorage
    split <;> rfl
  unfold handleCompletion
  rw [hstores]
  rfl

theorem handleCompletion_ok {st : ExternalStorage D W} {sent : Completion} {w' : W} (hst : a.stores = some st)
    (h : handleCompletion a completion w = .ok (sent, w')) :
    ∃ stored s, storePass a st completion ⟨w, .init⟩ = .ok (stored, s) ∧
      sent.runId = stored.runId ∧ sent.status = stored.status := by
  unfold handleCompletion at h
  rw [hst] at h
  cases hpass : storePass a st completion ⟨w, .init⟩ with
  | error e => simp [hpass] at h
  | ok r =>
    simp only [hpass] at h
    cases h
    exact ⟨r.1, r.2, rfl, rfl, rfl⟩

theorem StatusRelated.commands {st : ExternalStorage D W} {E : Option Nat → Payload → Payload → Prop}
    {target : Option StorageDriverTargetInfo} {status status' : CompletionStatus}
    (h : StatusRelated a st E target status status') :
    List.Forall₂ (CommandRelated a st E target) status.commands status'.commands := by
  cases h with
  | successful hcommands => exact hcommands
  | failed _ => exact .nil

omit [DecidableEq D] in
theorem InputRelated.envelope_of_marked {st : ExternalStorage D W} {E : Option Nat → Payload → Payload → Prop}
    {target : Option StorageDriverTargetInfo} {seq : Option Nat} {input input' : Option Payload} {p : Payload}
    (h : InputRelated a st E target seq input input') (hp : input = some p)
    (hm : isSystemNexusEnvelope p = true) : ∃ q, input' = some q ∧ E seq p q := by
  cases h with
  | none => cases hp
  | plain hplain _ =>
    cases hp
    rw [hm] at hplain
    cases hplain
  | envelope _ he =>
    cases hp
    exact ⟨_, rfl, he⟩

theorem CommandRelated.envelope {st : ExternalStorage D W} {E : Option Nat → Payload → Payload → Prop}
    {target : Option StorageDriverTargetInfo} {command command' : WorkflowCommand} {p : Payload}
    (h : CommandRelated a st E target command command') (hp : command.systemNexusInput = some p) :
    ∃ schedule q, command'.variant = .scheduleNexusOperation schedule ∧ schedule.input = some q ∧
      E schedule.seq p q := by
  rcases command with ⟨userMetadata, eventGroupMarkers, variant⟩
  rcases command' with ⟨userMetadata', eventGroupMarkers', variant'⟩
  cases variant with
  | other m => cases hp
  | scheduleNexusOperation schedule =>
    have hinput : schedule.input = some p ∧ isSystemNexusEnvelope p = true :=
      Option.filter_eq_some_iff.1 hp
    cases h.variant with
    | scheduleNexusOperation hrelated =>
      rcases hrelated.envelope_of_marked hinput.1 hinput.2 with ⟨q, rfl, he⟩
      exact ⟨{ schedule with input := some q }, q, rfl, rfl, he⟩

/-- An envelope that has been built anew has lost its marker. -/
theorem systemNexusInput_eq_none_of_kept {st : ExternalStorage D W} {target : Option StorageDriverTargetInfo}
    {command command' : WorkflowCommand}
    (hrebuilt : CommandRelated a st (EnvelopeRebuilt a st) target command command')
    (hkept : CommandRelated a st (EnvelopeKept a st) target command command') :
    command.systemNexusInput = none := by
  cases hp : command.systemNexusInput with
  | none => rfl
  | some p =>
    rcases hrebuilt.envelope hp with ⟨schedule, q, hv, hq, m, m', _, hq', _⟩
    rcases hkept.envelope hp with ⟨schedule', r, hv', hr, hmetadata, _⟩
    rw [hv] at hv'
    cases hv'
    rw [hq] at hr
    cases hr
    have hmarked : isSystemNexusEnvelope q = true := by
      unfold isSystemNexusEnvelope
      rw [hmetadata]
      rcases command with ⟨_, _, variant⟩
      cases variant with
      | other m => cases hp
      | scheduleNexusOperation schedule => exact (Option.filter_eq_some_iff.1 hp).2
    rw [hq', toPayload_not_isSystemNexusEnvelope] at hmarked
    cases hmarked

theorem unmarked_of_transparent {st : ExternalStorage D W} (hst : a.stores = some st)
    (h : Transparent a completion w) :
    ∀ command ∈ completion.status.commands, command.systemNexusInput = none := by
  rcases h with ⟨plain, sent, w', hplain, hsent, hreplaced, _⟩
  rw [handleCompletion_withoutExternalStorage] at hplain
  cases hplain
  rcases handleCompletion_ok hst hsent with ⟨stored, s, hpass, _, hstatus⟩
  have hkept := hreplaced.2
  simp only [hst] at hkept
  rw [hstatus] at hkept
  have hboth : List.Forall₂
      (fun command command' => command.systemNexusInput = none ∧
        CommandRelated a st (EnvelopeKept a st) (some (initialTarget a)) command command')
      completion.status.commands stored.status.commands :=
    List.Forall₂.mp (fun _ _ hrebuilt hkept => ⟨systemNexusInput_eq_none_of_kept hrebuilt hkept, hkept⟩)
      (storePass_related hpass).2.commands hkept.commands
  exact (List.forall₂_and_left _ _).1 hboth |>.1

theorem transparent_of_unmarked {st : ExternalStorage D W} (hst : a.stores = some st)
    (hreliable : st.Reliable a.pb)
    (h : ∀ command ∈ completion.status.commands, command.systemNexusInput = none) :
    Transparent a completion w := by
  rcases storePass_returns hreliable h ⟨w, .init⟩ with ⟨⟨stored, s⟩, hpass⟩
  rcases storePass_related hpass with ⟨hrunId, hstatus⟩
  have hstorage : ∃ st', a.externalStorage = some st' := by
    unfold Activation.stores at hst
    split at hst
    · cases hst
    · exact ⟨st, hst⟩
  rcases hstorage with ⟨st', hst'⟩
  have hsent : handleCompletion a completion w = .ok ({ stored with
      payloadDownloadMetrics := a.downloadMetrics.toProto
      payloadUploadMetrics := s.metrics.toProto }, s.world) := by
    simp [handleCompletion, hst, hpass, hst']
  refine ⟨_, _, _, handleCompletion_withoutExternalStorage, hsent, ⟨hrunId, ?_⟩, ?_⟩
  · rw [hst]
    exact hstatus.mono fun command hc _ p _ hp => by
      rw [h command hc] at hp
      cases hp
  · intro hdownload huntouched
    rw [storePass_untouched h (huntouched st hst)] at hpass
    cases hpass
    simp [ExternalStorageMetricsAccumulator.toProto, hdownload, Completion.plain,
      ExternalStorageMetricsAccumulator.init]

theorem transparent_of_stores_eq_none (hst : a.stores = none) : Transparent a completion w := by
  have hsent : handleCompletion a completion w = .ok ({ completion with
      payloadDownloadMetrics := a.externalStorage.bind fun _ => a.downloadMetrics.toProto
      payloadUploadMetrics := none }, w) := by
    unfold handleCompletion
    rw [hst]
    rfl
  refine ⟨_, _, _, handleCompletion_withoutExternalStorage, hsent, ⟨rfl, ?_⟩, ?_⟩
  · rw [hst]
    rfl
  · intro hdownload _
    simp [ExternalStorageMetricsAccumulator.toProto, hdownload, Completion.plain]

end Transparent

/-- A completion is sent as it is without external storage, but for the payloads that are moved, if and only
if the pass is not run or no Nexus operation of the completion has a marked envelope as its input. -/
theorem transparent_iff (a : Activation D W) (completion : Completion) (w : W)
    (hreliable : ∀ st, a.stores = some st → st.Reliable a.pb) :
    Transparent a completion w ↔
      a.stores = none ∨ ∀ command ∈ completion.status.commands, command.systemNexusInput = none := by
  cases hst : a.stores with
  | none => exact ⟨fun _ => .inl rfl, fun _ => transparent_of_stores_eq_none hst⟩
  | some st =>
    constructor
    · intro h
      exact .inr (unmarked_of_transparent hst h)
    · rintro (h | h)
      · cases h
      · exact transparent_of_unmarked hst (hreliable st hst) h

/-! ## A request without payloads -/

def sampleRequestType : String := "temporal.api.workflowservice.v1.SignalWithStartWorkflowExecutionRequest"

/-- Descriptors with the request type, whose empty message has no bytes. -/
def sampleProtobuf : Protobuf where
  lookupType name := name = sampleRequestType
  decodeMessage name bytes := .ok (.node (.other name bytes) .nil)
  encodeMessage
    | .node (.other _ plain) _ => plain
    | .node _ _ => []
  isRootType name := name = sampleRequestType
  payloadProtoSize payload := (payload.data.getD []).length
  referenceJson driverName _ := encode driverName

theorem sampleDrivers_ne_nil : [()] ≠ ([] : List Unit) := List.cons_ne_nil _ _

def sampleStorage : ExternalStorage Unit Unit where
  drivers := [()]
  driver _ :=
    { name := "driver"
      store := fun _ payloads => pure (payloads.map fun _ => ⟨[("key", "value")]⟩)
      retrieve := fun _ => throw ⟨.error, "not found"⟩ }
  driverSelector _ _ := some ()
  payloadSizeThreshold := 256 * 1024
  drivers_ne_nil := sampleDrivers_ne_nil
  name_ne_empty := by decide
  names_nodup := by decide

def sampleActivation : Activation Unit Unit where
  pb := sampleProtobuf
  externalStorage := some sampleStorage
  isReplayWorker := false
  workflowCodecRunner := .init "default" "workflow" false
  runId := "run"
  info := ⟨"workflowType", none, none⟩
  downloadMetrics := .init

/-- What `encodeSystemNexusInput` makes of an empty request. -/
def sampleEnvelope : Payload where
  metadata :=
    [(METADATA_ENCODING_KEY, encode METADATA_ENCODING_PROTOBUF),
      (METADATA_MESSAGE_TYPE_KEY, encode sampleRequestType),
      (SYSTEM_NEXUS_PAYLOAD_METADATA_KEY, SYSTEM_NEXUS_PAYLOAD_METADATA_VALUE)]
  data := some []
  externalPayloads := []

def sampleCompletion : Completion where
  runId := "run"
  status := .successful
    [⟨none, [], .scheduleNexusOperation
      ⟨some 1, some "temporal.api.workflowservice.v1.WorkflowService",
        some "SignalWithStartWorkflowExecution", some sampleEnvelope, []⟩⟩] []
  payloadDownloadMetrics := none
  payloadUploadMetrics := none

theorem sampleStorage_reliable : sampleStorage.Reliable sampleProtobuf where
  registered _ _ d _ := by
    cases d
    rfl
  claims _ _ payloads w := ⟨_, w, rfl, by rw [List.length_map]⟩

theorem sampleEnvelope_marked : isSystemNexusEnvelope sampleEnvelope = true := by decide

theorem sampleEnvelope_decoded : sampleProtobuf.fromPayload sampleEnvelope =
    .ok (.node (.other sampleRequestType []) .nil) := by
  have hlookup : sampleEnvelope.metadata.lookup METADATA_MESSAGE_TYPE_KEY =
      some (encode sampleRequestType) := rfl
  have hdata : sampleEnvelope.data = some [] := rfl
  simp [Protobuf.fromPayload, Protobuf.validatePayload, hlookup, hdata, sampleProtobuf, bind, Except.bind,
    pure, Except.pure]

/-- Nothing is selected for storage, and yet the completion is another one. -/
theorem not_transparent_sampleCompletion :
    Untouched sampleActivation sampleCompletion ∧ ¬ Transparent sampleActivation sampleCompletion () := by
  constructor
  · intro st hst command hc
    rw [List.mem_singleton.1 hc]
    refine ⟨nofun, nofun, nofun, ?_, ?_⟩
    · intro schedule p hv hp hmarked
      cases hv
      cases hp
      rw [sampleEnvelope_marked] at hmarked
      cases hmarked
    · intro schedule p m hv hp _ hm
      cases hv
      cases hp
      cases sampleEnvelope_decoded.symm.trans hm
      trivial
  · intro h
    have hnone := unmarked_of_transparent rfl h _ List.mem_cons_self
    have hsome := Option.filter_eq_some_iff.2 ⟨rfl, sampleEnvelope_marked⟩
    cases hsome.symm.trans hnone

theorem transparent_iff_sampleCompletion :
    (∀ st, sampleActivation.stores = some st → st.Reliable sampleActivation.pb) ∧
      (Transparent sampleActivation sampleCompletion () ↔ sampleActivation.stores = none ∨
        ∀ command ∈ sampleCompletion.status.commands, command.systemNexusInput = none) := by
  have hreliable : ∀ st, sampleActivation.stores = some st → st.Reliable sampleActivation.pb := by
    intro st hst
    cases hst
    exact sampleStorage_reliable
  exact ⟨hreliable, transparent_iff sampleActivation sampleCompletion () hreliable⟩

end TemporalSdk.Storage
