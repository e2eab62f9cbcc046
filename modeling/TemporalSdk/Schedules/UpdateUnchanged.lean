import TemporalSdk.Schedules.ScheduleUpdate

/-!
# UpdateUnchanged — a schedule is what it was after an update that changes nothing

A description is documented to serve as a template of an update.  Every part is decoded and encoded again; the parts
are compared as a reader of the messages sees them.
-/

namespace TemporalSdk.Schedules

open Failures (Duration Timestamp msNumberToTs longFromNumber)
open Machine (bind_ok_iff map_ok_iff)
open SearchAttributes (Host JsObject IndexedField Payload reencode legacyEntries getAll NamesFree
  decodeSearchAttributes decodeTypedSearchAttributes encodeUnifiedSearchAttributes)
open Machine (roundToDouble ulp ulp_pos roundToDouble_eq_self_iff)

variable {V P : Type}

/-! ## Messages that read the same -/

structure SameCalendar (pb pb' : StructuredCalendarSpec) : Prop where
  ranges : ∀ field, List.Forall₂ Machine.SteppedRange.Same (pb.ranges field) (pb'.ranges field)
  comment : pb.comment.getD "" = pb'.comment.getD ""

/-- Cron strings are left out: the server compiles them to calendars. -/
structure SameSpec (pb pb' : IScheduleSpec) : Prop where
  structuredCalendar : List.Forall₂ SameCalendar (pb.structuredCalendar.getD []) (pb'.structuredCalendar.getD [])
  interval : pb.interval.getD [] = pb'.interval.getD []
  excludeStructuredCalendar :
    List.Forall₂ SameCalendar (pb.excludeStructuredCalendar.getD []) (pb'.excludeStructuredCalendar.getD [])
  startTime : pb.startTime = pb'.startTime
  endTime : pb.endTime = pb'.endTime
  jitter : pb.jitter = pb'.jitter
  timezoneName : pb.timezoneName.getD "" = pb'.timezoneName.getD ""

/-- The values by name. -/
def memoValues (conv : DataConverter V P) (memo : JsObject P) : List (String × Option V) :=
  memo.entries.map fun e => (e.1, conv.fromPayload e.2)

/-- Attributes name by name: one without values may be missing. -/
def SameAttributes (instant : String → Option Rat) (attributes : Option (JsObject Payload))
    (attributes' : Option (JsObject IndexedField)) : Prop :=
  ∀ n,
    match attributes'.bind fun fields => fields.entries.lookup n with
    | none => (attributes.bind fun payloads => payloads.entries.lookup n) = none
    | some field => ∀ type, field.Valid instant type →
        SearchAttributes.Keeps instant type field (attributes.bind fun payloads => payloads.entries.lookup n)

structure SameAction (conv : DataConverter V P) (instant : String → Option Rat)
    (info : NewWorkflowExecutionInfo Payload P) (info' : NewWorkflowExecutionInfo IndexedField P) : Prop where
  workflowId : info.workflowId = info'.workflowId
  workflowType : info.workflowType = info'.workflowType
  taskQueue : info.taskQueue.name = info'.taskQueue.name
  input : (info.input.getD []).map conv.fromPayload = (info'.input.getD []).map conv.fromPayload
  workflowExecutionTimeout : info.workflowExecutionTimeout = info'.workflowExecutionTimeout
  workflowRunTimeout : info.workflowRunTimeout = info'.workflowRunTimeout
  workflowTaskTimeout : info.workflowTaskTimeout = info'.workflowTaskTimeout
  retryPolicy : Option.Rel IRetryPolicy.Same info.retryPolicy info'.retryPolicy
  memo : info.memo.map (memoValues conv) = info'.memo.map (memoValues conv)
  searchAttributes : SameAttributes instant info.searchAttributes info'.searchAttributes
  priority : SamePriority info.priority info'.priority

structure SamePolicies (policies policies' : Option ISchedulePolicies) : Prop where
  overlapPolicy :
    (policies.bind ISchedulePolicies.overlapPolicy).getD 0 = (policies'.bind ISchedulePolicies.overlapPolicy).getD 0
  catchupWindow : policies.bind ISchedulePolicies.catchupWindow = policies'.bind ISchedulePolicies.catchupWindow
  pauseOnFailure :
    (policies.bind ISchedulePolicies.pauseOnFailure).getD false =
      (policies'.bind ISchedulePolicies.pauseOnFailure).getD false

structure SameState (state state' : Option IScheduleState) : Prop where
  paused : (state.bind IScheduleState.paused).getD false = (state'.bind IScheduleState.paused).getD false
  notes : (state.bind IScheduleState.notes).getD "" = (state'.bind IScheduleState.notes).getD ""
  limitedActions :
    (state.bind IScheduleState.limitedActions).getD false = (state'.bind IScheduleState.limitedActions).getD false
  -- The number of actions left is read if it is limited.
  remainingActions : state'.bind IScheduleState.limitedActions = some true →
    (state.bind IScheduleState.remainingActions).getD 0 = (state'.bind IScheduleState.remainingActions).getD 0

/-- The updated schedule and the one that was described. -/
structure SameSchedule (conv : DataConverter V P) (instant : String → Option Rat) (schedule : ISchedule Payload P)
    (schedule' : ISchedule IndexedField P) : Prop where
  spec : Option.Rel SameSpec schedule.spec schedule'.spec
  action : Option.Rel (SameAction conv instant) (schedule.action.bind IScheduleAction.startWorkflow)
    (schedule'.action.bind IScheduleAction.startWorkflow)
  policies : SamePolicies schedule.policies schedule'.policies
  state : SameState schedule.state schedule'.state

/-! ## What the server returns -/

/-- What a converter has read, it can write, and reads again. -/
def DataConverter.Lawful (conv : DataConverter V P) : Prop :=
  ∀ p v, conv.fromPayload p = some v → ∃ p', conv.toPayload v = some p' ∧ conv.fromPayload p' = some v

structure IIntervalSpec.Valid (pb : IIntervalSpec) : Prop where
  interval : ∃ ts, pb.interval = some ts ∧ ValidSpan ts
  phase : ∀ ts ∈ pb.phase, ValidSpan ts

structure IScheduleSpec.Valid (pb : IScheduleSpec) : Prop where
  structuredCalendar : ∀ calendar ∈ pb.structuredCalendar.getD [], calendar.Valid
  interval : ∀ pb' ∈ pb.interval.getD [], pb'.Valid
  excludeStructuredCalendar : ∀ calendar ∈ pb.excludeStructuredCalendar.getD [], calendar.Valid
  startTime : ∀ ts ∈ pb.startTime, ValidTime ts
  endTime : ∀ ts ∈ pb.endTime, ValidTime ts
  jitter : ∀ ts ∈ pb.jitter, ValidSpan ts

/-- The client can read a payload. -/
def DataConverter.Reads (conv : DataConverter V P) (p : P) : Prop := (conv.fromPayload p).isSome

def ValidAttributes (instant : String → Option Rat) (attributes : Option (JsObject IndexedField)) : Prop :=
  ∀ fields ∈ attributes, ∀ e ∈ fields.entries, ∃ type, e.2.Valid instant type

structure NewWorkflowExecutionInfo.Valid (conv : DataConverter V P) (instant : String → Option Rat)
    (info : NewWorkflowExecutionInfo IndexedField P) : Prop where
  workflowType : info.workflowType ≠ ""
  taskQueue : info.taskQueue.name ≠ ""
  input : ∀ p ∈ info.input.getD [], conv.Reads p
  workflowExecutionTimeout : ∀ ts ∈ info.workflowExecutionTimeout, ValidSpan ts
  workflowRunTimeout : ∀ ts ∈ info.workflowRunTimeout, ValidSpan ts
  workflowTaskTimeout : ∀ ts ∈ info.workflowTaskTimeout, ValidSpan ts
  retryPolicy : ∀ policy ∈ info.retryPolicy, policy.ValidSpans
  memo : ∀ memo ∈ info.memo, ∀ e ∈ memo.entries, conv.Reads e.2
  searchAttributes : ValidAttributes instant info.searchAttributes
  summary : ∀ p ∈ info.userMetadata.bind UserMetadata.summary, conv.Reads p
  details : ∀ p ∈ info.userMetadata.bind UserMetadata.details, conv.Reads p

/-- A description of a schedule that starts a workflow. -/
structure Returned (conv : DataConverter V P) (instant : String → Option Rat)
    (raw : DescribeScheduleResponse IndexedField P) (schedule : ISchedule IndexedField P) (spec : IScheduleSpec)
    (info : NewWorkflowExecutionInfo IndexedField P) : Prop where
  hasSchedule : raw.schedule = some schedule
  hasSpec : schedule.spec = some spec
  hasAction : schedule.action = some ⟨some info⟩
  validSpec : spec.Valid
  validInfo : info.Valid conv instant
  catchupWindow : ∀ ts ∈ schedule.policies.bind ISchedulePolicies.catchupWindow, ValidSpan ts
  remainingActions : ∀ n ∈ schedule.state.bind IScheduleState.remainingActions, -2 ^ 63 ≤ n ∧ n < 2 ^ 63
  memo : ∀ memo ∈ raw.memo, ∀ e ∈ memo.entries, conv.Reads e.2
  searchAttributes : ValidAttributes instant raw.searchAttributes

/-! ## What is kept -/

/-- Times before 1970 are whole seconds. -/
def WholeBefore1970 (time : Option Timestamp) : Prop := ∀ ts ∈ time, ts.seconds < 0 → ts.nanos = 0

/-- No name is that of a member that every object has. -/
def AttributesNamed (host : Host) (attributes : Option (JsObject IndexedField)) : Prop :=
  ∀ fields ∈ attributes, NamesFree host fields

structure KeptSpec (spec : IScheduleSpec) : Prop where
  startTime : WholeBefore1970 spec.startTime
  endTime : WholeBefore1970 spec.endTime

structure KeptAction (host : Host) (instant : String → Option Rat)
    (info : NewWorkflowExecutionInfo IndexedField P) : Prop where
  retryPolicy : ∀ policy ∈ info.retryPolicy, policy.Accepted
  priority : ∀ n ∈ info.priority.bind IPriority.priorityKey, 0 ≤ n
  named : AttributesNamed host info.searchAttributes
  values : ∀ fields ∈ info.searchAttributes, ∀ e ∈ fields.entries, e.2.WholeMillis instant ∧ e.2.KeptNumbers

structure KeptPolicies (policies : Option ISchedulePolicies) : Prop where
  overlapPolicy : ∃ policy : ScheduleOverlapPolicy,
    policies.bind ISchedulePolicies.overlapPolicy = some policy.number
  catchupWindow : (policies.bind ISchedulePolicies.catchupWindow).isSome

/-- A number of actions that is left is a double, or the largest of its type. -/
def KeptState (state : Option IScheduleState) : Prop :=
  state.bind IScheduleState.limitedActions = some true →
    ∀ n ∈ state.bind IScheduleState.remainingActions, ulp n ∣ n ∨ n = 2 ^ 63 - 1

/-- When an update that changes nothing leaves the schedule as it was. -/
structure Updatable (host : Host) (instant : String → Option Rat) (raw : DescribeScheduleResponse IndexedField P)
    (schedule : ISchedule IndexedField P) (spec : IScheduleSpec) (info : NewWorkflowExecutionInfo IndexedField P) :
    Prop where
  spec : KeptSpec spec
  action : KeptAction host instant info
  policies : KeptPolicies schedule.policies
  state : KeptState schedule.state
  named : AttributesNamed host raw.searchAttributes

/-! ## Steps that may throw -/

theorem mapError_ok_iff {ε ε' α : Type} (x : Except ε α) (f : ε → ε') (a : α) :
    x.mapError f = .ok a ↔ x = .ok a := by
  cases x with
  | error e => exact ⟨nofun, nofun⟩
  | ok b => exact ⟨fun h => congrArg _ (Except.ok.inj h), fun h => congrArg _ (Except.ok.inj h)⟩

/-! ## Calendars -/

theorem StructuredCalendarSpec.Valid.kept {pb : StructuredCalendarSpec} (h : pb.Valid) :
    ∃ d pb', decodeStructuredCalendarSpec pb = .ok d ∧ encodeStructuredCalendarSpec d.spec = .ok pb' ∧
      SameCalendar pb' pb := by
  rcases h.decoded with ⟨d, pb', hdecode, _, _, hencode, hsame, hcomment⟩
  exact ⟨d, pb', hdecode, hencode, hsame, by rw [hcomment]⟩

theorem calendars_kept {pbs : Option (List StructuredCalendarSpec)} (h : ∀ pb ∈ pbs.getD [], pb.Valid) :
    ∃ ds pbs', decodeOptionalStructuredCalendarSpecs pbs = .ok ds ∧
      encodeOptionalStructuredCalendarSpecs (some (ds.map CalendarSpecDescription.spec)) = .ok (some pbs') ∧
      List.Forall₂ SameCalendar pbs' (pbs.getD []) := by
  cases pbs with
  | none => exact ⟨[], [], rfl, rfl, .nil⟩
  | some pbs =>
    simp only [Option.getD_some, decodeOptionalStructuredCalendarSpecs, encodeOptionalStructuredCalendarSpecs] at h ⊢
    induction pbs with
    | nil => exact ⟨[], [], rfl, rfl, .nil⟩
    | cons pb pbs ih =>
      rcases (h pb List.mem_cons_self).kept with ⟨d, pb', hdecode, hencode, hsame⟩
      rcases ih fun pb' hpb' => h pb' (List.mem_cons_of_mem _ hpb') with ⟨ds, pbs', hdecodes, hencodes, hsames⟩
      refine ⟨d :: ds, pb' :: pbs', ?_, ?_, .cons hsame hsames⟩
      · rw [List.mapM_cons, hdecode, hdecodes]
        rfl
      · rw [map_ok_iff] at hencodes ⊢
        rcases hencodes with ⟨_, hencodes, heq⟩
        cases heq
        exact ⟨pb' :: pbs', by rw [List.map_cons, List.mapM_cons, hencode, hencodes]; rfl, rfl⟩

/-! ## The spec -/

variable (ms : String → Option ℤ)

theorem msOptionalToTs_span {span : Option Timestamp} (h : ∀ ts ∈ span, ValidSpan ts) :
    msOptionalToTs ms ((optionalTsToMs span).map Duration.millis) = .ok span := by
  cases span with
  | none => rfl
  | some ts =>
    have hkept := (h ts rfl).kept
    exact congrArg (fun ts => Except.ok (some ts)) hkept

theorem optionalDateToTs_time {time : Option Timestamp} (h : ∀ ts ∈ time, ValidTime ts) :
    optionalDateToTs (optionalTsToDate time) = .ok (time.map fun ts => msNumberToTs (tsToMs ts)) := by
  cases time with
  | none => rfl
  | some ts => simp only [optionalTsToDate, Option.map_some, optionalDateToTs, newDate_time (h ts rfl)]

theorem time_kept_iff {time : Option Timestamp} (h : ∀ ts ∈ time, ValidTime ts) :
    (time.map fun ts => msNumberToTs (tsToMs ts)) = time ↔ WholeBefore1970 time := by
  cases time with
  | none => simp [WholeBefore1970]
  | some ts =>
    have hvalid := h ts rfl
    simp [WholeBefore1970, msNumberToTs_tsToMs_iff hvalid.nanos hvalid.millis]

theorem intervals_kept {pbs : List IIntervalSpec} (h : ∀ pb ∈ pbs, pb.Valid) :
    mapValues (encodeInterval ms) ((pbs.map fun x =>
        (⟨optionalTsToMs x.interval, optionalTsToMs x.phase⟩ : IntervalSpecDescription)).map fun x =>
          ⟨x.every.map Duration.millis, x.offset.map Duration.millis⟩) = .ok pbs := by
  induction pbs with
  | nil => rfl
  | cons pb pbs ih =>
    have hvalid := h pb List.mem_cons_self
    have ih' := ih fun pb' hpb' => h pb' (List.mem_cons_of_mem _ hpb')
    rcases pb with ⟨interval, phase⟩
    rcases hvalid.interval with ⟨ts, hts, hspan⟩
    cases hts
    have hphase := msOptionalToTs_span ms hvalid.phase
    have hencode : encodeInterval ms
        ⟨(optionalTsToMs (some ts)).map Duration.millis, (optionalTsToMs phase).map Duration.millis⟩ =
          .ok ⟨some ts, phase⟩ := by
      have hevery : msToTs ms (.millis (tsToMs ts)) = .ok ts := congrArg Except.ok hspan.kept
      simp only [encodeInterval, optionalTsToMs, Option.map_some] at hphase ⊢
      rw [hevery, hphase]
      rfl
    simp only [List.map_cons, mapValues]
    rw [hencode, ih']
    rfl

/-- The spec is kept if and only if its times are. -/
theorem spec_kept_iff {spec : IScheduleSpec} (h : spec.Valid) :
    ∃ d, decodeScheduleSpec spec = .ok d ∧
      ((∃ pb, encodeScheduleSpec ms d.options = .ok pb ∧ SameSpec pb spec) ↔ KeptSpec spec) := by
  rcases calendars_kept h.structuredCalendar with ⟨calendars, calendars', hdecode, hencode, hsame⟩
  rcases calendars_kept h.excludeStructuredCalendar with ⟨skip, skip', hdecodeSkip, hencodeSkip, hsameSkip⟩
  let pb : IScheduleSpec :=
    { structuredCalendar := some calendars'
      interval := some (spec.interval.getD [])
      cronString := none
      excludeStructuredCalendar := some skip'
      startTime := spec.startTime.map fun ts => msNumberToTs (tsToMs ts)
      endTime := spec.endTime.map fun ts => msNumberToTs (tsToMs ts)
      jitter := spec.jitter
      timezoneName := spec.timezoneName }
  obtain ⟨d, hdecoded, hencoded⟩ : ∃ d, decodeScheduleSpec spec = .ok d ∧ encodeScheduleSpec ms d.options = .ok pb := by
    apply Exists.intro
    constructor
    · simp only [decodeScheduleSpec, hdecode, hdecodeSkip]
      rfl
    · simp only [encodeScheduleSpec, ScheduleSpecDescription.options, hencode, hencodeSkip,
        intervals_kept ms h.interval, optionalDateToTs_time h.startTime, optionalDateToTs_time h.endTime,
        msOptionalToTs_span ms h.jitter, Option.elim_some]
      rfl
  refine ⟨d, hdecoded, ?_, ?_⟩
  · rintro ⟨pb', hpb', hsamePb⟩
    rw [hencoded] at hpb'
    cases hpb'
    exact ⟨(time_kept_iff h.startTime).mp hsamePb.startTime, (time_kept_iff h.endTime).mp hsamePb.endTime⟩
  · rintro ⟨hstart, hend⟩
    exact ⟨pb, hencoded, hsame, rfl, hsameSkip, (time_kept_iff h.startTime).mpr hstart,
      (time_kept_iff h.endTime).mpr hend, rfl, rfl⟩

/-! ## Policies and state -/

theorem decode_eq_key_iff {K : Type} (table : Failures.ProtoEnum K) (n : Option ℕ) (k : K) :
    table.decode n = some (.key k) ↔ n = some (table.number k) := by
  constructor
  · intro h
    cases n with
    | none => cases h
    | some n =>
      simp only [Failures.ProtoEnum.decode] at h
      split at h
      · cases h
      · split at h
        · rename_i hfind
          cases h
          have hnumber := List.find?_some hfind
          rw [eq_of_beq hnumber]
        · cases h
  · rintro rfl
    exact table.decode_number k

theorem catchupWindow_kept {window : Option Timestamp} (h : ∀ ts ∈ window, ValidSpan ts) :
    msOptionalToTs ms (some (.millis ((optionalTsToMs window).getD (365 * 24 * 60 * 60 * 1000)))) =
      .ok (some (window.getD ⟨365 * 24 * 60 * 60, 0⟩)) := by
  cases window with
  | none => rfl
  | some ts => exact msOptionalToTs_span ms h

/-- The policies of a description, encoded again. -/
def describedPolicies (policies : Option ISchedulePolicies) : Option SchedulePolicies :=
  some
    { overlap :=
        some ((scheduleOverlapPolicies.decode (policies.bind ISchedulePolicies.overlapPolicy)).getD (.key .SKIP))
      catchupWindow :=
        some (.millis ((optionalTsToMs (policies.bind ISchedulePolicies.catchupWindow)).getD
          (365 * 24 * 60 * 60 * 1000)))
      pauseOnFailure := some (policies.bind ISchedulePolicies.pauseOnFailure = some true) }

/-- The policies are kept if and only if a known overlap policy and a catch-up window are there. -/
theorem policies_kept_iff {policies : Option ISchedulePolicies}
    (h : ∀ ts ∈ policies.bind ISchedulePolicies.catchupWindow, ValidSpan ts) :
    (∃ pb, encodeSchedulePolicies ms (describedPolicies policies) = .ok pb ∧ SamePolicies (some pb) policies) ↔
      KeptPolicies policies := by
  have hwindow := catchupWindow_kept ms h
  have hencode : encodeSchedulePolicies ms (describedPolicies policies) = (do
      let overlapPolicy ← (scheduleOverlapPolicies.encode (some ((scheduleOverlapPolicies.decode
        (policies.bind ISchedulePolicies.overlapPolicy)).getD (.key .SKIP)))).mapError .overlap
      return ⟨overlapPolicy, some ((policies.bind ISchedulePolicies.catchupWindow).getD ⟨365 * 24 * 60 * 60, 0⟩),
        some (policies.bind ISchedulePolicies.pauseOnFailure = some true)⟩) := by
    simp only [encodeSchedulePolicies, describedPolicies, Option.bind_some, hwindow]
    rfl
  rw [hencode]
  clear hencode hwindow
  constructor
  · rintro ⟨pb, hpb, hsame⟩
    cases hdecode : scheduleOverlapPolicies.decode (policies.bind ISchedulePolicies.overlapPolicy) with
    | none =>
      rw [hdecode] at hpb
      cases hpb
      have hread : 1 = (policies.bind ISchedulePolicies.overlapPolicy).getD 0 := hsame.overlapPolicy
      have hskip : policies.bind ISchedulePolicies.overlapPolicy = some ScheduleOverlapPolicy.SKIP.number := by
        cases hn : policies.bind ISchedulePolicies.overlapPolicy with
        | none => simp [hn] at hread
        | some n =>
          rw [hn] at hread
          exact congrArg some hread.symm
      rw [(decode_eq_key_iff scheduleOverlapPolicies _ .SKIP).mpr hskip] at hdecode
      cases hdecode
    | some policy =>
      rw [hdecode] at hpb
      cases policy with
      | unknown n => cases hpb
      | key k =>
        cases hpb
        exact ⟨⟨k, (decode_eq_key_iff scheduleOverlapPolicies _ _).mp hdecode⟩,
          by rw [← hsame.catchupWindow]; rfl⟩
  · rintro ⟨⟨policy, hpolicy⟩, hsome⟩
    rcases Option.isSome_iff_exists.mp hsome with ⟨ts, hts⟩
    rw [(decode_eq_key_iff scheduleOverlapPolicies _ _).mpr hpolicy]
    refine ⟨_, rfl, ?_, ?_, ?_⟩
    · rw [hpolicy]
      rfl
    · rw [hts]
      rfl
    · cases hpause : policies.bind ISchedulePolicies.pauseOnFailure with
      | none => rfl
      | some b => cases b <;> rfl

theorem longFromNumber_iff {n : ℤ} (h : -2 ^ 63 ≤ n ∧ n < 2 ^ 63) :
    longFromNumber (roundToDouble n) = n ↔ ulp n ∣ n ∨ n = 2 ^ 63 - 1 := by
  rw [← roundToDouble_eq_self_iff]
  unfold longFromNumber
  constructor
  · intro heq
    by_cases hleast : n = -2 ^ 63
    · subst hleast
      exact Or.inl (by decide +kernel)
    · omega
  · rintro (heq | rfl)
    · omega
    · decide +kernel

/-- The state of a description, encoded again. -/
def describedState (state : Option IScheduleState) : Option ScheduleState :=
  some
    { paused := some (state.bind IScheduleState.paused = some true)
      note := state.bind IScheduleState.notes
      remainingActions :=
        if state.bind IScheduleState.limitedActions = some true then
          some (((state.bind IScheduleState.remainingActions).map roundToDouble).getD 0)
        else none }

theorem decide_getD (b : Option Bool) : decide (b = some true) = b.getD false := by
  cases b with
  | none => rfl
  | some b => cases b <;> rfl

theorem state_kept_iff {state : Option IScheduleState}
    (h : ∀ n ∈ state.bind IScheduleState.remainingActions, -2 ^ 63 ≤ n ∧ n < 2 ^ 63) :
    SameState (some (encodeScheduleState (describedState state))) state ↔ KeptState state := by
  by_cases hlimited : state.bind IScheduleState.limitedActions = some true
  · have hremaining : (((some (((state.bind IScheduleState.remainingActions).map roundToDouble).getD 0)).filter
        (· ≠ 0)).map longFromNumber).getD 0 =
          longFromNumber (((state.bind IScheduleState.remainingActions).map roundToDouble).getD 0) := by
      generalize ((state.bind IScheduleState.remainingActions).map roundToDouble).getD 0 = x
      by_cases hzero : x = 0
      · subst hzero
        rfl
      · rw [Option.filter_some_pos (by simpa using hzero)]
        rfl
    have hkept : longFromNumber (((state.bind IScheduleState.remainingActions).map roundToDouble).getD 0) =
          (state.bind IScheduleState.remainingActions).getD 0 ↔ KeptState state := by
      unfold KeptState
      cases hn : state.bind IScheduleState.remainingActions with
      | none => exact iff_of_true rfl (by simp)
      | some n => simpa [hlimited] using longFromNumber_iff (h n hn)
    rw [← hkept, ← hremaining]
    constructor
    · intro hsame
      have hread := hsame.remainingActions hlimited
      simpa only [encodeScheduleState, describedState, Option.bind_some, if_pos hlimited] using hread
    · intro heq
      refine ⟨decide_getD _, rfl, ?_, fun _ => ?_⟩
      · simp [encodeScheduleState, describedState, hlimited]
      · simpa only [encodeScheduleState, describedState, Option.bind_some, if_pos hlimited] using heq
  · refine iff_of_true ⟨decide_getD _, rfl, ?_, fun heq => absurd heq hlimited⟩ fun heq => absurd heq hlimited
    have hfalse : (state.bind IScheduleState.limitedActions).getD false = false := by
      cases hb : state.bind IScheduleState.limitedActions with
      | none => rfl
      | some b =>
        cases b with
        | false => rfl
        | true => exact absurd hb hlimited
    simp [encodeScheduleState, describedState, hlimited, hfalse]

/-! ## The action -/

section Action

variable {conv : DataConverter V P} {host : Host} {instant : String → Option Rat}

theorem decode_ok {p : P} {v : V} (h : conv.fromPayload p = some v) : conv.decode p = .ok v := by
  rw [DataConverter.decode, h]
  rfl

theorem encode_ok {p : P} {v : V} (h : conv.toPayload v = some p) : conv.encode v = .ok p := by
  rw [DataConverter.encode, h]
  rfl

theorem values_kept (hlaw : conv.Lawful) {ps : List P} (h : ∀ p ∈ ps, conv.Reads p) :
    ∃ vs ps', mapValues conv.decode ps = .ok vs ∧ mapValues conv.encode vs = .ok ps' ∧
      ps'.map conv.fromPayload = ps.map conv.fromPayload := by
  induction ps with
  | nil => exact ⟨[], [], rfl, rfl, rfl⟩
  | cons p ps ih =>
    rcases Option.isSome_iff_exists.mp (h p List.mem_cons_self) with ⟨v, hv⟩
    rcases hlaw p v hv with ⟨p', hp', hv'⟩
    rcases ih fun q hq => h q (List.mem_cons_of_mem _ hq) with ⟨vs, ps', hvs, hps', hsame⟩
    refine ⟨v :: vs, p' :: ps', ?_, ?_, ?_⟩
    · rw [mapValues, decode_ok hv, hvs]
      rfl
    · rw [mapValues, encode_ok hp', hps']
      rfl
    · rw [List.map_cons, List.map_cons, hv, hv', hsame]

theorem entries_kept (hlaw : conv.Lawful) {entries : List (String × P)} (h : ∀ e ∈ entries, conv.Reads e.2) :
    ∃ vs ps', mapEntries conv.decode entries = .ok vs ∧ mapEntries conv.encode vs = .ok ps' ∧
      vs.map Prod.fst = entries.map Prod.fst ∧ ps'.map Prod.fst = entries.map Prod.fst ∧
      (ps'.map fun e => (e.1, conv.fromPayload e.2)) = entries.map fun e => (e.1, conv.fromPayload e.2) := by
  induction entries with
  | nil => exact ⟨[], [], rfl, rfl, rfl, rfl, rfl⟩
  | cons e entries ih =>
    rcases e with ⟨k, p⟩
    rcases Option.isSome_iff_exists.mp (h (k, p) List.mem_cons_self) with ⟨v, hv⟩
    rcases hlaw p v hv with ⟨p', hp', hv'⟩
    rcases ih fun q hq => h q (List.mem_cons_of_mem _ hq) with ⟨vs, ps', hvs, hps', hkeys, hkeys', hsame⟩
    refine ⟨(k, v) :: vs, (k, p') :: ps', ?_, ?_, ?_, ?_, ?_⟩
    · rw [mapEntries, decode_ok hv, hvs]
      rfl
    · rw [mapEntries, encode_ok hp', hps']
      rfl
    · rw [List.map_cons, List.map_cons, hkeys]
    · rw [List.map_cons, List.map_cons, hkeys']
    · rw [List.map_cons, List.map_cons, hsame, hv']
      exact congrArg (fun x => (k, x) :: _) hv.symm

theorem entries_fromEntries {α : Type} {entries : List (String × α)} (hnodup : (entries.map Prod.fst).Nodup) :
    (SearchAttributes.fromEntries entries).entries = entries := by
  have hfold : ∀ (entries : List (String × α)) (o : JsObject α),
      (o.entries.map Prod.fst ++ entries.map Prod.fst).Nodup →
        (entries.foldl (fun o e => o.set e.1 e.2) o).entries = o.entries ++ entries := by
    intro entries
    induction entries with
    | nil => exact fun o _ => (List.append_nil _).symm
    | cons e entries ih =>
      intro o hnodup
      have hname : e.1 ∉ o.entries.map Prod.fst := fun hmem =>
        (List.disjoint_of_nodup_append hnodup) hmem List.mem_cons_self
      have hset := SearchAttributes.set_entries o hname e.2
      rw [List.foldl_cons, ih, hset, List.append_assoc]
      · rfl
      · rw [hset, List.map_append, List.append_assoc]
        exact hnodup
  exact hfold entries _ hnodup

theorem memo_kept (hlaw : conv.Lawful) {memo : Option (JsObject P)}
    (h : ∀ m ∈ memo, ∀ e ∈ m.entries, conv.Reads e.2) :
    ∃ values memo', decodeMapFromPayloads conv memo = .ok values ∧
      (values.elim (.ok none) fun values => some <$> encodeMapToPayloads conv values) = .ok memo' ∧
      memo'.map (memoValues conv) = memo.map (memoValues conv) := by
  cases memo with
  | none => exact ⟨none, none, rfl, rfl, rfl⟩
  | some memo =>
    rcases entries_kept hlaw (h memo rfl) with ⟨vs, ps', hvs, hps', hkeys, hkeys', hsame⟩
    have hvalues := entries_fromEntries (hkeys.symm ▸ memo.nodup)
    have hpayloads := entries_fromEntries (hkeys'.symm ▸ memo.nodup)
    refine ⟨some (SearchAttributes.fromEntries vs), some (SearchAttributes.fromEntries ps'), ?_, ?_, ?_⟩
    · rw [decodeMapFromPayloads, hvs]
      rfl
    · rw [Option.elim_some, encodeMapToPayloads, hvalues, hps']
      rfl
    · rw [Option.map_some, Option.map_some, memoValues, memoValues, hpayloads, hsame]

theorem single_kept (hlaw : conv.Lawful) {payload : Option P} (h : ∀ p ∈ payload, conv.Reads p) :
    ∃ v payload', decodeOptionalSingle conv payload = .ok v ∧ encodeOptionalSingle conv v = .ok payload' := by
  cases payload with
  | none => exact ⟨none, none, rfl, rfl⟩
  | some p =>
    rcases Option.isSome_iff_exists.mp (h p rfl) with ⟨v, hv⟩
    rcases hlaw p v hv with ⟨p', hp', _⟩
    by_cases hnull : conv.nullish v = true
    · exact ⟨none, none, by rw [decodeOptionalSingle, decode_ok hv]; exact congrArg _ (if_pos hnull), rfl⟩
    · refine ⟨some v, some p', ?_, ?_⟩
      · rw [decodeOptionalSingle, decode_ok hv]
        exact congrArg _ (if_neg hnull)
      · rw [encodeOptionalSingle, if_neg hnull, encode_ok hp']
        rfl

theorem userMetadata_kept (hlaw : conv.Lawful) {metadata : Option (UserMetadata P)}
    (hsummary : ∀ p ∈ metadata.bind UserMetadata.summary, conv.Reads p)
    (hdetails : ∀ p ∈ metadata.bind UserMetadata.details, conv.Reads p) :
    ∃ values metadata', decodeUserMetadata conv metadata = .ok values ∧
      encodeUserMetadata conv values.1 values.2 = .ok metadata' := by
  cases metadata with
  | none => exact ⟨(none, none), none, rfl, rfl⟩
  | some metadata =>
    rcases single_kept hlaw hsummary with ⟨v, payload, hv, hpayload⟩
    rcases single_kept hlaw hdetails with ⟨v', payload', hv', hpayload'⟩
    refine ⟨(v, v'), if payload.isNone ∧ payload'.isNone then none else some ⟨payload, payload'⟩, ?_, ?_⟩
    · simp only [Option.bind_some] at hv hv'
      rw [decodeUserMetadata, hv, hv']
      rfl
    · rw [encodeUserMetadata, hpayload, hpayload']
      rfl

/-- Search attributes are decoded and encoded again, unless a name is one that every object has. -/
theorem attributes_kept (hreads : host.Reads instant) {attributes : Option (JsObject IndexedField)}
    (hvalid : ValidAttributes instant attributes) (hnamed : AttributesNamed host attributes) :
    ∃ typed payloads, decodeTypedSearchAttributes host attributes = .ok typed ∧
      encodeUnifiedSearchAttributes host (some (legacyEntries (decodeSearchAttributes host attributes)))
        (some (getAll typed)) = .ok payloads ∧
      (SameAttributes instant (some payloads) attributes ↔
        ∀ fields ∈ attributes, ∀ e ∈ fields.entries, e.2.WholeMillis instant ∧ e.2.KeptNumbers) := by
  cases attributes with
  | none => exact ⟨_, _, rfl, rfl, iff_of_true (fun _ => rfl) (by simp)⟩
  | some fields =>
    rcases SearchAttributes.encode_decoded (hvalid fields rfl) (hnamed fields rfl) with
      ⟨typed, payloads, hdecode, hencode, hlookup⟩
    refine ⟨typed, payloads, hdecode, hencode, ?_⟩
    constructor
    · intro hsame fields' hfields e he
      cases hfields
      rcases hvalid fields rfl e he with ⟨type, htype⟩
      have hentry := hsame e.1
      have hfield := SearchAttributes.lookup_of_mem fields.nodup he
      simp only [Option.bind_some, hfield, hlookup] at hentry
      exact (SearchAttributes.reencode_keeps_iff hreads htype).mp (hentry type htype)
    · intro hkept n
      cases hfield : fields.entries.lookup n with
      | none => simp only [Option.bind_some, hfield, hlookup, Option.bind_none]
      | some field =>
        simp only [Option.bind_some, hfield, hlookup]
        intro type htype
        exact (SearchAttributes.reencode_keeps_iff hreads htype).mpr
          (hkept fields rfl _ (SearchAttributes.mem_of_lookup hfield))

theorem encodeAny_ok {searchAttributes : List (String × SearchAttributes.LegacyValue)}
    {typedSearchAttributes : List SearchAttributes.SearchAttributeUpdatePair} {payloads : JsObject Payload}
    (h : encodeUnifiedSearchAttributes host (some searchAttributes) (some typedSearchAttributes) = .ok payloads) :
    encodeAnySearchAttributes host (some searchAttributes) (some typedSearchAttributes) = .ok (some payloads) := by
  have hsome : (some searchAttributes).isSome = true := rfl
  rw [encodeAnySearchAttributes, if_pos (Or.inl hsome), h]
  rfl

theorem attributes_error {attributes : Option (JsObject IndexedField)} (h : ¬ AttributesNamed host attributes) :
    ∃ error, decodeTypedSearchAttributes host attributes = .error error := by
  cases attributes with
  | none => exact absurd (by simp [AttributesNamed]) h
  | some fields =>
    refine SearchAttributes.decodeTyped_error fun hfree => h ?_
    intro fields' hfields
    cases hfields
    exact hfree

theorem retry_kept_iff {policy : Option IRetryPolicy} (h : ∀ p ∈ policy, p.ValidSpans) :
    (∃ policy', ((policy.map decompileRetryPolicy).elim (.ok none) fun retry =>
          some <$> (compileRetryPolicy ms retry).mapError UpdateError.option) = .ok policy' ∧
        Option.Rel IRetryPolicy.Same policy' policy) ↔ ∀ p ∈ policy, p.Accepted := by
  cases policy with
  | none => exact iff_of_true ⟨none, rfl, .none⟩ (by simp)
  | some policy =>
    have hiff := retryPolicy_kept_iff ms (h policy rfl)
    simp only [Option.mem_def, Option.some.injEq, forall_eq', ← hiff, Option.map_some, Option.elim_some,
      map_ok_iff, mapError_ok_iff]
    constructor
    · rintro ⟨policy', ⟨compiled, hcompile, rfl⟩, hrel⟩
      cases hrel with
      | some hsame => exact ⟨compiled, hcompile, hsame⟩
    · rintro ⟨compiled, hcompile, hsame⟩
      exact ⟨some compiled, ⟨compiled, hcompile, rfl⟩, .some hsame⟩

theorem compiled_priority_iff (priority : Option IPriority) :
    (∃ priority', ((some (decodePriority priority)).elim (.ok none) fun priority =>
          some <$> (compilePriority priority).mapError UpdateError.option) = .ok priority' ∧
        SamePriority priority' priority) ↔ ∀ n ∈ priority.bind IPriority.priorityKey, 0 ≤ n := by
  rw [← priority_kept_iff]
  simp only [Option.elim_some, map_ok_iff, mapError_ok_iff]
  constructor
  · rintro ⟨priority', ⟨compiled, hcompile, rfl⟩, hsame⟩
    exact ⟨compiled, hcompile, hsame⟩
  · rintro ⟨compiled, hcompile, hsame⟩
    exact ⟨some compiled, ⟨compiled, hcompile, rfl⟩, hsame⟩

/-- What the action is decoded to, and when it is kept. -/
theorem action_kept_iff (hlaw : conv.Lawful) (hreads : host.Reads instant)
    {info : NewWorkflowExecutionInfo IndexedField P} (h : info.Valid conv instant)
    (hnamed : AttributesNamed host info.searchAttributes) (headers : JsObject P) :
    ∃ d : ScheduleDescriptionAction V, decodeScheduleAction conv host ⟨some info⟩ = .ok d ∧
      d.workflowId = info.workflowId ∧ d.workflowType = info.workflowType ∧ d.taskQueue = info.taskQueue.name ∧
      ((∃ pb, encodeScheduleAction ms conv host ⟨d.options, info.workflowId, info.workflowType, d.args⟩ headers =
            .ok pb ∧ Option.Rel (SameAction conv instant) pb.startWorkflow (some info)) ↔
        KeptAction host instant info) := by
  rcases userMetadata_kept hlaw h.summary h.details with ⟨metadata, metadata', hmetadata, hmetadata'⟩
  rcases values_kept hlaw h.input with ⟨args, payloads, hargs, hpayloads, hinput⟩
  rcases memo_kept hlaw h.memo with ⟨memo, memo', hmemo, hmemo', hsameMemo⟩
  rcases attributes_kept hreads h.searchAttributes hnamed with ⟨typed, attributes, htyped, hattributes, hvalues⟩
  let encoded (retryPolicy : Option IRetryPolicy) (priority : Option IPriority) : NewWorkflowExecutionInfo Payload P :=
    { workflowId := info.workflowId
      workflowType := info.workflowType
      taskQueue := ⟨info.taskQueue.name, TASK_QUEUE_KIND_NORMAL⟩
      input := if args = [] then none else some payloads
      workflowExecutionTimeout := info.workflowExecutionTimeout
      workflowRunTimeout := info.workflowRunTimeout
      workflowTaskTimeout := info.workflowTaskTimeout
      retryPolicy
      memo := memo'
      searchAttributes := some attributes
      header := some headers
      userMetadata := metadata'
      priority }
  obtain ⟨d, hdecode, ⟨hid, htype, hqueue, hargs'⟩, hencode⟩ : ∃ d : ScheduleDescriptionAction V,
      decodeScheduleAction conv host ⟨some info⟩ = .ok d ∧ (d.workflowId = info.workflowId ∧
        d.workflowType = info.workflowType ∧ d.taskQueue = info.taskQueue.name ∧ d.args = args) ∧
      encodeScheduleAction ms conv host ⟨d.options, info.workflowId, info.workflowType, args⟩ headers = (do
        let retryPolicy ← (info.retryPolicy.map decompileRetryPolicy).elim (.ok none) fun retry =>
          some <$> (compileRetryPolicy ms retry).mapError .option
        let priority ← (some (decodePriority info.priority)).elim (.ok none) fun priority =>
          some <$> (compilePriority priority).mapError .option
        return ⟨some (encoded retryPolicy priority)⟩) := by
    apply Exists.intro
    refine ⟨?_, ?_, ?_⟩
    · simp only [decodeScheduleAction, hmetadata, hargs, hmemo, htyped]
      rfl
    · exact ⟨rfl, rfl, rfl, rfl⟩
    · simp only [encodeScheduleAction, ScheduleDescriptionAction.options, hpayloads, hmemo', encodeAny_ok hattributes,
        hmetadata', msOptionalToTs_span ms h.workflowExecutionTimeout, msOptionalToTs_span ms h.workflowRunTimeout,
        msOptionalToTs_span ms h.workflowTaskTimeout]
      rfl
  have hinput' : ((if args = [] then none else some payloads : Option (List P)).getD []).map conv.fromPayload =
      (info.input.getD []).map conv.fromPayload := by
    split
    · rename_i hnil
      rw [hnil] at hpayloads
      cases hpayloads
      exact hinput
    · exact hinput
  refine ⟨d, hdecode, hid, htype, hqueue, ?_⟩
  · rw [hargs', hencode]
    constructor
    · rintro ⟨pb, hpb, hrel⟩
      rcases (bind_ok_iff _ _ _).mp hpb with ⟨policy, hpolicy, hrest⟩
      rcases (bind_ok_iff _ _ _).mp hrest with ⟨priority, hpriority, hpb'⟩
      cases hpb'
      cases hrel with
      | some hsame =>
        exact ⟨(retry_kept_iff ms h.retryPolicy).mp ⟨policy, hpolicy, hsame.retryPolicy⟩,
          (compiled_priority_iff info.priority).mp ⟨priority, hpriority, hsame.priority⟩, hnamed,
          hvalues.mp hsame.searchAttributes⟩
    · rintro ⟨hpolicy, hpriority, _, hkept⟩
      rcases (retry_kept_iff ms h.retryPolicy).mpr hpolicy with ⟨policy, hpolicy', hsamePolicy⟩
      rcases (compiled_priority_iff info.priority).mpr hpriority with ⟨priority, hpriority', hsamePriority⟩
      refine ⟨⟨some (encoded policy priority)⟩, ?_, .some ?_⟩
      · exact (bind_ok_iff _ _ _).mpr ⟨policy, hpolicy', (bind_ok_iff _ _ _).mpr ⟨priority, hpriority', rfl⟩⟩
      · exact ⟨rfl, rfl, rfl, hinput', rfl, rfl, rfl, hsamePolicy, hsameMemo, hvalues.mpr hkept, hsamePriority⟩

end Action

/-! ## The update -/

section Update

variable {conv : DataConverter V P} {host : Host} {instant : String → Option Rat}
  {raw : DescribeScheduleResponse IndexedField P} {schedule : ISchedule IndexedField P} {spec : IScheduleSpec}
  {info : NewWorkflowExecutionInfo IndexedField P}

/-- Nothing is described if an attribute has a name that every object has. -/
theorem describe_error (scheduleId : String) (h : Returned conv instant raw schedule spec info)
    (hnamed : ¬ (AttributesNamed host info.searchAttributes ∧ AttributesNamed host raw.searchAttributes)) :
    ∀ d, describe conv host scheduleId raw ≠ .ok d := by
  intro d hd
  simp only [describe, h.hasSchedule, h.hasSpec, h.hasAction] at hd
  rcases (bind_ok_iff _ _ _).mp hd with ⟨_, _, hrest⟩
  rcases (bind_ok_iff _ _ _).mp hrest with ⟨_, haction, hrest'⟩
  rcases (bind_ok_iff _ _ _).mp hrest' with ⟨_, _, hrest''⟩
  rcases (bind_ok_iff _ _ _).mp hrest'' with ⟨_, htyped, _⟩
  apply hnamed
  constructor
  · by_contra hnot
    rcases attributes_error hnot with ⟨error, herror⟩
    simp only [decodeScheduleAction] at haction
    rcases (bind_ok_iff _ _ _).mp haction with ⟨_, _, haction'⟩
    rcases (bind_ok_iff _ _ _).mp haction' with ⟨_, _, haction''⟩
    rcases (bind_ok_iff _ _ _).mp haction'' with ⟨_, _, haction'''⟩
    rcases (bind_ok_iff _ _ _).mp haction''' with ⟨_, hdecode, _⟩
    rw [herror] at hdecode
    cases hdecode
  · by_contra hnot
    rcases attributes_error hnot with ⟨error, herror⟩
    rw [herror] at htyped
    cases htyped

/-- What a description is, as far as an update takes it. -/
structure Describes (host : Host) (raw : DescribeScheduleResponse IndexedField P)
    (schedule : ISchedule IndexedField P) (d : ScheduleSpecDescription) (action : ScheduleDescriptionAction V)
    (attributes : JsObject Payload) (current : ScheduleDescription V) : Prop where
  spec : current.spec = d
  action : current.action = action
  policies : current.unchanged.policies = describedPolicies schedule.policies
  state : current.unchanged.state = describedState schedule.state
  searchAttributes : encodeAnySearchAttributes host current.unchanged.searchAttributes
    current.unchanged.typedSearchAttributes = .ok (some attributes)

variable {action : ScheduleDescriptionAction V}

theorem describe_ok (hlaw : conv.Lawful) (hreads : host.Reads instant) (scheduleId : String)
    (h : Returned conv instant raw schedule spec info) {d : ScheduleSpecDescription}
    (hspec : decodeScheduleSpec spec = .ok d)
    (haction : decodeScheduleAction conv host ⟨some info⟩ = .ok action)
    (hnamed : AttributesNamed host raw.searchAttributes) :
    ∃ current attributes, describe conv host scheduleId raw = .ok current ∧
      Describes host raw schedule d action attributes current := by
  rcases memo_kept hlaw h.memo with ⟨memo, _, hmemo, _, _⟩
  rcases attributes_kept hreads h.searchAttributes hnamed with ⟨typed, attributes, htyped, hattributes, _⟩
  apply Exists.intro
  refine ⟨attributes, ?_, ?_⟩
  · simp only [describe, h.hasSchedule, h.hasSpec, h.hasAction, hspec, haction, hmemo, htyped]
    rfl
  · exact ⟨rfl, rfl, rfl, rfl, encodeAny_ok hattributes⟩

theorem assertRequired_ok (hqueue : action.taskQueue ≠ "")
    (htype : action.workflowType ≠ "") {opts : ScheduleUpdateOptions V} (hopts : opts.action = action.options) :
    assertRequiredScheduleOptions opts = none := by
  have hqueue' : ¬ action.options.taskQueue = "" := hqueue
  have htype' : ¬ action.options.workflowType = .string "" := fun heq => htype (WorkflowTypeOrFunc.string.inj heq)
  rw [assertRequiredScheduleOptions, hopts, if_neg hqueue', if_neg htype']

theorem compileUpdated_ok (scheduleId : String)
    {opts : ScheduleUpdateOptions V} (hopts : opts.action = action.options) :
    compileUpdatedScheduleOptions scheduleId opts =
      .ok ⟨action.options, action.workflowId, action.workflowType, action.args⟩ := by
  rw [compileUpdatedScheduleOptions, hopts]
  rfl

theorem update_of_described (scheduleId : String) {current : ScheduleDescription V}
    {updateFn : ScheduleDescription V → ScheduleUpdateOptions V}
    (hdescribe : describe conv host scheduleId raw = .ok current)
    (hrequired : assertRequiredScheduleOptions (updateFn current) = none) :
    update ms conv host scheduleId raw updateFn =
      (compileUpdatedScheduleOptions scheduleId (updateFn current) >>= fun action =>
        _updateSchedule ms conv host scheduleId (updateFn current) action
          ((do (← (← (← raw.schedule).action).startWorkflow).header).getD .empty)) := by
  rw [update, hdescribe]
  simp only [bind, Except.bind, hrequired]

/-- What an update that changes nothing encodes. -/
theorem update_unchanged_eq (hlaw : conv.Lawful) (hreads : host.Reads instant) (scheduleId : String)
    (h : Returned conv instant raw schedule spec info) {d : ScheduleSpecDescription}
    (hspec : decodeScheduleSpec spec = .ok d)
    (haction : decodeScheduleAction conv host ⟨some info⟩ = .ok action) (hid : action.workflowId = info.workflowId)
    (htype : action.workflowType = info.workflowType) (hqueue : action.taskQueue = info.taskQueue.name)
    (hnamed : AttributesNamed host raw.searchAttributes) :
    ∃ attributes, update ms conv host scheduleId raw ScheduleDescription.unchanged = (do
      let spec ← encodeScheduleSpec ms d.options
      let action ← encodeScheduleAction ms conv host
        ⟨action.options, info.workflowId, info.workflowType, action.args⟩ (info.header.getD .empty)
      let policies ← encodeSchedulePolicies ms (describedPolicies schedule.policies)
      return ⟨scheduleId, ⟨some spec, some action, some policies,
        some (encodeScheduleState (describedState schedule.state))⟩, some attributes⟩) := by
  rcases describe_ok hlaw hreads scheduleId h hspec haction hnamed with ⟨current, attributes, hdescribe, hcurrent⟩
  refine ⟨attributes, ?_⟩
  have hopts : current.unchanged.action = action.options :=
    congrArg ScheduleDescriptionAction.options hcurrent.action
  have hheader : ((do (← (← (← raw.schedule).action).startWorkflow).header).getD .empty : JsObject P) =
      info.header.getD .empty := by
    rw [h.hasSchedule]
    simp only [Option.bind_eq_bind, Option.bind_some, h.hasAction]
  have hrequired := assertRequired_ok (hqueue ▸ h.validInfo.taskQueue) (htype ▸ h.validInfo.workflowType) hopts
  have hspec' : current.unchanged.spec = d.options := congrArg ScheduleSpecDescription.options hcurrent.spec
  rw [update_of_described ms scheduleId hdescribe hrequired, hheader, compileUpdated_ok scheduleId hopts, hid, htype]
  change _updateSchedule ms conv host scheduleId current.unchanged
    ⟨action.options, info.workflowId, info.workflowType, action.args⟩ (info.header.getD .empty) = _
  rw [_updateSchedule, hspec', hcurrent.policies, hcurrent.state, hcurrent.searchAttributes]
  rfl

end Update

/-! ## A schedule that starts before 1970 -/

section Sample

/-- Payloads that are the texts themselves. -/
def textConverter : DataConverter String String := ⟨some, some, fun _ => false⟩

theorem textConverter_lawful : textConverter.Lawful := by
  rintro p v ⟨⟩
  exact ⟨p, rfl, rfl⟩

/-- A host that reads no dates. -/
def datelessHost : Host := ⟨fun _ => none, fun _ => ""⟩

theorem datelessHost_reads : datelessHost.Reads fun _ => none := ⟨nofun, nofun, rfl⟩

/-- The number of attempts, which is seven. -/
def attempts : IndexedField := ⟨some "Int", .value (.number 7)⟩

theorem attempts_kept : attempts.WholeMillis (fun _ => none) ∧ attempts.KeptNumbers := by
  constructor
  · intro hdatetime
    cases hdatetime
  · intro _ value hvalue
    cases List.mem_singleton.mp hvalue
    exact_mod_cast SearchAttributes.print_ofDecimal_intCast (show |(7 : ℤ)| < 2 ^ 53 by decide)

def startingInfo : NewWorkflowExecutionInfo IndexedField String where
  workflowId := "report"
  workflowType := "writeReport"
  taskQueue := ⟨"reports", TASK_QUEUE_KIND_NORMAL⟩
  input := some ["weekly"]
  workflowExecutionTimeout := none
  workflowRunTimeout := none
  workflowTaskTimeout := none
  retryPolicy := none
  memo := none
  searchAttributes := some ⟨[("Attempts", attempts)], List.nodup_singleton _⟩
  header := none
  userMetadata := none
  priority := none

def startingSpec (startTime : Timestamp) : IScheduleSpec where
  structuredCalendar := none
  interval := some [⟨some ⟨3600, 0⟩, none⟩]
  cronString := none
  excludeStructuredCalendar := none
  startTime := some startTime
  endTime := none
  jitter := none
  timezoneName := none

def startingSchedule (startTime : Timestamp) : ISchedule IndexedField String where
  spec := some (startingSpec startTime)
  action := some ⟨some startingInfo⟩
  policies := some ⟨some ScheduleOverlapPolicy.SKIP.number, some ⟨60, 0⟩, none⟩
  state := none

def startingRaw (startTime : Timestamp) : DescribeScheduleResponse IndexedField String :=
  ⟨some (startingSchedule startTime), none, none⟩

theorem attempts_valid : ValidAttributes (fun _ => none) startingInfo.searchAttributes := by
  rintro fields ⟨⟩ e he
  cases List.mem_singleton.mp he
  refine ⟨.int, rfl, fun json hjson => ?_⟩
  cases List.mem_singleton.mp hjson
  exact Rat.den_ofNat

theorem attempts_named : AttributesNamed datelessHost startingInfo.searchAttributes := by
  rintro fields ⟨⟩ e he _
  cases List.mem_singleton.mp he
  decide

theorem startingInfo_kept : KeptAction datelessHost (fun _ => none) startingInfo := by
  refine ⟨nofun, nofun, attempts_named, ?_⟩
  rintro fields ⟨⟩ e he
  cases List.mem_singleton.mp he
  exact attempts_kept

theorem starting_returned {startTime : Timestamp} (h : ValidTime startTime) :
    Returned textConverter (fun _ => none) (startingRaw startTime) (startingSchedule startTime)
      (startingSpec startTime) startingInfo where
  hasSchedule := rfl
  hasSpec := rfl
  hasAction := rfl
  validSpec :=
    { structuredCalendar := nofun
      interval := by
        intro pb hpb
        cases List.mem_singleton.mp hpb
        exact ⟨⟨_, rfl, by decide, by decide, by decide, by decide⟩, nofun⟩
      excludeStructuredCalendar := nofun
      startTime := by
        rintro ts ⟨⟩
        exact h
      endTime := nofun
      jitter := nofun }
  validInfo := ⟨by decide, by decide, fun _ _ => rfl, nofun, nofun, nofun, nofun, nofun, attempts_valid, nofun, nofun⟩
  catchupWindow := by
    rintro ts ⟨⟩
    exact ⟨by decide, by decide, by decide, by decide⟩
  remainingActions := nofun
  memo := nofun
  searchAttributes := nofun

end Sample

end TemporalSdk.Schedules
