import Mathlib.Data.List.Chain

/-!
# Result — the loop of `WorkflowClient.result`

`result` keeps one request and one serialization context, and changes both as the pages of close events come
in.  `P`, `F` and `V` are payloads, failures and the values they decode to, and `X` is what a converter throws.
-/

namespace TemporalSdk.Client

/-- `nameSpace` is the source's `namespace`. -/
inductive SerializationContext
  | workflow (nameSpace workflowId : String)
  | nexus (endpoint service operation : String)
  deriving DecidableEq

structure PropagatedSerializationContext where
  endpoint : Option String
  service : Option String
  operation : Option String
  deriving DecidableEq

def nexusSerializationContextFromProto :
    Option PropagatedSerializationContext → Option SerializationContext
  | none => none
  | some context =>
    some (.nexus (context.endpoint.getD "") (context.service.getD "") (context.operation.getD ""))

inductive RetryState
  | inProgress
  | nonRetryableFailure
  | timeout
  | maximumAttemptsReached
  | retryPolicyNotSet
  | internalServerError
  | cancelRequested
  -- `unknown_23`.
  | unknown (value : Int)
  deriving DecidableEq

def decodeRetryState : Int → Option RetryState
  | 0 => none
  | 1 => some .inProgress
  | 2 => some .nonRetryableFailure
  | 3 => some .timeout
  | 4 => some .maximumAttemptsReached
  | 5 => some .retryPolicyNotSet
  | 6 => some .internalServerError
  | 7 => some .cancelRequested
  | value => some (.unknown value)

/-- The attributes of the events that close a run.  No `newExecutionRunId` is the empty string. -/
inductive CloseEvent (P F : Type)
  | completed (newExecutionRunId : String) (result : Option (List P))
  | failed (newExecutionRunId : String) (failure : Option F) (retryState : Int)
  | canceled (details : Option (List P))
  | terminated (reason : String)
  | timedOut (newExecutionRunId : String) (retryState : Int)
  | continuedAsNew (newExecutionRunId : String)
  deriving DecidableEq

inductive HistoryEvent (P F : Type)
  | close (event : CloseEvent P F)
  | other
  deriving DecidableEq

structure GetWorkflowExecutionHistoryResponse (P F : Type) where
  propagatedNexusSerializationContext : Option PropagatedSerializationContext
  /-- The `events` of the `history`, which may be missing. -/
  events : Option (List (HistoryEvent P F))
  nextPageToken : List UInt8

/-- The parts of the request that `result` changes. -/
structure GetWorkflowExecutionHistoryRequest where
  runId : Option String
  nextPageToken : Option (List UInt8)
  deriving DecidableEq

/-- `!req.nextPageToken?.length`. -/
def GetWorkflowExecutionHistoryRequest.tokenless (req : GetWorkflowExecutionHistoryRequest) : Prop :=
  req.nextPageToken.getD [] = []

instance (req : GetWorkflowExecutionHistoryRequest) : Decidable req.tokenless :=
  inferInstanceAs (Decidable (req.nextPageToken.getD [] = []))

/-- The codecs and converters of a client. -/
structure DataConverter (P F V X : Type) where
  decode : List P → SerializationContext → Except X (List P)
  fromPayload : P → SerializationContext → Except X V
  decodeFailure : F → SerializationContext → Except X F
  failureToError : F → SerializationContext → Except X V

inductive Cause (V : Type)
  | error (err : V)
  | cancelledFailure (message : String) (details : List V)
  | terminatedFailure (message : String)
  | timeoutFailure (message : String)
  deriving DecidableEq

/-- How a call of `result` ends. -/
inductive Outcome (V X : Type)
  -- No value is `undefined`.
  | returned (value : Option V)
  | workflowFailedError (message : String) (cause : Option (Cause V)) (retryState : Option RetryState)
  | workflowContinuedAsNewError (message newExecutionRunId : String)
  | typeError (message : String)
  | error (message : String)
  | workflowNotFoundError
  | thrown (err : X)
  deriving DecidableEq

section Decoding

variable {P F V X : Type} (converter : DataConverter P F V X)

def decodeOptional (payloads : Option (List P)) (context : SerializationContext) :
    Except X (Option (List P)) :=
  match payloads with
  | none => .ok none
  | some payloads => (converter.decode payloads context).map some

def decodeFromPayloadsAtIndex (index : Nat) (payloads : Option (List P))
    (context : SerializationContext) : Except X (Option V) := do
  match ← decodeOptional converter payloads context with
  | none => .ok none
  | some payloads =>
    match payloads[index]? with
    | none => .ok none
    | some payload => (converter.fromPayload payload context).map some

def decodeArrayFromPayloads (payloads : Option (List P)) (context : SerializationContext) :
    Except X (List V) := do
  match ← decodeOptional converter payloads context with
  | none => .ok []
  | some payloads => payloads.mapM fun payload => converter.fromPayload payload context

def decodeOptionalFailureToOptionalError (failure : Option F) (context : SerializationContext) :
    Except X (Option V) :=
  match failure with
  | none => .ok none
  | some failure => do
    let decoded ← converter.decodeFailure failure context
    (converter.failureToError decoded context).map some

/-- A decoder that throws ends the call. -/
def orThrow {A : Type} (decoded : Except X A) (k : A → Outcome V X) : Outcome V X :=
  match decoded with
  | .ok a => k a
  | .error err => .thrown err

/-- `reason || 'Workflow execution terminated'`. -/
def terminationReason (reason : String) : String :=
  if reason = "" then "Workflow execution terminated" else reason

/-- What `result` returns or throws for a close event that it does not follow. -/
def settle (context : SerializationContext) : CloseEvent P F → Outcome V X
  | .completed _ result =>
    orThrow (decodeFromPayloadsAtIndex converter 0 result context) .returned
  | .failed _ failure retryState =>
    orThrow (decodeOptionalFailureToOptionalError converter failure context) fun cause =>
      .workflowFailedError "Workflow execution failed" (cause.map .error) (decodeRetryState retryState)
  | .canceled details =>
    orThrow (decodeArrayFromPayloads converter details context) fun details =>
      .workflowFailedError "Workflow execution cancelled"
        (some (.cancelledFailure "Workflow canceled" details)) (some .nonRetryableFailure)
  | .terminated reason =>
    .workflowFailedError (terminationReason reason) (some (.terminatedFailure (terminationReason reason)))
      (some .nonRetryableFailure)
  | .timedOut _ retryState =>
    .workflowFailedError "Workflow execution timed out"
      (some (.timeoutFailure "Workflow execution timed out")) (decodeRetryState retryState)
  | .continuedAsNew newExecutionRunId =>
    if newExecutionRunId = "" then
      .typeError "Expected service to return newExecutionRunId for WorkflowExecutionContinuedAsNewEvent"
    else .workflowContinuedAsNewError "Workflow execution continued as new" newExecutionRunId

end Decoding

/-! ## The loop -/

/-- What one iteration of `result` hands to the next. -/
structure Loop where
  req : GetWorkflowExecutionHistoryRequest
  closeEventContext : SerializationContext
  deriving DecidableEq

inductive Turn (V X : Type)
  | goOn (loop : Loop)
  | settled (outcome : Outcome V X)
  deriving DecidableEq

namespace Loop

variable {P F V X : Type}

def init (context : SerializationContext) (runId : Option String) : Loop :=
  ⟨⟨runId, none⟩, context⟩

/-- `execution.runId = newExecutionRunId; req.nextPageToken = undefined`. -/
def follow (loop : Loop) (newExecutionRunId : String) : Loop :=
  { loop with req := ⟨some newExecutionRunId, none⟩ }

def onCloseEvent (converter : DataConverter P F V X) (followRuns : Bool) (loop : Loop)
    (ev : CloseEvent P F) : Turn V X :=
  match ev with
  | .completed newExecutionRunId _ | .failed newExecutionRunId _ _ | .timedOut newExecutionRunId _ =>
    if followRuns ∧ newExecutionRunId ≠ "" then .goOn (loop.follow newExecutionRunId)
    else .settled (settle converter loop.closeEventContext ev)
  | .canceled _ | .terminated _ => .settled (settle converter loop.closeEventContext ev)
  | .continuedAsNew newExecutionRunId =>
    if newExecutionRunId = "" ∨ followRuns = false then
      .settled (settle converter loop.closeEventContext ev)
    else .goOn (loop.follow newExecutionRunId)

/-- The context for the close event of a page: the one the page carries, else the workflow's own on the first
page of a run, else the one there was. -/
def contextOf (context : SerializationContext) (loop : Loop)
    (res : GetWorkflowExecutionHistoryResponse P F) : SerializationContext :=
  match nexusSerializationContextFromProto res.propagatedNexusSerializationContext with
  | some serverContext => serverContext
  | none => if loop.req.tokenless then context else loop.closeEventContext

/-- One iteration, from the response on. -/
def onResponse (converter : DataConverter P F V X) (context : SerializationContext) (followRuns : Bool)
    (loop : Loop) (res : GetWorkflowExecutionHistoryResponse P F) : Turn V X :=
  let loop := { loop with closeEventContext := loop.contextOf context res }
  match res.events with
  | none | some [] => .goOn { loop with req.nextPageToken := some res.nextPageToken }
  | some [.close ev] => loop.onCloseEvent converter followRuns ev
  -- An event of another kind sends the same request again.
  | some [.other] => .goOn loop
  | some events => .settled (.error s!"Expected at most 1 close event(s), got: {events.length}")

end Loop

/-! ## The service -/

/-- What the service chooses when it answers a request for a page. -/
structure Page where
  nextPageToken : List UInt8
  /-- The context may be on a later page, too. -/
  repeatsContext : Bool
  deriving DecidableEq

/-- A run as the service tells of it: some long polls find no event, then one finds the close event. -/
structure ServedRun (P F : Type) where
  id : String
  context : Option PropagatedSerializationContext
  emptyPages : List Page
  closePage : Page
  close : CloseEvent P F
  deriving DecidableEq

/-- The run that a close event names as the next one. -/
def CloseEvent.successor {P F : Type} : CloseEvent P F → Option String
  | .completed newExecutionRunId _ | .failed newExecutionRunId _ _ | .timedOut newExecutionRunId _
  | .continuedAsNew newExecutionRunId =>
    if newExecutionRunId = "" then none else some newExecutionRunId
  | .canceled _ | .terminated _ => none

/-- The context that the payloads of a run's close event are encoded with: the one the run was started with by
a Nexus operation handler, else the workflow's own. -/
def contextOfRun (context : SerializationContext) (propagated : Option PropagatedSerializationContext) :
    SerializationContext :=
  (nexusSerializationContextFromProto propagated).getD context

/-- A page carries the context of the run when the request has no token. -/
def respond {P F : Type} (propagated : Option PropagatedSerializationContext)
    (req : GetWorkflowExecutionHistoryRequest) (page : Page) (events : List (HistoryEvent P F)) :
    GetWorkflowExecutionHistoryResponse P F :=
  ⟨if req.tokenless ∨ page.repeatsContext = true then propagated else none, some events, page.nextPageToken⟩

structure Service (P F : Type) where
  /-- The run that a request without a run id is about. -/
  current : String
  runs : String → Option (ServedRun P F)

namespace Service

variable {P F : Type}

def resolve (service : Service P F) (runId : Option String) : String :=
  if runId.getD "" = "" then service.current else runId.getD ""

def getWorkflowExecutionHistory (service : Service P F) (req : GetWorkflowExecutionHistoryRequest) :
    Service P F × Option (GetWorkflowExecutionHistoryResponse P F) :=
  match service.runs (service.resolve req.runId) with
  | none => (service, none)
  | some run =>
    match run.emptyPages with
    | [] => (service, some (respond run.context req run.closePage [.close run.close]))
    | page :: pages =>
      ({ service with
          runs := Function.update service.runs (service.resolve req.runId)
            (some { run with emptyPages := pages }) },
        some (respond run.context req page []))

end Service

section Conversation

variable {P F V X : Type} (converter : DataConverter P F V X) (context : SerializationContext)
  (followRuns : Bool)

/-- The requests of the first `n` iterations of `result`, and its outcome if there is one by then. -/
def converse : Nat → Service P F → Loop →
    List GetWorkflowExecutionHistoryRequest × Option (Outcome V X)
  | 0, _, _ => ([], none)
  | n + 1, service, loop =>
    match service.getWorkflowExecutionHistory loop.req with
    | (_, none) => ([loop.req], some .workflowNotFoundError)
    | (service, some res) =>
      match loop.onResponse converter context followRuns res with
      | .settled outcome => ([loop.req], some outcome)
      | .goOn next =>
        let (reqs, outcome) := converse n service next
        (loop.req :: reqs, outcome)

/-- `result(workflowId, runId)`. -/
def result (n : Nat) (service : Service P F) (runId : Option String) :
    List GetWorkflowExecutionHistoryRequest × Option (Outcome V X) :=
  converse converter context followRuns n service (Loop.init context runId)

/-- The rest of a conversation after a turn. -/
def proceed (n : Nat) (service : Service P F) :
    Turn V X → List GetWorkflowExecutionHistoryRequest × Option (Outcome V X)
  | .settled outcome => ([], some outcome)
  | .goOn loop => converse converter context followRuns n service loop

@[simp] theorem proceed_settled (n : Nat) (service : Service P F) (outcome : Outcome V X) :
    proceed converter context followRuns n service (.settled outcome) = ([], some outcome) := rfl

variable {converter context followRuns}

theorem proceed_goOn (n : Nat) (service : Service P F) (loop : Loop) :
    proceed converter context followRuns n service (.goOn loop) =
      converse converter context followRuns n service loop := rfl

theorem converse_succ {n : Nat} {service service' : Service P F} {loop : Loop}
    {res : GetWorkflowExecutionHistoryResponse P F}
    (h : service.getWorkflowExecutionHistory loop.req = (service', some res)) :
    converse converter context followRuns (n + 1) service loop =
      (loop.req :: (proceed converter context followRuns n service'
          (loop.onResponse converter context followRuns res)).1,
        (proceed converter context followRuns n service'
          (loop.onResponse converter context followRuns res)).2) := by
  rw [converse, h]
  cases hturn : loop.onResponse converter context followRuns res with
  | settled | goOn => simp [proceed, hturn]

variable (propagated : Option PropagatedSerializationContext)

/-- Whatever page of a run comes first, and whichever pages repeat the context, the context after a page is
the run's own. -/
theorem contextOf_respond (loop : Loop) (page : Page) (events : List (HistoryEvent P F))
    (h : loop.req.tokenless ∨ loop.closeEventContext = contextOfRun context propagated) :
    loop.contextOf context (respond propagated loop.req page events) =
      contextOfRun context propagated := by
  by_cases hsent : loop.req.tokenless ∨ page.repeatsContext = true
  · cases propagated with
    | none =>
      by_cases htoken : loop.req.tokenless
      · simp [Loop.contextOf, respond, contextOfRun, nexusSerializationContextFromProto, htoken]
      · have hcontext := h.resolve_left htoken
        simpa [Loop.contextOf, respond, contextOfRun, nexusSerializationContextFromProto, htoken]
          using hcontext
    | some propagated =>
      simp [Loop.contextOf, respond, contextOfRun, nexusSerializationContextFromProto, hsent]
  · have htoken : ¬ loop.req.tokenless := fun ht => hsent (Or.inl ht)
    have hpage : page.repeatsContext = false := by
      cases hrepeats : page.repeatsContext with
      | false => rfl
      | true => exact absurd (Or.inr hrepeats) hsent
    rw [← h.resolve_left htoken]
    simp [Loop.contextOf, respond, nexusSerializationContextFromProto, hpage, htoken]

theorem onResponse_empty (loop : Loop) (page : Page)
    (h : loop.req.tokenless ∨ loop.closeEventContext = contextOfRun context propagated) :
    loop.onResponse converter context followRuns (respond propagated loop.req page []) =
      .goOn ⟨⟨loop.req.runId, some page.nextPageToken⟩, contextOfRun context propagated⟩ := by
  have hcontext := contextOf_respond (P := P) (F := F) propagated loop page [] h
  simp only [respond] at hcontext
  simp only [Loop.onResponse, respond, hcontext]

theorem onResponse_close (loop : Loop) (page : Page) (ev : CloseEvent P F)
    (h : loop.req.tokenless ∨ loop.closeEventContext = contextOfRun context propagated) :
    loop.onResponse converter context followRuns (respond propagated loop.req page [.close ev]) =
      Loop.onCloseEvent converter followRuns ⟨loop.req, contextOfRun context propagated⟩ ev := by
  have hcontext := contextOf_respond propagated loop page [.close ev] h
  simp only [respond] at hcontext
  simp only [Loop.onResponse, respond, hcontext]

variable {ev : CloseEvent P F}

theorem onCloseEvent_of_successor {loop : Loop} {id : String} (h : ev.successor = some id) :
    loop.onCloseEvent converter true ev = .goOn (loop.follow id) := by
  cases ev with
  | canceled details => simp [CloseEvent.successor] at h
  | terminated reason => simp [CloseEvent.successor] at h
  | completed newExecutionRunId result | failed newExecutionRunId failure retryState
  | timedOut newExecutionRunId retryState | continuedAsNew newExecutionRunId =>
    simp only [CloseEvent.successor, Option.ite_none_left_eq_some, Option.some.injEq] at h
    rcases h with ⟨hne, rfl⟩
    simp [Loop.onCloseEvent, hne]

theorem onCloseEvent_of_last {loop : Loop} (h : ev.successor = none) :
    loop.onCloseEvent converter true ev = .settled (settle converter loop.closeEventContext ev) := by
  cases ev <;> simp [CloseEvent.successor] at h <;> simp [Loop.onCloseEvent, h]

theorem successor_ne_empty {id : String} (h : ev.successor = some id) : id ≠ "" := by
  rintro rfl
  cases ev <;> simp [CloseEvent.successor] at h

/-! ## Conversations about one run, and about a chain -/

/-- The service after all pages of the run have been read. -/
def Service.drain (service : Service P F) (id : String) (run : ServedRun P F) : Service P F :=
  { service with runs := Function.update service.runs id (some { run with emptyPages := [] }) }

/-- The requests for the pages of a run. -/
def requestsFor (runId : Option String) (token : Option (List UInt8)) (run : ServedRun P F) :
    List GetWorkflowExecutionHistoryRequest :=
  ⟨runId, token⟩ :: run.emptyPages.map fun page => ⟨runId, some page.nextPageToken⟩

variable (converter context followRuns)

theorem converse_run (runId : Option String) (n : Nat) :
    ∀ (pages : List Page) (service : Service P F) (run : ServedRun P F) (token : Option (List UInt8))
      (closeEventContext : SerializationContext), run.emptyPages = pages →
      service.runs (service.resolve runId) = some run →
      (token.getD [] = [] ∨ closeEventContext = contextOfRun context run.context) →
      ∃ token', converse converter context followRuns (n + pages.length + 1) service
          ⟨⟨runId, token⟩, closeEventContext⟩ =
        (requestsFor runId token run ++
            (proceed converter context followRuns n (service.drain (service.resolve runId) run)
              (Loop.onCloseEvent converter followRuns
                ⟨⟨runId, token'⟩, contextOfRun context run.context⟩ run.close)).1,
          (proceed converter context followRuns n (service.drain (service.resolve runId) run)
            (Loop.onCloseEvent converter followRuns
              ⟨⟨runId, token'⟩, contextOfRun context run.context⟩ run.close)).2) := by
  intro pages
  induction pages with
  | nil =>
    intro service run token closeEventContext hpages hrun hcontext
    have hserve : service.getWorkflowExecutionHistory ⟨runId, token⟩ =
        (service, some (respond run.context ⟨runId, token⟩ run.closePage [.close run.close])) := by
      simp only [Service.getWorkflowExecutionHistory, hrun, hpages]
    have hdrain : service.drain (service.resolve runId) run = service := by
      have hsame : { run with emptyPages := [] } = run := by
        rw [← hpages]
      rw [Service.drain, hsame, ← hrun, Function.update_eq_self]
    refine ⟨token, ?_⟩
    rw [List.length_nil, converse_succ hserve, hdrain]
    rw [onResponse_close run.context ⟨⟨runId, token⟩, closeEventContext⟩ run.closePage run.close hcontext]
    simp [requestsFor, hpages]
  | cons page pages ih =>
    intro service run token closeEventContext hpages hrun hcontext
    let run' : ServedRun P F := { run with emptyPages := pages }
    let service' : Service P F :=
      { service with runs := Function.update service.runs (service.resolve runId) (some run') }
    have hserve : service.getWorkflowExecutionHistory ⟨runId, token⟩ =
        (service', some (respond run.context ⟨runId, token⟩ page [])) := by
      simp only [Service.getWorkflowExecutionHistory, hrun, hpages, service', run']
    have hrun' : service'.runs (service'.resolve runId) = some run' := by
      show Function.update service.runs (service.resolve runId) (some run') (service.resolve runId) = _
      rw [Function.update_self]
    have hdrain : service'.drain (service'.resolve runId) run' =
        service.drain (service.resolve runId) run := by
      show Service.drain service' (service.resolve runId) run' = _
      simp only [Service.drain, service', run', Function.update_idem]
    rcases ih service' run' (some page.nextPageToken) (contextOfRun context run.context) rfl hrun'
      (Or.inr rfl) with ⟨token', hrest⟩
    refine ⟨token', ?_⟩
    rw [List.length_cons, ← Nat.add_assoc, converse_succ hserve,
      onResponse_empty run.context ⟨⟨runId, token⟩, closeEventContext⟩ page hcontext]
    rw [proceed_goOn, hrest, hdrain]
    simp [requestsFor, hpages, run']

/-- The requests for all runs of a chain, the first of which is asked for as `runId`. -/
def requestsAlong : Option String → List (ServedRun P F) → List GetWorkflowExecutionHistoryRequest
  | _, [] => []
  | runId, run :: runs =>
    requestsFor runId none run ++ runs.flatMap fun run => requestsFor (some run.id) none run

/-- The runs of a chain: each close event names the next run, and the last one names none. -/
structure RunChain (P F : Type) where
  runs : List (ServedRun P F)
  ne_nil : runs ≠ []
  linked : runs.IsChain fun run next => run.close.successor = some next.id
  last_closes : (runs.getLast ne_nil).close.successor = none
  nodup : (runs.map ServedRun.id).Nodup

namespace RunChain

def last (chain : RunChain P F) : ServedRun P F := chain.runs.getLast chain.ne_nil

def first (chain : RunChain P F) : ServedRun P F := chain.runs.head chain.ne_nil

end RunChain

def Service.Serves (service : Service P F) (runs : List (ServedRun P F)) : Prop :=
  ∀ run ∈ runs, service.runs run.id = some run

theorem Service.Serves.drain {service : Service P F} {run : ServedRun P F} {runs : List (ServedRun P F)}
    (h : service.Serves runs) (hfresh : run.id ∉ runs.map ServedRun.id) :
    (service.drain run.id run).Serves runs := by
  intro other hother
  have hne : other.id ≠ run.id := by
    intro hid
    apply hfresh
    rw [← hid]
    exact List.mem_map_of_mem hother
  show Function.update service.runs run.id _ other.id = some other
  rw [Function.update_of_ne hne]
  exact h other hother

theorem converse_chain :
    ∀ (runs : List (ServedRun P F)) (run : ServedRun P F) (service : Service P F) (runId : Option String)
      (closeEventContext : SerializationContext) (n : Nat) (hne : run :: runs ≠ []),
      (run :: runs).IsChain (fun run next => run.close.successor = some next.id) →
      ((run :: runs).getLast hne).close.successor = none →
      ((run :: runs).map ServedRun.id).Nodup →
      service.Serves (run :: runs) → service.resolve runId = run.id →
      (requestsAlong runId (run :: runs)).length ≤ n →
      converse converter context true n service ⟨⟨runId, none⟩, closeEventContext⟩ =
        (requestsAlong runId (run :: runs),
          some (settle converter (contextOfRun context ((run :: runs).getLast hne).context)
            ((run :: runs).getLast hne).close)) := by
  intro runs
  induction runs with
  | nil =>
    intro run service runId closeEventContext n hne _ hlast _ hserves hresolve hn
    obtain ⟨m, rfl⟩ : ∃ m, n = m + run.emptyPages.length + 1 := by
      simp only [requestsAlong, requestsFor, List.flatMap_nil, List.append_nil, List.length_cons,
        List.length_map] at hn
      exact ⟨n - (run.emptyPages.length + 1), by omega⟩
    have hrun : service.runs (service.resolve runId) = some run := by
      rw [hresolve]
      exact hserves run (by simp)
    rcases converse_run converter context true runId m run.emptyPages service run none closeEventContext
      rfl hrun (Or.inl rfl) with ⟨token, hconverse⟩
    have hclose : run.close.successor = none := hlast
    rw [hconverse, onCloseEvent_of_last hclose]
    simp [requestsAlong]
  | cons next runs ih =>
    intro run service runId closeEventContext n hne hlinked hlast hnodup hserves hresolve hn
    have hlink : run.close.successor = some next.id := by
      rw [List.isChain_cons_cons] at hlinked
      exact hlinked.1
    have hrest : (next :: runs).IsChain fun run next => run.close.successor = some next.id := by
      rw [List.isChain_cons_cons] at hlinked
      exact hlinked.2
    have hfresh : run.id ∉ (next :: runs).map ServedRun.id := (List.nodup_cons.mp hnodup).1
    have hrun : service.runs (service.resolve runId) = some run := by
      rw [hresolve]
      exact hserves run (by simp)
    obtain ⟨m, rfl⟩ : ∃ m, n = m + run.emptyPages.length + 1 := by
      simp only [requestsAlong, requestsFor, List.length_append, List.length_cons, List.length_map] at hn
      exact ⟨n - (run.emptyPages.length + 1), by omega⟩
    rcases converse_run converter context true runId m run.emptyPages service run none closeEventContext
      rfl hrun (Or.inl rfl) with ⟨token, hconverse⟩
    have hdrained : (service.drain run.id run).Serves (next :: runs) := by
      apply Service.Serves.drain _ hfresh
      intro other hother
      exact hserves other (List.mem_cons_of_mem _ hother)
    have hnext : (service.drain run.id run).resolve (some next.id) = next.id := by
      simp [Service.resolve, successor_ne_empty hlink]
    have hm : (requestsAlong (some next.id) (next :: runs)).length ≤ m := by
      simp only [requestsAlong, requestsFor, List.flatMap_cons, List.length_append, List.length_cons,
        List.length_map] at hn ⊢
      omega
    have htail := ih next (service.drain run.id run) (some next.id) (contextOfRun context run.context) m
      (by simp) hrest hlast (List.nodup_cons.mp hnodup).2 hdrained hnext hm
    rw [hconverse, onCloseEvent_of_successor hlink, hresolve]
    rw [proceed_goOn, Loop.follow, htail]
    simp [requestsAlong]

/-- With `followRuns`, `result` asks for the pages of each run of the chain in order and ends as the close
event of the last run says, decoded with the context of that run. -/
theorem result_follows_chain (service : Service P F) (runId : Option String) (chain : RunChain P F)
    (hserves : service.Serves chain.runs) (hfirst : service.resolve runId = chain.first.id) (n : Nat)
    (hn : (requestsAlong runId chain.runs).length ≤ n) :
    result converter context true n service runId =
      (requestsAlong runId chain.runs,
        some (settle converter (contextOfRun context chain.last.context) chain.last.close)) := by
  rcases chain with ⟨runs, hne, hlinked, hlast, hnodup⟩
  cases runs with
  | nil => exact absurd rfl hne
  | cons run runs =>
    exact converse_chain converter context runs run service runId context n hne hlinked hlast hnodup hserves
      hfirst hn

end Conversation

/-- A converter whose values tell the context that they were decoded with. -/
def tellingConverter : DataConverter String String (String × SerializationContext) String where
  decode payloads _ := .ok payloads
  fromPayload payload context := .ok (payload, context)
  decodeFailure failure _ := .ok failure
  failureToError failure context := .ok (failure, context)

/-- A run that a Nexus operation handler started continues as new, fails and is retried, and completes. -/
def retriedChain : RunChain String String where
  runs :=
    [⟨"r1", some ⟨some "e", some "s", none⟩, [⟨[1], false⟩, ⟨[], false⟩, ⟨[2], true⟩], ⟨[], false⟩,
        .continuedAsNew "r2"⟩,
      ⟨"r2", none, [⟨[7], true⟩], ⟨[3], false⟩, .failed "r3" (some "boom") 1⟩,
      ⟨"r3", some ⟨some "e", some "s", some "o"⟩, [⟨[5], false⟩, ⟨[6], false⟩], ⟨[], false⟩,
        .completed "" (some ["done", "ignored"])⟩]
  ne_nil := by decide
  linked := by decide
  last_closes := by decide
  nodup := by decide

def retriedService : Service String String where
  current := "r1"
  runs id := retriedChain.runs.find? fun run => run.id = id

theorem result_follows_retriedChain :
    result tellingConverter (.workflow "default" "wf") true 20 retriedService none =
      (requestsAlong none retriedChain.runs, some (.returned (some ("done", .nexus "e" "s" "o")))) :=
  result_follows_chain tellingConverter (.workflow "default" "wf") retriedService none retriedChain
    (by unfold Service.Serves; decide) (by decide) 20 (by decide)

end TemporalSdk.Client
