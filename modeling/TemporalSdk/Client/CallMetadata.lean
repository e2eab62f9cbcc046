import TemporalSdk.Machine.JsObject
import TemporalSdk.Machine.Run

/-!
# The metadata of service calls

`withMetadata`, `withApiKey`, `withDeadline` and `withAbortSignal` of `packages/client/src/connection.ts`, the
namespace header injector, and what `generateRPCImplementation` sends.  A program is made of service calls and
of functions that run in such scopes; its tasks take turns in any order, and each of them keeps the store of
the `AsyncLocalStorage` that it was started with.
-/

namespace TemporalSdk.Client
namespace CallMetadata

open Machine

/-! ## Scopes -/

inductive MetadataValue where
  | text (value : String)
  | buffer (bytes : List Nat)
  deriving DecidableEq

structure CallContext where
  deadline : Option Nat
  metadata : Option (JsObject MetadataValue)
  /-- which signal it is -/
  abortSignal : Option Nat
  deriving DecidableEq

inductive Scope where
  | withMetadata (metadata : JsObject MetadataValue)
  | withApiKey (apiKey : String)
  | withDeadline (deadline : Nat)
  | withAbortSignal (abortSignal : Nat)
  deriving DecidableEq

def bearer (apiKey : String) : MetadataValue := .text ("Bearer " ++ apiKey)

/-- `{ ...cc }` -/
def spread (cc : Option CallContext) : CallContext := cc.getD ⟨none, none, none⟩

/-- `{ ...cc?.metadata, ...entries }` -/
def mergeMetadata (cc : Option CallContext) (entries : List (String × MetadataValue)) : JsObject MetadataValue :=
  (((spread cc).metadata.getD JsObject.empty)).putAll entries

/-- The store that `fn` runs with. -/
def enter (cc : Option CallContext) : Scope → Option CallContext
  | .withMetadata metadata => some { spread cc with metadata := some (mergeMetadata cc metadata.entries) }
  | .withApiKey apiKey => some { spread cc with metadata := some (mergeMetadata cc [("Authorization", bearer apiKey)]) }
  | .withDeadline deadline => some { spread cc with deadline := some deadline }
  | .withAbortSignal abortSignal => some { spread cc with abortSignal := some abortSignal }

/-! ## Requests -/

/-- What grpc-js does with the key and the value that `Metadata.set` is called with. -/
structure GrpcMetadata where
  normalizeKey : String → String
  isLegal : String → MetadataValue → Bool

/-- The metadata of a call: the value for each normalized key. -/
abbrev Metadata := String → Option MetadataValue

/-- `metadataContainer.set(k, v)`; it throws if the key or the value is not legal. -/
def GrpcMetadata.set (grpc : GrpcMetadata) (container : Metadata) (e : String × MetadataValue) : Option Metadata :=
  if grpc.isLegal e.1 e.2 then
    some fun name => if name = grpc.normalizeKey e.1 then some e.2 else container name
  else none

inductive Service where
  | workflowService
  | operatorService
  | testService
  | healthService
  deriving DecidableEq

structure Request where
  service : Service
  /-- where the call stands in the program -/
  line : Nat
  requestNamespace : Option String
  deriving DecidableEq

/-- The scope that `withNamespaceHeaderInjector` puts around a call. -/
def Request.namespaceScope (request : Request) : Option Scope :=
  match request.service, request.requestNamespace with
  | .workflowService, some ns =>
    if ns = "" then none
    else some (.withMetadata (JsObject.empty.put "temporal-namespace" (.text ns)))
  | _, _ => none

structure Connection where
  grpc : GrpcMetadata
  staticMetadata : JsObject MetadataValue

/-- A call that was made on the gRPC client. -/
structure Call where
  request : Request
  /-- what `apiKeyFnRef.fn` gave, if there is one -/
  apiKey : Option String
  metadata : Metadata
  deadline : Option Nat
  abortSignal : Option Nat

def apiKeyEntries : Option String → List (String × MetadataValue)
  | some apiKey => if apiKey = "" then [] else [("Authorization", bearer apiKey)]
  | none => []

/-- `none` where the metadata container throws, so that nothing is sent. -/
def generateRPCImplementation (conn : Connection) (request : Request) (apiKey : Option String)
    (store : Option CallContext) : Option Call := do
  let container ← (apiKeyEntries apiKey).foldlM conn.grpc.set fun _ => none
  let container ← conn.staticMetadata.entries.foldlM conn.grpc.set container
  let container ← ((spread store).metadata.getD JsObject.empty).entries.foldlM conn.grpc.set container
  return ⟨request, apiKey, container, (spread store).deadline, (spread store).abortSignal⟩

/-- A method of one of the services. -/
def callService (conn : Connection) (request : Request) (apiKey : Option String) (store : Option CallContext) :
    Option Call :=
  match request.namespaceScope with
  | some scope => generateRPCImplementation conn request apiKey (enter store scope)
  | none => generateRPCImplementation conn request apiKey store

/-! ## Programs -/

inductive Program where
  | done
  | request (request : Request) (rest : Program)
  /-- `await conn.withX(…, fn)` -/
  | within (scope : Scope) (fn rest : Program)
  /-- a function that is not waited for -/
  | start (fn rest : Program)

/-- The calls that stand in a program, with the scopes around them, the outermost one first. -/
def Program.sites (scopes : List Scope) : Program → List (List Scope × Request)
  | .done => []
  | .request req rest => (scopes, req) :: rest.sites scopes
  | .within scope fn rest => fn.sites (scopes ++ [scope]) ++ rest.sites scopes
  | .start fn rest => fn.sites scopes ++ rest.sites scopes

/-- A function that is running or waits for the one above it. -/
structure Frame where
  store : Option CallContext
  rest : Program

structure State where
  /-- the functions of a task, the running one first -/
  tasks : List (List Frame)
  calls : List Call

inductive Move where
  /-- the next statement of a task, with what `apiKeyFnRef.fn` gives at this time -/
  | step (task : Nat) (apiKey : Option String)
  /-- the running function of a task is left by an error -/
  | throws (task : Nat)
  deriving DecidableEq

def step (conn : Connection) (s : State) : Move → State
  | .step task apiKey =>
    match s.tasks[task]? with
    | some (frame :: waiting) =>
      match frame.rest with
      | .done => { s with tasks := s.tasks.set task waiting }
      | .request req rest =>
        { tasks := s.tasks.set task ({ frame with rest := rest } :: waiting)
          calls := s.calls ++ (callService conn req apiKey frame.store).toList }
      | .within scope fn rest =>
        { s with tasks :=
            s.tasks.set task (⟨enter frame.store scope, fn⟩ :: { frame with rest := rest } :: waiting) }
      | .start fn rest =>
        { s with tasks :=
            s.tasks.set task ({ frame with rest := rest } :: waiting) ++ [[⟨frame.store, fn⟩]] }
    | _ => s
  | .throws task =>
    match s.tasks[task]? with
    | some (_ :: waiting) => { s with tasks := s.tasks.set task waiting }
    | _ => s

def initial (program : Program) : State := ⟨[[⟨none, program⟩]], []⟩

/-! ## What the scopes around a call say -/

/-- The entries of the metadata that a scope sets. -/
def Scope.entries : Scope → List (String × MetadataValue)
  | withMetadata metadata => metadata.entries
  | withApiKey apiKey => [("Authorization", bearer apiKey)]
  | withDeadline _ => []
  | withAbortSignal _ => []

def Scope.deadline? : Scope → Option Nat
  | withDeadline deadline => some deadline
  | _ => none

def Scope.abortSignal? : Scope → Option Nat
  | withAbortSignal abortSignal => some abortSignal
  | _ => none

/-- The value of the last entry with the name of a header. -/
def GrpcMetadata.lastSet (grpc : GrpcMetadata) (name : String) (entries : List (String × MetadataValue)) :
    Option MetadataValue :=
  (entries.filter fun e => grpc.normalizeKey e.1 = name).getLast?.map Prod.snd

/-- The scopes around a call, that of the namespace header being the innermost one. -/
def callScopes (scopes : List Scope) (request : Request) : List Scope := scopes ++ request.namespaceScope.toList

/-- What the innermost scope that sets a header sets it to. -/
def innermost (grpc : GrpcMetadata) (name : String) (scopes : List Scope) : Option MetadataValue :=
  scopes.reverse.findSome? fun scope => grpc.lastSet name scope.entries

/-- The value that the header `name` of a call is to have. -/
def headerValue (conn : Connection) (scopes : List Scope) (apiKey : Option String) (name : String) :
    Option MetadataValue :=
  (innermost conn.grpc name scopes).or
    ((conn.grpc.lastSet name conn.staticMetadata.entries).or (conn.grpc.lastSet name (apiKeyEntries apiKey)))

/-- What a key was set to last. -/
def lastValue (entries : List (String × MetadataValue)) (key : String) : Option MetadataValue :=
  (entries.reverse.find? fun e => e.1 = key).map Prod.snd

/-- For every header, the spelling that an object lists last among those in use was last set to what the
header was last set to. -/
def LatestSpellingWins (grpc : GrpcMetadata) (scopes : List Scope) : Prop :=
  ∀ name key, JsObject.lastListed (grpc.normalizeKey · = name) ((scopes.flatMap Scope.entries).map Prod.fst) = some key →
    lastValue (scopes.flatMap Scope.entries) key = innermost grpc name scopes

/-! ## Contexts -/

/-- The store in nested scopes, the outermost one first. -/
def context (scopes : List Scope) : Option CallContext := scopes.foldl enter none

theorem context_concat (scopes : List Scope) (scope : Scope) :
    context (scopes ++ [scope]) = enter (context scopes) scope := by
  simp [context, List.foldl_append]

theorem metadata_context (scopes : List Scope) :
    (spread (context scopes)).metadata.getD JsObject.empty =
      JsObject.empty.putAll (scopes.flatMap Scope.entries) := by
  induction scopes using List.reverseRecOn with
  | nil => rfl
  | append_singleton scopes scope ih =>
    rw [context_concat, List.flatMap_append, JsObject.putAll_append, ← ih]
    cases scope with
    | withMetadata | withApiKey => simp [enter, spread, mergeMetadata, Scope.entries]
    | withDeadline deadline => rfl
    | withAbortSignal abortSignal => rfl

theorem deadline_context (scopes : List Scope) :
    (spread (context scopes)).deadline = (scopes.filterMap Scope.deadline?).getLast? := by
  induction scopes using List.reverseRecOn with
  | nil => rfl
  | append_singleton scopes scope ih =>
    rw [context_concat, List.filterMap_append, List.getLast?_append, ← ih]
    cases scope <;> rfl

theorem abortSignal_context (scopes : List Scope) :
    (spread (context scopes)).abortSignal = (scopes.filterMap Scope.abortSignal?).getLast? := by
  induction scopes using List.reverseRecOn with
  | nil => rfl
  | append_singleton scopes scope ih =>
    rw [context_concat, List.filterMap_append, List.getLast?_append, ← ih]
    cases scope <;> rfl

theorem callService_context (conn : Connection) (request : Request) (apiKey : Option String) (scopes : List Scope) :
    callService conn request apiKey (context scopes) =
      generateRPCImplementation conn request apiKey (context (callScopes scopes request)) := by
  unfold callService callScopes
  cases hscope : request.namespaceScope with
  | none => simp
  | some scope => simp [context_concat]

/-! ## Headers -/

section Headers

variable {grpc : GrpcMetadata} {name : String}

theorem lastSet_append (entries more : List (String × MetadataValue)) :
    grpc.lastSet name (entries ++ more) = (grpc.lastSet name more).or (grpc.lastSet name entries) := by
  rw [GrpcMetadata.lastSet, List.filter_append, List.getLast?_append, GrpcMetadata.lastSet, GrpcMetadata.lastSet]
  cases (more.filter fun e => grpc.normalizeKey e.1 = name).getLast? <;> rfl

theorem foldlM_set : ∀ {entries : List (String × MetadataValue)} {container container' : Metadata},
    entries.foldlM grpc.set container = some container' →
    container' name = (grpc.lastSet name entries).or (container name) := by
  intro entries
  induction entries with
  | nil =>
    intro container container' h
    cases h
    rfl
  | cons e entries ih =>
    intro container container' h
    rw [List.foldlM_cons, Option.bind_eq_bind, Option.bind_eq_some_iff] at h
    rcases h with ⟨next, hset, hrest⟩
    have hnext : next = fun name => if name = grpc.normalizeKey e.1 then some e.2 else container name := by
      unfold GrpcMetadata.set at hset
      split at hset
      · exact (Option.some.inj hset).symm
      · exact nomatch hset
    have hcons : grpc.lastSet name (e :: entries) =
        (grpc.lastSet name entries).or (if grpc.normalizeKey e.1 = name then some e.2 else none) := by
      rw [← List.singleton_append, lastSet_append]
      by_cases hname : grpc.normalizeKey e.1 = name <;> simp [GrpcMetadata.lastSet, hname]
    rw [ih hrest, hcons, hnext, Option.or_assoc]
    by_cases hname : grpc.normalizeKey e.1 = name
    · simp [hname]
    · have hne : ¬ name = grpc.normalizeKey e.1 := fun h => hname h.symm
      simp [hname, hne]

theorem innermost_eq_lastSet (scopes : List Scope) :
    innermost grpc name scopes = grpc.lastSet name (scopes.flatMap Scope.entries) := by
  induction scopes using List.reverseRecOn with
  | nil => rfl
  | append_singleton scopes scope ih =>
    rw [List.flatMap_append, lastSet_append, ← ih, innermost, List.reverse_append]
    simp only [List.reverse_singleton, List.singleton_append, List.findSome?_cons, List.flatMap_cons,
      List.flatMap_nil, List.append_nil]
    cases grpc.lastSet name scope.entries <;> rfl

theorem lastSet_eq_none_of_lastListed {entries : List (String × MetadataValue)}
    (h : JsObject.lastListed (grpc.normalizeKey · = name) (entries.map Prod.fst) = none) :
    grpc.lastSet name entries = none := by
  have hfilter : entries.filter (fun e => grpc.normalizeKey e.1 = name) = [] := by
    rw [List.filter_eq_nil_iff]
    intro e he hname
    exact JsObject.not_of_lastListed_eq_none h (List.mem_map_of_mem he) hname
  rw [GrpcMetadata.lastSet, hfilter]
  rfl

theorem lastSet_putAll (entries : List (String × MetadataValue)) :
    grpc.lastSet name (JsObject.empty.putAll entries).entries =
      (JsObject.lastListed (grpc.normalizeKey · = name) (entries.map Prod.fst)).bind (lastValue entries) := by
  rw [GrpcMetadata.lastSet, JsObject.getLast?_entries_filter (grpc.normalizeKey · = name), JsObject.lastKey_putAll]
  congr
  funext key
  rw [JsObject.get?_putAll]
  simp [lastValue, JsObject.empty, JsObject.get?]

end Headers

/-! ## Calls -/

section Calls

variable {conn : Connection}

variable {apiKey : Option String} {scopes : List Scope} {request : Request}

theorem metadata_of_callService {call : Call}
    (h : callService conn request apiKey (context scopes) = some call) (name : String) :
    call.metadata name =
      ((JsObject.lastListed (conn.grpc.normalizeKey · = name)
          (((callScopes scopes request).flatMap Scope.entries).map Prod.fst)).bind
        (lastValue ((callScopes scopes request).flatMap Scope.entries))).or
      ((conn.grpc.lastSet name conn.staticMetadata.entries).or (conn.grpc.lastSet name (apiKeyEntries call.apiKey))) := by
  rw [callService_context, generateRPCImplementation, metadata_context] at h
  simp only [Option.bind_eq_bind, Option.bind_eq_some_iff] at h
  rcases h with ⟨first, hfirst, second, hsecond, third, hthird, hcall⟩
  cases hcall
  change third name = _
  rw [foldlM_set hthird, foldlM_set hsecond, foldlM_set hfirst, lastSet_putAll, Option.or_none]

theorem frame_of_callService {call : Call}
    (h : callService conn request apiKey (context scopes) = some call) :
    call.request = request ∧ call.apiKey = apiKey ∧
      call.deadline = ((callScopes scopes request).filterMap Scope.deadline?).getLast? ∧
      call.abortSignal = ((callScopes scopes request).filterMap Scope.abortSignal?).getLast? := by
  rw [callService_context, generateRPCImplementation] at h
  simp only [Option.bind_eq_bind, Option.bind_eq_some_iff] at h
  rcases h with ⟨first, hfirst, second, hsecond, third, hthird, hcall⟩
  cases hcall
  exact ⟨rfl, rfl, deadline_context _, abortSignal_context _⟩

theorem header_eq_iff {call : Call}
    (h : callService conn request apiKey (context scopes) = some call) :
    (∀ name, call.metadata name = headerValue conn (callScopes scopes request) call.apiKey name) ↔
      LatestSpellingWins conn.grpc (callScopes scopes request) := by
  constructor
  · intro hheaders name key hkey
    have hheader := hheaders name
    rw [metadata_of_callService h, hkey, headerValue] at hheader
    have hmem := JsObject.mem_of_lastListed hkey
    -- both sides have a value, so that neither of them falls back on the static metadata
    rcases List.mem_map.mp hmem.1 with ⟨e, he, hspelled⟩
    have hvalue : (lastValue ((callScopes scopes request).flatMap Scope.entries) key).isSome = true := by
      rw [lastValue, Option.isSome_map, List.find?_isSome]
      exact ⟨e, List.mem_reverse.mpr he, by simpa using hspelled⟩
    have hset : (innermost conn.grpc name (callScopes scopes request)).isSome = true := by
      have hfilter : e ∈ ((callScopes scopes request).flatMap Scope.entries).filter
          fun e => conn.grpc.normalizeKey e.1 = name :=
        List.mem_filter.mpr ⟨he, by simpa [hspelled] using hmem.2⟩
      rw [innermost_eq_lastSet, GrpcMetadata.lastSet, Option.isSome_map, List.getLast?_isSome]
      exact List.ne_nil_of_mem hfilter
    rcases Option.isSome_iff_exists.mp hvalue with ⟨value, hv⟩
    rcases Option.isSome_iff_exists.mp hset with ⟨value', hv'⟩
    rw [hv']
    simpa [hv, hv'] using hheader
  · intro hwins name
    rw [metadata_of_callService h, headerValue]
    cases hkey : JsObject.lastListed (conn.grpc.normalizeKey · = name)
        (((callScopes scopes request).flatMap Scope.entries).map Prod.fst) with
    | none => rw [innermost_eq_lastSet, lastSet_eq_none_of_lastListed hkey, Option.bind_none]
    | some key => rw [Option.bind_some, hwins name key hkey]

end Calls

/-! ## Runs -/

/-- The calls that a frame has still to make stand in the program, in the scopes of its store. -/
def Frame.StandsIn (program : Program) (frame : Frame) : Prop :=
  ∃ scopes, frame.store = context scopes ∧ ∀ site ∈ frame.rest.sites scopes, site ∈ program.sites []

/-- A call was made where it stands in the program. -/
def Call.StandsIn (conn : Connection) (program : Program) (call : Call) : Prop :=
  ∃ scopes, (scopes, call.request) ∈ program.sites [] ∧
    callService conn call.request call.apiKey (context scopes) = some call

structure Scoped (conn : Connection) (program : Program) (s : State) : Prop where
  frames : ∀ task ∈ s.tasks, ∀ frame ∈ task, frame.StandsIn program
  calls : ∀ call ∈ s.calls, call.StandsIn conn program

section Runs

variable {conn : Connection} {program : Program} {s : State}

theorem Scoped.initial : Scoped conn program (initial program) where
  frames := by
    intro task htask frame hframe
    rw [List.mem_singleton.mp htask] at hframe
    rw [List.mem_singleton.mp hframe]
    exact ⟨[], rfl, fun site hsite => hsite⟩
  calls := by
    intro call hcall
    exact nomatch hcall

theorem frames_set {frames : List Frame} {i : Nat} (h : ∀ task ∈ s.tasks, ∀ frame ∈ task, frame.StandsIn program)
    (hframes : ∀ frame ∈ frames, frame.StandsIn program) :
    ∀ task ∈ s.tasks.set i frames, ∀ frame ∈ task, frame.StandsIn program := by
  intro task hmem
  rcases List.mem_or_eq_of_mem_set hmem with hold | rfl
  · exact h task hold
  · exact hframes

theorem Scoped.step (h : Scoped conn program s) (move : Move) : Scoped conn program (step conn s move) := by
  cases move with
  | throws i =>
    simp only [CallMetadata.step]
    split
    · rename_i frame waiting htask
      have hall := h.frames _ (List.mem_of_getElem? htask)
      exact ⟨frames_set h.frames fun f hf => hall f (List.mem_cons_of_mem frame hf), h.calls⟩
    · exact h
  | step i apiKey =>
    simp only [CallMetadata.step]
    split
    · rename_i frame waiting htask
      have hall := h.frames _ (List.mem_of_getElem? htask)
      have hwaiting : ∀ f ∈ waiting, f.StandsIn program := fun f hf => hall f (List.mem_cons_of_mem frame hf)
      rcases hall frame List.mem_cons_self with ⟨scopes, hstore, hsites⟩
      cases hrest : frame.rest with
      | done => exact ⟨frames_set h.frames hwaiting, h.calls⟩
      | request req rest =>
        rw [hrest] at hsites
        have hframe : Frame.StandsIn program { frame with rest := rest } :=
          ⟨scopes, hstore, fun site hsite => hsites site (List.mem_cons_of_mem _ hsite)⟩
        refine ⟨frames_set h.frames (List.forall_mem_cons.mpr ⟨hframe, hwaiting⟩), ?_⟩
        intro call hcall
        rcases List.mem_append.mp hcall with hold | hnew
        · exact h.calls call hold
        · rw [Option.mem_toList, hstore] at hnew
          rcases frame_of_callService hnew with ⟨hreq, hkey, -, -⟩
          refine ⟨scopes, ?_, ?_⟩
          · rw [hreq]
            exact hsites _ List.mem_cons_self
          · rw [hreq, hkey]
            exact hnew
      | within scope fn rest =>
        rw [hrest] at hsites
        have hfn : Frame.StandsIn program ⟨enter frame.store scope, fn⟩ :=
          ⟨scopes ++ [scope], by rw [hstore, context_concat],
            fun site hsite => hsites site (List.mem_append_left _ hsite)⟩
        have hframe : Frame.StandsIn program { frame with rest := rest } :=
          ⟨scopes, hstore, fun site hsite => hsites site (List.mem_append_right _ hsite)⟩
        exact ⟨frames_set h.frames
          (List.forall_mem_cons.mpr ⟨hfn, List.forall_mem_cons.mpr ⟨hframe, hwaiting⟩⟩), h.calls⟩
      | start fn rest =>
        rw [hrest] at hsites
        have hfn : Frame.StandsIn program ⟨frame.store, fn⟩ :=
          ⟨scopes, hstore, fun site hsite => hsites site (List.mem_append_left _ hsite)⟩
        have hframe : Frame.StandsIn program { frame with rest := rest } :=
          ⟨scopes, hstore, fun site hsite => hsites site (List.mem_append_right _ hsite)⟩
        refine ⟨?_, h.calls⟩
        intro task hmem
        rcases List.mem_append.mp hmem with hset | hstarted
        · exact frames_set h.frames (List.forall_mem_cons.mpr ⟨hframe, hwaiting⟩) task hset
        · rw [List.mem_singleton.mp hstarted]
          exact List.forall_mem_singleton.mpr hfn
    · exact h

theorem Scoped.run (moves : List Move) : Scoped conn program (run (CallMetadata.step conn) (CallMetadata.initial program) moves) := by
  induction moves using List.reverseRecOn with
  | nil => exact Scoped.initial
  | append_singleton moves move ih =>
    rw [run_append]
    exact ih.step move

end Runs

/-! ## The innermost scope -/

/-- In every run, a call is sent with the deadline, the signal and the headers that the scopes around it set and no
other ones.  Each header has the innermost one of its values if, and only if, the spelling of its name that was
introduced last was also set last, or to the same value. -/
theorem innermost_header_iff (conn : Connection) (program : Program) (moves : List Move) :
    ∀ call ∈ (run (step conn) (initial program) moves).calls,
      ∃ scopes, (scopes, call.request) ∈ program.sites [] ∧
        call.deadline = ((callScopes scopes call.request).filterMap Scope.deadline?).getLast? ∧
        call.abortSignal = ((callScopes scopes call.request).filterMap Scope.abortSignal?).getLast? ∧
        ((∀ name, call.metadata name = headerValue conn (callScopes scopes call.request) call.apiKey name) ↔
          LatestSpellingWins conn.grpc (callScopes scopes call.request)) := by
  intro call hcall
  rcases (Scoped.run moves).calls call hcall with ⟨scopes, hsite, hservice⟩
  rcases frame_of_callService hservice with ⟨-, -, hdeadline, habortSignal⟩
  exact ⟨scopes, hsite, hdeadline, habortSignal, header_eq_iff hservice⟩

/-! ## A header in two spellings -/

/-- `Metadata.set` of grpc-js on ASCII keys. -/
def asciiMetadata : GrpcMetadata where
  normalizeKey key := String.ofList (key.toList.map Char.toLower)
  isLegal key value :=
    !key.toList.isEmpty &&
      key.toList.all (fun c => c.isAlphanum || c = '_' || c = '.' || c = '-' || c = ':') &&
      match value with
      | .text text => !"nib-".toList.isPrefixOf (key.toList.map Char.toLower).reverse &&
          text.toList.all fun c => ' ' ≤ c && c ≤ '~'
      | .buffer _ => "nib-".toList.isPrefixOf (key.toList.map Char.toLower).reverse

def asciiConnection : Connection where
  grpc := asciiMetadata
  staticMetadata := JsObject.empty.put "client-name" (.text "temporal-typescript")

def fooScope (key value : String) : Scope := .withMetadata (JsObject.empty.put key (.text value))

def listNamespaces : Request := ⟨.operatorService, 1, none⟩

/-- The scopes `{ Foo: '1' }`, `{ foo: '2' }` and `{ Foo: '3' }` around a call. -/
def threeFoos : Program :=
  .within (fooScope "Foo" "1")
    (.within (fooScope "foo" "2") (.within (fooScope "Foo" "3") (.request listNamespaces .done) .done) .done) .done

def fourSteps : List Move := List.replicate 4 (.step 0 none)

/-- The call is sent with the value of the scope in the middle. -/
theorem middle_scope_wins :
    threeFoos.sites [] = [([fooScope "Foo" "1", fooScope "foo" "2", fooScope "Foo" "3"], listNamespaces)] ∧
      (run (step asciiConnection) (initial threeFoos) fourSteps).calls.map (fun call => call.metadata "foo") =
        [some (.text "2")] ∧
      headerValue asciiConnection
        (callScopes [fooScope "Foo" "1", fooScope "foo" "2", fooScope "Foo" "3"] listNamespaces) none "foo" =
        some (.text "3") := by
  decide +kernel

theorem innermost_header_iff_threeFoos :
    ∃ call ∈ (run (step asciiConnection) (initial threeFoos) fourSteps).calls,
      ∃ scopes, (scopes, call.request) ∈ threeFoos.sites [] ∧
        call.deadline = ((callScopes scopes call.request).filterMap Scope.deadline?).getLast? ∧
        call.abortSignal = ((callScopes scopes call.request).filterMap Scope.abortSignal?).getLast? ∧
        ((∀ name, call.metadata name =
            headerValue asciiConnection (callScopes scopes call.request) call.apiKey name) ↔
          LatestSpellingWins asciiConnection.grpc (callScopes scopes call.request)) := by
  have hcall : (run (step asciiConnection) (initial threeFoos) fourSteps).calls ≠ [] := by
    intro hnil
    have hmap : (run (step asciiConnection) (initial threeFoos) fourSteps).calls.map
        (fun call => call.metadata "foo") = [] := by
      rw [hnil]
      rfl
    exact absurd hmap (by decide +kernel)
  rcases List.exists_mem_of_ne_nil _ hcall with ⟨call, hmem⟩
  exact ⟨call, hmem, innermost_header_iff asciiConnection threeFoos fourSteps call hmem⟩

end CallMetadata
end TemporalSdk.Client
