import TemporalSdk.Machine.Record
import Mathlib.Data.List.Induction

/-!
# LogMetadata — from a workflow's log call to the log collector

A workflow's log call puts its time under a symbol among the attributes of the entry.  The entry goes through a
sink to the worker's logger, which adds the metadata it was composed with, and to the collector's logger, which
takes the time from under the symbol, or the current time if there is none.

Objects have own properties under strings and symbols.  `V` is the type of values that the code does not look
into.
-/

namespace TemporalSdk.Worker
namespace LogMetadata

open Machine

inductive Key
  | string (name : String)
  -- `Symbol.for`.
  | symbol (name : String)
  deriving DecidableEq

inductive Value (V : Type)
  | undefined
  | null
  | bigint (n : Int)
  | other (v : V)
  deriving DecidableEq

abbrev Metadata (V : Type) : Type := Record Key (Value V)

def LogTimestamp : Key := .symbol "log_timestamp"

def Key.isString : Key → Bool
  | .string _ => true
  | .symbol _ => false

/-- Setting this property sets the prototype instead, unless the object has it as its own. -/
def protoKey : Key := .string "__proto__"

def Value.isNullish {V : Type} : Value V → Bool
  | .undefined => true
  | .null => true
  | _ => false

section Objects

variable {V : Type}

/-- `Object.assign(target, source)`. -/
def assign (target source : Metadata V) : Metadata V :=
  target.override (source.restrict fun k _ => k ≠ protoKey ∨ (target.lookup k).isSome)

/-- `Object.keys`. -/
def objectKeys (m : Metadata V) : List Key := m.keys.filter Key.isString

def filterNullAndUndefined (m : Metadata V) : Metadata V :=
  m.restrict fun k v => k.isString && !v.isNullish

variable [DecidableEq V]

/-- The loop of `mergeObjects`. -/
def mergeEntry (delta merged : Metadata V) (k : Key) : Metadata V :=
  let v := (delta.lookup k).getD .undefined
  if v = (merged.lookup k).getD .undefined then merged
  else if v.isNullish then merged.remove k
  else if k = protoKey ∧ (merged.lookup k).isNone then merged
  else merged.set k v

/-- Where nothing changes, the source returns `original` itself. -/
def mergeObjects (original delta : Metadata V) : Metadata V :=
  (objectKeys delta).foldl (mergeEntry delta) original

end Objects

/-! ## Composed loggers -/

/-- A metadata object, or what a function returns when the entry is logged. -/
inductive Contributor (V : Type)
  | static (m : Metadata V)
  | dynamic (m : Metadata V)

def Contributor.metadata {V : Type} : Contributor V → Metadata V
  | .static m => m
  | .dynamic m => m

/-- A logger that is not composed, or a `LoggerWithComposedMetadata` on top of it. -/
inductive Logger (V : Type)
  | plain
  | composed (contributors : List (Contributor V))

section Loggers

variable {V : Type} [DecidableEq V]

/-- The chain with the new contributor, or `none` where that changes nothing and there is no chain. -/
def appendToChain (existing : Option (List (Contributor V))) (new : Contributor V) :
    Option (List (Contributor V)) :=
  match new with
  | .dynamic _ => some (existing.getD [] ++ [new])
  | .static m =>
    if (objectKeys m).isEmpty then existing
    else
      match (existing.getD []).getLast? with
      | some (.static last) => some ((existing.getD []).dropLast ++ [.static (mergeObjects last m)])
      | _ => some (existing.getD [] ++ [new])

def compose (logger : Logger V) (new : Contributor V) : Logger V :=
  match logger with
  | .composed contributors =>
    match appendToChain (some contributors) new with
    | none => .composed contributors
    | some contributors => .composed contributors
  | .plain =>
    match appendToChain none new with
    | none => .plain
    | some contributors => .composed contributors

def resolveMetadata (contributors : List (Contributor V)) (extraMeta : Metadata V) : Metadata V :=
  filterNullAndUndefined
    (assign (contributors.foldl (fun m c => assign m c.metadata) Record.empty) extraMeta)

/-- What the plain logger is called with. -/
def Logger.passes (logger : Logger V) (extraMeta : Metadata V) : Metadata V :=
  match logger with
  | .plain => extraMeta
  | .composed contributors => resolveMetadata contributors extraMeta

/-- A plain logger that is composed with one contributor after the other. -/
def composeAll (layers : List (Contributor V)) : Logger V := layers.foldl compose .plain

end Loggers

/-! ## What is to be kept -/

section Purpose

variable {V : Type}

/-- What the contributors say about a key: the last of them that has it. -/
def said (contributors : List (Contributor V)) (k : Key) : Option (Value V) :=
  (contributors.foldl (fun (m : Metadata V) c => m.override c.metadata) Record.empty).lookup k

/-- What the contributors and the call say about a key. -/
def effective (contributors : List (Contributor V)) (extraMeta : Metadata V) (k : Key) :
    Option (Value V) :=
  (extraMeta.lookup k).or (said contributors k)

/-- The logger is called with every value that the layers and the call say. -/
def Keeps [DecidableEq V] (layers : List (Contributor V)) (extraMeta : Metadata V) : Prop :=
  ∀ k v, v.isNullish = false → effective layers extraMeta k = some v →
    ((composeAll layers).passes extraMeta).lookup k = some v

/-- No layer makes a composed logger. -/
def uncomposed (layers : List (Contributor V)) : Bool :=
  layers.all fun
    | .static m => (objectKeys m).isEmpty
    | .dynamic _ => false

end Purpose

/-! ## Objects -/

section Objects

variable {V : Type} {k : Key}

/-- A string that names an own property wherever it is set. -/
def Key.plain (k : Key) : Bool := k.isString && k ≠ protoKey

theorem lookup_assign_of_plain (target source : Metadata V) (hk : k.plain = true) :
    (assign target source).lookup k = (source.lookup k).or (target.lookup k) := by
  have hne : k ≠ protoKey := by simpa using (Bool.and_eq_true_iff.1 hk).2
  cases hs : source.lookup k <;> simp [assign, hs, hne, Option.filter]

theorem lookup_assign_proto (target source : Metadata V) (htarget : target.lookup protoKey = none) :
    (assign target source).lookup protoKey = none := by
  cases hs : source.lookup protoKey <;> simp [assign, hs, htarget, Option.filter]

variable {v : Value V}

theorem lookup_filter_of_string {m : Metadata V} (hk : k.isString = true)
    (hv : v.isNullish = false) (hm : m.lookup k = some v) :
    (filterNullAndUndefined m).lookup k = some v := by
  simp [filterNullAndUndefined, hm, Option.filter, hk, hv]

theorem lookup_filter_symbol {m : Metadata V} (hk : k.isString = false) :
    (filterNullAndUndefined m).lookup k = none := by
  cases hm : m.lookup k <;> simp [filterNullAndUndefined, hm, Option.filter, hk]

theorem mem_objectKeys {m : Metadata V} : k ∈ objectKeys m ↔ (m.lookup k).isSome = true ∧ k.isString = true := by
  rw [objectKeys, List.mem_filter, m.mem_keys]

variable [DecidableEq V]

theorem lookup_mergeEntry_of_ne {delta merged : Metadata V} {k' : Key} (hne : k ≠ k') :
    (mergeEntry delta merged k').lookup k = merged.lookup k := by
  simp only [mergeEntry]
  split
  · rfl
  · split
    · simp [hne]
    · split
      · rfl
      · simp [hne]

theorem lookup_mergeEntry_self {delta merged : Metadata V} (hk : k ≠ protoKey)
    (hv : v.isNullish = false) (hdelta : delta.lookup k = some v) :
    (mergeEntry delta merged k).lookup k = some v := by
  simp only [mergeEntry, hdelta, Option.getD_some]
  split
  · rename_i heq
    cases hm : merged.lookup k with
    | none =>
      rw [hm] at heq
      rw [heq] at hv
      cases hv
    | some w =>
      rw [hm] at heq
      rw [heq]
      rfl
  · simp [hv, hk]

theorem lookup_mergeLoop_of_not_mem {delta : Metadata V} {keys : List Key} (hk : k ∉ keys)
    (merged : Metadata V) : (keys.foldl (mergeEntry delta) merged).lookup k = merged.lookup k := by
  induction keys generalizing merged with
  | nil => rfl
  | cons k' keys ih =>
    rcases List.ne_and_not_mem_of_not_mem_cons hk with ⟨hne, hrest⟩
    rw [List.foldl_cons, ih hrest, lookup_mergeEntry_of_ne hne]

theorem lookup_mergeLoop_of_mem {delta : Metadata V} (hk : k ≠ protoKey)
    (hv : v.isNullish = false) (hdelta : delta.lookup k = some v) {keys : List Key} (hmem : k ∈ keys)
    (merged : Metadata V) : (keys.foldl (mergeEntry delta) merged).lookup k = some v := by
  induction keys generalizing merged with
  | nil => cases hmem
  | cons k' keys ih =>
    rw [List.foldl_cons]
    by_cases hrest : k ∈ keys
    · exact ih hrest _
    · have heq : k = k' := (List.mem_cons.1 hmem).resolve_right hrest
      rw [lookup_mergeLoop_of_not_mem hrest, ← heq]
      exact lookup_mergeEntry_self hk hv hdelta

theorem lookup_mergeObjects_of_some {original delta : Metadata V} (hk : k.plain = true)
    (hv : v.isNullish = false) (hdelta : delta.lookup k = some v) :
    (mergeObjects original delta).lookup k = some v := by
  rcases Bool.and_eq_true_iff.1 hk with ⟨hstring, hne⟩
  have hmem : k ∈ objectKeys delta := mem_objectKeys.2 ⟨by simp [hdelta], hstring⟩
  exact lookup_mergeLoop_of_mem (by simpa using hne) hv hdelta hmem original

theorem lookup_mergeObjects_of_none {original delta : Metadata V} (hdelta : delta.lookup k = none) :
    (mergeObjects original delta).lookup k = original.lookup k := by
  refine lookup_mergeLoop_of_not_mem (fun hmem => ?_) original
  have hsome := (mem_objectKeys.1 hmem).1
  rw [hdelta] at hsome
  cases hsome

end Objects

/-! ## Composition -/

section Composition

variable {V : Type} {k : Key}

theorem said_append (contributors : List (Contributor V)) (c : Contributor V) :
    said (contributors ++ [c]) k = (c.metadata.lookup k).or (said contributors k) := by
  simp [said, List.foldl_append]

theorem lookup_assignAll_of_plain (hk : k.plain = true) (contributors : List (Contributor V)) :
    (contributors.foldl (fun m c => assign m c.metadata) Record.empty).lookup k = said contributors k := by
  induction contributors using List.reverseRecOn with
  | nil => rfl
  | append_singleton contributors c ih =>
    rw [said_append, List.foldl_append, ← ih]
    exact lookup_assign_of_plain _ _ hk

theorem lookup_assignAll_proto (contributors : List (Contributor V)) :
    (contributors.foldl (fun m c => assign m c.metadata) Record.empty).lookup protoKey = none := by
  induction contributors using List.reverseRecOn with
  | nil => rfl
  | append_singleton contributors c ih =>
    rw [List.foldl_append]
    exact lookup_assign_proto _ _ ih

variable {v : Value V} {extraMeta : Metadata V}

theorem resolveMetadata_of_plain (hk : k.plain = true) (contributors : List (Contributor V))
    (hv : v.isNullish = false) (heffective : effective contributors extraMeta k = some v) :
    (resolveMetadata contributors extraMeta).lookup k = some v := by
  refine lookup_filter_of_string (Bool.and_eq_true_iff.1 hk).1 hv ?_
  rw [lookup_assign_of_plain _ _ hk, lookup_assignAll_of_plain hk]
  exact heffective

theorem resolveMetadata_of_not_plain (hk : k.plain = false) (contributors : List (Contributor V))
    (extraMeta : Metadata V) : (resolveMetadata contributors extraMeta).lookup k = none := by
  by_cases hstring : k.isString = true
  · have hproto : k = protoKey := by simpa [Key.plain, hstring] using hk
    have hassigned := lookup_assign_proto _ extraMeta (lookup_assignAll_proto contributors)
    rw [hproto, resolveMetadata, filterNullAndUndefined, Record.lookup_restrict, hassigned]
    rfl
  · exact lookup_filter_symbol (Bool.eq_false_iff.2 hstring)

variable [DecidableEq V]

/-- The contributors of a logger. -/
def Logger.contributors : Logger V → List (Contributor V)
  | .plain => []
  | .composed contributors => contributors

theorem said_merged {contributors : List (Contributor V)} {last m : Metadata V}
    (hk : k.plain = true) (hv : v.isNullish = false)
    (hlast : contributors.getLast? = some (.static last))
    (hsaid : (m.lookup k).or (said contributors k) = some v) :
    said (contributors.dropLast ++ [.static (mergeObjects last m)]) k = some v := by
  have hsplit : contributors = contributors.dropLast ++ [.static last] :=
    (List.dropLast_append_getLast? _ hlast).symm
  rw [said_append]
  cases hm : m.lookup k with
  | some w =>
    rw [hm, Option.some_or] at hsaid
    cases hsaid
    rw [Contributor.metadata, lookup_mergeObjects_of_some hk hv hm, Option.some_or]
  | none =>
    rw [hm, Option.none_or, hsplit, said_append] at hsaid
    rw [Contributor.metadata, lookup_mergeObjects_of_none hm]
    exact hsaid

omit [DecidableEq V] in
theorem lookup_eq_none {m : Metadata V} (hm : (objectKeys m).isEmpty = true) (hk : k.isString = true) :
    m.lookup k = none := by
  cases hlookup : m.lookup k with
  | none => rfl
  | some v =>
    have hmem : k ∈ objectKeys m := mem_objectKeys.2 ⟨by simp [hlookup], hk⟩
    rw [List.isEmpty_iff.1 hm] at hmem
    cases hmem

theorem said_appendToChain (existing : Option (List (Contributor V))) {c : Contributor V}
    (hk : k.plain = true) (hv : v.isNullish = false)
    (hsaid : (c.metadata.lookup k).or (said (existing.getD []) k) = some v) :
    said ((appendToChain existing c).getD []) k = some v := by
  cases c with
  | dynamic m =>
    rw [appendToChain, Option.getD_some, said_append]
    exact hsaid
  | static m =>
    simp only [appendToChain]
    split
    · rename_i hempty
      rw [Contributor.metadata, lookup_eq_none hempty (Bool.and_eq_true_iff.1 hk).1] at hsaid
      exact hsaid
    · split
      · rename_i last hlast
        exact said_merged hk hv hlast hsaid
      · rw [Option.getD_some, said_append]
        exact hsaid

theorem said_compose {logger : Logger V} {c : Contributor V} (hk : k.plain = true)
    (hv : v.isNullish = false) (hsaid : (c.metadata.lookup k).or (said logger.contributors k) = some v) :
    said (compose logger c).contributors k = some v := by
  cases logger with
  | plain =>
    have hchain := said_appendToChain none hk hv hsaid
    simp only [compose]
    cases happend : appendToChain none c with
    | none | some => rwa [happend] at hchain
  | composed contributors =>
    have hchain := said_appendToChain (some contributors) hk hv hsaid
    simp only [compose]
    cases happend : appendToChain (some contributors) c with
    | none =>
      rw [happend] at hchain
      cases hchain
    | some contributors => rwa [happend] at hchain

theorem said_composeAll (layers : List (Contributor V)) (hk : k.plain = true)
    (hv : v.isNullish = false) (hsaid : said layers k = some v) :
    said (composeAll layers).contributors k = some v := by
  induction layers using List.reverseRecOn generalizing v with
  | nil => exact hsaid
  | append_singleton layers c ih =>
    rw [composeAll, List.foldl_append]
    refine said_compose hk hv ?_
    rw [said_append] at hsaid
    cases hc : c.metadata.lookup k with
    | some w => rwa [hc] at hsaid
    | none =>
      rw [hc, Option.none_or] at hsaid
      rw [Option.none_or]
      exact ih hv hsaid

theorem composeAll_append (layers : List (Contributor V)) (c : Contributor V) :
    composeAll (layers ++ [c]) = compose (composeAll layers) c := by
  simp [composeAll, List.foldl_append]

/-- Only layers without strings leave the logger plain. -/
theorem composeAll_eq_plain_iff (layers : List (Contributor V)) :
    composeAll layers = .plain ↔ uncomposed layers = true := by
  induction layers using List.reverseRecOn with
  | nil => exact iff_of_true rfl rfl
  | append_singleton layers c ih =>
    rw [composeAll_append, uncomposed, List.all_append, ← uncomposed]
    cases hlogger : composeAll layers with
    | plain =>
      have hlayers := ih.1 hlogger
      rw [hlayers, Bool.true_and]
      cases c with
      | dynamic m => simp [compose, appendToChain]
      | static m =>
        cases hempty : (objectKeys m).isEmpty with
        | true | false => simp [compose, appendToChain, hempty]
    | composed contributors =>
      have hlayers : uncomposed layers = false := by
        rw [← Bool.not_eq_true, ← ih, hlogger]
        intro hplain
        cases hplain
      rw [hlayers, Bool.false_and]
      refine iff_of_false ?_ Bool.false_ne_true
      simp only [compose]
      split <;> (intro hplain; cases hplain)

variable {layers : List (Contributor V)}

omit [DecidableEq V] in
theorem said_of_uncomposed (h : uncomposed layers = true)
    (hk : k.isString = true) : said layers k = none := by
  induction layers using List.reverseRecOn with
  | nil => rfl
  | append_singleton layers c ih =>
    rw [uncomposed, List.all_append, Bool.and_eq_true] at h
    rw [said_append, ih h.1, Option.or_none]
    cases c with
    | dynamic m => simp at h
    | static m =>
      have hempty : (objectKeys m).isEmpty = true := by simpa using h.2
      exact lookup_eq_none hempty hk

omit [DecidableEq V] in
theorem effective_cases (h : effective layers extraMeta k = some v) :
    extraMeta.lookup k = some v ∨ (extraMeta.lookup k = none ∧ said layers k = some v) := by
  cases hextra : extraMeta.lookup k with
  | some w => exact .inl (by rwa [effective, hextra] at h)
  | none => exact .inr ⟨rfl, by rwa [effective, hextra, Option.none_or] at h⟩

theorem passes_of_plain
    (hk : k.plain = true) (hv : v.isNullish = false) (h : effective layers extraMeta k = some v) :
    ((composeAll layers).passes extraMeta).lookup k = some v := by
  have hstring := (Bool.and_eq_true_iff.1 hk).1
  cases hlogger : composeAll layers with
  | plain =>
    have hsaid := said_of_uncomposed ((composeAll_eq_plain_iff layers).1 hlogger) hstring
    rw [effective, hsaid, Option.or_none] at h
    exact h
  | composed contributors =>
    refine resolveMetadata_of_plain hk contributors hv ?_
    rcases effective_cases h with hextra | ⟨hextra, hsaid⟩
    · rw [effective, hextra, Option.some_or]
    · have hchain := said_composeAll layers hk hv hsaid
      rw [hlogger] at hchain
      rw [effective, hextra, Option.none_or]
      exact hchain

theorem passes_of_not_plain (hk : k.plain = false) :
    ((composeAll layers).passes extraMeta).lookup k =
      if uncomposed layers then extraMeta.lookup k else none := by
  cases hlogger : composeAll layers with
  | plain => rw [if_pos ((composeAll_eq_plain_iff layers).1 hlogger)]; rfl
  | composed contributors =>
    have hcomposed : ¬ uncomposed layers = true := by
      rw [← composeAll_eq_plain_iff, hlogger]
      exact nofun
    rw [if_neg hcomposed]
    exact resolveMetadata_of_not_plain hk contributors extraMeta

theorem keeps_iff (layers : List (Contributor V)) (extraMeta : Metadata V) :
    Keeps layers extraMeta ↔ ∀ k v, v.isNullish = false → effective layers extraMeta k = some v →
      k.plain = true ∨ (uncomposed layers = true ∧ extraMeta.lookup k = some v) := by
  constructor
  · intro h k v hv heffective
    cases hk : k.plain with
    | true => exact .inl rfl
    | false =>
      have hpasses := h k v hv heffective
      rw [passes_of_not_plain hk] at hpasses
      split at hpasses
      · exact .inr ⟨‹_›, hpasses⟩
      · cases hpasses
  · intro h k v hv heffective
    cases hk : k.plain with
    | true => exact passes_of_plain hk hv heffective
    | false =>
      rcases h k v hv heffective with hplain | ⟨huncomposed, hextra⟩
      · exact absurd (hk.symm.trans hplain) (by decide)
      · rw [passes_of_not_plain hk, if_pos huncomposed]
        exact hextra

end Composition

/-! ## From the workflow to the collector -/

inductive LogLevel
  | TRACE
  | DEBUG
  | INFO
  | WARN
  | ERROR
  deriving DecidableEq

/-- `severities.indexOf`. -/
def LogLevel.severity : LogLevel → Nat
  | .TRACE => 0
  | .DEBUG => 1
  | .INFO => 2
  | .WARN => 3
  | .ERROR => 4

/-- A call of the workflow's logger at a time, with what `getLogAttributes` returns. -/
structure Call (V : Type) where
  level : LogLevel
  message : String
  time : Int
  contributed : Metadata V
  attrs : Metadata V

structure LogEntry (V : Type) where
  level : LogLevel
  message : String
  timestampNanos : Int
  attributes : Option (Metadata V)

section Trip

variable {V : Type}

def sdkComponent : Key := .string "sdkComponent"

/-- What the workflow's logger gives to the sink; `component` is `SdkComponent.workflow`. -/
def Call.sent (component : V) (call : Call V) : Metadata V :=
  (((Record.empty.set LogTimestamp (.bigint call.time)).set sdkComponent (.other component)).override
    call.contributed).override call.attrs

/-- `structuredClone`, in the sandbox or on the way from the thread, copies strings only. -/
def transfer (cloned : Bool) (m : Metadata V) : Metadata V :=
  if cloned then m.restrict fun k _ => k.isString else m

/-- The function `log` of `DefaultLogger`. -/
def defaultLog (minimum : LogLevel) (timeOfDay : Int) (level : LogLevel) (message : String)
    (m : Metadata V) : Option (LogEntry V) :=
  if minimum.severity ≤ level.severity then
    let rest := m.remove LogTimestamp
    some
      { level := level
        message := message
        attributes := if (objectKeys rest).isEmpty then none else some rest
        timestampNanos :=
          match m.lookup LogTimestamp with
          | some (.bigint n) => n
          | _ => timeOfDay }
  else none

variable [DecidableEq V]

/-- The layers of the logger that the sink calls. -/
def sinkLayers (component : V) (layers : List (Contributor V)) : List (Contributor V) :=
  layers ++ [.static (Record.empty.set sdkComponent (.other component))]

/-- The entry that is appended to the collector's buffer. -/
def collect (component : V) (layers : List (Contributor V)) (cloned : Bool) (timeOfDay : Int)
    (call : Call V) : Option (LogEntry V) :=
  defaultLog .TRACE timeOfDay call.level call.message
    ((composeAll (sinkLayers component layers)).passes (transfer cloned (call.sent component)))

/-- The entry has the call's time, and every attribute. -/
def Survives (component : V) (layers : List (Contributor V)) (cloned : Bool) (timeOfDay : Int)
    (call : Call V) : Prop :=
  ∃ entry, collect component layers cloned timeOfDay call = some entry ∧
    entry.timestampNanos = call.time ∧
      ∀ name v, v.isNullish = false →
        effective (sinkLayers component layers) (call.sent component) (.string name) = some v →
          entry.attributes.bind (fun m => m.lookup (.string name)) = some v

omit [DecidableEq V] in
theorem lookup_transfer (cloned : Bool) (m : Metadata V) (name : String) :
    (transfer cloned m).lookup (.string name) = m.lookup (.string name) := by
  cases cloned with
  | false => rfl
  | true => cases h : m.lookup (.string name) <;> simp [transfer, h, Option.filter, Key.isString]

variable (component : V)

omit [DecidableEq V] in
theorem uncomposed_sinkLayers (layers : List (Contributor V)) :
    uncomposed (sinkLayers component layers) = false := by
  simp [sinkLayers, uncomposed, objectKeys, Record.set, Record.empty, sdkComponent, Key.isString]

theorem passes_sinkLayers (layers : List (Contributor V)) (extraMeta : Metadata V)
    {k : Key} (hk : k.plain = false) :
    ((composeAll (sinkLayers component layers)).passes extraMeta).lookup k = none := by
  rw [passes_of_not_plain hk, uncomposed_sinkLayers]
  rfl

/-- The entry of a call has the time of its arrival. -/
theorem collect_eq (layers : List (Contributor V)) (cloned : Bool) (timeOfDay : Int)
    (call : Call V) :
    ∃ attributes, collect component layers cloned timeOfDay call =
        some ⟨call.level, call.message, timeOfDay, attributes⟩ ∧
      ∀ name, attributes.bind (fun m => m.lookup (.string name)) =
        ((composeAll (sinkLayers component layers)).passes
          (transfer cloned (call.sent component))).lookup (.string name) := by
  have htimestamp := passes_sinkLayers component layers (transfer cloned (call.sent component))
    (k := LogTimestamp) rfl
  generalize hm : (composeAll (sinkLayers component layers)).passes
    (transfer cloned (call.sent component)) = m at htimestamp
  refine ⟨if (objectKeys (m.remove LogTimestamp)).isEmpty then none else some (m.remove LogTimestamp), ?_,
    fun name => ?_⟩
  · simp [collect, hm, defaultLog, LogLevel.severity, htimestamp]
  · have hrest : (m.remove LogTimestamp).lookup (.string name) = m.lookup (.string name) := by
      simp [LogTimestamp]
    split
    · rename_i hempty
      rw [← hrest, lookup_eq_none hempty rfl]
      rfl
    · exact hrest

theorem survives_iff (layers : List (Contributor V)) (cloned : Bool) (timeOfDay : Int)
    (call : Call V) :
    Survives component layers cloned timeOfDay call ↔
      timeOfDay = call.time ∧ ∀ v, v.isNullish = false →
        effective (sinkLayers component layers) (call.sent component) protoKey ≠ some v := by
  rcases collect_eq component layers cloned timeOfDay call with ⟨attributes, hcollect, hattributes⟩
  have heffective : ∀ name, effective (sinkLayers component layers)
      (transfer cloned (call.sent component)) (.string name) =
        effective (sinkLayers component layers) (call.sent component) (.string name) := by
    intro name
    rw [effective, lookup_transfer, ← effective]
  constructor
  · rintro ⟨entry, hentry, htime, hkeeps⟩
    rw [hcollect] at hentry
    cases hentry
    refine ⟨htime, fun v hv hproto => ?_⟩
    have hlookup := hkeeps _ v hv hproto
    rw [hattributes, passes_sinkLayers component layers _ rfl] at hlookup
    cases hlookup
  · rintro ⟨rfl, hproto⟩
    refine ⟨_, hcollect, rfl, fun name v hv heff => ?_⟩
    have hplain : (Key.string name).plain = true := by
      cases hplain : (Key.string name).plain with
      | true => rfl
      | false =>
        have hname : Key.string name = protoKey := by simpa [Key.plain, Key.isString] using hplain
        rw [hname] at heff
        exact absurd heff (hproto v hv)
    show attributes.bind _ = some v
    rw [hattributes]
    refine passes_of_plain hplain hv ?_
    rw [heffective]
    exact heff

/-- An entry has the time of its call exactly when it reaches the collector at that time, and then all of its
attributes but one named `__proto__`.  A composed logger keeps exactly what is under strings, but for that
one; only one that is not composed at all passes on what the call has. -/
theorem survives_iff_and_keeps_iff (component : V) (layers : List (Contributor V)) (cloned : Bool)
    (timeOfDay : Int) (call : Call V) (extraMeta : Metadata V) :
    (Survives component layers cloned timeOfDay call ↔
      timeOfDay = call.time ∧ ∀ v, v.isNullish = false →
        effective (sinkLayers component layers) (call.sent component) protoKey ≠ some v) ∧
    (Keeps layers extraMeta ↔
      ∀ k v, v.isNullish = false → effective layers extraMeta k = some v →
        k.plain = true ∨ (uncomposed layers = true ∧ extraMeta.lookup k = some v)) :=
  ⟨survives_iff component layers cloned timeOfDay call, keeps_iff layers extraMeta⟩

/-- A call without attributes that is collected two nanoseconds later; and a logger composed with one attribute that
is called with a symbol. -/
theorem not_survives_of_later_arrival :
    ¬ Survives "workflow" [] false 7
        ⟨.INFO, "started", 5, Record.empty, Record.empty⟩ ∧
      ¬ Keeps [.static (Record.empty.set (.string "taskQueue") (.other "q"))]
        ((Record.empty : Metadata String).set LogTimestamp (.bigint 5)) := by
  constructor
  · rintro ⟨entry, hentry, htime, _⟩
    rcases collect_eq "workflow" [] false 7 ⟨.INFO, "started", 5, Record.empty, Record.empty⟩ with
      ⟨attributes, hcollect, _⟩
    rw [hcollect] at hentry
    cases hentry
    cases htime
  · intro h
    have hlookup := h LogTimestamp (.bigint 5) rfl (by decide)
    rw [passes_of_not_plain rfl] at hlookup
    exact absurd hlookup (by decide)

end Trip
end LogMetadata
end TemporalSdk.Worker
