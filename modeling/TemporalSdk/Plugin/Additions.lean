import TemporalSdk.Plugin.SimplePlugin

/-!
# Plugins of clients and workers

The `Client` constructor, `Worker.create` and the `configureClient` and `configureWorker` they call.
Both write the list of plugins back into the caller's options object, so that the next client or
worker from the same object starts from what the last one left.  The bundler, which applies the plugins again to
the modules that a worker bundles, is not part of this.
-/

namespace TemporalSdk.Plugin

open ClientInterceptors (workflowOf scheduleOf isModern Mergeable)

variable {I B T : Type}

/-! ## Clients -/

structure ClientOptions (I B : Type) where
  interceptors : Option (ClientInterceptors I)
  plugins : Option (List (SimplePluginOptions I B))
  /-- `options.connection?.plugins` -/
  connectionPlugins : Option (List (SimplePluginOptions I B))

/-- The interceptors the sub-clients are made with. -/
structure Client (I : Type) where
  workflow : WorkflowClientInterceptors I
  schedule : List I
  nexus : List I
  activity : List I

def SimplePluginOptions.configureClient (plugin : SimplePluginOptions I B) (options : ClientOptions I B) :
    Except String (ClientOptions I B) := do
  let interceptors ← resolveClientInterceptors options.interceptors plugin.clientInterceptors
  pure { options with interceptors }

/-- The caller's options, after the assignment to `options.plugins`. -/
def ClientOptions.assignPlugins (options : ClientOptions I B) : ClientOptions I B :=
  { options with plugins := some (options.plugins.getD [] ++ options.connectionPlugins.getD []) }

/-- The constructor, with the options object as it leaves it. -/
def newClient (options : ClientOptions I B) : Except String (Client I) × ClientOptions I B :=
  let options := options.assignPlugins
  let configured := (options.plugins.getD []).foldlM (fun options plugin => plugin.configureClient options) options
  (configured.map fun configured => {
    workflow := (configured.interceptors.bind ClientInterceptors.workflow).getD (.list [])
    schedule := (configured.interceptors.bind ClientInterceptors.schedule).getD []
    nexus := (configured.interceptors.bind ClientInterceptors.nexus).getD []
    activity := (configured.interceptors.bind ClientInterceptors.activity).getD [] }, options)

/-- The client made from the options object after `n` others. -/
def clientAt (options : ClientOptions I B) : Nat → Except String (Client I)
  | 0 => (newClient options).1
  | n + 1 => clientAt (newClient options).2 n

/-! ## Workers -/

structure WorkerOptions (I B : Type) where
  interceptors : Option (WorkerInterceptors I)
  workflowsPath : Option String
  workflowBundle : Option B
  plugins : Option (List (SimplePluginOptions I B))
  connectionPlugins : Option (List (SimplePluginOptions I B))

/-- The interceptors in the worker's options with defaults. -/
structure Worker (I B : Type) where
  client : ClientInterceptors I
  activity : List I
  activityInbound : List I
  nexus : List I
  workflowModules : List String
  workflowsPath : Option String
  workflowBundle : Option B

def SimplePluginOptions.configureWorker (plugin : SimplePluginOptions I B) (options : WorkerOptions I B) :
    Except String (WorkerOptions I B) := do
  let workflowsPath ← resolveParameter options.workflowsPath plugin.workflowsPath
  let workflowBundle ← resolveParameter options.workflowBundle plugin.workflowBundle
  let interceptors ←
    resolveWorkerInterceptors options.interceptors plugin.workerInterceptors workflowsPath.isSome
  pure { options with interceptors, workflowsPath, workflowBundle }

def WorkerOptions.assignPlugins (options : WorkerOptions I B) : WorkerOptions I B :=
  { options with plugins := some (options.plugins.getD [] ++ options.connectionPlugins.getD []) }

def addDefaultWorkerOptions (options : WorkerOptions I B) : Worker I B :=
  let client := options.interceptors.bind WorkerInterceptors.client
  { -- again an object literal without `nexus`
    client := {
      workflow := some ((client.bind ClientInterceptors.workflow).getD (.list []))
      schedule := some ((client.bind ClientInterceptors.schedule).getD [])
      nexus := none
      activity := some ((client.bind ClientInterceptors.activity).getD []) }
    activity := (options.interceptors.bind WorkerInterceptors.activity).getD []
    activityInbound := (options.interceptors.bind WorkerInterceptors.activityInbound).getD []
    nexus := (options.interceptors.bind WorkerInterceptors.nexus).getD []
    workflowModules := (options.interceptors.bind WorkerInterceptors.workflowModules).getD []
    workflowsPath := options.workflowsPath
    workflowBundle := options.workflowBundle }

/-- `Worker.create`, with the options object as it leaves it. -/
def createWorker (options : WorkerOptions I B) : Except String (Worker I B) × WorkerOptions I B :=
  let options := options.assignPlugins
  let configured := (options.plugins.getD []).foldlM (fun options plugin => plugin.configureWorker options) options
  (configured.map addDefaultWorkerOptions, options)

def workerAt (options : WorkerOptions I B) : Nat → Except String (Worker I B)
  | 0 => (createWorker options).1
  | n + 1 => workerAt (createWorker options).2 n

/-- `getOrCreateBundle` makes the bundle from the path. -/
def Worker.usesWorkflowsPath (worker : Worker I B) : Bool :=
  worker.workflowBundle.isNone && (worker.workflowsPath.getD "" != "")

/-! ## Several runs over the same options -/

/-- What is given by the user and the plugins in the options, and what by those of the connection. -/
structure Given (α : Type) where
  own : List (Option α)
  connection : List (Option α)

namespace Given

variable {α β : Type} (given : Given α)

def all : List (Option α) := given.own ++ given.connection

/-- What the object with the plugins left by `n` constructions makes of it. -/
def after (n : Nat) : List (Option α) := given.own ++ (List.replicate (n + 1) given.connection).flatten

/-- There is never anything to merge. -/
def Single : Prop := given.own.countP Option.isSome ≤ 1 ∧ given.connection.countP Option.isSome = 0

theorem after_one : given.after 1 = given.all ++ given.connection := by
  simp [after, all, List.replicate_succ]

theorem mem_after {a : Option α} (n : Nat) : a ∈ given.after n ↔ a ∈ given.all := by
  simp only [after, all, List.mem_append, List.mem_flatten, List.mem_replicate]
  constructor
  · rintro (h | ⟨l, ⟨-, rfl⟩, h⟩)
    · exact .inl h
    · exact .inr h
  · rintro (h | h)
    · exact .inl h
    · exact .inr ⟨_, ⟨Nat.succ_ne_zero n, rfl⟩, h⟩

theorem countP_after_of_single (h : given.Single) (n : Nat) : (given.after n).countP Option.isSome ≤ 1 := by
  rw [after, List.countP_append, List.countP_flatten, List.map_replicate, h.2]
  simpa using h.1

theorem single_of_countP (h : (given.after 1).countP Option.isSome ≤ 1) : given.Single := by
  rw [after_one, all, List.countP_append, List.countP_append] at h
  exact ⟨by omega, by omega⟩

theorem flatMap_of_countP {f : Option α → List β} (hf : f none = []) {givers : List (Option α)}
    (h : givers.countP Option.isSome = 0) : givers.flatMap f = [] := by
  rw [List.flatMap_eq_nil_iff]
  intro a ha
  have hnone := List.countP_eq_zero.1 h a ha
  cases a with
  | none => exact hf
  | some a => exact absurd rfl hnone

/-- The construction after `n` others appends what is given, once. -/
def KeptAt (f : Option α → List β) (n : Nat) : Prop := (given.after n).flatMap f = given.all.flatMap f

/-- The same for what merging several drops. -/
def KeptAloneAt (f : Option α → List β) (n : Nat) : Prop :=
  (if (given.after n).countP Option.isSome ≤ 1 then (given.after n).flatMap f else []) = given.all.flatMap f

theorem keptAt_iff (f : Option α → List β) : (∀ n, given.KeptAt f n) ↔ given.connection.flatMap f = [] := by
  constructor
  · intro h
    have hone := h 1
    rw [KeptAt, after_one, List.flatMap_append] at hone
    exact List.append_right_eq_self.1 hone
  · intro h n
    have hrest : (List.replicate (n + 1) given.connection).flatten.flatMap f = [] := by
      rw [List.flatMap_eq_nil_iff] at h ⊢
      intro a ha
      rcases List.mem_flatten.1 ha with ⟨l, hl, hal⟩
      rw [List.eq_of_mem_replicate hl] at hal
      exact h a hal
    rw [KeptAt, after, all, List.flatMap_append, List.flatMap_append, hrest, h]

theorem keptAloneAt_iff {f : Option α → List β} (hf : f none = []) :
    (∀ n, given.KeptAloneAt f n) ↔ given.Single ∨ given.all.flatMap f = [] := by
  constructor
  · intro h
    have hone := h 1
    by_cases hcount : (given.after 1).countP Option.isSome ≤ 1
    · exact .inl (given.single_of_countP hcount)
    · rw [KeptAloneAt, if_neg hcount] at hone
      exact .inr hone.symm
  · rintro (hsingle | hnone) n
    · rw [KeptAloneAt, if_pos (given.countP_after_of_single hsingle n)]
      exact (given.keptAt_iff f).2 (flatMap_of_countP hf hsingle.2) n
    · have hafter : (given.after n).flatMap f = [] := by
        rw [List.flatMap_eq_nil_iff] at hnone ⊢
        exact fun a ha => hnone a ((given.mem_after n).1 ha)
      rw [KeptAloneAt, hafter, hnone]
      split <;> rfl

theorem mergeable_iff (given : Given (ClientInterceptors I)) :
    (∀ n, Mergeable (given.after n)) ↔
      given.Single ∨ ∀ a ∈ given.all, isModern a = true := by
  constructor
  · intro h
    rcases h 1 with hcount | hmodern
    · exact .inl (given.single_of_countP hcount)
    · exact .inr fun a ha => hmodern a ((given.mem_after 1).2 ha)
  · rintro (hsingle | hmodern) n
    · exact .inl (given.countP_after_of_single hsingle n)
    · exact .inr fun a ha => hmodern a ((given.mem_after n).1 ha)

end Given

/-! ## Clients with what the plugins add -/

namespace ClientOptions

variable (options : ClientOptions I B)

/-- The client interceptors of the user and of the plugins, in their order. -/
def given : Given (ClientInterceptors I) where
  own := options.interceptors :: (options.plugins.getD []).map SimplePluginOptions.clientInterceptors
  connection := (options.connectionPlugins.getD []).map SimplePluginOptions.clientInterceptors

end ClientOptions

/-- The interceptors of each kind are the user's and then those of each plugin, once. -/
structure Client.Adds (client : Client I) (all : List (Option (ClientInterceptors I))) : Prop where
  workflow : workflowOf (some ⟨some client.workflow, none, none, none⟩) =
    all.flatMap workflowOf
  schedule : client.schedule = all.flatMap scheduleOf
  nexus : client.nexus = all.flatMap ClientInterceptors.nexusOf
  activity : client.activity = all.flatMap ClientInterceptors.activityOf

theorem clientAt_eq (options : ClientOptions I B) : ∀ n, ∃ plugins,
    clientAt options n = (newClient { options with plugins := some plugins }).1 ∧
      plugins ++ options.connectionPlugins.getD [] =
        options.plugins.getD [] ++ (List.replicate (n + 1) (options.connectionPlugins.getD [])).flatten
  | 0 => ⟨options.plugins.getD [], rfl, by simp⟩
  | n + 1 => by
    rcases clientAt_eq options.assignPlugins n with ⟨plugins, hclient, hplugins⟩
    refine ⟨plugins, hclient, ?_⟩
    simpa [ClientOptions.assignPlugins, List.replicate_succ] using hplugins

theorem configureClient_foldlM : ∀ (plugins : List (SimplePluginOptions I B)) (options : ClientOptions I B),
    plugins.foldlM (fun options plugin => plugin.configureClient options) options =
      ((plugins.map SimplePluginOptions.clientInterceptors).foldlM resolveClientInterceptors
        options.interceptors).map fun interceptors => { options with interceptors }
  | [], options => rfl
  | plugin :: plugins, options => by
    rw [List.foldlM_cons, List.map_cons, List.foldlM_cons, SimplePluginOptions.configureClient]
    cases resolveClientInterceptors options.interceptors plugin.clientInterceptors with
    | error e => rfl
    | ok interceptors => exact configureClient_foldlM plugins { options with interceptors }

/-- What a client made from the options after `n` others has, or that there is none. -/
theorem clientAt_outcome (options : ClientOptions I B) (n : Nat) :
    ∃ out : Except String (Option (ClientInterceptors I)), ClientInterceptors.Outcome (options.given.after n) out ∧
      clientAt options n = out.map fun interceptors => {
        workflow := (interceptors.bind ClientInterceptors.workflow).getD (.list [])
        schedule := (interceptors.bind ClientInterceptors.schedule).getD []
        nexus := (interceptors.bind ClientInterceptors.nexus).getD []
        activity := (interceptors.bind ClientInterceptors.activity).getD [] } := by
  rcases clientAt_eq options n with ⟨plugins, hclient, hplugins⟩
  refine ⟨((options.plugins.getD [] ++ (List.replicate (n + 1) (options.connectionPlugins.getD [])).flatten).map
    SimplePluginOptions.clientInterceptors).foldlM resolveClientInterceptors options.interceptors, ?_, ?_⟩
  · have hgivers : options.given.after n = [options.interceptors] ++ (options.plugins.getD [] ++
        (List.replicate (n + 1) (options.connectionPlugins.getD [])).flatten).map
          SimplePluginOptions.clientInterceptors := by
      simp [ClientOptions.given, Given.after, List.map_flatten]
    rw [hgivers]
    exact ClientInterceptors.outcome_foldlM (.inl List.countP_le_length)
      (ClientInterceptors.merged_singleton options.interceptors)
  · rw [hclient, newClient, ← hplugins]
    simp only [ClientOptions.assignPlugins, Option.getD_some, configureClient_foldlM]
    generalize (List.map _ _).foldlM resolveClientInterceptors options.interceptors = out
    cases out <;> rfl

/-- When every client that is made from an options object gets what its user and plugins give. -/
structure ClientsAdd (options : ClientOptions I B) : Prop where
  modern : options.given.Single ∨ ∀ given ∈ options.given.all, isModern given = true
  workflow : options.given.connection.flatMap workflowOf = []
  schedule : options.given.connection.flatMap scheduleOf = []
  nexus : options.given.Single ∨ options.given.all.flatMap ClientInterceptors.nexusOf = []
  activity : options.given.Single ∨ options.given.all.flatMap ClientInterceptors.activityOf = []

theorem clientAt_adds_iff (options : ClientOptions I B) (n : Nat) :
    (∃ client, clientAt options n = .ok client ∧ client.Adds options.given.all) ↔
      Mergeable (options.given.after n) ∧ options.given.KeptAt workflowOf n ∧ options.given.KeptAt scheduleOf n ∧
        options.given.KeptAloneAt ClientInterceptors.nexusOf n ∧
          options.given.KeptAloneAt ClientInterceptors.activityOf n := by
  rcases clientAt_outcome options n with ⟨out, hout, hclient⟩
  rw [hclient]
  cases out with
  | error e =>
    refine ⟨?_, fun h => absurd h.1 hout⟩
    rintro ⟨client, ⟨⟩, -⟩
  | ok merged =>
    rcases hout with ⟨hmergeable, hmerged⟩
    have hworkflow : workflowOf (some ⟨some
        ((merged.bind ClientInterceptors.workflow).getD (.list [])), none, none, none⟩) =
          workflowOf merged := by
      rw [workflowOf, workflowOf]
      cases merged.bind ClientInterceptors.workflow <;> rfl
    rw [Given.KeptAt, Given.KeptAt, Given.KeptAloneAt, Given.KeptAloneAt, ← hmerged.workflow, ← hmerged.schedule,
      ← hmerged.nexus, ← hmerged.activity]
    constructor
    · rintro ⟨client, hclient, hadds⟩
      cases hclient
      exact ⟨hmergeable, hworkflow.symm.trans hadds.workflow, hadds.schedule, hadds.nexus, hadds.activity⟩
    · rintro ⟨-, h₁, h₂, h₃, h₄⟩
      exact ⟨_, rfl, hworkflow.trans h₁, h₂, h₃, h₄⟩

theorem clients_add_iff (options : ClientOptions I B) :
    (∀ n, ∃ client, clientAt options n = .ok client ∧ client.Adds options.given.all) ↔ ClientsAdd options := by
  simp only [clientAt_adds_iff, forall_and]
  rw [Given.mergeable_iff, Given.keptAt_iff, Given.keptAt_iff, Given.keptAloneAt_iff _ rfl,
    Given.keptAloneAt_iff _ rfl]
  exact ⟨fun ⟨h₁, h₂, h₃, h₄, h₅⟩ => ⟨h₁, h₂, h₃, h₄, h₅⟩,
    fun h => ⟨h.modern, h.workflow, h.schedule, h.nexus, h.activity⟩⟩

/-! ## Workers with what the plugins add -/

/-- What the last of several parameters replaces the existing one by. -/
def resolved (existing : Option T) (parameters : List (Option T)) : Option T :=
  parameters.foldl (fun existing parameter => parameter.or existing) existing

theorem resolveParameter_eq (existing parameter : Option T) :
    resolveParameter existing parameter = .ok (parameter.or existing) := by
  cases parameter with
  | none => rfl
  | some parameter => cases existing <;> rfl

theorem resolved_eq (existing : Option T) : ∀ parameters : List (Option T),
    resolved existing parameters = (resolved none parameters).or existing := by
  intro parameters
  induction parameters generalizing existing with
  | nil => rfl
  | cons parameter parameters ih =>
    have hhead : ∀ e : Option T, resolved e (parameter :: parameters) = resolved (parameter.or e) parameters :=
      fun _ => rfl
    rw [hhead, hhead, ih (parameter.or existing), ih (parameter.or none)]
    cases resolved none parameters <;> cases parameter <;> rfl

theorem resolved_append (existing : Option T) (before after : List (Option T)) :
    resolved existing (before ++ after) = resolved (resolved existing before) after := by
  simp [resolved, List.foldl_append]

theorem resolved_replicate (existing : Option T) (parameters : List (Option T)) : ∀ n,
    resolved (resolved existing parameters) (List.replicate n parameters).flatten = resolved existing parameters
  | 0 => rfl
  | n + 1 => by
    have hagain : resolved (resolved existing parameters) parameters = resolved existing parameters := by
      rw [resolved_eq existing parameters, resolved_eq _ parameters]
      cases resolved none parameters <;> rfl
    rw [List.replicate_succ, List.flatten_cons, resolved_append, hagain]
    exact resolved_replicate existing parameters n

def SimplePluginOptions.modules (plugin : SimplePluginOptions I B) : List String :=
  WorkerInterceptors.workflowModulesOf plugin.workerInterceptors

/-- The workflow modules of the plugins that find a path set, or set it themselves. -/
def includedModules : Option String → List (SimplePluginOptions I B) → List String
  | _, [] => []
  | path, plugin :: plugins =>
    (if (plugin.workflowsPath.or path).isSome then plugin.modules else []) ++
      includedModules (plugin.workflowsPath.or path) plugins

/-- The workflow modules of the plugins before the first one that sets a path. -/
def earlyModules : Option String → List (SimplePluginOptions I B) → List String
  | some _, _ => []
  | none, [] => []
  | none, plugin :: plugins =>
    match plugin.workflowsPath with
    | some _ => []
    | none => plugin.modules ++ earlyModules none plugins

theorem includedModules_append (path : Option String) : ∀ before after : List (SimplePluginOptions I B),
    includedModules path (before ++ after) =
      includedModules path before ++
        includedModules (resolved path (before.map SimplePluginOptions.workflowsPath)) after := by
  intro before after
  induction before generalizing path with
  | nil => rfl
  | cons plugin before ih =>
    rw [List.cons_append, includedModules, includedModules, ih, List.append_assoc]
    rfl

theorem includedModules_some (path : String) : ∀ plugins : List (SimplePluginOptions I B),
    includedModules (some path) plugins = plugins.flatMap SimplePluginOptions.modules := by
  intro plugins
  induction plugins generalizing path with
  | nil => rfl
  | cons plugin plugins ih =>
    rw [includedModules, List.flatMap_cons]
    cases plugin.workflowsPath with
    | none => exact congrArg _ (ih path)
    | some path' => exact congrArg _ (ih path')

theorem earlyModules_append_includedModules {path : Option String} : ∀ {plugins : List (SimplePluginOptions I B)},
    (resolved path (plugins.map SimplePluginOptions.workflowsPath)).isSome = true →
    earlyModules path plugins ++ includedModules path plugins = plugins.flatMap SimplePluginOptions.modules := by
  intro plugins h
  cases path with
  | some path =>
    rw [earlyModules, includedModules_some]
    rfl
  | none =>
    induction plugins with
    | nil => cases h
    | cons plugin plugins ih =>
      rw [List.flatMap_cons, earlyModules, includedModules]
      cases hpath : plugin.workflowsPath with
      | some path =>
        simp only [Option.some_or, Option.isSome_some, if_true, includedModules_some]
        rfl
      | none =>
        have hrest : (resolved none (plugins.map SimplePluginOptions.workflowsPath)).isSome = true := by
          simpa [resolved, hpath] using h
        rw [← ih hrest]
        simp

theorem includedModules_repeated {path : Option String} {plugins connection : List (SimplePluginOptions I B)}
    (hpath : (resolved path ((plugins ++ connection).map SimplePluginOptions.workflowsPath)).isSome = true) (n : Nat) :
    includedModules path (plugins ++ (List.replicate (n + 1) connection).flatten) =
      includedModules path (plugins ++ connection) ++
        (List.replicate n (connection.flatMap SimplePluginOptions.modules)).flatten := by
  have hsplit : plugins ++ (List.replicate (n + 1) connection).flatten =
      (plugins ++ connection) ++ (List.replicate n connection).flatten := by
    simp [List.replicate_succ]
  rcases Option.isSome_iff_exists.1 hpath with ⟨found, hfound⟩
  rw [hsplit, includedModules_append, hfound, includedModules_some]
  congr 1
  clear hsplit
  induction n with
  | zero => rfl
  | succ n ih => simp only [List.replicate_succ, List.flatten_cons, List.flatMap_append, ih]

namespace WorkerOptions

variable (options : WorkerOptions I B)

def given : Given (WorkerInterceptors I) where
  own := options.interceptors :: (options.plugins.getD []).map SimplePluginOptions.workerInterceptors
  connection := (options.connectionPlugins.getD []).map SimplePluginOptions.workerInterceptors

def givenClients : Given (ClientInterceptors I) where
  own := options.given.own.map WorkerInterceptors.clientOf
  connection := options.given.connection.map WorkerInterceptors.clientOf

def allPlugins : List (SimplePluginOptions I B) := options.plugins.getD [] ++ options.connectionPlugins.getD []

def pluginsAfter (n : Nat) : List (SimplePluginOptions I B) :=
  options.plugins.getD [] ++ (List.replicate (n + 1) (options.connectionPlugins.getD [])).flatten

/-- The bundle is made from a path that the user or a plugin sets. -/
def usesWorkflowsPath : Bool :=
  (resolved options.workflowBundle (options.allPlugins.map SimplePluginOptions.workflowBundle)).isNone &&
    ((resolved options.workflowsPath (options.allPlugins.map SimplePluginOptions.workflowsPath)).getD "" != "")

theorem givenClients_after (n : Nat) :
    options.givenClients.after n = (options.given.after n).map WorkerInterceptors.clientOf := by
  simp [givenClients, Given.after, List.map_flatten]

theorem given_after (n : Nat) : options.given.after n =
    [options.interceptors] ++ (options.pluginsAfter n).map SimplePluginOptions.workerInterceptors := by
  simp [given, Given.after, pluginsAfter, List.map_flatten]

theorem resolved_pluginsAfter (existing : Option T) (parameter : SimplePluginOptions I B → Option T) (n : Nat) :
    resolved existing ((options.pluginsAfter n).map parameter) = resolved existing (options.allPlugins.map parameter) := by
  simp only [pluginsAfter, allPlugins, List.replicate_succ, List.flatten_cons, List.map_append, resolved_append,
    List.map_flatten, List.map_replicate]
  exact resolved_replicate _ _ n

end WorkerOptions

theorem workerAt_eq (options : WorkerOptions I B) : ∀ n, ∃ plugins,
    workerAt options n = (createWorker { options with plugins := some plugins }).1 ∧
      plugins ++ options.connectionPlugins.getD [] = options.pluginsAfter n
  | 0 => ⟨options.plugins.getD [], rfl, by simp [WorkerOptions.pluginsAfter]⟩
  | n + 1 => by
    rcases workerAt_eq options.assignPlugins n with ⟨plugins, hworker, hplugins⟩
    refine ⟨plugins, hworker, ?_⟩
    simpa [WorkerOptions.assignPlugins, WorkerOptions.pluginsAfter, List.replicate_succ] using hplugins

/-- The plugins over options whose interceptors are merged from `givers`. -/
def Configured (givers : List (Option (WorkerInterceptors I))) (modules : List String) (path : Option String)
    (bundle : Option B) : Except String (WorkerOptions I B) → Prop
  | .error _ => ¬ Mergeable (givers.map WorkerInterceptors.clientOf)
  | .ok configured =>
    WorkerInterceptors.Outcome givers modules (.ok configured.interceptors) ∧
      configured.workflowsPath = path ∧ configured.workflowBundle = bundle

theorem configureWorker_eq (plugin : SimplePluginOptions I B) (options : WorkerOptions I B) :
    plugin.configureWorker options =
      (resolveWorkerInterceptors options.interceptors plugin.workerInterceptors
        (plugin.workflowsPath.or options.workflowsPath).isSome).map fun interceptors =>
          { options with
            interceptors
            workflowsPath := plugin.workflowsPath.or options.workflowsPath
            workflowBundle := plugin.workflowBundle.or options.workflowBundle } := by
  rw [SimplePluginOptions.configureWorker, resolveParameter_eq, resolveParameter_eq]
  rfl

theorem configureWorker_foldlM : ∀ {plugins : List (SimplePluginOptions I B)}
    {givers : List (Option (WorkerInterceptors I))} {modules : List String} {options : WorkerOptions I B},
    WorkerInterceptors.Outcome givers modules (.ok options.interceptors) →
    Configured (givers ++ plugins.map SimplePluginOptions.workerInterceptors)
      (modules ++ includedModules options.workflowsPath plugins)
      (resolved options.workflowsPath (plugins.map SimplePluginOptions.workflowsPath))
      (resolved options.workflowBundle (plugins.map SimplePluginOptions.workflowBundle))
      (plugins.foldlM (fun options plugin => plugin.configureWorker options) options)
  | [], givers, modules, options, h => by
    simp only [List.map_nil, List.append_nil, includedModules]
    exact ⟨h, rfl, rfl⟩
  | plugin :: plugins, givers, modules, options, h => by
    have hstep := WorkerInterceptors.outcome_step h.1 h.2 plugin.workerInterceptors
      (plugin.workflowsPath.or options.workflowsPath).isSome
    have happend : givers ++ (plugin :: plugins).map SimplePluginOptions.workerInterceptors =
        (givers ++ [plugin.workerInterceptors]) ++ plugins.map SimplePluginOptions.workerInterceptors := by simp
    rw [List.foldlM_cons, happend, configureWorker_eq, includedModules, ← List.append_assoc]
    cases hresolve : resolveWorkerInterceptors options.interceptors plugin.workerInterceptors
        (plugin.workflowsPath.or options.workflowsPath).isSome with
    | error e =>
      rw [hresolve] at hstep
      show ¬ Mergeable _
      rw [List.map_append]
      exact fun hall => hstep hall.of_append
    | ok interceptors =>
      rw [hresolve] at hstep
      exact configureWorker_foldlM hstep

/-- The interceptors of each kind are the user's and then those of each plugin, once. -/
structure Worker.Adds (worker : Worker I B) (all : List (Option (WorkerInterceptors I))) : Prop where
  clientWorkflow : workflowOf (some worker.client) =
    all.flatMap fun given => workflowOf (WorkerInterceptors.clientOf given)
  clientSchedule : scheduleOf (some worker.client) =
    all.flatMap fun given => scheduleOf (WorkerInterceptors.clientOf given)
  clientNexus : ClientInterceptors.nexusOf (some worker.client) =
    all.flatMap fun given => ClientInterceptors.nexusOf (WorkerInterceptors.clientOf given)
  clientActivity : ClientInterceptors.activityOf (some worker.client) =
    all.flatMap fun given => ClientInterceptors.activityOf (WorkerInterceptors.clientOf given)
  activity : worker.activity = all.flatMap WorkerInterceptors.activityOf
  activityInbound : worker.activityInbound = all.flatMap WorkerInterceptors.activityInboundOf
  nexus : worker.nexus = all.flatMap WorkerInterceptors.nexusOf
  workflowModules : worker.usesWorkflowsPath = true →
    worker.workflowModules = all.flatMap WorkerInterceptors.workflowModulesOf

/-- When every worker that is made from an options object gets what its user and plugins give. -/
structure WorkersAdd (options : WorkerOptions I B) : Prop where
  modern : options.givenClients.Single ∨
    ∀ given ∈ options.givenClients.all, isModern given = true
  clientWorkflow : options.givenClients.connection.flatMap workflowOf = []
  clientSchedule : options.givenClients.connection.flatMap scheduleOf = []
  clientNexus : options.givenClients.all.flatMap ClientInterceptors.nexusOf = []
  clientActivity : options.givenClients.Single ∨
    options.givenClients.all.flatMap ClientInterceptors.activityOf = []
  activity : options.given.connection.flatMap WorkerInterceptors.activityOf = []
  activityInbound : options.given.Single ∨ options.given.all.flatMap WorkerInterceptors.activityInboundOf = []
  nexus : options.given.connection.flatMap WorkerInterceptors.nexusOf = []
  workflowModules : options.usesWorkflowsPath = true →
    earlyModules options.workflowsPath options.allPlugins = [] ∧
      options.given.connection.flatMap WorkerInterceptors.workflowModulesOf = []

theorem workerAt_outcome (options : WorkerOptions I B) (n : Nat) :
    ∃ out : Except String (WorkerOptions I B), workerAt options n = out.map addDefaultWorkerOptions ∧
      Configured (options.given.after n)
        (WorkerInterceptors.workflowModulesOf options.interceptors ++
          includedModules options.workflowsPath (options.pluginsAfter n))
        (resolved options.workflowsPath (options.allPlugins.map SimplePluginOptions.workflowsPath))
        (resolved options.workflowBundle (options.allPlugins.map SimplePluginOptions.workflowBundle)) out := by
  rcases workerAt_eq options n with ⟨plugins, hworker, hplugins⟩
  refine ⟨_, hworker, ?_⟩
  simp only [WorkerOptions.assignPlugins, Option.getD_some, hplugins]
  have hstart : WorkerInterceptors.Outcome [options.interceptors]
      (WorkerInterceptors.workflowModulesOf options.interceptors) (.ok options.interceptors) :=
    ⟨.inl List.countP_le_length, WorkerInterceptors.merged_singleton options.interceptors⟩
  rw [options.given_after, ← options.resolved_pluginsAfter options.workflowsPath _ n,
    ← options.resolved_pluginsAfter options.workflowBundle _ n]
  exact configureWorker_foldlM hstart

/-- The workflow modules of all the workers that use a path. -/
theorem workflowModules_iff (options : WorkerOptions I B) (huses : options.usesWorkflowsPath = true) :
    (∀ n, WorkerInterceptors.workflowModulesOf options.interceptors ++
        includedModules options.workflowsPath (options.pluginsAfter n) =
          options.given.all.flatMap WorkerInterceptors.workflowModulesOf) ↔
      earlyModules options.workflowsPath options.allPlugins = [] ∧
        options.given.connection.flatMap WorkerInterceptors.workflowModulesOf = [] := by
  have hpath : (resolved options.workflowsPath
      (options.allPlugins.map SimplePluginOptions.workflowsPath)).isSome = true := by
    simp only [WorkerOptions.usesWorkflowsPath, Bool.and_eq_true] at huses
    cases hresolved : resolved options.workflowsPath (options.allPlugins.map SimplePluginOptions.workflowsPath) with
    | none =>
      rw [hresolved] at huses
      exact absurd huses.2 (by decide)
    | some path => rfl
  have hall : options.given.all.flatMap WorkerInterceptors.workflowModulesOf =
      WorkerInterceptors.workflowModulesOf options.interceptors ++
        options.allPlugins.flatMap SimplePluginOptions.modules := by
    simp [WorkerOptions.given, Given.all, WorkerOptions.allPlugins, List.flatMap_map]
    rfl
  have hconnection : options.given.connection.flatMap WorkerInterceptors.workflowModulesOf =
      (options.connectionPlugins.getD []).flatMap SimplePluginOptions.modules := by
    simp only [WorkerOptions.given, List.flatMap_map]
    rfl
  have hincluded : ∀ n, includedModules options.workflowsPath (options.pluginsAfter n) =
      includedModules options.workflowsPath options.allPlugins ++
        (List.replicate n ((options.connectionPlugins.getD []).flatMap SimplePluginOptions.modules)).flatten :=
    includedModules_repeated hpath
  simp only [hall, hconnection, hincluded, List.append_cancel_left_eq]
  rw [← earlyModules_append_includedModules hpath]
  constructor
  · intro h
    have hzero := h 0
    have hone := h 1
    simp only [List.replicate_zero, List.flatten_nil, List.append_nil] at hzero
    have hearly : earlyModules options.workflowsPath options.allPlugins = [] :=
      List.append_left_eq_self.1 hzero.symm
    rw [hearly, List.nil_append] at hone
    refine ⟨hearly, ?_⟩
    simpa using hone
  · rintro ⟨hearly, hnone⟩ n
    rw [hearly, hnone]
    simp

theorem givenClients_flatMap (options : WorkerOptions I B) (f : Option (ClientInterceptors I) → List T) :
    (options.given.all.flatMap fun given => f (WorkerInterceptors.clientOf given)) =
      options.givenClients.all.flatMap f := by
  simp [WorkerOptions.givenClients, Given.all, List.flatMap_map]

theorem addDefaultWorkerOptions_workflowOf (configured : WorkerOptions I B) :
    workflowOf (some (addDefaultWorkerOptions configured).client) =
      workflowOf (WorkerInterceptors.clientOf configured.interceptors) := by
  show workflowOf (some ⟨some
    (((WorkerInterceptors.clientOf configured.interceptors).bind ClientInterceptors.workflow).getD (.list [])),
    _, _, _⟩) = _
  rw [workflowOf, workflowOf]
  cases (WorkerInterceptors.clientOf configured.interceptors).bind ClientInterceptors.workflow <;> rfl

theorem workerAt_adds_iff (options : WorkerOptions I B) (n : Nat) :
    (∃ worker, workerAt options n = .ok worker ∧ worker.Adds options.given.all) ↔
      Mergeable (options.givenClients.after n) ∧ options.givenClients.KeptAt workflowOf n ∧
      options.givenClients.KeptAt scheduleOf n ∧ options.givenClients.all.flatMap ClientInterceptors.nexusOf = [] ∧
      options.givenClients.KeptAloneAt ClientInterceptors.activityOf n ∧
      options.given.KeptAt WorkerInterceptors.activityOf n ∧
      options.given.KeptAloneAt WorkerInterceptors.activityInboundOf n ∧
      options.given.KeptAt WorkerInterceptors.nexusOf n ∧
      (options.usesWorkflowsPath = true →
        WorkerInterceptors.workflowModulesOf options.interceptors ++
          includedModules options.workflowsPath (options.pluginsAfter n) =
            options.given.all.flatMap WorkerInterceptors.workflowModulesOf) := by
  rcases workerAt_outcome options n with ⟨out, hworker, hout⟩
  rw [hworker]
  cases out with
  | error e =>
    rw [options.givenClients_after]
    refine ⟨?_, fun h => absurd h.1 hout⟩
    rintro ⟨worker, ⟨⟩, -⟩
  | ok configured =>
    rcases hout with ⟨⟨hmergeable, hmerged⟩, hpath, hbundle⟩
    have hclient := hmerged.client
    rw [← options.givenClients_after] at hmergeable hclient
    have huses : (addDefaultWorkerOptions configured).usesWorkflowsPath = options.usesWorkflowsPath := by
      simp only [Worker.usesWorkflowsPath, addDefaultWorkerOptions, hpath, hbundle, WorkerOptions.usesWorkflowsPath]
    simp only [Given.KeptAt, Given.KeptAloneAt]
    rw [← hclient.workflow, ← hclient.schedule, ← hclient.activity, ← hmerged.activity, ← hmerged.activityInbound,
      ← hmerged.nexus, ← hmerged.workflowModules, ← huses]
    constructor
    · rintro ⟨worker, hworker, hadds⟩
      cases hworker
      refine ⟨hmergeable, ?_, ?_, ?_, ?_, hadds.activity, hadds.activityInbound, hadds.nexus, hadds.workflowModules⟩
      · rw [← givenClients_flatMap, ← hadds.clientWorkflow, addDefaultWorkerOptions_workflowOf]
      · rw [← givenClients_flatMap, ← hadds.clientSchedule]
        rfl
      · rw [← givenClients_flatMap, ← hadds.clientNexus]
        rfl
      · rw [← givenClients_flatMap, ← hadds.clientActivity]
        rfl
    · rintro ⟨-, hworkflow, hschedule, hclientNexus, hclientActivity, hactivity, hinbound, hnexus, hmodules⟩
      refine ⟨_, rfl, ?_, ?_, ?_, ?_, hactivity, hinbound, hnexus, hmodules⟩
      · rw [givenClients_flatMap, ← hworkflow, addDefaultWorkerOptions_workflowOf]
      · rw [givenClients_flatMap, ← hschedule]
        rfl
      · rw [givenClients_flatMap, hclientNexus]
        rfl
      · rw [givenClients_flatMap, ← hclientActivity]
        rfl

theorem workers_add_iff (options : WorkerOptions I B) :
    (∀ n, ∃ worker, workerAt options n = .ok worker ∧ worker.Adds options.given.all) ↔ WorkersAdd options := by
  have hmodules : (∀ _ : Nat, options.usesWorkflowsPath = true → _) ↔ _ :=
    ⟨fun h huses => (workflowModules_iff options huses).1 fun n => h n huses,
      fun h n huses => (workflowModules_iff options huses).2 (h huses) n⟩
  simp only [workerAt_adds_iff, forall_and, forall_const]
  rw [Given.mergeable_iff, Given.keptAt_iff, Given.keptAt_iff, Given.keptAloneAt_iff _ rfl, Given.keptAt_iff,
    Given.keptAloneAt_iff _ rfl, Given.keptAt_iff, hmodules]
  exact ⟨fun ⟨h₁, h₂, h₃, h₄, h₅, h₆, h₇, h₈, h₉⟩ => ⟨h₁, h₂, h₃, h₄, h₅, h₆, h₇, h₈, h₉⟩,
    fun h => ⟨h.modern, h.clientWorkflow, h.clientSchedule, h.clientNexus, h.clientActivity, h.activity,
      h.activityInbound, h.nexus, h.workflowModules⟩⟩

/-- Every client and every worker made from an options object has the user's interceptors followed by
each plugin's, exactly for the options that are described. -/
theorem plugins_add_iff :
    (∀ options : ClientOptions I B,
      (∀ n, ∃ client, clientAt options n = .ok client ∧ client.Adds options.given.all) ↔ ClientsAdd options) ∧
    (∀ options : WorkerOptions I B,
      (∀ n, ∃ worker, workerAt options n = .ok worker ∧ worker.Adds options.given.all) ↔ WorkersAdd options) :=
  ⟨clients_add_iff, workers_add_iff⟩

section Losses

def clientPlugin (client : ClientInterceptors String) : SimplePluginOptions String Unit := ⟨some client, none, none, none⟩

def workerPlugin (path : Option String) (worker : WorkerInterceptors String) : SimplePluginOptions String Unit :=
  ⟨none, path, none, some worker⟩

/-- The user and a plugin both have an activity interceptor. -/
def mergingOptions : ClientOptions String Unit where
  interceptors := some ⟨none, none, none, some ["user"]⟩
  plugins := some [clientPlugin ⟨none, none, none, some ["plugin"]⟩]
  connectionPlugins := none

/-- The connection has a plugin with a schedule interceptor. -/
def sharedOptions : ClientOptions String Unit where
  interceptors := none
  plugins := none
  connectionPlugins := some [clientPlugin ⟨none, some ["plugin"], none, none⟩]

/-- A user with a deprecated activity interceptor, a plugin with workflow modules and one with the path. -/
def lateOptions : WorkerOptions String Unit where
  interceptors := some ⟨none, none, some ["user"], none, none⟩
  workflowsPath := none
  workflowBundle := none
  plugins := some [workerPlugin none ⟨none, none, none, none, some ["modules"]⟩,
    workerPlugin (some "workflows") ⟨none, none, none, none, none⟩]
  connectionPlugins := none

theorem plugins_not_only_add :
    clientAt mergingOptions 0 = .ok ⟨.list [], [], [], []⟩ ∧
    ¬ (⟨.list [], [], [], []⟩ : Client String).Adds mergingOptions.given.all ∧
    clientAt sharedOptions 1 = .ok ⟨.list [], ["plugin", "plugin"], [], []⟩ ∧
    ¬ (⟨.list [], ["plugin", "plugin"], [], []⟩ : Client String).Adds sharedOptions.given.all ∧
    ∃ worker, workerAt lateOptions 0 = .ok worker ∧ worker.activityInbound = [] ∧ worker.workflowModules = [] ∧
      ¬ worker.Adds lateOptions.given.all := by
  refine ⟨rfl, fun h => ?_, rfl, fun h => ?_, _, rfl, rfl, rfl, fun h => ?_⟩
  · exact absurd h.activity (by decide)
  · exact absurd h.schedule (by decide)
  · exact absurd h.activityInbound (by decide)

end Losses

end TemporalSdk.Plugin
