import TemporalSdk.EnvConfig.TomlRoundTrip

/-!
# Overrides — a profile of a file under an environment

The environment is merged into the profile of the file, setting by setting, before the profile is converted.  Names
of headers are normalised in both steps, and that a credential is not given twice is checked in the last one.
-/

namespace TemporalSdk.EnvConfig

open Machine

variable {D : Type} (lower : String → String)

/-! ## The environment -/

/-- The variables, in the order of `Object.entries`.  A variable may be there and be `undefined`. -/
abbrev EnvProvider := JsObject (Option JsText)

def envVar (env : EnvProvider) (name : String) : Option JsText := (env.get? name).join

def envVarToBool (envVar : Option JsText) : Option Bool :=
  envVar.map fun value => value = JsText.ofString "1" || value = JsText.ofString "true"

/-- What the variables say of TLS. -/
def tlsConfigOf (env : EnvProvider) : TomlClientConfigTLS where
  disabled := (envVarToBool (envVar env "TEMPORAL_TLS")).map (!·)
  clientCertPath := envVar env "TEMPORAL_TLS_CLIENT_CERT_PATH"
  clientCertData := envVar env "TEMPORAL_TLS_CLIENT_CERT_DATA"
  clientKeyPath := envVar env "TEMPORAL_TLS_CLIENT_KEY_PATH"
  clientKeyData := envVar env "TEMPORAL_TLS_CLIENT_KEY_DATA"
  serverCaCertPath := envVar env "TEMPORAL_TLS_SERVER_CA_CERT_PATH"
  serverCaCertData := envVar env "TEMPORAL_TLS_SERVER_CA_CERT_DATA"
  serverName := envVar env "TEMPORAL_TLS_SERVER_NAME"
  disableHostVerification := envVarToBool (envVar env "TEMPORAL_TLS_DISABLE_HOST_VERIFICATION")

def getTLSFromEnvVars (env : EnvProvider) : Option TomlClientConfigTLS :=
  if ((tlsConfigOf env).render (D := Empty)).isEmpty then none else some (tlsConfigOf env)

def getCodecFromEnvVars (env : EnvProvider) : Option TomlClientConfigCodec :=
  let codec : TomlClientConfigCodec := ⟨envVar env "TEMPORAL_CODEC_ENDPOINT", envVar env "TEMPORAL_CODEC_AUTH"⟩
  if (codec.render (D := Empty)).isEmpty then none else some codec

/-- `{ ...profile.tls, ...tlsFromEnv }` -/
def TomlClientConfigTLS.override (tls fromEnv : TomlClientConfigTLS) : TomlClientConfigTLS where
  disabled := fromEnv.disabled.or tls.disabled
  clientCertPath := fromEnv.clientCertPath.or tls.clientCertPath
  clientCertData := fromEnv.clientCertData.or tls.clientCertData
  clientKeyPath := fromEnv.clientKeyPath.or tls.clientKeyPath
  clientKeyData := fromEnv.clientKeyData.or tls.clientKeyData
  serverCaCertPath := fromEnv.serverCaCertPath.or tls.serverCaCertPath
  serverCaCertData := fromEnv.serverCaCertData.or tls.serverCaCertData
  serverName := fromEnv.serverName.or tls.serverName
  disableHostVerification := fromEnv.disableHostVerification.or tls.disableHostVerification

def TomlClientConfigCodec.override (codec fromEnv : TomlClientConfigCodec) : TomlClientConfigCodec where
  endpoint := fromEnv.endpoint.or codec.endpoint
  auth := fromEnv.auth.or codec.auth

/-- `file || fromEnv ? { ...file, ...fromEnv } : undefined` -/
def merge {α : Type} (override : α → α → α) : Option α → Option α → Option α
  | none, none => none
  | some file, none => some file
  | none, some fromEnv => some fromEnv
  | some file, some fromEnv => some (override file fromEnv)

def PREFIX : String := "TEMPORAL_GRPC_META_"

/-- The header that a variable is for. -/
def headerOf (key : String) : Option String :=
  if PREFIX.toList.isPrefixOf key.toList then
    some (normalizeGrpcMetaKey lower (String.ofList (key.toList.drop PREFIX.length)))
  else none

/-- The value of a variable, unless it is `null`, `undefined` or empty. -/
def nonEmpty : Option JsText → Option JsText
  | none | some [] => none
  | some value => some value

/-- One turn of `applyGrpcMetaFromEnvVars`. -/
def applyGrpcMetaVar (grpcMeta : Option (JsObject JsText)) (e : String × Option JsText) : Option (JsObject JsText) :=
  match headerOf lower e.1 with
  | none => grpcMeta
  | some normalizedKey =>
    match nonEmpty e.2 with
    | none => some ((grpcMeta.getD JsObject.empty).delete normalizedKey)
    | some value => some ((grpcMeta.getD JsObject.empty).assign normalizedKey value)

def applyGrpcMetaFromEnvVars (grpcMeta : Option (JsObject JsText)) (env : EnvProvider) : Option (JsObject JsText) :=
  env.entries.foldl (applyGrpcMetaVar lower) grpcMeta

def applyProfileEnvVars (profile : TomlClientConfigProfile D) (env : EnvProvider) : TomlClientConfigProfile D where
  address := (envVar env "TEMPORAL_ADDRESS").or profile.address; namespace' :=
    (envVar env "TEMPORAL_NAMESPACE").or profile.namespace'
  apiKey := (envVar env "TEMPORAL_API_KEY").or profile.apiKey
  tls := merge TomlClientConfigTLS.override profile.tls (getTLSFromEnvVars env)
  codec := merge TomlClientConfigCodec.override profile.codec (getCodecFromEnvVars env)
  grpcMeta := applyGrpcMetaFromEnvVars lower profile.grpcMeta env
  ext := profile.ext

/-! ## Loading a profile -/

structure LoadClientProfileOptions where
  profile : Option JsText
  disableFile : Bool
  disableEnv : Bool
  configFileStrict : Bool

section Loading

variable (parse : JsText → Except LoadError (TomlTable D))

/-- `configData` is what the source was read as, if there is a file. -/
def tomlLoadClientConfig (configData : Option JsText) (configFileStrict : Bool) :
    Except LoadError (TomlClientConfig D) :=
  match configData with
  | some configData => loadFromTomlData parse configData configFileStrict
  | none => .ok ⟨some JsObject.empty⟩

def noProfile : TomlClientConfigProfile D := ⟨none, none, none, none, none, none, none⟩

/-- `tomlClientConfig.profile[profileName]` -/
def profileNamed (profile : JsObject (TomlClientConfigProfile D)) (profileName : JsText) :
    Option (TomlClientConfigProfile D) :=
  (profile.entries.find? fun e => JsText.ofString e.1 = profileName).map Prod.snd

def DEFAULT_CONFIG_FILE_PROFILE : JsText := JsText.ofString "default"

/-- The profile of the file. -/
def fileProfile (options : LoadClientProfileOptions) (configData : Option JsText) (env : EnvProvider) :
    Except LoadError (TomlClientConfigProfile D) :=
  if options.disableFile then .ok noProfile
  else do
    let tomlClientConfig ← tomlLoadClientConfig parse configData options.configFileStrict
    let profileName := options.profile.or (envVar env "TEMPORAL_PROFILE")
    match tomlClientConfig.profile with
    | none =>
      .error (.thrown ("Cannot read properties of undefined (reading '" ++
        String.ofList (JsText.scalarValues (profileName.getD DEFAULT_CONFIG_FILE_PROFILE)) ++ "')"))
    | some profile =>
      match profileNamed profile (profileName.getD DEFAULT_CONFIG_FILE_PROFILE) with
      | some tomlProfile => .ok tomlProfile
      | none =>
        if (profileName.getD []) ≠ [] then
          .error (.thrown ("Profile '" ++ String.ofList (JsText.scalarValues (profileName.getD [])) ++
            "' not found in config data"))
        else .ok noProfile

def tomlLoadClientConfigProfile (options : LoadClientProfileOptions) (configData : Option JsText)
    (env : EnvProvider) : Except LoadError (TomlClientConfigProfile D) :=
  if options.disableEnv && options.disableFile then
    .error (.thrown "Cannot disable both file and environment loading")
  else do
    let profile ← fileProfile parse options configData env
    return if options.disableEnv then profile else applyProfileEnvVars lower profile env

def loadClientConfigProfile (options : LoadClientProfileOptions) (configData : Option JsText) (env : EnvProvider) :
    Except LoadError (ClientConfigProfile D) := do
  let profile ← tomlLoadClientConfigProfile lower parse options configData env
  fromTomlProfile lower profile

end Loading

/-! ## Settings of TLS -/

inductive Credential where
  | clientCert
  | clientKey
  | serverCACert
deriving DecidableEq

namespace Credential

def pathVar : Credential → String
  | clientCert => "TEMPORAL_TLS_CLIENT_CERT_PATH"
  | clientKey => "TEMPORAL_TLS_CLIENT_KEY_PATH"
  | serverCACert => "TEMPORAL_TLS_SERVER_CA_CERT_PATH"

def dataVar : Credential → String
  | clientCert => "TEMPORAL_TLS_CLIENT_CERT_DATA"
  | clientKey => "TEMPORAL_TLS_CLIENT_KEY_DATA"
  | serverCACert => "TEMPORAL_TLS_SERVER_CA_CERT_DATA"

def path (tls : TomlClientConfigTLS) : Credential → Option JsText
  | clientCert => tls.clientCertPath
  | clientKey => tls.clientKeyPath
  | serverCACert => tls.serverCaCertPath

def data (tls : TomlClientConfigTLS) : Credential → Option JsText
  | clientCert => tls.clientCertData
  | clientKey => tls.clientKeyData
  | serverCACert => tls.serverCaCertData

def source (tls : ClientConfigTLS) : Credential → Option ConfigDataSource
  | clientCert => tls.clientCert
  | clientKey => tls.clientKey
  | serverCACert => tls.serverCACert

variable (c : Credential)

theorem path_override (tls fromEnv : TomlClientConfigTLS) :
    path (tls.override fromEnv) c = (path fromEnv c).or (path tls c) := by
  cases c <;> rfl

theorem data_override (tls fromEnv : TomlClientConfigTLS) :
    data (tls.override fromEnv) c = (data fromEnv c).or (data tls c) := by
  cases c <;> rfl

theorem path_tlsConfigOf (env : EnvProvider) : path (tlsConfigOf env) c = envVar env c.pathVar := by
  cases c <;> rfl

theorem data_tlsConfigOf (env : EnvProvider) : data (tlsConfigOf env) c = envVar env c.dataVar := by
  cases c <;> rfl

end Credential

theorem exclusive_iff (tls : TomlClientConfigTLS) :
    tls.Exclusive ↔ ∀ c, ¬ ((Credential.path tls c).isSome ∧ (Credential.data tls c).isSome) := by
  constructor
  · intro h c
    cases c with
    | clientCert => exact h.clientCert
    | clientKey => exact h.clientKey
    | serverCACert => exact h.serverCACert
  · intro h
    exact ⟨h Credential.clientCert, h Credential.clientKey, h Credential.serverCACert⟩

theorem isText_iff (tls : TomlClientConfigTLS) :
    tls.IsText ↔ ∀ c, ∀ data ∈ Credential.data tls c, JsText.WellFormed data := by
  constructor
  · intro h c
    cases c with
    | clientCert => exact h.clientCert
    | clientKey => exact h.clientKey
    | serverCACert => exact h.serverCACert
  · intro h
    exact ⟨h Credential.clientCert, h Credential.clientKey, h Credential.serverCACert⟩

/-- A setting of TLS, which is absent where nothing is set, and which is overridden like every setting. -/
structure Setting {α : Type} (f : TomlClientConfigTLS → Option α) : Prop where
  absent : f ⟨none, none, none, none, none, none, none, none, none⟩ = none
  override : ∀ tls fromEnv, f (tls.override fromEnv) = (f fromEnv).or (f tls)

variable {tls : TomlClientConfigTLS}

theorem render_isEmpty (h : (tls.render (D := Empty)).isEmpty = true) :
    tls = ⟨none, none, none, none, none, none, none, none, none⟩ := by
  have hnil : tls.render (D := Empty) = [] := List.isEmpty_iff.mp h
  have hread := asTLS_render (D := Empty) tls
  rw [hnil] at hread
  exact (Option.some.inj hread).symm

theorem Setting.merged {α : Type} {f : TomlClientConfigTLS → Option α} (hf : Setting f)
    (tls : Option TomlClientConfigTLS) (env : EnvProvider) :
    (merge TomlClientConfigTLS.override tls (getTLSFromEnvVars env)).bind f =
      (f (tlsConfigOf env)).or (tls.bind f) := by
  unfold getTLSFromEnvVars
  split
  · rename_i hempty
    rw [render_isEmpty hempty, hf.absent]
    cases tls <;> rfl
  · cases tls with
    | none => exact Option.or_none.symm
    | some tls => exact hf.override tls _

theorem setting_path (c : Credential) : Setting fun tls => Credential.path tls c where
  absent := by cases c <;> rfl
  override := Credential.path_override c

theorem setting_data (c : Credential) : Setting fun tls => Credential.data tls c where
  absent := by cases c <;> rfl
  override := Credential.data_override c

theorem setting_disabled : Setting TomlClientConfigTLS.disabled := ⟨rfl, fun _ _ => rfl⟩

theorem setting_serverName : Setting TomlClientConfigTLS.serverName := ⟨rfl, fun _ _ => rfl⟩

/-- The source of a credential that is given by a path or by data. -/
def given (path data : Option JsText) : Option ConfigDataSource :=
  (data.map fun data => .bytes (JsText.utf8 data)).or (path.map ConfigDataSource.path)

theorem toConfigDataSource_eq_given {path data : Option JsText} (h : ∀ d ∈ data, JsText.WellFormed d)
    {fieldName : String} {source : Option ConfigDataSource} (hok : toConfigDataSource path data fieldName = .ok source) :
    source = given path data ∧ ¬ (path.isSome ∧ data.isSome) := by
  have hexclusive := (toConfigDataSource_succeeds_iff h path fieldName).mp ⟨source, hok⟩
  refine ⟨?_, hexclusive⟩
  cases data with
  | none =>
    cases path <;> cases hok <;> rfl
  | some d =>
    cases path with
    | some p => exact absurd ⟨rfl, rfl⟩ hexclusive
    | none =>
      rw [toConfigDataSource, encode_text (h d rfl)] at hok
      cases hok
      rfl

theorem of_fromTomlTLS {config : ClientConfigTLS} (htext : tls.IsText)
    (h : fromTomlTLS tls = .ok config) : config.disabled = tls.disabled ∧ config.serverName = tls.serverName ∧
      ∀ c, Credential.source config c = given (Credential.path tls c) (Credential.data tls c) := by
  rcases (bind_ok_iff _ _ _).mp h with ⟨cert, hcert, h⟩
  rcases (bind_ok_iff _ _ _).mp h with ⟨key, hkey, h⟩
  rcases (bind_ok_iff _ _ _).mp h with ⟨ca, hca, h⟩
  cases h
  refine ⟨rfl, rfl, fun c => ?_⟩
  cases c with
  | clientCert => exact (toConfigDataSource_eq_given htext.clientCert hcert).1
  | clientKey => exact (toConfigDataSource_eq_given htext.clientKey hkey).1
  | serverCACert => exact (toConfigDataSource_eq_given htext.serverCACert hca).1

theorem given_or {envPath envData path data : Option JsText}
    (h : ¬ ((envPath.or path).isSome ∧ (envData.or data).isSome)) :
    given (envPath.or path) (envData.or data) = (given envPath envData).or (given path data) := by
  cases envPath with
  | none =>
    cases envData with
    | none => rfl
    | some d =>
      cases path with
      | none => rfl
      | some p => exact absurd ⟨rfl, rfl⟩ h
  | some p =>
    cases envData with
    | none =>
      cases data with
      | none => rfl
      | some d => exact absurd ⟨rfl, rfl⟩ h
    | some d => exact absurd ⟨rfl, rfl⟩ h

/-! ## Headers -/

section Headers

variable {lower : String → String}

/-- Names are normalised once and for all. -/
def Idempotent (lower : String → String) : Prop :=
  ∀ key, normalizeGrpcMetaKey lower (normalizeGrpcMetaKey lower key) = normalizeGrpcMetaKey lower key

/-- The headers of a profile, under the names that they are given. -/
def headersOf (grpcMeta : Option (JsObject JsText)) : List (String × JsText) := (grpcMeta.map JsObject.entries).getD []

/-- The last of the headers whose names are normalised to this one. -/
def headerValue (lower : String → String) (headers : List (String × JsText)) (name : String) : Option JsText :=
  ((headers.filter fun e => normalizeGrpcMetaKey lower e.1 = name).getLast?).map Prod.snd

/-- The value of the last variable for a header, if there is one. -/
def envHeader (lower : String → String) (env : EnvProvider) (name : String) : Option (Option JsText) :=
  ((env.entries.filter fun e => headerOf lower e.1 = some name).getLast?).map Prod.snd

theorem of_headerOf {key name : String} (h : headerOf lower key = some name) :
    ∃ header, name = normalizeGrpcMetaKey lower header := by
  unfold headerOf at h
  split at h
  · exact ⟨_, (Option.some.inj h).symm⟩
  · exact nomatch h

theorem get?_normalizeGrpcMeta (grpcMeta : JsObject JsText) (name : String) :
    (normalizeGrpcMeta lower grpcMeta).get? name = headerValue lower grpcMeta.entries name := by
  by_cases hproto : name = "__proto__"
  · have hfilter : grpcMeta.entries.filter (fun e => normalizeGrpcMetaKey lower e.1 = name) = [] := by
      rw [List.filter_eq_nil_iff]
      intro e _ he
      exact normalizeGrpcMetaKey_ne_proto e.1 ((of_decide_eq_true he).trans hproto)
    rw [headerValue, hfilter, hproto]
    exact JsObject.get?_assignAll_proto _ _ rfl
  · rw [normalizeGrpcMeta, JsObject.get?_assignAll _ _ (Or.inl hproto), headerValue, List.getLast?_filter,
      ← List.map_reverse, List.find?_map, Option.map_map]
    exact Option.or_none

theorem headerValue_eq_get? {grpcMeta : JsObject JsText} {name : String}
    (hname : normalizeGrpcMetaKey lower name = name)
    (h : ∀ e ∈ grpcMeta.entries, normalizeGrpcMetaKey lower e.1 = name → e.1 = name) :
    headerValue lower grpcMeta.entries name = grpcMeta.get? name := by
  unfold headerValue
  cases hlast : (grpcMeta.entries.filter fun e => normalizeGrpcMetaKey lower e.1 = name).getLast? with
  | none =>
    cases hget : grpcMeta.get? name with
    | none => rfl
    | some value =>
      have hnil := List.filter_eq_nil_iff.mp (List.getLast?_eq_none_iff.mp hlast)
      exact (hnil (name, value) (JsObject.mem_entries_iff.mpr hget) (decide_eq_true hname)).elim
  | some e =>
    rcases List.mem_filter.mp (List.mem_of_getLast? hlast) with ⟨hmem, he⟩
    have hkey := h e hmem (of_decide_eq_true he)
    rw [Option.map_some, ← JsObject.mem_entries_iff.mp hmem, hkey]

theorem filter_applyGrpcMetaVar {p : String → Bool} {e : String × Option JsText}
    (h : ∀ key, headerOf lower e.1 = some key → p key = false) (grpcMeta : Option (JsObject JsText)) :
    (headersOf (applyGrpcMetaVar lower grpcMeta e)).filter (fun x => p x.1) =
      (headersOf grpcMeta).filter fun x => p x.1 := by
  have hgetD : headersOf grpcMeta = (grpcMeta.getD JsObject.empty).entries := by cases grpcMeta <;> rfl
  rw [hgetD]
  unfold applyGrpcMetaVar
  split
  · rw [hgetD]
  · rename_i key hkey
    split
    · exact JsObject.filter_delete _ (h key hkey)
    · exact JsObject.filter_assign _ _ (h key hkey)

theorem filter_applyGrpcMetaFromEnvVars {p : String → Bool} {env : EnvProvider}
    (h : ∀ e ∈ env.entries, ∀ key, headerOf lower e.1 = some key → p key = false)
    (grpcMeta : Option (JsObject JsText)) :
    (headersOf (applyGrpcMetaFromEnvVars lower grpcMeta env)).filter (fun x => p x.1) =
      (headersOf grpcMeta).filter fun x => p x.1 := by
  unfold applyGrpcMetaFromEnvVars
  generalize env.entries = vars at h
  induction vars generalizing grpcMeta with
  | nil => rfl
  | cons e vars ih =>
    have hrest := ih (applyGrpcMetaVar lower grpcMeta e) fun x hx => h x (List.mem_cons_of_mem e hx)
    exact hrest.trans (filter_applyGrpcMetaVar (h e List.mem_cons_self) grpcMeta)

/-- What a variable sets or deletes. -/
theorem get?_applyGrpcMetaVar (grpcMeta : Option (JsObject JsText)) (e : String × Option JsText) (name : String) :
    (applyGrpcMetaVar lower grpcMeta e).bind (·.get? name) =
      if headerOf lower e.1 = some name then nonEmpty e.2 else grpcMeta.bind (·.get? name) := by
  have hgetD : (grpcMeta.getD JsObject.empty).get? name = grpcMeta.bind (·.get? name) := by cases grpcMeta <;> rfl
  unfold applyGrpcMetaVar
  split
  · rename_i hnone
    rw [hnone, if_neg (nofun)]
  · rename_i key hkey
    rcases of_headerOf hkey with ⟨header, hheader⟩
    have hproto : key ≠ "__proto__" := hheader ▸ normalizeGrpcMetaKey_ne_proto header
    rw [hkey]
    split
    · rename_i hvalue
      rw [Option.bind_some, JsObject.get?_delete, hgetD, hvalue]
      by_cases hname : name = key
      · rw [if_pos hname, if_pos (congrArg some hname.symm)]
      · rw [if_neg hname, if_neg fun h => hname (Option.some.inj h).symm]
    · rename_i value hvalue
      rw [Option.bind_some, JsObject.get?_assign, hgetD, hvalue]
      by_cases hname : name = key
      · rw [if_pos ⟨hname, Or.inl hproto⟩, if_pos (congrArg some hname.symm)]
      · rw [if_neg fun h => hname h.1, if_neg fun h => hname (Option.some.inj h).symm]

theorem get?_applyGrpcMetaFromEnvVars (grpcMeta : Option (JsObject JsText)) (env : EnvProvider) (name : String) :
    (applyGrpcMetaFromEnvVars lower grpcMeta env).bind (·.get? name) =
      match envHeader lower env name with
      | some value => nonEmpty value
      | none => grpcMeta.bind (·.get? name) := by
  unfold applyGrpcMetaFromEnvVars envHeader
  generalize env.entries = vars
  induction vars using List.reverseRecOn with
  | nil => rfl
  | append_singleton vars e ih =>
    rw [List.foldl_append, List.foldl_cons, List.foldl_nil, get?_applyGrpcMetaVar, ih, List.filter_append,
      List.getLast?_append]
    by_cases hname : headerOf lower e.1 = some name
    · rw [if_pos hname, List.filter_cons, if_pos (decide_eq_true hname)]
      rfl
    · rw [if_neg hname, List.filter_cons, if_neg fun h => hname (of_decide_eq_true h)]
      rfl

/-- A header of the profile that is loaded: where the environment sets it, the file may not spell it otherwise. -/
theorem header_overridden (hlower : Idempotent lower) (grpcMeta : Option (JsObject JsText)) (env : EnvProvider)
    {name : String} (h : envHeader lower env name = none ∨
      ∀ e ∈ headersOf grpcMeta, normalizeGrpcMetaKey lower e.1 = name → e.1 = name) :
    ((applyGrpcMetaFromEnvVars lower grpcMeta env).map (normalizeGrpcMeta lower)).bind (·.get? name) =
      match envHeader lower env name with
      | some value => nonEmpty value
      | none => headerValue lower (headersOf grpcMeta) name := by
  have hnormal : ∀ {key header : String}, headerOf lower key = some header →
      normalizeGrpcMetaKey lower header = header := by
    intro key header hkey
    rcases of_headerOf hkey with ⟨x, rfl⟩
    exact hlower x
  have hvalue : ((applyGrpcMetaFromEnvVars lower grpcMeta env).map (normalizeGrpcMeta lower)).bind (·.get? name) =
      headerValue lower (headersOf (applyGrpcMetaFromEnvVars lower grpcMeta env)) name := by
    cases applyGrpcMetaFromEnvVars lower grpcMeta env with
    | none => rfl
    | some o => exact get?_normalizeGrpcMeta o name
  rw [hvalue]
  cases henv : envHeader lower env name with
  | none =>
    -- No variable is for this header, so that all headers of this name are as they were.
    have hothers : ∀ e ∈ env.entries, ∀ key, headerOf lower e.1 = some key →
        decide (normalizeGrpcMetaKey lower key = name) = false := by
      intro e he key hkey
      rw [decide_eq_false_iff_not, hnormal hkey]
      rintro rfl
      have hnil := List.filter_eq_nil_iff.mp (List.getLast?_eq_none_iff.mp (Option.map_eq_none_iff.mp henv))
      exact hnil e he (decide_eq_true hkey)
    have hfilter := filter_applyGrpcMetaFromEnvVars (p := fun key => decide (normalizeGrpcMetaKey lower key = name))
      hothers grpcMeta
    rw [headerValue, hfilter, headerValue]
  | some value =>
    have hspelled := h.resolve_left (by rw [henv]; nofun)
    rcases Option.map_eq_some_iff.mp henv with ⟨var, hvar, _⟩
    have hname : normalizeGrpcMetaKey lower name = name :=
      hnormal (of_decide_eq_true (List.mem_filter.mp (List.mem_of_getLast? hvar)).2)
    -- Variables are for names in normal form, so that no other spelling of the name comes in.
    have hothers : ∀ e ∈ env.entries, ∀ key, headerOf lower e.1 = some key →
        (decide (normalizeGrpcMetaKey lower key = name) && decide (key ≠ name)) = false := by
      intro e he key hkey
      rw [hnormal hkey]
      by_cases hkn : key = name <;> simp [hkn]
    have hfilter := filter_applyGrpcMetaFromEnvVars
      (p := fun key => decide (normalizeGrpcMetaKey lower key = name) && decide (key ≠ name)) hothers grpcMeta
    have hspelled' : ∀ e ∈ headersOf (applyGrpcMetaFromEnvVars lower grpcMeta env),
        normalizeGrpcMetaKey lower e.1 = name → e.1 = name := by
      intro e he hkey
      by_contra hne
      have hmem : e ∈ (headersOf grpcMeta).filter
          fun x => decide (normalizeGrpcMetaKey lower x.1 = name) && decide (x.1 ≠ name) :=
        hfilter ▸ List.mem_filter.mpr ⟨he, by simp [hkey, hne]⟩
      rcases List.mem_filter.mp hmem with ⟨hfile, _⟩
      exact hne (hspelled e hfile hkey)
    have hget := @get?_applyGrpcMetaFromEnvVars lower grpcMeta env name
    rw [henv] at hget
    cases happlied : applyGrpcMetaFromEnvVars lower grpcMeta env with
    | none =>
      rw [happlied] at hget
      exact hget
    | some o =>
      rw [happlied] at hget hspelled'
      exact (headerValue_eq_get? hname hspelled').trans hget

end Headers

/-! ## The profile that is loaded -/

section Loaded

variable {lower : String → String} {parse : JsText → Except LoadError (TomlTable D)}

variable {file : TomlClientConfigProfile D} {env : EnvProvider}

theorem loadClientConfigProfile_eq {options : LoadClientProfileOptions} {configData : Option JsText}
    (hfile : fileProfile parse options configData env = .ok file) (henabled : options.disableEnv = false) :
    loadClientConfigProfile lower parse options configData env =
      fromTomlProfile lower (applyProfileEnvVars lower file env) := by
  rw [loadClientConfigProfile, tomlLoadClientConfigProfile, henabled, hfile]
  rfl

/-- The data that a file and an environment give for credentials are text. -/
def CredentialsText (file : TomlClientConfigProfile D) (env : EnvProvider) : Prop :=
  ∀ c : Credential, (∀ data ∈ envVar env c.dataVar, JsText.WellFormed data) ∧
    ∀ data ∈ file.tls.bind (Credential.data · c), JsText.WellFormed data

/-- A credential gets a path from one source and data from the same source or the other. -/
def GivenTwice (file : TomlClientConfigProfile D) (env : EnvProvider) (c : Credential) : Prop :=
  ((envVar env c.pathVar).or (file.tls.bind (Credential.path · c))).isSome ∧
    ((envVar env c.dataVar).or (file.tls.bind (Credential.data · c))).isSome

theorem path_merged (file : TomlClientConfigProfile D) (env : EnvProvider) (c : Credential) :
    (applyProfileEnvVars lower file env).tls.bind (Credential.path · c) =
      (envVar env c.pathVar).or (file.tls.bind (Credential.path · c)) := by
  rw [← Credential.path_tlsConfigOf]
  exact (setting_path c).merged file.tls env

theorem data_merged (file : TomlClientConfigProfile D) (env : EnvProvider) (c : Credential) :
    (applyProfileEnvVars lower file env).tls.bind (Credential.data · c) =
      (envVar env c.dataVar).or (file.tls.bind (Credential.data · c)) := by
  rw [← Credential.data_tlsConfigOf]
  exact (setting_data c).merged file.tls env

theorem isText_merged (h : CredentialsText file env)
    (htls : (applyProfileEnvVars lower file env).tls = some tls) : tls.IsText := by
  rw [isText_iff]
  intro c data hdata
  have hmerged := @data_merged D lower file env c
  rw [htls] at hmerged
  have hor : (envVar env c.dataVar).or (file.tls.bind (Credential.data · c)) = some data := hmerged.symm.trans hdata
  rcases Option.or_eq_some_iff.mp hor with henv | ⟨_, hfile⟩
  · exact (h c).1 data henv
  · exact (h c).2 data hfile

/-- Loading fails only where a credential is given twice. -/
theorem succeeds_merged_iff (h : CredentialsText file env) :
    Succeeds (fromTomlProfile lower (applyProfileEnvVars lower file env)) ↔ ∀ c, ¬ GivenTwice file env c := by
  have hgiven : ∀ c, GivenTwice file env c ↔
      ((applyProfileEnvVars lower file env).tls.bind (Credential.path · c)).isSome ∧
        ((applyProfileEnvVars lower file env).tls.bind (Credential.data · c)).isSome := by
    intro c
    rw [GivenTwice, path_merged, data_merged]
  rw [fromTomlProfile_succeeds_iff]
  cases htls : (applyProfileEnvVars lower file env).tls with
  | none =>
    refine ⟨fun _ c hc => ?_, fun _ _ hsome => (Option.some_ne_none _ hsome.symm).elim⟩
    rw [hgiven, htls] at hc
    exact nomatch hc.1
  | some tls =>
    have hiff := fromTomlTLS_succeeds_iff (isText_merged h htls)
    constructor
    · intro hall c hc
      rw [hgiven, htls] at hc
      exact (exclusive_iff tls).mp (hiff.mp (hall tls rfl)) c hc
    · intro hnot tls' htls'
      cases htls'
      refine hiff.mpr ((exclusive_iff tls).mpr fun c hc => hnot c ?_)
      rw [hgiven, htls]
      exact hc

theorem of_fromTomlProfile {toml : TomlClientConfigProfile D} {profile : ClientConfigProfile D}
    (h : fromTomlProfile lower toml = .ok profile) : profile.address = toml.address ∧
      profile.namespace' = toml.namespace' ∧ profile.apiKey = toml.apiKey ∧
      profile.grpcMeta = toml.grpcMeta.map (normalizeGrpcMeta lower) ∧
      (toml.tls = none ∧ profile.tls = none ∨
        ∃ tls config, toml.tls = some tls ∧ profile.tls = some config ∧ fromTomlTLS tls = .ok config) := by
  rcases (bind_ok_iff _ _ _).mp h with ⟨config, hconfig, h⟩
  cases h
  refine ⟨rfl, rfl, rfl, rfl, ?_⟩
  cases htls : toml.tls with
  | none =>
    rw [htls] at hconfig
    cases hconfig
    exact Or.inl ⟨rfl, rfl⟩
  | some tls =>
    rw [htls, Option.mapM_some] at hconfig
    rcases (map_ok_iff _ _ _).mp hconfig with ⟨c, hc, rfl⟩
    exact Or.inr ⟨tls, c, rfl, rfl, hc⟩

/-- The settings of TLS in the profile that is loaded. -/
theorem tls_overridden (h : CredentialsText file env) {profile : ClientConfigProfile D}
    (hload : fromTomlProfile lower (applyProfileEnvVars lower file env) = .ok profile) :
    profile.tls.bind ClientConfigTLS.disabled =
        ((envVarToBool (envVar env "TEMPORAL_TLS")).map (!·)).or (file.tls.bind TomlClientConfigTLS.disabled) ∧
      profile.tls.bind ClientConfigTLS.serverName =
        (envVar env "TEMPORAL_TLS_SERVER_NAME").or (file.tls.bind TomlClientConfigTLS.serverName) ∧
      ∀ c : Credential, profile.tls.bind (Credential.source · c) =
        (given (envVar env c.pathVar) (envVar env c.dataVar)).or
          (given (file.tls.bind (Credential.path · c)) (file.tls.bind (Credential.data · c))) := by
  have hdisabled := setting_disabled.merged file.tls env
  have hserverName := setting_serverName.merged file.tls env
  have hsource : ∀ c : Credential, given ((applyProfileEnvVars lower file env).tls.bind (Credential.path · c))
      ((applyProfileEnvVars lower file env).tls.bind (Credential.data · c)) =
        (given (envVar env c.pathVar) (envVar env c.dataVar)).or
          (given (file.tls.bind (Credential.path · c)) (file.tls.bind (Credential.data · c))) := by
    intro c
    rw [path_merged, data_merged]
    exact given_or ((succeeds_merged_iff h).mp ⟨profile, hload⟩ c)
  rcases (of_fromTomlProfile hload).2.2.2.2 with ⟨hnone, hprofile⟩ | ⟨tls, config, htls, hprofile, hfrom⟩
  · refine ⟨?_, ?_, fun c => ?_⟩
    · rw [hprofile]
      exact (congrArg (Option.bind · TomlClientConfigTLS.disabled) hnone).symm.trans hdisabled
    · rw [hprofile]
      exact (congrArg (Option.bind · TomlClientConfigTLS.serverName) hnone).symm.trans hserverName
    · rw [hprofile, ← hsource c, hnone]
      rfl
  · rcases of_fromTomlTLS (isText_merged h htls) hfrom with ⟨hdis, hname, hsrc⟩
    refine ⟨?_, ?_, fun c => ?_⟩
    · rw [hprofile, Option.bind_some, hdis]
      exact (congrArg (Option.bind · TomlClientConfigTLS.disabled) htls).symm.trans hdisabled
    · rw [hprofile, Option.bind_some, hname]
      exact (congrArg (Option.bind · TomlClientConfigTLS.serverName) htls).symm.trans hserverName
    · rw [hprofile, ← hsource c, htls]
      exact hsrc c

/-- The environment overrides the file, setting by setting, and loading fails exactly where a credential gets both
a path and data. -/
theorem environment_overrides (hlower : Idempotent lower) {options : LoadClientProfileOptions}
    {configData : Option JsText} {env : EnvProvider} {file : TomlClientConfigProfile D}
    (hfile : fileProfile parse options configData env = .ok file) (henabled : options.disableEnv = false)
    (htext : CredentialsText file env) :
    (Succeeds (loadClientConfigProfile lower parse options configData env) ↔ ∀ c, ¬ GivenTwice file env c) ∧
    ∀ profile, loadClientConfigProfile lower parse options configData env = .ok profile →
      profile.address = (envVar env "TEMPORAL_ADDRESS").or file.address ∧
      profile.namespace' = (envVar env "TEMPORAL_NAMESPACE").or file.namespace' ∧
      profile.apiKey = (envVar env "TEMPORAL_API_KEY").or file.apiKey ∧
      profile.tls.bind ClientConfigTLS.disabled =
        ((envVarToBool (envVar env "TEMPORAL_TLS")).map (!·)).or (file.tls.bind TomlClientConfigTLS.disabled) ∧
      profile.tls.bind ClientConfigTLS.serverName =
        (envVar env "TEMPORAL_TLS_SERVER_NAME").or (file.tls.bind TomlClientConfigTLS.serverName) ∧
      (∀ c : Credential, profile.tls.bind (Credential.source · c) =
        (given (envVar env c.pathVar) (envVar env c.dataVar)).or
          (given (file.tls.bind (Credential.path · c)) (file.tls.bind (Credential.data · c)))) ∧
      ∀ name, (envHeader lower env name = none ∨
          ∀ e ∈ headersOf file.grpcMeta, normalizeGrpcMetaKey lower e.1 = name → e.1 = name) →
        profile.grpcMeta.bind (·.get? name) =
          match envHeader lower env name with
          | some value => nonEmpty value
          | none => headerValue lower (headersOf file.grpcMeta) name := by
  rw [loadClientConfigProfile_eq hfile henabled]
  refine ⟨succeeds_merged_iff htext, fun profile hload => ?_⟩
  rcases of_fromTomlProfile hload with ⟨haddress, hnamespace, hapiKey, hmeta, _⟩
  rcases tls_overridden htext hload with ⟨hdisabled, hserverName, hsource⟩
  refine ⟨haddress, hnamespace, hapiKey, hdisabled, hserverName, hsource, fun name hname => ?_⟩
  rw [hmeta]
  exact header_overridden hlower file.grpcMeta env hname

/-! Two files under environments that set the certificate too. -/

/-- `toLocaleLowerCase`, for the letters of ASCII. -/
def lowerAscii (s : String) : String := String.ofList (s.toList.map Char.toLower)

theorem toLower_of_not_upper {c : Char} (h : ¬ (c.val ≥ 'A'.val ∧ c.val ≤ 'Z'.val)) : c.toLower = c := dif_neg h

theorem toLower_toLower (c : Char) : c.toLower.toLower = c.toLower := by
  by_cases h : c.val ≥ 'A'.val ∧ c.val ≤ 'Z'.val
  · apply toLower_of_not_upper
    have hval : c.toLower.val = c.val + ('a'.val - 'A'.val) := congrArg Char.val (dif_pos h)
    rw [hval]
    rintro ⟨_, hle⟩
    have hlow := UInt32.le_iff_toNat_le.mp h.1
    have hhigh := UInt32.le_iff_toNat_le.mp h.2
    have hsum := UInt32.le_iff_toNat_le.mp hle
    have hA : 'A'.val.toNat = 65 := rfl
    have hZ : 'Z'.val.toNat = 90 := rfl
    have hshift : ('a'.val - 'A'.val).toNat = 32 := rfl
    rw [UInt32.toNat_add, hshift] at hsum
    omega
  · rw [toLower_of_not_upper h, toLower_of_not_upper h]

theorem idempotent_lowerAscii : Idempotent lowerAscii := by
  intro key
  simp only [normalizeGrpcMetaKey, lowerAscii, String.toList_ofList, List.map_map]
  congr 1
  apply List.map_congr_left
  intro c _
  simp only [Function.comp_apply]
  by_cases h : c.toLower = '_'
  · rw [if_pos h]
    decide
  · rw [if_neg h, toLower_toLower, if_neg h]

def loadOptions : LoadClientProfileOptions := ⟨none, false, false, false⟩

def pathText : JsText := JsText.ofString "[profile.default.tls]\nclient_cert_path = \"some-path\"\n"

def pathProfile : TomlClientConfigProfile Empty :=
  { noProfile with
    tls := some ⟨none, some (JsText.ofString "some-path"), none, none, none, none, none, none, none⟩ }

def defaultOnly (profile : TomlClientConfigProfile Empty) : TomlClientConfig Empty :=
  ⟨some ⟨[("default", profile)], by simp [InOrder]⟩⟩

/-- A path in the file and data in the environment: both set the certificate, and loading fails. -/
theorem path_and_data_refused :
    loadClientConfigProfile lowerAscii (parseOnly pathText (defaultOnly pathProfile).render) loadOptions (some pathText)
        ⟨[("TEMPORAL_TLS_CLIENT_CERT_DATA", some (JsText.ofString "some-data"))], by simp [InOrder]⟩ =
      .error (.thrown "Cannot specify both client_cert_path and client_cert_data") := by
  rfl

def overriddenText : JsText :=
  JsText.ofString "[profile.default]\naddress = \"addr\"\n\n[profile.default.tls]\nclient_cert_path = \"some-path\"\n\n[profile.default.grpc_meta]\nx-a = \"1\"\n"

def overriddenProfile : TomlClientConfigProfile Empty :=
  { pathProfile with
    address := some (JsText.ofString "addr")
    grpcMeta := some ⟨[("x-a", JsText.ofString "1")], by simp [InOrder]⟩ }

def overriddenEnv : EnvProvider where
  entries := [("TEMPORAL_ADDRESS", some (JsText.ofString "env-addr")),
    ("TEMPORAL_TLS_CLIENT_CERT_PATH", some (JsText.ofString "env-path")), ("TEMPORAL_GRPC_META_X_A", some [])]
  ordered := by decide

theorem environment_overrides_path : ∃ profile,
    loadClientConfigProfile lowerAscii (parseOnly overriddenText (defaultOnly overriddenProfile).render) loadOptions
      (some overriddenText) overriddenEnv = .ok profile ∧ profile.address = some (JsText.ofString "env-addr") ∧
    profile.tls.bind (Credential.source · Credential.clientCert) = some (.path (JsText.ofString "env-path")) ∧
    profile.grpcMeta.bind (·.get? "x-a") = none := by
  have hfile : fileProfile (parseOnly overriddenText (defaultOnly overriddenProfile).render) loadOptions
      (some overriddenText) overriddenEnv = .ok overriddenProfile := by
    have hconfig : tomlLoadClientConfig (parseOnly overriddenText (defaultOnly overriddenProfile).render)
        (some overriddenText) loadOptions.configFileStrict = .ok (defaultOnly overriddenProfile) := by
      refine loadFromTomlData_declared (parseOnly_self _ _) (declared_render _) (asTomlClientConfig_render _) ?_ false
      intro p hp e he tls htls
      cases hp
      cases List.mem_singleton.mp he
      cases htls
      rfl
    rw [fileProfile, hconfig]
    rfl
  have htext : CredentialsText overriddenProfile overriddenEnv := by
    intro c
    cases c <;> exact ⟨nofun, nofun⟩
  have hoverrides := environment_overrides idempotent_lowerAscii hfile rfl htext
  have htwice : ∀ c, ¬ GivenTwice overriddenProfile overriddenEnv c := by
    intro c
    rw [GivenTwice]
    cases c <;> decide
  rcases hoverrides.1.mpr htwice with ⟨profile, hload⟩
  rcases hoverrides.2 profile hload with ⟨haddress, _, _, _, _, hsource, hheader⟩
  refine ⟨profile, hload, haddress, hsource Credential.clientCert, ?_⟩
  refine (hheader "x-a" (Or.inr ?_)).trans ?_
  · intro e he _
    cases List.mem_singleton.mp he
    rfl
  · rfl

end Loaded

end TemporalSdk.EnvConfig
