import TemporalSdk.Encoding.TextDecoder
import TemporalSdk.Machine.JsonTree
import TemporalSdk.Machine.Results

/-!
# Profiles — client configurations and TOML tables

A configuration is written as a table and read from one.  What a table declares is typed, and everything under
`ext` is left as it is.  Fields that are absent stand for `null` and `undefined`, so that
`filterNullAndUndefined` keeps a structure as it is.
-/

namespace TemporalSdk.EnvConfig

open Machine

/-- The error that is thrown, or a document that the model does not follow. -/
inductive LoadError where
  | thrown (message : String)
  | coder
  | untyped
deriving DecidableEq

/-! ## TOML -/

/-- The values of a document that are no tables and no arrays.  Nothing looks into numbers and dates. -/
inductive TomlLeaf (D : Type) where
  | string (text : JsText)
  | boolean (value : Bool)
  | number (value : D)
  | date (value : D)

abbrev Toml (D : Type) := JsonTree (TomlLeaf D)

/-- `TomlTable`, a property for each key. -/
abbrev TomlTable (D : Type) := List (String × Toml D)

structure TomlClientConfigTLS where
  disabled : Option Bool
  clientCertPath : Option JsText
  clientCertData : Option JsText
  clientKeyPath : Option JsText
  clientKeyData : Option JsText
  serverCaCertPath : Option JsText
  serverCaCertData : Option JsText
  serverName : Option JsText
  disableHostVerification : Option Bool
deriving DecidableEq

structure TomlClientConfigCodec where
  endpoint : Option JsText
  auth : Option JsText
deriving DecidableEq

structure TomlClientConfigProfile (D : Type) where
  (address namespace' apiKey : Option JsText)
  tls : Option TomlClientConfigTLS
  codec : Option TomlClientConfigCodec
  grpcMeta : Option (JsObject JsText)
  ext : Option (Toml D)

/-- A document need not have the table of profiles, although the type says so. -/
structure TomlClientConfig (D : Type) where
  profile : Option (JsObject (TomlClientConfigProfile D))

/-! ## Client configurations -/

inductive ConfigDataSource where
  | path (path : JsText)
  | text (data : JsText)
  | bytes (data : List UInt8)
deriving DecidableEq

structure ClientConfigTLS where
  disabled : Option Bool
  serverName : Option JsText
  clientCert : Option ConfigDataSource
  clientKey : Option ConfigDataSource
  serverCACert : Option ConfigDataSource
deriving DecidableEq

structure ClientConfigProfile (D : Type) where
  (address namespace' apiKey : Option JsText)
  tls : Option ClientConfigTLS
  grpcMeta : Option (JsObject JsText)
  ext : Option (Toml D)

structure ClientConfig (D : Type) where
  profiles : JsObject (ClientConfigProfile D)

/-! ## Text and bytes -/

def encode (s : JsText) : Except LoadError (List UInt8) :=
  match Encoding.encode s with
  | some bytes => .ok bytes
  | none => .error .coder

def decode (bytes : List UInt8) : Except LoadError JsText :=
  match Encoding.decode bytes with
  | some s => .ok s
  | none => .error .coder

theorem encode_text {s : JsText} (h : JsText.WellFormed s) : encode s = .ok (JsText.utf8 s) := by
  have hchars := Encoding.encode_ofChars (JsText.scalarValues s)
  rw [JsText.ofChars_scalarValues h] at hchars
  rw [encode, hchars]
  rfl

theorem decode_utf8 (cs : List Char) : decode (utf8 cs) = .ok (JsText.ofChars cs) := by
  rw [decode, Encoding.decode_utf8]

theorem decode_utf8_text {s : JsText} (h : JsText.WellFormed s) : decode (JsText.utf8 s) = .ok s := by
  rw [JsText.utf8, decode_utf8, JsText.ofChars_scalarValues h]

/-! ## From tables to configurations -/

section Conversions

variable {D : Type} (lower : String → String)

/-- `lower` is `toLocaleLowerCase`. -/
def normalizeGrpcMetaKey (key : String) : String :=
  String.ofList ((lower key).toList.map fun c => if c = '_' then '-' else c)

/-- The loop over the headers of a profile. -/
def normalizeGrpcMeta (grpcMeta : JsObject JsText) : JsObject JsText :=
  JsObject.empty.assignAll (grpcMeta.entries.map fun e => (normalizeGrpcMetaKey lower e.1, e.2))

def toConfigDataSource (path data : Option JsText) (fieldName : String) :
    Except LoadError (Option ConfigDataSource) :=
  match path, data with
  | some _, some _ =>
    .error (.thrown ("Cannot specify both " ++ fieldName ++ "_path and " ++ fieldName ++ "_data"))
  | none, some data => (fun bytes => some (.bytes bytes)) <$> encode data
  | some path, none => .ok (some (.path path))
  | none, none => .ok none

def fromTomlTLS (tomlTLS : TomlClientConfigTLS) : Except LoadError ClientConfigTLS := do
  let clientCert ← toConfigDataSource tomlTLS.clientCertPath tomlTLS.clientCertData "client_cert"
  let clientKey ← toConfigDataSource tomlTLS.clientKeyPath tomlTLS.clientKeyData "client_key"
  let serverCACert ← toConfigDataSource tomlTLS.serverCaCertPath tomlTLS.serverCaCertData "server_ca_cert"
  return ⟨tomlTLS.disabled, tomlTLS.serverName, clientCert, clientKey, serverCACert⟩

def fromTomlProfile (tomlProfile : TomlClientConfigProfile D) : Except LoadError (ClientConfigProfile D) := do
  let tls ← tomlProfile.tls.mapM fromTomlTLS
  return {
    address := tomlProfile.address, namespace' := tomlProfile.namespace'
    apiKey := tomlProfile.apiKey
    tls := tls
    grpcMeta := tomlProfile.grpcMeta.map (normalizeGrpcMeta lower)
    ext := tomlProfile.ext }

/-- The loop of `fromTomlConfig`. -/
def fromTomlProfiles : List (String × TomlClientConfigProfile D) → JsObject (ClientConfigProfile D) →
    Except LoadError (JsObject (ClientConfigProfile D))
  | [], profiles => .ok profiles
  | (profileName, profile) :: rest, profiles => do
    let clientProfile ← fromTomlProfile lower profile
    fromTomlProfiles rest (profiles.assign profileName clientProfile)

def fromTomlConfig (tomlConfig : TomlClientConfig D) : Except LoadError (ClientConfig D) :=
  match tomlConfig.profile with
  | none => .error (.thrown "Cannot convert undefined or null to object")
  | some profile => ClientConfig.mk <$> fromTomlProfiles lower profile.entries JsObject.empty

/-! ## From configurations to tables -/

/-- The path and the data of a source. -/
def toPathAndData : ConfigDataSource → Except LoadError (Option JsText × Option (List UInt8))
  | .path path => .ok (some path, none)
  | .text data => (fun bytes => (none, some bytes)) <$> encode data
  | .bytes data => .ok (none, some data)

/-- The path and the data of a source, which may be absent, as text. -/
def toTomlPathAndData (source : Option ConfigDataSource) : Except LoadError (Option JsText × Option JsText) := do
  match source with
  | none => return (none, none)
  | some source =>
    let (path, data) ← toPathAndData source
    return (path, ← data.mapM decode)

def toTomlTLS (tlsConfig : ClientConfigTLS) : Except LoadError TomlClientConfigTLS := do
  let clientCert ← toTomlPathAndData tlsConfig.clientCert
  let clientKey ← toTomlPathAndData tlsConfig.clientKey
  let serverCACert ← toTomlPathAndData tlsConfig.serverCACert
  return {
    disabled := tlsConfig.disabled
    clientCertPath := clientCert.1
    clientCertData := clientCert.2
    clientKeyPath := clientKey.1
    clientKeyData := clientKey.2
    serverCaCertPath := serverCACert.1
    serverCaCertData := serverCACert.2
    serverName := tlsConfig.serverName
    disableHostVerification := none }

def toTomlProfile (profile : ClientConfigProfile D) : Except LoadError (TomlClientConfigProfile D) := do
  let tls ← profile.tls.mapM toTomlTLS
  return {
    address := profile.address, namespace' := profile.namespace'
    apiKey := profile.apiKey
    tls := tls
    codec := none
    grpcMeta := profile.grpcMeta.map (normalizeGrpcMeta lower)
    ext := profile.ext }

/-- The loop of `toTomlConfig`. -/
def toTomlProfiles : List (String × ClientConfigProfile D) → JsObject (TomlClientConfigProfile D) →
    Except LoadError (JsObject (TomlClientConfigProfile D))
  | [], profile => .ok profile
  | (profileName, configProfile) :: rest, profile => do
    let tomlProfile ← toTomlProfile lower configProfile
    toTomlProfiles rest (profile.assign profileName tomlProfile)

def toTomlConfig (config : ClientConfig D) : Except LoadError (TomlClientConfig D) :=
  (fun profile => TomlClientConfig.mk (some profile)) <$> toTomlProfiles lower config.profiles.entries JsObject.empty

end Conversions

/-! ## Documents and their declared types -/

section Documents

variable {D : Type}

/-- The properties that are not absent. -/
def table (props : List (String × Option (Toml D))) : TomlTable D :=
  props.filterMap fun e => e.2.map (Prod.mk e.1)

def ofText (text : JsText) : Toml D := .leaf (.string text)

def ofBool (value : Bool) : Toml D := .leaf (.boolean value)

def TomlClientConfigTLS.render (tls : TomlClientConfigTLS) : TomlTable D :=
  table [("disabled", tls.disabled.map ofBool), ("server_name", tls.serverName.map ofText),
    ("client_cert_path", tls.clientCertPath.map ofText), ("client_cert_data", tls.clientCertData.map ofText),
    ("client_key_path", tls.clientKeyPath.map ofText), ("client_key_data", tls.clientKeyData.map ofText),
    ("server_ca_cert_path", tls.serverCaCertPath.map ofText), ("server_ca_cert_data", tls.serverCaCertData.map ofText),
    ("disable_host_verification", tls.disableHostVerification.map ofBool)]

def TomlClientConfigCodec.render (codec : TomlClientConfigCodec) : TomlTable D :=
  table [("endpoint", codec.endpoint.map ofText), ("auth", codec.auth.map ofText)]

def renderGrpcMeta (grpcMeta : JsObject JsText) : TomlTable D :=
  grpcMeta.entries.map fun e => (e.1, ofText e.2)

def TomlClientConfigProfile.render (profile : TomlClientConfigProfile D) : TomlTable D :=
  table [("address", profile.address.map ofText), ("namespace", profile.namespace'.map ofText),
    ("api_key", profile.apiKey.map ofText), ("tls", profile.tls.map fun tls => .object tls.render),
    ("codec", profile.codec.map fun codec => .object codec.render),
    ("grpc_meta", profile.grpcMeta.map fun grpcMeta => .object (renderGrpcMeta grpcMeta)), ("ext", profile.ext)]

/-- The object that is given to `stringify`. -/
def TomlClientConfig.render (config : TomlClientConfig D) : TomlTable D :=
  table [("profile", config.profile.map fun profile => .object (profile.entries.map fun e => (e.1, .object e.2.render)))]

def asText : Toml D → Option JsText
  | .leaf (.string text) => some text
  | _ => none

def asBool : Toml D → Option Bool
  | .leaf (.boolean value) => some value
  | _ => none

def asTable : Toml D → Option (TomlTable D)
  | .object fields => some fields
  | _ => none

def asTLS (t : Toml D) : Option TomlClientConfigTLS := do
  let fields ← asTable t
  let disabled ← (JsonTree.field fields "disabled").mapM asBool
  let clientCertPath ← (JsonTree.field fields "client_cert_path").mapM asText
  let clientCertData ← (JsonTree.field fields "client_cert_data").mapM asText
  let clientKeyPath ← (JsonTree.field fields "client_key_path").mapM asText
  let clientKeyData ← (JsonTree.field fields "client_key_data").mapM asText
  let serverCaCertPath ← (JsonTree.field fields "server_ca_cert_path").mapM asText
  let serverCaCertData ← (JsonTree.field fields "server_ca_cert_data").mapM asText
  let serverName ← (JsonTree.field fields "server_name").mapM asText
  let disableHostVerification ← (JsonTree.field fields "disable_host_verification").mapM asBool
  return ⟨disabled, clientCertPath, clientCertData, clientKeyPath, clientKeyData, serverCaCertPath,
    serverCaCertData, serverName, disableHostVerification⟩

def asCodec (t : Toml D) : Option TomlClientConfigCodec := do
  let fields ← asTable t
  let endpoint ← (JsonTree.field fields "endpoint").mapM asText
  let auth ← (JsonTree.field fields "auth").mapM asText
  return ⟨endpoint, auth⟩

/-- A table all values of which are of one type. -/
def asRecord {α : Type} (as : Toml D → Option α) (t : Toml D) : Option (JsObject α) := do
  let fields ← asTable t
  let entries ← fields.mapM fun e => (Prod.mk e.1) <$> as e.2
  return JsObject.empty.putAll entries

def asProfile (t : Toml D) : Option (TomlClientConfigProfile D) := do
  let fields ← asTable t
  let address ← (JsonTree.field fields "address").mapM asText
  let namespace' ← (JsonTree.field fields "namespace").mapM asText
  let apiKey ← (JsonTree.field fields "api_key").mapM asText
  let tls ← (JsonTree.field fields "tls").mapM asTLS
  let codec ← (JsonTree.field fields "codec").mapM asCodec
  let grpcMeta ← (JsonTree.field fields "grpc_meta").mapM (asRecord asText)
  return ⟨address, namespace', apiKey, tls, codec, grpcMeta, JsonTree.field fields "ext"⟩

/-- `parsed as unknown as TomlClientConfig`, for documents whose values have the declared types. -/
def asTomlClientConfig (parsed : TomlTable D) : Option (TomlClientConfig D) :=
  TomlClientConfig.mk <$> (JsonTree.field parsed "profile").mapM (asRecord asProfile)

end Documents

/-! ## The strict mode -/

section Strict

variable {D : Type}

/-- `Object.entries` of a value that is an object and no array. -/
def objectEntries : Toml D → Option (TomlTable D)
  | .object fields => some fields
  | .leaf (.date _) => some []
  | _ => none

def unknownKeys (allowed : List String) (fields : TomlTable D) : List String :=
  (fields.map Prod.fst).filter fun key => !allowed.contains key

def allowedTopLevel : List String := ["profile"]

def allowedProfile : List String := ["address", "namespace", "api_key", "tls", "codec", "grpc_meta", "ext"]

def allowedTLS : List String :=
  ["disabled", "client_cert_path", "client_key_path", "client_cert_data", "client_key_data", "server_ca_cert_path",
    "server_ca_cert_data", "server_name"]

def allowedCodec : List String := ["endpoint", "auth"]

/-- A table at `place`, or the error that it is none. -/
def validateTable (place : String) (t : Toml D) : Except LoadError (TomlTable D) :=
  match objectEntries t with
  | some fields => .ok fields
  | none => .error (.thrown ("Validation error: " ++ place ++ " must be a table"))

def validateKeys (allowed : List String) (place : String) (fields : TomlTable D) : Except LoadError Unit :=
  if unknownKeys allowed fields = [] then .ok ()
  else
    .error (.thrown ("Validation error: key(s) unrecognized" ++ place ++ ": " ++
      ", ".intercalate (unknownKeys allowed fields)))

/-- The table of `tls` or `codec`, which may be absent. -/
def validateNested (allowed : List String) (place : String) : Option (Toml D) → Except LoadError Unit
  | none => .ok ()
  | some t => validateTable place t >>= validateKeys allowed (" in " ++ place)

def validateProfile (profileName : String) (profileData : Toml D) : Except LoadError Unit := do
  let place := "profile." ++ profileName
  let fields ← validateTable place profileData
  validateKeys allowedProfile (" in " ++ place) fields
  validateNested allowedTLS (place ++ ".tls") (JsonTree.field fields "tls")
  validateNested allowedCodec (place ++ ".codec") (JsonTree.field fields "codec")

def strictValidateTomlStructure (parsed : TomlTable D) : Except LoadError Unit := do
  validateKeys allowedTopLevel "" parsed
  match JsonTree.field parsed "profile" with
  | none => .ok ()
  | some profiles =>
    let entries ← validateTable "profile" profiles
    entries.forM fun e => validateProfile e.1 e.2

end Strict

/-! ## Loading and storing -/

section Loading

variable {D : Type} (lower : String → String) (parse : JsText → Except LoadError (TomlTable D))
  (stringify : TomlTable D → JsText)

def loadFromTomlData (tomlData : JsText) (isStrict : Bool) : Except LoadError (TomlClientConfig D) := do
  let parsed ← parse tomlData
  if isStrict then strictValidateTomlStructure parsed
  match asTomlClientConfig parsed with
  | some config => .ok config
  | none => .error .untyped

def configToTomlData (config : TomlClientConfig D) : Except LoadError (List UInt8) :=
  encode (stringify config.render)

def loadClientConfigFromToml (tomlData : List UInt8) (strict : Bool) : Except LoadError (ClientConfig D) := do
  let text ← decode tomlData
  let config ← loadFromTomlData parse text strict
  fromTomlConfig lower config

def clientConfigToToml (config : ClientConfig D) : Except LoadError (List UInt8) := do
  let tomlConfig ← toTomlConfig lower config
  configToTomlData stringify tomlConfig

end Loading

end TemporalSdk.EnvConfig
