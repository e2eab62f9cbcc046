import TemporalSdk.EnvConfig.Profiles

/-!
# TomlRoundTrip — a configuration and its document agree

What a configuration is written as is read as that configuration, with bytes for data that was given as a string.
A document of declared keys is read in the same way in both modes.
-/

namespace TemporalSdk.EnvConfig

open Machine

variable {D : Type} {lower : String → String}

/-! ## Bytes for strings -/

/-- The data of a source can be written as text. -/
def ConfigDataSource.IsText : ConfigDataSource → Prop
  | .path _ => True
  | .text data => JsText.WellFormed data
  | .bytes data => ∃ cs, data = utf8 cs

def ConfigDataSource.withBytes : ConfigDataSource → ConfigDataSource
  | .text data => .bytes (JsText.utf8 data)
  | source => source

def ClientConfigTLS.withBytes (tls : ClientConfigTLS) : ClientConfigTLS :=
  { tls with
    clientCert := tls.clientCert.map ConfigDataSource.withBytes
    clientKey := tls.clientKey.map ConfigDataSource.withBytes
    serverCACert := tls.serverCACert.map ConfigDataSource.withBytes }

def ClientConfigProfile.withBytes (profile : ClientConfigProfile D) : ClientConfigProfile D :=
  { profile with tls := profile.tls.map ClientConfigTLS.withBytes }

/-- The configuration with bytes in the place of string data. -/
def ClientConfig.withBytes (config : ClientConfig D) : ClientConfig D :=
  ⟨⟨config.profiles.entries.map fun e => (e.1, e.2.withBytes), JsonTree.inOrder_map _ config.profiles.ordered⟩⟩

structure ClientConfigTLS.IsText (tls : ClientConfigTLS) : Prop where
  clientCert : ∀ source ∈ tls.clientCert, source.IsText
  clientKey : ∀ source ∈ tls.clientKey, source.IsText
  serverCACert : ∀ source ∈ tls.serverCACert, source.IsText

/-- The names of headers are normalised already. -/
def Normalised (lower : String → String) (grpcMeta : JsObject JsText) : Prop :=
  ∀ e ∈ grpcMeta.entries, normalizeGrpcMetaKey lower e.1 = e.1

structure ClientConfigProfile.Valid (lower : String → String) (profile : ClientConfigProfile D) : Prop where
  tls : ∀ tls ∈ profile.tls, tls.IsText
  grpcMeta : ∀ grpcMeta ∈ profile.grpcMeta, Normalised lower grpcMeta

structure ClientConfig.Valid (lower : String → String) (config : ClientConfig D) : Prop where
  profile : ∀ e ∈ config.profiles.entries, e.2.Valid lower
  name : ∀ e ∈ config.profiles.entries, e.1 ≠ "__proto__"

/-! ## Headers -/

theorem underscore_not_mem (key : String) : '_' ∉ (normalizeGrpcMetaKey lower key).toList := by
  rw [normalizeGrpcMetaKey, String.toList_ofList]
  intro hmem
  rcases List.mem_map.mp hmem with ⟨c, _, hc⟩
  by_cases hunderscore : c = '_'
  · rw [if_pos hunderscore] at hc
    exact absurd hc (by decide)
  · rw [if_neg hunderscore] at hc
    exact hunderscore hc

theorem normalizeGrpcMetaKey_ne_proto (key : String) : normalizeGrpcMetaKey lower key ≠ "__proto__" := by
  intro h
  have hnot := @underscore_not_mem lower key
  rw [h] at hnot
  exact hnot (by decide)

theorem Normalised.normalizeGrpcMeta {grpcMeta : JsObject JsText} (h : Normalised lower grpcMeta) :
    EnvConfig.normalizeGrpcMeta lower grpcMeta = grpcMeta := by
  have hentries : grpcMeta.entries.map (fun e => (normalizeGrpcMetaKey lower e.1, e.2)) = grpcMeta.entries := by
    calc
      grpcMeta.entries.map (fun e => (normalizeGrpcMetaKey lower e.1, e.2))
          = grpcMeta.entries.map id := List.map_congr_left fun e he => Prod.ext (h e he) rfl
      _ = grpcMeta.entries := List.map_id _
  have hproto : ∀ e ∈ grpcMeta.entries, e.1 ≠ "__proto__" := by
    intro e he hname
    exact normalizeGrpcMetaKey_ne_proto e.1 ((h e he).trans hname)
  apply JsObject.ext
  rw [EnvConfig.normalizeGrpcMeta, hentries, JsObject.entries_assignAll grpcMeta.ordered hproto]

/-! ## To a table and back -/

theorem toTomlPathAndData_data {source : ConfigDataSource} {bytes : List UInt8} {text : JsText}
    (hsource : toPathAndData source = .ok (none, some bytes)) (hdecode : decode bytes = .ok text) :
    toTomlPathAndData (some source) = .ok (none, some text) := by
  simp only [toTomlPathAndData, hsource]
  change (do return (none, ← (some bytes).mapM decode)) = _
  rw [Option.mapM_some, hdecode]
  rfl

theorem toTomlPathAndData_back {source : Option ConfigDataSource} (h : ∀ s ∈ source, s.IsText) (fieldName : String) :
    ∃ pair, toTomlPathAndData source = .ok pair ∧
      toConfigDataSource pair.1 pair.2 fieldName = .ok (source.map ConfigDataSource.withBytes) := by
  cases source with
  | none => exact ⟨(none, none), rfl, rfl⟩
  | some source =>
    have hsource := h source rfl
    cases source with
    | path path => exact ⟨(some path, none), rfl, rfl⟩
    | text data =>
      have hencode := encode_text hsource
      refine ⟨(none, some data), toTomlPathAndData_data ?_ (decode_utf8_text hsource), ?_⟩
      · rw [toPathAndData, hencode]
        rfl
      · rw [toConfigDataSource, hencode]
        rfl
    | bytes data =>
      rcases hsource with ⟨cs, rfl⟩
      refine ⟨(none, some (JsText.ofChars cs)), toTomlPathAndData_data rfl (decode_utf8 cs), ?_⟩
      rw [toConfigDataSource, encode_text (JsText.wellFormed_ofChars cs), JsText.utf8_ofChars]
      rfl

theorem toTomlTLS_back {tls : ClientConfigTLS} (h : tls.IsText) :
    ∃ t, toTomlTLS tls = .ok t ∧ fromTomlTLS t = .ok tls.withBytes ∧ t.disableHostVerification = none := by
  rcases toTomlPathAndData_back h.clientCert "client_cert" with ⟨cert, hcert, hcert'⟩
  rcases toTomlPathAndData_back h.clientKey "client_key" with ⟨key, hkey, hkey'⟩
  rcases toTomlPathAndData_back h.serverCACert "server_ca_cert" with ⟨ca, hca, hca'⟩
  refine ⟨⟨tls.disabled, cert.1, cert.2, key.1, key.2, ca.1, ca.2, tls.serverName, none⟩, ?_, ?_, rfl⟩
  · rw [toTomlTLS, hcert, hkey, hca]
    rfl
  · simp only [fromTomlTLS, hcert', hkey', hca']
    rfl

/-- Nothing that the strict mode does not know of. -/
def TomlClientConfigProfile.Strict (profile : TomlClientConfigProfile D) : Prop :=
  ∀ tls ∈ profile.tls, tls.disableHostVerification = none

theorem toTomlProfile_back {profile : ClientConfigProfile D} (h : profile.Valid lower) :
    ∃ t, toTomlProfile lower profile = .ok t ∧ fromTomlProfile lower t = .ok profile.withBytes ∧ t.Strict := by
  have hmeta : profile.grpcMeta.map (normalizeGrpcMeta lower) = profile.grpcMeta := by
    cases hgrpcMeta : profile.grpcMeta with
    | none => rfl
    | some grpcMeta => exact congrArg some (h.grpcMeta grpcMeta hgrpcMeta).normalizeGrpcMeta
  cases htls : profile.tls with
  | none =>
    refine ⟨⟨profile.address, profile.namespace', profile.apiKey, none, none, profile.grpcMeta, profile.ext⟩,
      ?_, ?_, fun _ hmem => (Option.not_mem_none _ hmem).elim⟩
    · rw [toTomlProfile, htls, hmeta]
      rfl
    · simp only [fromTomlProfile, hmeta, ClientConfigProfile.withBytes, htls]
      rfl
  | some tls =>
    rcases toTomlTLS_back (h.tls tls htls) with ⟨t, hto, hfrom, hhost⟩
    refine ⟨⟨profile.address, profile.namespace', profile.apiKey, some t, none, profile.grpcMeta, profile.ext⟩,
      ?_, ?_, ?_⟩
    · rw [toTomlProfile, htls, hmeta, Option.mapM_some, hto]
      rfl
    · simp only [fromTomlProfile, hmeta, ClientConfigProfile.withBytes, htls, Option.mapM_some, hfrom]
      rfl
    · intro t' ht'
      cases ht'
      exact hhost

theorem toTomlProfiles_eq {cs : List (String × ClientConfigProfile D)}
    {ts : List (String × TomlClientConfigProfile D)}
    (h : List.Forall₂ (fun c t => c.1 = t.1 ∧ toTomlProfile lower c.2 = .ok t.2) cs ts) :
    ∀ profile, toTomlProfiles lower cs profile = .ok (profile.assignAll ts) := by
  induction h with
  | nil => exact fun _ => rfl
  | @cons c t cs ts hct _ ih =>
    intro profile
    rw [toTomlProfiles, hct.2, hct.1]
    exact ih (profile.assign t.1 t.2)

theorem fromTomlProfiles_eq {ts : List (String × TomlClientConfigProfile D)}
    {cs : List (String × ClientConfigProfile D)}
    (h : List.Forall₂ (fun t c => t.1 = c.1 ∧ fromTomlProfile lower t.2 = .ok c.2) ts cs) :
    ∀ profiles, fromTomlProfiles lower ts profiles = .ok (profiles.assignAll cs) := by
  induction h with
  | nil => exact fun _ => rfl
  | @cons t c ts cs htc _ ih =>
    intro profiles
    rw [fromTomlProfiles, htc.2, htc.1]
    exact ih (profiles.assign c.1 c.2)

theorem exists_tables : ∀ {cs : List (String × ClientConfigProfile D)}, (∀ e ∈ cs, e.2.Valid lower) →
    ∃ ts : List (String × TomlClientConfigProfile D),
      List.Forall₂ (fun c t => c.1 = t.1 ∧ toTomlProfile lower c.2 = .ok t.2) cs ts ∧
      List.Forall₂ (fun t c => t.1 = c.1 ∧ fromTomlProfile lower t.2 = .ok c.2) ts
        (cs.map fun e => (e.1, e.2.withBytes)) ∧
      (∀ t ∈ ts, t.2.Strict) ∧ ts.map Prod.fst = cs.map Prod.fst := by
  intro cs
  induction cs with
  | nil => exact fun _ => ⟨[], List.Forall₂.nil, List.Forall₂.nil, List.forall_mem_nil _, rfl⟩
  | cons c cs ih =>
    intro h
    rcases toTomlProfile_back (h c List.mem_cons_self) with ⟨t, hto, hfrom, hstrict⟩
    rcases ih fun e he => h e (List.mem_cons_of_mem c he) with ⟨ts, htos, hfroms, hstricts, hnames⟩
    refine ⟨(c.1, t) :: ts, List.Forall₂.cons ⟨rfl, hto⟩ htos, List.Forall₂.cons ⟨rfl, hfrom⟩ hfroms, ?_, ?_⟩
    · exact List.forall_mem_cons.mpr ⟨hstrict, hstricts⟩
    · rw [List.map_cons, List.map_cons, hnames]

variable {α β : Type}

theorem inOrder_of_names {as : List (String × α)} {bs : List (String × β)}
    (h : as.map Prod.fst = bs.map Prod.fst) (hord : InOrder bs) : InOrder as := by
  have hnames : (bs.map Prod.fst).Pairwise fun a b => a ≠ b ∧ precedes a b = true := List.pairwise_map.mpr hord
  rw [← h] at hnames
  exact List.pairwise_map.mp hnames

theorem toTomlConfig_back {config : ClientConfig D} (h : config.Valid lower) :
    ∃ t, toTomlConfig lower config = .ok t ∧ fromTomlConfig lower t = .ok config.withBytes ∧
      ∃ profile, t.profile = some profile ∧ ∀ e ∈ profile.entries, e.2.Strict := by
  rcases exists_tables h.profile with ⟨ts, hto, hfrom, hstrict, hnames⟩
  have hord : InOrder ts := inOrder_of_names hnames config.profiles.ordered
  have hproto : ∀ t ∈ ts, t.1 ≠ "__proto__" := by
    intro t ht hname
    have hmem : t.1 ∈ config.profiles.entries.map Prod.fst := hnames ▸ List.mem_map_of_mem ht
    rcases List.mem_map.mp hmem with ⟨e, he, hfst⟩
    exact h.name e he (hfst.trans hname)
  have hentries : (JsObject.empty.assignAll ts).entries = ts := JsObject.entries_assignAll hord hproto
  refine ⟨⟨some (JsObject.empty.assignAll ts)⟩, ?_, ?_, JsObject.empty.assignAll ts, rfl, ?_⟩
  · rw [toTomlConfig, toTomlProfiles_eq hto]
    rfl
  · simp only [fromTomlConfig, hentries, fromTomlProfiles_eq hfrom]
    have hprofiles : (JsObject.empty.assignAll (config.profiles.entries.map fun e => (e.1, e.2.withBytes))) =
        config.withBytes.profiles := by
      apply JsObject.ext
      refine JsObject.entries_assignAll config.withBytes.profiles.ordered ?_
      intro e he
      rcases List.mem_map.mp he with ⟨e', he', rfl⟩
      exact h.name e' he'
    rw [hprofiles]
    rfl
  · rw [hentries]
    exact hstrict

/-! ## A table and its document -/

theorem field_table_cons (key : String) (value : Option (Toml D)) (props : List (String × Option (Toml D)))
    (name : String) : JsonTree.field (table ((key, value) :: props)) name =
      if key = name then value.or (JsonTree.field (table props) name) else JsonTree.field (table props) name := by
  cases value with
  | none => simp [table]
  | some t => by_cases hkey : key = name <;> simp [table, JsonTree.field, hkey]

theorem field_table_nil (name : String) : JsonTree.field (table ([] : List (String × Option (Toml D)))) name = none :=
  rfl

theorem mapM_asText (text : Option JsText) : (text.map (ofText (D := D))).mapM asText = some text := by
  cases text <;> rfl

theorem mapM_asBool (value : Option Bool) : (value.map (ofBool (D := D))).mapM asBool = some value := by
  cases value <;> rfl

theorem asTLS_render (tls : TomlClientConfigTLS) : asTLS (.object tls.render : Toml D) = some tls := by
  simp only [asTLS, asTable, TomlClientConfigTLS.render, field_table_cons, field_table_nil, Option.bind_eq_bind,
    Option.bind_some, String.reduceEq, if_true, if_false, Option.or_none, mapM_asText, mapM_asBool]
  rfl

theorem asCodec_render (codec : TomlClientConfigCodec) : asCodec (.object codec.render : Toml D) = some codec := by
  simp only [asCodec, asTable, TomlClientConfigCodec.render, field_table_cons, field_table_nil, Option.bind_eq_bind,
    Option.bind_some, String.reduceEq, if_true, if_false, Option.or_none, mapM_asText]
  rfl

theorem asRecord_render {α : Type} {as : Toml D → Option α} {render : α → Toml D} (h : ∀ a, as (render a) = some a)
    (o : JsObject α) : asRecord as (.object (o.entries.map fun e => (e.1, render e.2))) = some o := by
  have hentries : ∀ entries : List (String × α),
      (entries.map fun e => (e.1, render e.2)).mapM (fun e => (Prod.mk e.1) <$> as e.2) = some entries := by
    intro entries
    induction entries with
    | nil => rfl
    | cons e entries ih =>
      rw [List.map_cons, List.mapM_cons, ih, h]
      rfl
  have hself : JsObject.empty.putAll o.entries = o := JsObject.ext (JsObject.entries_putAll o.ordered)
  simp only [asRecord, asTable, Option.bind_eq_bind, Option.bind_some, hentries, hself]
  rfl

theorem mapM_map_some {α : Type} {as : Toml D → Option α} {render : α → Toml D} (h : ∀ a, as (render a) = some a)
    (value : Option α) : (value.map render).mapM as = some value := by
  cases value with
  | none => rfl
  | some a =>
    rw [Option.map_some, Option.mapM_some, h]
    rfl

theorem asProfile_render (profile : TomlClientConfigProfile D) :
    asProfile (.object profile.render) = some profile := by
  have htls := mapM_map_some (D := D) asTLS_render profile.tls
  have hcodec := mapM_map_some (D := D) asCodec_render profile.codec
  have hmeta := mapM_map_some (@asRecord_render D _ asText ofText fun _ => rfl) profile.grpcMeta
  simp only [asProfile, asTable, TomlClientConfigProfile.render, field_table_cons, field_table_nil,
    Option.bind_eq_bind, Option.bind_some, String.reduceEq, if_true, if_false, Option.or_none, mapM_asText, htls,
    hcodec, renderGrpcMeta, hmeta]
  rfl

theorem asTomlClientConfig_render (config : TomlClientConfig D) :
    asTomlClientConfig config.render = some config := by
  have hprofile := mapM_map_some (asRecord_render asProfile_render) config.profile
  simp only [asTomlClientConfig, TomlClientConfig.render, field_table_cons, field_table_nil, if_true, Option.or_none,
    hprofile]
  rfl

/-! ## Documents of declared keys -/

/-- The keys of `TomlClientConfigProfile`. -/
def declaredProfile : List String := ["address", "namespace", "api_key", "tls", "codec", "grpc_meta", "ext"]

/-- The keys of `TomlClientConfigTLS`. -/
def declaredTLS : List String :=
  ["disabled", "client_cert_path", "client_cert_data", "client_key_path", "client_key_data", "server_ca_cert_path",
    "server_ca_cert_data", "server_name", "disable_host_verification"]

/-- The keys of `TomlClientConfigCodec`. -/
def declaredCodec : List String := ["endpoint", "auth"]

structure DeclaredProfile (fields : TomlTable D) : Prop where
  keys : ∀ e ∈ fields, e.1 ∈ declaredProfile
  tls : ∀ tls, JsonTree.field fields "tls" = some (.object tls) → ∀ e ∈ tls, e.1 ∈ declaredTLS
  codec : ∀ codec, JsonTree.field fields "codec" = some (.object codec) → ∀ e ∈ codec, e.1 ∈ declaredCodec

/-- All keys of a document are declared, and no two profiles of it have one name. -/
structure Declared (parsed : TomlTable D) : Prop where
  keys : ∀ e ∈ parsed, e.1 = "profile"
  profile : ∀ profiles, JsonTree.field parsed "profile" = some (.object profiles) →
    InOrder profiles ∧ ∀ e ∈ profiles, ∀ fields, e.2 = .object fields → DeclaredProfile fields

/-- What stands in the table of profiles is known to the strict mode. -/
def TomlClientConfig.Strict (config : TomlClientConfig D) : Prop :=
  ∀ profile ∈ config.profile, ∀ e ∈ profile.entries, e.2.Strict

theorem mem_table {props : List (String × Option (Toml D))} {e : String × Toml D} (h : e ∈ table props) :
    e.1 ∈ props.map Prod.fst := by
  rcases List.mem_filterMap.mp h with ⟨prop, hprop, hvalue⟩
  rcases Option.map_eq_some_iff.mp hvalue with ⟨t, _, rfl⟩
  exact List.mem_map_of_mem hprop

theorem declared_render (config : TomlClientConfig D) : Declared config.render where
  keys := by
    intro e he
    simpa using mem_table he
  profile := by
    intro profiles hprofiles
    rw [TomlClientConfig.render, field_table_cons, if_pos rfl, field_table_nil, Option.or_none] at hprofiles
    rcases Option.map_eq_some_iff.mp hprofiles with ⟨profile, _, hobject⟩
    cases hobject
    refine ⟨JsonTree.inOrder_map (fun p => JsonTree.object p.render) profile.ordered, ?_⟩
    intro e he fields hfields
    rcases List.mem_map.mp he with ⟨e', _, rfl⟩
    cases hfields
    refine ⟨?_, ?_, ?_⟩
    · intro x hx
      exact mem_table hx
    · intro tls htls x hx
      have hmem : x.1 ∈ ["disabled", "server_name", "client_cert_path", "client_cert_data", "client_key_path",
          "client_key_data", "server_ca_cert_path", "server_ca_cert_data", "disable_host_verification"] := by
        simp only [TomlClientConfigProfile.render, field_table_cons, field_table_nil, String.reduceEq, if_true,
          if_false, Option.or_none] at htls
        rcases Option.map_eq_some_iff.mp htls with ⟨t, _, ht⟩
        cases ht
        exact mem_table hx
      have hdeclared : ["disabled", "server_name", "client_cert_path", "client_cert_data", "client_key_path",
          "client_key_data", "server_ca_cert_path", "server_ca_cert_data", "disable_host_verification"] ⊆
          declaredTLS := by
        decide
      exact hdeclared hmem
    · intro codec hcodec x hx
      simp only [TomlClientConfigProfile.render, field_table_cons, field_table_nil, String.reduceEq, if_true,
        if_false, Option.or_none] at hcodec
      rcases Option.map_eq_some_iff.mp hcodec with ⟨c, _, hc⟩
      cases hc
      exact mem_table hx

/-! ## What the strict mode accepts -/

theorem validateKeys_ok {allowed : List String} {fields : TomlTable D} (h : ∀ e ∈ fields, e.1 ∈ allowed)
    (place : String) : validateKeys allowed place fields = .ok () := by
  have hunknown : unknownKeys allowed fields = [] := by
    rw [unknownKeys, List.filter_eq_nil_iff]
    intro key hkey
    rcases List.mem_map.mp hkey with ⟨e, he, rfl⟩
    simpa using h e he
  rw [validateKeys, if_pos hunknown]

theorem validateTable_object (place : String) (fields : TomlTable D) :
    validateTable place (.object fields) = .ok fields := rfl

variable {t : Toml D}

theorem asTable_eq_some {fields : TomlTable D} (h : asTable t = some fields) : t = .object fields := by
  unfold asTable at h
  split at h
  · cases h
    rfl
  · exact nomatch h

variable {tls : TomlClientConfigTLS}

theorem of_asTLS (h : asTLS t = some tls) :
    ∃ fields, t = .object fields ∧
      (JsonTree.field fields "disable_host_verification").mapM asBool = some tls.disableHostVerification := by
  simp only [asTLS, Option.bind_eq_bind, Option.bind_eq_some_iff, Option.pure_def, Option.some.injEq] at h
  rcases h with ⟨fields, htable, disabled, _, certPath, _, certData, _, keyPath, _, keyData, _, caPath, _, caData, _,
    serverName, _, host, hhost, rfl⟩
  exact ⟨fields, asTable_eq_some htable, hhost⟩

theorem of_asCodec {codec : TomlClientConfigCodec} (h : asCodec t = some codec) :
    ∃ fields, t = .object fields := by
  simp only [asCodec, Option.bind_eq_bind, Option.bind_eq_some_iff] at h
  rcases h with ⟨fields, htable, _⟩
  exact ⟨fields, asTable_eq_some htable⟩

theorem of_asProfile {profile : TomlClientConfigProfile D} (h : asProfile t = some profile) :
    ∃ fields, t = .object fields ∧ (JsonTree.field fields "tls").mapM asTLS = some profile.tls ∧
      (JsonTree.field fields "codec").mapM asCodec = some profile.codec := by
  simp only [asProfile, Option.bind_eq_bind, Option.bind_eq_some_iff, Option.pure_def, Option.some.injEq] at h
  rcases h with ⟨fields, htable, address, _, name, _, apiKey, _, tls, htls, codec, hcodec, grpcMeta, _, rfl⟩
  exact ⟨fields, asTable_eq_some htable, htls, hcodec⟩

theorem of_asRecord {α : Type} {as : Toml D → Option α} {o : JsObject α} (h : asRecord as t = some o) :
    ∃ fields entries, t = .object fields ∧
      List.Forall₂ (fun a b => a.1 = b.1 ∧ as a.2 = some b.2) fields entries ∧ o = JsObject.empty.putAll entries := by
  simp only [asRecord, Option.bind_eq_bind, Option.bind_eq_some_iff, Option.pure_def, Option.some.injEq] at h
  rcases h with ⟨fields, htable, entries, hentries, rfl⟩
  refine ⟨fields, entries, asTable_eq_some htable, ?_, rfl⟩
  clear htable
  induction fields generalizing entries with
  | nil =>
    rw [List.mapM_nil] at hentries
    cases hentries
    exact List.Forall₂.nil
  | cons e fields ih =>
    simp only [List.mapM_cons, Option.bind_eq_bind, Option.bind_eq_some_iff, Option.pure_def, Option.some.injEq]
      at hentries
    rcases hentries with ⟨e', he', rest, hrest, rfl⟩
    rcases Option.map_eq_some_iff.mp he' with ⟨a, ha, rfl⟩
    exact List.Forall₂.cons ⟨rfl, ha⟩ (ih rest hrest)

theorem of_mapM {f : α → Option β} {value : Option α} {b : Option β} (h : value.mapM f = some b) :
    value = none ∧ b = none ∨ ∃ a b', value = some a ∧ b = some b' ∧ f a = some b' := by
  cases value with
  | none =>
    rw [Option.mapM_none] at h
    cases h
    exact Or.inl ⟨rfl, rfl⟩
  | some a =>
    rw [Option.mapM_some] at h
    rcases Option.map_eq_some_iff.mp h with ⟨b', hb', rfl⟩
    exact Or.inr ⟨a, b', rfl, rfl, hb'⟩

theorem validateTLS_ok (htyped : asTLS t = some tls) (hhost : tls.disableHostVerification = none)
    (hdeclared : ∀ fields, t = .object fields → ∀ e ∈ fields, e.1 ∈ declaredTLS) (place : String) :
    validateNested allowedTLS place (some t) = .ok () := by
  rcases of_asTLS htyped with ⟨fields, rfl, hfield⟩
  have habsent : JsonTree.field fields "disable_host_verification" = none := by
    rcases of_mapM hfield with ⟨hnone, _⟩ | ⟨_, b, _, hb, _⟩
    · exact hnone
    · rw [hhost] at hb
      exact nomatch hb
  refine validateKeys_ok ?_ _
  intro e he
  have hname : e.1 ≠ "disable_host_verification" := by
    intro hname
    have hnot := List.find?_eq_none.mp (Option.map_eq_none_iff.mp habsent) e he
    exact hnot (decide_eq_true hname)
  have hallowed : ∀ key ∈ declaredTLS, key ≠ "disable_host_verification" → key ∈ allowedTLS := by
    decide
  exact hallowed e.1 (hdeclared fields rfl e he) hname

theorem validateProfile_ok {profile : TomlClientConfigProfile D} (htyped : asProfile t = some profile)
    (hstrict : profile.Strict) (hdeclared : ∀ fields, t = .object fields → DeclaredProfile fields)
    (profileName : String) : validateProfile profileName t = .ok () := by
  rcases of_asProfile htyped with ⟨fields, rfl, htls, hcodec⟩
  have hfields := hdeclared fields rfl
  have hvalidTLS : validateNested allowedTLS ("profile." ++ profileName ++ ".tls") (JsonTree.field fields "tls") =
      .ok () := by
    rcases of_mapM htls with ⟨hnone, _⟩ | ⟨tlsData, tls, hsome, hprofile, htyped⟩
    · rw [hnone]
      rfl
    · rw [hsome]
      refine validateTLS_ok htyped (hstrict tls hprofile) ?_ _
      intro tlsFields htlsFields
      exact hfields.tls tlsFields (hsome.trans (congrArg some htlsFields))
  have hvalidCodec : validateNested allowedCodec ("profile." ++ profileName ++ ".codec")
      (JsonTree.field fields "codec") = .ok () := by
    rcases of_mapM hcodec with ⟨hnone, _⟩ | ⟨codecData, codec, hsome, _, htyped⟩
    · rw [hnone]
      rfl
    · rcases of_asCodec htyped with ⟨codecFields, rfl⟩
      rw [hsome]
      exact validateKeys_ok (hfields.codec codecFields hsome) _
  simp only [validateProfile, validateTable_object]
  change (do
    validateKeys allowedProfile (" in " ++ ("profile." ++ profileName)) fields
    validateNested allowedTLS ("profile." ++ profileName ++ ".tls") (JsonTree.field fields "tls")
    validateNested allowedCodec ("profile." ++ profileName ++ ".codec") (JsonTree.field fields "codec")) = _
  have hvalidKeys : validateKeys allowedProfile (" in " ++ ("profile." ++ profileName)) fields = .ok () :=
    validateKeys_ok hfields.keys _
  rw [hvalidKeys, hvalidTLS, hvalidCodec]
  rfl

theorem forM_ok {ε α : Type} {f : α → Except ε Unit} : ∀ {as : List α}, (∀ a ∈ as, f a = .ok ()) →
    as.forM f = .ok () := by
  intro as
  induction as with
  | nil => exact fun _ => rfl
  | cons a as ih =>
    intro h
    change (f a >>= fun _ => as.forM f) = _
    rw [h a List.mem_cons_self]
    exact ih fun x hx => h x (List.mem_cons_of_mem a hx)

variable {config : TomlClientConfig D} {parsed : TomlTable D}

/-- A document of declared keys and types passes the strict validation, unless it disables the verification of
hosts. -/
theorem strictValidate_ok (hdeclared : Declared parsed)
    (htyped : asTomlClientConfig parsed = some config) (hstrict : config.Strict) :
    strictValidateTomlStructure parsed = .ok () := by
  have hkeys : validateKeys allowedTopLevel "" parsed = .ok () :=
    validateKeys_ok (fun e he => List.mem_singleton.mpr (hdeclared.keys e he)) _
  rw [strictValidateTomlStructure, hkeys]
  rcases Option.map_eq_some_iff.mp htyped with ⟨profile, hprofile, rfl⟩
  rcases of_mapM hprofile with ⟨hnone, _⟩ | ⟨profiles, o, hsome, hconfig, hrecord⟩
  · rw [hnone]
    rfl
  · rcases of_asRecord hrecord with ⟨fields, entries, rfl, hentries, rfl⟩
    rcases hdeclared.profile fields hsome with ⟨hord, hfields⟩
    have hnames : entries.map Prod.fst = fields.map Prod.fst := by
      clear hord hfields hsome hrecord hconfig
      induction hentries with
      | nil => rfl
      | cons hab _ ih => rw [List.map_cons, List.map_cons, ih, hab.1]
    have hself : (JsObject.empty.putAll entries).entries = entries :=
      JsObject.entries_putAll (inOrder_of_names hnames hord)
    have hall : ∀ e ∈ entries, e.2.Strict := fun e he => hstrict _ hconfig e (hself.symm ▸ he)
    rw [hsome]
    refine forM_ok ?_
    clear hnames hself hord hrecord hconfig hsome hprofile
    induction hentries with
    | nil => exact List.forall_mem_nil _
    | @cons e e' fields entries he _ ih =>
      refine List.forall_mem_cons.mpr ⟨?_, ih (fun x hx => hfields x (List.mem_cons_of_mem e hx))
        fun x hx => hall x (List.mem_cons_of_mem e' hx)⟩
      exact validateProfile_ok he.2 (hall e' List.mem_cons_self) (hfields e List.mem_cons_self) e.1

/-! ## What can be loaded -/

def Succeeds {α : Type} (x : Except LoadError α) : Prop := ∃ a, x = .ok a

theorem succeeds_bind_iff (x : Except LoadError α) (f : α → Except LoadError β) :
    Succeeds (x >>= f) ↔ ∃ a, x = .ok a ∧ Succeeds (f a) := by
  constructor
  · rintro ⟨b, hb⟩
    rcases (bind_ok_iff x f b).mp hb with ⟨a, ha, hf⟩
    exact ⟨a, ha, b, hf⟩
  · rintro ⟨a, ha, b, hb⟩
    exact ⟨b, (bind_ok_iff x f b).mpr ⟨a, ha, hb⟩⟩

theorem succeeds_map_iff (f : α → β) (x : Except LoadError α) : Succeeds (f <$> x) ↔ Succeeds x := by
  cases x with
  | error e => exact ⟨nofun, nofun⟩
  | ok a => exact ⟨fun _ => ⟨a, rfl⟩, fun _ => ⟨f a, rfl⟩⟩

/-- No credential is given both by a path and by data. -/
structure TomlClientConfigTLS.Exclusive (tls : TomlClientConfigTLS) : Prop where
  clientCert : ¬ (tls.clientCertPath.isSome ∧ tls.clientCertData.isSome)
  clientKey : ¬ (tls.clientKeyPath.isSome ∧ tls.clientKeyData.isSome)
  serverCACert : ¬ (tls.serverCaCertPath.isSome ∧ tls.serverCaCertData.isSome)

/-- The data of the credentials are text. -/
structure TomlClientConfigTLS.IsText (tls : TomlClientConfigTLS) : Prop where
  clientCert : ∀ data ∈ tls.clientCertData, JsText.WellFormed data
  clientKey : ∀ data ∈ tls.clientKeyData, JsText.WellFormed data
  serverCACert : ∀ data ∈ tls.serverCaCertData, JsText.WellFormed data

theorem toConfigDataSource_succeeds_iff {data : Option JsText} (h : ∀ d ∈ data, JsText.WellFormed d)
    (path : Option JsText) (fieldName : String) :
    Succeeds (toConfigDataSource path data fieldName) ↔ ¬ (path.isSome ∧ data.isSome) := by
  cases data with
  | none => cases path <;> exact ⟨fun _ => nofun, fun _ => ⟨_, rfl⟩⟩
  | some d =>
    cases path with
    | none =>
      refine ⟨fun _ => nofun, fun _ => ?_⟩
      rw [toConfigDataSource, encode_text (h d rfl)]
      exact ⟨_, rfl⟩
    | some p => exact ⟨nofun, fun hnot => absurd ⟨rfl, rfl⟩ hnot⟩

theorem fromTomlTLS_succeeds_iff (h : tls.IsText) :
    Succeeds (fromTomlTLS tls) ↔ tls.Exclusive := by
  have hcert := toConfigDataSource_succeeds_iff h.clientCert tls.clientCertPath "client_cert"
  have hkey := toConfigDataSource_succeeds_iff h.clientKey tls.clientKeyPath "client_key"
  have hca := toConfigDataSource_succeeds_iff h.serverCACert tls.serverCaCertPath "server_ca_cert"
  rw [fromTomlTLS, succeeds_bind_iff]
  constructor
  · rintro ⟨cert, hcert', hrest⟩
    rcases (succeeds_bind_iff _ _).mp hrest with ⟨key, hkey', hrest⟩
    rcases (succeeds_bind_iff _ _).mp hrest with ⟨ca, hca', _⟩
    exact ⟨hcert.mp ⟨cert, hcert'⟩, hkey.mp ⟨key, hkey'⟩, hca.mp ⟨ca, hca'⟩⟩
  · intro hexclusive
    rcases hcert.mpr hexclusive.clientCert with ⟨cert, hcert'⟩
    rcases hkey.mpr hexclusive.clientKey with ⟨key, hkey'⟩
    rcases hca.mpr hexclusive.serverCACert with ⟨ca, hca'⟩
    refine ⟨cert, hcert', ?_⟩
    rw [hkey', hca']
    exact ⟨_, rfl⟩

theorem fromTomlProfile_succeeds_iff (profile : TomlClientConfigProfile D) :
    Succeeds (fromTomlProfile lower profile) ↔ ∀ tls ∈ profile.tls, Succeeds (fromTomlTLS tls) := by
  rw [fromTomlProfile, succeeds_bind_iff]
  cases profile.tls with
  | none => exact ⟨fun _ _ hmem => (Option.not_mem_none _ hmem).elim, fun _ => ⟨none, rfl, _, rfl⟩⟩
  | some tls =>
    constructor
    · rintro ⟨t, ht, _⟩ tls' htls'
      cases htls'
      rw [Option.mapM_some] at ht
      rcases (map_ok_iff _ _ _).mp ht with ⟨c, hc, _⟩
      exact ⟨c, hc⟩
    · intro h
      rcases h tls rfl with ⟨c, hc⟩
      refine ⟨some c, ?_, _, rfl⟩
      rw [Option.mapM_some, hc]
      rfl

theorem fromTomlProfiles_succeeds_iff (ts : List (String × TomlClientConfigProfile D)) :
    ∀ profiles, Succeeds (fromTomlProfiles lower ts profiles) ↔
      ∀ t ∈ ts, Succeeds (fromTomlProfile lower t.2) := by
  induction ts with
  | nil => exact fun profiles => ⟨fun _ => List.forall_mem_nil _, fun _ => ⟨profiles, rfl⟩⟩
  | cons t ts ih =>
    intro profiles
    rw [fromTomlProfiles, succeeds_bind_iff, List.forall_mem_cons]
    constructor
    · rintro ⟨c, hc, hrest⟩
      exact ⟨⟨c, hc⟩, (ih _).mp hrest⟩
    · rintro ⟨⟨c, hc⟩, hrest⟩
      exact ⟨c, hc, (ih _).mpr hrest⟩

theorem fromTomlConfig_succeeds_iff {profile : JsObject (TomlClientConfigProfile D)}
    (hprofile : config.profile = some profile) (htext : ∀ e ∈ profile.entries, ∀ tls ∈ e.2.tls, tls.IsText) :
    Succeeds (fromTomlConfig lower config) ↔ ∀ e ∈ profile.entries, ∀ tls ∈ e.2.tls, tls.Exclusive := by
  simp only [fromTomlConfig, hprofile]
  rw [succeeds_map_iff, fromTomlProfiles_succeeds_iff]
  constructor
  · intro h e he tls htls
    exact (fromTomlTLS_succeeds_iff (htext e he tls htls)).mp ((fromTomlProfile_succeeds_iff e.2).mp (h e he) tls htls)
  · intro h e he
    refine (fromTomlProfile_succeeds_iff e.2).mpr fun tls htls => ?_
    exact (fromTomlTLS_succeeds_iff (htext e he tls htls)).mpr (h e he tls htls)

/-! ## Both modes -/

section Modes

variable {parse : JsText → Except LoadError (TomlTable D)} {stringify : TomlTable D → JsText}

/-- What `stringify` writes of a table is text, and `parse` reads the table of it. -/
def Inverse (parse : JsText → Except LoadError (TomlTable D)) (stringify : TomlTable D → JsText)
    (parsed : TomlTable D) : Prop :=
  JsText.WellFormed (stringify parsed) ∧ parse (stringify parsed) = .ok parsed

theorem loadFromTomlData_declared {tomlData : JsText}
    (hparse : parse tomlData = .ok parsed) (hdeclared : Declared parsed)
    (htyped : asTomlClientConfig parsed = some config) (hstrict : config.Strict) (isStrict : Bool) :
    loadFromTomlData parse tomlData isStrict = .ok config := by
  cases isStrict with
  | false =>
    refine (bind_ok_iff _ _ _).mpr ⟨parsed, hparse, ?_⟩
    rw [htyped]
    rfl
  | true =>
    refine (bind_ok_iff _ _ _).mpr ⟨parsed, hparse, ?_⟩
    rw [htyped]
    exact (bind_ok_iff _ _ _).mpr ⟨(), strictValidate_ok hdeclared htyped hstrict, rfl⟩

theorem loadClientConfigFromToml_declared {tomlData : List UInt8} {text : JsText}
    (hdecode : decode tomlData = .ok text) (hparse : parse text = .ok parsed)
    (hdeclared : Declared parsed) (htyped : asTomlClientConfig parsed = some config) (hstrict : config.Strict)
    (strict : Bool) : loadClientConfigFromToml lower parse tomlData strict = fromTomlConfig lower config := by
  rw [loadClientConfigFromToml, hdecode]
  change (loadFromTomlData parse text strict >>= fromTomlConfig lower) = _
  rw [loadFromTomlData_declared hparse hdeclared htyped hstrict]
  rfl

theorem clientConfigToToml_back {config : ClientConfig D} (hvalid : config.Valid lower)
    (hinverse : ∀ t, toTomlConfig lower config = .ok t → Inverse parse stringify t.render) :
    ∃ tomlData, clientConfigToToml lower stringify config = .ok tomlData ∧
      ∀ strict, loadClientConfigFromToml lower parse tomlData strict = .ok config.withBytes := by
  rcases toTomlConfig_back hvalid with ⟨t, hto, hfrom, profile, hprofile, hstrict⟩
  rcases hinverse t hto with ⟨htext, hparse⟩
  refine ⟨JsText.utf8 (stringify t.render), ?_, ?_⟩
  · rw [clientConfigToToml, hto]
    exact encode_text htext
  · intro strict
    have htstrict : t.Strict := by
      intro p hp
      rw [hprofile] at hp
      cases hp
      exact hstrict
    rw [loadClientConfigFromToml_declared (decode_utf8_text htext) hparse (declared_render t)
      (asTomlClientConfig_render t) htstrict strict]
    exact hfrom

/-- A configuration is loaded as it was written, with the bytes of its data, and a document of declared keys is
loaded in both modes alike: wherever none of its credentials is given both by a path and by data. -/
theorem config_toml_agree (lower : String → String) (parse : JsText → Except LoadError (TomlTable D))
    (stringify : TomlTable D → JsText) :
    (∀ config : ClientConfig D, config.Valid lower →
      (∀ t, toTomlConfig lower config = .ok t → Inverse parse stringify t.render) →
      ∃ tomlData, clientConfigToToml lower stringify config = .ok tomlData ∧
        ∀ strict, loadClientConfigFromToml lower parse tomlData strict = .ok config.withBytes) ∧
    ∀ tomlData text parsed profile, decode tomlData = .ok text → parse text = .ok parsed → Declared parsed →
      asTomlClientConfig parsed = some ⟨some profile⟩ → (∀ e ∈ profile.entries, e.2.Strict) →
      loadClientConfigFromToml lower parse tomlData true = loadClientConfigFromToml lower parse tomlData false ∧
      ((∀ e ∈ profile.entries, ∀ tls ∈ e.2.tls, tls.IsText) →
        (Succeeds (loadClientConfigFromToml lower parse tomlData false) ↔
          ∀ e ∈ profile.entries, ∀ tls ∈ e.2.tls, tls.Exclusive)) := by
  refine ⟨fun config hvalid hinverse => clientConfigToToml_back hvalid hinverse, ?_⟩
  intro tomlData text parsed profile hdecode hparse hdeclared htyped hstrict
  have hload : ∀ strict, loadClientConfigFromToml lower parse tomlData strict = fromTomlConfig lower ⟨some profile⟩ := by
    refine loadClientConfigFromToml_declared hdecode hparse hdeclared htyped ?_
    intro p hp
    cases hp
    exact hstrict
  refine ⟨(hload true).trans (hload false).symm, ?_⟩
  intro htext
  rw [hload false]
  exact fromTomlConfig_succeeds_iff rfl htext

/-! A document with both, and a configuration whose certificate is given as a string. -/

def conflictingText : JsText :=
  JsText.ofString "[profile.default.tls]\nclient_cert_path = \"some-path\"\nclient_cert_data = \"some-data\"\n"

def conflictingTLS : TomlTable Empty :=
  [("client_cert_path", ofText (JsText.ofString "some-path")), ("client_cert_data", ofText (JsText.ofString "some-data"))]

def conflictingTable : TomlTable Empty :=
  [("profile", .object [("default", .object [("tls", .object conflictingTLS)])])]

def parseOnly (text : JsText) (parsed : TomlTable Empty) (s : JsText) : Except LoadError (TomlTable Empty) :=
  if s = text then .ok parsed else .error (.thrown "Invalid TOML document")

theorem parseOnly_self (text : JsText) (parsed : TomlTable Empty) : parseOnly text parsed text = .ok parsed :=
  if_pos rfl

theorem conflicting_declared : Declared conflictingTable where
  keys := by simp [conflictingTable]
  profile := by
    intro profiles hprofiles
    cases hprofiles
    refine ⟨by decide, ?_⟩
    intro e he fields hfields
    rw [List.mem_singleton.mp he] at hfields
    cases hfields
    refine ⟨by simp [declaredProfile], ?_, nofun⟩
    intro tls htls
    cases htls
    simp [conflictingTLS, declaredTLS]

/-- All keys are declared, and both modes refuse the document. -/
theorem conflicting_document_refused : Declared conflictingTable ∧ ∀ strict,
    loadClientConfigFromToml String.toLower (parseOnly conflictingText conflictingTable) (JsText.utf8 conflictingText)
      strict = .error (.thrown "Cannot specify both client_cert_path and client_cert_data") := by
  refine ⟨conflicting_declared, fun strict => ?_⟩
  have htext : JsText.WellFormed conflictingText := ⟨_, rfl⟩
  rw [loadClientConfigFromToml_declared (decode_utf8_text htext) (parseOnly_self _ _) conflicting_declared rfl ?_ strict]
  · rfl
  · intro p hp e he tls htls
    cases hp
    cases List.mem_singleton.mp he
    cases htls
    rfl

/-- What `stringify` writes of the configuration below. -/
def certificateText : JsText :=
  JsText.ofString "[profile.default]\naddress = \"localhost:7233\"\n\n[profile.default.tls]\nclient_cert_data = \"cert\"\n"

def certificateConfig : ClientConfig Empty where
  profiles := {
    entries := [("default", {
      address := some (JsText.ofString "localhost:7233"), namespace' := none
      apiKey := none
      tls := some ⟨none, none, some (.text (JsText.ofString "cert")), none, none⟩
      grpcMeta := none
      ext := none })]
    ordered := by decide }

def certificateTable : TomlTable Empty :=
  [("profile", .object [("default", .object [("address", ofText (JsText.ofString "localhost:7233")),
    ("tls", .object [("client_cert_data", ofText (JsText.ofString "cert"))])])])]

theorem certificateConfig_valid : certificateConfig.Valid String.toLower where
  profile := by
    intro e he
    cases List.mem_singleton.mp he
    refine ⟨?_, nofun⟩
    intro tls htls
    cases htls
    refine ⟨?_, nofun, nofun⟩
    intro source hsource
    cases hsource
    exact ⟨_, rfl⟩
  name := by
    intro e he
    cases List.mem_singleton.mp he
    decide

def certificateProfiles : JsObject (TomlClientConfigProfile Empty) where
  entries := [("default", {
    address := some (JsText.ofString "localhost:7233"), namespace' := none
    apiKey := none
    tls := some ⟨none, none, some (JsText.ofString "cert"), none, none, none, none, none, none⟩
    codec := none
    grpcMeta := none
    ext := none })]
  ordered := by decide

theorem toTomlConfig_certificate :
    toTomlConfig String.toLower certificateConfig = .ok ⟨some certificateProfiles⟩ := by
  rfl

/-- A certificate that is given as a string, and the document it is written as. -/
theorem config_toml_agree_certificate :
    (∃ tomlData, clientConfigToToml String.toLower (fun _ => certificateText) certificateConfig = .ok tomlData ∧
      ∀ strict, loadClientConfigFromToml String.toLower (parseOnly certificateText certificateTable) tomlData strict =
        .ok certificateConfig.withBytes) ∧
    Succeeds (loadClientConfigFromToml String.toLower (parseOnly certificateText certificateTable)
      (JsText.utf8 certificateText) false) := by
  have htext : JsText.WellFormed certificateText := ⟨_, rfl⟩
  have hagree := config_toml_agree String.toLower (parseOnly certificateText certificateTable) fun _ => certificateText
  refine ⟨hagree.1 certificateConfig certificateConfig_valid ?_, ?_⟩
  · intro t ht
    cases toTomlConfig_certificate.symm.trans ht
    exact ⟨htext, parseOnly_self _ _⟩
  · have hloads := hagree.2 (JsText.utf8 certificateText) certificateText certificateTable certificateProfiles
      (decode_utf8_text htext) (parseOnly_self _ _) (declared_render ⟨some certificateProfiles⟩)
      (asTomlClientConfig_render ⟨some certificateProfiles⟩) (by
        intro e he tls htls
        cases List.mem_singleton.mp he
        cases htls
        rfl)
    refine (hloads.2 ?_).mpr ?_
    · intro e he tls htls
      cases List.mem_singleton.mp he
      cases htls
      refine ⟨?_, nofun, nofun⟩
      intro data hdata
      cases hdata
      exact ⟨_, rfl⟩
    · intro e he tls htls
      cases List.mem_singleton.mp he
      cases htls
      exact ⟨nofun, nofun, nofun⟩

end Modes

end TemporalSdk.EnvConfig
