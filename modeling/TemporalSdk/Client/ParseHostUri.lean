import TemporalSdk.Machine.Decimals
import TemporalSdk.Machine.Regex

/-!
# ParseHostUri — addresses of a scheme, a hostname and a port

An address is split by a regular expression and joined again without the slashes after its scheme.  The text of an
address gives a hostname and the text of a port in one way: the brackets around an IPv6 hostname are tried first.
-/

namespace TemporalSdk.Client
namespace ParseHostUri

open Machine
open Machine (JsText)

def colon : UInt16 := 0x3a
def slash : UInt16 := 0x2f
def dot : UInt16 := 0x2e
def openBracket : UInt16 := 0x5b
def closeBracket : UInt16 := 0x5d

def isLower (u : UInt16) : Bool := decide (0x61 ≤ u.toNat ∧ u.toNat ≤ 0x7a)
def isLowerOrDigit (u : UInt16) : Bool := isLower u || isDigit u

def isIpv6Unit (u : UInt16) : Bool :=
  isDigit u || decide (0x61 ≤ u.toNat ∧ u.toNat ≤ 0x66) || decide (0x41 ≤ u.toNat ∧ u.toNat ≤ 0x46) || u == dot ||
    u == colon

def isDnsUnit (u : UInt16) : Bool := u != colon && u != slash

def unit (c : UInt16) : Regex UInt16 := .one (· == c)

def schemeRegex : Regex UInt16 :=
  .seq (.group "scheme" (.seq (.one isLower) (.plus isLowerOrDigit)))
    (.seq (unit colon) (.opt (.seq (unit slash) (unit slash))))

def ipv4Hostname : Regex UInt16 :=
  let part : Regex UInt16 := .seq (unit dot) (.upTo 3 isDigit)
  .seq (.upTo 3 isDigit) (.seq part (.seq part part))

def ipv6Hostname : Regex UInt16 :=
  .seq (unit openBracket) (.seq (.group "ipv6" (.plus isIpv6Unit)) (unit closeBracket))

def dnsHostname : Regex UInt16 := .plus isDnsUnit

def portRegex : Regex UInt16 := .seq (unit colon) (.group "port" (.plus isDigit))

def hostPortRegex : Regex UInt16 :=
  .seq (.group "hostname" (.alt ipv4Hostname (.alt ipv6Hostname dnsHostname))) (.opt portRegex)

def protoHostPortRegex : Regex UInt16 := .seq (.lazyOpt schemeRegex) hostPortRegex

structure ProtoHostPort where
  scheme : Option JsText
  hostname : JsText
  port : Option WholeDouble
deriving DecidableEq

def groupsHostname (groups : Regex.Captures UInt16) : JsText :=
  ((groups.lookup "ipv6").or (groups.lookup "hostname")).getD []

def splitProtoHostPort (uri : JsText) : Option ProtoHostPort :=
  (Regex.exec protoHostPortRegex uri).map fun groups =>
    { scheme := groups.lookup "scheme"
      hostname := groupsHostname groups
      port := (groups.lookup "port").map WholeDouble.ofText }

def bracketed (hostname : JsText) : JsText := openBracket :: hostname ++ [closeBracket]

def schemeText : Option JsText → JsText
  | none => []
  | some scheme => if scheme = [] then [] else scheme ++ [colon]

def hostnameText (hostname : JsText) : JsText := if colon ∈ hostname then bracketed hostname else hostname

def portText : Option WholeDouble → JsText
  | none => []
  | some port => colon :: port.text

def joinProtoHostPort (components : ProtoHostPort) : JsText :=
  schemeText components.scheme ++ hostnameText components.hostname ++ portText components.port

/-- An address with a scheme, or that cannot be split, is refused. -/
def normalizeGrpcEndpointAddress (uri : JsText) (defaultPort : Fin 65536) : Option JsText :=
  match splitProtoHostPort uri with
  | none => none
  | some splitted =>
    if splitted.scheme.isSome then none
    else some (joinProtoHostPort { splitted with port := some (splitted.port.getD (.finite defaultPort)) })

/-! ## The parts of an address -/

def IsScheme (t : JsText) : Prop := ∃ u rest, t = u :: rest ∧ isLower u = true ∧ rest ≠ [] ∧ ∀ v ∈ rest, isLowerOrDigit v = true

def IsDigits (t : JsText) : Prop := t ≠ [] ∧ ∀ u ∈ t, isDigit u = true

def IsIpv6 (t : JsText) : Prop := t ≠ [] ∧ ∀ u ∈ t, isIpv6Unit u = true

def IsDns (t : JsText) : Prop := t ≠ [] ∧ ∀ u ∈ t, isDnsUnit u = true

def IsSeparator (t : JsText) : Prop := t = [colon] ∨ t = [colon, slash, slash]

def portSuffix : Option JsText → JsText
  | none => []
  | some digits => colon :: digits

/-- A text of a hostname and perhaps a port. -/
inductive HostPort : JsText → JsText → Option JsText → Prop where
  | ipv6 {x : JsText} {p : Option JsText} (hx : IsIpv6 x) (hp : ∀ digits ∈ p, IsDigits digits) :
      HostPort (bracketed x ++ portSuffix p) x p
  | dns {d : JsText} {p : Option JsText} (hd : IsDns d) (hbrackets : ∀ x, IsIpv6 x → d ≠ bracketed x)
      (hp : ∀ digits ∈ p, IsDigits digits) : HostPort (d ++ portSuffix p) d p

theorem eq_of_unit {c u : UInt16} (h : (u == c) = true) : u = c := beq_iff_eq.mp h

variable {t : JsText}

theorem not_mem_digits {c : UInt16} (hc : isDigit c = false) (h : IsDigits t) : c ∉ t :=
  fun hmem => WholeDouble.ne_of_isDigit hc (h.2 c hmem) rfl

theorem IsDns.colon_not_mem (h : IsDns t) : colon ∉ t :=
  fun hmem => Bool.false_ne_true (h.2 colon hmem)

theorem IsDns.slash_not_mem (h : IsDns t) : slash ∉ t :=
  fun hmem => Bool.false_ne_true (h.2 slash hmem)

theorem IsIpv6.not_mem {c : UInt16} (hc : isIpv6Unit c = false) (h : IsIpv6 t) : c ∉ t :=
  fun hmem => Bool.false_ne_true (hc.symm.trans (h.2 c hmem))

theorem bracketed_injective {x x' : JsText} (h : bracketed x = bracketed x') : x = x' :=
  List.append_inj_left' (List.cons.inj h).2 rfl

theorem portSuffix_injective {p p' : Option JsText} (h : portSuffix p = portSuffix p') : p = p' := by
  cases p with
  | none =>
    cases p' with
    | none => rfl
    | some digits' => exact absurd h.symm (List.cons_ne_nil _ _)
  | some digits =>
    cases p' with
    | none => exact absurd h (List.cons_ne_nil _ _)
    | some digits' => rw [(List.cons.inj h).2]

/-- A hostname as it is written has no colon, or a bracket at its end. -/
def IsBody (b : JsText) : Prop := colon ∉ b ∨ ∃ front, b = front ++ [closeBracket]

theorem isBody_bracketed (x : JsText) : IsBody (bracketed x) := Or.inr ⟨openBracket :: x, rfl⟩

theorem eq_nil_of_overlap {b b' a : JsText} {p p' : Option JsText} (hb : IsBody b)
    (hp' : ∀ digits ∈ p', IsDigits digits) (h : b = b' ++ a) (hsuffix : portSuffix p' = a ++ portSuffix p) : a = [] := by
  by_contra hne
  rcases List.exists_cons_of_ne_nil hne with ⟨u, rest, rfl⟩
  cases p' with
  | none => exact absurd hsuffix.symm (List.cons_ne_nil _ _)
  | some digits =>
    rw [portSuffix, List.cons_append, List.cons.injEq] at hsuffix
    have hdigits := hp' digits rfl
    rcases hb with hcolon | ⟨front, hfront⟩
    · apply hcolon
      rw [h, hsuffix.1]
      exact List.mem_append_right b' List.mem_cons_self
    · -- The bracket at the end of the hostname would be part of the port.
      have hlast : (b' ++ u :: rest).getLast? = some closeBracket := by rw [← h, hfront, List.getLast?_concat]
      rw [List.getLast?_append_of_ne_nil _ (List.cons_ne_nil u rest)] at hlast
      rcases List.mem_cons.mp (List.mem_of_getLast? hlast) with hu | hmem
      · rw [← hsuffix.1] at hu
        exact absurd hu (by decide)
      · have hdigit : closeBracket ∈ digits := by
          rw [hsuffix.2]
          exact List.mem_append_left _ hmem
        exact not_mem_digits (by decide) hdigits hdigit

theorem body_unique {b b' : JsText} {p p' : Option JsText} (hb : IsBody b) (hb' : IsBody b')
    (hp : ∀ digits ∈ p, IsDigits digits) (hp' : ∀ digits ∈ p', IsDigits digits)
    (h : b ++ portSuffix p = b' ++ portSuffix p') : b = b' ∧ p = p' := by
  rcases List.append_eq_append_iff.mp h with ⟨a, hbody, hsuffix⟩ | ⟨a, hbody, hsuffix⟩
  · have hnil := eq_nil_of_overlap hb' hp hbody hsuffix
    rw [hnil, List.append_nil] at hbody
    rw [hnil, List.nil_append] at hsuffix
    exact ⟨hbody.symm, portSuffix_injective hsuffix⟩
  · have hnil := eq_nil_of_overlap hb hp' hbody hsuffix
    rw [hnil, List.append_nil] at hbody
    rw [hnil, List.nil_append] at hsuffix
    exact ⟨hbody, (portSuffix_injective hsuffix).symm⟩

theorem HostPort.unique {t h h' : JsText} {p p' : Option JsText} (hpt : HostPort t h p) (hpt' : HostPort t h' p') :
    h = h' ∧ p = p' := by
  cases hpt with
  | ipv6 hx hp =>
    generalize ht : bracketed h ++ portSuffix p = t at hpt'
    cases hpt' with
    | ipv6 hx' hp' =>
      rcases body_unique (isBody_bracketed h) (isBody_bracketed h') hp hp' ht with ⟨hbody, hport⟩
      exact ⟨bracketed_injective hbody, hport⟩
    | dns hd hbrackets hp' =>
      have hbody := (body_unique (isBody_bracketed h) (Or.inl hd.colon_not_mem) hp hp' ht).1
      exact absurd hbody.symm (hbrackets h hx)
  | dns hd hbrackets hp =>
    generalize ht : h ++ portSuffix p = t at hpt'
    cases hpt' with
    | ipv6 hx' hp' =>
      have hbody := (body_unique (Or.inl hd.colon_not_mem) (isBody_bracketed h') hp hp' ht).1
      exact absurd hbody (hbrackets h' hx')
    | dns hd' _ hp' => exact body_unique (Or.inl hd.colon_not_mem) (Or.inl hd'.colon_not_mem) hp hp' ht

/-! ## What the expression captures -/

variable {c : Regex.Captures UInt16}

theorem matches_portRegex :
    Regex.Matches (.opt portRegex) t c ↔ ∃ p : Option JsText, t = portSuffix p ∧ (∀ digits ∈ p, IsDigits digits) ∧
      c = p.toList.map fun digits => ("port", digits) := by
  simp only [Regex.Matches, portRegex, unit]
  constructor
  · rintro (⟨t₁, t₂, c₁, c₂, rfl, rfl, ⟨u, rfl, hu, rfl⟩, c', rfl, hne, hall, rfl⟩ | ⟨rfl, rfl⟩)
    · rw [eq_of_unit hu]
      refine ⟨some t₂, rfl, ?_, rfl⟩
      rintro digits ⟨⟩
      exact ⟨hne, hall⟩
    · exact ⟨none, rfl, fun _ hmem => (Option.not_mem_none _ hmem).elim, rfl⟩
  · rintro ⟨p, rfl, hp, rfl⟩
    cases p with
    | none => exact Or.inr ⟨rfl, rfl⟩
    | some digits =>
      rcases hp digits rfl with ⟨hne, hall⟩
      exact Or.inl ⟨[colon], digits, [], _, rfl, rfl, ⟨colon, rfl, rfl, rfl⟩, [], rfl, hne, hall, rfl⟩

theorem matches_ipv6Hostname :
    Regex.Matches ipv6Hostname t c ↔ ∃ x, t = bracketed x ∧ IsIpv6 x ∧ c = [("ipv6", x)] := by
  simp only [Regex.Matches, ipv6Hostname, unit]
  constructor
  · rintro ⟨t₁, _, c₁, _, rfl, rfl, ⟨u, rfl, hu, rfl⟩, t₂, t₃, c₂, c₃, rfl, rfl, ⟨c', rfl, hne, hall, rfl⟩, v, rfl, hv,
      rfl⟩
    rw [eq_of_unit hu, eq_of_unit hv]
    exact ⟨t₂, rfl, ⟨hne, hall⟩, rfl⟩
  · rintro ⟨x, rfl, ⟨hne, hall⟩, rfl⟩
    exact ⟨[openBracket], _, [], _, rfl, rfl, ⟨openBracket, rfl, rfl, rfl⟩, x, [closeBracket], _, [], rfl, rfl,
      ⟨[], rfl, hne, hall, rfl⟩, closeBracket, rfl, rfl, rfl⟩

theorem matches_dnsHostname :
    Regex.Matches dnsHostname t c ↔ IsDns t ∧ c = [] := by
  simp only [Regex.Matches, dnsHostname, IsDns, and_assoc]

theorem isDnsUnit_of_isDigit {u : UInt16} (h : isDigit u = true) : isDnsUnit u = true := by
  simp only [isDnsUnit, Bool.and_eq_true, bne_iff_ne]
  exact ⟨WholeDouble.ne_of_isDigit (by decide) h, WholeDouble.ne_of_isDigit (by decide) h⟩

/-- An IPv4 hostname is one that the last alternative takes as well, and it begins with a digit. -/
theorem ipv4_of_matches (h : Regex.Matches ipv4Hostname t c) :
    IsDns t ∧ (∀ x, t ≠ bracketed x) ∧ c = [] := by
  have hpart : ∀ t c, Regex.Matches (.seq (unit dot) (.upTo 3 isDigit)) t c → (∀ u ∈ t, isDnsUnit u = true) ∧ c = [] := by
    rintro _ _ ⟨t₁, t₂, c₁, c₂, rfl, rfl, ⟨u, rfl, hu, rfl⟩, _, _, hall, rfl⟩
    refine ⟨fun v hv => ?_, rfl⟩
    rcases List.mem_cons.mp hv with rfl | hv
    · rw [eq_of_unit hu]
      rfl
    · exact isDnsUnit_of_isDigit (hall v hv)
  rcases h with ⟨t₁, _, c₁, _, rfl, rfl, ⟨hne, _, hall, rfl⟩, t₂, _, c₂, _, rfl, rfl, h₂, t₃, t₄, c₃, c₄, rfl, rfl, h₃,
    h₄⟩
  rcases hpart _ _ h₂ with ⟨hall₂, rfl⟩
  rcases hpart _ _ h₃ with ⟨hall₃, rfl⟩
  rcases hpart _ _ h₄ with ⟨hall₄, rfl⟩
  rcases List.exists_cons_of_ne_nil hne with ⟨u, rest, rfl⟩
  refine ⟨⟨List.cons_ne_nil _ _, fun v hv => ?_⟩, fun x hx => ?_, rfl⟩
  · simp only [List.mem_append] at hv
    rcases hv with hv | hv | hv | hv
    · exact isDnsUnit_of_isDigit (hall v hv)
    · exact hall₂ v hv
    · exact hall₃ v hv
    · exact hall₄ v hv
  · have hu : u = openBracket := (List.cons.inj hx).1
    exact WholeDouble.ne_of_isDigit (by decide) (hall u List.mem_cons_self) hu

/-- A hostname and a port are captured as the text gives them. -/
theorem hostPort_of_exec (h : Regex.exec hostPortRegex t = some c) :
    HostPort t (groupsHostname c) (c.lookup "port") ∧ c.lookup "scheme" = none := by
  have hport : ∀ {t' d'}, Regex.exec (.opt portRegex) t' = some d' → ∃ p : Option JsText,
      t' = portSuffix p ∧ (∀ digits ∈ p, IsDigits digits) ∧ d' = p.toList.map fun digits => ("port", digits) :=
    fun h => matches_portRegex.1 (Regex.matches_of_exec h)
  have hlookup : ∀ p : Option JsText, (p.toList.map fun digits => ("port", digits)).lookup "port" = p ∧
      (p.toList.map fun digits => ("port", digits)).lookup "ipv6" = none ∧
      (p.toList.map fun digits => ("port", digits)).lookup "scheme" = none := by
    intro p
    cases p <;> simp [List.lookup_cons]
  rw [hostPortRegex, Regex.exec_seq_group_alt, Regex.exec_seq_group_alt, Option.or_eq_some_iff,
    Option.or_eq_some_iff] at h
  rcases h with hipv4 | ⟨_, hipv6 | ⟨hnone, hdns⟩⟩
  · rcases Regex.exists_of_exec_seq hipv4 with ⟨t, t', d, d', rfl, rfl, ⟨c', rfl, hmatch⟩, hexec⟩
    rcases hport hexec with ⟨p, rfl, hp, rfl⟩
    rcases ipv4_of_matches hmatch with ⟨hd, hbrackets, rfl⟩
    have hhost := HostPort.dns hd (fun x _ => hbrackets x) hp
    simpa [groupsHostname, List.lookup_cons, hlookup p] using hhost
  · rcases Regex.exists_of_exec_seq hipv6 with ⟨t, t', d, d', rfl, rfl, ⟨c', rfl, hmatch⟩, hexec⟩
    rcases hport hexec with ⟨p, rfl, hp, rfl⟩
    rcases matches_ipv6Hostname.1 hmatch with ⟨x, rfl, hx, rfl⟩
    have hhost := HostPort.ipv6 hx hp
    simpa [groupsHostname, List.lookup_cons, hlookup p] using hhost
  · rcases Regex.exists_of_exec_seq hdns with ⟨t, t', d, d', rfl, rfl, ⟨c', rfl, hmatch⟩, hexec⟩
    rcases hport hexec with ⟨p, rfl, hp, rfl⟩
    rcases matches_dnsHostname.1 hmatch with ⟨hd, rfl⟩
    have hbrackets : ∀ x, IsIpv6 x → t ≠ bracketed x := by
      rintro x hx rfl
      exact Regex.exec_eq_none_iff.mp hnone _ ⟨_, _, _, _, rfl, rfl,
        ⟨_, rfl, matches_ipv6Hostname.2 ⟨x, rfl, hx, rfl⟩⟩, matches_portRegex.2 ⟨p, rfl, hp, rfl⟩⟩
    have hhost := HostPort.dns hd hbrackets hp
    simpa [groupsHostname, List.lookup_cons, hlookup p] using hhost

variable {p : Option JsText}

theorem exec_ne_none_of_hostPort {t h : JsText} (hpt : HostPort t h p) :
    Regex.exec hostPortRegex t ≠ none := by
  intro hnone
  cases hpt with
  | ipv6 hx hp =>
    exact Regex.exec_eq_none_iff.mp hnone _ ⟨_, _, _, _, rfl, rfl,
      ⟨_, rfl, Or.inr (Or.inl (matches_ipv6Hostname.2 ⟨h, rfl, hx, rfl⟩))⟩, matches_portRegex.2 ⟨p, rfl, hp, rfl⟩⟩
  | dns hd _ hp =>
    exact Regex.exec_eq_none_iff.mp hnone _ ⟨_, _, _, _, rfl, rfl,
      ⟨_, rfl, Or.inr (Or.inr (matches_dnsHostname.2 ⟨hd, rfl⟩))⟩, matches_portRegex.2 ⟨p, rfl, hp, rfl⟩⟩

/-! ## Splitting -/

theorem first_unique {c : UInt16} {a a' t t' : JsText} (ha : c ∉ a) (ha' : c ∉ a') (h : a ++ c :: t = a' ++ c :: t') :
    a = a' ∧ t = t' := by
  rcases List.append_eq_append_iff.mp h with ⟨b, hb, ht⟩ | ⟨b, hb, ht⟩
  · cases b with
    | nil => exact ⟨by rw [hb, List.append_nil], (List.cons.inj ht).2⟩
    | cons d b =>
      exact absurd (List.mem_append_right a List.mem_cons_self) (hb ▸ (List.cons.inj ht).1 ▸ ha')
  · cases b with
    | nil => exact ⟨by rw [hb, List.append_nil], (List.cons.inj ht).2.symm⟩
    | cons d b =>
      exact absurd (List.mem_append_right a' List.mem_cons_self) (hb ▸ (List.cons.inj ht).1 ▸ ha)

theorem last_unique {c : UInt16} {a a' t t' : JsText} (ht : c ∉ t) (ht' : c ∉ t') (h : a ++ c :: t = a' ++ c :: t') :
    a = a' ∧ t = t' := by
  have hreverse := congrArg List.reverse h
  simp only [List.reverse_append, List.reverse_cons, List.append_assoc, List.singleton_append] at hreverse
  rcases first_unique (fun hc => ht (List.mem_reverse.mp hc)) (fun hc => ht' (List.mem_reverse.mp hc)) hreverse with
    ⟨hfront, hback⟩
  exact ⟨List.reverse_injective hback, List.reverse_injective hfront⟩

theorem matches_schemeRegex :
    Regex.Matches schemeRegex t c ↔
      ∃ scheme sep, t = scheme ++ sep ∧ IsScheme scheme ∧ IsSeparator sep ∧ c = [("scheme", scheme)] := by
  simp only [Regex.Matches, schemeRegex, unit]
  constructor
  · rintro ⟨_, _, _, _, rfl, rfl, ⟨_, rfl, _, rest, _, _, rfl, rfl, ⟨u, rfl, hu, rfl⟩, hne, hall, rfl⟩, _, t₂, _, c₂, rfl,
      rfl, ⟨v, rfl, hv, rfl⟩, hslashes⟩
    rw [eq_of_unit hv]
    refine ⟨[u] ++ rest, [colon] ++ t₂, rfl, ⟨u, rest, rfl, hu, hne, hall⟩, ?_, ?_⟩
    · rcases hslashes with ⟨_, _, _, _, rfl, rfl, ⟨a, rfl, ha, rfl⟩, b, rfl, hb, rfl⟩ | ⟨rfl, rfl⟩
      · rw [eq_of_unit ha, eq_of_unit hb]
        exact Or.inr rfl
      · exact Or.inl rfl
    · rcases hslashes with ⟨_, _, _, _, rfl, rfl, ⟨a, rfl, ha, rfl⟩, b, rfl, hb, rfl⟩ | ⟨rfl, rfl⟩
      · rfl
      · rfl
  · rintro ⟨scheme, sep, rfl, ⟨u, rest, rfl, hu, hne, hall⟩, hsep, rfl⟩
    refine ⟨u :: rest, sep, [("scheme", u :: rest)], [], rfl, rfl,
      ⟨[], rfl, [u], rest, [], [], rfl, rfl, ⟨u, rfl, hu, rfl⟩, hne, hall, rfl⟩, ?_⟩
    rcases hsep with rfl | rfl
    · exact ⟨[colon], [], [], [], rfl, rfl, ⟨colon, rfl, rfl, rfl⟩, Or.inr ⟨rfl, rfl⟩⟩
    · exact ⟨[colon], [slash, slash], [], [], rfl, rfl, ⟨colon, rfl, rfl, rfl⟩,
        Or.inl ⟨[slash], [slash], [], [], rfl, rfl, ⟨slash, rfl, rfl, rfl⟩, slash, rfl, rfl, rfl⟩⟩

theorem IsScheme.colon_not_mem (h : IsScheme t) : colon ∉ t := by
  rcases h with ⟨u, rest, rfl, hu, _, hall⟩
  intro hmem
  rcases List.mem_cons.mp hmem with rfl | hmem
  · exact Bool.false_ne_true hu
  · exact Bool.false_ne_true (hall colon hmem)

theorem IsScheme.ne_nil (h : IsScheme t) : t ≠ [] := by
  rcases h with ⟨u, rest, rfl, _⟩
  exact List.cons_ne_nil u rest

theorem HostPort.head_ne_slash {t h : JsText} (hpt : HostPort t h p) (rest : JsText) :
    t ≠ slash :: rest := by
  cases hpt with
  | ipv6 _ _ =>
    intro heq
    exact absurd (List.cons.inj heq).1 (by decide)
  | dns hd _ _ =>
    rcases List.exists_cons_of_ne_nil hd.1 with ⟨u, d, rfl⟩
    intro heq
    exact hd.slash_not_mem ((List.cons.inj heq).1 ▸ List.mem_cons_self)

theorem scheme_unique {scheme scheme' sep sep' t t' h h' : JsText} {p p' : Option JsText} (hs : IsScheme scheme)
    (hs' : IsScheme scheme') (hsep : IsSeparator sep) (hsep' : IsSeparator sep') (hpt : HostPort t h p)
    (hpt' : HostPort t' h' p') (heq : scheme ++ sep ++ t = scheme' ++ sep' ++ t') :
    scheme = scheme' ∧ t = t' := by
  rcases hsep with rfl | rfl <;> rcases hsep' with rfl | rfl <;>
    simp only [List.append_assoc, List.cons_append, List.nil_append] at heq <;>
    rcases first_unique hs.colon_not_mem hs'.colon_not_mem heq with ⟨hscheme, hrest⟩
  · exact ⟨hscheme, hrest⟩
  · exact absurd hrest (hpt.head_ne_slash _)
  · exact absurd hrest.symm (hpt'.head_ne_slash _)
  · exact ⟨hscheme, (List.cons.inj (List.cons.inj hrest).2).2⟩

variable {s : JsText}

theorem splitProtoHostPort_eq_some_iff {c : ProtoHostPort} : splitProtoHostPort s = some c ↔
    (c.scheme = none ∧ ∃ p : Option JsText, HostPort s c.hostname p ∧ c.port = p.map WholeDouble.ofText) ∨
    ((∀ h p, ¬ HostPort s h p) ∧ ∃ scheme sep t, ∃ p : Option JsText, c.scheme = some scheme ∧ IsScheme scheme ∧
      IsSeparator sep ∧ s = scheme ++ sep ++ t ∧ HostPort t c.hostname p ∧ c.port = p.map WholeDouble.ofText) := by
  rw [splitProtoHostPort, protoHostPortRegex, Regex.exec_seq_lazyOpt, Option.map_eq_some_iff]
  cases hplain : Regex.exec hostPortRegex s with
  | some groups =>
    rcases hostPort_of_exec hplain with ⟨hhost, hscheme⟩
    constructor
    · rintro ⟨_, ⟨⟩, rfl⟩
      exact Or.inl ⟨hscheme, _, hhost, rfl⟩
    · rintro (⟨hnone, p, hpt, hport⟩ | ⟨hno, _⟩)
      · rcases hhost.unique hpt with ⟨hhostname, hp⟩
        refine ⟨groups, rfl, ?_⟩
        rw [hscheme, hhostname, hp, ← hport, ← hnone]
      · exact absurd hhost (hno _ _)
  | none =>
    have hno : ∀ h p, ¬ HostPort s h p := fun h p hpt => exec_ne_none_of_hostPort hpt hplain
    simp only [Option.none_or]
    constructor
    · rintro ⟨groups, hexec, rfl⟩
      rcases Regex.exists_of_exec_seq hexec with ⟨t, t', d, d', rfl, rfl, hmatch, hrest⟩
      rcases matches_schemeRegex.1 hmatch with ⟨scheme, sep, rfl, hscheme, hsep, rfl⟩
      have hhost := (hostPort_of_exec hrest).1
      refine Or.inr ⟨hno, scheme, sep, t', d'.lookup "port", ?_, hscheme, hsep, rfl, ?_, ?_⟩
      · simp
      · simpa [groupsHostname, List.lookup_cons] using hhost
      · simp [List.lookup_cons]
    · rintro (⟨_, p, hpt, _⟩ | ⟨_, scheme, sep, t, p, hsome, hscheme, hsep, rfl, hpt, hport⟩)
      · exact absurd hpt (hno _ _)
      · cases hexec : Regex.exec (.seq schemeRegex hostPortRegex) (scheme ++ sep ++ t) with
        | none =>
          cases hrest : Regex.exec hostPortRegex t with
          | none => exact absurd hrest (exec_ne_none_of_hostPort hpt)
          | some d =>
            exact absurd ⟨scheme ++ sep, t, _, d, rfl, rfl,
              matches_schemeRegex.2 ⟨scheme, sep, rfl, hscheme, hsep, rfl⟩, Regex.matches_of_exec hrest⟩
              (Regex.exec_eq_none_iff.mp hexec _)
        | some groups =>
          rcases Regex.exists_of_exec_seq hexec with ⟨_, t', _, d', htext, rfl, hmatch, hrest⟩
          rcases matches_schemeRegex.1 hmatch with ⟨scheme', sep', rfl, hscheme', hsep', rfl⟩
          have hhost := (hostPort_of_exec hrest).1
          rcases scheme_unique hscheme hscheme' hsep hsep' hpt hhost htext with ⟨rfl, rfl⟩
          rcases hhost.unique hpt with ⟨hhostname, hp⟩
          refine ⟨_, rfl, ?_⟩
          have hgroups : groupsHostname ([("scheme", scheme)] ++ d') = groupsHostname d' := by
            simp [groupsHostname, List.lookup_cons]
          have hschemes : ([("scheme", scheme)] ++ d').lookup "scheme" = some scheme := by simp
          have hports : ([("scheme", scheme)] ++ d').lookup "port" = d'.lookup "port" := by simp [List.lookup_cons]
          rw [hgroups, hschemes, hports, hhostname, hp, ← hport, ← hsome]

/-! ## Printing and splitting again -/

/-- A scheme and two slashes before a hostname of digits alone, or digits alone in brackets, and no port. -/
def LosesSeparator (s : JsText) : Prop :=
  ∃ scheme host, IsScheme scheme ∧ IsDigits host ∧
    (s = scheme ++ [colon, slash, slash] ++ host ∨ ∃ sep, IsSeparator sep ∧ s = scheme ++ sep ++ bracketed host)

/-- The port is printed with an exponent. -/
def HasLargePort (s : JsText) : Prop :=
  ∃ front digits, s = front ++ colon :: digits ∧ IsDigits digits ∧ (WholeDouble.ofText digits).IsLarge

theorem hostnameText_of_not_mem {h : JsText} (hcolon : colon ∉ h) : hostnameText h = h := if_neg hcolon

theorem HostPort.written {t h : JsText} {p q : Option JsText} (hpt : HostPort t h p)
    (hq : ∀ digits ∈ q, IsDigits digits) : HostPort (hostnameText h ++ portSuffix q) h q := by
  cases hpt with
  | ipv6 hx _ =>
    by_cases hcolon : colon ∈ h
    · rw [hostnameText, if_pos hcolon]
      exact HostPort.ipv6 hx hq
    · rw [hostnameText_of_not_mem hcolon]
      refine HostPort.dns ⟨hx.1, fun u hu => ?_⟩ (fun x _ hbracket => ?_) hq
      · simp only [isDnsUnit, Bool.and_eq_true, bne_iff_ne]
        exact ⟨fun heq => hcolon (heq ▸ hu), fun heq => hx.not_mem (c := slash) (by decide) (heq ▸ hu)⟩
      · apply hx.not_mem (c := openBracket) (by decide)
        rw [hbracket]
        exact List.mem_cons_self
  | dns hd hbrackets _ =>
    rw [hostnameText_of_not_mem hd.colon_not_mem]
    exact HostPort.dns hd hbrackets hq

theorem exists_printed (hsmall : ∀ digits ∈ p, ¬ (WholeDouble.ofText digits).IsLarge) :
    ∃ q : Option JsText, portText (p.map WholeDouble.ofText) = portSuffix q ∧ (∀ digits ∈ q, IsDigits digits) ∧
      q.map WholeDouble.ofText = p.map WholeDouble.ofText := by
  cases p with
  | none => exact ⟨none, rfl, nofun, rfl⟩
  | some digits =>
    rcases WholeDouble.ofText_text (hsmall digits rfl) with ⟨hne, hall, hread⟩
    refine ⟨some (WholeDouble.ofText digits).text, rfl, fun text htext => ?_, ?_⟩
    · rw [← Option.mem_some.mp htext]
      exact ⟨hne, hall⟩
    · rw [Option.map_some, Option.map_some, hread]

theorem hostPort_scheme {scheme digits : JsText} (hscheme : IsScheme scheme) (hdigits : IsDigits digits) :
    HostPort (scheme ++ colon :: digits) scheme (some digits) := by
  rcases hscheme with ⟨u, rest, rfl, hu, hne, hall⟩
  refine HostPort.dns (p := some digits) ⟨List.cons_ne_nil _ _, fun v hv => ?_⟩ (fun x _ hbracket => ?_) ?_
  · have hv' : isLowerOrDigit v = true := by
      rcases List.mem_cons.mp hv with rfl | hv
      · rw [isLowerOrDigit, hu, Bool.true_or]
      · exact hall v hv
    simp only [isDnsUnit, Bool.and_eq_true, bne_iff_ne]
    constructor
    all_goals
      rintro rfl
      exact Bool.false_ne_true hv'
  · rw [(List.cons.inj hbracket).1] at hu
    exact Bool.false_ne_true hu
  · rintro _ ⟨⟩
    exact hdigits

theorem isDigits_of_hostPort {scheme rest h : JsText} (hscheme : IsScheme scheme)
    (hpt : HostPort (scheme ++ colon :: rest) h p) : IsDigits rest := by
  generalize ht : scheme ++ colon :: rest = t at hpt
  cases hpt with
  | ipv6 hx hp =>
    rcases hscheme with ⟨u, scheme, rfl, hu, _⟩
    rw [(List.cons.inj ht).1] at hu
    exact absurd hu (by decide)
  | dns hd _ hp =>
    cases p with
    | none =>
      rw [portSuffix, List.append_nil] at ht
      exact absurd (ht ▸ List.mem_append_right _ List.mem_cons_self) hd.colon_not_mem
    | some digits =>
      rw [(first_unique hscheme.colon_not_mem hd.colon_not_mem ht).2]
      exact hp digits rfl

theorem IsBody.ne_port {b front digits : JsText} (hb : IsBody b) (hdigits : IsDigits digits) :
    b ≠ front ++ colon :: digits := by
  rintro rfl
  rcases hb with hcolon | ⟨c, hc⟩
  · exact hcolon (List.mem_append_right _ List.mem_cons_self)
  · have hlast : (front ++ colon :: digits).getLast? = some closeBracket := by rw [hc, List.getLast?_concat]
    rw [List.getLast?_append_of_ne_nil _ (List.cons_ne_nil _ _)] at hlast
    rcases List.mem_cons.mp (List.mem_of_getLast? hlast) with hu | hmem
    · exact absurd hu (by decide)
    · exact not_mem_digits (by decide) hdigits hmem

theorem HostPort.exists_body {t h : JsText} (hpt : HostPort t h p) :
    ∃ b, IsBody b ∧ t = b ++ portSuffix p := by
  cases hpt with
  | ipv6 _ _ => exact ⟨bracketed h, isBody_bracketed h, rfl⟩
  | dns hd _ _ => exact ⟨h, Or.inl hd.colon_not_mem, rfl⟩

theorem HostPort.isDigits {t h : JsText} (hpt : HostPort t h p) :
    ∀ digits ∈ p, IsDigits digits := by
  cases hpt with
  | ipv6 _ hp | dns _ _ hp => exact hp

theorem exists_of_split_port {c : ProtoHostPort} (h : splitProtoHostPort s = some c) {x : WholeDouble}
    (hport : c.port = some x) :
    ∃ front digits, s = front ++ colon :: digits ∧ IsDigits digits ∧ x = WholeDouble.ofText digits := by
  rcases splitProtoHostPort_eq_some_iff.1 h with
    ⟨_, p, hpt, hp⟩ | ⟨_, scheme, sep, t, p, _, _, _, rfl, hpt, hp⟩
  · rcases Option.map_eq_some_iff.mp (hp.symm.trans hport) with ⟨digits, rfl, rfl⟩
    rcases hpt.exists_body with ⟨b, _, rfl⟩
    exact ⟨b, digits, rfl, hpt.isDigits digits rfl, rfl⟩
  · rcases Option.map_eq_some_iff.mp (hp.symm.trans hport) with ⟨digits, rfl, rfl⟩
    rcases hpt.exists_body with ⟨b, _, rfl⟩
    exact ⟨scheme ++ sep ++ b, digits, (List.append_assoc _ _ _).symm, hpt.isDigits digits rfl, rfl⟩

/-- A large port is the port that is split off. -/
theorem hasLargePort_iff {c : ProtoHostPort} (h : splitProtoHostPort s = some c) :
    HasLargePort s ↔ ∃ x ∈ c.port, x.IsLarge := by
  have hcolon : ∀ {digits}, IsDigits digits → colon ∉ digits := fun hdigits => not_mem_digits (by decide) hdigits
  constructor
  · rintro ⟨front, digits, hs, hdigits, hlarge⟩
    cases hport : c.port with
    | some x =>
      rcases exists_of_split_port h hport with ⟨front', digits', hs', hdigits', rfl⟩
      rw [(last_unique (hcolon hdigits) (hcolon hdigits') (hs.symm.trans hs')).2] at hlarge
      exact ⟨_, rfl, hlarge⟩
    | none =>
      exfalso
      rcases splitProtoHostPort_eq_some_iff.1 h with
        ⟨_, p, hpt, hp⟩ | ⟨hno, scheme, sep, t, p, _, hscheme, hsep, rfl, hpt, hp⟩
      · rcases hpt.exists_body with ⟨b, hb, rfl⟩
        rw [Option.map_eq_none_iff.mp (hp.symm.trans hport), portSuffix, List.append_nil] at hs
        exact hb.ne_port hdigits hs
      · rcases hpt.exists_body with ⟨b, hb, rfl⟩
        have hnone : p = none := Option.map_eq_none_iff.mp (hp.symm.trans hport)
        subst hnone
        rw [portSuffix, List.append_nil] at hs
        rcases List.append_eq_append_iff.mp hs with ⟨a, hfront, hbody⟩ | ⟨a, hsep', hbody⟩
        · exact hb.ne_port hdigits hbody
        · cases a with
          | nil =>
            have hport : b = [] ++ colon :: digits := hbody.symm
            exact hb.ne_port hdigits hport
          | cons u a =>
            rcases List.cons.inj hbody with ⟨rfl, rfl⟩
            have ha : colon ∉ a := fun hmem => hcolon hdigits (List.mem_append_left b hmem)
            rcases hsep with rfl | rfl
            · rcases last_unique List.not_mem_nil ha hsep' with ⟨rfl, rfl⟩
              apply hno scheme (some b)
              simpa [portSuffix] using hostPort_scheme hscheme hdigits
            · have hslashes := (last_unique (by decide) ha hsep').2
              rw [← hslashes] at hdigits
              exact not_mem_digits (c := slash) (by decide) hdigits List.mem_cons_self
  · rintro ⟨x, hx, hlarge⟩
    rcases exists_of_split_port h hx with ⟨front, digits, hs, hdigits, rfl⟩
    exact ⟨front, digits, hs, hdigits, hlarge⟩

theorem join_eq {c : ProtoHostPort} {q : Option JsText} (hq : portText c.port = portSuffix q) :
    joinProtoHostPort c = schemeText c.scheme ++ (hostnameText c.hostname ++ portSuffix q) := by
  rw [joinProtoHostPort, hq, List.append_assoc]

theorem split_join_ne {c : ProtoHostPort} {x : WholeDouble} (hx : c.port = some x) (hlarge : x.IsLarge) :
    splitProtoHostPort (joinProtoHostPort c) ≠ some c := by
  intro h
  rcases exists_of_split_port h hx with ⟨front, digits, hs, hdigits, _⟩
  rw [joinProtoHostPort, hx, portText] at hs
  have htext := (last_unique (WholeDouble.colon_not_mem_text x) (not_mem_digits (by decide) hdigits) hs).2
  rcases WholeDouble.exists_letter hlarge with ⟨u, hu, hletter⟩
  rw [htext] at hu
  exact Bool.false_ne_true (hletter.symm.trans (hdigits.2 u hu))

/-- An address that loses its separator has a port once it is joined. -/
theorem split_join_ne_of_losesSeparator {c : ProtoHostPort} (h : splitProtoHostPort s = some c)
    (hloses : LosesSeparator s) : splitProtoHostPort (joinProtoHostPort c) ≠ some c := by
  rcases hloses with ⟨scheme, host, hscheme, hhost, hs⟩
  have hcolon : colon ∉ host := not_mem_digits (by decide) hhost
  have hbracket : openBracket ∉ host := not_mem_digits (by decide) hhost
  -- Both kinds of text are split into the scheme and the digits.
  have hc : c = { scheme := some scheme, hostname := host, port := none } := by
    have hsplit : splitProtoHostPort s = some { scheme := some scheme, hostname := host, port := none } := by
      apply splitProtoHostPort_eq_some_iff.2
      right
      rcases hs with rfl | ⟨sep, hsep, rfl⟩
      · have hdns : HostPort host host none := by
          have := HostPort.dns (d := host) (p := none) ⟨hhost.1, fun u hu => isDnsUnit_of_isDigit (hhost.2 u hu)⟩
            (fun x _ hx => hbracket (hx ▸ List.mem_cons_self)) nofun
          simpa [portSuffix] using this
        refine ⟨fun h p hpt => ?_, scheme, _, host, none, rfl, hscheme, Or.inr rfl, rfl, hdns, rfl⟩
        have hdigits : IsDigits ([slash, slash] ++ host) := isDigits_of_hostPort hscheme (by simpa using hpt)
        exact not_mem_digits (c := slash) (by decide) hdigits List.mem_cons_self
      · have hipv6 : HostPort (bracketed host) host none := by
          have hx : IsIpv6 host := ⟨hhost.1, fun u hu => by simp [isIpv6Unit, hhost.2 u hu]⟩
          simpa [portSuffix] using HostPort.ipv6 (p := none) hx nofun
        refine ⟨fun h p hpt => ?_, scheme, sep, bracketed host, none, rfl, hscheme, hsep, rfl, hipv6, rfl⟩
        obtain ⟨slashes, rfl⟩ : ∃ slashes, sep = colon :: slashes := by
          rcases hsep with rfl | rfl
          all_goals exact ⟨_, rfl⟩
        have hdigits : IsDigits (slashes ++ bracketed host) := isDigits_of_hostPort hscheme (by simpa using hpt)
        exact not_mem_digits (c := openBracket) (by decide) hdigits (List.mem_append_right _ List.mem_cons_self)
    exact Option.some.inj (h.symm.trans hsplit)
  intro hagain
  rcases splitProtoHostPort_eq_some_iff.1 hagain with ⟨hnone, _⟩ | ⟨hno, _⟩
  · rw [hc] at hnone
    exact nomatch hnone
  · apply hno scheme (some host)
    rw [hc, join_eq (q := none) rfl, schemeText, if_neg hscheme.ne_nil, hostnameText_of_not_mem hcolon]
    simpa [portSuffix] using hostPort_scheme hscheme hhost

theorem split_join_eq {c : ProtoHostPort} (h : splitProtoHostPort s = some c)
    (hseparator : ¬ LosesSeparator s) (hsmall : ∀ x ∈ c.port, ¬ x.IsLarge) :
    splitProtoHostPort (joinProtoHostPort c) = some c := by
  rw [splitProtoHostPort_eq_some_iff]
  rcases splitProtoHostPort_eq_some_iff.1 h with
    ⟨hnone, p, hpt, hp⟩ | ⟨hno, scheme, sep, t, p, hsome, hscheme, hsep, rfl, hpt, hp⟩
  · rw [hp] at hsmall
    rcases exists_printed (p := p) fun digits hdigits => hsmall _ (Option.mem_map_of_mem _ hdigits) with
      ⟨q, hq, hdigits, hread⟩
    refine Or.inl ⟨hnone, q, ?_, hp.trans hread.symm⟩
    rw [join_eq (hp ▸ hq), hnone]
    exact hpt.written hdigits
  · rw [hp] at hsmall
    rcases exists_printed (p := p) fun digits hdigits => hsmall _ (Option.mem_map_of_mem _ hdigits) with
      ⟨q, hq, hdigits, hread⟩
    have hjoin : joinProtoHostPort c = scheme ++ [colon] ++ (hostnameText c.hostname ++ portSuffix q) := by
      rw [join_eq (hp ▸ hq), hsome, schemeText, if_neg hscheme.ne_nil]
    refine Or.inr ⟨fun h' p' hpt' => ?_, scheme, [colon], _, q, hsome, hscheme, Or.inl rfl, hjoin,
      hpt.written hdigits, hp.trans hread.symm⟩
    rw [hjoin, List.append_assoc, List.singleton_append] at hpt'
    have hrest := isDigits_of_hostPort hscheme hpt'
    -- What follows the scheme would be a port, so it is a hostname of digits alone.
    cases q with
    | some digits =>
      exact not_mem_digits (c := colon) (by decide) hrest (List.mem_append_right _ List.mem_cons_self)
    | none =>
      rw [portSuffix, List.append_nil] at hrest
      have hhost : hostnameText c.hostname = c.hostname := by
        apply hostnameText_of_not_mem
        intro hcolon
        rw [hostnameText, if_pos hcolon] at hrest
        exact not_mem_digits (c := openBracket) (by decide) hrest List.mem_cons_self
      rw [hhost] at hrest
      have hpnone : p = none := Option.map_eq_none_iff.mp hread.symm
      subst hpnone
      generalize c.hostname = host at hrest hpt
      cases hpt with
      | ipv6 hx _ =>
        refine hseparator ⟨scheme, host, hscheme, hrest, Or.inr ⟨sep, hsep, ?_⟩⟩
        rw [portSuffix, List.append_nil]
      | dns hd _ _ =>
        rcases hsep with rfl | rfl
        · apply hno scheme (some host)
          simpa [portSuffix] using hostPort_scheme hscheme hrest
        · refine hseparator ⟨scheme, host, hscheme, hrest, Or.inl ?_⟩
          rw [portSuffix, List.append_nil]

/-! ## Normalized addresses -/

theorem normalizeGrpcEndpointAddress_eq_some_iff {s r : JsText} {defaultPort : Fin 65536} :
    normalizeGrpcEndpointAddress s defaultPort = some r ↔ ∃ c, splitProtoHostPort s = some c ∧ c.scheme = none ∧
      r = joinProtoHostPort { c with port := some (c.port.getD (.finite defaultPort)) } := by
  rw [normalizeGrpcEndpointAddress]
  cases splitProtoHostPort s with
  | none => exact iff_of_false nofun nofun
  | some c =>
    simp only [Option.ite_none_left_eq_some, Option.some.injEq, exists_eq_left', Bool.not_eq_true,
      Option.isSome_eq_false_iff, Option.isNone_iff_eq_none, eq_comm (a := r)]

theorem exists_ofText (port : Fin 65536) : WholeDouble.ofText (decimal port) = .finite port := by
  have hdouble : nearestWhole port = port := by
    have hsmall : ((port : ℕ) : ℤ).natAbs < 2 ^ 53 := by omega
    rw [nearestWhole, (roundToDouble_eq_self_iff _).mpr (ulp_dvd_of_small hsmall), Int.toNat_natCast]
  have hbound : (port : ℕ) < 2 ^ WholeDouble.maxExponent :=
    WholeDouble.lt_two_pow_maxExponent (k := 16) port.isLt (by decide)
  rw [WholeDouble.ofText, ofDecimal_decimal, hdouble, if_pos hbound]

theorem split_normalize {c : ProtoHostPort} (defaultPort : Fin 65536) (h : splitProtoHostPort s = some c)
    (hscheme : c.scheme = none) (hsmall : ∀ x ∈ c.port, ¬ x.IsLarge) :
    splitProtoHostPort (joinProtoHostPort { c with port := some (c.port.getD (.finite defaultPort)) }) =
      some { c with port := some (c.port.getD (.finite defaultPort)) } := by
  rw [splitProtoHostPort_eq_some_iff]
  rcases splitProtoHostPort_eq_some_iff.1 h with ⟨_, p, hpt, hp⟩ | ⟨_, scheme, _, _, _, hsome, _⟩
  · -- The port is that of a text, which is the given one or the text of the default.
    obtain ⟨digits, hdigits, hlarge⟩ : ∃ digits, c.port.getD (.finite defaultPort) = WholeDouble.ofText digits ∧
        ¬ (WholeDouble.ofText digits).IsLarge := by
      cases p with
      | none =>
        refine ⟨decimal defaultPort, ?_, ?_⟩
        · rw [hp, exists_ofText]
          rfl
        · rw [exists_ofText]
          exact Nat.not_le.mpr (defaultPort.isLt.trans (by norm_num))
      | some digits =>
        refine ⟨digits, by rw [hp]; rfl, hsmall _ ?_⟩
        rw [hp]
        rfl
    rcases exists_printed (p := some digits) (fun _ heq => Option.some.inj heq ▸ hlarge) with ⟨q, hq, hqdigits, hread⟩
    refine Or.inl ⟨hscheme, q, ?_, ?_⟩
    · rw [join_eq (q := q) (by rw [hdigits]; exact hq), hscheme]
      exact hpt.written hqdigits
    · rw [hread, hdigits]
      rfl
  · rw [hscheme] at hsome
    exact nomatch hsome

/-- An address keeps its parts when it is joined unless it loses its separator or its port is large, and a normalized
address keeps the hostname and the port unless the port is large. -/
theorem endpoint_addresses (s : JsText) :
    (∀ c, splitProtoHostPort s = some c →
      (splitProtoHostPort (joinProtoHostPort c) = some c ↔ ¬ LosesSeparator s ∧ ¬ HasLargePort s)) ∧
    ∀ (defaultPort : Fin 65536) r, normalizeGrpcEndpointAddress s defaultPort = some r →
      ((normalizeGrpcEndpointAddress r defaultPort = some r ∧
          ∃ c, splitProtoHostPort s = some c ∧ splitProtoHostPort r =
            some { scheme := none, hostname := c.hostname, port := some (c.port.getD (.finite defaultPort)) }) ↔
        ¬ HasLargePort s) := by
  constructor
  · intro c hc
    constructor
    · intro hagain
      refine ⟨fun hloses => split_join_ne_of_losesSeparator hc hloses hagain, fun hlarge => ?_⟩
      rcases (hasLargePort_iff hc).mp hlarge with ⟨x, hx, hxlarge⟩
      exact split_join_ne hx hxlarge hagain
    · rintro ⟨hseparator, hsmall⟩
      exact split_join_eq hc hseparator fun x hx hlarge => hsmall ((hasLargePort_iff hc).mpr ⟨x, hx, hlarge⟩)
  · intro defaultPort r hr
    rcases normalizeGrpcEndpointAddress_eq_some_iff.1 hr with ⟨c, hc, hscheme, rfl⟩
    constructor
    · rintro ⟨_, c', hc', hagain⟩ hlarge
      rcases (hasLargePort_iff hc).mp hlarge with ⟨x, hx, hxlarge⟩
      rw [hc] at hc'
      cases hc'
      apply split_join_ne (c := { c with port := some (c.port.getD (.finite defaultPort)) }) (x := x) _ hxlarge
      · rw [hagain, ← hscheme]
      · rw [Option.mem_def.mp hx]
        rfl
    · intro hsmall
      have hagain := split_normalize defaultPort hc hscheme fun x hx hlarge =>
        hsmall ((hasLargePort_iff hc).mpr ⟨x, hx, hlarge⟩)
      refine ⟨normalizeGrpcEndpointAddress_eq_some_iff.2 ⟨_, hagain, hscheme, rfl⟩, c, hc, ?_⟩
      rw [hagain, ← hscheme]

/-- A hostname of digits that follows a scheme becomes a port. -/
theorem scheme_becomes_hostname :
    ∃ c c', splitProtoHostPort (JsText.ofString "http://1234") = some c ∧
      splitProtoHostPort (joinProtoHostPort c) = some c' ∧
      c.hostname = JsText.ofString "1234" ∧ c'.hostname = JsText.ofString "http" := by
  refine ⟨{ scheme := some (JsText.ofString "http"), hostname := JsText.ofString "1234", port := none },
    { scheme := none, hostname := JsText.ofString "http", port := some (.finite 1234) }, ?_, ?_, rfl, rfl⟩
  · decide +kernel
  · decide +kernel

theorem endpoint_addresses_ipv6 :
    ∃ c, splitProtoHostPort (JsText.ofString "[::1]:80") = some c ∧
      (splitProtoHostPort (joinProtoHostPort c) = some c ↔
        ¬ LosesSeparator (JsText.ofString "[::1]:80") ∧ ¬ HasLargePort (JsText.ofString "[::1]:80")) ∧
      ∃ r, normalizeGrpcEndpointAddress (JsText.ofString "[::1]:80") 7233 = some r ∧
        ((normalizeGrpcEndpointAddress r 7233 = some r ∧
          ∃ c, splitProtoHostPort (JsText.ofString "[::1]:80") = some c ∧ splitProtoHostPort r =
            some { scheme := none, hostname := c.hostname, port := some (c.port.getD (.finite 7233)) }) ↔
        ¬ HasLargePort (JsText.ofString "[::1]:80")) :=
  ⟨{ scheme := none, hostname := JsText.ofString "::1", port := some (.finite 80) }, by decide +kernel,
    (endpoint_addresses (JsText.ofString "[::1]:80")).1 _ (by decide +kernel),
    JsText.ofString "[::1]:80", by decide +kernel,
    (endpoint_addresses (JsText.ofString "[::1]:80")).2 7233 _ (by decide +kernel)⟩

end ParseHostUri
end TemporalSdk.Client
