import TemporalSdk.Machine.Base64Url
import TemporalSdk.Machine.JsonText
import TemporalSdk.Machine.Results

/-!
# OperationTokens — tokens of Nexus operations

`packages/nexus/src/token.ts`: a token is the JSON of its fields in unpadded base64url.  What is loaded is the parsed
object, all members of which are kept.
-/

namespace TemporalSdk.Nexus
namespace OperationTokens

open Machine
open Machine (JsText)

inductive OperationTokenType where
  | WORKFLOW_RUN
  | ACTIVITY
  | UPDATE_WORKFLOW
deriving DecidableEq

def OperationTokenType.value : OperationTokenType → ℕ
  | .WORKFLOW_RUN => 1
  | .ACTIVITY => 2
  | .UPDATE_WORKFLOW => 3

def isOperationTokenType (value : Double) : Bool :=
  [OperationTokenType.WORKFLOW_RUN, OperationTokenType.ACTIVITY, OperationTokenType.UPDATE_WORKFLOW].any fun type =>
    value = .finite type.value

inductive TypeError where
  | message (text : String)
  -- `invalid operation token: unknown token type: ${token.t}`
  | unknownTokenType (t : Double)
  -- `invalid ${kind} token type: ${token.t}, expected: ${expected}`
  | wrongTokenType (kind : String) (t : Option Json) (expected : OperationTokenType)

abbrev OperationToken := List (JsText × Json)

/-- The last of the members of a name is what the parsed object has. -/
def field (token : OperationToken) (name : String) : Option Json :=
  (token.reverse.find? fun member => member.1 = JsText.ofString name).map Prod.snd

def typeOfField (value : Option Json) : String := (value.map Json.typeOf).getD "undefined"

/-! ## Base64url -/

def padding : UInt16 := 0x3d

def base64URLEncodeNoPadding (str : JsText) : JsText :=
  ((Base64Url.encode (JsText.utf8 str)).reverse.dropWhile (· == padding)).reverse

/-- `Buffer.from(str, 'base64url')`, for letters with padding behind them. -/
def bufferFrom (str : JsText) : List UInt8 := Base64Url.decode (str.takeWhile (· != padding))

def base64URLDecodeNoPadding (str : JsText) : Except TypeError JsText :=
  if str.all Base64Url.isLetter then
    let padded := if 0 < str.length % 4 then str ++ List.replicate (4 - str.length % 4) padding else str
    .ok (JsText.ofUtf8 (bufferFrom padded))
  else .error (.message "invalid base64URL encoded string: contains invalid characters")

/-! ## Generating -/

/-- The literal of a token. -/
def member (name : String) (value : Option Json.Scalar) : JsText × Option Json.Scalar := (JsText.ofString name, value)

def encodeOperationToken (token : List (JsText × Option Json.Scalar)) : JsText :=
  base64URLEncodeNoPadding (Json.stringify token)

def workflowRunToken (ns workflowId : JsText) : List (JsText × Option Json.Scalar) :=
  [member "t" (some (.whole OperationTokenType.WORKFLOW_RUN.value)), member "ns" (some (.text ns)),
    member "wid" (some (.text workflowId))]

def updateWorkflowToken (ns workflowId runId updateId : JsText) : List (JsText × Option Json.Scalar) :=
  [member "t" (some (.whole OperationTokenType.UPDATE_WORKFLOW.value)), member "ns" (some (.text ns)),
    member "wid" (some (.text workflowId)), member "rid" (if runId ≠ [] then some (.text runId) else none),
    member "uid" (some (.text updateId))]

def activityToken (ns activityId runId : JsText) : List (JsText × Option Json.Scalar) :=
  [member "t" (some (.whole OperationTokenType.ACTIVITY.value)), member "ns" (some (.text ns)),
    member "aid" (some (.text activityId)), member "rid" (some (.text runId))]

def generateWorkflowRunOperationToken (ns workflowId : JsText) : JsText :=
  encodeOperationToken (workflowRunToken ns workflowId)

def generateUpdateWorkflowOperationToken (ns workflowId runId updateId : JsText) : Except TypeError JsText :=
  if ns = [] then .error (.message "invalid update workflow token: missing namespace")
  else if workflowId = [] then .error (.message "invalid update workflow token: missing workflow ID (wid)")
  else if updateId = [] then .error (.message "invalid update workflow token: missing update ID (uid)")
  else .ok (base64URLEncodeNoPadding (Json.stringify (updateWorkflowToken ns workflowId runId updateId)))

def generateActivityOperationToken (ns activityId runId : JsText) : JsText :=
  encodeOperationToken (activityToken ns activityId runId)

/-! ## Loading -/

/-- The fields of what was parsed, unless `typeof token !== 'object' || token == null`.  An array has none of them. -/
def fieldsOf : Json → Option OperationToken
  | .object members => some members
  | .array _ => some []
  | _ => none

/-- `token.v !== undefined && token.v !== 0` -/
def checkVersion (token : OperationToken) : Except TypeError Unit :=
  match field token "v" with
  | none | some (.number (.finite 0)) => .ok ()
  | _ => .error (.message "invalid operation token: \"v\" field should not be present")

def checkType (token : OperationToken) : Except TypeError Unit :=
  match field token "t" with
  | some (.number t) => if isOperationTokenType t then .ok () else .error (.unknownTokenType t)
  | t => .error (.message ("invalid operation token: expected token type to be a number, got " ++ typeOfField t))

def checkNamespace (token : OperationToken) : Except TypeError Unit :=
  match field token "ns" with
  | some (.string _) => .ok ()
  | ns => .error (.message ("invalid operation token: expected namespace to be a string, got " ++ typeOfField ns))

/-- The checks of the common fields. -/
def checkOperationToken (token : OperationToken) : Except TypeError OperationToken := do
  checkVersion token
  checkType token
  checkNamespace token
  return token

def loadOperationToken (data : JsText) : Except TypeError OperationToken :=
  if data = [] then .error (.message "invalid operation token: token is empty")
  else
    match base64URLDecodeNoPadding data with
    | .error _ => .error (.message "failed to decode token")
    | .ok decoded =>
      match Json.parse decoded with
      | none => .error (.message "failed to unmarshal Operation token")
      | some parsed =>
        match fieldsOf parsed with
        | none => .error (.message ("invalid operation token: expected object, got " ++ parsed.typeOf))
        | some token => checkOperationToken token

def assertTokenType (kind : String) (type : OperationTokenType) (token : OperationToken) : Except TypeError Unit :=
  match field token "t" with
  | some (.number t) =>
    if t = .finite type.value then .ok () else .error (.wrongTokenType kind (some (.number t)) type)
  | t => .error (.wrongTokenType kind t type)

/-- `!token[name] || typeof token[name] !== 'string'` -/
def assertText (token : OperationToken) (name message : String) : Except TypeError Unit :=
  match field token name with
  | some (.string (_ :: _)) => .ok ()
  | _ => .error (.message message)

def assertWorkflowRunOperationToken (token : OperationToken) : Except TypeError Unit := do
  assertTokenType "workflow" .WORKFLOW_RUN token
  assertText token "wid" "invalid workflow run token: missing workflow ID (wid)"

def assertUpdateWorkflowOperationToken (token : OperationToken) : Except TypeError Unit := do
  assertTokenType "update workflow" .UPDATE_WORKFLOW token
  assertText token "wid" "invalid update workflow token: missing workflow ID (wid)"
  assertText token "uid" "invalid update workflow token: missing update ID (uid)"

def assertActivityOperationToken (token : OperationToken) : Except TypeError Unit := do
  assertTokenType "activity" .ACTIVITY token
  assertText token "aid" "invalid activity token: missing or invalid activity ID (aid)"
  assertText token "rid" "invalid activity token: missing or invalid activity run ID (rid)"

def assertOperationToken : OperationTokenType → OperationToken → Except TypeError Unit
  | .WORKFLOW_RUN => assertWorkflowRunOperationToken
  | .ACTIVITY => assertActivityOperationToken
  | .UPDATE_WORKFLOW => assertUpdateWorkflowOperationToken

/-- `loadWorkflowRunOperationToken`, `loadUpdateWorkflowOperationToken`, and the two calls for an activity. -/
def loadAs (type : OperationTokenType) (data : JsText) : Except TypeError OperationToken := do
  let token ← loadOperationToken data
  assertOperationToken type token
  return token

/-! ## Text and letters -/

theorem padding_not_letter {u : UInt16} (h : Base64Url.isLetter u = true) : (u != padding) = true := by
  rw [bne_iff_ne]
  rintro rfl
  exact Bool.false_ne_true h

theorem base64URLEncodeNoPadding_eq (str : JsText) :
    base64URLEncodeNoPadding str = Base64Url.encode (JsText.utf8 str) := by
  rw [base64URLEncodeNoPadding]
  cases hreverse : (Base64Url.encode (JsText.utf8 str)).reverse with
  | nil => rw [List.dropWhile_nil, ← hreverse, List.reverse_reverse]
  | cons u rest =>
    have hu : Base64Url.isLetter u = true := by
      have hmem : u ∈ Base64Url.encode (JsText.utf8 str) := by
        rw [← List.mem_reverse, hreverse]
        exact List.mem_cons_self
      exact Base64Url.isLetter_of_mem_encode hmem
    have hne : (u == padding) = false := by simpa using padding_not_letter hu
    rw [List.dropWhile_cons, hne, if_neg Bool.false_ne_true, ← hreverse, List.reverse_reverse]

theorem bufferFrom_padded {str : JsText} (h : ∀ u ∈ str, Base64Url.isLetter u = true) (n : ℕ) :
    bufferFrom (str ++ List.replicate n padding) = Base64Url.decode str := by
  have htake : (str ++ List.replicate n padding).takeWhile (· != padding) = str := by
    rw [List.takeWhile_append_of_pos fun u hu => padding_not_letter (h u hu)]
    cases n with
    | zero => simp
    | succ n => simp [List.replicate_succ]
  rw [bufferFrom, htake]

theorem base64URLDecodeNoPadding_encode {text : JsText} (h : text.WellFormed) :
    base64URLDecodeNoPadding (base64URLEncodeNoPadding text) = .ok text := by
  have hletters : ∀ u ∈ Base64Url.encode (JsText.utf8 text), Base64Url.isLetter u = true :=
    fun u hu => Base64Url.isLetter_of_mem_encode hu
  have hall : (Base64Url.encode (JsText.utf8 text)).all Base64Url.isLetter = true := List.all_eq_true.mpr hletters
  have hread : JsText.ofUtf8 (Base64Url.decode (Base64Url.encode (JsText.utf8 text))) = text := by
    rw [Base64Url.decode_encode, JsText.ofUtf8_utf8, JsText.ofChars_scalarValues h]
  rw [base64URLEncodeNoPadding_eq, base64URLDecodeNoPadding, if_pos hall]
  simp only
  split
  · rw [bufferFrom_padded hletters, hread]
  · have hplain := bufferFrom_padded hletters 0
    rw [List.replicate_zero, List.append_nil] at hplain
    rw [hplain, hread]

theorem encode_eq_nil_iff {text : JsText} (h : text.WellFormed) : base64URLEncodeNoPadding text = [] ↔ text = [] := by
  constructor
  · intro hnil
    have hread := base64URLDecodeNoPadding_encode h
    rw [hnil] at hread
    cases hread
    rfl
  · rintro rfl
    rfl

/-! ## What is loaded -/

def OperationTokenType.required : OperationTokenType → List String
  | .WORKFLOW_RUN => ["wid"]
  | .ACTIVITY => ["aid", "rid"]
  | .UPDATE_WORKFLOW => ["wid", "uid"]

/-- An object of a type and of version 0, with all that the type requires. -/
structure IsToken (type : OperationTokenType) (token : OperationToken) : Prop where
  version : ∀ v ∈ field token "v", v = .number (.finite 0)
  type_eq : field token "t" = some (.number (.finite type.value))
  ns : ∃ ns, field token "ns" = some (.string ns)
  required : ∀ name ∈ type.required, ∃ id, id ≠ [] ∧ field token name = some (.string id)

theorem isOperationTokenType_value (type : OperationTokenType) : isOperationTokenType (.finite type.value) = true := by
  cases type <;> simp [isOperationTokenType]

theorem checkVersion_eq_ok_iff (token : OperationToken) :
    checkVersion token = .ok () ↔ ∀ v ∈ field token "v", v = .number (.finite 0) := by
  unfold checkVersion
  split
  · next h => simp [h]
  · next h => simp [h]
  · next hnone hzero =>
      refine iff_of_false nofun fun hall => ?_
      cases hv : field token "v" with
      | none => exact hnone hv
      | some v => exact hzero (hv.trans (congrArg some (hall v hv)))

theorem checkType_eq_ok_iff (token : OperationToken) :
    checkType token = .ok () ↔ ∃ t, field token "t" = some (.number t) ∧ isOperationTokenType t = true := by
  unfold checkType
  split
  · next t ht =>
      rw [check_ok_iff, ht]
      simp
  · next ht => exact iff_of_false nofun fun ⟨t, hfield, _⟩ => ht t hfield

theorem checkNamespace_eq_ok_iff (token : OperationToken) :
    checkNamespace token = .ok () ↔ ∃ ns, field token "ns" = some (.string ns) := by
  unfold checkNamespace
  split
  · next ns hns => exact iff_of_true rfl ⟨ns, hns⟩
  · next hns => exact iff_of_false nofun fun ⟨ns, hfield⟩ => hns ns hfield

theorem checkOperationToken_eq_ok_iff (token token' : OperationToken) : checkOperationToken token = .ok token' ↔
    token = token' ∧ checkVersion token = .ok () ∧ checkType token = .ok () ∧ checkNamespace token = .ok () := by
  simp only [checkOperationToken, seq_ok_iff, pure, Except.pure, Except.ok.injEq]
  tauto

theorem assertTokenType_eq_ok_iff (kind : String) (type : OperationTokenType) (token : OperationToken) :
    assertTokenType kind type token = .ok () ↔ field token "t" = some (.number (.finite type.value)) := by
  unfold assertTokenType
  split
  · next t ht =>
      rw [check_ok_iff, ht]
      simp
  · next ht => exact iff_of_false nofun fun hfield => ht _ hfield

theorem assertText_eq_ok_iff (token : OperationToken) (name message : String) :
    assertText token name message = .ok () ↔ ∃ id, id ≠ [] ∧ field token name = some (.string id) := by
  unfold assertText
  split
  · next u id h => exact iff_of_true rfl ⟨_, List.cons_ne_nil u id, h⟩
  · next h =>
      refine iff_of_false nofun ?_
      rintro ⟨id, hne, hfield⟩
      rcases List.exists_cons_of_ne_nil hne with ⟨u, rest, rfl⟩
      exact h u rest hfield

theorem assertOperationToken_eq_ok_iff (type : OperationTokenType) (token : OperationToken) :
    assertOperationToken type token = .ok () ↔ field token "t" = some (.number (.finite type.value)) ∧
      ∀ name ∈ type.required, ∃ id, id ≠ [] ∧ field token name = some (.string id) := by
  cases type <;>
    simp [assertOperationToken, assertWorkflowRunOperationToken, assertActivityOperationToken,
      assertUpdateWorkflowOperationToken, seq_ok_iff, assertTokenType_eq_ok_iff, assertText_eq_ok_iff,
      OperationTokenType.required]

theorem loadAs_eq_ok_iff (type : OperationTokenType) (data : JsText) (token : OperationToken) :
    loadAs type data = .ok token ↔ loadOperationToken data = .ok token ∧ assertOperationToken type token = .ok () := by
  simp only [loadAs, bind_ok_iff, pure, Except.pure, Except.ok.injEq]
  constructor
  · rintro ⟨_, hload, _, hassert, rfl⟩
    exact ⟨hload, hassert⟩
  · rintro ⟨hload, hassert⟩
    exact ⟨token, hload, (), hassert, rfl⟩

/-- A load succeeds with what was parsed, if it passes the checks. -/
theorem loadOperationToken_eq_ok_iff (data : JsText) (token : OperationToken) :
    loadOperationToken data = .ok token ↔ data ≠ [] ∧ ∃ decoded, base64URLDecodeNoPadding data = .ok decoded ∧
      Json.parse decoded = some (.object token) ∧ checkOperationToken token = .ok token := by
  unfold loadOperationToken
  split
  · next hnil => exact iff_of_false (by intro h; cases h) fun h => h.1 hnil
  · next hne =>
      cases hdecode : base64URLDecodeNoPadding data with
      | error e => exact iff_of_false (by intro h; cases h) (by rintro ⟨_, _, h, _⟩; cases h)
      | ok decoded =>
        simp only [Except.ok.injEq, exists_eq_left', ne_eq, hne, not_false_eq_true, true_and]
        cases hparse : Json.parse decoded with
        | none => simp
        | some parsed =>
          -- An array has no fields, so that the check of its type fails.
          have harray : ∀ token, checkOperationToken [] ≠ .ok token := by
            intro token h
            rcases ((checkOperationToken_eq_ok_iff _ _).mp h).2.2.1 with h
            cases h
          cases parsed with
          | object members =>
            simp only [fieldsOf, Option.some.injEq, Json.object.injEq]
            constructor
            · intro h
              have heq := ((checkOperationToken_eq_ok_iff _ _).mp h).1
              exact ⟨heq, heq ▸ h⟩
            · rintro ⟨rfl, h⟩
              exact h
          | array items => simp [fieldsOf, harray]
          | null | bool | number | string => simp [fieldsOf]

theorem isToken_iff (type : OperationTokenType) (token : OperationToken) :
    IsToken type token ↔ checkOperationToken token = .ok token ∧ assertOperationToken type token = .ok () := by
  rw [checkOperationToken_eq_ok_iff, assertOperationToken_eq_ok_iff, checkVersion_eq_ok_iff, checkType_eq_ok_iff,
    checkNamespace_eq_ok_iff]
  constructor
  · intro h
    exact ⟨⟨rfl, h.version, ⟨_, h.type_eq, isOperationTokenType_value type⟩, h.ns⟩, h.type_eq, h.required⟩
  · rintro ⟨⟨_, hversion, _, hns⟩, htype, hrequired⟩
    exact ⟨hversion, htype, hns, hrequired⟩

theorem loadAs_encode {text : JsText} (h : text.WellFormed) (type : OperationTokenType) (token : OperationToken) :
    loadAs type (base64URLEncodeNoPadding text) = .ok token ↔
      Json.parse text = some (.object token) ∧ IsToken type token := by
  rw [loadAs_eq_ok_iff, loadOperationToken_eq_ok_iff, base64URLDecodeNoPadding_encode h, isToken_iff, ne_eq,
    encode_eq_nil_iff h]
  simp only [Except.ok.injEq, exists_eq_left']
  constructor
  · rintro ⟨⟨_, hparse, hcheck⟩, hassert⟩
    exact ⟨hparse, hcheck, hassert⟩
  · rintro ⟨hparse, hcheck, hassert⟩
    refine ⟨⟨?_, hparse, hcheck⟩, hassert⟩
    rintro rfl
    exact absurd hparse.symm (Option.some_ne_none _)

/-! ## Generated tokens -/

/-- The fields from which a token is generated. -/
inductive TokenFields where
  | workflowRun (ns workflowId : JsText)
  | activity (ns activityId runId : JsText)
  | updateWorkflow (ns workflowId runId updateId : JsText)

namespace TokenFields

def type : TokenFields → OperationTokenType
  | .workflowRun _ _ => .WORKFLOW_RUN
  | .activity _ _ _ => .ACTIVITY
  | .updateWorkflow _ _ _ _ => .UPDATE_WORKFLOW

def generate : TokenFields → Except TypeError JsText
  | .workflowRun ns workflowId => .ok (generateWorkflowRunOperationToken ns workflowId)
  | .activity ns activityId runId => .ok (generateActivityOperationToken ns activityId runId)
  | .updateWorkflow ns workflowId runId updateId =>
    generateUpdateWorkflowOperationToken ns workflowId runId updateId

/-- The ids that are required are there, and the namespace where it is required. -/
def Complete : TokenFields → Prop
  | .workflowRun _ workflowId => workflowId ≠ []
  | .activity _ activityId runId => activityId ≠ [] ∧ runId ≠ []
  | .updateWorkflow ns workflowId _ updateId => ns ≠ [] ∧ workflowId ≠ [] ∧ updateId ≠ []

/-- The fields of a loaded token.  A run id that is left out is that of no run, and so is an empty one. -/
def ReadFrom (token : OperationToken) : TokenFields → Prop
  | .workflowRun ns workflowId =>
    field token "ns" = some (.string ns) ∧ field token "wid" = some (.string workflowId)
  | .activity ns activityId runId =>
    field token "ns" = some (.string ns) ∧ field token "aid" = some (.string activityId) ∧
      field token "rid" = some (.string runId)
  | .updateWorkflow ns workflowId runId updateId =>
    field token "ns" = some (.string ns) ∧ field token "wid" = some (.string workflowId) ∧
      (field token "rid" = some (.string runId) ∨ field token "rid" = none ∧ runId = []) ∧
      field token "uid" = some (.string updateId)

/-- The object of which the text is written. -/
def literal : TokenFields → List (JsText × Option Json.Scalar)
  | .workflowRun ns workflowId => workflowRunToken ns workflowId
  | .activity ns activityId runId => activityToken ns activityId runId
  | .updateWorkflow ns workflowId runId updateId => updateWorkflowToken ns workflowId runId updateId

/-- The object without what is undefined. -/
def token (f : TokenFields) : OperationToken := (Json.defined f.literal).map fun member => (member.1, member.2.json)

end TokenFields

variable {f : TokenFields}

theorem generate_eq_ok (h : f.Complete) :
    f.generate = .ok (base64URLEncodeNoPadding (Json.stringify f.literal)) := by
  cases f with
  | workflowRun ns workflowId => rfl
  | activity ns activityId runId => rfl
  | updateWorkflow ns workflowId runId updateId =>
    rcases h with ⟨hns, hworkflow, hupdate⟩
    rw [TokenFields.generate, generateUpdateWorkflowOperationToken, if_neg hns, if_neg hworkflow, if_neg hupdate]
    rfl

theorem parse_literal (f : TokenFields) : Json.parse (Json.stringify f.literal) = some (.object f.token) := by
  apply Json.parse_stringify
  · cases f <;> exact List.cons_ne_nil _ _
  · intro member hmember
    rcases List.mem_filterMap.mp hmember with ⟨entry, hentry, hvalue⟩
    rcases Option.map_eq_some_iff.mp hvalue with ⟨value, hsome, rfl⟩
    cases f <;>
      simp only [TokenFields.literal, workflowRunToken, activityToken, updateWorkflowToken, member, List.mem_cons,
        List.not_mem_nil, or_false] at hentry
    · rcases hentry with rfl | rfl | rfl <;> cases hsome
      · exact (by decide : 1 < 2 ^ 53)
      · trivial
      · trivial
    · rcases hentry with rfl | rfl | rfl | rfl <;> cases hsome
      · exact (by decide : 2 < 2 ^ 53)
      all_goals trivial
    · rcases hentry with rfl | rfl | rfl | rfl | rfl
      · cases hsome
        exact (by decide : 3 < 2 ^ 53)
      · cases hsome
        trivial
      · cases hsome
        trivial
      · simp only [Option.ite_none_right_eq_some, Option.some.injEq] at hsome
        rw [← hsome.2]
        trivial
      · cases hsome
        trivial

theorem ofString_eq_iff (s s' : String) : JsText.ofString s = JsText.ofString s' ↔ s = s' :=
  ⟨JsText.ofString_injective, congrArg JsText.ofString⟩

theorem readFrom_token (f : TokenFields) : f.ReadFrom f.token ∧
    field f.token "v" = none ∧ field f.token "t" = some (.number (.finite f.type.value)) := by
  cases f with
  | workflowRun ns workflowId =>
    simp [TokenFields.ReadFrom, TokenFields.type, TokenFields.token, TokenFields.literal, workflowRunToken, member,
      Json.defined, field, ofString_eq_iff, Json.Scalar.json]
  | activity ns activityId runId =>
    simp [TokenFields.ReadFrom, TokenFields.type, TokenFields.token, TokenFields.literal, activityToken, member,
      Json.defined, field, ofString_eq_iff, Json.Scalar.json]
  | updateWorkflow ns workflowId runId updateId =>
    by_cases hrun : runId = []
    all_goals
      simp [TokenFields.ReadFrom, TokenFields.type, TokenFields.token, TokenFields.literal, updateWorkflowToken,
        member, Json.defined, field, ofString_eq_iff, Json.Scalar.json, hrun]

theorem isToken_token (h : f.Complete) : IsToken f.type f.token := by
  rcases readFrom_token f with ⟨hread, hversion, htype⟩
  have hv : ∀ v ∈ field f.token "v", v = .number (.finite 0) := by
    rw [hversion]
    exact nofun
  cases f with
  | workflowRun ns workflowId =>
    refine ⟨hv, htype, ⟨ns, hread.1⟩, fun name hname => ?_⟩
    rw [List.mem_singleton.mp hname]
    exact ⟨workflowId, h, hread.2⟩
  | activity ns activityId runId =>
    refine ⟨hv, htype, ⟨ns, hread.1⟩, fun name hname => ?_⟩
    simp only [TokenFields.type, OperationTokenType.required, List.mem_cons, List.not_mem_nil, or_false] at hname
    rcases hname with rfl | rfl
    · exact ⟨activityId, h.1, hread.2.1⟩
    · exact ⟨runId, h.2, hread.2.2⟩
  | updateWorkflow ns workflowId runId updateId =>
    refine ⟨hv, htype, ⟨ns, hread.1⟩, fun name hname => ?_⟩
    simp only [TokenFields.type, OperationTokenType.required, List.mem_cons, List.not_mem_nil, or_false] at hname
    rcases hname with rfl | rfl
    · exact ⟨workflowId, h.2.1, hread.2.1⟩
    · exact ⟨updateId, h.2.2, hread.2.2.2⟩

theorem loadAs_generate (h : f.Complete) :
    ∃ data, f.generate = .ok data ∧ loadAs f.type data = .ok f.token :=
  ⟨_, generate_eq_ok h, (loadAs_encode (Json.wellFormed_stringify _) _ _).mpr ⟨parse_literal f, isToken_token h⟩⟩

/-- What a loaded token has of the fields, where the namespace of an update is not empty and its run id is text. -/
theorem exists_readFrom {type : OperationTokenType} {token : OperationToken} (h : IsToken type token)
    (hns : type = .UPDATE_WORKFLOW → field token "ns" ≠ some (.string []))
    (hrun : type = .UPDATE_WORKFLOW → ∀ rid ∈ field token "rid", ∃ runId, rid = .string runId) :
    ∃ f : TokenFields, f.type = type ∧ f.Complete ∧ f.ReadFrom token := by
  rcases h.ns with ⟨ns, hnamespace⟩
  cases type with
  | WORKFLOW_RUN =>
    rcases h.required "wid" (by decide) with ⟨workflowId, hne, hworkflow⟩
    exact ⟨.workflowRun ns workflowId, rfl, hne, hnamespace, hworkflow⟩
  | ACTIVITY =>
    rcases h.required "aid" (by decide) with ⟨activityId, hne, hactivity⟩
    rcases h.required "rid" (by decide) with ⟨runId, hne', hrunId⟩
    exact ⟨.activity ns activityId runId, rfl, ⟨hne, hne'⟩, hnamespace, hactivity, hrunId⟩
  | UPDATE_WORKFLOW =>
    rcases h.required "wid" (by decide) with ⟨workflowId, hne, hworkflow⟩
    rcases h.required "uid" (by decide) with ⟨updateId, hne', hupdate⟩
    have hnsne : ns ≠ [] := by
      rintro rfl
      exact hns rfl hnamespace
    obtain ⟨runId, hrunId⟩ : ∃ runId, field token "rid" = some (.string runId) ∨
        field token "rid" = none ∧ runId = [] := by
      cases hrid : field token "rid" with
      | none => exact ⟨[], Or.inr ⟨rfl, rfl⟩⟩
      | some rid =>
        rcases hrun rfl rid hrid with ⟨runId, rfl⟩
        exact ⟨runId, Or.inl rfl⟩
    exact ⟨.updateWorkflow ns workflowId runId updateId, rfl, ⟨hnsne, hne, hne'⟩, hnamespace, hworkflow, hrunId,
      hupdate⟩

theorem of_loadAs {type : OperationTokenType} {data : JsText} {token : OperationToken}
    (h : loadAs type data = .ok token) :
    (∀ u ∈ data, Base64Url.isLetter u = true) ∧ IsToken type token ∧
      ∃ decoded, base64URLDecodeNoPadding data = .ok decoded ∧ Json.parse decoded = some (.object token) := by
  rcases (loadAs_eq_ok_iff type data token).mp h with ⟨hload, hassert⟩
  rcases (loadOperationToken_eq_ok_iff data token).mp hload with ⟨_, decoded, hdecode, hparse, hcheck⟩
  refine ⟨?_, (isToken_iff type token).mpr ⟨hcheck, hassert⟩, decoded, hdecode, hparse⟩
  have hletters := ((check_ok_iff _ _ _ _).mp hdecode).1
  exact List.all_eq_true.mp hletters

/-- Tokens of complete fields are loaded with these fields.  Text that is encoded is loaded exactly if it is the JSON of
a token.  The fields of a loaded token generate a token that is loaded with the same fields, except that an empty run
id of an update is left out. -/
theorem operation_tokens :
    (∀ f : TokenFields, f.Complete →
      f.ReadFrom f.token ∧ ∃ data, f.generate = .ok data ∧ loadAs f.type data = .ok f.token) ∧
    (∀ type text token, JsText.WellFormed text → (loadAs type (base64URLEncodeNoPadding text) = .ok token ↔
      Json.parse text = some (.object token) ∧ IsToken type token)) ∧
    ∀ type data token, loadAs type data = .ok token →
      (∀ u ∈ data, Base64Url.isLetter u = true) ∧ IsToken type token ∧
      (∃ decoded, base64URLDecodeNoPadding data = .ok decoded ∧ Json.parse decoded = some (.object token)) ∧
      ((type = .UPDATE_WORKFLOW → field token "ns" ≠ some (.string [])) →
        (type = .UPDATE_WORKFLOW → ∀ rid ∈ field token "rid", ∃ runId, rid = .string runId) →
        ∃ f : TokenFields, f.type = type ∧ f.ReadFrom token ∧ ∃ data' token', f.generate = .ok data' ∧
          loadAs type data' = .ok token' ∧ f.ReadFrom token') := by
  refine ⟨fun f h => ⟨(readFrom_token f).1, loadAs_generate h⟩, fun type text token h => loadAs_encode h type token, ?_⟩
  intro type data token h
  rcases of_loadAs h with ⟨hletters, htoken, hdecoded⟩
  refine ⟨hletters, htoken, hdecoded, fun hns hrun => ?_⟩
  rcases exists_readFrom htoken hns hrun with ⟨f, rfl, hcomplete, hread⟩
  rcases loadAs_generate hcomplete with ⟨data', hgenerate, hload⟩
  exact ⟨f, rfl, hread, data', f.token, hgenerate, hload, (readFrom_token f).1⟩

/-- A token of an update as it was written once, with an empty run id. -/
def legacyLiteral : List (JsText × Option Json.Scalar) :=
  [member "t" (some (.whole 3)), member "ns" (some (.text (JsText.ofString "ns"))),
    member "wid" (some (.text (JsText.ofString "w"))), member "rid" (some (.text [])),
    member "uid" (some (.text (JsText.ofString "u")))]

def legacyToken : OperationToken := (Json.defined legacyLiteral).map fun member => (member.1, member.2.json)

theorem stringify_legacyLiteral : Json.stringify legacyLiteral =
    JsText.ofString "\x7b\"t\":3,\"ns\":\"ns\",\"wid\":\"w\",\"rid\":\"\",\"uid\":\"u\"\x7d" := by
  decide +kernel

theorem isToken_legacyToken : IsToken .UPDATE_WORKFLOW legacyToken where
  version := by
    rw [show field legacyToken "v" = none by rfl]
    exact nofun
  type_eq := rfl
  ns := ⟨JsText.ofString "ns", rfl⟩
  required := by
    intro name hname
    simp only [OperationTokenType.required, List.mem_cons, List.not_mem_nil, or_false] at hname
    rcases hname with rfl | rfl
    · exact ⟨JsText.ofString "w", by decide, rfl⟩
    · exact ⟨JsText.ofString "u", by decide, rfl⟩

theorem loadAs_legacyToken :
    loadAs .UPDATE_WORKFLOW (base64URLEncodeNoPadding (Json.stringify legacyLiteral)) = .ok legacyToken := by
  refine (loadAs_encode (Json.wellFormed_stringify _) _ _).mpr ⟨?_, isToken_legacyToken⟩
  apply Json.parse_stringify
  · exact List.cons_ne_nil _ _
  · intro entry hentry
    simp only [legacyLiteral, Json.defined, member, List.filterMap_cons, List.filterMap_nil, Option.map_some,
      List.mem_cons, List.not_mem_nil, or_false] at hentry
    rcases hentry with rfl | rfl | rfl | rfl | rfl
    · exact (by decide : 3 < 2 ^ 53)
    all_goals trivial

/-- The empty run id of such a token is gone from the token that is generated from its fields. -/
theorem legacy_runId_dropped :
    loadAs .UPDATE_WORKFLOW (base64URLEncodeNoPadding (JsText.ofString
        "\x7b\"t\":3,\"ns\":\"ns\",\"wid\":\"w\",\"rid\":\"\",\"uid\":\"u\"\x7d")) = .ok legacyToken ∧
      field legacyToken "rid" = some (.string []) ∧
      ∃ data token, generateUpdateWorkflowOperationToken (JsText.ofString "ns") (JsText.ofString "w") []
          (JsText.ofString "u") = .ok data ∧
        loadAs .UPDATE_WORKFLOW data = .ok token ∧ field token "rid" = none := by
  let f := TokenFields.updateWorkflow (JsText.ofString "ns") (JsText.ofString "w") [] (JsText.ofString "u")
  have hcomplete : f.Complete := ⟨by decide, by decide, by decide⟩
  rcases loadAs_generate hcomplete with ⟨data, hgenerate, hload⟩
  exact ⟨stringify_legacyLiteral ▸ loadAs_legacyToken, rfl, data, f.token, hgenerate, hload, rfl⟩

theorem operation_tokens_legacy :
    ((TokenFields.workflowRun [] (JsText.ofString "w")).ReadFrom (TokenFields.workflowRun [] (JsText.ofString "w")).token ∧
      ∃ data, (TokenFields.workflowRun [] (JsText.ofString "w")).generate = .ok data ∧
        loadAs .WORKFLOW_RUN data = .ok (TokenFields.workflowRun [] (JsText.ofString "w")).token) ∧
    (loadAs .UPDATE_WORKFLOW (base64URLEncodeNoPadding (Json.stringify legacyLiteral)) = .ok legacyToken ↔
      Json.parse (Json.stringify legacyLiteral) = some (.object legacyToken) ∧ IsToken .UPDATE_WORKFLOW legacyToken) ∧
    ∃ f : TokenFields, f.type = .UPDATE_WORKFLOW ∧ f.ReadFrom legacyToken ∧ ∃ data' token', f.generate = .ok data' ∧
      loadAs .UPDATE_WORKFLOW data' = .ok token' ∧ f.ReadFrom token' :=
  ⟨operation_tokens.1 (.workflowRun [] (JsText.ofString "w")) (show JsText.ofString "w" ≠ [] by decide),
    operation_tokens.2.1 _ _ _ (Json.wellFormed_stringify legacyLiteral),
    (operation_tokens.2.2 _ _ _ loadAs_legacyToken).2.2.2
      (fun _ h => absurd (Json.string.inj (Option.some.inj h)) (by decide))
      (fun _ _ h => ⟨[], (Option.some.inj h).symm⟩)⟩

end OperationTokens
end TemporalSdk.Nexus
