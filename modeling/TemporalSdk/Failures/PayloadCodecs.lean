import TemporalSdk.Failures.Messages
import TemporalSdk.Machine.SiteTree

/-!
# Payload codecs on failures

`encodeFailure` and `decodeFailure` of `packages/common/src/internal-non-workflow/codec-helpers.ts`,
and the generated payload walker of a failure.  A codec is a computation with a state of its own: it
may throw, and encode the same payloads differently at another time.
-/

namespace TemporalSdk.Failures

open Machine

variable {C P σ ε : Type}

structure PayloadCodec (C P σ ε : Type) where
  encode : List P → C → StateT σ (Except ε) (List P)
  decode : List P → C → StateT σ (Except ε) (List P)

/-- Whatever the codec encodes payloads to, it decodes that to these payloads at any later time. -/
def PayloadCodec.DecodeInvertsEncode (codec : PayloadCodec C P σ ε) (context : C) : Prop :=
  ∀ payloads s encoded s', codec.encode payloads context s = .ok (encoded, s') →
    ∀ t, ∃ t', codec.decode encoded context t = .ok (payloads, t')

section Codecs

variable (codecs : List (PayloadCodec C P σ ε))

/-- The loop of `encode` from the codec at `i`. -/
def encodeFrom (context : C) (i : Nat) (payloads : List P) : StateT σ (Except ε) (List P) :=
  if h : i < codecs.length then do
    let payloads ← codecs[i].encode payloads context
    encodeFrom context (i + 1) payloads
  else pure payloads
termination_by codecs.length - i

/-- The loop of `decode` from the codec before `i`. -/
def decodeFrom (context : C) : Nat → List P → StateT σ (Except ε) (List P)
  | 0, payloads => pure payloads
  | i + 1, payloads =>
    match codecs[i]? with
    | none => pure payloads
    | some codec => do
      let payloads ← codec.decode payloads context
      decodeFrom context i payloads

def encodePayloads (payloads : List P) (context : C) : StateT σ (Except ε) (List P) :=
  encodeFrom codecs context 0 payloads

def decodePayloads (payloads : List P) (context : C) : StateT σ (Except ε) (List P) :=
  decodeFrom codecs context codecs.length payloads

theorem encodeFrom_append (before : List (PayloadCodec C P σ ε)) (context : C) :
    ∀ (after : List (PayloadCodec C P σ ε)) (payloads : List P),
      encodeFrom (before ++ after) context before.length payloads =
        after.foldlM (fun payloads codec => codec.encode payloads context) payloads
  | [], payloads => by
    rw [encodeFrom]
    simp
  | codec :: after, payloads => by
    have hrest := encodeFrom_append (before ++ [codec]) context after
    simp only [List.append_assoc, List.singleton_append, List.length_append, List.length_singleton] at hrest
    rw [encodeFrom, dif_pos (by simp), List.foldlM_cons]
    simp only [List.getElem_append_right (Nat.le_refl _), Nat.sub_self, List.getElem_cons_zero, hrest]

theorem decodeFrom_take (context : C) : ∀ (i : Nat) (payloads : List P), i ≤ codecs.length →
    decodeFrom codecs context i payloads =
      (codecs.take i).reverse.foldlM (fun payloads codec => codec.decode payloads context) payloads
  | 0, payloads, _ => rfl
  | i + 1, payloads, hi => by
    have hcodec : codecs[i]? = some codecs[i] := List.getElem?_eq_getElem hi
    rw [decodeFrom, hcodec, List.take_add_one, hcodec]
    simp only [Option.toList_some, List.reverse_append, List.reverse_singleton, List.singleton_append,
      List.foldlM_cons]
    exact congrArg _ (funext fun payloads => decodeFrom_take context i payloads (Nat.le_of_lt hi))

theorem encodePayloads_eq (payloads : List P) (context : C) :
    encodePayloads codecs payloads context =
      codecs.foldlM (fun payloads codec => codec.encode payloads context) payloads :=
  encodeFrom_append [] context codecs payloads

theorem decodePayloads_eq (payloads : List P) (context : C) :
    decodePayloads codecs payloads context =
      codecs.reverse.foldlM (fun payloads codec => codec.decode payloads context) payloads := by
  have h := decodeFrom_take codecs context codecs.length payloads (Nat.le_refl _)
  rwa [List.take_length] at h

end Codecs

theorem decodePayloads_inverts {context : C} : ∀ {codecs : List (PayloadCodec C P σ ε)},
    (∀ codec ∈ codecs, codec.DecodeInvertsEncode context) →
    ∀ {payloads s encoded s'}, encodePayloads codecs payloads context s = .ok (encoded, s') →
      ∀ t, ∃ t', decodePayloads codecs encoded context t = .ok (payloads, t')
  | [], _, payloads, s, encoded, s', h, t => by
    rw [encodePayloads_eq] at h
    cases pure_eq_ok.1 h
    exact ⟨t, by rw [decodePayloads_eq]; rfl⟩
  | codec :: codecs, hinverts, payloads, s, encoded, s', h, t => by
    rw [encodePayloads_eq, List.foldlM_cons] at h
    rcases bind_eq_ok.1 h with ⟨middle, s₁, hcodec, hrest⟩
    rw [← encodePayloads_eq] at hrest
    rcases decodePayloads_inverts (fun c hc => hinverts c (List.mem_cons_of_mem _ hc)) hrest t with ⟨t₁, hback⟩
    rcases hinverts codec List.mem_cons_self payloads s middle s₁ hcodec t₁ with ⟨t', hlast⟩
    refine ⟨t', ?_⟩
    rw [decodePayloads_eq] at hback
    rw [decodePayloads_eq, List.reverse_cons, List.foldlM_append]
    refine bind_eq_ok.2 ⟨middle, t₁, hback, ?_⟩
    simpa using hlast

/-! ## The payloads of a failure -/

inductive PayloadField where
  | encodedAttributes
  | applicationDetails
  | timeoutHeartbeatDetails
  | canceledDetails
  | resetHeartbeatDetails
  deriving DecidableEq

/-- A field of the failure at `depth`, the number of causes above it. -/
structure PayloadSite where
  depth : Nat
  field : PayloadField
  deriving DecidableEq

section Transform

-- what the codecs do with the payloads of one site; they are not told which site it is
variable (transform : PayloadSite → List P → StateT σ (Except ε) (List P))

def transformAttributes (depth : Nat) : Option P → StateT σ (Except ε) (Option P)
  | none => pure none
  | some payload => do
    let payloads ← transform ⟨depth, .encodedAttributes⟩ [payload]
    pure payloads[0]?

def transformDetails (depth : Nat) (field : PayloadField) :
    Option (List P) → StateT σ (Except ε) (Option (List P))
  | none => pure none
  | some payloads => do
    let payloads ← transform ⟨depth, field⟩ payloads
    pure (some payloads)

def transformInfo (depth : Nat) : Option (FailureInfo P) → StateT σ (Except ε) (Option (FailureInfo P))
  | some (.applicationFailureInfo type nonRetryable details nextRetryDelay category) => do
    let details ← transformDetails transform depth .applicationDetails details
    pure (some (.applicationFailureInfo type nonRetryable details nextRetryDelay category))
  | some (.timeoutFailureInfo timeoutType lastHeartbeatDetails) => do
    let lastHeartbeatDetails ← transformDetails transform depth .timeoutHeartbeatDetails lastHeartbeatDetails
    pure (some (.timeoutFailureInfo timeoutType lastHeartbeatDetails))
  | some (.canceledFailureInfo details) => do
    let details ← transformDetails transform depth .canceledDetails details
    pure (some (.canceledFailureInfo details))
  | some (.resetWorkflowFailureInfo lastHeartbeatDetails) => do
    let lastHeartbeatDetails ← transformDetails transform depth .resetHeartbeatDetails lastHeartbeatDetails
    pure (some (.resetWorkflowFailureInfo lastHeartbeatDetails))
  -- the other infos come along with `...failure`
  | info => pure info

mutual

/-- The recursion that `encodeFailure` and `decodeFailure` both write out. -/
def transformFailure (depth : Nat) : Failure P → StateT σ (Except ε) (Failure P)
  | .mk fields cause => do
    let encodedAttributes ← transformAttributes transform depth fields.encodedAttributes
    let cause ← transformCause (depth + 1) cause
    let info ← transformInfo transform depth fields.info
    pure (.mk { fields with encodedAttributes, info } cause)

def transformCause (depth : Nat) : Option (Failure P) → StateT σ (Except ε) (Option (Failure P))
  | none => pure none
  | some cause => do
    let cause ← transformFailure depth cause
    pure (some cause)

end

end Transform

def encodeFailure (codecs : List (PayloadCodec C P σ ε)) (failure : Failure P) (context : C) :
    StateT σ (Except ε) (Failure P) :=
  transformFailure (fun _ payloads => encodePayloads codecs payloads context) 0 failure

def decodeFailure (codecs : List (PayloadCodec C P σ ε)) (failure : Failure P) (context : C) :
    StateT σ (Except ε) (Failure P) :=
  transformFailure (fun _ payloads => decodePayloads codecs payloads context) 0 failure

/-! ## The generated walker -/

def walkAttributes (depth : Nat) : Option P → List (PayloadSite × List P)
  | none => []
  | some payload => [(⟨depth, .encodedAttributes⟩, [payload])]

/-- `walk_temporal_api_common_v1_Payloads` -/
def walkPayloads (depth : Nat) (field : PayloadField) : Option (List P) → List (PayloadSite × List P)
  | none => []
  | some payloads => if payloads.length = 0 then [] else [(⟨depth, field⟩, payloads)]

def walkInfo (depth : Nat) : Option (FailureInfo P) → List (PayloadSite × List P)
  | some (.applicationFailureInfo _ _ details _ _) => walkPayloads depth .applicationDetails details
  | some (.timeoutFailureInfo _ lastHeartbeatDetails) =>
    walkPayloads depth .timeoutHeartbeatDetails lastHeartbeatDetails
  | some (.canceledFailureInfo details) => walkPayloads depth .canceledDetails details
  | some (.resetWorkflowFailureInfo lastHeartbeatDetails) =>
    walkPayloads depth .resetHeartbeatDetails lastHeartbeatDetails
  | _ => []

mutual

/-- `walk_temporal_api_failure_v1_Failure`, as the sites it visits with the payloads there. -/
def walkFailure (depth : Nat) : Failure P → List (PayloadSite × List P)
  | .mk fields cause =>
    walkAttributes depth fields.encodedAttributes ++
      (walkFailureCause (depth + 1) cause ++ walkInfo depth fields.info)

def walkFailureCause (depth : Nat) : Option (Failure P) → List (PayloadSite × List P)
  | none => []
  | some cause => walkFailure depth cause

end

/-! ## Calls of the codecs -/

/-- The same transform, with every call written down. -/
def logged (transform : PayloadSite → List P → StateT σ (Except ε) (List P)) (site : PayloadSite)
    (payloads : List P) : StateT (σ × List (PayloadSite × List P)) (Except ε) (List P) := fun (s, calls) => do
  let (transformed, s') ← transform site payloads s
  pure (transformed, (s', calls ++ [(site, payloads)]))

def holdsPayloads (call : PayloadSite × List P) : Bool := call.2.length ≠ 0

/-- The first computation is the second one with its calls written down; those that have payloads are
the sites. -/
def Logs {α : Type} (x' : StateT (σ × List (PayloadSite × List P)) (Except ε) α) (x : StateT σ (Except ε) α)
    (sites : List (PayloadSite × List P)) : Prop :=
  ∀ s a s', x s = .ok (a, s') → ∀ calls, ∃ new,
    x' (s, calls) = .ok (a, (s', calls ++ new)) ∧ new.filter holdsPayloads = sites

namespace Logs

variable {α β : Type} {x' : StateT (σ × List (PayloadSite × List P)) (Except ε) α} {x : StateT σ (Except ε) α}
  {f' : α → StateT (σ × List (PayloadSite × List P)) (Except ε) β} {f : α → StateT σ (Except ε) β}
  {sites sites' : List (PayloadSite × List P)}

theorem pure (a : α) :
    Logs (P := P) (Pure.pure a) (Pure.pure a : StateT σ (Except ε) α) [] := by
  intro s b s' h calls
  cases pure_eq_ok.1 h
  exact ⟨[], by simp, rfl⟩

theorem bind (hx : Logs x' x sites) (hf : ∀ a, Logs (f' a) (f a) sites') :
    Logs (x' >>= f') (x >>= f) (sites ++ sites') := by
  intro s b s' h calls
  rcases bind_eq_ok.1 h with ⟨a, s₁, ha, hb⟩
  rcases hx s a s₁ ha calls with ⟨new, hx', hnew⟩
  rcases hf a s₁ b s' hb (calls ++ new) with ⟨new', hf', hnew'⟩
  refine ⟨new ++ new', bind_eq_ok.2 ⟨a, (s₁, calls ++ new), hx', ?_⟩, ?_⟩
  · rw [hf', List.append_assoc]
  · rw [List.filter_append, hnew, hnew']

theorem map (hx : Logs x' x sites) (g : α → β) :
    Logs (x' >>= fun a => Pure.pure (g a)) (x >>= fun a => Pure.pure (g a)) sites := by
  have h : Logs (x' >>= fun a => Pure.pure (g a)) (x >>= fun a => Pure.pure (g a)) (sites ++ []) :=
    Logs.bind hx fun a => Logs.pure (g a)
  rwa [List.append_nil] at h

end Logs

section Calls

variable (transform : PayloadSite → List P → StateT σ (Except ε) (List P))

theorem logged_logs (site : PayloadSite) (payloads : List P) :
    Logs (logged transform site payloads) (transform site payloads)
      (if payloads.length = 0 then [] else [(site, payloads)]) := by
  intro s transformed s' h calls
  refine ⟨[(site, payloads)], by simp only [logged, h]; rfl, ?_⟩
  by_cases hempty : payloads.length = 0 <;> simp [holdsPayloads, hempty]

theorem transformAttributes_logs (depth : Nat) (attributes : Option P) :
    Logs (transformAttributes (logged transform) depth attributes) (transformAttributes transform depth attributes)
      (walkAttributes depth attributes) := by
  cases attributes with
  | none => exact Logs.pure none
  | some payload => exact Logs.map (logged_logs transform ⟨depth, .encodedAttributes⟩ [payload]) _

theorem transformDetails_logs (depth : Nat) (field : PayloadField) (details : Option (List P)) :
    Logs (transformDetails (logged transform) depth field details) (transformDetails transform depth field details)
      (walkPayloads depth field details) := by
  cases details with
  | none => exact Logs.pure none
  | some payloads => exact Logs.map (logged_logs transform ⟨depth, field⟩ payloads) _

theorem transformInfo_logs (depth : Nat) (info : Option (FailureInfo P)) :
    Logs (transformInfo (logged transform) depth info) (transformInfo transform depth info)
      (walkInfo depth info) := by
  cases info with
  | none => exact Logs.pure none
  | some info =>
    cases info with
    | applicationFailureInfo =>
      exact Logs.map (transformDetails_logs transform depth .applicationDetails _) _
    | timeoutFailureInfo =>
      exact Logs.map (transformDetails_logs transform depth .timeoutHeartbeatDetails _) _
    | canceledFailureInfo => exact Logs.map (transformDetails_logs transform depth .canceledDetails _) _
    | resetWorkflowFailureInfo =>
      exact Logs.map (transformDetails_logs transform depth .resetHeartbeatDetails _) _
    | serverFailureInfo | terminatedFailureInfo | childWorkflowExecutionFailureInfo
    | activityFailureInfo | nexusHandlerFailureInfo | nexusOperationExecutionFailureInfo =>
      exact Logs.pure _

mutual

theorem transformFailure_logs : ∀ (depth : Nat) (failure : Failure P),
    Logs (transformFailure (logged transform) depth failure) (transformFailure transform depth failure)
      (walkFailure depth failure)
  | depth, .mk fields cause =>
    Logs.bind (transformAttributes_logs transform depth fields.encodedAttributes) fun _ =>
      Logs.bind (transformCause_logs (depth + 1) cause) fun _ =>
        Logs.map (transformInfo_logs transform depth fields.info) _

theorem transformCause_logs : ∀ (depth : Nat) (cause : Option (Failure P)),
    Logs (transformCause (logged transform) depth cause) (transformCause transform depth cause)
      (walkFailureCause depth cause)
  | _, none => Logs.pure none
  | depth, some cause => Logs.map (transformFailure_logs depth cause) _

end

/-- The calls of a run that returns. -/
def callsOf (failure : Failure P) (s : σ) : Option (List (PayloadSite × List P)) :=
  match transformFailure (logged transform) 0 failure (s, []) with
  | .error _ => none
  | .ok (_, (_, calls)) => some calls

theorem callsOf_walk {failure transformed : Failure P} {s s' : σ}
    (h : transformFailure transform 0 failure s = .ok (transformed, s')) :
    ∃ calls, callsOf transform failure s = some calls ∧ calls.filter holdsPayloads = walkFailure 0 failure := by
  rcases transformFailure_logs transform 0 failure s transformed s' h [] with ⟨calls, hrun, hcalls⟩
  exact ⟨calls, by simp [callsOf, hrun], hcalls⟩

end Calls

/-! ## The round trip -/

mutual

/-- The encoded attributes of the failure and of its causes. -/
def Failure.attributes : Failure P → List P
  | .mk fields cause => fields.encodedAttributes.toList ++ attributesOfCause cause

def Failure.attributesOfCause : Option (Failure P) → List P
  | none => []
  | some cause => cause.attributes

end

section RoundTrip

variable {encode decode : PayloadSite → List P → StateT σ (Except ε) (List P)}

/-- Whatever is encoded at a site can be decoded there. -/
def Undone (encode decode : PayloadSite → List P → StateT σ (Except ε) (List P)) : Prop :=
  ∀ site payloads s encoded s', encode site payloads s = .ok (encoded, s') →
    ∀ t, ∃ t', decode site encoded t = .ok (payloads, t')

def EncodesToOne (encode : PayloadSite → List P → StateT σ (Except ε) (List P)) (payload : P) : Prop :=
  ∀ site s encoded s', encode site [payload] s = .ok (encoded, s') → encoded.length = 1

theorem transformAttributes_undone (h : Undone encode decode) {depth : Nat} {attributes encoded : Option P}
    (hone : ∀ payload ∈ attributes.toList, EncodesToOne encode payload) {s s' : σ}
    (hencode : transformAttributes encode depth attributes s = .ok (encoded, s')) (t : σ) :
    ∃ t', transformAttributes decode depth encoded t = .ok (attributes, t') := by
  cases attributes with
  | none =>
    cases pure_eq_ok.1 hencode
    exact ⟨t, rfl⟩
  | some payload =>
    rcases bind_eq_ok.1 hencode with ⟨payloads, s₁, hpayloads, hfirst⟩
    rcases List.length_eq_one_iff.1 (hone payload (by simp) _ _ _ _ hpayloads) with ⟨first, rfl⟩
    cases pure_eq_ok.1 hfirst
    rcases h _ _ _ _ _ hpayloads t with ⟨t', hback⟩
    exact ⟨t', bind_eq_ok.2 ⟨[payload], t', hback, rfl⟩⟩

theorem transformDetails_undone (h : Undone encode decode) {depth : Nat} {field : PayloadField}
    {details encoded : Option (List P)} {s s' : σ}
    (hencode : transformDetails encode depth field details s = .ok (encoded, s')) (t : σ) :
    ∃ t', transformDetails decode depth field encoded t = .ok (details, t') := by
  cases details with
  | none =>
    cases pure_eq_ok.1 hencode
    exact ⟨t, rfl⟩
  | some payloads =>
    rcases bind_eq_ok.1 hencode with ⟨out, s₁, hout, hsome⟩
    cases pure_eq_ok.1 hsome
    rcases h _ _ _ _ _ hout t with ⟨t', hback⟩
    exact ⟨t', bind_eq_ok.2 ⟨payloads, t', hback, rfl⟩⟩

theorem map_undone {α β : Type} {x y : α → StateT σ (Except ε) α} {rebuild : α → β} {a : α} {b : β} {s s' : σ}
    (hx : ∀ {a' s'}, x a s = .ok (a', s') → ∀ t, ∃ t', y a' t = .ok (a, t')) {z : β → StateT σ (Except ε) β}
    (hz : ∀ a', z (rebuild a') = y a' >>= fun a => pure (rebuild a))
    (hencode : (x a >>= fun a' => pure (rebuild a')) s = .ok (b, s')) (t : σ) :
    ∃ t', z b t = .ok (rebuild a, t') := by
  rcases bind_eq_ok.1 hencode with ⟨a', s₁, ha', hb⟩
  cases pure_eq_ok.1 hb
  rcases hx ha' t with ⟨t', hback⟩
  exact ⟨t', by rw [hz]; exact bind_eq_ok.2 ⟨a, t', hback, rfl⟩⟩

theorem transformInfo_undone (h : Undone encode decode) {depth : Nat} {info encoded : Option (FailureInfo P)}
    {s s' : σ} (hencode : transformInfo encode depth info s = .ok (encoded, s')) (t : σ) :
    ∃ t', transformInfo decode depth encoded t = .ok (info, t') := by
  have hdetails {field details details' s'} := @transformDetails_undone P σ ε encode decode h depth field details
    details' s s'
  cases info with
  | none =>
    cases pure_eq_ok.1 hencode
    exact ⟨t, rfl⟩
  | some info =>
    cases info with
    | applicationFailureInfo | timeoutFailureInfo | canceledFailureInfo | resetWorkflowFailureInfo =>
      exact map_undone hdetails (fun _ => rfl) hencode t
    | _ =>
      cases pure_eq_ok.1 hencode
      exact ⟨t, rfl⟩

mutual

theorem transformFailure_undone (h : Undone encode decode) : ∀ {depth : Nat} {failure encoded : Failure P},
    (∀ payload ∈ failure.attributes, EncodesToOne encode payload) → ∀ {s s' : σ},
    transformFailure encode depth failure s = .ok (encoded, s') →
    ∀ t, ∃ t', transformFailure decode depth encoded t = .ok (failure, t')
  | depth, .mk fields cause, encoded, hone, s, s', hencode, t => by
    rw [Failure.attributes] at hone
    rcases bind_eq_ok.1 hencode with ⟨attributes, s₁, hattributes, hencode⟩
    rcases bind_eq_ok.1 hencode with ⟨cause', s₂, hcause, hencode⟩
    rcases bind_eq_ok.1 hencode with ⟨info, s₃, hinfo, hencode⟩
    cases pure_eq_ok.1 hencode
    have honeHere : ∀ payload ∈ fields.encodedAttributes.toList, EncodesToOne encode payload :=
      fun payload hmem => hone payload (List.mem_append_left _ hmem)
    have honeBelow : ∀ payload ∈ Failure.attributesOfCause cause, EncodesToOne encode payload :=
      fun payload hmem => hone payload (List.mem_append_right _ hmem)
    rcases transformAttributes_undone h honeHere hattributes t with ⟨t₁, hattributes'⟩
    rcases transformCause_undone h honeBelow hcause t₁ with ⟨t₂, hcause'⟩
    rcases transformInfo_undone h hinfo t₂ with ⟨t₃, hinfo'⟩
    refine ⟨t₃, bind_eq_ok.2 ⟨_, t₁, hattributes', ?_⟩⟩
    exact bind_eq_ok.2 ⟨_, t₂, hcause', bind_eq_ok.2 ⟨_, t₃, hinfo', rfl⟩⟩

theorem transformCause_undone (h : Undone encode decode) : ∀ {depth : Nat} {cause encoded : Option (Failure P)},
    (∀ payload ∈ Failure.attributesOfCause cause, EncodesToOne encode payload) → ∀ {s s' : σ},
    transformCause encode depth cause s = .ok (encoded, s') →
    ∀ t, ∃ t', transformCause decode depth encoded t = .ok (cause, t')
  | depth, none, encoded, _, s, s', hencode, t => by
    cases pure_eq_ok.1 hencode
    exact ⟨t, rfl⟩
  | depth, some cause, encoded, hone, s, s', hencode, t => by
    rcases bind_eq_ok.1 hencode with ⟨cause', s₁, hcause, hsome⟩
    cases pure_eq_ok.1 hsome
    rcases transformFailure_undone h hone hcause t with ⟨t', hback⟩
    exact ⟨t', bind_eq_ok.2 ⟨cause, t', hback, rfl⟩⟩

end

end RoundTrip

section Returning

variable {transform : PayloadSite → List P → StateT σ (Except ε) (List P)}

theorem transformDetails_returns (h : ∀ site payloads, Returns (transform site payloads)) (depth : Nat)
    (field : PayloadField) (details : Option (List P)) : Returns (transformDetails transform depth field details) := by
  cases details with
  | none => exact Returns.pure _
  | some payloads => exact Returns.bind (h _ payloads) fun _ _ _ _ => Returns.pure _

theorem transformInfo_returns (h : ∀ site payloads, Returns (transform site payloads)) (depth : Nat)
    (info : Option (FailureInfo P)) : Returns (transformInfo transform depth info) := by
  have hdetails := transformDetails_returns h depth
  cases info with
  | none => exact Returns.pure _
  | some info =>
    cases info with
    | applicationFailureInfo | timeoutFailureInfo | canceledFailureInfo | resetWorkflowFailureInfo =>
      exact Returns.bind (hdetails _ _) fun _ _ _ _ => Returns.pure _
    | _ => exact Returns.pure _

mutual

theorem transformFailure_returns (h : ∀ site payloads, Returns (transform site payloads)) :
    ∀ (depth : Nat) (failure : Failure P), Returns (transformFailure transform depth failure)
  | depth, .mk fields cause => by
    have hattributes : Returns (transformAttributes transform depth fields.encodedAttributes) := by
      cases fields.encodedAttributes with
      | none => exact Returns.pure _
      | some payload => exact Returns.bind (h _ _) fun _ _ _ _ => Returns.pure _
    refine Returns.bind hattributes fun _ _ _ _ => Returns.bind (transformCause_returns h _ cause) fun _ _ _ _ => ?_
    exact Returns.bind (transformInfo_returns h depth fields.info) fun _ _ _ _ => Returns.pure _

theorem transformCause_returns (h : ∀ site payloads, Returns (transform site payloads)) :
    ∀ (depth : Nat) (cause : Option (Failure P)), Returns (transformCause transform depth cause)
  | _, none => Returns.pure none
  | depth, some cause => Returns.bind (transformFailure_returns h depth cause) fun _ _ _ _ => Returns.pure _

end

end Returning

/-! ## The codec on failures -/

/-- What the codecs do to one failure message. -/
structure CodecRoundTrip (codecs : List (PayloadCodec C P σ ε)) (failure : Failure P) (context : C) : Prop where
  encode_in_order : ∀ payloads, encodePayloads codecs payloads context =
    codecs.foldlM (fun payloads codec => codec.encode payloads context) payloads
  decode_in_reverse : ∀ payloads, decodePayloads codecs payloads context =
    codecs.reverse.foldlM (fun payloads codec => codec.decode payloads context) payloads
  returns : (∀ codec ∈ codecs, ∀ payloads, Returns (codec.encode payloads context)) →
    Returns (encodeFailure codecs failure context)
  round_trip : ∀ s encoded s', encodeFailure codecs failure context s = .ok (encoded, s') →
    ∀ t, ∃ t', decodeFailure codecs encoded context t = .ok (failure, t')
  /-- apart from calls without payloads, the codecs get what the walker visits, in its order -/
  encode_sites : ∀ s encoded s', encodeFailure codecs failure context s = .ok (encoded, s') →
    ∃ calls, callsOf (fun _ payloads => encodePayloads codecs payloads context) failure s = some calls ∧
      calls.filter holdsPayloads = walkFailure 0 failure
  decode_sites : ∀ s decoded s', decodeFailure codecs failure context s = .ok (decoded, s') →
    ∃ calls, callsOf (fun _ payloads => decodePayloads codecs payloads context) failure s = some calls ∧
      calls.filter holdsPayloads = walkFailure 0 failure

theorem foldlM_encode_returns {context : C} : ∀ {codecs : List (PayloadCodec C P σ ε)},
    (∀ codec ∈ codecs, ∀ payloads, Returns (codec.encode payloads context)) → ∀ payloads,
    Returns (codecs.foldlM (fun payloads codec => codec.encode payloads context) payloads)
  | [], _, payloads => Returns.pure payloads
  | codec :: codecs, h, payloads => by
    rw [List.foldlM_cons]
    refine Returns.bind (h codec List.mem_cons_self payloads) fun middle _ _ _ => ?_
    exact foldlM_encode_returns (fun c hc => h c (List.mem_cons_of_mem _ hc)) middle

theorem codecRoundTrip (codecs : List (PayloadCodec C P σ ε)) (failure : Failure P) (context : C)
    (hinverts : ∀ codec ∈ codecs, codec.DecodeInvertsEncode context)
    (hone : ∀ payload ∈ failure.attributes, ∀ s encoded s',
      encodePayloads codecs [payload] context s = .ok (encoded, s') → encoded.length = 1) :
    CodecRoundTrip codecs failure context where
  encode_in_order payloads := encodePayloads_eq codecs payloads context
  decode_in_reverse payloads := decodePayloads_eq codecs payloads context
  returns hreturns := by
    refine transformFailure_returns (fun _ payloads => ?_) 0 failure
    rw [encodePayloads_eq]
    exact foldlM_encode_returns hreturns payloads
  round_trip s encoded s' hencode := by
    refine transformFailure_undone (fun _ _ _ _ _ h => ?_) (fun payload hmem _ => hone payload hmem) hencode
    exact decodePayloads_inverts hinverts h
  encode_sites s encoded s' := callsOf_walk _
  decode_sites s decoded s' := callsOf_walk _

section Runs

/-- A codec that puts a byte before each payload. -/
def taggingCodec (tag : Nat) : PayloadCodec Unit (List Nat) Unit Empty where
  encode payloads _ := pure (payloads.map (tag :: ·))
  decode payloads _ := pure (payloads.map List.tail)

/-- A codec that puts one payload before all the others. -/
def headerCodec : PayloadCodec Unit (List Nat) Unit Empty where
  encode payloads _ := pure ([0] :: payloads)
  decode payloads _ := pure payloads.tail

theorem taggingCodec_inverts (tag : Nat) : (taggingCodec tag).DecodeInvertsEncode () := by
  intro payloads s encoded s' h t
  cases pure_eq_ok.1 h
  refine ⟨t, ?_⟩
  simp [taggingCodec, Function.comp_def]

theorem headerCodec_inverts : headerCodec.DecodeInvertsEncode () := by
  intro payloads s encoded s' h t
  cases pure_eq_ok.1 h
  exact ⟨t, rfl⟩

def messageFailure (encodedAttributes : Option (List Nat)) (info : Option (FailureInfo (List Nat)))
    (cause : Option (Failure (List Nat))) : Failure (List Nat) :=
  .mk ⟨some "failed", none, some "TypeScriptSDK", encodedAttributes, info⟩ cause

theorem codecRoundTrip_tagging :
    CodecRoundTrip [taggingCodec 1, taggingCodec 2]
      (messageFailure (some [7]) none (some (messageFailure none (some (.canceledFailureInfo (some [[8], [9]]))) none)))
      () := by
  refine codecRoundTrip _ _ _ ?_ ?_
  · intro codec hcodec
    simp only [List.mem_cons, List.not_mem_nil, or_false] at hcodec
    rcases hcodec with rfl | rfl
    · exact taggingCodec_inverts 1
    · exact taggingCodec_inverts 2
  · intro payload _ s encoded s' h
    rw [encodePayloads_eq] at h
    cases pure_eq_ok.1 h
    rfl

/-- A codec that does not keep one payload one payload loses the encoded attributes, and one that does
is called with the empty details that the walker passes over. -/
theorem codecRoundTrip_not_always :
    (headerCodec.DecodeInvertsEncode () ∧
      (encodeFailure [headerCodec] (messageFailure (some [7]) none none) () >>= fun encoded =>
        decodeFailure [headerCodec] encoded ()) () = .ok (messageFailure none none none, ())) ∧
    ((taggingCodec 1).DecodeInvertsEncode () ∧
      callsOf (fun _ payloads => encodePayloads [taggingCodec 1] payloads ())
          (messageFailure none (some (.canceledFailureInfo (some []))) none) () =
        some [(⟨0, .canceledDetails⟩, [])] ∧
      walkFailure 0 (messageFailure none (some (.canceledFailureInfo (some []))) none) = []) := by
  refine ⟨⟨headerCodec_inverts, ?_⟩, taggingCodec_inverts 1, ?_, rfl⟩
  · simp only [encodeFailure, decodeFailure, encodePayloads_eq, decodePayloads_eq]
    rfl
  · simp only [encodePayloads_eq]
    rfl

end Runs

end TemporalSdk.Failures
