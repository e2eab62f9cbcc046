import TemporalSdk.Storage.References

/-!
# RoundTrip — `store` and `retrieve` with a payload cache

The groups of the drivers run at the same time, and may end in any order.  An order is a parameter here; a call of
a driver acts on the world when it ends.  All groups end, also where one of them fails.

Drivers are honest when what they return for a claim is what they stored under it.  Then `retrieve` undoes `store`,
with any cache whose content agrees with the drivers.
-/

namespace TemporalSdk.Storage

open Machine

/-! ## The payload cache -/

abbrev PayloadCache := String → Option Payload

/-- `payloadCache` may be `false`. -/
def cacheGet (cache : Option PayloadCache) (key : String) : Option Payload := cache.bind fun content => content key

def cacheSet (cache : Option PayloadCache) (key : String) (payload : Payload) : Option PayloadCache :=
  cache.map fun content => Function.update content key (some payload)

/-- What the groups of one operation work on. -/
structure Progress where
  result : List Payload
  cache : Option PayloadCache

structure RetrieveItem (D : Type) where
  index : Nat
  driver : D
  claim : StorageDriverClaim
  cacheKey : String
  size : Nat

structure RetrieveGroup (D : Type) where
  driver : D
  items : List (RetrieveItem D)

variable {D W : Type}

def addRetrieveItem (name : String) (item : RetrieveItem D) :
    List (String × RetrieveGroup D) → List (String × RetrieveGroup D)
  | [] => [(name, ⟨item.driver, [item]⟩)]
  | (key, group) :: rest =>
    if key = name then (key, { group with items := group.items ++ [item] }) :: rest
    else (key, group) :: addRetrieveItem name item rest

/-! ## Tasks at the same time -/

/-- What tasks leave when they have ended, with the errors of those that were rejected. -/
structure Settled (σ β : Type) where
  result : β
  state : σ
  rejected : List (String × Thrown)

/-- How tasks run: the key that an item is known by, its task, and what the task leaves where it fails. -/
structure Tasks (σ α β : Type) where
  key : α → String
  task : β → α → StateT σ (Except Thrown) β
  failed : α → σ → σ

section Tasks

variable {σ α β : Type}

def Tasks.settle (tasks : Tasks σ α β) (settled : Settled σ β) (item : α) : Settled σ β :=
  match tasks.task settled.result item settled.state with
  | .ok (result, state) => { settled with result, state }
  | .error e =>
    { settled with
      state := tasks.failed item settled.state
      rejected := settled.rejected ++ [(tasks.key item, e)] }

def Tasks.settleAll (tasks : Tasks σ α β) (ended : List α) (result : β) (state : σ) : Settled σ β :=
  ended.foldl tasks.settle ⟨result, state, []⟩

/-- All tasks end, in the order of `ended`; what is thrown is the first rejection in the order of the items. -/
def runWithAbortOnFirstError (tasks : Tasks σ α β) (items ended : List α) (result : β) :
    StateT σ (Except Thrown) β := fun state =>
  let settled := tasks.settleAll ended result state
  match items.findSome? fun item => settled.rejected.lookup (tasks.key item) with
  | some reason => .error reason
  | none => .ok (settled.result, settled.state)

variable {tasks : Tasks σ α β}

theorem Tasks.mem_settle {settled : Settled σ β} {item : α} {e : Thrown}
    (h : tasks.task settled.result item settled.state = .error e) :
    (tasks.key item, e) ∈ (tasks.settle settled item).rejected := by
  unfold Tasks.settle
  rw [h]
  exact List.mem_append_right _ (List.mem_singleton.mpr rfl)

theorem Tasks.rejected_settle (settled : Settled σ β) (item : α) {entry : String × Thrown}
    (h : entry ∈ settled.rejected) : entry ∈ (tasks.settle settled item).rejected := by
  unfold Tasks.settle
  split
  · exact h
  · exact List.mem_append_left _ h

theorem Tasks.rejected_mono {ended : List α} : ∀ {settled : Settled σ β} {entry : String × Thrown},
    entry ∈ settled.rejected → entry ∈ (ended.foldl tasks.settle settled).rejected := by
  induction ended with
  | nil =>
    intro settled entry h
    exact h
  | cons item ended ih =>
    intro settled entry h
    exact ih (Tasks.rejected_settle settled item h)

/-- Tasks that all succeed do what they do one after the other. -/
theorem Tasks.settle_cases (tasks : Tasks σ α β) (ended : List α) : ∀ (settled : Settled σ β),
    (∃ result state, ended.foldlM tasks.task settled.result settled.state = .ok (result, state) ∧
        ended.foldl tasks.settle settled = ⟨result, state, settled.rejected⟩) ∨
      ∃ item ∈ ended, ∃ e, (tasks.key item, e) ∈ (ended.foldl tasks.settle settled).rejected ∧
        ∀ r, ended.foldlM tasks.task settled.result settled.state ≠ .ok r := by
  induction ended with
  | nil =>
    intro settled
    exact Or.inl ⟨_, _, rfl, rfl⟩
  | cons item ended ih =>
    intro settled
    rw [List.foldl_cons, List.foldlM_cons]
    cases hrun : tasks.task settled.result item settled.state with
    | ok next =>
      have hsettle : tasks.settle settled item = ⟨next.1, next.2, settled.rejected⟩ := by
        unfold Tasks.settle
        rw [hrun]
      have hbind : (tasks.task settled.result item >>= fun r => ended.foldlM tasks.task r) settled.state =
          ended.foldlM tasks.task next.1 next.2 := by
        simp only [bind, StateT.bind, Except.bind, hrun]
      rw [hsettle, hbind]
      rcases ih ⟨next.1, next.2, settled.rejected⟩ with hall | ⟨other, hother, e, hmem, hne⟩
      · exact Or.inl hall
      · exact Or.inr ⟨other, List.mem_cons_of_mem _ hother, e, hmem, hne⟩
    | error e =>
      refine Or.inr ⟨item, List.mem_cons_self, e, Tasks.rejected_mono (Tasks.mem_settle hrun), fun r hr => ?_⟩
      rcases bind_eq_ok.1 hr with ⟨a, s', ha, _⟩
      rw [hrun] at ha
      cases ha

theorem Tasks.exists_reason {items : List α} {item : α} {e : Thrown} {rejected : List (String × Thrown)}
    (hitem : item ∈ items) (hmem : (tasks.key item, e) ∈ rejected) :
    ∃ reason, (items.findSome? fun item => rejected.lookup (tasks.key item)) = some reason ∧
      ∃ key, (key, reason) ∈ rejected := by
  cases hreason : items.findSome? fun item => rejected.lookup (tasks.key item) with
  | none =>
    have hnone := List.lookup_eq_none_iff.mp (List.findSome?_eq_none_iff.mp hreason item hitem) _ hmem
    simp at hnone
  | some reason =>
    obtain ⟨_, first, _, _, hlookup, _⟩ := List.findSome?_eq_some_iff.mp hreason
    obtain ⟨before, after, hrejected, _⟩ := List.lookup_eq_some_iff.mp hlookup
    exact ⟨reason, rfl, tasks.key first, hrejected ▸ List.mem_append_right _ List.mem_cons_self⟩

theorem runWithAbortOnFirstError_ok {items ended : List α} {result : β} {state : σ} {r : β × σ}
    (hended : ∀ item ∈ ended, item ∈ items) :
    runWithAbortOnFirstError tasks items ended result state = .ok r ↔
      ended.foldlM tasks.task result state = .ok r := by
  unfold runWithAbortOnFirstError Tasks.settleAll
  rcases tasks.settle_cases ended ⟨result, state, []⟩ with
    ⟨result', state', hrun, hsettled⟩ | ⟨item, hitem, e, hmem, hne⟩
  · have hnone : (items.findSome? fun item => ([] : List (String × Thrown)).lookup (tasks.key item)) = none :=
      List.findSome?_eq_none_iff.mpr fun _ _ => rfl
    simp only [hsettled, hnone]
    rw [hrun]
  · obtain ⟨reason, hreason, _⟩ := Tasks.exists_reason (hended item hitem) hmem
    simp only [hreason]
    exact iff_of_false nofun (hne r)

/-- A task that fails makes the whole fail; where it is the only one, with its error. -/
theorem runWithAbortOnFirstError_error {items before after : List α} {item : α} {result : β} {state : σ}
    {name : ErrorName} (hitem : item ∈ items)
    (hfails : ∃ e, tasks.task (tasks.settleAll before result state).result item
      (tasks.settleAll before result state).state = .error e ∧ e.name = name) :
    ∃ reason, runWithAbortOnFirstError tasks items (before ++ item :: after) result state = .error reason ∧
      ((tasks.settleAll (before ++ item :: after) result state).rejected.length = 1 → reason.name = name) := by
  rcases hfails with ⟨e, hfails, hname⟩
  have hmem : (tasks.key item, e) ∈ (tasks.settleAll (before ++ item :: after) result state).rejected := by
    rw [Tasks.settleAll, List.foldl_append, List.foldl_cons]
    exact Tasks.rejected_mono (Tasks.mem_settle hfails)
  obtain ⟨reason, hreason, key, hkey⟩ := Tasks.exists_reason hitem hmem
  refine ⟨reason, by simp only [runWithAbortOnFirstError, hreason], fun hone => ?_⟩
  obtain ⟨entry, hentry⟩ := List.length_eq_one_iff.mp hone
  rw [hentry] at hmem hkey
  cases (List.mem_singleton.mp hkey).trans (List.mem_singleton.mp hmem).symm
  exact hname

end Tasks

namespace ExternalStorage

variable (st : ExternalStorage D W) (pb : Protobuf) (fromJson : ReferenceParser)
  (target : Option StorageDriverTargetInfo)

/-! ## `store` -/

def cacheReferences (name : String) (cache : Option PayloadCache) (claimed : List (StoreItem × StorageDriverClaim)) :
    Option PayloadCache :=
  claimed.foldl (fun cache entry =>
    cacheSet cache (externalStorageClaimCacheKey name entry.2.claimData) entry.1.payload) cache

def storeGroupCached (r : Progress) (group : DriverGroup D) : StateT (Session W) (Except Thrown) Progress := do
  let name := (st.driver group.driver).name
  let claims ← st.callStore target group.driver (group.items.map (·.payload))
  if claims.length ≠ group.items.length then
    throw ⟨.externalStorageReferenceError, "Driver '" ++ name ++ "' returned " ++ toString claims.length ++
      " claims for " ++ toString group.items.length ++ " payloads"⟩
  else
    modify fun s => { s with
      metrics := s.metrics.record name group.items.length (group.items.map (·.size)).sum }
    pure ⟨assignReferences pb name r.result (group.items.zip claims), cacheReferences name r.cache (group.items.zip claims)⟩

/-- The session after a group that failed: a call that returned has acted on the world. -/
def storeFailed (group : DriverGroup D) (s : Session W) : Session W :=
  match (st.driver group.driver).store target (group.items.map (·.payload)) s.world with
  | .ok (_, world) => { s with world }
  | .error _ => s

def storeTasks : Tasks (Session W) (DriverGroup D) Progress where
  key group := (st.driver group.driver).name
  task := st.storeGroupCached pb target
  failed := st.storeFailed target

/-- `order` is the order in which the groups end. -/
def storeCached [DecidableEq D] (order : List (DriverGroup D) → List (DriverGroup D)) (cache : Option PayloadCache)
    (payloads : List Payload) : StateT (Session W) (Except Thrown) Progress :=
  match st.groupByDriver pb target 0 payloads [] with
  | .error e => throw e
  | .ok groups =>
    runWithAbortOnFirstError (st.storeTasks pb target) (groups.map (·.2)) (order (groups.map (·.2))) ⟨payloads, cache⟩

/-! ## `retrieve` -/

def payloadsToRetrieve : Nat → List Payload → Except Thrown (List (RetrieveItem D))
  | _, [] => pure []
  | i, payload :: payloads =>
    if isReferencePayload payload then
      match decodeReferencePayload pb fromJson payload with
      | .error _ => throw ⟨.externalStorageReferenceError, "Failed to decode external storage reference"⟩
      | .ok decoded =>
        match st.getDriver decoded.driverName with
        | none =>
          throw ⟨.externalStorageUnregisteredDriverError,
            "No driver registered with name '" ++ decoded.driverName ++ "'"⟩
        | some driver => do
          let rest ← payloadsToRetrieve (i + 1) payloads
          pure (⟨i, driver, ⟨decoded.claimData⟩,
            externalStorageClaimCacheKey decoded.driverName decoded.claimData, decoded.sizeBytes⟩ :: rest)
    else payloadsToRetrieve (i + 1) payloads

/-- The items that the cache has a payload for, and the other ones. -/
def retrieveFromCache (cache : Option PayloadCache) :
    List (RetrieveItem D) → List (RetrieveItem D × Payload) × List (RetrieveItem D)
  | [] => ([], [])
  | item :: items =>
    let (retrieved, missing) := retrieveFromCache cache items
    match cacheGet cache item.cacheKey with
    | some payload => ((item, payload) :: retrieved, missing)
    | none => (retrieved, item :: missing)

def assignRetrieved (result : List Payload) (retrieved : List (RetrieveItem D × Payload)) : List Payload :=
  retrieved.foldl (fun result entry => result.set entry.1.index entry.2) result

def cacheRetrieved (cache : Option PayloadCache) (retrieved : List (RetrieveItem D × Payload)) : Option PayloadCache :=
  retrieved.foldl (fun cache entry => cacheSet cache entry.1.cacheKey entry.2) cache

def groupMissing (missing : List (RetrieveItem D)) : List (String × RetrieveGroup D) :=
  missing.foldl (fun groups item => addRetrieveItem (st.driver item.driver).name item groups) []

def callRetrieve (d : D) (claims : List StorageDriverClaim) : StateT (Session W) (Except Thrown) (List Payload) :=
  fun s =>
    match (st.driver d).retrieve claims s.world with
    | .ok (payloads, world) => .ok (payloads, { s with world := world })
    | .error _ =>
      .error ⟨.externalStorageDriverError, "Storage driver '" ++ (st.driver d).name ++
        "' failed to retrieve payloads"⟩

def retrieveGroup (r : Progress) (group : RetrieveGroup D) : StateT (Session W) (Except Thrown) Progress := do
  let name := (st.driver group.driver).name
  let retrieved ← st.callRetrieve group.driver (group.items.map (·.claim))
  if retrieved.length ≠ group.items.length then
    throw ⟨.externalStorageReferenceError, "Driver '" ++ name ++ "' returned " ++ toString retrieved.length ++
      " payloads for " ++ toString group.items.length ++ " claims"⟩
  else
    modify fun s => { s with
      metrics := s.metrics.record name group.items.length (group.items.map (·.size)).sum }
    pure ⟨assignRetrieved r.result (group.items.zip retrieved), cacheRetrieved r.cache (group.items.zip retrieved)⟩

def retrieveFailed (group : RetrieveGroup D) (s : Session W) : Session W :=
  match (st.driver group.driver).retrieve (group.items.map (·.claim)) s.world with
  | .ok (_, world) => { s with world }
  | .error _ => s

def retrieveTasks : Tasks (Session W) (RetrieveGroup D) Progress where
  key group := (st.driver group.driver).name
  task := st.retrieveGroup
  failed := st.retrieveFailed

def retrieve (order : List (RetrieveGroup D) → List (RetrieveGroup D)) (cache : Option PayloadCache)
    (payloads : List Payload) : StateT (Session W) (Except Thrown) Progress :=
  match st.payloadsToRetrieve pb fromJson 0 payloads with
  | .error e => throw e
  | .ok items =>
    let (retrieved, missing) := retrieveFromCache cache items
    let groups := (st.groupMissing missing).map (·.2)
    runWithAbortOnFirstError st.retrieveTasks groups (order groups) ⟨assignRetrieved payloads retrieved, cache⟩

/-! ## Honest drivers -/

/-- `holds d w claim payload`: in the world `w`, the driver has the payload under the claim. -/
abbrev Holds (D W : Type) := D → W → StorageDriverClaim → Payload → Prop

/-- Calls that return the right number of results return the right ones; nothing that is held gets lost.  The order
of the entries of a claim makes no difference. -/
structure Honest (holds : Holds D W) : Prop where
  store : ∀ d ∈ st.drivers, ∀ target payloads w claims w',
    (st.driver d).store target payloads w = .ok (claims, w') → claims.length = payloads.length →
      ∀ payload claim, (payload, claim) ∈ payloads.zip claims → holds d w' claim payload
  store_keeps : ∀ d ∈ st.drivers, ∀ target payloads w claims w',
    (st.driver d).store target payloads w = .ok (claims, w') →
      ∀ d' claim payload, holds d' w claim payload → holds d' w' claim payload
  retrieve : ∀ d ∈ st.drivers, ∀ claims w payloads w',
    (st.driver d).retrieve claims w = .ok (payloads, w') → payloads.length = claims.length →
      ∀ claim payload, (claim, payload) ∈ claims.zip payloads → ∀ held, holds d w claim held → payload = held
  retrieve_keeps : ∀ d ∈ st.drivers, ∀ claims w payloads w',
    (st.driver d).retrieve claims w = .ok (payloads, w') →
      ∀ d' claim payload, holds d' w claim payload → holds d' w' claim payload
  unique : ∀ d w claim payload payload', holds d w claim payload → holds d w claim payload' → payload = payload'
  perm : ∀ d w claim claim' payload, claim.claimData.Perm claim'.claimData → holds d w claim payload →
    holds d w claim' payload

/-- What the cache has for a claim is what the driver holds under it. -/
def Consistent (holds : Holds D W) (cache : Option PayloadCache) (w : W) : Prop :=
  ∀ d ∈ st.drivers, ∀ (claim : StorageDriverClaim) payload,
    cacheGet cache (externalStorageClaimCacheKey (st.driver d).name claim.claimData) = some payload →
      holds d w claim payload

/-- Every call returns, with the right number of results, and the selector returns registered drivers. -/
structure Answering (holds : Holds D W) : Prop extends st.Reliable pb where
  payloads : ∀ d ∈ st.drivers, ∀ claims w, (∀ claim ∈ claims, ∃ payload, holds d w claim payload) →
    ∃ payloads w', (st.driver d).retrieve claims w = .ok (payloads, w') ∧ payloads.length = claims.length

variable {st pb fromJson target} {holds : Holds D W}

variable {d : D}

theorem getDriver_spec {name : String} (h : st.getDriver name = some d) :
    d ∈ st.drivers ∧ (st.driver d).name = name :=
  ⟨List.mem_of_find?_eq_some h, by simpa using List.find?_some h⟩

theorem eq_of_name_eq {d d' : D} (hd : d ∈ st.drivers) (hd' : d' ∈ st.drivers)
    (h : (st.driver d).name = (st.driver d').name) : d = d' :=
  List.inj_on_of_nodup_map st.names_nodup hd hd' h

theorem getDriver_name (hd : d ∈ st.drivers) : st.getDriver (st.driver d).name = some d := by
  cases hfind : st.getDriver (st.driver d).name with
  | none =>
    have := List.find?_eq_none.mp hfind d hd
    simp at this
  | some d' =>
    rcases getDriver_spec hfind with ⟨hd', hname⟩
    rw [eq_of_name_eq hd' hd hname]

/-! ## The cache stays consistent -/

/-- What is held in `w` is held in `w'`. -/
def Keeps (holds : Holds D W) (w w' : W) : Prop := ∀ d claim payload, holds d w claim payload → holds d w' claim payload

variable {cache : Option PayloadCache}

theorem Consistent.keeps {w w' : W} (h : st.Consistent holds cache w)
    (hkeeps : Keeps holds w w') : st.Consistent holds cache w' :=
  fun d hd claim payload hget => hkeeps d claim payload (h d hd claim payload hget)

theorem cacheGet_cacheSet {key key' : String} {payload payload' : Payload}
    (h : cacheGet (cacheSet cache key payload) key' = some payload') :
    (key' = key ∧ payload' = payload) ∨ cacheGet cache key' = some payload' := by
  cases cache with
  | none => cases h
  | some content =>
    by_cases heq : key' = key
    · subst heq
      simp only [cacheGet, cacheSet, Option.map_some, Option.bind_some, Function.update_self] at h
      exact Or.inl ⟨rfl, (Option.some.inj h).symm⟩
    · simp only [cacheGet, cacheSet, Option.map_some, Option.bind_some, Function.update_of_ne heq] at h
      exact Or.inr h

variable {claim : StorageDriverClaim} {w : W}

theorem Consistent.set {payload : Payload}
    (hhonest : st.Honest holds) (h : st.Consistent holds cache w) (hd : d ∈ st.drivers)
    (hheld : holds d w claim payload) :
    st.Consistent holds (cacheSet cache (externalStorageClaimCacheKey (st.driver d).name claim.claimData) payload) w := by
  intro d' hd' claim' payload' hget
  rcases cacheGet_cacheSet hget with ⟨hkey, rfl⟩ | hget
  · rcases externalStorageClaimCacheKey_inj hkey with ⟨hname, hperm⟩
    rw [eq_of_name_eq hd' hd hname]
    exact hhonest.perm d w claim claim' payload' hperm.symm hheld
  · exact h d' hd' claim' payload' hget

/-! ## What `store` leaves -/

/-- `q` stands for `p`: it is `p`, or a reference to a claim that `p` is held under. -/
def StandsFor (st : ExternalStorage D W) (pb : Protobuf) (holds : Holds D W) (w : W) (p q : Payload) : Prop :=
  q = p ∨ ∃ d ∈ st.drivers, ∃ claim size, holds d w claim p ∧
    q = encodeReferencePayload pb (st.driver d).name claim size

structure Stored (st : ExternalStorage D W) (pb : Protobuf) (holds : Holds D W) (payloads : List Payload) (r : Progress)
    (w : W) : Prop where
  length : r.result.length = payloads.length
  at_index : ∀ (i : Nat) p q, payloads[i]? = some p → r.result[i]? = some q → st.StandsFor pb holds w p q
  cache : st.Consistent holds r.cache w

theorem StandsFor.keeps {w w' : W} {p q : Payload} (h : st.StandsFor pb holds w p q) (hkeeps : Keeps holds w w') :
    st.StandsFor pb holds w' p q := by
  rcases h with h | ⟨d, hd, claim, size, hheld, hq⟩
  · exact Or.inl h
  · exact Or.inr ⟨d, hd, claim, size, hkeeps d claim p hheld, hq⟩

variable {payloads : List Payload} {r : Progress}

theorem Stored.keeps {w w' : W} (h : st.Stored pb holds payloads r w)
    (hkeeps : Keeps holds w w') : st.Stored pb holds payloads r w' :=
  ⟨h.length, fun i p q hp hq => (h.at_index i p q hp hq).keeps hkeeps, h.cache.keeps hkeeps⟩

theorem Stored.reference {i : Nat} {p : Payload}
    (size : Nat) (hhonest : st.Honest holds) (h : st.Stored pb holds payloads r w)
    (hd : d ∈ st.drivers) (hi : payloads[i]? = some p) (hheld : holds d w claim p) :
    st.Stored pb holds payloads ⟨r.result.set i (encodeReferencePayload pb (st.driver d).name claim size),
      cacheSet r.cache (externalStorageClaimCacheKey (st.driver d).name claim.claimData) p⟩ w := by
  refine ⟨?_, ?_, h.cache.set hhonest hd hheld⟩
  · rw [List.length_set]
    exact h.length
  · intro j p' q hp' hq
    rw [List.getElem?_set] at hq
    split at hq
    · rename_i hij
      subst hij
      rw [hi] at hp'
      cases hp'
      split at hq
      · cases hq
        exact Or.inr ⟨d, hd, claim, size, hheld, rfl⟩
      · cases hq
    · exact h.at_index j p' q hp' hq

theorem Stored.references (hhonest : st.Honest holds) (hd : d ∈ st.drivers) :
    ∀ {claimed : List (StoreItem × StorageDriverClaim)} {r : Progress}, st.Stored pb holds payloads r w →
      (∀ entry ∈ claimed, payloads[entry.1.index]? = some entry.1.payload ∧ holds d w entry.2 entry.1.payload) →
        st.Stored pb holds payloads ⟨assignReferences pb (st.driver d).name r.result claimed,
          cacheReferences (st.driver d).name r.cache claimed⟩ w := by
  intro claimed
  induction claimed with
  | nil =>
    intro r h _
    exact h
  | cons entry claimed ih =>
    intro r h hall
    have hentry := hall entry List.mem_cons_self
    exact ih (h.reference entry.1.size hhonest hd hentry.1 hentry.2) fun e he => hall e (List.mem_cons_of_mem _ he)

theorem Stored.group {r r' : Progress} {name : String} {group : DriverGroup D}
    {s s' : Session W} (hhonest : st.Honest holds) (h : st.Stored pb holds payloads r s.world)
    (hgroup : st.GroupSound pb target payloads (name, group))
    (hrun : st.storeGroupCached pb target r group s = .ok (r', s')) : st.Stored pb holds payloads r' s'.world := by
  have hd : group.driver ∈ st.drivers := (getDriver_spec hgroup.registered).1
  rcases bind_eq_ok.1 hrun with ⟨claims, s₁, hcall, hrun⟩
  obtain ⟨w', hstore, hworld⟩ : ∃ w', (st.driver group.driver).store target (group.items.map (·.payload)) s.world =
      .ok (claims, w') ∧ s₁.world = w' := by
    unfold callStore at hcall
    split at hcall
    · rename_i claims' w' hw
      cases hcall
      exact ⟨w', hw, rfl⟩
    · cases hcall
  by_cases hlength : claims.length = group.items.length
  · rw [if_neg (not_not.2 hlength)] at hrun
    rcases bind_eq_ok.1 hrun with ⟨_, s₂, hmodify, hrun⟩
    cases pure_eq_ok.1 hrun
    have hworld' : s'.world = s₁.world := by
      cases hmodify
      rfl
    rw [hworld', hworld]
    have hkept := h.keeps (hhonest.store_keeps group.driver hd target _ s.world claims w' hstore)
    refine hkept.references hhonest hd fun entry hentry => ?_
    refine ⟨(hgroup.item entry.1 (List.of_mem_zip hentry).1).1, ?_⟩
    refine hhonest.store group.driver hd target _ s.world claims w' hstore (by simp [hlength]) _ _ ?_
    rw [List.zip_map_left]
    exact List.mem_map.2 ⟨entry, hentry, rfl⟩
  · rw [if_pos hlength] at hrun
    exact absurd hrun throw_ne_ok

/-- The groups that are left are sound. -/
def StoreLeft (st : ExternalStorage D W) (pb : Protobuf) (target : Option StorageDriverTargetInfo) (holds : Holds D W)
    (payloads : List Payload) (left : List (DriverGroup D)) (r : Progress) (s : Session W) : Prop :=
  (∀ group ∈ left, ∃ name, st.GroupSound pb target payloads (name, group)) ∧ st.Stored pb holds payloads r s.world

theorem storeLeft_step (hhonest : st.Honest holds) (group : DriverGroup D)
    (left : List (DriverGroup D)) (r : Progress) (s : Session W) (r' : Progress) (s' : Session W)
    (h : st.StoreLeft pb target holds payloads (group :: left) r s)
    (hrun : st.storeGroupCached pb target r group s = .ok (r', s')) : st.StoreLeft pb target holds payloads left r' s' := by
  rcases h.1 group List.mem_cons_self with ⟨name, hgroup⟩
  exact ⟨fun g hg => h.1 g (List.mem_cons_of_mem _ hg), h.2.group hhonest hgroup hrun⟩

variable {s : Session W}

theorem storeLeft_init [DecidableEq D] {groups : DriverGroups D}
    {order : List (DriverGroup D) → List (DriverGroup D)} (horder : ∀ l, (order l).Perm l)
    (hgroups : st.groupByDriver pb target 0 payloads [] = .ok groups) (hcache : st.Consistent holds cache s.world) :
    st.StoreLeft pb target holds payloads (order (groups.map (·.2))) ⟨payloads, cache⟩ s := by
  have hspec := groupByDriver_spec (show st.groupByDriver pb target [].length payloads [] = _ from hgroups) nofun nofun
  refine ⟨?_, rfl, ?_, hcache⟩
  · intro group hgroup
    rcases List.mem_map.mp ((horder _).mem_iff.mp hgroup) with ⟨entry, hentry, rfl⟩
    exact ⟨entry.1, hspec.1 entry hentry⟩
  · intro i p q hp hq
    rw [hp] at hq
    exact Or.inl (Option.some.inj hq).symm

theorem storeCached_spec [DecidableEq D] {s s' : Session W}
    {order : List (DriverGroup D) → List (DriverGroup D)} (horder : ∀ l, (order l).Perm l) (hhonest : st.Honest holds)
    (hcache : st.Consistent holds cache s.world)
    (h : st.storeCached pb target order cache payloads s = .ok (r, s')) : st.Stored pb holds payloads r s'.world := by
  unfold storeCached at h
  cases hgroups : st.groupByDriver pb target 0 payloads [] with
  | error e =>
    rw [hgroups] at h
    exact absurd h throw_ne_ok
  | ok groups =>
    rw [hgroups] at h
    have hrun := (runWithAbortOnFirstError_ok fun group hgroup => (horder _).mem_iff.mp hgroup).mp h
    exact (foldlM_invariant (storeLeft_step hhonest) (storeLeft_init horder hgroups hcache) hrun).2

/-! ## What `retrieve` puts back -/

/-- The item asks for the payload at its index. -/
structure Asks (st : ExternalStorage D W) (holds : Holds D W) (payloads : List Payload) (w : W) (item : RetrieveItem D)
    (p : Payload) : Prop where
  driver : item.driver ∈ st.drivers
  payload : payloads[item.index]? = some p
  held : holds item.driver w item.claim p
  key : item.cacheKey = externalStorageClaimCacheKey (st.driver item.driver).name item.claim.claimData

theorem Asks.keeps {w w' : W} {item : RetrieveItem D} {p : Payload}
    (h : st.Asks holds payloads w item p) (hkeeps : Keeps holds w w') : st.Asks holds payloads w' item p :=
  ⟨h.driver, h.payload, hkeeps item.driver item.claim p h.held, h.key⟩

/-- Every reference becomes an item that asks for what it stands for. -/
theorem payloadsToRetrieve_spec (hjson : ReferencesRoundTrip pb fromJson)
    (hplain : ∀ p ∈ payloads, isReferencePayload p = false) :
    ∀ (suffix : List Payload) (i : Nat),
      (∀ (j : Nat) q, suffix[j]? = some q → ∃ p, payloads[i + j]? = some p ∧ st.StandsFor pb holds w p q) →
      ∃ items, st.payloadsToRetrieve pb fromJson i suffix = .ok items ∧
        (∀ item ∈ items, ∃ p, st.Asks holds payloads w item p) ∧
          ∀ (j : Nat) q, suffix[j]? = some q → payloads[i + j]? = some q ∨ ∃ item ∈ items, item.index = i + j := by
  intro suffix
  induction suffix with
  | nil =>
    intro i _
    exact ⟨[], rfl, nofun, nofun⟩
  | cons q suffix ih =>
    intro i hstands
    have hsuffix : ∀ (j : Nat) q', suffix[j]? = some q' →
        ∃ p, payloads[i + 1 + j]? = some p ∧ st.StandsFor pb holds w p q' := by
      intro j q' hq'
      rw [Nat.add_right_comm]
      exact hstands (j + 1) q' hq'
    rcases ih (i + 1) hsuffix with ⟨items, hitems, hasks, hcover⟩
    have hrest : ∀ {items' : List (RetrieveItem D)}, (∀ item ∈ items, item ∈ items') →
        ∀ (j : Nat) q', suffix[j]? = some q' → payloads[i + (j + 1)]? = some q' ∨ ∃ item ∈ items', item.index = i + (j + 1) := by
      intro items' hsub j q' hq'
      have hindex : i + (j + 1) = i + 1 + j := by omega
      rw [hindex]
      rcases hcover j q' hq' with h | ⟨item, hitem, heq⟩
      · exact Or.inl h
      · exact Or.inr ⟨item, hsub item hitem, heq⟩
    rcases hstands 0 q rfl with ⟨p, hp, rfl | ⟨d, hd, claim, size, hheld, rfl⟩⟩
    · -- not moved, and no reference itself
      have hnot := hplain q (List.mem_of_getElem? hp)
      refine ⟨items, ?_, hasks, ?_⟩
      · rw [payloadsToRetrieve, if_neg (by rw [hnot]; nofun)]
        exact hitems
      · intro j q' hq'
        cases j with
        | zero =>
          cases hq'
          exact Or.inl hp
        | succ j => exact hrest (fun _ => id) j q' hq'
    · have hname := st.name_ne_empty d hd
      refine ⟨⟨i, d, ⟨claim.claimData⟩, externalStorageClaimCacheKey (st.driver d).name claim.claimData, size⟩ :: items,
        ?_, ?_, ?_⟩
      · rw [payloadsToRetrieve, if_pos (isReferencePayload_encodeReferencePayload _ claim size),
          decodeReferencePayload_encodeReferencePayload hjson hname]
        simp only [getDriver_name hd, hitems, bind, Except.bind]
        rfl
      · intro item hitem
        rcases List.mem_cons.mp hitem with rfl | hitem
        · exact ⟨p, hd, hp, hheld, rfl⟩
        · exact hasks item hitem
      · intro j q' hq'
        cases j with
        | zero => exact Or.inr ⟨_, List.mem_cons_self, rfl⟩
        | succ j => exact hrest (fun _ => List.mem_cons_of_mem _) j q' hq'

theorem retrieveFromCache_eq (cache : Option PayloadCache) (items : List (RetrieveItem D)) :
    retrieveFromCache cache items =
      (items.filterMap fun item => (cacheGet cache item.cacheKey).map (item, ·),
        items.filter fun item => (cacheGet cache item.cacheKey).isNone) := by
  induction items with
  | nil => rfl
  | cons item items ih =>
    rw [retrieveFromCache, ih]
    cases hget : cacheGet cache item.cacheKey <;> simp [hget]

theorem retrieveFromCache_spec (cache : Option PayloadCache) (items : List (RetrieveItem D)) :
    (∀ entry ∈ (retrieveFromCache cache items).1, entry.1 ∈ items ∧ cacheGet cache entry.1.cacheKey = some entry.2) ∧
      (∀ item ∈ (retrieveFromCache cache items).2, item ∈ items) ∧
        ∀ item ∈ items, (∃ entry ∈ (retrieveFromCache cache items).1, entry.1 = item) ∨
          item ∈ (retrieveFromCache cache items).2 := by
  rw [retrieveFromCache_eq]
  refine ⟨fun entry hentry => ?_, fun item hitem => (List.mem_filter.mp hitem).1, fun item hitem => ?_⟩
  · obtain ⟨item, hitem, hfound⟩ := List.mem_filterMap.mp hentry
    obtain ⟨payload, hget, rfl⟩ := Option.map_eq_some_iff.mp hfound
    exact ⟨hitem, hget⟩
  · cases hget : cacheGet cache item.cacheKey with
    | some payload => exact Or.inl ⟨(item, payload), List.mem_filterMap.mpr ⟨item, hitem, by rw [hget]; rfl⟩, rfl⟩
    | none => exact Or.inr (List.mem_filter.mpr ⟨hitem, by rw [hget]; rfl⟩)

/-- The items of a group are missing ones that ask its driver. -/
structure MissingGroup (st : ExternalStorage D W) (missing : List (RetrieveItem D)) (entry : String × RetrieveGroup D) :
    Prop where
  driver : entry.2.driver ∈ st.drivers
  name : entry.1 = (st.driver entry.2.driver).name
  item : ∀ item ∈ entry.2.items, item ∈ missing ∧ item.driver = entry.2.driver

theorem missingGroup_addRetrieveItem {missing : List (RetrieveItem D)} {item : RetrieveItem D} (hmem : item ∈ missing)
    (hd : item.driver ∈ st.drivers) : ∀ {groups : List (String × RetrieveGroup D)},
    (∀ entry ∈ groups, st.MissingGroup missing entry) →
      ∀ entry ∈ addRetrieveItem (st.driver item.driver).name item groups, st.MissingGroup missing entry := by
  intro groups
  induction groups with
  | nil =>
    intro _ entry hentry
    rw [List.mem_singleton.mp hentry]
    refine ⟨hd, rfl, fun x hx => ?_⟩
    rw [List.mem_singleton.mp hx]
    exact ⟨hmem, rfl⟩
  | cons first groups ih =>
    intro hall entry hentry
    have hfirst := hall first List.mem_cons_self
    rw [addRetrieveItem] at hentry
    split at hentry
    · rename_i hname
      rcases List.mem_cons.mp hentry with rfl | hentry
      · have hdriver : item.driver = first.2.driver := by
          apply eq_of_name_eq hd hfirst.driver
          rw [← hname, hfirst.name]
        refine ⟨hfirst.driver, hfirst.name, fun x hx => ?_⟩
        rcases List.mem_append.mp hx with hx | hx
        · exact hfirst.item x hx
        · rw [List.mem_singleton.mp hx]
          exact ⟨hmem, hdriver⟩
      · exact hall entry (List.mem_cons_of_mem _ hentry)
    · rcases List.mem_cons.mp hentry with rfl | hentry
      · exact hfirst
      · exact ih (fun e he => hall e (List.mem_cons_of_mem _ he)) entry hentry

theorem mem_addRetrieveItem {name : String} {item x : RetrieveItem D} : ∀ {groups : List (String × RetrieveGroup D)},
    x = item ∨ (∃ entry ∈ groups, x ∈ entry.2.items) → ∃ entry ∈ addRetrieveItem name item groups, x ∈ entry.2.items := by
  intro groups
  induction groups with
  | nil =>
    rintro (rfl | ⟨_, hentry, _⟩)
    · exact ⟨_, List.mem_singleton_self _, List.mem_singleton_self _⟩
    · cases hentry
  | cons first groups ih =>
    intro h
    rw [addRetrieveItem]
    split
    · rcases h with rfl | ⟨entry, hentry, hx⟩
      · exact ⟨_, List.mem_cons_self, List.mem_append_right _ (List.mem_singleton_self _)⟩
      · rcases List.mem_cons.mp hentry with rfl | hentry
        · exact ⟨_, List.mem_cons_self, List.mem_append_left _ hx⟩
        · exact ⟨entry, List.mem_cons_of_mem _ hentry, hx⟩
    · have hrest : (x = item ∨ ∃ entry ∈ groups, x ∈ entry.2.items) →
          ∃ entry ∈ first :: addRetrieveItem name item groups, x ∈ entry.2.items := by
        intro h
        rcases ih h with ⟨entry, hentry, hx⟩
        exact ⟨entry, List.mem_cons_of_mem _ hentry, hx⟩
      rcases h with h | ⟨entry, hentry, hx⟩
      · exact hrest (Or.inl h)
      · rcases List.mem_cons.mp hentry with rfl | hentry
        · exact ⟨entry, List.mem_cons_self, hx⟩
        · exact hrest (Or.inr ⟨entry, hentry, hx⟩)

theorem groupMissing_spec {missing : List (RetrieveItem D)} (hd : ∀ item ∈ missing, item.driver ∈ st.drivers) :
    (∀ entry ∈ st.groupMissing missing, st.MissingGroup missing entry) ∧
      ∀ item ∈ missing, ∃ entry ∈ st.groupMissing missing, item ∈ entry.2.items := by
  have hfold : ∀ (items : List (RetrieveItem D)) (groups : List (String × RetrieveGroup D)),
      (∀ item ∈ items, item ∈ missing) → (∀ entry ∈ groups, st.MissingGroup missing entry) →
      (∀ entry ∈ items.foldl (fun groups item => addRetrieveItem (st.driver item.driver).name item groups) groups,
          st.MissingGroup missing entry) ∧
        ∀ x, (x ∈ items ∨ ∃ entry ∈ groups, x ∈ entry.2.items) →
          ∃ entry ∈ items.foldl (fun groups item => addRetrieveItem (st.driver item.driver).name item groups) groups,
            x ∈ entry.2.items := by
    intro items
    induction items with
    | nil =>
      intro groups _ hgroups
      refine ⟨hgroups, ?_⟩
      rintro x (hx | hx)
      · cases hx
      · exact hx
    | cons item items ih =>
      intro groups hsub hgroups
      have hitem := hsub item List.mem_cons_self
      rcases ih (addRetrieveItem (st.driver item.driver).name item groups)
        (fun x hx => hsub x (List.mem_cons_of_mem _ hx))
        (missingGroup_addRetrieveItem hitem (hd item hitem) hgroups) with ⟨hsound, hcover⟩
      refine ⟨hsound, fun x hx => hcover x ?_⟩
      rcases hx with hx | hx
      · rcases List.mem_cons.mp hx with rfl | hx
        · exact Or.inr (mem_addRetrieveItem (Or.inl rfl))
        · exact Or.inl hx
      · exact Or.inr (mem_addRetrieveItem (Or.inr hx))
  rcases hfold missing [] (fun _ => id) nofun with ⟨hsound, hcover⟩
  exact ⟨hsound, fun item hitem => hcover item (Or.inl hitem)⟩

/-- The payloads are back, but for those at the indices in `left`. -/
structure Filled (st : ExternalStorage D W) (holds : Holds D W) (payloads : List Payload) (left : Nat → Prop)
    (r : Progress) (w : W) : Prop where
  length : r.result.length = payloads.length
  at_index : ∀ i : Nat, r.result[i]? = payloads[i]? ∨ left i
  cache : st.Consistent holds r.cache w

theorem Filled.mono {left left' : Nat → Prop}
    (h : st.Filled holds payloads left r w) (hleft : ∀ i, left i → left' i) : st.Filled holds payloads left' r w :=
  ⟨h.length, fun i => (h.at_index i).imp id (hleft i), h.cache⟩

theorem Filled.set {left : Nat → Prop} {result : List Payload} {cache cache' : Option PayloadCache}
    {i : Nat} {p : Payload} (h : st.Filled holds payloads left ⟨result, cache⟩ w)
    (hi : payloads[i]? = some p) (hcache : st.Consistent holds cache' w) :
    st.Filled holds payloads (fun j => left j ∧ j ≠ i) ⟨result.set i p, cache'⟩ w := by
  refine ⟨?_, ?_, hcache⟩
  · rw [List.length_set]
    exact h.length
  · intro j
    by_cases hij : j = i
    · subst hij
      refine Or.inl ?_
      have hlt : j < result.length := by
        have hlength : result.length = payloads.length := h.length
        rw [hlength]
        exact (List.getElem?_eq_some_iff.mp hi).1
      rw [List.getElem?_set_self hlt, hi]
    · rw [List.getElem?_set_ne (Ne.symm hij)]
      exact (h.at_index j).imp id fun hj => ⟨hj, hij⟩

theorem Filled.assign : ∀ {retrieved : List (RetrieveItem D × Payload)}
    {left : Nat → Prop} {result : List Payload} {cache : Option PayloadCache},
    st.Filled holds payloads left ⟨result, cache⟩ w →
      (∀ entry ∈ retrieved, payloads[entry.1.index]? = some entry.2) →
        st.Filled holds payloads (fun j => left j ∧ ∀ entry ∈ retrieved, j ≠ entry.1.index)
          ⟨assignRetrieved result retrieved, cache⟩ w := by
  intro retrieved
  induction retrieved with
  | nil =>
    intro left result cache h _
    exact h.mono fun i hi => ⟨hi, nofun⟩
  | cons entry retrieved ih =>
    intro left result cache h hall
    have hset := h.set (hall entry List.mem_cons_self) h.cache
    refine (ih hset fun e he => hall e (List.mem_cons_of_mem _ he)).mono ?_
    rintro i ⟨⟨hleft, hne⟩, hrest⟩
    refine ⟨hleft, fun e he => ?_⟩
    rcases List.mem_cons.mp he with rfl | he
    · exact hne
    · exact hrest e he

theorem Consistent.cacheRetrieved (hhonest : st.Honest holds) :
    ∀ {retrieved : List (RetrieveItem D × Payload)} {cache : Option PayloadCache}, st.Consistent holds cache w →
      (∀ entry ∈ retrieved, st.Asks holds payloads w entry.1 entry.2) →
        st.Consistent holds (cacheRetrieved cache retrieved) w := by
  intro retrieved
  induction retrieved with
  | nil =>
    intro cache h _
    exact h
  | cons entry retrieved ih =>
    intro cache h hall
    have hentry := hall entry List.mem_cons_self
    refine ih ?_ fun e he => hall e (List.mem_cons_of_mem _ he)
    simp only [hentry.key]
    exact h.set hhonest hentry.driver hentry.held

/-- The indices of the items of the groups. -/
def IndexOf (groups : List (RetrieveGroup D)) (i : Nat) : Prop := ∃ group ∈ groups, ∃ item ∈ group.items, item.index = i

/-- The groups that are left ask for payloads that are held. -/
structure RetrieveLeft (st : ExternalStorage D W) (holds : Holds D W) (payloads : List Payload)
    (left : List (RetrieveGroup D)) (r : Progress) (s : Session W) : Prop where
  driver : ∀ group ∈ left, group.driver ∈ st.drivers
  asks : ∀ group ∈ left, ∀ item ∈ group.items, item.driver = group.driver ∧ ∃ p, st.Asks holds payloads s.world item p
  filled : st.Filled holds payloads (IndexOf left) r s.world

variable {claims : List StorageDriverClaim}

theorem callRetrieve_ok {s s' : Session W} (h : st.callRetrieve d claims s = .ok (payloads, s')) :
    (st.driver d).retrieve claims s.world = .ok (payloads, s'.world) := by
  unfold callRetrieve at h
  split at h
  · rename_i hw
    cases h
    exact hw
  · cases h

theorem retrieved_eq {payloads retrieved : List Payload} {group : RetrieveGroup D} {w w' : W} (hhonest : st.Honest holds)
    (hd : group.driver ∈ st.drivers)
    (hasks : ∀ item ∈ group.items, item.driver = group.driver ∧ ∃ p, st.Asks holds payloads w item p)
    (hcall : (st.driver group.driver).retrieve (group.items.map (·.claim)) w = .ok (retrieved, w'))
    (hlength : retrieved.length = group.items.length) :
    ∀ entry ∈ group.items.zip retrieved, st.Asks holds payloads w' entry.1 entry.2 := by
  intro entry hentry
  rcases hasks entry.1 (List.of_mem_zip hentry).1 with ⟨hdriver, p, hp⟩
  have hzip : (entry.1.claim, entry.2) ∈ (group.items.map (·.claim)).zip retrieved := by
    rw [List.zip_map_left]
    exact List.mem_map.2 ⟨entry, hentry, rfl⟩
  have heq := hhonest.retrieve group.driver hd _ w retrieved w' hcall (by simp [hlength]) _ _ hzip p
    (by rw [← hdriver]; exact hp.held)
  rw [heq]
  exact hp.keeps (hhonest.retrieve_keeps group.driver hd _ w retrieved w' hcall)

theorem retrieveLeft_step (hhonest : st.Honest holds) (group : RetrieveGroup D)
    (left : List (RetrieveGroup D)) (r : Progress) (s : Session W) (r' : Progress) (s' : Session W)
    (h : st.RetrieveLeft holds payloads (group :: left) r s) (hrun : st.retrieveGroup r group s = .ok (r', s')) :
    st.RetrieveLeft holds payloads left r' s' := by
  have hd := h.driver group List.mem_cons_self
  rcases bind_eq_ok.1 hrun with ⟨retrieved, s₁, hcall, hrun⟩
  have hretrieve := callRetrieve_ok hcall
  by_cases hlength : retrieved.length = group.items.length
  · rw [if_neg (not_not.2 hlength)] at hrun
    rcases bind_eq_ok.1 hrun with ⟨_, s₂, hmodify, hrun⟩
    cases pure_eq_ok.1 hrun
    have hworld : s'.world = s₁.world := by
      cases hmodify
      rfl
    have hkeeps : Keeps holds s.world s'.world := by
      rw [hworld]
      exact hhonest.retrieve_keeps group.driver hd _ s.world retrieved s₁.world hretrieve
    have hasked := retrieved_eq hhonest hd (h.asks group List.mem_cons_self) hretrieve hlength
    rw [← hworld] at hasked
    refine ⟨fun g hg => h.driver g (List.mem_cons_of_mem _ hg), ?_, ?_⟩
    · intro g hg item hitem
      rcases h.asks g (List.mem_cons_of_mem _ hg) item hitem with ⟨hdriver, p, hp⟩
      exact ⟨hdriver, p, hp.keeps hkeeps⟩
    · have hcache := (h.filled.cache.keeps hkeeps).cacheRetrieved hhonest hasked
      have hstart : st.Filled holds payloads (IndexOf (group :: left))
          ⟨r.result, cacheRetrieved r.cache (group.items.zip retrieved)⟩ s'.world :=
        ⟨h.filled.length, h.filled.at_index, hcache⟩
      have hfilled := hstart.assign fun entry hentry => (hasked entry hentry).payload
      refine hfilled.mono ?_
      rintro i ⟨⟨g, hg, item, hitem, rfl⟩, hnot⟩
      rcases List.mem_cons.mp hg with rfl | hg
      · -- every item of the group has got a payload
        have hfst : (g.items.zip retrieved).map Prod.fst = g.items := List.map_fst_zip (by omega)
        rw [← hfst] at hitem
        rcases List.mem_map.1 hitem with ⟨entry, hentry, rfl⟩
        exact absurd rfl (hnot entry hentry)
      · exact ⟨g, hg, item, hitem, rfl⟩
  · rw [if_pos hlength] at hrun
    exact absurd hrun throw_ne_ok

/-- `retrieve` comes to the drivers with the groups of what the cache does not have. -/
theorem retrieveLeft_init
    {order : List (RetrieveGroup D) → List (RetrieveGroup D)} (horder : ∀ l, (order l).Perm l)
    (hjson : ReferencesRoundTrip pb fromJson) (hhonest : st.Honest holds)
    (hplain : ∀ p ∈ payloads, isReferencePayload p = false) (hstored : st.Stored pb holds payloads r s.world)
    (hcache : st.Consistent holds cache s.world) :
    ∃ items, st.payloadsToRetrieve pb fromJson 0 r.result = .ok items ∧
      st.RetrieveLeft holds payloads (order ((st.groupMissing (retrieveFromCache cache items).2).map (·.2)))
        ⟨assignRetrieved r.result (retrieveFromCache cache items).1, cache⟩ s := by
  have hstands : ∀ (j : Nat) q, r.result[j]? = some q →
      ∃ p, payloads[0 + j]? = some p ∧ st.StandsFor pb holds s.world p q := by
    intro j q hq
    have hlt : j < payloads.length := by
      rw [← hstored.length]
      exact (List.getElem?_eq_some_iff.mp hq).1
    rw [Nat.zero_add]
    exact ⟨payloads[j], List.getElem?_eq_getElem hlt, hstored.at_index j _ q (List.getElem?_eq_getElem hlt) hq⟩
  rcases payloadsToRetrieve_spec hjson hplain r.result 0 hstands with ⟨items, hitems, hasks, hcover⟩
  rcases retrieveFromCache_spec cache items with ⟨hretrieved, hmissing, hall⟩
  have hdrivers : ∀ item ∈ (retrieveFromCache cache items).2, item.driver ∈ st.drivers := by
    intro item hitem
    rcases hasks item (hmissing item hitem) with ⟨p, hp⟩
    exact hp.driver
  rcases groupMissing_spec hdrivers with ⟨hgroups, hgrouped⟩
  have hcached : ∀ entry ∈ (retrieveFromCache cache items).1, payloads[entry.1.index]? = some entry.2 := by
    intro entry hentry
    rcases hretrieved entry hentry with ⟨hitem, hget⟩
    rcases hasks entry.1 hitem with ⟨p, hp⟩
    rw [hp.key] at hget
    have hheld := hcache entry.1.driver hp.driver entry.1.claim entry.2 hget
    rw [hhonest.unique _ _ _ _ _ hheld hp.held]
    exact hp.payload
  refine ⟨items, hitems, ?_, ?_, ?_⟩
  · intro group hgroup
    rcases List.mem_map.mp ((horder _).mem_iff.mp hgroup) with ⟨entry, hentry, rfl⟩
    exact (hgroups entry hentry).driver
  · intro group hgroup item hitem
    rcases List.mem_map.mp ((horder _).mem_iff.mp hgroup) with ⟨entry, hentry, rfl⟩
    rcases (hgroups entry hentry).item item hitem with ⟨hmem, hdriver⟩
    exact ⟨hdriver, hasks item (hmissing item hmem)⟩
  · have hstart : st.Filled holds payloads (fun i => ∃ item ∈ items, item.index = i) ⟨r.result, cache⟩ s.world := by
      refine ⟨hstored.length, fun i => ?_, hcache⟩
      cases hq : r.result[i]? with
      | none =>
        refine Or.inl ?_
        rw [List.getElem?_eq_none_iff, hstored.length] at hq
        exact (List.getElem?_eq_none hq).symm
      | some q =>
        have := hcover i q hq
        rw [Nat.zero_add] at this
        exact this.imp Eq.symm id
    refine (hstart.assign hcached).mono ?_
    rintro i ⟨⟨item, hitem, rfl⟩, hnot⟩
    rcases hall item hitem with ⟨entry, hentry, rfl⟩ | hmem
    · exact absurd rfl (hnot entry hentry)
    · rcases hgrouped item hmem with ⟨entry, hentry, hitem'⟩
      exact ⟨entry.2, (horder _).mem_iff.mpr (List.mem_map_of_mem hentry), item, hitem', rfl⟩

theorem RetrieveLeft.done (h : st.RetrieveLeft holds payloads [] r s) : r.result = payloads := by
  apply List.ext_getElem?
  intro i
  rcases h.filled.at_index i with heq | ⟨group, hgroup, _⟩
  · exact heq
  · cases hgroup

/-! ## The round trip -/

/-- `retrieve` undoes `store`, in any later state and with any cache that agrees with the drivers by then; the caches
go on agreeing.  When the drivers answer, both return. -/
structure Restores [DecidableEq D] (st : ExternalStorage D W) (pb : Protobuf) (fromJson : ReferenceParser)
    (target : Option StorageDriverTargetInfo) (storeOrder : List (DriverGroup D) → List (DriverGroup D))
    (retrieveOrder : List (RetrieveGroup D) → List (RetrieveGroup D)) (holds : Holds D W) (cache : Option PayloadCache)
    (payloads : List Payload) (s : Session W) : Prop where
  restored : ∀ r s₁, st.storeCached pb target storeOrder cache payloads s = .ok (r, s₁) →
    st.Consistent holds r.cache s₁.world ∧
      ∀ s₂ cache₂, Keeps holds s₁.world s₂.world → st.Consistent holds cache₂ s₂.world →
        ∀ r' s₃, st.retrieve pb fromJson retrieveOrder cache₂ r.result s₂ = .ok (r', s₃) →
          r'.result = payloads ∧ st.Consistent holds r'.cache s₃.world
  returned : st.Answering pb holds → ∃ r s₁, st.storeCached pb target storeOrder cache payloads s = .ok (r, s₁) ∧
    ∀ s₂ cache₂, Keeps holds s₁.world s₂.world → st.Consistent holds cache₂ s₂.world →
      ∃ r' s₃, st.retrieve pb fromJson retrieveOrder cache₂ r.result s₂ = .ok (r', s₃)

/-- When a driver returns the wrong number of results, the call fails, whatever the other drivers do; where no other
group fails, it is with an error that says so. -/
structure CountsChecked [DecidableEq D] (st : ExternalStorage D W) (pb : Protobuf) (fromJson : ReferenceParser)
    (target : Option StorageDriverTargetInfo) (storeOrder : List (DriverGroup D) → List (DriverGroup D))
    (retrieveOrder : List (RetrieveGroup D) → List (RetrieveGroup D)) (cache : Option PayloadCache)
    (payloads : List Payload) (s : Session W) : Prop where
  store : ∀ groups before group after claims w', st.groupByDriver pb target 0 payloads [] = .ok groups →
    storeOrder (groups.map (·.2)) = before ++ group :: after →
    (st.driver group.driver).store target (group.items.map (·.payload))
      ((st.storeTasks pb target).settleAll before ⟨payloads, cache⟩ s).state.world = .ok (claims, w') →
    claims.length ≠ group.items.length →
      ∃ e, st.storeCached pb target storeOrder cache payloads s = .error e ∧
        (((st.storeTasks pb target).settleAll (before ++ group :: after) ⟨payloads, cache⟩ s).rejected.length = 1 →
          e.name = .externalStorageReferenceError)
  retrieve : ∀ items before group after retrieved w', st.payloadsToRetrieve pb fromJson 0 payloads = .ok items →
    retrieveOrder ((st.groupMissing (retrieveFromCache cache items).2).map (·.2)) = before ++ group :: after →
    let start : Progress := ⟨assignRetrieved payloads (retrieveFromCache cache items).1, cache⟩
    (st.driver group.driver).retrieve (group.items.map (·.claim))
      (st.retrieveTasks.settleAll before start s).state.world = .ok (retrieved, w') →
    retrieved.length ≠ group.items.length →
      ∃ e, st.retrieve pb fromJson retrieveOrder cache payloads s = .error e ∧
        ((st.retrieveTasks.settleAll (before ++ group :: after) start s).rejected.length = 1 →
          e.name = .externalStorageReferenceError)

theorem storeGroupCached_wrong_count {group : DriverGroup D} {w' : W}
    (hstore : (st.driver group.driver).store target (group.items.map (·.payload)) s.world = .ok (claims, w'))
    (hlength : claims.length ≠ group.items.length) :
    ∃ e, st.storeGroupCached pb target r group s = .error e ∧ e.name = .externalStorageReferenceError := by
  simp only [storeGroupCached, bind, StateT.bind, Except.bind, callStore, hstore, if_pos hlength]
  exact ⟨_, rfl, rfl⟩

theorem retrieveGroup_wrong_count {group : RetrieveGroup D} {retrieved : List Payload} {w' : W}
    (hretrieve : (st.driver group.driver).retrieve (group.items.map (·.claim)) s.world = .ok (retrieved, w'))
    (hlength : retrieved.length ≠ group.items.length) :
    ∃ e, st.retrieveGroup r group s = .error e ∧ e.name = .externalStorageReferenceError := by
  simp only [retrieveGroup, bind, StateT.bind, Except.bind, callRetrieve, hretrieve, if_pos hlength]
  exact ⟨_, rfl, rfl⟩

theorem countsChecked [DecidableEq D] {storeOrder : List (DriverGroup D) → List (DriverGroup D)}
    {retrieveOrder : List (RetrieveGroup D) → List (RetrieveGroup D)} (hstoreOrder : ∀ l, (storeOrder l).Perm l)
    (hretrieveOrder : ∀ l, (retrieveOrder l).Perm l) (cache : Option PayloadCache) (payloads : List Payload)
    (s : Session W) : st.CountsChecked pb fromJson target storeOrder retrieveOrder cache payloads s := by
  constructor
  · intro groups before group after claims w' hgroups horder hstore hlength
    simp only [storeCached, hgroups, horder]
    have hmem : group ∈ groups.map (·.2) :=
      (hstoreOrder _).mem_iff.mp (horder ▸ List.mem_append_right _ List.mem_cons_self)
    exact runWithAbortOnFirstError_error hmem (storeGroupCached_wrong_count hstore hlength)
  · intro items before group after retrieved w' hitems horder start hretrieve hlength
    simp only [ExternalStorage.retrieve, hitems, horder]
    have hmem : group ∈ (st.groupMissing (retrieveFromCache cache items).2).map (·.2) :=
      (hretrieveOrder _).mem_iff.mp (horder ▸ List.mem_append_right _ List.mem_cons_self)
    exact runWithAbortOnFirstError_error hmem (retrieveGroup_wrong_count hretrieve hlength)

theorem storeGroupCached_returns (hanswers : st.Reliable pb) (r : Progress) (group : DriverGroup D) (s : Session W) :
    ∃ result, st.storeGroupCached pb target r group s = .ok result := by
  rcases hanswers.claims group.driver target (group.items.map (·.payload)) s.world with ⟨claims, w', hstore, hlength⟩
  rw [List.length_map] at hlength
  simp only [storeGroupCached, bind, StateT.bind, Except.bind, callStore, hstore, if_neg (not_not.2 hlength)]
  exact ⟨_, rfl⟩

theorem retrieveGroup_returns (hanswers : st.Answering pb holds) (group : RetrieveGroup D)
    (left : List (RetrieveGroup D)) (r : Progress) (s : Session W)
    (h : st.RetrieveLeft holds payloads (group :: left) r s) : ∃ result, st.retrieveGroup r group s = .ok result := by
  have hheld : ∀ claim ∈ group.items.map (·.claim), ∃ payload, holds group.driver s.world claim payload := by
    intro claim hclaim
    rcases List.mem_map.mp hclaim with ⟨item, hitem, rfl⟩
    rcases h.asks group List.mem_cons_self item hitem with ⟨hdriver, p, hp⟩
    exact ⟨p, by rw [← hdriver]; exact hp.held⟩
  rcases hanswers.payloads group.driver (h.driver group List.mem_cons_self) _ s.world hheld with
    ⟨retrieved, w', hretrieve, hlength⟩
  rw [List.length_map] at hlength
  simp only [retrieveGroup, bind, StateT.bind, Except.bind, callRetrieve, hretrieve, if_neg (not_not.2 hlength)]
  exact ⟨_, rfl⟩

theorem restores [DecidableEq D] {storeOrder : List (DriverGroup D) → List (DriverGroup D)}
    {retrieveOrder : List (RetrieveGroup D) → List (RetrieveGroup D)} (hjson : ReferencesRoundTrip pb fromJson)
    (hstoreOrder : ∀ l, (storeOrder l).Perm l) (hretrieveOrder : ∀ l, (retrieveOrder l).Perm l)
    (hhonest : st.Honest holds)
    (hplain : ∀ p ∈ payloads, isReferencePayload p = false) (hcache : st.Consistent holds cache s.world) :
    st.Restores pb fromJson target storeOrder retrieveOrder holds cache payloads s := by
  have hinit : ∀ {r s₁ s₂ cache₂}, st.storeCached pb target storeOrder cache payloads s = .ok (r, s₁) →
      Keeps holds s₁.world s₂.world → st.Consistent holds cache₂ s₂.world →
        ∃ items, st.payloadsToRetrieve pb fromJson 0 r.result = .ok items ∧
          st.RetrieveLeft holds payloads (retrieveOrder ((st.groupMissing (retrieveFromCache cache₂ items).2).map (·.2)))
            ⟨assignRetrieved r.result (retrieveFromCache cache₂ items).1, cache₂⟩ s₂ := by
    intro r s₁ s₂ cache₂ hstore hkeeps hcache₂
    have hstored := (storeCached_spec hstoreOrder hhonest hcache hstore).keeps hkeeps
    exact retrieveLeft_init hretrieveOrder hjson hhonest hplain hstored hcache₂
  constructor
  · intro r s₁ hstore
    refine ⟨(storeCached_spec hstoreOrder hhonest hcache hstore).cache, ?_⟩
    intro s₂ cache₂ hkeeps hcache₂ r' s₃ hretrieve
    rcases hinit hstore hkeeps hcache₂ with ⟨items, hitems, hleft⟩
    simp only [ExternalStorage.retrieve, hitems] at hretrieve
    have hrun := (runWithAbortOnFirstError_ok fun group hgroup => (hretrieveOrder _).mem_iff.mp hgroup).mp hretrieve
    have hdone := foldlM_invariant (retrieveLeft_step hhonest) hleft hrun
    exact ⟨hdone.done, hdone.filled.cache⟩
  · intro hanswers
    obtain ⟨groups, hgroups⟩ : ∃ groups, st.groupByDriver pb target 0 payloads [] = .ok groups :=
      groupByDriver_returns hanswers.toReliable payloads 0 []
    obtain ⟨⟨r, s₁⟩, hstore⟩ : ∃ result, st.storeCached pb target storeOrder cache payloads s = .ok result := by
      obtain ⟨result, hrun⟩ := foldlM_returns (storeLeft_step hhonest)
        (fun group _ r s _ => storeGroupCached_returns hanswers.toReliable r group s)
        (storeLeft_init hstoreOrder hgroups hcache)
      simp only [storeCached, hgroups]
      exact ⟨result, (runWithAbortOnFirstError_ok fun group hgroup => (hstoreOrder _).mem_iff.mp hgroup).mpr hrun⟩
    refine ⟨r, s₁, hstore, fun s₂ cache₂ hkeeps hcache₂ => ?_⟩
    rcases hinit hstore hkeeps hcache₂ with ⟨items, hitems, hleft⟩
    simp only [ExternalStorage.retrieve, hitems]
    rcases foldlM_returns (retrieveLeft_step hhonest) (retrieveGroup_returns hanswers) hleft with ⟨⟨r', s₃⟩, hrun⟩
    exact ⟨r', s₃, (runWithAbortOnFirstError_ok fun group hgroup => (hretrieveOrder _).mem_iff.mp hgroup).mpr hrun⟩

/-- Payloads that are no references themselves come back from external storage as they were, in order, for honest
drivers, any selector, threshold, order of the drivers' answers and cache that agrees with the drivers; a wrong
number of results makes a call fail. -/
theorem retrieve_undoes_store [DecidableEq D] (st : ExternalStorage D W) (pb : Protobuf) (fromJson : ReferenceParser)
    (target : Option StorageDriverTargetInfo) (storeOrder : List (DriverGroup D) → List (DriverGroup D))
    (retrieveOrder : List (RetrieveGroup D) → List (RetrieveGroup D)) (hjson : ReferencesRoundTrip pb fromJson)
    (hstoreOrder : ∀ l, (storeOrder l).Perm l) (hretrieveOrder : ∀ l, (retrieveOrder l).Perm l) :
    (∀ holds, st.Honest holds → ∀ cache payloads (s : Session W), (∀ p ∈ payloads, isReferencePayload p = false) →
        st.Consistent holds cache s.world →
          st.Restores pb fromJson target storeOrder retrieveOrder holds cache payloads s) ∧
      ∀ cache payloads (s : Session W), st.CountsChecked pb fromJson target storeOrder retrieveOrder cache payloads s :=
  ⟨fun _ hhonest _ _ _ hplain hcache => restores hjson hstoreOrder hretrieveOrder hhonest hplain hcache,
    fun cache payloads s => countsChecked hstoreOrder hretrieveOrder cache payloads s⟩

/-! ## Storage in memory -/

section Memory

def memoryKey (n : Nat) : StorageDriverClaim := ⟨[("key", toString n)]⟩

def memoryFetch (w : List Payload) (claim : StorageDriverClaim) : Option Payload :=
  ((List.range w.length).find? fun n => claim.claimData = (memoryKey n).claimData).bind fun n => w[n]?

/-- A driver that keeps payloads in a list, under their places. -/
def memoryDriver : StorageDriver (List Payload) where
  name := "memory"
  store _ payloads := fun w => .ok ((List.range payloads.length).map fun i => memoryKey (w.length + i), w ++ payloads)
  retrieve claims := fun w =>
    match claims.mapM (memoryFetch w) with
    | some payloads => .ok (payloads, w)
    | none => .error ⟨.error, "no such key"⟩

def memoryStorage : ExternalStorage Unit (List Payload) where
  drivers := [()]
  driver _ := memoryDriver
  driverSelector _ _ := some ()
  payloadSizeThreshold := 10
  drivers_ne_nil := by decide
  name_ne_empty := by decide
  names_nodup := by decide

def memoryHolds : Holds Unit (List Payload) := fun _ w claim payload => memoryFetch w claim = some payload

theorem memoryFetch_eq_some {w : List Payload} {payload : Payload} :
    memoryFetch w claim = some payload ↔ ∃ n, claim.claimData = (memoryKey n).claimData ∧ w[n]? = some payload := by
  unfold memoryFetch
  constructor
  · intro h
    rcases Option.bind_eq_some_iff.mp h with ⟨n, hfind, hget⟩
    exact ⟨n, by simpa using List.find?_some hfind, hget⟩
  · rintro ⟨n, hclaim, hget⟩
    have hlt : n < w.length := (List.getElem?_eq_some_iff.mp hget).1
    have hsome : ((List.range w.length).find? fun n => claim.claimData = (memoryKey n).claimData).isSome = true := by
      rw [List.find?_isSome]
      exact ⟨n, List.mem_range.mpr hlt, by simpa using hclaim⟩
    rcases Option.isSome_iff_exists.mp hsome with ⟨m, hm⟩
    have hm' : claim.claimData = (memoryKey m).claimData := by simpa using List.find?_some hm
    have heq : m = n := by
      have hkeys := hm'.symm.trans hclaim
      simp only [memoryKey, List.cons.injEq, Prod.mk.injEq, true_and, and_true] at hkeys
      exact toString_injective hkeys
    rw [hm, heq]
    exact hget

theorem eq_some_of_mem_zip {α β : Type} {f : α → Option β} : ∀ {as : List α} {bs : List β}, as.mapM f = some bs →
    ∀ {a b}, (a, b) ∈ as.zip bs → f a = some b := by
  intro as
  induction as with
  | nil =>
    intro bs _ a b hmem
    cases hmem
  | cons x as ih =>
    intro bs h a b hmem
    simp only [List.mapM_cons, Option.bind_eq_bind, Option.pure_def, Option.bind_eq_some_iff] at h
    rcases h with ⟨y, hy, rest, hrest, hbs⟩
    cases hbs
    rcases List.mem_cons.mp hmem with heq | hmem
    · cases heq
      exact hy
    · exact ih hrest hmem

theorem memoryRetrieve_ok {w w' payloads : List Payload}
    (h : memoryDriver.retrieve claims w = .ok (payloads, w')) : claims.mapM (memoryFetch w) = some payloads ∧ w' = w := by
  simp only [memoryDriver] at h
  split at h
  · rename_i payloads' hpayloads
    cases h
    exact ⟨hpayloads, rfl⟩
  · cases h

theorem memoryStorage_honest : memoryStorage.Honest memoryHolds := by
  have hgrow : ∀ (w payloads : List Payload) claim payload, memoryFetch w claim = some payload →
      memoryFetch (w ++ payloads) claim = some payload := by
    intro w payloads claim payload h
    rcases memoryFetch_eq_some.mp h with ⟨n, hclaim, hget⟩
    refine memoryFetch_eq_some.mpr ⟨n, hclaim, ?_⟩
    rw [List.getElem?_append_left (List.getElem?_eq_some_iff.mp hget).1]
    exact hget
  refine ⟨?_, ?_, ?_, ?_, ?_, ?_⟩
  · intro d _ target payloads w claims w' h _ payload claim hmem
    cases h
    rcases List.mem_iff_getElem?.mp hmem with ⟨i, hi⟩
    rcases List.getElem?_zip_eq_some.mp hi with ⟨hpayload, hclaim⟩
    have hlt : i < payloads.length := (List.getElem?_eq_some_iff.mp hpayload).1
    refine memoryFetch_eq_some.mpr ⟨w.length + i, ?_, ?_⟩
    · rw [List.getElem?_map, List.getElem?_range hlt] at hclaim
      cases hclaim
      rfl
    · rw [List.getElem?_append_right (Nat.le_add_right _ _), Nat.add_sub_cancel_left]
      exact hpayload
  · intro d _ target payloads w claims w' h d' claim payload hheld
    cases h
    exact hgrow w payloads claim payload hheld
  · intro d _ claims w payloads w' h _ claim payload hmem held hheld
    have hfetch := eq_some_of_mem_zip (memoryRetrieve_ok h).1 hmem
    exact Option.some.inj (hfetch.symm.trans hheld)
  · intro d _ claims w payloads w' h d' claim payload hheld
    rw [(memoryRetrieve_ok h).2]
    exact hheld
  · intro d w claim payload payload' h h'
    exact Option.some.inj (h.symm.trans h')
  · intro d w claim claim' payload hperm h
    rcases memoryFetch_eq_some.mp h with ⟨n, hclaim, hget⟩
    refine memoryFetch_eq_some.mpr ⟨n, ?_, hget⟩
    rw [hclaim] at hperm
    exact (List.perm_singleton.mp hperm.symm)

def firstReferenceText : String := "\x7b\"driverName\":\"memory\",\"claimData\":\x7b\"key\":\"0\"\x7d\x7d"

/-- The JSON of the first reference, and bytes of their own for each of the other ones. -/
def memoryReferenceJson (driverName : String) (claim : StorageDriverClaim) : Bytes :=
  if driverName = "memory" ∧ claim = memoryKey 0 then encode firstReferenceText
  else 0xFF :: encode (String.ofList ((lengthPrefixed driverName).toList ++ keyTail claim.claimData))

def memoryProtobuf : Protobuf where
  lookupType name := name = EXTSTORE_REFERENCE_MESSAGE_TYPE
  decodeMessage _ _ := .error ⟨.error, "no such type"⟩
  encodeMessage _ := []
  isRootType _ := false
  payloadProtoSize payload := (payload.data.getD []).length
  referenceJson := memoryReferenceJson

theorem encode_firstReferenceText_ne (bytes : Bytes) : encode firstReferenceText ≠ 0xFF :: bytes := by
  have hfirst : (encode firstReferenceText).head? = some 0x7B := by decide +kernel
  intro heq
  rw [heq] at hfirst
  cases hfirst

theorem memoryReferenceJson_injective {driverName driverName' : String} {claim claim' : StorageDriverClaim}
    (h : memoryReferenceJson driverName claim = memoryReferenceJson driverName' claim') :
    driverName = driverName' ∧ claim = claim' := by
  unfold memoryReferenceJson at h
  split at h
  · rename_i hfirst
    split at h
    · rename_i hsecond
      exact ⟨hfirst.1.trans hsecond.1.symm, hfirst.2.trans hsecond.2.symm⟩
    · exact absurd h (encode_firstReferenceText_ne _)
  · split at h
    · exact absurd h.symm (encode_firstReferenceText_ne _)
    · rcases lengthPrefixed_inj (String.ofList_injective (encode_injective (List.cons_inj_right _ |>.1 h))) with
        ⟨hname, htail⟩
      exact ⟨hname, congrArg StorageDriverClaim.mk (keyTail_injective htail)⟩

open Classical in
noncomputable def memoryFromJson : ReferenceParser := fun _ bytes =>
  if h : ∃ x : String × StorageDriverClaim, memoryReferenceJson x.1 x.2 = bytes then
    .ok (h.choose.1, h.choose.2.claimData)
  else .error ⟨.error, "Unexpected token"⟩

theorem memoryReferencesRoundTrip : ReferencesRoundTrip memoryProtobuf memoryFromJson := by
  refine ⟨by decide, fun driverName claim => ?_⟩
  have hex : ∃ x : String × StorageDriverClaim, memoryReferenceJson x.1 x.2 =
      memoryProtobuf.referenceJson driverName claim := ⟨(driverName, claim), rfl⟩
  rcases memoryReferenceJson_injective hex.choose_spec with ⟨hname, hclaim⟩
  unfold memoryFromJson
  rw [dif_pos hex]
  exact congrArg Except.ok (Prod.ext hname (congrArg StorageDriverClaim.claimData hclaim))

theorem memoryStorage_answering : memoryStorage.Answering memoryProtobuf memoryHolds := by
  refine ⟨⟨fun _ _ d _ => by cases d; rfl, fun _ _ payloads w => ⟨_, w ++ payloads, rfl, by simp⟩⟩, ?_⟩
  intro d _ claims w hheld
  have hall : ∀ claims : List StorageDriverClaim, (∀ claim ∈ claims, ∃ payload, memoryFetch w claim = some payload) →
      ∃ payloads, claims.mapM (memoryFetch w) = some payloads ∧ payloads.length = claims.length := by
    intro claims
    induction claims with
    | nil =>
      intro _
      exact ⟨[], rfl, rfl⟩
    | cons claim claims ih =>
      intro hheld
      rcases hheld claim List.mem_cons_self with ⟨payload, hpayload⟩
      rcases ih fun c hc => hheld c (List.mem_cons_of_mem _ hc) with ⟨payloads, hpayloads, hlength⟩
      exact ⟨payload :: payloads, by simp [List.mapM_cons, hpayload, hpayloads], by simp [hlength]⟩
  rcases hall claims hheld with ⟨payloads, hpayloads, hlength⟩
  refine ⟨payloads, w, ?_, hlength⟩
  show memoryDriver.retrieve claims w = _
  simp only [memoryDriver, hpayloads]

/-- One payload that stays inline and one that is stored. -/
def memoryPayloads : List Payload :=
  [⟨[(METADATA_ENCODING_KEY, encode "json/plain")], some [34, 97, 34], []⟩,
    ⟨[(METADATA_ENCODING_KEY, encode "json/plain")], some [34, 97, 98, 99, 100, 101, 102, 103, 104, 105, 106, 34], []⟩]

theorem memoryStorage_restores :
    (∀ p ∈ memoryPayloads, isReferencePayload p = false) ∧ memoryStorage.Honest memoryHolds ∧
      memoryStorage.Answering memoryProtobuf memoryHolds ∧
        memoryStorage.Restores memoryProtobuf memoryFromJson none List.reverse List.reverse memoryHolds
          (some fun _ => none) memoryPayloads ⟨[], .init⟩ := by
  have hplain : ∀ p ∈ memoryPayloads, isReferencePayload p = false := by decide +kernel
  have hcache : memoryStorage.Consistent memoryHolds (some fun _ => none) [] := nofun
  have hround := retrieve_undoes_store memoryStorage memoryProtobuf memoryFromJson none List.reverse List.reverse
    memoryReferencesRoundTrip List.reverse_perm List.reverse_perm
  exact ⟨hplain, memoryStorage_honest, memoryStorage_answering,
    hround.1 memoryHolds memoryStorage_honest _ memoryPayloads ⟨[], .init⟩ hplain hcache⟩

end Memory

end ExternalStorage

end TemporalSdk.Storage
