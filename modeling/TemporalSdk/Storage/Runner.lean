import Mathlib.Algebra.GroupWithZero.Nat
import Mathlib.Data.List.Lex
import TemporalSdk.Storage.Payload

/-!
# Runner — `ExternalStorageRunner.store`

The payloads of one field are grouped by the driver that is selected for them, each driver stores its
group, and the payloads give way to references with the claims that the driver returned.

The drivers are a parameter.  They act on a world `W` of their own, so that a driver may return another
claim each time it is called; `D` tells the driver objects apart.
-/

namespace TemporalSdk.Storage

open Machine

/-! ## Configuration -/

inductive TargetKind
  | workflow
  | activity
  deriving DecidableEq

structure StorageDriverTargetInfo where
  kind : TargetKind
  ns : String
  id : Option String
  runId : Option String
  type : Option String
  deriving DecidableEq

structure StorageDriver (W : Type) where
  name : String
  store : Option StorageDriverTargetInfo → List Payload → StateT W (Except Thrown) (List StorageDriverClaim)
  retrieve : List StorageDriverClaim → StateT W (Except Thrown) (List Payload)

/-- What the constructor checks is carried along. -/
structure ExternalStorage (D W : Type) where
  drivers : List D
  driver : D → StorageDriver W
  driverSelector : Option StorageDriverTargetInfo → Payload → Option D
  payloadSizeThreshold : Nat
  drivers_ne_nil : drivers ≠ []
  name_ne_empty : ∀ d ∈ drivers, (driver d).name ≠ ""
  names_nodup : (drivers.map fun d => (driver d).name).Nodup

def ExternalStorage.getDriver {D W : Type} (st : ExternalStorage D W) (name : String) : Option D :=
  st.drivers.find? fun d => (st.driver d).name = name

/-! ## Metrics -/

/-- The UTF-16 code units of a string, which `Array.prototype.sort` compares. -/
def codeUnits (s : String) : List Nat :=
  s.toList.flatMap fun c =>
    if c.toNat < 0x10000 then [c.toNat]
    else [0xD800 + (c.toNat - 0x10000) / 0x400, 0xDC00 + (c.toNat - 0x10000) % 0x400]

structure ExternalStorageMetrics where
  payloadCount : Nat
  totalSizeBytes : Nat
  driverNames : List String
  deriving DecidableEq

/-- The spans of the operations are left out. -/
structure ExternalStorageMetricsAccumulator where
  payloadCount : Nat
  totalSizeBytes : Nat
  driverNames : List String
  deriving DecidableEq

namespace ExternalStorageMetricsAccumulator

def init : ExternalStorageMetricsAccumulator := ⟨0, 0, []⟩

def record (m : ExternalStorageMetricsAccumulator) (driverName : String) (payloadCount sizeBytes : Nat) :
    ExternalStorageMetricsAccumulator where
  payloadCount := m.payloadCount + payloadCount
  totalSizeBytes := m.totalSizeBytes + sizeBytes
  driverNames := if driverName ∈ m.driverNames then m.driverNames else m.driverNames ++ [driverName]

def toProto (m : ExternalStorageMetricsAccumulator) : Option ExternalStorageMetrics :=
  if m.payloadCount = 0 then none
  else some
    ⟨m.payloadCount, m.totalSizeBytes, m.driverNames.mergeSort fun a b => codeUnits a ≤ codeUnits b⟩

end ExternalStorageMetricsAccumulator

/-- What a store pass changes besides the payloads. -/
structure Session (W : Type) where
  world : W
  metrics : ExternalStorageMetricsAccumulator

/-! ## Reference payloads -/

def EXTSTORE_REFERENCE_MESSAGE_TYPE : String := "temporal.api.sdk.v1.ExternalStorageReference"

def encodeReferencePayload (pb : Protobuf) (driverName : String) (claim : StorageDriverClaim)
    (sizeBytes : Nat) : Payload :=
  { constructPayload METADATA_ENCODING_PROTOBUF_JSON EXTSTORE_REFERENCE_MESSAGE_TYPE
      (pb.referenceJson driverName claim) with
    externalPayloads := [sizeBytes] }

/-! ## `store` -/

structure StoreItem where
  index : Nat
  payload : Payload
  size : Nat

structure DriverGroup (D : Type) where
  driver : D
  items : List StoreItem

variable {D W : Type} [DecidableEq D]

/-- `driverGroups`, a `Map` in the order of insertion. -/
abbrev DriverGroups (D : Type) := List (String × DriverGroup D)

def addItem (name : String) (driver : D) (item : StoreItem) : DriverGroups D → DriverGroups D
  | [] => [(name, ⟨driver, [item]⟩)]
  | (key, group) :: rest =>
    if key = name then (key, { group with items := group.items ++ [item] }) :: rest
    else (key, group) :: addItem name driver item rest

namespace ExternalStorage

variable (st : ExternalStorage D W) (pb : Protobuf) (target : Option StorageDriverTargetInfo)

def groupByDriver : Nat → List Payload → DriverGroups D → Except Thrown (DriverGroups D)
  | _, [], groups => pure groups
  | i, payload :: payloads, groups =>
    let size := pb.payloadProtoSize payload
    if size < st.payloadSizeThreshold then groupByDriver (i + 1) payloads groups
    else
      match st.driverSelector target payload with
      | none => groupByDriver (i + 1) payloads groups
      | some selected =>
        let name := (st.driver selected).name
        if st.getDriver name ≠ some selected then
          throw ⟨.externalStorageUnregisteredDriverError, "Driver '" ++ name ++
            "' returned by driverSelector is not registered in ExternalStorage.drivers"⟩
        else groupByDriver (i + 1) payloads (addItem name selected ⟨i, payload, size⟩ groups)

/-- The call of `group.driver.store`, whose error becomes the cause of another one. -/
def callStore (d : D) (payloads : List Payload) :
    StateT (Session W) (Except Thrown) (List StorageDriverClaim) := fun s =>
  match (st.driver d).store target payloads s.world with
  | .ok (claims, world) => .ok (claims, { s with world := world })
  | .error _ =>
    .error ⟨.externalStorageDriverError, "Storage driver '" ++ (st.driver d).name ++
      "' failed to store payloads"⟩

def assignReferences (name : String) (result : List Payload) (claimed : List (StoreItem × StorageDriverClaim)) :
    List Payload :=
  claimed.foldl (fun result entry =>
    result.set entry.1.index (encodeReferencePayload pb name entry.2 entry.1.size)) result

def storeGroup (result : List Payload) (group : DriverGroup D) :
    StateT (Session W) (Except Thrown) (List Payload) := do
  let name := (st.driver group.driver).name
  let claims ← st.callStore target group.driver (group.items.map (·.payload))
  if claims.length ≠ group.items.length then
    throw ⟨.externalStorageReferenceError, "Driver '" ++ name ++ "' returned " ++ toString claims.length ++
      " claims for " ++ toString group.items.length ++ " payloads"⟩
  else
    modify fun s => { s with
      metrics := s.metrics.record name group.items.length (group.items.map (·.size)).sum }
    pure (assignReferences pb name result (group.items.zip claims))

def store (payloads : List Payload) : StateT (Session W) (Except Thrown) (List Payload) :=
  match st.groupByDriver pb target 0 payloads [] with
  | .error e => throw e
  | .ok groups => (groups.map (·.2)).foldlM (st.storeGroup pb target) payloads

/-! ## Payloads and their references -/

/-- The driver that a payload is stored by. -/
def selected (payload : Payload) : Option D :=
  if pb.payloadProtoSize payload < st.payloadSizeThreshold then none
  else st.driverSelector target payload

/-- `q` refers to `p` by the claim that the driver selected for `p` returned for it. -/
def Referenced (p q : Payload) : Prop :=
  ∃ d payloads claims claim w w',
    st.selected pb target p = some d ∧
    (st.driver d).store target payloads w = .ok (claims, w') ∧
    claims.length = payloads.length ∧
    (p, claim) ∈ payloads.zip claims ∧
    q = encodeReferencePayload pb (st.driver d).name claim (pb.payloadProtoSize p)

/-- A payload that is selected for storage gives way to its reference, any other one stays. -/
def Moved (p q : Payload) : Prop :=
  match st.selected pb target p with
  | none => q = p
  | some _ => st.Referenced pb target p q

/-- The selector returns registered drivers, and these return one claim for each payload. -/
structure Reliable : Prop where
  registered : ∀ target p d, st.selected pb target p = some d → st.getDriver (st.driver d).name = some d
  claims : ∀ d target payloads w, ∃ claims w',
    (st.driver d).store target payloads w = .ok (claims, w') ∧ claims.length = payloads.length

/-! ## Groups -/

/-- The items of a group are payloads that its driver was selected for. -/
structure GroupSound (payloads : List Payload) (entry : String × DriverGroup D) : Prop where
  registered : st.getDriver entry.1 = some entry.2.driver
  item : ∀ item ∈ entry.2.items, payloads[item.index]? = some item.payload ∧
    item.size = pb.payloadProtoSize item.payload ∧ st.selected pb target item.payload = some entry.2.driver

def Covered (groups : DriverGroups D) (i : Nat) : Prop :=
  ∃ entry ∈ groups, ∃ item ∈ entry.2.items, item.index = i

variable {st pb target}

variable {payloads : List Payload}

omit [DecidableEq D] in
theorem groupSound_addItem {d : D} (item : StoreItem)
    (hd : st.getDriver (st.driver d).name = some d)
    (hitem : payloads[item.index]? = some item.payload ∧ item.size = pb.payloadProtoSize item.payload ∧
      st.selected pb target item.payload = some d) :
    ∀ {groups : DriverGroups D}, (∀ entry ∈ groups, st.GroupSound pb target payloads entry) →
      ∀ entry ∈ addItem (st.driver d).name d item groups, st.GroupSound pb target payloads entry
  | [], _, entry, he => by
    rw [addItem, List.mem_singleton] at he
    subst he
    refine ⟨hd, fun item' h' => ?_⟩
    rw [List.mem_singleton] at h'
    subst h'
    exact hitem
  | (key, group) :: rest, h, entry, he => by
    rw [addItem] at he
    split at he
    next hkey =>
      rcases List.mem_cons.1 he with rfl | he
      · have hg := h (key, group) (by simp)
        have hdriver : group.driver = d := by
          have := hg.registered
          rw [hkey, hd] at this
          exact (Option.some.inj this).symm
        refine ⟨hg.registered, fun item' h' => ?_⟩
        rcases List.mem_append.1 h' with h' | h'
        · exact hg.item item' h'
        · rw [List.mem_singleton] at h'
          subst h'
          rw [hdriver]
          exact hitem
      · exact h entry (by simp [he])
    next hkey =>
      rcases List.mem_cons.1 he with rfl | he
      · exact h _ (by simp)
      · exact groupSound_addItem item hd hitem (fun e he => h e (by simp [he])) entry he

omit [DecidableEq D] in
theorem Covered.cons {entry : String × DriverGroup D} {groups : DriverGroups D} {i : Nat}
    (h : Covered groups i) : Covered (entry :: groups) i := by
  rcases h with ⟨entry', he, hitem⟩
  exact ⟨entry', List.mem_cons_of_mem _ he, hitem⟩

omit [DecidableEq D] in
theorem covered_addItem {name : String} {d : D} {item : StoreItem} {i : Nat} :
    ∀ {groups : DriverGroups D}, item.index = i ∨ Covered groups i → Covered (addItem name d item groups) i
  | [], h => by
    rcases h with h | ⟨_, he, _⟩
    · exact ⟨_, List.mem_singleton_self _, item, List.mem_singleton_self _, h⟩
    · exact absurd he List.not_mem_nil
  | (key, group) :: rest, h => by
    rw [addItem]
    split
    next =>
      rcases h with h | ⟨entry, he, item', hi, hx⟩
      · exact ⟨_, List.mem_cons_self, item, by simp, h⟩
      · rcases List.mem_cons.1 he with rfl | he
        · exact ⟨_, List.mem_cons_self, item', by simp [hi], hx⟩
        · exact Covered.cons ⟨entry, he, item', hi, hx⟩
    next =>
      rcases h with h | ⟨entry, he, item', hi, hx⟩
      · have hrest : Covered (addItem name d item rest) i := covered_addItem (.inl h)
        exact hrest.cons
      · rcases List.mem_cons.1 he with rfl | he
        · exact ⟨_, List.mem_cons_self, item', hi, hx⟩
        · have hrest : Covered (addItem name d item rest) i :=
            covered_addItem (.inr ⟨entry, he, item', hi, hx⟩)
          exact hrest.cons

/-- One payload of the loop: it is kept inline, or its driver is registered and it joins a group. -/
theorem groupByDriver_cons {i : Nat} {p : Payload} {ps : List Payload} {groups groups' : DriverGroups D}
    (h : st.groupByDriver pb target i (p :: ps) groups = .ok groups') :
    (st.selected pb target p = none ∧ st.groupByDriver pb target (i + 1) ps groups = .ok groups') ∨
    ∃ d, st.selected pb target p = some d ∧ st.getDriver (st.driver d).name = some d ∧
      st.groupByDriver pb target (i + 1) ps
        (addItem (st.driver d).name d ⟨i, p, pb.payloadProtoSize p⟩ groups) = .ok groups' := by
  rw [groupByDriver] at h
  unfold selected
  by_cases hsize : pb.payloadProtoSize p < st.payloadSizeThreshold
  · rw [if_pos hsize] at h ⊢
    exact .inl ⟨rfl, h⟩
  · rw [if_neg hsize] at h ⊢
    cases hsel : st.driverSelector target p with
    | none =>
      rw [hsel] at h
      exact .inl ⟨rfl, h⟩
    | some d =>
      rw [hsel] at h
      by_cases hreg : st.getDriver (st.driver d).name = some d
      · refine .inr ⟨d, rfl, hreg, ?_⟩
        simpa [hreg] using h
      · simp [hreg, throw, throwThe, MonadExceptOf.throw] at h

-- The loop has gone through `before`; the indices of the items are positions in the whole list.
theorem groupByDriver_spec :
    ∀ {ps before : List Payload} {groups groups' : DriverGroups D},
      st.groupByDriver pb target before.length ps groups = .ok groups' →
      (∀ entry ∈ groups, st.GroupSound pb target (before ++ ps) entry) →
      (∀ i p, before[i]? = some p → (st.selected pb target p).isSome = true → Covered groups i) →
      (∀ entry ∈ groups', st.GroupSound pb target (before ++ ps) entry) ∧
        ∀ i p, (before ++ ps)[i]? = some p → (st.selected pb target p).isSome = true → Covered groups' i
  | [], before, groups, groups', h, hsound, hcov => by
    cases h
    rw [List.append_nil] at hsound ⊢
    exact ⟨hsound, hcov⟩
  | p :: ps, before, groups, groups', h, hsound, hcov => by
    have hlist : before ++ p :: ps = (before ++ [p]) ++ ps := by simp
    have hlen : (before ++ [p]).length = before.length + 1 := by simp
    rcases groupByDriver_cons h with ⟨hsel, h⟩ | ⟨d, hsel, hreg, h⟩
    · rw [← hlen] at h
      rw [hlist] at hsound ⊢
      refine groupByDriver_spec h hsound fun i q hi hq => ?_
      rw [List.getElem?_append] at hi
      split at hi
      · exact hcov i q hi hq
      · rw [List.getElem?_singleton] at hi
        split at hi
        · cases hi
          rw [hsel] at hq
          cases hq
        · cases hi
    · rw [← hlen] at h
      have hitem : (before ++ p :: ps)[before.length]? = some p := by simp
      have hsound' := groupSound_addItem ⟨before.length, p, pb.payloadProtoSize p⟩ hreg
        ⟨hitem, rfl, hsel⟩ hsound
      rw [hlist] at hsound' ⊢
      refine groupByDriver_spec h hsound' fun i q hi hq => covered_addItem ?_
      rw [List.getElem?_append] at hi
      split at hi
      · exact .inr (hcov i q hi hq)
      next hle =>
        rw [List.getElem?_singleton] at hi
        split at hi
        · refine .inl ?_
          show before.length = i
          omega
        · cases hi

theorem groupByDriver_returns (hst : st.Reliable pb) :
    ∀ (ps : List Payload) (i : Nat) (groups : DriverGroups D),
      ∃ groups', st.groupByDriver pb target i ps groups = .ok groups'
  | [], _, groups => ⟨groups, rfl⟩
  | p :: ps, i, groups => by
    have hsel := hst.registered target p
    unfold selected at hsel
    rw [groupByDriver]
    split
    · exact groupByDriver_returns hst ps _ _
    next hsize =>
      rw [if_neg hsize] at hsel
      split
      · exact groupByDriver_returns hst ps _ _
      next d hd =>
        rw [if_neg (not_not.2 (hsel d hd))]
        exact groupByDriver_returns hst ps _ _

theorem groupByDriver_inert :
    ∀ {ps : List Payload} {i : Nat} {groups : DriverGroups D},
      (∀ p ∈ ps, st.selected pb target p = none) → st.groupByDriver pb target i ps groups = .ok groups
  | [], _, _, _ => rfl
  | p :: ps, i, groups, h => by
    have hp := h p (by simp)
    have hps : ∀ q ∈ ps, st.selected pb target q = none := fun q hq => h q (by simp [hq])
    unfold selected at hp
    rw [groupByDriver]
    split
    · exact groupByDriver_inert hps
    next hsize =>
      rw [if_neg hsize] at hp
      rw [hp]
      exact groupByDriver_inert hps

/-! ## References in place -/

/-- The payloads at the positions `done` have given way to their references. -/
structure Assigned (st : ExternalStorage D W) (pb : Protobuf) (target : Option StorageDriverTargetInfo)
    (payloads : List Payload) (done : Nat → Prop) (result : List Payload) : Prop where
  length : result.length = payloads.length
  at_index : ∀ i p q, payloads[i]? = some p → result[i]? = some q →
    st.Referenced pb target p q ∨ ¬ done i ∧ q = p

omit [DecidableEq D] in
theorem Assigned.mono {payloads result : List Payload} {done done' : Nat → Prop}
    (h : Assigned st pb target payloads done result) (hdone : ∀ i, done' i → done i) :
    Assigned st pb target payloads done' result where
  length := h.length
  at_index i p q hp hq := by
    rcases h.at_index i p q hp hq with href | ⟨hi, heq⟩
    · exact .inl href
    · exact .inr ⟨fun hi' => hi (hdone i hi'), heq⟩

omit [DecidableEq D] in
theorem Assigned.set {payloads result : List Payload} {done : Nat → Prop} {i : Nat} {p q : Payload}
    (h : Assigned st pb target payloads done result) (hi : payloads[i]? = some p)
    (hq : st.Referenced pb target p q) :
    Assigned st pb target payloads (fun j => j = i ∨ done j) (result.set i q) where
  length := by rw [List.length_set, h.length]
  at_index j p' q' hp' hq' := by
    rw [List.getElem?_set] at hq'
    by_cases hij : i = j
    · subst hij
      rw [hi] at hp'
      cases hp'
      rw [if_pos rfl] at hq'
      split at hq'
      · cases hq'
        exact .inl hq
      · cases hq'
    · rw [if_neg hij] at hq'
      rcases h.at_index j p' q' hp' hq' with href | ⟨hdone, heq⟩
      · exact .inl href
      · refine .inr ⟨?_, heq⟩
        rintro (rfl | hj)
        · exact hij rfl
        · exact hdone hj

omit [DecidableEq D] in
theorem assigned_assignReferences {name : String} :
    ∀ {claimed : List (StoreItem × StorageDriverClaim)} {done : Nat → Prop} {result : List Payload},
      Assigned st pb target payloads done result →
      (∀ entry ∈ claimed, payloads[entry.1.index]? = some entry.1.payload ∧
        st.Referenced pb target entry.1.payload
          (encodeReferencePayload pb name entry.2 entry.1.size)) →
      Assigned st pb target payloads (fun i => (∃ entry ∈ claimed, entry.1.index = i) ∨ done i)
        (assignReferences pb name result claimed)
  | [], done, result, h, _ => h.mono fun i hi => by simpa using hi
  | entry :: rest, done, result, h, hall => by
    have hentry := hall entry (by simp)
    have hset := h.set hentry.1 hentry.2
    have hmem : ∀ e ∈ rest, e ∈ entry :: rest := fun e he => List.mem_cons_of_mem entry he
    have hrest := assigned_assignReferences hset fun e he => hall e (hmem e he)
    refine hrest.mono ?_
    rintro i (⟨e, he, rfl⟩ | hi)
    · rcases List.mem_cons.1 he with rfl | he
      · exact .inr (.inl rfl)
      · exact .inl ⟨e, he, rfl⟩
    · exact .inr (.inr hi)

variable {s s' : Session W}

omit [DecidableEq D] in
theorem callStore_ok {d : D} {claims : List StorageDriverClaim}
    (h : st.callStore target d payloads s = .ok (claims, s')) :
    ∃ w', (st.driver d).store target payloads s.world = .ok (claims, w') := by
  unfold callStore at h
  split at h
  next claims' w' hw =>
    cases h
    exact ⟨w', hw⟩
  · cases h

omit [DecidableEq D] in
theorem storeGroup_spec {payloads result result' : List Payload} {done : Nat → Prop} {name : String}
    {group : DriverGroup D} (hgroup : st.GroupSound pb target payloads (name, group))
    (hresult : Assigned st pb target payloads done result)
    (h : st.storeGroup pb target result group s = .ok (result', s')) :
    Assigned st pb target payloads (fun i => (∃ item ∈ group.items, item.index = i) ∨ done i) result' := by
  rcases bind_eq_ok.1 h with ⟨claims, s₁, hcall, h⟩
  rcases callStore_ok hcall with ⟨w', hstore⟩
  by_cases hlen : claims.length = group.items.length
  · rw [if_neg (not_not.2 hlen)] at h
    rcases bind_eq_ok.1 h with ⟨_, s₂, _, h⟩
    cases pure_eq_ok.1 h
    have hzip : ∀ entry ∈ group.items.zip claims, payloads[entry.1.index]? = some entry.1.payload ∧
        st.Referenced pb target entry.1.payload
          (encodeReferencePayload pb (st.driver group.driver).name entry.2 entry.1.size) := by
      rintro ⟨item, claim⟩ hmem
      rcases hgroup.item item (List.of_mem_zip hmem).1 with ⟨hindex, hsize, hsel⟩
      refine ⟨hindex, group.driver, _, claims, claim, s.world, w', hsel, hstore, by simp [hlen], ?_, ?_⟩
      · rw [List.zip_map_left]
        exact List.mem_map.2 ⟨(item, claim), hmem, rfl⟩
      · rw [hsize]
    refine (assigned_assignReferences hresult hzip).mono ?_
    -- There is a claim for every item.
    rintro i (⟨item, hitem, rfl⟩ | hi)
    · have hfst : (group.items.zip claims).map Prod.fst = group.items :=
        List.map_fst_zip (by omega)
      rw [← hfst] at hitem
      rcases List.mem_map.1 hitem with ⟨entry, hentry, rfl⟩
      exact .inl ⟨entry, hentry, rfl⟩
    · exact .inr hi
  · rw [if_pos hlen] at h
    exact absurd h throw_ne_ok

omit [DecidableEq D] in
theorem storeGroups_spec :
    ∀ {groups : DriverGroups D} {done : Nat → Prop} {result result' : List Payload} {s s' : Session W},
      (∀ entry ∈ groups, st.GroupSound pb target payloads entry) →
      Assigned st pb target payloads done result →
      (groups.map (·.2)).foldlM (st.storeGroup pb target) result s = .ok (result', s') →
      Assigned st pb target payloads (fun i => Covered groups i ∨ done i) result'
  | [], done, result, result', s, s', _, h, hrun => by
    cases pure_eq_ok.1 hrun
    refine h.mono ?_
    rintro i (⟨_, he, _⟩ | hi)
    · exact absurd he List.not_mem_nil
    · exact hi
  | entry :: rest, done, result, result', s, s', hsound, h, hrun => by
    rw [List.map_cons, List.foldlM_cons] at hrun
    rcases bind_eq_ok.1 hrun with ⟨result₁, s₁, hgroup, hrun⟩
    have h₁ := storeGroup_spec (hsound entry (by simp)) h hgroup
    have h₂ := storeGroups_spec (fun e he => hsound e (List.mem_cons_of_mem _ he)) h₁ hrun
    refine h₂.mono ?_
    rintro i (⟨e, he, hitem⟩ | hi)
    · rcases List.mem_cons.1 he with rfl | he
      · exact .inr (.inl hitem)
      · exact .inl ⟨e, he, hitem⟩
    · exact .inr (.inr hi)

/-! ## What `store` does -/

/-- Order is preserved, and each payload is moved or stays. -/
theorem store_moved {payloads result : List Payload}
    (h : st.store pb target payloads s = .ok (result, s')) :
    List.Forall₂ (st.Moved pb target) payloads result := by
  unfold store at h
  cases hgroups : st.groupByDriver pb target 0 payloads [] with
  | error e =>
    rw [hgroups] at h
    exact absurd h throw_ne_ok
  | ok groups =>
    rw [hgroups] at h
    have hspec := groupByDriver_spec (show st.groupByDriver pb target [].length payloads [] = _ from hgroups)
      nofun nofun
    rw [List.nil_append] at hspec
    have hinit : Assigned st pb target payloads (fun _ => False) payloads :=
      ⟨rfl, fun i p q hp hq => .inr ⟨id, by rw [hp] at hq; exact (Option.some.inj hq).symm⟩⟩
    have hfinal := storeGroups_spec hspec.1 hinit h
    rw [List.forall₂_iff_get]
    refine ⟨hfinal.length.symm, fun i h₁ h₂ => ?_⟩
    have hp : payloads[i]? = some payloads[i] := List.getElem?_eq_getElem h₁
    have hq : result[i]? = some result[i] := List.getElem?_eq_getElem h₂
    have hcase := hfinal.at_index i _ _ hp hq
    simp only [List.get_eq_getElem]
    unfold Moved
    cases hsel : st.selected pb target payloads[i] with
    | none =>
      rcases hcase with ⟨d, _, _, _, _, _, hd, _⟩ | ⟨_, heq⟩
      · rw [hsel] at hd
        cases hd
      · exact heq
    | some d =>
      rcases hcase with href | ⟨hdone, _⟩
      · exact href
      · exact absurd (.inl (hspec.2 i _ hp (by rw [hsel]; rfl))) hdone

omit [DecidableEq D] in
theorem storeGroup_returns (hst : st.Reliable pb) (result : List Payload) (group : DriverGroup D) :
    Returns (st.storeGroup pb target result group) := by
  have hclaims := hst.claims group.driver target (group.items.map (·.payload))
  refine Returns.bind ?_ fun claims s s' hcall => ?_
  · intro s
    rcases hclaims s.world with ⟨claims, w', hstore, _⟩
    exact ⟨(claims, { s with world := w' }), by simp [callStore, hstore]⟩
  · have hlen : claims.length = group.items.length := by
      rcases callStore_ok hcall with ⟨w', hstore⟩
      rcases hclaims s.world with ⟨claims', w'', hstore', hlen⟩
      rw [hstore] at hstore'
      cases hstore'
      rw [hlen, List.length_map]
    rw [if_neg (not_not.2 hlen)]
    exact Returns.bind (Returns.modify _) fun _ _ _ _ => Returns.pure _

theorem store_returns (hst : st.Reliable pb) (payloads : List Payload) :
    Returns (st.store pb target payloads) := by
  have hgroup : ∃ groups, st.groupByDriver pb target 0 payloads [] = .ok groups :=
    groupByDriver_returns hst payloads 0 []
  rcases hgroup with ⟨groups, hgroups⟩
  simp only [store, hgroups]
  exact Returns.foldlM (storeGroup_returns hst) _ _

theorem store_inert (h : ∀ p ∈ payloads, st.selected pb target p = none)
    (s : Session W) : st.store pb target payloads s = .ok (payloads, s) := by
  unfold store
  rw [groupByDriver_inert h]
  rfl

end ExternalStorage

end TemporalSdk.Storage
