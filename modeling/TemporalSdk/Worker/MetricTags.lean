import TemporalSdk.Worker.LogMetadata

/-!
# MetricTags — tags composed on a meter and its metrics

`MetricMeterWithComposedTags` of `packages/common/src/metrics.ts`.  A chain of tag objects and tag functions is put
together before anything is recorded; objects that follow each other are merged.  `E` is what tag functions read at
the time of recording.
-/

namespace TemporalSdk.Worker
namespace MetricTags

open Machine
open LogMetadata (Key Value Metadata protoKey assign objectKeys filterNullAndUndefined mergeObjects mergeEntry)

variable {E V : Type}

/-! ## Meters and metrics -/

inductive MetricTagsOrFunc (E V : Type)
  | static (tags : Metadata V)
  | func (f : E → Metadata V)

def MetricTagsOrFunc.resolve (env : E) : MetricTagsOrFunc E V → Metadata V
  | .static tags => tags
  | .func f => f env

def resolveTags (env : E) (contributors : List (MetricTagsOrFunc E V)) (extraTags : Metadata V) : Metadata V :=
  filterNullAndUndefined
    (assign (contributors.foldl (fun resolved c => assign resolved (c.resolve env)) Record.empty) extraTags)

/-- The meter of the runtime, or a `MetricMeterWithComposedTags` on top of it. -/
inductive Meter (E V : Type)
  | parent
  | composed (contributors : List (MetricTagsOrFunc E V))

section Chain

variable [DecidableEq V]

/-- Where nothing changes, `mergeObjects` returns `last` itself, and the chain stays as it is. -/
def appendToChain (existingContributors : Option (List (MetricTagsOrFunc E V))) (new : MetricTagsOrFunc E V) :
    Option (List (MetricTagsOrFunc E V)) :=
  match new with
  | .func _ => some (existingContributors.getD [] ++ [new])
  | .static tags =>
    if (objectKeys tags).isEmpty then existingContributors
    else
      match (existingContributors.getD []).getLast? with
      | some (.static last) =>
        some ((existingContributors.getD []).dropLast ++ [.static (mergeObjects last tags)])
      | _ => some (existingContributors.getD [] ++ [new])

/-- `withTags` of a meter composes without `force`. -/
def compose (meter : Meter E V) (tagsOrFunc : MetricTagsOrFunc E V) (force : Bool) : Meter E V :=
  match meter with
  | .composed existing =>
    match appendToChain (some existing) tagsOrFunc with
    | none => if force then .composed [] else .composed existing
    | some contributors => .composed contributors
  | .parent =>
    match appendToChain none tagsOrFunc with
    | none => if force then .composed [] else .parent
    | some contributors => .composed contributors

def composeAll (layers : List (MetricTagsOrFunc E V × Bool)) : Meter E V :=
  layers.foldl (fun meter layer => compose meter layer.1 layer.2) .parent

/-- `withTags` of a counter, a histogram or a gauge. -/
def withTags (contributors : List (MetricTagsOrFunc E V)) (extraTags : Metadata V) : List (MetricTagsOrFunc E V) :=
  (appendToChain (some contributors) (.static extraTags)).getD contributors

end Chain

/-! ## Plain overriding -/

/-- The last contributor that has a tag. -/
def said (env : E) (contributors : List (MetricTagsOrFunc E V)) (k : Key) : Option (Value V) :=
  contributors.foldl (fun acc c => ((c.resolve env).lookup k).or acc) none

/-- A tag that is a string and has a value. -/
def visible (k : Key) (entry : Option (Value V)) : Option (Value V) :=
  entry.filter fun v => k.isString && !v.isNullish

def overridden (env : E) (contributors : List (MetricTagsOrFunc E V)) (extraTags : Metadata V) (k : Key) :
    Option (Value V) :=
  visible k ((extraTags.lookup k).or (said env contributors k))

/-! ## Where removals are lost -/

/-- A function, or tag objects with nothing in between. -/
inductive Segment (E V : Type)
  | func (f : E → Metadata V)
  | objects (first : Metadata V) (rest : List (Metadata V))

def addSegment (segments : List (Segment E V)) : MetricTagsOrFunc E V → List (Segment E V)
  | .func f => segments ++ [.func f]
  | .static tags =>
    if (objectKeys tags).isEmpty then segments
    else
      match segments.getLast? with
      | some (.objects first rest) => segments.dropLast ++ [.objects first (rest ++ [tags])]
      | _ => segments ++ [.objects tags []]

/-- The contributors that have tags, with objects that follow each other put together. -/
def segments (contributors : List (MetricTagsOrFunc E V)) : List (Segment E V) := contributors.foldl addSegment []

namespace Segment

def entry (env : E) (k : Key) : Segment E V → Option (Value V)
  | .func f => (f env).lookup k
  | .objects first rest => rest.foldl (fun acc m => (m.lookup k).or acc) (first.lookup k)

/-- The objects remove a tag that no longer is among what they are merged to: not all of them that have it, the first
one included, have the same of `null` and `undefined`. -/
def Loses (k : Key) : Segment E V → Prop
  | .func _ => False
  | .objects first rest =>
    ∃ v : Value V, v.isNullish = true ∧ rest.foldl (fun acc m => (m.lookup k).or acc) (first.lookup k) = some v ∧
      ¬ (first.lookup k = some v ∧ ∀ m ∈ rest, ∀ w, m.lookup k = some w → w = v)

/-- It has the tag, and does not lose its removal. -/
def Settles (env : E) (k : Key) (s : Segment E V) : Prop := s.entry env k ≠ none ∧ ¬ s.Loses k

def merged [DecidableEq V] : Segment E V → MetricTagsOrFunc E V
  | .func f => .func f
  | .objects first rest => .static (rest.foldl mergeObjects first)

end Segment

/-- A tag with a value, which the objects of a later segment remove in vain, while no later segment settles it. -/
def LostRemoval (env : E) (k : Key) (segments : List (Segment E V)) : Prop :=
  ∃ before s after v, segments = before ++ s :: after ∧ s.entry env k = some v ∧ Value.isNullish v = false ∧
    (∀ s' ∈ after, ¬ s'.Settles env k) ∧ ∃ s' ∈ after, s'.Loses k

/-! ## Merging -/

section Merging

variable [DecidableEq V] {k : Key}

/-- What merging does to one tag. -/
def mergeValue (original : Option (Value V)) : Option (Value V) → Option (Value V)
  | none => original
  | some v => if v = original.getD .undefined then original else if v.isNullish then none else some v

theorem lookup_mergeEntry_self {delta merged : Metadata V} (hk : k ≠ protoKey) {v : Value V}
    (hdelta : delta.lookup k = some v) : (mergeEntry delta merged k).lookup k = mergeValue (merged.lookup k) (some v) := by
  simp only [mergeEntry, hdelta, Option.getD_some, mergeValue]
  split
  · rfl
  · split
    · simp
    · rw [if_neg fun h => hk h.1]
      simp

theorem mergeValue_idem (original : Option (Value V)) (v : Value V) :
    mergeValue (mergeValue original (some v)) (some v) = mergeValue original (some v) := by
  by_cases heq : v = original.getD .undefined
  · simp [mergeValue, heq]
  · by_cases hnull : v.isNullish = true <;> simp [mergeValue, heq, hnull]

theorem lookup_mergeLoop {delta : Metadata V} (hk : k ≠ protoKey) {v : Value V} (hdelta : delta.lookup k = some v)
    {keys : List Key} (hmem : k ∈ keys) (merged : Metadata V) :
    (keys.foldl (mergeEntry delta) merged).lookup k = mergeValue (merged.lookup k) (some v) := by
  induction keys generalizing merged with
  | nil => cases hmem
  | cons k' keys ih =>
    rw [List.foldl_cons]
    by_cases hrest : k ∈ keys
    · rw [ih hrest]
      by_cases heq : k = k'
      · subst heq
        rw [lookup_mergeEntry_self hk hdelta, mergeValue_idem]
      · rw [LogMetadata.lookup_mergeEntry_of_ne heq]
    · have heq : k = k' := (List.mem_cons.1 hmem).resolve_right hrest
      subst heq
      rw [LogMetadata.lookup_mergeLoop_of_not_mem hrest, lookup_mergeEntry_self hk hdelta]

theorem lookup_mergeObjects (original delta : Metadata V) (hk : k.plain = true) :
    (mergeObjects original delta).lookup k = mergeValue (original.lookup k) (delta.lookup k) := by
  rcases Bool.and_eq_true_iff.1 hk with ⟨hstring, hne⟩
  cases hdelta : delta.lookup k with
  | none => exact LogMetadata.lookup_mergeObjects_of_none hdelta
  | some v =>
    have hmem : k ∈ objectKeys delta := LogMetadata.mem_objectKeys.2 ⟨by simp [hdelta], hstring⟩
    exact lookup_mergeLoop (by simpa using hne) hdelta hmem original

end Merging

/-! ## One segment -/

section OneSegment

variable [DecidableEq V] {env : E} {k : Key}

theorem lookup_foldl_mergeObjects (hk : k.plain = true) (rest : List (Metadata V)) (first : Metadata V) :
    (rest.foldl mergeObjects first).lookup k =
      rest.foldl (fun acc m => mergeValue acc (m.lookup k)) (first.lookup k) := by
  induction rest generalizing first with
  | nil => rfl
  | cons m rest ih => rw [List.foldl_cons, List.foldl_cons, ih, lookup_mergeObjects _ _ hk]

/-- The objects remove the tag `k`, last with `v`, and all of them that have it have it from the first one on. -/
def Removed (k : Key) (first : Metadata V) (rest : List (Metadata V)) (v : Value V) : Prop :=
  first.lookup k = some v ∧ ∀ m ∈ rest, ∀ w, m.lookup k = some w → w = v

omit [DecidableEq V] in
theorem entry_of_removed {first : Metadata V} {rest : List (Metadata V)} {v : Value V} (h : Removed k first rest v) :
    rest.foldl (fun acc m => (m.lookup k).or acc) (first.lookup k) = some v := by
  rcases h with ⟨hfirst, hrest⟩
  rw [hfirst]
  induction rest with
  | nil => rfl
  | cons m rest ih =>
    rw [List.foldl_cons]
    have htail := ih fun m' hm' => hrest m' (List.mem_cons_of_mem _ hm')
    cases hm : m.lookup k with
    | none => exact htail
    | some w =>
      cases hrest m List.mem_cons_self w hm
      exact htail

omit [DecidableEq V] in
theorem merged_eq_iff_removed {first : Metadata V} {rest : List (Metadata V)} {acc : Option (Value V)}
    (h : (Segment.Loses k (.objects first rest : Segment E V) → acc = none) ∧
      (¬ Segment.Loses k (.objects first rest : Segment E V) →
        acc = rest.foldl (fun acc m => (m.lookup k).or acc) (first.lookup k)))
    {v : Value V} (hnull : v.isNullish = true) : acc = some v ↔ Removed k first rest v := by
  constructor
  · intro hacc
    have hkept : ¬ Segment.Loses k (.objects first rest : Segment E V) := fun hloses => by
      rw [h.1 hloses] at hacc
      cases hacc
    have hentry := (h.2 hkept).symm.trans hacc
    by_contra hnot
    exact hkept ⟨v, hnull, hentry, hnot⟩
  · intro hremoved
    have hentry := entry_of_removed hremoved
    refine (h.2 ?_).trans hentry
    rintro ⟨w, _, hw, hnot⟩
    cases hentry.symm.trans hw
    exact hnot hremoved

/-- Merged objects have a tag as the last of them that has it, unless its removal is lost. -/
theorem merged_lookup (hk : k.plain = true) (s : Segment E V) :
    (s.Loses k → (s.merged.resolve env).lookup k = none) ∧
      (¬ s.Loses k → (s.merged.resolve env).lookup k = s.entry env k) := by
  cases s with
  | func f => exact ⟨False.elim, fun _ => rfl⟩
  | objects first rest =>
    simp only [Segment.merged, MetricTagsOrFunc.resolve, Segment.entry, lookup_foldl_mergeObjects hk]
    induction rest using List.reverseRecOn with
    | nil =>
      refine ⟨fun hloses => ?_, fun _ => rfl⟩
      rcases hloses with ⟨v, _, hentry, hnot⟩
      exact absurd ⟨hentry, nofun⟩ hnot
    | append_singleton rest m ih =>
      simp only [List.foldl_append, List.foldl_cons, List.foldl_nil]
      cases hm : m.lookup k with
      | none =>
        have hiff : Segment.Loses k (.objects first (rest ++ [m]) : Segment E V) ↔
            Segment.Loses k (.objects first rest : Segment E V) := by
          simp [Segment.Loses, List.foldl_append, hm, or_imp, forall_and]
        rw [hiff]
        simpa only [mergeValue, Option.none_or] using ih
      | some v =>
        have hloses : Segment.Loses k (.objects first (rest ++ [m]) : Segment E V) ↔
            v.isNullish = true ∧ ¬ Removed k first rest v := by
          simp only [Segment.Loses, List.foldl_append, List.foldl_cons, List.foldl_nil, hm, Option.some_or,
            Option.some.injEq, Removed]
          constructor
          · rintro ⟨_, hnull, rfl, hnot⟩
            refine ⟨hnull, fun hremoved => hnot ⟨hremoved.1, ?_⟩⟩
            intro m' hm' w hw
            rcases List.mem_append.mp hm' with hmem | hmem
            · exact hremoved.2 m' hmem w hw
            · rw [List.mem_singleton.mp hmem, hm] at hw
              exact (Option.some.inj hw).symm
          · rintro ⟨hnull, hnot⟩
            exact ⟨v, hnull, rfl, fun hremoved => hnot ⟨hremoved.1, fun m' hm' =>
              hremoved.2 m' (List.mem_append_left _ hm')⟩⟩
        rw [hloses, Option.some_or]
        have hmerged := merged_eq_iff_removed ih (v := v)
        generalize rest.foldl (fun acc m => mergeValue acc (m.lookup k)) (first.lookup k) = acc at hmerged
        constructor
        · rintro ⟨hnull, hnot⟩
          have hne : acc ≠ some v := fun heq => hnot ((hmerged hnull).mp heq)
          by_cases heq : v = acc.getD .undefined
          · cases acc with
            | none => exact if_pos heq
            | some w => exact absurd (congrArg some heq.symm) hne
          · simp only [mergeValue, if_neg heq, if_pos hnull]
        · intro hkept
          by_cases hnull : v.isNullish = true
          · have hremoved : Removed k first rest v := by_contra fun hnot => hkept ⟨hnull, hnot⟩
            rw [(hmerged hnull).mpr hremoved]
            exact if_pos rfl
          · by_cases heq : v = acc.getD .undefined
            · cases acc with
              | none => exact absurd (heq ▸ rfl) hnull
              | some w => exact (if_pos heq).trans (congrArg some heq.symm)
            · simp only [mergeValue, if_neg heq, if_neg hnull]

end OneSegment

/-! ## Chains -/

section Chains

variable [DecidableEq V] {env : E} {k : Key}

omit [DecidableEq V] in
theorem segments_append (contributors : List (MetricTagsOrFunc E V)) (c : MetricTagsOrFunc E V) :
    segments (contributors ++ [c]) = addSegment (segments contributors) c := by
  simp [segments, List.foldl_append]

omit [DecidableEq V] in
theorem said_append (contributors : List (MetricTagsOrFunc E V)) (c : MetricTagsOrFunc E V) :
    said env (contributors ++ [c]) k = ((c.resolve env).lookup k).or (said env contributors k) := by
  simp [said, List.foldl_append]

theorem appendToChain_segments (segs : List (Segment E V)) (c : MetricTagsOrFunc E V) :
    appendToChain (some (segs.map Segment.merged)) c = some ((addSegment segs c).map Segment.merged) := by
  cases c with
  | func f => simp [appendToChain, addSegment, Segment.merged]
  | static tags =>
    simp only [appendToChain, addSegment, Option.getD_some]
    split
    · rfl
    · rw [List.getLast?_map]
      cases hlast : segs.getLast? with
      | none => simp [Segment.merged]
      | some last =>
        cases last with
        | func f => simp [Segment.merged]
        | objects first rest =>
          simp [Segment.merged, List.foldl_append, List.map_dropLast]

theorem appendToChain_none (c : MetricTagsOrFunc E V) :
    appendToChain none c = if addSegment ([] : List (Segment E V)) c = [] then none
      else some ((addSegment [] c).map Segment.merged) := by
  cases c with
  | func f => simp [appendToChain, addSegment, Segment.merged]
  | static tags =>
    simp only [appendToChain, addSegment]
    by_cases hempty : (objectKeys tags).isEmpty = true
    · simp [hempty]
    · simp [hempty, Segment.merged]

/-- What a meter has composed. -/
theorem composeAll_segments (layers : List (MetricTagsOrFunc E V × Bool)) :
    match composeAll layers with
    | .parent => segments (layers.map Prod.fst) = []
    | .composed contributors => contributors = (segments (layers.map Prod.fst)).map Segment.merged := by
  induction layers using List.reverseRecOn with
  | nil => rfl
  | append_singleton layers layer ih =>
    have hcompose : composeAll (layers ++ [layer]) = compose (composeAll layers) layer.1 layer.2 := by
      simp [composeAll, List.foldl_append]
    rw [hcompose, List.map_append, List.map_cons, List.map_nil, segments_append]
    cases hmeter : composeAll layers with
    | composed contributors =>
      rw [hmeter] at ih
      simp only [compose, ih, appendToChain_segments]
    | parent =>
      rw [hmeter] at ih
      simp only at ih
      rw [ih]
      simp only [compose, appendToChain_none]
      by_cases hnil : addSegment ([] : List (Segment E V)) layer.1 = []
      · rw [if_pos hnil]
        cases layer.2
        · exact hnil
        · simp [hnil]
      · rw [if_neg hnil]

theorem withTags_segments (segs : List (Segment E V)) (metricLayers : List (Metadata V)) :
    metricLayers.foldl withTags (segs.map Segment.merged) =
      ((metricLayers.map MetricTagsOrFunc.static).foldl addSegment segs).map Segment.merged := by
  induction metricLayers generalizing segs with
  | nil => rfl
  | cons tags metricLayers ih =>
    rw [List.foldl_cons, withTags, appendToChain_segments, Option.getD_some, ih]
    rfl

end Chains

/-! ## What is recorded -/

section Recorded

variable {env : E} {k : Key}

/-- The last segment that has a tag. -/
def saidBy (env : E) (k : Key) (segs : List (Segment E V)) (acc : Option (Value V)) : Option (Value V) :=
  segs.foldl (fun acc s => (s.entry env k).or acc) acc

theorem said_segments (hk : k.isString = true) (contributors : List (MetricTagsOrFunc E V)) :
    said env contributors k = saidBy env k (segments contributors) none := by
  induction contributors using List.reverseRecOn with
  | nil => rfl
  | append_singleton contributors c ih =>
    rw [said_append, segments_append, ih]
    generalize segments contributors = segs
    cases c with
    | func f => simp [addSegment, saidBy, List.foldl_append, Segment.entry, MetricTagsOrFunc.resolve]
    | static tags =>
      simp only [addSegment, MetricTagsOrFunc.resolve]
      split
      · rename_i hempty
        rw [LogMetadata.lookup_eq_none hempty hk, Option.none_or]
      · cases hlast : segs.getLast? with
        | none => simp [saidBy, List.foldl_append, Segment.entry]
        | some last =>
          cases last with
          | func f => simp [saidBy, List.foldl_append, Segment.entry]
          | objects first rest =>
            have hsplit : segs = segs.dropLast ++ [.objects first rest] :=
              (List.dropLast_append_getLast? _ hlast).symm
            conv_lhs => rw [hsplit]
            simp [saidBy, List.foldl_append, Segment.entry, Option.or_assoc]

/-- Segments that do not settle a tag leave it as it is, or remove it and lose that. -/
theorem saidBy_unsettled {segs : List (Segment E V)} (h : ∀ s ∈ segs, ¬ s.Settles env k) (acc : Option (Value V)) :
    ((∀ s ∈ segs, ¬ s.Loses k) ∧ saidBy env k segs acc = acc) ∨
      ((∃ v, Value.isNullish v = true ∧ saidBy env k segs acc = some v) ∧ ∃ s ∈ segs, s.Loses k) := by
  induction segs generalizing acc with
  | nil => exact Or.inl ⟨nofun, rfl⟩
  | cons s segs ih =>
    have hs := h s List.mem_cons_self
    have htail := ih fun s' hs' => h s' (List.mem_cons_of_mem _ hs')
    by_cases hloses : s.Loses k
    · have hentry : ∃ v, Value.isNullish v = true ∧ s.entry env k = some v := by
        cases s with
        | func f => exact hloses.elim
        | objects first rest =>
          rcases hloses with ⟨v, hnull, hv, _⟩
          exact ⟨v, hnull, hv⟩
      rcases hentry with ⟨v, hnull, hv⟩
      have hacc : saidBy env k (s :: segs) acc = saidBy env k segs (some v) := by simp [saidBy, hv]
      refine Or.inr ⟨?_, s, List.mem_cons_self, hloses⟩
      rw [hacc]
      rcases htail (some v) with ⟨_, heq⟩ | ⟨hremoved, _⟩
      · exact ⟨v, hnull, heq⟩
      · exact hremoved
    · have hentry : s.entry env k = none := by
        by_contra hne
        exact hs ⟨hne, hloses⟩
      have hacc : saidBy env k (s :: segs) acc = saidBy env k segs acc := by simp [saidBy, hentry]
      rw [hacc]
      rcases htail acc with ⟨hnone, heq⟩ | ⟨hremoved, s', hs', hloses'⟩
      · exact Or.inl ⟨List.forall_mem_cons.mpr ⟨hloses, hnone⟩, heq⟩
      · exact Or.inr ⟨hremoved, s', List.mem_cons_of_mem _ hs', hloses'⟩

theorem exists_last {α : Type} (p : α → Prop) (l : List α) :
    (∀ a ∈ l, ¬ p a) ∨ ∃ before a after, l = before ++ a :: after ∧ p a ∧ ∀ b ∈ after, ¬ p b := by
  induction l using List.reverseRecOn with
  | nil => exact Or.inl nofun
  | append_singleton l a ih =>
    by_cases ha : p a
    · exact Or.inr ⟨l, a, [], rfl, ha, nofun⟩
    · rcases ih with hnone | ⟨before, b, after, rfl, hb, hafter⟩
      · refine Or.inl fun b hb => ?_
        rcases List.mem_append.mp hb with hmem | hmem
        · exact hnone b hmem
        · exact List.mem_singleton.mp hmem ▸ ha
      · refine Or.inr ⟨before, b, after ++ [a], by simp, hb, fun c hc => ?_⟩
        rcases List.mem_append.mp hc with hmem | hmem
        · exact hafter c hmem
        · exact List.mem_singleton.mp hmem ▸ ha

theorem last_unique {α : Type} {p : α → Prop} {before before' after after' : List α} {a a' : α}
    (heq : before ++ a :: after = before' ++ a' :: after') (ha : p a) (ha' : p a') (hafter : ∀ b ∈ after, ¬ p b)
    (hafter' : ∀ b ∈ after', ¬ p b) : a = a' ∧ after = after' := by
  rcases List.append_eq_append_iff.mp heq with ⟨middle, rfl, hsplit⟩ | ⟨middle, rfl, hsplit⟩
  · cases middle with
    | nil => exact List.cons.inj hsplit
    | cons b middle =>
      rcases List.cons.inj hsplit with ⟨_, rfl⟩
      exact absurd ha' (hafter a' (by simp))
  · cases middle with
    | nil =>
      rcases List.cons.inj hsplit with ⟨rfl, rfl⟩
      exact ⟨rfl, rfl⟩
    | cons b middle =>
      rcases List.cons.inj hsplit with ⟨_, rfl⟩
      exact absurd ha (hafter' a (by simp))

theorem not_loses_of_entry {s : Segment E V} {v : Value V} (hv : s.entry env k = some v) (hnull : v.isNullish = false) :
    ¬ s.Loses k := by
  intro hloses
  cases s with
  | func f => exact hloses
  | objects first rest =>
    rcases hloses with ⟨w, hw, hentry, _⟩
    cases hv.symm.trans hentry
    rw [hw] at hnull
    cases hnull

variable [DecidableEq V]

theorem said_merged_cons (segs : List (Segment E V)) (acc : Option (Value V)) :
    (segs.map Segment.merged).foldl (fun acc c => ((c.resolve env).lookup k).or acc) acc =
      segs.foldl (fun acc s => ((s.merged.resolve env).lookup k).or acc) acc := by
  rw [List.foldl_map]

theorem merged_unsettled (hk : k.plain = true) {segs : List (Segment E V)} (h : ∀ s ∈ segs, ¬ s.Settles env k)
    (acc : Option (Value V)) : segs.foldl (fun acc s => ((s.merged.resolve env).lookup k).or acc) acc = acc := by
  induction segs generalizing acc with
  | nil => rfl
  | cons s segs ih =>
    have hnone : (s.merged.resolve env).lookup k = none := by
      by_cases hloses : s.Loses k
      · exact (merged_lookup hk s).1 hloses
      · rw [(merged_lookup hk s).2 hloses]
        by_contra hne
        exact h s List.mem_cons_self ⟨hne, hloses⟩
    rw [List.foldl_cons, hnone, Option.none_or]
    exact ih (fun s' hs' => h s' (List.mem_cons_of_mem _ hs')) acc

/-- What a chain of merged segments shows of a tag is what the plain overriding does, unless a removal is lost. -/
theorem visible_merged_iff (hk : k.plain = true) (segs : List (Segment E V)) :
    visible k (said env (segs.map Segment.merged) k) = visible k (saidBy env k segs none) ↔
      ¬ LostRemoval env k segs := by
  have hstring := (Bool.and_eq_true_iff.1 hk).1
  have hnullish : ∀ {v : Value V}, v.isNullish = true → visible k (some v) = none := fun hnull => by
    simp [visible, hnull]
  have hvalue : ∀ {v : Value V}, v.isNullish = false → visible k (some v) = some v := fun hnull => by
    simp [visible, Option.filter, hnull, hstring]
  rw [said, said_merged_cons]
  rcases exists_last (fun s : Segment E V => s.Settles env k) segs with hnone | ⟨before, s, after, rfl, hs, hafter⟩
  · rw [merged_unsettled hk hnone]
    refine iff_of_true ?_ ?_
    · rcases saidBy_unsettled hnone none with ⟨_, heq⟩ | ⟨⟨v, hnull, heq⟩, _⟩
      · rw [heq]
      · rw [heq, hnullish hnull]
        rfl
    · rintro ⟨before, s, after, v, rfl, hv, hnull, hafter, _⟩
      exact hnone s (by simp) ⟨by simp [hv], not_loses_of_entry hv hnull⟩
  · rcases Option.ne_none_iff_exists'.mp hs.1 with ⟨v, hv⟩
    have hmerged : (before ++ s :: after).foldl (fun acc s => ((s.merged.resolve env).lookup k).or acc) none = some v := by
      rw [List.foldl_append, List.foldl_cons, merged_unsettled hk hafter, (merged_lookup hk s).2 hs.2, hv, Option.some_or]
    have hsaid : saidBy env k (before ++ s :: after) none = saidBy env k after (some v) := by
      simp [saidBy, List.foldl_append, hv]
    rw [hmerged, hsaid]
    have hlost : LostRemoval env k (before ++ s :: after) ↔ v.isNullish = false ∧ ∃ s' ∈ after, s'.Loses k := by
      constructor
      · rintro ⟨before', s', after', w, heq, hw, hnull, hafter', hloses⟩
        have hs' : s'.Settles env k := ⟨by simp [hw], not_loses_of_entry hw hnull⟩
        rcases last_unique heq hs hs' hafter hafter' with ⟨rfl, rfl⟩
        cases hv.symm.trans hw
        exact ⟨hnull, hloses⟩
      · rintro ⟨hnull, hloses⟩
        exact ⟨before, s, after, v, rfl, hv, hnull, hafter, hloses⟩
    rw [hlost]
    rcases saidBy_unsettled hafter (some v) with ⟨hkept, heq⟩ | ⟨⟨w, hnull, heq⟩, hloses⟩
    · rw [heq]
      exact iff_of_true rfl fun ⟨_, s', hs', hloses⟩ => hkept s' hs' hloses
    · rw [heq, hnullish hnull]
      cases hv' : v.isNullish with
      | true => exact iff_of_true (hnullish hv') fun h => by cases h.1
      | false =>
        rw [hvalue hv']
        exact iff_of_false nofun fun h => h ⟨rfl, hloses⟩

omit [DecidableEq V] in
theorem lookup_assignAll (hk : k.plain = true) (contributors : List (MetricTagsOrFunc E V)) :
    (contributors.foldl (fun resolved c => assign resolved (c.resolve env)) Record.empty).lookup k =
      said env contributors k := by
  induction contributors using List.reverseRecOn with
  | nil => rfl
  | append_singleton contributors c ih =>
    rw [said_append, List.foldl_append, ← ih]
    exact LogMetadata.lookup_assign_of_plain _ _ hk

omit [DecidableEq V] in
theorem lookup_assignAll_proto (contributors : List (MetricTagsOrFunc E V)) :
    (contributors.foldl (fun resolved c => assign resolved (c.resolve env)) Record.empty).lookup protoKey = none := by
  induction contributors using List.reverseRecOn with
  | nil => rfl
  | append_singleton contributors c ih =>
    rw [List.foldl_append]
    exact LogMetadata.lookup_assign_proto _ _ ih

omit [DecidableEq V] in
theorem resolveTags_of_plain (hk : k.plain = true) (contributors : List (MetricTagsOrFunc E V))
    (extraTags : Metadata V) :
    (resolveTags env contributors extraTags).lookup k = overridden env contributors extraTags k := by
  rw [resolveTags, filterNullAndUndefined, Record.lookup_restrict, LogMetadata.lookup_assign_of_plain _ _ hk,
    lookup_assignAll hk]
  rfl

omit [DecidableEq V] in
theorem resolveTags_of_not_plain (hk : k.plain = false) (contributors : List (MetricTagsOrFunc E V))
    (extraTags : Metadata V) : (resolveTags env contributors extraTags).lookup k = none := by
  by_cases hstring : k.isString = true
  · have hproto : k = protoKey := by simpa [Key.plain, hstring] using hk
    have hassigned :
        (assign (contributors.foldl (fun resolved c => assign resolved (c.resolve env)) Record.empty) extraTags).lookup
          protoKey = none :=
      LogMetadata.lookup_assign_proto _ _ (lookup_assignAll_proto contributors)
    rw [hproto, resolveTags, filterNullAndUndefined, Record.lookup_restrict, hassigned]
    rfl
  · exact LogMetadata.lookup_filter_symbol (Bool.eq_false_iff.2 hstring)

omit [DecidableEq V] in
theorem overridden_symbol (hk : k.isString = false) (contributors : List (MetricTagsOrFunc E V))
    (extraTags : Metadata V) : overridden env contributors extraTags k = none := by
  simp [overridden, visible, hk]

end Recorded

/-- The contributors of a chain, in order. -/
def contributorsOf (layers : List (MetricTagsOrFunc E V × Bool)) (metricLayers : List (Metadata V)) :
    List (MetricTagsOrFunc E V) :=
  layers.map Prod.fst ++ metricLayers.map .static

/-- The tags of a composed metric are those of the plain overriding if and only if no removal of a tag that the call
does not give is lost, and no tag is named `__proto__`. -/
theorem recorded_iff [DecidableEq V] (env : E) (layers : List (MetricTagsOrFunc E V × Bool))
    (metricLayers : List (Metadata V)) (extraTags : Metadata V) (chain : List (MetricTagsOrFunc E V))
    (h : composeAll layers = .composed chain) :
    (∀ k, (resolveTags env (metricLayers.foldl withTags chain) extraTags).lookup k =
        overridden env (contributorsOf layers metricLayers) extraTags k) ↔
      overridden env (contributorsOf layers metricLayers) extraTags protoKey = none ∧
        ∀ k, k.plain = true → extraTags.lookup k = none →
          ¬ LostRemoval env k (segments (contributorsOf layers metricLayers)) := by
  have hchain := composeAll_segments layers
  rw [h] at hchain
  have hsegments : metricLayers.foldl withTags chain =
      (segments (contributorsOf layers metricLayers)).map Segment.merged := by
    rw [hchain, withTags_segments, contributorsOf, segments, segments, List.foldl_append]
  rw [hsegments]
  have hplain : ∀ {k : Key}, k.plain = true → extraTags.lookup k = none →
      ((resolveTags env ((segments (contributorsOf layers metricLayers)).map Segment.merged) extraTags).lookup k =
          overridden env (contributorsOf layers metricLayers) extraTags k ↔
        ¬ LostRemoval env k (segments (contributorsOf layers metricLayers))) := by
    intro k hk hextra
    rw [resolveTags_of_plain hk, overridden, overridden, hextra, Option.none_or, Option.none_or,
      said_segments (Bool.and_eq_true_iff.1 hk).1 (contributorsOf layers metricLayers)]
    exact visible_merged_iff hk _
  constructor
  · intro hall
    refine ⟨?_, fun k hk hextra => (hplain hk hextra).mp (hall k)⟩
    rw [← hall protoKey]
    exact resolveTags_of_not_plain rfl _ _
  · rintro ⟨hproto, hkept⟩ k
    by_cases hk : k.plain = true
    · cases hextra : extraTags.lookup k with
      | none => exact (hplain hk hextra).mpr (hkept k hk hextra)
      | some v => rw [resolveTags_of_plain hk, overridden, overridden, hextra, Option.some_or, Option.some_or]
    · rw [resolveTags_of_not_plain (Bool.eq_false_iff.2 hk)]
      by_cases hstring : k.isString = true
      · have heq : k = protoKey := by simpa [Key.plain, hstring] using hk
        rw [heq, hproto]
      · exact (overridden_symbol (Bool.eq_false_iff.2 hstring) _ _).symm

/-! ## A removal after another object -/

def tag (name : String) (v : Value ℕ) : Metadata ℕ := Record.empty.set (.string name) v

/-- A function that gives the attempt, and an object. -/
def attemptLayers : List (MetricTagsOrFunc ℕ ℕ × Bool) :=
  [(.func fun attempt => tag "attempt" (.other attempt), false), (.static (tag "queue" (.other 7)), false)]

theorem attemptLayers_recorded :
    (∀ k, (resolveTags 1 ([].foldl withTags ((attemptLayers.map Prod.fst))) (tag "attempt" .null)).lookup k =
        overridden 1 (contributorsOf attemptLayers []) (tag "attempt" .null) k) ↔
      overridden 1 (contributorsOf attemptLayers []) (tag "attempt" .null) protoKey = none ∧
        ∀ k, k.plain = true → (tag "attempt" .null).lookup k = none →
          ¬ LostRemoval 1 k (segments (contributorsOf attemptLayers [])) :=
  recorded_iff 1 attemptLayers [] (tag "attempt" .null) (attemptLayers.map Prod.fst) rfl

/-- Then an object that is to remove the attempt: it is merged to the one before, and the attempt is recorded. -/
theorem removed_attempt_recorded :
    ∃ chain, composeAll (attemptLayers ++ [(.static (tag "attempt" .undefined), false)]) = .composed chain ∧
      (resolveTags 1 chain Record.empty).lookup (.string "attempt") = some (.other 1) ∧
      overridden 1 (contributorsOf (attemptLayers ++ [(.static (tag "attempt" .undefined), false)]) []) Record.empty
        (.string "attempt") = none :=
  ⟨_, rfl, by decide, by decide⟩

end MetricTags
end TemporalSdk.Worker
