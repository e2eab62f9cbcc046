import TemporalSdk.Machine.Tally
import TemporalSdk.Worker.Heartbeats

/-!
# HeartbeatCounter — `numHeartbeatingActivities`

The groups of all activities share one counter.  It goes up with each `create` and down with each `close` that
comes out of a group.  A group starts closed, so an input for an activity that has no group opens one, is
answered with `close`, and the group is dropped again.
-/

namespace TemporalSdk.Worker
namespace HeartbeatCounter

open Machine Heartbeats

/-! ## One group -/

section Group

variable {H : Type}

/-- `mergeMap` completes with the last of its functions, and `tap` closes the group. -/
def closeGroup (g : Heartbeats.Group H) : Option (Heartbeats.Group H) :=
  if !g.subscribed ∧ g.sending = 0 ∧ g.finishing = 0 then none else some g

/-- What the state mapper adds to the counter. -/
def counted : Input H → Int
  | .create => 1
  | _ => 0

/-- What comes out of the state mapper, and what `tap` adds to the counter. -/
def emitted (g : Heartbeats.Group H) : Option (Output H) → Option (Heartbeats.Group H) × Int
  | none => (closeGroup g, 0)
  | some (.send _) => (closeGroup { g with sending := g.sending + 1 }, 0)
  | some (.close _) => (closeGroup { g with subscribed := false }, -1)

/-- The group of an activity, or none, after an input, and the change of the counter. -/
def receive (group : Option (Heartbeats.Group H)) (input : Input H) : Option (Heartbeats.Group H) × Int :=
  let g := group.getD (Heartbeats.Group.initial H)
  if g.subscribed then
    let (state, output) := mapInput g.state input
    let (group, change) := emitted { g with state := state } output
    (group, counted input + change)
  else (some g, 0)

/-- A function of `mergeMap` comes to its `finally`. -/
def flushGroup (group : Option (Heartbeats.Group H)) : Option (Heartbeats.Group H) × Int :=
  match group with
  | none => (none, 0)
  | some g =>
    if g.sending = 0 then (some g, 0)
    else
      receive (some { g with sending := g.sending - 1, finishing := g.finishing + 1 }) .flush

/-- A function of `mergeMap` returns. -/
def settleGroup (group : Option (Heartbeats.Group H)) : Option (Heartbeats.Group H) :=
  match group with
  | none => none
  | some g => if g.finishing = 0 then some g else closeGroup { g with finishing := g.finishing - 1 }

/-- The stream has been created and is not closed. -/
def isOpen : Option (Heartbeats.Group H) → Bool
  | some g => !g.state.closed
  | none => false

end Group

/-! ## All groups -/

/-- `created` and `completed` are for stating properties only: the activities whose `create` and
`completion` have been processed. -/
structure Streams (K H : Type) where
  groups : K → Option (Heartbeats.Group H)
  numHeartbeatingActivities : Int
  created : List K
  completed : List K

inductive Event (K H : Type)
  | create (k : K)
  | heartbeat (k : K) (h : H)
  | completion (k : K) (flushRequired : Bool)
  | flush (k : K)
  | settle (k : K)

namespace Streams

variable {K H : Type} [DecidableEq K]

def init : Streams K H := ⟨fun _ => none, 0, [], []⟩

/-- `activityHeartbeatSubject.next`. -/
def next (s : Streams K H) (k : K) (input : Input H) : Streams K H :=
  { s with
    groups := Function.update s.groups k (receive (s.groups k) input).1
    numHeartbeatingActivities := s.numHeartbeatingActivities + (receive (s.groups k) input).2 }

def step (s : Streams K H) : Event K H → Streams K H
  | .create k => { s.next k .create with created := k :: s.created }
  | .heartbeat k h => s.next k (.heartbeat h)
  | .completion k flushRequired =>
    { s.next k (.completion flushRequired (callbackOf flushRequired)) with
      completed := k :: s.completed }
  | .flush k =>
    { s with
      groups := Function.update s.groups k (flushGroup (s.groups k)).1
      numHeartbeatingActivities := s.numHeartbeatingActivities + (flushGroup (s.groups k)).2 }
  | .settle k => { s with groups := Function.update s.groups k (settleGroup (s.groups k)) }

/-- What `activityOperator` feeds in: one `create` for an activity, and one `completion` after it.  Heartbeats
come at any time. -/
def Conforming (s : Streams K H) : Event K H → Prop
  | .create k => k ∉ s.created
  | .completion k _ => k ∈ s.created ∧ k ∉ s.completed
  | _ => True

/-- A heartbeat of an activity that has no group. -/
def Rogue (s : Streams K H) : Event K H → Prop
  | .heartbeat k _ => s.groups k = none
  | _ => False

instance (s : Streams K H) : ∀ e, Decidable (s.Conforming e)
  | .create k => inferInstanceAs (Decidable (k ∉ s.created))
  | .heartbeat _ _ => inferInstanceAs (Decidable True)
  | .completion k _ => inferInstanceAs (Decidable (k ∈ s.created ∧ k ∉ s.completed))
  | .flush _ => inferInstanceAs (Decidable True)
  | .settle _ => inferInstanceAs (Decidable True)

/-- How many activities have been created and their streams not closed. -/
def heartbeating (s : Streams K H) : Nat := tally s.created isOpen s.groups

/-! ## What each group keeps -/

/-- A group is subscribed as long as its stream is open, and that is until the completion. -/
structure Fits (created completed : Prop) (g : Heartbeats.Group H) : Prop where
  created : created
  subscribed : g.subscribed = !g.state.closed
  completed_of_closed : g.state.closed = true → completed
  completed_of_callback : g.state.completionCallback ≠ none → completed

def Held (created completed : Prop) : Option (Heartbeats.Group H) → Prop
  | none => created → completed
  | some g => Fits created completed g

/-- The counter follows the group. -/
structure Follows (created completed : Prop) (group : Option (Heartbeats.Group H))
    (result : Option (Heartbeats.Group H) × Int) : Prop where
  held : Held created completed result.1
  change : result.2 = (isOpen result.1).toNat - (isOpen group).toNat

section Group

variable {created completed : Prop} {g : Heartbeats.Group H}

theorem Fits.closeGroup (h : Fits created completed g) :
    Held created completed (closeGroup g) ∧ isOpen (HeartbeatCounter.closeGroup g) = !g.state.closed := by
  simp only [HeartbeatCounter.closeGroup]
  split
  · rename_i hdone
    have hclosed : g.state.closed = true := by
      have hsubscribed := h.subscribed
      simp only [Bool.not_eq_true'] at hdone
      rw [hdone.1] at hsubscribed
      simpa using hsubscribed.symm
    exact ⟨fun _ => h.completed_of_closed hclosed, by simp [isOpen, hclosed]⟩
  · exact ⟨h, rfl⟩

variable {group : Option (Heartbeats.Group H)}

theorem follows_closeGroup (h : Fits created completed g) {change : Int}
    (hchange : change = (!g.state.closed).toNat - (isOpen group).toNat) :
    Follows created completed group (HeartbeatCounter.closeGroup g, change) := by
  rcases h.closeGroup with ⟨hheld, hisOpen⟩
  refine ⟨hheld, ?_⟩
  show change = _
  rw [hchange, hisOpen]

theorem follows_open {state : HeartbeatState H} (sent : Option H)
    (hopen : isOpen group = true) (hstate : state.closed = false)
    (hcreated : created) (hsubscribed : g.subscribed = true)
    (hcallback : state.completionCallback ≠ none → completed) :
    Follows created completed group (emitted { g with state := state } (sent.map .send)) := by
  have hfits : ∀ n, Fits created completed { g with state := state, sending := n } := by
    intro n
    exact ⟨hcreated, by simp [hsubscribed, hstate], by simp [hstate], hcallback⟩
  cases sent with
  | none => exact follows_closeGroup (hfits g.sending) (by simp [hopen, hstate])
  | some x => exact follows_closeGroup (hfits (g.sending + 1)) (by simp [hopen, hstate])

theorem follows_close (hopen : isOpen group = true) (hcreated : created)
    (hcompleted : completed) (callback : Option Callback) :
    Follows created completed group
      (emitted { g with state := ⟨true, false, none, none⟩ } (some (.close callback))) := by
  refine follows_closeGroup ⟨hcreated, rfl, fun _ => hcompleted, fun h => absurd rfl h⟩ ?_
  rw [hopen]
  rfl

theorem Fits.of_isOpen (h : Fits created completed g) (hopen : isOpen (some g) = true) :
    g.state.closed = false ∧ g.subscribed = true := by
  have hclosed : g.state.closed = false := by simpa [isOpen] using hopen
  exact ⟨hclosed, by rw [h.subscribed, hclosed]; rfl⟩

theorem receive_of_open (hopen : isOpen (some g) = true) (h : Fits created completed g)
    {input : Input H} (hinput : counted input = 0) :
    receive (some g) input =
      emitted { g with state := (mapInput g.state input).1 } (mapInput g.state input).2 := by
  rcases h.of_isOpen hopen with ⟨hclosed, hsubscribed⟩
  simp only [receive, Option.getD_some, hsubscribed, if_true, hinput, Int.zero_add]

theorem receive_of_closed (hopen : isOpen (some g) = false) (h : Fits created completed g)
    (input : Input H) : receive (some g) input = (some g, 0) := by
  have hclosed : g.state.closed = true := by simpa [isOpen] using hopen
  have hsubscribed : g.subscribed = false := by rw [h.subscribed, hclosed]; rfl
  simp [receive, hsubscribed]

theorem follows_closed (h : Fits created completed g) (hopen : isOpen (some g) = false)
    (input : Input H) : Follows created completed (some g) (receive (some g) input) := by
  rw [receive_of_closed hopen h]
  exact ⟨h, by simp⟩

theorem follows_heartbeat (h : Fits created completed g) (x : H) :
    Follows created completed (some g) (receive (some g) (.heartbeat x)) := by
  cases hopen : isOpen (some g) with
  | false => exact follows_closed h hopen _
  | true =>
    rcases h.of_isOpen hopen with ⟨hclosed, hsubscribed⟩
    rw [receive_of_open hopen h rfl]
    simp only [mapInput, hclosed]
    cases hprocessing : g.state.processing with
    | false =>
      exact follows_open (some x) hopen hclosed h.created hsubscribed h.completed_of_callback
    | true => exact follows_open none hopen hclosed h.created hsubscribed h.completed_of_callback

theorem follows_flush (h : Fits created completed g) :
    Follows created completed (some g) (receive (some g) .flush) := by
  cases hopen : isOpen (some g) with
  | false => exact follows_closed h hopen _
  | true =>
    rcases h.of_isOpen hopen with ⟨hclosed, hsubscribed⟩
    rw [receive_of_open hopen h rfl]
    simp only [mapInput, hclosed]
    cases hpending : g.state.pending with
    | some x =>
      exact follows_open (some x) hopen hclosed h.created hsubscribed h.completed_of_callback
    | none =>
      cases hcallback : g.state.completionCallback with
      | none =>
        exact follows_open none hopen rfl h.created hsubscribed fun hne => absurd rfl hne
      | some callback =>
        have hcompleted : completed := h.completed_of_callback (by simp [hcallback])
        exact follows_close hopen h.created hcompleted (some callback)

theorem follows_completion (h : Fits created completed g) (hopen : isOpen (some g) = true)
    (flushRequired : Bool) (callback : Callback) :
    Follows created True (some g) (receive (some g) (.completion flushRequired callback)) := by
  rcases h.of_isOpen hopen with ⟨hclosed, hsubscribed⟩
  rw [receive_of_open hopen h rfl]
  simp only [mapInput, hclosed]
  cases hprocessing : g.state.processing with
  | true => exact follows_open none hopen rfl h.created hsubscribed fun _ => trivial
  | false =>
    cases flushRequired with
    | false => exact follows_close hopen h.created trivial (some callback)
    | true =>
      cases hpending : g.state.pending with
      | none => exact follows_close hopen h.created trivial (some callback)
      | some x =>
        exact follows_open (some x) hopen rfl h.created hsubscribed fun _ => trivial

theorem follows_flushGroup (h : Held created completed group) :
    Follows created completed group (flushGroup group) := by
  cases group with
  | none => exact ⟨h, rfl⟩
  | some g =>
    simp only [flushGroup]
    split
    · exact ⟨h, by simp⟩
    · have hfits : Fits created completed
          { g with sending := g.sending - 1, finishing := g.finishing + 1 } :=
        { h with }
      exact ⟨(follows_flush hfits).held, (follows_flush hfits).change⟩

theorem held_settleGroup (h : Held created completed group) :
    Held created completed (settleGroup group) ∧ isOpen (settleGroup group) = isOpen group := by
  cases group with
  | none => exact ⟨h, rfl⟩
  | some g =>
    simp only [settleGroup]
    split
    · exact ⟨h, rfl⟩
    · have hfits : Fits created completed { g with finishing := g.finishing - 1 } :=
        { h with }
      exact hfits.closeGroup

end Group

/-! ## What a run keeps -/

/-- `deficit` is how far the counter is behind. -/
structure Kept (s : Streams K H) (deficit : Nat) : Prop where
  nodup : s.created.Nodup
  held : ∀ k, Held (k ∈ s.created) (k ∈ s.completed) (s.groups k)
  counted : s.numHeartbeatingActivities + deficit = s.heartbeating

variable {s : Streams K H} {deficit : Nat} {k : K}

omit [DecidableEq K] in
theorem kept_init : Kept (init : Streams K H) 0 :=
  ⟨List.nodup_nil, fun _ h => absurd h List.not_mem_nil, rfl⟩

omit [DecidableEq K] in
theorem Kept.group_eq_none (h : Kept s deficit) (hk : k ∉ s.created) : s.groups k = none := by
  have hheld := h.held k
  cases hgroup : s.groups k with
  | none => rfl
  | some g =>
    rw [hgroup] at hheld
    exact absurd hheld.created hk

/-- A step of one group that the counter follows. -/
theorem Kept.update (h : Kept s deficit) {result : Option (Heartbeats.Group H) × Int} {completed : List K}
    (hresult : Follows (k ∈ s.created) (k ∈ completed) (s.groups k) result)
    (hcompleted : ∀ k', k' ≠ k → (k' ∈ completed ↔ k' ∈ s.completed)) :
    Kept
      ⟨Function.update s.groups k result.1, s.numHeartbeatingActivities + result.2, s.created, completed⟩
      deficit := by
  have hcounted : s.numHeartbeatingActivities + deficit = tally s.created isOpen s.groups := h.counted
  refine ⟨h.nodup, fun k' => ?_, ?_⟩
  · show Held (k' ∈ s.created) (k' ∈ completed) (Function.update s.groups k result.1 k')
    by_cases hk' : k' = k
    · subst hk'
      rw [Function.update_self]
      exact hresult.held
    · rw [Function.update_of_ne hk', hcompleted k' hk']
      exact h.held k'
  · -- Without a `create` there is no group, before the step and after it.
    have hout : k ∉ s.created → isOpen result.1 = isOpen (s.groups k) := by
      intro hk
      have hheld := hresult.held
      rw [h.group_eq_none hk]
      cases hgroup : result.1 with
      | none => rfl
      | some g =>
        rw [hgroup] at hheld
        exact absurd hheld.created hk
    have htally := tally_change h.nodup hout hcounted hresult.change
    simp only [heartbeating]
    omega

theorem Kept.create (h : Kept s deficit) (hk : k ∉ s.created) :
    Kept (s.step (.create k)) deficit := by
  have hgroup := h.group_eq_none hk
  have hcounted := h.counted
  have hreceive : receive (none : Option (Heartbeats.Group H)) .create =
      (some ⟨⟨false, false, none, none⟩, true, 0, 0⟩, 1) := rfl
  simp only [step, next, hgroup, hreceive]
  refine ⟨List.nodup_cons.2 ⟨hk, h.nodup⟩, fun k' => ?_, ?_⟩
  · by_cases hk' : k' = k
    · subst hk'
      simp only [Function.update_self]
      exact ⟨List.mem_cons_self, rfl, fun hclosed => (nomatch hclosed), fun hne => absurd rfl hne⟩
    · simp only [Function.update_of_ne hk', List.mem_cons, or_iff_right hk']
      exact h.held k'
  · simp only [heartbeating] at hcounted ⊢
    rw [tally_update_cons hk]
    show s.numHeartbeatingActivities + 1 + (deficit : Int) = _
    simp only [isOpen, Bool.not_false, Bool.toNat_true]
    omega

theorem Kept.step (h : Kept s deficit) {e : Event K H} (he : s.Conforming e) (hrogue : ¬ s.Rogue e) :
    Kept (s.step e) deficit := by
  cases e with
  | create k => exact h.create he
  | heartbeat k x =>
    have hheld := h.held k
    refine h.update ?_ fun k' _ => Iff.rfl
    cases hgroup : s.groups k with
    | none => exact absurd hgroup hrogue
    | some g =>
      rw [hgroup] at hheld
      exact follows_heartbeat hheld x
  | completion k flushRequired =>
    have hheld := h.held k
    refine h.update ?_ fun k' hk' => by simp [hk']
    cases hgroup : s.groups k with
    | none =>
      rw [hgroup] at hheld
      exact absurd (hheld he.1) he.2
    | some g =>
      rw [hgroup] at hheld
      have hopen : isOpen (some g) = true := by
        cases hclosed : g.state.closed with
        | false => simp [isOpen, hclosed]
        | true => exact absurd (hheld.completed_of_closed hclosed) he.2
      have hfollows := follows_completion hheld hopen flushRequired (callbackOf flushRequired)
      exact ⟨by simpa using hfollows.held, hfollows.change⟩
  | flush k => exact h.update (follows_flushGroup (h.held k)) fun k' _ => Iff.rfl
  | settle k =>
    rcases held_settleGroup (h.held k) with ⟨hheld, hisOpen⟩
    have hfollows : Follows (k ∈ s.created) (k ∈ s.completed) (s.groups k)
        (settleGroup (s.groups k), 0) := ⟨hheld, by simp [hisOpen]⟩
    have hkept := h.update hfollows fun k' _ => Iff.rfl
    simpa [Streams.step] using hkept

theorem Kept.rogue (h : Kept s deficit) {e : Event K H} (he : s.Rogue e) :
    Kept (s.step e) (deficit + 1) := by
  cases e with
  | create | completion | flush | settle => exact he.elim
  | heartbeat k x =>
    have hgroup : s.groups k = none := he
    have hcounted := h.counted
    have hreceive : receive (none : Option (Heartbeats.Group H)) (.heartbeat x) = (none, -1) := rfl
    have hsame : Function.update s.groups k none = s.groups := by
      rw [← hgroup, Function.update_eq_self]
    simp only [Streams.step, next, hgroup, hreceive, hsame]
    refine ⟨h.nodup, h.held, ?_⟩
    show s.numHeartbeatingActivities + -1 + ((deficit + 1 : Nat) : Int) = (s.heartbeating : Int)
    omega

/-- The counter is the number of open streams, so it is not negative, and zero where no stream is open. -/
def CountsOpen (s : Streams K H) : Prop :=
  s.numHeartbeatingActivities = s.heartbeating ∧ 0 ≤ s.numHeartbeatingActivities ∧
    ((∀ k ∈ s.created, isOpen (s.groups k) = false) → s.numHeartbeatingActivities = 0)

omit [DecidableEq K] in
theorem countsOpen_iff : s.CountsOpen ↔ s.numHeartbeatingActivities = s.heartbeating := by
  refine ⟨fun h => h.1, fun h => ⟨h, by omega, fun hnone => ?_⟩⟩
  rw [h, heartbeating, tally_eq_zero.2 hnone]
  rfl

theorem throughout_countsOpen_iff {es : List (Event K H)} {s : Streams K H} (h : Kept s 0)
    (hes : Guarded step Conforming s es) :
    Throughout step CountsOpen s es ↔ Guarded step (fun s e => ¬ s.Rogue e) s es := by
  induction es generalizing s with
  | nil => exact iff_of_true (countsOpen_iff.2 (by simpa using h.counted)) trivial
  | cons e es ih =>
    by_cases hrogue : s.Rogue e
    · -- From then on the counter is one behind.
      refine iff_of_false (fun hcounts => ?_) fun hg => hg.1 hrogue
      have hnext := countsOpen_iff.1 hcounts.2.first
      have hcounted := (h.rogue hrogue).counted
      omega
    · have hrest := ih (h.step hes.1 hrogue) hes.2
      have hhere : s.CountsOpen := countsOpen_iff.2 (by simpa using h.counted)
      constructor
      · intro hcounts
        exact ⟨hrogue, hrest.1 hcounts.2⟩
      · intro hg
        exact ⟨hhere, hrest.2 hg.2⟩

/-- However the inputs of the activities are interleaved, the counter is right in every state exactly when no
heartbeat comes from an activity that has no group: before its `create`, or after its group was dropped. -/
theorem counts_open_iff_no_rogue (es : List (Event K H))
    (hes : Guarded step Conforming (init : Streams K H) es) :
    Throughout step CountsOpen init es ↔ Guarded step (fun s e => ¬ s.Rogue e) init es :=
  throughout_countsOpen_iff kept_init hes

/-- Two activities, one of which heartbeats and fails while the heartbeat is being sent. -/
theorem counts_open_of_two_activities :
    Throughout step CountsOpen (init : Streams Nat Unit)
      [.create 0, .heartbeat 0 (), .create 1, .completion 0 true, .completion 1 false, .flush 0,
        .settle 0] := by
  refine (counts_open_iff_no_rogue _ (by decide)).2 ?_
  refine ⟨id, fun h => ?_, id, id, id, id, id, trivial⟩
  exact absurd (congrArg Option.isSome h) (by decide)

/-- An activity that completes and heartbeats afterwards. -/
theorem not_counts_open_of_late_heartbeat :
    Guarded step Conforming (init : Streams Nat Unit)
        [.create 0, .completion 0 false, .heartbeat 0 ()] ∧
      ¬ Throughout step CountsOpen (init : Streams Nat Unit)
        [.create 0, .completion 0 false, .heartbeat 0 ()] := by
  refine ⟨by decide, fun h => ?_⟩
  have hnonneg := h.2.2.2.2.1
  exact absurd hnonneg (by decide)

end Streams
end HeartbeatCounter
end TemporalSdk.Worker
