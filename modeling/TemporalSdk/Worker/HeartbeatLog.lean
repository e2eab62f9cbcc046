import TemporalSdk.Worker.Heartbeats

/-!
# HeartbeatLog — what every run of the heartbeat stream keeps

`Logged` relates the history to what the stream has in hand: the pending heartbeat, the number of sends that are not
flushed, the completion.  There is one lemma for each way the history grows; the stream takes no
other.
-/

namespace TemporalSdk.Worker
namespace Heartbeats

open Machine

variable {D : Type}

/-! ## Histories -/

def Entry.receivedAs : Entry D → Option (Nat × D)
  | .received n d => some (n, d)
  | _ => none

def Entry.sentAs : Entry D → Option (Nat × D)
  | .sent n d => some (n, d)
  | _ => none

def Entry.isFlush : Entry D → Bool
  | .flushed => true
  | _ => false

def receiveds (h : List (Entry D)) : List (Nat × D) := h.filterMap Entry.receivedAs

def sents (h : List (Entry D)) : List (Nat × D) := h.filterMap Entry.sentAs

/-- How many sends have not been followed by their flush. -/
def outstanding (h : List (Entry D)) : Int := (sents h).length - h.countP Entry.isFlush

@[simp] theorem receiveds_append (h h' : List (Entry D)) :
    receiveds (h ++ h') = receiveds h ++ receiveds h' :=
  List.filterMap_append

@[simp] theorem receiveds_cons (e : Entry D) (h : List (Entry D)) :
    receiveds (e :: h) = e.receivedAs.toList ++ receiveds h := by
  cases e <;> rfl

@[simp] theorem receiveds_nil : receiveds ([] : List (Entry D)) = [] := rfl

@[simp] theorem sents_append (h h' : List (Entry D)) : sents (h ++ h') = sents h ++ sents h' :=
  List.filterMap_append

@[simp] theorem sents_cons (e : Entry D) (h : List (Entry D)) :
    sents (e :: h) = e.sentAs.toList ++ sents h := by
  cases e <;> rfl

@[simp] theorem sents_nil : sents ([] : List (Entry D)) = [] := rfl

/-- A later heartbeat came while a send was outstanding. -/
def Superseded (before : List (Entry D)) (n : Nat) (d : D) (after : List (Entry D)) : Prop :=
  ∃ mid m d' rest, after = mid ++ Entry.received m d' :: rest ∧
    0 < outstanding (before ++ Entry.received n d :: mid)

/-- What may become of a heartbeat. -/
def Settled (pending : Option (Nat × D)) (before : List (Entry D)) (n : Nat) (d : D)
    (after : List (Entry D)) : Prop :=
  .sent n d ∈ after ∨ pending = some (n, d) ∨ Superseded before n d after ∨
    .completing false ∈ after ∨ ∃ callback, .calledBack callback ∈ before

def Accounted (pending : Option (Nat × D)) (h : List (Entry D)) : Prop :=
  ∀ before n d after, h = before ++ Entry.received n d :: after → Settled pending before n d after

/-- When sends and callbacks are made. -/
def Proper (before : List (Entry D)) : Entry D → Prop
  | .sent _ _ => outstanding before = 0
  | .calledBack callback =>
    outstanding before = 0 ∧ (∀ callback', .calledBack callback' ∉ before) ∧
    ∃ flushRequired, .completing flushRequired ∈ before ∧ callback = callbackOf flushRequired ∧
      (flushRequired = true → ∀ init x, receiveds before = init ++ [x] → x ∈ sents before)
  | _ => True

/-- What the stream has in hand. -/
structure View (D : Type) where
  received : Nat
  pending : Option (Nat × D)
  busy : Nat
  resolved : Option Bool
  called : Bool

structure Logged (h : List (Entry D)) (v : View D) : Prop where
  numbers : (receiveds h).map Prod.fst = List.range v.received
  sublist : (sents h).Sublist (receiveds h)
  newest : ∀ x, v.pending = some x → ∃ init, receiveds h = init ++ [x] ∧ (sents h).Sublist init
  last : v.pending = none → ∀ init x, receiveds h = init ++ [x] →
    x ∈ sents h ∨ .completing false ∈ h ∨ v.called = true
  balance : (sents h).length = h.countP Entry.isFlush + v.busy
  resolved : ∀ flushRequired, .completing flushRequired ∈ h ↔ v.resolved = some flushRequired
  called : (∃ callback, .calledBack callback ∈ h) ↔ v.called = true
  always : Always Proper h
  accounted : Accounted v.pending h

theorem Settled.snoc {pending pending' : Option (Nat × D)} {before after : List (Entry D)} {n : Nat}
    {d : D} (h : Settled pending before n d after) (e : Entry D)
    (hpending : pending = some (n, d) → Settled pending' before n d (after ++ [e])) :
    Settled pending' before n d (after ++ [e]) := by
  rcases h with hsent | hpend | ⟨mid, m, d', rest, rfl, hbusy⟩ | hcompleting | hcalled
  · exact Or.inl (List.mem_append_left _ hsent)
  · exact hpending hpend
  · refine Or.inr (Or.inr (Or.inl ⟨mid, m, d', rest ++ [e], ?_, hbusy⟩))
    rw [List.append_assoc]
    rfl
  · exact Or.inr (Or.inr (Or.inr (Or.inl (List.mem_append_left _ hcompleting))))
  · exact Or.inr (Or.inr (Or.inr (Or.inr hcalled)))

namespace Logged

variable {h : List (Entry D)} {v : View D}

theorem outstanding_eq (hl : Logged h v) : outstanding h = v.busy := by
  have hbalance := hl.balance
  unfold outstanding
  omega

theorem nil : Logged ([] : List (Entry D)) ⟨0, none, 0, none, false⟩ := by
  refine ⟨rfl, List.Sublist.refl _, nofun, ?_, rfl, ?_, ?_, always_nil, ?_⟩
  · intro _ init x hsplit
    cases init <;> cases hsplit
  · intro f
    exact ⟨nofun, nofun⟩
  · exact ⟨nofun, nofun⟩
  · intro before n d after hsplit
    cases before <;> cases hsplit

/-- A heartbeat comes while another one is being sent. -/
theorem receivePending (hl : Logged h v) (hbusy : v.busy ≠ 0) (d : D) :
    Logged (h ++ [Entry.received v.received d])
      { v with received := v.received + 1, pending := some (v.received, d) } := by
  have hsents : sents (h ++ [Entry.received v.received d]) = sents h := by
    simp [Entry.sentAs]
  have hreceiveds : receiveds (h ++ [Entry.received v.received d]) = receiveds h ++ [(v.received, d)] := by
    simp [Entry.receivedAs]
  refine ⟨?_, ?_, ?_, nofun, ?_, ?_, ?_, hl.always.snoc trivial, ?_⟩
  · rw [hreceiveds, List.map_append, hl.numbers, List.range_succ]
    rfl
  · rw [hsents, hreceiveds]
    exact hl.sublist.trans (List.sublist_append_left _ _)
  · intro x hx
    cases hx
    exact ⟨receiveds h, hreceiveds, hsents ▸ hl.sublist⟩
  · rw [hsents, List.countP_append]
    exact hl.balance
  · intro f
    simpa using hl.resolved f
  · simpa using hl.called
  · intro before n d' after hsplit
    rcases split_snoc hsplit with ⟨rfl, heq, rfl⟩ | ⟨mid, rfl, hhistory⟩
    · cases heq
      exact Or.inr (Or.inl rfl)
    · refine (hl.accounted before n d' mid hhistory).snoc _ ?_
      intro _
      refine Or.inr (Or.inr (Or.inl ⟨mid, v.received, d, [], rfl, ?_⟩))
      rw [← hhistory, hl.outstanding_eq]
      exact Int.natCast_pos.2 (Nat.pos_of_ne_zero hbusy)

/-- A heartbeat comes and is sent. -/
theorem receiveSend (hl : Logged h v) (hbusy : v.busy = 0) (hpending : v.pending = none) (d : D) :
    Logged (h ++ [Entry.received v.received d] ++ [Entry.sent v.received d])
      { v with received := v.received + 1, busy := 1 } := by
  have hsents : sents (h ++ [Entry.received v.received d] ++ [Entry.sent v.received d]) =
      sents h ++ [(v.received, d)] := by
    simp [Entry.sentAs]
  have hreceiveds : receiveds (h ++ [Entry.received v.received d] ++ [Entry.sent v.received d]) =
      receiveds h ++ [(v.received, d)] := by
    simp [Entry.receivedAs]
  have hidle : outstanding (h ++ [Entry.received v.received d]) = 0 := by
    have hsame : outstanding (h ++ [Entry.received v.received d]) = outstanding h := by
      simp [outstanding, Entry.sentAs, Entry.isFlush, List.countP_append]
    rw [hsame, hl.outstanding_eq, hbusy]
    rfl
  refine ⟨?_, ?_, ?_, ?_, ?_, ?_, ?_, (hl.always.snoc (e := .received v.received d) trivial).snoc hidle, ?_⟩
  · rw [hreceiveds, List.map_append, hl.numbers, List.range_succ]
    rfl
  · rw [hsents, hreceiveds]
    exact hl.sublist.append (List.Sublist.refl _)
  · intro x hx
    rw [hpending] at hx
    cases hx
  · intro _ init x hsplit
    rw [hreceiveds] at hsplit
    have hx : (v.received, d) = x := by simpa using List.append_inj_right' hsplit rfl
    rw [hsents, ← hx]
    exact Or.inl (by simp)
  · rw [hsents, List.length_append, hl.balance, hbusy]
    simp [List.countP_append, Entry.isFlush]
  · intro f
    simpa using hl.resolved f
  · simpa using hl.called
  · intro before n d' after hsplit
    rcases split_snoc hsplit with ⟨_, heq, _⟩ | ⟨mid, rfl, hhistory⟩
    · cases heq
    · rcases split_snoc hhistory with ⟨rfl, heq, rfl⟩ | ⟨mid', rfl, hhistory'⟩
      · cases heq
        exact Or.inl (by simp)
      · have hsettled : Settled v.pending before n d' (mid' ++ [Entry.received v.received d]) :=
          (hl.accounted before n d' mid' hhistory').snoc _ fun hp => Or.inr (Or.inl hp)
        exact hsettled.snoc _ fun hp => Or.inr (Or.inl hp)

/-- A send is flushed, and the pending heartbeat is sent. -/
theorem flushSend (hl : Logged h v) (hbusy : v.busy = 1) {x : Nat × D} (hpending : v.pending = some x) :
    Logged (h ++ [Entry.flushed] ++ [Entry.sent x.1 x.2]) { v with pending := none } := by
  have hsents : sents (h ++ [Entry.flushed] ++ [Entry.sent x.1 x.2]) = sents h ++ [x] := by
    simp [Entry.sentAs]
  have hreceiveds : receiveds (h ++ [Entry.flushed] ++ [Entry.sent x.1 x.2]) = receiveds h := by
    simp [Entry.receivedAs]
  rcases hl.newest x hpending with ⟨init, hinit, hsublist⟩
  have hidle : outstanding (h ++ [Entry.flushed]) = 0 := by
    have hbalance := hl.balance
    rw [hbusy] at hbalance
    simp [outstanding, Entry.sentAs, Entry.isFlush, List.countP_append, hbalance]
  refine ⟨?_, ?_, nofun, ?_, ?_, ?_, ?_, (hl.always.snoc (e := .flushed) trivial).snoc hidle, ?_⟩
  · rw [hreceiveds]
    exact hl.numbers
  · rw [hsents, hreceiveds, hinit]
    exact hsublist.append (List.Sublist.refl _)
  · intro _ init' y hsplit
    rw [hreceiveds, hinit] at hsplit
    have hy : x = y := by simpa using List.append_inj_right' hsplit rfl
    rw [hsents, ← hy]
    exact Or.inl (by simp)
  · rw [hsents, List.length_append, hl.balance, hbusy]
    simp [List.countP_append, List.countP_cons, Entry.isFlush]
  · intro f
    simpa using hl.resolved f
  · simpa using hl.called
  · intro before n d after hsplit
    rcases split_snoc hsplit with ⟨_, heq, _⟩ | ⟨mid, rfl, hhistory⟩
    · cases heq
    · rcases split_snoc hhistory with ⟨_, heq, _⟩ | ⟨mid', rfl, hhistory'⟩
      · cases heq
      · -- The pending heartbeat is the one that is sent now.
        have hsettled : Settled v.pending before n d (mid' ++ [Entry.flushed]) :=
          (hl.accounted before n d mid' hhistory').snoc _ fun hp => Or.inr (Or.inl hp)
        refine hsettled.snoc _ ?_
        intro hp
        rw [hpending] at hp
        cases hp
        exact Or.inl (by simp)

/-- A send is flushed, and nothing else is to be sent. -/
theorem flush (hl : Logged h v) (hbusy : v.busy = 1) :
    Logged (h ++ [Entry.flushed]) { v with busy := 0 } := by
  have hsents : sents (h ++ [Entry.flushed]) = sents h := by
    simp [Entry.sentAs]
  have hreceiveds : receiveds (h ++ [Entry.flushed]) = receiveds h := by
    simp [Entry.receivedAs]
  refine ⟨?_, ?_, ?_, ?_, ?_, ?_, ?_, hl.always.snoc trivial, ?_⟩
  · rw [hreceiveds]
    exact hl.numbers
  · rw [hsents, hreceiveds]
    exact hl.sublist
  · rw [hsents, hreceiveds]
    exact hl.newest
  · intro hp init x hsplit
    rw [hreceiveds] at hsplit
    rw [hsents]
    simpa using hl.last hp init x hsplit
  · rw [hsents, hl.balance, hbusy]
    simp [List.countP_append, Entry.isFlush]
  · intro f
    simpa using hl.resolved f
  · simpa using hl.called
  · intro before n d after hsplit
    rcases split_snoc hsplit with ⟨_, heq, _⟩ | ⟨mid, rfl, hhistory⟩
    · cases heq
    · exact (hl.accounted before n d mid hhistory).snoc _ fun hp => Or.inr (Or.inl hp)

/-- The activity is resolved; a pending heartbeat is kept when it has to be flushed. -/
theorem completing (hl : Logged h v) (hresolved : v.resolved = none) (flushRequired : Bool) :
    Logged (h ++ [Entry.completing flushRequired])
      { v with
        pending := if flushRequired then v.pending else none
        resolved := some flushRequired } := by
  have hsents : sents (h ++ [Entry.completing flushRequired]) = sents h := by
    simp [Entry.sentAs]
  have hreceiveds : receiveds (h ++ [Entry.completing flushRequired]) = receiveds h := by
    simp [Entry.receivedAs]
  refine ⟨?_, ?_, ?_, ?_, ?_, ?_, ?_, hl.always.snoc trivial, ?_⟩
  · rw [hreceiveds]
    exact hl.numbers
  · rw [hsents, hreceiveds]
    exact hl.sublist
  · intro x hx
    rw [hsents, hreceiveds]
    cases flushRequired with
    | true => exact hl.newest x hx
    | false => cases hx
  · intro hp init x hsplit
    cases flushRequired with
    | true =>
      rw [hreceiveds] at hsplit
      rw [hsents]
      simpa using hl.last hp init x hsplit
    | false => exact Or.inr (Or.inl (by simp))
  · rw [hsents, hl.balance]
    simp [List.countP_append, Entry.isFlush]
  · intro f
    have hnone : Entry.completing f ∉ h := by
      intro hin
      have hsome := (hl.resolved f).1 hin
      rw [hresolved] at hsome
      cases hsome
    simp [hnone, eq_comm]
  · simpa using hl.called
  · intro before n d after hsplit
    rcases split_snoc hsplit with ⟨_, heq, _⟩ | ⟨mid, rfl, hhistory⟩
    · cases heq
    · refine (hl.accounted before n d mid hhistory).snoc _ ?_
      intro hp
      cases flushRequired with
      | true => exact Or.inr (Or.inl hp)
      | false => exact Or.inr (Or.inr (Or.inr (Or.inl (by simp))))

/-- The callback is invoked. -/
theorem callBack (hl : Logged h v) (hbusy : v.busy = 0) (hpending : v.pending = none)
    {flushRequired : Bool} (hresolved : v.resolved = some flushRequired) (hcalled : v.called = false) :
    Logged (h ++ [Entry.calledBack (callbackOf flushRequired)]) { v with called := true } := by
  have hsents : sents (h ++ [Entry.calledBack (callbackOf flushRequired)]) = sents h := by
    simp [Entry.sentAs]
  have hreceiveds : receiveds (h ++ [Entry.calledBack (callbackOf flushRequired)]) = receiveds h := by
    simp [Entry.receivedAs]
  have hproper : Proper h (.calledBack (callbackOf flushRequired)) := by
    refine ⟨?_, ?_, flushRequired, (hl.resolved _).2 hresolved, rfl, ?_⟩
    · rw [hl.outstanding_eq, hbusy]
      rfl
    · intro callback hin
      have htrue := hl.called.1 ⟨callback, hin⟩
      rw [hcalled] at htrue
      cases htrue
    · rintro rfl init x hsplit
      rcases hl.last hpending init x hsplit with hin | hin | htrue
      · exact hin
      · have hfalse := (hl.resolved false).1 hin
        rw [hresolved] at hfalse
        cases hfalse
      · rw [hcalled] at htrue
        cases htrue
  refine ⟨?_, ?_, ?_, fun _ _ _ _ => Or.inr (Or.inr rfl), ?_, ?_, ?_, hl.always.snoc hproper, ?_⟩
  · rw [hreceiveds]
    exact hl.numbers
  · rw [hsents, hreceiveds]
    exact hl.sublist
  · rw [hsents, hreceiveds]
    exact hl.newest
  · rw [hsents, hl.balance]
    simp [List.countP_append, Entry.isFlush]
  · intro f
    simpa using hl.resolved f
  · exact ⟨fun _ => rfl, fun _ => ⟨callbackOf flushRequired, by simp⟩⟩
  · intro before n d after hsplit
    rcases split_snoc hsplit with ⟨_, heq, _⟩ | ⟨mid, rfl, hhistory⟩
    · cases heq
    · exact (hl.accounted before n d mid hhistory).snoc _ fun hp => Or.inr (Or.inl hp)

/-- A heartbeat comes when the stream is closed. -/
theorem receiveClosed (hl : Logged h v) (hpending : v.pending = none) (hcalled : v.called = true)
    (d : D) : Logged (h ++ [Entry.received v.received d]) { v with received := v.received + 1 } := by
  have hsents : sents (h ++ [Entry.received v.received d]) = sents h := by
    simp [Entry.sentAs]
  have hreceiveds : receiveds (h ++ [Entry.received v.received d]) = receiveds h ++ [(v.received, d)] := by
    simp [Entry.receivedAs]
  refine ⟨?_, ?_, ?_, fun _ _ _ _ => Or.inr (Or.inr hcalled), ?_, ?_, ?_, hl.always.snoc trivial, ?_⟩
  · rw [hreceiveds, List.map_append, hl.numbers, List.range_succ]
    rfl
  · rw [hsents, hreceiveds]
    exact hl.sublist.trans (List.sublist_append_left _ _)
  · intro x hx
    rw [hpending] at hx
    cases hx
  · rw [hsents, List.countP_append]
    exact hl.balance
  · intro f
    simpa using hl.resolved f
  · simpa using hl.called
  · intro before n d' after hsplit
    rcases split_snoc hsplit with ⟨rfl, heq, rfl⟩ | ⟨mid, rfl, hhistory⟩
    · exact Or.inr (Or.inr (Or.inr (Or.inr (hl.called.2 hcalled))))
    · exact (hl.accounted before n d' mid hhistory).snoc _ fun hp => Or.inr (Or.inl hp)

end Logged

/-! ## Runs -/

/-- The activity has been created, and its stream is not closed. -/
structure Open (s : State D) (g : Group (Nat × D)) (resolved : Option Bool) : Prop where
  group : s.group = some g
  subscribed : g.subscribed = true
  opened : g.state.closed = false
  sending : g.sending = if g.state.processing then 1 else 0
  pending : g.state.pending ≠ none → g.state.processing = true
  callback : g.state.completionCallback = resolved.map callbackOf
  waiting : resolved ≠ none → g.state.processing = true
  phase : s.phase = if resolved.isSome then .resolved else .running
  logged : Logged s.history ⟨s.received, g.state.pending, g.sending, resolved, false⟩

/-- The stream is closed: what is still subscribed to has nothing to send. -/
structure Closed (s : State D) (flushRequired : Bool) : Prop where
  phase : s.phase = .resolved
  group : s.group = none ∨ ∃ g, s.group = some g ∧ g.subscribed = false ∧ g.sending = 0
  logged : Logged s.history ⟨s.received, none, 0, some flushRequired, true⟩

def Valid (s : State D) : Prop :=
  s = State.init ∨ (∃ g resolved, Open s g resolved) ∨ ∃ flushRequired, Closed s flushRequired

namespace State

theorem setGroup_subscribed (s : State D) (state : HeartbeatState (Nat × D)) {subscribed : Bool}
    (sending finishing : Nat) (hs : subscribed = true) :
    s.setGroup ⟨state, subscribed, sending, finishing⟩ =
      { s with group := some ⟨state, subscribed, sending, finishing⟩ } := by
  simp [setGroup, hs]

theorem setGroup_unsubscribed (s : State D) {g : Group (Nat × D)} (hg : g.subscribed = false)
    (hsending : g.sending = 0) : ∃ group, s.setGroup g = { s with group := group } ∧
      (group = none ∨ ∃ g, group = some g ∧ g.subscribed = false ∧ g.sending = 0) := by
  unfold setGroup
  split
  · exact ⟨none, rfl, Or.inl rfl⟩
  · exact ⟨some g, rfl, Or.inr ⟨g, rfl, hg, hsending⟩⟩

theorem next_group {s : State D} {g : Group (Nat × D)} (hg : s.group = some g)
    (hsubscribed : g.subscribed = true) (input : Input (Nat × D)) (hinput : input ≠ .create) :
    s.next input =
      s.emit { g with state := (mapInput g.state input).1 } (mapInput g.state input).2 := by
  unfold next
  simp only [hg, Option.getD_some, hsubscribed, if_true]

end State

namespace Open

variable {s : State D} {g : Group (Nat × D)} {resolved : Option Bool}

theorem pending_eq_none (h : Open s g resolved) (hp : g.state.processing = false) :
    g.state.pending = none := by
  cases hpending : g.state.pending with
  | none => rfl
  | some x =>
    have htrue := h.pending (by rw [hpending]; nofun)
    rw [hp] at htrue
    cases htrue

theorem heartbeat (h : Open s g resolved) (d : D) : Valid (step s (.heartbeat d)) := by
  have hphase : s.phase ≠ .started := by
    rw [h.phase]
    split <;> decide
  simp only [step, if_neg hphase]
  have hgroup : (State.log { s with received := s.received + 1 } (.received s.received d)).group =
      some g := h.group
  rw [State.next_group hgroup h.subscribed (.heartbeat (s.received, d)) nofun]
  refine Or.inr (Or.inl ?_)
  cases hp : g.state.processing with
  | true =>
    -- Kept as pending.
    have hmap : mapInput g.state (.heartbeat (s.received, d)) =
        ({ g.state with pending := some (s.received, d) }, none) := by
      simp only [mapInput, h.opened, Bool.false_eq_true, if_false, hp, if_true, storePending]
    rw [hmap]
    simp only [State.emit]
    rw [State.setGroup_subscribed _ _ _ _ h.subscribed]
    refine ⟨_, resolved, rfl, h.subscribed, h.opened, h.sending, fun _ => hp, h.callback, h.waiting,
      h.phase, ?_⟩
    refine h.logged.receivePending ?_ d
    simp [h.sending, hp]
  | false =>
    have hidle := h.pending_eq_none hp
    have hmap : mapInput g.state (.heartbeat (s.received, d)) =
        ({ g.state with processing := true, pending := none },
          some (.send (s.received, d))) := by
      simp only [mapInput, h.opened, Bool.false_eq_true, if_false, hp, process]
    rw [hmap]
    have hsending : g.sending = 0 := by
      rw [h.sending, hp]
      rfl
    simp only [State.emit, hsending]
    rw [State.setGroup_subscribed _ _ _ _ h.subscribed]
    refine ⟨_, resolved, rfl, h.subscribed, h.opened, rfl, fun _ => rfl, h.callback, fun _ => rfl,
      h.phase, ?_⟩
    have hlogged := h.logged.receiveSend hsending hidle d
    rw [hidle] at hlogged
    exact hlogged

theorem valid_close {s' : State D} {g : Group (Nat × D)} {flushRequired : Bool}
    (hphase : s'.phase = .resolved) (hsending : g.sending = 0)
    (hlogged : Logged s'.history ⟨s'.received, none, 0, some flushRequired, false⟩) :
    Valid (s'.emit { g with state := ⟨true, false, none, none⟩ }
      (some (.close (some (callbackOf flushRequired))))) := by
  refine Or.inr (Or.inr ⟨flushRequired, ?_⟩)
  simp only [State.emit]
  rcases State.setGroup_unsubscribed
    (State.log { s' with numHeartbeatingActivities := s'.numHeartbeatingActivities - 1 }
      (.calledBack (callbackOf flushRequired)))
    (g := { g with state := ⟨true, false, none, none⟩, subscribed := false }) rfl hsending with
    ⟨group, heq, hgroup⟩
  rw [heq]
  exact ⟨hphase, hgroup, hlogged.callBack rfl rfl rfl rfl⟩

theorem resolve (h : Open s g resolved) (failed : Bool) : Valid (step s (.resolve failed)) := by
  cases hresolved : resolved with
  | some f =>
    -- The activity was resolved before.
    have hphase : s.phase ≠ .running := by
      rw [h.phase, hresolved]
      nofun
    simp only [step, if_neg hphase]
    exact Or.inr (Or.inl ⟨g, resolved, h⟩)
  | none =>
    subst hresolved
    have hphase : s.phase = .running := h.phase
    simp only [step, if_pos hphase]
    have hgroup : (State.log { s with phase := .resolved } (.completing failed)).group = some g :=
      h.group
    rw [State.next_group hgroup h.subscribed (.completion failed (callbackOf failed)) nofun]
    have hlogged := h.logged.completing rfl failed
    cases hp : g.state.processing with
    | true =>
      have hmap : mapInput g.state (.completion failed (callbackOf failed)) =
          ({ g.state with
            pending := if failed then g.state.pending else none
            completionCallback := some (callbackOf failed) }, none) := by
        simp only [mapInput, h.opened, Bool.false_eq_true, if_false, hp, if_true]
      rw [hmap]
      simp only [State.emit]
      rw [State.setGroup_subscribed _ _ _ _ h.subscribed]
      exact Or.inr (Or.inl ⟨_, some failed, rfl, h.subscribed, h.opened, h.sending, fun _ => hp, rfl,
        fun _ => hp, rfl, hlogged⟩)
    | false =>
      have hidle := h.pending_eq_none hp
      have hmap : mapInput g.state (.completion failed (callbackOf failed)) =
          complete (callbackOf failed) := by
        cases failed with
        | true => simp only [mapInput, h.opened, Bool.false_eq_true, if_false, hp, Bool.not_true, hidle]
        | false => simp only [mapInput, h.opened, Bool.false_eq_true, if_false, hp, Bool.not_false,
            if_true]
      rw [hmap]
      have hsending : g.sending = 0 := by
        rw [h.sending, hp]
        rfl
      refine valid_close rfl hsending ?_
      have hflushed : (if failed then g.state.pending else none) = none := by
        rw [hidle]
        split <;> rfl
      simp only [hflushed, hsending] at hlogged
      exact hlogged

theorem flush (h : Open s g resolved) : Valid (step s .flush) := by
  simp only [step, h.group]
  split
  · exact Or.inr (Or.inl ⟨g, resolved, h⟩)
  · rename_i hne
    have hp : g.state.processing = true := by
      cases hp : g.state.processing with
      | true => rfl
      | false =>
        rw [h.sending, hp] at hne
        exact absurd rfl hne
    have hsending : g.sending = 1 := by
      rw [h.sending, hp]
      rfl
    have hgroup : (State.log { s with
        group := some { g with sending := g.sending - 1, finishing := g.finishing + 1 } }
          .flushed).group =
      some { g with sending := g.sending - 1, finishing := g.finishing + 1 } := rfl
    rw [State.next_group hgroup h.subscribed .flush nofun]
    simp only [hsending, Nat.sub_self]
    cases hpending : g.state.pending with
    | some x =>
      have hmap : mapInput g.state .flush =
          ({ g.state with processing := true, pending := none }, some (.send x)) := by
        simp only [mapInput, h.opened, Bool.false_eq_true, if_false, hpending, process]
      rw [hmap]
      simp only [State.emit]
      rw [State.setGroup_subscribed _ _ _ _ h.subscribed]
      refine Or.inr (Or.inl ⟨_, resolved, rfl, h.subscribed, h.opened, rfl, fun _ => rfl, h.callback,
        fun _ => rfl, h.phase, ?_⟩)
      have hlogged := h.logged.flushSend hsending hpending
      rw [hsending] at hlogged
      exact hlogged
    | none =>
      have hlogged := h.logged.flush hsending
      cases resolved with
      | some f =>
        have hcallback : g.state.completionCallback = some (callbackOf f) := h.callback
        have hmap : mapInput g.state .flush = complete (callbackOf f) := by
          simp only [mapInput, h.opened, Bool.false_eq_true, if_false, hpending, hcallback]
        rw [hmap]
        refine valid_close (g := { g with sending := 0, finishing := g.finishing + 1 }) h.phase rfl ?_
        rw [hpending] at hlogged
        exact hlogged
      | none =>
        have hcallback : g.state.completionCallback = none := h.callback
        have hmap : mapInput g.state .flush = ({ g.state with processing := false }, none) := by
          simp only [mapInput, h.opened, Bool.false_eq_true, if_false, hpending, hcallback]
        rw [hmap]
        simp only [State.emit]
        rw [State.setGroup_subscribed _ _ _ _ h.subscribed]
        refine Or.inr (Or.inl ⟨_, none, rfl, h.subscribed, h.opened, rfl, ?_, h.callback, ?_, h.phase,
          hlogged⟩)
        · intro hne
          exact absurd hpending hne
        · intro hne
          exact absurd rfl hne

theorem settle (h : Open s g resolved) : Valid (step s .settle) := by
  simp only [step, h.group]
  split
  · exact Or.inr (Or.inl ⟨g, resolved, h⟩)
  · rw [State.setGroup_subscribed _ _ _ _ h.subscribed]
    exact Or.inr (Or.inl ⟨_, resolved, rfl, h.subscribed, h.opened, h.sending, h.pending, h.callback,
      h.waiting, h.phase, h.logged⟩)

theorem run (h : Open s g resolved) : Valid (step s .run) := by
  have hphase : s.phase ≠ .started := by
    rw [h.phase]
    split <;> decide
  simp only [step, if_neg hphase]
  exact Or.inr (Or.inl ⟨g, resolved, h⟩)

end Open

namespace Closed

variable {s : State D} {flushRequired : Bool}

theorem heartbeat (h : Closed s flushRequired) (d : D) : Valid (step s (.heartbeat d)) := by
  have hphase : s.phase ≠ .started := by
    rw [h.phase]
    decide
  have hlogged := h.logged.receiveClosed rfl rfl d
  simp only [step, if_neg hphase]
  refine Or.inr (Or.inr ⟨flushRequired, ?_⟩)
  rcases h.group with hgroup | ⟨g, hgroup, hunsubscribed, hsending⟩
  · -- A new group, which is closed at once.
    simp only [State.next, State.log, hgroup, Option.getD_none, Group.initial, if_true, mapInput,
      State.emit, State.setGroup]
    exact ⟨h.phase, Or.inl rfl, hlogged⟩
  · simp only [State.next, State.log, hgroup, Option.getD_some, hunsubscribed, Bool.false_eq_true,
      if_false]
    exact ⟨h.phase, Or.inr ⟨g, rfl, hunsubscribed, hsending⟩, hlogged⟩

theorem settle (h : Closed s flushRequired) : Valid (step s .settle) := by
  refine Or.inr (Or.inr ⟨flushRequired, ?_⟩)
  rcases h.group with hgroup | ⟨g, hgroup, hunsubscribed, hsending⟩
  · simp only [step, hgroup]
    exact h
  · simp only [step, hgroup]
    split
    · exact h
    · rcases State.setGroup_unsubscribed s (g := { g with finishing := g.finishing - 1 }) hunsubscribed
        hsending with ⟨group, heq, hgroup'⟩
      rw [heq]
      exact ⟨h.phase, hgroup', h.logged⟩

theorem flush (h : Closed s flushRequired) : Valid (step s .flush) := by
  refine Or.inr (Or.inr ⟨flushRequired, ?_⟩)
  rcases h.group with hgroup | ⟨g, hgroup, _, hsending⟩
  · simp only [step, hgroup]
    exact h
  · simp only [step, hgroup, hsending, if_true]
    exact h

end Closed

theorem valid_step {s : State D} (h : Valid s) (e : Event D) : Valid (step s e) := by
  rcases h with rfl | ⟨g, resolved, h⟩ | ⟨f, h⟩
  · cases e with
    | run =>
      refine Or.inr (Or.inl ⟨⟨⟨false, false, none, none⟩, true, 0, 0⟩, none, ?_⟩)
      exact ⟨rfl, rfl, rfl, rfl, nofun, rfl, fun h => absurd rfl h, rfl, Logged.nil⟩
    | heartbeat | resolve | flush | settle => exact Or.inl rfl
  · cases e with
    | run => exact h.run
    | heartbeat d => exact h.heartbeat d
    | resolve failed => exact h.resolve failed
    | flush => exact h.flush
    | settle => exact h.settle
  · cases e with
    | run | resolve =>
      simp only [step, h.phase]
      exact Or.inr (Or.inr ⟨f, h⟩)
    | heartbeat d => exact h.heartbeat d
    | flush => exact h.flush
    | settle => exact h.settle

theorem valid_run (es : List (Event D)) : Valid (run step (State.init : State D) es) := by
  have hinit : Valid (State.init : State D) := Or.inl rfl
  have hstep : ∀ (s : State D) (e : Event D), True → Valid s → Valid (step s e) :=
    fun _ e _ h => valid_step h e
  exact run_invariant hstep hinit (guarded_true _ _ es)

/-- The heartbeat that is kept while another one is sent. -/
def State.pending (s : State D) : Option (Nat × D) := s.group.bind fun g => g.state.pending

/-- The callbacks that were invoked. -/
def Entry.callback : Entry D → Option Callback
  | .calledBack callback => some callback
  | _ => none

def callbacks (h : List (Entry D)) : List Callback := h.filterMap Entry.callback

/-- The history is related to some view of the stream. -/
theorem Valid.logged {s : State D} (h : Valid s) : ∃ v, Logged s.history v ∧ v.busy ≤ 1 ∧
    (v.pending = none ∨ v.pending = s.pending) ∧
    (s.phase = .resolved → v.busy = 0 → v.called = true) := by
  rcases h with rfl | ⟨g, resolved, h⟩ | ⟨f, h⟩
  · exact ⟨_, Logged.nil, Nat.zero_le 1, Or.inl rfl, nofun⟩
  · refine ⟨_, h.logged, ?_, Or.inr ?_, ?_⟩
    · simp only [h.sending]
      split
      · exact Nat.le_refl 1
      · exact Nat.zero_le 1
    · simp only [State.pending, h.group, Option.bind_some]
    · intro hphase hidle
      -- A completion is held back only while a send is outstanding.
      rw [h.phase] at hphase
      cases resolved with
      | none => cases hphase
      | some f =>
        have hidle : g.sending = 0 := hidle
        rw [h.sending, h.waiting nofun] at hidle
        cases hidle
  · exact ⟨_, h.logged, Nat.zero_le 1, Or.inl rfl, fun _ _ => rfl⟩

theorem callbacks_length_le {h : List (Entry D)} (hproper : Always Proper h) :
    (callbacks h).length ≤ 1 := by
  induction h using List.reverseRecOn with
  | nil => exact Nat.zero_le 1
  | append_singleton h e ih =>
    have hinit : Always Proper h := by
      intro before e' after hsplit
      refine hproper before e' (after ++ [e]) ?_
      rw [hsplit]
      simp
    unfold callbacks at ih ⊢
    rw [List.filterMap_append]
    cases e with
    | calledBack callback =>
      have hnone := (hproper h (.calledBack callback) [] rfl).2.1
      have hempty : h.filterMap Entry.callback = [] := by
        refine List.filterMap_eq_nil_iff.2 ?_
        intro e he
        cases e with
        | calledBack callback' => exact absurd he (hnone callback')
        | _ => rfl
      rw [hempty]
      exact Nat.le_refl 1
    | _ => simpa [List.filterMap_cons, Entry.callback] using ih hinit

/-- In every run of the stream: a send is only made when none is outstanding; the sends are heartbeats, in their
order; a heartbeat that is neither sent nor pending was superseded while a send was outstanding, or the
completion did not require a flush, or the stream was closed; the callback of the completion is invoked
at most once, when no send is outstanding, and has been when the activity is resolved and no send is; and
when a flush is required, the last heartbeat received before the callback has been sent before it. -/
theorem heartbeats_flushed_before_callback (es : List (Event D)) (s : State D)
    (hs : s = run step State.init es) :
    (0 ≤ outstanding s.history ∧ outstanding s.history ≤ 1) ∧
    (∀ before n d after, s.history = before ++ Entry.sent n d :: after → outstanding before = 0) ∧
    ((sents s.history).Sublist (receiveds s.history) ∧ ((receiveds s.history).map Prod.fst).Nodup) ∧
    (∀ before n d after, s.history = before ++ Entry.received n d :: after → .sent n d ∉ after →
      s.pending ≠ some (n, d) → Superseded before n d after ∨ .completing false ∈ after ∨
        ∃ callback, .calledBack callback ∈ before) ∧
    (callbacks s.history).length ≤ 1 ∧
    (s.phase = .resolved → outstanding s.history = 0 → (callbacks s.history).length = 1) ∧
    ∀ before callback after, s.history = before ++ Entry.calledBack callback :: after →
      outstanding before = 0 ∧ ∃ flushRequired, .completing flushRequired ∈ before ∧
        callback = callbackOf flushRequired ∧
        (flushRequired = true → ∀ init x, receiveds before = init ++ [x] → x ∈ sents before) := by
  have hvalid : Valid s := hs ▸ valid_run es
  rcases hvalid.logged with ⟨v, h, hbusy, hpending, hcalled⟩
  have honce := callbacks_length_le h.always
  refine ⟨?_, ?_, ⟨h.sublist, ?_⟩, ?_, honce, ?_, ?_⟩
  · rw [h.outstanding_eq]
    omega
  · intro before n d after hsplit
    exact h.always before (.sent n d) after hsplit
  · rw [h.numbers]
    exact List.nodup_range
  · intro before n d after hsplit hsent hnot
    rcases h.accounted before n d after hsplit with hin | hpend | hrest
    · exact absurd hin hsent
    · rcases hpending with hnone | hsame
      · rw [hnone] at hpend
        cases hpend
      · exact absurd (hsame.symm.trans hpend) hnot
    · exact hrest
  · intro hphase hidle
    rw [h.outstanding_eq] at hidle
    rcases h.called.2 (hcalled hphase (Int.natCast_eq_zero.1 hidle)) with ⟨callback, hin⟩
    have hmem : callback ∈ callbacks s.history := List.mem_filterMap.2 ⟨_, hin, rfl⟩
    exact Nat.le_antisymm honce (List.length_pos_of_mem hmem)
  · intro before callback after hsplit
    have hproper := h.always before (.calledBack callback) after hsplit
    exact ⟨hproper.1, hproper.2.2⟩

/-- Two heartbeats while one is sent, and then the activity fails. -/
def failsWhileSending : List (Event String) :=
  [.run, .heartbeat "a", .heartbeat "b", .heartbeat "c", .resolve true, .flush, .settle, .flush, .settle]

theorem failsWhileSending_flushes :
    (run step State.init failsWhileSending).history =
      [Entry.received 0 "a", .sent 0 "a", .received 1 "b", .received 2 "c", .completing true, .flushed,
        .sent 2 "c", .flushed, .calledBack .resolve] ∧
    outstanding (run step State.init failsWhileSending).history ≤ 1 ∧
    (callbacks (run step State.init failsWhileSending).history).length = 1 ∧
    (2, "c") ∈ sents [Entry.received 0 "a", .sent 0 "a", .received 1 "b", .received 2 "c", .completing true,
      .flushed, .sent 2 "c", .flushed] := by
  have hhistory : (run step State.init failsWhileSending).history =
      [Entry.received 0 "a", .sent 0 "a", .received 1 "b", .received 2 "c", .completing true, .flushed,
        .sent 2 "c", .flushed, .calledBack .resolve] := by decide +kernel
  rcases heartbeats_flushed_before_callback failsWhileSending _ rfl with
    ⟨⟨_, hone⟩, _, _, _, _, honce, hlast⟩
  rcases hlast [Entry.received 0 "a", .sent 0 "a", .received 1 "b", .received 2 "c", .completing true,
    .flushed, .sent 2 "c", .flushed] .resolve [] hhistory with ⟨_, flushRequired, hin, hcallback, hflushed⟩
  have htrue : flushRequired = true := by
    cases flushRequired with
    | true => rfl
    | false => cases hcallback
  refine ⟨hhistory, hone, honce (by decide +kernel) (by rw [hhistory]; decide), ?_⟩
  exact hflushed htrue [(0, "a"), (1, "b")] (2, "c") rfl

/-- The activity heartbeats once more, after it has failed and before its last heartbeat is flushed. -/
def heartbeatsAfterFailing : List (Event String) :=
  [.run, .heartbeat "a", .heartbeat "b", .resolve true, .heartbeat "c", .flush, .flush, .heartbeat "d"]

/-- The last heartbeat before the completion is then not sent, and a heartbeat that comes when the callback has
been invoked is dropped although a flush was required. -/
theorem heartbeatsAfterFailing_dropped :
    (¬ ∀ before mid after callback init x,
      (run step State.init heartbeatsAfterFailing).history =
        before ++ Entry.completing true :: mid ++ Entry.calledBack callback :: after →
      receiveds before = init ++ [x] → x ∈ sents (before ++ Entry.completing true :: mid)) ∧
    ¬ ∀ before n d after,
      (run step State.init heartbeatsAfterFailing).history = before ++ Entry.received n d :: after →
      .sent n d ∉ after → (run step State.init heartbeatsAfterFailing).pending ≠ some (n, d) →
      Superseded before n d after ∨ .completing false ∈ after := by
  have hhistory : (run step State.init heartbeatsAfterFailing).history =
      [Entry.received 0 "a", .sent 0 "a", .received 1 "b", .completing true, .received 2 "c", .flushed,
        .sent 2 "c", .flushed, .calledBack .resolve, .received 3 "d"] := by decide +kernel
  constructor
  · intro h
    have hin := h [Entry.received 0 "a", .sent 0 "a", .received 1 "b"]
      [Entry.received 2 "c", .flushed, .sent 2 "c", .flushed] [Entry.received 3 "d"] .resolve [(0, "a")] (1, "b")
      hhistory rfl
    revert hin
    decide
  · intro h
    have hpending : (run step State.init heartbeatsAfterFailing).pending ≠ some (3, "d") := by
      decide +kernel
    rcases h [Entry.received 0 "a", .sent 0 "a", .received 1 "b", .completing true, .received 2 "c", .flushed,
        .sent 2 "c", .flushed, .calledBack .resolve] 3 "d" [] hhistory (by simp) hpending with
      ⟨mid, m, d, rest, hsplit, _⟩ | hin
    · cases mid <;> cases hsplit
    · cases hin

end Heartbeats
end TemporalSdk.Worker
