import Mathlib.Data.List.Nodup
import TemporalSdk.Activation.Buffering
import TemporalSdk.Activation.Moves
import TemporalSdk.Machine.History

/-!
# Responses — the protocol of updates

The responses to one update are `rejected`, or `accepted` and then possibly `completed` or `rejected`.
A call of a handler settles once, and what it settles with is one *ticket*: a queued reaction that
gives the second response or fails the workflow.  While code of the call can still settle it, there
is no ticket and the only response is `accepted`.
-/

namespace TemporalSdk.Activation

open Machine

variable {σ : Type} {cfg : Config σ} {s t : Vm σ}

/-! ## Responses in the history -/

inductive ResponseKind
  | accepted
  | completed
  | rejected
  deriving DecidableEq

def UpdateResponse.kind : UpdateResponse → ResponseKind
  | .accepted => .accepted
  | .completed _ => .completed
  | .rejected _ => .rejected

/-- The response that a note gives to `pid`. -/
def Note.response (pid : String) : Note → Option ResponseKind
  | .pushed _ (.updateResponse pid' r) => if pid' = pid then some r.kind else none
  | _ => none

def responses (pid : String) (trace : List Note) : List ResponseKind :=
  trace.filterMap (Note.response pid)

def protocolWords : List (List ResponseKind) :=
  [[ResponseKind.rejected], [ResponseKind.accepted, .completed], [ResponseKind.accepted, .rejected]]

def FollowsProtocol (responses : List ResponseKind) : Prop :=
  ∃ word ∈ protocolWords, responses <+: word

def Origin.caller : Origin → Option Caller
  | .code c | .returned c | .thrown c _ => some c
  | _ => none

/-- The argument object that a note is about. -/
def Note.object : Note → Option Nat
  | .validated _ o | .updateHanded _ _ o => some o
  | _ => none

/-- The order that the protocol asks for, entry by entry: commands of a handler come after
`accepted`; a handler does not get an object that a validator saw; an activation succeeds when every
update that has arrived has a response. -/
def Ordered (before : List Note) : Note → Prop
  | .pushed origin _ =>
    ∀ num pid, origin.caller = some (.update num pid) → .accepted ∈ responses pid before
  | .updateHanded u _ o =>
    .accepted ∈ responses u.protocolInstanceId before ∧ ∀ u', .validated u' o ∉ before
  | .validated _ o => ∀ u num, .updateHanded u num o ∉ before
  | .completed (.successful _) =>
    ∀ u ∈ updatesArrived before, responses u.protocolInstanceId before ≠ []
  | _ => True

variable {pid : String}

theorem responses_append {trace notes : List Note} (h : ∀ n ∈ notes, n.response pid = none) :
    responses pid (trace ++ notes) = responses pid trace := by
  have hnil : notes.filterMap (Note.response pid) = [] := List.filterMap_eq_nil_iff.2 h
  simp [responses, hnil]

theorem Note.response_of_isPlain {n : Note} (h : n.isPlain = true) (pid : String) :
    n.response pid = none := by
  unfold Note.isPlain at h
  split at h <;> simp_all [Note.response]

theorem Note.object_of_isPlain {n : Note} (h : n.isPlain = true) : n.object = none := by
  unfold Note.isPlain at h
  split at h <;> simp_all [Note.object]

theorem ordered_of_isPlain {n : Note} (h : n.isPlain = true) (before : List Note) :
    Ordered before n := by
  unfold Note.isPlain at h
  split at h <;> simp_all [Ordered]

/-! ## The invariant -/

/-- The update for which a reaction will give the second response. -/
def Microtask.ticket : Microtask σ → Option String
  | .settled (.update _ pid) _ => some pid
  | .caught _ pid _ => some pid
  | _ => none

def Vm.tickets (s : Vm σ) (pid : String) : Nat :=
  s.reactions.countP fun m => m.ticket == some pid

/-- Where the conversation about `pid` is. -/
structure Turn (s : Vm σ) (pid : String) : Prop where
  word : FollowsProtocol (responses pid s.trace)
  mentioned : ∀ num, s.Mentions (.update num pid) → .accepted ∈ responses pid s.trace
  single : ∀ num num', s.Mentions (.update num pid) → s.Mentions (.update num' pid) → num = num'
  unsettled : ∀ num, s.Mentions (.update num pid) → .update num pid ∉ s.settledCalls →
    responses pid s.trace = [ResponseKind.accepted] ∧ s.tickets pid = 0
  ticket : s.tickets pid ≤ 1 ∧ (s.tickets pid = 1 → responses pid s.trace = [ResponseKind.accepted])

structure Responding (s : Vm σ) : Prop where
  turn : ∀ pid, Turn s pid
  answered : ∀ pid, responses pid s.trace ≠ [] →
    ∃ u ∈ updatesAnswered s.trace, u.protocolInstanceId = pid
  answers : ∀ u ∈ updatesAnswered s.trace, responses u.protocolInstanceId s.trace ≠ []
  ordered : Always Ordered s.trace
  objects : ∀ n ∈ s.trace, ∀ o, n.object = some o → o < s.nextObject

theorem followsProtocol_nil : FollowsProtocol [] := ⟨[ResponseKind.rejected], by simp [protocolWords], by simp⟩

theorem responding_init (heap : σ) : Responding (Vm.init heap) := by
  refine ⟨?_, ?_, ?_, always_nil, ?_⟩
  · intro pid
    have hnone : ∀ c, ¬ (Vm.init heap).Mentions c := by
      rintro c (⟨f, hf, _⟩ | ⟨code, hcode⟩ | ⟨p, callback, hcb⟩)
      · simp [Vm.init] at hf
      · simp [Vm.init] at hcode
      · simp [Vm.init] at hcb
    refine ⟨followsProtocol_nil, ?_, ?_, ?_, ?_⟩
    · intro num h
      exact absurd h (hnone _)
    · intro num num' h
      exact absurd h (hnone _)
    · intro num h
      exact absurd h (hnone _)
    · simp [Vm.tickets, Vm.reactions, Vm.init]
  · intro pid h
    exact absurd rfl h
  · intro u hu
    cases hu
  · intro n hn
    cases hn

theorem Turn.congr (h : Turn s pid) (hresponses : responses pid t.trace = responses pid s.trace)
    (hmentions : ∀ num, t.Mentions (.update num pid) → s.Mentions (.update num pid))
    (htickets : t.tickets pid = s.tickets pid)
    (hsettled : ∀ num, .update num pid ∈ s.settledCalls → .update num pid ∈ t.settledCalls) :
    Turn t pid := by
  refine ⟨?_, ?_, ?_, ?_, ?_⟩
  · rw [hresponses]
    exact h.word
  · intro num hm
    rw [hresponses]
    exact h.mentioned num (hmentions num hm)
  · intro num num' hm hm'
    exact h.single num num' (hmentions num hm) (hmentions num' hm')
  · intro num hm hopen
    rw [hresponses, htickets]
    exact h.unsettled num (hmentions num hm) fun hin => hopen (hsettled num hin)
  · rw [hresponses, htickets]
    exact h.ticket

namespace Responding

/-- A step that concerns the conversation about `p` only. -/
theorem extendOne (h : Responding s) (p : String) (notes : List Note)
    (htrace : t.trace = s.trace ++ notes)
    (hothers : ∀ pid, pid ≠ p → ∀ n ∈ notes, n.response pid = none) (hturn : Turn t p)
    (hmentions : ∀ num pid, pid ≠ p → t.Mentions (.update num pid) → s.Mentions (.update num pid))
    (htickets : ∀ pid, pid ≠ p → t.tickets pid = s.tickets pid)
    (hsettled : ∀ c ∈ s.settledCalls, c ∈ t.settledCalls)
    (hanswered : responses p t.trace ≠ [] →
      ∃ u ∈ updatesAnswered t.trace, u.protocolInstanceId = p)
    (hanswers : ∀ n ∈ notes, ∀ u, n.answeredUpdate = some u →
      responses u.protocolInstanceId t.trace ≠ [])
    (hordered : Always Ordered t.trace)
    (hobjects : ∀ n ∈ notes, ∀ o, n.object = some o → o < t.nextObject)
    (hnext : s.nextObject ≤ t.nextObject) : Responding t := by
  have hsame : ∀ pid, pid ≠ p → responses pid t.trace = responses pid s.trace := by
    intro pid hpid
    rw [htrace]
    exact responses_append (hothers pid hpid)
  refine ⟨?_, ?_, ?_, hordered, ?_⟩
  · intro pid
    by_cases hpid : pid = p
    · rw [hpid]
      exact hturn
    · exact (h.turn pid).congr (hsame pid hpid) (fun num => hmentions num pid hpid)
        (htickets pid hpid) fun num => hsettled _
  · intro pid hne
    by_cases hpid : pid = p
    · rw [hpid] at hne ⊢
      exact hanswered hne
    · rw [hsame pid hpid] at hne
      rcases h.answered pid hne with ⟨u, hu, hup⟩
      refine ⟨u, ?_, hup⟩
      rw [htrace, updatesAnswered, List.filterMap_append]
      exact List.mem_append_left _ hu
  · intro u hu
    rw [htrace, updatesAnswered, List.filterMap_append] at hu
    rcases List.mem_append.1 hu with hu | hu
    · have hold := h.answers u hu
      rw [htrace, responses, List.filterMap_append]
      intro hnil
      exact hold (List.append_eq_nil_iff.1 hnil).1
    · rcases List.mem_filterMap.1 hu with ⟨n, hn, hnu⟩
      exact hanswers n hn u hnu
  · intro n hn o ho
    rw [htrace] at hn
    rcases List.mem_append.1 hn with hn | hn
    · exact Nat.lt_of_lt_of_le (h.objects n hn o ho) hnext
    · exact hobjects n hn o ho

/-- A step that responds to no update and settles no call of an update. -/
theorem extend (h : Responding s) (notes : List Note) (htrace : t.trace = s.trace ++ notes)
    (hresponses : ∀ n ∈ notes, ∀ pid, n.response pid = none)
    (hanswers : ∀ n ∈ notes, n.answeredUpdate = none)
    (hordered : Always Ordered t.trace)
    (hobjects : ∀ n ∈ notes, ∀ o, n.object = some o → o < t.nextObject)
    (hnext : s.nextObject ≤ t.nextObject)
    (hmentions : ∀ num pid, t.Mentions (.update num pid) → s.Mentions (.update num pid))
    (htickets : ∀ pid, t.tickets pid = s.tickets pid)
    (hsettled : ∀ c ∈ s.settledCalls, c ∈ t.settledCalls) : Responding t := by
  have hsame : ∀ pid, responses pid t.trace = responses pid s.trace := by
    intro pid
    rw [htrace]
    exact responses_append fun n hn => hresponses n hn pid
  have hturn : ∀ pid, Turn t pid := fun pid =>
    (h.turn pid).congr (hsame pid) (fun num => hmentions num pid) (htickets pid)
      fun num => hsettled _
  refine h.extendOne "" notes htrace (fun pid _ n hn => hresponses n hn pid) (hturn _)
    (fun num pid _ => hmentions num pid) (fun pid _ => htickets pid) hsettled ?_ ?_ hordered hobjects
    hnext
  · intro hne
    rw [hsame] at hne
    rcases h.answered _ hne with ⟨u, hu, hup⟩
    refine ⟨u, ?_, hup⟩
    rw [htrace, updatesAnswered, List.filterMap_append]
    exact List.mem_append_left _ hu
  · intro n hn u hu
    rw [hanswers n hn] at hu
    cases hu

theorem Note.answeredUpdate_of_isPlain {n : Note} (h : n.isPlain = true) :
    n.answeredUpdate = none := by
  unfold Note.isPlain at h
  split at h <;> simp_all [Note.answeredUpdate]

theorem of_quiet (h : Responding s) (hq : Quiet s t) : Responding t := by
  rcases hq.trace with ⟨notes, htrace, hnotes⟩
  refine h.extend notes htrace ?_ ?_ ?_ ?_ ?_ hq.mentions ?_ ?_
  · intro n hn pid
    exact Note.response_of_isPlain (hnotes n hn) pid
  · intro n hn
    exact Note.answeredUpdate_of_isPlain (hnotes n hn)
  · rw [htrace]
    exact h.ordered.append fun n hn l => ordered_of_isPlain (hnotes n hn) l
  · intro n hn o ho
    rw [Note.object_of_isPlain (hnotes n hn)] at ho
    cases ho
  · exact Nat.le_of_eq (congrArg Core.nextObject hq.core).symm
  · intro pid
    have hreactions : t.reactions = s.reactions := congrArg Core.reactions hq.core
    simp [Vm.tickets, hreactions]
  · intro c hc
    have hsettled : t.settledCalls = s.settledCalls := congrArg Core.settledCalls hq.core
    rw [hsettled]
    exact hc

/-- A command that is no response. -/
theorem pushCommand (h : Responding s) {origin : Origin} {command : Command}
    (hcommand : ∀ pid r, command ≠ .updateResponse pid r)
    (horigin : ∀ num pid, origin.caller = some (.update num pid) →
      .accepted ∈ responses pid s.trace) : Responding (s.pushCommand origin command) := by
  refine h.extend [Note.pushed origin command] rfl ?_ ?_ ?_ ?_ (Nat.le_refl _)
    (fun _ _ hm => hm) (fun _ => rfl) (fun _ hc => hc)
  · intro n hn pid
    have hn : n = .pushed origin command := by simpa using hn
    rw [hn]
    cases command with
    | updateResponse pid' r => exact absurd rfl (hcommand pid' r)
    | _ => rfl
  · intro n hn
    have hn : n = .pushed origin command := by simpa using hn
    rw [hn]
    cases command with
    | updateResponse pid' r => exact absurd rfl (hcommand pid' r)
    | _ => cases origin <;> rfl
  · exact h.ordered.snoc horigin
  · intro n hn o ho
    have hn : n = .pushed origin command := by simpa using hn
    rw [hn] at ho
    cases ho

theorem leaveRejected (h : Responding s) (reason : JsValue) : Responding (s.leaveRejected reason) :=
  h.extend [] (by simp [Vm.leaveRejected]) (by simp) (by simp) h.ordered (by simp)
    (Nat.le_refl _) (fun _ _ hm => hm) (fun _ => rfl) (fun _ hc => hc)

/-! ## Settling a call -/

theorem trace_settleCall (s : Vm σ) (c : Caller) (o : Outcome) :
    ∃ notes, (s.settleCall c o).trace = s.trace ++ notes ∧ ∀ n ∈ notes, ∃ v, n = .thrown c v := by
  unfold Vm.settleCall
  split
  · exact ⟨[], by simp, by simp⟩
  · cases o with
    | ok v => exact ⟨[], rfl, by simp⟩
    | error v => exact ⟨[Note.thrown c v], rfl, by simp⟩

theorem mentions_settleCall {c c' : Caller} {o : Outcome} (h : (s.settleCall c o).Mentions c') :
    s.Mentions c' := by
  by_cases hopen : c ∈ s.settledCalls
  · simpa [Vm.settleCall, hopen] using h
  · rcases h with hstack | ⟨code, hcode⟩ | hcb
    · exact Or.inl (by simpa [Vm.settleCall, hopen] using hstack)
    · exact Or.inr (Or.inl ⟨code, by simpa [Vm.settleCall, hopen] using hcode⟩)
    · exact Or.inr (Or.inr (by simpa [Vm.settleCall, hopen] using hcb))

theorem tickets_snoc {m : Microtask σ} (hm : t.microtasks = s.microtasks ++ [m])
    (hreaction : m.isReaction = true) (pid : String) :
    t.tickets pid = s.tickets pid + if m.ticket = some pid then 1 else 0 := by
  have hreactions : t.reactions = s.reactions ++ [m] := by
    simp [Vm.reactions, hm, hreaction]
  simp only [Vm.tickets, hreactions, List.countP_append]
  by_cases h : m.ticket = some pid <;> simp [h]

/-- The call of an update settles while its only response is `accepted`, and no other call for the
update can. -/
theorem settleCall (h : Responding s) {c : Caller} (o : Outcome)
    (hc : ∀ num pid, c = .update num pid → c ∉ s.settledCalls →
      responses pid s.trace = [ResponseKind.accepted] ∧ s.tickets pid = 0)
    (hsingle : ∀ num pid, c = .update num pid → ∀ num', s.Mentions (.update num' pid) →
      num' = num) : Responding (s.settleCall c o) := by
  by_cases hopen : c ∈ s.settledCalls
  · have heq : s.settleCall c o = s := by simp [Vm.settleCall, hopen]
    rw [heq]
    exact h
  · rcases trace_settleCall s c o with ⟨notes, htrace, hnotes⟩
    have htickets := tickets_snoc (s := s) (t := s.settleCall c o) (m := .settled c o)
      (by simp [Vm.settleCall, hopen]) rfl
    have hsettled : (s.settleCall c o).settledCalls = s.settledCalls ++ [c] := by
      simp [Vm.settleCall, hopen]
    have hnext : (s.settleCall c o).nextObject = s.nextObject := by simp [Vm.settleCall, hopen]
    have hordered : Always Ordered (s.settleCall c o).trace := by
      rw [htrace]
      refine h.ordered.append ?_
      intro n hn l
      rcases hnotes n hn with ⟨v, rfl⟩
      trivial
    have hresponse : ∀ n ∈ notes, ∀ pid, n.response pid = none := by
      intro n hn pid
      rcases hnotes n hn with ⟨v, rfl⟩
      rfl
    have hanswer : ∀ n ∈ notes, n.answeredUpdate = none := by
      intro n hn
      rcases hnotes n hn with ⟨v, rfl⟩
      rfl
    have hobject : ∀ n ∈ notes, ∀ k, n.object = some k → k < (s.settleCall c o).nextObject := by
      intro n hn k hk
      rcases hnotes n hn with ⟨v, rfl⟩
      cases hk
    have hin : ∀ c' ∈ s.settledCalls, c' ∈ (s.settleCall c o).settledCalls := by
      intro c' hc'
      rw [hsettled]
      exact List.mem_append_left _ hc'
    cases c with
    | workflow num | signal num =>
      exact h.extend notes htrace hresponse hanswer hordered hobject (Nat.le_of_eq hnext.symm)
        (fun num pid => mentions_settleCall) (fun pid => by simp [htickets, Microtask.ticket]) hin
    | update num pid =>
      rcases hc num pid rfl hopen with ⟨hresponses, hzero⟩
      have hsame : responses pid (s.settleCall (.update num pid) o).trace = [ResponseKind.accepted] := by
        rw [htrace, responses_append fun n hn => hresponse n hn pid]
        exact hresponses
      refine h.extendOne pid notes htrace (fun pid' _ n hn => hresponse n hn pid') ?_
        (fun num pid' _ => mentions_settleCall) ?_ hin ?_ ?_ hordered hobject
        (Nat.le_of_eq hnext.symm)
      · refine ⟨?_, ?_, ?_, ?_, ?_⟩
        · rw [hsame]
          exact ⟨[ResponseKind.accepted, .completed], by simp [protocolWords], by simp⟩
        · intro num' _
          simp [hsame]
        · intro num₁ num₂ h₁ h₂
          exact (h.turn pid).single _ _ (mentions_settleCall h₁) (mentions_settleCall h₂)
        · intro num' hm hopen'
          have hnum := hsingle num pid rfl num' (mentions_settleCall hm)
          refine absurd ?_ hopen'
          rw [hsettled, hnum]
          simp
        · rw [htickets pid, hzero, hsame]
          simp [Microtask.ticket]
      · intro pid' hne
        have hne' : ¬ pid = pid' := fun heq => hne heq.symm
        simp [htickets, Microtask.ticket, hne']
      · intro _
        rcases h.answered pid (by simp [hresponses]) with ⟨u, hu, hup⟩
        refine ⟨u, ?_, hup⟩
        rw [htrace, updatesAnswered, List.filterMap_append]
        exact List.mem_append_left _ hu
      · intro n hn u hu
        rw [hanswer n hn] at hu
        cases hu

theorem settle (h : Responding s) {c : Caller} (o : Outcome) (hc : s.Mentions c)
    (hq : Quiet s t) : Responding (t.settleCall c o) := by
  have ht := h.of_quiet hq
  have hsettled : t.settledCalls = s.settledCalls := congrArg Core.settledCalls hq.core
  have htickets : ∀ pid, t.tickets pid = s.tickets pid := by
    intro pid
    have hreactions : t.reactions = s.reactions := congrArg Core.reactions hq.core
    simp [Vm.tickets, hreactions]
  have hresponses : ∀ pid, responses pid t.trace = responses pid s.trace := by
    intro pid
    rcases hq.trace with ⟨notes, htrace, hnotes⟩
    rw [htrace]
    exact responses_append fun n hn => Note.response_of_isPlain (hnotes n hn) pid
  refine ht.settleCall o ?_ ?_
  · rintro num pid rfl hopen
    rw [hsettled] at hopen
    rw [hresponses, htickets]
    exact (h.turn pid).unsettled num hc hopen
  · rintro num pid rfl num' hmention
    exact (h.turn pid).single _ _ (hq.mentions num' pid hmention) hc

/-! ## Reactions -/

end Responding

/-- The ticket of `pid` has been taken and its second response is due. -/
structure Due (s : Vm σ) (pid : String) : Prop where
  accepted : responses pid s.trace = [ResponseKind.accepted]
  taken : s.tickets pid = 0
  settled : ∀ num, s.Mentions (.update num pid) → .update num pid ∈ s.settledCalls

namespace Responding

variable {microtasks : List (Microtask σ)} {m : Microtask σ}

theorem tickets_cons
    (hm : s.microtasks = m :: microtasks) (hreaction : m.isReaction = true) (pid : String) :
    s.tickets pid = ({ s with microtasks := microtasks } : Vm σ).tickets pid +
      if m.ticket = some pid then 1 else 0 := by
  simp only [Vm.tickets, Vm.reactions, hm, List.filter_cons, hreaction, if_true, List.countP_cons]
  by_cases h : m.ticket = some pid <;> simp [h]

theorem mentions_pop (hm : s.microtasks = m :: microtasks) {c : Caller}
    (h : ({ s with microtasks := microtasks } : Vm σ).Mentions c) : s.Mentions c := by
  rcases h with hstack | ⟨code, hcode⟩ | hcb
  · exact Or.inl hstack
  · exact Or.inr (Or.inl ⟨code, by rw [hm]; exact List.mem_cons_of_mem _ hcode⟩)
  · exact Or.inr (Or.inr hcb)

theorem due (h : Responding s)
    (hm : s.microtasks = m :: microtasks) (hreaction : m.isReaction = true)
    (hticket : m.ticket = some pid) : Due { s with microtasks := microtasks } pid := by
  have htickets := tickets_cons hm hreaction pid
  rw [if_pos hticket] at htickets
  have hle := (h.turn pid).ticket.1
  have hone : s.tickets pid = 1 := by omega
  refine ⟨(h.turn pid).ticket.2 hone, by omega, ?_⟩
  intro num hmention
  by_contra hopen
  have hzero := ((h.turn pid).unsettled num (mentions_pop hm hmention) hopen).2
  omega

theorem pop (h : Responding s)
    (hm : s.microtasks = m :: microtasks) (hreaction : m.isReaction = true) :
    Responding { s with microtasks := microtasks } := by
  have htickets := tickets_cons hm hreaction
  have hturn : ∀ pid, Turn { s with microtasks := microtasks } pid := by
    intro pid
    by_cases hticket : m.ticket = some pid
    · have hdue := h.due hm hreaction hticket
      refine ⟨(h.turn pid).word, ?_, ?_, ?_, ?_⟩
      · intro num hmention
        exact (h.turn pid).mentioned num (mentions_pop hm hmention)
      · intro num num' hmention hmention'
        exact (h.turn pid).single _ _ (mentions_pop hm hmention) (mentions_pop hm hmention')
      · intro num hmention hopen
        exact absurd (hdue.settled num hmention) hopen
      · rw [hdue.taken]
        simp
    · have hsame := htickets pid
      rw [if_neg hticket, Nat.add_zero] at hsame
      exact (h.turn pid).congr rfl (fun num => mentions_pop hm) hsame.symm fun num hin => hin
  exact { h with turn := hturn }

/-- The second response. -/
theorem respondSecond {num : Nat} {origin : Origin} {r : UpdateResponse}
    (h : Responding s) (hdue : Due s pid) (horigin : origin.caller = some (.update num pid))
    (hr : r ≠ .accepted) : Responding (s.pushCommand origin (.updateResponse pid r)) := by
  have hnew : responses pid (s.pushCommand origin (.updateResponse pid r)).trace =
      [ResponseKind.accepted, r.kind] := by
    have happend : responses pid (s.pushCommand origin (.updateResponse pid r)).trace =
        responses pid s.trace ++ [r.kind] := by
      simp [Vm.pushCommand, responses, Note.response]
    rw [happend, hdue.accepted]
    rfl
  have hanswer : Note.answeredUpdate (.pushed origin (.updateResponse pid r)) = none := by
    cases origin with
    | update u => cases horigin
    | _ => rfl
  refine h.extendOne pid [Note.pushed origin (.updateResponse pid r)] rfl ?_ ?_
    (fun _ _ _ hmention => hmention) (fun _ _ => rfl) (fun _ hc => hc) ?_ ?_ ?_ ?_ (Nat.le_refl _)
  · intro pid' hne n hn
    have hn : n = .pushed origin (.updateResponse pid r) := by simpa using hn
    have hne' : ¬ pid = pid' := fun heq => hne heq.symm
    simp [hn, Note.response, hne']
  · refine ⟨?_, ?_, ?_, ?_, ?_⟩
    · rw [hnew]
      refine ⟨[ResponseKind.accepted, r.kind], ?_, List.prefix_refl _⟩
      cases r with
      | accepted => exact absurd rfl hr
      | completed | rejected => simp [protocolWords, UpdateResponse.kind]
    · intro num' _
      simp [hnew]
    · exact (h.turn pid).single
    · intro num' hmention hopen
      exact absurd (hdue.settled num' hmention) hopen
    · have hzero : (s.pushCommand origin (.updateResponse pid r)).tickets pid = 0 := hdue.taken
      rw [hzero]
      simp
  · intro _
    rcases h.answered pid (by simp [hdue.accepted]) with ⟨u, hu, hup⟩
    refine ⟨u, ?_, hup⟩
    simp only [Vm.pushCommand, updatesAnswered, List.filterMap_append]
    exact List.mem_append_left _ hu
  · intro n hn u hu
    have hn : n = .pushed origin (.updateResponse pid r) := by simpa using hn
    rw [hn, hanswer] at hu
    cases hu
  · refine h.ordered.snoc ?_
    intro num' pid' hcaller
    have heq : pid = pid' := by
      rw [horigin] at hcaller
      simp at hcaller
      exact hcaller.2
    rw [← heq, hdue.accepted]
    simp
  · intro n hn o ho
    have hn : n = .pushed origin (.updateResponse pid r) := by simpa using hn
    rw [hn] at ho
    cases ho

/-- The completion step throws into the catch step, which carries the ticket on. -/
theorem queueCaught (h : Responding s) (hdue : Due s pid) (num : Nat) (v : JsValue) :
    Responding { s with microtasks := s.microtasks ++ [Microtask.caught num pid v] } := by
  have htickets : ∀ pid', ({ s with microtasks := s.microtasks ++ [Microtask.caught num pid v] } :
      Vm σ).tickets pid' = s.tickets pid' + if pid = pid' then 1 else 0 := by
    intro pid'
    have hsnoc := tickets_snoc (s := s)
      (t := { s with microtasks := s.microtasks ++ [Microtask.caught num pid v] }) rfl rfl pid'
    simpa [Microtask.ticket] using hsnoc
  have hmentions : ∀ {c}, ({ s with microtasks := s.microtasks ++ [Microtask.caught num pid v] } :
      Vm σ).Mentions c → s.Mentions c := by
    rintro c (hstack | ⟨code, hcode⟩ | hcb)
    · exact Or.inl hstack
    · exact Or.inr (Or.inl ⟨code, by simpa using hcode⟩)
    · exact Or.inr (Or.inr hcb)
  refine h.extendOne pid [] (by simp) (by simp) ?_ (fun _ _ _ => hmentions) ?_ (fun _ hc => hc)
    (h.answered pid) (by simp) h.ordered (by simp) (Nat.le_refl _)
  · refine ⟨(h.turn pid).word, ?_, ?_, ?_, ?_⟩
    · intro num' hmention
      exact (h.turn pid).mentioned num' (hmentions hmention)
    · intro num₁ num₂ h₁ h₂
      exact (h.turn pid).single _ _ (hmentions h₁) (hmentions h₂)
    · intro num' hmention hopen
      exact absurd (hdue.settled num' (hmentions hmention)) hopen
    · rw [htickets, hdue.taken]
      simp [hdue.accepted]
  · intro pid' hne
    have hne' : ¬ pid = pid' := fun heq => hne heq.symm
    simp [htickets, hne']

theorem handleWorkflowFailure (h : Responding s) {c : Caller} {v : JsValue}
    (hc : ∀ num pid, c = .update num pid → .accepted ∈ responses pid s.trace) :
    Responding (s.handleWorkflowFailure cfg c v) := by
  have horigin : ∀ num pid, (Origin.thrown c v).caller = some (.update num pid) →
      .accepted ∈ responses pid s.trace := by
    intro num pid hcaller
    exact hc num pid (Option.some.inj hcaller)
  rcases Vm.handleWorkflowFailure_cases cfg s c v with
    ⟨command, heq, hcommand⟩ | ⟨e, heq⟩ | ⟨_, heq⟩
  · rw [heq]
    refine h.pushCommand ?_ horigin
    rintro pid r rfl
    simp at hcommand
  · rw [heq]
    exact h.leaveRejected e
  · rw [heq]
    exact h.extend [Note.recorded c v] rfl (by simp [Note.response]) (by simp [Note.answeredUpdate])
      (h.ordered.snoc trivial) (by simp [Note.object]) (Nat.le_refl _) (fun _ _ hm => hm)
      (fun _ => rfl) (fun _ hin => hin)

theorem runMicrotask (h : Responding s)
    (hm : s.microtasks = m :: microtasks) (hreaction : m.isReaction = true) :
    Responding ({ s with microtasks := microtasks }.runMicrotask cfg m) := by
  have hpop := h.pop hm hreaction
  have hdue : ∀ {pid}, m.ticket = some pid → Due { s with microtasks := microtasks } pid :=
    h.due hm hreaction
  cases m with
  | callback | respond => cases hreaction
  | settled c o =>
    cases c with
    | workflow num =>
      cases o with
      | ok v =>
        simp only [Vm.runMicrotask, Vm.completeWorkflow]
        split
        · refine hpop.pushCommand (by simp) ?_
          intro num' pid hcaller
          cases hcaller
        · exact hpop.leaveRejected _
      | error v =>
        refine hpop.handleWorkflowFailure ?_
        intro num' pid hc
        cases hc
    | signal num =>
      cases o with
      | ok v => exact hpop
      | error v =>
        refine hpop.handleWorkflowFailure ?_
        intro num' pid hc
        cases hc
    | update num pid =>
      cases o with
      | ok v =>
        simp only [Vm.runMicrotask]
        split
        · exact hpop.respondSecond (hdue rfl) rfl (by simp)
        · exact hpop.queueCaught (hdue rfl) num _
      | error v => exact hpop.queueCaught (hdue rfl) num v
  | caught num pid v =>
    simp only [Vm.runMicrotask, Vm.rejectUpdate]
    split
    · cases cfg.errorToFailure v with
      | ok failure => exact hpop.respondSecond (hdue rfl) rfl (by simp)
      | error e => exact hpop.leaveRejected e
    · refine hpop.handleWorkflowFailure ?_
      intro num' pid' hc
      have heq : pid = pid' := by
        injection hc
      rw [← heq, (hdue rfl).accepted]
      simp

/-! ## Answering an update -/

end Responding

/-- Nothing has been said about `pid` yet. -/
structure Unheard (s : Vm σ) (pid : String) : Prop where
  silent : responses pid s.trace = []
  unmentioned : ∀ num, ¬ s.Mentions (.update num pid)
  untaken : s.tickets pid = 0

namespace Responding

theorem unheard (h : Responding s) (hsilent : responses pid s.trace = []) :
    Unheard s pid := by
  have hnone : ∀ num, ¬ s.Mentions (.update num pid) := by
    intro num hmention
    have haccepted := (h.turn pid).mentioned num hmention
    rw [hsilent] at haccepted
    cases haccepted
  refine ⟨hsilent, hnone, ?_⟩
  have hle := (h.turn pid).ticket.1
  by_contra hne
  have haccepted := (h.turn pid).ticket.2 (by omega)
  rw [hsilent] at haccepted
  cases haccepted

variable {u : DoUpdate}

theorem mem_arrived (hb : s.Buffered false)
    (hu : u ∈ updatesAnswered s.trace ∨ u ∈ s.inbox.bufferedUpdates) :
    u ∈ updatesArrived s.trace := by
  have hin : u ∈ (updatesArrived s.trace).filter fun u' => u'.name == u.name := by
    rw [hb.updates u.name]
    rcases hu with hu | hu
    · exact List.mem_append_left _ (List.mem_filter.2 ⟨hu, by simp⟩)
    · exact List.mem_append_right _ (List.mem_filter.2 ⟨hu, by simp⟩)
  exact (List.mem_filter.1 hin).1

theorem not_answered (hb : s.Buffered false)
    (hids : ((updatesArrived s.trace).map DoUpdate.protocolInstanceId).Nodup) {u u' : DoUpdate}
    (hu : u ∈ s.inbox.bufferedUpdates) (hu' : u' ∈ updatesAnswered s.trace) :
    u'.protocolInstanceId ≠ u.protocolInstanceId := by
  intro heq
  have hsame : u' = u :=
    List.inj_on_of_nodup_map hids (mem_arrived hb (.inl hu')) (mem_arrived hb (.inr hu)) heq
  have hnodup := (List.Nodup.of_map _ hids).filter fun u' => u'.name == u.name
  rw [hb.updates u.name] at hnodup
  refine List.disjoint_of_nodup_append hnodup (a := u) ?_ ?_
  · exact List.mem_filter.2 ⟨hsame ▸ hu', by simp⟩
  · exact List.mem_filter.2 ⟨hu, by simp⟩

theorem unheard_of_taken (h : Responding s) (hb : s.Buffered false) (htaken : Taken s t u)
    (hids : ((updatesArrived t.trace).map DoUpdate.protocolInstanceId).Nodup) :
    Unheard t u.protocolInstanceId := by
  refine (h.of_quiet htaken.quiet).unheard ?_
  by_contra hne
  rcases htaken.source with ⟨hu, htrace⟩ | htrace
  · rw [htrace] at hne hids
    rcases h.answered _ hne with ⟨u', hu', heq⟩
    exact not_answered hb hids hu hu' heq
  · have hsame : responses u.protocolInstanceId t.trace =
        responses u.protocolInstanceId s.trace := by
      rw [htrace]
      exact responses_append (by simp [Note.response])
    rw [hsame] at hne
    rcases h.answered _ hne with ⟨u', hu', heq⟩
    have harrived := mem_arrived hb (.inl hu')
    have hsplit : updatesArrived t.trace = updatesArrived s.trace ++ [u] := by
      simp [htrace, updatesArrived, Note.arrivedUpdate]
    rw [hsplit, List.map_append] at hids
    refine List.disjoint_of_nodup_append hids (List.mem_map_of_mem harrived) ?_
    simp [heq]

/-- The answer instead of a call of the handler. -/
theorem reject {u : DoUpdate} (h : Responding s) (hnew : Unheard s u.protocolInstanceId)
    (failure : Failure) : Responding (s.pushCommand (.update u)
      (.updateResponse u.protocolInstanceId (.rejected failure))) := by
  have hresponses : responses u.protocolInstanceId (s.pushCommand (.update u)
      (.updateResponse u.protocolInstanceId (.rejected failure))).trace = [ResponseKind.rejected] := by
    have happend : responses u.protocolInstanceId (s.pushCommand (.update u)
        (.updateResponse u.protocolInstanceId (.rejected failure))).trace =
        responses u.protocolInstanceId s.trace ++ [ResponseKind.rejected] := by
      simp [Vm.pushCommand, responses, Note.response, UpdateResponse.kind]
    rw [happend, hnew.silent]
    rfl
  refine h.extendOne u.protocolInstanceId
    [Note.pushed (.update u) (.updateResponse u.protocolInstanceId (.rejected failure))] rfl ?_ ?_
    (fun _ _ _ hmention => hmention) (fun _ _ => rfl) (fun _ hc => hc) ?_ ?_ ?_
    (by simp [Note.object]) (Nat.le_refl _)
  · intro pid hne n hn
    have hne' : ¬ u.protocolInstanceId = pid := fun heq => hne heq.symm
    have hn := List.mem_singleton.1 hn
    simp [hn, Note.response, hne']
  · refine ⟨?_, ?_, ?_, ?_, ?_⟩
    · rw [hresponses]
      exact ⟨[ResponseKind.rejected], by simp [protocolWords], by simp⟩
    · intro num hmention
      exact absurd hmention (hnew.unmentioned num)
    · intro num num' hmention
      exact absurd hmention (hnew.unmentioned num)
    · intro num hmention
      exact absurd hmention (hnew.unmentioned num)
    · have hzero : (s.pushCommand (.update u)
          (.updateResponse u.protocolInstanceId (.rejected failure))).tickets
            u.protocolInstanceId = 0 := hnew.untaken
      rw [hzero]
      simp
  · intro _
    refine ⟨u, ?_, rfl⟩
    simp [Vm.pushCommand, updatesAnswered, Note.answeredUpdate]
  · intro n hn u' hu'
    have hn := List.mem_singleton.1 hn
    have heq : u = u' := by
      rw [hn] at hu'
      exact Option.some.inj hu'
    rw [← heq, hresponses]
    simp
  · refine h.ordered.snoc ?_
    intro num pid hcaller
    cases hcaller

/-- What validation leaves behind. -/
theorem decoded {n : Nat} {notes : List Note} (h : Responding s)
    (hnotes : notes = [] ∨ notes = [Note.validated u s.nextObject]) (hle : notes.length ≤ n) :
    Responding (s.decoded n notes) := by
  have hbelow : ∀ u' num, .updateHanded u' num s.nextObject ∉ s.trace := by
    intro u' num hin
    exact Nat.lt_irrefl _ (h.objects _ hin _ rfl)
  refine h.extend notes rfl ?_ ?_ ?_ ?_ (Nat.le_add_right _ _) (fun _ _ hm => hm) (fun _ => rfl)
    (fun _ hc => hc)
  · rcases hnotes with rfl | rfl
    · simp
    · simp [Note.response]
  · rcases hnotes with rfl | rfl
    · simp
    · simp [Note.answeredUpdate]
  · rcases hnotes with rfl | rfl
    · simpa [Vm.decoded] using h.ordered
    · exact h.ordered.snoc hbelow
  · rcases hnotes with rfl | rfl
    · simp
    · intro m hm o ho
      have hm := List.mem_singleton.1 hm
      have heq : s.nextObject = o := by
        rw [hm] at ho
        exact Option.some.inj ho
      have hle : 1 ≤ n := hle
      simp only [Vm.decoded]
      omega

/-- The handler starts with an object that is not in the history. -/
theorem handUpdate {code : Prog σ} (h : Responding s)
    (hnew : Unheard s u.protocolInstanceId) (hpos : 0 < s.nextObject)
    (hobject : ∀ n ∈ s.trace, ∀ o, n.object = some o → o < s.nextObject - 1) :
    Responding (s.handUpdate u code) := by
  have htrace : (s.handUpdate u code).trace = s.trace ++
      [Note.pushed (.update u) (.updateResponse u.protocolInstanceId .accepted),
        .updateHanded u s.nextNum (s.nextObject - 1)] := by
    simp [Vm.handUpdate, Vm.acceptUpdate, Vm.pushCommand, Vm.note, Vm.call]
  have hresponses : responses u.protocolInstanceId (s.handUpdate u code).trace = [ResponseKind.accepted] := by
    have happend : responses u.protocolInstanceId (s.handUpdate u code).trace =
        responses u.protocolInstanceId s.trace ++ [ResponseKind.accepted] := by
      simp [htrace, responses, Note.response, UpdateResponse.kind]
    rw [happend, hnew.silent]
    rfl
  have hmentions : ∀ {num pid}, (s.handUpdate u code).Mentions (.update num pid) →
      s.Mentions (.update num pid) ∨ (num = s.nextNum ∧ pid = u.protocolInstanceId) := by
    rintro num pid (⟨f, hf, hcaller⟩ | hrest)
    · rcases List.mem_cons.1 hf with rfl | hf
      · have hcaller : Caller.update s.nextNum u.protocolInstanceId = .update num pid := hcaller
        injection hcaller with hnum hpid
        exact Or.inr ⟨hnum.symm, hpid.symm⟩
      · exact Or.inl (Or.inl ⟨f, hf, hcaller⟩)
    · exact Or.inl (Or.inr hrest)
  have hmine : ∀ {num}, (s.handUpdate u code).Mentions (.update num u.protocolInstanceId) →
      num = s.nextNum := by
    intro num hmention
    rcases hmentions hmention with hold | hnum
    · exact absurd hold (hnew.unmentioned num)
    · exact hnum.1
  have hzero : (s.handUpdate u code).tickets u.protocolInstanceId = 0 := hnew.untaken
  refine h.extendOne u.protocolInstanceId _ htrace ?_ ?_ ?_ (fun _ _ => rfl) (fun _ hc => hc) ?_ ?_
    ?_ ?_ (Nat.le_refl _)
  · intro pid hne n hn
    have hne' : ¬ u.protocolInstanceId = pid := fun heq => hne heq.symm
    rcases List.mem_cons.1 hn with rfl | hn
    · simp [Note.response, hne']
    · have hn := List.mem_singleton.1 hn
      simp [hn, Note.response]
  · refine ⟨?_, ?_, ?_, ?_, ?_⟩
    · rw [hresponses]
      exact ⟨[ResponseKind.accepted, .completed], by simp [protocolWords], by simp⟩
    · intro num _
      simp [hresponses]
    · intro num num' hmention hmention'
      rw [hmine hmention, hmine hmention']
    · intro num _ _
      exact ⟨hresponses, hzero⟩
    · rw [hzero]
      simp
  · intro num pid hne hmention
    rcases hmentions hmention with hold | ⟨_, hpid⟩
    · exact hold
    · exact absurd hpid hne
  · intro _
    refine ⟨u, ?_, rfl⟩
    simp [htrace, updatesAnswered, Note.answeredUpdate]
  · intro n hn u' hu'
    have heq : u' = u := by
      rcases List.mem_cons.1 hn with rfl | hn
      · cases hu'
      · rw [List.mem_singleton.1 hn] at hu'
        exact (Option.some.inj hu').symm
    rw [heq, hresponses]
    simp
  · have haccepted : Always Ordered (s.trace ++
        [Note.pushed (.update u) (.updateResponse u.protocolInstanceId .accepted)]) := by
      refine h.ordered.snoc ?_
      intro num pid hcaller
      cases hcaller
    have hsnoc := haccepted.snoc (e := .updateHanded u s.nextNum (s.nextObject - 1)) ?_
    · simpa [htrace] using hsnoc
    · refine ⟨?_, ?_⟩
      · simp [responses, Note.response, UpdateResponse.kind]
      · intro u' hin
        have hin : .validated u' (s.nextObject - 1) ∈ s.trace := by simpa using hin
        exact Nat.lt_irrefl _ (hobject _ hin _ rfl)
  · intro n hn o ho
    have heq : s.nextObject - 1 = o := by
      rcases List.mem_cons.1 hn with rfl | hn
      · cases ho
      · rw [List.mem_singleton.1 hn] at ho
        exact Option.some.inj ho
    have hsame : (s.handUpdate u code).nextObject = s.nextObject := rfl
    omega

theorem doUpdateImpl {entry : UpdateHandler σ} (h : Responding s)
    (hnew : Unheard s u.protocolInstanceId) : Responding (s.doUpdateImpl cfg u entry) := by
  rcases Vm.doUpdateImpl_cases cfg s u entry with ⟨n, notes, hnotes, hle, hcases⟩
  have hdecoded : Responding (s.decoded n notes) := h.decoded hnotes hle
  have hsilent : responses u.protocolInstanceId (s.decoded n notes).trace = [] := by
    refine (responses_append ?_).trans hnew.silent
    rcases hnotes with rfl | rfl
    · simp
    · simp [Note.response]
  have hnew' := hdecoded.unheard hsilent
  rcases hcases with ⟨e, _, ⟨failure, _, heq⟩ | ⟨e', _, heq⟩⟩ | ⟨args, _, hn, _, _, heq⟩
  · rw [heq]
    exact hdecoded.reject hnew' failure
  · rw [heq]
    exact hdecoded.leaveRejected e'
  · rw [heq]
    have hnext : (s.decoded n notes).nextObject = s.nextObject + notes.length + 1 := by
      simp only [Vm.decoded, hn]
      omega
    refine hdecoded.handUpdate hnew' (by omega) ?_
    intro m hm o ho
    rw [hnext]
    rcases List.mem_append.1 hm with hm | hm
    · have hlt := h.objects m hm o ho
      omega
    · rcases hnotes with rfl | rfl
      · cases hm
      · have heq : s.nextObject = o := by
          rw [List.mem_singleton.1 hm] at ho
          exact Option.some.inj ho
        simp only [List.length_singleton]
        omega

/-! ## The end of an activation, and its start -/

theorem finishing {c : Completion} (h : Responding s) (htrace : t.trace = s.trace ++ [Note.completed c])
    (hc : Ordered s.trace (.completed c)) (hstack : t.stack = [])
    (hmicrotasks : t.microtasks = s.microtasks) (hpromises : t.promises = s.promises)
    (hobject : t.nextObject = s.nextObject) (hsettled : t.settledCalls = s.settledCalls) :
    Responding t := by
  refine h.extend [Note.completed c] htrace (by simp [Note.response]) (by simp [Note.answeredUpdate])
    ?_ (by simp [Note.object]) (Nat.le_of_eq hobject.symm) ?_ ?_ ?_
  · rw [htrace]
    exact h.ordered.snoc hc
  · rintro num pid (⟨f, hf, _⟩ | hrest)
    · rw [hstack] at hf
      cases hf
    · rw [hmicrotasks, hpromises] at hrest
      exact Or.inr hrest
  · intro pid
    simp [Vm.tickets, Vm.reactions, hmicrotasks]
  · intro c' hc'
    rw [hsettled]
    exact hc'

theorem fail (h : Responding s) (e : JsValue) : Responding (s.fail e) := by
  unfold Vm.fail Vm.reportRejections
  have hc : Ordered s.trace (.completed (if s.query then .rejected e else .failed e)) := by
    cases s.query with
    | true | false => trivial
  split
  all_goals
    apply h.finishing (c := if s.query then .rejected e else .failed e) _ hc
    all_goals rfl

theorem answered_of_empty (h : Responding s) (hb : s.Buffered false)
    (hempty : s.inbox.bufferedUpdates = []) (hu : u ∈ updatesArrived s.trace) :
    responses u.protocolInstanceId s.trace ≠ [] := by
  have hin : u ∈ (updatesArrived s.trace).filter fun u' => u'.name == u.name :=
    List.mem_filter.2 ⟨hu, by simp⟩
  rw [hb.updates u.name, hempty, List.filter_nil, List.append_nil] at hin
  exact h.answers u (List.mem_filter.1 hin).1

theorem succeed (h : Responding s) (hb : s.Buffered false) (hempty : s.inbox.bufferedUpdates = []) :
    Responding s.succeed := by
  have hc : ∀ commands, Ordered s.trace (.completed (.successful commands)) := by
    intro commands u hu
    exact h.answered_of_empty hb hempty hu
  unfold Vm.succeed Vm.complete Vm.reportRejections
  split
  · split
    all_goals
      apply h.finishing (c := .successful s.commands) _ (hc _)
      all_goals rfl
  · split
    · split
      · apply h.finishing (c := .failed s.unhandledRejection) _ trivial
        all_goals rfl
      · apply h.finishing (c := .successful s.commands) _ (hc _)
        all_goals rfl
    · rename_i reason _
      apply h.finishing (c := .failed (.unhandledRejectionError reason)) _ trivial
      all_goals rfl

theorem activated (h : Responding s) (query : Bool)
    (htrace : t.trace = s.trace ++ [Note.activated query]) (hstack : t.stack = s.stack)
    (hmicrotasks : t.microtasks = s.microtasks) (hpromises : t.promises = s.promises)
    (hobject : t.nextObject = s.nextObject)
    (hsettled : t.settledCalls = s.settledCalls) : Responding t := by
  refine h.extend [Note.activated query] htrace (by simp [Note.response])
    (by simp [Note.answeredUpdate]) ?_ (by simp [Note.object]) (Nat.le_of_eq hobject.symm) ?_ ?_ ?_
  · rw [htrace]
    exact h.ordered.snoc trivial
  · intro num pid hmention
    simpa [Vm.Mentions, hstack, hmicrotasks, hpromises] using hmention
  · intro pid
    simp [Vm.tickets, Vm.reactions, hmicrotasks]
  · intro c hc
    rw [hsettled]
    exact hc

theorem activate (h : Responding s) (a : WorkflowActivation) : Responding (s.activate a) := by
  have hbegin : Responding (s.begin a) := by
    apply h.activated false
    all_goals rfl
  unfold Vm.activate
  split
  · split
    · apply h.activated true
      all_goals rfl
    · refine fail ?_ _
      apply h.activated true
      all_goals rfl
  · split
    · exact hbegin.fail _
    · exact hbegin.fail _
    · refine hbegin.of_quiet (.trans ?_ (.nextBatch _))
      exact .of_eq rfl rfl rfl rfl rfl

end Responding

/-! ## Runs -/

theorem trace_grows_doUpdateImpl (cfg : Config σ) (s : Vm σ) (u : DoUpdate)
    (entry : UpdateHandler σ) : s.trace <+: (s.doUpdateImpl cfg u entry).trace := by
  rcases Vm.doUpdateImpl_cases cfg s u entry with ⟨n, notes, _, _, hcases⟩
  have hdecoded : s.trace <+: (s.decoded n notes).trace := ⟨notes, rfl⟩
  rcases hcases with ⟨e, _, ⟨failure, _, heq⟩ | ⟨e', _, heq⟩⟩ | ⟨args, _, _, _, _, heq⟩
  · rw [heq]
    exact hdecoded.trans ⟨_, rfl⟩
  · rw [heq]
    exact hdecoded
  · rw [heq]
    refine hdecoded.trans ⟨[Note.pushed (.update u) (.updateResponse u.protocolInstanceId .accepted),
      .updateHanded u s.nextNum ((s.decoded n notes).nextObject - 1)], ?_⟩
    simp [Vm.handUpdate, Vm.acceptUpdate, Vm.pushCommand, Vm.note, Vm.call, Vm.decoded]

/-- The history only grows. -/
theorem Move.trace_grows (h : Move cfg s t) : s.trace <+: t.trace := by
  have hquiet : ∀ {s t : Vm σ}, Quiet s t → s.trace <+: t.trace := by
    intro s t hq
    rcases hq.trace with ⟨notes, htrace, _⟩
    exact ⟨notes, htrace.symm⟩
  have hsame : ∀ {s t : Vm σ}, Vm.SameInbox s t → s.trace <+: t.trace := by
    intro s t hq
    rcases hq.trace with ⟨notes, htrace, _⟩
    exact ⟨notes, htrace.symm⟩
  have hpush : ∀ (s : Vm σ) (origin : Origin) (c : Command),
      s.trace <+: (s.pushCommand origin c).trace := by
    intro s origin c
    exact ⟨_, rfl⟩
  cases h with
  | quiet hq => exact hquiet hq
  | command _ hq => exact (hpush s _ _).trans (hquiet hq)
  | respond queryId response hq => exact (hpush s _ _).trans (hquiet hq)
  | @unhandled t reason hq =>
    have hleave : s.trace <+: (s.leaveRejected reason).trace := List.prefix_refl _
    exact hleave.trans (hquiet hq)
  | settle _ hq => exact (hquiet hq).trans (hsame (.settleCall _ _ _))
  | update htaken _ =>
    exact (hquiet htaken.quiet).trans (trace_grows_doUpdateImpl cfg _ _ _)
  | reject htaken => exact (hquiet htaken.quiet).trans (hpush _ _ _)
  | @reaction m microtasks _ _ _ _ =>
    have hpop : s.trace <+: ({ s with microtasks := microtasks } : Vm σ).trace :=
      List.prefix_refl _
    exact hpop.trans (hsame (.runMicrotask cfg _ m))
  | @fail t e hq =>
    have hfinish : t.trace <+: (t.finish (if t.query then .rejected e else .failed e)).trace :=
      ⟨_, rfl⟩
    exact ((hquiet hq).trans hfinish).trans (hsame (.reportRejections _))
  | succeed _ hstack _ => exact hsame (.succeed s hstack)

theorem trace_grows_next (cfg : Config σ) (s : Vm σ) (i : Input) :
    s.trace <+: (next cfg s i).trace := by
  cases i with
  | tick => exact (Vm.step_move cfg s).trace_grows
  | activate a =>
    simp only [next]
    split
    · rename_i hstack
      rcases (Vm.SameInbox.activate s a hstack).trace with ⟨notes, htrace, _⟩
      exact ⟨notes, htrace.symm⟩
    · exact List.prefix_refl _

/-- The protocol instance ids of the updates that have arrived. -/
def updateIds (trace : List Note) : List String :=
  (updatesArrived trace).map DoUpdate.protocolInstanceId

theorem nodup_of_grown {trace trace' : List Note} (h : trace <+: trace')
    (hids : (updateIds trace').Nodup) : (updateIds trace).Nodup := by
  rcases h with ⟨notes, rfl⟩
  simp only [updateIds, updatesArrived, List.filterMap_append, List.map_append] at hids
  exact (List.nodup_append'.1 hids).1

theorem responding_move (h : Responding s) (hb : s.Buffered false) (hmove : Move cfg s t)
    (hids : (updateIds t.trace).Nodup) : Responding t := by
  cases hmove with
  | quiet hq => exact h.of_quiet hq
  | @command t c id hc hq =>
    refine (h.pushCommand (by simp) ?_).of_quiet hq
    intro num pid hcaller
    have hcaller : c = .update num pid := Option.some.inj hcaller
    exact (h.turn pid).mentioned num (hcaller ▸ hc)
  | respond queryId response hq =>
    refine (h.pushCommand (by simp) ?_).of_quiet hq
    intro num pid hcaller
    cases hcaller
  | unhandled hq => exact (h.leaveRejected _).of_quiet hq
  | settle hstack hq => exact h.settle _ (Vm.mentions_top hstack) hq
  | @update t u entry htaken hentry =>
    have hids : (updateIds t.trace).Nodup :=
      nodup_of_grown (trace_grows_doUpdateImpl cfg t u entry) hids
    exact (h.of_quiet htaken.quiet).doUpdateImpl (h.unheard_of_taken hb htaken hids)
  | @reject t u failure htaken =>
    have hids : (updateIds t.trace).Nodup := nodup_of_grown ⟨_, rfl⟩ hids
    exact (h.of_quiet htaken.quiet).reject (h.unheard_of_taken hb htaken hids) failure
  | reaction _ _ hm hreaction => exact h.runMicrotask hm hreaction
  | fail hq => exact (h.of_quiet hq).fail _
  | succeed _ _ hempty => exact h.succeed hb hempty

/-- What every step keeps, as long as the ids are different. -/
structure Conversing (s : Vm σ) : Prop where
  buffered : s.Buffered false
  responding : (updateIds s.trace).Nodup → Responding s

theorem conversing_init (heap : σ) : Conversing (Vm.init heap) :=
  ⟨Vm.buffered_init false heap, fun _ => responding_init heap⟩

theorem conversing_next (s : Vm σ) (i : Input) (hg : HandsOver cfg false s i) (h : Conversing s) :
    Conversing (next cfg s i) := by
  refine ⟨Vm.buffered_next s i hg h.buffered, ?_⟩
  intro hids
  have hresponding := h.responding (nodup_of_grown (trace_grows_next cfg s i) hids)
  cases i with
  | tick => exact responding_move hresponding h.buffered (Vm.step_move cfg s) hids
  | activate a =>
    simp only [next]
    split
    · exact hresponding.activate a
    · exact hresponding

/-! ## Acceptance -/

def Note.isAcceptance : Note → Bool
  | .pushed _ (.updateResponse _ .accepted) => true
  | _ => false

def acceptances (trace : List Note) : List Note := trace.filter Note.isAcceptance

/-- In the step from `s` to `t`, `u` is accepted: its arguments can be decoded, its validator, if it
runs, does not throw, and its handler starts. -/
structure Accepting (cfg : Config σ) (s t : Vm σ) (u : DoUpdate) (entry : UpdateHandler σ)
    (args : Args) : Prop where
  handler : s.updateEntry u.name = some entry
  decoded : cfg.arrayFromPayloads u.input = .ok args
  validated : ∀ validator, Vm.validatorFor u entry = some validator →
    validator s.heap s.info args = .ok ()
  started : ∃ num rest,
    t.stack = .code (.update num u.protocolInstanceId) (entry.handler args) :: rest
  pushed : acceptances t.trace = acceptances s.trace ++
    [Note.pushed (.update u) (.updateResponse u.protocolInstanceId .accepted)]

theorem acceptances_of_notes {notes : List Note} (htrace : t.trace = s.trace ++ notes)
    (hnotes : ∀ n ∈ notes, n.isAcceptance = false) :
    acceptances t.trace = acceptances s.trace := by
  have hnil : notes.filter Note.isAcceptance = [] :=
    List.filter_eq_nil_iff.2 fun n hn => by simp [hnotes n hn]
  simp [acceptances, htrace, hnil]

theorem acceptances_of_quiet (hq : Quiet s t) : acceptances t.trace = acceptances s.trace := by
  rcases hq.trace with ⟨notes, htrace, hnotes⟩
  refine acceptances_of_notes htrace ?_
  intro n hn
  have hplain := hnotes n hn
  unfold Note.isPlain at hplain
  split at hplain <;> simp_all [Note.isAcceptance]

theorem acceptances_pushCommand (s : Vm σ) {origin : Origin} {c : Command}
    (hc : ∀ pid, c ≠ .updateResponse pid .accepted) :
    acceptances (s.pushCommand origin c).trace = acceptances s.trace := by
  refine acceptances_of_notes rfl ?_
  intro n hn
  rw [List.mem_singleton.1 hn]
  cases c with
  | updateResponse pid r =>
    cases r with
    | accepted => exact absurd rfl (hc pid)
    | _ => rfl
  | _ => rfl

theorem acceptances_handleWorkflowFailure (cfg : Config σ) (s : Vm σ) (c : Caller) (v : JsValue) :
    acceptances (s.handleWorkflowFailure cfg c v).trace = acceptances s.trace := by
  rcases Vm.handleWorkflowFailure_cases cfg s c v with
    ⟨command, heq, hcommand⟩ | ⟨e, heq⟩ | ⟨_, heq⟩
  · rw [heq]
    refine acceptances_pushCommand s ?_
    rintro pid rfl
    simp at hcommand
  · rw [heq]
    rfl
  · rw [heq]
    exact acceptances_of_notes rfl (by simp [Note.isAcceptance])

theorem acceptances_runMicrotask (cfg : Config σ) (s : Vm σ) (m : Microtask σ) :
    acceptances (s.runMicrotask cfg m).trace = acceptances s.trace := by
  cases m with
  | callback c code => rfl
  | respond queryId o =>
    rw [Vm.runMicrotask_respond]
    cases Vm.queryResponse cfg o with
    | ok response => exact acceptances_pushCommand s (by simp)
    | error e => rfl
  | settled c o =>
    cases c with
    | workflow num =>
      cases o with
      | ok v =>
        simp only [Vm.runMicrotask, Vm.completeWorkflow]
        split
        · exact acceptances_pushCommand s (by simp)
        · rfl
      | error v => exact acceptances_handleWorkflowFailure cfg s _ v
    | signal num =>
      cases o with
      | ok v => rfl
      | error v => exact acceptances_handleWorkflowFailure cfg s _ v
    | update num pid =>
      cases o with
      | ok v =>
        simp only [Vm.runMicrotask]
        split
        · exact acceptances_pushCommand s (by simp)
        · rfl
      | error v => rfl
  | caught num pid v =>
    simp only [Vm.runMicrotask, Vm.rejectUpdate]
    split
    · cases cfg.errorToFailure v with
      | ok failure => exact acceptances_pushCommand s (by simp)
      | error e => rfl
    · exact acceptances_handleWorkflowFailure cfg s _ v

theorem acceptances_fail (s : Vm σ) (e : JsValue) :
    acceptances (s.fail e).trace = acceptances s.trace := by
  unfold Vm.fail Vm.reportRejections
  split <;> exact acceptances_of_notes rfl (by simp [Note.isAcceptance])

theorem acceptances_succeed (s : Vm σ) : acceptances s.succeed.trace = acceptances s.trace := by
  have hfinish : ∀ (t : Vm σ) c, t.trace = s.trace →
      acceptances (t.finish c).trace = acceptances s.trace := by
    intro t c ht
    have htrace : (t.finish c).trace = s.trace ++ [Note.completed c] := by simp [Vm.finish, ht]
    exact acceptances_of_notes htrace (by simp [Note.isAcceptance])
  unfold Vm.succeed Vm.complete Vm.reportRejections
  split
  · split <;> exact hfinish _ _ rfl
  · split
    · split <;> exact hfinish _ _ rfl
    · exact hfinish _ _ rfl

/-- The only step that accepts an update is `doUpdateImpl` after validation. -/
theorem acceptances_move (h : Move cfg s t) :
    acceptances t.trace = acceptances s.trace ∨ ∃ u entry args, Accepting cfg s t u entry args := by
  cases h with
  | quiet hq => exact Or.inl (acceptances_of_quiet hq)
  | command _ hq | respond _ _ hq =>
    exact Or.inl ((acceptances_of_quiet hq).trans (acceptances_pushCommand s (by simp)))
  | @unhandled t reason hq =>
    have hleave : acceptances t.trace = acceptances (s.leaveRejected reason).trace :=
      acceptances_of_quiet hq
    exact Or.inl hleave
  | @settle t c o rest _ hq =>
    rcases Responding.trace_settleCall t c o with ⟨notes, htrace, hnotes⟩
    refine Or.inl ((acceptances_of_notes htrace ?_).trans (acceptances_of_quiet hq))
    intro n hn
    rcases hnotes n hn with ⟨v, rfl⟩
    rfl
  | @update t u entry htaken hentry =>
    rcases Vm.doUpdateImpl_cases cfg t u entry with ⟨n, notes, hnotes, _, hcases⟩
    have hdecoded : acceptances (t.decoded n notes).trace = acceptances s.trace := by
      refine Eq.trans (acceptances_of_notes rfl ?_) (acceptances_of_quiet htaken.quiet)
      rcases hnotes with rfl | rfl
      · simp
      · simp [Note.isAcceptance]
    have hsame : t.updateEntry u.name = s.updateEntry u.name := by
      simp [Vm.updateEntry, htaken.handlers, htaken.default]
    rcases hcases with ⟨e, _, ⟨failure, _, heq⟩ | ⟨e', _, heq⟩⟩ | ⟨args, _, _, hd, hv, heq⟩
    · rw [heq]
      exact Or.inl ((acceptances_pushCommand _ (by simp)).trans hdecoded)
    · rw [heq]
      exact Or.inl hdecoded
    · rw [heq]
      refine Or.inr ⟨u, entry, args, hsame ▸ hentry, hd, ?_, ⟨_, _, rfl⟩, ?_⟩
      · intro validator hvalidator
        have hok := (hv validator hvalidator).1
        rw [htaken.heap, htaken.info] at hok
        exact hok
      · rw [← hdecoded]
        simp only [acceptances, Vm.handUpdate, Vm.acceptUpdate, Vm.pushCommand, Vm.note, Vm.call,
          List.append_assoc, List.filter_append]
        rfl
  | reject htaken =>
    exact Or.inl ((acceptances_pushCommand _ (by simp)).trans
      (acceptances_of_quiet htaken.quiet))
  | reaction _ _ _ _ => exact Or.inl (acceptances_runMicrotask cfg _ _)
  | fail hq => exact Or.inl ((acceptances_fail _ _).trans (acceptances_of_quiet hq))
  | succeed _ _ _ => exact Or.inl (acceptances_succeed s)

theorem acceptances_activate (s : Vm σ) (a : WorkflowActivation) :
    acceptances (s.activate a).trace = acceptances s.trace := by
  have hbegin : acceptances (s.begin a).trace = acceptances s.trace :=
    acceptances_of_notes rfl (by simp [Note.isAcceptance])
  have hquery : ∀ t : Vm σ, t.trace = s.trace ++ [Note.activated true] →
      acceptances t.trace = acceptances s.trace := by
    intro t ht
    exact acceptances_of_notes ht (by simp [Note.isAcceptance])
  unfold Vm.activate
  split
  · split
    · exact hquery _ rfl
    · exact (acceptances_fail _ _).trans (hquery _ rfl)
  · split
    · exact (acceptances_fail _ _).trans hbegin
    · exact (acceptances_fail _ _).trans hbegin
    · exact (acceptances_of_quiet (.nextBatch _)).trans hbegin

theorem acceptances_next (cfg : Config σ) (s : Vm σ) (i : Input) :
    acceptances (next cfg s i).trace = acceptances s.trace ∨
      ∃ u entry args, Accepting cfg s (next cfg s i) u entry args := by
  cases i with
  | tick => exact acceptances_move (Vm.step_move cfg s)
  | activate a =>
    refine Or.inl ?_
    simp only [next]
    split
    · exact acceptances_activate s a
    · rfl

/-! ## The protocol -/

/-- In every state of a run in which every call that hands over an update succeeds and no two updates
have the same id: the responses to an update follow the protocol; the entries of the history are in
order; and whatever step comes next accepts an update only after decoding and validating it. -/
theorem update_responses_follow_protocol (cfg : Config σ) (heap : σ) (inputs : List Input)
    (hg : Guarded (next cfg) (HandsOver cfg false) (Vm.init heap) inputs)
    (hids : (updateIds (run (next cfg) (Vm.init heap) inputs).trace).Nodup) :
    let s := run (next cfg) (Vm.init heap) inputs
    (∀ pid, FollowsProtocol (responses pid s.trace)) ∧ Always Ordered s.trace ∧
    ∀ i, acceptances (next cfg s i).trace = acceptances s.trace ∨
      ∃ u entry args, Accepting cfg s (next cfg s i) u entry args := by
  have h : Conversing (run (next cfg) (Vm.init heap) inputs) :=
    run_invariant conversing_next (conversing_init heap) hg
  have hresponding := h.responding hids
  exact ⟨fun pid => (hresponding.turn pid).word, hresponding.ordered, acceptances_next cfg _⟩

/-- An update whose handler pushes a command and returns, one without a handler, and the end of the
activation. -/
def answersOne : Prog Unit :=
  .setUpdateHandler "u" (some fun _ _ _ => .ok ())
    (fun _ => .command 1 (.settle (.ok .undefined))) fun _ => .pause

def answeringRun : List Input :=
  activation 20
    [Job.initializeWorkflow [] (.ok ()), .doUpdate ⟨"id", "pid", "u", [], true⟩,
     .doUpdate ⟨"id2", "pid2", "v", [], true⟩]

theorem answeringRun_follows_protocol :
    let s := run (next (plainConfig answersOne)) (Vm.init ()) answeringRun
    Guarded (next (plainConfig answersOne)) (HandsOver (plainConfig answersOne) false) (Vm.init ())
      answeringRun ∧ (updateIds s.trace).Nodup ∧
    responses "pid" s.trace = [.accepted, .completed] ∧ responses "pid2" s.trace = [.rejected] ∧
    FollowsProtocol (responses "pid" s.trace) ∧ Always Ordered s.trace := by
  have hg : Guarded (next (plainConfig answersOne)) (HandsOver (plainConfig answersOne) false)
      (Vm.init ()) answeringRun := by decide
  have hids : (updateIds (run (next (plainConfig answersOne)) (Vm.init ())
      answeringRun).trace).Nodup := by decide
  have h := update_responses_follow_protocol (plainConfig answersOne) () answeringRun hg hids
  exact ⟨hg, hids, by decide, by decide, h.1 "pid", h.2.1⟩

/-- A workflow that registers a default handler for updates and catches what that throws. -/
def catchesReservedUpdate : Prog Unit :=
  .setDefaultUpdateHandler (fun _ _ => .settle (.ok .undefined)) fun _ => .pause

/-- An update whose name has the reserved prefix is buffered; the default handler makes the loop take
it out, `doUpdate` throws, and the activation succeeds without a response. -/
theorem reservedUpdate_unanswered :
    let s := run (next (plainConfig catchesReservedUpdate)) (Vm.init ())
      (activation 20
        [.initializeWorkflow [] (.ok ()), .doUpdate ⟨"id", "pid", "__temporal_x", [], true⟩])
    s.trace.getLast? = some (.completed (.successful [])) ∧
    updatesArrived s.trace = [⟨"id", "pid", "__temporal_x", [], true⟩] ∧
    responses "pid" s.trace = [] ∧ ¬ Always Ordered s.trace := by
  intro s
  refine ⟨by decide, by decide, by decide, ?_⟩
  intro h
  have hsplit : s.trace = s.trace.dropLast ++ Note.completed (.successful []) :: [] := by decide
  have hanswered : ∀ u ∈ updatesArrived s.trace.dropLast,
      responses u.protocolInstanceId s.trace.dropLast ≠ [] := h _ _ _ hsplit
  exact hanswered ⟨"id", "pid", "__temporal_x", [], true⟩ (by decide) (by decide)

end TemporalSdk.Activation
