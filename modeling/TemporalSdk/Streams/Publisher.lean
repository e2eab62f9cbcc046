import TemporalSdk.Machine.Run
import TemporalSdk.Streams.Stream

/-!
# Publisher — the buffer, the pending batch and the flushes of a `WorkflowStreamClient`

Items are buffered, become the pending batch when a flush encodes them, and leave it when the signal is
acknowledged or its retries have taken too long.  `flush()` and the background flusher run at the same time; at
each `await` another one may go on.  `V` is what is published, and `encode` the payload converter with the wire
codec, which may throw.
-/

namespace TemporalSdk.Streams
namespace Publisher

open Machine

/-- `index` tells the items apart: it is the number of items published before. -/
structure Item (V : Type) where
  index : Nat
  topic : String
  value : V
  deriving DecidableEq

structure Encoded where
  index : Nat
  entry : PublishEntry
  deriving DecidableEq

inductive FlushErrorKind
  | flushTimeoutError
  | encoding
  | signal
  deriving DecidableEq

/-- `items` are the ones that are given up. -/
structure FlushError where
  kind : FlushErrorKind
  items : List Nat
  deriving DecidableEq

/-- The promise of a call of `_doFlush`. -/
inductive Flush
  | running (seq : Nat) (batch : List Encoded)
  | resolved
  | rejected (err : FlushError)
  deriving DecidableEq

/-- Where a call of `flushOnce` is: before its loop, or at one of its two `await`s. -/
inductive Once
  | entering
  | waiting (flush : Nat)
  | owning (flush : Nat)
  deriving DecidableEq

inductive Flusher
  | unstarted
  | asleep
  | flushing (once : Once)
  | stopped
  deriving DecidableEq

/-- A call of `flush()`; `before` is how many items were published before it. -/
inductive FlushCall
  | checking (targetSeq before : Nat)
  | flushing (targetSeq before : Nat) (once : Once)
  | resolved (before : Nat)
  | threw (err : FlushError)
  deriving DecidableEq

/-- `published`, `acknowledged` and `reported` are for stating properties only: how many items were published,
and the ones that were acknowledged and that an error was thrown for. -/
structure Client (V : Type) where
  buffer : List (Item V)
  pending : Option (List Encoded)
  pendingSeq : Nat
  sequence : Nat
  flusherError : Option FlushError
  currentFlush : Option Nat
  flushCount : Nat
  flushes : Nat → Option Flush
  flusher : Flusher
  callCount : Nat
  calls : Nat → Option FlushCall
  published : Nat
  acknowledged : List Nat
  reported : List Nat

/-- Who calls `flushOnce`. -/
inductive User
  | flusher
  | call (k : Nat)
  deriving DecidableEq

inductive ClientEvent (V : Type)
  | publish (topic : String) (value : V)
  | flush
  -- The flusher's timer or its event.
  | wake
  -- `flushOnce` goes through its loop; `expired` if `maxRetryDuration` is over for the pending batch.
  | enter (user : User) (expired : Bool)
  | resume (user : User)
  -- The loop of `flush()`.
  | check (k : Nat)
  | signalled (flush : Nat) (ok : Bool)

namespace Client

variable {V : Type} (encode : V → Option (List Char))

def init : Client V :=
  ⟨[], none, 0, 0, none, none, 0, fun _ => none, .unstarted, 0, fun _ => none, 0, [], []⟩

/-- The first publish starts the flusher. -/
def publish (c : Client V) (topic : String) (value : V) : Client V :=
  { c with
    flusher := if c.flusher = .unstarted then .asleep else c.flusher
    buffer := c.buffer ++ [⟨c.published, topic, value⟩]
    published := c.published + 1 }

def encodeBuffer (items : List (Item V)) : Option (List Encoded) :=
  items.mapM fun item => (encode item.value).map fun data => ⟨item.index, ⟨item.topic, data⟩⟩

def setCall (c : Client V) (k : Nat) (call : FlushCall) : Client V :=
  { c with calls := Function.update c.calls k (some call) }

/-- An error that ends a call of `flush()`. -/
def throwTo (c : Client V) (k : Nat) (err : FlushError) : Client V :=
  { c.setCall k (.threw err) with reported := c.reported ++ err.items }

/-- A flush, which becomes the current one. -/
def startFlush (c : Client V) (flush : Flush) : Client V :=
  { c with
    flushes := Function.update c.flushes c.flushCount (some flush)
    currentFlush := some c.flushCount
    flushCount := c.flushCount + 1 }

/-- `_doFlush` up to the signal. -/
def doFlush (c : Client V) (expired : Bool) : Client V :=
  match c.pending with
  | some batch =>
    if expired then
      { c with sequence := c.pendingSeq, pending := none, pendingSeq := 0 }.startFlush
        (.rejected ⟨.flushTimeoutError, batch.map Encoded.index⟩)
    else c.startFlush (.running c.pendingSeq batch)
  | none =>
    if c.buffer = [] then c.startFlush .resolved
    else
      match encodeBuffer encode c.buffer with
      | none => { c with buffer := [] }.startFlush (.rejected ⟨.encoding, c.buffer.map Item.index⟩)
      | some batch =>
        { c with buffer := [], pending := some batch, pendingSeq := c.sequence + 1 }.startFlush
          (.running (c.sequence + 1) batch)

def once (c : Client V) : User → Option Once
  | .flusher =>
    match c.flusher with
    | .flushing once => some once
    | _ => none
  | .call k =>
    match c.calls k with
    | some (.flushing _ _ once) => some once
    | _ => none

def setOnce (c : Client V) (user : User) (once : Once) : Client V :=
  match user with
  | .flusher => { c with flusher := .flushing once }
  | .call k =>
    match c.calls k with
    | some (.flushing targetSeq before _) => c.setCall k (.flushing targetSeq before once)
    | _ => c

/-- `while (this.currentFlush)`, and what follows. -/
def enter (c : Client V) (user : User) (expired : Bool) : Client V :=
  match c.once user with
  | some .entering =>
    match c.currentFlush with
    | some flush => c.setOnce user (.waiting flush)
    | none => (c.doFlush encode expired).setOnce user (.owning c.flushCount)
  | _ => c

/-- `flushOnce` returns. -/
def returnTo (c : Client V) (user : User) : Client V :=
  match user with
  | .flusher => { c with flusher := .asleep }
  | .call k =>
    match c.calls k with
    | some (.flushing targetSeq before _) => c.setCall k (.checking targetSeq before)
    | _ => c

/-- `flushOnce` throws.  The flusher keeps a timeout, and goes on after any other error. -/
def throwIn (c : Client V) (user : User) (err : FlushError) : Client V :=
  match user with
  | .flusher =>
    if err.kind = .flushTimeoutError then { c with flusher := .stopped, flusherError := some err }
    else { c with flusher := .asleep }
  | .call k => c.throwTo k err

/-- `if (this.currentFlush === p) this.currentFlush = null`. -/
def release (c : Client V) (flush : Nat) : Client V :=
  { c with currentFlush := if c.currentFlush = some flush then none else c.currentFlush }

def resume (c : Client V) (user : User) : Client V :=
  match c.once user with
  | some (.waiting flush) =>
    match c.flushes flush with
    | some .resolved => c.setOnce user .entering
    | some (.rejected err) => c.throwIn user err
    | _ => c
  | some (.owning flush) =>
    match c.flushes flush with
    | some .resolved => (c.release flush).returnTo user
    | some (.rejected err) => (c.release flush).throwIn user err
    | _ => c
  | _ => c

/-- `flush()` up to its loop. -/
def flush (c : Client V) : Client V :=
  let k := c.callCount
  let c := { c with callCount := c.callCount + 1 }
  match c.flusherError with
  | some err => { c with flusherError := none }.throwTo k err
  | none =>
    if c.pending = none ∧ c.buffer = [] then c.setCall k (.resolved c.published)
    else
      let baseSeq := if c.pending = none then c.sequence else c.pendingSeq
      let targetSeq := if c.buffer = [] then baseSeq else baseSeq + 1
      c.setCall k (.checking targetSeq c.published)

def check (c : Client V) (k : Nat) : Client V :=
  match c.calls k with
  | some (.checking targetSeq before) =>
    if c.sequence < targetSeq then c.setCall k (.flushing targetSeq before .entering)
    else
      match c.flusherError with
      | some err => { c with flusherError := none }.throwTo k err
      | none => c.setCall k (.resolved before)
  | _ => c

/-- The signal of a flush returns or throws. -/
def signalled (c : Client V) (flush : Nat) (ok : Bool) : Client V :=
  match c.flushes flush with
  | some (.running seq batch) =>
    if ok then
      { c with
        flushes := Function.update c.flushes flush (some .resolved)
        sequence := seq
        pending := none
        pendingSeq := 0
        acknowledged := c.acknowledged ++ batch.map Encoded.index }
    else { c with flushes := Function.update c.flushes flush (some (.rejected ⟨.signal, []⟩)) }
  | _ => c

def step (c : Client V) : ClientEvent V → Client V
  | .publish topic value => c.publish topic value
  | .flush => c.flush
  | .wake => if c.flusher = .asleep then { c with flusher := .flushing .entering } else c
  | .enter user expired => c.enter encode user expired
  | .resume user => c.resume user
  | .check k => c.check k
  | .signalled flush ok => c.signalled flush ok

/-! ## Where an item is -/

/-- An error for the item was thrown by `flush()`, waits to be thrown by the next `flush()`, or rejects a flush
whose caller throws or keeps it. -/
inductive Covered (c : Client V) (index : Nat) : Prop
  | reported (h : index ∈ c.reported)
  | kept (err : FlushError) (herr : c.flusherError = some err) (h : index ∈ err.items)
  | throwing (flush : Nat) (err : FlushError) (k targetSeq before : Nat)
      (hflush : c.flushes flush = some (.rejected err))
      (hcall : c.calls k = some (.flushing targetSeq before (.owning flush))) (h : index ∈ err.items)
  | keeping (flush : Nat) (err : FlushError) (hflush : c.flushes flush = some (.rejected err))
      (hflusher : c.flusher = .flushing (.owning flush)) (hkind : err.kind = .flushTimeoutError)
      (h : index ∈ err.items)

def Settled (c : Client V) (index : Nat) : Prop := index ∈ c.acknowledged ∨ c.Covered index

def InBuffer (c : Client V) (index : Nat) : Prop := index ∈ c.buffer.map Item.index

def InPending (c : Client V) (index : Nat) : Prop :=
  ∃ batch, c.pending = some batch ∧ index ∈ batch.map Encoded.index

/-- The workflow has the item, or a call of `flush()` has thrown for it. -/
def Answered (c : Client V) (index : Nat) : Prop := index ∈ c.acknowledged ∨ index ∈ c.reported

/-- The call ends with the error, which is then reported for its items. -/
def Throws (c : Client V) (k : Nat) (err : FlushError) : Prop :=
  c.calls k = some (.threw err) ∧ ∀ index ∈ err.items, index ∈ c.reported

/-- What becomes of an error that is not thrown yet. -/
structure Surfaces (c : Client V) : Prop where
  next : ∀ err, c.flusherError = some err → c.flush.Throws c.callCount err
  last : ∀ err k targetSeq before, c.flusherError = some err → c.calls k = some (.checking targetSeq before) →
    targetSeq ≤ c.sequence → (c.check k).Throws k err
  thrown : ∀ flush err k targetSeq before, c.flushes flush = some (.rejected err) →
    c.calls k = some (.flushing targetSeq before (.owning flush)) → (c.resume (.call k)).Throws k err
  kept : ∀ flush err, c.flushes flush = some (.rejected err) → c.flusher = .flushing (.owning flush) →
    err.kind = .flushTimeoutError → (c.resume .flusher).flusherError = some err

/-- No item is lost, every item before a call of `flush()` that has returned is answered, and what the flusher has
kept is thrown by the next call. -/
structure NoSilentLoss (c : Client V) : Prop where
  conserved : ∀ index < c.published, c.InBuffer index ∨ c.InPending index ∨ c.Settled index
  flushed : ∀ k before, c.calls k = some (.resolved before) → ∀ index < before, c.Answered index
  surfaces : c.Surfaces

/-- The flusher does not start to encode a batch with a value that the converter rejects. -/
def Encodes (c : Client V) : ClientEvent V → Prop
  | .enter .flusher _ =>
    c.flusher = .flushing .entering → c.currentFlush = none → c.pending = none →
      ∀ item ∈ c.buffer, encode item.value ≠ none
  | _ => True

/-- The item was given up, and who runs the flush has not gone on with its error yet. -/
def Unseen (c : Client V) (index : Nat) : Prop :=
  ∃ user flush err, c.once user = some (.owning flush) ∧ c.flushes flush = some (.rejected err) ∧ index ∈ err.items

/-- No call of `flush()` finds itself done while an item before it is unseen. -/
def Seen (c : Client V) : ClientEvent V → Prop
  | .flush => c.flusherError = none → c.pending = none → c.buffer = [] → ∀ index < c.published, ¬ c.Unseen index
  | .check k =>
    ∀ targetSeq before, c.calls k = some (.checking targetSeq before) → targetSeq ≤ c.sequence →
      c.flusherError = none → ∀ index < before, ¬ c.Unseen index
  | _ => True

/-! ## The invariant -/

/-- The sequence number that the items in the buffer will have. -/
def nextSeq (c : Client V) : Nat := if c.pending = none then c.sequence + 1 else c.pendingSeq + 1

/-- The item is settled once the sequence has reached `targetSeq`. -/
def Due (c : Client V) (targetSeq index : Nat) : Prop :=
  c.Settled index ∨ (c.InPending index ∧ c.pendingSeq ≤ targetSeq) ∨ (c.InBuffer index ∧ c.nextSeq ≤ targetSeq)

def Active (c : Client V) (k targetSeq before : Nat) : Prop :=
  c.calls k = some (.checking targetSeq before) ∨ ∃ once, c.calls k = some (.flushing targetSeq before once)

/-- The pending batch and the flush that sends it. -/
structure Flushing (c : Client V) : Prop where
  seq : c.pending ≠ none → c.pendingSeq = c.sequence + 1
  running : ∀ flush seq batch, c.flushes flush = some (.running seq batch) →
    c.currentFlush = some flush ∧ c.pending = some batch ∧ c.pendingSeq = seq
  fresh : ∀ flush, c.flushCount ≤ flush → c.flushes flush = none

structure Sound (c : Client V) : Prop extends c.Flushing where
  stopped : c.flusherError ≠ none → c.flusher = .stopped
  fresh_call : ∀ k, c.callCount ≤ k → c.calls k = none

structure Kept (c : Client V) : Prop where
  sound : c.Sound
  conserved : ∀ index < c.published, c.InBuffer index ∨ c.InPending index ∨ c.Settled index
  due : ∀ k targetSeq before, c.Active k targetSeq before →
    before ≤ c.published ∧ ∀ index < before, c.Due targetSeq index
  flushed : ∀ k before, c.calls k = some (.resolved before) → ∀ index < before, c.Answered index

/-- From `c` to `c'`, items move on from the buffer to the pending batch and from there, and keep their sequence
number. -/
structure Carries (c c' : Client V) : Prop where
  answered : ∀ index, c.Answered index → c'.Answered index
  settled : ∀ index, c.Settled index → c'.Settled index
  pending : ∀ index, c.InPending index → c'.Settled index ∨ (c'.InPending index ∧ c'.pendingSeq = c.pendingSeq)
  buffer : ∀ index, c.InBuffer index →
    c'.Settled index ∨ (c'.InPending index ∧ c'.pendingSeq = c.nextSeq) ∨
      (c'.InBuffer index ∧ c'.nextSeq = c.nextSeq)

variable {encode} {c c' : Client V}

theorem Carries.due (h : Carries c c') {targetSeq index : Nat} (hdue : c.Due targetSeq index) :
    c'.Due targetSeq index := by
  rcases hdue with hsettled | ⟨hpending, hle⟩ | ⟨hbuffer, hle⟩
  · exact Or.inl (h.settled index hsettled)
  · rcases h.pending index hpending with hsettled | ⟨hpending', heq⟩
    · exact Or.inl hsettled
    · exact Or.inr (Or.inl ⟨hpending', by rw [heq]; exact hle⟩)
  · rcases h.buffer index hbuffer with hsettled | ⟨hpending, heq⟩ | ⟨hbuffer', heq⟩
    · exact Or.inl hsettled
    · exact Or.inr (Or.inl ⟨hpending, by rw [heq]; exact hle⟩)
    · exact Or.inr (Or.inr ⟨hbuffer', by rw [heq]; exact hle⟩)

theorem carries_of_same (hbuffer : c'.buffer = c.buffer) (hpending : c'.pending = c.pending)
    (hseq : c'.pendingSeq = c.pendingSeq) (hsequence : c'.sequence = c.sequence)
    (hanswered : ∀ index, c.Answered index → c'.Answered index)
    (hsettled : ∀ index, c.Settled index → c'.Settled index) : Carries c c' := by
  refine ⟨hanswered, hsettled, ?_, ?_⟩
  · rintro index ⟨batch, hbatch, hmem⟩
    exact Or.inr ⟨⟨batch, by rw [hpending, hbatch], hmem⟩, hseq⟩
  · intro index hmem
    refine Or.inr (Or.inr ⟨?_, ?_⟩)
    · unfold InBuffer at *
      rw [hbuffer]
      exact hmem
    · unfold nextSeq
      rw [hpending, hseq, hsequence]

/-- The rule for a step that neither publishes nor makes a call return. -/
theorem Kept.carry (h : c.Kept) (hsound : c'.Sound) (hcarries : Carries c c') (hpublished : c'.published = c.published)
    (hactive : ∀ k targetSeq before, c'.Active k targetSeq before → c.Active k targetSeq before)
    (hresolved : ∀ k before, c'.calls k = some (.resolved before) → c.calls k = some (.resolved before)) :
    c'.Kept := by
  refine ⟨hsound, ?_, ?_, ?_⟩
  · intro index hindex
    rw [hpublished] at hindex
    rcases h.conserved index hindex with hbuffer | hpending | hsettled
    · rcases hcarries.buffer index hbuffer with hs | ⟨hp, _⟩ | ⟨hb, _⟩
      · exact Or.inr (Or.inr hs)
      · exact Or.inr (Or.inl hp)
      · exact Or.inl hb
    · rcases hcarries.pending index hpending with hs | ⟨hp, _⟩
      · exact Or.inr (Or.inr hs)
      · exact Or.inr (Or.inl hp)
    · exact Or.inr (Or.inr (hcarries.settled index hsettled))
  · intro k targetSeq before hk
    rcases h.due k targetSeq before (hactive k targetSeq before hk) with ⟨hle, hdue⟩
    exact ⟨by rw [hpublished]; exact hle, fun index hindex => hcarries.due (hdue index hindex)⟩
  · intro k before hk index hindex
    exact hcarries.answered index (h.flushed k before (hresolved k before hk) index hindex)

/-! ## Settlements stay -/

/-- The user does not own a flush that was rejected. -/
def Free (c : Client V) (user : User) : Prop :=
  ∀ flush err, c.once user = some (.owning flush) → c.flushes flush ≠ some (.rejected err)

variable {user : User} {once : Once}

theorem free_of_once (honce : c.once user = some once) (h : ∀ flush, once ≠ .owning flush) :
    c.Free user := by
  intro flush err howns
  rw [honce] at howns
  cases howns
  exact absurd rfl (h flush)

theorem free_of_resolved {flush : Nat} (honce : c.once user = some (.owning flush))
    (hflush : c.flushes flush = some .resolved) : c.Free user := by
  intro flush' err howns hrejected
  rw [honce] at howns
  cases howns
  rw [hflush] at hrejected
  cases hrejected

theorem once_call {k targetSeq before : Nat} (hcall : c.calls k = some (.flushing targetSeq before once)) :
    c.once (.call k) = some once := by
  simp only [Client.once, hcall]

theorem once_flusher (hflusher : c.flusher = .flushing once) : c.once .flusher = some once := by
  simp only [Client.once, hflusher]

variable {k : Nat}

theorem flushing_of_once_call (honce : c.once (.call k) = some once) :
    ∃ targetSeq before, c.calls k = some (.flushing targetSeq before once) := by
  simp only [Client.once] at honce
  split at honce
  · rename_i targetSeq before once' hcall
    cases honce
    exact ⟨targetSeq, before, hcall⟩
  · cases honce

theorem flushing_of_once_flusher (honce : c.once .flusher = some once) : c.flusher = .flushing once := by
  simp only [Client.once] at honce
  split at honce
  · rename_i once' hflusher
    cases honce
    exact hflusher
  · cases honce

variable {call : FlushCall}

theorem Covered.setCall {index k : Nat} {reported : List Nat} (h : c.Covered index)
    (hreported : index ∈ c.reported → index ∈ reported)
    (hcall : ∀ flush err, c.once (.call k) = some (.owning flush) → c.flushes flush = some (.rejected err) →
      index ∈ err.items → index ∈ reported) :
    { c.setCall k call with reported := reported }.Covered index := by
  cases h with
  | reported h => exact .reported (hreported h)
  | kept err herr h => exact .kept err herr h
  | throwing flush err k' targetSeq before hflush hk h =>
    by_cases heq : k' = k
    · subst heq
      exact .reported (hcall flush err (once_call hk) hflush h)
    · refine .throwing flush err k' targetSeq before hflush ?_ h
      simpa [Client.setCall, heq] using hk
  | keeping flush err hflush hflusher hkind h => exact .keeping flush err hflush hflusher hkind h

theorem Settled.setCall {index k : Nat} (hfree : c.Free (.call k)) (h : c.Settled index) :
    (c.setCall k call).Settled index := by
  rcases h with hack | hcovered
  · exact Or.inl hack
  · exact Or.inr (hcovered.setCall id fun flush err honce hflush _ => absurd hflush (hfree flush err honce))

variable {err : FlushError}

theorem Settled.throwTo {index k : Nat} (h : c.Settled index)
    (herr : ∀ flush err', c.once (.call k) = some (.owning flush) → c.flushes flush = some (.rejected err') →
      err' = err) : (c.throwTo k err).Settled index := by
  rcases h with hack | hcovered
  · exact Or.inl hack
  · refine Or.inr (hcovered.setCall (List.mem_append_left _) fun flush err' honce hflush hmem => ?_)
    rw [herr flush err' honce hflush] at hmem
    exact List.mem_append_right _ hmem

theorem Settled.throwPending {index k : Nat} (h : c.Settled index) (herr : c.flusherError = some err)
    (hfree : c.Free (.call k)) : ({ c with flusherError := none }.throwTo k err).Settled index := by
  rcases h with hack | hcovered
  · exact Or.inl hack
  · refine Or.inr ?_
    cases hcovered with
    | reported h => exact .reported (List.mem_append_left _ h)
    | kept err' herr' h =>
      rw [herr] at herr'
      cases herr'
      exact .reported (List.mem_append_right _ h)
    | throwing flush err' k' targetSeq before hflush hk h =>
      have hne : k' ≠ k := by
        rintro rfl
        exact hfree flush err' (once_call hk) hflush
      refine .throwing flush err' k' targetSeq before hflush ?_ h
      simpa [Client.throwTo, Client.setCall, hne] using hk
    | keeping flush err' hflush hflusher hkind h => exact .keeping flush err' hflush hflusher hkind h

variable {index : Nat}

theorem Settled.setFlusher {flusher : Flusher} (h : c.Settled index)
    (hflusher : ∀ flush err, c.once .flusher = some (.owning flush) → c.flushes flush = some (.rejected err) →
      err.kind ≠ .flushTimeoutError) : { c with flusher := flusher }.Settled index := by
  rcases h with hack | hcovered
  · exact Or.inl hack
  · refine Or.inr ?_
    cases hcovered with
    | reported h => exact .reported h
    | kept err herr h => exact .kept err herr h
    | throwing flush err k targetSeq before hflush hk h => exact .throwing flush err k targetSeq before hflush hk h
    | keeping flush err hflush howns hkind h => exact absurd hkind (hflusher flush err (once_flusher howns) hflush)

theorem Settled.keep (h : c.Settled index) (hnone : c.flusherError = none)
    (herr : ∀ flush err', c.once .flusher = some (.owning flush) → c.flushes flush = some (.rejected err') →
      err' = err) : { c with flusher := .stopped, flusherError := some err }.Settled index := by
  rcases h with hack | hcovered
  · exact Or.inl hack
  · refine Or.inr ?_
    cases hcovered with
    | reported h => exact .reported h
    | kept err' herr' h =>
      rw [hnone] at herr'
      cases herr'
    | throwing flush err' k targetSeq before hflush hk h =>
      exact .throwing flush err' k targetSeq before hflush hk h
    | keeping flush err' hflush howns hkind h =>
      rw [herr flush err' (once_flusher howns) hflush] at h
      exact .kept err rfl h

/-- What a flush becomes settles nothing back that was not rejected before. -/
theorem Settled.setFlush {index flush : Nat} {acknowledged : List Nat} (h : c.Settled index) (result : Flush)
    (hack : ∀ index ∈ c.acknowledged, index ∈ acknowledged)
    (hnot : ∀ err, c.flushes flush ≠ some (.rejected err)) :
    { c with flushes := Function.update c.flushes flush (some result), acknowledged := acknowledged }.Settled
      index := by
  have hother : ∀ flush' err, c.flushes flush' = some (.rejected err) →
      Function.update c.flushes flush (some result) flush' = some (.rejected err) := by
    intro flush' err hrejected
    have hne : flush' ≠ flush := by
      rintro rfl
      exact hnot err hrejected
    rw [Function.update_of_ne hne]
    exact hrejected
  rcases h with h | hcovered
  · exact Or.inl (hack index h)
  · refine Or.inr ?_
    cases hcovered with
    | reported h => exact .reported h
    | kept err herr h => exact .kept err herr h
    | throwing flush' err k targetSeq before hflush hk h =>
      exact .throwing flush' err k targetSeq before (hother flush' err hflush) hk h
    | keeping flush' err hflush hflusher hkind h =>
      exact .keeping flush' err (hother flush' err hflush) hflusher hkind h

theorem Settled.congr (h : c.Settled index) (hack : c'.acknowledged = c.acknowledged)
    (hreported : c'.reported = c.reported) (herror : c'.flusherError = c.flusherError)
    (hflushes : c'.flushes = c.flushes) (hcalls : c'.calls = c.calls) (hflusher : c'.flusher = c.flusher) :
    c'.Settled index := by
  rcases h with h | hcovered
  · exact Or.inl (by rw [hack]; exact h)
  · refine Or.inr ?_
    cases hcovered with
    | reported h => exact .reported (by rw [hreported]; exact h)
    | kept err herr h => exact .kept err (by rw [herror]; exact herr) h
    | throwing flush err k targetSeq before hflush hk h =>
      exact .throwing flush err k targetSeq before (by rw [hflushes]; exact hflush) (by rw [hcalls]; exact hk) h
    | keeping flush err hflush howns hkind h =>
      exact .keeping flush err (by rw [hflushes]; exact hflush) (by rw [hflusher]; exact howns) hkind h

/-! ## Steps of the calls of `flush()` and of the flusher -/

theorem Sound.same (h : c.Sound) (hflushes : c'.flushes = c.flushes) (hcount : c'.flushCount = c.flushCount)
    (hcurrent : c'.currentFlush = c.currentFlush) (hpending : c'.pending = c.pending)
    (hpendingSeq : c'.pendingSeq = c.pendingSeq) (hsequence : c'.sequence = c.sequence)
    (hstopped : c'.flusherError ≠ none → c'.flusher = .stopped)
    (hcalls : ∀ k, c'.callCount ≤ k → c'.calls k = none) : c'.Sound := by
  refine ⟨⟨?_, ?_, ?_⟩, hstopped, hcalls⟩
  · rw [hpending, hpendingSeq, hsequence]
    exact h.seq
  · rw [hflushes, hcurrent, hpending, hpendingSeq]
    exact h.running
  · rw [hflushes, hcount]
    exact h.fresh

theorem Sound.call_lt (h : c.Sound) (hk : c.calls k ≠ none) : k < c.callCount := by
  by_contra hge
  exact hk (h.fresh_call k (by omega))

theorem fresh_setCall (h : ∀ k, c.callCount ≤ k → c.calls k = none)
    (hk : k < c.callCount) : ∀ k', c.callCount ≤ k' → (c.setCall k call).calls k' = none := by
  intro k' hk'
  have hne : k' ≠ k := by omega
  simpa [Client.setCall, hne] using h k' hk'

theorem Sound.setCall (h : c.Sound) (hk : k < c.callCount) : (c.setCall k call).Sound :=
  h.same rfl rfl rfl rfl rfl rfl h.stopped (fresh_setCall h.fresh_call hk)

theorem calls_setCall_of_ne {k k' : Nat} (hne : k' ≠ k) : (c.setCall k call).calls k' = c.calls k' := by
  simp [Client.setCall, hne]

@[simp] theorem calls_setCall : (c.setCall k call).calls k = some call := by
  simp [Client.setCall]

theorem Active.of_setCall {k k' targetSeq before : Nat} (hne : k' ≠ k)
    (h : (c.setCall k call).Active k' targetSeq before) : c.Active k' targetSeq before := by
  unfold Active at h ⊢
  rw [calls_setCall_of_ne hne] at h
  exact h

theorem Active.lt (h : c.Sound) {k targetSeq before : Nat} (hk : c.Active k targetSeq before) : k < c.callCount := by
  refine h.call_lt ?_
  rcases hk with hk | ⟨once, hk⟩ <;> (rw [hk]; nofun)

/-- A call goes on with its loop. -/
theorem Kept.setActive (h : c.Kept) {k targetSeq before : Nat} (hfree : c.Free (.call k))
    (hold : c.Active k targetSeq before)
    (hnew : call = .checking targetSeq before ∨ ∃ once, call = .flushing targetSeq before once) :
    (c.setCall k call).Kept := by
  refine h.carry (h.sound.setCall (hold.lt h.sound)) (carries_of_same rfl rfl rfl rfl (fun _ => id) fun _ => Settled.setCall hfree)
    rfl ?_ ?_
  · intro k' targetSeq' before' hactive
    by_cases heq : k' = k
    · subst heq
      unfold Active at hactive
      rw [calls_setCall] at hactive
      have hsame : targetSeq' = targetSeq ∧ before' = before := by
        rcases hnew with rfl | ⟨once, rfl⟩ <;> rcases hactive with hk | ⟨once', hk⟩ <;> cases hk <;> exact ⟨rfl, rfl⟩
      rw [hsame.1, hsame.2]
      exact hold
    · exact hactive.of_setCall heq
  · intro k' before' hk'
    by_cases heq : k' = k
    · subst heq
      rw [calls_setCall] at hk'
      rcases hnew with rfl | ⟨once, rfl⟩ <;> cases hk'
    · rw [calls_setCall_of_ne heq] at hk'
      exact hk'

/-- A call ends with an error. -/
theorem Kept.threw (h : c.Kept) (hsound : c'.Sound) (hanswered : ∀ index, c.Answered index → c'.Answered index)
    (hsettled : ∀ index, c.Settled index → c'.Settled index) (hbuffer : c'.buffer = c.buffer)
    (hpending : c'.pending = c.pending) (hpendingSeq : c'.pendingSeq = c.pendingSeq)
    (hsequence : c'.sequence = c.sequence) (hpublished : c'.published = c.published)
    (hcalls : c'.calls = Function.update c.calls k (some (.threw err))) : c'.Kept := by
  have hother : ∀ {k' call}, c'.calls k' = some call → call ≠ .threw err → c.calls k' = some call := by
    intro k' call hk' hne
    rw [hcalls] at hk'
    by_cases heq : k' = k
    · subst heq
      rw [Function.update_self] at hk'
      cases hk'
      exact absurd rfl hne
    · rwa [Function.update_of_ne heq] at hk'
  refine h.carry hsound (carries_of_same hbuffer hpending hpendingSeq hsequence hanswered hsettled) hpublished ?_ ?_
  · intro k' targetSeq before hactive
    rcases hactive with hk' | ⟨once, hk'⟩
    · exact Or.inl (hother hk' nofun)
    · exact Or.inr ⟨once, hother hk' nofun⟩
  · intro k' before hk'
    exact hother hk' nofun

theorem Kept.throwTo (h : c.Kept) (hk : k < c.callCount)
    (herr : ∀ flush err', c.once (.call k) = some (.owning flush) → c.flushes flush = some (.rejected err') →
      err' = err) : (c.throwTo k err).Kept :=
  h.threw (h.sound.same rfl rfl rfl rfl rfl rfl h.sound.stopped (fresh_setCall h.sound.fresh_call hk))
    (fun _ => Or.imp_right (List.mem_append_left _)) (fun _ hs => hs.throwTo herr) rfl rfl rfl rfl rfl rfl

theorem Kept.throwPending (h : c.Kept) (hk : k < c.callCount)
    (herr : c.flusherError = some err) (hfree : c.Free (.call k)) :
    ({ c with flusherError := none }.throwTo k err).Kept :=
  h.threw (h.sound.same rfl rfl rfl rfl rfl rfl nofun (fresh_setCall h.sound.fresh_call hk))
    (fun _ => Or.imp_right (List.mem_append_left _)) (fun _ hs => hs.throwPending herr hfree) rfl rfl rfl rfl rfl rfl

/-- A call returns when all items before it are answered. -/
theorem Kept.resolve (h : c.Kept) {k before : Nat} (hk : k < c.callCount) (hfree : c.Free (.call k))
    (hbefore : ∀ index < before, c.Answered index) : (c.setCall k (.resolved before)).Kept := by
  have hcarries : Carries c (c.setCall k (.resolved before)) :=
    carries_of_same rfl rfl rfl rfl (fun _ => id) fun _ => Settled.setCall hfree
  refine ⟨h.sound.setCall hk, ?_, ?_, ?_⟩
  · intro index hindex
    exact (h.conserved index hindex).imp id (Or.imp id (hcarries.settled index))
  · intro k' targetSeq before' hactive
    have hne : k' ≠ k := by
      rintro rfl
      unfold Active at hactive
      rw [calls_setCall] at hactive
      rcases hactive with hk | ⟨once, hk⟩ <;> cases hk
    rcases h.due k' targetSeq before' (hactive.of_setCall hne) with ⟨hle, hdue⟩
    exact ⟨hle, fun index hindex => hcarries.due (hdue index hindex)⟩
  · intro k' before' hk' index hindex
    refine hcarries.answered index ?_
    by_cases heq : k' = k
    · subst heq
      rw [calls_setCall] at hk'
      cases hk'
      exact hbefore index hindex
    · rw [calls_setCall_of_ne heq] at hk'
      exact h.flushed k' before' hk' index hindex

theorem Kept.setFlusher (h : c.Kept) {flusher : Flusher} (hnone : c.flusherError ≠ none → flusher = .stopped)
    (hflusher : ∀ flush err, c.once .flusher = some (.owning flush) → c.flushes flush = some (.rejected err) →
      err.kind ≠ .flushTimeoutError) : { c with flusher := flusher }.Kept :=
  h.carry (h.sound.same rfl rfl rfl rfl rfl rfl hnone h.sound.fresh_call)
    (carries_of_same rfl rfl rfl rfl (fun _ => id) fun _ hs => hs.setFlusher hflusher) rfl (fun _ _ _ => id) fun _ _ => id

theorem Kept.keep (h : c.Kept) (hnone : c.flusherError = none)
    (herr : ∀ flush err', c.once .flusher = some (.owning flush) → c.flushes flush = some (.rejected err') →
      err' = err) : { c with flusher := .stopped, flusherError := some err }.Kept :=
  h.carry (h.sound.same rfl rfl rfl rfl rfl rfl (fun _ => rfl) h.sound.fresh_call)
    (carries_of_same rfl rfl rfl rfl (fun _ => id) fun _ hs => hs.keep hnone herr) rfl (fun _ _ _ => id) fun _ _ => id

/-! ## Steps of `flushOnce` -/

theorem Sound.no_error (h : c.Sound) (hflusher : c.flusher = .flushing once) : c.flusherError = none := by
  by_contra hne
  rw [h.stopped hne] at hflusher
  cases hflusher

theorem Kept.setOnce (h : c.Kept) {old : Once} (new : Once) (honce : c.once user = some old)
    (hfree : c.Free user) : (c.setOnce user new).Kept := by
  cases user with
  | flusher =>
    refine h.setFlusher (fun hne => absurd (h.sound.no_error (flushing_of_once_flusher honce)) hne) ?_
    intro flush err howns hflush
    exact absurd hflush (hfree flush err howns)
  | call k =>
    rcases flushing_of_once_call honce with ⟨targetSeq, before, hcall⟩
    simp only [Client.setOnce, hcall]
    exact h.setActive hfree (Or.inr ⟨old, hcall⟩) (Or.inr ⟨new, rfl⟩)

theorem Kept.returnTo (h : c.Kept) {old : Once} (honce : c.once user = some old)
    (hfree : c.Free user) : (c.returnTo user).Kept := by
  cases user with
  | flusher =>
    refine h.setFlusher (fun hne => absurd (h.sound.no_error (flushing_of_once_flusher honce)) hne) ?_
    intro flush err howns hflush
    exact absurd hflush (hfree flush err howns)
  | call k =>
    rcases flushing_of_once_call honce with ⟨targetSeq, before, hcall⟩
    simp only [Client.returnTo, hcall]
    exact h.setActive hfree (Or.inr ⟨old, hcall⟩) (Or.inl rfl)

theorem Kept.throwIn (h : c.Kept) {old : Once} (honce : c.once user = some old)
    (herr : ∀ flush err', c.once user = some (.owning flush) → c.flushes flush = some (.rejected err') →
      err' = err) : (c.throwIn user err).Kept := by
  cases user with
  | flusher =>
    have hnone := h.sound.no_error (flushing_of_once_flusher honce)
    simp only [Client.throwIn]
    split
    · exact h.keep hnone herr
    · rename_i hkind
      refine h.setFlusher (fun hne => absurd hnone hne) ?_
      intro flush err' howns hflush
      rw [herr flush err' howns hflush]
      exact hkind
  | call k =>
    rcases flushing_of_once_call honce with ⟨targetSeq, before, hcall⟩
    exact h.throwTo (h.sound.call_lt (by rw [hcall]; nofun)) herr

theorem Flushing.release (h : c.Flushing) {flush : Nat}
    (hended : ∀ seq batch, c.flushes flush ≠ some (.running seq batch)) : (c.release flush).Flushing := by
  refine ⟨h.seq, ?_, h.fresh⟩
  intro flush' seq batch hrunning
  rcases h.running flush' seq batch hrunning with ⟨hcurrent, hpending⟩
  refine ⟨?_, hpending⟩
  have hne : ¬ c.currentFlush = some flush := by
    rw [hcurrent]
    rintro ⟨⟩
    exact hended seq batch hrunning
  simp only [Client.release, if_neg hne]
  exact hcurrent

theorem Kept.release (h : c.Kept) {flush : Nat} (hended : ∀ seq batch, c.flushes flush ≠ some (.running seq batch)) :
    (c.release flush).Kept := by
  have hsettled : ∀ index, c.Settled index → (c.release flush).Settled index :=
    fun _ hs => hs.congr rfl rfl rfl rfl rfl rfl
  exact h.carry ⟨h.sound.toFlushing.release hended, h.sound.stopped, h.sound.fresh_call⟩
    (carries_of_same rfl rfl rfl rfl (fun _ => id) hsettled) rfl (fun _ _ _ => id) fun _ _ => id

theorem Kept.resume (h : c.Kept) (user : User) : (c.resume user).Kept := by
  unfold Client.resume
  split
  · rename_i flush honce
    have hfree : c.Free user := free_of_once honce nofun
    split
    · exact h.setOnce _ honce hfree
    · refine h.throwIn honce fun flush' err' howns hflush => ?_
      exact absurd hflush (hfree flush' err' howns)
    · exact h
  · rename_i flush honce
    split
    · rename_i hflush
      have hended : ∀ seq batch, c.flushes flush ≠ some (.running seq batch) := by
        rw [hflush]
        nofun
      exact (h.release hended).returnTo honce (free_of_resolved (c := c.release flush) honce hflush)
    · rename_i err hflush
      have hended : ∀ seq batch, c.flushes flush ≠ some (.running seq batch) := by
        rw [hflush]
        nofun
      refine (h.release hended).throwIn honce fun flush' err' howns hflush' => ?_
      have heq : flush' = flush := by
        have := howns.symm.trans honce
        cases this
        rfl
      subst heq
      have := hflush'.symm.trans hflush
      cases this
      rfl
    · exact h
  · exact h

theorem Kept.carryFrame (h : c.Kept)
    (hframe : c'.calls = c.calls ∧ c'.callCount = c.callCount ∧ c'.flusher = c.flusher ∧
      c'.flusherError = c.flusherError ∧ c'.published = c.published)
    (hflushing : c'.Flushing) (hcarries : Carries c c') : c'.Kept := by
  rcases hframe with ⟨hcalls, hcount, hflusher, herror, hpublished⟩
  refine h.carry ⟨hflushing, ?_, ?_⟩ hcarries hpublished ?_ ?_
  · rw [herror, hflusher]
    exact h.sound.stopped
  · rw [hcalls, hcount]
    exact h.sound.fresh_call
  · intro k targetSeq before hactive
    unfold Active at hactive ⊢
    rw [← hcalls]
    exact hactive
  · intro k before hk
    rw [← hcalls]
    exact hk

/-! ## `_doFlush` -/

theorem setCall_doFlush (c : Client V) (k : Nat) (call : FlushCall) (expired : Bool) :
    (c.doFlush encode expired).setCall k call = (c.setCall k call).doFlush encode expired := by
  simp only [Client.doFlush, Client.setCall, Client.startFlush]
  cases c.pending with
  | some batch => cases expired <;> rfl
  | none =>
    by_cases hempty : c.buffer = []
    · simp only [hempty, if_true]
    · simp only [hempty, if_false]
      cases encodeBuffer encode c.buffer <;> rfl

theorem doFlush_frame (c : Client V) (expired : Bool) :
    (c.doFlush encode expired).calls = c.calls ∧ (c.doFlush encode expired).callCount = c.callCount ∧
      (c.doFlush encode expired).flusher = c.flusher ∧ (c.doFlush encode expired).flusherError = c.flusherError ∧
        (c.doFlush encode expired).published = c.published := by
  unfold Client.doFlush
  split
  · split <;> exact ⟨rfl, rfl, rfl, rfl, rfl⟩
  · split
    · exact ⟨rfl, rfl, rfl, rfl, rfl⟩
    · split <;> exact ⟨rfl, rfl, rfl, rfl, rfl⟩

theorem setOnce_doFlush (c : Client V) (user : User) (once : Once) (expired : Bool) :
    (c.doFlush encode expired).setOnce user once = (c.setOnce user once).doFlush encode expired := by
  cases user with
  | flusher =>
    simp only [Client.doFlush, Client.setOnce, Client.startFlush]
    cases c.pending with
    | some batch => cases expired <;> rfl
    | none =>
      by_cases hempty : c.buffer = []
      · simp only [hempty, if_true]
      · simp only [hempty, if_false]
        cases encodeBuffer encode c.buffer <;> rfl
  | call k =>
    simp only [Client.setOnce, (doFlush_frame c expired).1]
    split
    · exact setCall_doFlush c k _ expired
    · rfl

/-- The user owns the flush that is about to start. -/
structure Starting (c : Client V) (user : User) : Prop where
  owns : c.once user = some (.owning c.flushCount)
  idle : c.currentFlush = none

theorem Flushing.not_running (h : c.Flushing) (hidle : c.currentFlush = none) (flush seq : Nat) (batch : List Encoded) :
    c.flushes flush ≠ some (.running seq batch) := by
  intro hrunning
  have := (h.running flush seq batch hrunning).1
  rw [hidle] at this
  cases this

theorem Settled.startFlush {flush : Flush} (hflushing : c.Flushing) (h : c.Settled index) :
    (c.startFlush flush).Settled index := by
  have hfresh : ∀ err, c.flushes c.flushCount ≠ some (.rejected err) := by
    rw [hflushing.fresh c.flushCount le_rfl]
    nofun
  exact (h.setFlush flush (fun _ => id) hfresh).congr rfl rfl rfl rfl rfl rfl

theorem Flushing.startFlush (h : c.Flushing) (hidle : c.currentFlush = none) {flush : Flush}
    (hseq : c'.pending ≠ none → c'.pendingSeq = c'.sequence + 1)
    (hflush : ∀ seq batch, flush = .running seq batch → c'.pending = some batch ∧ c'.pendingSeq = seq)
    (hflushes : c'.flushes = c.flushes) (hcount : c'.flushCount = c.flushCount) :
    (c'.startFlush flush).Flushing := by
  refine ⟨hseq, ?_, ?_⟩
  · intro flush' seq batch hrunning
    simp only [Client.startFlush, hflushes, hcount] at hrunning ⊢
    by_cases heq : flush' = c.flushCount
    · subst heq
      rw [Function.update_self] at hrunning
      cases hrunning
      exact ⟨rfl, hflush seq batch rfl⟩
    · rw [Function.update_of_ne heq] at hrunning
      exact absurd hrunning (h.not_running hidle flush' seq batch)
  · intro flush' hle
    simp only [Client.startFlush, hflushes, hcount] at hle ⊢
    rw [Function.update_of_ne (by omega)]
    exact h.fresh flush' (by omega)

theorem Flushing.doFlush (h : c.Flushing) (hidle : c.currentFlush = none) (expired : Bool) :
    (c.doFlush encode expired).Flushing := by
  unfold Client.doFlush
  split
  · rename_i batch hpending
    split
    · exact h.startFlush hidle (fun hne => absurd rfl hne) nofun rfl rfl
    · refine h.startFlush hidle h.seq ?_ rfl rfl
      intro seq batch' heq
      cases heq
      exact ⟨hpending, rfl⟩
  · split
    · exact h.startFlush hidle h.seq nofun rfl rfl
    · split
      · exact h.startFlush hidle h.seq nofun rfl rfl
      · refine h.startFlush hidle (fun _ => rfl) ?_ rfl rfl
        intro seq batch' heq
        cases heq
        exact ⟨rfl, rfl⟩

theorem Starting.covered (h : c.Starting user)
    (hkind : user = .flusher → err.kind = .flushTimeoutError) (hcalls : c'.calls = c.calls)
    (hflusher : c'.flusher = c.flusher) (hcount : c'.flushCount = c.flushCount)
    (hindex : index ∈ err.items) : (c'.startFlush (.rejected err)).Covered index := by
  have hflush : (c'.startFlush (.rejected err)).flushes c.flushCount = some (.rejected err) := by
    simp only [Client.startFlush, hcount, Function.update_self]
  cases user with
  | flusher =>
    refine .keeping c.flushCount err hflush ?_ (hkind rfl) hindex
    exact hflusher.trans (flushing_of_once_flusher h.owns)
  | call k =>
    rcases flushing_of_once_call h.owns with ⟨targetSeq, before, hcall⟩
    refine .throwing c.flushCount err k targetSeq before hflush ?_ hindex
    exact (congrFun hcalls k).trans hcall

theorem encodeBuffer_index : ∀ {items : List (Item V)} {batch : List Encoded},
    encodeBuffer encode items = some batch → batch.map Encoded.index = items.map Item.index := by
  intro items
  induction items with
  | nil =>
    intro batch h
    cases h
    rfl
  | cons item items ih =>
    intro batch h
    simp only [encodeBuffer, List.mapM_cons, Option.bind_eq_bind, Option.pure_def, Option.bind_eq_some_iff,
      Option.map_eq_some_iff] at h
    rcases h with ⟨first, ⟨data, _, rfl⟩, rest, hrest, hbatch⟩
    cases hbatch
    simp only [List.map_cons, ih hrest]

theorem encodeBuffer_ne_none : ∀ {items : List (Item V)},
    (∀ item ∈ items, encode item.value ≠ none) → encodeBuffer encode items ≠ none := by
  intro items
  induction items with
  | nil =>
    intro _
    nofun
  | cons item items ih =>
    intro h
    rcases Option.ne_none_iff_exists'.mp (h item List.mem_cons_self) with ⟨data, hdata⟩
    rcases Option.ne_none_iff_exists'.mp (ih fun i hi => h i (List.mem_cons_of_mem _ hi)) with ⟨batch, hbatch⟩
    have hrest : items.mapM (fun item => (encode item.value).map fun data =>
        (⟨item.index, ⟨item.topic, data⟩⟩ : Encoded)) = some batch := hbatch
    simp [encodeBuffer, List.mapM_cons, hdata, hrest]

/-- The items go to the pending batch, or to the owner of the flush, who has to report them. -/
theorem Starting.carries {expired : Bool} (hstart : c.Starting user) (h : c.Flushing)
    (hencodes : user = .flusher → c.pending = none → ∀ item ∈ c.buffer, encode item.value ≠ none) :
    Carries c (c.doFlush encode expired) := by
  unfold Client.doFlush
  split
  · rename_i batch hpending
    split
    · -- the batch is given up
      refine ⟨fun _ => id, ?_, ?_, ?_⟩
      · intro index hs
        exact (hs.startFlush h).congr rfl rfl rfl rfl rfl rfl
      · rintro index ⟨batch', hbatch', hmem⟩
        rw [hpending] at hbatch'
        cases hbatch'
        refine Or.inl (Or.inr ?_)
        refine hstart.covered (fun _ => rfl) ?_ ?_ ?_ hmem <;> rfl
      · intro index hbuffer
        refine Or.inr (Or.inr ⟨hbuffer, ?_⟩)
        simp [nextSeq, Client.startFlush, hpending]
    · exact carries_of_same rfl rfl rfl rfl (fun _ => id) fun index hs => hs.startFlush h
  · rename_i hpending
    split
    · exact carries_of_same rfl rfl rfl rfl (fun _ => id) fun index hs => hs.startFlush h
    · split
      · rename_i hnone
        have huser : user ≠ .flusher := fun heq => encodeBuffer_ne_none (hencodes heq hpending) hnone
        refine ⟨fun _ => id, ?_, ?_, ?_⟩
        · intro index hs
          exact (hs.startFlush h).congr rfl rfl rfl rfl rfl rfl
        · rintro index ⟨batch, hbatch, _⟩
          rw [hpending] at hbatch
          cases hbatch
        · intro index hbuffer
          refine Or.inl (Or.inr ?_)
          refine hstart.covered (fun heq => absurd heq huser) ?_ ?_ ?_ hbuffer <;> rfl
      · rename_i batch hbatch
        refine ⟨fun _ => id, ?_, ?_, ?_⟩
        · intro index hs
          exact (hs.startFlush h).congr rfl rfl rfl rfl rfl rfl
        · rintro index ⟨batch', hbatch', _⟩
          rw [hpending] at hbatch'
          cases hbatch'
        · intro index hbuffer
          refine Or.inr (Or.inl ⟨⟨batch, rfl, ?_⟩, ?_⟩)
          · rw [encodeBuffer_index hbatch]
            exact hbuffer
          · simp [nextSeq, Client.startFlush, hpending]

theorem Kept.doFlush (h : c.Kept) (user : User) {expired : Bool} (hstart : c.Starting user)
    (hencodes : user = .flusher → c.pending = none → ∀ item ∈ c.buffer, encode item.value ≠ none) :
    (c.doFlush encode expired).Kept := by
  have hflushing := h.sound.toFlushing
  exact h.carryFrame (doFlush_frame c expired) (hflushing.doFlush hstart.idle expired)
    (hstart.carries hflushing hencodes)

theorem Kept.enter (h : c.Kept) (user : User) (expired : Bool) (hguard : Encodes encode c (.enter user expired)) :
    (c.enter encode user expired).Kept := by
  unfold Client.enter
  split
  · rename_i honce
    have hfree : c.Free user := free_of_once honce nofun
    split
    · exact h.setOnce _ honce hfree
    · rename_i hidle
      rw [setOnce_doFlush]
      have hset := h.setOnce (.owning c.flushCount) honce hfree
      cases user with
      | flusher =>
        refine hset.doFlush .flusher ⟨rfl, hidle⟩ fun _ hpending => ?_
        exact hguard (flushing_of_once_flusher honce) hidle hpending
      | call k =>
        rcases flushing_of_once_call honce with ⟨targetSeq, before, hcall⟩
        refine hset.doFlush (.call k) ?_ nofun
        simp only [Client.setOnce, hcall]
        exact ⟨once_call calls_setCall, hidle⟩
  · exact h

/-! ## The other steps -/

/-- The flush that was running ends. -/
theorem Flushing.endFlush (h : c.Flushing) {flush seq : Nat} {batch : List Encoded} {result : Flush}
    (hrunning : c.flushes flush = some (.running seq batch)) (hresult : ∀ seq batch, result ≠ .running seq batch)
    (hflushes : c'.flushes = Function.update c.flushes flush (some result)) (hcount : c'.flushCount = c.flushCount)
    (hseq : c'.pending ≠ none → c'.pendingSeq = c'.sequence + 1) : c'.Flushing := by
  have hcurrent := (h.running flush seq batch hrunning).1
  have hlt : flush < c.flushCount := by
    by_contra hge
    rw [h.fresh flush (by omega)] at hrunning
    cases hrunning
  refine ⟨hseq, ?_, ?_⟩
  · intro flush' seq' batch' hrunning'
    rw [hflushes] at hrunning'
    by_cases heq : flush' = flush
    · subst heq
      rw [Function.update_self] at hrunning'
      cases hrunning'
      exact absurd rfl (hresult seq' batch')
    · rw [Function.update_of_ne heq] at hrunning'
      have hcurrent' := (h.running flush' seq' batch' hrunning').1
      rw [hcurrent] at hcurrent'
      cases hcurrent'
      exact absurd rfl heq
  · intro flush' hle
    rw [hcount] at hle
    rw [hflushes, Function.update_of_ne (by omega)]
    exact h.fresh flush' hle

theorem Flushing.signalled (h : c.Flushing) (flush : Nat) (ok : Bool) : (c.signalled flush ok).Flushing := by
  unfold Client.signalled
  split
  · rename_i seq batch hrunning
    split
    · refine h.endFlush hrunning ?_ rfl rfl fun hne => absurd rfl hne
      nofun
    · refine h.endFlush hrunning ?_ rfl rfl h.seq
      nofun
  · exact h

theorem Flushing.signalled_carries (h : c.Flushing) (flush : Nat) (ok : Bool) : Carries c (c.signalled flush ok) := by
  unfold Client.signalled
  split
  · rename_i seq batch hrunning
    rcases h.running flush seq batch hrunning with ⟨_, hpending, hseq⟩
    have hnot : ∀ err, c.flushes flush ≠ some (.rejected err) := by
      rw [hrunning]
      nofun
    split
    · refine ⟨fun _ => Or.imp_left (List.mem_append_left _), ?_, ?_, ?_⟩
      · intro index hs
        exact (hs.setFlush .resolved (fun _ => List.mem_append_left _) hnot).congr rfl rfl rfl rfl rfl rfl
      · rintro index ⟨batch', hbatch', hmem⟩
        rw [hpending] at hbatch'
        cases hbatch'
        exact Or.inl (Or.inl (List.mem_append_right _ hmem))
      · intro index hbuffer
        refine Or.inr (Or.inr ⟨hbuffer, ?_⟩)
        simp [nextSeq, hpending, hseq]
    · refine carries_of_same rfl rfl rfl rfl (fun _ => id) fun index hs => ?_
      exact (hs.setFlush (.rejected ⟨.signal, []⟩) (fun _ => id) hnot).congr rfl rfl rfl rfl rfl rfl
  · exact carries_of_same rfl rfl rfl rfl (fun _ => id) fun _ => id

theorem signalled_frame (c : Client V) (flush : Nat) (ok : Bool) :
    (c.signalled flush ok).calls = c.calls ∧ (c.signalled flush ok).callCount = c.callCount ∧
      (c.signalled flush ok).flusher = c.flusher ∧ (c.signalled flush ok).flusherError = c.flusherError ∧
        (c.signalled flush ok).published = c.published := by
  unfold Client.signalled
  split
  · split <;> exact ⟨rfl, rfl, rfl, rfl, rfl⟩
  · exact ⟨rfl, rfl, rfl, rfl, rfl⟩

theorem Kept.signalled (h : c.Kept) (flush : Nat) (ok : Bool) : (c.signalled flush ok).Kept := by
  exact h.carryFrame (signalled_frame c flush ok) (h.sound.toFlushing.signalled flush ok) (h.sound.toFlushing.signalled_carries flush ok)

theorem Kept.publish (h : c.Kept) (topic : String) (value : V) : (c.publish topic value).Kept := by
  have hflusher : ∀ once, (c.publish topic value).flusher = .flushing once ↔ c.flusher = .flushing once := by
    intro once
    simp only [Client.publish]
    split
    · rename_i heq
      rw [heq]
      constructor <;> nofun
    · exact Iff.rfl
  have hsettled : ∀ index, c.Settled index → (c.publish topic value).Settled index := by
    rintro index (hack | hcovered)
    · exact Or.inl hack
    · refine Or.inr ?_
      cases hcovered with
      | reported h => exact .reported h
      | kept err herr h => exact .kept err herr h
      | throwing flush err k targetSeq before hflush hk h => exact .throwing flush err k targetSeq before hflush hk h
      | keeping flush err hflush howns hkind h =>
        exact .keeping flush err hflush ((hflusher _).mpr howns) hkind h
  have hcarries : Carries c (c.publish topic value) := by
    refine ⟨fun _ => id, hsettled, fun index hpending => Or.inr ⟨hpending, rfl⟩, fun index hbuffer => Or.inr (Or.inr ⟨?_, rfl⟩)⟩
    unfold InBuffer at *
    simp only [Client.publish, List.map_append, List.mem_append]
    exact Or.inl hbuffer
  refine ⟨h.sound.same rfl rfl rfl rfl rfl rfl ?_ h.sound.fresh_call, ?_, ?_, ?_⟩
  · intro hne
    have hstopped := h.sound.stopped hne
    simp only [Client.publish, hstopped]
    rfl
  · intro index hindex
    by_cases heq : index = c.published
    · refine Or.inl ?_
      simp [InBuffer, Client.publish, heq]
    · have hlt : index < c.published := by
        have : index < c.published + 1 := hindex
        omega
      rcases h.conserved index hlt with hbuffer | hpending | hs
      · rcases hcarries.buffer index hbuffer with hs | ⟨hp, _⟩ | ⟨hb, _⟩
        · exact Or.inr (Or.inr hs)
        · exact Or.inr (Or.inl hp)
        · exact Or.inl hb
      · exact Or.inr (Or.inl hpending)
      · exact Or.inr (Or.inr (hsettled index hs))
  · intro k targetSeq before hactive
    rcases h.due k targetSeq before hactive with ⟨hle, hdue⟩
    exact ⟨Nat.le_succ_of_le hle, fun index hindex => hcarries.due (hdue index hindex)⟩
  · exact h.flushed

theorem Sound.settled_of_due (h : c.Sound) {targetSeq index : Nat} (hdue : c.Due targetSeq index)
    (hreached : targetSeq ≤ c.sequence) : c.Settled index := by
  rcases hdue with hs | ⟨⟨batch, hbatch, _⟩, hle⟩ | ⟨_, hle⟩
  · exact hs
  · have hseq := h.seq (by rw [hbatch]; nofun)
    omega
  · unfold nextSeq at hle
    split at hle
    · omega
    · rename_i hpending
      have hseq := h.seq hpending
      omega

/-- Without an error that is kept, what is settled is answered or still unseen. -/
theorem Settled.answered (h : c.Settled index) (hnone : c.flusherError = none) (hseen : ¬ c.Unseen index) :
    c.Answered index := by
  rcases h with hack | hcovered
  · exact Or.inl hack
  · cases hcovered with
    | reported h => exact Or.inr h
    | kept err herr h =>
      rw [hnone] at herr
      cases herr
    | throwing flush err k targetSeq before hflush hk h =>
      exact absurd ⟨.call k, flush, err, once_call hk, hflush, h⟩ hseen
    | keeping flush err hflush hflusher hkind h =>
      exact absurd ⟨.flusher, flush, err, once_flusher hflusher, hflush, h⟩ hseen

theorem free_of_not_flushing (h : ∀ targetSeq before once, c.calls k ≠ some (.flushing targetSeq before once)) :
    c.Free (.call k) := by
  intro flush err howns
  rcases flushing_of_once_call howns with ⟨targetSeq, before, hcall⟩
  exact absurd hcall (h targetSeq before _)

theorem Kept.check (h : c.Kept) (k : Nat) (hseen : c.Seen (.check k)) : (c.check k).Kept := by
  unfold Client.check
  split
  · rename_i targetSeq before hcall
    have hactive : c.Active k targetSeq before := Or.inl hcall
    have hfree : c.Free (.call k) := by
      refine free_of_not_flushing ?_
      rw [hcall]
      nofun
    have hlt := hactive.lt h.sound
    split
    · exact h.setActive hfree hactive (Or.inr ⟨.entering, rfl⟩)
    · rename_i hreached
      split
      · rename_i err herr
        exact h.throwPending hlt herr hfree
      · rename_i hnone
        refine h.resolve hlt hfree fun index hindex => ?_
        have hle : targetSeq ≤ c.sequence := by omega
        have hsettled := h.sound.settled_of_due ((h.due k targetSeq before hactive).2 index hindex) hle
        exact hsettled.answered hnone (hseen targetSeq before hcall hle hnone index hindex)
  · exact h

theorem Kept.newCall (h : c.Kept) : { c with callCount := c.callCount + 1 }.Kept := by
  refine h.carry (h.sound.same rfl rfl rfl rfl rfl rfl h.sound.stopped ?_) (carries_of_same rfl rfl rfl rfl (fun _ => id) ?_) rfl
    (fun _ _ _ => id) fun _ _ => id
  · intro k hk
    exact h.sound.fresh_call k (Nat.le_of_succ_le hk)
  · intro index hs
    exact hs.congr rfl rfl rfl rfl rfl rfl

/-- A call starts with what is in the buffer and pending ahead of it. -/
theorem Kept.start (h : c.Kept) {k targetSeq : Nat} (hk : k < c.callCount) (hnone : c.calls k = none)
    (hdue : ∀ index < c.published, c.Due targetSeq index) : (c.setCall k (.checking targetSeq c.published)).Kept := by
  have hfree : c.Free (.call k) := by
    refine free_of_not_flushing ?_
    rw [hnone]
    nofun
  have hcarries : Carries c (c.setCall k (.checking targetSeq c.published)) :=
    carries_of_same rfl rfl rfl rfl (fun _ => id) fun _ => Settled.setCall hfree
  refine ⟨h.sound.setCall hk, ?_, ?_, ?_⟩
  · intro index hindex
    exact (h.conserved index hindex).imp id (Or.imp id (hcarries.settled index))
  · intro k' targetSeq' before hactive
    by_cases heq : k' = k
    · subst heq
      unfold Active at hactive
      rw [calls_setCall] at hactive
      rcases hactive with hk' | ⟨once, hk'⟩ <;> cases hk'
      exact ⟨le_rfl, fun index hindex => hcarries.due (hdue index hindex)⟩
    · rcases h.due k' targetSeq' before (hactive.of_setCall heq) with ⟨hle, hdue'⟩
      exact ⟨hle, fun index hindex => hcarries.due (hdue' index hindex)⟩
  · intro k' before hk' index hindex
    have hne : k' ≠ k := by
      rintro rfl
      rw [calls_setCall] at hk'
      cases hk'
    rw [calls_setCall_of_ne hne] at hk'
    exact hcarries.answered index (h.flushed k' before hk' index hindex)

theorem Kept.due_target (h : c.Kept) (hindex : index < c.published) :
    c.Due (if c.buffer = [] then (if c.pending = none then c.sequence else c.pendingSeq)
      else (if c.pending = none then c.sequence else c.pendingSeq) + 1) index := by
  rcases h.conserved index hindex with hbuffer | hpending | hs
  · refine Or.inr (Or.inr ⟨hbuffer, ?_⟩)
    have hne : c.buffer ≠ [] := by
      intro heq
      simp [InBuffer, heq] at hbuffer
    rw [if_neg hne]
    unfold nextSeq
    split <;> exact le_rfl
  · refine Or.inr (Or.inl ⟨hpending, ?_⟩)
    have hne : ¬ c.pending = none := by
      rcases hpending with ⟨batch, hbatch, _⟩
      rw [hbatch]
      nofun
    rw [if_neg hne]
    split <;> omega
  · exact Or.inl hs

theorem Kept.flush (h : c.Kept) (hseen : c.Seen .flush) : c.flush.Kept := by
  have hnew := h.newCall
  have hlt : c.callCount < c.callCount + 1 := Nat.lt_succ_self _
  have hnone : c.calls c.callCount = none := h.sound.fresh_call c.callCount le_rfl
  have hfree : { c with callCount := c.callCount + 1 }.Free (.call c.callCount) := by
    refine free_of_not_flushing ?_
    intro targetSeq before once hcall
    exact absurd (hnone.symm.trans hcall) nofun
  unfold Client.flush
  simp only
  split
  · rename_i err herr
    exact hnew.throwPending hlt herr hfree
  · rename_i hkept
    split
    · rename_i hempty
      refine hnew.resolve hlt hfree fun index hindex => ?_
      rcases h.conserved index hindex with hbuffer | ⟨batch, hbatch, _⟩ | hs
      · simp [InBuffer, hempty.2] at hbuffer
      · simp [hempty.1] at hbatch
      · exact hs.answered hkept (hseen hkept hempty.1 hempty.2 index hindex)
    · exact hnew.start hlt hnone fun index hindex => hnew.due_target hindex

theorem Kept.step (h : c.Kept) (e : ClientEvent V) (hguard : Encodes encode c e) (hseen : c.Seen e) :
    (c.step encode e).Kept := by
  cases e with
  | publish topic value => exact h.publish topic value
  | flush => exact h.flush hseen
  | wake =>
    simp only [Client.step]
    split
    · rename_i hasleep
      refine h.setFlusher (fun hne => ?_) ?_
      · have hstopped := h.sound.stopped hne
        rw [hasleep] at hstopped
        cases hstopped
      · intro flush err honce
        have := flushing_of_once_flusher honce
        rw [hasleep] at this
        cases this
    · exact h
  | enter user expired => exact h.enter user expired hguard
  | resume user => exact h.resume user
  | check k => exact h.check k hseen
  | signalled flush ok => exact h.signalled flush ok

/-! ## What the flusher keeps is thrown -/

theorem throws_throwTo (c : Client V) (k : Nat) (err : FlushError) : (c.throwTo k err).Throws k err :=
  ⟨calls_setCall, fun _ => List.mem_append_right _⟩

theorem surfaces (c : Client V) : c.Surfaces := by
  refine ⟨?_, ?_, ?_, ?_⟩
  · intro err herr
    simp only [Client.flush, herr]
    exact throws_throwTo _ c.callCount err
  · intro err k targetSeq before herr hcall hreached
    simp only [Client.check, hcall, if_neg (Nat.not_lt.mpr hreached), herr]
    exact throws_throwTo _ k err
  · intro flush err k targetSeq before hflush hcall
    simp only [Client.resume, once_call hcall, hflush]
    exact throws_throwTo _ k err
  · intro flush err hflush hflusher hkind
    simp only [Client.resume, once_flusher hflusher, hflush, Client.throwIn, if_pos hkind]

theorem Kept.noSilentLoss (h : c.Kept) : c.NoSilentLoss := ⟨h.conserved, h.flushed, c.surfaces⟩

theorem kept_init : (init : Client V).Kept := by
  refine ⟨⟨⟨nofun, nofun, fun _ _ => rfl⟩, nofun, fun _ _ => rfl⟩, nofun, ?_, nofun⟩
  rintro k targetSeq before (h | ⟨once, h⟩) <;> cases h

/-- As long as the background flusher encodes only what the converter accepts, and no call returns before the error
for an item is seen, no item is lost in silence and `flush()` returns only when the items before it are answered. -/
theorem no_silent_loss (encode : V → Option (List Char)) (es : List (ClientEvent V))
    (hguard : Guarded (Client.step encode) (fun c e => Encodes encode c e ∧ c.Seen e) init es) :
    Throughout (Client.step encode) NoSilentLoss init es := by
  have hkept : ∀ (c : Client V) e, Encodes encode c e ∧ c.Seen e → c.Kept → (c.step encode e).Kept :=
    fun c e hguard h => h.step e hguard.1 hguard.2
  exact throughout_of_invariant hkept (fun _ => Kept.noSilentLoss) kept_init hguard

/-- Two items, of which `flush()` sends the first and throws for the second (`none` is a value that the
converter rejects), and one that the flusher sends. -/
def flushedRun : List (ClientEvent (Option (List Char))) :=
  [.publish "a" (some ['x']), .flush, .check 0, .enter (.call 0) false, .publish "a" none, .signalled 0 true,
    .resume (.call 0), .check 0, .flush, .check 1, .enter (.call 1) false, .resume (.call 1),
    .publish "a" (some ['y']), .wake, .enter .flusher false, .signalled 2 false, .resume .flusher, .wake,
    .enter .flusher false, .signalled 3 true, .resume .flusher]

theorem flushedRun_encodes : Guarded (Client.step id) (Encodes id) init flushedRun := by
  refine ⟨trivial, trivial, trivial, trivial, trivial, trivial, trivial, trivial, trivial, trivial, trivial,
    trivial, trivial, trivial, ?_, trivial, trivial, trivial, ?_, trivial, trivial, trivial⟩
  · intro _ _ _ item hitem
    rw [List.mem_singleton.mp (show item ∈ [⟨2, "a", some ['y']⟩] from hitem)]
    nofun
  · intro _ _ hpending
    cases hpending

theorem flushedRun_seen : Guarded (Client.step id) Seen init flushedRun := by
  refine ⟨trivial, ?_, ?_, trivial, trivial, trivial, trivial, ?_, ?_, ?_, trivial, trivial, trivial, trivial,
    trivial, trivial, trivial, trivial, trivial, trivial, trivial, trivial⟩
  · intro _ _ hempty
    cases hempty
  · intro targetSeq before hcall hreached
    cases hcall
    exact absurd hreached (by decide)
  · -- the first call returns: its flush is the only one, and was sent
    rintro targetSeq before - - - index - ⟨user, flush, err, -, hflush, -⟩
    cases flush with
    | zero | succ => cases hflush
  · intro _ _ hempty
    cases hempty
  · intro targetSeq before hcall hreached
    cases hcall
    exact absurd hreached (by decide)

/-- An item that the flusher gives up, for which the next call of `flush()` throws. -/
def keptRun : List (ClientEvent (Option (List Char))) :=
  [.publish "a" (some ['x']), .wake, .enter .flusher false, .signalled 0 false, .resume .flusher, .wake,
    .enter .flusher true, .resume .flusher, .flush]

theorem keptRun_guarded : Guarded (Client.step id) (fun c e => Encodes id c e ∧ c.Seen e) init keptRun := by
  refine ⟨⟨trivial, trivial⟩, ⟨trivial, trivial⟩, ⟨?_, trivial⟩, ⟨trivial, trivial⟩, ⟨trivial, trivial⟩,
    ⟨trivial, trivial⟩, ⟨?_, trivial⟩, ⟨trivial, trivial⟩, ⟨trivial, ?_⟩, trivial⟩
  · intro _ _ _ item hitem
    rw [List.mem_singleton.mp (show item ∈ [⟨0, "a", some ['x']⟩] from hitem)]
    nofun
  · intro _ _ hpending
    cases hpending
  · intro hnone
    cases hnone

theorem flushedRun_no_silent_loss :
    (Guarded (Client.step id) (fun c e => Encodes id c e ∧ c.Seen e) init flushedRun ∧
      Throughout (Client.step id) NoSilentLoss init flushedRun) ∧
    (Throughout (Client.step id) NoSilentLoss init keptRun ∧
      (run (Client.step id) init keptRun).calls 0 = some (.threw ⟨.flushTimeoutError, [0]⟩)) := by
  have hguard := flushedRun_encodes.and flushedRun_seen
  exact ⟨⟨hguard, no_silent_loss id flushedRun hguard⟩, no_silent_loss id keptRun keptRun_guarded, rfl⟩

/-- The flusher takes the buffer for a value that does not encode, and goes on; `flush()` then has nothing to
send. -/
def swallowedRun : List (ClientEvent (Option (List Char))) :=
  [.publish "a" none, .wake, .enter .flusher false, .resume .flusher, .flush]

/-- The flusher gives an item up, and `flush()` is called before it has kept the error. -/
def overtakenRun : List (ClientEvent (Option (List Char))) :=
  [.publish "a" (some ['x']), .wake, .enter .flusher false, .signalled 0 false, .resume .flusher, .wake,
    .enter .flusher true, .flush]

theorem not_no_silent_loss :
    ((run (Client.step id) init swallowedRun).calls 0 = some (.resolved 1) ∧
      ¬ (run (Client.step id) init swallowedRun).Settled 0 ∧
        ¬ (run (Client.step id) init swallowedRun).NoSilentLoss) ∧
    ((run (Client.step id) init overtakenRun).calls 0 = some (.resolved 1) ∧
      ¬ (run (Client.step id) init overtakenRun).NoSilentLoss) := by
  have hcall : (run (Client.step id) init swallowedRun).calls 0 = some (.resolved 1) := rfl
  have hnot : ¬ (run (Client.step id) init swallowedRun).Settled 0 := by
    rintro (hack | hcovered)
    · cases hack
    · cases hcovered with
      | reported h => cases h
      | kept err herr h => cases herr
      | throwing flush err k targetSeq before hflush hk h =>
        cases k with
        | zero | succ => cases hk
      | keeping flush err hflush hflusher hkind h => cases hflusher
  have hcall' : (run (Client.step id) init overtakenRun).calls 0 = some (.resolved 1) := rfl
  have hlost : ∀ {c : Client (Option (List Char))}, c.calls 0 = some (.resolved 1) → c.acknowledged = [] →
      c.reported = [] → ¬ c.NoSilentLoss := by
    intro c hresolved hack hreported h
    have hanswered := h.flushed 0 1 hresolved 0 Nat.zero_lt_one
    unfold Answered at hanswered
    rw [hack, hreported] at hanswered
    rcases hanswered with hmem | hmem <;> cases hmem
  exact ⟨⟨hcall, hnot, hlost hcall rfl rfl⟩, hcall', hlost hcall' rfl rfl⟩

end Client

end Publisher
end TemporalSdk.Streams
