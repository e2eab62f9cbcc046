import TemporalSdk.Encoding.TextEncoder
import TemporalSdk.Machine.Run
import TemporalSdk.Workflow.RandomNumbers

/-!
# RandomStreams — the random streams of a workflow

`Math.random` of a workflow is a stream of pseudo-random numbers made from the seed of the execution.
Plugins and interceptors can have streams of their own, made from the seed and a name when they are first
used, and can route `Math.random` through one of them for the extent of a call and of what it awaits.

The model has the derivation of seeds, the activator's streams and the storage that says which stream is
current; a run is any interleaving of draws, scopes, continuations and new seeds.
-/

namespace TemporalSdk.RandomStreams

open Machine
open RandomNumbers (Alea alea)

/-! ## Seeds -/

/-- The bytes of a string: `encode` does not throw. -/
def encode (input : JsText) : List Nat :=
  ((Encoding.encode input).get (Encoding.encode_total input)).map UInt8.toNat

def randomStreamSeedPrefix : List Nat :=
  encode (JsText.ofString "temporal-workflow-random-stream-v1")

def encodeU32 (value : Nat) : List Nat :=
  [value / 0x1000000 % 0x100, value / 0x10000 % 0x100, value / 0x100 % 0x100, value % 0x100]

def deriveAleaSeed (seed : List Nat) (name : JsText) : List Nat :=
  let nameBytes := encode name
  randomStreamSeedPrefix ++ encodeU32 seed.length ++ seed ++ encodeU32 nameBytes.length ++ nameBytes

/-! ## The activator -/

/-- The `WorkflowRandomStream`s: `workflowRandom`, and what `getRandomStream` returns. -/
inductive Source
  | workflowRandom
  | named (name : JsText)
  deriving DecidableEq

structure Activator where
  randomnessSeed : List Nat
  random : Alea
  namedRandomStreams : JsText → Option Alea

namespace Activator

def init (randomnessSeed : List Nat) : Activator := ⟨randomnessSeed, alea randomnessSeed, fun _ => none⟩

def setRandomnessSeed (_ : Activator) (randomnessSeed : List Nat) : Activator :=
  ⟨randomnessSeed, alea randomnessSeed, fun _ => none⟩

def setNamed (a : Activator) (name : JsText) (random : Alea) : Activator :=
  { a with
    namedRandomStreams := fun name' =>
      if name' = name then some random else a.namedRandomStreams name' }

/-- The generator of a name, and the activator that has it. -/
def getNamedRandom (a : Activator) (name : JsText) : Alea × Activator :=
  match a.namedRandomStreams name with
  | some cached => (cached, a)
  | none =>
    let random := alea (deriveAleaSeed a.randomnessSeed name)
    (random, a.setNamed name random)

/-- The method `random` of a stream. -/
def sourceRandom (a : Activator) : Source → ℚ × Activator
  | .workflowRandom => (a.random.value, { a with random := a.random.next })
  | .named name =>
    let (random, a) := a.getNamedRandom name
    (random.value, a.setNamed name random.next)

/-- `currentRandom`, given the store of `currentRandomStorage`. -/
def currentRandom (a : Activator) : Option Source → ℚ × Activator
  | some randomSource => a.sourceRandom randomSource
  | none => (a.random.value, { a with random := a.random.next })

end Activator

/-! ## Runs -/

inductive Event
  /-- A call of `with` begins, by a stream, and ends: its extent does not include what it awaits. -/
  | withCurrentRandom (source : Source)
  | leave
  /-- An `await`, or `bindCurrentRandom`: the current store is kept. -/
  | capture
  /-- A bound function is called. -/
  | callBound (i : Nat)
  /-- The job at hand ends, and a continuation runs. -/
  | resume (i : Nat)
  | mathRandom
  | uuid4
  | random (source : Source)
  | streamUuid4 (source : Source)
  | fill (source : Source) (bytes : Nat)
  | updateRandomSeed (randomnessSeed : List Nat)

/-- `stores` are those of the calls under way, innermost first, and `captured` those of continuations and
bound functions.  `drawn` says what was drawn from which stream since the last seed. -/
structure State where
  activator : Activator
  stores : List (Option Source)
  captured : List (Option Source)
  drawn : List (Source × ℚ)

namespace State

def init (randomnessSeed : List Nat) : State := ⟨Activator.init randomnessSeed, [], [], []⟩

def getStore (s : State) : Option Source := s.stores.head?.join

/-- `Math.random`: a draw from the stream in whose scope it stands. -/
def drawCurrent (s : State) : State :=
  { s with
    activator := (s.activator.currentRandom s.getStore).2
    drawn := s.drawn ++
      [(s.getStore.getD .workflowRandom, (s.activator.currentRandom s.getStore).1)] }

def draw (s : State) (source : Source) : State :=
  { s with
    activator := (s.activator.sourceRandom source).2
    drawn := s.drawn ++ [(source, (s.activator.sourceRandom source).1)] }

def step (s : State) : Event → State
  | .withCurrentRandom source => { s with stores := some source :: s.stores }
  | .leave => { s with stores := s.stores.tail }
  | .capture => { s with captured := s.captured ++ [s.getStore] }
  | .callBound i => { s with stores := (s.captured[i]?).join :: s.stores }
  | .resume i => { s with stores := [(s.captured[i]?).join] }
  | .mathRandom => s.drawCurrent
  | .uuid4 => drawCurrent^[4] s
  | .random source => s.draw source
  | .streamUuid4 source => (draw · source)^[4] s
  | .fill source bytes => (draw · source)^[bytes] s
  | .updateRandomSeed randomnessSeed =>
    { s with
      activator := s.activator.setRandomnessSeed randomnessSeed
      drawn := [] }

/-- What was drawn from a stream since the last seed. -/
def drawsOf (s : State) (source : Source) : List ℚ :=
  (s.drawn.filter fun entry => entry.1 = source).map Prod.snd

end State

/-- The streams that an event draws from, a number each, where a store is the current one. -/
def Event.sources (store : Option Source) : Event → List Source
  | .mathRandom => [store.getD .workflowRandom]
  | .uuid4 => List.replicate 4 (store.getD .workflowRandom)
  | .random source => [source]
  | .streamUuid4 source => List.replicate 4 source
  | .fill source bytes => List.replicate bytes source
  | _ => []

def Event.isSeed : Event → Bool
  | .updateRandomSeed _ => true
  | _ => false

/-- The seed that a run ends with. -/
def currentSeed (randomnessSeed : List Nat) : List Event → List Nat
  | [] => randomnessSeed
  | .updateRandomSeed randomnessSeed' :: events => currentSeed randomnessSeed' events
  | _ :: events => currentSeed randomnessSeed events

/-- The seed of a stream's generator. -/
def Source.seed (randomnessSeed : List Nat) : Source → List Nat
  | .workflowRandom => randomnessSeed
  | .named name => deriveAleaSeed randomnessSeed name

/-! ## Draws -/

namespace Activator

/-- The generator that the next number of a stream comes from. -/
def generator (a : Activator) : Source → Alea
  | .workflowRandom => a.random
  | .named name => (a.namedRandomStreams name).getD (alea (deriveAleaSeed a.randomnessSeed name))

variable (a : Activator)

theorem getNamedRandom_fst (name : JsText) :
    (a.getNamedRandom name).1 = a.generator (.named name) := by
  cases hcached : a.namedRandomStreams name <;> simp [getNamedRandom, generator, hcached]

theorem getNamedRandom_randomnessSeed (name : JsText) :
    (a.getNamedRandom name).2.randomnessSeed = a.randomnessSeed := by
  unfold getNamedRandom
  cases a.namedRandomStreams name <;> rfl

theorem generator_setNamed (name : JsText) (random : Alea) (source : Source) :
    (a.setNamed name random).generator source =
      if source = .named name then random else a.generator source := by
  cases source with
  | workflowRandom => simp [generator, setNamed]
  | named name' => by_cases hname : name' = name <;> simp [generator, setNamed, hname]

theorem generator_getNamedRandom (name : JsText) (source : Source) :
    (a.getNamedRandom name).2.generator source = a.generator source := by
  unfold getNamedRandom
  cases hcached : a.namedRandomStreams name with
  | some cached => rfl
  | none =>
    rw [generator_setNamed]
    split
    · rename_i hsource
      simp [hsource, generator, hcached]
    · rfl

theorem sourceRandom_fst (source : Source) :
    (a.sourceRandom source).1 = (a.generator source).value := by
  cases source with
  | workflowRandom => rfl
  | named name => simp only [sourceRandom, getNamedRandom_fst]

theorem generator_sourceRandom (source source' : Source) :
    (a.sourceRandom source).2.generator source' =
      if source' = source then (a.generator source).next else a.generator source' := by
  cases source with
  | workflowRandom => cases source' <;> simp [sourceRandom, generator]
  | named name =>
    simp only [sourceRandom, generator_setNamed, getNamedRandom_fst, generator_getNamedRandom]

theorem sourceRandom_randomnessSeed (source : Source) :
    (a.sourceRandom source).2.randomnessSeed = a.randomnessSeed := by
  cases source with
  | workflowRandom => rfl
  | named name => exact a.getNamedRandom_randomnessSeed name

theorem currentRandom_eq (store : Option Source) :
    a.currentRandom store = a.sourceRandom (store.getD .workflowRandom) := by
  cases store <;> rfl

end Activator

namespace State

theorem drawCurrent_eq (s : State) : s.drawCurrent = s.draw (s.getStore.getD .workflowRandom) := by
  simp only [drawCurrent, draw, Activator.currentRandom_eq]

theorem sources_iterate_draw (source : Source) (n : Nat) (s : State) :
    ((draw · source)^[n] s).drawn.map Prod.fst = s.drawn.map Prod.fst ++ List.replicate n source := by
  induction n generalizing s with
  | zero => simp
  | succ n ih =>
    rw [Function.iterate_succ_apply, ih (s.draw source)]
    simp [draw, List.replicate_succ]

theorem iterate_drawCurrent (n : Nat) (s : State) :
    drawCurrent^[n] s = (draw · (s.getStore.getD .workflowRandom))^[n] s := by
  induction n generalizing s with
  | zero => rfl
  | succ n ih =>
    rw [Function.iterate_succ_apply, Function.iterate_succ_apply, ih s.drawCurrent, drawCurrent_eq]
    rfl

/-- Each event draws the numbers of its own streams, and no others. -/
theorem sources_step (s : State) (event : Event) :
    (s.step event).drawn.map Prod.fst =
      if event.isSeed then [] else s.drawn.map Prod.fst ++ event.sources s.getStore := by
  cases event with
  | withCurrentRandom | leave | capture | callBound | resume => exact (List.append_nil _).symm
  | mathRandom => simp [step, drawCurrent, Event.isSeed, Event.sources]
  | uuid4 =>
    have hdraws := sources_iterate_draw (s.getStore.getD .workflowRandom) 4 s
    rw [← iterate_drawCurrent] at hdraws
    exact hdraws
  | random source => simp [step, draw, Event.isSeed, Event.sources]
  | streamUuid4 source => exact sources_iterate_draw source 4 s
  | fill source bytes => exact sources_iterate_draw source bytes s
  | updateRandomSeed => rfl

/-- The streams are where their own draws have brought them from the seed. -/
structure Inv (randomnessSeed : List Nat) (s : State) : Prop where
  seed : s.activator.randomnessSeed = randomnessSeed
  generator : ∀ source, s.activator.generator source =
    Alea.next^[(s.drawsOf source).length] (alea (source.seed randomnessSeed))
  drawn : ∀ source, s.drawsOf source =
    (List.range (s.drawsOf source).length).map (alea (source.seed randomnessSeed)).nth

theorem drawsOf_draw (s : State) (source source' : Source) :
    (s.draw source).drawsOf source' =
      if source' = source then s.drawsOf source' ++ [(s.activator.generator source).value]
      else s.drawsOf source' := by
  by_cases hsource : source' = source
  · subst hsource
    simp [drawsOf, draw, Activator.sourceRandom_fst]
  · simp [drawsOf, draw, hsource, Ne.symm hsource]

variable {randomnessSeed : List Nat} {s : State}

theorem Inv.ofSeed (randomnessSeed : List Nat) (stores captured : List (Option Source)) :
    Inv randomnessSeed ⟨Activator.init randomnessSeed, stores, captured, []⟩ where
  seed := rfl
  generator := by
    intro source
    cases source <;> rfl
  drawn := by simp [drawsOf]

theorem Inv.draw (h : Inv randomnessSeed s) (source : Source) :
    Inv randomnessSeed (s.draw source) where
  seed := (s.activator.sourceRandom_randomnessSeed source).trans h.seed
  generator := by
    intro source'
    have hgenerator := s.activator.generator_sourceRandom source source'
    rw [drawsOf_draw]
    by_cases hsource : source' = source
    · rw [if_pos hsource] at hgenerator ⊢
      calc (s.draw source).activator.generator source'
          = (s.activator.generator source).next := hgenerator
        _ = Alea.next (Alea.next^[(s.drawsOf source).length] (alea (source.seed randomnessSeed))) := by
            rw [h.generator source]
        _ = _ := by
            rw [hsource, List.length_append, List.length_singleton,
              Function.iterate_succ_apply' Alea.next]
    · rw [if_neg hsource] at hgenerator ⊢
      exact hgenerator.trans (h.generator source')
  drawn := by
    intro source'
    rw [drawsOf_draw]
    split
    · rename_i hsource
      -- The generator has been moved on once for each of the numbers before.
      have hvalue : (s.activator.generator source).value =
          (alea (source.seed randomnessSeed)).nth (s.drawsOf source).length := by
        rw [h.generator source]
        rfl
      rw [hsource, List.length_append, List.length_singleton, List.range_succ, List.map_append,
        ← h.drawn source, hvalue, List.map_singleton]
    · exact h.drawn source'

theorem Inv.drawCurrent (h : Inv randomnessSeed s) : Inv randomnessSeed s.drawCurrent := by
  rw [drawCurrent_eq]
  exact h.draw _

theorem Inv.iterate {f : State → State} (hf : ∀ s, Inv randomnessSeed s → Inv randomnessSeed (f s))
    (h : Inv randomnessSeed s) (n : Nat) : Inv randomnessSeed (f^[n] s) := by
  induction n generalizing s with
  | zero => exact h
  | succ n ih => exact ih (hf s h)

theorem Inv.ofStores (h : Inv randomnessSeed s) (stores captured : List (Option Source)) :
    Inv randomnessSeed ⟨s.activator, stores, captured, s.drawn⟩ :=
  { h with }

theorem Inv.step (h : Inv randomnessSeed s) (event : Event) :
    Inv (currentSeed randomnessSeed [event]) (s.step event) := by
  cases event with
  | withCurrentRandom | leave | capture | callBound | resume => exact h.ofStores _ _
  | mathRandom => exact h.drawCurrent
  | uuid4 => exact h.iterate (fun _ => Inv.drawCurrent) 4
  | random source => exact h.draw source
  | streamUuid4 source => exact h.iterate (fun _ hs => hs.draw source) 4
  | fill source bytes => exact h.iterate (fun _ hs => hs.draw source) bytes
  | updateRandomSeed seed => exact Inv.ofSeed seed _ _

theorem Inv.run (events : List Event) : ∀ {randomnessSeed : List Nat} {s : State},
    Inv randomnessSeed s → Inv (currentSeed randomnessSeed events) (run State.step s events) := by
  induction events with
  | nil =>
    intro randomnessSeed s h
    exact h
  | cons event events ih =>
    intro randomnessSeed s h
    have hrest := ih (h.step event)
    cases event <;> exact hrest

/-- In every run, the numbers drawn from a stream since the last seed are the first ones of the generator
made of that seed and the stream's name, whatever is drawn from other streams. -/
theorem streams_do_not_interfere (randomnessSeed : List Nat) (events : List Event) (source : Source) :
    let draws := (run State.step (init randomnessSeed) events).drawsOf source
    draws = (List.range draws.length).map
      (alea (source.seed (currentSeed randomnessSeed events))).nth :=
  (Inv.run events (Inv.ofSeed randomnessSeed [] [])).drawn source

end State

end TemporalSdk.RandomStreams
