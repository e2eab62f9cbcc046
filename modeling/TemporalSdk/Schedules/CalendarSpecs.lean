import TemporalSdk.Machine.SteppedRange
import Mathlib.Data.List.Forall2

/-!
# Calendar specs — what the ranges of a schedule match

The field coders of `packages/client/src/schedule-helpers.ts`, and what the documentation in `schedule-types.ts` says
a `CalendarSpec` matches.  Numbers are finite.  `U` is the type of a field's values: numbers, months or days.
-/

namespace TemporalSdk.Schedules

open Machine

variable {U : Type}

/-! ## Field coders -/

/-- `temporal.api.schedule.v1.IRange` -/
abbrev IRange := SteppedRange ℚ

/-- `Range` of a description. -/
structure Range (U : Type) where
  start : U
  last : U
  step : ℚ
  deriving DecidableEq

inductive LooseRange (U : Type) where
  | value (u : U)
  | range (start : U) (last : Option U) (step : Option ℚ)
  deriving DecidableEq

inductive FieldInput (U : Type) where
  | one (item : LooseRange U)
  | many (items : List (LooseRange U))
  -- The string `*`.
  | all
  deriving DecidableEq

inductive Thrown (U : Type) where
  -- `Invalid CalendarSpec component for field …`
  | typeError (fieldName : String) (item : LooseRange U)
  -- `… is out of bounds`
  | rangeError (fieldName : String) (start : ℚ)
  deriving DecidableEq

/-- The arguments of `makeCalendarSpecFieldCoders`. -/
structure FieldCoder (U : Type) where
  fieldName : String
  encodeValue : U → Option ℚ
  decodeValue : ℚ → Option U
  defaultValue : List IRange
  matchAllValue : List IRange

/-- `typeof range.step === 'number' && range.step > 0 ? range.step : 1` -/
def encodeStep : Option ℚ → ℚ
  | some s => if 0 < s then s else 1
  | none => 1

namespace FieldCoder

variable (coder : FieldCoder U)

def encodeItem (item : LooseRange U) : Except (Thrown U) IRange :=
  match item with
  | .range start last step =>
    match coder.encodeValue start with
    | some n =>
      .ok ⟨n,
        match last with
        | some u => (coder.encodeValue u).getD n
        | none => 1,
        encodeStep step⟩
    -- An object is no value.
    | none => .error (.typeError coder.fieldName item)
  | .value u =>
    match coder.encodeValue u with
    | some n => .ok ⟨n, n, 1⟩
    | none => .error (.typeError coder.fieldName item)

def encodeItems : List (LooseRange U) → Except (Thrown U) (List IRange)
  | [] => .ok []
  | item :: items => do
    let range ← coder.encodeItem item
    let ranges ← encodeItems items
    return range :: ranges

def encoder : Option (FieldInput U) → Except (Thrown U) (List IRange)
  | none => .ok coder.defaultValue
  | some .all => .ok coder.matchAllValue
  | some (.one item) => coder.encodeItems [item]
  | some (.many items) => coder.encodeItems items

def decodeRange (pb : IRange) : Except (Thrown U) (Range U) :=
  match coder.decodeValue pb.start with
  | none => .error (.rangeError coder.fieldName pb.start)
  | some start =>
    .ok ⟨start, if pb.start < pb.last then (coder.decodeValue pb.last).getD start else start,
      if 0 < pb.step then pb.step else 1⟩

def decodeRanges : List IRange → Except (Thrown U) (List (Range U))
  | [] => .ok []
  | pb :: pbs => do
    let range ← coder.decodeRange pb
    let ranges ← decodeRanges pbs
    return range :: ranges

def decoder : Option (List IRange) → Except (Thrown U) (List (Range U))
  | none => .ok []
  | some pbs => coder.decodeRanges pbs

end FieldCoder

/-- A description's ranges as a field of a spec. -/
def Range.loose (range : Range U) : LooseRange U := .range range.start (some range.last) (some range.step)

def describedInput (ranges : List (Range U)) : Option (FieldInput U) := some (.many (ranges.map Range.loose))

/-! ## The seven fields -/

/-- `MONTHS[i]` of a list of names. -/
def nth (names : List U) (i : ℚ) : Option U :=
  if i.den = 1 ∧ 0 ≤ i then names[i.num.toNat]? else none

def numberCoder (fieldName : String) (valid : ℚ → Bool) (defaultValue matchAllValue : List IRange) : FieldCoder ℚ :=
  ⟨fieldName, fun x => if valid x then some x else none, some, defaultValue, matchAllValue⟩

/-- A field of names, which are numbered from `base` on. -/
def nameCoder [BEq U] (fieldName : String) (names : List U) (base : ℕ) (defaultValue matchAllValue : List IRange) :
    FieldCoder U :=
  ⟨fieldName, fun u => if names.contains u then some (names.idxOf u + base) else none, fun n => nth names (n - base),
    defaultValue, matchAllValue⟩

inductive Month where
  | JANUARY | FEBRUARY | MARCH | APRIL | MAY | JUNE | JULY | AUGUST | SEPTEMBER | OCTOBER | NOVEMBER | DECEMBER
  deriving DecidableEq

def MONTHS : List Month :=
  [.JANUARY, .FEBRUARY, .MARCH, .APRIL, .MAY, .JUNE, .JULY, .AUGUST, .SEPTEMBER, .OCTOBER, .NOVEMBER, .DECEMBER]

inductive DayOfWeek where
  | SUNDAY | MONDAY | TUESDAY | WEDNESDAY | THURSDAY | FRIDAY | SATURDAY
  deriving DecidableEq

def DAYS_OF_WEEK : List DayOfWeek := [.SUNDAY, .MONDAY, .TUESDAY, .WEDNESDAY, .THURSDAY, .FRIDAY, .SATURDAY]

def second : FieldCoder ℚ := numberCoder "second" (fun x => 0 ≤ x ∧ x ≤ 59) [⟨0, 0, 0⟩] [⟨0, 59, 1⟩]

def minute : FieldCoder ℚ := numberCoder "minute" (fun x => 0 ≤ x ∧ x ≤ 59) [⟨0, 0, 0⟩] [⟨0, 59, 1⟩]

def hour : FieldCoder ℚ := numberCoder "hour" (fun x => 0 ≤ x ∧ x ≤ 23) [⟨0, 0, 0⟩] [⟨0, 23, 1⟩]

def dayOfMonth : FieldCoder ℚ := numberCoder "dayOfMonth" (fun x => 0 ≤ x ∧ x ≤ 31) [⟨1, 31, 1⟩] [⟨1, 31, 1⟩]

def month : FieldCoder Month := nameCoder "month" MONTHS 1 [⟨1, 12, 1⟩] [⟨1, 12, 1⟩]

-- Any year is encoded as no range at all.
def year : FieldCoder ℚ := numberCoder "year" (fun _ => true) [] []

def dayOfWeek : FieldCoder DayOfWeek := nameCoder "dayOfWeek" DAYS_OF_WEEK 0 [⟨0, 6, 1⟩] [⟨0, 6, 1⟩]

/-! ## Specs -/

structure CalendarSpec where
  second : Option (FieldInput ℚ)
  minute : Option (FieldInput ℚ)
  hour : Option (FieldInput ℚ)
  dayOfMonth : Option (FieldInput ℚ)
  month : Option (FieldInput Month)
  year : Option (FieldInput ℚ)
  dayOfWeek : Option (FieldInput DayOfWeek)
  comment : Option String
  deriving DecidableEq

structure StructuredCalendarSpec where
  second : List IRange
  minute : List IRange
  hour : List IRange
  dayOfMonth : List IRange
  month : List IRange
  year : List IRange
  dayOfWeek : List IRange
  comment : Option String
  deriving DecidableEq

structure CalendarSpecDescription where
  second : List (Range ℚ)
  minute : List (Range ℚ)
  hour : List (Range ℚ)
  dayOfMonth : List (Range ℚ)
  month : List (Range Month)
  year : List (Range ℚ)
  dayOfWeek : List (Range DayOfWeek)
  comment : Option String
  deriving DecidableEq

/-- What a coder of any field throws. -/
inductive SpecError where
  | number (error : Thrown ℚ)
  | month (error : Thrown Month)
  | dayOfWeek (error : Thrown DayOfWeek)
  deriving DecidableEq

def encodeStructuredCalendarSpec (spec : CalendarSpec) : Except SpecError StructuredCalendarSpec := do
  return {
    second := ← (second.encoder spec.second).mapError .number
    minute := ← (minute.encoder spec.minute).mapError .number
    hour := ← (hour.encoder spec.hour).mapError .number
    dayOfMonth := ← (dayOfMonth.encoder spec.dayOfMonth).mapError .number
    month := ← (month.encoder spec.month).mapError .month
    year := ← (year.encoder spec.year).mapError .number
    dayOfWeek := ← (dayOfWeek.encoder spec.dayOfWeek).mapError .dayOfWeek
    comment := spec.comment }

def decodeStructuredCalendarSpec (pb : StructuredCalendarSpec) : Except SpecError CalendarSpecDescription := do
  return {
    second := ← (second.decoder (some pb.second)).mapError .number
    minute := ← (minute.decoder (some pb.minute)).mapError .number
    hour := ← (hour.decoder (some pb.hour)).mapError .number
    dayOfMonth := ← (dayOfMonth.decoder (some pb.dayOfMonth)).mapError .number
    month := ← (month.decoder (some pb.month)).mapError .month
    year := ← (year.decoder (some pb.year)).mapError .number
    dayOfWeek := ← (dayOfWeek.decoder (some pb.dayOfWeek)).mapError .dayOfWeek
    comment := pb.comment }

def encodeOptionalStructuredCalendarSpecs :
    Option (List CalendarSpec) → Except SpecError (Option (List StructuredCalendarSpec))
  | none => .ok none
  | some specs => some <$> specs.mapM encodeStructuredCalendarSpec

def decodeOptionalStructuredCalendarSpecs :
    Option (List StructuredCalendarSpec) → Except SpecError (List CalendarSpecDescription)
  | none => .ok []
  | some pbs => pbs.mapM decodeStructuredCalendarSpec

/-- A description as a spec. -/
def CalendarSpecDescription.spec (d : CalendarSpecDescription) : CalendarSpec where
  second := describedInput d.second
  minute := describedInput d.minute
  hour := describedInput d.hour
  dayOfMonth := describedInput d.dayOfMonth
  month := describedInput d.month
  year := describedInput d.year
  dayOfWeek := describedInput d.dayOfWeek
  comment := d.comment

/-! ## What the documentation says -/

/-- What is documented of a field: which number a value is, what it matches when it is left out, and what any value
is.  Of the years, an empty list matches any. -/
structure Documented (U : Type) where
  number : U → ℚ
  omitted : ℚ → Prop
  all : ℚ → Prop
  emptyIsAll : Bool

namespace Documented

variable (doc : Documented U)

def WrittenItem : LooseRange U → ℚ → Prop
  | .value u, v => v = doc.number u
  | .range start last step, v =>
    (⟨doc.number start, doc.number (last.getD start), step.getD 1⟩ : IRange).Matches v

def WrittenItems (items : List (LooseRange U)) (v : ℚ) : Prop :=
  (doc.emptyIsAll = true ∧ items = [] ∧ doc.all v) ∨ ∃ item ∈ items, doc.WrittenItem item v

/-- The values that the caller wrote. -/
def Written : Option (FieldInput U) → ℚ → Prop
  | none, v => doc.omitted v
  | some .all, v => doc.all v
  | some (.one item), v => doc.WrittenItems [item] v
  | some (.many items), v => doc.WrittenItems items v

/-- The values that encoded ranges match. -/
def Encoded (ranges : List IRange) (v : ℚ) : Prop :=
  (doc.emptyIsAll = true ∧ ranges = [] ∧ doc.all v) ∨ ∃ r ∈ ranges, r.Matches v

end Documented

/-- The whole numbers from `lo` to `hi`. -/
def Whole (lo hi : ℤ) (v : ℚ) : Prop := ∃ n : ℤ, lo ≤ n ∧ n ≤ hi ∧ v = n

def secondDoc : Documented ℚ := ⟨id, (· = 0), Whole 0 59, false⟩
def minuteDoc : Documented ℚ := ⟨id, (· = 0), Whole 0 59, false⟩
def hourDoc : Documented ℚ := ⟨id, (· = 0), Whole 0 23, false⟩
def dayOfMonthDoc : Documented ℚ := ⟨id, Whole 1 31, Whole 1 31, false⟩
def monthDoc : Documented Month := ⟨fun m => MONTHS.idxOf m + 1, Whole 1 12, Whole 1 12, false⟩
def yearDoc : Documented ℚ := ⟨id, fun _ => True, fun _ => True, true⟩
def dayOfWeekDoc : Documented DayOfWeek := ⟨fun d => DAYS_OF_WEEK.idxOf d, Whole 0 6, Whole 0 6, false⟩

inductive Field where
  | second
  | minute
  | hour
  | dayOfMonth
  | month
  | year
  | dayOfWeek
  deriving DecidableEq

def CalendarSpec.Written (spec : CalendarSpec) : Field → ℚ → Prop
  | .second => secondDoc.Written spec.second
  | .minute => minuteDoc.Written spec.minute
  | .hour => hourDoc.Written spec.hour
  | .dayOfMonth => dayOfMonthDoc.Written spec.dayOfMonth
  | .month => monthDoc.Written spec.month
  | .year => yearDoc.Written spec.year
  | .dayOfWeek => dayOfWeekDoc.Written spec.dayOfWeek

def StructuredCalendarSpec.ranges (pb : StructuredCalendarSpec) : Field → List IRange
  | .second => pb.second
  | .minute => pb.minute
  | .hour => pb.hour
  | .dayOfMonth => pb.dayOfMonth
  | .month => pb.month
  | .year => pb.year
  | .dayOfWeek => pb.dayOfWeek

def StructuredCalendarSpec.Encoded (pb : StructuredCalendarSpec) : Field → ℚ → Prop
  | .second => secondDoc.Encoded pb.second
  | .minute => minuteDoc.Encoded pb.minute
  | .hour => hourDoc.Encoded pb.hour
  | .dayOfMonth => dayOfMonthDoc.Encoded pb.dayOfMonth
  | .month => monthDoc.Encoded pb.month
  | .year => yearDoc.Encoded pb.year
  | .dayOfWeek => dayOfWeekDoc.Encoded pb.dayOfWeek

/-- In every field, the ranges match what the caller wrote.  They are decoded to a description that matches the same,
and is encoded again as the same ranges. -/
structure Keeps (spec : CalendarSpec) (pb : StructuredCalendarSpec) : Prop where
  encoded : ∀ field v, pb.Encoded field v ↔ spec.Written field v
  decoded : ∃ d pb', decodeStructuredCalendarSpec pb = .ok d ∧
    (∀ field v, d.spec.Written field v ↔ spec.Written field v) ∧ d.comment = spec.comment ∧
    encodeStructuredCalendarSpec d.spec = .ok pb' ∧
    (∀ field, List.Forall₂ SteppedRange.Same (pb'.ranges field) (pb.ranges field)) ∧ pb'.comment = pb.comment

/-! ## Where the code does not do what is documented -/

/-- The values after its start that a range without an end gets: it is encoded with the end 1. -/
def Documented.Added (doc : Documented U) : LooseRange U → ℚ → Prop
  | .range start none step, v => (⟨doc.number start, 1, step.getD 1⟩ : IRange).Later v
  | _, _ => False

/-- The values after its start that a range with an invalid end loses. -/
def Lost (coder : FieldCoder U) (doc : Documented U) : LooseRange U → ℚ → Prop
  | .range start (some last) step, v =>
    coder.encodeValue last = none ∧ (⟨doc.number start, doc.number last, step.getD 1⟩ : IRange).Later v
  | _, _ => False

/-- Some other range of the field has whatever a range without an end adds, and whatever one with an invalid end
loses. -/
def CoveredItems (coder : FieldCoder U) (doc : Documented U) (items : List (LooseRange U)) : Prop :=
  (∀ item ∈ items, ∀ v, doc.Added item v → ∃ other ∈ items, doc.WrittenItem other v) ∧
    ∀ item ∈ items, ∀ v, Lost coder doc item v →
      ∃ other ∈ items, (doc.WrittenItem other v ∧ ¬ Lost coder doc other v) ∨ doc.Added other v

def CoveredField (coder : FieldCoder U) (doc : Documented U) : Option (FieldInput U) → Prop
  | some (.one item) => CoveredItems coder doc [item]
  | some (.many items) => CoveredItems coder doc items
  | _ => True

def CalendarSpec.Covered (spec : CalendarSpec) : Field → Prop
  | .second => CoveredField Schedules.second secondDoc spec.second
  | .minute => CoveredField Schedules.minute minuteDoc spec.minute
  | .hour => CoveredField Schedules.hour hourDoc spec.hour
  | .dayOfMonth => CoveredField Schedules.dayOfMonth dayOfMonthDoc spec.dayOfMonth
  | .month => CoveredField Schedules.month monthDoc spec.month
  | .year => CoveredField Schedules.year yearDoc spec.year
  | .dayOfWeek => CoveredField Schedules.dayOfWeek dayOfWeekDoc spec.dayOfWeek

/-! ## One field -/

/-- The number is that of some value. -/
def FieldCoder.Accepts (coder : FieldCoder U) (n : ℚ) : Prop :=
  ∃ u, coder.decodeValue n = some u ∧ coder.encodeValue u = some n

/-- What the proofs use of a field's coder. -/
structure Lawful (coder : FieldCoder U) (doc : Documented U) : Prop where
  number : ∀ u n, coder.encodeValue u = some n → doc.number u = n ∧ coder.Accepts n
  one : coder.Accepts 1
  omitted : ∀ v, doc.Encoded coder.defaultValue v ↔ doc.omitted v
  all : ∀ v, doc.Encoded coder.matchAllValue v ↔ doc.all v
  accepts : ∀ r ∈ coder.defaultValue ++ coder.matchAllValue, coder.Accepts r.start ∧ coder.Accepts r.last

variable {coder : FieldCoder U} {doc : Documented U}

theorem max_one_ite (s : ℚ) : max 1 (if 0 < s then s else 1) = max 1 s := by
  by_cases hs : 0 < s
  · rw [if_pos hs]
  · rw [if_neg hs, max_self, max_eq_left (by linarith)]

theorem max_one_encodeStep (step : Option ℚ) : max 1 (encodeStep step) = max 1 (step.getD 1) := by
  cases step with
  | none => rfl
  | some s => exact max_one_ite s

/-- The ends of the ranges that the encoder makes are values. -/
theorem encodeItem_accepts (h : Lawful coder doc) {item : LooseRange U} {r : IRange}
    (hr : coder.encodeItem item = .ok r) : coder.Accepts r.start ∧ coder.Accepts r.last := by
  cases item with
  | value u =>
    simp only [FieldCoder.encodeItem] at hr
    split at hr
    · rename_i n hn
      cases hr
      exact ⟨(h.number u n hn).2, (h.number u n hn).2⟩
    · cases hr
  | range start last step =>
    simp only [FieldCoder.encodeItem] at hr
    split at hr
    · rename_i n hn
      cases hr
      refine ⟨(h.number start n hn).2, ?_⟩
      cases last with
      | none => exact h.one
      | some u =>
        cases hu : coder.encodeValue u with
        | none => simpa [hu] using (h.number start n hn).2
        | some m => simpa [hu] using (h.number u m hu).2
    · cases hr

/-- What the encoder makes of one item. -/
theorem encodeItem_matches (h : Lawful coder doc) {item : LooseRange U} {r : IRange}
    (hr : coder.encodeItem item = .ok r) (v : ℚ) :
    r.Matches v ↔ (doc.WrittenItem item v ∧ ¬ Lost coder doc item v) ∨ doc.Added item v := by
  cases item with
  | value u =>
    simp only [FieldCoder.encodeItem] at hr
    split at hr
    · rename_i n hn
      cases hr
      rw [SteppedRange.matches_self_iff]
      simp [Documented.WrittenItem, Lost, Documented.Added, (h.number u n hn).1]
    · cases hr
  | range start last step =>
    simp only [FieldCoder.encodeItem] at hr
    split at hr
    · rename_i n hn
      have hnumber := (h.number start n hn).1
      cases hr
      rw [SteppedRange.matches_iff_later, SteppedRange.later_congr (max_one_encodeStep step)]
      cases last with
      | none =>
        simp only [Documented.WrittenItem, Lost, Documented.Added, hnumber, Option.getD_none,
          SteppedRange.matches_self_iff, not_false_iff, and_true]
      | some u =>
        simp only [Documented.WrittenItem, Lost, Documented.Added, hnumber, Option.getD_some, or_false,
          SteppedRange.matches_iff_later]
        cases hu : coder.encodeValue u with
        | none =>
          have hself := SteppedRange.not_later_self n (step.getD 1) v
          simp only [Option.getD_none, hself, or_false, true_and]
          constructor
          · rintro rfl
            exact ⟨Or.inl rfl, fun hlater => lt_irrefl _ hlater.start_lt⟩
          · rintro ⟨heq | hlater, hnot⟩
            · exact heq
            · exact absurd hlater hnot
        | some m => simp [(h.number u m hu).1]
    · cases hr

theorem encodeItems_ok {items : List (LooseRange U)} : ∀ {ranges : List IRange},
    coder.encodeItems items = .ok ranges → List.Forall₂ (fun item r => coder.encodeItem item = .ok r) items ranges := by
  induction items with
  | nil =>
    intro ranges hr
    cases hr
    exact .nil
  | cons item items ih =>
    intro ranges hr
    simp only [FieldCoder.encodeItems] at hr
    cases hitem : coder.encodeItem item with
    | error error =>
      rw [hitem] at hr
      cases hr
    | ok r =>
      cases hitems : coder.encodeItems items with
      | error error =>
        rw [hitem, hitems] at hr
        cases hr
      | ok rs =>
        rw [hitem, hitems] at hr
        cases hr
        exact .cons hitem (ih hitems)

theorem encodeItems_matches (h : Lawful coder doc) {items : List (LooseRange U)} {ranges : List IRange}
    (hr : coder.encodeItems items = .ok ranges) (v : ℚ) :
    (∃ r ∈ ranges, r.Matches v) ↔
      ∃ item ∈ items, (doc.WrittenItem item v ∧ ¬ Lost coder doc item v) ∨ doc.Added item v := by
  have hall := encodeItems_ok hr
  clear hr
  induction hall with
  | nil => simp
  | cons hitem _ ih => simp [encodeItem_matches h hitem v, ih]

theorem encodeItems_accepts (h : Lawful coder doc) {items : List (LooseRange U)} {ranges : List IRange}
    (hr : coder.encodeItems items = .ok ranges) : ∀ r ∈ ranges, coder.Accepts r.start ∧ coder.Accepts r.last := by
  have hall := encodeItems_ok hr
  clear hr
  induction hall with
  | nil => simp
  | cons hitem _ ih => exact List.forall_mem_cons.mpr ⟨encodeItem_accepts h hitem, ih⟩

/-- The list of items matches what was written if and only if other items cover what is added and lost. -/
theorem encodedItems_iff (h : Lawful coder doc) {items : List (LooseRange U)} {ranges : List IRange}
    (hr : coder.encodeItems items = .ok ranges) :
    (∀ v, doc.Encoded ranges v ↔ doc.WrittenItems items v) ↔ CoveredItems coder doc items := by
  have hempty : ranges = [] ↔ items = [] := by
    have hall := encodeItems_ok hr
    cases hall <;> simp
  have hsame : (∀ v, doc.Encoded ranges v ↔ doc.WrittenItems items v) ↔
      ∀ v, (∃ r ∈ ranges, r.Matches v) ↔ ∃ item ∈ items, doc.WrittenItem item v := by
    by_cases hnil : items = []
    · simp [Documented.Encoded, Documented.WrittenItems, hnil, hempty.mpr hnil]
    · simp [Documented.Encoded, Documented.WrittenItems, hnil, mt hempty.mp hnil]
  rw [hsame]
  simp only [encodeItems_matches h hr]
  constructor
  · intro hiff
    refine ⟨fun item hitem v hadded => (hiff v).mp ⟨item, hitem, Or.inr hadded⟩, fun item hitem v hlost => ?_⟩
    refine (hiff v).mpr ⟨item, hitem, ?_⟩
    cases item with
    | value u => cases hlost
    | range start last step =>
      cases last with
      | none => cases hlost
      | some u => exact (SteppedRange.matches_iff_later _ v).mpr (Or.inr hlost.2)
  · rintro ⟨hadded, hlost⟩ v
    constructor
    · rintro ⟨item, hitem, ⟨hwritten, _⟩ | hadd⟩
      · exact ⟨item, hitem, hwritten⟩
      · exact hadded item hitem v hadd
    · rintro ⟨item, hitem, hwritten⟩
      by_cases hlose : Lost coder doc item v
      · exact hlost item hitem v hlose
      · exact ⟨item, hitem, Or.inl ⟨hwritten, hlose⟩⟩

/-- The ends of the ranges are values; an end before the start is not looked at. -/
def ValidRanges (coder : FieldCoder U) (ranges : List IRange) : Prop :=
  ∀ r ∈ ranges, coder.Accepts r.start ∧ (r.start < r.last → coder.Accepts r.last)

/-- A range whose ends are values is decoded to one that matches the same and is encoded as the same range. -/
theorem decodeRange_keeps (h : Lawful coder doc) {r : IRange} (hstart : coder.Accepts r.start)
    (hlast : r.start < r.last → coder.Accepts r.last) :
    ∃ range r', coder.decodeRange r = .ok range ∧ coder.encodeItem range.loose = .ok r' ∧ r'.Same r ∧
      ∀ v, doc.WrittenItem range.loose v ↔ r.Matches v := by
  rcases hstart with ⟨start, hstart, hstart'⟩
  have hstep : max 1 (encodeStep (some (if 0 < r.step then r.step else 1))) = max 1 r.step :=
    (max_one_encodeStep _).trans (max_one_ite r.step)
  by_cases hlt : r.start < r.last
  · rcases hlast hlt with ⟨last, hlast, hlast'⟩
    have hsame : (⟨r.start, r.last, encodeStep (some (if 0 < r.step then r.step else 1))⟩ : IRange).Same r :=
      ⟨rfl, rfl, hstep⟩
    refine ⟨⟨start, last, if 0 < r.step then r.step else 1⟩, _, ?_, ?_, hsame, fun v => ?_⟩
    · simp [FieldCoder.decodeRange, hstart, hlt, hlast]
    · simp [Range.loose, FieldCoder.encodeItem, hstart', hlast']
    · have hsame' : (⟨r.start, r.last, if 0 < r.step then r.step else 1⟩ : IRange).Same r :=
        ⟨rfl, rfl, max_one_ite r.step⟩
      rw [← hsame'.matches_iff]
      simp [Range.loose, Documented.WrittenItem, (h.number _ _ hstart').1, (h.number _ _ hlast').1]
  · have hstop : max r.start r.start = max r.start r.last := by
      rw [max_self, max_eq_left (le_of_not_gt hlt)]
    have hsame : (⟨r.start, r.start, encodeStep (some (if 0 < r.step then r.step else 1))⟩ : IRange).Same r :=
      ⟨rfl, hstop, hstep⟩
    refine ⟨⟨start, start, if 0 < r.step then r.step else 1⟩, _, ?_, ?_, hsame, fun v => ?_⟩
    · simp [FieldCoder.decodeRange, hstart, hlt]
    · simp [Range.loose, FieldCoder.encodeItem, hstart']
    · have hsame' : (⟨r.start, r.start, if 0 < r.step then r.step else 1⟩ : IRange).Same r :=
        ⟨rfl, hstop, max_one_ite r.step⟩
      rw [← hsame'.matches_iff]
      simp [Range.loose, Documented.WrittenItem, (h.number _ _ hstart').1]

theorem decodeRanges_keeps (h : Lawful coder doc) {ranges : List IRange} (hranges : ValidRanges coder ranges) :
    ∃ description ranges', coder.decodeRanges ranges = .ok description ∧
      coder.encodeItems (description.map Range.loose) = .ok ranges' ∧ List.Forall₂ SteppedRange.Same ranges' ranges ∧
      ∀ v, (∃ item ∈ description.map Range.loose, doc.WrittenItem item v) ↔ ∃ r ∈ ranges, r.Matches v := by
  induction ranges with
  | nil => exact ⟨[], [], rfl, rfl, .nil, by simp⟩
  | cons r ranges ih =>
    rcases List.forall_mem_cons.mp hranges with ⟨⟨hstart, hlast⟩, htail⟩
    rcases decodeRange_keeps h hstart hlast with ⟨range, r', hdecode, hencode, hsame, hwritten⟩
    rcases ih htail with ⟨description, ranges', hdecodes, hencodes, hsames, hwrittens⟩
    refine ⟨range :: description, r' :: ranges', ?_, ?_, .cons hsame hsames, fun v => ?_⟩
    · rw [FieldCoder.decodeRanges, hdecode, hdecodes]
      rfl
    · rw [List.map_cons, FieldCoder.encodeItems, hencode, hencodes]
      rfl
    · simp only [List.map_cons, List.exists_mem_cons_iff, hwritten, hwrittens]

theorem decoder_keeps (h : Lawful coder doc) {ranges : List IRange} (hranges : ValidRanges coder ranges) :
    ∃ description, coder.decoder (some ranges) = .ok description ∧
      (∀ v, doc.Written (describedInput description) v ↔ doc.Encoded ranges v) ∧
      ∃ ranges', coder.encoder (describedInput description) = .ok ranges' ∧
        List.Forall₂ SteppedRange.Same ranges' ranges := by
  rcases decodeRanges_keeps h hranges with ⟨description, ranges', hdecode, hencode, hsame, hwritten⟩
  have hempty : description = [] ↔ ranges = [] := by
    have hencodes := encodeItems_ok hencode
    cases description <;> cases hencodes <;> cases hsame <;> simp
  refine ⟨description, hdecode, fun v => ?_, ranges', hencode, hsame⟩
  simp only [describedInput, Documented.Written, Documented.WrittenItems, Documented.Encoded, hwritten,
    List.map_eq_nil_iff, hempty]

/-- What a field owes, of its encoded ranges. -/
structure EncodesField (coder : FieldCoder U) (doc : Documented U) (input : Option (FieldInput U))
    (ranges : List IRange) : Prop where
  accepts : ValidRanges coder ranges
  encoded : (∀ v, doc.Encoded ranges v ↔ doc.Written input v) ↔ CoveredField coder doc input

theorem validRanges_of_accepts {ranges : List IRange}
    (h : ∀ r ∈ ranges, coder.Accepts r.start ∧ coder.Accepts r.last) : ValidRanges coder ranges :=
  fun r hmem => ⟨(h r hmem).1, fun _ => (h r hmem).2⟩

theorem encodesField (h : Lawful coder doc) {input : Option (FieldInput U)} {ranges : List IRange}
    (hr : coder.encoder input = .ok ranges) : EncodesField coder doc input ranges := by
  match input with
  | none =>
    cases hr
    exact ⟨validRanges_of_accepts fun r hmem => h.accepts r (List.mem_append_left _ hmem),
      iff_of_true h.omitted trivial⟩
  | some .all =>
    cases hr
    exact ⟨validRanges_of_accepts fun r hmem => h.accepts r (List.mem_append_right _ hmem),
      iff_of_true h.all trivial⟩
  | some (.one item) => exact ⟨validRanges_of_accepts (encodeItems_accepts h hr), encodedItems_iff h hr⟩
  | some (.many items) => exact ⟨validRanges_of_accepts (encodeItems_accepts h hr), encodedItems_iff h hr⟩

/-! ## The seven fields keep the laws -/

theorem encoded_singleton {doc : Documented U} (r : IRange) (v : ℚ) : doc.Encoded [r] v ↔ r.Matches v := by
  simp [Documented.Encoded]

theorem matches_zero (v : ℚ) : (⟨0, 0, 0⟩ : IRange).Matches v ↔ v = 0 := SteppedRange.matches_self_iff 0 0 v

theorem matches_whole (lo hi : ℤ) (hle : lo ≤ hi) (v : ℚ) : (⟨lo, hi, 1⟩ : IRange).Matches v ↔ Whole lo hi v := by
  have hstop : max (lo : ℚ) hi = hi := max_eq_right (by exact_mod_cast hle)
  simp only [SteppedRange.Matches, SteppedRange.stride, SteppedRange.stop, max_self, mul_one, hstop]
  constructor
  · rintro ⟨k, rfl, hv⟩
    exact ⟨lo + k, by omega, by exact_mod_cast hv, by push_cast; rfl⟩
  · rintro ⟨n, hlo, hhi, rfl⟩
    refine ⟨(n - lo).toNat, ?_, by exact_mod_cast hhi⟩
    have hcast : (((n - lo).toNat : ℤ) : ℚ) = n - lo := by rw [Int.toNat_of_nonneg (by omega)]; push_cast; rfl
    have hcast' : ((n - lo).toNat : ℚ) = n - lo := by exact_mod_cast hcast
    rw [hcast', add_sub_cancel]

theorem numberCoder_accepts {fieldName : String} {valid : ℚ → Bool} {defaultValue matchAllValue : List IRange} {n : ℚ}
    (h : valid n = true) : (numberCoder fieldName valid defaultValue matchAllValue).Accepts n :=
  ⟨n, rfl, by simp [numberCoder, h]⟩

theorem numberCoder_number {fieldName : String} {valid : ℚ → Bool} {defaultValue matchAllValue : List IRange} (u n : ℚ)
    (h : (numberCoder fieldName valid defaultValue matchAllValue).encodeValue u = some n) :
    id u = n ∧ (numberCoder fieldName valid defaultValue matchAllValue).Accepts n := by
  simp only [numberCoder] at h
  split at h
  · rename_i hvalid
    cases h
    exact ⟨rfl, numberCoder_accepts hvalid⟩
  · cases h

theorem lawful_zero {fieldName : String} {valid : ℚ → Bool} (hi : ℤ) (hhi : 0 ≤ hi) (hzero : valid 0 = true)
    (hone : valid 1 = true) (hlast : valid hi = true) :
    Lawful (numberCoder fieldName valid [⟨0, 0, 0⟩] [⟨0, hi, 1⟩]) ⟨id, (· = 0), Whole 0 hi, false⟩ where
  number := numberCoder_number
  one := numberCoder_accepts hone
  omitted v := (encoded_singleton _ v).trans (matches_zero v)
  all v := (encoded_singleton _ v).trans (by exact_mod_cast matches_whole 0 hi hhi v)
  accepts := by
    simp only [numberCoder, List.singleton_append, List.forall_mem_cons]
    exact ⟨⟨numberCoder_accepts hzero, numberCoder_accepts hzero⟩,
      ⟨numberCoder_accepts hzero, numberCoder_accepts hlast⟩, List.forall_mem_nil _⟩

theorem lawful_second : Lawful second secondDoc :=
  lawful_zero 59 (by decide) (by decide) (by decide) (by decide)

theorem lawful_minute : Lawful minute minuteDoc :=
  lawful_zero 59 (by decide) (by decide) (by decide) (by decide)

theorem lawful_hour : Lawful hour hourDoc :=
  lawful_zero 23 (by decide) (by decide) (by decide) (by decide)

theorem lawful_range {coder : FieldCoder U} {value : U → ℚ} (lo hi : ℤ) (hle : lo ≤ hi)
    (hdefault : coder.defaultValue = [⟨lo, hi, 1⟩]) (hall : coder.matchAllValue = [⟨lo, hi, 1⟩])
    (number : ∀ u n, coder.encodeValue u = some n → value u = n ∧ coder.Accepts n) (one : coder.Accepts 1)
    (hfirst : coder.Accepts lo) (hlast : coder.Accepts hi) :
    Lawful coder ⟨value, Whole lo hi, Whole lo hi, false⟩ where
  number := number
  one := one
  omitted v := by
    rw [hdefault]
    exact (encoded_singleton _ v).trans (matches_whole lo hi hle v)
  all v := by
    rw [hall]
    exact (encoded_singleton _ v).trans (matches_whole lo hi hle v)
  accepts := by
    simp only [hdefault, hall, List.singleton_append, List.forall_mem_cons]
    exact ⟨⟨hfirst, hlast⟩, ⟨hfirst, hlast⟩, List.forall_mem_nil _⟩

theorem lawful_dayOfMonth : Lawful dayOfMonth dayOfMonthDoc :=
  lawful_range 1 31 (by decide) rfl rfl numberCoder_number (numberCoder_accepts (by decide))
    (numberCoder_accepts (by decide)) (numberCoder_accepts (by decide))

theorem lawful_year : Lawful year yearDoc where
  number := numberCoder_number
  one := numberCoder_accepts rfl
  omitted v := by simp [year, numberCoder, yearDoc, Documented.Encoded]
  all v := by simp [year, numberCoder, yearDoc, Documented.Encoded]
  accepts := by simp [year, numberCoder]

theorem nameCoder_accepts [DecidableEq U] {fieldName : String} {names : List U} {base : ℕ}
    {defaultValue matchAllValue : List IRange} {u : U} (hmem : u ∈ names) :
    (nameCoder fieldName names base defaultValue matchAllValue).Accepts (names.idxOf u + base) := by
  refine ⟨u, ?_, ?_⟩
  · have hget : names[names.idxOf u]? = some u := List.getElem?_idxOf hmem
    simp [nameCoder, nth, hget]
  · simp [nameCoder, hmem]

theorem nameCoder_number [DecidableEq U] {fieldName : String} {names : List U} {base : ℕ}
    {defaultValue matchAllValue : List IRange} (u : U) (n : ℚ)
    (h : (nameCoder fieldName names base defaultValue matchAllValue).encodeValue u = some n) :
    names.idxOf u + base = n ∧ (nameCoder fieldName names base defaultValue matchAllValue).Accepts n := by
  simp only [nameCoder, List.contains_iff_mem] at h
  split at h
  · rename_i hmem
    cases h
    exact ⟨rfl, nameCoder_accepts hmem⟩
  · cases h

theorem month_accepts (m : Month) {n : ℚ} (hn : (MONTHS.idxOf m : ℚ) + (1 : ℕ) = n) : month.Accepts n :=
  hn ▸ nameCoder_accepts (by cases m <;> decide)

theorem lawful_month : Lawful month monthDoc :=
  lawful_range 1 12 (by decide) rfl rfl
    (fun u n h => ⟨by simpa using (nameCoder_number u n h).1, (nameCoder_number u n h).2⟩)
    (month_accepts .JANUARY (by decide +kernel)) (month_accepts .JANUARY (by decide +kernel))
    (month_accepts .DECEMBER (by decide +kernel))

theorem dayOfWeek_accepts (d : DayOfWeek) {n : ℚ} (hn : (DAYS_OF_WEEK.idxOf d : ℚ) + (0 : ℕ) = n) :
    dayOfWeek.Accepts n :=
  hn ▸ nameCoder_accepts (by cases d <;> decide)

theorem lawful_dayOfWeek : Lawful dayOfWeek dayOfWeekDoc :=
  lawful_range 0 6 (by decide) rfl rfl
    (fun u n h => ⟨by simpa using (nameCoder_number u n h).1, (nameCoder_number u n h).2⟩)
    (dayOfWeek_accepts .MONDAY (by decide +kernel)) (dayOfWeek_accepts .SUNDAY (by decide +kernel))
    (dayOfWeek_accepts .SATURDAY (by decide +kernel))

/-! ## The whole spec -/

theorem bind_mapError_ok {α β γ δ : Type} (x : Except α β) (f : α → γ) (g : β → Except γ δ) (d : δ) :
    (x.mapError f >>= g) = .ok d ↔ ∃ b, x = .ok b ∧ g b = .ok d := by
  cases x with
  | error a => exact ⟨nofun, nofun⟩
  | ok b => exact ⟨fun h => ⟨b, rfl, h⟩, fun ⟨_, hb, h⟩ => by cases hb; exact h⟩

/-- Every field has the values of its kind. -/
structure StructuredCalendarSpec.Valid (pb : StructuredCalendarSpec) : Prop where
  second : ValidRanges Schedules.second pb.second
  minute : ValidRanges Schedules.minute pb.minute
  hour : ValidRanges Schedules.hour pb.hour
  dayOfMonth : ValidRanges Schedules.dayOfMonth pb.dayOfMonth
  month : ValidRanges Schedules.month pb.month
  year : ValidRanges Schedules.year pb.year
  dayOfWeek : ValidRanges Schedules.dayOfWeek pb.dayOfWeek

/-- The fields of a spec that has been encoded. -/
structure Encodes (spec : CalendarSpec) (pb : StructuredCalendarSpec) : Prop where
  second : EncodesField second secondDoc spec.second pb.second
  minute : EncodesField minute minuteDoc spec.minute pb.minute
  hour : EncodesField hour hourDoc spec.hour pb.hour
  dayOfMonth : EncodesField dayOfMonth dayOfMonthDoc spec.dayOfMonth pb.dayOfMonth
  month : EncodesField month monthDoc spec.month pb.month
  year : EncodesField year yearDoc spec.year pb.year
  dayOfWeek : EncodesField dayOfWeek dayOfWeekDoc spec.dayOfWeek pb.dayOfWeek
  comment : pb.comment = spec.comment

theorem encodes_of_ok {spec : CalendarSpec} {pb : StructuredCalendarSpec}
    (h : encodeStructuredCalendarSpec spec = .ok pb) : Encodes spec pb := by
  simp only [encodeStructuredCalendarSpec, bind_mapError_ok] at h
  rcases h with ⟨seconds, hsecond, minutes, hminute, hours, hhour, days, hday, months, hmonth, years, hyear, weekdays,
    hweekday, hpb⟩
  cases hpb
  exact ⟨encodesField lawful_second hsecond, encodesField lawful_minute hminute, encodesField lawful_hour hhour,
    encodesField lawful_dayOfMonth hday, encodesField lawful_month hmonth, encodesField lawful_year hyear,
    encodesField lawful_dayOfWeek hweekday, rfl⟩

theorem Encodes.covered_iff {spec : CalendarSpec} {pb : StructuredCalendarSpec} (h : Encodes spec pb) :
    ∀ field, (∀ v, pb.Encoded field v ↔ spec.Written field v) ↔ spec.Covered field
  | .second => h.second.encoded
  | .minute => h.minute.encoded
  | .hour => h.hour.encoded
  | .dayOfMonth => h.dayOfMonth.encoded
  | .month => h.month.encoded
  | .year => h.year.encoded
  | .dayOfWeek => h.dayOfWeek.encoded

theorem Encodes.valid {spec : CalendarSpec} {pb : StructuredCalendarSpec} (h : Encodes spec pb) : pb.Valid :=
  ⟨h.second.accepts, h.minute.accepts, h.hour.accepts, h.dayOfMonth.accepts, h.month.accepts, h.year.accepts,
    h.dayOfWeek.accepts⟩

/-- A valid calendar is decoded to a description that matches the same and is encoded again as the same ranges. -/
theorem StructuredCalendarSpec.Valid.decoded {pb : StructuredCalendarSpec} (h : pb.Valid) :
    ∃ d pb', decodeStructuredCalendarSpec pb = .ok d ∧ (∀ field v, d.spec.Written field v ↔ pb.Encoded field v) ∧
      d.comment = pb.comment ∧ encodeStructuredCalendarSpec d.spec = .ok pb' ∧
      (∀ field, List.Forall₂ SteppedRange.Same (pb'.ranges field) (pb.ranges field)) ∧ pb'.comment = pb.comment := by
  rcases decoder_keeps lawful_second h.second with
    ⟨seconds, second, secondWritten, seconds', secondAgain, secondSame⟩
  rcases decoder_keeps lawful_minute h.minute with
    ⟨minutes, minute, minuteWritten, minutes', minuteAgain, minuteSame⟩
  rcases decoder_keeps lawful_hour h.hour with
    ⟨hours, hour, hourWritten, hours', hourAgain, hourSame⟩
  rcases decoder_keeps lawful_dayOfMonth h.dayOfMonth with
    ⟨days, dayOfMonth, dayOfMonthWritten, days', dayOfMonthAgain, dayOfMonthSame⟩
  rcases decoder_keeps lawful_month h.month with
    ⟨months, month, monthWritten, months', monthAgain, monthSame⟩
  rcases decoder_keeps lawful_year h.year with
    ⟨years, year, yearWritten, years', yearAgain, yearSame⟩
  rcases decoder_keeps lawful_dayOfWeek h.dayOfWeek with
    ⟨weekdays, dayOfWeek, dayOfWeekWritten, weekdays', dayOfWeekAgain, dayOfWeekSame⟩
  refine ⟨⟨seconds, minutes, hours, days, months, years, weekdays, pb.comment⟩,
    ⟨seconds', minutes', hours', days', months', years', weekdays', pb.comment⟩, ?_, ?_, rfl, ?_, ?_, rfl⟩
  · simp only [decodeStructuredCalendarSpec, bind_mapError_ok]
    exact ⟨_, second, _, minute, _, hour, _, dayOfMonth, _, month, _, year, _, dayOfWeek, rfl⟩
  · intro field
    cases field with
    | second => exact secondWritten
    | minute => exact minuteWritten
    | hour => exact hourWritten
    | dayOfMonth => exact dayOfMonthWritten
    | month => exact monthWritten
    | year => exact yearWritten
    | dayOfWeek => exact dayOfWeekWritten
  · simp only [encodeStructuredCalendarSpec, CalendarSpecDescription.spec, bind_mapError_ok]
    exact ⟨_, secondAgain, _, minuteAgain, _, hourAgain, _, dayOfMonthAgain, _, monthAgain, _, yearAgain, _,
      dayOfWeekAgain, rfl⟩
  · intro field
    cases field with
    | second => exact secondSame
    | minute => exact minuteSame
    | hour => exact hourSame
    | dayOfMonth => exact dayOfMonthSame
    | month => exact monthSame
    | year => exact yearSame
    | dayOfWeek => exact dayOfWeekSame

/-- A spec that is accepted keeps its meaning if and only if, in each of its fields, other items have what ranges
without an end add and what ranges with an invalid end lose. -/
theorem calendarSpec_keeps_iff (spec : CalendarSpec) (pb : StructuredCalendarSpec)
    (h : encodeStructuredCalendarSpec spec = .ok pb) : Keeps spec pb ↔ ∀ field, spec.Covered field := by
  have hencodes := encodes_of_ok h
  constructor
  · intro hkeeps field
    exact (hencodes.covered_iff field).mp (hkeeps.encoded field)
  · intro hcovered
    have hencoded := fun field => (hencodes.covered_iff field).mpr (hcovered field)
    rcases hencodes.valid.decoded with ⟨d, pb', hdecode, hwritten, hcomment, hencode, hsame, hcomment'⟩
    exact ⟨hencoded, d, pb', hdecode, fun field v => (hwritten field v).trans (hencoded field v),
      hcomment.trans hencodes.comment, hencode, hsame, hcomment'⟩

/-- Every second hour from nine to five, and at eleven in the evening. -/
def officeHours : CalendarSpec :=
  ⟨none, none, some (.many [.range 9 (some 17) (some 2), .value 23]), none, none, none, none, none⟩

theorem officeHours_keeps :
    ∃ pb, encodeStructuredCalendarSpec officeHours = .ok pb ∧
      (Keeps officeHours pb ↔ ∀ field, officeHours.Covered field) :=
  ⟨_, rfl, calendarSpec_keeps_iff officeHours _ rfl⟩

/-- In the hour that begins at midnight, written as a range without an end. -/
def midnight : CalendarSpec := ⟨none, none, some (.one (.range 0 none none)), none, none, none, none, none⟩

/-- It is encoded as the hours 0 and 1. -/
theorem midnight_not_kept : ∃ pb, encodeStructuredCalendarSpec midnight = .ok pb ∧ ¬ Keeps midnight pb := by
  refine ⟨_, rfl, fun hkeeps => ?_⟩
  have hone := (hkeeps.encoded .hour 1).mp (Or.inr ⟨⟨0, 1, 1⟩, List.mem_singleton.mpr rfl, 1, by decide +kernel,
    by decide +kernel⟩)
  rcases hone with ⟨hempty, _⟩ | ⟨item, hmem, hwritten⟩
  · cases hempty
  · cases List.mem_singleton.mp hmem
    rw [Documented.WrittenItem, Option.getD_none, SteppedRange.matches_self_iff] at hwritten
    exact absurd hwritten one_ne_zero

end TemporalSdk.Schedules
