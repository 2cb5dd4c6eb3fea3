import ChannelGuide.Form.Answer
import ChannelGuide.Proofs.Form.Listing

/-!
Intervals that are read. What stands for an interval names two instants in order, and whatever is
read with intervals in it has each of them from a part that stands for it.
-/
namespace ChannelGuide
open Json (Value Fields)

namespace Json.Value
variable {α : Type} {v part : Value}

/-- The part is the value itself, or stands somewhere inside it. -/
inductive Within (part : Value) : Value → Prop
  | self : Within part part
  | element {elements : List Value} {v : Value} :
      v ∈ elements → Within part v → Within part (.array elements)
  | member {members : List (Text × Value)} {key : Text} {v : Value} :
      (key, v) ∈ members → Within part v → Within part (.object members)

theorem Within.trans {inner : Value} (outside : part.Within v) (inside : inner.Within part) :
    inner.Within v := by
  induction outside with
  | self => exact inside
  | element member _ ih => exact .element member ih
  | member member _ ih => exact .member member ih

theorem within_of_fields? {names : List String} {fields : Fields} {name : String}
    (taken : v.fields? names = some fields) (field : (name, part) ∈ fields) : part.Within v := by
  cases v with
  | array vs =>
      simp only [fields?, Option.ite_none_right_eq_some, Option.some.injEq] at taken
      obtain ⟨-, rfl⟩ := taken
      exact .element (List.of_mem_zip field).2 .self
  | object members =>
      simp only [fields?, Option.bind_eq_some_iff, Option.ite_none_right_eq_some,
        Option.some.injEq] at taken
      obtain ⟨readable, read, -, rfl⟩ := taken
      obtain ⟨⟨key, w⟩, member, of_member⟩ :=
        exists_of_mem_mapM read (List.mem_filter.mp field).1
      obtain ⟨text, rfl, same⟩ := Option.map_eq_some_iff.mp of_member
      obtain rfl : w = part := (Prod.mk.inj same).2
      exact .member member .self
  | null | bool | number | string => exact absurd taken (by simp [fields?])

theorem exists_within_of_list? {form? : Value → Option α} {xs : List α} {x : α}
    (read : v.list? form? = some xs) (member : x ∈ xs) :
    ∃ part, part.Within v ∧ form? part = some x := by
  obtain ⟨vs, array, read⟩ := Option.bind_eq_some_iff.mp read
  obtain ⟨part, element, of_part⟩ := exists_of_mem_mapM read member
  cases v with
  | array elements =>
      obtain rfl : elements = vs := Option.some.inj array
      exact ⟨part, .element element .self, of_part⟩
  | null | bool | number | string | object => exact absurd array (by simp [elements?])

/-- What a field is read from is a part. -/
theorem exists_within_of_required? {names : List String} {fields : Fields} {name : String}
    {form? : Value → Option α} {x : α} (taken : v.fields? names = some fields)
    (read : fields.required? name form? = some x) :
    ∃ part, part.Within v ∧ form? part = some x := by
  obtain ⟨part, found, of_part⟩ := Option.bind_eq_some_iff.mp read
  obtain ⟨before, after, rfl, -⟩ := List.lookup_eq_some_iff.mp found
  exact ⟨part, within_of_fields? taken List.mem_append_cons_self, of_part⟩

end Json.Value

namespace Interval
variable {v : Value}

/-- The value has the fields of an interval, and they say these instants. -/
def Denoted (v : Value) (start stop : Instant) : Prop :=
  ∃ fields, v.fields? ["start", "end"] = some fields ∧
    fields.required? "start" Instant.ofJson? = some start ∧
    fields.required? "end" Instant.ofJson? = some stop

theorem ofJson?_eq_some_iff {i : Interval} : ofJson? v = some i ↔ Denoted v i.start i.stop := by
  simp only [ofJson?, Denoted, Option.bind_eq_bind, Option.bind_eq_some_iff, between_eq_some_iff]
  constructor
  · rintro ⟨fields, taken, start, first, stop, last, rfl, rfl⟩
    exact ⟨fields, taken, first, last⟩
  · rintro ⟨fields, taken, first, last⟩
    exact ⟨fields, taken, i.start, first, i.stop, last, rfl, rfl⟩

theorem ofJson?_eq_none_iff :
    ofJson? v = none ↔ ∀ start stop, Denoted v start stop → stop < start := by
  rw [Option.eq_none_iff_forall_ne_some]
  constructor
  · intro refused start stop denoted
    refine Int.not_le.mp fun ordered => ?_
    exact refused ⟨start, stop, ordered⟩ (ofJson?_eq_some_iff.mpr denoted)
  · intro inverted i read
    exact absurd i.ordered (Int.not_le.mpr (inverted _ _ (ofJson?_eq_some_iff.mp read)))

/-- The interval is in order, and a part of the value denotes it. -/
def StandsIn (i : Interval) (v : Value) : Prop :=
  i.start ≤ i.stop ∧ ∃ part, part.Within v ∧ Denoted part i.start i.stop

theorem StandsIn.outer {i : Interval} {part : Value} (stands : i.StandsIn part)
    (outside : part.Within v) : i.StandsIn v := by
  obtain ⟨ordered, inner, inside, denoted⟩ := stands
  exact ⟨ordered, inner, outside.trans inside, denoted⟩

theorem standsIn_of_ofJson? {i : Interval} (read : ofJson? v = some i) : i.StandsIn v :=
  ⟨i.ordered, v, .self, ofJson?_eq_some_iff.mp read⟩

end Interval

/-- Every interval of what is read stands in the value that it is read from. -/
def KeepsIntervals {α : Type} (ofJson? : Value → Option α) (intervals : α → List Interval) : Prop :=
  ∀ v x, ofJson? v = some x → ∀ i ∈ intervals x, i.StandsIn v

section Fields
variable {α : Type} {form? : Value → Option α} {intervals : α → List Interval} {v : Value}
  {names : List String} {fields : Fields} {name : String}

theorem KeepsIntervals.field (keeps : KeepsIntervals form? intervals) {x : α}
    (taken : v.fields? names = some fields) (read : fields.required? name form? = some x) :
    ∀ i ∈ intervals x, i.StandsIn v := by
  intro i member
  obtain ⟨part, outside, of_part⟩ := Value.exists_within_of_required? taken read
  exact (keeps part x of_part i member).outer outside

theorem KeepsIntervals.list (keeps : KeepsIntervals form? intervals) :
    KeepsIntervals (Value.list? form?) fun xs => xs.flatMap intervals := by
  intro v xs read i member
  obtain ⟨x, element, of_x⟩ := List.mem_flatMap.mp member
  obtain ⟨part, outside, of_part⟩ := Value.exists_within_of_list? read element
  exact (keeps part x of_part i of_x).outer outside

end Fields

theorem Interval.keepsIntervals : KeepsIntervals ofJson? fun i => [i] := by
  intro v i read j member
  obtain rfl := List.mem_singleton.mp member
  exact standsIn_of_ofJson? read

namespace ChannelSchedule

def intervals (s : ChannelSchedule) : List Interval := [s.interval]

theorem keepsIntervals : KeepsIntervals ofJson? intervals := by
  intro v s read
  simp only [ofJson?, Option.bind_eq_bind, Option.bind_eq_some_iff, Option.some.injEq] at read
  obtain ⟨fields, taken, -, -, interval, read, -, -, rfl⟩ := read
  exact Interval.keepsIntervals.field taken read

end ChannelSchedule

namespace Schedule

def intervals (s : Schedule) : List Interval :=
  s.interval :: s.channelSchedules.flatMap ChannelSchedule.intervals

theorem keepsIntervals : KeepsIntervals ofJson? intervals := by
  intro v s read
  simp only [ofJson?, Option.bind_eq_bind, Option.bind_eq_some_iff, Option.some.injEq] at read
  obtain ⟨fields, taken, channelSchedules, read_schedules, interval, read, rfl⟩ := read
  refine List.forall_mem_cons.mpr ⟨?_, ?_⟩
  · exact Interval.keepsIntervals.field taken read interval (List.mem_singleton_self interval)
  · exact ChannelSchedule.keepsIntervals.list.field taken read_schedules

end Schedule

namespace ChannelSlots

def intervals (s : ChannelSlots) : List Interval := [s.interval]

theorem keepsIntervals : KeepsIntervals ofJson? intervals := by
  intro v s read
  simp only [ofJson?, Option.bind_eq_bind, Option.bind_eq_some_iff, Option.some.injEq] at read
  obtain ⟨fields, taken, -, -, interval, read, -, -, rfl⟩ := read
  exact Interval.keepsIntervals.field taken read

end ChannelSlots

namespace ScheduleSlots

def intervals (s : ScheduleSlots) : List Interval :=
  s.interval :: s.channelSlots.flatMap ChannelSlots.intervals

theorem keepsIntervals : KeepsIntervals ofJson? intervals := by
  intro v s read
  simp only [ofJson?, Option.bind_eq_bind, Option.bind_eq_some_iff, Option.some.injEq] at read
  obtain ⟨fields, taken, channelSlots, read_slots, interval, read, rfl⟩ := read
  refine List.forall_mem_cons.mpr ⟨?_, ?_⟩
  · exact Interval.keepsIntervals.field taken read interval (List.mem_singleton_self interval)
  · exact ChannelSlots.keepsIntervals.list.field taken read_slots

end ScheduleSlots

namespace QueryResult

def intervals (r : QueryResult) : List Interval := r.schedules.flatMap ChannelSchedule.intervals

theorem keepsIntervals : KeepsIntervals ofJson? intervals := by
  intro v r read
  rw [ofJson?, Option.ite_none_right_eq_some] at read
  obtain ⟨-, read⟩ := read
  rcases Option.or_eq_some_iff.mp read with one | ⟨-, several⟩
  · obtain ⟨s, of_v, rfl⟩ := Option.map_eq_some_iff.mp one
    simpa [intervals, schedules] using ChannelSchedule.keepsIntervals v s of_v
  · obtain ⟨schedules, of_v, rfl⟩ := Option.map_eq_some_iff.mp several
    exact ChannelSchedule.keepsIntervals.list v schedules of_v

end QueryResult
end ChannelGuide
