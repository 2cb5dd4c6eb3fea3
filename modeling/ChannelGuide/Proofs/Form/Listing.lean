import ChannelGuide.Form.Listing
import ChannelGuide.Proofs.Json.Record
import ChannelGuide.Proofs.Time.Timestamp

/-!
The forms of channels, items and schedules lose nothing but the leap seconds that no timestamp tells:
what is written of a value is read as that value if each of its instants is, and is small enough in
depth to be kept.
-/
namespace ChannelGuide
open Json (Value Fields)

theorem map_eq_self_iff {α : Type} {f : α → α} {xs : List α} :
    xs.map f = xs ↔ ∀ x ∈ xs, f x = x := by
  have self := List.map_inj_left (l := xs) (f := f) (g := id)
  rwa [List.map_id] at self

section Leaves
variable {room : Nat}

@[simp] theorem Publisher.ofJson?_toJson (p : Publisher) : ofJson? p.toJson = some p := rfl

@[simp] theorem ChannelId.ofJson?_toJson (id : ChannelId) : ofJson? id.toJson = some id := by
  simp [ofJson?, toJson]

@[simp] theorem ItemId.ofJson?_toJson (id : ItemId) : ofJson? id.toJson = some id := by
  simp [ofJson?, toJson]

@[simp] theorem Instant.ofJson?_toJson (t : Instant) : ofJson? t.toJson = some t.asRead := by
  rw [ofJson?, toJson, Value.text?_text, Option.bind_some, ofTimestamp?_timestamp]

theorem Instant.writable_of_ofJson? {v : Value} {t : Instant} (read : ofJson? v = some t) :
    t.Writable := by
  obtain ⟨text, -, of_text⟩ := Option.bind_eq_some_iff.mp read
  exact writable_of_ofTimestamp? of_text

@[simp] theorem Publisher.isStorable_toJson (p : Publisher) : p.toJson.isStorable room = true := rfl

@[simp] theorem ChannelId.isStorable_toJson (id : ChannelId) : id.toJson.isStorable room = true :=
  Value.isStorable_word id.value

@[simp] theorem ItemId.isStorable_toJson (id : ItemId) : id.toJson.isStorable room = true :=
  Value.isStorable_word id.value

@[simp] theorem Instant.isStorable_toJson (t : Instant) : t.toJson.isStorable room = true := rfl

end Leaves

/-! ## Records -/

namespace Channel

@[simp] theorem ofJson?_toJson (c : Channel) : ofJson? c.toJson = some c := by
  simp [ofJson?, toJson, Value.fields?_record, Value.list?_list_of_back Publisher.ofJson?_toJson]

@[simp] theorem isStorable_toJson (c : Channel) (room : Nat) :
    c.toJson.isStorable (room + 2) = true := by
  simp [toJson]

end Channel

namespace Interval

theorem between_eq_some_iff {start stop : Instant} {i : Interval} :
    (between start stop).toOption = some i ↔ start = i.start ∧ stop = i.stop := by
  obtain ⟨first, last, ordered⟩ := i
  unfold between
  split
  · simp [Except.toOption]
  · next inverted =>
      simp only [Except.toOption, reduceCtorEq, false_iff, not_and]
      rintro rfl rfl
      exact inverted ordered

def writtenInstants (i : Interval) : List Instant := [i.start, i.stop]

@[simp] theorem ofJson?_toJson_iff {i : Interval} :
    ofJson? i.toJson = some i ↔ Instant.AllWritable i.writtenInstants := by
  obtain ⟨start, stop, ordered⟩ := i
  simp [ofJson?, toJson, Value.fields?_record, writtenInstants, ← Instant.asRead_eq_self_iff,
    between_eq_some_iff]

@[simp] theorem isStorable_toJson (i : Interval) (room : Nat) :
    i.toJson.isStorable (room + 1) = true := by
  simp [toJson]

end Interval

namespace Broadcast

def writtenInstants (b : Broadcast) : List Instant := [b.start, b.stop]

def asRead (b : Broadcast) : Broadcast := { b with start := b.start.asRead, stop := b.stop.asRead }

theorem asRead_eq_self_iff {b : Broadcast} :
    b.asRead = b ↔ Instant.AllWritable b.writtenInstants := by
  obtain ⟨channel, start, stop, sourceId, activelyPublished, isRepeat⟩ := b
  simp [asRead, writtenInstants, Instant.asRead_eq_self_iff]

@[simp] theorem ofJson?_toJson (b : Broadcast) : ofJson? b.toJson = some b.asRead := by
  simp [ofJson?, toJson, Value.fields?_record, Value.optional?_optional_text, asRead]

theorem ofJson?_toJson_iff {b : Broadcast} :
    ofJson? b.toJson = some b ↔ Instant.AllWritable b.writtenInstants := by
  rw [ofJson?_toJson, Option.some.injEq, asRead_eq_self_iff]

theorem writable_of_ofJson? {v : Value} {b : Broadcast} (read : ofJson? v = some b) :
    Instant.AllWritable b.writtenInstants := by
  simp only [ofJson?, Option.bind_eq_bind, Option.bind_eq_some_iff, Option.some.injEq] at read
  obtain ⟨_, -, _, -, start, first, stop, last, _, -, _, -, _, -, rfl⟩ := read
  obtain ⟨_, of_start⟩ := Fields.exists_of_required? first
  obtain ⟨_, of_stop⟩ := Fields.exists_of_required? last
  exact Instant.allWritable_pair.mpr
    ⟨Instant.writable_of_ofJson? of_start, Instant.writable_of_ofJson? of_stop⟩

@[simp] theorem isStorable_toJson (b : Broadcast) (room : Nat) :
    b.toJson.isStorable (room + 1) = true := by
  simp [toJson]

end Broadcast

namespace Item

def writtenInstants (item : Item) : List Instant := item.broadcasts.flatMap Broadcast.writtenInstants

def asRead (item : Item) : Item := { item with broadcasts := item.broadcasts.map Broadcast.asRead }

theorem asRead_eq_self_iff {item : Item} :
    item.asRead = item ↔ Instant.AllWritable item.writtenInstants := by
  obtain ⟨id, publisher, title, broadcasts⟩ := item
  simp [asRead, writtenInstants, map_eq_self_iff, Broadcast.asRead_eq_self_iff]

@[simp] theorem ofJson?_toJson (item : Item) : ofJson? item.toJson = some item.asRead := by
  simp [ofJson?, toJson, Value.fields?_record, Value.list?_list Broadcast.ofJson?_toJson, asRead]

theorem ofJson?_toJson_iff {item : Item} :
    ofJson? item.toJson = some item ↔ Instant.AllWritable item.writtenInstants := by
  rw [ofJson?_toJson, Option.some.injEq, asRead_eq_self_iff]

theorem writable_of_ofJson? {v : Value} {item : Item} (read : ofJson? v = some item) :
    Instant.AllWritable item.writtenInstants := by
  simp only [ofJson?, Option.bind_eq_bind, Option.bind_eq_some_iff, Option.some.injEq] at read
  obtain ⟨_, -, _, -, _, -, _, -, broadcasts, listed, rfl⟩ := read
  refine Instant.allWritable_flatMap.mpr fun b member => ?_
  obtain rfl | ⟨_, of_list⟩ := Fields.eq_or_exists_of_defaulted? listed
  · exact absurd member List.not_mem_nil
  · obtain ⟨_, of_b⟩ := Value.exists_of_mem_list? of_list member
    exact Broadcast.writable_of_ofJson? of_b

@[simp] theorem isStorable_toJson (item : Item) (room : Nat) :
    item.toJson.isStorable (room + 3) = true := by
  simp [toJson]

end Item

namespace Entry

def writtenInstants (e : Entry) : List Instant :=
  e.item.writtenInstants ++ e.broadcast.writtenInstants

@[simp] theorem ofJson?_toJson_iff {e : Entry} :
    ofJson? e.toJson = some e ↔ Instant.AllWritable e.writtenInstants := by
  obtain ⟨item, broadcast⟩ := e
  simp [ofJson?, toJson, Value.fields?_record, writtenInstants,
    Item.asRead_eq_self_iff, Broadcast.asRead_eq_self_iff]

@[simp] theorem isStorable_toJson (e : Entry) (room : Nat) :
    e.toJson.isStorable (room + 4) = true := by
  simp [toJson]

end Entry

namespace ChannelSchedule

def writtenInstants (s : ChannelSchedule) : List Instant :=
  s.interval.writtenInstants ++ s.entries.flatMap Entry.writtenInstants

@[simp] theorem ofJson?_toJson_iff {s : ChannelSchedule} :
    ofJson? s.toJson = some s ↔ Instant.AllWritable s.writtenInstants := by
  obtain ⟨channel, interval, entries⟩ := s
  simp [ofJson?, toJson, Value.fields?_record, writtenInstants, Option.bind_eq_some_iff,
    Value.list?_list_eq_self_iff]

@[simp] theorem isStorable_toJson (s : ChannelSchedule) (room : Nat) :
    s.toJson.isStorable (room + 6) = true := by
  simp [toJson]

end ChannelSchedule

namespace Schedule

def writtenInstants (s : Schedule) : List Instant :=
  s.channelSchedules.flatMap ChannelSchedule.writtenInstants ++ s.interval.writtenInstants

@[simp] theorem ofJson?_toJson_iff {s : Schedule} :
    ofJson? s.toJson = some s ↔ Instant.AllWritable s.writtenInstants := by
  obtain ⟨channelSchedules, interval⟩ := s
  simp [ofJson?, toJson, Value.fields?_record, writtenInstants, Option.bind_eq_some_iff,
    Value.list?_list_eq_self_iff]

@[simp] theorem isStorable_toJson (s : Schedule) (room : Nat) :
    s.toJson.isStorable (room + 8) = true := by
  simp [toJson]

end Schedule

namespace Slot

def writtenInstants (s : Slot) : List Instant :=
  s.broadcast.writtenInstants ++ s.items.flatMap Item.writtenInstants

@[simp] theorem ofJson?_toJson_iff {s : Slot} :
    ofJson? s.toJson = some s ↔ Instant.AllWritable s.writtenInstants := by
  obtain ⟨broadcast, items⟩ := s
  simp [ofJson?, toJson, Value.fields?_record, writtenInstants, Option.bind_eq_some_iff,
    Value.list?_list_eq_self_iff, Item.asRead_eq_self_iff, Broadcast.asRead_eq_self_iff, and_comm]

@[simp] theorem isStorable_toJson (s : Slot) (room : Nat) :
    s.toJson.isStorable (room + 5) = true := by
  simp [toJson]

end Slot

namespace ChannelSlots

def writtenInstants (s : ChannelSlots) : List Instant :=
  s.interval.writtenInstants ++ s.slots.flatMap Slot.writtenInstants

@[simp] theorem ofJson?_toJson_iff {s : ChannelSlots} :
    ofJson? s.toJson = some s ↔ Instant.AllWritable s.writtenInstants := by
  obtain ⟨channel, interval, slots⟩ := s
  simp [ofJson?, toJson, Value.fields?_record, writtenInstants, Option.bind_eq_some_iff,
    Value.list?_list_eq_self_iff]

@[simp] theorem isStorable_toJson (s : ChannelSlots) (room : Nat) :
    s.toJson.isStorable (room + 7) = true := by
  simp [toJson]

end ChannelSlots

namespace ScheduleSlots

def writtenInstants (s : ScheduleSlots) : List Instant :=
  s.channelSlots.flatMap ChannelSlots.writtenInstants ++ s.interval.writtenInstants

@[simp] theorem ofJson?_toJson_iff {s : ScheduleSlots} :
    ofJson? s.toJson = some s ↔ Instant.AllWritable s.writtenInstants := by
  obtain ⟨channelSlots, interval⟩ := s
  simp [ofJson?, toJson, Value.fields?_record, writtenInstants, Option.bind_eq_some_iff,
    Value.list?_list_eq_self_iff]

@[simp] theorem isStorable_toJson (s : ScheduleSlots) (room : Nat) :
    s.toJson.isStorable (room + 9) = true := by
  simp [toJson]

end ScheduleSlots

end ChannelGuide
