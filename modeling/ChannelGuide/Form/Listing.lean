import ChannelGuide.Json.Record
import ChannelGuide.Schedule
import ChannelGuide.Schedule.Slots

/-!
The JSON forms of channels, broadcasts, items and schedules. Every field is written; a field with a
default may be missing when read. An interval that ends before it starts is no interval, but a
broadcast may.
-/
namespace ChannelGuide
open Json (Value)

def Publisher.toJson (p : Publisher) : Value := .text p.key

def Publisher.ofJson? (v : Value) : Option Publisher := v.text?.map Publisher.mk

def ChannelId.toJson (id : ChannelId) : Value := .nat id.value.toNat

def ChannelId.ofJson? (v : Value) : Option ChannelId := v.word?.map ChannelId.mk

def ItemId.toJson (id : ItemId) : Value := .nat id.value.toNat

def ItemId.ofJson? (v : Value) : Option ItemId := v.word?.map ItemId.mk

def Instant.toJson (t : Instant) : Value := .text t.timestamp

def Instant.ofJson? (v : Value) : Option Instant := v.text?.bind Instant.ofTimestamp?

namespace Channel

def toJson (c : Channel) : Value := .record
  [ ("id", c.id.toJson),
    ("key", .text c.key),
    ("title", .text c.title),
    ("available_from", .list Publisher.toJson c.availableFrom) ]

def ofJson? (v : Value) : Option Channel := do
  let fields ← v.fields? ["id", "key", "title", "available_from"]
  let id ← fields.required? "id" ChannelId.ofJson?
  let key ← fields.required? "key" Value.text?
  let title ← fields.required? "title" Value.text?
  let availableFrom ← fields.defaulted? "available_from" [] (Value.list? Publisher.ofJson?)
  some { id, key, title, availableFrom }

end Channel

namespace Interval

def toJson (i : Interval) : Value := .record [("start", i.start.toJson), ("end", i.stop.toJson)]

def ofJson? (v : Value) : Option Interval := do
  let fields ← v.fields? ["start", "end"]
  let start ← fields.required? "start" Instant.ofJson?
  let stop ← fields.required? "end" Instant.ofJson?
  (between start stop).toOption

end Interval

namespace Broadcast

def toJson (b : Broadcast) : Value := .record
  [ ("channel_id", b.channel.toJson),
    ("transmission_time", b.start.toJson),
    ("transmission_end_time", b.stop.toJson),
    ("source_id", .optional .text b.sourceId),
    ("actively_published", .bool b.activelyPublished),
    ("repeat", .bool b.isRepeat) ]

def ofJson? (v : Value) : Option Broadcast := do
  let fields ← v.fields?
    [ "channel_id", "transmission_time", "transmission_end_time", "source_id",
      "actively_published", "repeat" ]
  let channel ← fields.required? "channel_id" ChannelId.ofJson?
  let start ← fields.required? "transmission_time" Instant.ofJson?
  let stop ← fields.required? "transmission_end_time" Instant.ofJson?
  let sourceId ← fields.defaulted? "source_id" none (Value.optional? Value.text?)
  let activelyPublished ← fields.defaulted? "actively_published" true Value.bool?
  let isRepeat ← fields.defaulted? "repeat" false Value.bool?
  some { channel, start, stop, sourceId, activelyPublished, isRepeat }

end Broadcast

namespace Item

def toJson (item : Item) : Value := .record
  [ ("id", item.id.toJson),
    ("publisher", item.publisher.toJson),
    ("title", .text item.title),
    ("broadcasts", .list Broadcast.toJson item.broadcasts) ]

def ofJson? (v : Value) : Option Item := do
  let fields ← v.fields? ["id", "publisher", "title", "broadcasts"]
  let id ← fields.required? "id" ItemId.ofJson?
  let publisher ← fields.required? "publisher" Publisher.ofJson?
  let title ← fields.required? "title" Value.text?
  let broadcasts ← fields.defaulted? "broadcasts" [] (Value.list? Broadcast.ofJson?)
  some { id, publisher, title, broadcasts }

end Item

namespace Entry

def toJson (e : Entry) : Value :=
  .record [("item", e.item.toJson), ("broadcast", e.broadcast.toJson)]

def ofJson? (v : Value) : Option Entry := do
  let fields ← v.fields? ["item", "broadcast"]
  let item ← fields.required? "item" Item.ofJson?
  let broadcast ← fields.required? "broadcast" Broadcast.ofJson?
  some { item, broadcast }

end Entry

namespace ChannelSchedule

def toJson (s : ChannelSchedule) : Value := .record
  [ ("channel", s.channel.toJson),
    ("interval", s.interval.toJson),
    ("entries", .list Entry.toJson s.entries) ]

def ofJson? (v : Value) : Option ChannelSchedule := do
  let fields ← v.fields? ["channel", "interval", "entries"]
  let channel ← fields.required? "channel" Channel.ofJson?
  let interval ← fields.required? "interval" Interval.ofJson?
  let entries ← fields.required? "entries" (Value.list? Entry.ofJson?)
  some { channel, interval, entries }

end ChannelSchedule

namespace Schedule

def toJson (s : Schedule) : Value := .record
  [ ("channel_schedules", .list ChannelSchedule.toJson s.channelSchedules),
    ("interval", s.interval.toJson) ]

def ofJson? (v : Value) : Option Schedule := do
  let fields ← v.fields? ["channel_schedules", "interval"]
  let channelSchedules ← fields.required? "channel_schedules" (Value.list? ChannelSchedule.ofJson?)
  let interval ← fields.required? "interval" Interval.ofJson?
  some { channelSchedules, interval }

end Schedule

namespace Slot

def toJson (s : Slot) : Value :=
  .record [("broadcast", s.broadcast.toJson), ("items", .list Item.toJson s.items)]

def ofJson? (v : Value) : Option Slot := do
  let fields ← v.fields? ["broadcast", "items"]
  let broadcast ← fields.required? "broadcast" Broadcast.ofJson?
  let items ← fields.required? "items" (Value.list? Item.ofJson?)
  some { broadcast, items }

end Slot

namespace ChannelSlots

def toJson (s : ChannelSlots) : Value := .record
  [ ("channel", s.channel.toJson),
    ("interval", s.interval.toJson),
    ("entries", .list Slot.toJson s.slots) ]

def ofJson? (v : Value) : Option ChannelSlots := do
  let fields ← v.fields? ["channel", "interval", "entries"]
  let channel ← fields.required? "channel" Channel.ofJson?
  let interval ← fields.required? "interval" Interval.ofJson?
  let slots ← fields.required? "entries" (Value.list? Slot.ofJson?)
  some { channel, interval, slots }

end ChannelSlots

namespace ScheduleSlots

def toJson (s : ScheduleSlots) : Value := .record
  [ ("channel_schedules", .list ChannelSlots.toJson s.channelSlots),
    ("interval", s.interval.toJson) ]

def ofJson? (v : Value) : Option ScheduleSlots := do
  let fields ← v.fields? ["channel_schedules", "interval"]
  let channelSlots ← fields.required? "channel_schedules" (Value.list? ChannelSlots.ofJson?)
  let interval ← fields.required? "interval" Interval.ofJson?
  some { channelSlots, interval }

end ScheduleSlots
end ChannelGuide
