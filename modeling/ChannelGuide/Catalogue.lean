import ChannelGuide.Answer.Plain
import ChannelGuide.Register
import ChannelGuide.Schedule.Slots

/-!
The catalogue behind the simulated store: channels, items and sets of equivalent items. Items are
called equivalent in any order and any number of times; a set that shares an item with a new one is
joined to it.
-/
namespace ChannelGuide

def Channel.number (channel : Channel) : UInt64 := channel.id.value

def Item.number (item : Item) : UInt64 := item.id.value

structure Catalogue where
  channels : Register Channel.number
  items : Register Item.number
  equivalences : List IdSet

/-- Joins to `joined` every set that shares an item with it, as far as it has grown; the other sets
stay. -/
def absorb (joined : IdSet) : List IdSet → IdSet × List IdSet
  | [] => (joined, [])
  | set :: rest =>
    if ∃ id ∈ set.entries, id ∈ joined.entries then absorb (joined.insertAll set.entries) rest
    else
      let (joined, kept) := absorb joined rest
      (joined, set :: kept)

namespace Catalogue

def empty : Catalogue := ⟨.empty, .empty, []⟩

def addChannel (c : Catalogue) (channel : Channel) : Catalogue :=
  { c with channels := c.channels.insert channel }

def addItem (c : Catalogue) (item : Item) : Catalogue := { c with items := c.items.insert item }

def addEquivalence (c : Catalogue) (ids : List ItemId) : Catalogue :=
  let (joined, kept) := absorb (.ofList ids) c.equivalences
  { c with equivalences := kept ++ [joined] }

/-- The set that the item is in; an item that was never called equivalent is alone in its set. -/
def equivalentsOf (c : Catalogue) (id : ItemId) : IdSet :=
  (c.equivalences.find? fun set => id ∈ set.entries).getD (.ofList [id])

/-- What the publisher airs on the channel, as far as `Airs` says: every broadcast with its own
item, in the order of airings, then of items, then of broadcasts within an item. -/
def airings (c : Catalogue) (channel : ChannelId) (publisher : Publisher)
    (Airs : Broadcast → Prop) [DecidablePred Airs] : List Entry :=
  let published := c.items.entries.filter fun item => item.publisher = publisher
  let entries := published.flatMap fun item => item.broadcasts.map (Entry.mk item)
  inAiringOrder Entry.broadcast
    (entries.filter fun e => e.broadcast.channel = channel ∧ Airs e.broadcast)

/-- The item with those of its equivalents that are known and come from the given sources. -/
def equivalenceSet (c : Catalogue) (primary : Item) (sources : List Publisher) : List Item :=
  let others := (c.equivalentsOf primary.id).entries.filter fun id => id ≠ primary.id
  primary :: (others.filterMap fun id => c.items.get? id.value).filter fun item =>
    item.publisher ∈ sources

end Catalogue

/-- On air at some instant of the interval, or a follow-on at one. -/
def Broadcast.AirsWithin (interval : Interval) (b : Broadcast) : Prop :=
  interval.Overlaps b.interval ∨ b.IsFollowOn ∧ interval.Contains b.start

instance (interval : Interval) (b : Broadcast) : Decidable (b.AirsWithin interval) :=
  inferInstanceAs (Decidable (_ ∨ _ ∧ _))

def Broadcast.StartsFrom (start : Instant) (b : Broadcast) : Prop := start ≤ b.start

instance (start : Instant) (b : Broadcast) : Decidable (b.StartsFrom start) :=
  inferInstanceAs (Decidable (_ ≤ _))

namespace Catalogue

/-- Those of the channels that the catalogue knows, in the order in which they are asked for. -/
def channelsFor (c : Catalogue) (ids : List ChannelId) : List Channel :=
  ids.filterMap fun id => c.channels.get? id.value

def scheduleFor (c : Catalogue) (channels : List Channel) (interval : Interval)
    (publisher : Publisher) : Schedule where
  channelSchedules := channels.map fun channel =>
    { channel, interval
      entries := c.airings channel.id publisher (Broadcast.AirsWithin interval) }
  interval

/-- The entry as a slot, open to the equivalents of its item. -/
def openSlot (c : Catalogue) (sources : List Publisher) (e : Entry) : Slot :=
  ⟨e.broadcast, c.equivalenceSet e.item sources⟩

/-- The slots of one channel. A window of a number of broadcasts starts empty and grows to the end
of the last of them. -/
def channelSlotsFor (c : Catalogue) (window : Window) (publisher : Publisher)
    (sources : List Publisher) (channel : Channel) : ChannelSlots :=
  match window with
  | .interval interval =>
    { channel, interval
      slots := (c.airings channel.id publisher (Broadcast.AirsWithin interval)).map
        (c.openSlot sources) }
  | .count start n =>
    ChannelSlots.limited
      { channel, interval := .empty start
        slots := (c.airings channel.id publisher (Broadcast.StartsFrom start)).map
          (c.openSlot sources) }
      n.toNat

def slotsFor (c : Catalogue) (channels : List Channel) (window : Window) (publisher : Publisher)
    (sources : List Publisher) : ScheduleSlots :=
  let channelSlots := channels.map (c.channelSlotsFor window publisher sources)
  match window with
  | .interval interval => { channelSlots, interval }
  | .count start _ =>
    { channelSlots
      interval := channelSlots.foldl (fun span s => span.spanning s.interval) (.empty start) }

/-- What a known item merges into, chosen among all its equivalents whatever their publisher. -/
def mergedItem (c : Catalogue) (sources : SourcePrecedence) (id : ItemId) : List Item :=
  let members := (c.equivalentsOf id).entries.filterMap fun member => c.items.get? member.value
  if (c.items.get? id.value).isSome then precedenceMerger (some id) members sources else []

def mergedFor (c : Catalogue) (ids : List ItemId) (sources : SourcePrecedence) : MergedItems :=
  fun id => if id ∈ ids then c.mergedItem sources id else []

end Catalogue
end ChannelGuide
