import ChannelGuide.Item

/-!
Schedules before a choice is made: every slot comes with all the items that are equivalent to the
one scheduled there.
-/
namespace ChannelGuide

structure Slot where
  broadcast : Broadcast
  items : List Item
deriving DecidableEq

structure ChannelSlots where
  channel : Channel
  interval : Interval
  slots : List Slot
deriving DecidableEq

structure ScheduleSlots where
  channelSlots : List ChannelSlots
  interval : Interval
deriving DecidableEq

/-- From the start of `interval` to the end of the last slot. Without a slot, or if the last one
ends before the start, the interval stays. -/
def coveredBy (interval : Interval) (slots : List Slot) : Interval :=
  match slots.getLast? with
  | none => interval
  | some last =>
    if h : interval.start ≤ last.broadcast.stop then ⟨interval.start, last.broadcast.stop, h⟩
    else interval

/-- The first `count` slots in the order of airings, and the interval that they cover. -/
def ChannelSlots.limited (s : ChannelSlots) (count : Nat) : ChannelSlots :=
  let kept := (inAiringOrder Slot.broadcast s.slots).take count
  { s with interval := coveredBy s.interval kept, slots := kept }

end ChannelGuide
