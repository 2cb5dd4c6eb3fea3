import ChannelGuide.Equivalence.Precedence
import ChannelGuide.Matching
import ChannelGuide.Schedule
import ChannelGuide.Schedule.Slots

/-!
Filling slots: one item is chosen for every slot of a schedule. When equivalents are merged, the
broadcast shown is the chosen item's own one for the slot, if it has one; otherwise a slot is filled
by the item that was scheduled there. A slot that cannot be filled fails the whole schedule.
-/
namespace ChannelGuide

inductive SlotFault where
  | noItems (start : Instant)
  | mergedCount (start : Instant) (count : Nat)
deriving DecidableEq

def SlotFault.message : SlotFault → String
  | .noItems start => s!"no items for broadcast at {start.spoken}"
  | .mergedCount start count =>
    s!"expected one merged item for broadcast at {start.spoken}, got {count}"

structure InconsistentSlot where
  channel : ChannelId
  fault : SlotFault
deriving DecidableEq

structure Selector where
  merger : EquivalentsMerger
  matcher : BroadcastMatcher

namespace Selector

/-- The merged item with its own broadcast for the slot, or else with the slot's. -/
def mergeSlot (selector : Selector) (sources : SourcePrecedence) (slot : Slot) :
    Except SlotFault Entry :=
  match selector.merger none slot.items sources with
  | [item] =>
    let own := selector.matcher.find? slot.broadcast item.broadcasts
    .ok ⟨item, own.getD slot.broadcast⟩
  | merged => .error (.mergedCount slot.broadcast.start merged.length)

/-- The item scheduled in the slot, or else the first. -/
def chooseItem (slot : Slot) : Except SlotFault Entry :=
  match (slot.items.find? fun item => item.HasBroadcast slot.broadcast).or slot.items.head? with
  | some item => .ok ⟨item, slot.broadcast⟩
  | none => .error (.noItems slot.broadcast.start)

def selectSlot (selector : Selector) (context : QueryContext) (slot : Slot) :
    Except SlotFault Entry :=
  if context.MergesEquivalents then selector.mergeSlot context.sources slot else chooseItem slot

def selectChannel (selector : Selector) (context : QueryContext) (s : ChannelSlots) :
    Except InconsistentSlot ChannelSchedule :=
  match s.slots.mapM (selector.selectSlot context) with
  | .ok entries => .ok { channel := s.channel, interval := s.interval, entries }
  | .error fault => .error ⟨s.channel.id, fault⟩

def selectSchedule (selector : Selector) (context : QueryContext) (s : ScheduleSlots) :
    Except InconsistentSlot (List ChannelSchedule) :=
  s.channelSlots.mapM (selector.selectChannel context)

end Selector
end ChannelGuide
