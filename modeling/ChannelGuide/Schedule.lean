import ChannelGuide.Item

/-!
Schedules: what is on, channel by channel, over a stretch of time. Entries are kept as they came;
nothing promises that they are in order, apart from each other or inside the interval.
-/
namespace ChannelGuide

structure ChannelSchedule where
  channel : Channel
  interval : Interval
  entries : List Entry
deriving DecidableEq

def ChannelSchedule.sortedEntries (s : ChannelSchedule) : List Entry :=
  inAiringOrder Entry.broadcast s.entries

structure Schedule where
  channelSchedules : List ChannelSchedule
  interval : Interval
deriving DecidableEq

end ChannelGuide
