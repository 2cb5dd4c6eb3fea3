import ChannelGuide.Broadcast

/-!
What can be shown: an item of one publisher, with the broadcasts that the publisher knows of it, and
an item paired with the broadcast that it fills in a schedule.
-/
namespace ChannelGuide

structure ItemId where
  value : UInt64
deriving DecidableEq, Repr

structure Item where
  id : ItemId
  publisher : Publisher
  title : String
  broadcasts : List Broadcast
deriving DecidableEq

def Item.HasBroadcast (item : Item) (slot : Broadcast) : Prop :=
  ∃ own ∈ item.broadcasts, own.SameSlot slot

instance (item : Item) (slot : Broadcast) : Decidable (item.HasBroadcast slot) :=
  inferInstanceAs (Decidable (∃ own ∈ _, _))

structure Entry where
  item : Item
  broadcast : Broadcast
deriving DecidableEq

namespace Entry

def start (e : Entry) : Instant := e.broadcast.start

def stop (e : Entry) : Instant := e.broadcast.stop

/-- The same entry at another time; the item keeps the broadcasts it knows. -/
def retimed (e : Entry) (start stop : Instant) : Entry :=
  { e with broadcast := e.broadcast.retimed start stop }

@[simp] theorem start_retimed (e : Entry) (s t : Instant) : (e.retimed s t).start = s := rfl

@[simp] theorem stop_retimed (e : Entry) (s t : Instant) : (e.retimed s t).stop = t := rfl

@[simp] theorem retimed_retimed (e : Entry) (s t s' t' : Instant) :
    (e.retimed s t).retimed s' t' = e.retimed s' t' := rfl

@[simp] theorem retimed_self (e : Entry) : e.retimed e.start e.stop = e := rfl

end Entry
end ChannelGuide
