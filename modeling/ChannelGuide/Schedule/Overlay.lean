import ChannelGuide.Schedule

/-!
Laying an override schedule over a base schedule. Overrides are kept whole. A base entry that an
override cuts keeps what it has before the override; if an override ends inside it, it keeps what
comes after instead, which then has to stand against the next override. Follow-ons share the fate of
the airing they trail.

Nothing is sorted after the walk: both lists are put in order before it, and the result is in order
as far as they allow.
-/
namespace ChannelGuide

/-- What happens to the follow-on of an airing that has just been placed. -/
inductive FollowOnFate where
  | kept
  | dropped
  | movedTo (t : Instant)
deriving DecidableEq

def FollowOnFate.apply (followOn : Entry) : FollowOnFate → Option Entry
  | .kept => some followOn
  | .dropped => none
  | .movedTo t => some (followOn.retimed t t)

/-- Where the walk stands after one base entry: entries to write, what becomes of the follow-on, and
the overrides still to come. -/
structure Placement where
  written : List Entry
  fate : FollowOnFate
  overrides : List Entry
deriving DecidableEq

def Placement.write (e : Entry) (p : Placement) : Placement := { p with written := e :: p.written }

/-- Places one airing against the overrides still to come. Those that end by its start are written
first; one that ends inside it leaves only what comes after to be placed. -/
def place (current : Entry) : List Entry → Placement
  | [] => ⟨[current], .kept, []⟩
  | active :: later =>
    if active.stop ≤ current.start then
      (place current later).write active
    else if current.stop ≤ active.start then
      ⟨[current], .kept, active :: later⟩
    else if current.start < active.start then
      ⟨[current.retimed current.start active.start], .movedTo active.start, active :: later⟩
    else if active.stop < current.stop then
      (place (current.retimed active.stop current.stop) later).write active
    else
      ⟨[], .dropped, active :: later⟩

/-- The walk over the base entries. `fate` is that of the last airing placed; it holds for one
follow-on. -/
def overlay (fate : FollowOnFate) : List Entry → List Entry → List Entry
  | [], overrides => overrides
  | entry :: base, overrides =>
    if entry.broadcast.IsFollowOn then
      (fate.apply entry).toList ++ overlay .kept base overrides
    else
      let placed := place entry overrides
      placed.written ++ overlay placed.fate base placed.overrides

structure ChannelMismatch where
  base : ChannelId
  override : ChannelId
deriving DecidableEq, Repr

def ChannelMismatch.message (fault : ChannelMismatch) : String :=
  s!"Override should be for the same channel, got {fault.base.value} {fault.override.value}"

/-- Lays `overrides` over the schedule; the result covers both intervals. Without any override entry
only the order of the entries changes. -/
def ChannelSchedule.overlaidBy (base overrides : ChannelSchedule) :
    Except ChannelMismatch ChannelSchedule :=
  if base.channel.id ≠ overrides.channel.id then
    .error ⟨base.channel.id, overrides.channel.id⟩
  else if overrides.sortedEntries = [] then
    .ok { base with entries := base.sortedEntries }
  else
    .ok { channel := base.channel
          interval := base.interval.spanning overrides.interval
          entries := overlay .kept base.sortedEntries overrides.sortedEntries }

end ChannelGuide
