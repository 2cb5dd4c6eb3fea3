import ChannelGuide.Time.Timestamp

/-!
Half-open stretches of time. An interval holds its start and not its end, so adjacent intervals
share no instant and an interval that ends where it starts holds none.
-/
namespace ChannelGuide

structure InvertedInterval where
  start : Instant
  stop : Instant
deriving DecidableEq

def InvertedInterval.message (fault : InvertedInterval) : String :=
  s!"Interval end {fault.stop.spoken} is before start {fault.start.spoken}"

structure Interval where
  start : Instant
  stop : Instant
  ordered : start ≤ stop
deriving DecidableEq

namespace Interval

def between (start stop : Instant) : Except InvertedInterval Interval :=
  if h : start ≤ stop then .ok ⟨start, stop, h⟩ else .error ⟨start, stop⟩

def empty (t : Instant) : Interval := ⟨t, t, t.le_refl⟩

def duration (i : Interval) : Span := i.stop.since i.start

def isEmpty (i : Interval) : Bool := i.start = i.stop

def Contains (i : Interval) (t : Instant) : Prop := i.start ≤ t ∧ t < i.stop

instance (i : Interval) (t : Instant) : Decidable (i.Contains t) :=
  inferInstanceAs (Decidable (_ ∧ _))

def Overlaps (i j : Interval) : Prop := i.start < j.stop ∧ j.start < i.stop

instance (i j : Interval) : Decidable (i.Overlaps j) :=
  inferInstanceAs (Decidable (_ ∧ _))

theorem spanning_ordered (i j : Interval) : min i.start j.start ≤ max i.stop j.stop := by
  have hi := i.ordered
  simp only [min, max, Instant.le_iff] at *
  split <;> split <;> omega

/-- The least interval around both. -/
def spanning (i j : Interval) : Interval :=
  ⟨min i.start j.start, max i.stop j.stop, spanning_ordered i j⟩

end Interval
end ChannelGuide
