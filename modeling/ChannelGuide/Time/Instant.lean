import ChannelGuide.Time.Calendar

/-!
Instants of universal time, to the nanosecond, and the signed lengths of time between them.

Every second owns two thousand million ticks: the first half for its own nanoseconds, the second
half for those of a leap second put after it. So the order of instants is the order of their ticks.
An instant lies in the years -262143 to 262142. A leap second may be put after any second, though a
timestamp has words only for one at the end of a minute.
-/
namespace ChannelGuide

structure Span where
  nanos : Int
deriving DecidableEq, Repr

namespace Span

instance : LE Span := ⟨fun a b => a.nanos ≤ b.nanos⟩
instance : LT Span := ⟨fun a b => a.nanos < b.nanos⟩
instance (a b : Span) : Decidable (a ≤ b) := inferInstanceAs (Decidable (a.nanos ≤ b.nanos))
instance (a b : Span) : Decidable (a < b) := inferInstanceAs (Decidable (a.nanos < b.nanos))

def zero : Span := ⟨0⟩

def ofMillis (millis : Int) : Span := ⟨millis * 1000000⟩

def ofHours (hours : Int) : Span := ofMillis (hours * 3600000)

def magnitude (s : Span) : Span := ⟨s.nanos.natAbs⟩

/-- Whole hours, the rest dropped toward zero. -/
def wholeHours (s : Span) : Int := s.nanos.tdiv 3600000000000

/-- Whole seconds, the rest dropped toward zero. -/
def wholeSeconds (s : Span) : Int := s.nanos.tdiv 1000000000

/-- What `wholeSeconds` drops, with the sign of the span. -/
def remainingNanos (s : Span) : Int := s.nanos.tmod 1000000000

end Span

namespace Instant

def ticksPerSecond : Int := 2000000000

def nanosPerSecond : Int := 1000000000

def secondsPerDay : Int := 86400

def firstYear : Int := -262143

def lastYear : Int := 262142

def firstTick : Int :=
  Date.dayNumber ⟨firstYear, 1, 1⟩ * secondsPerDay * ticksPerSecond

def lastTick : Int :=
  (Date.dayNumber ⟨lastYear, 12, 31⟩ + 1) * secondsPerDay * ticksPerSecond - 1

/-- In the supported years. -/
def Representable (ticks : Int) : Prop := firstTick ≤ ticks ∧ ticks ≤ lastTick

instance (ticks : Int) : Decidable (Representable ticks) :=
  inferInstanceAs (Decidable (_ ∧ _))

end Instant

structure Instant where
  ticks : Int
  representable : Instant.Representable ticks
deriving DecidableEq

namespace Instant

instance : LE Instant := ⟨fun a b => a.ticks ≤ b.ticks⟩
instance : LT Instant := ⟨fun a b => a.ticks < b.ticks⟩
instance (a b : Instant) : Decidable (a ≤ b) := inferInstanceAs (Decidable (a.ticks ≤ b.ticks))
instance (a b : Instant) : Decidable (a < b) := inferInstanceAs (Decidable (a.ticks < b.ticks))
instance : Min Instant := minOfLe
instance : Max Instant := maxOfLe

theorem le_iff {a b : Instant} : a ≤ b ↔ a.ticks ≤ b.ticks := Iff.rfl

theorem lt_iff {a b : Instant} : a < b ↔ a.ticks < b.ticks := Iff.rfl

theorem le_refl (t : Instant) : t ≤ t := Int.le_refl t.ticks

theorem ext_iff {a b : Instant} : a = b ↔ a.ticks = b.ticks := by
  cases a; cases b; simp

def ofTicks? (ticks : Int) : Option Instant :=
  if h : Representable ticks then some ⟨ticks, h⟩ else none

/-- The second that the instant lies in, or that its leap second follows, counted from 1970. -/
def second (t : Instant) : Int := t.ticks / ticksPerSecond

/-- Nanoseconds since the start of `second`, one thousand million or more in a leap second. -/
def fraction (t : Instant) : Int := t.ticks % ticksPerSecond

def dayNumber (t : Instant) : Int := t.second / secondsPerDay

def secondOfDay (t : Instant) : Int := t.second % secondsPerDay

def inLeapSecond (t : Instant) : Bool := nanosPerSecond ≤ t.fraction

/-- The length of time from `b` to `a`. A leap second counts when one of the two lies in it and the
other is at a later time of day; any other day is taken to have 86400 seconds. -/
def since (a b : Instant) : Span :=
  let days := a.dayNumber - b.dayNumber
  let seconds := a.secondOfDay - b.secondOfDay
  let leap :=
    if b.secondOfDay < a.secondOfDay ∧ b.inLeapSecond then 1
    else if a.secondOfDay < b.secondOfDay ∧ a.inLeapSecond then -1
    else 0
  ⟨(days * secondsPerDay + seconds + leap) * nanosPerSecond + (a.fraction - b.fraction)⟩

end Instant
end ChannelGuide
