import ChannelGuide.Text.Decimal
import ChannelGuide.Time.Instant

/-!
The written form of instants. A timestamp is read with any offset and written in universal time,
with the fewest of 0, 3, 6 or 9 decimals that are exact; a leap second is written as the second after
the one that it follows, and so at the end of a minute as second 60.
-/
namespace ChannelGuide

namespace Timestamp

/-- What a reader takes for a timestamp: only the exact form, with four digits for the year and two
for every other number; or also blanks between the parts, fewer digits, a year with a sign and any
number of digits, an offset without its colon, and `UTC` in the place of an offset. -/
inductive Manner where
  | exact
  | relaxed
deriving DecidableEq, Repr

/-- A date and time of day as written, before its offset is applied. -/
structure Reading where
  date : Date
  hour : Nat
  minute : Nat
  second : Nat
  nanos : Nat
  /-- Minutes that the writer's clock is ahead of universal time. -/
  offset : Int
deriving DecidableEq, Repr

/-- White space, as Unicode has it. -/
def isBlank (c : Char) : Bool :=
  let code := c.toNat
  (0x9 ≤ code && code ≤ 0xD) || code = 0x20 || code = 0x85 || code = 0xA0 || code = 0x1680 ||
    (0x2000 ≤ code && code ≤ 0x200A) || code = 0x2028 || code = 0x2029 || code = 0x202F ||
    code = 0x205F || code = 0x3000

def skipBlanks (manner : Manner) (cs : List Char) : List Char :=
  match manner with
  | .exact => cs
  | .relaxed => cs.dropWhile isBlank

def skip? (expected : Char) : List Char → Option (List Char)
  | c :: rest => if c = expected then some rest else none
  | [] => none

/-- A number of two digits; of one or two after blanks, if the manner is relaxed. -/
def readNumber? (manner : Manner) (cs : List Char) : Option (Nat × List Char) :=
  match manner with
  | .exact => Decimal.readFixed? 2 0 cs
  | .relaxed => Decimal.readShort? 2 (skipBlanks .relaxed cs)

/-- A year that may have a sign, and only then more than four digits. -/
def readSignedYear? : List Char → Option (Int × List Char)
  | '+' :: rest => (Decimal.readMany? rest).map fun (n, rest) => (n, rest)
  | '-' :: rest => (Decimal.readMany? rest).map fun (n, rest) => (-n, rest)
  | cs => (Decimal.readShort? 4 cs).map fun (n, rest) => (n, rest)

def readYear? (manner : Manner) (cs : List Char) : Option (Int × List Char) :=
  match manner with
  | .exact => (Decimal.readFixed? 4 0 cs).map fun (n, rest) => (n, rest)
  | .relaxed => readSignedYear? (skipBlanks .relaxed cs)

def skipDateMark? : List Char → Option (List Char)
  | c :: rest => if c = 'T' ∨ c = 't' ∨ c = ' ' then some rest else none
  | [] => none

/-- Decimals after a point, at least one; those after the ninth are dropped. -/
def readNanos? : List Char → Option (Nat × List Char)
  | '.' :: rest =>
    match rest.takeWhile Char.isDigit with
    | [] => none
    | digits =>
      let kept := digits.take 9
      let nanos := Nat.ofDigitChars 10 kept 0 * Nat.pow 10 (9 - kept.length)
      some (nanos, rest.dropWhile Char.isDigit)
  | cs => some (0, cs)

/-- A sign before an offset; a minus may also be the one that is longer than a hyphen. -/
def readSign? : List Char → Option (Int × List Char)
  | '+' :: rest => some (1, rest)
  | '-' :: rest => some (-1, rest)
  | '\u2212' :: rest => some (-1, rest)
  | _ => none

/-- Between the hours and the minutes of an offset: a colon; or any colons and blanks. -/
def skipSeparator? (manner : Manner) (cs : List Char) : Option (List Char) :=
  match manner with
  | .exact => skip? ':' cs
  | .relaxed => some (cs.dropWhile fun c => c = ':' || isBlank c)

def readOffset? (manner : Manner) : List Char → Option (Int × List Char)
  | 'Z' :: rest => some (0, rest)
  | 'z' :: rest => some (0, rest)
  | cs => do
    let (sign, cs) ← readSign? cs
    let (hours, cs) ← Decimal.readFixed? 2 0 cs
    let cs ← skipSeparator? manner cs
    let (minutes, cs) ← Decimal.readFixed? 2 0 cs
    if hours ≤ 23 ∧ minutes ≤ 59 then some (sign * (60 * hours + minutes : Nat), cs) else none

/-- An offset, or the name of universal time. -/
def readZone? (manner : Manner) (cs : List Char) : Option (Int × List Char) :=
  if manner = .relaxed ∧ (cs.take 3).map Char.toUpper = ['U', 'T', 'C'] then some (0, cs.drop 3)
  else readOffset? manner cs

def Reading.ofChars? (manner : Manner) (cs : List Char) : Option Reading := do
  let (year, cs) ← readYear? manner cs
  let cs ← skip? '-' (skipBlanks manner cs)
  let (month, cs) ← readNumber? manner cs
  let cs ← skip? '-' (skipBlanks manner cs)
  let (day, cs) ← readNumber? manner cs
  let cs ← skipDateMark? cs
  let (hour, cs) ← readNumber? manner cs
  let cs ← skip? ':' (skipBlanks manner cs)
  let (minute, cs) ← readNumber? manner cs
  let cs ← skip? ':' (skipBlanks manner cs)
  let (second, cs) ← readNumber? manner cs
  let (nanos, cs) ← readNanos? cs
  let (offset, cs) ← readZone? manner (skipBlanks manner cs)
  if skipBlanks manner cs = [] then
    some { date := ⟨year, month, day⟩, hour, minute, second, nanos, offset }
  else none

/-- The calendar and the clock have such a time; second 60 is a leap second. -/
def Reading.Exists (r : Reading) : Prop :=
  r.date.Exists ∧ Instant.firstYear ≤ r.date.year ∧ r.date.year ≤ Instant.lastYear ∧
    r.hour ≤ 23 ∧ r.minute ≤ 59 ∧ r.second ≤ 60

instance (r : Reading) : Decidable r.Exists :=
  inferInstanceAs (Decidable (_ ∧ _ ∧ _ ∧ _ ∧ _ ∧ _))

def Reading.ticks (r : Reading) : Int :=
  let second : Int := r.date.dayNumber * Instant.secondsPerDay
    + (3600 * r.hour + 60 * r.minute + min r.second 59 : Nat) - 60 * r.offset
  let leap : Int := if r.second = 60 then Instant.nanosPerSecond else 0
  second * Instant.ticksPerSecond + leap + r.nanos

def Reading.instant? (r : Reading) : Option Instant :=
  if r.Exists then Instant.ofTicks? r.ticks else none

def yearChars (year : Int) : List Char :=
  let digits := if year.natAbs < 10000 then Decimal.fixed 4 year.natAbs
    else Nat.toDigits 10 year.natAbs
  if 0 ≤ year ∧ year ≤ 9999 then digits
  else if year < 0 then '-' :: digits
  else '+' :: digits

def nanosChars (nanos : Nat) : List Char :=
  if nanos = 0 then []
  else if nanos % 1000000 = 0 then '.' :: Decimal.fixed 3 (nanos / 1000000)
  else if nanos % 1000 = 0 then '.' :: Decimal.fixed 6 (nanos / 1000)
  else '.' :: Decimal.fixed 9 nanos

def dateChars (date : Date) : List Char :=
  yearChars date.year ++ '-' :: Decimal.fixed 2 date.month ++ '-' :: Decimal.fixed 2 date.day

/-- The time of day, a leap second being one more than the second that it follows. -/
def clockChars (t : Instant) : List Char :=
  let second := t.secondOfDay.toNat
  let leap := if t.inLeapSecond then 1 else 0
  Decimal.fixed 2 (second / 3600) ++ ':' :: Decimal.fixed 2 (second % 3600 / 60)
    ++ ':' :: Decimal.fixed 2 (second % 60 + leap)
    ++ nanosChars (t.fraction % Instant.nanosPerSecond).toNat

end Timestamp

namespace Instant

def ofChars? (manner : Timestamp.Manner) (cs : List Char) : Option Instant :=
  (Timestamp.Reading.ofChars? manner cs).bind Timestamp.Reading.instant?

def ofTimestamp? (text : String) : Option Instant := ofChars? .relaxed text.toList

/-- The timestamp as data: `2024-03-01T09:00:00.500Z`. -/
def timestampChars (t : Instant) : List Char :=
  Timestamp.dateChars (Date.ofDayNumber t.dayNumber) ++ 'T' :: Timestamp.clockChars t ++ ['Z']

def timestamp (t : Instant) : String := String.ofList t.timestampChars

/-- The timestamp inside a sentence: `2024-03-01 09:00:00.500 UTC`. -/
def spoken (t : Instant) : String :=
  let chars := Timestamp.dateChars (Date.ofDayNumber t.dayNumber) ++ ' ' :: Timestamp.clockChars t
  String.ofList chars ++ " UTC"

end Instant
end ChannelGuide
