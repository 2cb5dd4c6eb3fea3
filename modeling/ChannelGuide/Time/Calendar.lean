/-!
Dates of the proleptic Gregorian calendar and the days between them. Days are counted from
1970-01-01; the arithmetic takes years from March, so that a leap day ends its year.
-/
namespace ChannelGuide

structure Date where
  year : Int
  month : Nat
  day : Nat
deriving DecidableEq, Repr

namespace Date

def isLeapYear (year : Int) : Bool :=
  year % 4 = 0 && (year % 100 ≠ 0 || year % 400 = 0)

def monthLength (year : Int) : Nat → Nat
  | 2 => if isLeapYear year then 29 else 28
  | 4 | 6 | 9 | 11 => 30
  | _ => 31

def Exists (d : Date) : Prop :=
  1 ≤ d.month ∧ d.month ≤ 12 ∧ 1 ≤ d.day ∧ d.day ≤ monthLength d.year d.month

instance (d : Date) : Decidable d.Exists :=
  inferInstanceAs (Decidable (_ ∧ _ ∧ _ ∧ _))

/-- Days from 0000-03-01 to 1970-01-01. -/
def marchOffset : Int := 719468

/-- Days of a year begun in March that pass before its month number `m`, March being month 0. -/
def daysBeforeMonth (m : Nat) : Nat := (153 * m + 2) / 5

/-- The number of the day, 1970-01-01 being day 0. -/
def dayNumber (d : Date) : Int :=
  let year := if d.month ≤ 2 then d.year - 1 else d.year
  365 * year + year / 4 - year / 100 + year / 400
    + daysBeforeMonth ((d.month + 9) % 12) + d.day - 1 - marchOffset

/-- The date `day` days after the first of March of `year`. -/
def ofMarchYear (year : Int) (day : Nat) : Date :=
  let m := (5 * day + 2) / 153
  let month := if m < 10 then m + 3 else m - 9
  { year := if month ≤ 2 then year + 1 else year
    month := month
    day := day - daysBeforeMonth m + 1 }

/-- The date of a day number: whole spans of 400, 100, 4 and 1 years are taken off in turn, the
last century of four and the last year of four being one day longer. -/
def ofDayNumber (n : Int) : Date :=
  let fromMarch := n + marchOffset
  let inCycle := (fromMarch % 146097).toNat
  let century := min (inCycle / 36524) 3
  let inCentury := inCycle - 36524 * century
  let olympiad := inCentury / 1461
  let inOlympiad := inCentury - 1461 * olympiad
  let year := min (inOlympiad / 365) 3
  ofMarchYear (400 * (fromMarch / 146097) + (100 * century + 4 * olympiad + year : Nat))
    (inOlympiad - 365 * year)

end Date
end ChannelGuide
