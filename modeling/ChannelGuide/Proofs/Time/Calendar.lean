import Mathlib.Tactic.IntervalCases
import ChannelGuide.Time.Calendar

/-!
Days and their dates. Every day number has a date, which the calendar has, and the date has that
number. The days of a year are counted from the first of March, so that the question whether the
year is a leap year only arises for its last day.
-/
namespace ChannelGuide.Date

theorem isLeapYear_iff {year : Int} :
    isLeapYear year = true ↔ year % 4 = 0 ∧ (year % 100 ≠ 0 ∨ year % 400 = 0) := by
  simp [isLeapYear]

/-- Days from 0000-03-01 to the first of March of the year. -/
def daysBeforeYear (year : Int) : Int := 365 * year + year / 4 - year / 100 + year / 400

/-- The length of the year that begins with March of `year`; a leap day would be its last. -/
def marchYearLength (year : Int) : Nat := if isLeapYear (year + 1) then 366 else 365

theorem marchYearLength_le (year : Int) : marchYearLength year ≤ 366 := by
  unfold marchYearLength
  split <;> decide

section MarchYear
variable {year : Int} {day : Nat}

/-- A day stands in the last month that begins by then: in one of the same year, or in January or
February of the next. -/
theorem ofMarchYear_cases (year : Int) (inside : day < 366) :
    ∃ m, daysBeforeMonth m ≤ day ∧ day < daysBeforeMonth (m + 1) ∧
      (m < 10 ∧ ofMarchYear year day = ⟨year, m + 3, day - daysBeforeMonth m + 1⟩ ∨
        10 ≤ m ∧ m < 12 ∧ ofMarchYear year day = ⟨year + 1, m - 9, day - daysBeforeMonth m + 1⟩) := by
  refine ⟨(5 * day + 2) / 153, ?_, ?_, ?_⟩
  · unfold daysBeforeMonth
    omega
  · unfold daysBeforeMonth
    omega
  · by_cases early : (5 * day + 2) / 153 < 10
    · have later : ¬ (5 * day + 2) / 153 + 3 ≤ 2 := by omega
      exact .inl ⟨early, by simp only [ofMarchYear, if_pos early, if_neg later]⟩
    · have wrapped : (5 * day + 2) / 153 - 9 ≤ 2 := by omega
      exact .inr ⟨by omega, by omega, by simp only [ofMarchYear, if_neg early, if_pos wrapped]⟩

theorem dayNumber_ofMarchYear (inside : day < 366) :
    (ofMarchYear year day).dayNumber = daysBeforeYear year + day - marchOffset := by
  obtain ⟨m, begun, -, ⟨early, date⟩ | ⟨late, last, date⟩⟩ := ofMarchYear_cases year inside
  · have month : (m + 3 + 9) % 12 = m := by omega
    have same_year : ¬ m + 3 ≤ 2 := by omega
    simp only [date, dayNumber, if_neg same_year, month, daysBeforeYear]
    omega
  · have month : (m - 9 + 9) % 12 = m := by omega
    have next_year : m - 9 ≤ 2 := by omega
    simp only [date, dayNumber, if_pos next_year, month, daysBeforeYear, Int.add_sub_cancel]
    omega

theorem exists_ofMarchYear (inside : day < marchYearLength year) :
    (ofMarchYear year day).Exists := by
  obtain ⟨m, begun, ends, ⟨early, date⟩ | ⟨late, last, date⟩⟩ :=
    ofMarchYear_cases year (inside.trans_le (marchYearLength_le year))
  · -- the months from March to December are as long as the table says, whatever the year
    rw [date]
    interval_cases m <;> simp [daysBeforeMonth] at begun ends <;>
      simp [Exists, monthLength, daysBeforeMonth] <;> omega
  · obtain rfl | rfl : m = 10 ∨ m = 11 := by omega
    · simp [daysBeforeMonth] at begun ends
      simp [date, Exists, monthLength, daysBeforeMonth]
      omega
    · -- the days of February are what the other months leave of the year
      simp [daysBeforeMonth] at begun
      simp only [date, Exists, monthLength, daysBeforeMonth]
      unfold marchYearLength at inside
      split at inside <;> simp_all <;> omega

end MarchYear

section Cycle
variable {cycle : Int} {century olympiad year : Nat}

theorem daysBeforeYear_of_cycle (centuries : century ≤ 3) (olympiads : olympiad ≤ 24)
    (years : year ≤ 3) :
    daysBeforeYear (400 * cycle + (100 * century + 4 * olympiad + year : Nat)) =
      146097 * cycle + (36524 * century + 1461 * olympiad + 365 * year : Nat) := by
  unfold daysBeforeYear
  omega

/-- A year has its 366th day as the last of four, unless these end a century that is not the last
of four. -/
theorem lt_marchYearLength_of_cycle {day : Nat} (olympiads : olympiad ≤ 24) (years : year ≤ 3)
    (inside : day < 365 ∨ day = 365 ∧ year = 3 ∧ (olympiad < 24 ∨ century = 3)) :
    day < marchYearLength (400 * cycle + (100 * century + 4 * olympiad + year : Nat)) := by
  unfold marchYearLength
  split
  · omega
  · next common =>
      rw [isLeapYear_iff] at common
      omega

end Cycle

/-- The year that a day lies in and its place there, both counted from March. -/
theorem exists_marchYear (n : Int) :
    ∃ year day, day < marchYearLength year ∧ ofDayNumber n = ofMarchYear year day ∧
      n = daysBeforeYear year + day - marchOffset := by
  have inCycle := Int.emod_nonneg (n + marchOffset) (by decide : (146097 : Int) ≠ 0)
  have cycle_ends := Int.emod_lt_of_pos (n + marchOffset) (by decide : (0 : Int) < 146097)
  have split := Int.mul_ediv_add_emod (n + marchOffset) 146097
  simp only [ofDayNumber]
  generalize (n + marchOffset) / 146097 = cycle at *
  generalize (n + marchOffset) % 146097 = r at *
  obtain ⟨r, rfl⟩ := Int.eq_ofNat_of_zero_le inCycle
  rw [Int.toNat_natCast]
  generalize century_eq : min (r / 36524) 3 = century
  generalize olympiad_eq : (r - 36524 * century) / 1461 = olympiad
  generalize year_eq : min ((r - 36524 * century - 1461 * olympiad) / 365) 3 = year
  have centuries : century ≤ 3 := by omega
  have olympiads : olympiad ≤ 24 := by omega
  have years : year ≤ 3 := by omega
  refine ⟨_, _, lt_marchYearLength_of_cycle olympiads years ?_, rfl, ?_⟩
  · omega
  · rw [daysBeforeYear_of_cycle centuries olympiads years]
    omega

theorem dayNumber_ofDayNumber (n : Int) : (ofDayNumber n).dayNumber = n := by
  obtain ⟨year, day, inside, date, number⟩ := exists_marchYear n
  rw [date, dayNumber_ofMarchYear (inside.trans_le (marchYearLength_le year)), ← number]

theorem exists_ofDayNumber (n : Int) : (ofDayNumber n).Exists := by
  obtain ⟨year, day, inside, date, -⟩ := exists_marchYear n
  rw [date]
  exact exists_ofMarchYear inside

theorem monthLength_le (year : Int) (month : Nat) : monthLength year month ≤ 31 := by
  unfold monthLength
  split
  · split <;> decide
  all_goals decide

section Year
variable {d : Date}

/-- The days of a year stand between its first and its last. -/
theorem dayNumber_bounds (real : d.Exists) :
    dayNumber ⟨d.year, 1, 1⟩ ≤ d.dayNumber ∧ d.dayNumber ≤ dayNumber ⟨d.year, 12, 31⟩ := by
  obtain ⟨first_month, last_month, first_day, last_day⟩ := real
  have longest : d.day ≤ 31 := last_day.trans (monthLength_le d.year d.month)
  simp [dayNumber, daysBeforeMonth]
  split <;> omega

theorem dayNumber_lt_of_year_lt {year other : Int} (earlier : year < other) :
    dayNumber ⟨year, 12, 31⟩ < dayNumber ⟨other, 1, 1⟩ := by
  simp [dayNumber, daysBeforeMonth]
  omega

theorem year_bounds {first last : Int} (real : d.Exists)
    (since : dayNumber ⟨first, 1, 1⟩ ≤ d.dayNumber)
    (till : d.dayNumber ≤ dayNumber ⟨last, 12, 31⟩) : first ≤ d.year ∧ d.year ≤ last := by
  obtain ⟨begins, ends⟩ := dayNumber_bounds real
  constructor
  · by_contra early
    have before := dayNumber_lt_of_year_lt (Int.not_le.mp early)
    omega
  · by_contra late
    have after := dayNumber_lt_of_year_lt (Int.not_le.mp late)
    omega

end Year
end ChannelGuide.Date
