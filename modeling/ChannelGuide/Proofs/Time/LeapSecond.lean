import ChannelGuide.Time.Instant

/-!
Instants that no time lies between. A span counts a leap second only where the other instant is at a
later time of day, and no time of day is later than the end of it. So the leap second after the last
second of a day takes no time from the first second of the next, though it comes before it; nor does
it from a leap second that is put after that one.
-/
namespace ChannelGuide.Instant

/-- In a leap second that is the last second of its day. -/
def EndsDay (t : Instant) : Prop :=
  t.secondOfDay = secondsPerDay - 1 ∧ nanosPerSecond ≤ t.fraction

instance (t : Instant) : Decidable t.EndsDay := inferInstanceAs (Decidable (_ ∧ _))

/-- `t` lies in the leap second at the end of a day, and `u` as far into the first second of the day
after it, or into the leap second that is put after that one. -/
def LeapsInto (t u : Instant) : Prop :=
  t.EndsDay ∧ (u.ticks = t.ticks + nanosPerSecond ∨ u.ticks = t.ticks + ticksPerSecond)

instance (t u : Instant) : Decidable (t.LeapsInto u) := inferInstanceAs (Decidable (_ ∧ (_ ∨ _)))

/-- The same instant, or another one that no time lies between. -/
def Indistinct (t u : Instant) : Prop := t = u ∨ t.LeapsInto u ∨ u.LeapsInto t

instance (t u : Instant) : Decidable (t.Indistinct u) := inferInstanceAs (Decidable (_ ∨ _ ∨ _))

theorem Indistinct.eq_of_not_endsDay {t u : Instant} (h : t.Indistinct u) (ht : ¬ t.EndsDay)
    (hu : ¬ u.EndsDay) : t = u := by
  rcases h with same | ⟨leap, -⟩ | ⟨leap, -⟩
  · exact same
  · exact absurd leap ht
  · exact absurd leap hu

/-- An instant as its day, the second of the day, and what has passed of that. -/
theorem ticks_eq (t : Instant) :
    t.ticks = (t.dayNumber * secondsPerDay + t.secondOfDay) * ticksPerSecond + t.fraction := by
  rw [dayNumber, secondOfDay, Int.ediv_mul_add_emod, second, fraction, Int.ediv_mul_add_emod]

theorem secondOfDay_bounds (t : Instant) : 0 ≤ t.secondOfDay ∧ t.secondOfDay < 86400 :=
  ⟨Int.emod_nonneg _ (by decide), Int.emod_lt_of_pos _ (by decide)⟩

theorem fraction_bounds (t : Instant) : 0 ≤ t.fraction ∧ t.fraction < 2000000000 :=
  ⟨Int.emod_nonneg _ (by decide), Int.emod_lt_of_pos _ (by decide)⟩

theorem inLeapSecond_iff {t : Instant} : t.inLeapSecond = true ↔ nanosPerSecond ≤ t.fraction :=
  decide_eq_true_iff

theorem since_eq_zero_iff {t u : Instant} : t.since u = .zero ↔ t.Indistinct u := by
  have t_ticks := t.ticks_eq
  have u_ticks := u.ticks_eq
  have t_second := t.secondOfDay_bounds
  have u_second := u.secondOfDay_bounds
  have t_fraction := t.fraction_bounds
  have u_fraction := u.fraction_bounds
  unfold since Span.zero Indistinct LeapsInto EndsDay
  rw [Span.mk.injEq, ext_iff]
  simp only [inLeapSecond_iff, ticksPerSecond, nanosPerSecond, secondsPerDay] at *
  generalize t.dayNumber = d, t.secondOfDay = s, t.fraction = f, t.ticks = n at *
  generalize u.dayNumber = d', u.secondOfDay = s', u.fraction = f', u.ticks = n' at *
  split
  · omega
  · split <;> omega

/-! ## Away from leap seconds -/

/-- Nanoseconds from 1970 on, with 86400 seconds to a day. -/
def elapsed (t : Instant) : Int := t.second * nanosPerSecond + t.fraction

theorem nanos_since {t u : Instant} (ht : ¬ t.inLeapSecond) (hu : ¬ u.inLeapSecond) :
    (t.since u).nanos = t.elapsed - u.elapsed := by
  have t_day := Int.ediv_mul_add_emod t.second secondsPerDay
  have u_day := Int.ediv_mul_add_emod u.second secondsPerDay
  rw [Bool.not_eq_true] at ht hu
  simp only [since, ht, hu, Bool.false_eq_true, and_false, reduceIte]
  simp only [elapsed, dayNumber, secondOfDay, nanosPerSecond, secondsPerDay] at *
  omega

theorem le_iff_elapsed {t u : Instant} (ht : ¬ t.inLeapSecond) (hu : ¬ u.inLeapSecond) :
    t ≤ u ↔ t.elapsed ≤ u.elapsed := by
  have t_ticks := Int.ediv_mul_add_emod t.ticks ticksPerSecond
  have u_ticks := Int.ediv_mul_add_emod u.ticks ticksPerSecond
  have t_fraction := t.fraction_bounds
  have u_fraction := u.fraction_bounds
  rw [inLeapSecond_iff] at ht hu
  simp only [le_iff, elapsed, second, fraction, ticksPerSecond, nanosPerSecond] at *
  omega

/-- Looked at the other way, the length of time has the opposite sign. -/
theorem nanos_since_swap (t u : Instant) : (u.since t).nanos = -(t.since u).nanos := by
  simp only [since, nanosPerSecond, secondsPerDay]
  generalize t.dayNumber = d, t.secondOfDay = s, t.fraction = f, t.inLeapSecond = leap
  generalize u.dayNumber = d', u.secondOfDay = s', u.fraction = f', u.inLeapSecond = leap'
  rcases Int.lt_trichotomy s s' with later | rfl | earlier
  · have not_earlier : ¬ s' < s := by omega
    cases leap <;> simp [later, not_earlier] <;> omega
  · simp
    omega
  · have not_later : ¬ s < s' := by omega
    cases leap' <;> simp [earlier, not_later] <;> omega

theorem magnitude_since_comm (t u : Instant) :
    (t.since u).magnitude = (u.since t).magnitude := by
  rw [Span.magnitude, Span.magnitude, nanos_since_swap t u, Int.natAbs_neg]

end ChannelGuide.Instant
