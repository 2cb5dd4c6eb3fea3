import ChannelGuide.Proofs.Text.Decimal
import ChannelGuide.Proofs.Time.Calendar
import ChannelGuide.Proofs.Time.LeapSecond
import ChannelGuide.Time.Timestamp

/-!
Timestamps that are written say when. What is read from one is the date and the time of day that the
instant has in universal time, a leap second being one more than the second that it follows. Only at
the end of a minute is that no other second: there alone an instant in a leap second is read as
itself, and elsewhere as one in the second after it.
-/
namespace ChannelGuide

namespace Timestamp
variable {cs rest : List Char}

theorem skip?_cons (c : Char) : skip? c (c :: rest) = some rest := if_pos rfl

/-! ## Blanks -/

theorem isBlank_of_isDigit {c : Char} (digit : c.isDigit = true) : isBlank c = false := by
  obtain ⟨first, last⟩ := Decimal.toNat_of_isDigit digit
  simp only [isBlank, Bool.or_eq_false_iff, Bool.and_eq_false_iff, decide_eq_false_iff_not]
  omega

theorem skipBlanks_eq_self (solid : ∀ c ∈ cs.head?, isBlank c = false) (manner : Manner) :
    skipBlanks manner cs = cs := by
  cases manner with
  | exact => rfl
  | relaxed =>
      cases cs with
      | nil => rfl
      | cons c cs => exact List.dropWhile_cons_of_neg (by simp [solid c rfl])

theorem skipBlanks_fixed {width n : Nat} (wide : 0 < width) (manner : Manner) :
    skipBlanks manner (Decimal.fixed width n ++ rest) = Decimal.fixed width n ++ rest := by
  obtain ⟨d, ds, front⟩ :=
    List.exists_cons_of_length_pos (wide.trans_eq (Decimal.length_fixed width n).symm)
  refine skipBlanks_eq_self (fun c first => isBlank_of_isDigit ?_) manner
  rw [front, List.cons_append, List.head?_cons, Option.mem_some_iff] at first
  have inside : c ∈ Decimal.fixed width n := by
    rw [front, first]
    exact List.mem_cons_self
  exact Decimal.isDigit_of_mem_fixed inside

/-! ## Numbers, years and decimals -/

theorem readNumber?_fixed {n : Nat} (short : n < 100) (manner : Manner) (rest : List Char) :
    readNumber? manner (Decimal.fixed 2 n ++ rest) = some (n, rest) := by
  cases manner with
  | exact => exact Decimal.readFixed?_fixed short rest
  | relaxed =>
      rw [readNumber?, skipBlanks_fixed (by decide)]
      exact Decimal.readShort?_fixed (by decide) short rest

/-- Digits are no sign, so four of them are a year of their own. -/
theorem readSignedYear?_fixed {n : Nat} (short : n < 10 ^ 4) :
    readSignedYear? (Decimal.fixed 4 n ++ rest) = some ((n : Int), rest) := by
  have read := Decimal.readShort?_fixed (by decide) short rest
  have digits : ∀ c ∈ Decimal.fixed 4 n, c.isDigit = true := fun _ => Decimal.isDigit_of_mem_fixed
  obtain ⟨d, ds, front⟩ := List.exists_cons_of_length_eq_add_one (Decimal.length_fixed 4 n)
  rw [front] at digits read ⊢
  have digit : d.isDigit = true := digits d List.mem_cons_self
  rw [List.cons_append] at read ⊢
  unfold readSignedYear?
  split
  · next plus =>
      rw [(List.cons.inj plus).1] at digit
      exact absurd digit (by decide)
  · next minus =>
      rw [(List.cons.inj minus).1] at digit
      exact absurd digit (by decide)
  · rw [read, Option.map_some]

theorem readYear?_yearChars (year : Int) (stop : ∀ c ∈ rest.head?, c.isDigit = false) :
    readYear? .relaxed (yearChars year ++ rest) = some (year, rest) := by
  simp only [readYear?, yearChars]
  generalize chars_eq : (if year.natAbs < 10000 then Decimal.fixed 4 year.natAbs
    else Nat.toDigits 10 year.natAbs) = digits
  have many : Decimal.readMany? (digits ++ rest) = some (year.natAbs, rest) := by
    rw [← chars_eq]
    split
    · next short => exact Decimal.readMany?_fixed (by decide) short stop
    · exact Decimal.readMany?_toDigits _ stop
  split
  · next plain =>
      have short : year.natAbs < 10000 := by omega
      rw [← chars_eq, if_pos short, skipBlanks_fixed (by decide), readSignedYear?_fixed short,
        Int.natAbs_of_nonneg plain.1]
  · split
    · next negative =>
        rw [List.cons_append, skipBlanks_eq_self (by simp [isBlank])]
        simp only [readSignedYear?, many, Option.map_some]
        rw [Int.ofNat_natAbs_of_nonpos negative.le, Int.neg_neg]
    · next positive =>
        rw [List.cons_append, skipBlanks_eq_self (by simp [isBlank])]
        simp only [readSignedYear?, many, Option.map_some]
        rw [Int.natAbs_of_nonneg (Int.not_lt.mp positive)]

theorem readNanos?_fixed {width n : Nat} (wide : 0 < width) (short : width ≤ 9)
    (small : n < 10 ^ width) (stop : ∀ c ∈ rest.head?, c.isDigit = false) :
    readNanos? ('.' :: Decimal.fixed width n ++ rest) = some (n * 10 ^ (9 - width), rest) := by
  have length : (Decimal.fixed width n).length = width := Decimal.length_fixed width n
  have value := Decimal.ofDigitChars_fixed_of_lt small
  obtain ⟨front, back⟩ := Decimal.takeWhile_digits
    (fun c (member : c ∈ Decimal.fixed width n) => Decimal.isDigit_of_mem_fixed member) stop
  rw [List.cons_append, readNanos?, front, back]
  generalize Decimal.fixed width n = digits at *
  cases digits with
  | nil => exact absurd length (by simp; omega)
  | cons d ds =>
      simp only
      rw [List.take_of_length_le (length.trans_le short), length, value]
      rfl

theorem readNanos?_nanosChars {nanos : Nat} (small : nanos < 1000000000)
    (stop : ∀ c ∈ rest.head?, c.isDigit = false ∧ c ≠ '.') :
    readNanos? (nanosChars nanos ++ rest) = some (nanos, rest) := by
  have no_digit : ∀ c ∈ rest.head?, c.isDigit = false := fun c first => (stop c first).1
  unfold nanosChars
  split
  · next none =>
      rw [none, List.nil_append, readNanos?]
      rintro tail rfl
      exact (stop '.' rfl).2 rfl
  · split
    · next millis =>
        rw [readNanos?_fixed (by decide) (by decide) (by omega) no_digit]
        simp
        omega
    · split
      · next micros =>
          rw [readNanos?_fixed (by decide) (by decide) (by omega) no_digit]
          simp
          omega
      · rw [readNanos?_fixed (by decide) (by decide) small no_digit, Nat.sub_self, Nat.pow_zero,
          Nat.mul_one]

theorem nanos_of_readNanos? {nanos : Nat} (read : readNanos? cs = some (nanos, rest)) :
    nanos < 1000000000 := by
  unfold readNanos? at read
  split at read
  · next tail =>
      split at read
      · exact absurd read (by simp)
      · obtain ⟨rfl, -⟩ := Prod.mk.inj (Option.some.inj read)
        have short := List.length_take_le 9 (tail.takeWhile Char.isDigit)
        have value := Decimal.ofDigitChars_lt
          (fun c (member : c ∈ (tail.takeWhile Char.isDigit).take 9) =>
            List.mem_takeWhile_imp (List.mem_of_mem_take member)) 0
        generalize (tail.takeWhile Char.isDigit).take 9 = kept at short value ⊢
        calc Nat.ofDigitChars 10 kept 0 * 10 ^ (9 - kept.length)
            < 10 ^ kept.length * 10 ^ (9 - kept.length) := by
              rw [Nat.zero_add, Nat.one_mul] at value
              exact Nat.mul_lt_mul_of_pos_right value (Nat.pow_pos (by decide))
          _ = 1000000000 := by rw [← Nat.pow_add, Nat.add_sub_cancel' short]
  · obtain ⟨rfl, -⟩ := Prod.mk.inj (Option.some.inj read)
    decide

theorem nanos_of_ofChars? {manner : Manner} {r : Reading}
    (read : Reading.ofChars? manner cs = some r) : r.nanos < 1000000000 := by
  -- nothing is asked of what is read before and after the decimals
  iterate 11 obtain ⟨_, -, read⟩ := Option.bind_eq_some_iff.mp read
  obtain ⟨⟨nanos, rest⟩, decimals, read⟩ := Option.bind_eq_some_iff.mp read
  obtain ⟨_, -, whole⟩ := Option.bind_eq_some_iff.mp read
  obtain ⟨-, whole⟩ := Option.ite_none_right_eq_some.mp whole
  rw [← Option.some.inj whole]
  exact nanos_of_readNanos? decimals

end Timestamp

namespace Instant

/-- What the written form of an instant says. -/
def written (t : Instant) : Timestamp.Reading where
  date := Date.ofDayNumber t.dayNumber
  hour := t.secondOfDay.toNat / 3600
  minute := t.secondOfDay.toNat % 3600 / 60
  second := t.secondOfDay.toNat % 60 + if t.inLeapSecond then 1 else 0
  nanos := (t.fraction % nanosPerSecond).toNat
  offset := 0

theorem ofChars?_timestampChars (t : Instant) :
    Timestamp.Reading.ofChars? .relaxed t.timestampChars = some t.written := by
  have clock := t.secondOfDay_bounds
  have leap : (if t.inLeapSecond then 1 else 0) ≤ 1 := by split <;> decide
  have fraction : (t.fraction % nanosPerSecond).toNat < 1000000000 := by
    rw [nanosPerSecond]
    omega
  obtain ⟨-, month, -, day⟩ := Date.exists_ofDayNumber t.dayNumber
  have day := day.trans (Date.monthLength_le _ _)
  have two {n : Nat} (small : n < 100) (rest : List Char) :
      Timestamp.readNumber? .relaxed (Decimal.fixed 2 n ++ rest) = some (n, rest) :=
    Timestamp.readNumber?_fixed small .relaxed rest
  have mark {c : Char} (solid : Timestamp.isBlank c = false) (rest : List Char) :
      Timestamp.skip? c (Timestamp.skipBlanks .relaxed (c :: rest)) = some rest := by
    rw [Timestamp.skipBlanks_eq_self (by simpa using solid), Timestamp.skip?_cons]
  simp only [timestampChars, Timestamp.dateChars, Timestamp.clockChars, List.append_assoc,
    List.cons_append]
  refine Option.bind_eq_some_iff.mpr ⟨_, Timestamp.readYear?_yearChars _ (by simp), ?_⟩
  refine Option.bind_eq_some_iff.mpr ⟨_, mark (by decide) _, ?_⟩
  refine Option.bind_eq_some_iff.mpr ⟨_, two (by omega) _, ?_⟩
  refine Option.bind_eq_some_iff.mpr ⟨_, mark (by decide) _, ?_⟩
  refine Option.bind_eq_some_iff.mpr ⟨_, two (by omega) _, ?_⟩
  refine Option.bind_eq_some_iff.mpr ⟨_, rfl, ?_⟩
  refine Option.bind_eq_some_iff.mpr ⟨_, two (by omega) _, ?_⟩
  refine Option.bind_eq_some_iff.mpr ⟨_, mark (by decide) _, ?_⟩
  refine Option.bind_eq_some_iff.mpr ⟨_, two (by omega) _, ?_⟩
  refine Option.bind_eq_some_iff.mpr ⟨_, mark (by decide) _, ?_⟩
  refine Option.bind_eq_some_iff.mpr ⟨_, two (by omega) _, ?_⟩
  refine Option.bind_eq_some_iff.mpr ⟨_, Timestamp.readNanos?_nanosChars fraction (by simp), ?_⟩
  rfl

theorem year_ofDayNumber_bounds (t : Instant) :
    firstYear ≤ (Date.ofDayNumber t.dayNumber).year ∧
      (Date.ofDayNumber t.dayNumber).year ≤ lastYear := by
  obtain ⟨first, last⟩ := t.representable
  have ticks := t.ticks_eq
  have clock := t.secondOfDay_bounds
  have fraction := t.fraction_bounds
  apply Date.year_bounds (Date.exists_ofDayNumber t.dayNumber)
  all_goals
    rw [Date.dayNumber_ofDayNumber]
    simp only [firstTick, lastTick, secondsPerDay, ticksPerSecond] at *
    omega

theorem exists_written (t : Instant) : t.written.Exists := by
  obtain ⟨first, last⟩ := t.year_ofDayNumber_bounds
  have clock := t.secondOfDay_bounds
  refine ⟨Date.exists_ofDayNumber t.dayNumber, first, last, ?_, ?_, ?_⟩ <;> simp only [written]
  · omega
  · omega
  · split <;> omega

/-! ## Leap seconds -/

/-- The timestamp is the instant's own: it is in no leap second, or in one at the end of a minute. -/
def Writable (t : Instant) : Prop := t.inLeapSecond → t.secondOfDay % 60 = 59

instance (t : Instant) : Decidable t.Writable := inferInstanceAs (Decidable (_ → _))

/-- The second after one that does not end its minute is in the same day. -/
theorem representable_next {t : Instant} (unwritable : ¬ t.Writable) :
    Representable (t.ticks + nanosPerSecond) := by
  obtain ⟨first, last⟩ := t.representable
  obtain ⟨leap, inside⟩ := Classical.not_imp.mp unwritable
  have ticks := t.ticks_eq
  have clock := t.secondOfDay_bounds
  have fraction := t.fraction_bounds
  rw [inLeapSecond_iff] at leap
  simp only [Representable, firstTick, lastTick, secondsPerDay, ticksPerSecond,
    nanosPerSecond] at *
  omega

/-- What the timestamp is read as. In a leap second that does not end a minute, it is the instant as
far into the next second. -/
def asRead (t : Instant) : Instant :=
  if writable : t.Writable then t else ⟨t.ticks + nanosPerSecond, representable_next writable⟩

theorem asRead_of_writable {t : Instant} (writable : t.Writable) : t.asRead = t := dif_pos writable

theorem ticks_asRead {t : Instant} (unwritable : ¬ t.Writable) :
    t.asRead.ticks = t.ticks + nanosPerSecond := by
  rw [asRead, dif_neg unwritable]

theorem ticks_written (t : Instant) : t.written.ticks = t.asRead.ticks := by
  have clock := t.secondOfDay_bounds
  have fraction := t.fraction_bounds
  rw [Timestamp.Reading.ticks, written, Date.dayNumber_ofDayNumber]
  by_cases writable : t.Writable
  · rw [asRead_of_writable writable, t.ticks_eq]
    unfold Writable at writable
    simp only [inLeapSecond_iff, secondsPerDay, ticksPerSecond, nanosPerSecond] at *
    by_cases leap : 1000000000 ≤ t.fraction
    · have last := writable leap
      simp only [if_pos leap]
      split <;> omega
    · simp only [if_neg leap]
      split <;> omega
  · rw [ticks_asRead writable, t.ticks_eq]
    obtain ⟨leap, inside⟩ := Classical.not_imp.mp writable
    simp only [if_pos leap]
    rw [inLeapSecond_iff] at leap
    simp only [secondsPerDay, ticksPerSecond, nanosPerSecond] at *
    split <;> omega

theorem ofTimestamp?_timestamp (t : Instant) : ofTimestamp? t.timestamp = some t.asRead := by
  rw [ofTimestamp?, timestamp, String.toList_ofList, ofChars?, ofChars?_timestampChars,
    Option.bind_some, Timestamp.Reading.instant?, if_pos t.exists_written, ticks_written, ofTicks?,
    dif_pos t.asRead.representable]

/-- An offset is of whole minutes, so the second 60 ends one wherever it is read. -/
theorem writable_of_ticks {r : Timestamp.Reading} {t : Instant} (small : r.nanos < 1000000000)
    (same : t.ticks = r.ticks) : t.Writable := by
  intro leap
  rw [inLeapSecond_iff] at leap
  have clock := t.secondOfDay_bounds
  have fraction := t.fraction_bounds
  rw [t.ticks_eq, Timestamp.Reading.ticks] at same
  simp only [secondsPerDay, ticksPerSecond, nanosPerSecond] at *
  split at same <;> omega

/-- Whatever text it is read from, an instant has a timestamp of its own. -/
theorem writable_of_ofTimestamp? {text : String} {t : Instant} (read : ofTimestamp? text = some t) :
    t.Writable := by
  obtain ⟨r, chars, kept⟩ := Option.bind_eq_some_iff.mp read
  rw [Timestamp.Reading.instant?] at kept
  obtain ⟨-, kept⟩ := Option.ite_none_right_eq_some.mp kept
  rw [ofTicks?] at kept
  obtain ⟨inside, kept⟩ := Option.dite_none_right_eq_some.mp kept
  exact writable_of_ticks (Timestamp.nanos_of_ofChars? chars) (by rw [← Option.some.inj kept])

theorem writable_asRead (t : Instant) : t.asRead.Writable :=
  writable_of_ofTimestamp? t.ofTimestamp?_timestamp

theorem asRead_eq_self_iff {t : Instant} : t.asRead = t ↔ t.Writable :=
  ⟨fun same => same ▸ t.writable_asRead, asRead_of_writable⟩

/-! ## Several instants -/

section AllWritable
variable {ts us : List Instant}

def AllWritable (ts : List Instant) : Prop := ∀ t ∈ ts, t.Writable

instance (ts : List Instant) : Decidable (AllWritable ts) :=
  inferInstanceAs (Decidable (∀ t ∈ ts, t.Writable))

@[simp] theorem allWritable_nil : AllWritable [] := List.forall_mem_nil _

@[simp] theorem allWritable_singleton {t : Instant} : AllWritable [t] ↔ t.Writable :=
  List.forall_mem_singleton

@[simp] theorem allWritable_pair {t u : Instant} :
    AllWritable [t, u] ↔ t.Writable ∧ u.Writable := by
  simp [AllWritable]

@[simp] theorem allWritable_append :
    AllWritable (ts ++ us) ↔ AllWritable ts ∧ AllWritable us :=
  List.forall_mem_append

@[simp] theorem allWritable_flatMap {α : Type} {instants : α → List Instant} {xs : List α} :
    AllWritable (xs.flatMap instants) ↔ ∀ x ∈ xs, AllWritable (instants x) :=
  List.forall_mem_flatMap

end AllWritable

end Instant
end ChannelGuide
