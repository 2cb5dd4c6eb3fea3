import ChannelGuide.Catalogue.Sample
import ChannelGuide.Proofs.First
import ChannelGuide.Proofs.Matching

/-!
Matchers that tolerate more. Whatever a matcher takes for one broadcast, a more tolerant one does
too; so it finds something for a slot wherever the other does, and no further down the list. Only a
broadcast in exactly the slot is found by both, whatever they tolerate. A matcher that tolerates
nothing still cannot tell a leap second at the end of a day from the second after it.
-/
namespace ChannelGuide

namespace Broadcast

/-- No time lies between them, and yet they are not in one slot: one of them starts or ends in the
leap second at the end of a day, where the other does so in the next day. -/
def LeapApart (a b : Broadcast) : Prop := a.Indistinct b ∧ ¬ a.SameSlot b

instance (a b : Broadcast) : Decidable (a.LeapApart b) := inferInstanceAs (Decidable (_ ∧ ¬ _))

end Broadcast

namespace BroadcastMatcher
variable {m w : BroadcastMatcher} {a b reference : Broadcast} {candidates : List Broadcast}

/-- `w` tolerates as much as `m` at the start; and it does not compare ends, or tolerates as much as
`m` there too. -/
structure Widens (w m : BroadcastMatcher) : Prop where
  start : m.startTolerance ≤ w.startTolerance
  ends : ∀ tolerance ∈ w.endTolerance, ∃ less ∈ m.endTolerance, less ≤ tolerance

theorem near_comm {tolerance : Span} {t u : Instant} : Near tolerance t u ↔ Near tolerance u t := by
  rw [Near, Near, Instant.magnitude_since_comm]

theorem Near.mono {less more : Span} {t u : Instant} (near : Near less t u) (wider : less ≤ more) :
    Near more t u := Int.le_trans near wider

theorem matches_comm : m.Matches a b ↔ m.Matches b a := by
  simp only [Matches, EndsAgree, near_comm (t := a.start), near_comm (t := a.stop), eq_comm]

theorem Widens.matches (wider : w.Widens m) (hit : m.Matches a b) : w.Matches a b := by
  obtain ⟨channel, start, ends⟩ := hit
  refine ⟨channel, start.mono wider.start, fun tolerance compared => ?_⟩
  obtain ⟨less, compared_too, at_most⟩ := wider.ends tolerance compared
  exact (ends less compared_too).mono at_most

/-- A candidate in the slot is found whatever is tolerated. -/
theorem find?_of_sameSlot {found : Broadcast}
    (first : FirstOf (·.SameSlot reference) candidates found) (m : BroadcastMatcher) :
    m.find? reference candidates = some found := by
  rw [find?, firstOf_iff_find?.mp first]
  rfl

theorem find?_eq_some_iff (outside : ∀ own ∈ candidates, ¬ own.SameSlot reference)
    {found : Broadcast} : m.find? reference candidates = some found ↔
      FirstOf (m.Matches reference) candidates found := by
  have none : (candidates.find? fun own => own.SameSlot reference) = none := by
    simpa using outside
  rw [find?, none, firstOf_iff_find?]
  rfl

theorem exactStartEnd_matches_iff_sameSlot :
    (exactStartEnd.Matches a b ↔ a.SameSlot b) ↔ ¬ a.LeapApart b := by
  have same_matches (same : a.SameSlot b) : a.Indistinct b :=
    ⟨same.1, .inl same.2.1, .inl same.2.2⟩
  rw [exactStartEnd_matches_iff]
  constructor
  · rintro same ⟨no_time, differ⟩
    exact differ (same.mp no_time)
  · intro distinct
    refine ⟨fun no_time => Decidable.byContradiction fun differ => ?_, same_matches⟩
    exact distinct ⟨no_time, differ⟩

end BroadcastMatcher

/-- A matcher takes two broadcasts for one whichever comes first, and what it takes for one, a more
tolerant matcher does too. Of candidates both find the first in the slot. If there is none, the more
tolerant one finds something where the other does, at the same place or before it. A matcher without
tolerance tells any two slots apart, unless they are apart by nothing but such leap seconds. -/
theorem wider_matches_more {m w : BroadcastMatcher} (wider : w.Widens m) :
    (∀ a b, m.Matches a b ↔ m.Matches b a) ∧
    (∀ a b, m.Matches a b → w.Matches a b) ∧
    (∀ reference candidates, (∃ own ∈ candidates, own.SameSlot reference) →
      ∃ found, FirstOf (·.SameSlot reference) candidates found ∧
        m.find? reference candidates = some found ∧ w.find? reference candidates = some found) ∧
    (∀ reference candidates, (∀ own ∈ candidates, ¬ own.SameSlot reference) →
      ∀ found, m.find? reference candidates = some found →
        ∃ place place' found', place' ≤ place ∧
          FirstAt (m.Matches reference) candidates place found ∧
          FirstAt (w.Matches reference) candidates place' found' ∧
          w.find? reference candidates = some found') ∧
    (m.startTolerance = .zero → m.endTolerance = some .zero → ∀ a b,
      (m.Matches a b ↔ a.SameSlot b) ↔ ¬ a.LeapApart b) := by
  refine ⟨fun a b => BroadcastMatcher.matches_comm, fun a b => wider.matches, ?_, ?_, ?_⟩
  · intro reference candidates inside
    obtain ⟨found, first⟩ := exists_firstOf_iff.mpr inside
    exact ⟨found, first, BroadcastMatcher.find?_of_sameSlot first m,
      BroadcastMatcher.find?_of_sameSlot first w⟩
  · intro reference candidates outside found hit
    obtain ⟨place, first⟩ :=
      ((BroadcastMatcher.find?_eq_some_iff outside).mp hit).exists_firstAt
    obtain ⟨place', found', earlier, first'⟩ :=
      first.exists_earlier fun own => wider.matches (a := reference) (b := own)
    exact ⟨place, place', found', earlier, first, first',
      (BroadcastMatcher.find?_eq_some_iff outside).mpr first'.firstOf⟩
  · intro start ends a b
    obtain ⟨startTolerance, endTolerance⟩ := m
    cases start
    cases ends
    exact BroadcastMatcher.exactStartEnd_matches_iff_sameSlot

/-- Five minutes at the start and no ends, against no tolerance at all: of a broadcast that starts
late and the one in the slot both find the latter, of the first alone only the more tolerant one
finds anything. -/
theorem wider_matches_more_late :
    let w : BroadcastMatcher := ⟨.ofMillis 300000, none⟩
    let slot := Sample.airing 1 (Sample.clock 9 0) (Sample.clock 10 0)
    let late := Sample.airing 1 (Sample.clock 9 5) (Sample.clock 11 0)
    w.Widens .exactStartEnd ∧
      (∃ found, FirstOf (·.SameSlot slot) [late, slot] found ∧
        BroadcastMatcher.exactStartEnd.find? slot [late, slot] = some found ∧
        w.find? slot [late, slot] = some found) ∧
      BroadcastMatcher.exactStartEnd.find? slot [late] = none ∧ w.find? slot [late] = some late := by
  intro w slot late
  have wider : w.Widens .exactStartEnd := ⟨by decide, by decide⟩
  obtain ⟨-, -, inside, -, -⟩ := wider_matches_more wider
  have found := inside slot [late, slot] ⟨slot, by decide, .refl slot⟩
  exact ⟨wider, found, by decide, by decide⟩

/-- Without tolerance, a broadcast that starts in the leap second at the end of a day is taken for
one that starts in the second after it. -/
theorem leap_second_without_tolerance :
    let m : BroadcastMatcher := .exactStartEnd
    let early := Sample.airing 1 Sample.leapSecond (Sample.nightHour 2)
    let late := Sample.airing 1 (Sample.nightHour 1) (Sample.nightHour 2)
    (m.startTolerance = .zero ∧ m.endTolerance = some .zero) ∧
      m.Matches early late ∧ ¬ early.SameSlot late := by
  decide

end ChannelGuide
