import ChannelGuide.Matching
import ChannelGuide.Proofs.Time.LeapSecond

/-!
What it takes to be found for a slot without tolerance. A broadcast in the slot always is. If there
is none, one is found whose ends are no time from those of the slot; it may miss the slot by a leap
second.
-/
namespace ChannelGuide

namespace Broadcast

theorem SameSlot.refl (b : Broadcast) : b.SameSlot b := ⟨rfl, rfl, rfl⟩

/-- On one channel, with no time between the starts nor between the ends. -/
def Indistinct (a b : Broadcast) : Prop :=
  a.channel = b.channel ∧ a.start.Indistinct b.start ∧ a.stop.Indistinct b.stop

instance (a b : Broadcast) : Decidable (a.Indistinct b) := inferInstanceAs (Decidable (_ ∧ _ ∧ _))

end Broadcast

/-- The item has no broadcast in the slot, but one that no time lies between. -/
def Item.Misses (item : Item) (slot : Broadcast) : Prop :=
  ¬ item.HasBroadcast slot ∧ ∃ own ∈ item.broadcasts, slot.Indistinct own

instance (item : Item) (slot : Broadcast) : Decidable (item.Misses slot) :=
  inferInstanceAs (Decidable (¬ _ ∧ ∃ own ∈ item.broadcasts, _))

namespace BroadcastMatcher

theorem near_zero_iff {t u : Instant} : Near .zero t u ↔ t.Indistinct u := by
  rw [← Instant.since_eq_zero_iff, Near]
  obtain ⟨nanos⟩ := t.since u
  change (nanos.natAbs : Int) ≤ 0 ↔ Span.mk nanos = Span.mk 0
  rw [Span.mk.injEq]
  omega

theorem exactStartEnd_matches_iff {a b : Broadcast} :
    exactStartEnd.Matches a b ↔ a.Indistinct b := by
  simp only [Matches, EndsAgree, exactStartEnd, Option.mem_some_iff, forall_eq', near_zero_iff]
  rfl

/-- What is shown for a slot stays in it, unless the item misses the slot. -/
theorem sameSlot_find?_iff {item : Item} {slot : Broadcast} :
    ((exactStartEnd.find? slot item.broadcasts).getD slot).SameSlot slot ↔ ¬ item.Misses slot := by
  unfold find? Item.Misses Item.HasBroadcast
  cases exact : item.broadcasts.find? fun own => own.SameSlot slot with
  | some own =>
      have inside : own.SameSlot slot := by simpa using List.find?_some exact
      have has : ∃ own ∈ item.broadcasts, own.SameSlot slot :=
        ⟨own, List.mem_of_find?_eq_some exact, inside⟩
      exact ⟨fun _ misses => misses.1 has, fun _ => inside⟩
  | none =>
      have outside : ∀ own ∈ item.broadcasts, ¬ own.SameSlot slot := by
        simpa using List.find?_eq_none.mp exact
      cases near : item.broadcasts.find? fun own => exactStartEnd.Matches slot own with
      | some own =>
          have member := List.mem_of_find?_eq_some near
          have indistinct : slot.Indistinct own :=
            exactStartEnd_matches_iff.mp (by simpa using List.find?_some near)
          refine ⟨fun inside => absurd inside (outside own member), fun hit => ?_⟩
          exact absurd ⟨fun ⟨other, has, inside⟩ => outside other has inside,
            own, member, indistinct⟩ hit
      | none =>
          refine ⟨fun _ ⟨_, own, member, indistinct⟩ => ?_, fun _ => .refl slot⟩
          have apart := List.find?_eq_none.mp near own member
          exact apart (decide_eq_true (exactStartEnd_matches_iff.mpr indistinct))

end BroadcastMatcher
end ChannelGuide
