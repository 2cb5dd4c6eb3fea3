import Mathlib.Data.List.Chain
import ChannelGuide.Catalogue.Sample
import ChannelGuide.Proofs.Equivalence.SlotBySlot
import ChannelGuide.Proofs.Matching

/-!
Slots that follow each other, and what is shown for them. A slot stays where it is unless the item
that stands for all strays from it, with a broadcast of its own that is near the slot and not in it.
Nothing compares that broadcast with the slots before and after.
-/
namespace ChannelGuide

/-- In order of airing, and each over when the next one starts. -/
structure InTurn (bs : List Broadcast) : Prop where
  inOrder : bs.Pairwise Broadcast.NotAfter
  apart : bs.IsChain fun a b => a.stop ≤ b.start

/-- `a` comes no later than `b` and is over when `b` starts. -/
def Broadcast.YieldsTo (a b : Broadcast) : Prop := a.NotAfter b ∧ a.stop ≤ b.start

instance (a b : Broadcast) : Decidable (a.YieldsTo b) := inferInstanceAs (Decidable (_ ∧ _))

theorem Broadcast.YieldsTo.of_sameSlot {a b a' b' : Broadcast} (yields : a.YieldsTo b)
    (same : a'.SameSlot a) (same' : b'.SameSlot b) : a'.YieldsTo b' := by
  obtain ⟨-, start, stop⟩ := same
  obtain ⟨-, start', stop'⟩ := same'
  unfold YieldsTo NotAfter at *
  rw [start, stop, start', stop']
  exact yields

theorem Broadcast.yieldsTo_of_upright {a b : Broadcast} (ha : a.start ≤ a.stop)
    (hb : b.start ≤ b.stop) (apart : a.stop ≤ b.start) : a.YieldsTo b := by
  refine ⟨?_, apart⟩
  simp only [NotAfter, Instant.lt_iff, Instant.le_iff, Instant.ext_iff] at *
  omega

instance : IsTrans Broadcast Broadcast.NotAfter := ⟨fun _ _ _ => Broadcast.NotAfter.trans⟩

theorem inTurn_iff_isChain {bs : List Broadcast} : InTurn bs ↔ bs.IsChain Broadcast.YieldsTo := by
  constructor
  · rintro ⟨inOrder, apart⟩
    rw [← List.isChain_iff_pairwise] at inOrder
    rw [List.isChain_iff_forall_rel_of_append_cons_cons] at *
    exact fun a b before after split => ⟨inOrder split, apart split⟩
  · intro chain
    refine ⟨List.isChain_iff_pairwise.mp ?_, ?_⟩
    · exact chain.imp fun a b yields => yields.1
    · exact chain.imp fun a b yields => yields.2

namespace Slot
variable {m : BroadcastMatcher} {context : QueryContext} {slot : Slot}

/-- The item that stands for all, where equivalents are merged. -/
def representative? (context : QueryContext) (slot : Slot) : Option Item :=
  if context.MergesEquivalents then mostPreferred? none context.sources slot.items else none

/-- The broadcast that is shown for the slot. -/
def shown (m : BroadcastMatcher) (context : QueryContext) (slot : Slot) : Broadcast :=
  match slot.representative? context with
  | some item => (m.find? slot.broadcast item.broadcasts).getD slot.broadcast
  | none => slot.broadcast

/-- The item that stands for all has no broadcast in the slot, but one within the tolerances. -/
def Strays (m : BroadcastMatcher) (context : QueryContext) (slot : Slot) : Prop :=
  ∃ item ∈ slot.representative? context, ¬ item.HasBroadcast slot.broadcast ∧
    ∃ own ∈ item.broadcasts, m.Matches slot.broadcast own

instance : Decidable (slot.Strays m context) :=
  inferInstanceAs (Decidable (∃ item ∈ slot.representative? context, _ ∧ ∃ own ∈ _, _))

theorem not_strays_of_not_merged (slot : Slot) (apart : ¬ context.MergesEquivalents) :
    ¬ slot.Strays m context := by
  rintro ⟨item, stands, -⟩
  rw [representative?, if_neg apart] at stands
  cases stands

/-- Without tolerances an item strays over a leap second only. -/
theorem strays_exactStartEnd_iff : slot.Strays .exactStartEnd context ↔
    ∃ item ∈ slot.representative? context, item.Misses slot.broadcast := by
  unfold Strays Item.Misses
  simp only [BroadcastMatcher.exactStartEnd_matches_iff]

theorem FilledBy.broadcast_eq {e : Entry} (filled : slot.FilledBy m context e) :
    e.broadcast = slot.shown m context := by
  unfold shown representative?
  by_cases merges : context.MergesEquivalents
  · obtain ⟨item, broadcast⟩ := filled.merged merges
    rw [if_pos merges, mostPreferred?_none_eq_some_iff.mpr item]
    exact (m.getD_find?_eq_iff.mpr broadcast).symm
  · rw [if_neg merges]
    exact (filled.scheduled merges).broadcast

theorem shown_of_representative {item : Item} (stands : slot.representative? context = some item) :
    slot.shown m context = (m.find? slot.broadcast item.broadcasts).getD slot.broadcast := by
  rw [shown, stands]

/-- What strays is found within the tolerances. -/
theorem Strays.matches_shown (strays : slot.Strays m context) :
    m.Matches slot.broadcast (slot.shown m context) := by
  obtain ⟨item, stands, outside, own, member, hit⟩ := strays
  rw [shown_of_representative stands]
  generalize shows : (m.find? slot.broadcast item.broadcasts).getD slot.broadcast = b
  cases m.getD_find?_eq_iff.mp shows with
  | same first => exact absurd ⟨b, first.mem, first.holds⟩ outside
  | near _ first => exact first.holds
  | slot _ apart => exact absurd hit (apart own member)

theorem sameSlot_shown (stays : ¬ slot.Strays m context) :
    (slot.shown m context).SameSlot slot.broadcast := by
  unfold shown
  split
  · next item stands =>
      generalize shows : (m.find? slot.broadcast item.broadcasts).getD slot.broadcast = b
      cases m.getD_find?_eq_iff.mp shows with
      | same first => exact first.holds
      | near outside first =>
          refine absurd ⟨item, stands, ?_, b, first.mem, first.holds⟩ stays
          rintro ⟨x, member, inside⟩
          exact outside x member inside
      | slot _ _ => exact .refl _
  · exact .refl _

end Slot

/-! ## Room between slots -/

/-- Ends no sooner than it starts, and neither in a leap second. -/
structure Broadcast.Regular (b : Broadcast) : Prop where
  upright : b.start ≤ b.stop
  start : ¬ b.start.inLeapSecond
  stop : ¬ b.stop.inLeapSecond

instance (b : Broadcast) : Decidable b.Regular :=
  decidable_of_iff (b.start ≤ b.stop ∧ ¬ b.start.inLeapSecond ∧ ¬ b.stop.inLeapSecond)
    ⟨fun ⟨upright, start, stop⟩ => ⟨upright, start, stop⟩,
      fun ⟨upright, start, stop⟩ => ⟨upright, start, stop⟩⟩

theorem BroadcastMatcher.Near.elapsed {tolerance : Span} {t u : Instant} (near : Near tolerance t u)
    (ht : ¬ t.inLeapSecond) (hu : ¬ u.inLeapSecond) :
    u.elapsed ≤ t.elapsed + tolerance.nanos ∧ t.elapsed ≤ u.elapsed + tolerance.nanos := by
  have apart : ((t.since u).nanos.natAbs : Int) ≤ tolerance.nanos := near
  rw [Instant.nanos_since ht hu] at apart
  omega

namespace Slot
variable {m : BroadcastMatcher} {context : QueryContext} {slot a b : Slot}

/-- Whatever may be shown for the slot is regular. -/
structure Regular (slot : Slot) : Prop where
  broadcast : slot.broadcast.Regular
  own : ∀ item ∈ slot.items, ∀ b ∈ item.broadcasts, b.Regular

instance : Decidable slot.Regular :=
  decidable_of_iff
    (slot.broadcast.Regular ∧ ∀ item ∈ slot.items, ∀ b ∈ item.broadcasts, b.Regular)
    ⟨fun ⟨broadcast, own⟩ => ⟨broadcast, own⟩, fun ⟨broadcast, own⟩ => ⟨broadcast, own⟩⟩

/-- How much earlier than the slot an item that strays may start. -/
def headStart (m : BroadcastMatcher) (context : QueryContext) (slot : Slot) : Int :=
  if slot.Strays m context then m.startTolerance.nanos else 0

/-- How much later than the slot an item that strays may end; there is no limit where ends are not
compared. -/
def overrun? (m : BroadcastMatcher) (context : QueryContext) (slot : Slot) : Option Int :=
  if slot.Strays m context then m.endTolerance.map Span.nanos else some 0

/-- From the end of `a` to the start of `b` there is time for all that the tolerances allow. -/
def LeavesRoom (m : BroadcastMatcher) (context : QueryContext) (a b : Slot) : Prop :=
  ∃ overrun ∈ a.overrun? m context,
    overrun + b.headStart m context ≤ (b.broadcast.start.since a.broadcast.stop).nanos

instance : Decidable (a.LeavesRoom m context b) :=
  inferInstanceAs (Decidable (∃ overrun ∈ a.overrun? m context, _))

theorem Regular.shown (regular : slot.Regular) (m : BroadcastMatcher) (context : QueryContext) :
    (slot.shown m context).Regular := by
  unfold Slot.shown representative?
  split
  · next item stands =>
      obtain ⟨-, chosen⟩ := Option.ite_none_right_eq_some.mp stands
      have own := regular.own item (mem_of_mostPreferred? chosen)
      generalize hb : (m.find? slot.broadcast item.broadcasts).getD slot.broadcast = b
      cases m.getD_find?_eq_iff.mp hb with
      | same first => exact own b first.mem
      | near _ first => exact own b first.mem
      | slot _ _ => exact regular.broadcast
  · exact regular.broadcast

/-- No further than its tolerance allows, if it strays, and not at all if it does not. -/
theorem Regular.start_shown (regular : slot.Regular) :
    slot.broadcast.start.elapsed ≤
      (slot.shown m context).start.elapsed + slot.headStart m context := by
  rw [headStart]
  split
  · next strays =>
      obtain ⟨-, near, -⟩ := strays.matches_shown
      exact (near.elapsed regular.broadcast.start (regular.shown m context).start).2
  · next stays =>
      obtain ⟨-, start, -⟩ := sameSlot_shown stays
      rw [start, Int.add_zero]

theorem Regular.stop_shown (regular : slot.Regular) {overrun : Int}
    (most : overrun ∈ slot.overrun? m context) :
    (slot.shown m context).stop.elapsed ≤ slot.broadcast.stop.elapsed + overrun := by
  rw [overrun?] at most
  split at most
  · next strays =>
      obtain ⟨-, -, agree⟩ := strays.matches_shown
      obtain ⟨tolerance, compared, rfl⟩ := Option.map_eq_some_iff.mp most
      exact ((agree tolerance compared).elapsed regular.broadcast.stop
        (regular.shown m context).stop).1
  · next stays =>
      obtain ⟨-, -, stop⟩ := sameSlot_shown stays
      obtain rfl := Option.some.inj most
      rw [stop, Int.add_zero]

theorem LeavesRoom.shown (room : a.LeavesRoom m context b) (ha : a.Regular) (hb : b.Regular) :
    (a.shown m context).YieldsTo (b.shown m context) := by
  obtain ⟨overrun, most, room⟩ := room
  rw [Instant.nanos_since hb.broadcast.start ha.broadcast.stop] at room
  have a_shown := ha.shown m context
  have b_shown := hb.shown m context
  refine Broadcast.yieldsTo_of_upright a_shown.upright b_shown.upright ?_
  rw [Instant.le_iff_elapsed a_shown.stop b_shown.start]
  calc (a.shown m context).stop.elapsed
      ≤ a.broadcast.stop.elapsed + overrun := ha.stop_shown most
    _ ≤ b.broadcast.start.elapsed - b.headStart m context := by omega
    _ ≤ (b.shown m context).start.elapsed := Int.sub_right_le_of_le_add hb.start_shown

end Slot

/-- Of slots in turn, every one is shown in its place unless its item strays, within the tolerances.
What is shown is in turn again if, next to a slot whose item strays, there is always room for all
that the tolerances allow. No item strays where equivalents are not merged, nor, leap seconds apart,
where there is no tolerance. -/
theorem selected_in_turn {m : BroadcastMatcher} {context : QueryContext} {s : ChannelSlots}
    {schedule : ChannelSchedule} (in_turn : InTurn (s.slots.map Slot.broadcast))
    (selected : Selector.selectChannel ⟨precedenceMerger, m⟩ context s = .ok schedule) :
    List.Forall₂ (fun slot e => e.broadcast.SameSlot slot.broadcast ∨
        slot.Strays m context ∧ m.Matches slot.broadcast e.broadcast) s.slots schedule.entries ∧
      ((s.slots.IsChain fun a b => a.Strays m context ∨ b.Strays m context →
          a.Regular ∧ b.Regular ∧ a.LeavesRoom m context b) →
        InTurn (schedule.entries.map Entry.broadcast)) ∧
      (¬ context.MergesEquivalents → InTurn (schedule.entries.map Entry.broadcast)) ∧
      (m = .exactStartEnd →
        (∀ slot ∈ s.slots, ∀ item ∈ slot.representative? context, ¬ item.Misses slot.broadcast) →
          InTurn (schedule.entries.map Entry.broadcast)) := by
  have filled := (Selector.selectChannel_eq_ok_iff.mp selected).entries
  rw [inTurn_iff_isChain, List.isChain_map] at in_turn
  have broadcasts : schedule.entries.map Entry.broadcast = s.slots.map (·.shown m context) := by
    rw [← List.forall₂_eq_eq_eq, List.forall₂_map_left_iff, List.forall₂_map_right_iff]
    exact filled.flip.imp fun e slot filled => filled.broadcast_eq
  have with_room (room : s.slots.IsChain fun a b => a.Strays m context ∨ b.Strays m context →
      a.Regular ∧ b.Regular ∧ a.LeavesRoom m context b) :
      InTurn (schedule.entries.map Entry.broadcast) := by
    rw [broadcasts, inTurn_iff_isChain, List.isChain_map]
    rw [List.isChain_iff_forall_rel_of_append_cons_cons] at *
    intro a b before after split
    by_cases strays : a.Strays m context ∨ b.Strays m context
    · obtain ⟨ha, hb, leaves⟩ := room split strays
      exact leaves.shown ha hb
    · obtain ⟨a_stays, b_stays⟩ := not_or.mp strays
      exact (in_turn split).of_sameSlot (Slot.sameSlot_shown a_stays) (Slot.sameSlot_shown b_stays)
  have still_in_turn (still : ∀ slot ∈ s.slots, ¬ slot.Strays m context) :
      InTurn (schedule.entries.map Entry.broadcast) := by
    refine with_room (in_turn.imp_of_mem_imp fun a b ha hb _ strays => ?_)
    exact absurd strays (not_or.mpr ⟨still a ha, still b hb⟩)
  refine ⟨?_, with_room, ?_, ?_⟩
  · refine filled.imp fun slot e filled => ?_
    rw [filled.broadcast_eq]
    by_cases strays : slot.Strays m context
    · exact .inr ⟨strays, strays.matches_shown⟩
    · exact .inl (Slot.sameSlot_shown strays)
  · intro apart
    exact still_in_turn fun slot _ => slot.not_strays_of_not_merged apart
  · rintro rfl hit
    apply still_in_turn
    intro slot member strays
    obtain ⟨item, stands, misses⟩ := Slot.strays_exactStartEnd_iff.mp strays
    exact hit slot member item stands misses

namespace Sample

/-- Both publishers may be read, the BBC before PA, and equivalents are merged. -/
def bbcFirst : QueryContext := ⟨⟨[bbc, pa], true⟩, false⟩

def withinFiveMinutes : BroadcastMatcher := ⟨.ofMillis 300000, some (.ofMillis 300000)⟩

/-- A slot as PA has it, where the BBC has the same item from `start` to `stop`. -/
def equivalentSlot (slot own : Broadcast) : Slot where
  broadcast := slot
  items := [{ id := ⟨1⟩, publisher := pa, title := "", broadcasts := [slot] },
    { id := ⟨2⟩, publisher := bbc, title := "", broadcasts := [own] }]

def onFirstChannel (slots : List Slot) : ChannelSlots where
  channel := (schedule []).channel
  interval := (schedule []).interval
  slots := slots

end Sample

/-- The BBC starts two minutes late and ends two minutes late, in time for the next slot, which is
ten minutes off. -/
theorem selected_in_turn_late :
    let slots := [Sample.equivalentSlot (Sample.airing 1 (Sample.clock 9 0) (Sample.clock 10 0))
        (Sample.airing 1 (Sample.clock 9 2) (Sample.clock 10 2)),
      Sample.equivalentSlot (Sample.airing 1 (Sample.clock 10 10) (Sample.clock 11 0))
        (Sample.airing 1 (Sample.clock 10 8) (Sample.clock 11 0))]
    InTurn (slots.map Slot.broadcast) ∧ ∃ schedule, Selector.selectChannel
        ⟨precedenceMerger, Sample.withinFiveMinutes⟩ Sample.bbcFirst (Sample.onFirstChannel slots) =
          .ok schedule ∧ InTurn (schedule.entries.map Entry.broadcast) := by
  intro slots
  have in_turn : InTurn (slots.map Slot.broadcast) := ⟨by decide, by decide⟩
  have selected : Selector.selectChannel ⟨precedenceMerger, Sample.withinFiveMinutes⟩
      Sample.bbcFirst (Sample.onFirstChannel slots) = .ok _ := rfl
  refine ⟨in_turn, _, selected, (selected_in_turn in_turn selected).2.1 ?_⟩
  decide

/-- Two minutes of news before a film; the BBC has them from three minutes into the film. -/
theorem moved_over_the_next :
    let slots := [Sample.equivalentSlot (Sample.airing 1 (Sample.clock 9 0) (Sample.clock 9 2))
        (Sample.airing 1 (Sample.clock 9 5) (Sample.clock 9 7)),
      Sample.equivalentSlot (Sample.airing 1 (Sample.clock 9 2) (Sample.clock 11 0))
        (Sample.airing 1 (Sample.clock 9 2) (Sample.clock 11 0))]
    InTurn (slots.map Slot.broadcast) ∧ ∃ schedule, Selector.selectChannel
        ⟨precedenceMerger, Sample.withinFiveMinutes⟩ Sample.bbcFirst (Sample.onFirstChannel slots) =
          .ok schedule ∧ ¬ (schedule.entries.map Entry.broadcast).Pairwise Broadcast.NotAfter ∧
            ¬ (schedule.entries.map Entry.broadcast).IsChain fun a b => a.stop ≤ b.start :=
  ⟨⟨by decide, by decide⟩, _, rfl, by decide, by decide⟩

end ChannelGuide
