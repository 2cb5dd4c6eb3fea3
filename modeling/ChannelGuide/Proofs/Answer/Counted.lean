import Mathlib.Algebra.Order.BigOperators.Group.List
import Mathlib.Algebra.Order.Ring.Nat
import ChannelGuide.Catalogue.Sample
import ChannelGuide.Proofs.Answer.Timeline
import ChannelGuide.Proofs.Answer.Unmerged
import ChannelGuide.Proofs.Catalogue.Lookups
import ChannelGuide.Proofs.Overlay.Interleaving
import ChannelGuide.Proofs.Overlay.Order

/-!
Answers to queries for a number of broadcasts. The broadcasts of every publisher are counted before
overrides are laid over, and what is left of the base is not counted again. So one publisher's
answer keeps to the number, and with overrides an answer may hold the number twice.
-/
namespace ChannelGuide

section Counting
variable {c : Catalogue} {q : Query} {start : Instant} {n : UInt64} {publisher : Publisher}
  {channel : Channel}

/-- Every slot that is counted is filled. -/
theorem selectedFor_of_count (window : q.window = .count start n) (matcher : BroadcastMatcher) :
    ((c.countedFor start n publisher channel).map (c.openSlot q.selectedSources)).mapM
        (Selector.selectSlot ⟨precedenceMerger, matcher⟩ q.context) =
      .ok (c.selectedFor matcher q publisher channel).entries := by
  rw [Catalogue.selectedFor, Selector.filled, window, Catalogue.slots_of_count]
  refine mapM_eq_filterMap fun slot member => ?_
  obtain ⟨e, -, rfl⟩ := List.mem_map.mp member
  exact Selector.exists_selectSlot rfl (c.openSlot_items_ne_nil _ e)

theorem length_selectedFor_of_count (window : q.window = .count start n)
    (matcher : BroadcastMatcher) :
    (c.selectedFor matcher q publisher channel).entries.length =
      (c.countedFor start n publisher channel).length := by
  rw [← (mapM_eq_ok_iff.mp (selectedFor_of_count window matcher)).length_eq, List.length_map]

theorem sameSlot_of_selectSlot {e shown : Entry} (listed : e ∈ c.listed)
    (kept : q.context.MergesEquivalents → ¬ c.Moves q.context.sources e)
    (selected : Selector.selectSlot ⟨precedenceMerger, .exactStartEnd⟩ q.context
      (c.openSlot q.selectedSources e) = .ok shown) : shown.SameSlot e := by
  by_cases merges : q.context.MergesEquivalents
  · rw [Query.selectedSources_of_merging merges, selectSlot_openSlot merges] at selected
    cases selected
    exact sameSlot_iff.mpr (kept merges)
  · rw [Selector.selectSlot, if_neg merges, chooseItem_openSlot listed] at selected
    cases selected
    exact Broadcast.SameSlot.refl e.broadcast

/-- No counted airing of the publishers is moved. -/
def Catalogue.KeepsCounted (c : Catalogue) (q : Query) (start : Instant) (n : UInt64)
    (channel : Channel) : Prop :=
  q.context.MergesEquivalents → ∀ publisher ∈ q.publishers,
    ∀ e ∈ c.countedFor start n publisher channel, ¬ c.Moves q.context.sources e

instance (c : Catalogue) (q : Query) (start : Instant) (n : UInt64) (channel : Channel) :
    Decidable (c.KeepsCounted q start n channel) :=
  inferInstanceAs (Decidable (q.context.MergesEquivalents → ∀ publisher ∈ _, ∀ e ∈ _, _))

theorem start_le_of_selectedFor (window : q.window = .count start n)
    (kept : c.KeepsCounted q start n channel) (asked : publisher ∈ q.publishers) :
    ∀ e ∈ (c.selectedFor .exactStartEnd q publisher channel).entries, start ≤ e.start := by
  intro shown member
  obtain ⟨slot, opened, selected⟩ :=
    (mem_mapM_iff (selectedFor_of_count window .exactStartEnd)).mp member
  obtain ⟨e, counted, rfl⟩ := List.mem_map.mp opened
  obtain ⟨listed, from_start⟩ := Catalogue.mem_countedFor counted
  have same := sameSlot_of_selectSlot listed (fun merges => kept merges publisher asked e counted)
    selected
  exact from_start.trans_eq same.start_eq.symm

end Counting

section Shown
variable {c : Catalogue} {q : Query} {start : Instant} {n : UInt64}

theorem channel_shows (matcher : BroadcastMatcher) (channel : Channel) :
    (q.shows (c.selectedFor matcher q) channel).channel = channel := by
  unfold Query.shows
  cases q.overridePublisher with
  | none => exact Catalogue.channel_selectedFor matcher q.publisher channel
  | some publisher => exact Catalogue.channel_selectedFor matcher q.publisher channel

/-- All that is counted of the publisher whose schedule is on top is shown, and no more than what is
counted of every publisher. -/
theorem length_shows_of_count (window : q.window = .count start n) (matcher : BroadcastMatcher)
    (channel : Channel) :
    let shown := q.shows (c.selectedFor matcher q) channel
    (c.countedFor start n (q.overridePublisher.getD q.publisher) channel).length ≤
        shown.entries.length ∧
      shown.entries.length ≤
        (q.publishers.map fun publisher => (c.countedFor start n publisher channel).length).sum := by
  intro shown
  have counted (publisher : Publisher) :
      (c.selectedFor matcher q publisher channel).entries.length =
        (c.countedFor start n publisher channel).length := length_selectedFor_of_count window matcher
  change _ ≤ (q.shows (c.selectedFor matcher q) channel).entries.length ∧
    (q.shows (c.selectedFor matcher q) channel).entries.length ≤ _
  unfold Query.shows Query.publishers
  cases q.overridePublisher with
  | none =>
      rw [counted q.publisher]
      simp
  | some publisher =>
      obtain ⟨lower, upper⟩ := length_overlay
        (c.selectedFor matcher q q.publisher channel).sortedEntries
        (c.selectedFor matcher q publisher channel).sortedEntries
      have sorted (s : ChannelSchedule) : s.sortedEntries.length = s.entries.length :=
        (inAiringOrder_perm Entry.broadcast s.entries).length_eq
      rw [sorted, counted] at lower upper
      rw [sorted, counted] at upper
      simpa using ⟨lower, upper⟩

theorem start_le_of_shows (window : q.window = .count start n) (channel : Channel)
    (kept : c.KeepsCounted q start n channel) :
    ∀ e ∈ (q.shows (c.selectedFor .exactStartEnd q) channel).entries, start ≤ e.start := by
  have from_start {publisher : Publisher} (asked : publisher ∈ q.publishers) :=
    start_le_of_selectedFor window kept asked
  unfold Query.shows
  cases overridden : q.overridePublisher with
  | none => exact from_start List.mem_cons_self
  | some publisher =>
      refine overlay_start_le (fun o base => ?_) fun v upper => ?_
      · exact from_start List.mem_cons_self o
          ((inAiringOrder_perm Entry.broadcast _).mem_iff.mp base)
      · exact from_start (Query.mem_publishers .override overridden) v
          ((inAiringOrder_perm Entry.broadcast _).mem_iff.mp upper)

end Shown

/-- Each schedule of an answer to a query for `n` broadcasts holds at least what is counted of the
publisher on top, and at most what is counted of all publishers together; so it holds at most `n`
where there is only one, or where together they have no more. It begins no earlier than asked,
unless a counted airing is moved. -/
theorem counted_for_each_publisher {q : Query} {start : Instant} {n : UInt64}
    (window : q.window = .count start n) (c : Catalogue) {settings : Settings}
    (exact : settings.matcher = .exactStartEnd) {r : QueryResult}
    (ok : ((SimulatedStore.mk c .instant).executeEquivalent settings q).outcome = .ok r) :
    ∀ s ∈ r.schedules,
      (c.countedFor start n (q.overridePublisher.getD q.publisher) s.channel).length ≤
          s.entries.length ∧
        s.entries.length ≤ (q.publishers.map fun publisher =>
          (c.countedFor start n publisher s.channel).length).sum ∧
        (q.overridePublisher = none ∨ (q.publishers.map fun publisher =>
          (c.airings s.channel.id publisher (Broadcast.StartsFrom start)).length).sum ≤ n.toNat →
            s.entries.length ≤ n.toNat) ∧
        (c.KeepsCounted q start n s.channel → ∀ e ∈ s.entries, start ≤ e.start) := by
  intro s member
  rw [executeEquivalent_instant] at ok
  obtain ⟨-, channels, -, made⟩ := Query.answerEach_eq_ok_iff.mp ok
  obtain ⟨channel, -, rfl⟩ := List.mem_map.mp (Query.schedules_subset_of_result made member)
  obtain ⟨lower, upper⟩ := length_shows_of_count window settings.matcher channel
  rw [channel_shows]
  refine ⟨lower, upper, ?_, ?_⟩
  · rintro (alone | few)
    · rw [Query.publishers, alone, Option.toList_none, List.map_singleton,
        List.sum_singleton] at upper
      exact upper.trans (List.length_take_le _ _)
    · refine upper.trans (le_trans (List.sum_le_sum fun publisher _ => ?_) few)
      exact List.length_take_le' _ _
  · rw [exact]
    exact start_le_of_shows window channel

/-- With four broadcasts of both publishers together, one of which is cut. -/
theorem counted_for_each_publisher_four :
    let store : SimulatedStore := ⟨Sample.listings.catalogue, .instant⟩
    let q := Sample.firstBroadcasts 4 (by decide) ⟨⟨[Sample.bbc, Sample.ebs, Sample.pa], true⟩, false⟩
    (q.window = .count (Sample.clock 9 0) 4 ∧ Settings.standard.matcher = .exactStartEnd) ∧
    ∃ r, (store.executeEquivalent .standard q).outcome = .ok r ∧
      (r.schedules.map fun s => s.entries.length) = [4] ∧
      ∀ s ∈ r.schedules, s.entries.length ≤ 4 ∧ ∀ e ∈ s.entries, Sample.clock 9 0 ≤ e.start := by
  intro store q
  have window : q.window = .count (Sample.clock 9 0) 4 := rfl
  have exact : Settings.standard.matcher = .exactStartEnd := rfl
  refine ⟨⟨window, exact⟩, _, rfl, rfl, fun s shown => ?_⟩
  obtain ⟨-, -, at_most, from_start⟩ :=
    counted_for_each_publisher window Sample.listings.catalogue exact rfl s shown
  obtain rfl := List.mem_singleton.mp shown
  exact ⟨at_most (.inr (by decide)), from_start (by decide)⟩

/-- Of each of two publishers the first broadcast is shown. -/
theorem one_broadcast_of_each :
    let store : SimulatedStore := ⟨Sample.listings.catalogue, .instant⟩
    let q := Sample.firstBroadcasts 1 (by decide) ⟨⟨[Sample.pa, Sample.ebs], false⟩, false⟩
    (q.window = .count (Sample.clock 9 0) 1 ∧ Settings.standard.matcher = .exactStartEnd) ∧
    ∃ s, (store.executeEquivalent .standard q).outcome = .ok (.single s) ∧
      s.entries.map (fun e => (e.start, e.stop)) =
        [(Sample.clock 9 0, Sample.clock 9 30), (Sample.clock 9 30, Sample.clock 9 45)] ∧
      ¬ s.entries.length ≤ 1 := ⟨by decide, _, rfl, rfl, by decide⟩

/-- The first broadcast of a year is shown by one that started in the leap second before. -/
theorem leap_second_before_start :
    let store : SimulatedStore := ⟨Sample.countdown.catalogue, .instant⟩
    let q := Sample.firstOfYear ⟨⟨[Sample.pa, Sample.bbc], true⟩, false⟩
    (q.window = .count (Sample.nightHour 1) 1 ∧ Settings.standard.matcher = .exactStartEnd) ∧
    ∃ s, (store.executeEquivalent .standard q).outcome = .ok (.single s) ∧
      s.entries.map Entry.start = [Sample.leapSecond] ∧ Sample.leapSecond < Sample.nightHour 1 :=
  ⟨by decide, _, rfl, rfl, by decide⟩

end ChannelGuide
