import ChannelGuide.Proofs.Answer.Steps
import ChannelGuide.Proofs.Equivalence.Preference

/-!
Slots that can be filled. The order of preference always finds one item where there is any, so no
slot of a catalogue fails its schedule: a catalogue opens every slot to the item scheduled there.
-/
namespace ChannelGuide

namespace Selector
variable {selector : Selector} {context : QueryContext}

theorem exists_selectSlot (by_precedence : selector.merger = precedenceMerger) {slot : Slot}
    (available : slot.items ≠ []) : ∃ e, selector.selectSlot context slot = .ok e := by
  unfold selectSlot
  split
  · obtain ⟨best, merged⟩ : ∃ best, precedenceMerger none slot.items context.sources = [best] :=
      exists_precedenceMerger_eq available
    rw [mergeSlot, by_precedence, merged]
    exact ⟨_, rfl⟩
  · obtain ⟨first, rest, open_to⟩ := List.exists_cons_of_ne_nil available
    rw [chooseItem, open_to]
    cases (first :: rest).find? fun item => item.HasBroadcast slot.broadcast with
    | none => exact ⟨_, rfl⟩
    | some item => exact ⟨_, rfl⟩

/-- The schedule of those slots that can be filled. -/
def filled (selector : Selector) (context : QueryContext) (s : ChannelSlots) : ChannelSchedule where
  channel := s.channel
  interval := s.interval
  entries := s.slots.filterMap fun slot => (selector.selectSlot context slot).toOption

theorem selectChannel_eq_filled (by_precedence : selector.merger = precedenceMerger)
    {s : ChannelSlots} (available : ∀ slot ∈ s.slots, slot.items ≠ []) :
    selector.selectChannel context s = .ok (selector.filled context s) := by
  rw [selectChannel, mapM_eq_filterMap fun slot member =>
    exists_selectSlot by_precedence (available slot member)]
  rfl

end Selector

namespace Catalogue
variable {c : Catalogue} {window : Window} {publisher : Publisher} {sources : List Publisher}
  {channel : Channel}

theorem openSlot_items_ne_nil (c : Catalogue) (sources : List Publisher) (e : Entry) :
    (c.openSlot sources e).items ≠ [] := List.cons_ne_nil _ _

/-- Every slot of a channel is one of the publisher's airings there, opened to its equivalents. -/
theorem exists_openSlot {slot : Slot}
    (member : slot ∈ (c.channelSlotsFor window publisher sources channel).slots) :
    ∃ e ∈ c.listed, e.ListedFor publisher channel.id ∧ c.openSlot sources e = slot := by
  cases window with
  | interval i =>
      obtain ⟨e, airing, opened⟩ := List.mem_map.mp member
      obtain ⟨listed, listed_for, -⟩ := mem_airings.mp airing
      exact ⟨e, listed, listed_for, opened⟩
  | count start n =>
      have ordered := List.mem_of_mem_take member
      have among := (inAiringOrder_perm Slot.broadcast _).mem_iff.mp ordered
      obtain ⟨e, airing, opened⟩ := List.mem_map.mp among
      obtain ⟨listed, listed_for, -⟩ := mem_airings.mp airing
      exact ⟨e, listed, listed_for, opened⟩

theorem channel_channelSlotsFor (c : Catalogue) (window : Window) (publisher : Publisher)
    (sources : List Publisher) (channel : Channel) :
    (c.channelSlotsFor window publisher sources channel).channel = channel := by
  cases window with
  | interval i => rfl
  | count start n => rfl

theorem channelSlots_slotsFor (c : Catalogue) (channels : List Channel) (window : Window)
    (publisher : Publisher) (sources : List Publisher) :
    (c.slotsFor channels window publisher sources).channelSlots =
      channels.map (c.channelSlotsFor window publisher sources) := by
  cases window with
  | interval i => rfl
  | count start n => rfl

theorem selectSchedule_slotsFor {selector : Selector}
    (by_precedence : selector.merger = precedenceMerger) (context : QueryContext)
    (channels : List Channel) :
    selector.selectSchedule context (c.slotsFor channels window publisher sources) =
      .ok (channels.map fun channel =>
        selector.filled context (c.channelSlotsFor window publisher sources channel)) := by
  rw [Selector.selectSchedule, channelSlots_slotsFor]
  refine mapM_map_eq_ok fun channel _ => Selector.selectChannel_eq_filled by_precedence ?_
  intro slot member
  obtain ⟨e, -, -, rfl⟩ := exists_openSlot member
  exact c.openSlot_items_ne_nil sources e

end Catalogue
end ChannelGuide
