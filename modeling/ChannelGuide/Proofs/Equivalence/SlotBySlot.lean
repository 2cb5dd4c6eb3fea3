import ChannelGuide.Proofs.Equivalence.Selection
import ChannelGuide.Proofs.First

/-!
What is shown in every slot. A selection goes through the slots of its schedules in order; it fails
at the first one that is open to no item and otherwise says of each, without regard to the others,
which item is shown and in which broadcast.
-/
namespace ChannelGuide

section FirstOf
variable {α β ε : Type} {p : α → Prop} {xs : List α}

theorem mapM_eq_error_iff_firstOf {f : α → Except ε β} {e : ε}
    (fails : ∀ x, (∃ y, f x = .ok y) ↔ ¬ p x) :
    xs.mapM f = .error e ↔ ∃ x, FirstOf p xs x ∧ f x = .error e := by
  rw [mapM_eq_error_iff]
  constructor
  · rintro ⟨before, x, after, split, fine, fault⟩
    have holds : p x := by
      by_contra outside
      obtain ⟨y, made⟩ := (fails x).mpr outside
      cases made.symm.trans fault
    exact ⟨x, ⟨holds, before, after, split, fun y hy => (fails y).mp (fine y hy)⟩, fault⟩
  · rintro ⟨x, ⟨-, before, after, split, outside⟩, fault⟩
    exact ⟨before, x, after, split, fun y hy => (fails y).mpr (outside y hy), fault⟩

end FirstOf

section Choice
variable {context : Option ItemId} {sources : SourcePrecedence} {items : List Item} {best : Item}

/-- No item is of a better publisher, nor of one as good with a lower number. -/
def Item.Foremost (sources : SourcePrecedence) (items : List Item) (best : Item) : Prop :=
  ∀ other ∈ items, best.rank sources < other.rank sources ∨
    best.rank sources = other.rank sources ∧ best.id.value.toNat ≤ other.id.value.toNat

instance (sources : SourcePrecedence) (items : List Item) :
    DecidablePred (Item.Foremost sources items) :=
  fun _ => inferInstanceAs (Decidable (∀ other ∈ items, _ ∨ _))

theorem Item.foremost_iff : best.Foremost sources items ↔
    ∀ other ∈ items, ¬ other.Preferred none sources best := by
  refine forall₂_congr fun other _ => ?_
  rw [preferred_none_iff]
  omega

theorem firstOf_of_mostPreferred? (chosen : mostPreferred? context sources items = some best) :
    FirstOf (fun x => ∀ other ∈ items, ¬ other.Preferred context sources x) items best := by
  refine ⟨(choice_of_mostPreferred? chosen).unbeaten, ?_⟩
  induction items generalizing best with
  | nil => cases chosen
  | cons item items ih =>
      rw [mostPreferred?] at chosen
      split at chosen
      · cases chosen
        exact ⟨[], items, rfl, fun y none => absurd none List.not_mem_nil⟩
      · next other found =>
          split at chosen
          · next before =>
              cases chosen
              obtain ⟨passed, after, split, beaten⟩ := ih found
              have among : best ∈ item :: items :=
                List.mem_cons_of_mem item (mem_of_mostPreferred? found)
              refine ⟨item :: passed, after, by rw [split]; rfl, List.forall_mem_cons.mpr ⟨?_, ?_⟩⟩
              · exact fun unbeaten => unbeaten best among before
              · intro y hy unbeaten
                exact beaten y hy fun z hz => unbeaten z (List.mem_cons_of_mem item hz)
          · cases chosen
            exact ⟨[], items, rfl, fun y none => absurd none List.not_mem_nil⟩

theorem mostPreferred?_none_eq_some_iff :
    mostPreferred? none sources items = some best ↔
      FirstOf (Item.Foremost sources items) items best := by
  have first {x : Item} (chosen : mostPreferred? none sources items = some x) :
      FirstOf (Item.Foremost sources items) items x := by
    have same : Item.Foremost sources items =
        fun x => ∀ other ∈ items, ¬ other.Preferred none sources x :=
      funext fun x => propext Item.foremost_iff
    rw [same]
    exact firstOf_of_mostPreferred? chosen
  constructor
  · exact first
  · intro foremost
    obtain ⟨x, chosen⟩ : ∃ x, mostPreferred? none sources items = some x :=
      exists_mostPreferred? (List.ne_nil_of_mem foremost.mem)
    rw [chosen, (first chosen).unique foremost]

end Choice

/-- What may be shown for a slot by an item of these own broadcasts: the first in the same slot; if
there is none, the first within the tolerances; if there is none either, the slot stays. -/
inductive BroadcastMatcher.Shows (m : BroadcastMatcher) (slot : Broadcast) (own : List Broadcast) :
    Broadcast → Prop
  | same {b : Broadcast} : FirstOf (·.SameSlot slot) own b → m.Shows slot own b
  | near {b : Broadcast} : (∀ x ∈ own, ¬ x.SameSlot slot) → FirstOf (m.Matches slot) own b →
      m.Shows slot own b
  | slot : (∀ x ∈ own, ¬ x.SameSlot slot) → (∀ x ∈ own, ¬ m.Matches slot x) → m.Shows slot own slot

theorem BroadcastMatcher.getD_find?_eq_iff {m : BroadcastMatcher} {slot b : Broadcast}
    {own : List Broadcast} : (m.find? slot own).getD slot = b ↔ m.Shows slot own b := by
  unfold find?
  cases exact : own.find? fun x => x.SameSlot slot with
  | some x =>
      have first := firstOf_iff_find?.mpr exact
      constructor
      · rintro rfl
        exact .same first
      · intro shows
        cases shows with
        | same first' => exact first.unique first'
        | near outside _ => exact absurd first.holds (outside x first.mem)
        | slot outside _ => exact absurd first.holds (outside x first.mem)
  | none =>
      have outside : ∀ x ∈ own, ¬ x.SameSlot slot := by simpa using List.find?_eq_none.mp exact
      cases near : own.find? fun x => m.Matches slot x with
      | some x =>
          have first := firstOf_iff_find?.mpr near
          constructor
          · rintro rfl
            exact .near outside first
          · intro shows
            cases shows with
            | same inside => exact absurd inside.holds (outside b inside.mem)
            | near _ first' => exact first.unique first'
            | slot _ apart => exact absurd first.holds (apart x first.mem)
      | none =>
          have apart : ∀ x ∈ own, ¬ m.Matches slot x := by simpa using List.find?_eq_none.mp near
          constructor
          · rintro rfl
            exact .slot outside apart
          · intro shows
            cases shows with
            | same inside => exact absurd inside.holds (outside b inside.mem)
            | near _ first => exact absurd first.holds (apart b first.mem)
            | slot _ _ => rfl

namespace Slot

/-- Equivalents are merged: the item of the best publisher, with the lowest number, is shown in the
broadcast of its own that is found for the slot, or else in that of the slot. -/
structure FilledMerged (m : BroadcastMatcher) (sources : SourcePrecedence) (slot : Slot)
    (e : Entry) : Prop where
  item : FirstOf (Item.Foremost sources slot.items) slot.items e.item
  broadcast : m.Shows slot.broadcast e.item.broadcasts e.broadcast

/-- Equivalents are not merged: the first item with a broadcast in the slot is shown, or the first
of all if none has one, and the broadcast is that of the slot. -/
structure FilledAsScheduled (slot : Slot) (e : Entry) : Prop where
  item : FirstOf (·.HasBroadcast slot.broadcast) slot.items e.item ∨
    (∀ item ∈ slot.items, ¬ item.HasBroadcast slot.broadcast) ∧ slot.items.head? = some e.item
  broadcast : e.broadcast = slot.broadcast

structure FilledBy (m : BroadcastMatcher) (context : QueryContext) (slot : Slot) (e : Entry) :
    Prop where
  member : e.item ∈ slot.items
  merged : context.MergesEquivalents → slot.FilledMerged m context.sources e
  scheduled : ¬ context.MergesEquivalents → slot.FilledAsScheduled e

end Slot

/-- The same channel over the same interval, and every slot filled, in order. -/
structure ChannelSlots.FilledBy (m : BroadcastMatcher) (context : QueryContext) (s : ChannelSlots)
    (schedule : ChannelSchedule) : Prop where
  channel : schedule.channel = s.channel
  interval : schedule.interval = s.interval
  entries : List.Forall₂ (Slot.FilledBy m context) s.slots schedule.entries

/-- All slots in the order of the schedules, each with its channel. -/
def ScheduleSlots.slots (s : ScheduleSlots) : List (Channel × Slot) :=
  s.channelSlots.flatMap fun channel => channel.slots.map (channel.channel, ·)

/-- The fault of a slot without items, which names its start. -/
def QueryContext.unfilled (context : QueryContext) (slot : Slot) : SlotFault :=
  if context.MergesEquivalents then .mergedCount slot.broadcast.start 0
  else .noItems slot.broadcast.start

namespace Selector
variable {m : BroadcastMatcher} {context : QueryContext} {slot : Slot} {e : Entry}

theorem mergeSlot_by_precedence {sources : SourcePrecedence} (enabled : sources.precedenceEnabled)
    (slot : Slot) : mergeSlot ⟨precedenceMerger, m⟩ sources slot =
      match mostPreferred? none sources slot.items with
      | some item => .ok ⟨item, (m.find? slot.broadcast item.broadcasts).getD slot.broadcast⟩
      | none => .error (.mergedCount slot.broadcast.start 0) := by
  have chooses : precedenceMerger none slot.items sources =
      (mostPreferred? none sources slot.items).toList := if_pos enabled
  unfold mergeSlot
  dsimp only
  rw [chooses]
  cases mostPreferred? none sources slot.items with
  | none => rfl
  | some item => rfl

theorem mergeSlot_eq_ok_iff {sources : SourcePrecedence} (enabled : sources.precedenceEnabled) :
    mergeSlot ⟨precedenceMerger, m⟩ sources slot = .ok e ↔ slot.FilledMerged m sources e := by
  rw [mergeSlot_by_precedence enabled]
  constructor
  · intro filled
    split at filled
    · next item chosen =>
        cases filled
        exact ⟨mostPreferred?_none_eq_some_iff.mp chosen, m.getD_find?_eq_iff.mp rfl⟩
    · cases filled
  · rintro ⟨item, broadcast⟩
    rw [mostPreferred?_none_eq_some_iff.mpr item]
    dsimp only
    rw [m.getD_find?_eq_iff.mpr broadcast]

theorem chooseItem_eq_ok_iff : chooseItem slot = .ok e ↔ slot.FilledAsScheduled e := by
  unfold chooseItem
  constructor
  · intro filled
    split at filled
    · next item chosen =>
        cases filled
        rcases Option.or_eq_some_iff.mp chosen with found | ⟨missing, head⟩
        · exact ⟨.inl (firstOf_iff_find?.mpr found), rfl⟩
        · exact ⟨.inr ⟨by simpa using List.find?_eq_none.mp missing, head⟩, rfl⟩
    · cases filled
  · rintro ⟨item, broadcast⟩
    have chosen : (slot.items.find? fun item => item.HasBroadcast slot.broadcast).or
        slot.items.head? = some e.item := by
      rw [Option.or_eq_some_iff]
      refine item.imp firstOf_iff_find?.mp fun ⟨none_has, head⟩ => ⟨?_, head⟩
      exact List.find?_eq_none.mpr fun item among => by simpa using none_has item among
    rw [chosen, ← broadcast]

theorem selectSlot_of_items_eq_nil (bare : slot.items = []) :
    selectSlot ⟨precedenceMerger, m⟩ context slot = .error (context.unfilled slot) := by
  unfold selectSlot QueryContext.unfilled
  split
  · next merges =>
      rw [mergeSlot_by_precedence merges.1, bare]
      rfl
  · rw [chooseItem, bare]
    rfl

theorem exists_selectSlot_iff :
    (∃ e, selectSlot ⟨precedenceMerger, m⟩ context slot = .ok e) ↔ ¬ slot.items = [] := by
  constructor
  · rintro ⟨e, filled⟩ bare
    rw [selectSlot_of_items_eq_nil bare] at filled
    cases filled
  · exact exists_selectSlot rfl

theorem selectSlot_eq_error_iff {fault : SlotFault} :
    selectSlot ⟨precedenceMerger, m⟩ context slot = .error fault ↔
      slot.items = [] ∧ fault = context.unfilled slot := by
  constructor
  · intro failed
    have bare : slot.items = [] := by
      by_contra available
      obtain ⟨e, filled⟩ := exists_selectSlot_iff.mpr available
      cases filled.symm.trans failed
    rw [selectSlot_of_items_eq_nil bare] at failed
    exact ⟨bare, (Except.error.inj failed).symm⟩
  · rintro ⟨bare, rfl⟩
    exact selectSlot_of_items_eq_nil bare

theorem selectSlot_eq_ok_iff :
    selectSlot ⟨precedenceMerger, m⟩ context slot = .ok e ↔ slot.FilledBy m context e := by
  unfold selectSlot
  split
  · next merges =>
      rw [mergeSlot_eq_ok_iff merges.1]
      constructor
      · exact fun filled => ⟨filled.item.mem, fun _ => filled, fun apart => absurd merges apart⟩
      · exact fun filled => filled.merged merges
  · next apart =>
      rw [chooseItem_eq_ok_iff]
      constructor
      · intro filled
        refine ⟨?_, fun merges => absurd merges apart, fun _ => filled⟩
        rcases filled.item with first | ⟨-, head⟩
        · exact first.mem
        · exact List.mem_of_head? head
      · exact fun filled => filled.scheduled apart

theorem selectChannel_eq_ok_iff {s : ChannelSlots} {schedule : ChannelSchedule} :
    selectChannel ⟨precedenceMerger, m⟩ context s = .ok schedule ↔
      s.FilledBy m context schedule := by
  have by_slot {entries : List Entry} :
      s.slots.mapM (selectSlot ⟨precedenceMerger, m⟩ context) = .ok entries ↔
        List.Forall₂ (Slot.FilledBy m context) s.slots entries := by
    simp only [mapM_eq_ok_iff, selectSlot_eq_ok_iff]
  unfold selectChannel
  constructor
  · intro selected
    split at selected
    · next entries filled =>
        cases selected
        exact ⟨rfl, rfl, by_slot.mp filled⟩
    · cases selected
  · intro filled
    rw [by_slot.mpr filled.entries]
    obtain ⟨channel, interval, -⟩ := filled
    rw [← channel, ← interval]

theorem selectChannel_eq_error_iff {s : ChannelSlots} {fault : InconsistentSlot} :
    selectChannel ⟨precedenceMerger, m⟩ context s = .error fault ↔
      ∃ slot, FirstOf (·.items = []) s.slots slot ∧
        fault = ⟨s.channel.id, context.unfilled slot⟩ := by
  have by_slot {f : SlotFault} :
      s.slots.mapM (selectSlot ⟨precedenceMerger, m⟩ context) = .error f ↔
        ∃ slot, FirstOf (·.items = []) s.slots slot ∧ f = context.unfilled slot := by
    rw [mapM_eq_error_iff_firstOf fun _ => exists_selectSlot_iff]
    refine exists_congr fun slot => and_congr_right fun first => ?_
    rw [selectSlot_eq_error_iff]
    exact and_iff_right first.holds
  unfold selectChannel
  constructor
  · intro failed
    split at failed
    · cases failed
    · next f unfilled =>
        cases failed
        obtain ⟨slot, first, rfl⟩ := by_slot.mp unfilled
        exact ⟨slot, first, rfl⟩
  · rintro ⟨slot, first, rfl⟩
    rw [by_slot.mpr ⟨slot, first, rfl⟩]

theorem exists_selectChannel_iff {s : ChannelSlots} :
    (∃ schedule, selectChannel ⟨precedenceMerger, m⟩ context s = .ok schedule) ↔
      ¬ ∃ slot ∈ s.slots, slot.items = [] := by
  constructor
  · rintro ⟨schedule, selected⟩ bare
    obtain ⟨slot, first⟩ := exists_firstOf_iff.mpr bare
    have failed : selectChannel ⟨precedenceMerger, m⟩ context s = .error _ :=
      selectChannel_eq_error_iff.mpr ⟨slot, first, rfl⟩
    cases selected.symm.trans failed
  · intro available
    refine ⟨_, selectChannel_eq_filled rfl fun slot member bare => ?_⟩
    exact available ⟨slot, member, bare⟩

theorem exists_selectSchedule_eq_error {s : ScheduleSlots} :
    (∃ fault, selectSchedule ⟨precedenceMerger, m⟩ context s = .error fault) ↔
      ∃ channel ∈ s.channelSlots, ∃ slot ∈ channel.slots, slot.items = [] := by
  unfold selectSchedule
  constructor
  · rintro ⟨fault, failed⟩
    obtain ⟨channel, first, -⟩ :=
      (mapM_eq_error_iff_firstOf fun _ => exists_selectChannel_iff).mp failed
    exact ⟨channel, first.mem, first.holds⟩
  · rintro ⟨channel, member, bare⟩
    cases selected : s.channelSlots.mapM (selectChannel ⟨precedenceMerger, m⟩ context) with
    | error fault => exact ⟨fault, rfl⟩
    | ok schedules =>
        have made := exists_mapM_eq_ok.mp ⟨schedules, selected⟩ channel member
        exact absurd bare (exists_selectChannel_iff.mp made)

theorem selectSchedule_eq_error_iff {s : ScheduleSlots} {fault : InconsistentSlot} :
    selectSchedule ⟨precedenceMerger, m⟩ context s = .error fault ↔
      ∃ channel slot, FirstOf (fun x => x.2.items = []) s.slots (channel, slot) ∧
        fault = ⟨channel.id, context.unfilled slot⟩ := by
  have in_channel (c : ChannelSlots) : (∃ x ∈ c.slots.map (c.channel, ·), x.2.items = []) ↔
      ∃ slot ∈ c.slots, slot.items = [] := by
    simp
  rw [selectSchedule, mapM_eq_error_iff_firstOf fun _ => exists_selectChannel_iff]
  simp only [ScheduleSlots.slots, firstOf_flatMap_iff, firstOf_map_iff, in_channel,
    selectChannel_eq_error_iff]
  constructor
  · rintro ⟨c, first, slot, first_slot, rfl⟩
    exact ⟨c.channel, slot, ⟨c, first, slot, first_slot, rfl⟩, rfl⟩
  · rintro ⟨channel, slot, ⟨c, first, slot', first_slot, same⟩, rfl⟩
    cases same
    exact ⟨c, first, slot, first_slot, rfl⟩

end Selector

/-- A selection fails exactly if some slot is open to no item, and the fault names the channel and
the start of the first such slot; in all other cases every slot is filled, one by one. -/
theorem selectSchedule_slot_by_slot (m : BroadcastMatcher) (context : QueryContext)
    (s : ScheduleSlots) :
    ((∃ fault, Selector.selectSchedule ⟨precedenceMerger, m⟩ context s = .error fault) ↔
      ∃ channel ∈ s.channelSlots, ∃ slot ∈ channel.slots, slot.items = []) ∧
    (∀ fault, Selector.selectSchedule ⟨precedenceMerger, m⟩ context s = .error fault ↔
      ∃ channel slot, FirstOf (fun x => x.2.items = []) s.slots (channel, slot) ∧
        fault = ⟨channel.id, context.unfilled slot⟩) ∧
    ∀ schedules, Selector.selectSchedule ⟨precedenceMerger, m⟩ context s = .ok schedules ↔
      List.Forall₂ (ChannelSlots.FilledBy m context) s.channelSlots schedules := by
  refine ⟨Selector.exists_selectSchedule_eq_error,
    fun fault => Selector.selectSchedule_eq_error_iff, fun schedules => ?_⟩
  rw [Selector.selectSchedule, mapM_eq_ok_iff]
  simp only [Selector.selectChannel_eq_ok_iff]

end ChannelGuide
