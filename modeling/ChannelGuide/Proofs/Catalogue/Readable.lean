import ChannelGuide.Proofs.Catalogue.Airings
import ChannelGuide.Proofs.Equivalence.Preference
import ChannelGuide.Proofs.Register

/-!
Catalogues that differ only in what may not be read. They list the same for every publisher that may
be read, they open the same slots, and they merge a readable item into the same one: the unreadable
ones are among its equivalents, but they lose against the item itself.
-/
namespace ChannelGuide

namespace Catalogue

/-- The catalogues have the same channels and the same sets of equivalents, and the same items of
every publisher that may be read. -/
structure SameFor (sources : SourcePrecedence) (c c' : Catalogue) : Prop where
  channels : c.channels = c'.channels
  equivalents : ∀ id, c.equivalentsOf id = c'.equivalentsOf id
  items : ∀ item : Item, item.Readable sources →
    (item ∈ c.items.entries ↔ item ∈ c'.items.entries)

theorem mem_equivalentsOf (c : Catalogue) (id : ItemId) : id ∈ (c.equivalentsOf id).entries := by
  unfold equivalentsOf
  cases found : c.equivalences.find? fun set => id ∈ set.entries with
  | none => exact List.mem_singleton_self id
  | some set => simpa using List.find?_some found

namespace SameFor
variable {sources : SourcePrecedence} {c c' : Catalogue}

theorem of_filter_eq (channels : c.channels = c'.channels)
    (equivalences : c.equivalences = c'.equivalences)
    (items : c.items.entries.filter (·.Readable sources) =
      c'.items.entries.filter (·.Readable sources)) : c.SameFor sources c' where
  channels
  equivalents id := by rw [equivalentsOf, equivalentsOf, equivalences]
  items item readable := by
    have listed : item ∈ c.items.entries.filter (·.Readable sources) ↔
        item ∈ c'.items.entries.filter (·.Readable sources) := by rw [items]
    simpa [readable] using listed

theorem filter_items (same : c.SameFor sources c') {kind : Item → Bool}
    (readable : ∀ item, kind item → item.Readable sources) :
    c.items.entries.filter kind = c'.items.entries.filter kind := by
  apply Register.eq_of_mem_iff (c.items.ascending.filter kind) (c'.items.ascending.filter kind)
  intro item
  rw [List.mem_filter, List.mem_filter, and_congr_left_iff]
  exact fun of_kind => same.items item (readable item of_kind)

theorem airings_eq (same : c.SameFor sources c') (channel : ChannelId) {publisher : Publisher}
    (enabled : sources.ReadEnabled publisher) (Airs : Broadcast → Prop) [DecidablePred Airs] :
    c.airings channel publisher Airs = c'.airings channel publisher Airs := by
  have published : c.items.entries.filter (fun item => item.publisher = publisher) =
      c'.items.entries.filter (fun item => item.publisher = publisher) := by
    apply same.filter_items
    intro item of_publisher
    rw [Item.Readable, of_decide_eq_true of_publisher]
    exact enabled
  unfold airings
  rw [published]

theorem get?_eq (same : c.SameFor sources c') {id : UInt64} {item : Item}
    (readable : item.Readable sources) :
    c.items.get? id = some item ↔ c'.items.get? id = some item := by
  rw [Register.get?_eq_some_iff, Register.get?_eq_some_iff, same.items item readable]

/-- Known items of a readable kind, looked up by their numbers. -/
theorem filter_known (same : c.SameFor sources c') {kind : Item → Bool}
    (readable : ∀ item, kind item → item.Readable sources) (ids : List ItemId) :
    (ids.filterMap fun id => c.items.get? id.value).filter kind =
      (ids.filterMap fun id => c'.items.get? id.value).filter kind := by
  rw [List.filter_filterMap, List.filter_filterMap]
  congr 1
  funext id
  ext item
  rw [Option.filter_eq_some_iff, Option.filter_eq_some_iff, and_congr_left_iff]
  exact fun of_kind => same.get?_eq (readable item of_kind)

theorem equivalenceSet_eq (same : c.SameFor sources c') {publishers : List Publisher}
    (enabled : ∀ publisher ∈ publishers, sources.ReadEnabled publisher) (primary : Item) :
    c.equivalenceSet primary publishers = c'.equivalenceSet primary publishers := by
  simp only [equivalenceSet, same.equivalents]
  rw [same.filter_known]
  intro item selected
  exact enabled item.publisher (of_decide_eq_true selected)

theorem scheduleFor_eq (same : c.SameFor sources c') {publisher : Publisher}
    (enabled : sources.ReadEnabled publisher) (channels : List Channel) (interval : Interval) :
    c.scheduleFor channels interval publisher = c'.scheduleFor channels interval publisher := by
  simp only [scheduleFor, same.airings_eq _ enabled]

theorem slotsFor_eq (same : c.SameFor sources c') {publisher : Publisher}
    (enabled : sources.ReadEnabled publisher) {publishers : List Publisher}
    (all_enabled : ∀ publisher ∈ publishers, sources.ReadEnabled publisher)
    (channels : List Channel) (window : Window) :
    c.slotsFor channels window publisher publishers =
      c'.slotsFor channels window publisher publishers := by
  have opened : c.openSlot publishers = c'.openSlot publishers := by
    funext e
    rw [openSlot, openSlot, same.equivalenceSet_eq all_enabled]
  have split : c.channelSlotsFor window publisher publishers =
      c'.channelSlotsFor window publisher publishers := by
    funext channel
    unfold channelSlotsFor
    simp only [same.airings_eq _ enabled, opened]
  unfold slotsFor
  rw [split]

theorem channelsFor_eq (same : c.SameFor sources c') (ids : List ChannelId) :
    c.channelsFor ids = c'.channelsFor ids := by
  rw [channelsFor, channelsFor, same.channels]

end SameFor

section Merging
variable {sources : SourcePrecedence} {c c' : Catalogue}

/-- What a readable item merges into is the most preferred of its readable equivalents. -/
theorem mergedItem_eq (precedence : sources.precedenceEnabled = true) {id : ItemId} {item : Item}
    (known : c.items.get? id.value = some item) (readable : item.Readable sources) :
    c.mergedItem sources id = (mostPreferred? (some id) sources
      (((c.equivalentsOf id).entries.filterMap fun member => c.items.get? member.value).filter
        (·.Readable sources))).toList := by
  -- the item is one of its own equivalents, so not all of them are unreadable
  have itself : item ∈ ((c.equivalentsOf id).entries.filterMap fun member =>
      c.items.get? member.value).filter (·.Readable sources) := by
    rw [List.mem_filter, List.mem_filterMap]
    exact ⟨⟨id, c.mem_equivalentsOf id, known⟩, decide_eq_true readable⟩
  have chosen : (c.items.get? id.value).isSome := Option.isSome_of_eq_some known
  rw [mergedItem, if_pos chosen, precedenceMerger, if_pos precedence,
    mostPreferred?_filter_readable (List.ne_nil_of_mem itself)]

theorem SameFor.mergedItem_eq (same : c.SameFor sources c')
    (precedence : sources.precedenceEnabled = true) {id : ItemId} {item : Item}
    (known : c.items.get? id.value = some item) (readable : item.Readable sources) :
    c.mergedItem sources id = c'.mergedItem sources id := by
  have also_known : c'.items.get? id.value = some item := (same.get?_eq readable).mp known
  rw [Catalogue.mergedItem_eq precedence known readable,
    Catalogue.mergedItem_eq precedence also_known readable, same.equivalents, same.filter_known]
  exact fun item of_kind => of_decide_eq_true of_kind

theorem SameFor.mergedFor_eq (same : c.SameFor sources c')
    (precedence : sources.precedenceEnabled = true) {ids : List ItemId}
    (known : ∀ id ∈ ids, ∃ item, c.items.get? id.value = some item ∧ item.Readable sources) :
    c.mergedFor ids sources = c'.mergedFor ids sources := by
  funext id
  unfold mergedFor
  split
  · next asked =>
      obtain ⟨item, found, readable⟩ := known id asked
      exact same.mergedItem_eq precedence found readable
  · rfl

theorem readable_of_mem_equivalenceSet {publishers : List Publisher}
    (all_enabled : ∀ publisher ∈ publishers, sources.ReadEnabled publisher) {item other : Item}
    (readable : item.Readable sources) (among : other ∈ c.equivalenceSet item publishers) :
    other.Readable sources := by
  rcases List.mem_cons.mp among with rfl | equivalent
  · exact readable
  · exact all_enabled _ (of_decide_eq_true (List.mem_filter.mp equivalent).2)

theorem readable_of_mem_mergedItem (precedence : sources.precedenceEnabled = true) {id : ItemId}
    {item merged : Item} (known : c.items.get? id.value = some item)
    (readable : item.Readable sources) (member : merged ∈ c.mergedItem sources id) :
    merged.Readable sources := by
  rw [mergedItem_eq precedence known readable, Option.mem_toList] at member
  exact of_decide_eq_true (List.mem_filter.mp (mem_of_mostPreferred? member)).2

end Merging
end Catalogue
end ChannelGuide
