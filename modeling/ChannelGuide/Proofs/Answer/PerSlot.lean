import ChannelGuide.Catalogue.Sample
import ChannelGuide.Proofs.Answer.Clock
import ChannelGuide.Proofs.Answer.Merged
import ChannelGuide.Proofs.Matching
import ChannelGuide.Proofs.Register

/-!
Equivalents that are merged slot by slot. What the items of all schedules merge into is asked for at
once, but what an entry then shows depends on the answer for its own item and on its own broadcast
only. Every slot stays where it is, and its item is shown on air there and nowhere else.
-/
namespace ChannelGuide

namespace Item

/-- The item for an item that was asked about: the first of the answer, or the item itself if the
answer is empty. -/
inductive FirstAnswered (asked : Item) : List Item → Item → Prop
  | answered (item : Item) (others : List Item) : FirstAnswered asked (item :: others) item
  | unanswered : FirstAnswered asked [] asked

theorem firstAnswered_head? (asked : Item) (answer : List Item) :
    asked.FirstAnswered answer (answer.head?.getD asked) := by
  cases answer with
  | nil => exact .unanswered
  | cons item others => exact .answered item others

/-- The item with its broadcasts in the slot, in their order; or with the broadcast of the slot alone
if it has none there. -/
structure ShownIn (item : Item) (slot : Broadcast) (shown : Item) : Prop where
  same : shown = { item with broadcasts := shown.broadcasts }
  aired : item.HasBroadcast slot →
    shown.broadcasts = item.broadcasts.filter fun own => own.SameSlot slot
  unaired : ¬ item.HasBroadcast slot → shown.broadcasts = [slot]

/-- The item has a broadcast, and none outside the slot. -/
def OnlyIn (item : Item) (slot : Broadcast) : Prop :=
  item.broadcasts ≠ [] ∧ ∀ own ∈ item.broadcasts, own.SameSlot slot

variable {item shown : Item} {slot : Broadcast}

theorem filter_sameSlot_eq_nil :
    (item.broadcasts.filter fun own => own.SameSlot slot) = [] ↔ ¬ item.HasBroadcast slot := by
  simp [HasBroadcast]

theorem restrictedTo_shownIn (item : Item) (slot : Broadcast) :
    item.ShownIn slot (item.restrictedTo slot) := by
  refine ⟨item.restrictedTo_eq slot, fun aired => ?_, fun unaired => ?_⟩
  · unfold restrictedTo
    split
    · next none => exact absurd aired (filter_sameSlot_eq_nil.mp none)
    · rfl
  · rw [restrictedTo, filter_sameSlot_eq_nil.mpr unaired]

theorem ShownIn.onlyIn (restricted : item.ShownIn slot shown) : shown.OnlyIn slot := by
  unfold OnlyIn
  by_cases has : item.HasBroadcast slot
  · rw [restricted.aired has]
    refine ⟨fun none => filter_sameSlot_eq_nil.mp none has, fun own member => ?_⟩
    exact of_decide_eq_true (List.mem_filter.mp member).2
  · rw [restricted.unaired has]
    refine ⟨List.cons_ne_nil _ _, fun own member => ?_⟩
    rw [List.mem_singleton.mp member]
    exact .refl slot

end Item

/-- The entry after the answer for its item: the broadcast is the same, the item is the first that
was answered, in the slot of the entry. -/
structure Entry.MergesTo (e : Entry) (answer : List Item) (shown : Entry) : Prop where
  broadcast : shown.broadcast = e.broadcast
  item : ∃ item, e.item.FirstAnswered answer item ∧ item.ShownIn e.broadcast shown.item

theorem Entry.mergesTo_merged (e : Entry) (merged : MergedItems) :
    e.MergesTo (merged e.item.id) (e.merged merged) :=
  ⟨rfl, _, e.item.firstAnswered_head? _, Item.restrictedTo_shownIn _ _⟩

theorem Entry.MergesTo.onlyIn {e shown : Entry} {answer : List Item}
    (merges : e.MergesTo answer shown) : shown.item.OnlyIn shown.broadcast := by
  obtain ⟨item, -, restricted⟩ := merges.item
  rw [merges.broadcast]
  exact restricted.onlyIn

theorem ChannelSchedule.entriesRelated_merged (s : ChannelSchedule) (merged : MergedItems) :
    EntriesRelated (fun e shown => e.MergesTo (merged e.item.id) shown) s (s.merged merged) := by
  refine ⟨rfl, rfl, List.forall₂_map_right_iff.mpr (List.forall₂_same.mpr fun e _ => ?_)⟩
  exact e.mergesTo_merged merged

/-- The identifiers of all items that the schedules show, each once and in increasing order. -/
structure ScheduledIds (schedules : List ChannelSchedule) (ids : List ItemId) : Prop where
  increasing : ids.Pairwise fun a b => a.value < b.value
  mem_iff : ∀ id, id ∈ ids ↔ ∃ s ∈ schedules, ∃ e ∈ s.entries, e.item.id = id

theorem scheduledIds_are (schedules : List ChannelSchedule) :
    ScheduledIds schedules (scheduledIds schedules).entries :=
  ⟨(scheduledIds schedules).ascending, fun _ => mem_scheduledIds⟩

theorem ScheduledIds.unique {schedules : List ChannelSchedule} {ids others : List ItemId}
    (of_ids : ScheduledIds schedules ids) (of_others : ScheduledIds schedules others) :
    ids = others :=
  Register.eq_of_mem_iff of_ids.increasing of_others.increasing fun id =>
    (of_ids.mem_iff id).trans (of_others.mem_iff id).symm

namespace PlainExecutor

/-- A run that asks once for a layer, for what these identifiers merge into, and gives every entry of
the schedules what was answered for its own item. -/
structure AsksOnce (x : PlainExecutor) (q : Query) (layer : Layer) (ids : List ItemId)
    (schedules : List ChannelSchedule) (r : Run (List ChannelSchedule)) : Prop where
  calls : r.calls = [.equivalents ids q.context.sources]
  failing : ∀ fault,
    (x.equivalents layer ids q.context.sources).Fails .equivalents x.scheduleLimit fault →
      r.outcome = .error fault
  answered : ∀ merged,
    (x.equivalents layer ids q.context.sources).Delivers x.scheduleLimit merged →
    ∃ prepared, r.outcome = .ok prepared ∧
      List.Forall₂
        (ChannelSchedule.EntriesRelated fun e shown => e.MergesTo (merged e.item.id) shown)
        schedules prepared

/-- A run in which the equivalents of the schedules of a layer are merged. -/
structure MergesPerSlot (x : PlainExecutor) (q : Query) (layer : Layer)
    (schedules : List ChannelSchedule) (r : Run (List ChannelSchedule)) : Prop where
  bare : (∀ s ∈ schedules, s.entries = []) → r = .ofOutcome (.ok schedules)
  shown : (∃ s ∈ schedules, s.entries ≠ []) →
    ∃ ids, ScheduledIds schedules ids ∧ x.AsksOnce q layer ids schedules r
  in_slot : ∀ prepared, r.outcome = .ok prepared →
    ∀ s ∈ prepared, ∀ e ∈ s.entries, e.item.OnlyIn e.broadcast

variable {x : PlainExecutor} {q : Query} {layer : Layer} {schedules : List ChannelSchedule}

theorem asksOnce_mergeEquivalents (shown : ∃ s ∈ schedules, s.entries ≠ []) :
    x.AsksOnce q layer (scheduledIds schedules).entries schedules
      (x.mergeEquivalents q layer schedules) := by
  rw [mergeEquivalents_of_shown shown]
  constructor
  · exact (Run.calls_bind_pure _ _).trans (Run.calls_ask _ _ _ _)
  · intro fault fails
    exact Run.bind_eq_error.mpr (.inl (Run.ask_eq_error.mpr fails))
  · intro merged delivers
    refine ⟨_, Run.bind_eq_ok.mpr ⟨merged, Run.ask_eq_ok.mpr delivers, rfl⟩, ?_⟩
    refine List.forall₂_map_right_iff.mpr (List.forall₂_same.mpr fun s _ => ?_)
    exact s.entriesRelated_merged merged

theorem onlyIn_of_mergeEquivalents {prepared : List ChannelSchedule}
    (ok : (x.mergeEquivalents q layer schedules).outcome = .ok prepared) :
    ∀ s ∈ prepared, ∀ e ∈ s.entries, e.item.OnlyIn e.broadcast := by
  intro s member e shown
  by_cases bare : ∀ s ∈ schedules, s.entries = []
  · rw [mergeEquivalents_of_bare bare] at ok
    cases ok
    rw [bare s member] at shown
    cases shown
  · push Not at bare
    rw [mergeEquivalents_of_shown bare] at ok
    obtain ⟨merged, -, made⟩ := Run.bind_eq_ok.mp ok
    cases made
    obtain ⟨t, -, rfl⟩ := List.mem_map.mp member
    obtain ⟨e, -, rfl⟩ := List.mem_map.mp shown
    exact (e.mergesTo_merged merged).onlyIn

theorem mergesPerSlot_mergeEquivalents (x : PlainExecutor) (q : Query) (layer : Layer)
    (schedules : List ChannelSchedule) :
    x.MergesPerSlot q layer schedules (x.mergeEquivalents q layer schedules) where
  bare := mergeEquivalents_of_bare
  shown shown := ⟨_, scheduledIds_are schedules, asksOnce_mergeEquivalents shown⟩
  in_slot _ := onlyIn_of_mergeEquivalents

end PlainExecutor

/-- Merging is slot by slot, whatever the schedules are and whatever is answered: one question for
all of them, none if there is nothing to ask, and for every entry what was answered for its item. -/
theorem merging_per_slot (x : PlainExecutor) (q : Query) :
    (∀ layer schedules,
      x.MergesPerSlot q layer schedules (x.mergeEquivalents q layer schedules)) ∧
      (q.context.MergesEquivalents → ∀ layer, ∀ schedule : Schedule,
        x.MergesPerSlot q layer (inRequestedOrder q.requestedIds schedule.channelSchedules)
          (x.prepare q layer schedule)) := by
  refine ⟨x.mergesPerSlot_mergeEquivalents q, fun merges layer schedule => ?_⟩
  rw [PlainExecutor.prepare_of_merging merges]
  exact x.mergesPerSlot_mergeEquivalents q layer _

namespace Sample

/-- The film merges into that of `bbc`, or else into another; nothing else merges. -/
def filmOnly : MergedItems := fun id =>
  if id = ⟨2⟩ then [bbcFilm, { bbcFilm with id := ⟨31⟩ }] else []

def mergedFilm : PlainExecutor :=
  let store : SimulatedStore := ⟨listings.catalogue, .instant⟩
  { store.plainExecutor .standard with equivalents := fun _ _ _ => ⟨.zero, .ok filmOnly⟩ }

end Sample

/-- An item that is shown twice is asked about once, and an answer that says nothing of another is
enough. -/
theorem merging_per_slot_film_again :
    let q := Sample.firstChannel ⟨⟨[Sample.bbc, Sample.pa], true⟩, false⟩
    let r := Sample.mergedFilm.prepare q .base Sample.filmAgain
    r.calls = [.equivalents [⟨1⟩, ⟨2⟩] q.context.sources] ∧
      ∃ prepared, r.outcome = .ok prepared ∧
        List.Forall₂
          (ChannelSchedule.EntriesRelated fun e shown =>
            e.MergesTo (Sample.filmOnly e.item.id) shown)
          Sample.filmAgain.channelSchedules prepared ∧
        ∀ s ∈ prepared, ∀ e ∈ s.entries, e.item.OnlyIn e.broadcast := by
  intro q r
  obtain ⟨-, of_prepare⟩ := merging_per_slot Sample.mergedFilm q
  have merges := of_prepare (by decide) .base Sample.filmAgain
  obtain ⟨ids, scheduled, asks⟩ := merges.shown ⟨_, List.mem_cons_self, List.cons_ne_nil _ _⟩
  obtain rfl : ids = [⟨1⟩, ⟨2⟩] := scheduled.unique (scheduledIds_are _)
  obtain ⟨prepared, ok, related⟩ := asks.answered Sample.filmOnly ⟨by decide, rfl⟩
  exact ⟨asks.calls, prepared, ok, related, merges.in_slot prepared ok⟩

end ChannelGuide
