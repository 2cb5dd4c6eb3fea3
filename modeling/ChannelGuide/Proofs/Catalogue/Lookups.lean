import ChannelGuide.Catalogue.Sample
import ChannelGuide.Catalogue.Store
import ChannelGuide.Proofs.Catalogue.Airings
import ChannelGuide.Proofs.Equivalence.Selection
import ChannelGuide.Proofs.Schedule.AiringOrder

/-!
What a catalogue finds when it is asked what a publisher has on a channel. A lookup for an interval
finds every broadcast that is on at some instant of it, and every follow-on that stands at one. So a
window can be cut in two anywhere: nothing is lost, and only what is on over the cut is found twice.
A lookup for a number of broadcasts finds the first of those that start in such a window.
-/
namespace ChannelGuide

/-- A broadcast of an item, and its place among the item's broadcasts. An item may have the same
broadcast at two places. -/
structure Occurrence where
  item : Item
  place : Nat
  broadcast : Broadcast
deriving DecidableEq

namespace Occurrence

def entry (o : Occurrence) : Entry := ⟨o.item, o.broadcast⟩

/-- By the number of the item, then by the place in it. -/
def ListedBefore (o p : Occurrence) : Prop :=
  o.item.number < p.item.number ∨ o.item.number = p.item.number ∧ o.place < p.place

/-- By start, then by end; and at the same times as they are listed. -/
def Before (o p : Occurrence) : Prop :=
  o.entry.start < p.entry.start ∨ o.entry.start = p.entry.start ∧
    (o.entry.stop < p.entry.stop ∨ o.entry.stop = p.entry.stop ∧ o.ListedBefore p)

theorem ListedBefore.irrefl (o : Occurrence) : ¬ o.ListedBefore o := by
  rintro (lower | ⟨-, lower⟩)
  · exact UInt64.lt_irrefl _ lower
  · exact Nat.lt_irrefl _ lower

theorem Before.irrefl (o : Occurrence) : ¬ o.Before o := by
  rintro (earlier | ⟨-, shorter | ⟨-, listed⟩⟩)
  · exact earlier.ne rfl
  · exact shorter.ne rfl
  · exact ListedBefore.irrefl o listed

theorem before_of_keepsTies {o p : Occurrence}
    (kept : KeepsTies Occurrence.broadcast ListedBefore o p) : o.Before p := by
  obtain ⟨earlier | ⟨start, stop⟩, tie⟩ := kept
  · exact .inl earlier
  · rcases lt_or_eq_of_le stop with shorter | same
    · exact .inr ⟨start, .inl shorter⟩
    · exact .inr ⟨start, .inr ⟨same, tie (.inr ⟨start.symm, same.ge⟩)⟩⟩

end Occurrence

namespace Entry
variable {e : Entry}

/-- The entry is on at an instant of the interval, or it is a follow-on at one. -/
def ShownIn (i : Interval) (e : Entry) : Prop :=
  (∃ t, i.Contains t ∧ e.OnAt t) ∨ e.broadcast.IsFollowOn ∧ i.Contains e.start

theorem airsWithin_iff_shownIn {i : Interval} (open_window : i.start < i.stop)
    (upright : e.start ≤ e.stop) : e.broadcast.AirsWithin i ↔ e.ShownIn i := by
  rw [Broadcast.airsWithin_iff upright]
  constructor
  · rintro ⟨before_end, running | ⟨followOn, from_start⟩⟩
    · by_cases followOn : e.broadcast.IsFollowOn
      · exact .inr ⟨followOn, running.le.trans followOn.ge, before_end⟩
      · -- the later of the two starts lies in both
        have airs := airs_of_not_isFollowOn upright followOn
        refine .inl ⟨max i.start e.start, ⟨le_max_left _ _, ?_⟩, le_max_right _ _, ?_⟩
        · exact max_lt open_window before_end
        · exact max_lt running airs
    · exact .inr ⟨followOn, from_start, before_end⟩
  · rintro (⟨t, ⟨from_start, before_end⟩, started, running⟩ | ⟨followOn, from_start, before_end⟩)
    · exact ⟨started.trans_lt before_end, .inl (from_start.trans_lt running)⟩
    · exact ⟨before_end, .inr ⟨followOn, from_start⟩⟩

section Split
variable {a b c : Instant} (ab : a < b) (bc : b < c)

theorem shownIn_split_iff :
    e.ShownIn ⟨a, c, (ab.trans bc).le⟩ ↔ e.ShownIn ⟨a, b, ab.le⟩ ∨ e.ShownIn ⟨b, c, bc.le⟩ := by
  -- an instant of the window is before the cut, or it is not
  have cut (t : Instant) : a ≤ t ∧ t < c ↔ a ≤ t ∧ t < b ∨ b ≤ t ∧ t < c := by
    constructor
    · rintro ⟨from_start, before_end⟩
      rcases lt_or_ge t b with first | second
      · exact .inl ⟨from_start, first⟩
      · exact .inr ⟨second, before_end⟩
    · rintro (⟨from_start, first⟩ | ⟨second, before_end⟩)
      · exact ⟨from_start, first.trans bc⟩
      · exact ⟨ab.le.trans second, before_end⟩
  simp only [ShownIn, Interval.Contains, cut, or_and_right, and_or_left, exists_or]
  exact or_or_or_comm

theorem shownIn_both_iff :
    e.ShownIn ⟨a, b, ab.le⟩ ∧ e.ShownIn ⟨b, c, bc.le⟩ ↔ e.start < b ∧ b < e.stop := by
  have never_on (followOn : e.broadcast.IsFollowOn) (t : Instant) : ¬ e.OnAt t :=
    fun ⟨started, running⟩ => absurd (started.trans_lt running) (followOn.ge.not_gt)
  constructor
  · rintro ⟨⟨t, ⟨-, first⟩, started, on⟩ | ⟨followOn, -, first⟩,
      ⟨u, ⟨second, -⟩, on_too, running⟩ | ⟨followOn_too, second, -⟩⟩
    · exact ⟨started.trans_lt first, second.trans_lt running⟩
    · exact absurd ⟨started, on⟩ (never_on followOn_too t)
    · exact absurd ⟨on_too, running⟩ (never_on followOn u)
    · exact absurd first second.not_gt
  · rintro ⟨before, after⟩
    refine ⟨.inl ⟨max a e.start, ⟨le_max_left _ _, max_lt ab before⟩, le_max_right _ _, ?_⟩,
      .inl ⟨b, ⟨le_rfl, bc⟩, before.le, after⟩⟩
    exact (max_lt ab before).trans after

end Split
end Entry

namespace Catalogue
variable {c : Catalogue} {publisher : Publisher} {channel : ChannelId} {i : Interval}

/-- The catalogue has the item, the item the broadcast at this place, and it is one of the publisher
on the channel. -/
structure Occurs (c : Catalogue) (publisher : Publisher) (channel : ChannelId) (o : Occurrence) :
    Prop where
  known : o.item ∈ c.items.entries
  own : o.item.broadcasts[o.place]? = some o.broadcast
  listedFor : o.entry.ListedFor publisher channel

/-- These are the occurrences of the publisher on the channel that are shown in the interval, every
one once, and in order. -/
structure Lookup (c : Catalogue) (publisher : Publisher) (channel : ChannelId) (i : Interval)
    (found : List Occurrence) : Prop where
  mem_iff : ∀ o, o ∈ found ↔ c.Occurs publisher channel o ∧ o.entry.ShownIn i
  once : found.Nodup
  in_order : found.Pairwise Occurrence.Before

/-- Every broadcast that the catalogue knows, with its place. -/
def occurrences (c : Catalogue) : List Occurrence :=
  c.items.entries.flatMap fun item => item.broadcasts.zipIdx.map fun p => ⟨item, p.2, p.1⟩

theorem mem_occurrences {o : Occurrence} :
    o ∈ c.occurrences ↔
      o.item ∈ c.items.entries ∧ o.item.broadcasts[o.place]? = some o.broadcast := by
  simp only [occurrences, List.mem_flatMap, List.mem_map, List.mem_zipIdx_iff_getElem?]
  constructor
  · rintro ⟨item, known, p, own, rfl⟩
    exact ⟨known, own⟩
  · rintro ⟨known, own⟩
    exact ⟨o.item, known, (o.broadcast, o.place), own, rfl⟩

theorem map_entry_occurrences (c : Catalogue) : c.occurrences.map Occurrence.entry = c.listed := by
  rw [occurrences, listed, List.map_flatMap]
  refine congrArg (fun f => c.items.entries.flatMap f) (funext fun item => ?_)
  rw [List.map_map]
  change (item.broadcasts.zipIdx.map fun p => Entry.mk item p.1) = _
  conv_rhs => rw [← List.zipIdx_map_fst 0 item.broadcasts, List.map_map]
  rfl

theorem pairwise_occurrences (c : Catalogue) : c.occurrences.Pairwise Occurrence.ListedBefore := by
  refine List.pairwise_flatMap.mpr ⟨fun item _ => List.pairwise_map.mpr ?_, ?_⟩
  · have places : (item.broadcasts.zipIdx.map Prod.snd).Pairwise (· < ·) := by
      rw [List.zipIdx_map_snd]
      exact List.pairwise_lt_range'
    exact (List.pairwise_map.mp places).imp fun later => .inr ⟨rfl, later⟩
  · refine c.items.ascending.imp fun lower o ho p hp => .inl ?_
    obtain ⟨-, -, rfl⟩ := List.mem_map.mp ho
    obtain ⟨-, -, rfl⟩ := List.mem_map.mp hp
    exact lower

/-- The occurrences of the publisher on the channel that are found in the interval. -/
def occurrencesIn (c : Catalogue) (publisher : Publisher) (channel : ChannelId) (i : Interval) :
    List Occurrence :=
  inAiringOrder Occurrence.broadcast
    (c.occurrences.filter fun o => o.entry.ListedFor publisher channel ∧ o.broadcast.AirsWithin i)

theorem map_entry_occurrencesIn (c : Catalogue) (publisher : Publisher) (channel : ChannelId)
    (i : Interval) : (c.occurrencesIn publisher channel i).map Occurrence.entry =
      c.airings channel publisher (Broadcast.AirsWithin i) := by
  rw [airings_eq, ← map_entry_occurrences, List.filter_map, inAiringOrder_map]
  rfl

theorem lookup_occurrencesIn (upright : ∀ e ∈ c.listed, e.start ≤ e.stop)
    (open_window : i.start < i.stop) (publisher : Publisher) (channel : ChannelId) :
    c.Lookup publisher channel i (c.occurrencesIn publisher channel i) := by
  have in_order : (c.occurrencesIn publisher channel i).Pairwise Occurrence.Before :=
    (keepsTies_inAiringOrder (c.pairwise_occurrences.filter _)).imp Occurrence.before_of_keepsTies
  refine ⟨fun o => ?_, in_order.imp fun before same => ?_, in_order⟩
  · rw [occurrencesIn, (inAiringOrder_perm Occurrence.broadcast _).mem_iff, List.mem_filter,
      mem_occurrences, decide_eq_true_eq]
    constructor
    · rintro ⟨⟨known, own⟩, listed_for, airs⟩
      refine ⟨⟨known, own, listed_for⟩, ?_⟩
      have listed : o.entry ∈ c.listed := mem_listed.mpr ⟨known, List.mem_of_getElem? own⟩
      exact (Entry.airsWithin_iff_shownIn open_window (upright _ listed)).mp airs
    · rintro ⟨⟨known, own, listed_for⟩, shown⟩
      refine ⟨⟨known, own⟩, listed_for, ?_⟩
      have listed : o.entry ∈ c.listed := mem_listed.mpr ⟨known, List.mem_of_getElem? own⟩
      exact (Entry.airsWithin_iff_shownIn open_window (upright _ listed)).mpr shown
  · subst same
    exact Occurrence.Before.irrefl _ before

section Filtered
variable {Airs Airs' kind : Broadcast → Prop} [DecidablePred Airs] [DecidablePred Airs']
  [DecidablePred kind]

/-- The airings of a kind are those that are found when that kind is asked for too. -/
theorem filter_airings : (c.airings channel publisher Airs).filter (fun e => kind e.broadcast) =
    c.airings channel publisher fun b => Airs b ∧ kind b := by
  rw [airings_eq, airings_eq, filter_inAiringOrder, List.filter_filter]
  congr 1
  refine List.filter_congr fun e _ => ?_
  rw [← Bool.decide_and, decide_eq_decide, and_comm, and_assoc]

theorem airings_congr (same : ∀ e ∈ c.listed, Airs e.broadcast ↔ Airs' e.broadcast) :
    c.airings channel publisher Airs = c.airings channel publisher Airs' := by
  rw [airings_eq, airings_eq]
  congr 1
  refine List.filter_congr fun e listed => decide_eq_decide.mpr ?_
  rw [same e listed]

end Filtered

section Windows
variable {start : Instant} {n : UInt64} {named : Channel}

/-- The first broadcasts that the publisher has on the channel from an instant on. -/
def countedFor (c : Catalogue) (start : Instant) (n : UInt64) (publisher : Publisher)
    (channel : Channel) : List Entry :=
  (c.airings channel.id publisher (Broadcast.StartsFrom start)).take n.toNat

theorem mem_countedFor {e : Entry} (counted : e ∈ c.countedFor start n publisher named) :
    e ∈ c.listed ∧ start ≤ e.start := by
  obtain ⟨listed, -, from_start⟩ := mem_airings.mp (List.mem_of_mem_take counted)
  exact ⟨listed, from_start⟩

/-- Opening airings to their equivalents leaves them in order, so the first are counted. -/
theorem slots_of_count (sources : List Publisher) :
    (c.channelSlotsFor (.count start n) publisher sources named).slots =
      (c.countedFor start n publisher named).map (c.openSlot sources) := by
  have in_order : inAiringOrder Slot.broadcast
      ((c.airings named.id publisher (Broadcast.StartsFrom start)).map (c.openSlot sources)) =
        (c.airings named.id publisher (Broadcast.StartsFrom start)).map (c.openSlot sources) :=
    inAiringOrder_eq_self (List.pairwise_map.mpr (pairwise_inAiringOrder Entry.broadcast _))
  simp only [channelSlotsFor, ChannelSlots.limited]
  rw [in_order, countedFor, List.map_take]

/-- What starts in a window is on in it. -/
theorem airsWithin_and_from_iff {e : Entry} (upright : e.start ≤ e.stop) :
    e.broadcast.AirsWithin i ∧ i.start ≤ e.start ↔
      e.broadcast.StartsFrom i.start ∧ e.start < i.stop := by
  rw [Broadcast.airsWithin_iff upright]
  constructor
  · rintro ⟨⟨before_end, -⟩, from_start⟩
    exact ⟨from_start, before_end⟩
  · rintro ⟨from_start, before_end⟩
    refine ⟨⟨before_end, ?_⟩, from_start⟩
    by_cases followOn : e.broadcast.IsFollowOn
    · exact .inr ⟨followOn, from_start⟩
    · exact .inl (lt_of_le_of_lt from_start (Entry.airs_of_not_isFollowOn upright followOn))

/-- What is counted and starts before an end are the first broadcasts that start in the window. -/
theorem countedFor_before_end (upright : ∀ e ∈ c.listed, e.start ≤ e.stop) (i : Interval)
    (n : UInt64) (publisher : Publisher) (channel : Channel) :
    (c.countedFor i.start n publisher channel).filter (fun e => e.start < i.stop) =
      ((c.windowFor i publisher channel).entries.filter fun e => i.start ≤ e.start).take
        n.toNat := by
  have in_order : (c.airings channel.id publisher (Broadcast.StartsFrom i.start)).Pairwise
      fun a b => decide (b.start < i.stop) → decide (a.start < i.stop) :=
    (pairwise_inAiringOrder Entry.broadcast _).imp fun earlier before_end =>
      decide_eq_true (earlier.start_le.trans_lt (of_decide_eq_true before_end))
  have same : c.airings channel.id publisher
      (fun b => b.StartsFrom i.start ∧ b.start < i.stop) =
        c.airings channel.id publisher fun b => b.AirsWithin i ∧ i.start ≤ b.start :=
    airings_congr fun e listed => (airsWithin_and_from_iff (upright e listed)).symm
  rw [countedFor, filter_take in_order]
  exact congrArg (List.take n.toNat) ((filter_airings.trans same).trans filter_airings.symm)

end Windows
end Catalogue

section Sources
variable {store : SimulatedStore}

theorem SimulatedStore.outcome_scheduleSource (available : store.profile.failure = none)
    (channels : List Channel) (i : Interval) (publisher : Publisher) :
    (store.scheduleSource channels i publisher).outcome =
      .ok (store.catalogue.scheduleFor channels i publisher) :=
  congrArg Reply.outcome (ResponseProfile.respond_of_available available _ _)

theorem SimulatedStore.outcome_slotSource (available : store.profile.failure = none)
    (channels : List Channel) (window : Window) (publisher : Publisher)
    (sources : List Publisher) :
    (store.slotSource channels window publisher sources).outcome =
      .ok (store.catalogue.slotsFor channels window publisher sources) :=
  congrArg Reply.outcome (ResponseProfile.respond_of_available available _ _)

/-- What both sources answer for an interval are the occurrences of the publisher that are shown in
it, on each channel every one once and in order. Of a window that is cut in two, an occurrence is
found in the one part or in the other, and in both only if it is on over the cut. -/
theorem lookups_exact_and_split (available : store.profile.failure = none)
    (upright : ∀ e ∈ store.catalogue.listed, e.start ≤ e.stop) (publisher : Publisher) :
    ∃ found : Channel → Interval → List Occurrence,
      (∀ i : Interval, i.start < i.stop →
        (∀ channel, store.catalogue.Lookup publisher channel.id i (found channel i)) ∧
        (∀ channels, (store.scheduleSource channels i publisher).outcome = .ok
          { channelSchedules := channels.map fun channel =>
              { channel, interval := i, entries := (found channel i).map Occurrence.entry }
            interval := i }) ∧
        ∀ channels sources,
          (store.slotSource channels (.interval i) publisher sources).outcome = .ok
          { channelSlots := channels.map fun channel =>
              { channel, interval := i
                slots := (found channel i).map fun o => store.catalogue.openSlot sources o.entry }
            interval := i }) ∧
      ∀ (channel : Channel) (o : Occurrence) {a b c : Instant} (ab : a < b) (bc : b < c),
        (o ∈ found channel ⟨a, c, (ab.trans bc).le⟩ ↔
          o ∈ found channel ⟨a, b, ab.le⟩ ∨ o ∈ found channel ⟨b, c, bc.le⟩) ∧
        (store.catalogue.Occurs publisher channel.id o →
          (o ∈ found channel ⟨a, b, ab.le⟩ ∧ o ∈ found channel ⟨b, c, bc.le⟩ ↔
            o.entry.start < b ∧ b < o.entry.stop)) := by
  let found (channel : Channel) := store.catalogue.occurrencesIn publisher channel.id
  have lookup (channel : Channel) {i : Interval} (open_window : i.start < i.stop) :
      store.catalogue.Lookup publisher channel.id i (found channel i) :=
    Catalogue.lookup_occurrencesIn upright open_window publisher channel.id
  have entries (channel : Channel) (i : Interval) :
      (found channel i).map Occurrence.entry =
        store.catalogue.airings channel.id publisher (Broadcast.AirsWithin i) :=
    store.catalogue.map_entry_occurrencesIn publisher channel.id i
  refine ⟨found, fun i open_window => ⟨fun channel => lookup channel open_window, ?_, ?_⟩, ?_⟩
  · intro channels
    simp only [SimulatedStore.outcome_scheduleSource available, Catalogue.scheduleFor, entries]
  · intro channels sources
    have opened (channel : Channel) :
        (found channel i).map (fun o => store.catalogue.openSlot sources o.entry) =
          (store.catalogue.airings channel.id publisher (Broadcast.AirsWithin i)).map
            (store.catalogue.openSlot sources) := by
      rw [← entries, List.map_map]
      rfl
    simp only [SimulatedStore.outcome_slotSource available, Catalogue.slotsFor, opened]
    rfl
  · intro channel o a b c ab bc
    rw [(lookup channel (ab.trans bc)).mem_iff, (lookup channel ab).mem_iff,
      (lookup channel bc).mem_iff, Entry.shownIn_split_iff ab bc, ← Entry.shownIn_both_iff ab bc]
    refine ⟨and_or_left, fun occurs => ?_⟩
    simp only [occurs, true_and]

/-- With a cut at a follow-on, which is found after it only. -/
theorem lookups_exact_and_split_at_followOn :
    let store : SimulatedStore := ⟨Sample.listings.catalogue, .instant⟩
    let nine := Sample.clock 9 0
    let ten := Sample.clock 10 0
    let noon := Sample.clock 12 0
    (store.profile.failure = none ∧ ∀ e ∈ store.catalogue.listed, e.start ≤ e.stop) ∧
    ∃ first second,
      store.catalogue.Lookup Sample.pa ⟨1⟩ ⟨nine, ten, by decide⟩ first ∧
      store.catalogue.Lookup Sample.pa ⟨1⟩ ⟨ten, noon, by decide⟩ second ∧
      ∃ o ∈ second, o.broadcast = Sample.airing 1 ten ten ∧ o ∉ first := by
  intro store nine ten noon
  have available : store.profile.failure = none := rfl
  have upright : ∀ e ∈ store.catalogue.listed, e.start ≤ e.stop := by decide
  have before_ten : nine < ten := by decide
  have before_noon : ten < noon := by decide
  obtain ⟨found, answered, split⟩ := lookups_exact_and_split available upright Sample.pa
  let channel := Channel.named ⟨1⟩ ""
  have first := (answered ⟨nine, ten, by decide⟩ before_ten).1 channel
  have second := (answered ⟨ten, noon, by decide⟩ before_noon).1 channel
  let breakfast : Item :=
    ⟨⟨10⟩, Sample.pa, "Breakfast", [Sample.airing 1 nine ten, Sample.airing 1 ten ten]⟩
  let o : Occurrence := ⟨breakfast, 1, Sample.airing 1 ten ten⟩
  have occurs : store.catalogue.Occurs Sample.pa ⟨1⟩ o := ⟨by decide, rfl, rfl, rfl⟩
  have after : o ∈ found channel ⟨ten, noon, by decide⟩ :=
    (second.mem_iff o).mpr ⟨occurs, .inr ⟨rfl, by decide⟩⟩
  refine ⟨⟨available, upright⟩, _, _, first, second, o, after, rfl, fun before => ?_⟩
  have runs_over := ((split channel o before_ten before_noon).2 occurs).mp ⟨before, after⟩
  exact absurd runs_over.1 (by decide)

/-- On each channel, what is answered for a number of broadcasts and starts before an end are the
first slots that are answered for the window up to that end and start in it. -/
theorem count_agrees_with_end (available : store.profile.failure = none)
    (upright : ∀ e ∈ store.catalogue.listed, e.start ≤ e.stop) (channels : List Channel)
    (publisher : Publisher) (sources : List Publisher) (i : Interval) (n : UInt64) :
    ∃ counted ended,
      (store.slotSource channels (.count i.start n) publisher sources).outcome = .ok counted ∧
      (store.slotSource channels (.interval i) publisher sources).outcome = .ok ended ∧
      counted.channelSlots.map ChannelSlots.channel = channels ∧
      ended.channelSlots.map ChannelSlots.channel = channels ∧
      List.Forall₂ (fun s t => s.slots.filter (fun slot => slot.broadcast.start < i.stop) =
          (t.slots.filter fun slot => i.start ≤ slot.broadcast.start).take n.toNat)
        counted.channelSlots ended.channelSlots := by
  have own (window : Window) : (channels.map
      (store.catalogue.channelSlotsFor window publisher sources)).map ChannelSlots.channel =
        channels := by
    rw [List.map_map]
    refine (List.map_congr_left fun channel _ => ?_).trans (List.map_id channels)
    exact store.catalogue.channel_channelSlotsFor window publisher sources channel
  refine ⟨_, _, SimulatedStore.outcome_slotSource available _ _ _ _,
    SimulatedStore.outcome_slotSource available _ _ _ _, ?_⟩
  rw [Catalogue.channelSlots_slotsFor, Catalogue.channelSlots_slotsFor]
  refine ⟨own _, own _, (forall₂_map_iff).mpr fun channel _ => ?_⟩
  have counted := Catalogue.countedFor_before_end upright i n publisher channel
  rw [Catalogue.slots_of_count, Catalogue.channelSlotsFor, List.filter_map, List.filter_map,
    ← List.map_take]
  exact congrArg (List.map (store.catalogue.openSlot sources)) counted

/-- Where a follow-on is the last that is counted, and another broadcast starts with it. -/
theorem count_agrees_with_end_at_followOn :
    let store : SimulatedStore := ⟨Sample.listings.catalogue, .instant⟩
    let channel := Channel.named ⟨1⟩ "bbcone"
    let morning : Interval := ⟨Sample.clock 9 0, Sample.clock 10 30, by decide⟩
    (store.profile.failure = none ∧ ∀ e ∈ store.catalogue.listed, e.start ≤ e.stop) ∧
    ∃ s t, s.slots.map (fun slot => slot.broadcast.start) =
        [Sample.clock 9 0, Sample.clock 10 0] ∧
      t.slots.map (fun slot => slot.broadcast.start) =
        [Sample.clock 9 0, Sample.clock 10 0, Sample.clock 10 0] ∧
      (store.slotSource [channel] (.count morning.start 2) Sample.pa [Sample.pa]).outcome =
        .ok ⟨[s], ⟨Sample.clock 9 0, Sample.clock 10 0, by decide⟩⟩ ∧
      (store.slotSource [channel] (.interval morning) Sample.pa [Sample.pa]).outcome =
        .ok ⟨[t], morning⟩ ∧
      s.slots.filter (fun slot => slot.broadcast.start < morning.stop) =
        (t.slots.filter fun slot => morning.start ≤ slot.broadcast.start).take 2 := by
  intro store channel morning
  have available : store.profile.failure = none := rfl
  have upright : ∀ e ∈ store.catalogue.listed, e.start ≤ e.stop := by decide
  refine ⟨⟨available, upright⟩, _, _, ?_, ?_, rfl, rfl, ?_⟩
  · rfl
  · rfl
  · obtain ⟨counted, ended, answered, answered_too, -, -, agree⟩ :=
      count_agrees_with_end available upright [channel] Sample.pa [Sample.pa] morning 2
    cases answered
    cases answered_too
    exact (List.forall₂_cons.mp agree).1

end Sources
end ChannelGuide
