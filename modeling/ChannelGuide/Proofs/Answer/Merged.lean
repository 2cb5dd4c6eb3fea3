import ChannelGuide.Proofs.Answer.AtOnce
import ChannelGuide.Proofs.Answer.Readable

/-!
Answers in which equivalents are merged. For every airing of a publisher both executors choose among
the same items, the readable equivalents of the one that was scheduled. The one fills the slot with
its choice and the broadcast that this has for the slot; the other keeps the broadcast, and knows
which item was scheduled when it chooses.
-/
namespace ChannelGuide

/-- The schedules are of one channel and interval, and their entries stand in the relation one by
one. -/
structure ChannelSchedule.EntriesRelated (R : Entry → Entry → Prop) (s t : ChannelSchedule) :
    Prop where
  channel : s.channel = t.channel
  interval : s.interval = t.interval
  entries : List.Forall₂ R s.entries t.entries

/-- Answers of one kind, whose schedules stand in the relation one by one. -/
inductive QueryResult.Related (R : ChannelSchedule → ChannelSchedule → Prop) :
    QueryResult → QueryResult → Prop
  | single {s t : ChannelSchedule} : R s t → Related R (.single s) (.single t)
  | list {schedules others : List ChannelSchedule} : List.Forall₂ R schedules others →
      Related R (.list schedules) (.list others)

/-- Answers of one kind, for the same channels and intervals, whose entries stand in the relation
one by one. -/
abbrev QueryResult.EntryByEntry (R : Entry → Entry → Prop) : QueryResult → QueryResult → Prop :=
  Related (ChannelSchedule.EntriesRelated R)

namespace Query
variable {q : Query} {channels : List Channel}

theorem exists_result (requested : channels.map Channel.id = q.requestedIds)
    (shown shown' : Channel → ChannelSchedule) (R : ChannelSchedule → ChannelSchedule → Prop) :
    ∃ r r', q.result (channels.map shown) = .ok r ∧ q.result (channels.map shown') = .ok r' ∧
      (QueryResult.Related R r r' ↔ ∀ channel ∈ channels, R (shown channel) (shown' channel)) := by
  unfold result
  unfold requestedIds at requested
  cases scope : q.scope with
  | single id =>
      rw [scope] at requested
      obtain ⟨channel, rfl, -⟩ := List.map_eq_singleton_iff.mp requested
      refine ⟨_, _, rfl, rfl, ?_⟩
      rw [List.forall_mem_singleton]
      refine ⟨fun related => ?_, .single⟩
      cases related with
      | single related => exact related
  | multi ids =>
      refine ⟨_, _, rfl, rfl, ?_⟩
      rw [← forall₂_map_iff]
      refine ⟨fun related => ?_, .list⟩
      cases related with
      | list related => exact related

/-- What is shown makes no difference to whether a query is answered. Where it is, the answers are
related exactly if what is shown on each channel is. -/
theorem answerEach_cases (q : Query) (c : Catalogue) (longest : Span)
    (shown shown' : Channel → ChannelSchedule) (R : ChannelSchedule → ChannelSchedule → Prop) :
    (∃ fault, q.answerEach c longest shown = .error fault ∧
        q.answerEach c longest shown' = .error fault) ∨
      q.checkAccess = .ok () ∧ ∃ r r', q.answerEach c longest shown = .ok r ∧
        q.answerEach c longest shown' = .ok r' ∧
        (QueryResult.Related R r r' ↔
          ∀ channel ∈ c.channelsFor q.requestedIds, R (shown channel) (shown' channel)) := by
  cases access : q.checkAccess with
  | error fault =>
      exact .inl ⟨fault, answerEach_of_forbidden access, answerEach_of_forbidden access⟩
  | ok =>
      cases duration : q.checkDuration longest with
      | error fault =>
          exact .inl ⟨_, answerEach_of_too_long access duration,
            answerEach_of_too_long access duration⟩
      | ok =>
          rw [answerEach_of_admitted access duration, answerEach_of_admitted access duration]
          cases known : q.requestedIds.mapM c.known with
          | error fault => exact .inl ⟨fault, rfl, rfl⟩
          | ok channels =>
              have found : c.channelsFor q.requestedIds = channels := by
                rw [Catalogue.mapM_known] at known
                split at known
                · cases known
                · exact Except.ok.inj known
              rw [found]
              exact .inr ⟨rfl, exists_result (ids_of_mapM_known known) shown shown' R⟩

end Query

namespace Catalogue
variable {c : Catalogue} {sources : SourcePrecedence} {item : Item}

/-- The item that fills the slots of an item. -/
def filling (c : Catalogue) (sources : SourcePrecedence) (item : Item) : Item :=
  (mostPreferred? none sources (c.equivalenceSet item sources.enabledSources)).getD item

/-- The item that an item merges into. -/
def mergedInto (c : Catalogue) (sources : SourcePrecedence) (item : Item) : Item :=
  (c.mergedItem sources item.id).head?.getD item

theorem filling_choice (c : Catalogue) (sources : SourcePrecedence) (item : Item) :
    Item.Choice none sources (c.equivalenceSet item sources.enabledSources)
      (c.filling sources item) := by
  obtain ⟨best, chosen⟩ : ∃ best,
      mostPreferred? none sources (c.equivalenceSet item sources.enabledSources) = some best :=
    exists_mostPreferred? (List.cons_ne_nil _ _)
  rw [filling, chosen]
  exact choice_of_mostPreferred? chosen

theorem filling_mem_items (known : item ∈ c.items.entries) (sources : SourcePrecedence) :
    c.filling sources item ∈ c.items.entries := by
  rcases List.mem_cons.mp (c.filling_choice sources item).member with itself | equivalent
  · rw [itself]
    exact known
  · obtain ⟨id, -, found⟩ := List.mem_filterMap.mp (List.mem_filter.mp equivalent).1
    exact ((c.items.get?_eq_some_iff _ _).mp found).1

/-- A known item that may be read is among its readable equivalents, as they are found by number. -/
theorem mem_equivalenceSet (known : c.items.get? item.id.value = some item)
    (readable : item.Readable sources) {other : Item} :
    other ∈ c.equivalenceSet item sources.enabledSources ↔
      other ∈ ((c.equivalentsOf item.id).entries.filterMap fun member =>
        c.items.get? member.value).filter (·.Readable sources) := by
  have itself {id : ItemId} (same : id = item.id) (found : c.items.get? id.value = some other) :
      other = item := Option.some.inj (found.symm.trans (same ▸ known))
  simp only [equivalenceSet, List.mem_cons, List.mem_filter, List.mem_filterMap,
    decide_eq_true_eq]
  constructor
  · rintro (rfl | ⟨⟨id, ⟨member, -⟩, found⟩, enabled⟩)
    · exact ⟨⟨_, c.mem_equivalentsOf _, known⟩, readable⟩
    · exact ⟨⟨id, member, found⟩, enabled⟩
  · rintro ⟨⟨id, member, found⟩, enabled⟩
    by_cases same : id = item.id
    · exact .inl (itself same found)
    · exact .inr ⟨⟨id, ⟨member, same⟩, found⟩, enabled⟩

theorem mergedInto_choice (precedence : sources.precedenceEnabled = true)
    (known : c.items.get? item.id.value = some item) (readable : item.Readable sources) :
    Item.Choice (some item.id) sources (c.equivalenceSet item sources.enabledSources)
      (c.mergedInto sources item) := by
  have among : item ∈ c.equivalenceSet item sources.enabledSources := List.mem_cons_self
  have available := List.ne_nil_of_mem ((mem_equivalenceSet known readable).mp among)
  obtain ⟨best, chosen⟩ : ∃ best, mostPreferred? (some item.id) sources _ = some best :=
    exists_mostPreferred? available
  have merged : c.mergedInto sources item = best := by
    rw [mergedInto, mergedItem_eq precedence known readable, chosen]
    rfl
  rw [merged]
  have choice := choice_of_mostPreferred? chosen
  exact choice.congr fun other => (mem_equivalenceSet known readable).symm

end Catalogue

section Entries
variable {c : Catalogue} {q : Query} {interval : Interval}

/-- The entry that fills the slot of an airing. -/
def Catalogue.filledEntry (c : Catalogue) (matcher : BroadcastMatcher) (sources : SourcePrecedence)
    (e : Entry) : Entry :=
  let item := c.filling sources e.item
  ⟨item, (matcher.find? e.broadcast item.broadcasts).getD e.broadcast⟩

theorem selectSlot_openSlot {context : QueryContext} (merges : context.MergesEquivalents)
    (matcher : BroadcastMatcher) (e : Entry) :
    Selector.selectSlot ⟨precedenceMerger, matcher⟩ context
        (c.openSlot context.sources.enabledSources e) =
      .ok (c.filledEntry matcher context.sources e) := by
  obtain ⟨best, chosen⟩ : ∃ best, mostPreferred? none context.sources
      (c.equivalenceSet e.item context.sources.enabledSources) = some best :=
    exists_mostPreferred? (List.cons_ne_nil _ _)
  have merged : precedenceMerger none (c.openSlot context.sources.enabledSources e).items
      context.sources = [best] := by
    rw [precedenceMerger, if_pos merges.1]
    exact congrArg Option.toList chosen
  have filled : c.filling context.sources e.item = best := by
    rw [Catalogue.filling, chosen]
    rfl
  unfold Selector.selectSlot Selector.mergeSlot
  simp only [if_pos merges, merged, Catalogue.filledEntry, filled]
  rfl

theorem Query.selectedSources_of_merging (merges : q.context.MergesEquivalents) :
    q.selectedSources = q.context.sources.enabledSources := if_pos merges.1

theorem selectedFor_merging (merges : q.context.MergesEquivalents)
    (window : q.window = .interval interval) (matcher : BroadcastMatcher) (publisher : Publisher)
    (channel : Channel) :
    c.selectedFor matcher q publisher channel =
      { c.windowFor interval publisher channel with
        entries := (c.windowFor interval publisher channel).entries.map
          (c.filledEntry matcher q.context.sources) } := by
  have filled (e : Entry) : (Selector.selectSlot ⟨precedenceMerger, matcher⟩ q.context
      (c.openSlot q.context.sources.enabledSources e)).toOption =
        some (c.filledEntry matcher q.context.sources e) := by
    rw [selectSlot_openSlot merges]
    rfl
  unfold Catalogue.selectedFor Selector.filled
  rw [window, Query.selectedSources_of_merging merges]
  simp only [Catalogue.channelSlotsFor, Catalogue.windowFor, List.filterMap_map,
    Function.comp_def, filled, List.filterMap_eq_map']

theorem preparedFor_merging (merges : q.context.MergesEquivalents) (publisher : Publisher)
    (channel : Channel) :
    c.preparedFor q interval publisher channel =
      (c.windowFor interval publisher channel).merged (c.mergedItem q.context.sources) :=
  if_pos merges

/-- What both executors make of a publisher's window is related exactly if what they make of each of
its entries is. -/
theorem entriesRelated_iff (merges : q.context.MergesEquivalents)
    (window : q.window = .interval interval) (matcher : BroadcastMatcher) (publisher : Publisher)
    (channel : Channel) (R : Entry → Entry → Prop) :
    ChannelSchedule.EntriesRelated R (c.selectedFor matcher q publisher channel)
        (c.preparedFor q interval publisher channel) ↔
      ∀ e ∈ (c.windowFor interval publisher channel).entries,
        R (c.filledEntry matcher q.context.sources e)
          (e.merged (c.mergedItem q.context.sources)) := by
  rw [selectedFor_merging merges window, preparedFor_merging merges, ← forall₂_map_iff]
  exact ⟨fun related => related.entries, fun related => ⟨rfl, rfl, related⟩⟩

/-- Both executors refuse a query alike. What they answer is related if what they show on each
channel is. -/
theorem answers_related (window : q.window = .interval interval) {c : Catalogue}
    {settings : Settings} {R : ChannelSchedule → ChannelSchedule → Prop}
    (each : ∀ channel ∈ c.channelsFor q.requestedIds,
      R (q.shows (c.selectedFor settings.matcher q) channel)
        (q.shows (c.preparedFor q interval) channel)) :
    let store : SimulatedStore := ⟨c, .instant⟩
    Run.SameFaultOr (QueryResult.Related R) (store.executeEquivalent settings q).outcome
      (store.executePlain settings q).outcome := by
  intro store
  rw [executeEquivalent_instant, executePlain_instant c settings window]
  rcases q.answerEach_cases c settings.longestQuery (q.shows (c.selectedFor settings.matcher q))
      (q.shows (c.preparedFor q interval)) R with same_fault | ⟨-, r, r', left, right, related⟩
  · exact .inl same_fault
  · exact .inr ⟨r, r', left, right, related.mpr each⟩

/-- Both executors refuse a query alike. What they answer to one without an override is related
exactly if what they make of each airing is. -/
theorem answers_related_cases (merges : q.context.MergesEquivalents)
    (window : q.window = .interval interval) (unlaid : q.overridePublisher = none) (c : Catalogue)
    (settings : Settings) (R : Entry → Entry → Prop) :
    let store : SimulatedStore := ⟨c, .instant⟩
    let filled := (store.executeEquivalent settings q).outcome
    let merged := (store.executePlain settings q).outcome
    (∃ fault, filled = .error fault ∧ merged = .error fault) ∨
      q.checkAccess = .ok () ∧ ∃ r r', filled = .ok r ∧ merged = .ok r' ∧
        (QueryResult.EntryByEntry R r r' ↔
          ∀ channel ∈ c.channelsFor q.requestedIds,
            ∀ e ∈ (c.windowFor interval q.publisher channel).entries,
              R (c.filledEntry settings.matcher q.context.sources e)
                (e.merged (c.mergedItem q.context.sources))) := by
  intro store filled merged
  have shows (offered : Publisher → Channel → ChannelSchedule) (channel : Channel) :
      q.shows offered channel = offered q.publisher channel := by
    rw [Query.shows, unlaid]
  have cases := q.answerEach_cases c settings.longestQuery
    (q.shows (c.selectedFor settings.matcher q)) (q.shows (c.preparedFor q interval))
    (ChannelSchedule.EntriesRelated R)
  simp only [shows, entriesRelated_iff merges window] at cases
  rw [← executeEquivalent_instant, ← executePlain_instant c settings window] at cases
  exact cases

end Entries
end ChannelGuide
