import ChannelGuide.Catalogue.Sample
import ChannelGuide.Proofs.Answer.Counted

/-!
Overrides by a publisher that has nothing on the channels of the query. Nothing is laid over
anything then, but the schedules of the base are put in order on the way. So such an override can
be seen in the answer only where what would be shown without it is out of order; and that takes a
slot that is filled by a broadcast at another time.
-/
namespace ChannelGuide

namespace ChannelSchedule
variable {s v : ChannelSchedule}

/-- The schedule with its entries in order. -/
def sorted (s : ChannelSchedule) : ChannelSchedule := { s with entries := s.sortedEntries }

theorem sorted_eq_self_iff :
    s.sorted = s ↔ s.entries.Pairwise fun a b => a.broadcast.NotAfter b.broadcast := by
  constructor
  · intro same
    have in_order := pairwise_inAiringOrder Entry.broadcast s.entries
    have kept : inAiringOrder Entry.broadcast s.entries = s.entries :=
      congrArg ChannelSchedule.entries same
    rwa [kept] at in_order
  · intro in_order
    exact congrArg (ChannelSchedule.mk s.channel s.interval) (inAiringOrder_eq_self in_order)

theorem laidUnder_of_bare (bare : v.entries = []) (s : ChannelSchedule) :
    s.laidUnder v = s.sorted := by
  have none : v.sortedEntries = [] := v.sortedEntries_eq_nil_iff.mpr bare
  rw [laidUnder, none, if_pos rfl, overlay_no_overrides]
  rfl

end ChannelSchedule

namespace QueryResult
variable {f : ChannelSchedule → ChannelSchedule} {r r' : QueryResult}

/-- The same kind of answer, with something made of its schedules. -/
def map (f : ChannelSchedule → ChannelSchedule) : QueryResult → QueryResult
  | .single s => .single (f s)
  | .list schedules => .list (schedules.map f)

theorem eq_map_of_related (related : Related (fun s t => f s = t) r r') : r.map f = r' := by
  cases related with
  | single same => exact congrArg single same
  | list same =>
      refine congrArg list ?_
      rwa [← List.forall₂_eq_eq_eq, List.forall₂_map_left_iff]

theorem map_eq_self_iff : r.map f = r ↔ ∀ s ∈ r.schedules, f s = s := by
  cases r with
  | single s => simp [map, schedules]
  | list shown =>
      have each := List.map_inj_left (f := f) (g := id) (l := shown)
      rw [List.map_id] at each
      exact (Iff.of_eq (list.injEq _ _)).trans each

end QueryResult

/-- The publisher has no broadcast on any of the channels. -/
def Catalogue.SilentOn (c : Catalogue) (publisher : Publisher) (ids : List ChannelId) : Prop :=
  ∀ e ∈ c.listed, e.item.publisher = publisher → e.broadcast.channel ∉ ids

instance (c : Catalogue) (publisher : Publisher) (ids : List ChannelId) :
    Decidable (c.SilentOn publisher ids) :=
  inferInstanceAs (Decidable (∀ e ∈ _, _ → _))

namespace Query
variable {q : Query} {c : Catalogue} {publisher : Publisher} {longest : Span}

theorem checkAccess_withOverride (unlaid : q.overridePublisher = none)
    (enabled : q.context.sources.ReadEnabled publisher) :
    (q.withOverride publisher).checkAccess = q.checkAccess := by
  by_cases readable : q.context.sources.ReadEnabled q.publisher
  · have access : q.checkAccess = .ok () := by
      rw [checkAccess_eq_ok, unlaid]
      exact ⟨readable, fun _ none => by cases none⟩
    rw [access, checkAccess_eq_ok]
    refine ⟨readable, fun laid same => ?_⟩
    cases same
    exact enabled
  · simp [checkAccess, withOverride, readable]

theorem answerEach_withOverride (unlaid : q.overridePublisher = none)
    (enabled : q.context.sources.ReadEnabled publisher) (shown : Channel → ChannelSchedule) :
    (q.withOverride publisher).answerEach c longest shown = q.answerEach c longest shown := by
  rw [answerEach, checkAccess_withOverride unlaid enabled]
  rfl

theorem answerEach_map {shown shown' : Channel → ChannelSchedule}
    {f : ChannelSchedule → ChannelSchedule}
    (each : ∀ channel ∈ c.channelsFor q.requestedIds, f (shown channel) = shown' channel) :
    q.answerEach c longest shown' = (q.answerEach c longest shown).map (QueryResult.map f) := by
  rcases q.answerEach_cases c longest shown shown' fun s t => f s = t with
    ⟨fault, left, right⟩ | ⟨-, r, r', left, right, related⟩
  · rw [left, right]
    rfl
  · rw [left, right]
    exact congrArg Except.ok (QueryResult.eq_map_of_related (related.mpr each)).symm

/-- An override with nothing puts in order what would be shown without it. -/
theorem answerEach_of_bare (unlaid : q.overridePublisher = none)
    (enabled : q.context.sources.ReadEnabled publisher)
    {offered : Publisher → Channel → ChannelSchedule}
    (bare : ∀ channel ∈ c.channelsFor q.requestedIds, (offered publisher channel).entries = []) :
    (q.withOverride publisher).answerEach c longest ((q.withOverride publisher).shows offered) =
      (q.answerEach c longest (q.shows offered)).map (QueryResult.map ChannelSchedule.sorted) := by
  rw [answerEach_withOverride unlaid enabled]
  refine answerEach_map fun channel known => ?_
  rw [shows, shows, unlaid]
  exact (ChannelSchedule.laidUnder_of_bare (bare channel known) _).symm

end Query

namespace Catalogue
variable {c : Catalogue} {q : Query} {publisher : Publisher} {channel : Channel}

theorem id_mem_of_channelsFor {ids : List ChannelId} (known : channel ∈ c.channelsFor ids) :
    channel.id ∈ ids := by
  obtain ⟨id, requested, known⟩ := mem_channelsFor.mp known
  rwa [id_of_known known]

/-- The airings that are asked for of the publisher on the channel. -/
def askedFor (c : Catalogue) (window : Window) (publisher : Publisher) (channel : Channel) :
    List Entry :=
  match window with
  | .interval interval => (c.windowFor interval publisher channel).entries
  | .count start n => c.countedFor start n publisher channel

theorem slots_askedFor (window : Window) (publisher : Publisher) (sources : List Publisher)
    (channel : Channel) :
    (c.channelSlotsFor window publisher sources channel).slots =
      (c.askedFor window publisher channel).map (c.openSlot sources) := by
  cases window with
  | interval interval => rfl
  | count start n => exact slots_of_count sources

theorem of_mem_askedFor {window : Window} {e : Entry}
    (asked : e ∈ c.askedFor window publisher channel) :
    e ∈ c.listed ∧ e.ListedFor publisher channel.id := by
  cases window with
  | interval interval =>
      obtain ⟨listed, listed_for, -⟩ := mem_airings.mp asked
      exact ⟨listed, listed_for⟩
  | count start n =>
      obtain ⟨listed, listed_for, -⟩ := mem_airings.mp (List.mem_of_mem_take asked)
      exact ⟨listed, listed_for⟩

theorem pairwise_askedFor (c : Catalogue) (window : Window) (publisher : Publisher)
    (channel : Channel) : (c.askedFor window publisher channel).Pairwise fun a b =>
      a.broadcast.NotAfter b.broadcast := by
  cases window with
  | interval interval => exact pairwise_inAiringOrder Entry.broadcast _
  | count start n => exact (pairwise_inAiringOrder Entry.broadcast _).take

theorem askedFor_of_silent {ids : List ChannelId} (silent : c.SilentOn publisher ids)
    (window : Window) (known : channel ∈ c.channelsFor ids) :
    c.askedFor window publisher channel = [] := by
  refine List.eq_nil_iff_forall_not_mem.mpr fun e asked => ?_
  obtain ⟨listed, published, on_channel⟩ := of_mem_askedFor asked
  exact silent e listed published (on_channel ▸ id_mem_of_channelsFor known)

theorem selectedFor_of_silent (silent : c.SilentOn publisher q.requestedIds)
    (matcher : BroadcastMatcher) (known : channel ∈ c.channelsFor q.requestedIds) :
    (c.selectedFor matcher q publisher channel).entries = [] := by
  rw [selectedFor, Selector.filled, slots_askedFor, askedFor_of_silent silent q.window known]
  rfl

theorem preparedFor_of_silent (silent : c.SilentOn publisher q.requestedIds) (interval : Interval)
    (known : channel ∈ c.channelsFor q.requestedIds) :
    (c.preparedFor q interval publisher channel).entries = [] := by
  have none : (c.windowFor interval publisher channel).entries = [] :=
    askedFor_of_silent silent (.interval interval) known
  unfold preparedFor
  split
  · exact List.map_eq_nil_iff.mpr none
  · exact none

/-- Merging keeps broadcasts, and with them their order. -/
theorem preparedFor_sorted (interval : Interval) :
    (c.preparedFor q interval publisher channel).sorted =
      c.preparedFor q interval publisher channel := by
  have in_order := c.pairwise_askedFor (.interval interval) publisher channel
  rw [ChannelSchedule.sorted_eq_self_iff]
  unfold preparedFor
  split
  · exact List.pairwise_map.mpr in_order
  · exact in_order

/-- No airing that the query asks for is moved. -/
def KeepsAsked (c : Catalogue) (q : Query) : Prop :=
  q.context.MergesEquivalents → ∀ channel ∈ c.channelsFor q.requestedIds,
    ∀ e ∈ c.askedFor q.window q.publisher channel, ¬ c.Moves q.context.sources e

instance (c : Catalogue) (q : Query) : Decidable (c.KeepsAsked q) :=
  inferInstanceAs
    (Decidable (q.context.MergesEquivalents → ∀ channel ∈ c.channelsFor _, ∀ e ∈ _, _))

/-- Where every airing is shown in its own slot, they are shown in order. -/
theorem pairwise_selectedFor (kept : c.KeepsAsked q)
    (known : channel ∈ c.channelsFor q.requestedIds) :
    (c.selectedFor .exactStartEnd q q.publisher channel).entries.Pairwise fun a b =>
      a.broadcast.NotAfter b.broadcast := by
  have own_slot {e shown : Entry} (asked : e ∈ c.askedFor q.window q.publisher channel)
      (selected : (Selector.selectSlot ⟨precedenceMerger, .exactStartEnd⟩ q.context
        (c.openSlot q.selectedSources e)).toOption = some shown) : shown.SameSlot e := by
    refine sameSlot_of_selectSlot (of_mem_askedFor asked).1
      (fun merges => kept merges channel known e asked) ?_
    exact toOption_eq_some.mp selected
  rw [selectedFor, Selector.filled, slots_askedFor, List.pairwise_filterMap, List.pairwise_map]
  refine (c.pairwise_askedFor q.window q.publisher channel).imp_of_mem ?_
  intro a b asked asked_too earlier shown selected shown_too selected_too
  exact ((own_slot asked selected).notAfter_iff (own_slot asked_too selected_too)).mpr earlier

end Catalogue

section Answers
variable {c : Catalogue} {q : Query} {publisher : Publisher}

theorem executePlain_withOverride (unlaid : q.overridePublisher = none)
    (enabled : q.context.sources.ReadEnabled publisher)
    (silent : c.SilentOn publisher q.requestedIds) (settings : Settings) :
    ((SimulatedStore.mk c .instant).executePlain settings (q.withOverride publisher)).outcome =
      ((SimulatedStore.mk c .instant).executePlain settings q).outcome := by
  cases window : q.window with
  | count start n =>
      have window_too : (q.withOverride publisher).window = .count start n := window
      exact (PlainExecutor.execute_of_count window_too).trans
        (PlainExecutor.execute_of_count window).symm
  | interval interval =>
      have bare (channel : Channel) (known : channel ∈ c.channelsFor q.requestedIds) :=
        Catalogue.preparedFor_of_silent silent interval known
      -- the override puts the base in order here too, but what is prepared is in order already
      have in_order : ∀ channel ∈ c.channelsFor q.requestedIds,
          (q.shows (c.preparedFor q interval) channel).sorted =
            q.shows (c.preparedFor q interval) channel := by
        intro channel _
        rw [Query.shows, unlaid]
        exact Catalogue.preparedFor_sorted interval
      rw [executePlain_instant c settings window,
        executePlain_instant (q := q.withOverride publisher) c settings window]
      exact (Query.answerEach_of_bare unlaid enabled bare).trans
        (Query.answerEach_map in_order).symm

theorem executeEquivalent_withOverride (unlaid : q.overridePublisher = none)
    (enabled : q.context.sources.ReadEnabled publisher)
    (silent : c.SilentOn publisher q.requestedIds) (settings : Settings) :
    ((SimulatedStore.mk c .instant).executeEquivalent settings (q.withOverride publisher)).outcome =
      ((SimulatedStore.mk c .instant).executeEquivalent settings q).outcome.map
        (QueryResult.map ChannelSchedule.sorted) := by
  have bare (channel : Channel) (known : channel ∈ c.channelsFor q.requestedIds) :=
    Catalogue.selectedFor_of_silent silent settings.matcher known
  rw [executeEquivalent_instant, executeEquivalent_instant]
  exact Query.answerEach_of_bare unlaid enabled bare

/-- An answer in which every airing is shown in its own slot is in order. -/
theorem executeEquivalent_sorted (unlaid : q.overridePublisher = none) {settings : Settings}
    (exact : settings.matcher = .exactStartEnd) (kept : c.KeepsAsked q) :
    ((SimulatedStore.mk c .instant).executeEquivalent settings q).outcome.map
        (QueryResult.map ChannelSchedule.sorted) =
      ((SimulatedStore.mk c .instant).executeEquivalent settings q).outcome := by
  rw [executeEquivalent_instant, exact]
  refine (Query.answerEach_map fun channel known => ?_).symm
  rw [Query.shows, unlaid]
  exact ChannelSchedule.sorted_eq_self_iff.mpr (Catalogue.pairwise_selectedFor kept known)

end Answers

/-- A publisher that may be read and has nothing on the channels of a query is laid over it. The
plain executor answers as it does without the override. The other one answers with the same
schedules put in order; so it answers as it does without exactly if these are in order, and they are
where slots are matched exactly and no airing is moved. -/
theorem silent_override_only_sorts {q : Query} {publisher : Publisher} {c : Catalogue}
    (unlaid : q.overridePublisher = none) (enabled : q.context.sources.ReadEnabled publisher)
    (silent : c.SilentOn publisher q.requestedIds) (settings : Settings) :
    let store : SimulatedStore := ⟨c, .instant⟩
    let laid := q.withOverride publisher
    let answer := (store.executeEquivalent settings q).outcome
    let overridden := (store.executeEquivalent settings laid).outcome
    (store.executePlain settings laid).outcome = (store.executePlain settings q).outcome ∧
      overridden = answer.map (QueryResult.map ChannelSchedule.sorted) ∧
      (overridden = answer ↔ ∀ r, answer = .ok r → ∀ s ∈ r.schedules,
        s.entries.Pairwise fun a b => a.broadcast.NotAfter b.broadcast) ∧
      (settings.matcher = .exactStartEnd → c.KeepsAsked q → overridden = answer) := by
  intro store laid answer overridden
  have sorts : overridden = answer.map (QueryResult.map ChannelSchedule.sorted) :=
    executeEquivalent_withOverride unlaid enabled silent settings
  refine ⟨executePlain_withOverride unlaid enabled silent settings, sorts, ?_, ?_⟩
  · rw [sorts]
    cases answer with
    | error fault => simp [Except.map]
    | ok r =>
        simp only [Except.map, Except.ok.injEq, forall_eq', QueryResult.map_eq_self_iff,
          ChannelSchedule.sorted_eq_self_iff]
  · intro exact kept
    exact sorts.trans (executeEquivalent_sorted unlaid exact kept)

/-- With another publisher that has nothing on the channel, though it has on another. -/
theorem silent_override_only_sorts_listings :
    let store : SimulatedStore := ⟨Sample.listings.catalogue, .instant⟩
    let q := Sample.firstChannel ⟨⟨[Sample.bbc, Sample.ebs, Sample.pa], true⟩, false⟩
    let laid := q.withOverride Sample.bbc
    (q.overridePublisher = none ∧ q.context.sources.ReadEnabled Sample.bbc ∧
      store.catalogue.SilentOn Sample.bbc q.requestedIds) ∧
    (∃ s, (store.executeEquivalent .standard q).outcome = .ok (.single s) ∧
      s.entries.length = 3) ∧
    (store.executePlain .standard laid).outcome = (store.executePlain .standard q).outcome ∧
    (store.executeEquivalent .standard laid).outcome =
      (store.executeEquivalent .standard q).outcome := by
  intro store q laid
  have enabled : q.context.sources.ReadEnabled Sample.bbc := by decide
  have silent : store.catalogue.SilentOn Sample.bbc q.requestedIds := by decide
  obtain ⟨plain, -, -, filled⟩ := silent_override_only_sorts rfl enabled silent .standard
  exact ⟨⟨rfl, enabled, silent⟩, ⟨_, rfl, by decide⟩, plain, filled rfl (by decide)⟩

/-- A follow-on at midnight is shown before what is filled in from the leap second; with an override
that has nothing, after it. -/
theorem leap_second_before_followOn :
    let store : SimulatedStore := ⟨Sample.newYear.catalogue, .instant⟩
    let q := Sample.countdownNight ⟨⟨[Sample.bbc, Sample.pa, Sample.ebs], true⟩, false⟩
    (q.overridePublisher = none ∧ q.context.sources.ReadEnabled Sample.ebs ∧
      store.catalogue.SilentOn Sample.ebs q.requestedIds ∧
      Settings.standard.matcher = .exactStartEnd) ∧
    ∃ s t, (store.executeEquivalent .standard q).outcome = .ok (.single s) ∧
      (store.executeEquivalent .standard (q.withOverride Sample.ebs)).outcome = .ok (.single t) ∧
      s.entries.map Entry.start = [Sample.nightHour 0, Sample.nightHour 1, Sample.leapSecond] ∧
      t.entries.map Entry.start = [Sample.nightHour 0, Sample.leapSecond, Sample.nightHour 1] ∧
      s ≠ t :=
  ⟨by decide, _, _, rfl, rfl, rfl, rfl, by decide⟩

end ChannelGuide
