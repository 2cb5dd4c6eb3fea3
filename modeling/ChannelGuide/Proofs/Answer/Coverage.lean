import ChannelGuide.Catalogue.Sample
import ChannelGuide.Proofs.Answer.Requested

/-!
Which channels a list covers. Whatever the collaborators answer, a list holds one schedule for each
requested channel of which the schedules of the base publisher came back, in the order of the
request. A channel that is missing there is missing in the list: nothing compares the schedules that
came back with the request, only those of the base with those laid over.
-/
namespace ChannelGuide

namespace Query
variable {q : Query}

/-- The schedules cover what was answered of the request, if `Answered` are the channels of which
the schedules of a publisher came back for a layer. They cover the whole request only if all of it
was answered; and an override was answered as far as the base was. -/
def CoveredBy (q : Query) (Answered : Layer → Publisher → List ChannelId → Prop)
    (schedules : List ChannelSchedule) : Prop :=
  ∃ answered, Answered .base q.publisher answered ∧
    channelIds schedules = q.requestedIds.filter (fun id => id ∈ answered) ∧
    (channelIds schedules = q.requestedIds ↔ ∀ id ∈ q.requestedIds, id ∈ answered) ∧
    ∀ publisher ∈ q.overridePublisher, ∃ overridden, Answered .override publisher overridden ∧
      ∀ id ∈ q.requestedIds, id ∈ overridden ↔ id ∈ answered

theorem coveredBy_of_assembled {Prepared : Layer → Publisher → List ChannelSchedule → Prop}
    {Answered : Layer → Publisher → List ChannelId → Prop}
    (each : ∀ layer publisher prepared, Prepared layer publisher prepared → ∃ answered,
      Answered layer publisher answered ∧
        channelIds prepared = q.requestedIds.filter fun id => id ∈ answered)
    {schedules : List ChannelSchedule} (assembled : q.Assembled Prepared schedules) :
    q.CoveredBy Answered schedules := by
  have whole (answered : List ChannelId) :
      q.requestedIds.filter (fun id => id ∈ answered) = q.requestedIds ↔
        ∀ id ∈ q.requestedIds, id ∈ answered := by
    simp only [List.filter_eq_self, decide_eq_true_eq]
  cases assembled with
  | base plain prepared =>
      obtain ⟨answered, replied, ids⟩ := each _ _ _ prepared
      refine ⟨answered, replied, ids, ids ▸ whole answered, ?_⟩
      rw [plain]
      exact fun _ none => absurd none (Option.not_mem_none _)
  | overlaid overridden prepared upper laid =>
      obtain ⟨answered, replied, ids⟩ := each _ _ _ prepared
      obtain ⟨others, replied_too, override_ids⟩ := each _ _ _ upper
      obtain ⟨as_bases, as_overrides⟩ := channelIds_of_overlayAll laid
      rw [← as_bases] at ids
      refine ⟨answered, replied, ids, ids ▸ whole answered, ?_⟩
      rw [overridden]
      rintro _ ⟨⟩
      refine ⟨others, replied_too, fun id requested => ?_⟩
      have same : id ∈ q.requestedIds.filter (fun id => id ∈ others) ↔
          id ∈ q.requestedIds.filter fun id => id ∈ answered := by
        rw [← override_ids, as_overrides, ← as_bases, ids]
      simpa [requested] using same

theorem channels_of_resolveChannels {source : ChannelSource} {limit : Wait}
    {channels : List Channel} (ok : (q.resolveChannels source limit).outcome = .ok channels) :
    (source q.requestedIds).outcome = .ok channels :=
  (resolveChannels_eq_ok.mp ok).1.answered

theorem list_of_result {schedules : List ChannelSchedule} {r : QueryResult}
    (several : q.scope.isMultiChannel = true) (ok : q.result schedules = .ok r) :
    r = .list schedules := by
  rw [result_of_several several] at ok
  cases ok
  rfl

end Query

namespace EquivalentExecutor
variable {x : EquivalentExecutor} {q : Query}

/-- The schedules of the publisher that the executor gets for a layer of the query are for these
channels. -/
def Gets (x : EquivalentExecutor) (q : Query) (layer : Layer) (publisher : Publisher)
    (ids : List ChannelId) : Prop :=
  ∃ channels slots, (x.channels q.requestedIds).outcome = .ok channels ∧
    (x.slots layer channels q.window publisher q.selectedSources).outcome = .ok slots ∧
    slots.channelSlots.map (fun s => s.channel.id) = ids

theorem channelIds_of_selectSchedule {selector : Selector} {context : QueryContext}
    {slots : ScheduleSlots} {schedules : List ChannelSchedule}
    (selects : selector.selectSchedule context slots = .ok schedules) :
    channelIds schedules = slots.channelIds := by
  refine (map_eq_of_forall₂ (fun s schedule filled => ?_) (mapM_eq_ok_iff.mp selects)).symm
  rw [Selector.channel_of_selectChannel filled]

theorem channelIds_of_select {slots : ScheduleSlots} {selected : List ChannelSchedule}
    (selects : x.select q slots = .ok selected) :
    channelIds selected = q.requestedAmong slots.channelIds := by
  obtain ⟨schedules, chosen, rfl⟩ := exists_of_select selects
  rw [channelIds_inRequestedOrder q.requestedIds_nodup, channelIds_of_selectSchedule chosen]
  rfl

theorem covered (several : q.scope.isMultiChannel = true) {r : QueryResult}
    (ok : (x.execute q).outcome = .ok r) :
    ∃ schedules, r = .list schedules ∧ q.CoveredBy (x.Gets q) schedules := by
  obtain ⟨channels, schedules, resolved, assembled, ok⟩ := assembled_of_execute ok
  refine ⟨schedules, Query.list_of_result several ok, ?_⟩
  apply Query.coveredBy_of_assembled _ assembled
  rintro layer publisher prepared ⟨slots, replied, selects⟩
  exact ⟨_, ⟨channels, slots, Query.channels_of_resolveChannels resolved, replied, rfl⟩,
    channelIds_of_select selects⟩

end EquivalentExecutor

namespace PlainExecutor
variable {x : PlainExecutor} {q : Query} {interval : Interval} {layer : Layer}

/-- The schedules of the publisher that the executor gets for a layer of the query are for these
channels. -/
def Gets (x : PlainExecutor) (q : Query) (layer : Layer) (publisher : Publisher)
    (ids : List ChannelId) : Prop :=
  ∃ interval channels schedule, q.window = .interval interval ∧
    (x.channels q.requestedIds).outcome = .ok channels ∧
    (x.schedules layer channels interval publisher).outcome = .ok schedule ∧
    channelIds schedule.channelSchedules = ids

theorem channelIds_of_prepare {schedule : Schedule} {prepared : List ChannelSchedule}
    (prepares : (x.prepare q layer schedule).outcome = .ok prepared) :
    channelIds prepared = q.requestedAmong (channelIds schedule.channelSchedules) := by
  refine Eq.trans ?_ (channelIds_inRequestedOrder q.requestedIds_nodup schedule.channelSchedules)
  by_cases merges : q.context.MergesEquivalents
  · rw [prepare_of_merging merges] at prepares
    rcases merged_of_mergeEquivalents prepares with rfl | ⟨merged, -, rfl⟩
    · rfl
    · rw [channelIds, List.map_map]
      rfl
  · rw [prepare_unmerged merges] at prepares
    cases prepares
    rfl

theorem covered (several : q.scope.isMultiChannel = true) {r : QueryResult}
    (ok : (x.execute q).outcome = .ok r) :
    ∃ schedules, r = .list schedules ∧ q.CoveredBy (x.Gets q) schedules := by
  obtain ⟨interval, window⟩ := exists_window_of_execute ok
  obtain ⟨channels, schedules, resolved, assembled, ok⟩ := assembled_of_execute window ok
  refine ⟨schedules, Query.list_of_result several ok, ?_⟩
  apply Query.coveredBy_of_assembled _ assembled
  rintro layer publisher prepared ⟨schedule, replied, prepares⟩
  exact ⟨_, ⟨interval, channels, schedule, window, Query.channels_of_resolveChannels resolved,
    replied, rfl⟩, channelIds_of_prepare prepares⟩

end PlainExecutor

/-- A list answered to a query for several channels covers what came back of the request: nothing
else, nothing twice, in the order of the request; and all of it exactly if all of it came back. -/
theorem list_covers_answered {x : EquivalentExecutor} {y : PlainExecutor} {q : Query}
    (several : q.scope.isMultiChannel = true) :
    (∀ r, (x.execute q).outcome = .ok r →
      ∃ schedules, r = .list schedules ∧ q.CoveredBy (x.Gets q) schedules) ∧
    ∀ r, (y.execute q).outcome = .ok r →
      ∃ schedules, r = .list schedules ∧ q.CoveredBy (y.Gets q) schedules :=
  ⟨fun _ => x.covered several, fun _ => y.covered several⟩

namespace Sample

/-- The listings, with schedules for no more than the first of the channels asked for. -/
def firstSlots : EquivalentExecutor :=
  let store : SimulatedStore := ⟨listings.catalogue, .instant⟩
  { store.equivalentExecutor .standard with
    slots := fun _ channels => store.slotSource (channels.take 1) }

def firstSchedules : PlainExecutor :=
  let store : SimulatedStore := ⟨listings.catalogue, .instant⟩
  { store.plainExecutor .standard with
    schedules := fun _ channels => store.scheduleSource (channels.take 1) }

end Sample

/-- With an override that comes back for the same channels as the base. -/
theorem list_covers_first_channel :
    let q := Sample.overlaidMorning ⟨⟨[Sample.pa, Sample.ebs], false⟩, false⟩
    q.scope.isMultiChannel = true ∧
    (∃ schedules, (Sample.firstSlots.execute q).outcome = .ok (.list schedules) ∧
      q.CoveredBy (Sample.firstSlots.Gets q) schedules) ∧
    ∃ schedules, (Sample.firstSchedules.execute q).outcome = .ok (.list schedules) ∧
      q.CoveredBy (Sample.firstSchedules.Gets q) schedules := by
  intro q
  have several : q.scope.isMultiChannel = true := rfl
  have slots_answered : ∃ r, (Sample.firstSlots.execute q).outcome = .ok r := ⟨_, rfl⟩
  have answered : ∃ r, (Sample.firstSchedules.execute q).outcome = .ok r := ⟨_, rfl⟩
  obtain ⟨_, slots_answered⟩ := slots_answered
  obtain ⟨_, answered⟩ := answered
  obtain ⟨of_slots, of_schedules⟩ := list_covers_answered
    (x := Sample.firstSlots) (y := Sample.firstSchedules) several
  obtain ⟨covering, rfl, slots_cover⟩ := of_slots _ slots_answered
  obtain ⟨covering_too, rfl, cover⟩ := of_schedules _ answered
  exact ⟨several, ⟨covering, slots_answered, slots_cover⟩, covering_too, answered, cover⟩

/-- A channel of which no schedule comes back is left out, and the query is answered. -/
theorem second_channel_left_out :
    let q := { Sample.overlaidMorning ⟨⟨[Sample.pa], false⟩, false⟩ with
      overridePublisher := none }
    q.requestedIds = [⟨1⟩, ⟨2⟩] ∧
    (∃ schedules, (Sample.firstSlots.execute q).outcome = .ok (.list schedules) ∧
      channelIds schedules = [⟨1⟩]) ∧
    ∃ schedules, (Sample.firstSchedules.execute q).outcome = .ok (.list schedules) ∧
      channelIds schedules = [⟨1⟩] :=
  ⟨rfl, ⟨_, rfl, rfl⟩, _, rfl, rfl⟩

end ChannelGuide
