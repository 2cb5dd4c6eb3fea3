import ChannelGuide.Proofs.Answer.Coverage
import ChannelGuide.Proofs.Answer.Route

/-!
The pairing of base schedules with overrides. It goes by place; but both sides come in the order of
the request, in which no channel is named twice, so it goes by channel. Either each schedule of the
answer is laid together from two schedules of its channel, or there is no answer, and the fault says
how the two sides differ.
-/
namespace ChannelGuide

namespace ChannelSchedule
variable {base overrides : ChannelSchedule}

theorem overlaidBy_eq_error {fault : ChannelMismatch}
    (failed : base.overlaidBy overrides = .error fault) :
    fault = ⟨base.channel.id, overrides.channel.id⟩ ∧ base.channel.id ≠ overrides.channel.id := by
  unfold overlaidBy at failed
  split at failed
  · next differ =>
      cases failed
      exact ⟨rfl, differ⟩
  · split at failed <;> cases failed

theorem exists_overlaidBy_iff :
    (∃ s, base.overlaidBy overrides = .ok s) ↔ base.channel.id = overrides.channel.id :=
  ⟨fun ⟨_, laid⟩ => channel_id_eq_of_overlaidBy laid, fun same => ⟨_, overlaidBy_ok same⟩⟩

/-- Laid together from a base and an override for the channel, out of these. -/
def LaidFor (bases overrides : List ChannelSchedule) (id : ChannelId) (s : ChannelSchedule) :
    Prop :=
  ∃ b ∈ bases, ∃ v ∈ overrides, b.channel.id = id ∧ v.channel.id = id ∧ b.overlaidBy v = .ok s

end ChannelSchedule

namespace Query
variable {q : Query} {publisher : Publisher} {bases overrides : List ChannelSchedule}

theorem overlayAll_of_lengths_differ (differ : bases.length ≠ overrides.length) :
    q.overlayAll publisher bases overrides =
      .error (.inconsistentMergeInput bases.length overrides.length q.requestedIds publisher) :=
  if_pos differ

theorem channelIds_fst_zip (alike : bases.length = overrides.length) :
    (bases.zip overrides).map (fun p => p.1.channel.id) = channelIds bases := by
  have firsts := congrArg channelIds (List.map_fst_zip alike.le)
  rwa [channelIds, List.map_map] at firsts

theorem channelIds_snd_zip (alike : bases.length = overrides.length) :
    (bases.zip overrides).map (fun p => p.2.channel.id) = channelIds overrides := by
  have seconds := congrArg channelIds (List.map_snd_zip alike.ge)
  rwa [channelIds, List.map_map] at seconds

theorem overlayAll_of_lengths_agree (alike : bases.length = overrides.length) :
    q.overlayAll publisher bases overrides =
      (bases.zip overrides).mapM fun p => (p.1.overlaidBy p.2).mapError .merge :=
  if_neg (not_not_intro alike)

theorem overlayAll_of_same_channels (q : Query) (publisher : Publisher)
    (same : channelIds bases = channelIds overrides) :
    ∃ schedules, q.overlayAll publisher bases overrides = .ok schedules ∧
      List.Forall₂ (ChannelSchedule.LaidFor bases overrides) (channelIds bases) schedules := by
  have alike : bases.length = overrides.length := by
    simpa [channelIds] using congrArg List.length same
  have each : ∀ p ∈ bases.zip overrides, p.1.channel.id = p.2.channel.id :=
    List.map_inj_left.mp
      ((channelIds_fst_zip alike).trans (same.trans (channelIds_snd_zip alike).symm))
  rw [overlayAll_of_lengths_agree alike]
  obtain ⟨schedules, laid⟩ : ∃ schedules, (bases.zip overrides).mapM (fun p =>
      (p.1.overlaidBy p.2).mapError AnswerFault.merge) = .ok schedules := by
    refine exists_mapM_eq_ok.mpr fun p paired => ?_
    obtain ⟨s, laid⟩ := ChannelSchedule.exists_overlaidBy_iff.mpr (each p paired)
    exact ⟨s, mapError_eq_ok.mpr laid⟩
  refine ⟨schedules, laid, ?_⟩
  rw [← channelIds_fst_zip alike, List.forall₂_map_left_iff]
  have members : List.Forall₂ (fun p s => p ∈ bases.zip overrides ∧
      (p.1.overlaidBy p.2).mapError AnswerFault.merge = .ok s) (bases.zip overrides) schedules :=
    (List.forall₂_and_left _ _).mpr ⟨fun p paired => paired, mapM_eq_ok_iff.mp laid⟩
  refine members.imp fun p s made => ?_
  obtain ⟨base, override⟩ := List.of_mem_zip made.1
  exact ⟨p.1, base, p.2, override, rfl, (each p made.1).symm, mapError_eq_ok.mp made.2⟩

/-- Up to the first place where the channels differ, everything can be laid together. -/
theorem overlayAll_of_channels_differ (q : Query) (publisher : Publisher)
    (alike : bases.length = overrides.length)
    (differ : channelIds bases ≠ channelIds overrides) :
    ∃ before base other after after', channelIds bases = before ++ base :: after ∧
      channelIds overrides = before ++ other :: after' ∧ base ≠ other ∧
      q.overlayAll publisher bases overrides = .error (.merge ⟨base, other⟩) := by
  have of_bases := channelIds_fst_zip alike
  have of_overrides := channelIds_snd_zip alike
  rw [overlayAll_of_lengths_agree alike]
  cases laid : (bases.zip overrides).mapM (fun p =>
      (p.1.overlaidBy p.2).mapError AnswerFault.merge) with
  | ok schedules =>
      refine absurd ?_ differ
      rw [← of_bases, ← of_overrides]
      refine List.map_congr_left fun p paired => ?_
      obtain ⟨s, made⟩ := exists_mapM_eq_ok.mp ⟨schedules, laid⟩ p paired
      exact ChannelSchedule.channel_id_eq_of_overlaidBy (mapError_eq_ok.mp made)
  | error fault =>
      obtain ⟨before, p, after, split, fine, failed⟩ := mapM_eq_error_iff.mp laid
      have same : before.map (fun p => p.1.channel.id) = before.map fun p => p.2.channel.id := by
        refine List.map_congr_left fun p earlier => ?_
        obtain ⟨s, made⟩ := fine p earlier
        exact ChannelSchedule.channel_id_eq_of_overlaidBy (mapError_eq_ok.mp made)
      rw [split, List.map_append, List.map_cons] at of_bases of_overrides
      obtain ⟨mismatch, not_laid, rfl⟩ := mapError_eq_error.mp failed
      obtain ⟨rfl, channels_differ⟩ := ChannelSchedule.overlaidBy_eq_error not_laid
      exact ⟨_, _, _, _, _, of_bases.symm, same ▸ of_overrides.symm, channels_differ, rfl⟩

/-- The outcome of a query with overrides, if there are bases for the channels `based` and overrides
for the channels `overridden`. -/
structure PairedBy (q : Query) (publisher : Publisher) (bases overrides : List ChannelSchedule)
    (based overridden : List ChannelId) (outcome : Except AnswerFault QueryResult) : Prop where
  laid : based = overridden → (q.scope.isMultiChannel = true ∨ based ≠ []) →
    ∃ r, outcome = .ok r ∧
      List.Forall₂ (ChannelSchedule.LaidFor bases overrides) based r.schedules
  none_found : based = [] → overridden = [] → ∀ id, q.scope = .single id →
    outcome = .error (.channelNotFound id)
  unequal : based.length ≠ overridden.length →
    outcome = .error (.inconsistentMergeInput based.length overridden.length q.requestedIds
      publisher)
  mismatched : based.length = overridden.length → based ≠ overridden →
    ∃ before base other after after', based = before ++ base :: after ∧
      overridden = before ++ other :: after' ∧ base ≠ other ∧
      outcome = .error (.merge ⟨base, other⟩)

/-- A query for one channel has at most one schedule to return. -/
theorem exists_result_of_requested {ids : List ChannelId} {schedules : List ChannelSchedule}
    {R : ChannelId → ChannelSchedule → Prop}
    (related : List.Forall₂ R (q.requestedAmong ids) schedules)
    (some_found : q.scope.isMultiChannel = true ∨ q.requestedAmong ids ≠ []) :
    ∃ r, q.result schedules = .ok r ∧ r.schedules = schedules := by
  unfold result
  split
  · next id one =>
      have single : q.requestedIds = [id] := by rw [requestedIds, one]; rfl
      have few : (q.requestedAmong ids).length ≤ 1 := by
        rw [requestedAmong, single]
        exact List.length_filter_le _ _
      have found : q.requestedAmong ids ≠ [] := by
        rcases some_found with several | found
        · rw [one] at several
          cases several
        · exact found
      have some_schedule : schedules ≠ [] := by
        rintro rfl
        exact found (List.forall₂_nil_right_iff.mp related)
      rw [related.length_eq] at few
      obtain ⟨s, others, rfl⟩ := List.exists_cons_of_ne_nil some_schedule
      have alone : others = [] := List.length_eq_zero_iff.mp (by simpa using few)
      subst alone
      exact ⟨_, rfl, rfl⟩
  · exact ⟨_, rfl, rfl⟩

theorem pairedBy_overlayAll {answered others : List ChannelId}
    (of_bases : channelIds bases = q.requestedAmong answered)
    (of_overrides : channelIds overrides = q.requestedAmong others) :
    q.PairedBy publisher bases overrides (q.requestedAmong answered) (q.requestedAmong others)
      (q.overlayAll publisher bases overrides >>= q.result) := by
  have lengths (schedules : List ChannelSchedule) :
      schedules.length = (channelIds schedules).length := (List.length_map _).symm
  constructor
  case laid =>
    intro same some_found
    have same_channels := of_bases.trans (same.trans of_overrides.symm)
    obtain ⟨schedules, laid, related⟩ := q.overlayAll_of_same_channels publisher same_channels
    rw [of_bases] at related
    obtain ⟨r, returned, rfl⟩ := exists_result_of_requested related some_found
    exact ⟨r, by rw [laid]; exact returned, related⟩
  case none_found =>
    intro none none_too id one
    rw [none] at of_bases
    rw [none_too] at of_overrides
    obtain rfl := List.map_eq_nil_iff.mp of_bases
    obtain rfl := List.map_eq_nil_iff.mp of_overrides
    change q.result [] = _
    rw [result, one]
  case unequal =>
    intro differ
    rw [← of_bases, ← of_overrides, ← lengths, ← lengths] at differ ⊢
    rw [overlayAll_of_lengths_differ differ]
    rfl
  case mismatched =>
    intro alike differ
    rw [← of_bases, ← of_overrides] at differ ⊢
    rw [← of_bases, ← of_overrides, ← lengths, ← lengths] at alike
    obtain ⟨before, base, other, after, after', split, split_too, channels_differ, failed⟩ :=
      q.overlayAll_of_channels_differ publisher alike differ
    exact ⟨before, base, other, after, after', split, split_too, channels_differ, by
      rw [failed]; rfl⟩

end Query

namespace Route
variable {α : Type} {route : Route α} {q : Query} {publisher : Publisher} {answer upper : α}

/-- The query gets as far as an answer for its publisher and one for the publisher laid over. -/
structure Receives (route : Route α) (q : Query) (publisher : Publisher) (answer upper : α) :
    Prop where
  admitted : q.Admitted route.longestQuery
  replied : ∃ channels, (q.resolveChannels route.channels route.channelLimit).outcome = .ok channels ∧
    (route.ask .base channels q.publisher).outcome = .ok answer ∧
    (route.ask .override channels publisher).outcome = .ok upper

theorem outcome_of_receives {bases overrides : List ChannelSchedule}
    (overridden : q.overridePublisher = some publisher)
    (receives : route.Receives q publisher answer upper)
    (of_base : (route.prepare .base answer).outcome = .ok bases)
    (of_override : (route.prepare .override upper).outcome = .ok overrides) :
    (route.run q).outcome = q.overlayAll publisher bases overrides >>= q.result := by
  obtain ⟨channels, resolved, asked, asked_too⟩ := receives.replied
  rw [run_of_admitted receives.admitted]
  refine (Run.outcome_bind_of_ok resolved _).trans ?_
  refine Run.outcome_bind_eq ?_ fun _ _ => rfl
  rw [schedules_overridden overridden]
  have both : ((route.ask .base channels q.publisher).both
      (route.ask .override channels publisher)).outcome = .ok (answer, upper) :=
    Run.both_eq_ok.mpr ⟨asked, asked_too⟩
  refine (Run.outcome_bind_of_ok both _).trans ?_
  refine (Run.outcome_bind_of_ok of_base _).trans ?_
  exact Run.outcome_bind_of_ok of_override _

end Route

/-- Once a query with an override has both answers, and a schedule can be made of each, its outcome
is that of the pairing: a schedule for each channel that both answers have of the request, or the
fault of the request's channels that they do not share. -/
theorem overrides_paired {x : EquivalentExecutor} {y : PlainExecutor} {q : Query}
    {publisher : Publisher} (overridden : q.overridePublisher = some publisher) :
    (∀ slots upper bases overrides, (x.route q).Receives q publisher slots upper →
      x.select q slots = .ok bases → x.select q upper = .ok overrides →
      q.PairedBy publisher bases overrides (q.requestedAmong slots.channelIds)
        (q.requestedAmong upper.channelIds) (x.execute q).outcome) ∧
    ∀ interval schedule upper bases overrides, q.window = .interval interval →
      (y.route q interval).Receives q publisher schedule upper →
      (y.prepare q .base schedule).outcome = .ok bases →
      (y.prepare q .override upper).outcome = .ok overrides →
      q.PairedBy publisher bases overrides
        (q.requestedAmong (channelIds schedule.channelSchedules))
        (q.requestedAmong (channelIds upper.channelSchedules)) (y.execute q).outcome := by
  constructor
  · intro slots upper bases overrides receives of_base of_override
    rw [x.execute_eq_run, Route.outcome_of_receives overridden receives of_base of_override]
    exact Query.pairedBy_overlayAll (EquivalentExecutor.channelIds_of_select of_base)
      (EquivalentExecutor.channelIds_of_select of_override)
  · intro interval schedule upper bases overrides window receives of_base of_override
    rw [y.execute_eq_run window,
      Route.outcome_of_receives overridden receives of_base of_override]
    exact Query.pairedBy_overlayAll (PlainExecutor.channelIds_of_prepare of_base)
      (PlainExecutor.channelIds_of_prepare of_override)

namespace Sample

/-- The listings, with the schedules that are laid over in the opposite order of the channels. -/
def crossedSlots : EquivalentExecutor :=
  let store : SimulatedStore := ⟨listings.catalogue, .instant⟩
  { store.equivalentExecutor .standard with
    slots := fun layer channels =>
      match layer with
      | .base => store.slotSource channels
      | .override => store.slotSource channels.reverse }

def crossedSchedules : PlainExecutor :=
  let store : SimulatedStore := ⟨listings.catalogue, .instant⟩
  { store.plainExecutor .standard with
    schedules := fun layer channels =>
      match layer with
      | .base => store.scheduleSource channels
      | .override => store.scheduleSource channels.reverse }

end Sample

/-- The answers hold the channels in different orders. -/
theorem overrides_paired_crossed :
    let q := Sample.overlaidMorning ⟨⟨[Sample.pa, Sample.ebs], false⟩, false⟩
    q.overridePublisher = some Sample.ebs ∧
    (∃ bases overrides r, (Sample.crossedSlots.execute q).outcome = .ok r ∧
      List.Forall₂ (ChannelSchedule.LaidFor bases overrides) [⟨1⟩, ⟨2⟩] r.schedules) ∧
    ∃ bases overrides r, (Sample.crossedSchedules.execute q).outcome = .ok r ∧
      List.Forall₂ (ChannelSchedule.LaidFor bases overrides) [⟨1⟩, ⟨2⟩] r.schedules := by
  intro q
  have overridden : q.overridePublisher = some Sample.ebs := rfl
  obtain ⟨of_slots, of_schedules⟩ :=
    overrides_paired (x := Sample.crossedSlots) (y := Sample.crossedSchedules) overridden
  have paired_slots := of_slots _ _ _ _ ⟨⟨rfl, rfl⟩, _, rfl, rfl, rfl⟩ rfl rfl
  have paired := of_schedules _ _ _ _ _ rfl ⟨⟨rfl, rfl⟩, _, rfl, rfl, rfl⟩ rfl rfl
  exact ⟨overridden, ⟨_, _, paired_slots.laid (by decide) (.inl rfl)⟩, _, _,
    paired.laid (by decide) (.inl rfl)⟩

end ChannelGuide
