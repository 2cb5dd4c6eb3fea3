import ChannelGuide.Catalogue.Sample
import ChannelGuide.Proofs.Answer.Steps

/-!
Answers in which equivalents are not merged. A slot is then filled by the item that was scheduled
there, whatever else is equivalent to it, so what is selected from a publisher's slots is its plain
schedule; and the two ways to answer a query come to the same.
-/
namespace ChannelGuide

theorem Item.hasBroadcast_of_mem {item : Item} {b : Broadcast} (own : b ∈ item.broadcasts) :
    item.HasBroadcast b := ⟨b, own, rfl, rfl, rfl⟩

section Selection
variable {selector : Selector} {context : QueryContext} {c : Catalogue} {interval : Interval}
  {publisher : Publisher} {sources : List Publisher}

theorem chooseItem_openSlot {e : Entry} (listed : e ∈ c.listed) :
    Selector.chooseItem (c.openSlot sources e) = .ok e := by
  -- the scheduled item comes first in its set, so no equivalent is looked at
  have scheduled : e.item.HasBroadcast e.broadcast :=
    Item.hasBroadcast_of_mem (Catalogue.mem_listed.mp listed).2
  simp [Selector.chooseItem, Catalogue.openSlot, Catalogue.equivalenceSet, scheduled]

theorem selectChannel_unmerged (unmerged : ¬ context.MergesEquivalents) (channel : Channel) :
    selector.selectChannel context
        (c.channelSlotsFor (.interval interval) publisher sources channel) =
      .ok (c.windowFor interval publisher channel) := by
  let airings := c.airings channel.id publisher (Broadcast.AirsWithin interval)
  have filled : (airings.map (c.openSlot sources)).mapM (selector.selectSlot context) =
      .ok airings := by
    rw [mapM_eq_ok_iff, List.forall₂_map_left_iff, List.forall₂_same]
    intro e member
    rw [Selector.selectSlot, if_neg unmerged]
    exact chooseItem_openSlot (Catalogue.mem_airings.mp member).1
  simp only [Selector.selectChannel, Catalogue.channelSlotsFor]
  rw [filled]
  rfl

theorem selectSchedule_unmerged (unmerged : ¬ context.MergesEquivalents) (channels : List Channel) :
    selector.selectSchedule context (c.slotsFor channels (.interval interval) publisher sources) =
      .ok (c.scheduleFor channels interval publisher).channelSchedules := by
  have split : (channels.map (c.channelSlotsFor (.interval interval) publisher sources)).mapM
      (selector.selectChannel context) = .ok (channels.map (c.windowFor interval publisher)) :=
    mapM_map_eq_ok fun channel _ => selectChannel_unmerged unmerged channel
  exact split

end Selection

section Offers
variable {store : SimulatedStore} {settings : Settings} {q : Query} {interval : Interval}
  {layer : Layer} {publisher : Publisher} {s : ChannelSchedule}

theorem EquivalentExecutor.select_unmerged {x : EquivalentExecutor} {c : Catalogue}
    (unmerged : ¬ q.context.MergesEquivalents) (channels : List Channel)
    (sources : List Publisher) :
    x.select q (c.slotsFor channels (.interval interval) publisher sources) =
      .ok (inRequestedOrder q.requestedIds
        (c.scheduleFor channels interval publisher).channelSchedules) := by
  rw [select, selectSchedule_unmerged unmerged]
  rfl

/-- What is offered of a publisher is its window of the catalogue. -/
theorem exists_windowFor_of_selected (window : q.window = .interval interval)
    (unmerged : ¬ q.context.MergesEquivalents)
    (offered : (store.equivalentExecutor settings).Offers q layer publisher s) :
    ∃ channel, s = store.catalogue.windowFor interval publisher channel := by
  obtain ⟨channels, slots, selected, replied, selects, member⟩ := offered
  rw [ResponseProfile.respond_eq_ok replied, window,
    EquivalentExecutor.select_unmerged unmerged] at selects
  cases selects
  exact exists_windowFor_of_ordered member

theorem exists_windowFor_of_prepared (unmerged : ¬ q.context.MergesEquivalents)
    (offered : (store.plainExecutor settings).Offers q interval layer publisher s) :
    ∃ channel, s = store.catalogue.windowFor interval publisher channel := by
  obtain ⟨channels, schedule, prepared, replied, prepares, member⟩ := offered
  rw [ResponseProfile.respond_eq_ok replied, PlainExecutor.prepare_unmerged unmerged] at prepares
  cases prepares
  exact exists_windowFor_of_ordered member

theorem composed_of_windows (window : q.window = .interval interval)
    (unmerged : ¬ q.context.MergesEquivalents) {r : QueryResult}
    (answered : (store.executeEquivalent settings q).outcome = .ok r ∨
      (store.executePlain settings q).outcome = .ok r) :
    ∀ s ∈ r.schedules, q.Composed (fun _ publisher s =>
      ∃ channel, s = store.catalogue.windowFor interval publisher channel) s := by
  intro s member
  rcases answered with answered | answered
  · apply (EquivalentExecutor.composed answered s member).imp
    exact fun _ _ _ => exists_windowFor_of_selected window unmerged
  · apply (PlainExecutor.composed window answered s member).imp
    exact fun _ _ _ => exists_windowFor_of_prepared unmerged

end Offers

section Agreement
variable {store : SimulatedStore} {q : Query} {interval : Interval}

/-- The slots and the schedule of a publisher are there after the same time. -/
theorem asked_agree (settings : Settings) (available : store.profile.failure = none)
    (window : q.window = .interval interval) (layer : Layer) (channels : List Channel)
    (publisher : Publisher) :
    Run.Agree
      (fun slots schedule =>
        slots = store.catalogue.slotsFor channels (.interval interval) publisher q.selectedSources ∧
          schedule = store.catalogue.scheduleFor channels interval publisher)
      ((store.equivalentExecutor settings).askSlots q layer channels publisher)
      ((store.plainExecutor settings).askSchedule layer channels interval publisher) := by
  unfold EquivalentExecutor.askSlots PlainExecutor.askSchedule
  rw [window]
  apply Run.Agree.ask
  · rfl
  · exact congrArg Reply.outcome (ResponseProfile.respond_of_available available _ _)
  · exact congrArg Reply.outcome (ResponseProfile.respond_of_available available _ _)
  · exact ⟨rfl, rfl⟩

theorem schedules_agree (settings : Settings) (available : store.profile.failure = none)
    (window : q.window = .interval interval) (unmerged : ¬ q.context.MergesEquivalents)
    (channels : List Channel) :
    Run.Agree Eq ((store.equivalentExecutor settings).schedules q channels)
      ((store.plainExecutor settings).schedulesIn q interval channels) := by
  have asked := fun layer => asked_agree settings available window layer channels
  unfold EquivalentExecutor.schedules PlainExecutor.schedulesIn
  cases q.overridePublisher with
  | none =>
      apply (asked .base q.publisher).bind
      rintro slots schedule ⟨rfl, rfl⟩
      rw [EquivalentExecutor.select_unmerged unmerged, PlainExecutor.prepare_unmerged unmerged]
      exact .refl _
  | some publisher =>
      apply ((asked .base q.publisher).both (asked .override publisher)).bind
      rintro ⟨slots, overrideSlots⟩ ⟨schedule, overrideSchedule⟩ ⟨⟨rfl, rfl⟩, rfl, rfl⟩
      simp only [EquivalentExecutor.select_unmerged unmerged,
        PlainExecutor.prepare_unmerged unmerged]
      exact .refl _

/-- Without merging, both executors answer a query for an interval alike, and after the same time:
with the same result, or with the same fault. -/
theorem executors_agree_unmerged (settings : Settings) (available : store.profile.failure = none)
    (window : q.window = .interval interval) (unmerged : ¬ q.context.MergesEquivalents) :
    (store.executeEquivalent settings q).outcome = (store.executePlain settings q).outcome ∧
      (store.executeEquivalent settings q).elapsed = (store.executePlain settings q).elapsed := by
  have agree : Run.Agree Eq (store.executeEquivalent settings q)
      (store.executePlain settings q) := by
    unfold SimulatedStore.executeEquivalent SimulatedStore.executePlain EquivalentExecutor.execute
    rw [PlainExecutor.execute_of_interval window]
    apply (Run.Agree.refl _).bind
    rintro _ _ rfl
    apply (Run.Agree.refl _).bind
    rintro _ _ rfl
    apply (Run.Agree.refl _).bind
    rintro channels _ rfl
    apply (schedules_agree settings available window unmerged channels).bind
    rintro schedules _ rfl
    exact .refl _
  exact ⟨agree.outcome_eq, agree.elapsed⟩

/-- Where precedence is on and merging is off, with equivalents known and an override laid over. -/
theorem executors_agree_unmerged_overlaid :
    let store : SimulatedStore := ⟨Sample.listings.catalogue, .instant⟩
    let q := Sample.overlaidMorning ⟨⟨[Sample.bbc, Sample.ebs, Sample.pa], true⟩, true⟩
    (store.profile.failure = none ∧ (∃ interval, q.window = .interval interval) ∧
      ¬ q.context.MergesEquivalents) ∧
    ∃ result, (store.executeEquivalent .standard q).outcome = .ok result ∧
      (store.executePlain .standard q).outcome = .ok result := by
  intro store q
  have available : store.profile.failure = none := rfl
  have unmerged : ¬ q.context.MergesEquivalents := by decide
  have answered : ∃ result, (store.executePlain .standard q).outcome = .ok result := ⟨_, rfl⟩
  refine ⟨⟨available, ⟨_, rfl⟩, unmerged⟩, ?_⟩
  obtain ⟨result, plain⟩ := answered
  exact ⟨result, (executors_agree_unmerged .standard available rfl unmerged).1.trans plain, plain⟩

end Agreement
end ChannelGuide
