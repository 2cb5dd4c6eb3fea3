import ChannelGuide.Proofs.Answer.Coverage
import ChannelGuide.Proofs.Answer.Route

/-!
Schedules that nobody asked for. They are left behind, so they should make no difference to a query.
From plain schedules they make none, unless there are different schedules for one requested channel:
then what is taken of these depends on everything that stands among them. From slots they make one
more: items are selected before anything is left behind, so a slot that cannot be filled fails the
query also on a channel that nobody asked for.
-/
namespace ChannelGuide

def ScheduleSlots.onlyFor (ids : List ChannelId) (slots : ScheduleSlots) : ScheduleSlots :=
  { slots with channelSlots := slots.channelSlots.filter fun s => s.channel.id ∈ ids }

def Schedule.onlyFor (ids : List ChannelId) (schedule : Schedule) : Schedule :=
  { schedule with
    channelSchedules := schedule.channelSchedules.filter fun s => s.channel.id ∈ ids }

/-- The executor with collaborators that leave out of their schedules what is not requested. -/
def EquivalentExecutor.onlyRequested (x : EquivalentExecutor) (q : Query) : EquivalentExecutor :=
  { x with slots := fun layer channels window publisher sources =>
      (x.slots layer channels window publisher sources).map (ScheduleSlots.onlyFor q.requestedIds) }

def PlainExecutor.onlyRequested (x : PlainExecutor) (q : Query) : PlainExecutor :=
  { x with schedules := fun layer channels interval publisher =>
      (x.schedules layer channels interval publisher).map (Schedule.onlyFor q.requestedIds) }

namespace Route
variable {α : Type} {route : Route α} {q : Query}

/-- The route, if something else is made of every answer before it is prepared. -/
def mapSource (route : Route α) (f : α → α) : Route α :=
  { route with
    source := fun layer channels publisher => (route.source layer channels publisher).map f }

theorem gets_of_ask {layer : Layer} {channels : List Channel} {publisher : Publisher}
    {answer : α} (resolved : (route.channels q.requestedIds).outcome = .ok channels)
    (asked : (route.ask layer channels publisher).outcome = .ok answer) :
    route.Gets q layer publisher answer :=
  ⟨channels, resolved, (Run.ask_eq_ok.mp asked).answered⟩

/-- If the answers are prepared as before, or cannot be prepared in the first place, then the run is
as before, or fails for an answer that cannot be prepared. -/
theorem run_mapSource {P : AnswerFault → Prop} {f : α → α}
    (each : ∀ layer, ∀ publisher ∈ q.publisherOf layer, ∀ answer,
      route.Gets q layer publisher answer →
        route.prepare layer (f answer) = route.prepare layer answer ∨
          (route.prepare layer answer).FailsWith P) :
    (route.mapSource f).run q = route.run q ∨ (route.run q).FailsWith P := by
  have ask_eq (layer : Layer) (channels : List Channel) (publisher : Publisher) :
      (route.mapSource f).ask layer channels publisher =
        (route.ask layer channels publisher).map f := Run.ask_map _ _ _ _ _
  refine Run.bind_eq_or_failsWith (.inl rfl) fun _ _ => ?_
  refine Run.bind_eq_or_failsWith (.inl rfl) fun _ _ => ?_
  refine Run.bind_eq_or_failsWith (.inl rfl) fun channels resolved => ?_
  have resolved := Query.channels_of_resolveChannels resolved
  refine Run.bind_eq_or_failsWith ?_ fun _ _ => .inl rfl
  cases overridden : q.overridePublisher with
  | none =>
      rw [schedules_alone overridden, schedules_alone overridden, ask_eq, Run.bind_map]
      refine Run.bind_eq_or_failsWith (.inl rfl) fun answer asked => ?_
      exact each .base _ rfl answer (gets_of_ask resolved asked)
  | some publisher =>
      rw [schedules_overridden overridden, schedules_overridden overridden, ask_eq, ask_eq,
        Run.both_map, Run.bind_map]
      refine Run.bind_eq_or_failsWith (.inl rfl) fun answers asked => ?_
      obtain ⟨asked, asked_too⟩ := Run.both_eq_ok.mp asked
      have of_base := each .base _ rfl _ (gets_of_ask resolved asked)
      have of_override := each .override _ overridden _ (gets_of_ask resolved asked_too)
      refine Run.bind_eq_or_failsWith of_base fun _ _ => ?_
      exact Run.bind_eq_or_failsWith of_override fun _ _ => .inl rfl

theorem run_mapSource_eq {f : α → α}
    (each : ∀ layer, ∀ publisher ∈ q.publisherOf layer, ∀ answer,
      route.Gets q layer publisher answer →
        route.prepare layer (f answer) = route.prepare layer answer) :
    (route.mapSource f).run q = route.run q := by
  have never : ¬ (route.run q).FailsWith fun _ => False := fun ⟨_, _, impossible⟩ => impossible
  refine (run_mapSource fun layer publisher asked answer gets => .inl ?_).resolve_right never
  exact each layer publisher asked answer gets

/-- Only where an answer is prepared can a slot be at fault. -/
theorem exists_prepare_eq_error {slot : InconsistentSlot}
    (failed : (route.run q).outcome = .error (.inconsistentSlot slot)) :
    ∃ layer, ∃ publisher ∈ q.publisherOf layer, ∃ answer, route.Gets q layer publisher answer ∧
      (route.prepare layer answer).outcome = .error (.inconsistentSlot slot) := by
  have not_asked {layer : Layer} {channels : List Channel} {publisher : Publisher} :
      (route.ask layer channels publisher).outcome ≠ .error (.inconsistentSlot slot) :=
    fun asked => nomatch Run.ask_eq_error.mp asked
  rcases Run.bind_eq_error.mp failed with refused | ⟨_, -, failed⟩
  · obtain ⟨_, other⟩ := Query.checkAccess_eq_error refused
    cases other
  rcases Run.bind_eq_error.mp failed with too_long | ⟨_, -, failed⟩
  · obtain ⟨_, -, other⟩ := mapError_eq_error.mp too_long
    cases other
  rcases Run.bind_eq_error.mp failed with unresolved | ⟨channels, resolved, failed⟩
  · rcases Query.resolveChannels_eq_error unresolved with fails | ⟨_, other⟩
    · cases fails
    · cases other
  have resolved := Query.channels_of_resolveChannels resolved
  rcases Run.bind_eq_error.mp failed with failed | ⟨_, -, no_result⟩
  · cases overridden : q.overridePublisher with
    | none =>
        rw [schedules_alone overridden] at failed
        rcases Run.bind_eq_error.mp failed with asked | ⟨answer, asked, failed⟩
        · exact absurd asked not_asked
        · exact ⟨.base, _, rfl, answer, gets_of_ask resolved asked, failed⟩
    | some publisher =>
        rw [schedules_overridden overridden] at failed
        rcases Run.bind_eq_error.mp failed with asked | ⟨answers, asked, failed⟩
        · rcases Run.eq_error_of_both asked with asked | asked
          · exact absurd asked not_asked
          · exact absurd asked not_asked
        obtain ⟨asked, asked_too⟩ := Run.both_eq_ok.mp asked
        rcases Run.bind_eq_error.mp failed with failed | ⟨_, -, failed⟩
        · exact ⟨.base, _, rfl, _, gets_of_ask resolved asked, failed⟩
        rcases Run.bind_eq_error.mp failed with failed | ⟨_, -, not_laid⟩
        · exact ⟨.override, _, overridden, _, gets_of_ask resolved asked_too, failed⟩
        · rcases Query.overlayAll_eq_error not_laid with other | ⟨_, other⟩
          · cases other
          · cases other
  · obtain ⟨_, other⟩ := Query.result_eq_error no_result
    cases other

end Route

namespace EquivalentExecutor
variable {x : EquivalentExecutor} {q : Query} {slots : ScheduleSlots}

/-- No publisher's answer to the query holds different slots for one requested channel. -/
def AnswersClearly (x : EquivalentExecutor) (q : Query) : Prop :=
  ∀ layer, ∀ publisher ∈ q.publisherOf layer, ∀ slots, (x.route q).Gets q layer publisher slots →
    Unambiguous q.requestedIds ChannelSlots.channel slots.channelSlots

theorem mem_channelSlots_onlyFor {ids : List ChannelId} {s : ChannelSlots} :
    s ∈ (slots.onlyFor ids).channelSlots ↔ s ∈ slots.channelSlots ∧ s.channel.id ∈ ids := by
  simp [ScheduleSlots.onlyFor]

theorem channel_of_selectChannel_eq_error {selector : Selector} {context : QueryContext}
    {s : ChannelSlots} {fault : InconsistentSlot}
    (failed : selector.selectChannel context s = .error fault) : fault.channel = s.channel.id := by
  unfold Selector.selectChannel at failed
  split at failed
  · cases failed
  · cases failed
    rfl

theorem exists_channel_of_select_eq_error {slot : InconsistentSlot}
    (failed : x.select q slots = .error (.inconsistentSlot slot)) :
    ∃ s ∈ slots.channelSlots, slot.channel = s.channel.id := by
  unfold select at failed
  cases chosen : x.selector.selectSchedule q.context slots with
  | ok schedules =>
      rw [chosen] at failed
      cases failed
  | error fault =>
      rw [chosen] at failed
      cases failed
      obtain ⟨before, s, after, split, -, of_channel⟩ := mapM_eq_error_iff.mp chosen
      rw [split]
      exact ⟨s, List.mem_append_right _ List.mem_cons_self,
        channel_of_selectChannel_eq_error of_channel⟩

/-- Leaving out the slots of unrequested channels changes nothing, unless the first slot that cannot
be filled is one of them. -/
theorem select_onlyFor (clear : Unambiguous q.requestedIds ChannelSlots.channel slots.channelSlots) :
    x.select q (slots.onlyFor q.requestedIds) = x.select q slots ∨
      ∃ slot, x.select q slots = .error (.inconsistentSlot slot) ∧
        slot.channel ∉ q.requestedIds := by
  cases chosen : x.selector.selectSchedule q.context slots with
  | ok schedules =>
      have selects : x.select q slots = .ok (inRequestedOrder q.requestedIds schedules) := by
        rw [select, chosen]
        rfl
      refine .inl ((select_congr selects clear (fun s requested => ?_) fun s member => ?_).trans
        selects.symm)
      · rw [mem_channelSlots_onlyFor]
        exact (and_iff_left requested).symm
      · exact exists_mapM_eq_ok.mp ⟨schedules, chosen⟩ s (mem_channelSlots_onlyFor.mp member).1
  | error fault =>
      have fails : x.select q slots = .error (.inconsistentSlot fault) := by
        rw [select, chosen]
        rfl
      obtain ⟨before, s, after, split, fine, of_channel⟩ := mapM_eq_error_iff.mp chosen
      by_cases requested : s.channel.id ∈ q.requestedIds
      · have chosen_too : x.selector.selectSchedule q.context (slots.onlyFor q.requestedIds) =
            .error fault := by
          refine mapM_eq_error_iff.mpr ⟨before.filter fun s => s.channel.id ∈ q.requestedIds, s,
            after.filter fun s => s.channel.id ∈ q.requestedIds, ?_, fun other earlier => ?_,
            of_channel⟩
          · rw [ScheduleSlots.onlyFor, split, List.filter_append,
              List.filter_cons_of_pos (by simpa using requested)]
          · exact fine other (List.mem_filter.mp earlier).1
        rw [fails, select, chosen_too]
        exact .inl rfl
      · exact .inr ⟨fault, fails, channel_of_selectChannel_eq_error of_channel ▸ requested⟩

theorem route_onlyRequested (x : EquivalentExecutor) (q : Query) :
    (x.onlyRequested q).route q =
      (x.route q).mapSource (ScheduleSlots.onlyFor q.requestedIds) := rfl

/-- A fault of a slot of a channel that was not requested. -/
def UnrequestedSlot (q : Query) (fault : AnswerFault) : Prop :=
  ∃ slot, fault = .inconsistentSlot slot ∧ slot.channel ∉ q.requestedIds

theorem execute_onlyRequested (clear : x.AnswersClearly q) :
    (x.onlyRequested q).execute q = x.execute q ∨ (x.execute q).FailsWith (UnrequestedSlot q) := by
  rw [execute_eq_run, execute_eq_run, route_onlyRequested]
  refine Route.run_mapSource fun layer publisher asked slots gets => ?_
  have clear := clear layer publisher asked slots gets
  rcases select_onlyFor (x := x) clear with same | ⟨slot, failed, other⟩
  · exact .inl (congrArg Run.ofOutcome same)
  · exact .inr ⟨_, failed, slot, rfl, other⟩

theorem requested_of_execute_onlyRequested {slot : InconsistentSlot}
    (failed : ((x.onlyRequested q).execute q).outcome = .error (.inconsistentSlot slot)) :
    slot.channel ∈ q.requestedIds := by
  rw [execute_eq_run, route_onlyRequested] at failed
  obtain ⟨layer, publisher, -, answer, ⟨channels, -, replied⟩, failed⟩ :=
    Route.exists_prepare_eq_error failed
  obtain ⟨slots, -, rfl⟩ := map_eq_ok.mp replied
  obtain ⟨s, member, of_channel⟩ := exists_channel_of_select_eq_error failed
  rw [of_channel]
  exact (mem_channelSlots_onlyFor.mp member).2

end EquivalentExecutor

namespace PlainExecutor
variable {x : PlainExecutor} {q : Query} {layer : Layer}

/-- No publisher's answer to the query holds different schedules for one requested channel. -/
def AnswersClearly (x : PlainExecutor) (q : Query) : Prop :=
  ∀ interval, q.window = .interval interval → ∀ layer, ∀ publisher ∈ q.publisherOf layer,
    ∀ schedule, (x.route q interval).Gets q layer publisher schedule →
      Unambiguous q.requestedIds ChannelSchedule.channel schedule.channelSchedules

theorem route_onlyRequested (x : PlainExecutor) (q : Query) (interval : Interval) :
    (x.onlyRequested q).route q interval =
      (x.route q interval).mapSource (Schedule.onlyFor q.requestedIds) := rfl

theorem prepare_onlyFor {schedule : Schedule}
    (clear : Unambiguous q.requestedIds ChannelSchedule.channel schedule.channelSchedules) :
    x.prepare q layer (schedule.onlyFor q.requestedIds) = x.prepare q layer schedule := by
  have taken : inRequestedOrder q.requestedIds (schedule.onlyFor q.requestedIds).channelSchedules =
      inRequestedOrder q.requestedIds schedule.channelSchedules := by
    refine (inRequestedOrder_congr q.requestedIds_nodup clear fun s requested => ?_).symm
    simp [Schedule.onlyFor, requested]
  rw [prepare, prepare, taken]

theorem execute_onlyRequested (clear : x.AnswersClearly q) :
    (x.onlyRequested q).execute q = x.execute q := by
  cases window : q.window with
  | count start n => rw [execute, execute, window]
  | interval interval =>
      rw [execute_eq_run _ window, execute_eq_run _ window, route_onlyRequested]
      exact Route.run_mapSource_eq fun layer publisher asked schedule gets =>
        prepare_onlyFor (clear interval window layer publisher asked schedule gets)

end PlainExecutor

/-- Unless an answer holds different schedules for one requested channel: schedules of channels that
were not requested make no difference to a query through plain schedules; and to a query through
slots they make one exactly if it fails for a slot of such a channel. -/
theorem unrequested_without_effect {x : EquivalentExecutor} {y : PlainExecutor} {q : Query} :
    (x.AnswersClearly q →
      (((x.onlyRequested q).execute q).outcome = (x.execute q).outcome ↔
        ∀ slot, (x.execute q).outcome = .error (.inconsistentSlot slot) →
          slot.channel ∈ q.requestedIds)) ∧
    (y.AnswersClearly q → (y.onlyRequested q).execute q = y.execute q) := by
  refine ⟨fun clear => ⟨fun same slot failed => ?_, fun requested => ?_⟩, fun clear => ?_⟩
  · exact EquivalentExecutor.requested_of_execute_onlyRequested (same.trans failed)
  · rcases EquivalentExecutor.execute_onlyRequested clear with same | ⟨_, failed, slot, rfl, other⟩
    · exact congrArg Run.outcome same
    · exact absurd (requested slot failed) other
  · exact PlainExecutor.execute_onlyRequested clear

namespace Sample

/-- The second channel of the listings, which a query for the first does not ask for. -/
def second : Channel := { id := ⟨2⟩, key := "bbctwo", title := "BBC Two", availableFrom := [] }

/-- The listings, with the second channel before those that are asked for. -/
def generousSlots : EquivalentExecutor :=
  let store : SimulatedStore := ⟨listings.catalogue, .instant⟩
  { store.equivalentExecutor .standard with
    slots := fun _ channels => store.slotSource (second :: channels) }

def generousSchedules : PlainExecutor :=
  let store : SimulatedStore := ⟨listings.catalogue, .instant⟩
  { store.plainExecutor .standard with
    schedules := fun _ channels => store.scheduleSource (second :: channels) }

/-- The listings, with nothing to fill a slot of the second channel. -/
def emptySlots : EquivalentExecutor :=
  { generousSlots with
    slots := fun layer channels window publisher sources =>
      (generousSlots.slots layer channels window publisher sources).map fun answer =>
        { answer with channelSlots := answer.channelSlots.map fun s =>
            if s.channel = second then { s with slots := s.slots.map ({ · with items := [] }) }
            else s } }

/-- Two schedules for the second channel, and one for a ninth. -/
def repeatedSchedules : PlainExecutor :=
  .ofSettings (fun ids => ⟨.zero, .ok (ids.map fun id => Channel.named id "")⟩)
    (fun _ interval _ => ⟨.zero, .ok ⟨[untilNoon 3, untilNoon 1, untilNoon 2, untilTen 2,
      untilNoon 9], interval⟩⟩)
    (fun _ _ => ⟨.zero, .ok fun _ => []⟩) .standard

end Sample

theorem unrequested_without_effect_generous :
    let q := Sample.firstChannel ⟨⟨[Sample.pa], false⟩, false⟩
    ((Sample.generousSlots.onlyRequested q).execute q).outcome =
      (Sample.generousSlots.execute q).outcome ∧
    (Sample.generousSchedules.onlyRequested q).execute q = Sample.generousSchedules.execute q := by
  intro q
  have once : ([⟨2⟩, ⟨1⟩] : List ChannelId).Nodup := by decide
  obtain ⟨of_slots, of_schedules⟩ := unrequested_without_effect (x := Sample.generousSlots)
    (y := Sample.generousSchedules) (q := q)
  constructor
  · refine (of_slots ?_).mpr fun slot failed => nomatch failed
    rintro layer publisher - slots ⟨channels, resolved, replied⟩
    obtain rfl := Except.ok.inj resolved
    obtain rfl := Except.ok.inj replied
    refine unambiguous_of_nodup ?_ _
    exact once
  · refine of_schedules ?_
    rintro interval - layer publisher - schedule ⟨channels, resolved, replied⟩
    obtain rfl := Except.ok.inj resolved
    obtain rfl := Except.ok.inj replied
    refine unambiguous_of_nodup ?_ _
    exact once

/-- A slot that cannot be filled fails the query on a channel that was not requested. -/
theorem unrequested_slot_fails_query :
    let q := Sample.firstChannel ⟨⟨[Sample.pa], false⟩, false⟩
    q.requestedIds = [⟨1⟩] ∧
    (Sample.emptySlots.execute q).outcome =
      .error (.inconsistentSlot ⟨⟨2⟩, .noItems (Sample.clock 9 0)⟩) ∧
    ∃ r, ((Sample.emptySlots.onlyRequested q).execute q).outcome = .ok r :=
  ⟨rfl, rfl, _, rfl⟩

/-- A channel that was not requested decides which of two schedules is taken for one that was. -/
theorem unrequested_schedule_decides_repeated :
    let q := { Sample.overlaidMorning ⟨⟨[Sample.pa], false⟩, false⟩ with
      scope := .multi [⟨1⟩, ⟨3⟩, ⟨2⟩], overridePublisher := none
      scope_acceptable := ⟨by decide, by decide⟩ }
    (Sample.repeatedSchedules.execute q).outcome =
      .ok (.list [Sample.untilNoon 1, Sample.untilNoon 3, Sample.untilTen 2]) ∧
    ((Sample.repeatedSchedules.onlyRequested q).execute q).outcome =
      .ok (.list [Sample.untilNoon 1, Sample.untilNoon 3, Sample.untilNoon 2]) :=
  ⟨rfl, rfl⟩

end ChannelGuide
