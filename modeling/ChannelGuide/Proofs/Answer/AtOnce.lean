import Mathlib.Data.List.Find
import ChannelGuide.Proofs.Answer.Requested
import ChannelGuide.Proofs.Equivalence.Selection

/-!
Answers of a store that responds in time. Then nothing times out, every slot can be filled, and base
and override are always for the same channels. So a query that may be asked comes to one schedule for
each of its channels, made for that channel by itself, unless a channel is unknown. How long the
store takes, and what it draws, makes no difference: it answers as if at once.
-/
namespace ChannelGuide

/-- No call of the store can fail or take too long, whatever is drawn for it. -/
structure SimulatedStore.Timely (store : SimulatedStore) (settings : Settings) : Prop where
  available : store.profile.failure = none
  channels : store.profile.longestDelay ≤ settings.channelLimit
  schedules : store.profile.longestDelay ≤ settings.scheduleLimit

theorem ResponseProfile.delivers {α : Type} {profile : ResponseProfile} {limit : Wait}
    (available : profile.failure = none) (intime : profile.longestDelay ≤ limit) (resolver : String)
    (answer : α) : (profile.respond resolver answer).Delivers limit answer := by
  rw [respond_of_available available]
  exact ⟨Nat.le_trans (profile.delayOf_within 0).2 intime, rfl⟩

namespace SimulatedStore

theorem timely_instant (c : Catalogue) (settings : Settings) :
    (SimulatedStore.mk c .instant).Timely settings :=
  ⟨rfl, Nat.zero_le _, Nat.zero_le _⟩

theorem Timely.after {store : SimulatedStore} {settings : Settings}
    (timely : store.Timely settings) (calls : Nat) : (store.after calls).Timely settings := by
  have same : (store.after calls).profile.longestDelay = store.profile.longestDelay :=
    store.profile.longestDelay_after calls
  exact ⟨timely.available, same ▸ timely.channels, same ▸ timely.schedules⟩

theorem Timely.delivers {store : SimulatedStore} {settings : Settings} {α : Type}
    (timely : store.Timely settings) (resolver : String) (answer : α) :
    (store.profile.respond resolver answer).Delivers settings.scheduleLimit answer :=
  ResponseProfile.delivers timely.available timely.schedules resolver answer

end SimulatedStore

namespace Catalogue
variable {c : Catalogue}

/-- The channel that the catalogue knows by the identifier. -/
def known (c : Catalogue) (id : ChannelId) : Except AnswerFault Channel :=
  match c.channels.get? id.value with
  | some channel => .ok channel
  | none => .error (.channelNotFound id)

theorem known_eq_ok {id : ChannelId} {channel : Channel} :
    c.known id = .ok channel ↔ c.channels.get? id.value = some channel := by
  unfold known
  split
  · next found => simp [found]
  · next none => simp [none]

theorem id_of_known {id : ChannelId} {channel : Channel} (known : c.known id = .ok channel) :
    channel.id = id := by
  have number := ((c.channels.get?_eq_some_iff _ _).mp (known_eq_ok.mp known)).2
  exact congrArg ChannelId.mk number

theorem mapM_known (c : Catalogue) (ids : List ChannelId) :
    ids.mapM c.known =
      match ids.find? fun id => c.channels.get? id.value = none with
      | some missing => .error (.channelNotFound missing)
      | none => .ok (c.channelsFor ids) := by
  induction ids with
  | nil => rfl
  | cons id ids ih =>
      simp only [List.mapM_cons, ih, known, List.find?_cons]
      cases found : c.channels.get? id.value with
      | none => rfl
      | some channel =>
          have first : c.channelsFor (id :: ids) = channel :: c.channelsFor ids :=
            List.filterMap_cons_some found
          cases ids.find? fun id => c.channels.get? id.value = none with
          | none => rw [first]; rfl
          | some missing => rfl

theorem mem_channelsFor {ids : List ChannelId} {channel : Channel} :
    channel ∈ c.channelsFor ids ↔ ∃ id ∈ ids, c.known id = .ok channel := by
  simp only [channelsFor, List.mem_filterMap, known_eq_ok]

end Catalogue

namespace Query
variable {q : Query} {c : Catalogue}

theorem resolveChannels_of_delivers {source : ChannelSource} {limit : Wait}
    (delivers : (source q.requestedIds).Delivers limit (c.channelsFor q.requestedIds)) :
    (q.resolveChannels source limit).outcome = q.requestedIds.mapM c.known := by
  have unresolved : (q.requestedIds.find? fun id =>
      ∀ channel ∈ c.channelsFor q.requestedIds, channel.id ≠ id) =
        q.requestedIds.find? fun id => c.channels.get? id.value = none := by
    refine List.find?_congr fun id requested => decide_eq_decide.mpr ⟨fun absent => ?_, ?_⟩
    · by_contra found
      obtain ⟨channel, found⟩ := Option.ne_none_iff_exists'.mp found
      have known := Catalogue.known_eq_ok.mpr found
      exact absent channel (Catalogue.mem_channelsFor.mpr ⟨id, requested, known⟩)
        (Catalogue.id_of_known known)
    · rintro none channel member rfl
      obtain ⟨id, -, known⟩ := Catalogue.mem_channelsFor.mp member
      rw [Catalogue.id_of_known known, Catalogue.known_eq_ok.mp known] at none
      cases none
  unfold resolveChannels
  rw [Catalogue.mapM_known, ← unresolved]
  refine (Run.outcome_bind_of_ok (Run.ask_eq_ok.mpr delivers) _).trans ?_
  cases q.requestedIds.find? fun id =>
      ∀ channel ∈ c.channelsFor q.requestedIds, channel.id ≠ id with
  | none => rfl
  | some missing => rfl

/-- What the answer shows on a channel, if `offered` are the schedules of its publishers there. -/
def shows (q : Query) (offered : Publisher → Channel → ChannelSchedule) (channel : Channel) :
    ChannelSchedule :=
  match q.overridePublisher with
  | none => offered q.publisher channel
  | some publisher => (offered q.publisher channel).laidUnder (offered publisher channel)

theorem shows_related {R S : ChannelSchedule → ChannelSchedule → Prop}
    {offered offered' : Publisher → Channel → ChannelSchedule} {channel : Channel}
    (plain : ∀ s t, R s t → S s t)
    (laid : ∀ s t v w, R s t → R v w → S (s.laidUnder v) (t.laidUnder w))
    (each : ∀ publisher ∈ q.publisher :: q.overridePublisher.toList,
      R (offered publisher channel) (offered' publisher channel)) :
    S (q.shows offered channel) (q.shows offered' channel) := by
  have base := each q.publisher List.mem_cons_self
  unfold shows
  cases overridden : q.overridePublisher with
  | none => exact plain _ _ base
  | some publisher =>
      refine laid _ _ _ _ base (each publisher (List.mem_cons_of_mem _ ?_))
      rw [overridden]
      exact List.mem_singleton_self publisher

/-- The answer of a catalogue in which each known channel shows its schedule by itself. -/
def answerEach (q : Query) (c : Catalogue) (longest : Span) (shown : Channel → ChannelSchedule) :
    Except AnswerFault QueryResult := do
  q.checkAccess
  (q.checkDuration longest).mapError AnswerFault.query
  let channels ← q.requestedIds.mapM c.known
  q.result (channels.map shown)

section AnswerEach
variable {longest : Span} {shown : Channel → ChannelSchedule}

theorem answerEach_of_forbidden {fault : AnswerFault} (access : q.checkAccess = .error fault) :
    q.answerEach c longest shown = .error fault := by
  rw [answerEach, access]
  rfl

theorem answerEach_of_too_long {fault : QueryFault} (access : q.checkAccess = .ok ())
    (duration : q.checkDuration longest = .error fault) :
    q.answerEach c longest shown = .error (.query fault) := by
  rw [answerEach, access, duration]
  rfl

theorem answerEach_of_admitted (access : q.checkAccess = .ok ())
    (duration : q.checkDuration longest = .ok ()) :
    q.answerEach c longest shown =
      q.requestedIds.mapM c.known >>= fun channels => q.result (channels.map shown) := by
  rw [answerEach, access, duration]
  rfl

theorem answerEach_eq_ok_iff {r : QueryResult} :
    q.answerEach c longest shown = .ok r ↔ q.Admitted longest ∧
      ∃ channels, q.requestedIds.mapM c.known = .ok channels ∧
        q.result (channels.map shown) = .ok r := by
  constructor
  · intro ok
    cases access : q.checkAccess with
    | error fault =>
        rw [answerEach_of_forbidden access] at ok
        cases ok
    | ok =>
        cases duration : q.checkDuration longest with
        | error fault =>
            rw [answerEach_of_too_long access duration] at ok
            cases ok
        | ok =>
            rw [answerEach_of_admitted access duration] at ok
            cases known : q.requestedIds.mapM c.known with
            | error fault =>
                rw [known] at ok
                cases ok
            | ok channels =>
                rw [known] at ok
                exact ⟨⟨access, duration⟩, channels, rfl, ok⟩
  · rintro ⟨⟨access, duration⟩, channels, known, made⟩
    rw [answerEach_of_admitted access duration, known]
    exact made

end AnswerEach

theorem ids_of_mapM_known {channels : List Channel}
    (known : q.requestedIds.mapM c.known = .ok channels) :
    channels.map Channel.id = q.requestedIds := by
  have same := map_eq_of_forall₂ (f := id) (g := Channel.id)
    (fun _ _ found => (Catalogue.id_of_known found).symm) (mapM_eq_ok_iff.mp known)
  rw [← same, List.map_id]

end Query

/-- On a route on which a schedule is made for each channel of each publisher by itself, and all
comes in time, each channel of the query shows what is made for it. -/
theorem Route.run_in_time {α : Type} {route : Route α} {q : Query} {c : Catalogue}
    {made : Publisher → Channel → ChannelSchedule}
    (found : (route.channels q.requestedIds).Delivers route.channelLimit
      (c.channelsFor q.requestedIds))
    (own : ∀ publisher channel, (made publisher channel).channel = channel)
    (prepared : ∀ layer channels publisher, channels.map Channel.id = q.requestedIds →
      ∃ answer, (route.source layer channels publisher).Delivers route.scheduleLimit answer ∧
        (route.prepare layer answer).outcome = .ok (channels.map (made publisher))) :
    (route.run q).outcome = q.answerEach c route.longestQuery (q.shows made) := by
  unfold run Query.answerEach
  refine Run.outcome_bind_eq rfl fun _ _ => ?_
  refine Run.outcome_bind_eq rfl fun _ _ => ?_
  refine Run.outcome_bind_eq (Query.resolveChannels_of_delivers found) fun channels known => ?_
  have requested := Query.ids_of_mapM_known known
  have ids (publisher : Publisher) (channel : Channel) :
      (made publisher channel).channel.id = channel.id := congrArg Channel.id (own _ _)
  refine Run.outcome_bind_eq (x := .ok (channels.map (q.shows made))) ?_ fun _ _ => rfl
  obtain ⟨answer, intime, of_answer⟩ := prepared .base channels q.publisher requested
  unfold Query.shows
  cases overridden : q.overridePublisher with
  | none =>
      rw [schedules_alone overridden]
      exact Run.bind_eq_ok.mpr ⟨answer, Run.ask_eq_ok.mpr intime, of_answer⟩
  | some publisher =>
      obtain ⟨upper, intime_too, of_upper⟩ := prepared .override channels publisher requested
      rw [schedules_overridden overridden]
      refine Run.bind_eq_ok.mpr ⟨(answer, upper), ?_, ?_⟩
      · exact Run.both_eq_ok.mpr ⟨Run.ask_eq_ok.mpr intime, Run.ask_eq_ok.mpr intime_too⟩
      · refine Run.bind_eq_ok.mpr ⟨_, of_answer, Run.bind_eq_ok.mpr ⟨_, of_upper, ?_⟩⟩
        exact q.overlayAll_map publisher (ids q.publisher) (ids publisher) channels

section Slots
variable {store : SimulatedStore} {settings : Settings} {q : Query} {channels : List Channel}

/-- What is selected for the query from the publisher's slots on the channel. -/
def Catalogue.selectedFor (c : Catalogue) (matcher : BroadcastMatcher) (q : Query)
    (publisher : Publisher) (channel : Channel) : ChannelSchedule :=
  Selector.filled ⟨precedenceMerger, matcher⟩ q.context
    (c.channelSlotsFor q.window publisher q.selectedSources channel)

theorem Catalogue.channel_selectedFor {c : Catalogue} (matcher : BroadcastMatcher)
    (publisher : Publisher) (channel : Channel) :
    (c.selectedFor matcher q publisher channel).channel = channel :=
  c.channel_channelSlotsFor q.window publisher q.selectedSources channel

theorem select_of_requested (requested : channels.map Channel.id = q.requestedIds)
    (publisher : Publisher) :
    (store.equivalentExecutor settings).select q
        (store.catalogue.slotsFor channels q.window publisher q.selectedSources) =
      .ok (channels.map (store.catalogue.selectedFor settings.matcher q publisher)) := by
  have ordered : inRequestedOrder q.requestedIds
      (channels.map (store.catalogue.selectedFor settings.matcher q publisher)) =
        channels.map (store.catalogue.selectedFor settings.matcher q publisher) :=
    inRequestedOrder_map q.requestedIds_nodup requested
      fun channel => congrArg Channel.id (Catalogue.channel_selectedFor _ _ channel)
  unfold EquivalentExecutor.select
  rw [Catalogue.selectSchedule_slotsFor rfl]
  exact congrArg Except.ok ordered

theorem executeEquivalent_in_time (timely : store.Timely settings) (q : Query) :
    (store.executeEquivalent settings q).outcome =
      q.answerEach store.catalogue settings.longestQuery
        (q.shows (store.catalogue.selectedFor settings.matcher q)) := by
  unfold SimulatedStore.executeEquivalent
  rw [EquivalentExecutor.execute_eq_run]
  refine Route.run_in_time (ResponseProfile.delivers timely.available timely.channels _ _)
    (fun publisher channel => ?_) fun layer channels publisher requested => ?_
  · exact Catalogue.channel_selectedFor settings.matcher publisher channel
  · exact ⟨_, (timely.after _).delivers _ _, select_of_requested requested publisher⟩

theorem executeEquivalent_instant (c : Catalogue) (settings : Settings) (q : Query) :
    ((SimulatedStore.mk c .instant).executeEquivalent settings q).outcome =
      q.answerEach c settings.longestQuery (q.shows (c.selectedFor settings.matcher q)) :=
  executeEquivalent_in_time (SimulatedStore.timely_instant c settings) q

end Slots

section Plain
variable {store : SimulatedStore} {settings : Settings} {q : Query} {channels : List Channel}
  {interval : Interval}

/-- What is prepared for the query from the publisher's window on the channel. -/
def Catalogue.preparedFor (c : Catalogue) (q : Query) (interval : Interval) (publisher : Publisher)
    (channel : Channel) : ChannelSchedule :=
  if q.context.MergesEquivalents then
    (c.windowFor interval publisher channel).merged (c.mergedItem q.context.sources)
  else c.windowFor interval publisher channel

theorem Catalogue.channel_preparedFor {c : Catalogue} (publisher : Publisher) (channel : Channel) :
    (c.preparedFor q interval publisher channel).channel = channel := by
  unfold preparedFor
  split
  · rfl
  · rfl

theorem mem_scheduledIds {schedules : List ChannelSchedule} {id : ItemId} :
    id ∈ (scheduledIds schedules).entries ↔ ∃ s ∈ schedules, ∃ e ∈ s.entries, e.item.id = id := by
  have apart (a b : ItemId) (same : a.value = b.value) : a = b := congrArg ItemId.mk same
  rw [scheduledIds, Register.ofList, Register.mem_insertAll_iff apart]
  simp [Register.empty]

theorem ChannelSchedule.merged_congr {s : ChannelSchedule} {f g : MergedItems}
    (same : ∀ e ∈ s.entries, f e.item.id = g e.item.id) : s.merged f = s.merged g := by
  unfold merged
  congr 1
  refine List.map_congr_left fun e member => ?_
  rw [Entry.merged, Entry.merged, same e member]

theorem ChannelSchedule.merged_of_bare {s : ChannelSchedule} (bare : s.entries = [])
    (f : MergedItems) : s.merged f = s := by
  cases s
  cases bare
  rfl

theorem mergeEquivalents_in_time (timely : store.Timely settings) (layer : Layer)
    (schedules : List ChannelSchedule) :
    ((store.plainExecutor settings).mergeEquivalents q layer schedules).outcome =
      .ok (schedules.map
        (ChannelSchedule.merged (store.catalogue.mergedItem q.context.sources))) := by
  unfold PlainExecutor.mergeEquivalents
  split
  · next none =>
      -- no item is shown anywhere, so there is nothing to merge
      refine congrArg Except.ok ((List.map_id schedules).symm.trans ?_)
      refine List.map_congr_left fun s member => (ChannelSchedule.merged_of_bare ?_ _).symm
      refine List.eq_nil_iff_forall_not_mem.mpr fun e shown => ?_
      have scheduled := mem_scheduledIds.mpr ⟨s, member, e, shown, rfl⟩
      rw [none] at scheduled
      cases scheduled
  · refine Run.bind_eq_ok.mpr ⟨_, Run.ask_eq_ok.mpr ((timely.after _).delivers _ _), ?_⟩
    change Except.ok _ = Except.ok _
    congr 1
    refine List.map_congr_left fun s member => ChannelSchedule.merged_congr fun e shown => ?_
    exact if_pos (mem_scheduledIds.mpr ⟨s, member, e, shown, rfl⟩)

theorem prepare_in_time (timely : store.Timely settings)
    (requested : channels.map Channel.id = q.requestedIds) (layer : Layer)
    (publisher : Publisher) :
    ((store.plainExecutor settings).prepare q layer
        (store.catalogue.scheduleFor channels interval publisher)).outcome =
      .ok (channels.map (store.catalogue.preparedFor q interval publisher)) := by
  have ordered : inRequestedOrder q.requestedIds
      (store.catalogue.scheduleFor channels interval publisher).channelSchedules =
        channels.map (store.catalogue.windowFor interval publisher) :=
    inRequestedOrder_map q.requestedIds_nodup requested fun _ => rfl
  by_cases merges : q.context.MergesEquivalents
  · rw [PlainExecutor.prepare_of_merging merges, ordered, mergeEquivalents_in_time timely,
      List.map_map]
    refine congrArg Except.ok (List.map_congr_left fun channel _ => ?_)
    exact (if_pos merges).symm
  · rw [PlainExecutor.prepare_unmerged merges, ordered]
    refine congrArg Except.ok (List.map_congr_left fun channel _ => ?_)
    exact (if_neg merges).symm

theorem executePlain_in_time (timely : store.Timely settings)
    (window : q.window = .interval interval) :
    (store.executePlain settings q).outcome =
      q.answerEach store.catalogue settings.longestQuery
        (q.shows (store.catalogue.preparedFor q interval)) := by
  unfold SimulatedStore.executePlain
  rw [PlainExecutor.execute_eq_run _ window]
  refine Route.run_in_time (ResponseProfile.delivers timely.available timely.channels _ _)
    (fun publisher channel => ?_) fun layer channels publisher requested => ?_
  · exact Catalogue.channel_preparedFor publisher channel
  · exact ⟨_, (timely.after _).delivers _ _, prepare_in_time timely requested layer publisher⟩

theorem executePlain_instant (c : Catalogue) (settings : Settings)
    (window : q.window = .interval interval) :
    ((SimulatedStore.mk c .instant).executePlain settings q).outcome =
      q.answerEach c settings.longestQuery (q.shows (c.preparedFor q interval)) :=
  executePlain_in_time (SimulatedStore.timely_instant c settings) window

end Plain

/-- A store that responds in time answers every query as if it did at once. -/
theorem in_time_as_at_once {store : SimulatedStore} {settings : Settings}
    (timely : store.Timely settings) (q : Query) :
    let at_once : SimulatedStore := ⟨store.catalogue, .instant⟩
    (store.executeEquivalent settings q).outcome = (at_once.executeEquivalent settings q).outcome ∧
      (store.executePlain settings q).outcome = (at_once.executePlain settings q).outcome := by
  refine ⟨?_, ?_⟩
  · rw [executeEquivalent_in_time timely, executeEquivalent_instant]
  · cases window : q.window with
    | count start n =>
        unfold SimulatedStore.executePlain
        rw [PlainExecutor.execute_of_count window, PlainExecutor.execute_of_count window]
    | interval interval =>
        rw [executePlain_in_time timely window, executePlain_instant _ _ window]

/-- A second, and up to two more as they are drawn. -/
example [Generator] (c : Catalogue) :
    (SimulatedStore.mk c ⟨.ofSeconds 1, some ⟨.ofSeconds 2, 7⟩, none⟩).Timely .standard where
  available := rfl
  channels := (by decide : Wait.ofSeconds 3 ≤ Settings.standard.channelLimit)
  schedules := (by decide : Wait.ofSeconds 3 ≤ Settings.standard.scheduleLimit)

end ChannelGuide
