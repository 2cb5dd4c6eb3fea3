import ChannelGuide.Proofs.Answer.Pairing

/-!
The order in which collaborators answer. Channels, slots and schedules may come in any order, as
each is found by its channel and the result follows the request. So if two runs of a query get the
same answers in different orders, either both fail or both have the same result.
-/
namespace ChannelGuide

/-- The same slots, in another order; no two of them for one channel. -/
structure ScheduleSlots.Rearranged (slots others : ScheduleSlots) : Prop where
  perm : slots.channelSlots.Perm others.channelSlots
  once : slots.channelIds.Nodup

structure Schedule.Rearranged (schedule other : Schedule) : Prop where
  perm : schedule.channelSchedules.Perm other.channelSchedules
  once : (channelIds schedule.channelSchedules).Nodup

theorem ScheduleSlots.Rearranged.symm {slots others : ScheduleSlots}
    (rearranged : slots.Rearranged others) : others.Rearranged slots where
  perm := rearranged.perm.symm
  once := by
    have channels := rearranged.perm.map fun s => s.channel.id
    exact channels.nodup_iff.mp rearranged.once

theorem Query.resolveChannels_alike {q : Query} {source other : ChannelSource} {limit : Wait}
    (alike : (source q.requestedIds).Alike List.Perm limit (other q.requestedIds)) :
    Run.Alike List.Perm (q.resolveChannels source limit) (q.resolveChannels other limit) := by
  refine (Run.Alike.ask alike).bind fun channels channels_too _ _ perm => ?_
  have missing : (q.requestedIds.find? fun id => ∀ channel ∈ channels, channel.id ≠ id) =
      q.requestedIds.find? fun id => ∀ channel ∈ channels_too, channel.id ≠ id := by
    simp only [perm.mem_iff]
  rw [missing]
  split
  · exact .failed nofun nofun
  · exact .succeeded rfl rfl perm

namespace Route
variable {α : Type} {R : α → α → Prop} {route other : Route α} {q : Query}

/-- The collaborators of the second route answer as those of the first do, if channels may come in
any order and `R` is the same in another order. -/
structure Reordered (R : α → α → Prop) (q : Query) (route other : Route α) : Prop where
  channelLimit : route.channelLimit = other.channelLimit
  scheduleLimit : route.scheduleLimit = other.scheduleLimit
  longestQuery : route.longestQuery = other.longestQuery
  channels : (route.channels q.requestedIds).Alike List.Perm route.channelLimit
    (other.channels q.requestedIds)
  source : ∀ channels others, (route.channels q.requestedIds).Delivers route.channelLimit channels →
    (other.channels q.requestedIds).Delivers route.channelLimit others →
    ∀ layer, ∀ publisher ∈ q.publisherOf layer,
      (route.source layer channels publisher).Alike R route.scheduleLimit
        (other.source layer others publisher)

theorem ask_alike {channels others : List Channel} {layer : Layer} {publisher : Publisher}
    (limits : route.scheduleLimit = other.scheduleLimit)
    (alike : (route.source layer channels publisher).Alike R route.scheduleLimit
      (other.source layer others publisher)) :
    Run.Alike R (route.ask layer channels publisher) (other.ask layer others publisher) := by
  rw [ask, ask, ← limits]
  exact .ask alike

/-- If what is prepared of an answer does not depend on its order, then the result does not. -/
theorem run_alike (reordered : Reordered R q route other)
    (prepared : ∀ layer a b, R a b →
      Run.Alike Eq (route.prepare layer a) (other.prepare layer b)) :
    Run.Alike Eq (route.run q) (other.run q) := by
  obtain ⟨channelLimit, scheduleLimit, longestQuery, found, source⟩ := reordered
  rw [run, run, ← channelLimit, ← longestQuery]
  refine (Run.Alike.refl _).bind ?_
  rintro _ _ - - rfl
  refine (Run.Alike.refl _).bind ?_
  rintro _ _ - - rfl
  refine (Query.resolveChannels_alike found).bind fun channels others resolved resolved_too _ => ?_
  have asked := source _ _ (Query.resolveChannels_eq_ok.mp resolved).1
    (Query.resolveChannels_eq_ok.mp resolved_too).1
  refine Run.Alike.bind (R := Eq) ?_ fun schedules _ _ _ same => same ▸ .refl _
  have primary := ask_alike scheduleLimit (asked .base _ rfl)
  cases overridden : q.overridePublisher with
  | none =>
      rw [schedules_alone overridden, schedules_alone overridden]
      exact primary.bind fun a b _ _ related => prepared .base a b related
  | some publisher =>
      have secondary := ask_alike scheduleLimit (asked .override _ overridden)
      rw [schedules_overridden overridden, schedules_overridden overridden]
      refine (primary.both secondary).bind fun answers others _ _ related => ?_
      refine (prepared .base _ _ related.1).bind ?_
      rintro bases _ - - rfl
      refine (prepared .override _ _ related.2).bind ?_
      rintro overrides _ - - rfl
      exact .refl _

end Route

namespace EquivalentExecutor
variable {x x' : EquivalentExecutor} {q : Query} {slots others : ScheduleSlots}

theorem select_of_rearranged {selected : List ChannelSchedule} (rearranged : slots.Rearranged others)
    (selects : x.select q slots = .ok selected) : x.select q others = .ok selected := by
  have clear : Unambiguous q.requestedIds ChannelSlots.channel slots.channelSlots :=
    unambiguous_of_nodup rearranged.once _
  refine select_congr selects clear (fun s _ => rearranged.perm.mem_iff) fun s member => ?_
  obtain ⟨schedules, chosen, -⟩ := exists_of_select selects
  exact exists_mapM_eq_ok.mp ⟨schedules, chosen⟩ s (rearranged.perm.mem_iff.mpr member)

theorem select_alike (selectors : x.selector = x'.selector) (rearranged : slots.Rearranged others) :
    Run.Alike Eq (Run.ofOutcome (x.select q slots)) (Run.ofOutcome (x'.select q others)) := by
  have same : x'.select q others = x.select q others := by
    rw [select, select, selectors]
  rw [same]
  refine Run.Alike.eq_iff.mpr fun selected => ⟨select_of_rearranged rearranged, ?_⟩
  exact select_of_rearranged rearranged.symm

/-- The second executor gets the answers of the first, in another order. -/
structure Reordered (q : Query) (x x' : EquivalentExecutor) : Prop where
  selector : x.selector = x'.selector
  route : Route.Reordered ScheduleSlots.Rearranged q (x.route q) (x'.route q)

end EquivalentExecutor

namespace PlainExecutor
variable {x x' : PlainExecutor} {q : Query} {layer : Layer}

/-- The second executor gets the answers of the first, in another order; and about equivalents, which
have none, the same. -/
structure Reordered (q : Query) (x x' : PlainExecutor) : Prop where
  equivalents : ∀ layer ids, (x.equivalents layer ids q.context.sources).Alike Eq x.scheduleLimit
    (x'.equivalents layer ids q.context.sources)
  route : ∀ interval, q.window = .interval interval →
    Route.Reordered Schedule.Rearranged q (x.route q interval) (x'.route q interval)

theorem mergeEquivalents_alike (limits : x.scheduleLimit = x'.scheduleLimit)
    (equivalents : ∀ ids, (x.equivalents layer ids q.context.sources).Alike Eq x.scheduleLimit
      (x'.equivalents layer ids q.context.sources)) (schedules : List ChannelSchedule) :
    Run.Alike Eq (x.mergeEquivalents q layer schedules)
      (x'.mergeEquivalents q layer schedules) := by
  rw [mergeEquivalents, mergeEquivalents, ← limits]
  split
  · exact .refl _
  · refine (Run.Alike.ask (equivalents _)).bind ?_
    rintro merged _ - - rfl
    exact .refl _

theorem prepare_alike (limits : x.scheduleLimit = x'.scheduleLimit)
    (equivalents : ∀ ids, (x.equivalents layer ids q.context.sources).Alike Eq x.scheduleLimit
      (x'.equivalents layer ids q.context.sources)) {schedule other : Schedule}
    (rearranged : schedule.Rearranged other) :
    Run.Alike Eq (x.prepare q layer schedule) (x'.prepare q layer other) := by
  have taken : inRequestedOrder q.requestedIds schedule.channelSchedules =
      inRequestedOrder q.requestedIds other.channelSchedules :=
    inRequestedOrder_congr q.requestedIds_nodup (unambiguous_of_nodup rearranged.once _)
      fun s _ => rearranged.perm.mem_iff
  by_cases merges : q.context.MergesEquivalents
  · rw [prepare_of_merging merges, prepare_of_merging merges, taken]
    exact mergeEquivalents_alike limits equivalents _
  · rw [prepare_unmerged merges, prepare_unmerged merges, taken]
    exact .refl _

end PlainExecutor

/-- Two runs of a query that get the same answers in different orders succeed alike, with the same
result. -/
theorem order_of_answers_without_effect {x x' : EquivalentExecutor} {y y' : PlainExecutor}
    {q : Query} :
    (x.Reordered q x' → ∀ r, (x.execute q).outcome = .ok r ↔ (x'.execute q).outcome = .ok r) ∧
    (y.Reordered q y' → ∀ r, (y.execute q).outcome = .ok r ↔ (y'.execute q).outcome = .ok r) := by
  constructor
  · rintro ⟨selectors, reordered⟩
    rw [x.execute_eq_run, x'.execute_eq_run, ← Run.Alike.eq_iff]
    exact Route.run_alike reordered fun _ slots others rearranged =>
      EquivalentExecutor.select_alike selectors rearranged
  · rintro ⟨equivalents, reordered⟩
    cases window : q.window with
    | count start n =>
        intro r
        rw [PlainExecutor.execute, PlainExecutor.execute, window]
    | interval interval =>
        have reordered := reordered interval window
        rw [y.execute_eq_run window, y'.execute_eq_run window, ← Run.Alike.eq_iff]
        exact Route.run_alike reordered fun layer schedule other rearranged =>
          PlainExecutor.prepare_alike reordered.scheduleLimit (equivalents layer) rearranged

namespace Sample

/-- The listings, with the channels in the opposite order of the request. -/
def turnedSlots : EquivalentExecutor :=
  { crossedSlots with channels := fun ids => (crossedSlots.channels ids).map List.reverse }

def turnedSchedules : PlainExecutor :=
  { crossedSchedules with channels := fun ids => (crossedSchedules.channels ids).map List.reverse }

end Sample

theorem order_of_answers_without_effect_turned :
    let q := Sample.overlaidMorning ⟨⟨[Sample.pa, Sample.ebs], false⟩, false⟩
    (∃ r, (Sample.crossedSlots.execute q).outcome = .ok r ∧
      (Sample.turnedSlots.execute q).outcome = .ok r) ∧
    ∃ r, (Sample.crossedSchedules.execute q).outcome = .ok r ∧
      (Sample.turnedSchedules.execute q).outcome = .ok r := by
  intro q
  have once : ([⟨1⟩, ⟨2⟩] : List ChannelId).Nodup := by decide
  have once_too : ([⟨2⟩, ⟨1⟩] : List ChannelId).Nodup := by decide
  obtain ⟨of_slots, of_schedules⟩ := @order_of_answers_without_effect Sample.crossedSlots
    Sample.turnedSlots Sample.crossedSchedules Sample.turnedSchedules q
  constructor
  · refine ⟨_, rfl, (of_slots ⟨rfl, rfl, rfl, rfl, ?_, ?_⟩ _).mp rfl⟩
    · exact .at_once (List.reverse_perm _).symm _
    · intro channels others found found_too
      obtain rfl := Except.ok.inj found.answered
      obtain rfl := Except.ok.inj found_too.answered
      rintro (_ | _) _ ⟨⟩
      · exact .at_once ⟨(List.reverse_perm _).symm.map _, once⟩ _
      · exact .at_once ⟨(List.reverse_perm _).symm.map _, once_too⟩ _
  · refine ⟨_, rfl, (of_schedules ⟨fun layer ids => ?_, fun interval window => ?_⟩ _).mp rfl⟩
    · cases layer <;> exact .at_once rfl _
    · refine ⟨rfl, rfl, rfl, .at_once (List.reverse_perm _).symm _, ?_⟩
      intro channels others found found_too
      obtain rfl := Except.ok.inj found.answered
      obtain rfl := Except.ok.inj found_too.answered
      rintro (_ | _) _ ⟨⟩
      · exact .at_once ⟨(List.reverse_perm _).symm.map _, once⟩ _
      · exact .at_once ⟨(List.reverse_perm _).symm.map _, once_too⟩ _

end ChannelGuide
