import ChannelGuide.Catalogue.Sample
import ChannelGuide.Proofs.Answer.Steps
import ChannelGuide.Proofs.Catalogue.Readable
import ChannelGuide.Proofs.Equivalence.Selection
import ChannelGuide.Proofs.Overlay.Interleaving

/-!
What may not be read does not matter. Catalogues that differ only in items of publishers that the
asker may not read answer every query in one and the same run, whichever executor is asked; and all
that an answer shows may be read.
-/
namespace ChannelGuide

/-- Every item that the schedule shows may be read. -/
def ChannelSchedule.Readable (sources : SourcePrecedence) (s : ChannelSchedule) : Prop :=
  ∀ e ∈ s.entries, e.item.Readable sources

theorem ChannelSchedule.readable_of_overlaidBy {sources : SourcePrecedence}
    {base overrides merged : ChannelSchedule} (base_readable : base.Readable sources)
    (overrides_readable : overrides.Readable sources)
    (ok : base.overlaidBy overrides = .ok merged) : merged.Readable sources := by
  intro e member
  rw [entries_of_overlaidBy ok] at member
  rcases mem_overlay member with of_override | ⟨o, ho, same, -⟩
  · exact overrides_readable e (overrides.mem_sortedEntries.mp of_override)
  · rw [same.item]
    exact base_readable o (base.mem_sortedEntries.mp ho)

section Selection
variable {selector : Selector} {context : QueryContext}

theorem item_mem_of_selectSlot (by_precedence : selector.merger = precedenceMerger) {slot : Slot}
    {e : Entry} (ok : selector.selectSlot context slot = .ok e) : e.item ∈ slot.items := by
  unfold Selector.selectSlot at ok
  split at ok
  · unfold Selector.mergeSlot at ok
    split at ok
    · next item alone =>
        cases ok
        rw [by_precedence] at alone
        exact precedenceMerger_subset slot.items (alone ▸ List.mem_cons_self)
    · cases ok
  · unfold Selector.chooseItem at ok
    split at ok
    · next item chosen =>
        cases ok
        rcases Option.or_eq_some_iff.mp chosen with found | ⟨-, first⟩
        · exact List.mem_of_find?_eq_some found
        · exact List.mem_of_head? first
    · cases ok

/-- A selected entry shows one of the items that its slot was open to. -/
theorem exists_slot_of_select {x : EquivalentExecutor} {q : Query}
    (by_precedence : x.selector.merger = precedenceMerger) {slots : ScheduleSlots}
    {selected : List ChannelSchedule} (ok : x.select q slots = .ok selected)
    {s : ChannelSchedule} (hs : s ∈ selected) {e : Entry} (he : e ∈ s.entries) :
    ∃ channelSlots ∈ slots.channelSlots, ∃ slot ∈ channelSlots.slots, e.item ∈ slot.items := by
  obtain ⟨schedules, selects, rfl⟩ := EquivalentExecutor.exists_of_select ok
  obtain ⟨channelSlots, listed, filled⟩ :=
    (mem_mapM_iff selects).mp (inRequestedOrder_subset _ _ hs)
  refine ⟨channelSlots, listed, ?_⟩
  unfold Selector.selectChannel at filled
  split at filled
  · next entries each =>
      cases filled
      obtain ⟨slot, of_channel, fills⟩ := (mem_mapM_iff each).mp he
      exact ⟨slot, of_channel, item_mem_of_selectSlot by_precedence fills⟩
  · cases filled

end Selection

section Offers
variable {c : Catalogue} {sources : SourcePrecedence} {publisher : Publisher}

theorem readable_of_openSlot {publishers : List Publisher}
    (all_enabled : ∀ publisher ∈ publishers, sources.ReadEnabled publisher) {e : Entry}
    (readable : e.item.Readable sources) :
    ∀ item ∈ (c.openSlot publishers e).items, item.Readable sources :=
  fun _ member => Catalogue.readable_of_mem_equivalenceSet all_enabled readable member

theorem readable_of_airings (enabled : sources.ReadEnabled publisher) {channel : ChannelId}
    {Airs : Broadcast → Prop} [DecidablePred Airs] {e : Entry}
    (member : e ∈ c.airings channel publisher Airs) : e.item.Readable sources := by
  rw [Item.Readable, (Catalogue.mem_airings.mp member).2.1.1]
  exact enabled

theorem readable_of_slotsFor (enabled : sources.ReadEnabled publisher) {publishers : List Publisher}
    (all_enabled : ∀ publisher ∈ publishers, sources.ReadEnabled publisher) {window : Window}
    {channels : List Channel} :
    ∀ channelSlots ∈ (c.slotsFor channels window publisher publishers).channelSlots,
      ∀ slot ∈ channelSlots.slots, ∀ item ∈ slot.items, item.Readable sources := by
  intro channelSlots listed slot of_channel
  rw [Catalogue.channelSlots_slotsFor] at listed
  obtain ⟨channel, -, rfl⟩ := List.mem_map.mp listed
  obtain ⟨e, -, ⟨of_publisher, -⟩, rfl⟩ := Catalogue.exists_openSlot of_channel
  have readable : e.item.Readable sources := by
    rw [Item.Readable, of_publisher]
    exact enabled
  exact readable_of_openSlot all_enabled readable

theorem readable_of_windowFor (enabled : sources.ReadEnabled publisher) (interval : Interval)
    (channel : Channel) : (c.windowFor interval publisher channel).Readable sources :=
  fun _ member => readable_of_airings enabled member

theorem get?_of_windowFor {interval : Interval} {channel : Channel} {e : Entry}
    (member : e ∈ (c.windowFor interval publisher channel).entries) :
    c.items.get? e.item.id.value = some e.item :=
  Register.get?_of_mem (Catalogue.mem_listed.mp (Catalogue.mem_airings.mp member).1).1

/-- In a slot nothing of an item changes but its broadcasts. -/
theorem Item.restrictedTo_eq (item : Item) (slot : Broadcast) :
    item.restrictedTo slot = { item with broadcasts := (item.restrictedTo slot).broadcasts } := by
  unfold restrictedTo
  split
  · rfl
  · rfl

theorem Item.publisher_restrictedTo (item : Item) (slot : Broadcast) :
    (item.restrictedTo slot).publisher = item.publisher := by
  rw [restrictedTo_eq]

theorem readable_of_merged (precedence : sources.precedenceEnabled = true) (ids : List ItemId)
    {e : Entry} (known : c.items.get? e.item.id.value = some e.item)
    (readable : e.item.Readable sources) :
    (e.merged (c.mergedFor ids sources)).item.Readable sources := by
  unfold Entry.merged Item.Readable
  rw [Item.publisher_restrictedTo]
  cases chosen : (c.mergedFor ids sources e.item.id).head? with
  | none => exact readable
  | some item =>
      have member := List.mem_of_head? chosen
      unfold Catalogue.mergedFor at member
      split at member
      · exact Catalogue.readable_of_mem_mergedItem precedence known readable member
      · exact absurd member List.not_mem_nil

end Offers

section Executors
variable {store : SimulatedStore} {settings : Settings} {q : Query} {layer : Layer}
  {publisher : Publisher} {s : ChannelSchedule}

theorem readable_of_selected (access : q.checkAccess = .ok ())
    (enabled : q.context.sources.ReadEnabled publisher)
    (offered : (store.equivalentExecutor settings).Offers q layer publisher s) :
    s.Readable q.context.sources := by
  obtain ⟨channels, slots, selected, replied, selects, hs⟩ := offered
  rw [ResponseProfile.respond_eq_ok replied] at selects
  intro e he
  obtain ⟨channelSlots, listed, slot, of_channel, shown⟩ := exists_slot_of_select rfl selects hs he
  exact readable_of_slotsFor enabled
    (fun _ selected => Query.readEnabled_of_mem_selectedSources access selected) channelSlots listed
    slot of_channel e.item shown

theorem readable_of_prepared {interval : Interval}
    (enabled : q.context.sources.ReadEnabled publisher)
    (offered : (store.plainExecutor settings).Offers q interval layer publisher s) :
    s.Readable q.context.sources := by
  obtain ⟨channels, schedule, prepared, replied, prepares, hs⟩ := offered
  rw [ResponseProfile.respond_eq_ok replied] at prepares
  have unchanged : s ∈ inRequestedOrder q.requestedIds
      (store.catalogue.scheduleFor channels interval publisher).channelSchedules →
      s.Readable q.context.sources := by
    intro ordered
    obtain ⟨channel, rfl⟩ := exists_windowFor_of_ordered ordered
    exact readable_of_windowFor enabled interval channel
  by_cases merges : q.context.MergesEquivalents
  · rw [PlainExecutor.prepare_of_merging merges] at prepares
    rcases PlainExecutor.merged_of_mergeEquivalents prepares with rfl | ⟨merged, asked, rfl⟩
    · exact unchanged hs
    · obtain ⟨plain, ordered, rfl⟩ := List.mem_map.mp hs
      obtain ⟨channel, rfl⟩ := exists_windowFor_of_ordered ordered
      rw [ResponseProfile.respond_eq_ok asked]
      intro e he
      obtain ⟨shown, scheduled, rfl⟩ := List.mem_map.mp he
      exact readable_of_merged merges.1 _ (get?_of_windowFor scheduled)
        (readable_of_windowFor enabled interval channel shown scheduled)
  · rw [PlainExecutor.prepare_unmerged merges] at prepares
    cases prepares
    exact unchanged hs

theorem readable_of_composed {Offered : Layer → Publisher → ChannelSchedule → Prop}
    (access : q.checkAccess = .ok ())
    (each : ∀ layer publisher s, q.context.sources.ReadEnabled publisher →
      Offered layer publisher s → s.Readable q.context.sources)
    (composed : q.Composed Offered s) : s.Readable q.context.sources := by
  obtain ⟨base_enabled, override_enabled⟩ := Query.checkAccess_eq_ok.mp access
  cases composed with
  | base plain offered => exact each _ _ _ base_enabled offered
  | overlaid overridden offered upper laid =>
      exact ChannelSchedule.readable_of_overlaidBy (each _ _ _ base_enabled offered)
        (each _ _ _ (override_enabled _ overridden) upper) laid

end Executors

section TwoCatalogues
variable {c c' : Catalogue} {profile : ResponseProfile} {settings : Settings} {q : Query}
  {layer : Layer} {publisher : Publisher} {interval : Interval}

theorem resolveChannels_eq (same : c.SameFor q.context.sources c') (limit : Wait) :
    q.resolveChannels (SimulatedStore.mk c profile).channelSource limit =
      q.resolveChannels (SimulatedStore.mk c' profile).channelSource limit := by
  have sources : (SimulatedStore.mk c profile).channelSource =
      (SimulatedStore.mk c' profile).channelSource := by
    funext ids
    exact congrArg (profile.respond "simulated channel store") (same.channelsFor_eq ids)
  rw [sources]

theorem askSlots_eq (same : c.SameFor q.context.sources c') (access : q.checkAccess = .ok ())
    (enabled : q.context.sources.ReadEnabled publisher) (channels : List Channel) :
    ((SimulatedStore.mk c profile).equivalentExecutor settings).askSlots q layer channels
        publisher =
      ((SimulatedStore.mk c' profile).equivalentExecutor settings).askSlots q layer channels
        publisher := by
  have slots := same.slotsFor_eq enabled
    (fun _ selected => Query.readEnabled_of_mem_selectedSources access selected) channels q.window
  exact congrArg (fun slots => Run.ask _ layer.operation settings.scheduleLimit
    ((profile.after _).respond "simulated equivalent schedule store" slots)) slots

theorem executeEquivalent_eq (same : c.SameFor q.context.sources c') :
    (SimulatedStore.mk c profile).executeEquivalent settings q =
      (SimulatedStore.mk c' profile).executeEquivalent settings q := by
  unfold SimulatedStore.executeEquivalent
  rw [EquivalentExecutor.execute_eq_run, EquivalentExecutor.execute_eq_run]
  refine Route.run_congr rfl (resolveChannels_eq same _) ?_ fun _ _ _ _ _ _ _ => rfl
  intro access layer publisher asked channels
  exact askSlots_eq same access (Query.readEnabled_of_publisherOf access asked) channels

theorem askSchedule_eq (same : c.SameFor q.context.sources c')
    (enabled : q.context.sources.ReadEnabled publisher) (channels : List Channel) :
    ((SimulatedStore.mk c profile).plainExecutor settings).askSchedule layer channels interval
        publisher =
      ((SimulatedStore.mk c' profile).plainExecutor settings).askSchedule layer channels interval
        publisher :=
  congrArg (fun schedule => Run.ask _ layer.operation settings.scheduleLimit
    ((profile.after _).respond "simulated schedule store" schedule))
    (same.scheduleFor_eq enabled channels interval)

theorem mergeEquivalents_eq (same : c.SameFor q.context.sources c')
    (merges : q.context.MergesEquivalents) {schedules : List ChannelSchedule}
    (known : ∀ id ∈ (scheduledIds schedules).entries,
      ∃ item, c.items.get? id.value = some item ∧ item.Readable q.context.sources) :
    ((SimulatedStore.mk c profile).plainExecutor settings).mergeEquivalents q layer schedules =
      ((SimulatedStore.mk c' profile).plainExecutor settings).mergeEquivalents q layer
        schedules := by
  have merged := same.mergedFor_eq merges.1 known
  unfold PlainExecutor.mergeEquivalents
  split
  · rfl
  · next ids some_ids =>
      apply Run.bind_congr _ fun _ _ => rfl
      exact congrArg (fun merged => Run.ask _ .equivalents settings.scheduleLimit
        ((profile.after _).respond "simulated equivalents store" merged)) merged

theorem known_of_scheduled {schedules : List ChannelSchedule}
    (enabled : q.context.sources.ReadEnabled publisher)
    (windows : ∀ s ∈ schedules, ∃ channel, s = c.windowFor interval publisher channel) :
    ∀ id ∈ (scheduledIds schedules).entries,
      ∃ item, c.items.get? id.value = some item ∧ item.Readable q.context.sources := by
  intro id member
  obtain ⟨s, hs, shown⟩ := List.mem_flatMap.mp (Register.mem_of_mem_ofList member)
  obtain ⟨channel, rfl⟩ := windows s hs
  obtain ⟨e, scheduled, rfl⟩ := List.mem_map.mp shown
  exact ⟨e.item, get?_of_windowFor scheduled,
    readable_of_windowFor enabled interval channel e scheduled⟩

theorem prepare_eq (same : c.SameFor q.context.sources c')
    (enabled : q.context.sources.ReadEnabled publisher) (channels : List Channel) :
    ((SimulatedStore.mk c profile).plainExecutor settings).prepare q layer
        (c.scheduleFor channels interval publisher) =
      ((SimulatedStore.mk c' profile).plainExecutor settings).prepare q layer
        (c.scheduleFor channels interval publisher) := by
  by_cases merges : q.context.MergesEquivalents
  · rw [PlainExecutor.prepare_of_merging merges, PlainExecutor.prepare_of_merging merges]
    apply mergeEquivalents_eq same merges
    exact known_of_scheduled enabled fun _ ordered => exists_windowFor_of_ordered ordered
  · rw [PlainExecutor.prepare_unmerged merges, PlainExecutor.prepare_unmerged merges]

theorem schedule_of_ask {store : SimulatedStore} {channels : List Channel} {schedule : Schedule}
    (asked : ((store.plainExecutor settings).askSchedule layer channels interval
      publisher).outcome = .ok schedule) :
    schedule = store.catalogue.scheduleFor channels interval publisher :=
  ResponseProfile.respond_eq_ok (Run.ask_eq_ok.mp asked).answered

theorem executePlain_eq (same : c.SameFor q.context.sources c') :
    (SimulatedStore.mk c profile).executePlain settings q =
      (SimulatedStore.mk c' profile).executePlain settings q := by
  unfold SimulatedStore.executePlain
  cases window : q.window with
  | count start n =>
      unfold PlainExecutor.execute
      rw [window]
  | interval i =>
      rw [PlainExecutor.execute_eq_run _ window, PlainExecutor.execute_eq_run _ window]
      refine Route.run_congr rfl (resolveChannels_eq same _) ?_ ?_
      · intro access layer publisher asked channels
        exact askSchedule_eq same (Query.readEnabled_of_publisherOf access asked) channels
      · -- what is asked about equivalents depends on what came back, and this is the same
        intro access layer publisher asked channels schedule replied
        obtain rfl := schedule_of_ask replied
        exact prepare_eq same (Query.readEnabled_of_publisherOf access asked) channels

end TwoCatalogues

/-- Catalogues that are the same for the asker answer alike, whichever executor is asked and however
the store responds; and what an answer shows may be read. -/
theorem readable_only {c c' : Catalogue} {q : Query} (same : c.SameFor q.context.sources c')
    (profile : ResponseProfile) (settings : Settings) :
    let store : SimulatedStore := ⟨c, profile⟩
    let other : SimulatedStore := ⟨c', profile⟩
    store.executeEquivalent settings q = other.executeEquivalent settings q ∧
      store.executePlain settings q = other.executePlain settings q ∧
      ∀ r, (store.executeEquivalent settings q).outcome = .ok r ∨
          (store.executePlain settings q).outcome = .ok r →
        ∀ s ∈ r.schedules, s.Readable q.context.sources := by
  intro store other
  refine ⟨executeEquivalent_eq same, executePlain_eq same, ?_⟩
  rintro r (answered | answered) s member
  · have access := EquivalentExecutor.checkAccess_of_execute answered
    apply readable_of_composed access _ (EquivalentExecutor.composed answered s member)
    exact fun _ _ _ enabled offered => readable_of_selected access enabled offered
  · obtain ⟨interval, window⟩ := PlainExecutor.exists_window_of_execute answered
    have access := PlainExecutor.checkAccess_of_execute answered
    apply readable_of_composed access _ (PlainExecutor.composed window answered s member)
    exact fun _ _ _ enabled offered => readable_of_prepared enabled offered

/-- Where `bbc` may not be read, its film makes no difference, though it is equivalent to one that is
shown. -/
theorem readable_only_other_listings :
    let store : SimulatedStore := ⟨Sample.listings.catalogue, .instant⟩
    let other : SimulatedStore := ⟨Sample.otherListings.catalogue, .instant⟩
    let q := Sample.overlaidMorning ⟨⟨[Sample.pa, Sample.ebs], true⟩, false⟩
    store.catalogue.items.entries ≠ other.catalogue.items.entries ∧
    store.catalogue.SameFor q.context.sources other.catalogue ∧
    ∃ r, (store.executePlain .standard q).outcome = .ok r ∧
      (other.executePlain .standard q).outcome = .ok r ∧
      ∀ s ∈ r.schedules, s.Readable q.context.sources := by
  intro store other q
  have same : store.catalogue.SameFor q.context.sources other.catalogue :=
    .of_filter_eq rfl rfl (by decide)
  have answered : ∃ r, (store.executePlain .standard q).outcome = .ok r := ⟨_, rfl⟩
  obtain ⟨r, answered⟩ := answered
  obtain ⟨-, plain, readable⟩ := readable_only same .instant .standard
  refine ⟨by decide, same, r, answered, ?_, readable r (.inr answered)⟩
  exact (congrArg Run.outcome plain).symm.trans answered

end ChannelGuide
