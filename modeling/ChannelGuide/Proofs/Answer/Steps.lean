import Mathlib.Data.List.Forall2
import ChannelGuide.Catalogue.Store
import ChannelGuide.Proofs.Answer.Route
import ChannelGuide.Proofs.Catalogue.Airings
import ChannelGuide.Proofs.Overlay.Placement

/-!
What the steps of an answer leave behind when they succeed. However a query is answered, its answer
is composed of schedules that were offered for its publishers: one of the base, or one of the base
with one of the overrides laid over.
-/
namespace ChannelGuide

section Traversal
variable {α β ε : Type} {f : α → Except ε β} {xs : List α} {ys : List β}

theorem mapM_eq_ok_iff :
    xs.mapM f = .ok ys ↔ List.Forall₂ (fun x y => f x = .ok y) xs ys := by
  induction xs generalizing ys with
  | nil => simp [pure, Except.pure, eq_comm]
  | cons x xs ih =>
      rw [List.mapM_cons, List.forall₂_cons_left_iff]
      cases head : f x with
      | error e => simp [bind, Except.bind]
      | ok y =>
          cases tail : xs.mapM f with
          | error e => simp [bind, Except.bind, ← ih, tail]
          | ok zs => simp [bind, Except.bind, pure, Except.pure, ← ih, tail, eq_comm]

/-- A traversal that fails does so at the first member that fails. -/
theorem mapM_eq_error_iff {e : ε} :
    xs.mapM f = .error e ↔ ∃ before x after, xs = before ++ x :: after ∧
      (∀ other ∈ before, ∃ y, f other = .ok y) ∧ f x = .error e := by
  induction xs with
  | nil => simp [pure, Except.pure]
  | cons x xs ih =>
      rw [List.mapM_cons]
      constructor
      · intro failed
        cases head : f x with
        | error e' =>
            rw [head] at failed
            cases failed
            exact ⟨[], x, xs, rfl, fun _ none => absurd none List.not_mem_nil, head⟩
        | ok y =>
            have tail : xs.mapM f = .error e := by
              cases tail : xs.mapM f with
              | error e' =>
                  rw [head, tail] at failed
                  cases failed
                  rfl
              | ok ys =>
                  rw [head, tail] at failed
                  cases failed
            obtain ⟨before, z, after, rfl, fine, fault⟩ := ih.mp tail
            exact ⟨x :: before, z, after, rfl, List.forall_mem_cons.mpr ⟨⟨y, head⟩, fine⟩, fault⟩
      · rintro ⟨before, z, after, split, fine, fault⟩
        cases before with
        | nil =>
            cases split
            rw [fault]
            rfl
        | cons w before =>
            cases split
            obtain ⟨⟨y, head⟩, fine⟩ := List.forall_mem_cons.mp fine
            rw [head, ih.mpr ⟨before, z, after, rfl, fine, fault⟩]
            rfl

theorem mem_mapM_iff (ok : xs.mapM f = .ok ys) {y : β} : y ∈ ys ↔ ∃ x ∈ xs, f x = .ok y := by
  have related := mapM_eq_ok_iff.mp ok
  clear ok
  induction related with
  | nil => simp
  | @cons x z xs zs head _ ih => simp [head, ih, eq_comm]

theorem mapM_eq_filterMap (each : ∀ x ∈ xs, ∃ y, f x = .ok y) :
    xs.mapM f = .ok (xs.filterMap fun x => (f x).toOption) := by
  rw [mapM_eq_ok_iff]
  induction xs with
  | nil => exact .nil
  | cons x xs ih =>
      obtain ⟨y, made⟩ := each x List.mem_cons_self
      rw [List.filterMap_cons, made]
      exact .cons made (ih fun z later => each z (List.mem_cons_of_mem x later))

theorem exists_mapM_eq_ok : (∃ ys, xs.mapM f = .ok ys) ↔ ∀ x ∈ xs, ∃ y, f x = .ok y := by
  constructor
  · rintro ⟨ys, ok⟩
    rw [mapM_eq_ok_iff] at ok
    induction ok with
    | nil => exact fun _ none => absurd none List.not_mem_nil
    | cons head _ ih => exact List.forall_mem_cons.mpr ⟨⟨_, head⟩, ih⟩
  · exact fun each => ⟨_, mapM_eq_filterMap each⟩

theorem forall₂_map_iff {γ : Type} {R : β → γ → Prop} {f : α → β} {g : α → γ} :
    List.Forall₂ R (xs.map f) (xs.map g) ↔ ∀ x ∈ xs, R (f x) (g x) := by
  rw [List.forall₂_map_left_iff, List.forall₂_map_right_iff, List.forall₂_same]

theorem mapM_map_eq_ok {γ : Type} {g : γ → α} {h : γ → β} {zs : List γ}
    (each : ∀ z ∈ zs, f (g z) = .ok (h z)) : (zs.map g).mapM f = .ok (zs.map h) := by
  rw [mapM_eq_ok_iff, forall₂_map_iff]
  exact each

theorem mapM_map {γ : Type} (f : α → Except ε β) (g : β → γ) (xs : List α) :
    xs.mapM (fun x => (f x).map g) = (xs.mapM f).map (List.map g) := by
  induction xs with
  | nil => rfl
  | cons x xs ih =>
      rw [List.mapM_cons, List.mapM_cons, ih]
      cases f x with
      | error e => rfl
      | ok y => cases xs.mapM f <;> rfl

end Traversal

theorem lastToFront_perm {α : Type} (xs : List α) : (lastToFront xs).Perm xs := by
  unfold lastToFront
  split
  · next none => rw [List.getLast?_eq_none_iff.mp none]
  · next last found =>
      have split := List.dropLast_append_getLast? last found
      exact (List.perm_append_singleton last xs.dropLast).symm.trans (.of_eq split)

/-- A schedule is taken out of the list at the first place of its channel, and the last one of those
behind it is put there. -/
theorem exists_of_takeSchedule? {id : ChannelId} {schedules rest : List ChannelSchedule}
    {found : ChannelSchedule} (taken : takeSchedule? id schedules = some (found, rest)) :
    ∃ before after, schedules = before ++ found :: after ∧
      (∀ s ∈ before, s.channel.id ≠ id) ∧ found.channel.id = id ∧
      rest = before ++ lastToFront after := by
  induction schedules generalizing rest with
  | nil => cases taken
  | cons s schedules ih =>
      rw [takeSchedule?] at taken
      split at taken
      · next here =>
          cases taken
          exact ⟨[], schedules, rfl, fun _ none => absurd none List.not_mem_nil, here, rfl⟩
      · next elsewhere =>
          obtain ⟨⟨_, others⟩, deeper, same⟩ := Option.map_eq_some_iff.mp taken
          cases same
          obtain ⟨before, after, rfl, none_before, here, rfl⟩ := ih deeper
          exact ⟨s :: before, after, rfl, List.forall_mem_cons.mpr ⟨elsewhere, none_before⟩, here,
            rfl⟩

theorem takeSchedule?_perm {id : ChannelId} {schedules rest : List ChannelSchedule}
    {found : ChannelSchedule} (taken : takeSchedule? id schedules = some (found, rest)) :
    (found :: rest).Perm schedules := by
  obtain ⟨before, after, rfl, -, -, rfl⟩ := exists_of_takeSchedule? taken
  exact (((lastToFront_perm after).append_left before).cons found).trans List.perm_middle.symm

theorem inRequestedOrder_subset (ids : List ChannelId) (schedules : List ChannelSchedule) :
    inRequestedOrder ids schedules ⊆ schedules := by
  induction ids generalizing schedules with
  | nil => exact List.nil_subset schedules
  | cons id ids ih =>
      rw [inRequestedOrder]
      split
      · exact ih schedules
      · next found rest taken =>
          have all := (takeSchedule?_perm taken).subset
          refine List.cons_subset.mpr ⟨all List.mem_cons_self, ?_⟩
          exact fun s member => all (List.mem_cons_of_mem found (ih rest member))

namespace Query
variable {q : Query}

theorem checkAccess_eq_ok :
    q.checkAccess = .ok () ↔ q.context.sources.ReadEnabled q.publisher ∧
      ∀ publisher ∈ q.overridePublisher, q.context.sources.ReadEnabled publisher := by
  have nobody : q.checkAccess = .ok () ↔ (q.publisher :: q.overridePublisher.toList).find?
      (fun publisher => ¬ q.context.sources.ReadEnabled publisher) = none := by
    unfold checkAccess
    split
    · next refused => simp only [refused, reduceCtorEq]
    · next none => simp only [none]
  rw [nobody, List.find?_eq_none]
  simp

theorem readEnabled_of_publisherOf (access : q.checkAccess = .ok ()) {layer : Layer}
    {publisher : Publisher} (asked : publisher ∈ q.publisherOf layer) :
    q.context.sources.ReadEnabled publisher := by
  obtain ⟨base_enabled, override_enabled⟩ := checkAccess_eq_ok.mp access
  cases layer with
  | base =>
      cases asked
      exact base_enabled
  | override => exact override_enabled publisher asked

theorem checkAccess_eq_error {fault : AnswerFault} (refused : q.checkAccess = .error fault) :
    ∃ publisher, fault = .forbidden publisher := by
  unfold checkAccess at refused
  split at refused
  · next publisher _ =>
      cases refused
      exact ⟨publisher, rfl⟩
  · cases refused

theorem find?_missing_eq_none {channels : List Channel} :
    (q.requestedIds.find? fun id => ∀ channel ∈ channels, channel.id ≠ id) = none ↔
      ∀ id ∈ q.requestedIds, ∃ channel ∈ channels, channel.id = id := by
  simp

theorem resolveChannels_eq_ok {source : ChannelSource} {limit : Wait} {channels : List Channel} :
    (q.resolveChannels source limit).outcome = .ok channels ↔
      (source q.requestedIds).Delivers limit channels ∧
        ∀ id ∈ q.requestedIds, ∃ channel ∈ channels, channel.id = id := by
  rw [resolveChannels, Run.bind_eq_ok]
  constructor
  · rintro ⟨found, asked, ok⟩
    split at ok
    · cases ok
    · next complete =>
        cases ok
        exact ⟨Run.ask_eq_ok.mp asked, find?_missing_eq_none.mp complete⟩
  · rintro ⟨delivers, complete⟩
    exact ⟨channels, Run.ask_eq_ok.mpr delivers, by rw [find?_missing_eq_none.mpr complete]; rfl⟩

theorem resolveChannels_eq_error {source : ChannelSource} {limit : Wait} {fault : AnswerFault}
    (failed : (q.resolveChannels source limit).outcome = .error fault) :
    (source q.requestedIds).Fails .channels limit fault ∨ ∃ id, fault = .channelNotFound id := by
  rcases Run.bind_eq_error.mp failed with asked | ⟨channels, -, missing⟩
  · exact .inl (Run.ask_eq_error.mp asked)
  · split at missing
    · next id _ =>
        cases missing
        exact .inr ⟨id, rfl⟩
    · cases missing

theorem overlayAll_eq_error {publisher : Publisher} {bases overrides : List ChannelSchedule}
    {fault : AnswerFault} (failed : q.overlayAll publisher bases overrides = .error fault) :
    fault = .inconsistentMergeInput bases.length overrides.length q.requestedIds publisher ∨
      ∃ mismatch, fault = .merge mismatch := by
  unfold overlayAll at failed
  split at failed
  · cases failed
    exact .inl rfl
  · obtain ⟨_, _, _, -, -, mismatched⟩ := mapM_eq_error_iff.mp failed
    obtain ⟨mismatch, -, rfl⟩ := mapError_eq_error.mp mismatched
    exact .inr ⟨mismatch, rfl⟩

theorem result_eq_error {schedules : List ChannelSchedule} {fault : AnswerFault}
    (failed : q.result schedules = .error fault) : ∃ id, fault = .channelNotFound id := by
  unfold result at failed
  split at failed
  · next id _ =>
      split at failed
      · cases failed
      · cases failed
        exact ⟨id, rfl⟩
  · cases failed

theorem readEnabled_of_mem_selectedSources (access : q.checkAccess = .ok ()) {publisher : Publisher}
    (selected : publisher ∈ q.selectedSources) : q.context.sources.ReadEnabled publisher := by
  unfold selectedSources at selected
  split at selected
  · exact selected
  · rw [List.mem_singleton.mp selected]
    exact (checkAccess_eq_ok.mp access).1

theorem overlaidBy_of_overlayAll {publisher : Publisher}
    {bases overrides schedules : List ChannelSchedule}
    (ok : q.overlayAll publisher bases overrides = .ok schedules) {s : ChannelSchedule}
    (member : s ∈ schedules) : ∃ b ∈ bases, ∃ v ∈ overrides, b.overlaidBy v = .ok s := by
  unfold overlayAll at ok
  split at ok
  · cases ok
  · obtain ⟨⟨b, v⟩, paired, laid⟩ := (mem_mapM_iff ok).mp member
    exact ⟨b, (List.of_mem_zip paired).1, v, (List.of_mem_zip paired).2, mapError_eq_ok.mp laid⟩

theorem schedules_subset_of_result {schedules : List ChannelSchedule} {r : QueryResult}
    (ok : q.result schedules = .ok r) : r.schedules ⊆ schedules := by
  unfold result at ok
  split at ok
  · split at ok
    · cases ok
      exact List.cons_subset.mpr ⟨List.mem_cons_self, List.nil_subset _⟩
    · cases ok
  · cases ok
    exact List.Subset.refl schedules

/-- A schedule of the answer, if `Offered` are the schedules of the publishers that are asked, layer
by layer. -/
inductive Composed (q : Query) (Offered : Layer → Publisher → ChannelSchedule → Prop) :
    ChannelSchedule → Prop
  | base {s : ChannelSchedule} : q.overridePublisher = none → Offered .base q.publisher s →
      Composed q Offered s
  | overlaid {b v s : ChannelSchedule} {publisher : Publisher} :
      q.overridePublisher = some publisher → Offered .base q.publisher b →
      Offered .override publisher v → b.overlaidBy v = .ok s → Composed q Offered s

variable {Offered Other : Layer → Publisher → ChannelSchedule → Prop}

theorem Composed.imp
    (each : ∀ layer publisher s, Offered layer publisher s → Other layer publisher s)
    {s : ChannelSchedule} (composed : q.Composed Offered s) : q.Composed Other s := by
  cases composed with
  | base plain offered => exact .base plain (each _ _ _ offered)
  | overlaid overridden offered upper laid =>
      exact .overlaid overridden (each _ _ _ offered) (each _ _ _ upper) laid

/-- The schedules of an answer, if `Prepared` are the lists that its publishers' schedules make,
layer by layer. -/
inductive Assembled (q : Query) (Prepared : Layer → Publisher → List ChannelSchedule → Prop) :
    List ChannelSchedule → Prop
  | base {bases : List ChannelSchedule} : q.overridePublisher = none →
      Prepared .base q.publisher bases → Assembled q Prepared bases
  | overlaid {bases overrides schedules : List ChannelSchedule} {publisher : Publisher} :
      q.overridePublisher = some publisher → Prepared .base q.publisher bases →
      Prepared .override publisher overrides →
      q.overlayAll publisher bases overrides = .ok schedules → Assembled q Prepared schedules

theorem Assembled.composed {Prepared : Layer → Publisher → List ChannelSchedule → Prop}
    {schedules : List ChannelSchedule} (assembled : q.Assembled Prepared schedules)
    (each : ∀ layer publisher prepared, Prepared layer publisher prepared →
      ∀ s ∈ prepared, Offered layer publisher s) : ∀ s ∈ schedules, q.Composed Offered s := by
  intro s member
  cases assembled with
  | base plain prepared => exact .base plain (each _ _ _ prepared s member)
  | overlaid overridden prepared upper ok =>
      obtain ⟨b, hb, v, hv, laid⟩ := overlaidBy_of_overlayAll ok member
      exact .overlaid overridden (each _ _ _ prepared b hb) (each _ _ _ upper v hv) laid

end Query

namespace Route
variable {α : Type} {route : Route α} {q : Query}

/-- The schedules of a layer that are prepared from the answer for the publisher on the channels. -/
def Prepares (route : Route α) (channels : List Channel) (layer : Layer) (publisher : Publisher)
    (prepared : List ChannelSchedule) : Prop :=
  ∃ answer, (route.source layer channels publisher).outcome = .ok answer ∧
    (route.prepare layer answer).outcome = .ok prepared

theorem assembled_of_schedules {channels : List Channel} {schedules : List ChannelSchedule}
    (made : (route.schedules q channels).outcome = .ok schedules) :
    q.Assembled (route.Prepares channels) schedules := by
  cases overridden : q.overridePublisher with
  | none =>
      rw [schedules_alone overridden] at made
      obtain ⟨answer, asked, prepared⟩ := Run.bind_eq_ok.mp made
      exact .base overridden ⟨answer, (Run.ask_eq_ok.mp asked).answered, prepared⟩
  | some publisher =>
      rw [schedules_overridden overridden] at made
      obtain ⟨⟨answer, upper⟩, asked, made⟩ := Run.bind_eq_ok.mp made
      obtain ⟨bases, prepared, made⟩ := Run.bind_eq_ok.mp made
      obtain ⟨overrides, prepared_too, made⟩ := Run.bind_eq_ok.mp made
      obtain ⟨primary, secondary⟩ := Run.both_eq_ok.mp asked
      exact .overlaid overridden ⟨answer, (Run.ask_eq_ok.mp primary).answered, prepared⟩
        ⟨upper, (Run.ask_eq_ok.mp secondary).answered, prepared_too⟩ made

theorem checkAccess_of_run {r : QueryResult} (ok : (route.run q).outcome = .ok r) :
    q.checkAccess = .ok () := by
  obtain ⟨_, access, -⟩ := Run.bind_eq_ok.mp ok
  exact access

/-- How an answer came about. -/
theorem assembled_of_run {r : QueryResult} (ok : (route.run q).outcome = .ok r) :
    ∃ channels schedules,
      (q.resolveChannels route.channels route.channelLimit).outcome = .ok channels ∧
        q.Assembled (route.Prepares channels) schedules ∧ q.result schedules = .ok r := by
  obtain ⟨_, -, ok⟩ := Run.bind_eq_ok.mp ok
  obtain ⟨_, -, ok⟩ := Run.bind_eq_ok.mp ok
  obtain ⟨channels, resolved, ok⟩ := Run.bind_eq_ok.mp ok
  obtain ⟨schedules, made, ok⟩ := Run.bind_eq_ok.mp ok
  exact ⟨channels, schedules, resolved, assembled_of_schedules made, ok⟩

theorem composed_of_run {Offered : Layer → Publisher → ChannelSchedule → Prop}
    {r : QueryResult} (ok : (route.run q).outcome = .ok r)
    (each : ∀ channels layer publisher prepared, route.Prepares channels layer publisher prepared →
      ∀ s ∈ prepared, Offered layer publisher s) : ∀ s ∈ r.schedules, q.Composed Offered s := by
  intro s member
  obtain ⟨channels, schedules, -, assembled, ok⟩ := assembled_of_run ok
  exact assembled.composed (each channels) s (Query.schedules_subset_of_result ok member)

end Route

namespace EquivalentExecutor
variable {x : EquivalentExecutor} {q : Query}

/-- Selected for a layer from the slots of this publisher, for some channels. -/
def Offers (x : EquivalentExecutor) (q : Query) (layer : Layer) (publisher : Publisher)
    (s : ChannelSchedule) : Prop :=
  ∃ channels slots selected,
    (x.slots layer channels q.window publisher q.selectedSources).outcome = .ok slots ∧
      x.select q slots = .ok selected ∧ s ∈ selected

/-- The schedules of a layer that are selected from the slots of the publisher on the channels. -/
def Selects (x : EquivalentExecutor) (q : Query) (channels : List Channel) (layer : Layer)
    (publisher : Publisher) (selected : List ChannelSchedule) : Prop :=
  ∃ slots, (x.slots layer channels q.window publisher q.selectedSources).outcome = .ok slots ∧
    x.select q slots = .ok selected

theorem checkAccess_of_execute {r : QueryResult} (ok : (x.execute q).outcome = .ok r) :
    q.checkAccess = .ok () := by
  rw [execute_eq_run] at ok
  exact Route.checkAccess_of_run ok

theorem assembled_of_execute {r : QueryResult} (ok : (x.execute q).outcome = .ok r) :
    ∃ channels schedules,
      (q.resolveChannels x.channels x.channelLimit).outcome = .ok channels ∧
        q.Assembled (x.Selects q channels) schedules ∧ q.result schedules = .ok r := by
  rw [execute_eq_run] at ok
  exact Route.assembled_of_run ok

theorem composed {r : QueryResult} (ok : (x.execute q).outcome = .ok r) :
    ∀ s ∈ r.schedules, q.Composed (x.Offers q) s := by
  rw [execute_eq_run] at ok
  refine Route.composed_of_run ok ?_
  rintro channels layer publisher prepared ⟨slots, replied, selects⟩ s selected
  exact ⟨channels, slots, prepared, replied, selects, selected⟩

theorem exists_of_select {slots : ScheduleSlots} {selected : List ChannelSchedule}
    (ok : x.select q slots = .ok selected) :
    ∃ schedules, x.selector.selectSchedule q.context slots = .ok schedules ∧
      selected = inRequestedOrder q.requestedIds schedules := by
  unfold select at ok
  cases selects : x.selector.selectSchedule q.context slots with
  | error fault =>
      rw [selects] at ok
      cases ok
  | ok schedules =>
      rw [selects] at ok
      cases ok
      exact ⟨schedules, rfl, rfl⟩

end EquivalentExecutor

namespace PlainExecutor
variable {x : PlainExecutor} {q : Query} {interval : Interval} {layer : Layer}

/-- Prepared for a layer from the schedules of this publisher, for some channels. -/
def Offers (x : PlainExecutor) (q : Query) (interval : Interval) (layer : Layer)
    (publisher : Publisher) (s : ChannelSchedule) : Prop :=
  ∃ channels schedule prepared,
    (x.schedules layer channels interval publisher).outcome = .ok schedule ∧
      (x.prepare q layer schedule).outcome = .ok prepared ∧ s ∈ prepared

/-- The schedules of a layer that are prepared from those of the publisher on the channels. -/
def Prepares (x : PlainExecutor) (q : Query) (interval : Interval) (channels : List Channel)
    (layer : Layer) (publisher : Publisher) (prepared : List ChannelSchedule) : Prop :=
  ∃ schedule, (x.schedules layer channels interval publisher).outcome = .ok schedule ∧
    (x.prepare q layer schedule).outcome = .ok prepared

theorem execute_of_interval (window : q.window = .interval interval) :
    x.execute q = (do
      q.checkAccess
      (q.checkDuration x.longestQuery).mapError AnswerFault.query
      let channels ← q.resolveChannels x.channels x.channelLimit
      let schedules ← x.schedulesIn q interval channels
      q.result schedules) := by
  rw [execute, window]

theorem execute_of_count {start : Instant} {n : UInt64} (window : q.window = .count start n) :
    (x.execute q).outcome = .error .countUnsupported := by
  rw [execute, window]
  rfl

theorem exists_window_of_execute {r : QueryResult} (ok : (x.execute q).outcome = .ok r) :
    ∃ interval, q.window = .interval interval := by
  unfold execute at ok
  split at ok
  · cases ok
  · next interval window => exact ⟨interval, window⟩

theorem checkAccess_of_execute {r : QueryResult} (ok : (x.execute q).outcome = .ok r) :
    q.checkAccess = .ok () := by
  obtain ⟨interval, window⟩ := exists_window_of_execute ok
  rw [execute_eq_run x window] at ok
  exact Route.checkAccess_of_run ok

theorem assembled_of_execute (window : q.window = .interval interval) {r : QueryResult}
    (ok : (x.execute q).outcome = .ok r) :
    ∃ channels schedules,
      (q.resolveChannels x.channels x.channelLimit).outcome = .ok channels ∧
        q.Assembled (x.Prepares q interval channels) schedules ∧ q.result schedules = .ok r := by
  rw [execute_eq_run x window] at ok
  exact Route.assembled_of_run ok

theorem composed (window : q.window = .interval interval) {r : QueryResult}
    (ok : (x.execute q).outcome = .ok r) :
    ∀ s ∈ r.schedules, q.Composed (x.Offers q interval) s := by
  rw [execute_eq_run x window] at ok
  refine Route.composed_of_run ok ?_
  rintro channels layer publisher prepared ⟨schedule, replied, prepares⟩ s member
  exact ⟨channels, schedule, prepared, replied, prepares, member⟩

theorem prepare_of_merging (merges : q.context.MergesEquivalents) (schedule : Schedule) :
    x.prepare q layer schedule =
      x.mergeEquivalents q layer (inRequestedOrder q.requestedIds schedule.channelSchedules) :=
  if_pos merges

theorem prepare_unmerged (unmerged : ¬ q.context.MergesEquivalents) (schedule : Schedule) :
    x.prepare q layer schedule = pure (inRequestedOrder q.requestedIds schedule.channelSchedules) :=
  if_neg unmerged

theorem merged_of_mergeEquivalents {schedules prepared : List ChannelSchedule}
    (ok : (x.mergeEquivalents q layer schedules).outcome = .ok prepared) :
    prepared = schedules ∨ ∃ merged,
      (x.equivalents layer (scheduledIds schedules).entries q.context.sources).outcome = .ok merged ∧
        prepared = schedules.map (ChannelSchedule.merged merged) := by
  unfold mergeEquivalents at ok
  split at ok
  · cases ok
    exact .inl rfl
  · next ids some_ids =>
      obtain ⟨merged, asked, made⟩ := Run.bind_eq_ok.mp ok
      cases made
      exact .inr ⟨merged, (Run.ask_eq_ok.mp asked).answered, rfl⟩

end PlainExecutor

namespace ResponseProfile
variable {α : Type} {profile : ResponseProfile}

theorem respond_eq_ok {resolver : String} {answer a : α}
    (ok : (profile.respond resolver answer).outcome = .ok a) : a = answer := by
  unfold respond at ok
  cases failing : profile.failure with
  | some reason => simp [failing] at ok
  | none => simpa [failing, eq_comm] using ok

theorem respond_of_available (available : profile.failure = none) (resolver : String)
    (answer : α) : profile.respond resolver answer = ⟨profile.delayOf 0, .ok answer⟩ := by
  rw [respond, available]

end ResponseProfile

theorem exists_windowFor_of_ordered {c : Catalogue} {ids : List ChannelId}
    {channels : List Channel} {interval : Interval} {publisher : Publisher} {s : ChannelSchedule}
    (member : s ∈ inRequestedOrder ids
      (c.scheduleFor channels interval publisher).channelSchedules) :
    ∃ channel, s = c.windowFor interval publisher channel := by
  obtain ⟨channel, -, same⟩ := List.mem_map.mp (inRequestedOrder_subset _ _ member)
  exact ⟨channel, same.symm⟩

end ChannelGuide
