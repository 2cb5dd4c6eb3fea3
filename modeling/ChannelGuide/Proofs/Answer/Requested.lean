import ChannelGuide.Proofs.Answer.Steps

/-!
The channels of an answer. Schedules that are put in the order of a request are those of its
channels that were answered, each channel once; and where overrides are laid over them, both sides
are for the same channels.
-/
namespace ChannelGuide

def channelIds (schedules : List ChannelSchedule) : List ChannelId :=
  schedules.map fun s => s.channel.id

def ScheduleSlots.channelIds (slots : ScheduleSlots) : List ChannelId :=
  slots.channelSlots.map fun s => s.channel.id

/-- Lists whose members stand in a relation have the same values of what related members share. -/
theorem map_eq_of_forall₂ {α β γ : Type} {R : α → β → Prop} {f : α → γ} {g : β → γ}
    (same : ∀ a b, R a b → f a = g b) {xs : List α} {ys : List β} (related : List.Forall₂ R xs ys) :
    xs.map f = ys.map g := by
  rw [← List.forall₂_eq_eq_eq, List.forall₂_map_left_iff, List.forall₂_map_right_iff]
  exact related.imp same

/-- A list is known by what tells its members apart. -/
theorem eq_of_map_eq {α β : Type} {key : α → β} {xs ys : List α}
    (apart : ∀ x ∈ xs, ∀ y ∈ ys, key x = key y → x = y) (same : xs.map key = ys.map key) :
    xs = ys := by
  induction xs generalizing ys with
  | nil => exact (List.map_eq_nil_iff.mp same.symm).symm
  | cons x xs ih =>
      cases ys with
      | nil => cases same
      | cons y ys =>
          obtain ⟨head, tail⟩ := List.cons_eq_cons.mp same
          rw [apart x List.mem_cons_self y List.mem_cons_self head]
          congr 1
          exact ih (fun x hx y hy => apart x (List.mem_cons_of_mem _ hx) y
            (List.mem_cons_of_mem _ hy)) tail

section Order
variable {id : ChannelId} {schedules rest : List ChannelSchedule} {found : ChannelSchedule}

theorem takeSchedule?_eq_none : takeSchedule? id schedules = none ↔ id ∉ channelIds schedules := by
  induction schedules with
  | nil => simp [takeSchedule?, channelIds]
  | cons s schedules ih =>
      rw [takeSchedule?, channelIds, List.map_cons, List.mem_cons]
      split
      · next here => simp [here]
      · next elsewhere =>
          rw [Option.map_eq_none_iff, ih]
          simp [channelIds, Ne.symm elsewhere]

theorem channel_of_takeSchedule? (taken : takeSchedule? id schedules = some (found, rest)) :
    found.channel.id = id := by
  obtain ⟨_, _, -, -, here, -⟩ := exists_of_takeSchedule? taken
  exact here

/-- Taking the schedule of one channel leaves those of every other. -/
theorem mem_channelIds_of_takeSchedule? (taken : takeSchedule? id schedules = some (found, rest))
    {other : ChannelId} (differ : other ≠ id) :
    other ∈ channelIds rest ↔ other ∈ channelIds schedules := by
  have all := ((takeSchedule?_perm taken).map fun s => s.channel.id).mem_iff (a := other)
  rw [List.map_cons, List.mem_cons, channel_of_takeSchedule? taken] at all
  rw [channelIds, channelIds, ← all]
  exact (or_iff_right differ).symm

theorem inRequestedOrder_of_none {ids : List ChannelId} (none : takeSchedule? id schedules = none) :
    inRequestedOrder (id :: ids) schedules = inRequestedOrder ids schedules := by
  rw [inRequestedOrder, none]

theorem inRequestedOrder_of_some {ids : List ChannelId}
    (taken : takeSchedule? id schedules = some (found, rest)) :
    inRequestedOrder (id :: ids) schedules = found :: inRequestedOrder ids rest := by
  rw [inRequestedOrder, taken]

theorem channelIds_inRequestedOrder {ids : List ChannelId} (distinct : ids.Nodup)
    (schedules : List ChannelSchedule) :
    channelIds (inRequestedOrder ids schedules) =
      ids.filter fun id => id ∈ channelIds schedules := by
  induction ids generalizing schedules with
  | nil => rfl
  | cons id ids ih =>
      obtain ⟨once, distinct⟩ := List.nodup_cons.mp distinct
      cases taken : takeSchedule? id schedules with
      | none =>
          have absent := takeSchedule?_eq_none.mp taken
          rw [inRequestedOrder_of_none taken, ih distinct,
            List.filter_cons_of_neg (by simpa using absent)]
      | some pair =>
          obtain ⟨found, rest⟩ := pair
          have present : id ∈ channelIds schedules := by
            by_contra absent
            rw [takeSchedule?_eq_none.mpr absent] at taken
            cases taken
          rw [inRequestedOrder_of_some taken, List.filter_cons_of_pos (by simpa using present),
            channelIds, List.map_cons, channel_of_takeSchedule? taken]
          congr 1
          refine (ih distinct rest).trans (List.filter_congr fun other later => ?_)
          -- a channel that is asked for later is another one, as none is asked for twice
          have differ : other ≠ id := fun same => once (same ▸ later)
          simp only [mem_channelIds_of_takeSchedule? taken differ]

theorem channel_mem_of_mem_inRequestedOrder {ids : List ChannelId} (distinct : ids.Nodup)
    (member : found ∈ inRequestedOrder ids schedules) : found.channel.id ∈ ids := by
  have answered : found.channel.id ∈ channelIds (inRequestedOrder ids schedules) :=
    List.mem_map.mpr ⟨found, member, rfl⟩
  rw [channelIds_inRequestedOrder distinct] at answered
  exact List.mem_of_mem_filter answered

/-- Schedules that are there for every requested channel come back as they are. -/
theorem inRequestedOrder_map {ids : List ChannelId} {channels : List Channel}
    {shown : Channel → ChannelSchedule} (distinct : ids.Nodup)
    (requested : channels.map Channel.id = ids) (own : ∀ c, (shown c).channel.id = c.id) :
    inRequestedOrder ids (channels.map shown) = channels.map shown := by
  have all : channelIds (channels.map shown) = ids := by
    rw [channelIds, List.map_map, ← requested]
    exact List.map_congr_left fun c _ => own c
  have same : channelIds (inRequestedOrder ids (channels.map shown)) =
      channelIds (channels.map shown) := by
    rw [channelIds_inRequestedOrder distinct, all, List.filter_eq_self]
    exact fun id member => decide_eq_true member
  refine eq_of_map_eq (fun x hx y hy alike => ?_) same
  exact List.inj_on_of_nodup_map (all ▸ distinct) (inRequestedOrder_subset _ _ hx) hy alike

/-- Of the members for one of these channels, no two differ. -/
def Unambiguous {α : Type} (ids : List ChannelId) (channel : α → Channel) (xs : List α) : Prop :=
  ∀ x ∈ xs, ∀ y ∈ xs, (channel x).id ∈ ids → (channel x).id = (channel y).id → x = y

theorem unambiguous_of_nodup {α : Type} {channel : α → Channel} {xs : List α}
    (once : (xs.map fun x => (channel x).id).Nodup) (ids : List ChannelId) :
    Unambiguous ids channel xs :=
  fun _ hx _ hy _ same => List.inj_on_of_nodup_map once hx hy same

/-- What is taken for the request is decided by the schedules of its channels, wherever they stand,
unless there are different ones for a channel. -/
theorem inRequestedOrder_congr {ids : List ChannelId} {others : List ChannelSchedule}
    (distinct : ids.Nodup) (clear : Unambiguous ids ChannelSchedule.channel schedules)
    (same : ∀ s : ChannelSchedule, s.channel.id ∈ ids → (s ∈ schedules ↔ s ∈ others)) :
    inRequestedOrder ids schedules = inRequestedOrder ids others := by
  have answered : ∀ id ∈ ids, id ∈ channelIds schedules ↔ id ∈ channelIds others := by
    intro id requested
    simp only [channelIds, List.mem_map]
    constructor
    · rintro ⟨s, member, rfl⟩
      exact ⟨s, (same s requested).mp member, rfl⟩
    · rintro ⟨s, member, rfl⟩
      exact ⟨s, (same s requested).mpr member, rfl⟩
  have order : channelIds (inRequestedOrder ids schedules) =
      channelIds (inRequestedOrder ids others) := by
    rw [channelIds_inRequestedOrder distinct, channelIds_inRequestedOrder distinct]
    exact List.filter_congr fun id requested => decide_eq_decide.mpr (answered id requested)
  refine eq_of_map_eq (fun s hs t ht alike => ?_) order
  have requested := channel_mem_of_mem_inRequestedOrder distinct hs
  have ht := inRequestedOrder_subset _ _ ht
  exact clear s (inRequestedOrder_subset _ _ hs) t
    ((same t (alike ▸ requested)).mpr ht) requested alike

end Order

theorem Selector.channel_of_selectChannel {selector : Selector} {context : QueryContext}
    {s : ChannelSlots} {schedule : ChannelSchedule}
    (filled : selector.selectChannel context s = .ok schedule) : schedule.channel = s.channel := by
  unfold selectChannel at filled
  split at filled
  · cases filled
    rfl
  · cases filled

/-- The same is selected from other slots if they can be filled too, and are the same for the
channels of the request. -/
theorem EquivalentExecutor.select_congr {x : EquivalentExecutor} {q : Query}
    {slots others : ScheduleSlots} {selected : List ChannelSchedule}
    (selects : x.select q slots = .ok selected)
    (clear : Unambiguous q.requestedIds ChannelSlots.channel slots.channelSlots)
    (same : ∀ s : ChannelSlots, s.channel.id ∈ q.requestedIds →
      (s ∈ slots.channelSlots ↔ s ∈ others.channelSlots))
    (fine : ∀ s ∈ others.channelSlots, ∃ t, x.selector.selectChannel q.context s = .ok t) :
    x.select q others = .ok selected := by
  obtain ⟨schedules, chosen, rfl⟩ := exists_of_select selects
  obtain ⟨schedules_too, chosen_too⟩ := exists_mapM_eq_ok.mpr fine
  have taken : inRequestedOrder q.requestedIds schedules =
      inRequestedOrder q.requestedIds schedules_too := by
    refine inRequestedOrder_congr q.scope_acceptable.2 (fun s hs t ht requested alike => ?_)
      fun s requested => ?_
    · obtain ⟨a, ha, filled⟩ := (mem_mapM_iff chosen).mp hs
      obtain ⟨b, hb, filled_too⟩ := (mem_mapM_iff chosen).mp ht
      rw [Selector.channel_of_selectChannel filled] at requested alike
      rw [Selector.channel_of_selectChannel filled_too] at alike
      obtain rfl := clear a ha b hb requested alike
      exact Except.ok.inj (filled.symm.trans filled_too)
    · rw [mem_mapM_iff chosen, mem_mapM_iff chosen_too]
      refine exists_congr fun a => and_congr_left fun filled => ?_
      rw [Selector.channel_of_selectChannel filled] at requested
      exact same a requested
  rw [select, Selector.selectSchedule, chosen_too, taken]
  rfl

/-- What laying overrides over a schedule of the same channel comes to. -/
def ChannelSchedule.laidUnder (base overrides : ChannelSchedule) : ChannelSchedule where
  channel := base.channel
  interval := if overrides.sortedEntries = [] then base.interval
    else base.interval.spanning overrides.interval
  entries := overlay .kept base.sortedEntries overrides.sortedEntries

namespace Query
variable {q : Query} {publisher : Publisher} {bases overrides schedules : List ChannelSchedule}

theorem requestedIds_nodup (q : Query) : q.requestedIds.Nodup := q.scope_acceptable.2

/-- The requested channels among these, in the order of the request. -/
def requestedAmong (q : Query) (ids : List ChannelId) : List ChannelId :=
  q.requestedIds.filter fun id => id ∈ ids

theorem result_of_several (several : q.scope.isMultiChannel = true)
    (schedules : List ChannelSchedule) : q.result schedules = .ok (.list schedules) := by
  unfold result
  split
  · next single => simp [single, ChannelScope.isMultiChannel] at several
  · rfl

theorem channelIds_of_overlayAll (ok : q.overlayAll publisher bases overrides = .ok schedules) :
    channelIds schedules = channelIds bases ∧ channelIds overrides = channelIds bases := by
  unfold overlayAll at ok
  split at ok
  · cases ok
  · next alike =>
      have lengths : bases.length = overrides.length := not_not.mp alike
      have laid : List.Forall₂ (fun p s => ChannelSchedule.overlaidBy p.1 p.2 = .ok s)
          (bases.zip overrides) schedules :=
        (mapM_eq_ok_iff.mp ok).imp fun _ _ made => mapError_eq_ok.mp made
      have of_bases : ((bases.zip overrides).map Prod.fst).map (fun s => s.channel.id) =
          channelIds schedules := by
        rw [List.map_map]
        refine map_eq_of_forall₂ (fun p s made => ?_) laid
        rw [ChannelSchedule.channel_of_overlaidBy made]
        rfl
      have of_overrides : ((bases.zip overrides).map Prod.snd).map (fun s => s.channel.id) =
          channelIds schedules := by
        rw [List.map_map]
        refine map_eq_of_forall₂ (fun p s made => ?_) laid
        rw [ChannelSchedule.channel_of_overlaidBy made]
        exact (ChannelSchedule.channel_id_eq_of_overlaidBy made).symm
      rw [List.map_fst_zip lengths.le] at of_bases
      rw [List.map_snd_zip lengths.ge] at of_overrides
      exact ⟨of_bases.symm, of_overrides.trans of_bases.symm⟩

theorem overlayAll_map (q : Query) (publisher : Publisher) {base upper : Channel → ChannelSchedule}
    (own : ∀ c, (base c).channel.id = c.id) (own_too : ∀ c, (upper c).channel.id = c.id)
    (channels : List Channel) :
    q.overlayAll publisher (channels.map base) (channels.map upper) =
      .ok (channels.map fun c => (base c).laidUnder (upper c)) := by
  have alike : (channels.map base).length = (channels.map upper).length := by
    rw [List.length_map, List.length_map]
  rw [overlayAll, if_neg (not_not_intro alike), List.zip_map']
  refine mapM_map_eq_ok fun c _ => ?_
  simp only [overlaidBy_ok ((own c).trans (own_too c).symm)]
  rfl

end Query
end ChannelGuide
