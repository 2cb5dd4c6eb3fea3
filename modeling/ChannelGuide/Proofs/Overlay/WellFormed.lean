import ChannelGuide.Proofs.Overlay.Showing
import ChannelGuide.Proofs.Schedule.WellFormed

/-!
Laying a well-formed schedule over a well-formed schedule gives a well-formed schedule. Nothing is
sorted after the walk: read as showings, the walk writes override showings whole and base showings
cut, and every showing is over before the next one starts.
-/
namespace ChannelGuide

theorem entriesOf_split {vs : List Showing} {passed rest : List Entry} {t : Instant}
    (split : entriesOf vs = passed ++ rest) (ended : ∀ v ∈ passed, v.stop ≤ t)
    (running : ∀ v ∈ rest.head?, t < v.stop) :
    ∃ ps rs, vs = ps ++ rs ∧ passed = entriesOf ps ∧ rest = entriesOf rs := by
  induction vs generalizing passed with
  | nil =>
      obtain ⟨rfl, rfl⟩ := List.append_eq_nil_iff.mp split.symm
      exact ⟨[], [], rfl, rfl, rfl⟩
  | cons v vs ih =>
      cases passed with
      | nil => exact ⟨[], v :: vs, rfl, rfl, split.symm⟩
      | cons p passed =>
          obtain ⟨same, tail⟩ := List.cons.inj split
          subst same
          have airing_ended := ended v.airing List.mem_cons_self
          -- a follow-on has ended when its airing has, so the cut cannot fall between the two
          have whole : ∃ qs, passed = v.followOns ++ qs ∧ entriesOf vs = qs ++ rest := by
            rcases List.append_eq_append_iff.mp tail with parts | ⟨fs, trail, left⟩
            · exact parts
            · cases fs with
              | nil =>
                  rw [List.append_nil] at trail
                  exact ⟨[], by rw [trail, List.append_nil], left.symm⟩
              | cons f fs =>
                  have trails : f ∈ v.followOns := trail ▸ List.mem_append_right _ List.mem_cons_self
                  have still_on := running f (by rw [left]; rfl)
                  rw [(v.trailing f trails).2] at still_on
                  exact absurd airing_ended (not_le_of_gt still_on)
          obtain ⟨qs, rfl, others⟩ := whole
          obtain ⟨ps, rs, rfl, rfl, left⟩ := ih others fun x hx =>
            ended x (List.mem_cons_of_mem _ (List.mem_append_right _ hx))
          exact ⟨v :: ps, rs, rfl, rfl, left⟩

theorem Settles.running {o : Entry} {t : Instant} {rest : List Entry} {piece : Option Entry}
    {fate : FollowOnFate} (settles : Settles o t rest piece fate) :
    ∀ v ∈ rest.head?, t < v.stop := by
  intro v first
  cases settles with
  | alone => cases first
  | before running later => cases first; exact running
  | cut running later overlap => cases first; exact running
  | hidden running begun overlap lasts => cases first; exact running

/-- A base showing as the walk leaves it. -/
structure Showing.CutFrom (m b : Showing) : Prop where
  airing : m.airing.SameButTimes b.airing
  start_le : b.airing.start ≤ m.airing.start
  stop_le : m.airing.stop ≤ b.airing.stop
  followOns : ∀ f ∈ m.followOns, ∃ g ∈ b.followOns, f.SameButTimes g
  single : m.Single

theorem Settles.exists_showing {overrides rest : List Entry} {b : Showing} {t : Instant}
    {piece : Option Entry} {fate : FollowOnFate} (settles : Settles b.airing t rest piece fate)
    (frontier : Frontier overrides b.airing t rest) (single : b.Single) :
    ∃ kept : Option Showing, piece.toList ++ fate.applyFirst b.followOns = entriesOf kept.toList ∧
      ∀ m ∈ kept, m.CutFrom b ∧ t ≤ m.airing.start ∧ ∀ v ∈ rest, m.airing.stop ≤ v.start := by
  have to_end (settled : ∀ v ∈ rest, b.airing.stop ≤ v.start) :
      ∃ kept : Option Showing,
        (some (b.airing.retimed t b.airing.stop)).toList ++ FollowOnFate.kept.applyFirst b.followOns =
          entriesOf kept.toList ∧
        ∀ m ∈ kept, m.CutFrom b ∧ t ≤ m.airing.start ∧ ∀ v ∈ rest, m.airing.stop ≤ v.start := by
    refine ⟨some ⟨b.airing.retimed t b.airing.stop, b.followOns, frontier.lt_stop, b.trailing⟩,
      ?_, ?_⟩
    · rw [FollowOnFate.applyFirst_kept]
      exact (List.append_nil _).symm
    · rintro m ⟨⟩
      have own : ∀ f ∈ b.followOns, ∃ g ∈ b.followOns, f.SameButTimes g :=
        fun f member => ⟨f, member, f.retimed_sameButTimes f.start f.stop⟩
      exact ⟨⟨b.airing.retimed_sameButTimes _ _, frontier.start_le, le_rfl, own, single⟩, le_rfl,
        settled⟩
  cases settles with
  | alone => exact to_end fun v member => absurd member List.not_mem_nil
  | before running later => exact to_end (frontier.le_start later)
  | @cut v vs running later overlap =>
      refine ⟨some ⟨b.airing.retimed t v.start,
        (b.followOns.take 1).map (·.retimed v.start v.start), later, ?_⟩, ?_, ?_⟩
      · intro f member
        obtain ⟨g, -, rfl⟩ := List.mem_map.mp member
        exact ⟨rfl, rfl⟩
      · rw [FollowOnFate.applyFirst_movedTo, single, List.append_nil]
        exact (List.append_nil _).symm
      · rintro m ⟨⟩
        refine ⟨⟨b.airing.retimed_sameButTimes _ _, frontier.start_le, overlap.le, ?_, ?_⟩, le_rfl,
          frontier.le_start le_rfl⟩
        · intro f member
          obtain ⟨g, hg, rfl⟩ := List.mem_map.mp member
          exact ⟨g, List.mem_of_mem_take hg, g.retimed_sameButTimes _ _⟩
        · cases trail : b.followOns with
          | nil => exact rfl
          | cons f fs => exact rfl
  | hidden running begun overlap lasts =>
      refine ⟨none, ?_, fun m member => nomatch member⟩
      rw [FollowOnFate.applyFirst_dropped, single]
      rfl

theorem pairwise_before_step {ps ms : List Showing} {kept : Option Showing} {t : Instant}
    (passed_turn : ps.Pairwise Showing.Before) (later_turn : ms.Pairwise Showing.Before)
    (gone : ∀ p ∈ ps, p.airing.stop ≤ t) (starts : ∀ m ∈ kept, t ≤ m.airing.start)
    (passed_before : ∀ p ∈ ps, ∀ x ∈ ms, p.Before x)
    (kept_before : ∀ m ∈ kept, ∀ x ∈ ms, m.Before x) :
    (ps ++ (kept.toList ++ ms)).Pairwise Showing.Before := by
  refine List.pairwise_append.mpr ⟨passed_turn, List.pairwise_append.mpr
    ⟨Showing.pairwise_before_toList kept, later_turn, ?_⟩, ?_⟩
  · exact fun m member => kept_before m (Option.mem_toList.mp member)
  · intro p hp x hx
    rcases List.mem_append.mp hx with hk | hx
    · exact (gone p hp).trans (starts x (Option.mem_toList.mp hk))
    · exact passed_before p hp x hx

theorem overlay_showings_part {overrides : List Entry} (bs : List Showing) {vs : List Showing}
    (turn : bs.Pairwise Showing.Before) (override_turn : vs.Pairwise Showing.Before)
    (single : ∀ b ∈ bs, b.Single)
    (coming : Coming overrides (entriesOf bs) (entriesOf vs)) :
    ∃ ms, overlay .kept (entriesOf bs) (entriesOf vs) = entriesOf ms ∧
      ms.Pairwise Showing.Before ∧ (∀ m ∈ ms, m ∈ vs ∨ ∃ b ∈ bs, m.CutFrom b) ∧
      vs.Sublist ms := by
  -- the showings written so far are over before the frontier, and what comes later starts after it
  induction bs generalizing vs with
  | nil => exact ⟨vs, rfl, override_turn, fun m member => .inl member, .refl vs⟩
  | cons b bs ih =>
      obtain ⟨passed, rest, t, piece, fate, split, passes, settles, step⟩ :=
        overlay_showing b bs (entriesOf vs)
      obtain ⟨ps, rs, rfl, rfl, rfl⟩ := entriesOf_split split passes.stop_le settles.running
      rw [entriesOf_append] at coming
      have frontier := coming.of_showing.frontier b.airs passes
      have after_b : ∀ x ∈ bs, b.airing.stop ≤ x.airing.start := (List.pairwise_cons.mp turn).1
      have next := coming.of_showing.next b.airs passes fun x hx _ => airing_stop_le turn hx
      obtain ⟨p_turn, r_turn, p_before_r⟩ := List.pairwise_append.mp override_turn
      obtain ⟨ms, tail, ms_turn, origin, rest_part⟩ := ih (List.pairwise_cons.mp turn).2 r_turn
        (fun x hx => single x (List.mem_cons_of_mem b hx)) next
      obtain ⟨kept, written, settled⟩ :=
        settles.exists_showing frontier (single b List.mem_cons_self)
      -- what comes later is an override still to come or is cut from a later base showing
      have later : ∀ m ∈ ms, m ∈ rs ∨ b.airing.stop ≤ m.airing.start := by
        intro m member
        refine (origin m member).imp_right ?_
        rintro ⟨x, hx, cut⟩
        exact (after_b x hx).trans cut.start_le
      have gone : ∀ p ∈ ps, p.airing.stop ≤ t :=
        fun p hp => passes.stop_le p.airing (airing_mem hp)
      refine ⟨ps ++ (kept.toList ++ ms), ?_, ?_, ?_, ?_⟩
      · rw [step, written, tail, entriesOf_append, entriesOf_append]
      · apply pairwise_before_step p_turn ms_turn gone
        · exact fun m member => (settled m member).2.1
        · intro p hp x hx
          rcases later x hx with coming | after
          · exact p_before_r p hp x coming
          · exact (gone p hp).trans (frontier.lt_stop.le.trans after)
        · intro m member x hx
          obtain ⟨cut, -, before_rest⟩ := settled m member
          rcases later x hx with coming | after
          · exact before_rest x.airing (airing_mem coming)
          · exact cut.stop_le.trans after
      · intro m member
        rcases List.mem_append.mp member with hp | hx
        · exact .inl (List.mem_append_left _ hp)
        · rcases List.mem_append.mp hx with hk | hx
          · exact .inr ⟨b, List.mem_cons_self, (settled m (Option.mem_toList.mp hk)).1⟩
          · rcases origin m hx with coming | ⟨x, hx, cut⟩
            · exact .inl (List.mem_append_right _ coming)
            · exact .inr ⟨x, List.mem_cons_of_mem b hx, cut⟩
      · exact (List.Sublist.refl ps).append (rest_part.trans (List.sublist_append_right _ ms))

theorem overlay_showings {overrides : List Entry} (bs : List Showing) {vs : List Showing}
    (turn : bs.Pairwise Showing.Before) (override_turn : vs.Pairwise Showing.Before)
    (single : ∀ b ∈ bs, b.Single)
    (coming : Coming overrides (entriesOf bs) (entriesOf vs)) :
    ∃ ms, overlay .kept (entriesOf bs) (entriesOf vs) = entriesOf ms ∧
      ms.Pairwise Showing.Before ∧ ∀ m ∈ ms, m ∈ vs ∨ ∃ b ∈ bs, m.CutFrom b := by
  obtain ⟨ms, walk, ms_turn, origin, -⟩ :=
    overlay_showings_part bs turn override_turn single coming
  exact ⟨ms, walk, ms_turn, origin⟩

/-- Every follow-on stands right behind the airing that it trails, and the two were such a pair,
times apart, in one of the sources. -/
def ChannelSchedule.KeepsTrails (merged : ChannelSchedule) (sources : List ChannelSchedule) :
    Prop :=
  ∀ l f r, merged.entries = l ++ f :: r → f.broadcast.IsFollowOn →
    ∃ l' a, l = l' ++ [a] ∧ merged.Trails f a ∧
      ∃ s ∈ sources, ∃ g b, s.Trails g b ∧ f.SameButTimes g ∧ a.SameButTimes b

/-- A merged schedule read as showings: overrides as they were and base showings as they are left. -/
structure MergedShowings (base overrides : ChannelSchedule) (ms vs bs : List Showing) : Prop where
  turn : ms.Pairwise Showing.Before
  origin : ∀ m ∈ ms, m ∈ vs ∨ ∃ b ∈ bs, m.CutFrom b
  single : ∀ v ∈ vs, v.Single
  base_read : entriesOf bs ⊆ base.entries
  override_read : entriesOf vs ⊆ overrides.entries

namespace MergedShowings
variable {base overrides : ChannelSchedule} {ms vs bs : List Showing}

theorem all_single (h : MergedShowings base overrides ms vs bs) : ∀ m ∈ ms, m.Single := by
  intro m member
  rcases h.origin m member with whole | ⟨b, -, cut⟩
  · exact h.single m whole
  · exact cut.single

theorem keepsTrails (h : MergedShowings base overrides ms vs bs) {merged : ChannelSchedule}
    (read : merged.entries = entriesOf ms) : merged.KeepsTrails [base, overrides] := by
  intro l f r split followOn
  rw [read] at split
  obtain ⟨m, member, trails, l', end_eq⟩ := entriesOf_directly_behind h.all_single split followOn
  refine ⟨l', m.airing, end_eq, Showing.trails (read ▸ entries_subset member) trails, ?_⟩
  rcases h.origin m member with whole | ⟨b, hb, cut⟩
  · have of_override := Showing.trails
      (List.Subset.trans (entries_subset whole) h.override_read) trails
    exact ⟨overrides, by simp, f, m.airing, of_override, f.retimed_sameButTimes f.start f.stop,
      m.airing.retimed_sameButTimes m.airing.start m.airing.stop⟩
  · obtain ⟨g, hg, same⟩ := cut.followOns f trails
    have of_base := Showing.trails (List.Subset.trans (entries_subset hb) h.base_read) hg
    exact ⟨base, by simp, g, b.airing, of_base, same, cut.airing⟩

theorem within (h : MergedShowings base overrides ms vs bs) {merged : ChannelSchedule}
    (read : merged.entries = entriesOf ms) (base_within : base.Within)
    (override_within : overrides.Within)
    (around_base : merged.interval.start ≤ base.interval.start ∧
      base.interval.stop ≤ merged.interval.stop)
    (around_overrides : overrides.entries ≠ [] →
      merged.interval.start ≤ overrides.interval.start ∧
        overrides.interval.stop ≤ merged.interval.stop) : merged.Within := by
  intro e he
  rw [read] at he
  obtain ⟨m, member, hm⟩ := mem_entriesOf.mp he
  rcases h.origin m member with whole | ⟨b, hb, cut⟩
  · have of_override : e ∈ overrides.entries := h.override_read (entries_subset whole hm)
    obtain ⟨start_le, le_stop⟩ := around_overrides (List.ne_nil_of_mem of_override)
    obtain ⟨from_start, to_stop⟩ := override_within e of_override
    exact ⟨start_le.trans from_start, to_stop.trans le_stop⟩
  · obtain ⟨from_start, to_stop⟩ := base_within b.airing (h.base_read (airing_mem hb))
    have starts : b.airing.start ≤ e.start := cut.start_le.trans (Showing.start_le hm)
    have stops : e.stop ≤ b.airing.stop := (Showing.stop_eq hm).le.trans cut.stop_le
    exact ⟨around_base.1.trans (from_start.trans starts),
      stops.trans (to_stop.trans around_base.2)⟩

end MergedShowings

/-- Laying a well-formed schedule over a well-formed schedule of the channel writes the entries of
a well-formed schedule in order, each span once and every follow-on behind its airing; and if
neither schedule reaches out of its interval, the merged one does not either. -/
theorem overlaidBy_wellFormed {base overrides : ChannelSchedule}
    (same : base.channel.id = overrides.channel.id) (base_ok : base.WellFormed)
    (overrides_ok : overrides.WellFormed) :
    ∃ merged, base.overlaidBy overrides = .ok merged ∧ merged.WellFormed ∧
      (merged.entries.Pairwise fun a b => a.broadcast.NotAfter b.broadcast) ∧
      (merged.entries.Pairwise fun a b => ¬ (a.start = b.start ∧ a.stop = b.stop)) ∧
      merged.KeepsTrails [base, overrides] ∧
      (base.Within → overrides.Within → merged.Within) := by
  obtain ⟨bs, base_read, turn, base_single⟩ := base_ok.exists_showings
  obtain ⟨vs, override_read, override_turn, override_single⟩ := overrides_ok.exists_showings
  have coming := Coming.initial overrides base.sortedEntries
  rw [base_read, override_read] at coming
  obtain ⟨ms, walk, ms_turn, origin⟩ :=
    overlay_showings bs turn override_turn base_single coming
  have merged_showings : MergedShowings base overrides ms vs bs :=
    { turn := ms_turn
      origin := origin
      single := override_single
      base_read := base_read ▸ base.sortedEntries_perm.subset
      override_read := override_read ▸ overrides.sortedEntries_perm.subset }
  rw [← base_read, ← override_read] at walk
  refine ⟨_, overlaidBy_ok same, ?_, ?_, ?_, merged_showings.keepsTrails walk, ?_⟩
  · exact ChannelSchedule.wellFormed_of_showings walk ms_turn merged_showings.all_single
  · exact walk ▸ entriesOf_in_order ms_turn
  · exact walk ▸ entriesOf_spans_differ ms_turn merged_showings.all_single
  · intro base_within override_within
    apply merged_showings.within walk base_within override_within
    · show (ite _ _ _ : Interval).start ≤ _ ∧ _ ≤ (ite _ _ _ : Interval).stop
      split
      · exact ⟨le_rfl, le_rfl⟩
      · exact ⟨min_le_left _ _, le_max_left _ _⟩
    · intro some_override
      have sorted_some : overrides.sortedEntries ≠ [] := fun none =>
        some_override (List.nil_perm.mp (none ▸ overrides.sortedEntries_perm))
      rw [if_neg sorted_some]
      exact ⟨min_le_right _ _, le_max_right _ _⟩

/-- A base airing loses its start to one override and its follow-on stays; another is cut before the
next override, and its follow-on moves. -/
theorem overlaidBy_wellFormed_cut :
    let pa id (start stop : Fin 24) :=
      Sample.entry Sample.pa id (Sample.clock start 0) (Sample.clock stop 0)
    let ebs id (start stop : Fin 24) :=
      Sample.entry Sample.ebs id (Sample.clock start 0) (Sample.clock stop 0)
    let base := Sample.schedule [pa 2 10 10, pa 1 8 10, pa 3 10 12, pa 4 12 12]
    let overrides := Sample.schedule [ebs 10 7 9, ebs 11 9 9, ebs 12 11 12, ebs 13 12 12]
    (base.channel.id = overrides.channel.id ∧ base.WellFormed ∧ overrides.WellFormed ∧
      base.Within ∧ overrides.Within) ∧
    ∃ merged, base.overlaidBy overrides = .ok merged ∧
      merged.entries = [ebs 10 7 9, ebs 11 9 9,
        (pa 1 8 10).retimed (Sample.clock 9 0) (Sample.clock 10 0), pa 2 10 10,
        (pa 3 10 12).retimed (Sample.clock 10 0) (Sample.clock 11 0),
        (pa 4 12 12).retimed (Sample.clock 11 0) (Sample.clock 11 0), ebs 12 11 12,
        ebs 13 12 12] ∧
      merged.WellFormed ∧
      (merged.entries.Pairwise fun a b => a.broadcast.NotAfter b.broadcast) ∧
      (merged.entries.Pairwise fun a b => ¬ (a.start = b.start ∧ a.stop = b.stop)) ∧
      merged.KeepsTrails [base, overrides] ∧ merged.Within := by
  intro pa ebs base overrides
  have same : base.channel.id = overrides.channel.id := rfl
  have base_ok : base.WellFormed := ⟨by decide, by decide, by decide, by decide⟩
  have overrides_ok : overrides.WellFormed := ⟨by decide, by decide, by decide, by decide⟩
  have base_within : base.Within := by decide
  have overrides_within : overrides.Within := by decide
  obtain ⟨merged, ok, merged_ok, in_order, differ, trails, within⟩ :=
    overlaidBy_wellFormed same base_ok overrides_ok
  refine ⟨⟨same, base_ok, overrides_ok, base_within, overrides_within⟩, merged, ok, ?_,
    merged_ok, in_order, differ, trails, within base_within overrides_within⟩
  rw [ChannelSchedule.entries_of_overlaidBy ok]
  decide

end ChannelGuide
