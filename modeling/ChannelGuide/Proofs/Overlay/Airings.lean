import ChannelGuide.Catalogue.Sample
import ChannelGuide.Proofs.Overlay.Remnant

/-!
The airings of a merged schedule: all overrides, and of every base airing what the overrides leave.
-/
namespace ChannelGuide

/-- The state of the walk before `base`: the overrides of `vs` are to come, and all others are over
before any airing of `base` starts. -/
structure Coming (overrides base vs : List Entry) : Prop where
  part : vs ⊆ overrides
  inOrder : vs.Pairwise fun v w => v.start ≤ w.start
  ended : ∀ v ∈ overrides, v ∈ vs ∨ ∀ o ∈ base, o.Airs → v.stop ≤ o.start

theorem Coming.initial (overrides : ChannelSchedule) (base : List Entry) :
    Coming overrides.entries base overrides.sortedEntries where
  part := overrides.sortedEntries_perm.subset
  inOrder := overrides.pairwise_start_sortedEntries
  ended _ member := .inl (overrides.mem_sortedEntries.mpr member)

namespace Coming
variable {overrides base passed rest : List Entry} {o : Entry} {t : Instant}

theorem tail {vs : List Entry} (h : Coming overrides (o :: base) vs) :
    Coming overrides base vs where
  part := h.part
  inOrder := h.inOrder
  ended v member := (h.ended v member).imp_right fun gone x hx =>
    gone x (List.mem_cons_of_mem o hx)

theorem frontier (h : Coming overrides (o :: base) (passed ++ rest)) (airs : o.Airs)
    (passes : Passes o.stop o.start passed t) : Frontier overrides o t rest where
  start_le := passes.start_le
  lt_stop := by
    rcases passes.eq_or_lt_stop with same | before
    · exact lt_of_eq_of_lt same airs
    · exact before
  hidden u from_start before := by
    obtain ⟨v, member, on⟩ := passes.covered from_start before
    exact ⟨v, h.part (List.mem_append_left rest member), on⟩
  ended v member := by
    rcases h.ended v member with coming | gone
    · rcases List.mem_append.mp coming with hv | hv
      · exact .inl (passes.stop_le v hv)
      · exact .inr hv
    · exact .inl ((gone o List.mem_cons_self airs).trans passes.start_le)
  part v member := h.part (List.mem_append_right passed member)
  inOrder := (List.pairwise_append.mp h.inOrder).2.1

theorem next (h : Coming overrides (o :: base) (passed ++ rest)) (airs : o.Airs)
    (passes : Passes o.stop o.start passed t)
    (in_turn : ∀ x ∈ base, x.Airs → o.stop ≤ x.start) : Coming overrides base rest := by
  have frontier := h.frontier airs passes
  refine ⟨frontier.part, frontier.inOrder, fun v member => ?_⟩
  rcases frontier.ended v member with gone | coming
  · exact .inr fun x hx hairs => gone.trans (frontier.lt_stop.le.trans (in_turn x hx hairs))
  · exact .inl coming

end Coming

theorem FollowOnFate.filter_airs_apply {o : Entry} (followOn : o.broadcast.IsFollowOn)
    (fate : FollowOnFate) : (fate.apply o).toList.filter (·.Airs) = [] := by
  have still : ¬ o.Airs := fun airs => airs.not_isFollowOn followOn
  cases fate with
  | kept => simp [FollowOnFate.apply, still]
  | dropped => rfl
  | movedTo t => simp [FollowOnFate.apply, Entry.Airs]

theorem filter_airs_piece {overrides : List Entry} {o : Entry} {piece : Option Entry}
    (leaves : Leaves overrides o piece) : piece.toList.filter (·.Airs) = piece.toList := by
  cases piece with
  | none => rfl
  | some r => simp [leaves.start_lt_stop]

theorem overlay_airings {overrides : List Entry} {left : Entry → Option Entry}
    (upright : ∀ v ∈ overrides, v.start ≤ v.stop) (leaves : ∀ o, Leaves overrides o (left o))
    (base : List Entry) {vs : List Entry} (fate : FollowOnFate)
    (base_upright : ∀ o ∈ base, o.start ≤ o.stop)
    (in_turn : (base.filter (·.Airs)).Pairwise fun a b => a.stop ≤ b.start)
    (coming : Coming overrides base vs) :
    ((overlay fate base vs).filter (·.Airs)).Perm
      (vs.filter (·.Airs) ++ (base.filter (·.Airs)).filterMap left) := by
  -- `left` is fixed before the walk: what is left of an airing does not depend on the others
  induction base generalizing fate vs with
  | nil => simp [overlay]
  | cons o base ih =>
      have tail_upright : ∀ x ∈ base, x.start ≤ x.stop :=
        fun x hx => base_upright x (List.mem_cons_of_mem o hx)
      by_cases followOn : o.broadcast.IsFollowOn
      · have still : ¬ o.Airs := fun airs => airs.not_isFollowOn followOn
        rw [List.filter_cons_of_neg (by simpa using still)] at in_turn ⊢
        rw [overlay_followOn followOn, List.filter_append, FollowOnFate.filter_airs_apply followOn]
        exact ih .kept tail_upright in_turn coming.tail
      · have airs := Entry.airs_of_not_isFollowOn (base_upright o List.mem_cons_self) followOn
        rw [List.filter_cons_of_pos (by simpa using airs)] at in_turn ⊢
        obtain ⟨after, tail_in_turn⟩ := List.pairwise_cons.mp in_turn
        have after_o : ∀ x ∈ base, x.Airs → o.stop ≤ x.start :=
          fun x hx hairs => after x (List.mem_filter.mpr ⟨hx, decide_eq_true hairs⟩)
        obtain ⟨passed, rest, t, piece, next, split, passes, settles, step⟩ :=
          overlay_airing followOn fate base vs
        subst split
        have piece_leaves := settles.leaves (coming.frontier airs passes) upright
        have same : left o = piece := (leaves o).unique piece_leaves
        have first : ∀ os, (o :: os).filterMap left = piece.toList ++ os.filterMap left := by
          intro os
          rw [List.filterMap_cons, same]
          cases piece <;> rfl
        have later := ih next tail_upright tail_in_turn (coming.next airs passes after_o)
        rw [step, first, List.filter_append, List.filter_append, List.filter_append,
          filter_airs_piece piece_leaves, List.append_assoc]
        exact ((later.append_left _).trans (List.perm_append_comm_assoc _ _ _)).append_left _

/-- The airings after a merge are the overrides and what they leave of the base airings: of each at
most one piece, and no piece during an override. -/
theorem overlaidBy_airings {base overrides : ChannelSchedule}
    (same : base.channel.id = overrides.channel.id)
    (upright : ∀ o ∈ base.entries, o.start ≤ o.stop)
    (apart : (base.entries.filter (·.Airs)).Pairwise Entry.Apart)
    (all_air : ∀ v ∈ overrides.entries, v.Airs) :
    ∃ merged, base.overlaidBy overrides = .ok merged ∧
      ∃ left : Entry → Option Entry, (∀ o, Leaves overrides.entries o (left o)) ∧
        (merged.entries.filter (·.Airs)).Perm
          (overrides.entries ++ (base.entries.filter (·.Airs)).filterMap left) ∧
        ∀ o, ∀ r ∈ left o, ∀ v ∈ overrides.entries, r.Apart v := by
  choose left leaves using exists_leaves overrides.entries
  refine ⟨_, overlaidBy_ok same, left, leaves, ?_, ?_⟩
  · have walk := overlay_airings (fun v hv => (all_air v hv).le) leaves base.sortedEntries .kept
      (fun o ho => upright o (base.mem_sortedEntries.mp ho)) (base.airings_in_turn apart)
      (Coming.initial overrides base.sortedEntries)
    have overrides_air : overrides.entries.filter (·.Airs) = overrides.entries :=
      List.filter_eq_self.mpr fun v hv => decide_eq_true (all_air v hv)
    have sorted_overrides := overrides.sortedEntries_perm.filter (·.Airs)
    rw [overrides_air] at sorted_overrides
    have sorted_base := (base.sortedEntries_perm.filter (·.Airs)).filterMap left
    exact walk.trans (sorted_overrides.append sorted_base)
  · intro o r kept v member
    have of_o : Leaves overrides.entries o (some r) := kept ▸ leaves o
    exact of_o.apart member

/-- Two airings with a marker between them under three overrides, of which one is inside another
and the third goes on from the middle of it. -/
theorem overlaidBy_airings_nested :
    let first := Sample.entry Sample.pa 1 (Sample.clock 7 0) (Sample.clock 9 0)
    let second := Sample.entry Sample.pa 2 (Sample.clock 9 0) (Sample.clock 11 0)
    let marker := Sample.entry Sample.pa 3 (Sample.clock 8 0) (Sample.clock 8 0)
    let outer := Sample.entry Sample.ebs 10 (Sample.clock 8 0) (Sample.clock 9 0)
    let inner := Sample.entry Sample.ebs 11 (Sample.clock 8 15) (Sample.clock 8 30)
    let onwards := Sample.entry Sample.ebs 12 (Sample.clock 8 45) (Sample.clock 9 30)
    let base := Sample.schedule [second, first, marker]
    let overrides := Sample.schedule [onwards, outer, inner]
    (base.channel.id = overrides.channel.id ∧ (∀ o ∈ base.entries, o.start ≤ o.stop) ∧
      (base.entries.filter (·.Airs)).Pairwise Entry.Apart ∧ ∀ v ∈ overrides.entries, v.Airs) ∧
    ∃ merged, base.overlaidBy overrides = .ok merged ∧
      merged.entries.filter (·.Airs) = [first.retimed (Sample.clock 7 0) (Sample.clock 8 0), outer,
        inner, onwards, second.retimed (Sample.clock 9 30) (Sample.clock 11 0)] ∧
      ∃ left : Entry → Option Entry, (∀ o, Leaves overrides.entries o (left o)) ∧
        (merged.entries.filter (·.Airs)).Perm
          (overrides.entries ++ (base.entries.filter (·.Airs)).filterMap left) ∧
        ∀ o, ∀ r ∈ left o, ∀ v ∈ overrides.entries, r.Apart v := by
  intro first second marker outer inner onwards base overrides
  have same : base.channel.id = overrides.channel.id := rfl
  have upright : ∀ o ∈ base.entries, o.start ≤ o.stop := by decide
  have apart : (base.entries.filter (·.Airs)).Pairwise Entry.Apart := by decide
  have all_air : ∀ v ∈ overrides.entries, v.Airs := by decide
  obtain ⟨merged, ok, airings⟩ := overlaidBy_airings same upright apart all_air
  refine ⟨⟨same, upright, apart, all_air⟩, merged, ok, ?_, airings⟩
  rw [ChannelSchedule.entries_of_overlaidBy ok]
  decide

end ChannelGuide
