import Mathlib.Data.List.Basic
import ChannelGuide.Proofs.Overlay.Interleaving
import ChannelGuide.Proofs.Overlay.Showing

/-!
Whom the fate of an airing reaches. The walk gives it to the first follow-on only, so the follow-ons
of an airing all share its fate exactly when the airing keeps its tail or has no second follow-on.
-/
namespace ChannelGuide

namespace Showing

/-- The follow-ons where all share the fate of the airing, of which `left` remains. -/
def sharedFate (s : Showing) (left : Option Entry) : List Entry :=
  match left with
  | none => []
  | some r =>
    if r.stop = s.airing.stop then s.followOns
    else s.followOns.map (·.retimed r.stop r.stop)

/-- The follow-ons where only the first shares the fate of the airing. -/
def firstSharesFate (s : Showing) (left : Option Entry) : List Entry :=
  match left with
  | none => s.followOns.tail
  | some r =>
    if r.stop = s.airing.stop then s.followOns
    else (s.followOns.take 1).map (·.retimed r.stop r.stop) ++ s.followOns.tail

/-- What remains of the airing lasts to its end. -/
def KeepsTail (s : Showing) (left : Option Entry) : Prop := ∃ r ∈ left, r.stop = s.airing.stop

end Showing

/-- What showings come to, airing by airing, when follow-ons fare by this rule. -/
def remaining (left : Entry → Option Entry) (rule : Showing → Option Entry → List Entry)
    (ss : List Showing) : List Entry :=
  ss.flatMap fun s => (left s.airing).toList ++ rule s (left s.airing)

theorem Settles.applyFirst_eq {s : Showing} {t : Instant} {rest : List Entry}
    {piece : Option Entry} {fate : FollowOnFate} (settles : Settles s.airing t rest piece fate) :
    fate.applyFirst s.followOns = s.firstSharesFate piece := by
  have to_end : FollowOnFate.kept.applyFirst s.followOns =
      s.firstSharesFate (some (s.airing.retimed t s.airing.stop)) := by
    rw [FollowOnFate.applyFirst_kept, Showing.firstSharesFate, if_pos (Entry.stop_retimed _ _ _)]
  cases settles with
  | alone => exact to_end
  | before running later => exact to_end
  | @cut v vs running later overlap =>
      have short : (s.airing.retimed t v.start).stop ≠ s.airing.stop := ne_of_lt overlap
      rw [FollowOnFate.applyFirst_movedTo, Showing.firstSharesFate, if_neg short]
      rfl
  | hidden running begun overlap lasts => exact FollowOnFate.applyFirst_dropped s.followOns

theorem overlay_first_shares_fate {overrides : List Entry} {left : Entry → Option Entry}
    (upright : ∀ v ∈ overrides, v.start ≤ v.stop) (leaves : ∀ o, Leaves overrides o (left o))
    (ss : List Showing) {vs : List Entry} (turn : ss.Pairwise Showing.Before)
    (coming : Coming overrides (entriesOf ss) vs) :
    Interleaved vs (remaining left Showing.firstSharesFate ss)
      (overlay .kept (entriesOf ss) vs) := by
  induction ss generalizing vs with
  | nil => exact .only_left vs
  | cons s ss ih =>
      obtain ⟨passed, rest, t, piece, fate, rfl, passes, settles, step⟩ := overlay_showing s ss vs
      have frontier := coming.of_showing.frontier s.airs passes
      have same : left s.airing = piece :=
        (leaves s.airing).unique (settles.leaves frontier upright)
      have next := coming.of_showing.next s.airs passes fun x hx _ => airing_stop_le turn hx
      have tail := ih (List.pairwise_cons.mp turn).2 next
      rw [step, settles.applyFirst_eq, remaining, List.flatMap_cons, same]
      exact (tail.append_right _).append_left passed

namespace Showing

theorem sharedFate_within {overrides : List Entry} {s : Showing} {left : Option Entry}
    (leaves : Leaves overrides s.airing left) {f : Entry} (member : f ∈ s.sharedFate left) :
    s.airing.start < f.stop ∧ f.stop ≤ s.airing.stop := by
  cases leaves with
  | nothing free late => exact absurd member List.not_mem_nil
  | @piece t e free before ends =>
      have by_stop : e ≤ s.airing.stop := ends.2 (.inl rfl)
      have airs := (Leaves.piece free before ends).start_lt_stop
      have from_start : s.airing.start < e := free.1.1.trans_lt airs
      rw [sharedFate] at member
      split at member
      · obtain ⟨-, stop⟩ := s.trailing f member
        rw [stop]
        exact ⟨s.airs, le_rfl⟩
      · obtain ⟨g, -, rfl⟩ := List.mem_map.mp member
        exact ⟨from_start, by_stop⟩

theorem sharedFate_stop_ne {s : Showing} {left : Option Entry} (lost : ¬ s.KeepsTail left)
    {f : Entry} (member : f ∈ s.sharedFate left) : f.stop ≠ s.airing.stop := by
  cases left with
  | none => exact absurd member List.not_mem_nil
  | some r =>
      have short : r.stop ≠ s.airing.stop := fun same => lost ⟨r, rfl, same⟩
      rw [sharedFate, if_neg short] at member
      obtain ⟨g, -, rfl⟩ := List.mem_map.mp member
      exact short

theorem firstSharesFate_eq {s : Showing} {left : Option Entry}
    (fair : s.KeepsTail left ∨ s.followOns.length ≤ 1) :
    s.firstSharesFate left = s.sharedFate left := by
  rcases fair with ⟨r, kept, same⟩ | short
  · rw [Option.mem_def.mp kept, firstSharesFate, sharedFate, if_pos same, if_pos same]
  · have alone : s.followOns.tail = [] := by
      apply List.length_eq_zero_iff.mp
      rw [List.length_tail]
      omega
    cases left with
    | none => exact alone
    | some r =>
        rw [firstSharesFate, sharedFate, alone, List.append_nil, List.take_of_length_le short]

theorem tail_subset_firstSharesFate (s : Showing) (left : Option Entry) :
    s.followOns.tail ⊆ s.firstSharesFate left := by
  intro f member
  cases left with
  | none => exact member
  | some r =>
      rw [firstSharesFate]
      split
      · exact List.mem_of_mem_tail member
      · exact List.mem_append_right _ member

theorem eq_of_stop_within {ss : List Showing} (turn : ss.Pairwise Before) {a b : Showing}
    (ha : a ∈ ss) (hb : b ∈ ss) (after : b.airing.start < a.airing.stop)
    (by_stop : a.airing.stop ≤ b.airing.stop) : a = b := by
  have in_turn : ∀ ⦃x⦄, x ∈ ss → ∀ ⦃y⦄, y ∈ ss → x = y ∨ x.Before y ∨ y.Before x := by
    apply List.Pairwise.forall_of_forall_of_flip
    · exact fun x _ => .inl rfl
    · exact turn.imp fun before => .inr (.inl before)
    · exact turn.imp fun before => .inr (.inr before)
  rcases in_turn ha hb with same | before | before
  · exact same
  · exact absurd before (not_le_of_gt after)
  · exact absurd (a.airs.trans_le by_stop) (not_lt_of_ge before)

theorem exists_mem_tail {s : Showing} (many : ¬ s.followOns.length ≤ 1) :
    ∃ g, g ∈ s.followOns.tail := by
  apply List.exists_mem_of_ne_nil
  intro alone
  have count : s.followOns.tail.length = 0 := List.length_eq_zero_iff.mpr alone
  rw [List.length_tail] at count
  omega

end Showing

theorem stop_ne_of_mem_remaining {overrides : List Entry} {left : Entry → Option Entry}
    (leaves : ∀ o, Leaves overrides o (left o)) {ss : List Showing}
    (turn : ss.Pairwise Showing.Before) {s : Showing} (member : s ∈ ss)
    (lost : ¬ s.KeepsTail (left s.airing)) {f : Entry} (followOn : f.broadcast.IsFollowOn)
    (remains : f ∈ remaining left Showing.sharedFate ss) : f.stop ≠ s.airing.stop := by
  intro same
  obtain ⟨b, hb, of_b⟩ := List.mem_flatMap.mp remains
  rcases List.mem_append.mp of_b with piece | shared
  · have b_leaves := leaves b.airing
    rw [Option.mem_toList.mp piece] at b_leaves
    exact b_leaves.start_lt_stop.not_isFollowOn followOn
  · obtain ⟨after, by_stop⟩ := Showing.sharedFate_within (leaves b.airing) shared
    rw [same] at after by_stop
    have same_showing := Showing.eq_of_stop_within turn member hb after by_stop
    subst same_showing
    exact Showing.sharedFate_stop_ne lost shared same

/-- Where airings keep apart and every follow-on trails one, overrides move or drop the first
follow-on of an airing with it and leave all others where they were. So the follow-ons fare alike
exactly when every airing that does not keep its tail has one follow-on at most. -/
theorem overlaidBy_followOns {base overrides : ChannelSchedule}
    (same : base.channel.id = overrides.channel.id)
    (upright : ∀ e ∈ base.entries, e.start ≤ e.stop)
    (apart : (base.entries.filter (·.Airs)).Pairwise Entry.Apart)
    (trailing : ∀ f ∈ base.entries, f.broadcast.IsFollowOn →
      ∃ a ∈ base.entries, a.Airs ∧ a.stop = f.start)
    (all_air : ∀ v ∈ overrides.entries, v.Airs) :
    ∃ merged, base.overlaidBy overrides = .ok merged ∧
      ∃ ss : List Showing, base.sortedEntries = entriesOf ss ∧ ss.Pairwise Showing.Before ∧
      ∃ left : Entry → Option Entry, (∀ o, Leaves overrides.entries o (left o)) ∧
        Interleaved overrides.sortedEntries (remaining left Showing.firstSharesFate ss)
          merged.entries ∧
        (merged.entries.Perm (overrides.entries ++ remaining left Showing.sharedFate ss) ↔
          ∀ s ∈ ss, s.KeepsTail (left s.airing) ∨ s.followOns.length ≤ 1) := by
  choose left leaves using exists_leaves overrides.entries
  obtain ⟨ss, read, turn⟩ := ChannelSchedule.exists_showings upright apart trailing
  have coming := Coming.initial overrides base.sortedEntries
  have walk := overlay_first_shares_fate (fun v hv => (all_air v hv).le) leaves ss turn
    (read ▸ coming)
  rw [← read] at walk
  refine ⟨_, overlaidBy_ok same, ss, read, turn, left, leaves, walk, ?_⟩
  have written := walk.perm.trans (overrides.sortedEntries_perm.append_right _)
  constructor
  · intro alike s member
    by_contra unfair
    obtain ⟨lost, many⟩ := not_or.mp unfair
    -- a second follow-on is written at the end of its airing, where nothing could share the fate
    obtain ⟨g, second⟩ := Showing.exists_mem_tail many
    have g_trails := List.mem_of_mem_tail second
    have g_still := Showing.isFollowOn g_trails
    have g_remains : g ∈ remaining left Showing.firstSharesFate ss :=
      List.mem_flatMap.mpr ⟨s, member,
        List.mem_append_right _ (s.tail_subset_firstSharesFate _ second)⟩
    have g_alike := alike.mem_iff.mp (written.mem_iff.mpr (List.mem_append_right _ g_remains))
    rcases List.mem_append.mp g_alike with of_override | of_base
    · exact (all_air g of_override).not_isFollowOn g_still
    · exact stop_ne_of_mem_remaining leaves turn member lost g_still of_base
        (s.trailing g g_trails).2
  · intro fair
    have equal : remaining left Showing.firstSharesFate ss = remaining left Showing.sharedFate ss :=
      List.flatMap_congr fun s member => by rw [Showing.firstSharesFate_eq (fair s member)]
    exact equal ▸ written

/-- Of two airings with two follow-ons each, one is cut short, and its first follow-on with it; the
other keeps its tail and both. -/
theorem overlaidBy_followOns_cut :
    let marker id hour := Sample.entry Sample.pa id (Sample.clock hour 0) (Sample.clock hour 0)
    let first := Sample.entry Sample.pa 1 (Sample.clock 7 0) (Sample.clock 9 0)
    let second := Sample.entry Sample.pa 4 (Sample.clock 9 0) (Sample.clock 11 0)
    let football := Sample.entry Sample.ebs 10 (Sample.clock 8 0) (Sample.clock 9 30)
    let base := Sample.schedule [marker 3 9, marker 5 11, marker 6 11, second, marker 2 9, first]
    let overrides := Sample.schedule [football]
    (base.channel.id = overrides.channel.id ∧ (∀ e ∈ base.entries, e.start ≤ e.stop) ∧
      (base.entries.filter (·.Airs)).Pairwise Entry.Apart ∧
      (∀ f ∈ base.entries, f.broadcast.IsFollowOn →
        ∃ a ∈ base.entries, a.Airs ∧ a.stop = f.start) ∧
      ∀ v ∈ overrides.entries, v.Airs) ∧
    ∃ merged, base.overlaidBy overrides = .ok merged ∧
      merged.entries = [first.retimed (Sample.clock 7 0) (Sample.clock 8 0),
        (marker 3 9).retimed (Sample.clock 8 0) (Sample.clock 8 0), marker 2 9, football,
        second.retimed (Sample.clock 9 30) (Sample.clock 11 0), marker 5 11, marker 6 11] ∧
      ∃ ss : List Showing, base.sortedEntries = entriesOf ss ∧ ss.Pairwise Showing.Before ∧
      ∃ left : Entry → Option Entry, (∀ o, Leaves overrides.entries o (left o)) ∧
        Interleaved overrides.sortedEntries (remaining left Showing.firstSharesFate ss)
          merged.entries ∧
        (merged.entries.Perm (overrides.entries ++ remaining left Showing.sharedFate ss) ↔
          ∀ s ∈ ss, s.KeepsTail (left s.airing) ∨ s.followOns.length ≤ 1) := by
  intro marker first second football base overrides
  have same : base.channel.id = overrides.channel.id := rfl
  have upright : ∀ e ∈ base.entries, e.start ≤ e.stop := by decide
  have apart : (base.entries.filter (·.Airs)).Pairwise Entry.Apart := by decide
  have trailing : ∀ f ∈ base.entries, f.broadcast.IsFollowOn →
      ∃ a ∈ base.entries, a.Airs ∧ a.stop = f.start := by decide
  have all_air : ∀ v ∈ overrides.entries, v.Airs := by decide
  obtain ⟨merged, ok, shown⟩ := overlaidBy_followOns same upright apart trailing all_air
  refine ⟨⟨same, upright, apart, trailing, all_air⟩, merged, ok, ?_, shown⟩
  rw [ChannelSchedule.entries_of_overlaidBy ok]
  decide

/-- A second follow-on outlives its airing: the override hides the airing and its first follow-on,
and the second is written where the airing ended, before an override that starts earlier. -/
theorem second_followOn_outlives_airing :
    let film := Sample.entry Sample.pa 1 (Sample.clock 9 0) (Sample.clock 11 0)
    let marker id := Sample.entry Sample.pa id (Sample.clock 11 0) (Sample.clock 11 0)
    let football := Sample.entry Sample.ebs 10 (Sample.clock 8 0) (Sample.clock 12 0)
    let base := Sample.schedule [film, marker 2, marker 3]
    (film.Airs ∧ football.Airs ∧ ∀ id, (marker id).start = film.stop ∧ (marker id).stop = film.stop) ∧
    base.overlaidBy (Sample.schedule [football]) =
      .ok { base with entries := [marker 3, football] } := by
  intro film marker football base
  exact ⟨⟨by decide, by decide, fun _ => ⟨rfl, rfl⟩⟩, by decide⟩

end ChannelGuide
