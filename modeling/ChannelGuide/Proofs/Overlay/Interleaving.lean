import ChannelGuide.Catalogue.Sample
import ChannelGuide.Proofs.Overlay.Placement
import ChannelGuide.Proofs.Schedule.Airings

/-!
Nothing is lost and nothing is doubled, whatever the two schedules hold. The walk writes every
override once and in order, and between them at most one entry for each base entry.
-/
namespace ChannelGuide

/-- The third list holds all of the first two and nothing else, each of them in its own order. -/
inductive Interleaved {α : Type} : List α → List α → List α → Prop
  | nil : Interleaved [] [] []
  | left {x : α} {xs ys zs : List α} : Interleaved xs ys zs → Interleaved (x :: xs) ys (x :: zs)
  | right {y : α} {xs ys zs : List α} : Interleaved xs ys zs → Interleaved xs (y :: ys) (y :: zs)

namespace Interleaved
variable {α : Type} {xs ys zs : List α}

theorem only_left (xs : List α) : Interleaved xs [] xs := by
  induction xs with
  | nil => exact .nil
  | cons x xs ih => exact .left ih

theorem append_left (ws : List α) (h : Interleaved xs ys zs) :
    Interleaved (ws ++ xs) ys (ws ++ zs) := by
  induction ws with
  | nil => exact h
  | cons w ws ih => exact .left ih

theorem append_right (ws : List α) (h : Interleaved xs ys zs) :
    Interleaved xs (ws ++ ys) (ws ++ zs) := by
  induction ws with
  | nil => exact h
  | cons w ws ih => exact .right ih

theorem perm (h : Interleaved xs ys zs) : zs.Perm (xs ++ ys) := by
  induction h with
  | nil => exact .refl _
  | left _ ih => exact ih.cons _
  | right _ ih => exact (ih.cons _).trans List.perm_middle.symm

end Interleaved

/-- Overrides are on for all of the entry's time, and one of them from before its end and not only
up to it. -/
structure Entry.HiddenBy (overrides : List Entry) (o : Entry) : Prop where
  covered : ∀ u, o.start ≤ u → u < o.stop → ∃ v ∈ overrides, v.OnAt u
  lasting : ∃ v ∈ overrides, v.start < o.stop ∧ o.stop ≤ v.stop

/-- What may remain of the base entries next to `overrides`, in order and at most one for each. An
airing may keep a part of its time, and is gone only if it is hidden. A follow-on may move to the
start of an override, and is gone only if it comes directly after an airing that is gone; whether
the first of these entries does, `trailing` says. -/
inductive Thinned (overrides : List Entry) : (trailing : Bool) → List Entry → List Entry → Prop
  | nil {trailing : Bool} : Thinned overrides trailing [] []
  | kept {trailing : Bool} {o : Entry} {os rs : List Entry} : Thinned overrides false os rs →
      Thinned overrides trailing (o :: os) (o :: rs)
  | hidden {trailing : Bool} {o : Entry} {os rs : List Entry} : ¬ o.broadcast.IsFollowOn →
      o.HiddenBy overrides → Thinned overrides true os rs → Thinned overrides trailing (o :: os) rs
  | fallen {o : Entry} {os rs : List Entry} : o.broadcast.IsFollowOn →
      Thinned overrides false os rs → Thinned overrides true (o :: os) rs
  | shortened {trailing : Bool} {o r : Entry} {os rs : List Entry} : ¬ o.broadcast.IsFollowOn →
      r.SameButTimes o → o.start ≤ r.start → r.start < r.stop → r.stop ≤ o.stop →
      Thinned overrides false os rs → Thinned overrides trailing (o :: os) (r :: rs)
  | moved {trailing : Bool} {o r v : Entry} {os rs : List Entry} : o.broadcast.IsFollowOn →
      r.SameButTimes o → v ∈ overrides → r.start = v.start → r.stop = v.start →
      Thinned overrides false os rs → Thinned overrides trailing (o :: os) (r :: rs)

section Thinned
variable {overrides os rs : List Entry} {trailing : Bool}

theorem Thinned.exists_of_mem (thinned : Thinned overrides trailing os rs) {r : Entry}
    (member : r ∈ rs) :
    ∃ o ∈ os, r.SameButTimes o ∧ (r = o ∨ o.start ≤ r.start ∧ r.start < r.stop ∨
      ∃ v ∈ overrides, r.start = v.start ∧ r.stop = v.start) := by
  induction thinned with
  | nil => exact absurd member List.not_mem_nil
  | hidden _ _ _ ih =>
      obtain ⟨o, ho, origin⟩ := ih member
      exact ⟨o, List.mem_cons_of_mem _ ho, origin⟩
  | fallen _ _ ih =>
      obtain ⟨o, ho, origin⟩ := ih member
      exact ⟨o, List.mem_cons_of_mem _ ho, origin⟩
  | @kept _ o os rs _ ih =>
      rcases List.mem_cons.mp member with rfl | member
      · exact ⟨r, List.mem_cons_self, r.retimed_sameButTimes r.start r.stop, .inl rfl⟩
      · obtain ⟨x, hx, origin⟩ := ih member
        exact ⟨x, List.mem_cons_of_mem o hx, origin⟩
  | @shortened _ o s os rs _ same from_start airs _ _ ih =>
      rcases List.mem_cons.mp member with rfl | member
      · exact ⟨o, List.mem_cons_self, same, .inr (.inl ⟨from_start, airs⟩)⟩
      · obtain ⟨x, hx, origin⟩ := ih member
        exact ⟨x, List.mem_cons_of_mem o hx, origin⟩
  | @moved _ o s v os rs _ same hv start stop _ ih =>
      rcases List.mem_cons.mp member with rfl | member
      · exact ⟨o, List.mem_cons_self, same, .inr (.inr ⟨v, hv, start, stop⟩)⟩
      · obtain ⟨x, hx, origin⟩ := ih member
        exact ⟨x, List.mem_cons_of_mem o hx, origin⟩

theorem Thinned.length_le (thinned : Thinned overrides trailing os rs) : rs.length ≤ os.length := by
  induction thinned with
  | nil => exact le_rfl
  | kept _ ih => exact Nat.succ_le_succ ih
  | hidden _ _ _ ih => exact ih.trans (Nat.le_succ _)
  | fallen _ _ ih => exact ih.trans (Nat.le_succ _)
  | shortened _ _ _ _ _ _ ih => exact Nat.succ_le_succ ih
  | moved _ _ _ _ _ _ ih => exact Nat.succ_le_succ ih

theorem Passes.hiddenBy {passed vs : List Entry} {v o : Entry} {t : Instant}
    (passes : Passes o.stop o.start passed t) (part : passed ++ v :: vs ⊆ overrides)
    (begun : v.start ≤ t) (overlap : v.start < o.stop) (lasts : o.stop ≤ v.stop) :
    o.HiddenBy overrides := by
  have running : v ∈ overrides := part List.mem_append_cons_self
  refine ⟨fun u from_start by_stop => ?_, v, running, overlap, lasts⟩
  by_cases before : u < t
  · obtain ⟨w, member, on⟩ := passes.covered from_start before
    exact ⟨w, part (List.mem_append_left _ member), on⟩
  · exact ⟨v, running, begun.trans (le_of_not_gt before), by_stop.trans_le lasts⟩

theorem Settles.thinned {passed rest : List Entry} {o : Entry} {t : Instant} {piece : Option Entry}
    {fate : FollowOnFate} (settles : Settles o t rest piece fate)
    (passes : Passes o.stop o.start passed t) (part : passed ++ rest ⊆ overrides)
    (airing : ¬ o.broadcast.IsFollowOn) (tail : Thinned overrides (fate = .dropped) os rs) :
    Thinned overrides trailing (o :: os) (piece.toList ++ rs) := by
  have to_end (tail : Thinned overrides false os rs) :
      Thinned overrides trailing (o :: os) (o.retimed t o.stop :: rs) := by
    rcases passes.eq_or_lt_stop with same | before
    · rw [same, Entry.retimed_self]
      exact .kept tail
    · exact .shortened airing (o.retimed_sameButTimes _ _) passes.start_le before le_rfl tail
  cases settles with
  | alone => exact to_end tail
  | before running later => exact to_end tail
  | cut running later overlap =>
      exact .shortened airing (o.retimed_sameButTimes _ _) passes.start_le later overlap.le tail
  | hidden running begun overlap lasts =>
      exact .hidden airing (passes.hiddenBy part begun overlap lasts) tail

end Thinned

/-- A fate that moves follow-ons moves them to the start of one of these overrides. -/
def FollowOnFate.Among (overrides : List Entry) (fate : FollowOnFate) : Prop :=
  ∀ t, fate = .movedTo t → ∃ v ∈ overrides, v.start = t

theorem FollowOnFate.kept_among (overrides : List Entry) : FollowOnFate.kept.Among overrides :=
  fun _ moved => nomatch moved

theorem Settles.among {o : Entry} {t : Instant} {rest : List Entry} {piece : Option Entry}
    {fate : FollowOnFate} (settles : Settles o t rest piece fate) : fate.Among rest := by
  intro s moved
  cases settles with
  | cut running later overlap =>
      cases moved
      exact ⟨_, List.mem_cons_self, rfl⟩
  | alone => cases moved
  | before running later => cases moved
  | hidden running begun overlap lasts => cases moved

theorem FollowOnFate.apply_thinned {overrides os rs : List Entry} {o : Entry} {fate : FollowOnFate}
    (among : fate.Among overrides) (followOn : o.broadcast.IsFollowOn)
    (tail : Thinned overrides false os rs) :
    Thinned overrides (fate = .dropped) (o :: os) ((fate.apply o).toList ++ rs) := by
  cases fate with
  | kept => exact .kept tail
  | dropped => exact .fallen followOn tail
  | movedTo t =>
      obtain ⟨v, member, rfl⟩ := among t rfl
      exact .moved followOn (o.retimed_sameButTimes _ _) member rfl rfl tail

theorem overlay_interleaved {overrides : List Entry} {fate : FollowOnFate} (base : List Entry)
    {vs : List Entry} (part : vs ⊆ overrides) (among : fate.Among overrides) :
    ∃ remains, Thinned overrides (fate = .dropped) base remains ∧
      Interleaved vs remains (overlay fate base vs) := by
  -- `overrides` are all overrides of the walk, and `vs` those that it has still to write
  induction base generalizing fate vs with
  | nil => exact ⟨[], .nil, .only_left vs⟩
  | cons o base ih =>
      by_cases followOn : o.broadcast.IsFollowOn
      · obtain ⟨remains, thinned, woven⟩ := ih part (FollowOnFate.kept_among overrides)
        refine ⟨_, FollowOnFate.apply_thinned among followOn thinned, ?_⟩
        rw [overlay_followOn followOn]
        exact woven.append_right _
      · obtain ⟨passed, rest, t, piece, next, split, passes, settles, step⟩ :=
          overlay_airing followOn fate base vs
        subst split
        have left_over : rest ⊆ overrides := fun v hv => part (List.mem_append_right passed hv)
        have next_among : next.Among overrides := by
          intro s moved
          obtain ⟨v, member, start⟩ := settles.among s moved
          exact ⟨v, left_over member, start⟩
        obtain ⟨remains, thinned, woven⟩ := ih left_over next_among
        refine ⟨_, settles.thinned passes part followOn thinned, ?_⟩
        rw [step]
        exact (woven.append_right _).append_left _

/-- The walk begins after no airing, so that no follow-on is gone with one. -/
theorem overlay_kept_interleaved {overrides vs : List Entry} (base : List Entry)
    (part : vs ⊆ overrides) :
    ∃ remains, Thinned overrides false base remains ∧
      Interleaved vs remains (overlay .kept base vs) :=
  overlay_interleaved base part (FollowOnFate.kept_among overrides)

/-- Every entry that the walk writes is an override, or comes from a base entry, whose item it
shows: as it was, for a part of its time, or as a marker at the start of an override. -/
theorem mem_overlay {base vs : List Entry} {x : Entry} (member : x ∈ overlay .kept base vs) :
    x ∈ vs ∨ ∃ o ∈ base, x.SameButTimes o ∧ (x = o ∨ o.start ≤ x.start ∧ x.start < x.stop ∨
      ∃ v ∈ vs, x.start = v.start ∧ x.stop = v.start) := by
  obtain ⟨remains, thinned, woven⟩ := overlay_kept_interleaved base (List.Subset.refl vs)
  rcases List.mem_append.mp (woven.perm.mem_iff.mp member) with of_override | of_base
  · exact .inl of_override
  · exact .inr (thinned.exists_of_mem of_base)

theorem override_mem_overlay {base vs : List Entry} : vs ⊆ overlay .kept base vs := by
  obtain ⟨remains, -, woven⟩ := overlay_kept_interleaved base (List.Subset.refl vs)
  exact fun v member => woven.perm.mem_iff.mpr (List.mem_append_left remains member)

theorem length_overlay (base vs : List Entry) :
    vs.length ≤ (overlay .kept base vs).length ∧
      (overlay .kept base vs).length ≤ base.length + vs.length := by
  obtain ⟨remains, thinned, woven⟩ := overlay_kept_interleaved base (List.Subset.refl vs)
  have written := woven.perm.length_eq
  have left := thinned.length_le
  rw [List.length_append] at written
  omega

/-- Laying one schedule over another always succeeds on one channel. It keeps the overrides as they
are and in order, and weaves in what remains of the base: all of it but airings that overrides hide
and the follow-on directly after such an airing. -/
theorem overlaidBy_interleaved (base overrides : ChannelSchedule)
    (same : base.channel.id = overrides.channel.id) :
    ∃ merged, base.overlaidBy overrides = .ok merged ∧
      ∃ remains, Thinned overrides.entries false base.sortedEntries remains ∧
        Interleaved overrides.sortedEntries remains merged.entries := by
  refine ⟨_, overlaidBy_ok same, overlay_kept_interleaved _ ?_⟩
  exact (inAiringOrder_perm Entry.broadcast overrides.entries).subset

/-- Also where both schedules are out of order, overlap themselves and hold an inverted entry: what
the overrides leave of the long airing is written, and all else as it was. -/
theorem overlaidBy_interleaved_inverted :
    let inverted := Sample.entry Sample.pa 1 (Sample.clock 9 0) (Sample.clock 7 0)
    let marker := Sample.entry Sample.pa 2 (Sample.clock 8 30) (Sample.clock 8 30)
    let long := Sample.entry Sample.pa 3 (Sample.clock 8 0) (Sample.clock 11 0)
    let backwards := Sample.entry Sample.ebs 10 (Sample.clock 10 0) (Sample.clock 9 0)
    let early := Sample.entry Sample.ebs 11 (Sample.clock 7 30) (Sample.clock 8 30)
    let film := Sample.entry Sample.ebs 12 (Sample.clock 8 0) (Sample.clock 9 30)
    let base := Sample.schedule [inverted, marker, long]
    let overrides := Sample.schedule [backwards, early, film]
    base.channel.id = overrides.channel.id ∧
    ∃ merged, base.overlaidBy overrides = .ok merged ∧
      merged.entries = [early, film, backwards,
        long.retimed (Sample.clock 9 30) (Sample.clock 11 0), marker, inverted] ∧
      ∃ remains, Thinned overrides.entries false base.sortedEntries remains ∧
        Interleaved overrides.sortedEntries remains merged.entries := by
  intro inverted marker long backwards early film base overrides
  have same : base.channel.id = overrides.channel.id := rfl
  obtain ⟨merged, ok, woven⟩ := overlaidBy_interleaved base overrides same
  refine ⟨same, merged, ok, ?_, woven⟩
  rw [ChannelSchedule.entries_of_overlaidBy ok]
  decide

end ChannelGuide
