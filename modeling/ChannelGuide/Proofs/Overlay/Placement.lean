import ChannelGuide.Proofs.Time.Order
import ChannelGuide.Schedule.Overlay

/-!
Everything that placing one airing can do, said once. An airing first passes overrides, which may
move its start, and then settles before the first override that it does not pass. What the walk
does to whole lists is derived from these two relations.
-/
namespace ChannelGuide

/-- The overrides passed by an airing that ends at `stop`, while its start moves from one instant to
another. An override that has ended leaves the start; one that ends inside the airing takes it to
its end. -/
inductive Passes (stop : Instant) : Instant → List Entry → Instant → Prop
  | none (t : Instant) : Passes stop t [] t
  | ended {t u : Instant} {v : Entry} {vs : List Entry} :
      v.stop ≤ t → Passes stop t vs u → Passes stop t (v :: vs) u
  | covering {t u : Instant} {v : Entry} {vs : List Entry} :
      v.start ≤ t → t < v.stop → v.stop < stop → Passes stop v.stop vs u →
      Passes stop t (v :: vs) u

/-- How an airing whose start has come to `t` settles before the overrides that are left: the piece
that is written and the fate of its follow-on. -/
inductive Settles (o : Entry) (t : Instant) : List Entry → Option Entry → FollowOnFate → Prop
  | alone : Settles o t [] (some (o.retimed t o.stop)) .kept
  | before {v : Entry} {vs : List Entry} : t < v.stop → o.stop ≤ v.start →
      Settles o t (v :: vs) (some (o.retimed t o.stop)) .kept
  | cut {v : Entry} {vs : List Entry} : t < v.stop → t < v.start → v.start < o.stop →
      Settles o t (v :: vs) (some (o.retimed t v.start)) (.movedTo v.start)
  | hidden {v : Entry} {vs : List Entry} : t < v.stop → v.start ≤ t → v.start < o.stop →
      o.stop ≤ v.stop → Settles o t (v :: vs) none .dropped

theorem Settles.of_retimed {o : Entry} {s t : Instant} {rest : List Entry} {piece : Option Entry}
    {fate : FollowOnFate} (h : Settles (o.retimed s o.stop) t rest piece fate) :
    Settles o t rest piece fate := by
  cases h with
  | alone => exact .alone
  | before running later => exact .before running later
  | cut running later overlap => exact .cut running later overlap
  | hidden running begun overlap lasts => exact .hidden running begun overlap lasts

theorem place_settles (o : Entry) (vs : List Entry) :
    ∃ passed rest t piece fate, vs = passed ++ rest ∧ Passes o.stop o.start passed t ∧
      Settles o t rest piece fate ∧ place o vs = ⟨passed ++ piece.toList, fate, rest⟩ := by
  -- the airing changes its start on the way, so the induction is over all airings
  induction vs generalizing o with
  | nil => exact ⟨[], [], o.start, some o, .kept, rfl, .none _, .alone, rfl⟩
  | cons v vs ih =>
      by_cases ended : v.stop ≤ o.start
      · obtain ⟨passed, rest, t, piece, fate, split, passes, settles, placed⟩ := ih o
        refine ⟨v :: passed, rest, t, piece, fate, by rw [split]; rfl, .ended ended passes,
          settles, ?_⟩
        rw [place, if_pos ended, placed]
        rfl
      have running := lt_of_not_ge ended
      by_cases later : o.stop ≤ v.start
      · refine ⟨[], v :: vs, o.start, some o, .kept, rfl, .none _, .before running later, ?_⟩
        rw [place, if_neg ended, if_pos later]
        rfl
      have overlap := lt_of_not_ge later
      by_cases early : o.start < v.start
      · refine ⟨[], v :: vs, o.start, some (o.retimed o.start v.start), .movedTo v.start, rfl,
          .none _, .cut running early overlap, ?_⟩
        rw [place, if_neg ended, if_neg later, if_pos early]
        rfl
      have begun := le_of_not_gt early
      by_cases inside : v.stop < o.stop
      · obtain ⟨passed, rest, t, piece, fate, split, passes, settles, placed⟩ :=
          ih (o.retimed v.stop o.stop)
        refine ⟨v :: passed, rest, t, piece, fate, by rw [split]; rfl,
          .covering begun running inside passes, settles.of_retimed, ?_⟩
        rw [place, if_neg ended, if_neg later, if_neg early, if_pos inside, placed]
        rfl
      · refine ⟨[], v :: vs, o.start, none, .dropped, rfl, .none _,
          .hidden running begun overlap (le_of_not_gt inside), ?_⟩
        rw [place, if_neg ended, if_neg later, if_neg early, if_neg inside]
        rfl

namespace Passes
variable {stop t u : Instant} {vs : List Entry}

theorem start_le (h : Passes stop t vs u) : t ≤ u := by
  induction h with
  | none t => exact le_rfl
  | ended _ _ ih => exact ih
  | covering _ running _ _ ih => exact running.le.trans ih

theorem eq_or_lt_stop (h : Passes stop t vs u) : u = t ∨ u < stop := by
  induction h with
  | none t => exact .inl rfl
  | ended _ _ ih => exact ih
  | covering _ _ inside _ ih =>
      rcases ih with same | before
      · exact .inr (same ▸ inside)
      · exact .inr before

theorem stop_le (h : Passes stop t vs u) : ∀ v ∈ vs, v.stop ≤ u := by
  induction h with
  | none t => exact fun v member => absurd member List.not_mem_nil
  | ended ended passes ih =>
      intro v member
      rcases List.mem_cons.mp member with rfl | member
      · exact ended.trans passes.start_le
      · exact ih v member
  | covering _ _ _ passes ih =>
      intro v member
      rcases List.mem_cons.mp member with rfl | member
      · exact passes.start_le
      · exact ih v member

theorem covered (h : Passes stop t vs u) {x : Instant} (from_start : t ≤ x) (before : x < u) :
    ∃ v ∈ vs, v.start ≤ x ∧ x < v.stop := by
  induction h with
  | none t => exact absurd before (not_lt_of_ge from_start)
  | ended _ _ ih =>
      obtain ⟨v, member, on⟩ := ih from_start before
      exact ⟨v, List.mem_cons_of_mem _ member, on⟩
  | @covering t u v vs begun _ _ _ ih =>
      by_cases on : x < v.stop
      · exact ⟨v, List.mem_cons_self, begun.trans from_start, on⟩
      · obtain ⟨w, member, on⟩ := ih (le_of_not_gt on) before
        exact ⟨w, List.mem_cons_of_mem _ member, on⟩

end Passes

theorem overlay_airing {o : Entry} (airing : ¬ o.broadcast.IsFollowOn) (fate : FollowOnFate)
    (base vs : List Entry) :
    ∃ passed rest t piece next, vs = passed ++ rest ∧ Passes o.stop o.start passed t ∧
      Settles o t rest piece next ∧
      overlay fate (o :: base) vs = passed ++ (piece.toList ++ overlay next base rest) := by
  obtain ⟨passed, rest, t, piece, next, split, passes, settles, placed⟩ := place_settles o vs
  refine ⟨passed, rest, t, piece, next, split, passes, settles, ?_⟩
  rw [overlay, if_neg airing, placed, List.append_assoc]

theorem overlay_followOn {o : Entry} (followOn : o.broadcast.IsFollowOn) (fate : FollowOnFate)
    (base vs : List Entry) :
    overlay fate (o :: base) vs = (fate.apply o).toList ++ overlay .kept base vs := by
  rw [overlay, if_pos followOn]

theorem overlay_no_overrides (base : List Entry) : overlay .kept base [] = base := by
  induction base with
  | nil => rfl
  | cons o base ih =>
      by_cases followOn : o.broadcast.IsFollowOn
      · rw [overlay_followOn followOn, ih]
        rfl
      · rw [overlay, if_neg followOn]
        exact congrArg (o :: ·) ih

/-- Both ways to lay one schedule over another write what the walk writes. -/
theorem overlaidBy_ok {base overrides : ChannelSchedule}
    (same : base.channel.id = overrides.channel.id) :
    base.overlaidBy overrides = .ok
      { channel := base.channel
        interval := if overrides.sortedEntries = [] then base.interval
          else base.interval.spanning overrides.interval
        entries := overlay .kept base.sortedEntries overrides.sortedEntries } := by
  rw [ChannelSchedule.overlaidBy, if_neg (not_not_intro same)]
  by_cases bare : overrides.sortedEntries = []
  · rw [if_pos bare, if_pos bare, bare, overlay_no_overrides]
  · rw [if_neg bare, if_neg bare]

namespace ChannelSchedule
variable {base overrides merged : ChannelSchedule}

theorem channel_id_eq_of_overlaidBy (ok : base.overlaidBy overrides = .ok merged) :
    base.channel.id = overrides.channel.id := by
  by_contra differ
  rw [overlaidBy, if_pos differ] at ok
  cases ok

theorem channel_of_overlaidBy (ok : base.overlaidBy overrides = .ok merged) :
    merged.channel = base.channel := by
  rw [overlaidBy_ok (channel_id_eq_of_overlaidBy ok)] at ok
  cases ok
  rfl

theorem interval_of_overlaidBy (ok : base.overlaidBy overrides = .ok merged) :
    merged.interval = if overrides.sortedEntries = [] then base.interval
      else base.interval.spanning overrides.interval := by
  rw [overlaidBy_ok (channel_id_eq_of_overlaidBy ok)] at ok
  cases ok
  rfl

theorem entries_of_overlaidBy (ok : base.overlaidBy overrides = .ok merged) :
    merged.entries = overlay .kept base.sortedEntries overrides.sortedEntries := by
  rw [overlaidBy_ok (channel_id_eq_of_overlaidBy ok)] at ok
  cases ok
  rfl

end ChannelSchedule
end ChannelGuide
