import ChannelGuide.Proofs.Overlay.Airings
import ChannelGuide.Proofs.Schedule.Showing

/-!
The walk over showings. One showing of the base is placed with its follow-ons: the first of them
takes the fate of the airing, and all others stay as they are.
-/
namespace ChannelGuide

namespace FollowOnFate

/-- What the walk writes of the follow-ons behind an airing of this fate. -/
def applyFirst (fate : FollowOnFate) : List Entry → List Entry
  | [] => []
  | f :: fs => (fate.apply f).toList ++ fs

theorem applyFirst_kept (fs : List Entry) : kept.applyFirst fs = fs := by
  cases fs with
  | nil => rfl
  | cons f fs => rfl

theorem applyFirst_movedTo (t : Instant) (fs : List Entry) :
    (movedTo t).applyFirst fs = (fs.take 1).map (·.retimed t t) ++ fs.tail := by
  cases fs with
  | nil => rfl
  | cons f fs => rfl

theorem applyFirst_dropped (fs : List Entry) : dropped.applyFirst fs = fs.tail := by
  cases fs with
  | nil => rfl
  | cons f fs => rfl

end FollowOnFate

theorem overlay_kept_followOns {fs : List Entry} (followOns : ∀ f ∈ fs, f.broadcast.IsFollowOn)
    (base vs : List Entry) :
    overlay .kept (fs ++ base) vs = fs ++ overlay .kept base vs := by
  induction fs with
  | nil => rfl
  | cons f fs ih =>
      have tail := ih fun g member => followOns g (List.mem_cons_of_mem f member)
      rw [List.cons_append, overlay_followOn (followOns f List.mem_cons_self), tail]
      rfl

/-- A fate that no follow-on takes is lost at the next airing. -/
theorem overlay_entriesOf_fate (fate : FollowOnFate) (ss : List Showing) (vs : List Entry) :
    overlay fate (entriesOf ss) vs = overlay .kept (entriesOf ss) vs := by
  cases ss with
  | nil => rfl
  | cons s ss =>
      rw [entriesOf_cons, overlay, overlay, if_neg s.airs.not_isFollowOn,
        if_neg s.airs.not_isFollowOn]

theorem overlay_followOns (fate : FollowOnFate) (s : Showing) (ss : List Showing)
    (vs : List Entry) :
    overlay fate (s.followOns ++ entriesOf ss) vs =
      fate.applyFirst s.followOns ++ overlay .kept (entriesOf ss) vs := by
  have followOns : ∀ f ∈ s.followOns, f.broadcast.IsFollowOn := fun _ => Showing.isFollowOn
  cases trail : s.followOns with
  | nil => exact overlay_entriesOf_fate fate ss vs
  | cons f fs =>
      rw [trail] at followOns
      have tail := overlay_kept_followOns (fun g member => followOns g (List.mem_cons_of_mem f member))
        (entriesOf ss) vs
      rw [List.cons_append, overlay_followOn (followOns f List.mem_cons_self), tail,
        FollowOnFate.applyFirst, List.append_assoc]

theorem overlay_showing (s : Showing) (ss : List Showing) (vs : List Entry) :
    ∃ passed rest t piece fate, vs = passed ++ rest ∧
      Passes s.airing.stop s.airing.start passed t ∧ Settles s.airing t rest piece fate ∧
      overlay .kept (entriesOf (s :: ss)) vs = passed ++ ((piece.toList ++
        fate.applyFirst s.followOns) ++ overlay .kept (entriesOf ss) rest) := by
  obtain ⟨passed, rest, t, piece, fate, split, passes, settles, step⟩ :=
    overlay_airing s.airs.not_isFollowOn .kept (s.followOns ++ entriesOf ss) vs
  refine ⟨passed, rest, t, piece, fate, split, passes, settles, ?_⟩
  rw [entriesOf_cons, step, overlay_followOns, List.append_assoc]

theorem Coming.of_showing {overrides vs : List Entry} {s : Showing} {ss : List Showing}
    (h : Coming overrides (entriesOf (s :: ss)) vs) :
    Coming overrides (s.airing :: entriesOf ss) vs where
  part := h.part
  inOrder := h.inOrder
  ended v member := (h.ended v member).imp_right fun gone x hx => gone x <| by
    rw [entriesOf_cons]
    rcases List.mem_cons.mp hx with rfl | hx
    · exact List.mem_cons_self
    · exact List.mem_cons_of_mem _ (List.mem_append_right _ hx)

theorem airing_stop_le {s : Showing} {ss : List Showing}
    (turn : (s :: ss).Pairwise Showing.Before) {x : Entry} (member : x ∈ entriesOf ss) :
    s.airing.stop ≤ x.start := by
  obtain ⟨later, hlater, hx⟩ := mem_entriesOf.mp member
  exact ((List.pairwise_cons.mp turn).1 later hlater).trans (Showing.start_le hx)

end ChannelGuide
