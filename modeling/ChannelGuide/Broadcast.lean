import ChannelGuide.Channel
import ChannelGuide.Interval

/-!
One airing on a channel. A broadcast that ends where it starts is a follow-on: a marker that trails
the airing before it. Records from outside may even end before they start; nothing here repairs
them.
-/
namespace ChannelGuide

structure Broadcast where
  channel : ChannelId
  start : Instant
  stop : Instant
  sourceId : Option String := none
  activelyPublished : Bool := true
  isRepeat : Bool := false
deriving DecidableEq

namespace Broadcast

/-- A broadcast that does not end before it starts. -/
def scheduled (channel : ChannelId) (start stop : Instant) : Except InvertedInterval Broadcast :=
  (Interval.between start stop).map fun _ => { channel, start, stop }

/-- The time on air; nothing at the start, if the end lies before it. -/
def interval (b : Broadcast) : Interval :=
  if h : b.start ≤ b.stop then ⟨b.start, b.stop, h⟩ else .empty b.start

def duration (b : Broadcast) : Span := b.stop.since b.start

def IsFollowOn (b : Broadcast) : Prop := b.start = b.stop

instance (b : Broadcast) : Decidable b.IsFollowOn := inferInstanceAs (Decidable (_ = _))

def retimed (b : Broadcast) (start stop : Instant) : Broadcast := { b with start, stop }

def NotAfter (a b : Broadcast) : Prop := a.start < b.start ∨ (a.start = b.start ∧ a.stop ≤ b.stop)

instance (a b : Broadcast) : Decidable (a.NotAfter b) :=
  inferInstanceAs (Decidable (_ ∨ (_ ∧ _)))

theorem NotAfter.trans {a b c : Broadcast} (hab : a.NotAfter b) (hbc : b.NotAfter c) :
    a.NotAfter c := by
  simp only [NotAfter, Instant.lt_iff, Instant.le_iff, Instant.ext_iff] at *
  omega

theorem notAfter_total (a b : Broadcast) : a.NotAfter b ∨ b.NotAfter a := by
  simp only [NotAfter, Instant.lt_iff, Instant.le_iff, Instant.ext_iff]
  omega

def airingOrder (a b : Broadcast) : Ordering :=
  if a.NotAfter b then if b.NotAfter a then .eq else .lt else .gt

/-- On one channel from one instant to another, whatever else is known of them. -/
def SameSlot (a b : Broadcast) : Prop :=
  a.channel = b.channel ∧ a.start = b.start ∧ a.stop = b.stop

instance (a b : Broadcast) : Decidable (a.SameSlot b) :=
  inferInstanceAs (Decidable (_ ∧ _ ∧ _))

end Broadcast

/-- Puts `x` in front of the first element that does not air before it. -/
def placeInOrder (airing : α → Broadcast) (x : α) : List α → List α
  | [] => [x]
  | y :: ys =>
    if (airing x).NotAfter (airing y) then x :: y :: ys else y :: placeInOrder airing x ys

/-- The elements in the order of their airings; those that air at the same time keep their order. -/
def inAiringOrder (airing : α → Broadcast) (xs : List α) : List α :=
  xs.foldr (placeInOrder airing) []

theorem placeInOrder_perm (airing : α → Broadcast) (x : α) (xs : List α) :
    (placeInOrder airing x xs).Perm (x :: xs) := by
  induction xs with
  | nil => exact .refl _
  | cons y ys ih =>
    simp only [placeInOrder]
    split
    · exact .refl _
    · exact (ih.cons y).trans (.swap x y ys)

theorem inAiringOrder_perm (airing : α → Broadcast) (xs : List α) :
    (inAiringOrder airing xs).Perm xs := by
  induction xs with
  | nil => exact .refl _
  | cons x xs ih => exact (placeInOrder_perm airing x _).trans (ih.cons x)

theorem pairwise_placeInOrder {airing : α → Broadcast} (x : α) {xs : List α}
    (h : xs.Pairwise fun a b => (airing a).NotAfter (airing b)) :
    (placeInOrder airing x xs).Pairwise fun a b => (airing a).NotAfter (airing b) := by
  induction xs with
  | nil => simp [placeInOrder]
  | cons y ys ih =>
    obtain ⟨hy, hys⟩ := List.pairwise_cons.mp h
    simp only [placeInOrder]
    split
    · next hxy =>
      refine List.pairwise_cons.mpr ⟨fun z hz => ?_, h⟩
      rcases List.mem_cons.mp hz with rfl | hz
      · exact hxy
      · exact hxy.trans (hy z hz)
    · next hxy =>
      refine List.pairwise_cons.mpr ⟨fun z hz => ?_, ih hys⟩
      rcases List.mem_cons.mp ((placeInOrder_perm airing x ys).mem_iff.mp hz) with rfl | hz
      · exact (Broadcast.notAfter_total _ _).resolve_left hxy
      · exact hy z hz

theorem pairwise_inAiringOrder (airing : α → Broadcast) (xs : List α) :
    (inAiringOrder airing xs).Pairwise fun a b => (airing a).NotAfter (airing b) := by
  induction xs with
  | nil => exact .nil
  | cons x xs ih => exact pairwise_placeInOrder x ih

theorem inAiringOrder_eq_self {airing : α → Broadcast} {xs : List α}
    (h : xs.Pairwise fun a b => (airing a).NotAfter (airing b)) :
    inAiringOrder airing xs = xs := by
  induction xs with
  | nil => rfl
  | cons x xs ih =>
    obtain ⟨hx, hxs⟩ := List.pairwise_cons.mp h
    change placeInOrder airing x (inAiringOrder airing xs) = x :: xs
    rw [ih hxs]
    cases xs with
    | nil => rfl
    | cons y ys => exact if_pos (hx y List.mem_cons_self)

end ChannelGuide
