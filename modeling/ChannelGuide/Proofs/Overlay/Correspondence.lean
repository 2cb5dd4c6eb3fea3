import Mathlib.Data.List.Forall2
import Mathlib.Order.Monotone.Defs
import ChannelGuide.Proofs.Time.Order
import ChannelGuide.Schedule.Overlay

/-!
The walk only compares instants. Where two schedules and their overrides correspond entry by entry,
the instants of the one in the same order as those of the other, what the walk writes corresponds
too, whatever the entries say besides their times.
-/
namespace ChannelGuide

namespace Entry

/-- What an entry says besides its times. -/
structure Label where
  item : Item
  channel : ChannelId
  sourceId : Option String
  activelyPublished : Bool
  isRepeat : Bool
deriving DecidableEq

def label (e : Entry) : Label where
  item := e.item
  channel := e.broadcast.channel
  sourceId := e.broadcast.sourceId
  activelyPublished := e.broadcast.activelyPublished
  isRepeat := e.broadcast.isRepeat

/-- The entry that says this and is on from `start` to `stop`. -/
def Label.on (l : Label) (start stop : Instant) : Entry where
  item := l.item
  broadcast :=
    { channel := l.channel, start, stop, sourceId := l.sourceId
      activelyPublished := l.activelyPublished, isRepeat := l.isRepeat }

@[simp] theorem label_on (l : Label) (start stop : Instant) : (l.on start stop).label = l := rfl

@[simp] theorem start_on (l : Label) (start stop : Instant) :
    (l.on start stop).start = start := rfl

@[simp] theorem stop_on (l : Label) (start stop : Instant) : (l.on start stop).stop = stop := rfl

@[simp] theorem on_label (e : Entry) (start stop : Instant) :
    e.label.on start stop = e.retimed start stop := rfl

theorem ext_label {a b : Entry} (label : a.label = b.label) (start : a.start = b.start)
    (stop : a.stop = b.stop) : a = b := by
  rw [← retimed_self a, ← retimed_self b, ← on_label, ← on_label, label, start, stop]

end Entry

/-- `b` is on when `clock` shows the times of `a`, which are among `times`, and says what `R` allows
for what `a` says. -/
structure Entry.Corresponds (clock : Instant → Instant) (times : Set Instant)
    (R : Entry.Label → Entry.Label → Prop) (a b : Entry) : Prop where
  start_mem : a.start ∈ times
  stop_mem : a.stop ∈ times
  start : b.start = clock a.start
  stop : b.stop = clock a.stop
  label : R a.label b.label

/-- The entries correspond one by one. -/
abbrev Correspond (clock : Instant → Instant) (times : Set Instant)
    (R : Entry.Label → Entry.Label → Prop) : List Entry → List Entry → Prop :=
  List.Forall₂ (Entry.Corresponds clock times R)

inductive FollowOnFate.Corresponds (clock : Instant → Instant) (times : Set Instant) :
    FollowOnFate → FollowOnFate → Prop
  | kept : Corresponds clock times .kept .kept
  | dropped : Corresponds clock times .dropped .dropped
  | movedTo {t : Instant} : t ∈ times → Corresponds clock times (.movedTo t) (.movedTo (clock t))

structure Placement.Corresponds (clock : Instant → Instant) (times : Set Instant)
    (R : Entry.Label → Entry.Label → Prop) (p q : Placement) : Prop where
  written : Correspond clock times R p.written q.written
  fate : p.fate.Corresponds clock times q.fate
  overrides : Correspond clock times R p.overrides q.overrides

section Walk
variable {clock : Instant → Instant} {times : Set Instant} {R : Entry.Label → Entry.Label → Prop}
  {a b v w : Entry} {xs ys vs ws : List Entry}

theorem Entry.Corresponds.retimed (h : a.Corresponds clock times R b) {s t : Instant}
    (hs : s ∈ times) (ht : t ∈ times) :
    (a.retimed s t).Corresponds clock times R (b.retimed (clock s) (clock t)) :=
  ⟨hs, ht, rfl, rfl, h.label⟩

theorem Entry.Corresponds.retimed_start (h : a.Corresponds clock times R b) {t : Instant}
    (ht : t ∈ times) :
    (a.retimed a.start t).Corresponds clock times R (b.retimed b.start (clock t)) := by
  rw [h.start]
  exact h.retimed h.start_mem ht

theorem Entry.Corresponds.retimed_stop (h : a.Corresponds clock times R b) {t : Instant}
    (ht : t ∈ times) :
    (a.retimed t a.stop).Corresponds clock times R (b.retimed (clock t) b.stop) := by
  rw [h.stop]
  exact h.retimed ht h.stop_mem

theorem Placement.Corresponds.write {p q : Placement} (h : p.Corresponds clock times R q)
    (same : a.Corresponds clock times R b) : (p.write a).Corresponds clock times R (q.write b) :=
  ⟨.cons same h.written, h.fate, h.overrides⟩

theorem corresponds_apply {fate fate' : FollowOnFate} (fates : fate.Corresponds clock times fate')
    (same : a.Corresponds clock times R b) :
    Correspond clock times R (fate.apply a).toList (fate'.apply b).toList := by
  cases fates with
  | kept => exact .cons same .nil
  | dropped => exact .nil
  | movedTo member => exact .cons (same.retimed member member) .nil

variable (forward : StrictMonoOn clock times)
include forward

theorem Entry.Corresponds.isFollowOn_iff (h : a.Corresponds clock times R b) :
    b.broadcast.IsFollowOn ↔ a.broadcast.IsFollowOn := by
  change b.start = b.stop ↔ a.start = a.stop
  rw [h.start, h.stop]
  exact forward.injOn.eq_iff h.start_mem h.stop_mem

theorem Entry.Corresponds.notAfter_iff (ha : a.Corresponds clock times R b)
    (hv : v.Corresponds clock times R w) :
    b.broadcast.NotAfter w.broadcast ↔ a.broadcast.NotAfter v.broadcast := by
  change b.start < w.start ∨ (b.start = w.start ∧ b.stop ≤ w.stop) ↔
    a.start < v.start ∨ (a.start = v.start ∧ a.stop ≤ v.stop)
  rw [ha.start, ha.stop, hv.start, hv.stop, forward.lt_iff_lt ha.start_mem hv.start_mem,
    forward.injOn.eq_iff ha.start_mem hv.start_mem, forward.le_iff_le ha.stop_mem hv.stop_mem]

theorem correspond_placeInOrder (same : a.Corresponds clock times R b)
    (others : Correspond clock times R xs ys) :
    Correspond clock times R (placeInOrder Entry.broadcast a xs)
      (placeInOrder Entry.broadcast b ys) := by
  induction others with
  | nil => exact .cons same .nil
  | cons head tail ih =>
      simp only [placeInOrder, same.notAfter_iff forward head]
      split
      · exact .cons same (.cons head tail)
      · exact .cons head ih

theorem correspond_inAiringOrder (same : Correspond clock times R xs ys) :
    Correspond clock times R (inAiringOrder Entry.broadcast xs)
      (inAiringOrder Entry.broadcast ys) := by
  induction same with
  | nil => exact .nil
  | cons head _ ih => exact correspond_placeInOrder forward head ih

theorem corresponds_place (same : a.Corresponds clock times R b)
    (overrides : Correspond clock times R vs ws) :
    (place a vs).Corresponds clock times R (place b ws) := by
  -- the airing changes its start on the way, so the induction is over all that correspond
  induction overrides generalizing a b with
  | nil => exact ⟨.cons same .nil, .kept, .nil⟩
  | @cons v w vs ws head tail ih =>
      have ended_iff : w.stop ≤ b.start ↔ v.stop ≤ a.start := by
        rw [head.stop, same.start]
        exact forward.le_iff_le head.stop_mem same.start_mem
      have later_iff : b.stop ≤ w.start ↔ a.stop ≤ v.start := by
        rw [same.stop, head.start]
        exact forward.le_iff_le same.stop_mem head.start_mem
      have early_iff : b.start < w.start ↔ a.start < v.start := by
        rw [same.start, head.start]
        exact forward.lt_iff_lt same.start_mem head.start_mem
      have inside_iff : w.stop < b.stop ↔ v.stop < a.stop := by
        rw [head.stop, same.stop]
        exact forward.lt_iff_lt head.stop_mem same.stop_mem
      simp only [place, ended_iff, later_iff, early_iff, inside_iff]
      split
      · exact (ih same).write head
      split
      · exact ⟨.cons same .nil, .kept, .cons head tail⟩
      split
      · rw [head.start]
        exact ⟨.cons (same.retimed_start head.start_mem) .nil, .movedTo head.start_mem,
          .cons head tail⟩
      split
      · rw [head.stop]
        exact (ih (same.retimed_stop head.stop_mem)).write head
      · exact ⟨.nil, .dropped, .cons head tail⟩

theorem correspond_overlay {fate fate' : FollowOnFate} (fates : fate.Corresponds clock times fate')
    (base : Correspond clock times R xs ys) (overrides : Correspond clock times R vs ws) :
    Correspond clock times R (overlay fate xs vs) (overlay fate' ys ws) := by
  induction base generalizing fate fate' vs ws with
  | nil => exact overrides
  | cons head _ ih =>
      simp only [overlay, head.isFollowOn_iff forward]
      split
      · exact List.rel_append (corresponds_apply fates head) (ih .kept overrides)
      · obtain ⟨written, next, left⟩ := corresponds_place forward head overrides
        exact List.rel_append written (ih next left)

end Walk
end ChannelGuide
