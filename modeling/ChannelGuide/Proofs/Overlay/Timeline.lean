import ChannelGuide.Proofs.Matching
import ChannelGuide.Proofs.Overlay.Correspondence

/-!
The walk looks at nothing but times. Laid over entries in the same slots, entries in the same slots
give entries in the same slots, whatever items they show.
-/
namespace ChannelGuide

theorem Broadcast.SameSlot.notAfter_iff {a a' b b' : Broadcast} (ha : a.SameSlot a')
    (hb : b.SameSlot b') : a.NotAfter b ↔ a'.NotAfter b' := by
  obtain ⟨-, a_start, a_stop⟩ := ha
  obtain ⟨-, b_start, b_stop⟩ := hb
  rw [NotAfter, NotAfter, a_start, a_stop, b_start, b_stop]

namespace Entry
variable {a b : Entry}

def SameSlot (a b : Entry) : Prop := a.broadcast.SameSlot b.broadcast

theorem SameSlot.start_eq (h : a.SameSlot b) : a.start = b.start := h.2.1

/-- To be in the same slot is to correspond on one clock, on one channel. -/
theorem sameSlot_iff_corresponds :
    a.SameSlot b ↔ a.Corresponds id Set.univ (fun l m => l.channel = m.channel) b := by
  constructor
  · rintro ⟨channel, start, stop⟩
    exact ⟨trivial, trivial, start.symm, stop.symm, channel⟩
  · intro same
    exact ⟨same.label, same.start.symm, same.stop.symm⟩

end Entry

/-- The entries are in the same slots, one by one. -/
abbrev SameTimeline : List Entry → List Entry → Prop := List.Forall₂ Entry.SameSlot

variable {base base' vs vs' : List Entry}

theorem sameTimeline_iff_correspond : SameTimeline vs vs' ↔
    Correspond id Set.univ (fun l m => l.channel = m.channel) vs vs' := by
  constructor
  · exact fun timeline => timeline.imp fun _ _ => Entry.sameSlot_iff_corresponds.mp
  · exact fun same => same.imp fun _ _ => Entry.sameSlot_iff_corresponds.mpr

theorem sameTimeline_overlay (fate : FollowOnFate) (timeline : SameTimeline base base')
    (overrides : SameTimeline vs vs') :
    SameTimeline (overlay fate base vs) (overlay fate base' vs') := by
  have itself : fate.Corresponds id Set.univ fate := by
    cases fate with
    | kept => exact .kept
    | dropped => exact .dropped
    | movedTo t => exact .movedTo trivial
  rw [sameTimeline_iff_correspond] at *
  exact correspond_overlay strictMonoOn_id itself timeline overrides

theorem ChannelSchedule.sameTimeline_sortedEntries {s t : ChannelSchedule}
    (timeline : SameTimeline s.entries t.entries) :
    SameTimeline s.sortedEntries t.sortedEntries := by
  rw [sameTimeline_iff_correspond] at *
  exact correspond_inAiringOrder strictMonoOn_id timeline

end ChannelGuide
