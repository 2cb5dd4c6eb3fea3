import ChannelGuide.Proofs.Time.Order
import ChannelGuide.Schedule

/-!
The airings of a schedule, which are its entries of positive length. In the order of a schedule,
airings that keep apart come one after the other.
-/
namespace ChannelGuide

namespace Entry

/-- The entry is on for some time. -/
def Airs (e : Entry) : Prop := e.start < e.stop

instance (e : Entry) : Decidable e.Airs := inferInstanceAs (Decidable (_ < _))

/-- The entry is on at this instant. -/
def OnAt (e : Entry) (t : Instant) : Prop := e.start ≤ t ∧ t < e.stop

/-- One of the two is over before the other starts. -/
def Apart (a b : Entry) : Prop := a.stop ≤ b.start ∨ b.stop ≤ a.start

instance (a b : Entry) : Decidable (a.Apart b) := inferInstanceAs (Decidable (_ ∨ _))

instance : Std.Symm Apart := ⟨fun _ _ => Or.symm⟩

theorem Airs.not_isFollowOn {e : Entry} (h : e.Airs) : ¬ e.broadcast.IsFollowOn := ne_of_lt h

theorem airs_of_not_isFollowOn {e : Entry} (upright : e.start ≤ e.stop)
    (h : ¬ e.broadcast.IsFollowOn) : e.Airs := lt_of_le_of_ne upright h

/-- The same item in a broadcast that differs in its two times at most. -/
structure SameButTimes (a b : Entry) : Prop where
  item : a.item = b.item
  channel : a.broadcast.channel = b.broadcast.channel
  sourceId : a.broadcast.sourceId = b.broadcast.sourceId
  activelyPublished : a.broadcast.activelyPublished = b.broadcast.activelyPublished
  isRepeat : a.broadcast.isRepeat = b.broadcast.isRepeat

theorem retimed_sameButTimes (e : Entry) (s t : Instant) :
    (e.retimed s t).SameButTimes e := ⟨rfl, rfl, rfl, rfl, rfl⟩

end Entry

theorem Broadcast.NotAfter.start_le {a b : Broadcast} (h : a.NotAfter b) : a.start ≤ b.start := by
  rcases h with earlier | ⟨same, -⟩
  · exact earlier.le
  · exact same.le

namespace ChannelSchedule
variable (s : ChannelSchedule)

theorem sortedEntries_perm : s.sortedEntries.Perm s.entries :=
  inAiringOrder_perm Entry.broadcast s.entries

@[simp] theorem mem_sortedEntries {e : Entry} : e ∈ s.sortedEntries ↔ e ∈ s.entries :=
  s.sortedEntries_perm.mem_iff

theorem pairwise_notAfter_sortedEntries :
    s.sortedEntries.Pairwise fun a b => a.broadcast.NotAfter b.broadcast :=
  pairwise_inAiringOrder Entry.broadcast s.entries

theorem pairwise_start_sortedEntries :
    s.sortedEntries.Pairwise fun a b => a.start ≤ b.start :=
  s.pairwise_notAfter_sortedEntries.imp Broadcast.NotAfter.start_le

variable {s}

theorem airings_in_turn (apart : (s.entries.filter (·.Airs)).Pairwise Entry.Apart) :
    (s.sortedEntries.filter (·.Airs)).Pairwise fun a b => a.stop ≤ b.start := by
  have sorted_apart : (s.sortedEntries.filter (·.Airs)).Pairwise Entry.Apart :=
    (s.sortedEntries_perm.filter _).symm.pairwise apart fun h => Or.symm h
  have in_order := s.pairwise_start_sortedEntries.filter (·.Airs)
  refine (sorted_apart.and in_order).imp_of_mem ?_
  rintro a b - later ⟨gone | gone, order⟩
  · exact gone
  · have airs : b.start < b.stop := of_decide_eq_true (List.mem_filter.mp later).2
    exact absurd (airs.trans_le gone) (not_lt_of_ge order)

end ChannelSchedule
end ChannelGuide
