import Mathlib.Data.List.Flatten
import ChannelGuide.Proofs.Overlay.WellFormed

/-!
Laying the same overrides over a schedule a second time. The walk meets every override in the base
as well: the airing of the base is hidden, its follow-on goes with it, and the two come back from
the overrides. All that the first walk left of the base is apart from every override and stays.
-/
namespace ChannelGuide

theorem place_pending {o : Entry} {pending : List Entry}
    (gone : ∀ v ∈ pending, v.stop ≤ o.start) (vs : List Entry) :
    place o (pending ++ vs) =
      ⟨pending ++ (place o vs).written, (place o vs).fate, (place o vs).overrides⟩ := by
  induction pending with
  | nil => rfl
  | cons v pending ih =>
      have rest := ih fun w member => gone w (List.mem_cons_of_mem v member)
      rw [List.cons_append, place, if_pos (gone v List.mem_cons_self), rest]
      rfl

theorem place_before_all {o : Entry} {vs : List Showing} (airs : o.Airs)
    (later : ∀ v ∈ vs, o.stop ≤ v.airing.start) :
    place o (entriesOf vs) = ⟨[o], .kept, entriesOf vs⟩ := by
  cases vs with
  | nil => rfl
  | cons v vs =>
      have after := later v List.mem_cons_self
      have running : o.start < v.airing.stop := airs.trans (after.trans_lt v.airs)
      rw [entriesOf_cons, place, if_neg (not_le_of_gt running), if_pos after]

theorem place_self {o : Entry} (airs : o.Airs) (vs : List Entry) :
    place o (o :: vs) = ⟨[], .dropped, o :: vs⟩ := by
  rw [place, if_neg (not_le_of_gt airs), if_neg (not_le_of_gt airs), if_neg (lt_irrefl _),
    if_neg (lt_irrefl _)]

namespace Showing
variable {s : Showing} {ss vs : List Showing} {pending : List Entry}

theorem overlay_untouched (gone : ∀ v ∈ pending, v.stop ≤ s.airing.start)
    (later : ∀ v ∈ vs, s.airing.stop ≤ v.airing.start) :
    overlay .kept (entriesOf (s :: ss)) (pending ++ entriesOf vs) =
      pending ++ (s.entries ++ overlay .kept (entriesOf ss) (entriesOf vs)) := by
  rw [entriesOf_cons, overlay, if_neg s.airs.not_isFollowOn, place_pending gone,
    place_before_all s.airs later]
  dsimp only
  rw [overlay_followOns, FollowOnFate.applyFirst_kept, List.append_assoc]
  rfl

theorem overlay_replaced (single : s.Single) (gone : ∀ v ∈ pending, v.stop ≤ s.airing.start) :
    overlay .kept (entriesOf (s :: ss)) (pending ++ entriesOf (s :: vs)) =
      pending ++ overlay .kept (entriesOf ss) (s.entries ++ entriesOf vs) := by
  rw [entriesOf_cons, overlay, if_neg s.airs.not_isFollowOn, place_pending gone, entriesOf_cons,
    place_self s.airs]
  dsimp only
  rw [overlay_followOns, FollowOnFate.applyFirst_dropped, single, List.append_nil]
  rfl

end Showing

/-- Showings in turn stay as they are under overrides that are among them. -/
theorem overlay_part {ss vs : List Showing} (turn : ss.Pairwise Showing.Before)
    (single : ∀ s ∈ ss, s.Single) (part : vs.Sublist ss) {pending : List Entry}
    (gone : ∀ v ∈ pending, ∀ s ∈ ss, v.stop ≤ s.airing.start) :
    overlay .kept (entriesOf ss) (pending ++ entriesOf vs) = pending ++ entriesOf ss := by
  -- an override that has hidden its like is pending, to be written before the next base airing
  induction part generalizing pending with
  | slnil => rfl
  | @cons vs ss s part ih =>
      obtain ⟨before, turn⟩ := List.pairwise_cons.mp turn
      have tail := ih turn (fun x hx => single x (List.mem_cons_of_mem s hx))
        (fun v member => absurd member List.not_mem_nil)
      rw [List.nil_append, List.nil_append] at tail
      rw [Showing.overlay_untouched (fun v hv => gone v hv s List.mem_cons_self)
        (fun v hv => before v (part.subset hv)), tail]
      rfl
  | @cons_cons vs ss s part ih =>
      obtain ⟨before, turn⟩ := List.pairwise_cons.mp turn
      have replaced_gone : ∀ v ∈ s.entries, ∀ x ∈ ss, v.stop ≤ x.airing.start :=
        fun v hv x hx => (Showing.stop_eq hv).le.trans (before x hx)
      rw [Showing.overlay_replaced (single s List.mem_cons_self)
        (fun v hv => gone v hv s List.mem_cons_self),
        ih turn (fun x hx => single x (List.mem_cons_of_mem s hx)) replaced_gone]
      rfl

namespace Interval
variable (i j : Interval)

theorem spanning_self : i.spanning i = i := by
  simp [spanning]

theorem spanning_spanning_self : (i.spanning j).spanning j = i.spanning j := by
  simp [spanning]

end Interval

namespace ChannelSchedule
variable {merged overrides : ChannelSchedule} {ms vs : List Showing}

theorem overlaidBy_part (same : merged.channel.id = overrides.channel.id)
    (read : merged.entries = entriesOf ms) (turn : ms.Pairwise Showing.Before)
    (single : ∀ m ∈ ms, m.Single) (override_read : overrides.sortedEntries = entriesOf vs)
    (part : vs.Sublist ms)
    (around : overrides.sortedEntries ≠ [] →
      merged.interval.spanning overrides.interval = merged.interval) :
    merged.overlaidBy overrides = .ok merged := by
  have in_order : merged.sortedEntries = merged.entries := by
    apply inAiringOrder_eq_self
    rw [read]
    exact entriesOf_in_order turn
  have walk : overlay .kept merged.entries overrides.sortedEntries = merged.entries := by
    rw [read, override_read]
    exact overlay_part turn single part fun v member => absurd member List.not_mem_nil
  have interval : (if overrides.sortedEntries = [] then merged.interval
      else merged.interval.spanning overrides.interval) = merged.interval := by
    split
    · rfl
    · next some_override => exact around some_override
  rw [overlaidBy_ok same, in_order, walk, interval]

end ChannelSchedule

/-- Overrides that have been laid over a schedule are all in it and change nothing when they are laid
over it again, its interval included; laid over themselves, overrides in order change nothing. -/
theorem overlaidBy_idempotent {base overrides : ChannelSchedule}
    (same : base.channel.id = overrides.channel.id) (base_ok : base.WellFormed)
    (overrides_ok : overrides.WellFormed)
    (in_order : overrides.entries.Pairwise fun a b => a.broadcast.NotAfter b.broadcast) :
    (∃ merged, base.overlaidBy overrides = .ok merged ∧
      overrides.entries.Sublist merged.entries ∧ merged.overlaidBy overrides = .ok merged) ∧
      overrides.overlaidBy overrides = .ok overrides := by
  obtain ⟨bs, base_read, turn, base_single⟩ := base_ok.exists_showings
  obtain ⟨vs, override_read, override_turn, override_single⟩ := overrides_ok.exists_showings
  have coming := Coming.initial overrides base.sortedEntries
  rw [base_read, override_read] at coming
  obtain ⟨ms, walk, ms_turn, origin, part⟩ :=
    overlay_showings_part bs turn override_turn base_single coming
  rw [← base_read, ← override_read] at walk
  have read : overrides.entries = entriesOf vs := by
    rw [← override_read]
    exact (inAiringOrder_eq_self in_order).symm
  refine ⟨⟨_, overlaidBy_ok same, ?_, ?_⟩, ?_⟩
  · rw [read, walk]
    exact part.flatMap Showing.entries
  · refine ChannelSchedule.overlaidBy_part ?_ walk ms_turn ?_ override_read part ?_
    · exact same
    · intro m member
      rcases origin m member with whole | ⟨b, -, cut⟩
      · exact override_single m whole
      · exact cut.single
    · intro some_override
      rw [if_neg some_override]
      exact base.interval.spanning_spanning_self overrides.interval
  · exact ChannelSchedule.overlaidBy_part rfl read override_turn override_single override_read
      (.refl vs) fun _ => overrides.interval.spanning_self

/-- An override hides the start of an airing and leaves its follow-on; another one cuts an airing
short and takes its follow-on to the cut. -/
theorem overlaidBy_idempotent_cut :
    let pa id (start stop : Fin 24) :=
      Sample.entry Sample.pa id (Sample.clock start 0) (Sample.clock stop 0)
    let ebs id (start stop : Fin 24) :=
      Sample.entry Sample.ebs id (Sample.clock start 0) (Sample.clock stop 0)
    let base := Sample.schedule [pa 1 7 10, pa 2 10 10, pa 3 10 12, pa 4 12 12]
    let overrides := Sample.schedule [ebs 10 7 9, ebs 11 9 9, ebs 12 11 12, ebs 13 12 12]
    (base.channel.id = overrides.channel.id ∧ base.WellFormed ∧ overrides.WellFormed ∧
      overrides.entries.Pairwise fun a b => a.broadcast.NotAfter b.broadcast) ∧
    (∃ merged, base.overlaidBy overrides = .ok merged ∧
      merged.entries = [ebs 10 7 9, ebs 11 9 9,
        (pa 1 7 10).retimed (Sample.clock 9 0) (Sample.clock 10 0), pa 2 10 10,
        (pa 3 10 12).retimed (Sample.clock 10 0) (Sample.clock 11 0),
        (pa 4 12 12).retimed (Sample.clock 11 0) (Sample.clock 11 0), ebs 12 11 12,
        ebs 13 12 12] ∧
      overrides.entries.Sublist merged.entries ∧ merged.overlaidBy overrides = .ok merged) ∧
      overrides.overlaidBy overrides = .ok overrides := by
  intro pa ebs base overrides
  have same : base.channel.id = overrides.channel.id := rfl
  have base_ok : base.WellFormed := ⟨by decide, by decide, by decide, by decide⟩
  have overrides_ok : overrides.WellFormed := ⟨by decide, by decide, by decide, by decide⟩
  have in_order : overrides.entries.Pairwise fun a b => a.broadcast.NotAfter b.broadcast := by
    decide
  obtain ⟨⟨merged, ok, part, again⟩, itself⟩ :=
    overlaidBy_idempotent same base_ok overrides_ok in_order
  refine ⟨⟨same, base_ok, overrides_ok, in_order⟩, ⟨merged, ok, ?_, part, again⟩, itself⟩
  rw [ChannelSchedule.entries_of_overlaidBy ok]
  decide

end ChannelGuide
