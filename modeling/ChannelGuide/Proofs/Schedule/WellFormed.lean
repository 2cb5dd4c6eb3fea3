import ChannelGuide.Proofs.Schedule.Showing

/-!
Well-formed schedules, and showings in turn as their one form: whatever is read off such showings,
one follow-on each at most, is well formed.
-/
namespace ChannelGuide

namespace ChannelSchedule

/-- Airings keep apart, no entry is inverted, and every follow-on trails an airing, alone at its
instant. -/
structure WellFormed (s : ChannelSchedule) : Prop where
  apart : (s.entries.filter (·.Airs)).Pairwise Entry.Apart
  upright : ∀ e ∈ s.entries, e.start ≤ e.stop
  trailing : ∀ f ∈ s.entries, f.broadcast.IsFollowOn →
    ∃ a ∈ s.entries, a.Airs ∧ a.stop = f.start
  single : (s.entries.filter (·.broadcast.IsFollowOn)).Pairwise fun f g => f.start ≠ g.start

/-- The schedule has the follow-on at the end of this airing. -/
structure Trails (s : ChannelSchedule) (f a : Entry) : Prop where
  followOn : f ∈ s.entries
  airing : a ∈ s.entries
  isFollowOn : f.broadcast.IsFollowOn
  airs : a.Airs
  stop_eq : a.stop = f.start

/-- No entry reaches out of the interval of the schedule. -/
def Within (s : ChannelSchedule) : Prop :=
  ∀ e ∈ s.entries, s.interval.start ≤ e.start ∧ e.stop ≤ s.interval.stop

instance (s : ChannelSchedule) : Decidable s.Within :=
  inferInstanceAs (Decidable (∀ e ∈ _, _ ∧ _))

end ChannelSchedule

theorem entriesOf_in_turn {ss : List Showing} (turn : ss.Pairwise Showing.Before) :
    (entriesOf ss).Pairwise fun a b => a.stop ≤ b.start := by
  refine List.pairwise_flatMap.mpr ⟨?_, ?_⟩
  · intro s _
    refine List.pairwise_cons.mpr ⟨fun f hf => (s.trailing f hf).1.ge, ?_⟩
    apply List.pairwise_of_forall_mem_list
    intro f hf g hg
    exact (s.trailing f hf).2.le.trans (s.trailing g hg).1.ge
  · refine turn.imp ?_
    intro a b before x hx y hy
    exact (Showing.stop_eq hx).le.trans (before.trans (Showing.start_le hy))

theorem notAfter_of_in_turn {l : List Entry} (upright : ∀ e ∈ l, e.start ≤ e.stop)
    (turn : l.Pairwise fun a b => a.stop ≤ b.start) :
    l.Pairwise fun a b => a.broadcast.NotAfter b.broadcast := by
  refine turn.imp_of_mem ?_
  intro a b ha hb gone
  rcases lt_or_eq_of_le ((upright a ha).trans gone) with earlier | same
  · exact .inl earlier
  · exact .inr ⟨same, gone.trans (upright b hb)⟩

theorem entriesOf_in_order {ss : List Showing} (turn : ss.Pairwise Showing.Before) :
    (entriesOf ss).Pairwise fun a b => a.broadcast.NotAfter b.broadcast := by
  apply notAfter_of_in_turn _ (entriesOf_in_turn turn)
  intro e member
  obtain ⟨s, -, in_s⟩ := mem_entriesOf.mp member
  exact Showing.upright in_s

theorem entriesOf_spans_differ {ss : List Showing} (turn : ss.Pairwise Showing.Before)
    (single : ∀ s ∈ ss, s.Single) :
    (entriesOf ss).Pairwise fun a b => ¬ (a.start = b.start ∧ a.stop = b.stop) := by
  -- starts differ within a showing, and ends grow from one showing to the next
  refine List.pairwise_flatMap.mpr ⟨?_, ?_⟩
  · intro s hs
    refine List.pairwise_cons.mpr ⟨?_, ?_⟩
    · rintro f hf ⟨same, -⟩
      exact ne_of_lt s.airs (same.trans (s.trailing f hf).1)
    · have alone := single s hs
      unfold Showing.Single at alone
      cases trail : s.followOns with
      | nil => exact .nil
      | cons f fs =>
          rw [trail, List.tail_cons] at alone
          rw [alone]
          exact List.pairwise_singleton _ f
  · refine turn.imp ?_
    rintro a b before x hx y hy ⟨-, same⟩
    have stops : a.airing.stop = b.airing.stop := by
      rw [← Showing.stop_eq hx, ← Showing.stop_eq hy, same]
    exact absurd (stops.ge.trans before) (not_le_of_gt b.airs)

theorem entriesOf_directly_behind {ss : List Showing} (single : ∀ s ∈ ss, s.Single)
    {l r : List Entry} {f : Entry} (split : entriesOf ss = l ++ f :: r)
    (followOn : f.broadcast.IsFollowOn) :
    ∃ s ∈ ss, f ∈ s.followOns ∧ ∃ l', l = l' ++ [s.airing] := by
  induction ss generalizing l with
  | nil =>
      have : l ++ f :: r = [] := split.symm
      simp at this
  | cons s ss ih =>
      have later : ∀ l' pre, entriesOf ss = l' ++ f :: r → l = pre ++ l' →
          ∃ x ∈ s :: ss, f ∈ x.followOns ∧ ∃ l', l = l' ++ [x.airing] := by
        intro l' pre tail same
        obtain ⟨x, hx, hf, l'', end_eq⟩ := ih (fun x hx => single x (List.mem_cons_of_mem s hx)) tail
        exact ⟨x, List.mem_cons_of_mem s hx, hf, pre ++ l'', by rw [same, end_eq, List.append_assoc]⟩
      rw [entriesOf_cons] at split
      cases l with
      | nil =>
          have same : s.airing = f := (List.cons.inj split).1
          exact absurd followOn (same ▸ s.airs.not_isFollowOn)
      | cons a l =>
          obtain ⟨same, tail⟩ := List.cons.inj split
          subst same
          have alone := single s List.mem_cons_self
          unfold Showing.Single at alone
          cases trail : s.followOns with
          | nil =>
              rw [trail] at tail
              exact later l [s.airing] tail rfl
          | cons g gs =>
              rw [trail, List.tail_cons] at alone
              rw [trail, alone] at tail
              cases l with
              | nil =>
                  have same : g = f := (List.cons.inj tail).1
                  refine ⟨s, List.mem_cons_self, ?_, [], rfl⟩
                  rw [trail, same]
                  exact List.mem_cons_self
              | cons a l =>
                  obtain ⟨same, tail⟩ := List.cons.inj tail
                  exact later l [s.airing, a] tail rfl

/-- Follow-ons at one instant, where no two share theirs, are one at most. -/
theorem tail_eq_nil_of_start_eq {t : Instant} {fs : List Entry}
    (differ : fs.Pairwise fun f g => f.start ≠ g.start) (same : ∀ f ∈ fs, f.start = t) :
    fs.tail = [] := by
  match fs with
  | [] => rfl
  | [_] => rfl
  | f :: g :: fs =>
      have apart := (List.pairwise_cons.mp differ).1 g List.mem_cons_self
      have at_t := same g (List.mem_cons_of_mem f List.mem_cons_self)
      exact absurd ((same f List.mem_cons_self).trans at_t.symm) apart

theorem Showing.single_of_sublist {l : List Entry} (x : Showing)
    (differ : (l.filter (·.broadcast.IsFollowOn)).Pairwise fun f g => f.start ≠ g.start)
    (part : x.entries.Sublist l) : x.Single := by
  have of_x : x.followOns.Sublist (l.filter (·.broadcast.IsFollowOn)) := by
    rw [← x.filter_isFollowOn]
    exact part.filter _
  exact tail_eq_nil_of_start_eq (differ.sublist of_x) fun f member => (x.trailing f member).1

theorem Showing.trails {s : ChannelSchedule} {x : Showing} (read : x.entries ⊆ s.entries)
    {f : Entry} (trailing : f ∈ x.followOns) : s.Trails f x.airing where
  followOn := read (mem_entries.mpr (.inr trailing))
  airing := read (mem_entries.mpr (.inl rfl))
  isFollowOn := isFollowOn trailing
  airs := x.airs
  stop_eq := (x.trailing f trailing).1.symm

namespace ChannelSchedule
variable {s : ChannelSchedule} {ss : List Showing}

theorem wellFormed_of_showings (read : s.entries = entriesOf ss)
    (turn : ss.Pairwise Showing.Before) (single : ∀ x ∈ ss, x.Single) :
    s.WellFormed where
  apart := by
    rw [read]
    exact ((entriesOf_in_turn turn).filter _).imp .inl
  upright e he := by
    rw [read] at he
    obtain ⟨x, -, hx⟩ := mem_entriesOf.mp he
    exact Showing.upright hx
  trailing f hf followOn := by
    rw [read] at hf
    obtain ⟨x, member, hx⟩ := mem_entriesOf.mp hf
    rcases Showing.mem_entries.mp hx with rfl | trails
    · exact absurd followOn x.airs.not_isFollowOn
    · have h := Showing.trails (read ▸ entries_subset member) trails
      exact ⟨x.airing, h.airing, h.airs, h.stop_eq⟩
  single := by
    rw [read]
    refine ((entriesOf_spans_differ turn single).filter _).imp_of_mem ?_
    intro f g hf hg differ same
    have f_still : f.start = f.stop := of_decide_eq_true (List.mem_filter.mp hf).2
    have g_still : g.start = g.stop := of_decide_eq_true (List.mem_filter.mp hg).2
    exact differ ⟨same, f_still.symm.trans (same.trans g_still)⟩

theorem pairwise_start_ne_sortedEntries
    (single : (s.entries.filter (·.broadcast.IsFollowOn)).Pairwise fun f g => f.start ≠ g.start) :
    (s.sortedEntries.filter (·.broadcast.IsFollowOn)).Pairwise fun f g => f.start ≠ g.start :=
  (s.sortedEntries_perm.filter _).symm.pairwise single Ne.symm

theorem WellFormed.exists_showings (h : s.WellFormed) :
    ∃ ss, s.sortedEntries = entriesOf ss ∧ ss.Pairwise Showing.Before ∧
      ∀ x ∈ ss, x.Single := by
  obtain ⟨ss, read, turn⟩ := ChannelSchedule.exists_showings h.upright h.apart h.trailing
  refine ⟨ss, read, turn, fun x member => ?_⟩
  have sorted_single := pairwise_start_ne_sortedEntries h.single
  rw [read] at sorted_single
  exact x.single_of_sublist sorted_single
    (List.sublist_flatten_of_mem (List.mem_map_of_mem member))

end ChannelSchedule
end ChannelGuide
