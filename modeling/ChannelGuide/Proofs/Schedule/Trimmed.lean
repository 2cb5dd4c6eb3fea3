import ChannelGuide.Proofs.Schedule.WellFormed

/-!
Schedules cut out of a longer well-formed one. Where the cut falls on the end of an airing, the
airing is lost and its follow-on is not: it then comes before everything else, an orphan.
-/
namespace ChannelGuide

/-- At most one follow-on, at the instant `t`, and showings one after the other behind it, with one
follow-on each at most. -/
structure Trimmed (t : Instant) (orphans : List Entry) (ss : List Showing) : Prop where
  span : ∀ f ∈ orphans, f.start = t ∧ f.stop = t
  alone : orphans.tail = []
  turn : ss.Pairwise Showing.Before
  single : ∀ s ∈ ss, s.Single
  later : orphans ≠ [] → ∀ e ∈ entriesOf ss, t ≤ e.start

namespace Trimmed
variable {t : Instant} {orphans : List Entry} {ss : List Showing}

theorem isFollowOn (h : Trimmed t orphans ss) {f : Entry} (member : f ∈ orphans) :
    f.broadcast.IsFollowOn := (h.span f member).1.trans (h.span f member).2.symm

theorem upright (h : Trimmed t orphans ss) : ∀ e ∈ orphans ++ entriesOf ss, e.start ≤ e.stop := by
  intro e member
  rcases List.mem_append.mp member with orphan | shown
  · exact (h.isFollowOn orphan).le
  · obtain ⟨s, -, of_s⟩ := mem_entriesOf.mp shown
    exact Showing.upright of_s

theorem in_turn (h : Trimmed t orphans ss) :
    (orphans ++ entriesOf ss).Pairwise fun a b => a.stop ≤ b.start := by
  refine List.pairwise_append.mpr ⟨?_, entriesOf_in_turn h.turn, ?_⟩
  · apply List.pairwise_of_forall_mem_list
    intro f hf g hg
    exact ((h.span f hf).2.trans (h.span g hg).1.symm).le
  · intro f hf e he
    exact (h.span f hf).2.le.trans (h.later (List.ne_nil_of_mem hf) e he)

end Trimmed

namespace ChannelSchedule

/-- Nothing in the schedule starts before this follow-on, and it stands at the instant `t`. -/
structure Orphan (s : ChannelSchedule) (t : Instant) (f : Entry) : Prop where
  member : f ∈ s.entries
  isFollowOn : f.broadcast.IsFollowOn
  start_eq : f.start = t
  first : ∀ e ∈ s.entries, t ≤ e.start

/-- Well formed, except that the airing of a follow-on at the instant `t` may be missing. -/
structure WellFormedFrom (s : ChannelSchedule) (t : Instant) : Prop where
  apart : (s.entries.filter (·.Airs)).Pairwise Entry.Apart
  upright : ∀ e ∈ s.entries, e.start ≤ e.stop
  trailing : ∀ f ∈ s.entries, f.broadcast.IsFollowOn →
    s.Orphan t f ∨ ∃ a ∈ s.entries, a.Airs ∧ a.stop = f.start
  single : (s.entries.filter (·.broadcast.IsFollowOn)).Pairwise fun f g => f.start ≠ g.start

namespace WellFormedFrom
variable {s : ChannelSchedule} {t : Instant}

theorem trailed (h : s.WellFormedFrom t) {past : Option Instant}
    (orphaned : ∀ f, s.Orphan t f → past = some t)
    (first : ∀ u, past = some u → ∀ e ∈ s.entries, u ≤ e.start) :
    Trailed past s.sortedEntries where
  inOrder := s.pairwise_notAfter_sortedEntries
  upright e he := h.upright e (s.mem_sortedEntries.mp he)
  inTurn := airings_in_turn h.apart
  trailing f hf followOn := by
    rcases h.trailing f (s.mem_sortedEntries.mp hf) followOn with orphan | ⟨a, ha, airs, same⟩
    · exact .inl ((orphaned f orphan).trans (congrArg some orphan.start_eq.symm))
    · exact .inr ⟨a, s.mem_sortedEntries.mpr ha, airs, same⟩
  start_le u same e he := first u same e (s.mem_sortedEntries.mp he)

theorem exists_trailed (h : s.WellFormedFrom t) :
    ∃ past, Trailed past s.sortedEntries ∧
      ∀ u, past = some u → u = t ∧ ∀ e ∈ s.entries, t ≤ e.start := by
  by_cases orphaned : ∃ f, s.Orphan t f
  · obtain ⟨f, orphan⟩ := orphaned
    refine ⟨some t, h.trailed (fun _ _ => rfl) ?_, ?_⟩
    · rintro u ⟨⟩
      exact orphan.first
    · rintro u ⟨⟩
      exact ⟨rfl, orphan.first⟩
  · have no_orphan : ∀ f, ¬ s.Orphan t f := fun f orphan => orphaned ⟨f, orphan⟩
    exact ⟨none, h.trailed (fun f orphan => absurd orphan (no_orphan f)) (fun u none => nomatch none),
      fun u none => nomatch none⟩

/-- In order, the entries are an orphan, if there is one, and showings one after the other. -/
theorem exists_trimmed (h : s.WellFormedFrom t) :
    ∃ orphans ss, s.sortedEntries = orphans ++ entriesOf ss ∧ Trimmed t orphans ss ∧
      (orphans ≠ [] ↔ ∃ f, s.Orphan t f) := by
  obtain ⟨past, trailed, begins⟩ := h.exists_trailed
  obtain ⟨orphans, ss, split, turn, first⟩ := trailed.exists_showings
  have distinct := pairwise_start_ne_sortedEntries h.single
  have at_t : ∀ f ∈ orphans, f.start = t := fun f member => (begins _ (first f member).1).1
  have from_t : orphans ≠ [] → ∀ e ∈ s.entries, t ≤ e.start := by
    intro some_orphan
    obtain ⟨f, member⟩ := List.exists_mem_of_ne_nil orphans some_orphan
    exact (begins _ (first f member).1).2
  have listed : orphans ++ entriesOf ss ⊆ s.entries := split ▸ s.sortedEntries_perm.subset
  have trimmed : Trimmed t orphans ss :=
    { span := fun f member => ⟨at_t f member, (first f member).2.symm.trans (at_t f member)⟩
      alone := by
        refine tail_eq_nil_of_start_eq (distinct.sublist ?_) at_t
        rw [split, List.filter_append,
          List.filter_eq_self.mpr fun f member => decide_eq_true (first f member).2]
        exact List.sublist_append_left _ _
      turn := turn
      single := fun x member => by
        apply x.single_of_sublist distinct
        rw [split]
        exact (List.sublist_flatten_of_mem (List.mem_map_of_mem member)).trans
          (List.sublist_append_right _ _)
      later := fun some_orphan e member =>
        from_t some_orphan e (listed (List.mem_append_right _ member)) }
  refine ⟨orphans, ss, split, trimmed, ?_⟩
  constructor
  · intro some_orphan
    obtain ⟨f, member⟩ := List.exists_mem_of_ne_nil orphans some_orphan
    exact ⟨f, listed (List.mem_append_left _ member), (first f member).2, at_t f member,
      from_t some_orphan⟩
  · rintro ⟨f, orphan⟩ none
    have member := s.mem_sortedEntries.mpr orphan.member
    rw [split, none, List.nil_append] at member
    -- a follow-on of a showing stands after the start of the airing, so not at the first instant
    obtain ⟨x, hx, of_x⟩ := mem_entriesOf.mp member
    rcases Showing.mem_entries.mp of_x with rfl | trails
    · exact x.airs.not_isFollowOn orphan.isFollowOn
    · have airing_start : t ≤ x.airing.start :=
        orphan.first _ (listed (List.mem_append_right _ (airing_mem hx)))
      have stop_eq : x.airing.stop = t := (x.trailing f trails).1.symm.trans orphan.start_eq
      exact absurd (x.airs.trans_eq stop_eq) (not_lt_of_ge airing_start)

end WellFormedFrom
end ChannelSchedule
end ChannelGuide
