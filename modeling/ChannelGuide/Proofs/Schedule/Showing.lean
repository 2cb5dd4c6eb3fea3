import ChannelGuide.Proofs.Schedule.Airings

/-!
Schedules as showings. Where airings follow each other and every follow-on trails one of them, the
entries in order are airings with their follow-ons directly behind them.
-/
namespace ChannelGuide

/-- An airing and the follow-ons that trail it. -/
structure Showing where
  airing : Entry
  followOns : List Entry
  airs : airing.Airs
  trailing : ∀ f ∈ followOns, f.start = airing.stop ∧ f.stop = airing.stop

namespace Showing

def entries (s : Showing) : List Entry := s.airing :: s.followOns

/-- The first showing is over before the second starts. -/
def Before (a b : Showing) : Prop := a.airing.stop ≤ b.airing.start

/-- At most one follow-on trails the airing. -/
def Single (s : Showing) : Prop := s.followOns.tail = []

theorem pairwise_before_toList (s : Option Showing) : s.toList.Pairwise Before := by
  cases s with
  | none => exact .nil
  | some s => exact List.pairwise_singleton _ s

theorem isFollowOn {s : Showing} {f : Entry} (member : f ∈ s.followOns) :
    f.broadcast.IsFollowOn := by
  obtain ⟨start, stop⟩ := s.trailing f member
  exact start.trans stop.symm

theorem mem_entries {s : Showing} {e : Entry} :
    e ∈ s.entries ↔ e = s.airing ∨ e ∈ s.followOns := List.mem_cons

theorem stop_eq {s : Showing} {e : Entry} (member : e ∈ s.entries) :
    e.stop = s.airing.stop := by
  rcases mem_entries.mp member with rfl | trails
  · rfl
  · exact (s.trailing e trails).2

theorem start_le {s : Showing} {e : Entry} (member : e ∈ s.entries) :
    s.airing.start ≤ e.start := by
  rcases mem_entries.mp member with rfl | trails
  · exact le_rfl
  · exact (lt_of_lt_of_eq s.airs (s.trailing e trails).1.symm).le

theorem upright {s : Showing} {e : Entry} (member : e ∈ s.entries) : e.start ≤ e.stop := by
  rcases mem_entries.mp member with rfl | trails
  · exact s.airs.le
  · exact (isFollowOn trails).le

theorem filter_isFollowOn (s : Showing) :
    s.entries.filter (·.broadcast.IsFollowOn) = s.followOns := by
  have trails : ∀ f ∈ s.followOns, decide f.broadcast.IsFollowOn = true :=
    fun f member => decide_eq_true (isFollowOn member)
  rw [entries, List.filter_cons_of_neg (by simpa using s.airs.not_isFollowOn),
    List.filter_eq_self.mpr trails]

end Showing

/-- The entries of showings, one showing after the other. -/
def entriesOf (ss : List Showing) : List Entry := ss.flatMap Showing.entries

theorem entriesOf_cons (s : Showing) (ss : List Showing) :
    entriesOf (s :: ss) = s.airing :: (s.followOns ++ entriesOf ss) := rfl

theorem entriesOf_append (ss ts : List Showing) :
    entriesOf (ss ++ ts) = entriesOf ss ++ entriesOf ts := List.flatMap_append

theorem mem_entriesOf {ss : List Showing} {e : Entry} :
    e ∈ entriesOf ss ↔ ∃ s ∈ ss, e ∈ s.entries := List.mem_flatMap

theorem entries_subset {ss : List Showing} {s : Showing} (member : s ∈ ss) :
    s.entries ⊆ entriesOf ss := fun _ he => mem_entriesOf.mpr ⟨s, member, he⟩

theorem airing_mem {ss : List Showing} {s : Showing} (member : s ∈ ss) :
    s.airing ∈ entriesOf ss := entries_subset member List.mem_cons_self

/-- A list that can be read as showings, except that its first follow-ons may trail an airing from
before the list, which ended at the instant `past`. -/
structure Trailed (past : Option Instant) (l : List Entry) : Prop where
  inOrder : l.Pairwise fun a b => a.broadcast.NotAfter b.broadcast
  upright : ∀ e ∈ l, e.start ≤ e.stop
  inTurn : (l.filter (·.Airs)).Pairwise fun a b => a.stop ≤ b.start
  trailing : ∀ f ∈ l, f.broadcast.IsFollowOn →
    past = some f.start ∨ ∃ a ∈ l, a.Airs ∧ a.stop = f.start
  start_le : ∀ t, past = some t → ∀ e ∈ l, t ≤ e.start

namespace Trailed
variable {past : Option Instant} {e : Entry} {l : List Entry}

theorem past_eq (h : Trailed past (e :: l)) (followOn : e.broadcast.IsFollowOn) :
    past = some e.start := by
  refine (h.trailing e List.mem_cons_self followOn).resolve_right ?_
  rintro ⟨a, member, airs, same⟩
  rcases List.mem_cons.mp member with rfl | member
  · exact airs.not_isFollowOn followOn
  · have order := ((List.pairwise_cons.mp h.inOrder).1 a member).start_le
    exact absurd (lt_of_lt_of_eq airs same) (not_lt_of_ge order)

theorem of_followOn (h : Trailed past (e :: l)) (followOn : e.broadcast.IsFollowOn) :
    Trailed past l where
  inOrder := (List.pairwise_cons.mp h.inOrder).2
  upright x hx := h.upright x (List.mem_cons_of_mem e hx)
  inTurn := h.inTurn.sublist ((List.sublist_cons_self e l).filter _)
  trailing f hf isFollowOn := by
    refine (h.trailing f (List.mem_cons_of_mem e hf) isFollowOn).imp_right ?_
    rintro ⟨a, member, airs, same⟩
    rcases List.mem_cons.mp member with rfl | member
    · exact absurd followOn airs.not_isFollowOn
    · exact ⟨a, member, airs, same⟩
  start_le t same x hx := h.start_le t same x (List.mem_cons_of_mem e hx)

theorem trails_of_airs (h : Trailed past (e :: l)) (airs : e.Airs) {f : Entry} (member : f ∈ l)
    (followOn : f.broadcast.IsFollowOn) :
    f.start = e.stop ∨ ∃ a ∈ l, a.Airs ∧ a.stop = f.start := by
  rcases h.trailing f (List.mem_cons_of_mem e member) followOn with same | ⟨a, ha, a_airs, same⟩
  · -- `f` starts no later than `e` and would have to stand before it
    have from_past := h.start_le _ same e List.mem_cons_self
    rcases (List.pairwise_cons.mp h.inOrder).1 f member with earlier | ⟨-, gone⟩
    · exact absurd earlier (not_lt_of_ge from_past)
    · have stops : e.stop ≤ f.start := le_of_le_of_eq gone followOn.symm
      exact absurd (airs.trans_le stops) (not_lt_of_ge from_past)
  · rcases List.mem_cons.mp ha with rfl | ha
    · exact .inl same.symm
    · exact .inr ⟨a, ha, a_airs, same⟩

theorem stop_le_of_airs (h : Trailed past (e :: l)) (airs : e.Airs) {x : Entry}
    (member : x ∈ l) : e.stop ≤ x.start := by
  have after : ∀ a ∈ l, a.Airs → e.stop ≤ a.start := by
    intro a ha a_airs
    have in_turn := h.inTurn
    rw [List.filter_cons_of_pos (by simpa using airs)] at in_turn
    exact (List.pairwise_cons.mp in_turn).1 a (List.mem_filter.mpr ⟨ha, decide_eq_true a_airs⟩)
  by_cases followOn : x.broadcast.IsFollowOn
  · rcases h.trails_of_airs airs member followOn with same | ⟨a, ha, a_airs, same⟩
    · exact same.ge
    · exact (after a ha a_airs).trans (a_airs.le.trans same.le)
  · exact after x member
      (Entry.airs_of_not_isFollowOn (h.upright x (List.mem_cons_of_mem e member)) followOn)

theorem of_airs (h : Trailed past (e :: l)) (airs : e.Airs) : Trailed (some e.stop) l where
  inOrder := (List.pairwise_cons.mp h.inOrder).2
  upright x hx := h.upright x (List.mem_cons_of_mem e hx)
  inTurn := h.inTurn.sublist ((List.sublist_cons_self e l).filter _)
  trailing f hf followOn := by
    rcases h.trails_of_airs airs hf followOn with same | trails
    · exact .inl (congrArg some same.symm)
    · exact .inr trails
  start_le t same x hx := by
    cases same
    exact h.stop_le_of_airs airs hx

end Trailed

theorem Trailed.exists_showings {past : Option Instant} {l : List Entry} (h : Trailed past l) :
    ∃ fs ss, l = fs ++ entriesOf ss ∧ ss.Pairwise Showing.Before ∧
      ∀ f ∈ fs, past = some f.start ∧ f.broadcast.IsFollowOn := by
  -- an airing takes as its own the follow-ons that the rest of the list begins with
  induction l generalizing past with
  | nil => exact ⟨[], [], rfl, .nil, fun f member => absurd member List.not_mem_nil⟩
  | cons e l ih =>
      by_cases followOn : e.broadcast.IsFollowOn
      · obtain ⟨fs, ss, split, turn, first⟩ := ih (h.of_followOn followOn)
        refine ⟨e :: fs, ss, by rw [split]; rfl, turn, ?_⟩
        intro f member
        rcases List.mem_cons.mp member with rfl | member
        · exact ⟨h.past_eq followOn, followOn⟩
        · exact first f member
      · have airs := Entry.airs_of_not_isFollowOn (h.upright e List.mem_cons_self) followOn
        obtain ⟨fs, ss, split, turn, first⟩ := ih (h.of_airs airs)
        have trailing : ∀ f ∈ fs, f.start = e.stop ∧ f.stop = e.stop := by
          intro f member
          obtain ⟨same, still⟩ := first f member
          have start : f.start = e.stop := (Option.some.inj same).symm
          exact ⟨start, still.symm.trans start⟩
        refine ⟨[], ⟨e, fs, airs, trailing⟩ :: ss, by rw [split]; rfl, ?_,
          fun f member => absurd member List.not_mem_nil⟩
        refine List.pairwise_cons.mpr ⟨fun s member => ?_, turn⟩
        apply h.stop_le_of_airs airs
        rw [split]
        exact List.mem_append_right fs (airing_mem member)

/-- The entries of a schedule, in order, are those of showings one after the other. -/
theorem ChannelSchedule.exists_showings {s : ChannelSchedule}
    (upright : ∀ e ∈ s.entries, e.start ≤ e.stop)
    (apart : (s.entries.filter (·.Airs)).Pairwise Entry.Apart)
    (trailing : ∀ f ∈ s.entries, f.broadcast.IsFollowOn →
      ∃ a ∈ s.entries, a.Airs ∧ a.stop = f.start) :
    ∃ ss, s.sortedEntries = entriesOf ss ∧ ss.Pairwise Showing.Before := by
  have trailed : Trailed none s.sortedEntries :=
    { inOrder := s.pairwise_notAfter_sortedEntries
      upright := fun e he => upright e (s.mem_sortedEntries.mp he)
      inTurn := airings_in_turn apart
      trailing := fun f hf followOn => .inr <| by
        obtain ⟨a, ha, airs, same⟩ := trailing f (s.mem_sortedEntries.mp hf) followOn
        exact ⟨a, s.mem_sortedEntries.mpr ha, airs, same⟩
      start_le := fun t same => nomatch same }
  obtain ⟨fs, ss, split, turn, first⟩ := trailed.exists_showings
  cases fs with
  | nil => exact ⟨ss, split, turn⟩
  | cons f fs => exact nomatch (first f List.mem_cons_self).1

end ChannelGuide
