import Mathlib.Order.Bounds.Basic
import ChannelGuide.Proofs.Overlay.Placement
import ChannelGuide.Proofs.Schedule.Airings

/-!
What overrides leave of an airing, said without the walk, and that the walk leaves just that. The
walk keeps a frontier: before it, every instant of the airing is hidden by an override that has
ended by then.
-/
namespace ChannelGuide

/-- The first instant from `t` on at which no override is on. -/
def FirstFree (overrides : List Entry) (t s : Instant) : Prop :=
  IsLeast {u | t ≤ u ∧ ∀ v ∈ overrides, ¬ v.OnAt u} s

/-- The end of the airing or the first start of an override after `s`, whichever is earlier. -/
def FirstEnd (overrides : List Entry) (o : Entry) (s e : Instant) : Prop :=
  IsLeast {u | u = o.stop ∨ ∃ v ∈ overrides, s < v.start ∧ v.start = u} e

/-- What overrides leave of an airing: the piece that begins at its first free instant. What is
free after that piece is left out. -/
inductive Leaves (overrides : List Entry) (o : Entry) : Option Entry → Prop
  | nothing {s : Instant} : FirstFree overrides o.start s → o.stop ≤ s → Leaves overrides o none
  | piece {s e : Instant} : FirstFree overrides o.start s → s < o.stop →
      FirstEnd overrides o s e → Leaves overrides o (some (o.retimed s e))

theorem exists_all_stop_le (overrides : List Entry) (t : Instant) :
    ∃ u, t ≤ u ∧ ∀ v ∈ overrides, v.stop ≤ u := by
  induction overrides with
  | nil => exact ⟨t, le_rfl, fun v member => absurd member List.not_mem_nil⟩
  | cons v vs ih =>
      obtain ⟨u, from_t, gone⟩ := ih
      refine ⟨max u v.stop, from_t.trans (le_max_left _ _), ?_⟩
      intro w member
      rcases List.mem_cons.mp member with rfl | member
      · exact le_max_right _ _
      · exact (gone w member).trans (le_max_left _ _)

theorem exists_firstFree (overrides : List Entry) (t : Instant) :
    ∃ s, FirstFree overrides t s := by
  obtain ⟨u, from_t, gone⟩ := exists_all_stop_le overrides t
  apply Instant.exists_isLeast (fun x hx => hx.1)
  exact ⟨u, from_t, fun v member on => absurd on.2 (not_lt_of_ge (gone v member))⟩

theorem exists_firstEnd (overrides : List Entry) {o : Entry} {s : Instant} (before : s < o.stop) :
    ∃ e, FirstEnd overrides o s e := by
  apply Instant.exists_isLeast (t := s)
  · rintro u (rfl | ⟨v, -, after, rfl⟩)
    · exact before.le
    · exact after.le
  · exact ⟨o.stop, .inl rfl⟩

theorem exists_leaves (overrides : List Entry) (o : Entry) : ∃ r, Leaves overrides o r := by
  obtain ⟨s, free⟩ := exists_firstFree overrides o.start
  by_cases late : o.stop ≤ s
  · exact ⟨none, .nothing free late⟩
  have before := lt_of_not_ge late
  obtain ⟨e, ends⟩ := exists_firstEnd overrides before
  exact ⟨some (o.retimed s e), .piece free before ends⟩

namespace Leaves
variable {overrides : List Entry} {o : Entry}

theorem unique {r r' : Option Entry} (h : Leaves overrides o r) (h' : Leaves overrides o r') :
    r = r' := by
  cases h with
  | nothing free late =>
      cases h' with
      | nothing => rfl
      | piece free' before ends' =>
          rw [free.unique free'] at late
          exact absurd before (not_lt_of_ge late)
  | piece free before ends =>
      cases h' with
      | nothing free' late =>
          rw [free.unique free'] at before
          exact absurd before (not_lt_of_ge late)
      | piece free' before' ends' =>
          have same := free.unique free'
          subst same
          rw [ends.unique ends']

theorem start_lt_stop {r : Entry} (h : Leaves overrides o (some r)) : r.Airs := by
  cases h with
  | piece free before ends =>
      rcases ends.1 with same | ⟨v, -, after, same⟩
      · exact lt_of_lt_of_eq before same.symm
      · exact lt_of_lt_of_eq after same

theorem within {r : Entry} (h : Leaves overrides o (some r)) :
    o.start ≤ r.start ∧ r.stop ≤ o.stop := by
  cases h with
  | piece free before ends => exact ⟨free.1.1, ends.2 (.inl rfl)⟩

theorem apart {r v : Entry} (h : Leaves overrides o (some r)) (member : v ∈ overrides) :
    r.Apart v := by
  cases h with
  | @piece s e free before ends =>
      by_cases after : s < v.start
      · exact .inl (ends.2 (.inr ⟨v, member, after, rfl⟩))
      · have begun := le_of_not_gt after
        exact .inr (le_of_not_gt fun on => free.1.2 v member ⟨begun, on⟩)

end Leaves

/-- The walk has brought the start of an airing to `t`: what lies before is hidden, and only the
overrides of `rest` have not ended. -/
structure Frontier (overrides : List Entry) (o : Entry) (t : Instant) (rest : List Entry) :
    Prop where
  start_le : o.start ≤ t
  lt_stop : t < o.stop
  hidden : ∀ u, o.start ≤ u → u < t → ∃ v ∈ overrides, v.OnAt u
  ended : ∀ v ∈ overrides, v.stop ≤ t ∨ v ∈ rest
  part : rest ⊆ overrides
  inOrder : rest.Pairwise fun v w => v.start ≤ w.start

namespace Frontier
variable {overrides rest : List Entry} {o : Entry} {t : Instant}

theorem le_start {v : Entry} {vs : List Entry} (h : Frontier overrides o t (v :: vs)) {u : Instant}
    (bound : u ≤ v.start) : ∀ w ∈ v :: vs, u ≤ w.start := by
  intro w member
  rcases List.mem_cons.mp member with rfl | member
  · exact bound
  · exact bound.trans ((List.pairwise_cons.mp h.inOrder).1 w member)

theorem firstFree (h : Frontier overrides o t rest) (later : ∀ v ∈ rest, t < v.start) :
    FirstFree overrides o.start t := by
  refine ⟨⟨h.start_le, ?_⟩, ?_⟩
  · intro v member on
    rcases h.ended v member with gone | left
    · exact absurd on.2 (not_lt_of_ge gone)
    · exact absurd on.1 (not_le_of_gt (later v left))
  · intro u hu
    apply le_of_not_gt
    intro before
    obtain ⟨v, member, on⟩ := h.hidden u hu.1 before
    exact hu.2 v member on

theorem firstEnd (h : Frontier overrides o t rest) (upright : ∀ v ∈ overrides, v.start ≤ v.stop)
    {e : Instant} (ends : e = o.stop ∨ ∃ v ∈ overrides, t < v.start ∧ v.start = e)
    (by_stop : e ≤ o.stop) (first : ∀ v ∈ rest, e ≤ v.start) : FirstEnd overrides o t e := by
  refine ⟨ends, ?_⟩
  rintro u (rfl | ⟨v, member, after, rfl⟩)
  · exact by_stop
  · rcases h.ended v member with gone | left
    · exact absurd after (not_lt_of_ge ((upright v member).trans gone))
    · exact first v left

theorem leaves_none (h : Frontier overrides o t rest) {v : Entry} (member : v ∈ overrides)
    (begun : v.start ≤ t) (lasts : o.stop ≤ v.stop) : Leaves overrides o none := by
  obtain ⟨s, free⟩ := exists_firstFree overrides o.start
  refine .nothing free (le_of_not_gt fun inside => ?_)
  by_cases before : s < t
  · obtain ⟨w, hw, on⟩ := h.hidden s free.1.1 before
    exact free.1.2 w hw on
  · exact free.1.2 v member ⟨begun.trans (le_of_not_gt before), inside.trans_le lasts⟩

end Frontier

theorem Settles.leaves {overrides rest : List Entry} {o : Entry} {t : Instant}
    {piece : Option Entry} {fate : FollowOnFate} (settles : Settles o t rest piece fate)
    (frontier : Frontier overrides o t rest) (upright : ∀ v ∈ overrides, v.start ≤ v.stop) :
    Leaves overrides o piece := by
  cases settles with
  | alone =>
      have none_left : ∀ v ∈ ([] : List Entry), ∀ u : Instant, u < v.start :=
        fun v member => absurd member List.not_mem_nil
      exact .piece (frontier.firstFree fun v hv => none_left v hv t) frontier.lt_stop
        (frontier.firstEnd upright (.inl rfl) le_rfl fun v hv => (none_left v hv _).le)
  | @before v vs running later =>
      have first : ∀ w ∈ v :: vs, o.stop ≤ w.start := frontier.le_start later
      exact .piece (frontier.firstFree fun w hw => frontier.lt_stop.trans_le (first w hw))
        frontier.lt_stop (frontier.firstEnd upright (.inl rfl) le_rfl first)
  | @cut v vs running later overlap =>
      have first : ∀ w ∈ v :: vs, v.start ≤ w.start := frontier.le_start le_rfl
      have member : v ∈ overrides := frontier.part List.mem_cons_self
      exact .piece (frontier.firstFree fun w hw => later.trans_le (first w hw)) frontier.lt_stop
        (frontier.firstEnd upright (.inr ⟨v, member, later, rfl⟩) overlap.le first)
  | @hidden v vs running begun overlap lasts =>
      exact frontier.leaves_none (frontier.part List.mem_cons_self) begun lasts

end ChannelGuide
