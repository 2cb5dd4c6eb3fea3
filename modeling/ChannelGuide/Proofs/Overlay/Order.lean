import ChannelGuide.Proofs.Overlay.Interleaving
import ChannelGuide.Proofs.Overlay.WellFormed
import ChannelGuide.Proofs.Schedule.Trimmed

/-!
The order in which the walk writes. Over showings with one follow-on each at most, the walk writes
one entry after the other, each over before the next one starts. Follow-ons that come before all
showings, because the airing that they trail is not in the list, are written first of all; so the
order holds unless an override has begun before them.
-/
namespace ChannelGuide

theorem overlay_start_le {base vs : List Entry} {u : Instant} (from_base : ∀ o ∈ base, u ≤ o.start)
    (from_overrides : ∀ v ∈ vs, u ≤ v.start) : ∀ x ∈ overlay .kept base vs, u ≤ x.start := by
  intro x member
  rcases mem_overlay member with of_override | ⟨o, ho, -, rfl | part | ⟨v, hv, start, -⟩⟩
  · exact from_overrides x of_override
  · exact from_base x ho
  · exact (from_base o ho).trans part.1
  · exact (from_overrides v hv).trans_eq start.symm

theorem overlay_upright {base vs : List Entry} (upright : ∀ o ∈ base, o.start ≤ o.stop)
    (override_upright : ∀ v ∈ vs, v.start ≤ v.stop) :
    ∀ x ∈ overlay .kept base vs, x.start ≤ x.stop := by
  intro x member
  rcases mem_overlay member with of_override | ⟨o, ho, -, rfl | part | ⟨v, -, start, stop⟩⟩
  · exact override_upright x of_override
  · exact upright x ho
  · exact part.2.le
  · exact (start.trans stop.symm).le

theorem Coming.all {vs : List Entry} (base : List Entry)
    (inOrder : vs.Pairwise fun v w => v.start ≤ w.start) : Coming vs base vs where
  part := List.Subset.refl vs
  inOrder := inOrder
  ended _ member := .inl member

theorem overlay_in_turn (bs : List Showing) {vs : List Entry} (turn : bs.Pairwise Showing.Before)
    (single : ∀ b ∈ bs, b.Single) (override_upright : ∀ v ∈ vs, v.start ≤ v.stop)
    (override_turn : vs.Pairwise fun v w => v.stop ≤ w.start) :
    (overlay .kept (entriesOf bs) vs).Pairwise fun a b => a.stop ≤ b.start := by
  -- every override that is passed is over by the frontier, before the rest of the airing starts
  induction bs generalizing vs with
  | nil => exact override_turn
  | cons b bs ih =>
      have inOrder : vs.Pairwise fun v w => v.start ≤ w.start :=
        override_turn.imp_of_mem fun hv _ gone => (override_upright _ hv).trans gone
      obtain ⟨passed, rest, t, piece, fate, rfl, passes, settles, step⟩ := overlay_showing b bs vs
      have frontier := (Coming.all (b.airing :: entriesOf bs) inOrder).frontier b.airs passes
      obtain ⟨kept, written, settled⟩ :=
        settles.exists_showing frontier (single b List.mem_cons_self)
      obtain ⟨passed_turn, rest_turn, passed_rest⟩ := List.pairwise_append.mp override_turn
      have later_turn := ih (List.pairwise_cons.mp turn).2
        (fun x hx => single x (List.mem_cons_of_mem b hx))
        (fun v hv => override_upright v (List.mem_append_right passed hv)) rest_turn
      have after_b : ∀ x ∈ entriesOf bs, b.airing.stop ≤ x.start :=
        fun x hx => airing_stop_le turn hx
      have t_by_stop : t ≤ b.airing.stop := frontier.lt_stop.le
      rw [step, written]
      refine List.pairwise_append.mpr
        ⟨passed_turn, List.pairwise_append.mpr ⟨?_, later_turn, ?_⟩, ?_⟩
      · exact entriesOf_in_turn (Showing.pairwise_before_toList kept)
      · intro x hx
        obtain ⟨m, hm, of_m⟩ := mem_entriesOf.mp hx
        obtain ⟨cut, -, before_rest⟩ := settled m (Option.mem_toList.mp hm)
        rw [Showing.stop_eq of_m]
        exact overlay_start_le (fun o ho => cut.stop_le.trans (after_b o ho)) before_rest
      · intro p hp x hx
        have gone : p.stop ≤ t := passes.stop_le p hp
        rcases List.mem_append.mp hx with of_kept | later
        · obtain ⟨m, hm, of_m⟩ := mem_entriesOf.mp of_kept
          obtain ⟨-, from_t, -⟩ := settled m (Option.mem_toList.mp hm)
          exact gone.trans (from_t.trans (Showing.start_le of_m))
        · exact overlay_start_le (fun o ho => gone.trans (t_by_stop.trans (after_b o ho)))
            (passed_rest p hp) x later

variable {t u : Instant} {orphans others : List Entry} {bs vs : List Showing}

theorem overlay_trimmed (base : Trimmed t orphans bs) (vs : List Entry) :
    overlay .kept (orphans ++ entriesOf bs) vs = orphans ++ overlay .kept (entriesOf bs) vs :=
  overlay_kept_followOns (fun _ => base.isFollowOn) (entriesOf bs) vs

/-- Behind the orphans the walk writes in order. -/
theorem overlay_showings_in_order (base : Trimmed t orphans bs) (overrides : Trimmed u others vs) :
    (overlay .kept (entriesOf bs) (others ++ entriesOf vs)).Pairwise
      fun a b => a.broadcast.NotAfter b.broadcast := by
  apply notAfter_of_in_turn
  · apply overlay_upright _ overrides.upright
    exact fun o ho => base.upright o (List.mem_append_right _ ho)
  · exact overlay_in_turn bs base.turn base.single overrides.upright overrides.in_turn

theorem overlay_trimmed_in_order_iff (base : Trimmed t orphans bs)
    (overrides : Trimmed u others vs) :
    (overlay .kept (orphans ++ entriesOf bs) (others ++ entriesOf vs)).Pairwise
        (fun a b => a.broadcast.NotAfter b.broadcast) ↔
      (orphans ≠ [] → ∀ v ∈ others ++ entriesOf vs, t ≤ v.start) := by
  have in_order := overlay_showings_in_order base overrides
  rw [overlay_trimmed base, List.pairwise_append]
  constructor
  · rintro ⟨-, -, orphans_first⟩ some_orphan v member
    obtain ⟨f, hf⟩ := List.exists_mem_of_ne_nil orphans some_orphan
    have order := orphans_first f hf v (override_mem_overlay member)
    exact (base.span f hf).1.symm.le.trans order.start_le
  · intro overrides_later
    refine ⟨?_, in_order, ?_⟩
    · apply notAfter_of_in_turn
      · exact fun f hf => base.upright f (List.mem_append_left _ hf)
      · exact (List.pairwise_append.mp base.in_turn).1
    · intro f hf x hx
      have some_orphan := List.ne_nil_of_mem hf
      obtain ⟨start, stop⟩ := base.span f hf
      have from_t := overlay_start_le (base.later some_orphan) (overrides_later some_orphan) x hx
      have x_upright := overlay_upright
        (fun o ho => base.upright o (List.mem_append_right _ ho)) overrides.upright x hx
      rcases lt_or_eq_of_le from_t with later | same
      · exact .inl (start.trans_lt later)
      · exact .inr ⟨start.trans same, stop.le.trans (same.le.trans x_upright)⟩

/-- Laid over a base that may begin with an orphan, overrides come out in order with all that is
left of the base, except that the orphan stands before an override that has begun by then. -/
theorem overlaidBy_in_order_iff {base overrides merged : ChannelSchedule}
    (base_ok : base.WellFormedFrom t) (overrides_ok : overrides.WellFormedFrom u)
    (ok : base.overlaidBy overrides = .ok merged) :
    merged.entries.tail.Pairwise (fun a b => a.broadcast.NotAfter b.broadcast) ∧
      (merged.entries.Pairwise (fun a b => a.broadcast.NotAfter b.broadcast) ↔
        ¬ ((∃ f, base.Orphan t f) ∧ ∃ v ∈ overrides.entries, v.start < t)) := by
  obtain ⟨orphans, bs, base_read, base_trimmed, orphaned⟩ := base_ok.exists_trimmed
  obtain ⟨others, vs, override_read, override_trimmed, -⟩ := overrides_ok.exists_trimmed
  have written : merged.entries =
      overlay .kept (orphans ++ entriesOf bs) (others ++ entriesOf vs) := by
    rw [← base_read, ← override_read]
    exact ChannelSchedule.entries_of_overlaidBy ok
  have overrides_mem : ∀ v, v ∈ others ++ entriesOf vs ↔ v ∈ overrides.entries := fun v => by
    rw [← override_read, overrides.mem_sortedEntries]
  rw [written]
  constructor
  · have in_order := overlay_showings_in_order base_trimmed override_trimmed
    rw [overlay_trimmed base_trimmed]
    cases first : orphans with
    | nil => exact in_order.sublist (List.tail_sublist _)
    | cons f fs =>
        have alone : fs = [] := by simpa [first] using base_trimmed.alone
        rw [alone]
        exact in_order
  · rw [overlay_trimmed_in_order_iff base_trimmed override_trimmed, orphaned]
    constructor
    · rintro later ⟨orphan, v, member, before⟩
      exact absurd before (not_lt_of_ge (later orphan v ((overrides_mem v).mpr member)))
    · intro none_before orphan v member
      exact le_of_not_gt fun before =>
        none_before ⟨orphan, v, (overrides_mem v).mp member, before⟩

end ChannelGuide
