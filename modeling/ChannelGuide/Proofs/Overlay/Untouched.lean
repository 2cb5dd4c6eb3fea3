import Mathlib.Data.List.Pairwise
import ChannelGuide.Catalogue.Sample
import ChannelGuide.Proofs.Overlay.Airings

/-!
Airings with nothing over them. An airing that is on at no instant of any override keeps its
beginning, and keeps its end, too, unless an override of no length lies inside it: the walk compares
ends only, and cuts the airing there.
-/
namespace ChannelGuide

/-- There is no instant at which both entries are on. -/
def Entry.Disjoint (a b : Entry) : Prop := ∀ t, ¬ (a.OnAt t ∧ b.OnAt t)

theorem Entry.disjoint_of_apart {a b : Entry} (apart : a.Apart b) : a.Disjoint b := by
  rintro t ⟨on_a, on_b⟩
  rcases apart with gone | gone
  · exact absurd (on_a.2.trans_le gone) (not_lt_of_ge on_b.1)
  · exact absurd (on_b.2.trans_le gone) (not_lt_of_ge on_a.1)

theorem Entry.disjoint_of_isFollowOn {a f : Entry} (followOn : f.broadcast.IsFollowOn) :
    a.Disjoint f := by
  rintro t ⟨-, from_start, before_stop⟩
  exact absurd (before_stop.trans_eq followOn.symm) (not_lt_of_ge from_start)

theorem leaves_of_disjoint {overrides : List Entry} {o : Entry} {e : Instant} (airs : o.Airs)
    (disjoint : ∀ v ∈ overrides, o.Disjoint v) (ends : FirstEnd overrides o o.start e) :
    Leaves overrides o (some (o.retimed o.start e)) := by
  have on_air : o.OnAt o.start := ⟨le_rfl, airs⟩
  have free : FirstFree overrides o.start o.start :=
    ⟨⟨le_rfl, fun v member on => disjoint v member o.start ⟨on_air, on⟩⟩, fun u hu => hu.1⟩
  exact .piece free airs ends

theorem firstEnd_eq_stop_iff {overrides : List Entry} {o : Entry} {e : Instant}
    (ends : FirstEnd overrides o o.start e) :
    e = o.stop ↔ ∀ v ∈ overrides, ¬ (o.start < v.start ∧ v.start < o.stop) := by
  constructor
  · rintro rfl v member ⟨after, before⟩
    exact absurd before (not_lt_of_ge (ends.2 (.inr ⟨v, member, after, rfl⟩)))
  · intro none_inside
    have by_stop : e ≤ o.stop := ends.2 (.inl rfl)
    rcases ends.1 with same | ⟨v, member, after, rfl⟩
    · exact same
    · exact le_antisymm by_stop (le_of_not_gt fun before => none_inside v member ⟨after, before⟩)

/-- What is left of an airing lies within it, so it is no other airing of the same schedule. -/
theorem eq_of_leaves_airing {overrides airings : List Entry} {o x : Entry}
    (apart : airings.Pairwise Entry.Apart) (airs : o.Airs) (ho : o ∈ airings) (hx : x ∈ airings)
    (leaves : Leaves overrides x (some o)) : x = o := by
  by_contra differ
  obtain ⟨from_start, to_stop⟩ := leaves.within
  rcases apart.forall hx ho differ with gone | gone
  · exact absurd (airs.trans_le (to_stop.trans gone)) (lt_irrefl o.start)
  · exact absurd (airs.trans_le (gone.trans from_start)) (lt_irrefl o.start)

theorem Entry.Disjoint.isFollowOn_of_inside {o v : Entry} (disjoint : o.Disjoint v)
    (upright : v.start ≤ v.stop) (after : o.start < v.start) (before : v.start < o.stop) :
    v.broadcast.IsFollowOn := by
  by_contra airing
  have airs := airs_of_not_isFollowOn upright airing
  exact disjoint v.start ⟨⟨after.le, before⟩, le_rfl, airs⟩

theorem mem_overlay_iff {base overrides : ChannelSchedule} {left : Entry → Option Entry}
    (upright : ∀ o ∈ base.entries, o.start ≤ o.stop)
    (override_upright : ∀ v ∈ overrides.entries, v.start ≤ v.stop)
    (apart : (base.entries.filter (·.Airs)).Pairwise Entry.Apart)
    (leaves : ∀ o, Leaves overrides.entries o (left o)) {x : Entry} (airs : x.Airs) :
    x ∈ overlay .kept base.sortedEntries overrides.sortedEntries ↔
      x ∈ overrides.entries ∨ ∃ o ∈ base.entries, o.Airs ∧ left o = some x := by
  have walk := overlay_airings override_upright leaves base.sortedEntries .kept
    (fun o ho => upright o (base.mem_sortedEntries.mp ho)) (base.airings_in_turn apart)
    (Coming.initial overrides base.sortedEntries)
  have parts := walk.mem_iff (a := x)
  simpa [airs, and_assoc] using parts

theorem mem_overlay_self_iff {base overrides : ChannelSchedule} {left : Entry → Option Entry}
    (upright : ∀ o ∈ base.entries, o.start ≤ o.stop)
    (override_upright : ∀ v ∈ overrides.entries, v.start ≤ v.stop)
    (apart : (base.entries.filter (·.Airs)).Pairwise Entry.Apart)
    (leaves : ∀ o, Leaves overrides.entries o (left o)) {o : Entry} (member : o ∈ base.entries)
    (airs : o.Airs) (disjoint : ∀ v ∈ overrides.entries, o.Disjoint v) :
    o ∈ overlay .kept base.sortedEntries overrides.sortedEntries ↔ left o = some o := by
  rw [mem_overlay_iff upright override_upright apart leaves airs]
  constructor
  · rintro (of_override | ⟨x, hx, x_airs, of_x⟩)
    · exact absurd ⟨⟨le_rfl, airs⟩, le_rfl, airs⟩ (disjoint o of_override o.start)
    · have same_airing : x = o := by
        apply eq_of_leaves_airing apart airs _ _ (of_x ▸ leaves x)
        · simpa using ⟨member, airs⟩
        · simpa using ⟨hx, x_airs⟩
      rwa [same_airing] at of_x
  · intro whole
    exact .inr ⟨o, member, airs, whole⟩

theorem retimed_eq_self_iff {o : Entry} {e : Instant} : o.retimed o.start e = o ↔ e = o.stop := by
  constructor
  · intro same
    exact congrArg Entry.stop same
  · rintro rfl
    exact o.retimed_self

theorem none_inside_iff {overrides : List Entry} {o : Entry}
    (override_upright : ∀ v ∈ overrides, v.start ≤ v.stop)
    (disjoint : ∀ v ∈ overrides, o.Disjoint v) :
    (∀ v ∈ overrides, ¬ (o.start < v.start ∧ v.start < o.stop)) ↔
      ∀ f ∈ overrides, f.broadcast.IsFollowOn → ¬ (o.start < f.start ∧ f.start < o.stop) := by
  constructor
  · exact fun none_inside f hf _ => none_inside f hf
  · rintro none_inside v hv ⟨after, before⟩
    have followOn := (disjoint v hv).isFollowOn_of_inside (override_upright v hv) after before
    exact none_inside v hv followOn ⟨after, before⟩

/-- An airing that shares no instant with an override keeps all that it has before the first
override start inside it. It stays as it is exactly when there is none: a follow-on among the
overrides, which is on at no instant, still cuts the airing that it lies in. -/
theorem overlaidBy_untouched {base overrides : ChannelSchedule}
    (same : base.channel.id = overrides.channel.id)
    (upright : ∀ o ∈ base.entries, o.start ≤ o.stop)
    (override_upright : ∀ v ∈ overrides.entries, v.start ≤ v.stop)
    (apart : (base.entries.filter (·.Airs)).Pairwise Entry.Apart) :
    ∃ merged, base.overlaidBy overrides = .ok merged ∧
      ∀ o ∈ base.entries, o.Airs → (∀ v ∈ overrides.entries, o.Disjoint v) →
        (∃ e, FirstEnd overrides.entries o o.start e ∧ o.retimed o.start e ∈ merged.entries) ∧
        (o ∈ merged.entries ↔
          ∀ f ∈ overrides.entries, f.broadcast.IsFollowOn →
            ¬ (o.start < f.start ∧ f.start < o.stop)) := by
  choose left leaves using exists_leaves overrides.entries
  refine ⟨_, overlaidBy_ok same, ?_⟩
  intro o member airs disjoint
  obtain ⟨e, ends⟩ := exists_firstEnd overrides.entries airs
  have piece := leaves_of_disjoint airs disjoint ends
  have kept : left o = some (o.retimed o.start e) := (leaves o).unique piece
  refine ⟨⟨e, ends, ?_⟩, ?_⟩
  · apply (mem_overlay_iff upright override_upright apart leaves piece.start_lt_stop).mpr
    exact .inr ⟨o, member, airs, kept⟩
  · calc o ∈ overlay .kept base.sortedEntries overrides.sortedEntries
        ↔ left o = some o :=
          mem_overlay_self_iff upright override_upright apart leaves member airs disjoint
      _ ↔ e = o.stop := by rw [kept, Option.some_inj, retimed_eq_self_iff]
      _ ↔ ∀ v ∈ overrides.entries, ¬ (o.start < v.start ∧ v.start < o.stop) :=
          firstEnd_eq_stop_iff ends
      _ ↔ _ := none_inside_iff override_upright disjoint

/-- Two airings with nothing over them: one has an override at either end and a follow-on at its
start, and stays; the other has a follow-on inside, and does not. -/
theorem overlaidBy_untouched_between :
    let news := Sample.entry Sample.pa 1 (Sample.clock 8 0) (Sample.clock 9 0)
    let film := Sample.entry Sample.pa 2 (Sample.clock 10 0) (Sample.clock 12 0)
    let base := Sample.schedule [news, film]
    let overrides := Sample.schedule
      [Sample.entry Sample.ebs 10 (Sample.clock 7 0) (Sample.clock 8 0),
        Sample.entry Sample.ebs 11 (Sample.clock 8 0) (Sample.clock 8 0),
        Sample.entry Sample.ebs 12 (Sample.clock 9 0) (Sample.clock 9 30),
        Sample.entry Sample.ebs 13 (Sample.clock 11 0) (Sample.clock 11 0)]
    (base.channel.id = overrides.channel.id ∧ (∀ o ∈ base.entries, o.start ≤ o.stop) ∧
      (∀ v ∈ overrides.entries, v.start ≤ v.stop) ∧
      (base.entries.filter (·.Airs)).Pairwise Entry.Apart) ∧
    (∀ o ∈ base.entries, o.Airs ∧ ∀ v ∈ overrides.entries, o.Disjoint v) ∧
    ∃ merged, base.overlaidBy overrides = .ok merged ∧ news ∈ merged.entries ∧
      film ∉ merged.entries := by
  intro news film base overrides
  have uncovered : ∀ o ∈ base.entries, ∀ v ∈ overrides.entries,
      o.Apart v ∨ v.broadcast.IsFollowOn := by decide
  have disjoint : ∀ o ∈ base.entries, ∀ v ∈ overrides.entries, o.Disjoint v :=
    fun o ho v hv => (uncovered o ho v hv).elim Entry.disjoint_of_apart Entry.disjoint_of_isFollowOn
  have airs : ∀ o ∈ base.entries, o.Airs := by decide
  have upright : ∀ o ∈ base.entries, o.start ≤ o.stop := by decide
  have override_upright : ∀ v ∈ overrides.entries, v.start ≤ v.stop := by decide
  have apart : (base.entries.filter (·.Airs)).Pairwise Entry.Apart := by decide
  obtain ⟨merged, ok, law⟩ :=
    @overlaidBy_untouched base overrides rfl upright override_upright apart
  refine ⟨⟨rfl, upright, override_upright, apart⟩, fun o ho => ⟨airs o ho, disjoint o ho⟩, merged,
    ok, ?_, ?_⟩
  · have listed : news ∈ base.entries := List.mem_cons_self
    exact (law news listed (airs news listed) (disjoint news listed)).2.mpr (by decide)
  · have listed : film ∈ base.entries := List.mem_cons_of_mem news List.mem_cons_self
    exact fun whole => absurd
      ((law film listed (airs film listed) (disjoint film listed)).2.mp whole) (by decide)

/-- A follow-on of the overrides cuts the airing it lies in, though the two share no instant. -/
theorem followOn_cuts_airing :
    let film := Sample.entry Sample.pa 1 (Sample.clock 9 0) (Sample.clock 11 0)
    let marker := Sample.entry Sample.ebs 10 (Sample.clock 10 0) (Sample.clock 10 0)
    let base := Sample.schedule [film]
    (film.Airs ∧ film.Disjoint marker) ∧
    base.overlaidBy (Sample.schedule [marker]) =
        .ok { base with entries := [film.retimed (Sample.clock 9 0) (Sample.clock 10 0), marker] } ∧
      film ∉ [film.retimed (Sample.clock 9 0) (Sample.clock 10 0), marker] := by
  intro film marker base
  exact ⟨⟨by decide, Entry.disjoint_of_isFollowOn (by decide)⟩, by decide, by decide⟩

end ChannelGuide
