import Mathlib.Order.MinMax
import ChannelGuide.Catalogue.Sample
import ChannelGuide.Proofs.Overlay.Correspondence
import ChannelGuide.Proofs.Overlay.Placement

/-!
Schedules retold: the same entries on another clock and under other labels. Laying a schedule over
another and retelling the result is retelling both and laying one over the other.

Instants are bounded, so a clock that goes forward over all of them moves none. What counts are the
instants that the two schedules hold.
-/
namespace ChannelGuide

namespace Entry

/-- The entry at the times that `clock` shows for its own, with another label. -/
def retold (clock : Instant → Instant) (rename : Label → Label) (e : Entry) : Entry :=
  (rename e.label).on (clock e.start) (clock e.stop)

end Entry

/-- From where `clock` takes the start to where it takes the end; nothing, if it turns them round. -/
def Interval.retold (clock : Instant → Instant) (i : Interval) : Interval :=
  if h : clock i.start ≤ clock i.stop then ⟨clock i.start, clock i.stop, h⟩
  else .empty (clock i.start)

namespace ChannelSchedule

def retold (clock : Instant → Instant) (rename : Entry.Label → Entry.Label) (s : ChannelSchedule) :
    ChannelSchedule where
  channel := s.channel
  interval := s.interval.retold clock
  entries := s.entries.map (Entry.retold clock rename)

/-- The instants that the schedule holds: those of its interval and of its entries. -/
def instants (s : ChannelSchedule) : List Instant :=
  s.interval.start :: s.interval.stop :: s.entries.flatMap fun e => [e.start, e.stop]

/-- When the entries are on, and nothing else of them. -/
def spans (s : ChannelSchedule) : List (Instant × Instant) :=
  s.entries.map fun e => (e.start, e.stop)

end ChannelSchedule

section Retelling
variable {clock : Instant → Instant} {times : Set Instant} {rename : Entry.Label → Entry.Label}
  {xs ys : List Entry} {s t : ChannelSchedule} {i j : Interval}

theorem correspond_retold (held : ∀ e ∈ xs, e.start ∈ times ∧ e.stop ∈ times) :
    Correspond clock times (fun l m => m = rename l) xs (xs.map (Entry.retold clock rename)) := by
  rw [Correspond, List.forall₂_map_right_iff, List.forall₂_same]
  intro e member
  obtain ⟨start, stop⟩ := held e member
  exact ⟨start, stop, Entry.start_on .., Entry.stop_on .., Entry.label_on ..⟩

theorem eq_map_retold (h : Correspond clock times (fun l m => m = rename l) xs ys) :
    ys = xs.map (Entry.retold clock rename) := by
  induction h with
  | nil => rfl
  | cons head _ ih =>
      rw [List.map_cons, ← ih]
      congr 1
      exact Entry.ext_label head.label head.start head.stop

namespace ChannelSchedule

theorem mem_instants {e : Entry} (member : e ∈ s.entries) :
    e.start ∈ s.instants ∧ e.stop ∈ s.instants := by
  simp only [instants, List.mem_cons, List.mem_flatMap]
  exact ⟨.inr (.inr ⟨e, member, .inl rfl⟩), .inr (.inr ⟨e, member, .inr (.inl rfl)⟩)⟩

theorem start_mem_instants (s : ChannelSchedule) : s.interval.start ∈ s.instants :=
  List.mem_cons_self

theorem stop_mem_instants (s : ChannelSchedule) : s.interval.stop ∈ s.instants :=
  List.mem_cons_of_mem _ List.mem_cons_self

theorem spans_eq_iff : s.spans = t.spans ↔
    Correspond id Set.univ (fun _ _ => True) s.entries t.entries := by
  rw [spans, spans, ← List.forall₂_eq_eq_eq, List.forall₂_map_left_iff, List.forall₂_map_right_iff]
  have pairwise : (fun a b : Entry => (a.start, a.stop) = (b.start, b.stop)) =
      Entry.Corresponds id Set.univ fun _ _ => True := by
    funext a b
    apply propext
    constructor
    · intro same
      obtain ⟨start, stop⟩ := Prod.mk.inj same
      exact ⟨trivial, trivial, start.symm, stop.symm, trivial⟩
    · intro same
      exact Prod.ext same.start.symm same.stop.symm
  rw [pairwise]

end ChannelSchedule

variable (forward : StrictMonoOn clock times)
include forward

theorem Interval.retold_of_mem (start : i.start ∈ times) (stop : i.stop ∈ times) :
    (i.retold clock).start = clock i.start ∧ (i.retold clock).stop = clock i.stop := by
  have ordered : clock i.start ≤ clock i.stop := forward.monotoneOn start stop i.ordered
  rw [retold, dif_pos ordered]
  exact ⟨rfl, rfl⟩

theorem Interval.retold_spanning (i_start : i.start ∈ times) (i_stop : i.stop ∈ times)
    (j_start : j.start ∈ times) (j_stop : j.stop ∈ times) :
    (i.spanning j).retold clock = (i.retold clock).spanning (j.retold clock) := by
  have least : clock (min i.start j.start) = min (clock i.start) (clock j.start) :=
    MonotoneOn.map_min forward.monotoneOn i_start j_start
  have greatest : clock (max i.stop j.stop) = max (clock i.stop) (clock j.stop) :=
    MonotoneOn.map_max forward.monotoneOn i_stop j_stop
  have start_le : clock i.start ≤ clock i.stop := forward.monotoneOn i_start i_stop i.ordered
  have ordered : clock (i.spanning j).start ≤ clock (i.spanning j).stop := by
    change clock (min i.start j.start) ≤ clock (max i.stop j.stop)
    rw [least, greatest]
    exact (min_le_left _ _).trans (start_le.trans (le_max_left _ _))
  obtain ⟨start_i, stop_i⟩ := retold_of_mem forward i_start i_stop
  obtain ⟨start_j, stop_j⟩ := retold_of_mem forward j_start j_stop
  rw [retold, dif_pos ordered]
  simp only [spanning, start_i, stop_i, start_j, stop_j, least, greatest]

end Retelling

namespace ChannelSchedule
variable {base overrides merged other otherOverrides otherMerged : ChannelSchedule}

/-- What is made of schedules that correspond corresponds. -/
theorem correspond_of_overlaidBy {clock : Instant → Instant} {times : Set Instant}
    {R : Entry.Label → Entry.Label → Prop} (forward : StrictMonoOn clock times)
    (of_base : Correspond clock times R base.entries other.entries)
    (of_overrides : Correspond clock times R overrides.entries otherOverrides.entries)
    (ok : base.overlaidBy overrides = .ok merged)
    (other_ok : other.overlaidBy otherOverrides = .ok otherMerged) :
    Correspond clock times R merged.entries otherMerged.entries := by
  rw [entries_of_overlaidBy ok, entries_of_overlaidBy other_ok]
  apply correspond_overlay forward .kept
  · exact correspond_inAiringOrder forward of_base
  · exact correspond_inAiringOrder forward of_overrides

/-- The instants of both schedules. -/
abbrev instantsWith (base overrides : ChannelSchedule) : Set Instant :=
  {t | t ∈ base.instants ++ overrides.instants}

theorem mem_instantsWith_left (overrides : ChannelSchedule) :
    ∀ t ∈ base.instants, t ∈ base.instantsWith overrides :=
  fun _ member => List.mem_append_left _ member

theorem mem_instantsWith_right (base : ChannelSchedule) :
    ∀ t ∈ overrides.instants, t ∈ base.instantsWith overrides :=
  fun _ member => List.mem_append_right _ member

/-- An interval around both schedules starts and ends with one of them. -/
theorem spanning_mem_instantsWith (base overrides : ChannelSchedule) :
    (base.interval.spanning overrides.interval).start ∈ base.instantsWith overrides ∧
      (base.interval.spanning overrides.interval).stop ∈ base.instantsWith overrides := by
  constructor
  · rcases min_choice base.interval.start overrides.interval.start with least | least
    · exact Set.mem_of_eq_of_mem least (mem_instantsWith_left _ _ base.start_mem_instants)
    · exact Set.mem_of_eq_of_mem least (mem_instantsWith_right _ _ overrides.start_mem_instants)
  · rcases max_choice base.interval.stop overrides.interval.stop with greatest | greatest
    · exact Set.mem_of_eq_of_mem greatest (mem_instantsWith_left _ _ base.stop_mem_instants)
    · exact Set.mem_of_eq_of_mem greatest (mem_instantsWith_right _ _ overrides.stop_mem_instants)

/-- No instant is made up that neither schedule holds. -/
theorem instants_of_overlaidBy (ok : base.overlaidBy overrides = .ok merged) :
    ∀ t ∈ merged.instants, t ∈ base.instantsWith overrides := by
  have around : merged.interval.start ∈ base.instantsWith overrides ∧
      merged.interval.stop ∈ base.instantsWith overrides := by
    rw [interval_of_overlaidBy ok]
    split
    · exact ⟨mem_instantsWith_left _ _ base.start_mem_instants,
        mem_instantsWith_left _ _ base.stop_mem_instants⟩
    · exact spanning_mem_instantsWith base overrides
  have itself {s : ChannelSchedule} (held : ∀ t ∈ s.instants, t ∈ base.instantsWith overrides) :
      Correspond id (base.instantsWith overrides) (fun _ _ => True) s.entries s.entries := by
    rw [Correspond, List.forall₂_same]
    intro e member
    obtain ⟨start, stop⟩ := mem_instants member
    exact ⟨held _ start, held _ stop, rfl, rfl, trivial⟩
  have entries := correspond_of_overlaidBy strictMonoOn_id (itself (mem_instantsWith_left overrides))
    (itself (mem_instantsWith_right base)) ok ok
  rw [Correspond, List.forall₂_same] at entries
  intro t member
  simp only [instants, List.mem_cons, List.mem_flatMap, List.not_mem_nil, or_false] at member
  rcases member with rfl | rfl | ⟨e, written, rfl | rfl⟩
  · exact around.1
  · exact around.2
  · exact (entries e written).start_mem
  · exact (entries e written).stop_mem

/-- Retelling both schedules is retelling what is made of them. -/
theorem retold_overlaidBy {clock : Instant → Instant} (rename : Entry.Label → Entry.Label)
    (forward : StrictMonoOn clock (base.instantsWith overrides))
    (ok : base.overlaidBy overrides = .ok merged) :
    (base.retold clock rename).overlaidBy (overrides.retold clock rename) =
      .ok (merged.retold clock rename) := by
  have retells {s : ChannelSchedule} (held : ∀ t ∈ s.instants, t ∈ base.instantsWith overrides) :
      Correspond clock (base.instantsWith overrides) (fun l m => m = rename l) s.entries
        (s.retold clock rename).entries := by
    apply correspond_retold
    intro e member
    exact ⟨held _ (mem_instants member).1, held _ (mem_instants member).2⟩
  have of_base := retells (mem_instantsWith_left overrides)
  have of_overrides := retells (mem_instantsWith_right base)
  have one_channel : base.channel.id = overrides.channel.id := channel_id_eq_of_overlaidBy ok
  have bare : (overrides.retold clock rename).sortedEntries = [] ↔ overrides.sortedEntries = [] := by
    have lengths := (correspond_inAiringOrder forward of_overrides).length_eq
    change overrides.sortedEntries.length = (overrides.retold clock rename).sortedEntries.length
      at lengths
    rw [← List.length_eq_zero_iff, ← lengths, List.length_eq_zero_iff]
  obtain ⟨other, other_ok⟩ : ∃ other, (base.retold clock rename).overlaidBy
      (overrides.retold clock rename) = .ok other := ⟨_, overlaidBy_ok one_channel⟩
  have channel : other.channel = merged.channel :=
    (channel_of_overlaidBy other_ok).trans (channel_of_overlaidBy ok).symm
  have interval : other.interval = merged.interval.retold clock := by
    rw [interval_of_overlaidBy other_ok, interval_of_overlaidBy ok]
    simp only [bare]
    split
    · rfl
    · exact (Interval.retold_spanning forward
        (mem_instantsWith_left _ _ base.start_mem_instants)
        (mem_instantsWith_left _ _ base.stop_mem_instants)
        (mem_instantsWith_right _ _ overrides.start_mem_instants)
        (mem_instantsWith_right _ _ overrides.stop_mem_instants)).symm
  have entries : other.entries = merged.entries.map (Entry.retold clock rename) :=
    eq_map_retold (correspond_of_overlaidBy forward of_base of_overrides ok other_ok)
  rw [other_ok, retold, ← channel, ← interval, ← entries]

end ChannelSchedule

/-- Schedules of one channel can be laid over each other, and no instant comes out that they do not
hold. Only the order of these instants counts: on any clock that goes forward over them, and under
any other labels, what comes out is the same retold. So schedules whose entries are on at the same
times come out on at the same times, whatever the entries say. -/
theorem overlaidBy_by_order_alone {base overrides : ChannelSchedule}
    (one_channel : base.channel.id = overrides.channel.id) :
    ∃ merged, base.overlaidBy overrides = .ok merged ∧
      (∀ t ∈ merged.instants, t ∈ base.instantsWith overrides) ∧
      (∀ (clock : Instant → Instant) (rename : Entry.Label → Entry.Label),
        StrictMonoOn clock (base.instantsWith overrides) →
          (base.retold clock rename).overlaidBy (overrides.retold clock rename) =
            .ok (merged.retold clock rename)) ∧
      ∀ other otherOverrides : ChannelSchedule, other.channel.id = otherOverrides.channel.id →
        other.spans = base.spans → otherOverrides.spans = overrides.spans →
          ∃ otherMerged, other.overlaidBy otherOverrides = .ok otherMerged ∧
            otherMerged.spans = merged.spans := by
  obtain ⟨merged, ok⟩ : ∃ merged, base.overlaidBy overrides = .ok merged :=
    ⟨_, overlaidBy_ok one_channel⟩
  refine ⟨merged, ok, ChannelSchedule.instants_of_overlaidBy ok, fun clock rename forward => ?_, ?_⟩
  · exact ChannelSchedule.retold_overlaidBy rename forward ok
  · intro other otherOverrides alike base_spans override_spans
    obtain ⟨otherMerged, other_ok⟩ : ∃ otherMerged,
        other.overlaidBy otherOverrides = .ok otherMerged := ⟨_, overlaidBy_ok alike⟩
    rw [ChannelSchedule.spans_eq_iff] at base_spans override_spans
    refine ⟨otherMerged, other_ok, ChannelSchedule.spans_eq_iff.mpr ?_⟩
    exact ChannelSchedule.correspond_of_overlaidBy strictMonoOn_id base_spans override_spans other_ok
      ok

/-- On a clock twice as fast, with one label on everything: an airing with a follow-on, an override
that cuts it, another one inside it, and an entry that ends before it starts. -/
theorem overlaidBy_by_order_alone_faster :
    let base := Sample.schedule
      [Sample.entry Sample.pa 2 (Sample.clock 8 30) (Sample.clock 8 30),
        Sample.entry Sample.pa 1 (Sample.clock 7 0) (Sample.clock 8 30),
        Sample.entry Sample.pa 3 (Sample.clock 9 0) (Sample.clock 8 45)]
    let overrides := Sample.schedule
      [Sample.entry Sample.ebs 11 (Sample.clock 8 0) (Sample.clock 9 0),
        Sample.entry Sample.ebs 10 (Sample.clock 7 0) (Sample.clock 7 15)]
    let clock (t : Instant) :=
      (Instant.ofTicks? (2 * t.ticks - (Sample.clock 6 0).ticks)).getD t
    let rename (_ : Entry.Label) := (Sample.entry Sample.bbc 30 (Sample.clock 6 0)
      (Sample.clock 6 0)).label
    StrictMonoOn clock (base.instantsWith overrides) ∧
      ∃ merged, base.overlaidBy overrides = .ok merged ∧
        (base.retold clock rename).overlaidBy (overrides.retold clock rename) =
          .ok (merged.retold clock rename) ∧
        merged.spans =
          [(Sample.clock 7 0, Sample.clock 7 15), (Sample.clock 7 15, Sample.clock 8 0),
            (Sample.clock 8 0, Sample.clock 8 0), (Sample.clock 8 0, Sample.clock 9 0),
            (Sample.clock 9 0, Sample.clock 8 45)] := by
  intro base overrides clock rename
  have later : ∀ t ∈ base.instants ++ overrides.instants,
      ∀ u ∈ base.instants ++ overrides.instants, t < u → clock t < clock u := by decide
  have forward : StrictMonoOn clock (base.instantsWith overrides) :=
    fun t ht u hu before => later t ht u hu before
  have one_channel : base.channel.id = overrides.channel.id := rfl
  obtain ⟨merged, ok, -, retelling, -⟩ := overlaidBy_by_order_alone one_channel
  refine ⟨forward, merged, ok, retelling clock rename forward, ?_⟩
  cases ok
  decide

end ChannelGuide
