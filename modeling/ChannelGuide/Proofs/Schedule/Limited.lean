import Mathlib.Data.List.Chain
import Mathlib.Order.Bounds.Basic
import ChannelGuide.Catalogue.Sample
import ChannelGuide.Proofs.Schedule.AiringOrder
import ChannelGuide.Proofs.Time.Order
import ChannelGuide.Schedule.Slots

/-!
Schedules that are limited to a number of broadcasts. Limiting twice is limiting to the smaller
number; and where broadcasts come one after the other, the interval of a limited schedule ends
between those that are kept and those that are not.
-/
namespace ChannelGuide

section Covered
variable {interval : Interval} {slots : List Slot} {last : Slot}

theorem start_coveredBy (interval : Interval) (slots : List Slot) :
    (coveredBy interval slots).start = interval.start := by
  unfold coveredBy
  split
  · rfl
  · split <;> rfl

theorem coveredBy_of_last (ends : slots.getLast? = some last)
    (covers : interval.start ≤ last.broadcast.stop) :
    coveredBy interval slots = ⟨interval.start, last.broadcast.stop, covers⟩ := by
  unfold coveredBy
  rw [ends]
  exact dif_pos covers

/-- Only the start of an interval counts for what is covered, if there is anything. -/
theorem coveredBy_coveredBy {longer : List Slot} (bare : slots = [] → longer = [])
    (ends : ∀ slot ∈ slots, interval.start ≤ slot.broadcast.stop) :
    coveredBy (coveredBy interval longer) slots = coveredBy interval slots := by
  cases last_of : slots.getLast? with
  | none =>
      have none := List.getLast?_eq_none_iff.mp last_of
      rw [none, bare none]
      rfl
  | some last =>
      have covers := ends last (List.mem_of_getLast? last_of)
      have covers_too : (coveredBy interval longer).start ≤ last.broadcast.stop :=
        (start_coveredBy interval longer).trans_le covers
      rw [coveredBy_of_last last_of covers, coveredBy_of_last last_of covers_too]
      simp only [start_coveredBy]

end Covered

namespace ChannelSlots
variable {s : ChannelSlots} {n : Nat}

/-- No broadcast is inverted; and in their order, each is over when the next one starts. -/
structure Sequential (s : ChannelSlots) : Prop where
  upright : ∀ slot ∈ s.slots, slot.broadcast.start ≤ slot.broadcast.stop
  apart : (inAiringOrder Slot.broadcast s.slots).IsChain fun a b =>
    a.broadcast.stop ≤ b.broadcast.start

theorem slots_perm (s : ChannelSlots) : s.slots.Perm (inAiringOrder Slot.broadcast s.slots) :=
  (inAiringOrder_perm Slot.broadcast s.slots).symm

/-- What is over when the next one starts is over when any later one does. -/
theorem Sequential.pairwise (h : s.Sequential) :
    (inAiringOrder Slot.broadcast s.slots).Pairwise fun a b =>
      a.broadcast.stop ≤ b.broadcast.start ∧ b.broadcast.start ≤ b.broadcast.stop := by
  have trans : IsTrans Slot fun a b =>
      a.broadcast.stop ≤ b.broadcast.start ∧ b.broadcast.start ≤ b.broadcast.stop :=
    ⟨fun _ _ _ ab bc => ⟨(ab.1.trans ab.2).trans bc.1, bc.2⟩⟩
  rw [← List.isChain_iff_pairwise]
  exact h.apart.imp_of_mem_imp fun a b _ hb apart =>
    ⟨apart, h.upright b (s.slots_perm.mem_iff.mpr hb)⟩

theorem inAiringOrder_limited (s : ChannelSlots) (n : Nat) :
    inAiringOrder Slot.broadcast (s.limited n).slots = (s.limited n).slots :=
  inAiringOrder_eq_self (pairwise_inAiringOrder Slot.broadcast s.slots).take

theorem mem_of_mem_limited {slot : Slot} (kept : slot ∈ (s.limited n).slots) : slot ∈ s.slots :=
  s.slots_perm.mem_iff.mpr (List.mem_of_mem_take kept)

theorem limited_limited (ends : ∀ slot ∈ s.slots, s.interval.start ≤ slot.broadcast.stop)
    (m : Nat) (positive : 0 < n) : (s.limited m).limited n = s.limited (min m n) := by
  have kept : (s.limited m).slots.take n = (s.limited (min m n)).slots := by
    rw [limited, limited, List.take_take, min_comm]
  have bare (none : (s.limited (min m n)).slots = []) : (s.limited m).slots = [] := by
    rw [← kept, List.take_eq_nil_iff] at none
    exact none.resolve_left positive.ne'
  have covered := coveredBy_coveredBy bare fun slot member => ends slot (mem_of_mem_limited member)
  rw [← kept] at covered
  rw [limited, inAiringOrder_limited]
  exact congrArg₂ (ChannelSlots.mk s.channel) (covered.trans (by rw [kept]; rfl)) kept

/-- Where there are broadcasts, one of them is kept last, and what is covered ends with it. -/
theorem exists_last (ends : ∀ slot ∈ s.slots, s.interval.start ≤ slot.broadcast.stop)
    (some_slots : s.slots ≠ []) (positive : 0 < n) :
    ∃ earlier last, (s.limited n).slots = earlier ++ [last] ∧
      (s.limited n).interval.start = s.interval.start ∧
      (s.limited n).interval.stop = last.broadcast.stop := by
  have some_kept : (s.limited n).slots ≠ [] := by
    intro none
    rcases List.take_eq_nil_iff.mp none with zero | bare
    · exact positive.ne' zero
    · exact some_slots (List.perm_nil.mp (bare ▸ s.slots_perm))
  obtain ⟨earlier, last, kept⟩ := (List.eq_nil_or_concat _).resolve_left some_kept
  rw [List.concat_eq_append] at kept
  have last_of : (s.limited n).slots.getLast? = some last := by rw [kept, List.getLast?_concat]
  have member := mem_of_mem_limited (List.mem_of_getLast? last_of)
  have covered : (s.limited n).interval = _ := coveredBy_of_last last_of (ends last member)
  refine ⟨earlier, last, kept, ?_, ?_⟩
  · rw [covered]
  · rw [covered]

/-- Limiting to one number and then to another is limiting to the smaller. Where there are
broadcasts, and they come one after the other, a limited schedule covers what is from its start to
the end of what is kept, and all that is dropped starts after that. -/
theorem limited_composes_and_covers
    (ends : ∀ slot ∈ s.slots, s.interval.start ≤ slot.broadcast.stop) (m : Nat)
    (positive : 0 < n) :
    (s.limited m).limited n = s.limited (min m n) ∧
      (s.Sequential → s.slots ≠ [] →
        (s.limited n).interval.start = s.interval.start ∧
        IsGreatest {t | ∃ slot ∈ (s.limited n).slots, slot.broadcast.stop = t}
          (s.limited n).interval.stop ∧
        ∃ dropped, s.slots.Perm ((s.limited n).slots ++ dropped) ∧
          ∀ slot ∈ dropped, (s.limited n).interval.stop ≤ slot.broadcast.start) := by
  refine ⟨limited_limited ends m positive, fun sequential some_slots => ?_⟩
  obtain ⟨earlier, last, kept, start, stop⟩ := exists_last ends some_slots positive
  let dropped := (inAiringOrder Slot.broadcast s.slots).drop n
  have parts : inAiringOrder Slot.broadcast s.slots = earlier ++ [last] ++ dropped := by
    rw [← kept]
    exact (List.take_append_drop n _).symm
  have in_turn := sequential.pairwise
  rw [parts, List.pairwise_append, List.pairwise_append] at in_turn
  obtain ⟨⟨-, -, before_last⟩, -, before_dropped⟩ := in_turn
  have last_kept : last ∈ earlier ++ [last] := List.mem_append_right earlier (.head [])
  refine ⟨start, ⟨⟨last, kept ▸ last_kept, stop.symm⟩, ?_⟩, dropped, ?_, ?_⟩
  · rintro t ⟨slot, member, rfl⟩
    rw [kept, List.mem_append, List.mem_singleton] at member
    rw [stop]
    rcases member with early | rfl
    · have turn := before_last slot early last (.head [])
      exact turn.1.trans turn.2
    · exact le_rfl
  · rw [kept, ← parts]
    exact s.slots_perm
  · intro slot member
    rw [stop]
    exact (before_dropped last last_kept slot member).1

/-- Out of an hour, its follow-on and a film, given in another order, the film is dropped. -/
theorem limited_composes_and_covers_at_followOn :
    let item := (Sample.entry Sample.pa 1 (Sample.clock 8 0) (Sample.clock 9 0)).item
    let slot (start stop) : Slot := ⟨Sample.airing 1 start stop, [item]⟩
    let s : ChannelSlots :=
      { channel := (Sample.schedule []).channel, interval := (Sample.schedule []).interval
        slots :=
          [ slot (Sample.clock 9 0) (Sample.clock 11 0),
            slot (Sample.clock 8 0) (Sample.clock 9 0),
            slot (Sample.clock 9 0) (Sample.clock 9 0) ] }
    ((s.limited 3).limited 2 = s.limited 2 ∧ (s.limited 2).slots.length = 2) ∧
      ∃ dropped, s.slots.Perm ((s.limited 2).slots ++ dropped) ∧
        ∀ slot ∈ dropped, (s.limited 2).interval.stop ≤ slot.broadcast.start := by
  intro item slot s
  have ends : ∀ slot ∈ s.slots, s.interval.start ≤ slot.broadcast.stop := by decide
  have law := limited_composes_and_covers ends 3 (Nat.zero_lt_two)
  have sequential : s.Sequential := { upright := by decide, apart := by decide }
  obtain ⟨-, -, dropped⟩ := law.2 sequential (by decide)
  exact ⟨⟨law.1, by decide⟩, dropped⟩

end ChannelSlots
end ChannelGuide
