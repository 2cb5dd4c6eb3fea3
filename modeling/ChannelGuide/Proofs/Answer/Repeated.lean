import Mathlib.Data.List.DropRight
import ChannelGuide.Catalogue.Sample
import ChannelGuide.Proofs.Answer.Requested

/-!
Answers that hold several schedules for a channel. The one that is taken is the first that stands
among what is left when the turn of the channel comes. That is the one that came first, unless
another was put before it in the place of a schedule that was taken earlier.
-/
namespace ChannelGuide

/-- The first schedule for the channel. -/
def firstFor (schedules : List ChannelSchedule) (id : ChannelId) : Option ChannelSchedule :=
  schedules.find? fun s => s.channel.id = id

/-- What is left when schedules have been taken for these channels. -/
def leftAfter : List ChannelId → List ChannelSchedule → List ChannelSchedule
  | [], schedules => schedules
  | id :: ids, schedules =>
    match takeSchedule? id schedules with
    | none => leftAfter ids schedules
    | some (_, rest) => leftAfter ids rest

/-- Of the schedules at the end of the list, as many as are taken for the earlier channels, none is
for this channel and another than its first. -/
def KeepsItsPlace (earlier : List ChannelId) (id : ChannelId) (schedules : List ChannelSchedule) :
    Prop :=
  ∀ s ∈ schedules.rtake (inRequestedOrder earlier schedules).length, s.channel.id = id →
    firstFor schedules id = some s

instance (earlier : List ChannelId) (id : ChannelId) (schedules : List ChannelSchedule) :
    Decidable (KeepsItsPlace earlier id schedules) := inferInstanceAs (Decidable (∀ s ∈ _, _))

section Taking
variable {id other : ChannelId} {ids earlier later : List ChannelId}
  {schedules rest before after : List ChannelSchedule} {found s t : ChannelSchedule}

theorem channel_of_firstFor (first : firstFor schedules id = some s) : s.channel.id = id := by
  simpa using List.find?_some first

theorem firstFor_append : firstFor (before ++ after) id =
    (firstFor before id).or (firstFor after id) := List.find?_append

theorem firstFor_cons_of_ne (elsewhere : s.channel.id ≠ id) :
    firstFor (s :: schedules) id = firstFor schedules id :=
  List.find?_cons_of_neg (by simpa using elsewhere)

theorem firstFor_cons_of_eq (here : s.channel.id = id) : firstFor (s :: schedules) id = some s :=
  List.find?_cons_of_pos (by simpa using here)

theorem lastToFront_concat {α : Type} (xs : List α) (x : α) : lastToFront (xs ++ [x]) = x :: xs := by
  simp [lastToFront]

theorem exists_firstFor_iff : (∃ s, firstFor schedules id = some s) ↔ id ∈ channelIds schedules := by
  rw [← Option.isSome_iff_exists, firstFor, List.find?_isSome]
  simp [channelIds]

theorem firstFor_eq_none_iff : firstFor schedules id = none ↔ id ∉ channelIds schedules := by
  rw [← exists_firstFor_iff, Option.eq_none_iff_forall_ne_some, not_exists]

theorem firstFor_of_takeSchedule?_self (taken : takeSchedule? id schedules = some (found, rest)) :
    firstFor schedules id = some found := by
  obtain ⟨before, after, rfl, none_before, here, -⟩ := exists_of_takeSchedule? taken
  have none : firstFor before id = none := by
    rw [firstFor, List.find?_eq_none]
    intro s earlier
    simpa using none_before s earlier
  rw [firstFor_append, none, firstFor_cons_of_eq here]
  rfl

/-- Taking a schedule puts the last one in its place. So for another channel the last one comes
first now, if it is for that channel and nothing before the place is. -/
theorem firstFor_of_takeSchedule? (taken : takeSchedule? id schedules = some (found, rest))
    (differ : other ≠ id) : ∃ before after, schedules = before ++ found :: after ∧
      firstFor rest other = (firstFor before other).or
        ((schedules.getLast?.filter fun s => s.channel.id = other).or
          (firstFor schedules other)) := by
  obtain ⟨before, after, rfl, -, here, rfl⟩ := exists_of_takeSchedule? taken
  have elsewhere : found.channel.id ≠ other := fun same => differ (same.symm.trans here)
  refine ⟨before, after, rfl, ?_⟩
  rw [firstFor_append, firstFor_append, firstFor_cons_of_ne elsewhere]
  cases after using List.reverseRecOn with
  | nil =>
      rw [List.getLast?_concat, Option.filter_some_neg (by simpa using elsewhere)]
      cases firstFor before other <;> rfl
  | append_singleton middle last =>
      rw [lastToFront_concat, firstFor_append, ← List.cons_append, ← List.append_assoc,
        List.getLast?_concat]
      by_cases of_other : last.channel.id = other
      · rw [firstFor_cons_of_eq of_other, Option.filter_some_pos (by simpa using of_other)]
        rfl
      · rw [firstFor_cons_of_ne of_other, Option.filter_some_neg (by simpa using of_other),
          firstFor_cons_of_ne of_other]
        cases firstFor before other <;> cases firstFor middle other <;> rfl

/-- Another channel keeps its first schedule, unless the last one of all is another for it. -/
theorem firstFor_eq_of_takeSchedule? (taken : takeSchedule? id schedules = some (found, rest))
    (differ : other ≠ id) (last : ∀ last, schedules.getLast? = some last →
      last.channel.id = other → firstFor schedules other = some last) :
    firstFor rest other = firstFor schedules other := by
  obtain ⟨before, after, split, law⟩ := firstFor_of_takeSchedule? taken differ
  have whole : firstFor schedules other =
      (firstFor before other).or (firstFor (found :: after) other) := by rw [split, firstFor_append]
  rw [law]
  cases none_before : firstFor before other with
  | some s =>
      rw [whole, none_before]
      rfl
  | none =>
      cases at_end : schedules.getLast?.filter fun s => s.channel.id = other with
      | none => rfl
      | some s =>
          obtain ⟨at_end, of_other⟩ := Option.filter_eq_some_iff.mp at_end
          exact (last s at_end (by simpa using of_other)).symm

/-- Of the last schedules that are left, each was among the last ones before, which are one more. -/
theorem rtake_of_takeSchedule? (taken : takeSchedule? id schedules = some (found, rest)) (n : Nat) :
    rest.rtake n ⊆ schedules.rtake (n + 1) := by
  obtain ⟨before, after, rfl, -, -, rfl⟩ := exists_of_takeSchedule? taken
  cases after using List.reverseRecOn with
  | nil =>
      rw [List.rtake_concat_succ]
      simp [lastToFront]
  | append_singleton middle last =>
      rw [lastToFront_concat, ← List.cons_append, ← List.append_assoc, List.rtake_concat_succ]
      -- what is left is the rest of the list with the last one in the place of the one taken
      have replaced : before ++ last :: middle =
          (before ++ found :: middle).set before.length last := by simp
      intro s member
      rw [List.rtake, replaced, List.length_set, List.drop_set] at member
      split at member
      · exact List.mem_append_left _ member
      · rcases List.mem_or_eq_of_mem_set member with stays | rfl
        · exact List.mem_append_left _ stays
        · exact List.mem_append_right _ List.mem_cons_self

theorem leftAfter_of_none (none : takeSchedule? id schedules = none) :
    leftAfter (id :: ids) schedules = leftAfter ids schedules := by
  rw [leftAfter, none]

theorem leftAfter_of_some (taken : takeSchedule? id schedules = some (found, rest)) :
    leftAfter (id :: ids) schedules = leftAfter ids rest := by
  rw [leftAfter, taken]

/-- A channel whose other schedules are not among those that are moved keeps its first one. -/
theorem KeepsItsPlace.firstFor_leftAfter (absent : id ∉ earlier)
    (keeps : KeepsItsPlace earlier id schedules) :
    firstFor (leftAfter earlier schedules) id = firstFor schedules id := by
  induction earlier generalizing schedules with
  | nil => rfl
  | cons e earlier ih =>
      rw [List.mem_cons, not_or] at absent
      obtain ⟨differ, absent⟩ := absent
      cases taken : takeSchedule? e schedules with
      | none =>
          rw [KeepsItsPlace, inRequestedOrder_of_none taken] at keeps
          rw [leftAfter_of_none taken]
          exact ih absent keeps
      | some pair =>
          obtain ⟨found, rest⟩ := pair
          rw [KeepsItsPlace, inRequestedOrder_of_some taken, List.length_cons] at keeps
          have step : firstFor rest id = firstFor schedules id := by
            refine firstFor_eq_of_takeSchedule? taken differ fun last at_end of_channel => ?_
            obtain ⟨front, rfl⟩ := List.getLast?_eq_some_iff.mp at_end
            apply keeps last _ of_channel
            rw [List.rtake_concat_succ]
            exact List.mem_append_right _ List.mem_cons_self
          rw [leftAfter_of_some taken, ← step]
          apply ih absent
          intro s moved of_channel
          rw [step]
          exact keeps s (rtake_of_takeSchedule? taken _ moved) of_channel

theorem inRequestedOrder_append : inRequestedOrder (earlier ++ later) schedules =
    inRequestedOrder earlier schedules ++ inRequestedOrder later (leftAfter earlier schedules) := by
  induction earlier generalizing schedules with
  | nil => rfl
  | cons id earlier ih =>
      rw [List.cons_append]
      cases taken : takeSchedule? id schedules with
      | none =>
          rw [inRequestedOrder_of_none taken, inRequestedOrder_of_none taken,
            leftAfter_of_none taken, ih]
      | some pair =>
          rw [inRequestedOrder_of_some taken, inRequestedOrder_of_some taken,
            leftAfter_of_some taken, ih, List.cons_append]

theorem inRequestedOrder_append_leftAfter_perm (ids : List ChannelId)
    (schedules : List ChannelSchedule) :
    (inRequestedOrder ids schedules ++ leftAfter ids schedules).Perm schedules := by
  induction ids generalizing schedules with
  | nil => exact .refl schedules
  | cons id ids ih =>
      cases taken : takeSchedule? id schedules with
      | none =>
          rw [inRequestedOrder_of_none taken, leftAfter_of_none taken]
          exact ih schedules
      | some pair =>
          rw [inRequestedOrder_of_some taken, leftAfter_of_some taken, List.cons_append]
          exact ((ih pair.2).cons pair.1).trans (takeSchedule?_perm taken)

/-- For a channel of the request, the first of its schedules is taken among what is left when its
turn comes. -/
theorem mem_inRequestedOrder_iff (distinct : (earlier ++ id :: later).Nodup) :
    s ∈ inRequestedOrder (earlier ++ id :: later) schedules ∧ s.channel.id = id ↔
      firstFor (leftAfter earlier schedules) id = some s := by
  obtain ⟨distinct_earlier, distinct_rest, apart⟩ := List.nodup_append.mp distinct
  obtain ⟨once, distinct_later⟩ := List.nodup_cons.mp distinct_rest
  have not_earlier : s.channel.id = id → s ∉ inRequestedOrder earlier schedules := by
    rintro rfl member
    exact apart _ (channel_mem_of_mem_inRequestedOrder distinct_earlier member) _
      List.mem_cons_self rfl
  have not_later (left : List ChannelSchedule) : s.channel.id = id →
      s ∉ inRequestedOrder later left := by
    rintro rfl member
    exact once (channel_mem_of_mem_inRequestedOrder distinct_later member)
  rw [inRequestedOrder_append, List.mem_append]
  cases taken : takeSchedule? id (leftAfter earlier schedules) with
  | none =>
      rw [inRequestedOrder_of_none taken, firstFor_eq_none_iff.mpr (takeSchedule?_eq_none.mp taken)]
      simp only [reduceCtorEq, iff_false]
      rintro ⟨member | member, here⟩
      · exact not_earlier here member
      · exact not_later _ here member
  | some pair =>
      have first := firstFor_of_takeSchedule?_self taken
      rw [inRequestedOrder_of_some taken, first, Option.some.injEq]
      constructor
      · rintro ⟨member | member, here⟩
        · exact absurd member (not_earlier here)
        · rcases List.mem_cons.mp member with rfl | member
          · rfl
          · exact absurd member (not_later _ here)
      · rintro rfl
        exact ⟨.inr List.mem_cons_self, channel_of_firstFor first⟩

end Taking

namespace Query
variable {q one : Query} {id : ChannelId} {schedules : List ChannelSchedule} {s : ChannelSchedule}

/-- The channels that are asked for before this one. -/
def earlierThan (q : Query) (id : ChannelId) : List ChannelId :=
  q.requestedIds.takeWhile fun other => other ≠ id

/-- When the turn of the channel comes, another schedule comes first for it than did in the list as
given. -/
def Overtaken (q : Query) (id : ChannelId) (schedules : List ChannelSchedule) : Prop :=
  firstFor (leftAfter (q.earlierThan id) schedules) id ≠ firstFor schedules id

instance (q : Query) (id : ChannelId) (schedules : List ChannelSchedule) :
    Decidable (q.Overtaken id schedules) := inferInstanceAs (Decidable (_ ≠ _))

/-- What the query makes of the schedules of an answer. -/
def resultOf (q : Query) (schedules : List ChannelSchedule) : Except AnswerFault QueryResult :=
  q.result (inRequestedOrder q.requestedIds schedules)

theorem exists_requestedIds_eq (requested : id ∈ q.requestedIds) :
    ∃ later, q.requestedIds = q.earlierThan id ++ id :: later := by
  obtain ⟨earlier, later, split, absent⟩ := List.eq_append_cons_of_mem requested
  have others : ∀ other ∈ earlier, decide (other ≠ id) = true :=
    fun other member => decide_eq_true fun same => absent (same ▸ member)
  refine ⟨later, ?_⟩
  rw [earlierThan, split, List.takeWhile_append_of_pos others, List.takeWhile_cons_of_neg (by simp),
    List.append_nil]

theorem not_mem_earlierThan : id ∉ q.earlierThan id := by
  intro earlier
  simpa using List.mem_takeWhile_imp earlier

theorem mem_inRequestedOrder_iff_firstFor (requested : id ∈ q.requestedIds) :
    s ∈ inRequestedOrder q.requestedIds schedules ∧ s.channel.id = id ↔
      firstFor (leftAfter (q.earlierThan id) schedules) id = some s := by
  obtain ⟨later, split⟩ := exists_requestedIds_eq requested
  have distinct := q.requestedIds_nodup
  rw [split] at distinct
  rw [split]
  exact mem_inRequestedOrder_iff distinct

theorem channelIds_filterMap_firstFor (ids : List ChannelId) (schedules : List ChannelSchedule) :
    channelIds (ids.filterMap (firstFor schedules)) =
      ids.filter fun id => id ∈ channelIds schedules := by
  induction ids with
  | nil => rfl
  | cons id ids ih =>
      cases first : firstFor schedules id with
      | none =>
          rw [List.filterMap_cons_none first, ih, List.filter_cons_of_neg]
          simpa using firstFor_eq_none_iff.mp first
      | some s =>
          rw [List.filterMap_cons_some first, channelIds, List.map_cons, ← channelIds, ih,
            channel_of_firstFor first, List.filter_cons_of_pos]
          simpa using exists_firstFor_iff.mp ⟨s, first⟩

/-- Exactly if no channel is overtaken, the schedules that are taken are the first ones in the list
as given. -/
theorem inRequestedOrder_eq_firstFor_iff (q : Query) (schedules : List ChannelSchedule) :
    inRequestedOrder q.requestedIds schedules = q.requestedIds.filterMap (firstFor schedules) ↔
      ∀ id ∈ q.requestedIds, ¬ q.Overtaken id schedules := by
  have order : channelIds (inRequestedOrder q.requestedIds schedules) =
      channelIds (q.requestedIds.filterMap (firstFor schedules)) := by
    rw [channelIds_inRequestedOrder q.requestedIds_nodup, channelIds_filterMap_firstFor]
  constructor
  · intro same id requested
    apply not_not_intro
    apply Option.ext
    intro s
    rw [← mem_inRequestedOrder_iff_firstFor requested, same, List.mem_filterMap]
    constructor
    · rintro ⟨⟨other, -, first⟩, here⟩
      rwa [← here, channel_of_firstFor first]
    · exact fun first => ⟨⟨id, requested, first⟩, channel_of_firstFor first⟩
  · intro never
    refine eq_of_map_eq (fun s hs t ht alike => ?_) order
    obtain ⟨id, requested, first⟩ := List.mem_filterMap.mp ht
    have here : s.channel.id = id := alike.trans (channel_of_firstFor first)
    have taken := (mem_inRequestedOrder_iff_firstFor requested).mp ⟨hs, here⟩
    rw [not_not.mp (never id requested), first] at taken
    exact (Option.some.inj taken).symm

/-- A query for one channel gets its first schedule. -/
theorem resultOf_single (alone : one.scope = .single id) :
    one.resultOf schedules = .ok (.single s) ↔ firstFor schedules id = some s := by
  have requested : one.requestedIds = [id] := by
    rw [requestedIds, alone]
    rfl
  rw [resultOf, result, alone, requested]
  cases taken : takeSchedule? id schedules with
  | none =>
      rw [inRequestedOrder_of_none taken, firstFor_eq_none_iff.mpr (takeSchedule?_eq_none.mp taken)]
      simp [inRequestedOrder]
  | some pair =>
      rw [inRequestedOrder_of_some taken, firstFor_of_takeSchedule?_self taken]
      simp

end Query

/-- For each requested channel that was answered, in the order of the request, one schedule is
taken, and nothing else. It is the first one in the list as given, if none of the channel's other
schedules stands among the last, as many as are taken before its turn; and it is exactly if the
channel is not overtaken. A query for one channel always gets the first schedule, so a query for
several gets the same one exactly then. -/
theorem first_taken_if_place_kept (q : Query) (schedules : List ChannelSchedule) :
    let taken := inRequestedOrder q.requestedIds schedules
    (channelIds taken = q.requestedAmong (channelIds schedules) ∧
      ∃ left, (taken ++ left).Perm schedules) ∧
    (∀ id ∈ q.requestedIds, KeepsItsPlace (q.earlierThan id) id schedules →
      ∀ s, s ∈ taken ∧ s.channel.id = id ↔ firstFor schedules id = some s) ∧
    ((∀ id ∈ q.requestedIds, KeepsItsPlace (q.earlierThan id) id schedules) →
      taken = q.requestedIds.filterMap (firstFor schedules)) ∧
    (taken = q.requestedIds.filterMap (firstFor schedules) ↔
      ∀ id ∈ q.requestedIds, ¬ q.Overtaken id schedules) ∧
    (∀ id ∈ q.requestedIds, KeepsItsPlace (q.earlierThan id) id schedules →
      ¬ q.Overtaken id schedules) ∧
    ∀ (one : Query) (id : ChannelId), one.scope = .single id → ∀ s,
      (one.resultOf schedules = .ok (.single s) ↔ firstFor schedules id = some s) ∧
      (id ∈ q.requestedIds → q.scope.isMultiChannel = true →
        one.resultOf schedules = .ok (.single s) →
        ((∃ list, q.resultOf schedules = .ok (.list list) ∧ s ∈ list) ↔
          ¬ q.Overtaken id schedules)) := by
  intro taken
  have not_overtaken (id : ChannelId) (keeps : KeepsItsPlace (q.earlierThan id) id schedules) :
      ¬ q.Overtaken id schedules :=
    not_not_intro (keeps.firstFor_leftAfter Query.not_mem_earlierThan)
  have first_iff := q.inRequestedOrder_eq_firstFor_iff schedules
  refine ⟨⟨channelIds_inRequestedOrder q.requestedIds_nodup schedules, leftAfter q.requestedIds
    schedules, inRequestedOrder_append_leftAfter_perm q.requestedIds schedules⟩,
    fun id requested keeps s => ?_, fun keep => ?_, first_iff, fun id _ => not_overtaken id,
    fun one id alone s => ?_⟩
  · rw [Query.mem_inRequestedOrder_iff_firstFor requested,
      keeps.firstFor_leftAfter Query.not_mem_earlierThan]
  · exact first_iff.mpr fun id requested => not_overtaken id (keep id requested)
  · refine ⟨Query.resultOf_single alone, fun requested several first => ?_⟩
    have first := (Query.resultOf_single alone).mp first
    have in_list : (∃ list, q.resultOf schedules = .ok (.list list) ∧ s ∈ list) ↔ s ∈ taken := by
      rw [Query.resultOf, Query.result_of_several several]
      simp [taken]
    have here := channel_of_firstFor first
    rw [in_list, ← and_iff_left (a := s ∈ taken) here,
      Query.mem_inRequestedOrder_iff_firstFor requested, Query.Overtaken, not_not, first]

/-- Two schedules for the second channel, which is asked for last. Of those at the end of the list
one is moved, and it is for a ninth channel. -/
theorem first_taken_if_place_kept_repeated :
    let q := Sample.overlaidMorning ⟨⟨[Sample.pa], false⟩, false⟩
    let schedules := [Sample.untilNoon 2, Sample.untilTen 2, Sample.untilNoon 1, Sample.untilNoon 9]
    (∀ id ∈ q.requestedIds, KeepsItsPlace (q.earlierThan id) id schedules) ∧
      inRequestedOrder q.requestedIds schedules = [Sample.untilNoon 1, Sample.untilNoon 2] := by
  intro q schedules
  have keep : ∀ id ∈ q.requestedIds, KeepsItsPlace (q.earlierThan id) id schedules := by decide
  obtain ⟨-, -, first, -⟩ := first_taken_if_place_kept q schedules
  refine ⟨keep, ?_⟩
  rw [first keep]
  rfl

/-- The last schedule is put in the place of the one that is taken for the first channel, before
that which was first for the second channel. A query for the second channel alone gets the other. -/
theorem last_schedule_comes_first :
    let q := Sample.overlaidMorning ⟨⟨[Sample.pa], false⟩, false⟩
    let one := { q with scope := .single ⟨2⟩, scope_acceptable := ChannelScope.acceptable_single ⟨2⟩ }
    let schedules := [Sample.untilNoon 1, Sample.untilNoon 2, Sample.untilTen 2]
    firstFor schedules ⟨2⟩ = some (Sample.untilNoon 2) ∧
      q.resultOf schedules = .ok (.list [Sample.untilNoon 1, Sample.untilTen 2]) ∧
      one.resultOf schedules = .ok (.single (Sample.untilNoon 2)) ∧
      Sample.untilTen 2 ≠ Sample.untilNoon 2 :=
  ⟨rfl, rfl, rfl, by decide⟩

end ChannelGuide
