import Mathlib.Data.List.Induction
import ChannelGuide.Catalogue.Sample
import ChannelGuide.Proofs.Time.Order
import ChannelGuide.Query

/-!
Which requests become queries, and what a query keeps of its request. The channels are judged before
the bound. What has been accepted is not changed by laying other publishers over the answer, so the
window of a query is the stretch that was asked for, and not one that was left empty.
-/
namespace ChannelGuide

section Distinct
variable {α : Type} [BEq α] [LawfulBEq α]

/-- One more element is kept if it has not been there before. -/
theorem eraseDups_concat (xs : List α) (x : α) :
    (xs ++ [x]).eraseDups = if x ∈ xs then xs.eraseDups else xs.eraseDups ++ [x] := by
  rw [List.eraseDups_append]
  by_cases before : x ∈ xs
  · simp [List.removeAll, before]
  · simp [List.removeAll, before, List.eraseDups_cons]

/-- What is kept stands in the order of first occurrences. -/
theorem pairwise_eraseDups (xs : List α) :
    xs.eraseDups.Pairwise fun a b => xs.idxOf a < xs.idxOf b := by
  induction xs using List.reverseRecOn with
  | nil => exact .nil
  | append_singleton xs x ih =>
      -- what is already there keeps its place
      have place {a : α} (member : a ∈ xs) : (xs ++ [x]).idxOf a = xs.idxOf a := by
        rw [List.idxOf_append, if_pos member]
      have kept : xs.eraseDups.Pairwise fun a b => (xs ++ [x]).idxOf a < (xs ++ [x]).idxOf b := by
        refine ih.imp_of_mem fun {a b} ha hb earlier => ?_
        rw [place (List.mem_eraseDups.mp ha), place (List.mem_eraseDups.mp hb)]
        exact earlier
      rw [eraseDups_concat]
      split
      · exact kept
      · next new =>
          refine List.pairwise_append.mpr ⟨kept, List.pairwise_singleton _ x, fun a ha b hb => ?_⟩
          have member := List.mem_eraseDups.mp ha
          obtain rfl := List.mem_singleton.mp hb
          rw [place member, List.idxOf_append, if_neg new]
          exact Nat.lt_add_left _ (List.idxOf_lt_length_iff.mpr member)

theorem eraseDups_append_eq_filter [DecidableEq α] (xs ys : List α) :
    (xs ++ ys).eraseDups = xs.eraseDups ++ ys.eraseDups.filter (· ∉ xs.eraseDups) := by
  induction ys using List.reverseRecOn with
  | nil => simp
  | append_singleton ys y ih =>
      rw [← List.append_assoc, eraseDups_concat, eraseDups_concat, ih]
      by_cases left : y ∈ xs
      · by_cases right : y ∈ ys
        · simp [left, right]
        · simp [left, right]
      · by_cases right : y ∈ ys
        · simp [left, right]
        · simp [left, right]

end Distinct

namespace TimeBound
variable {start : Instant} {bound : TimeBound} {fault : QueryFault}

/-- There is something to be asked for up to the bound, and not too much of it. -/
def Sensible (start : Instant) : TimeBound → Prop
  | .endsAt stop => start < stop
  | .count n => 1 ≤ n.toNat ∧ n.toNat ≤ 10

/-- Why a bound is refused. -/
inductive Refused (start : Instant) : TimeBound → QueryFault → Prop
  | inverted {stop : Instant} : stop < start →
      Refused start (.endsAt stop) (.endNotAfterStart ⟨start, stop⟩)
  | empty : Refused start (.endsAt start) .emptyWindow
  | outOfRange {n : UInt64} : ¬ (1 ≤ n.toNat ∧ n.toNat ≤ 10) →
      Refused start (.count n) (.countOutOfRange n)

theorem between_of_le {stop : Instant} (ordered : start ≤ stop) :
    Interval.between start stop = .ok ⟨start, stop, ordered⟩ := dif_pos ordered

theorem between_of_lt {stop : Instant} (inverted : stop < start) :
    Interval.between start stop = .error ⟨start, stop⟩ := dif_neg (not_le.mpr inverted)

theorem window_endsAt {stop : Instant} (ordered : start ≤ stop) :
    (endsAt stop).window start = .interval ⟨start, stop, ordered⟩ := by
  rw [window, between_of_le ordered]
  rfl

theorem check_empty (start : Instant) : (endsAt start).check start = .error .emptyWindow := by
  rw [check, between_of_le le_rfl]
  exact if_pos (decide_eq_true rfl)

theorem count_in_range_iff {n : UInt64} :
    Window.minCount ≤ n ∧ n ≤ Window.maxCount ↔ 1 ≤ n.toNat ∧ n.toNat ≤ 10 := by
  rw [UInt64.le_iff_toNat_le, UInt64.le_iff_toNat_le]
  rfl

/-- A window that was left empty is as little acceptable as any other empty one. -/
theorem acceptable_window_iff : (bound.window start).Acceptable ↔ bound.Sensible start := by
  cases bound with
  | endsAt stop =>
      rcases le_or_gt start stop with ordered | inverted
      · rw [window_endsAt ordered]
        rfl
      · rw [window, between_of_lt inverted]
        exact iff_of_false (lt_irrefl start) inverted.asymm
  | count n => exact count_in_range_iff

theorem check_eq_error_iff : bound.check start = .error fault ↔ bound.Refused start fault := by
  constructor
  · intro refused
    cases bound with
    | endsAt stop =>
        rcases lt_trichotomy stop start with inverted | rfl | ordered
        · rw [check, between_of_lt inverted] at refused
          cases refused
          exact .inverted inverted
        · cases (check_empty stop).symm.trans refused
          exact .empty
        · rw [check, between_of_le ordered.le] at refused
          simp [Interval.isEmpty, ordered.ne] at refused
    | count n =>
        rw [check] at refused
        split at refused
        · cases refused
        · next outside =>
            cases refused
            exact .outOfRange (mt count_in_range_iff.mpr outside)
  · rintro (inverted | _ | outside)
    · rw [check, between_of_lt inverted]
    · exact check_empty start
    · exact if_neg (mt count_in_range_iff.mp outside)

theorem check_eq_ok_iff : bound.check start = .ok () ↔ (bound.window start).Acceptable := by
  refine ⟨acceptable_of_check, fun acceptable => ?_⟩
  cases checked : bound.check start with
  | ok => rfl
  | error fault =>
      rw [acceptable_window_iff] at acceptable
      cases check_eq_error_iff.mp checked with
      | inverted inverted => exact absurd acceptable inverted.asymm
      | empty => exact absurd acceptable (lt_irrefl start)
      | outOfRange outside => exact absurd acceptable outside

end TimeBound

namespace Query
variable {q : Query} {publisher : Publisher} {id : ChannelId} {ids : List ChannelId}
  {start : Instant} {bound : TimeBound} {context : QueryContext} {fault : QueryFault}
  {longest : Span}

theorem build_eq_ok_iff {scope : ChannelScope} {acceptable : scope.Acceptable} :
    build scope acceptable publisher start bound context = .ok q ↔
      ∃ bounded, q = ⟨scope, publisher, none, start, bound, context, acceptable, bounded⟩ := by
  unfold build
  split
  · next fault refused =>
      simp only [reduceCtorEq, false_iff]
      rintro ⟨bounded, -⟩
      cases refused.symm.trans (TimeBound.check_eq_ok_iff.mpr bounded)
  · next fine =>
      constructor
      · rintro ⟨⟩
        exact ⟨_, rfl⟩
      · rintro ⟨-, rfl⟩
        rfl

theorem build_eq_error_iff {scope : ChannelScope} {acceptable : scope.Acceptable} :
    build scope acceptable publisher start bound context = .error fault ↔
      bound.Refused start fault := by
  rw [← TimeBound.check_eq_error_iff]
  unfold build
  split
  · next refused =>
      rw [refused]
      simp only [Except.error.injEq]
  · next fine =>
      refine iff_of_false (fun built => ?_) fun refused => ?_
      · cases built
      · cases fine.symm.trans refused

theorem single_eq_ok_iff : single publisher id start bound context = .ok q ↔ ∃ bounded,
    q = ⟨.single id, publisher, none, start, bound, context, ChannelScope.acceptable_single id,
      bounded⟩ := build_eq_ok_iff

theorem multi_of_nil : multi publisher [] start bound context = .error .noChannels := rfl

theorem ofIds_of_ne_nil (named : ids ≠ []) :
    ChannelScope.ofIds ids = .ok (.multi ids.eraseDups) := if_neg named

theorem multi_of_ne_nil (named : ids ≠ []) : multi publisher ids start bound context =
    build (.multi ids.eraseDups) (ChannelScope.acceptable_of_ofIds (ofIds_of_ne_nil named)) publisher
      start bound context := by
  unfold multi
  split
  · next fault refused => cases (ofIds_of_ne_nil named).symm.trans refused
  · next scope found =>
      cases (ofIds_of_ne_nil named).symm.trans found
      rfl

theorem multi_eq_ok_iff : multi publisher ids start bound context = .ok q ↔ ids ≠ [] ∧
    ∃ acceptable bounded, q =
      ⟨.multi ids.eraseDups, publisher, none, start, bound, context, acceptable, bounded⟩ := by
  by_cases named : ids = []
  · subst named
    simp [multi_of_nil]
  · rw [multi_of_ne_nil named, build_eq_ok_iff]
    simp [named, ChannelScope.acceptable_of_ofIds (ofIds_of_ne_nil named)]

theorem multi_eq_error_iff : multi publisher ids start bound context = .error fault ↔
    ids = [] ∧ fault = .noChannels ∨ ids ≠ [] ∧ bound.Refused start fault := by
  by_cases named : ids = []
  · subst named
    simp [multi_of_nil, eq_comm]
  · rw [multi_of_ne_nil named, build_eq_error_iff]
    simp [named]

theorem checkDuration_eq_ok_iff :
    q.checkDuration longest = .ok () ↔
      ∀ interval, q.window = .interval interval → ¬ longest < interval.duration := by
  unfold checkDuration
  cases q.window with
  | interval interval => simp
  | count start n => simp

theorem checkDuration_eq_error_iff {refusal : QueryFault} :
    q.checkDuration longest = .error refusal ↔ ∃ interval, q.window = .interval interval ∧
      longest < interval.duration ∧ refusal = .windowTooLong longest.wholeHours := by
  unfold checkDuration
  cases q.window with
  | interval interval =>
      by_cases long : longest < interval.duration
      · simp [long, eq_comm]
      · simp [long]
  | count start n => simp

/-- However many publishers have been laid over the answer, only the last of them has left a
trace. -/
theorem foldl_withOverride (q : Query) (overrides : List Publisher) :
    overrides.foldl withOverride q =
      { q with overridePublisher := overrides.getLast?.or q.overridePublisher } := by
  induction overrides generalizing q with
  | nil => rfl
  | cons override overrides ih =>
      rw [List.foldl_cons, ih, List.getLast?_cons]
      cases overrides.getLast? with
      | none => rfl
      | some last => rfl

/-- The query asks for these channels, each once and in the order in which they are first named,
from the start up to the bound. Its duration is judged by that stretch and no other. -/
structure Asks (q : Query) (ids : List ChannelId) (start : Instant) (bound : TimeBound) : Prop where
  distinct : q.requestedIds.Nodup
  named : ∀ id, id ∈ q.requestedIds ↔ id ∈ ids
  in_order : q.requestedIds.Pairwise fun a b => ids.idxOf a < ids.idxOf b
  ends : ∀ stop, bound = .endsAt stop → ∃ i, Interval.between start stop = .ok i ∧
    q.window = .interval i ∧ i.start = start ∧ i.stop = stop ∧ start < stop
  counts : ∀ n, bound = .count n → q.window = .count start n ∧ 1 ≤ n.toNat ∧ n.toNat ≤ 10
  judged : ∀ longest fault, q.checkDuration longest = .error fault ↔ ∃ stop,
    bound = .endsAt stop ∧ longest < stop.since start ∧ fault = .windowTooLong longest.wholeHours

theorem sensible (q : Query) : q.bound.Sensible q.start :=
  TimeBound.acceptable_window_iff.mp q.window_acceptable

theorem asks_of_requestedIds (requested : q.requestedIds = ids.eraseDups) :
    q.Asks ids q.start q.bound := by
  have sensible := q.sensible
  constructor
  case distinct =>
    rw [requested]
    exact nodup_eraseDups ids
  case named =>
    intro id
    rw [requested, List.mem_eraseDups]
  case in_order =>
    rw [requested]
    exact pairwise_eraseDups ids
  case ends =>
    intro stop to_end
    rw [to_end] at sensible
    have ordered : q.start ≤ stop := le_of_lt sensible
    refine ⟨_, TimeBound.between_of_le ordered, ?_, rfl, rfl, sensible⟩
    rw [window, to_end, TimeBound.window_endsAt ordered]
  case counts =>
    intro n counted
    rw [counted] at sensible
    refine ⟨?_, sensible⟩
    rw [window, counted]
    rfl
  case judged =>
    intro longest fault
    rw [checkDuration_eq_error_iff]
    cases bounded : q.bound with
    | endsAt stop =>
        rw [bounded] at sensible
        have ordered : q.start ≤ stop := le_of_lt sensible
        rw [window, bounded, TimeBound.window_endsAt ordered]
        simp [Interval.duration]
    | count n =>
        rw [window, bounded]
        simp [TimeBound.window]

/-- What a request comes to: it is refused for exactly these faults; otherwise it is a query for
what was requested, and remains one whatever is laid over the answer. -/
structure Settles (built : Except QueryFault Query) (ids : List ChannelId) (start : Instant)
    (bound : TimeBound) (Sound : Prop) (Refused : QueryFault → Prop) : Prop where
  accepted : (∃ q, built = .ok q) ↔ Sound
  refused : ∀ fault, built = .error fault ↔ Refused fault
  asks : ∀ q, built = .ok q → ∀ overrides : List Publisher,
    (overrides.foldl withOverride q).Asks ids start bound

/-- The channels that a request asks for, if it is a query. -/
def idsOf (built : Except QueryFault Query) : List ChannelId :=
  (built.toOption.map requestedIds).getD []

theorem asks_of_laidOver {built : Query} (requested : built.requestedIds = ids.eraseDups)
    (overrides : List Publisher) :
    (overrides.foldl withOverride built).Asks ids built.start built.bound := by
  rw [foldl_withOverride]
  exact asks_of_requestedIds requested

theorem single_settles : Settles (single publisher id start bound context) [id] start bound
    (bound.Sensible start) (bound.Refused start) where
  accepted := by
    simp only [single_eq_ok_iff, ← TimeBound.acceptable_window_iff]
    exact ⟨fun ⟨_, bounded, _⟩ => bounded, fun bounded => ⟨_, bounded, rfl⟩⟩
  refused _ := build_eq_error_iff
  asks q built overrides := by
    obtain ⟨bounded, rfl⟩ := single_eq_ok_iff.mp built
    exact asks_of_laidOver rfl overrides

theorem multi_settles : Settles (multi publisher ids start bound context) ids start bound
    (ids ≠ [] ∧ bound.Sensible start)
    fun fault => ids = [] ∧ fault = .noChannels ∨ ids ≠ [] ∧ bound.Refused start fault where
  accepted := by
    simp only [multi_eq_ok_iff, ← TimeBound.acceptable_window_iff]
    constructor
    · rintro ⟨_, named, _, bounded, _⟩
      exact ⟨named, bounded⟩
    · rintro ⟨named, bounded⟩
      exact ⟨_, named, ChannelScope.acceptable_of_ofIds (ofIds_of_ne_nil named), bounded, rfl⟩
  refused _ := multi_eq_error_iff
  asks q built overrides := by
    obtain ⟨-, _, _, rfl⟩ := multi_eq_ok_iff.mp built
    exact asks_of_laidOver rfl overrides

theorem idsOf_multi (sensible : bound.Sensible start) :
    idsOf (multi publisher ids start bound context) = ids.eraseDups := by
  by_cases named : ids = []
  · subst named
    rfl
  · have bounded : (bound.window start).Acceptable := TimeBound.acceptable_window_iff.mpr sensible
    have scope := ChannelScope.acceptable_of_ofIds (ofIds_of_ne_nil named)
    rw [multi_eq_ok_iff.mpr ⟨named, scope, bounded, rfl⟩]
    rfl

theorem idsOf_multi_of_not_sensible (refused : ¬ bound.Sensible start) :
    idsOf (multi publisher ids start bound context) = [] := by
  cases built : multi publisher ids start bound context with
  | ok q => exact absurd (multi_settles.accepted.mp ⟨q, built⟩).2 refused
  | error fault => rfl

end Query

/-- A request is refused for its channels or else for its bound, and whatever is not refused is a
query for what was requested. Its channels are kept one by one: those that are named further on add
those that have not been named before. -/
theorem requests_settled (publisher : Publisher) (start : Instant) (bound : TimeBound)
    (context : QueryContext) :
    let multi (ids : List ChannelId) := Query.multi publisher ids start bound context
    (∀ id, Query.Settles (Query.single publisher id start bound context) [id] start bound
      (bound.Sensible start) (bound.Refused start)) ∧
    (∀ ids, Query.Settles (multi ids) ids start bound (ids ≠ [] ∧ bound.Sensible start)
      fun fault => ids = [] ∧ fault = .noChannels ∨ ids ≠ [] ∧ bound.Refused start fault) ∧
    ∀ xs ys, Query.idsOf (multi (xs ++ ys)) =
      Query.idsOf (multi xs) ++ (Query.idsOf (multi ys)).filter (· ∉ Query.idsOf (multi xs)) := by
  intro multi
  refine ⟨fun id => Query.single_settles, fun ids => Query.multi_settles, fun xs ys => ?_⟩
  by_cases sensible : bound.Sensible start
  · simp only [multi, Query.idsOf_multi sensible]
    exact eraseDups_append_eq_filter xs ys
  · simp only [multi, Query.idsOf_multi_of_not_sensible sensible]
    rfl

/-- With a channel that is named twice, and two publishers laid over one after the other. -/
theorem requests_settled_repeated :
    let multi (ids : List ChannelId) := Query.multi Sample.pa ids (Sample.clock 9 0)
      (.endsAt (Sample.clock 12 0)) ⟨⟨[Sample.pa, Sample.ebs], false⟩, false⟩
    ∃ q, multi [⟨3⟩, ⟨1⟩, ⟨3⟩, ⟨2⟩] = .ok q ∧
      (([Sample.bbc, Sample.ebs].foldl Query.withOverride q).Asks [⟨3⟩, ⟨1⟩, ⟨3⟩, ⟨2⟩]
        (Sample.clock 9 0) (.endsAt (Sample.clock 12 0)) ∧ q.requestedIds = [⟨3⟩, ⟨1⟩, ⟨2⟩]) ∧
      multi [] = .error .noChannels := by
  intro multi
  obtain ⟨-, settles, -⟩ := requests_settled Sample.pa (Sample.clock 9 0)
    (.endsAt (Sample.clock 12 0)) ⟨⟨[Sample.pa, Sample.ebs], false⟩, false⟩
  have built : ∃ q, multi [⟨3⟩, ⟨1⟩, ⟨3⟩, ⟨2⟩] = .ok q := ⟨_, rfl⟩
  obtain ⟨q, built⟩ := built
  refine ⟨q, built, ⟨(settles _).asks q built _, ?_⟩, ((settles []).refused _).mpr (.inl ⟨rfl, rfl⟩)⟩
  cases built
  rfl

end ChannelGuide
