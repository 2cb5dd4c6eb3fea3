import ChannelGuide.Catalogue.Sample
import ChannelGuide.Proofs.Answer.AtOnce
import ChannelGuide.Proofs.Answer.Route

/-!
How long a query takes, and which fault it reports. Nothing that is wrong with the query itself
takes time. The channels are waited for first; then the schedules of both publishers, side by side,
so that the first fault among them ends the query whatever the other is still doing; and at last,
one after the other, what their items merge into. Every wait has its limit.
-/
namespace ChannelGuide

namespace Reply
variable {α : Type} {reply : Reply α} {operation : Operation} {limit : Wait}

/-- How long the reply is waited for: until it comes, or until the limit. -/
def waited (reply : Reply α) (limit : Wait) : Wait := ⟨min reply.delay.millis limit.millis⟩

theorem waited_of_le (intime : reply.delay ≤ limit) : reply.waited limit = reply.delay :=
  congrArg Wait.mk (Nat.min_eq_left intime)

theorem waited_of_lt (late : limit < reply.delay) : reply.waited limit = limit :=
  congrArg Wait.mk (Nat.min_eq_right (Nat.le_of_lt late))

theorem waited_eq_zero (at_once : reply.delay = .zero) : reply.waited limit = .zero := by
  rw [waited, at_once]
  exact congrArg Wait.mk (Nat.zero_min limit.millis)

end Reply

namespace Run
variable {α β : Type} {r : Run α} {s : Run β} {next : α → Run β} {time later : Wait}

/-- The run is over at this time, with this outcome. -/
structure EndsAt (r : Run α) (time : Wait) (outcome : Except AnswerFault α) : Prop where
  elapsed : r.elapsed = time
  outcome : r.outcome = outcome

theorem elapsed_ask {call : Call} {operation : Operation} {limit : Wait} {reply : Reply α} :
    (ask call operation limit reply).elapsed = reply.waited limit := by
  unfold ask
  split
  · next intime => exact (Reply.waited_of_le intime).symm
  · next late => exact (Reply.waited_of_lt (Nat.lt_of_not_le late)).symm

theorem endsAt_ask_of_fails {call : Call} {operation : Operation} {limit : Wait} {reply : Reply α}
    {fault : AnswerFault} (fails : reply.Fails operation limit fault) :
    (ask call operation limit reply).EndsAt (reply.waited limit) (.error fault) :=
  ⟨elapsed_ask, ask_eq_error.mpr fails⟩

theorem endsAt_ask_of_delivers {call : Call} {operation : Operation} {limit : Wait}
    {reply : Reply α} {a : α} (delivers : reply.Delivers limit a) :
    (ask call operation limit reply).EndsAt reply.delay (.ok a) :=
  ⟨elapsed_ask.trans (Reply.waited_of_le delivers.intime), ask_eq_ok.mpr delivers⟩

namespace EndsAt

theorem bind_of_error {fault : AnswerFault} (failed : r.EndsAt time (.error fault))
    (next : α → Run β) : (r >>= next).EndsAt time (.error fault) := by
  rw [Run.bind_of_error failed.outcome]
  exact ⟨failed.elapsed, rfl⟩

theorem bind_of_ok {a : α} {outcome : Except AnswerFault β} (first : r.EndsAt time (.ok a))
    (rest : (next a).EndsAt later outcome) : (r >>= next).EndsAt (time + later) outcome := by
  rw [Run.bind_of_ok first.outcome]
  exact ⟨by rw [first.elapsed, rest.elapsed], rest.outcome⟩

/-- What is made of the value at once takes no time. -/
theorem bind_at_once {a : α} {outcome : Except AnswerFault β} (first : r.EndsAt time (.ok a))
    (rest : (next a).EndsAt .zero outcome) : (r >>= next).EndsAt time outcome := by
  have ended := first.bind_of_ok rest
  rwa [Wait.add_zero] at ended

theorem bind_ofOutcome {outcome : Except AnswerFault α} (first : r.EndsAt time outcome)
    (f : α → Except AnswerFault β) :
    (r >>= fun a => ofOutcome (f a)).EndsAt time (outcome >>= f) := by
  cases outcome with
  | error fault => exact first.bind_of_error _
  | ok a => exact first.bind_at_once ⟨rfl, rfl⟩

theorem both_of_ok {a : α} {b : β} (first : r.EndsAt time (.ok a)) (second : s.EndsAt later (.ok b)) :
    (r.both s).EndsAt (max time later) (.ok (a, b)) := by
  simp only [both, first.outcome, second.outcome, first.elapsed, second.elapsed]
  exact ⟨rfl, rfl⟩

theorem both_of_first {fault : AnswerFault} (failed : r.EndsAt time (.error fault))
    (before : ∀ other, s.outcome = .error other → time ≤ s.elapsed) :
    (r.both s).EndsAt time (.error fault) := by
  cases ending : s.outcome with
  | ok b =>
      simp only [both, failed.outcome, ending, failed.elapsed]
      exact ⟨rfl, rfl⟩
  | error other =>
      have not_earlier : ¬ s.elapsed < time := Nat.not_lt_of_le (before other ending)
      simp only [both, failed.outcome, ending, failed.elapsed, not_earlier, if_false]
      exact ⟨rfl, rfl⟩

theorem both_of_second {fault : AnswerFault} (failed : s.EndsAt time (.error fault))
    (before : ∀ other, r.outcome = .error other → time < r.elapsed) :
    (r.both s).EndsAt time (.error fault) := by
  cases ending : r.outcome with
  | ok a =>
      simp only [both, failed.outcome, ending, failed.elapsed]
      exact ⟨rfl, rfl⟩
  | error other =>
      have earlier : time < r.elapsed := before other ending
      simp only [both, failed.outcome, ending, failed.elapsed, earlier, if_true]
      exact ⟨rfl, rfl⟩

end EndsAt
end Run

/-- What is wrong with a query, whoever would be asked. -/
inductive Query.Rejected (q : Query) (longest : Span) : AnswerFault → Prop
  | access {fault : AnswerFault} : q.checkAccess = .error fault → q.Rejected longest fault
  | duration {fault : QueryFault} : q.checkAccess = .ok () →
      q.checkDuration longest = .error fault → q.Rejected longest (.query fault)

namespace Query
variable {q : Query} {source : ChannelSource} {limit : Wait} {channels : List Channel}

theorem endsAt_of_fails {fault : AnswerFault}
    (fails : (source q.requestedIds).Fails .channels limit fault) :
    (q.resolveChannels source limit).EndsAt ((source q.requestedIds).waited limit) (.error fault) :=
  (Run.endsAt_ask_of_fails fails).bind_of_error _

theorem endsAt_of_missing {before after : List ChannelId} {id : ChannelId}
    (delivers : (source q.requestedIds).Delivers limit channels)
    (split : q.requestedIds = before ++ id :: after)
    (found : ∀ other ∈ before, ∃ channel ∈ channels, channel.id = other)
    (missing : ∀ channel ∈ channels, channel.id ≠ id) :
    (q.resolveChannels source limit).EndsAt (source q.requestedIds).delay
      (.error (.channelNotFound id)) := by
  have first : (q.requestedIds.find? fun id => ∀ channel ∈ channels, channel.id ≠ id) = some id := by
    rw [split, List.find?_append, List.find?_eq_none.mpr]
    · rw [Option.none_or, List.find?_cons_of_pos (by simpa using missing)]
    · intro other earlier
      simpa using found other earlier
  refine (Run.endsAt_ask_of_delivers delivers).bind_at_once ?_
  rw [first]
  exact ⟨rfl, rfl⟩

theorem endsAt_resolveChannels (delivers : (source q.requestedIds).Delivers limit channels)
    (complete : ∀ id ∈ q.requestedIds, ∃ channel ∈ channels, channel.id = id) :
    (q.resolveChannels source limit).EndsAt (source q.requestedIds).delay (.ok channels) := by
  refine (Run.endsAt_ask_of_delivers delivers).bind_at_once ?_
  rw [find?_missing_eq_none.mpr complete]
  exact ⟨rfl, rfl⟩

end Query

/-- One of the questions for schedules, which are asked side by side. -/
structure Branch (α : Type) where
  layer : Layer
  reply : Reply α

/-- The branch fails, and every other that fails does so later; or this is that of the base, and
both fail at once. -/
structure Branch.FailsFirst {α : Type} (branch : Branch α) (branches : List (Branch α))
    (limit : Wait) (fault : AnswerFault) : Prop where
  fails : branch.reply.Fails branch.layer.operation limit fault
  first : ∀ other ∈ branches, other.layer ≠ branch.layer → ∀ fault,
    other.reply.Fails other.layer.operation limit fault →
      branch.reply.waited limit < other.reply.waited limit ∨
        branch.layer = .base ∧ branch.reply.delay = .zero ∧ other.reply.delay = .zero

/-- No two branches fail at the same time, unless both do at once. -/
def Branch.FailApart {α : Type} (branches : List (Branch α)) (limit : Wait) : Prop :=
  ∀ branch ∈ branches, ∀ other ∈ branches, other.layer ≠ branch.layer → ∀ fault fault',
    branch.reply.Fails branch.layer.operation limit fault →
    other.reply.Fails other.layer.operation limit fault' →
      branch.reply.waited limit ≠ other.reply.waited limit ∨
        branch.reply.delay = .zero ∧ other.reply.delay = .zero

/-- One of two branches fails first, if any does. -/
theorem Branch.exists_failsFirst {α : Type} {base upper : Branch α} {limit : Wait}
    (of_base : base.layer = .base) (of_upper : upper.layer = .override)
    (apart : FailApart [base, upper] limit)
    (failing : ∃ branch ∈ [base, upper], ∃ fault,
      branch.reply.Fails branch.layer.operation limit fault) :
    ∃ branch ∈ [base, upper], ∃ fault, branch.FailsFirst [base, upper] limit fault := by
  have base_mem : base ∈ [base, upper] := List.mem_cons_self
  have upper_mem : upper ∈ [base, upper] := List.mem_cons_of_mem _ List.mem_cons_self
  have differ : upper.layer ≠ base.layer := by simp [of_base, of_upper]
  -- each branch has only the other to be compared with
  have base_first {fault : AnswerFault} (fails : base.reply.Fails base.layer.operation limit fault)
      (first : ∀ fault, upper.reply.Fails upper.layer.operation limit fault →
        base.reply.waited limit < upper.reply.waited limit ∨
          base.reply.delay = .zero ∧ upper.reply.delay = .zero) :
      base.FailsFirst [base, upper] limit fault := by
    refine ⟨fails, fun other member apart fault other_fails => ?_⟩
    rcases List.mem_pair.mp member with rfl | rfl
    · exact absurd rfl apart
    · exact (first fault other_fails).imp_right fun at_once => ⟨of_base, at_once⟩
  have upper_first {fault : AnswerFault}
      (fails : upper.reply.Fails upper.layer.operation limit fault)
      (first : ∀ fault, base.reply.Fails base.layer.operation limit fault →
        upper.reply.waited limit < base.reply.waited limit) :
      upper.FailsFirst [base, upper] limit fault := by
    refine ⟨fails, fun other member apart fault other_fails => ?_⟩
    rcases List.mem_pair.mp member with rfl | rfl
    · exact .inl (first fault other_fails)
    · exact absurd rfl apart
  by_cases base_fails : ∃ fault, base.reply.Fails base.layer.operation limit fault
  · obtain ⟨fault, fails⟩ := base_fails
    by_cases upper_fails : ∃ fault, upper.reply.Fails upper.layer.operation limit fault
    · obtain ⟨fault', fails'⟩ := upper_fails
      rcases apart base base_mem upper upper_mem differ _ _ fails fails' with times | at_once
      · have millis : (base.reply.waited limit).millis ≠ (upper.reply.waited limit).millis :=
          fun same => times (congrArg Wait.mk same)
        rcases Nat.lt_or_gt_of_ne millis with earlier | later
        · exact ⟨base, base_mem, fault, base_first fails fun _ _ => .inl earlier⟩
        · exact ⟨upper, upper_mem, fault', upper_first fails' fun _ _ => later⟩
      · exact ⟨base, base_mem, fault, base_first fails fun _ _ => .inr at_once⟩
    · exact ⟨base, base_mem, fault, base_first fails fun fault' fails' =>
        absurd ⟨fault', fails'⟩ upper_fails⟩
  · obtain ⟨branch, member, fault, fails⟩ := failing
    rcases List.mem_pair.mp member with rfl | rfl
    · exact absurd ⟨fault, fails⟩ base_fails
    · exact ⟨branch, member, fault, upper_first fails fun fault' fails' =>
        absurd ⟨fault', fails'⟩ base_fails⟩

namespace Route
variable {α : Type} {route : Route α} {q : Query} {channels : List Channel}

def branches (route : Route α) (q : Query) (channels : List Channel) : List (Branch α) :=
  ⟨.base, route.source .base channels q.publisher⟩ ::
    q.overridePublisher.toList.map fun publisher =>
      ⟨.override, route.source .override channels publisher⟩

/-- The query gets as far as its channels, and none of them is missing. -/
structure Resolves (route : Route α) (q : Query) (channels : List Channel) : Prop where
  admitted : q.Admitted route.longestQuery
  delivers : (route.channels q.requestedIds).Delivers route.channelLimit channels
  complete : ∀ id ∈ q.requestedIds, ∃ channel ∈ channels, channel.id = id

/-- How a run goes on that asks for the schedules of these channels at the time `start`. The branch
that fails first ends it. If none fails, what came is prepared once all of it is there: the base,
then what is laid over; and this can fail too. -/
structure BranchesOnClock (route : Route α) (q : Query) (channels : List Channel) (start : Wait)
    (r : Run QueryResult) : Prop where
  some_failing : Branch.FailApart (route.branches q channels) route.scheduleLimit →
    (∃ branch ∈ route.branches q channels, ∃ fault,
      branch.reply.Fails branch.layer.operation route.scheduleLimit fault) →
    ∃ branch ∈ route.branches q channels, ∃ fault,
      branch.FailsFirst (route.branches q channels) route.scheduleLimit fault
  failing : ∀ branch ∈ route.branches q channels, ∀ fault,
    branch.FailsFirst (route.branches q channels) route.scheduleLimit fault →
      r.EndsAt (start + branch.reply.waited route.scheduleLimit) (.error fault)
  alone : q.overridePublisher = none → ∀ answer,
    (route.source .base channels q.publisher).Delivers route.scheduleLimit answer →
    ∀ time outcome, (route.prepare .base answer).EndsAt time outcome →
      r.EndsAt (start + (route.source .base channels q.publisher).delay + time)
        (outcome >>= q.result)
  unprepared : ∀ publisher, q.overridePublisher = some publisher → ∀ answer upper,
    (route.source .base channels q.publisher).Delivers route.scheduleLimit answer →
    (route.source .override channels publisher).Delivers route.scheduleLimit upper →
    ∀ time fault, (route.prepare .base answer).EndsAt time (.error fault) →
      r.EndsAt (start + max (route.source .base channels q.publisher).delay
        (route.source .override channels publisher).delay + time) (.error fault)
  together : ∀ publisher, q.overridePublisher = some publisher → ∀ answer upper,
    (route.source .base channels q.publisher).Delivers route.scheduleLimit answer →
    (route.source .override channels publisher).Delivers route.scheduleLimit upper →
    ∀ time later bases outcome, (route.prepare .base answer).EndsAt time (.ok bases) →
    (route.prepare .override upper).EndsAt later outcome →
      r.EndsAt (start + max (route.source .base channels q.publisher).delay
        (route.source .override channels publisher).delay + time + later) (do
          let overrides ← outcome
          let schedules ← q.overlayAll publisher bases overrides
          q.result schedules)

/-- How a run of the query goes, from its start. -/
structure OnClock (route : Route α) (q : Query) (r : Run QueryResult) : Prop where
  rejected : ∀ fault, q.Rejected route.longestQuery fault → r = .ofOutcome (.error fault)
  unresolved : q.Admitted route.longestQuery → ∀ fault,
    (route.channels q.requestedIds).Fails .channels route.channelLimit fault →
      r.EndsAt ((route.channels q.requestedIds).waited route.channelLimit) (.error fault)
  missing : q.Admitted route.longestQuery → ∀ channels before id after,
    (route.channels q.requestedIds).Delivers route.channelLimit channels →
    q.requestedIds = before ++ id :: after →
    (∀ other ∈ before, ∃ channel ∈ channels, channel.id = other) →
    (∀ channel ∈ channels, channel.id ≠ id) →
      r.EndsAt (route.channels q.requestedIds).delay (.error (.channelNotFound id))
  resolved : ∀ channels, route.Resolves q channels →
    route.BranchesOnClock q channels (route.channels q.requestedIds).delay r

theorem endsAt_ask_of_fails {layer : Layer} {publisher : Publisher} {fault : AnswerFault}
    (fails : (route.source layer channels publisher).Fails layer.operation route.scheduleLimit
      fault) :
    (route.ask layer channels publisher).EndsAt
      ((route.source layer channels publisher).waited route.scheduleLimit) (.error fault) :=
  Run.endsAt_ask_of_fails fails

theorem endsAt_ask_of_delivers {layer : Layer} {publisher : Publisher} {answer : α}
    (delivers : (route.source layer channels publisher).Delivers route.scheduleLimit answer) :
    (route.ask layer channels publisher).EndsAt (route.source layer channels publisher).delay
      (.ok answer) :=
  Run.endsAt_ask_of_delivers delivers

theorem branches_alone (alone : q.overridePublisher = none) (channels : List Channel) :
    route.branches q channels = [⟨.base, route.source .base channels q.publisher⟩] := by
  simp [branches, alone]

theorem branches_overridden {publisher : Publisher}
    (overridden : q.overridePublisher = some publisher) (channels : List Channel) :
    route.branches q channels = [⟨.base, route.source .base channels q.publisher⟩,
      ⟨.override, route.source .override channels publisher⟩] := by
  simp [branches, overridden]

theorem exists_failsFirst
    (apart : Branch.FailApart (route.branches q channels) route.scheduleLimit)
    (failing : ∃ branch ∈ route.branches q channels, ∃ fault,
      branch.reply.Fails branch.layer.operation route.scheduleLimit fault) :
    ∃ branch ∈ route.branches q channels, ∃ fault,
      branch.FailsFirst (route.branches q channels) route.scheduleLimit fault := by
  cases overridden : q.overridePublisher with
  | none =>
      rw [branches_alone overridden] at failing ⊢
      obtain ⟨branch, member, fault, fails⟩ := failing
      refine ⟨branch, member, fault, fails, fun other member_too differ => absurd ?_ differ⟩
      rw [List.mem_singleton.mp member, List.mem_singleton.mp member_too]
  | some publisher =>
      rw [branches_overridden overridden] at apart failing ⊢
      exact Branch.exists_failsFirst rfl rfl apart failing

theorem schedules_of_failing {branch : Branch α} {fault : AnswerFault}
    (asked : branch ∈ route.branches q channels)
    (failing : branch.FailsFirst (route.branches q channels) route.scheduleLimit fault) :
    (route.schedules q channels).EndsAt (branch.reply.waited route.scheduleLimit) (.error fault) := by
  obtain ⟨fails, first⟩ := failing
  cases overridden : q.overridePublisher with
  | none =>
      rw [branches_alone overridden] at asked
      obtain rfl := List.mem_singleton.mp asked
      rw [schedules_alone overridden]
      exact (endsAt_ask_of_fails fails).bind_of_error _
  | some publisher =>
      rw [schedules_overridden overridden]
      refine Run.EndsAt.bind_of_error ?_ _
      rw [branches_overridden overridden] at asked first
      rcases List.mem_pair.mp asked with rfl | rfl
      · refine (endsAt_ask_of_fails fails).both_of_first fun other failed => ?_
        have later := first _ (List.mem_cons_of_mem _ List.mem_cons_self) nofun other
          (Run.ask_eq_error.mp failed)
        rw [ask, Run.elapsed_ask]
        rcases later with later | ⟨-, at_once, -⟩
        · exact Nat.le_of_lt later
        · rw [Reply.waited_eq_zero at_once]
          exact Nat.zero_le _
      · refine (endsAt_ask_of_fails fails).both_of_second fun other failed => ?_
        have later := first _ List.mem_cons_self nofun other (Run.ask_eq_error.mp failed)
        rw [ask, Run.elapsed_ask]
        exact later.resolve_right fun ⟨base, _⟩ => nomatch base

theorem schedules_of_alone {answer : α} {time : Wait}
    {outcome : Except AnswerFault (List ChannelSchedule)} (alone : q.overridePublisher = none)
    (delivers : (route.source .base channels q.publisher).Delivers route.scheduleLimit answer)
    (prepared : (route.prepare .base answer).EndsAt time outcome) :
    (route.schedules q channels).EndsAt ((route.source .base channels q.publisher).delay + time)
      outcome := by
  rw [schedules_alone alone]
  exact (endsAt_ask_of_delivers delivers).bind_of_ok prepared

section Overridden
variable {publisher : Publisher} {answer upper : α} {time later : Wait}

theorem endsAt_both
    (delivers : (route.source .base channels q.publisher).Delivers route.scheduleLimit answer)
    (delivers_too : (route.source .override channels publisher).Delivers route.scheduleLimit upper) :
    ((route.ask .base channels q.publisher).both (route.ask .override channels publisher)).EndsAt
        (max (route.source .base channels q.publisher).delay
          (route.source .override channels publisher).delay)
        (.ok (answer, upper)) :=
  (endsAt_ask_of_delivers delivers).both_of_ok (endsAt_ask_of_delivers delivers_too)

theorem schedules_of_unprepared {fault : AnswerFault}
    (overridden : q.overridePublisher = some publisher)
    (delivers : (route.source .base channels q.publisher).Delivers route.scheduleLimit answer)
    (delivers_too : (route.source .override channels publisher).Delivers route.scheduleLimit upper)
    (prepared : (route.prepare .base answer).EndsAt time (.error fault)) :
    (route.schedules q channels).EndsAt (max (route.source .base channels q.publisher).delay
      (route.source .override channels publisher).delay + time) (.error fault) := by
  rw [schedules_overridden overridden]
  exact (endsAt_both delivers delivers_too).bind_of_ok (prepared.bind_of_error _)

theorem schedules_of_together {bases : List ChannelSchedule}
    {outcome : Except AnswerFault (List ChannelSchedule)}
    (overridden : q.overridePublisher = some publisher)
    (delivers : (route.source .base channels q.publisher).Delivers route.scheduleLimit answer)
    (delivers_too : (route.source .override channels publisher).Delivers route.scheduleLimit upper)
    (prepared : (route.prepare .base answer).EndsAt time (.ok bases))
    (prepared_too : (route.prepare .override upper).EndsAt later outcome) :
    (route.schedules q channels).EndsAt (max (route.source .base channels q.publisher).delay
      (route.source .override channels publisher).delay + (time + later))
      (outcome >>= q.overlayAll publisher bases) := by
  rw [schedules_overridden overridden]
  refine (endsAt_both delivers delivers_too).bind_of_ok (prepared.bind_of_ok ?_)
  exact prepared_too.bind_ofOutcome (q.overlayAll publisher bases)

end Overridden

theorem run_of_rejected {fault : AnswerFault} (rejected : q.Rejected route.longestQuery fault) :
    route.run q = .ofOutcome (.error fault) := by
  cases rejected with
  | access refused => rw [run, refused]; rfl
  | duration access too_long => rw [run, access, too_long]; rfl

theorem run_of_unresolved {time : Wait} {fault : AnswerFault}
    (admitted : q.Admitted route.longestQuery)
    (unresolved : (q.resolveChannels route.channels route.channelLimit).EndsAt time (.error fault)) :
    (route.run q).EndsAt time (.error fault) := by
  rw [run_of_admitted admitted]
  exact unresolved.bind_of_error _

theorem run_of_schedules {time : Wait} {outcome : Except AnswerFault (List ChannelSchedule)}
    (resolves : route.Resolves q channels)
    (ended : (route.schedules q channels).EndsAt time outcome) :
    (route.run q).EndsAt ((route.channels q.requestedIds).delay + time) (outcome >>= q.result) := by
  rw [run_of_admitted resolves.admitted]
  have resolved := Query.endsAt_resolveChannels resolves.delivers resolves.complete
  exact resolved.bind_of_ok (ended.bind_ofOutcome q.result)

theorem branchesOnClock_run (resolves : route.Resolves q channels) :
    route.BranchesOnClock q channels (route.channels q.requestedIds).delay (route.run q) where
  some_failing apart failing := exists_failsFirst apart failing
  failing branch asked fault failing :=
    run_of_schedules resolves (schedules_of_failing asked failing)
  alone none answer delivers time outcome prepared := by
    have ended := run_of_schedules resolves (schedules_of_alone none delivers prepared)
    rwa [← Wait.add_assoc] at ended
  unprepared publisher overridden answer upper delivers delivers_too time fault prepared := by
    have ended := run_of_schedules resolves
      (schedules_of_unprepared overridden delivers delivers_too prepared)
    rwa [← Wait.add_assoc] at ended
  together publisher overridden answer upper delivers delivers_too time later bases outcome prepared
      prepared_too := by
    have ended := run_of_schedules resolves
      (schedules_of_together overridden delivers delivers_too prepared prepared_too)
    rwa [← Wait.add_assoc, ← Wait.add_assoc, bind_assoc] at ended

theorem onClock_run (route : Route α) (q : Query) : route.OnClock q (route.run q) where
  rejected _ rejected := run_of_rejected rejected
  unresolved admitted _ fails := run_of_unresolved admitted (Query.endsAt_of_fails fails)
  missing admitted _ _ _ _ delivers split found missing :=
    run_of_unresolved admitted (Query.endsAt_of_missing delivers split found missing)
  resolved _ resolves := branchesOnClock_run resolves

end Route

namespace PlainExecutor
variable {x : PlainExecutor} {q : Query} {layer : Layer} {schedules : List ChannelSchedule}

/-- How a run goes that prepares these schedules of the request: they are left as they are unless
equivalents are wanted and there is an item to look up. -/
structure LookupOnClock (x : PlainExecutor) (q : Query) (layer : Layer)
    (schedules : List ChannelSchedule) (r : Run (List ChannelSchedule)) : Prop where
  unmerged : ¬ q.context.MergesEquivalents → r = .ofOutcome (.ok schedules)
  bare : (∀ s ∈ schedules, s.entries = []) → r = .ofOutcome (.ok schedules)
  failing : q.context.MergesEquivalents → (∃ s ∈ schedules, s.entries ≠ []) → ∀ fault,
    (x.equivalents layer (scheduledIds schedules).entries q.context.sources).Fails .equivalents
      x.scheduleLimit fault →
    r.EndsAt ((x.equivalents layer (scheduledIds schedules).entries q.context.sources).waited
      x.scheduleLimit) (.error fault)
  merged : q.context.MergesEquivalents → (∃ s ∈ schedules, s.entries ≠ []) → ∀ merged,
    (x.equivalents layer (scheduledIds schedules).entries q.context.sources).Delivers
      x.scheduleLimit merged →
    r.EndsAt (x.equivalents layer (scheduledIds schedules).entries q.context.sources).delay
      (.ok (schedules.map (ChannelSchedule.merged merged)))

theorem scheduledIds_eq_nil :
    (scheduledIds schedules).entries = [] ↔ ∀ s ∈ schedules, s.entries = [] := by
  simp only [List.eq_nil_iff_forall_not_mem, mem_scheduledIds]
  constructor
  · intro none s member e shown
    exact none e.item.id ⟨s, member, e, shown, rfl⟩
  · rintro none id ⟨s, member, e, shown, -⟩
    exact none s member e shown

theorem mergeEquivalents_of_bare (bare : ∀ s ∈ schedules, s.entries = []) :
    x.mergeEquivalents q layer schedules = .ofOutcome (.ok schedules) := by
  rw [mergeEquivalents, scheduledIds_eq_nil.mpr bare]
  rfl

theorem mergeEquivalents_of_shown (shown : ∃ s ∈ schedules, s.entries ≠ []) :
    x.mergeEquivalents q layer schedules = (do
      let ids := (scheduledIds schedules).entries
      let merged ← Run.ask (.equivalents ids q.context.sources) .equivalents x.scheduleLimit
        (x.equivalents layer ids q.context.sources)
      pure (schedules.map (ChannelSchedule.merged merged))) := by
  unfold mergeEquivalents
  split
  · next none =>
      obtain ⟨s, member, some_entry⟩ := shown
      exact absurd (scheduledIds_eq_nil.mp none s member) some_entry
  · rfl

theorem lookupOnClock_prepare (x : PlainExecutor) (q : Query) (layer : Layer)
    (schedule : Schedule) :
    x.LookupOnClock q layer (inRequestedOrder q.requestedIds schedule.channelSchedules)
      (x.prepare q layer schedule) where
  unmerged unmerged := prepare_unmerged unmerged schedule
  bare bare := by
    by_cases merges : q.context.MergesEquivalents
    · rw [prepare_of_merging merges, mergeEquivalents_of_bare bare]
    · exact prepare_unmerged merges schedule
  failing merges shown fault fails := by
    rw [prepare_of_merging merges, mergeEquivalents_of_shown shown]
    exact (Run.endsAt_ask_of_fails fails).bind_of_error _
  merged merges shown merged delivers := by
    rw [prepare_of_merging merges, mergeEquivalents_of_shown shown]
    exact (Run.endsAt_ask_of_delivers delivers).bind_at_once ⟨rfl, rfl⟩

end PlainExecutor

/-- A query goes by the clock, whatever its collaborators do and how long they take. Through slots
nothing else takes time; through plain schedules, what the items merge into is looked up at the end,
for each publisher in turn. -/
theorem query_on_the_clock (x : EquivalentExecutor) (y : PlainExecutor) (q : Query) :
    ((x.route q).OnClock q (x.execute q) ∧
      ∀ layer slots, ((x.route q).prepare layer slots).EndsAt .zero (x.select q slots)) ∧
    (∀ start count, q.window = .count start count →
      y.execute q = .ofOutcome (.error .countUnsupported)) ∧
    ∀ interval, q.window = .interval interval → (y.route q interval).OnClock q (y.execute q) ∧
      ∀ layer schedule,
        y.LookupOnClock q layer (inRequestedOrder q.requestedIds schedule.channelSchedules)
          ((y.route q interval).prepare layer schedule) := by
  refine ⟨⟨?_, fun _ _ => ⟨rfl, rfl⟩⟩, fun start count window => ?_, fun interval window => ?_⟩
  · rw [x.execute_eq_run]
    exact Route.onClock_run _ _
  · rw [PlainExecutor.execute, window]
  · rw [y.execute_eq_run window]
    exact ⟨Route.onClock_run _ _, y.lookupOnClock_prepare q⟩

namespace Sample

/-- The listings, except that the base is refused after a second, while what is laid over it takes
half a minute. -/
def refusedBase : EquivalentExecutor :=
  let store : SimulatedStore := ⟨listings.catalogue, .instant⟩
  { store.equivalentExecutor .standard with
    slots := fun layer channels window publisher sources =>
      match layer with
      | .base => ⟨.ofSeconds 1, .error (.rejected "refused")⟩
      | .override =>
        { store.slotSource channels window publisher sources with delay := .ofSeconds 30 } }

/-- The listings, with a second for each answer. -/
def slowSchedules : PlainExecutor :=
  let store : SimulatedStore := ⟨listings.catalogue, { ResponseProfile.instant with
    delay := .ofSeconds 1 }⟩
  store.plainExecutor .standard

end Sample

/-- A refusal does not wait for the other schedule. Questions that are asked side by side take as long
as one, lookups one after the other. -/
theorem query_on_the_clock_refused :
    let q := Sample.overlaidMorning ⟨⟨[Sample.pa, Sample.ebs], true⟩, false⟩
    (Sample.refusedBase.execute q).EndsAt (.ofSeconds 1)
      (.error (.resolver (.rejected "refused"))) ∧
    (Sample.slowSchedules.execute q).elapsed = .ofSeconds 4 := by
  intro q
  obtain ⟨⟨of_slots, -⟩, -, of_schedules⟩ :=
    query_on_the_clock Sample.refusedBase Sample.slowSchedules q
  obtain ⟨of_schedules, lookup⟩ := of_schedules _ rfl
  have refused := of_slots.resolved _ ⟨⟨rfl, rfl⟩, ⟨by decide, rfl⟩, by decide⟩
  have answered := of_schedules.resolved _ ⟨⟨rfl, rfl⟩, ⟨by decide, rfl⟩, by decide⟩
  constructor
  · refine refused.failing _ List.mem_cons_self _ ⟨.refused (by decide) rfl, ?_⟩
    intro other member differ _ _
    rcases List.mem_pair.mp member with rfl | rfl
    · exact absurd rfl differ
    · exact .inl (by decide)
  · refine (answered.together Sample.ebs rfl _ _ ⟨by decide, rfl⟩ ⟨by decide, rfl⟩ _ _ _ _
      ((lookup _ _).merged (by decide) ?_ _ ⟨by decide, rfl⟩)
      ((lookup _ _).merged (by decide) ?_ _ ⟨by decide, rfl⟩)).elapsed
    · exact ⟨_, List.mem_cons_self, List.cons_ne_nil _ _⟩
    · exact ⟨_, List.mem_cons_self, List.cons_ne_nil _ _⟩

end ChannelGuide
