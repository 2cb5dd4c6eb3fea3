import ChannelGuide.Answer.Equivalent
import ChannelGuide.Answer.Plain
import ChannelGuide.Proofs.Answer.Run

/-!
The route that a query takes. With either executor it is the same: who asks, and for how long, is
judged; the channels are resolved; the schedules of the publisher and of the one that is laid over
are asked for side by side; and what comes of them is prepared, laid over and returned. The
executors differ in what they ask for and in how they prepare it.
-/
namespace ChannelGuide

/-- What an executor brings to the route, if `α` is what it gets for a publisher's schedules. -/
structure Route (α : Type) where
  channels : ChannelSource
  source : Layer → List Channel → Publisher → Reply α
  call : List Channel → Publisher → Call
  prepare : Layer → α → Run (List ChannelSchedule)
  channelLimit : Wait
  scheduleLimit : Wait
  longestQuery : Span

namespace Query

/-- The publishers of which schedules are asked for. -/
def publishers (q : Query) : List Publisher := q.publisher :: q.overridePublisher.toList

/-- The publisher of which the schedules of a layer are asked for, if the query has that layer. -/
def publisherOf (q : Query) : Layer → Option Publisher
  | .base => some q.publisher
  | .override => q.overridePublisher

/-- Nothing in the query itself stands against an answer. -/
structure Admitted (q : Query) (longest : Span) : Prop where
  access : q.checkAccess = .ok ()
  duration : q.checkDuration longest = .ok ()

theorem mem_publishers {q : Query} (layer : Layer) {publisher : Publisher}
    (asked : publisher ∈ q.publisherOf layer) : publisher ∈ q.publishers := by
  cases layer with
  | base =>
      cases asked
      exact List.mem_cons_self
  | override => exact List.mem_cons_of_mem _ (Option.mem_toList.mpr asked)

end Query

namespace Route
variable {α : Type} {route : Route α} {q : Query}

def ask (route : Route α) (layer : Layer) (channels : List Channel) (publisher : Publisher) :
    Run α :=
  Run.ask (route.call channels publisher) layer.operation route.scheduleLimit
    (route.source layer channels publisher)

def schedules (route : Route α) (q : Query) (channels : List Channel) :
    Run (List ChannelSchedule) :=
  let primary := route.ask .base channels q.publisher
  match q.overridePublisher with
  | none => do
    let answer ← primary
    route.prepare .base answer
  | some publisher => do
    let (answer, upper) ← primary.both (route.ask .override channels publisher)
    let bases ← route.prepare .base answer
    let overrides ← route.prepare .override upper
    q.overlayAll publisher bases overrides

def run (route : Route α) (q : Query) : Run QueryResult := do
  q.checkAccess
  (q.checkDuration route.longestQuery).mapError AnswerFault.query
  let channels ← q.resolveChannels route.channels route.channelLimit
  let schedules ← route.schedules q channels
  q.result schedules

/-- The schedule source gives this answer for the publisher of a layer, on the channels that are
resolved. -/
def Gets (route : Route α) (q : Query) (layer : Layer) (publisher : Publisher) (answer : α) :
    Prop :=
  ∃ channels, (route.channels q.requestedIds).outcome = .ok channels ∧
    (route.source layer channels publisher).outcome = .ok answer

theorem run_of_admitted (admitted : q.Admitted route.longestQuery) :
    route.run q = (do
      let channels ← q.resolveChannels route.channels route.channelLimit
      let schedules ← route.schedules q channels
      q.result schedules) := by
  rw [run, admitted.access, admitted.duration]
  exact (Run.ofOutcome_bind _ _).trans (Run.ofOutcome_bind _ _)

theorem schedules_alone (alone : q.overridePublisher = none) (channels : List Channel) :
    route.schedules q channels =
      route.ask .base channels q.publisher >>= fun answer => route.prepare .base answer := by
  rw [schedules, alone]

theorem schedules_overridden {publisher : Publisher}
    (overridden : q.overridePublisher = some publisher) (channels : List Channel) :
    route.schedules q channels = (do
      let (answer, upper) ← (route.ask .base channels q.publisher).both
        (route.ask .override channels publisher)
      let bases ← route.prepare .base answer
      let overrides ← route.prepare .override upper
      q.overlayAll publisher bases overrides) := by
  rw [schedules, overridden]

/-- A query runs alike on routes that ask alike for its publishers, and prepare alike what comes of
it; but only if the query may be asked at all. -/
theorem run_congr {other : Route α} (longest : route.longestQuery = other.longestQuery)
    (resolved : q.resolveChannels route.channels route.channelLimit =
      q.resolveChannels other.channels other.channelLimit)
    (asked : q.checkAccess = .ok () → ∀ layer, ∀ publisher ∈ q.publisherOf layer, ∀ channels,
      route.ask layer channels publisher = other.ask layer channels publisher)
    (prepared : q.checkAccess = .ok () → ∀ layer, ∀ publisher ∈ q.publisherOf layer,
      ∀ channels answer, (route.ask layer channels publisher).outcome = .ok answer →
        route.prepare layer answer = other.prepare layer answer) :
    route.run q = other.run q := by
  rw [run, run, ← longest]
  refine Run.bind_congr rfl fun _ access => ?_
  refine Run.bind_congr rfl fun _ _ => ?_
  refine Run.bind_congr resolved fun channels _ => ?_
  refine Run.bind_congr ?_ fun _ _ => rfl
  have asked := asked access
  have prepared := prepared access
  have primary := asked .base _ rfl channels
  cases overridden : q.overridePublisher with
  | none =>
      rw [schedules_alone overridden, schedules_alone overridden]
      exact Run.bind_congr primary fun answer replied =>
        prepared .base _ rfl channels answer replied
  | some publisher =>
      have secondary := asked .override _ overridden channels
      rw [schedules_overridden overridden, schedules_overridden overridden]
      refine Run.bind_congr (by rw [primary, secondary]) ?_
      rintro ⟨answer, upper⟩ replied
      obtain ⟨replied, replied_too⟩ := Run.both_eq_ok.mp replied
      refine Run.bind_congr (prepared .base _ rfl _ _ replied) fun bases _ => ?_
      exact Run.bind_congr (prepared .override _ overridden _ _ replied_too) fun _ _ => rfl

end Route

namespace EquivalentExecutor

def route (x : EquivalentExecutor) (q : Query) : Route ScheduleSlots where
  channels := x.channels
  source layer channels publisher := x.slots layer channels q.window publisher q.selectedSources
  call channels publisher := .slots channels q.window publisher q.selectedSources
  prepare _ slots := x.select q slots
  channelLimit := x.channelLimit
  scheduleLimit := x.scheduleLimit
  longestQuery := x.longestQuery

theorem execute_eq_run (x : EquivalentExecutor) (q : Query) : x.execute q = (x.route q).run q := rfl

end EquivalentExecutor

namespace PlainExecutor

def route (x : PlainExecutor) (q : Query) (interval : Interval) : Route Schedule where
  channels := x.channels
  source layer channels publisher := x.schedules layer channels interval publisher
  call channels publisher := .schedule channels interval publisher
  prepare := x.prepare q
  channelLimit := x.channelLimit
  scheduleLimit := x.scheduleLimit
  longestQuery := x.longestQuery

theorem execute_eq_run {q : Query} {interval : Interval} (x : PlainExecutor)
    (window : q.window = .interval interval) : x.execute q = (x.route q interval).run q := by
  rw [execute, window]
  rfl

end PlainExecutor
end ChannelGuide
