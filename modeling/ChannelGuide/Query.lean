import ChannelGuide.Interval
import ChannelGuide.Query.Context

/-!
Schedule queries. A query asks for one channel or for several, up to an end or for a number of
broadcasts; a `Query` exists only for requests that make sense, so its window is never empty and its
channels are never repeated.
-/
namespace ChannelGuide

inductive ChannelScope where
  | single (id : ChannelId)
  | multi (ids : List ChannelId)
deriving DecidableEq, Repr

namespace ChannelScope

def requestedIds : ChannelScope → List ChannelId
  | .single id => [id]
  | .multi ids => ids

def isMultiChannel : ChannelScope → Bool
  | .single _ => false
  | .multi _ => true

end ChannelScope

inductive TimeBound where
  | endsAt (t : Instant)
  | count (n : UInt64)
deriving DecidableEq

/-- The stretch that a query covers: an interval, or a number of broadcasts from a start. -/
inductive Window where
  | interval (i : Interval)
  | count (start : Instant) (n : UInt64)
deriving DecidableEq

namespace Window

def start : Window → Instant
  | .interval i => i.start
  | .count start _ => start

def bound : Window → TimeBound
  | .interval i => .endsAt i.stop
  | .count _ n => .count n

def minCount : UInt64 := 1

def maxCount : UInt64 := 10

/-- Not empty, and of a number of broadcasts that may be asked for. -/
def Acceptable : Window → Prop
  | .interval i => i.start < i.stop
  | .count _ n => minCount ≤ n ∧ n ≤ maxCount

instance : (w : Window) → Decidable w.Acceptable
  | .interval i => inferInstanceAs (Decidable (i.start < i.stop))
  | .count _ n => inferInstanceAs (Decidable (minCount ≤ n ∧ n ≤ maxCount))

end Window

/-- Why a request is no query, or a query not one to be answered. -/
inductive QueryFault where
  | noChannels
  | endNotAfterStart (cause : InvertedInterval)
  | emptyWindow
  | countOutOfRange (count : UInt64)
  | windowTooLong (maxHours : Int)
deriving DecidableEq

def QueryFault.message : QueryFault → String
  | .noChannels => "Multi-channel query needs at least one channel id"
  | .endNotAfterStart _ => "Query end must be after start"
  | .emptyWindow => "Query start and end are identical"
  | .countOutOfRange count =>
    s!"'count' must be between {Window.minCount} and {Window.maxCount}, was {count}"
  | .windowTooLong maxHours => s!"Query interval cannot be longer than {maxHours} hours"

def QueryFault.cause? : QueryFault → Option String
  | .endNotAfterStart cause => some cause.message
  | _ => none

/-- Several channels, each asked for once, in the order in which they are first named. -/
def ChannelScope.ofIds (ids : List ChannelId) : Except QueryFault ChannelScope :=
  if ids = [] then .error .noChannels else .ok (.multi ids.eraseDups)

/-- Some channel is asked for, and none twice. -/
def ChannelScope.Acceptable (scope : ChannelScope) : Prop :=
  scope.requestedIds ≠ [] ∧ scope.requestedIds.Nodup

theorem nodup_eraseDups [BEq α] [LawfulBEq α] (xs : List α) : xs.eraseDups.Nodup := by
  induction h : xs.length using Nat.strongRecOn generalizing xs with
  | _ n ih =>
    cases xs with
    | nil => simp
    | cons x xs =>
      rw [List.eraseDups_cons, List.nodup_cons]
      refine ⟨by simp, ih _ ?_ _ rfl⟩
      have := List.length_filter_le (fun b => !b == x) xs
      simp only [List.length_cons] at h
      omega

theorem ChannelScope.acceptable_single (id : ChannelId) :
    (ChannelScope.single id).Acceptable := by
  simp [Acceptable, requestedIds]

theorem ChannelScope.acceptable_of_ofIds {ids : List ChannelId} {scope : ChannelScope}
    (h : ofIds ids = .ok scope) : scope.Acceptable := by
  unfold ofIds at h
  split at h
  · cases h
  · next hne =>
    cases h
    refine ⟨?_, nodup_eraseDups ids⟩
    cases ids with
    | nil => exact absurd rfl hne
    | cons id ids => simp [requestedIds, List.eraseDups_cons]

/-- The window from a start up to the bound, whether it makes sense or not. One that would end
before it starts is left empty. -/
def TimeBound.window (start : Instant) : TimeBound → Window
  | .endsAt stop => .interval ((Interval.between start stop).toOption.getD (.empty start))
  | .count n => .count start n

/-- Refuses a bound up to which there is nothing to be asked for. -/
def TimeBound.check (start : Instant) : TimeBound → Except QueryFault Unit
  | .endsAt stop =>
    match Interval.between start stop with
    | .error cause => .error (.endNotAfterStart cause)
    | .ok i => if i.isEmpty then .error .emptyWindow else .ok ()
  | .count n =>
    if Window.minCount ≤ n ∧ n ≤ Window.maxCount then .ok () else .error (.countOutOfRange n)

theorem TimeBound.acceptable_of_check {start : Instant} {bound : TimeBound}
    (h : bound.check start = .ok ()) : (bound.window start).Acceptable := by
  cases bound with
  | endsAt stop =>
    simp only [check] at h
    split at h
    · cases h
    · next i hi =>
      split at h
      · cases h
      · next hne =>
        have hle := i.ordered
        simp only [Interval.isEmpty, decide_eq_true_eq, Instant.ext_iff] at hne
        simp only [window, hi, Except.toOption, Option.getD_some, Window.Acceptable,
          Instant.lt_iff, Instant.le_iff] at *
        omega
  | count n =>
    simp only [check] at h
    split at h
    · next hn => exact hn
    · cases h

structure Query where
  scope : ChannelScope
  publisher : Publisher
  overridePublisher : Option Publisher
  start : Instant
  bound : TimeBound
  context : QueryContext
  scope_acceptable : scope.Acceptable
  window_acceptable : (bound.window start).Acceptable

namespace Query

def build (scope : ChannelScope) (acceptable : scope.Acceptable) (publisher : Publisher)
    (start : Instant) (bound : TimeBound) (context : QueryContext) : Except QueryFault Query :=
  match h : bound.check start with
  | .error fault => .error fault
  | .ok () =>
    .ok { scope, publisher, overridePublisher := none, start, bound, context
          scope_acceptable := acceptable
          window_acceptable := TimeBound.acceptable_of_check h }

def single (publisher : Publisher) (id : ChannelId) (start : Instant) (bound : TimeBound)
    (context : QueryContext) : Except QueryFault Query :=
  build (.single id) (ChannelScope.acceptable_single id) publisher start bound context

/-- A query for several channels; the channels are judged before the bound. -/
def multi (publisher : Publisher) (ids : List ChannelId) (start : Instant) (bound : TimeBound)
    (context : QueryContext) : Except QueryFault Query :=
  match h : ChannelScope.ofIds ids with
  | .error fault => .error fault
  | .ok scope =>
    build scope (ChannelScope.acceptable_of_ofIds h) publisher start bound context

/-- The same query with another publisher's schedule laid over the answer. -/
def withOverride (q : Query) (publisher : Publisher) : Query :=
  { q with overridePublisher := some publisher }

def requestedIds (q : Query) : List ChannelId := q.scope.requestedIds

/-- The stretch that is asked for, taken from the bound once more. -/
def window (q : Query) : Window := q.bound.window q.start

/-- Refuses windows that last longer than `longest`. -/
def checkDuration (q : Query) (longest : Span) : Except QueryFault Unit :=
  match q.window with
  | .interval i =>
    if longest < i.duration then .error (.windowTooLong longest.wholeHours) else .ok ()
  | .count _ _ => .ok ()

end Query
end ChannelGuide
