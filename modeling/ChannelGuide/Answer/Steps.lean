import ChannelGuide.Answer.Run

/-!
The steps that every way of answering a query shares: who may ask, which channels there are, the
order of the answer, and the pairing of base schedules with overrides.
-/
namespace ChannelGuide

inductive QueryResult where
  | single (schedule : ChannelSchedule)
  | list (schedules : List ChannelSchedule)
deriving DecidableEq

namespace QueryResult

def schedules : QueryResult → List ChannelSchedule
  | .single schedule => [schedule]
  | .list schedules => schedules

def single? : QueryResult → Option ChannelSchedule
  | .single schedule => some schedule
  | .list _ => none

end QueryResult

abbrev ChannelSource := List ChannelId → Reply (List Channel)

/-- The layers of an answer. Each is asked for by itself, even if both are of one publisher, and
need not get the same reply to the same question. -/
inductive Layer where
  | base
  | override
deriving DecidableEq

namespace Layer

def operation : Layer → Operation
  | .base => .schedule
  | .override => .overrideSchedule

/-- How many layers lie below. -/
def place : Layer → Nat
  | .base => 0
  | .override => 1

end Layer

namespace Query

/-- Both publishers of the query must be open to the asker; the first that is not is named. -/
def checkAccess (q : Query) : Except AnswerFault Unit :=
  match (q.publisher :: q.overridePublisher.toList).find? fun publisher =>
      ¬ q.context.sources.ReadEnabled publisher with
  | some publisher => .error (.forbidden publisher)
  | none => .ok ()

/-- The publishers whose items may fill a slot. -/
def selectedSources (q : Query) : List Publisher :=
  if q.context.sources.precedenceEnabled then q.context.sources.enabledSources else [q.publisher]

/-- The channels of the query; every requested one must be among them. -/
def resolveChannels (q : Query) (source : ChannelSource) (limit : Wait) : Run (List Channel) := do
  let channels ← Run.ask (.channels q.requestedIds) .channels limit (source q.requestedIds)
  match q.requestedIds.find? fun id => ∀ channel ∈ channels, channel.id ≠ id with
  | some missing => Run.ofOutcome (.error (.channelNotFound missing))
  | none => pure channels

end Query

def lastToFront (xs : List α) : List α :=
  match xs.getLast? with
  | none => []
  | some last => last :: xs.dropLast

/-- Takes the first schedule of a channel out of a list; the last of the rest fills its place. -/
def takeSchedule? (id : ChannelId) :
    List ChannelSchedule → Option (ChannelSchedule × List ChannelSchedule)
  | [] => none
  | s :: rest =>
    if s.channel.id = id then some (s, lastToFront rest)
    else (takeSchedule? id rest).map fun (found, rest) => (found, s :: rest)

/-- For every identifier the schedule that is taken for it; schedules that nobody asked for are left
behind. -/
def inRequestedOrder : List ChannelId → List ChannelSchedule → List ChannelSchedule
  | [], _ => []
  | id :: ids, schedules =>
    match takeSchedule? id schedules with
    | none => inRequestedOrder ids schedules
    | some (found, rest) => found :: inRequestedOrder ids rest

namespace Query

/-- Lays each override over the base schedule at the same place. -/
def overlayAll (q : Query) (overridePublisher : Publisher)
    (bases overrides : List ChannelSchedule) : Except AnswerFault (List ChannelSchedule) :=
  if bases.length ≠ overrides.length then
    .error (.inconsistentMergeInput bases.length overrides.length q.requestedIds
      overridePublisher)
  else
    (bases.zip overrides).mapM fun (base, override) =>
      (base.overlaidBy override).mapError .merge

def result (q : Query) (schedules : List ChannelSchedule) : Except AnswerFault QueryResult :=
  match q.scope with
  | .single id =>
    match schedules with
    | schedule :: _ => .ok (.single schedule)
    | [] => .error (.channelNotFound id)
  | .multi _ => .ok (.list schedules)

end Query
end ChannelGuide
