import ChannelGuide.Answer.Steps
import ChannelGuide.Register
import ChannelGuide.Settings

/-!
Answering from plain schedules: the schedule source offers one item for each slot. When equivalents
are to be merged, a second source is asked for what each item merges into; the slots themselves stay
as they are.
-/
namespace ChannelGuide

/-- Answers with schedules for some channels, an interval and a publisher. -/
abbrev ScheduleSource := List Channel → Interval → Publisher → Reply Schedule

/-- What each item merges into; nothing for an item that the source does not know. -/
abbrev MergedItems := ItemId → List Item

abbrev EquivalentsSource := List ItemId → SourcePrecedence → Reply MergedItems

structure PlainExecutor where
  channels : ChannelSource
  schedules : Layer → ScheduleSource
  equivalents : Layer → EquivalentsSource
  channelLimit : Wait
  scheduleLimit : Wait
  longestQuery : Span

abbrev IdSet := Register ItemId.value

def scheduledIds (schedules : List ChannelSchedule) : IdSet :=
  .ofList (schedules.flatMap fun s => s.entries.map fun e => e.item.id)

/-- The item with its broadcasts in the slot, or with the slot's own if it has none there. -/
def Item.restrictedTo (item : Item) (slot : Broadcast) : Item :=
  match item.broadcasts.filter fun own => own.SameSlot slot with
  | [] => { item with broadcasts := [slot] }
  | own => { item with broadcasts := own }

/-- The entry with what its item merges into; its broadcast stays. -/
def Entry.merged (merged : MergedItems) (e : Entry) : Entry :=
  ⟨((merged e.item.id).head?.getD e.item).restrictedTo e.broadcast, e.broadcast⟩

def ChannelSchedule.merged (merged : MergedItems) (s : ChannelSchedule) : ChannelSchedule :=
  { s with entries := s.entries.map (Entry.merged merged) }

namespace PlainExecutor

/-- The executor that asks the same sources for both layers. -/
def ofSettings (channels : ChannelSource) (schedules : ScheduleSource)
    (equivalents : EquivalentsSource) (settings : Settings) : PlainExecutor where
  channels
  schedules _ := schedules
  equivalents _ := equivalents
  channelLimit := settings.channelLimit
  scheduleLimit := settings.scheduleLimit
  longestQuery := settings.longestQuery

def askSchedule (x : PlainExecutor) (layer : Layer) (channels : List Channel)
    (interval : Interval) (publisher : Publisher) : Run Schedule :=
  Run.ask (.schedule channels interval publisher) layer.operation x.scheduleLimit
    (x.schedules layer channels interval publisher)

/-- Asks once what the items of all schedules of the layer merge into; asks nothing if there are
none. -/
def mergeEquivalents (x : PlainExecutor) (q : Query) (layer : Layer)
    (schedules : List ChannelSchedule) : Run (List ChannelSchedule) :=
  match (scheduledIds schedules).entries with
  | [] => pure schedules
  | ids => do
    let merged ← Run.ask (.equivalents ids q.context.sources) .equivalents x.scheduleLimit
      (x.equivalents layer ids q.context.sources)
    pure (schedules.map (ChannelSchedule.merged merged))

/-- Puts the schedules in the order of the query and merges equivalents if the query wants it. -/
def prepare (x : PlainExecutor) (q : Query) (layer : Layer) (schedule : Schedule) :
    Run (List ChannelSchedule) :=
  let schedules := inRequestedOrder q.requestedIds schedule.channelSchedules
  if q.context.MergesEquivalents then x.mergeEquivalents q layer schedules else pure schedules

def schedulesIn (x : PlainExecutor) (q : Query) (interval : Interval) (channels : List Channel) :
    Run (List ChannelSchedule) :=
  let primary := x.askSchedule .base channels interval q.publisher
  match q.overridePublisher with
  | none => do
    let schedule ← primary
    x.prepare q .base schedule
  | some publisher => do
    let (schedule, overrideSchedule) ←
      primary.both (x.askSchedule .override channels interval publisher)
    let bases ← x.prepare q .base schedule
    let overrides ← x.prepare q .override overrideSchedule
    q.overlayAll publisher bases overrides

/-- A number of broadcasts cannot be asked of plain schedules, whoever asks. -/
def execute (x : PlainExecutor) (q : Query) : Run QueryResult :=
  match q.window with
  | .count _ _ => Run.ofOutcome (.error .countUnsupported)
  | .interval interval => do
    q.checkAccess
    (q.checkDuration x.longestQuery).mapError AnswerFault.query
    let channels ← q.resolveChannels x.channels x.channelLimit
    let schedules ← x.schedulesIn q interval channels
    q.result schedules

end PlainExecutor
end ChannelGuide
