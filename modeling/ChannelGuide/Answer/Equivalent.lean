import ChannelGuide.Answer.Steps
import ChannelGuide.Settings

/-!
Answering from slots: the schedule source offers every slot with its equivalent items, and one item
is selected for each before overrides are laid over.
-/
namespace ChannelGuide

/-- Answers with slots for some channels, a window, a publisher and the sources that may fill
them. -/
abbrev SlotSource :=
  List Channel → Window → Publisher → List Publisher → Reply ScheduleSlots

structure EquivalentExecutor where
  channels : ChannelSource
  slots : Layer → SlotSource
  selector : Selector
  channelLimit : Wait
  scheduleLimit : Wait
  longestQuery : Span

namespace EquivalentExecutor

/-- The executor that asks one source for both layers, picks by precedence and matches as the
settings say. -/
def ofSettings (channels : ChannelSource) (slots : SlotSource) (settings : Settings) :
    EquivalentExecutor where
  channels
  slots _ := slots
  selector := ⟨precedenceMerger, settings.matcher⟩
  channelLimit := settings.channelLimit
  scheduleLimit := settings.scheduleLimit
  longestQuery := settings.longestQuery

def askSlots (x : EquivalentExecutor) (q : Query) (layer : Layer) (channels : List Channel)
    (publisher : Publisher) : Run ScheduleSlots :=
  Run.ask (.slots channels q.window publisher q.selectedSources) layer.operation x.scheduleLimit
    (x.slots layer channels q.window publisher q.selectedSources)

/-- Fills the slots and puts the schedules in the order of the query. -/
def select (x : EquivalentExecutor) (q : Query) (slots : ScheduleSlots) :
    Except AnswerFault (List ChannelSchedule) := do
  let schedules ← (x.selector.selectSchedule q.context slots).mapError .inconsistentSlot
  pure (inRequestedOrder q.requestedIds schedules)

def schedules (x : EquivalentExecutor) (q : Query) (channels : List Channel) :
    Run (List ChannelSchedule) :=
  let primary := x.askSlots q .base channels q.publisher
  match q.overridePublisher with
  | none => do
    let slots ← primary
    x.select q slots
  | some publisher => do
    let (slots, overrideSlots) ←
      primary.both (x.askSlots q .override channels publisher)
    let bases ← x.select q slots
    let overrides ← x.select q overrideSlots
    q.overlayAll publisher bases overrides

def execute (x : EquivalentExecutor) (q : Query) : Run QueryResult := do
  q.checkAccess
  (q.checkDuration x.longestQuery).mapError AnswerFault.query
  let channels ← q.resolveChannels x.channels x.channelLimit
  let schedules ← x.schedules q channels
  q.result schedules

end EquivalentExecutor
end ChannelGuide
