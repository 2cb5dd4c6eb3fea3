import ChannelGuide.Answer.Equivalent
import ChannelGuide.Answer.Plain
import ChannelGuide.Catalogue
import ChannelGuide.Catalogue.Profile

/-!
The simulated store: a catalogue that answers as every collaborator of a query, in the manner of its
response profile.
-/
namespace ChannelGuide

structure SimulatedStore where
  catalogue : Catalogue
  profile : ResponseProfile

namespace SimulatedStore

def channelSource (store : SimulatedStore) : ChannelSource := fun ids =>
  store.profile.respond "simulated channel store" (store.catalogue.channelsFor ids)

def scheduleSource (store : SimulatedStore) : ScheduleSource := fun channels interval publisher =>
  store.profile.respond "simulated schedule store"
    (store.catalogue.scheduleFor channels interval publisher)

def slotSource (store : SimulatedStore) : SlotSource := fun channels window publisher sources =>
  store.profile.respond "simulated equivalent schedule store"
    (store.catalogue.slotsFor channels window publisher sources)

def equivalentsSource (store : SimulatedStore) : EquivalentsSource := fun ids sources =>
  store.profile.respond "simulated equivalents store" (store.catalogue.mergedFor ids sources)

/-- The store after so many calls. -/
def after (store : SimulatedStore) (calls : Nat) : SimulatedStore :=
  { store with profile := store.profile.after calls }

/-- The store when it is asked for the schedules of a layer: after the channels, and after the
layers below. -/
def forSchedules (store : SimulatedStore) (layer : Layer) : SimulatedStore :=
  store.after (1 + layer.place)

/-- The store when it is asked for the equivalents of a layer: after the schedules of both. -/
def forEquivalents (store : SimulatedStore) (layer : Layer) : SimulatedStore :=
  store.after (3 + layer.place)

/-- The executor of slots that a query of the store runs through. -/
def equivalentExecutor (store : SimulatedStore) (settings : Settings) : EquivalentExecutor :=
  { EquivalentExecutor.ofSettings store.channelSource store.slotSource settings with
    slots := fun layer => (store.forSchedules layer).slotSource }

/-- The executor of plain schedules that a query of the store runs through. -/
def plainExecutor (store : SimulatedStore) (settings : Settings) : PlainExecutor :=
  { PlainExecutor.ofSettings store.channelSource store.scheduleSource store.equivalentsSource
      settings with
    schedules := fun layer => (store.forSchedules layer).scheduleSource
    equivalents := fun layer => (store.forEquivalents layer).equivalentsSource }

def executeEquivalent (store : SimulatedStore) (settings : Settings) (q : Query) :
    Run QueryResult :=
  (store.equivalentExecutor settings).execute q

def executePlain (store : SimulatedStore) (settings : Settings) (q : Query) : Run QueryResult :=
  (store.plainExecutor settings).execute q

end SimulatedStore
end ChannelGuide
