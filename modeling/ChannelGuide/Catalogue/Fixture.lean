import ChannelGuide.Catalogue

/-!
Fixtures: the contents of a catalogue as they are written down. A fixture is accepted if no
broadcast of it ends before it starts and every item that is called equivalent is in it.
-/
namespace ChannelGuide

structure Fixture where
  channels : List Channel
  items : List Item
  equivalences : List (List ItemId)
deriving DecidableEq

inductive FixtureFault where
  | malformed
  | unknownItem (id : ItemId)
  | invertedBroadcast (id : ItemId)
deriving DecidableEq, Repr

def FixtureFault.message : FixtureFault → String
  | .malformed => "Malformed fixture"
  | .unknownItem id => s!"Equivalence set references unknown item {id.value}"
  | .invertedBroadcast id => s!"Item {id.value} has a broadcast ending before it starts"

def Item.HasInverted (item : Item) : Prop := ∃ b ∈ item.broadcasts, b.stop < b.start

instance (item : Item) : Decidable item.HasInverted :=
  inferInstanceAs (Decidable (∃ b ∈ _, _))

namespace Fixture

/-- The first thing wrong with the fixture; broadcasts are looked at before equivalences. -/
def fault? (fixture : Fixture) : Option FixtureFault :=
  match fixture.items.find? fun item => item.HasInverted with
  | some item => some (.invertedBroadcast item.id)
  | none =>
    (fixture.equivalences.flatten.find? fun id => ∀ item ∈ fixture.items, item.id ≠ id).map
      .unknownItem

def accepted (fixture : Fixture) : Except FixtureFault Fixture :=
  match fixture.fault? with
  | some fault => .error fault
  | none => .ok fixture

def broadcastCount (fixture : Fixture) : Nat :=
  (fixture.items.flatMap fun item => item.broadcasts).length

def catalogue (fixture : Fixture) : Catalogue :=
  let withChannels := fixture.channels.foldl Catalogue.addChannel .empty
  let withItems := fixture.items.foldl Catalogue.addItem withChannels
  fixture.equivalences.foldl Catalogue.addEquivalence withItems

end Fixture
end ChannelGuide
