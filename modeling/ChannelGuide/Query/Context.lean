import ChannelGuide.Channel

/-!
On whose behalf a query is asked: the publishers that may be read, best first, and whether one item
should stand for all its equivalents.
-/
namespace ChannelGuide

structure SourcePrecedence where
  /-- Publishers that may be read, the most preferred first. -/
  enabledSources : List Publisher
  precedenceEnabled : Bool
deriving DecidableEq, Repr

namespace SourcePrecedence

def ReadEnabled (sources : SourcePrecedence) (publisher : Publisher) : Prop :=
  publisher ∈ sources.enabledSources

instance (sources : SourcePrecedence) (publisher : Publisher) :
    Decidable (sources.ReadEnabled publisher) :=
  inferInstanceAs (Decidable (_ ∈ _))

def rank? (sources : SourcePrecedence) (publisher : Publisher) : Option Nat :=
  sources.enabledSources.idxOf? publisher

end SourcePrecedence

structure QueryContext where
  sources : SourcePrecedence
  nonMerged : Bool := false
deriving DecidableEq, Repr

def QueryContext.MergesEquivalents (context : QueryContext) : Prop :=
  context.sources.precedenceEnabled = true ∧ context.nonMerged = false

instance (context : QueryContext) : Decidable context.MergesEquivalents :=
  inferInstanceAs (Decidable (_ ∧ _))

end ChannelGuide
