import ChannelGuide.Item
import ChannelGuide.Query.Context

/-!
Choosing one of several equivalent items. The publishers' order of preference decides; within one
publisher the item that was asked about comes first, then the lowest number. An item of a publisher
that may not be read is only chosen when there is no other.
-/
namespace ChannelGuide

/-- Makes of equivalent items the ones to be shown. The first argument is the item that the others
are equivalent to, if there is one. -/
abbrev EquivalentsMerger := Option ItemId → List Item → SourcePrecedence → List Item

/-- The place of the item's publisher; after all places for a publisher that may not be read. -/
def Item.rank (sources : SourcePrecedence) (item : Item) : Nat :=
  (sources.rank? item.publisher).getD sources.enabledSources.length

/-- 0 for the item that was asked about and 1 for any other. -/
def Item.distance (context : Option ItemId) (item : Item) : Nat :=
  if some item.id = context then 0 else 1

/-- `a` is to be chosen over `b`. -/
def Item.Preferred (context : Option ItemId) (sources : SourcePrecedence) (a b : Item) : Prop :=
  a.rank sources < b.rank sources ∨
    a.rank sources = b.rank sources ∧
      (a.distance context < b.distance context ∨
        a.distance context = b.distance context ∧ a.id.value < b.id.value)

instance (context : Option ItemId) (sources : SourcePrecedence) (a b : Item) :
    Decidable (a.Preferred context sources b) :=
  inferInstanceAs (Decidable (_ ∨ _ ∧ (_ ∨ _ ∧ _)))

/-- The first of the items that no other is preferred to. -/
def mostPreferred? (context : Option ItemId) (sources : SourcePrecedence) :
    List Item → Option Item
  | [] => none
  | item :: rest =>
    match mostPreferred? context sources rest with
    | none => some item
    | some best => if best.Preferred context sources item then some best else some item

/-- One item for all of them: the first, or the most preferred if publishers take precedence. -/
def precedenceMerger : EquivalentsMerger := fun context items sources =>
  if sources.precedenceEnabled then (mostPreferred? context sources items).toList
  else items.head?.toList

end ChannelGuide
