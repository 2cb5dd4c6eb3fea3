import ChannelGuide.Item

/-!
Recognising a slot among an item's own broadcasts. Times may differ within given tolerances; a
broadcast in exactly the same slot is preferred to any that is only near. Finding none is no fault:
the slot then keeps its own broadcast.
-/
namespace ChannelGuide

structure BroadcastMatcher where
  startTolerance : Span
  /-- Without it ends are not compared. -/
  endTolerance : Option Span
deriving DecidableEq, Repr

namespace BroadcastMatcher

def exactStart : BroadcastMatcher := ⟨.zero, none⟩

def exactStartEnd : BroadcastMatcher := ⟨.zero, some .zero⟩

def Near (tolerance : Span) (a b : Instant) : Prop := (a.since b).magnitude ≤ tolerance

instance (tolerance : Span) (a b : Instant) : Decidable (Near tolerance a b) :=
  inferInstanceAs (Decidable (_ ≤ _))

/-- Ends are near enough, or not compared. -/
def EndsAgree (m : BroadcastMatcher) (a b : Broadcast) : Prop :=
  ∀ tolerance ∈ m.endTolerance, Near tolerance a.stop b.stop

instance (m : BroadcastMatcher) (a b : Broadcast) : Decidable (m.EndsAgree a b) :=
  match h : m.endTolerance with
  | none => .isTrue (by simp [EndsAgree, h])
  | some tolerance =>
    if near : Near tolerance a.stop b.stop then .isTrue (by simp [EndsAgree, h, near])
    else .isFalse (by simp [EndsAgree, h, near])

def Matches (m : BroadcastMatcher) (a b : Broadcast) : Prop :=
  a.channel = b.channel ∧ Near m.startTolerance a.start b.start ∧ m.EndsAgree a b

instance (m : BroadcastMatcher) (a b : Broadcast) : Decidable (m.Matches a b) :=
  inferInstanceAs (Decidable (_ ∧ _ ∧ _))

/-- The first candidate in the same slot, or else the first that matches. -/
def find? (m : BroadcastMatcher) (reference : Broadcast) (candidates : List Broadcast) :
    Option Broadcast :=
  (candidates.find? fun candidate => candidate.SameSlot reference).or
    (candidates.find? fun candidate => m.Matches reference candidate)

end BroadcastMatcher
end ChannelGuide
