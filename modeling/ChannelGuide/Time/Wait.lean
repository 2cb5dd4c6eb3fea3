import ChannelGuide.Text.Decimal

/-!
Lengths of waiting, in whole milliseconds, and how a limit is put into words.
-/
namespace ChannelGuide

structure Wait where
  millis : Nat
deriving DecidableEq, Repr

namespace Wait

def zero : Wait := ⟨0⟩

def ofSeconds (seconds : Nat) : Wait := ⟨seconds * 1000⟩

instance : Add Wait := ⟨fun a b => ⟨a.millis + b.millis⟩⟩
instance : LE Wait := ⟨fun a b => a.millis ≤ b.millis⟩
instance : LT Wait := ⟨fun a b => a.millis < b.millis⟩
instance (a b : Wait) : Decidable (a ≤ b) := inferInstanceAs (Decidable (a.millis ≤ b.millis))
instance (a b : Wait) : Decidable (a < b) := inferInstanceAs (Decidable (a.millis < b.millis))
instance : Max Wait := ⟨fun a b => ⟨max a.millis b.millis⟩⟩

def wholeSeconds (w : Wait) : Nat := w.millis / 1000

/-- What `wholeSeconds` drops, in nanoseconds. -/
def remainingNanos (w : Wait) : Nat := w.millis % 1000 * 1000000

/-- Thousandths as decimals after a point, without trailing zeros. -/
def decimals (thousandths : Nat) : List Char :=
  match ((Decimal.fixed 3 thousandths).reverse.dropWhile (· = '0')).reverse with
  | [] => []
  | digits => '.' :: digits

/-- The length in the largest unit of which it holds a whole one. -/
def text (w : Wait) : String :=
  if 1000 ≤ w.millis then
    toString w.wholeSeconds ++ String.ofList (decimals (w.millis % 1000)) ++ "s"
  else if w.millis = 0 then "0ns"
  else toString w.millis ++ "ms"

end Wait
end ChannelGuide
