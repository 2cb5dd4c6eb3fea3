/-!
Decimal digits as characters: fields of a fixed width, and numbers of any length. Reading here is
about digits only; signs, points and limits belong to the formats that use them.
-/
namespace ChannelGuide.Decimal

/-- The last `width` decimal digits of `n`, leading zeros kept. -/
def fixed : Nat → Nat → List Char
  | 0, _ => []
  | width + 1, n => fixed width (n / 10) ++ [Nat.digitChar (n % 10)]

def digitValue (c : Char) : Nat := c.toNat - '0'.toNat

/-- Reads exactly `width` digits after the number `before`, and returns what follows them. -/
def readFixed? : Nat → Nat → List Char → Option (Nat × List Char)
  | 0, before, rest => some (before, rest)
  | _ + 1, _, [] => none
  | width + 1, before, c :: rest =>
    if c.isDigit then readFixed? width (10 * before + digitValue c) rest else none

/-- Reads one digit at least, and no more than `most`. -/
def readShort? (most : Nat) (cs : List Char) : Option (Nat × List Char) :=
  match (cs.take most).takeWhile Char.isDigit with
  | [] => none
  | digits => some (Nat.ofDigitChars 10 digits 0, cs.drop digits.length)

def readMany? (cs : List Char) : Option (Nat × List Char) :=
  match cs.takeWhile Char.isDigit with
  | [] => none
  | digits => some (Nat.ofDigitChars 10 digits 0, cs.dropWhile Char.isDigit)

/-- A whole text of digits, with a plus sign in front if the writer liked. -/
def natural? (text : String) : Option Nat :=
  let digits := match text.toList with
    | '+' :: rest => rest
    | rest => rest
  match readMany? digits with
  | some (n, []) => some n
  | _ => none

/-- As `natural?`, or a minus sign and digits. -/
def integer? (text : String) : Option Int :=
  match text.toList with
  | '-' :: rest =>
    match readMany? rest with
    | some (n, []) => some (-n)
    | _ => none
  | _ => (natural? text).map Int.ofNat

end ChannelGuide.Decimal
