import ChannelGuide.Text.Decimal
import ChannelGuide.Json.Value

/-!
Writing JSON text, either with no blank at all or spread over lines with an indent of two spaces.
Both forms escape only what the format demands: quotes, backslashes and control characters.
-/
namespace ChannelGuide.Json

def hexDigit (n : Nat) : Char := Nat.digitChar (n % 16)

def escapeChar (c : Char) : List Char :=
  if c = '"' then ['\\', '"']
  else if c = '\\' then ['\\', '\\']
  else if c = '\x08' then ['\\', 'b']
  else if c = '\x0c' then ['\\', 'f']
  else if c = '\n' then ['\\', 'n']
  else if c = '\r' then ['\\', 'r']
  else if c = '\t' then ['\\', 't']
  else if c.toNat < 0x20 then
    ['\\', 'u', '0', '0', hexDigit (c.toNat / 16), hexDigit (c.toNat % 16)]
  else [c]

/-- A string in quotes; one without characters to offer is written empty. -/
def quote (text : Text) : List Char :=
  '"' :: (text.getD "").toList.flatMap escapeChar ++ ['"']

def integerChars (n : Int) : List Char :=
  if n < 0 then '-' :: Nat.toDigits 10 n.natAbs else Nat.toDigits 10 n.natAbs

def Number.chars : Number → List Char
  | .integer n => integerChars n
  | .decimal significand exponent => integerChars significand ++ 'e' :: integerChars exponent

def wordChars : Bool → List Char
  | true => ['t', 'r', 'u', 'e']
  | false => ['f', 'a', 'l', 's', 'e']

mutual

def Value.compactChars : Value → List Char
  | .null => ['n', 'u', 'l', 'l']
  | .bool b => wordChars b
  | .number n => n.chars
  | .string text => quote text
  | .array elements => '[' :: compactElements elements ++ [']']
  | .object members => '\x7b' :: compactMembers members ++ ['\x7d']

def compactElements : List Value → List Char
  | [] => []
  | [v] => v.compactChars
  | v :: vs => v.compactChars ++ ',' :: compactElements vs

def compactMembers : List (Text × Value) → List Char
  | [] => []
  | [(key, v)] => quote key ++ ':' :: v.compactChars
  | (key, v) :: rest => quote key ++ ':' :: v.compactChars ++ ',' :: compactMembers rest

end

def newLine (depth : Nat) : List Char := '\n' :: List.replicate (2 * depth) ' '

mutual

/-- The value over several lines; an empty container stays on its line. -/
def Value.prettyChars (depth : Nat) : Value → List Char
  | .null => ['n', 'u', 'l', 'l']
  | .bool b => wordChars b
  | .number n => n.chars
  | .string text => quote text
  | .array [] => ['[', ']']
  | .array (v :: vs) => '[' :: prettyElements (depth + 1) (v :: vs) ++ newLine depth ++ [']']
  | .object [] => ['\x7b', '\x7d']
  | .object (m :: ms) =>
    '\x7b' :: prettyMembers (depth + 1) (m :: ms) ++ newLine depth ++ ['\x7d']

def prettyElements (depth : Nat) : List Value → List Char
  | [] => []
  | [v] => newLine depth ++ v.prettyChars depth
  | v :: vs => newLine depth ++ v.prettyChars depth ++ ',' :: prettyElements depth vs

def prettyMembers (depth : Nat) : List (Text × Value) → List Char
  | [] => []
  | [(key, v)] => newLine depth ++ quote key ++ ':' :: ' ' :: v.prettyChars depth
  | (key, v) :: rest =>
    newLine depth ++ quote key ++ ':' :: ' ' :: v.prettyChars depth ++ ',' ::
      prettyMembers depth rest

end

def Value.compact (v : Value) : String := String.ofList v.compactChars

def Value.pretty (v : Value) : String := String.ofList (v.prettyChars 0)

end ChannelGuide.Json
