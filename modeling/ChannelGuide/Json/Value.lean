/-!
JSON values as a reader finds them: members of an object keep their order and their repetitions,
and numbers keep the difference between a whole number and a number written with a point or an
exponent. A value is not yet data of the guide; the forms of each type decide what they accept.
-/
namespace ChannelGuide.Json

/-- The characters of a string, or `none` when an escape in it names half of a surrogate pair. Such
a string may stand in a place that nobody looks at, but it has no characters to offer. -/
abbrev Text := Option String

/-- `decimal m e` is the number `m · 10 ^ e`; a whole number without point and exponent is an
`integer`, except minus zero. -/
inductive Number where
  | integer (value : Int)
  | decimal (significand : Int) (exponent : Int)
deriving DecidableEq, Repr

inductive Value where
  | null
  | bool (value : Bool)
  | number (value : Number)
  | string (text : Text)
  | array (elements : List Value)
  | object (members : List (Text × Value))

namespace Value

def text (s : String) : Value := .string (some s)

def nat (n : Nat) : Value := .number (.integer n)

def int (n : Int) : Value := .number (.integer n)

def record (members : List (String × Value)) : Value :=
  .object (members.map fun (key, value) => (some key, value))

def list (form : α → Value) (xs : List α) : Value := .array (xs.map form)

/-- A value, or `null` in place of nothing. -/
def optional (form : α → Value) : Option α → Value
  | none => .null
  | some x => form x

end Value
end ChannelGuide.Json
