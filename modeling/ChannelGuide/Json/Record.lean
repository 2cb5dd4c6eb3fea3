import ChannelGuide.Json.Value

/-!
Taking values apart. A record may be written as an object or as the list of its fields in order;
members that the record does not know are passed over, a known one may come once only. What a field
does with its value is the business of its own form.
-/
namespace ChannelGuide.Json

abbrev Fields := List (String × Value)

namespace Value

def text? : Value → Option String
  | .string text => text
  | _ => none

def bool? : Value → Option Bool
  | .bool b => some b
  | _ => none

/-- A whole number from 0 to 2 ^ 64 - 1. -/
def word? : Value → Option UInt64
  | .number (.integer n) =>
    if h : 0 ≤ n ∧ n.toNat < UInt64.size then some (UInt64.ofNatLT n.toNat h.2) else none
  | _ => none

def elements? : Value → Option (List Value)
  | .array vs => some vs
  | _ => none

def list? (form : Value → Option α) (v : Value) : Option (List α) :=
  v.elements?.bind fun vs => vs.mapM form

/-- `null` stands for nothing. -/
def optional? (form : Value → Option α) : Value → Option (Option α)
  | .null => some none
  | v => (form v).map some

/-- Keys and values of an object all of whose keys are readable. -/
def readableMembers? (members : List (Text × Value)) : Option Fields :=
  members.mapM fun (key, value) => key.map (·, value)

/-- The fields of a record whose field names are `names`. -/
def fields? (names : List String) : Value → Option Fields
  | .array vs => if vs.length ≤ names.length then some (names.zip vs) else none
  | .object members =>
    (readableMembers? members).bind fun members =>
      let known := members.filter fun (key, _) => names.contains key
      if (known.map Prod.fst).Nodup then some known else none
  | _ => none

/-- The only member of an object, which names the alternative taken. -/
def alternative? : Value → Option (String × Value)
  | .object [(some key, v)] => some (key, v)
  | _ => none

end Value

namespace Fields

def required? (fields : Fields) (name : String) (form : Value → Option α) : Option α :=
  (fields.lookup name).bind form

def defaulted? (fields : Fields) (name : String) (default : α) (form : Value → Option α) :
    Option α :=
  match fields.lookup name with
  | none => some default
  | some v => form v

end Fields
end ChannelGuide.Json
