import ChannelGuide.Json.Reader

/-!
What a reader can hold of a value before it knows what the value is for. Passing over a value asks
nothing of it; keeping it asks for readable strings, numbers that come out as a finite double, and a
nesting of at most 127 containers.
-/
namespace ChannelGuide.Json

/-! ## Numbers

A number is kept as a double, and computed from two: its leading digits as far as 64 bits hold
them, and the power of ten that they are multiplied with. Each of the two is rounded before the
product is, so what can be kept ends near the largest double and not just there.
-/

/-- Products from here on are nearer to 2 ^ 1024 than to any double. -/
def overflowBound : Nat := Nat.pow 2 1024 - Nat.pow 2 970

/-- The double next to a number of at most 1024 bits; of two as near, the one with the even
significand. -/
def nearestDouble (n : Nat) : Nat :=
  let unit := Nat.pow 2 (n.log2 + 1 - 53)
  let below := n / unit
  let rest := n % unit
  if unit < 2 * rest || (unit == 2 * rest && below % 2 == 1) then (below + 1) * unit
  else below * unit

/-- The leading digits of a significand that 64 bits hold, with the exponent that is theirs. -/
def leadingDigits (significand : Nat) (exponent : Int) : Nat × Int :=
  if significand < UInt64.size then (significand, exponent)
  else leadingDigits (significand / 10) (exponent + 1)
termination_by significand
decreasing_by
  rename_i long
  rw [UInt64.size] at long
  omega

theorem leadingDigits_of_lt {significand : Nat} (h : significand < UInt64.size) (exponent : Int) :
    leadingDigits significand exponent = (significand, exponent) := by
  rw [leadingDigits, if_pos h]

/-- The largest power of ten that is near a double. -/
def largestPower : Nat := 308

/-- The double that is computed for `significand` times ten to the `exponent` is finite. Only a
product can be too large: the leading digits themselves are not. -/
def finiteDouble (significand : Nat) (exponent : Int) : Bool :=
  let (digits, power) := leadingDigits significand exponent
  digits = 0 || power ≤ 0 || (power ≤ largestPower &&
    nearestDouble digits * nearestDouble (Nat.pow 10 power.toNat) < overflowBound)

theorem finiteDouble_of_lt {n : Nat} (h : n < UInt64.size) : finiteDouble n 0 = true := by
  simp [finiteDouble, leadingDigits_of_lt h]

def Number.isStorable : Number → Bool
  | .integer n => finiteDouble n.natAbs 0
  | .decimal significand exponent => finiteDouble significand.natAbs exponent

/-! ## Values -/

mutual

/-- The value can be kept where `room` containers may still open. -/
def Value.isStorable (room : Nat) : Value → Bool
  | .null => true
  | .bool _ => true
  | .number n => n.isStorable
  | .string text => text.isSome
  | .array elements =>
    match room with
    | 0 => false
    | room + 1 => elementsStorable room elements
  | .object members =>
    match room with
    | 0 => false
    | room + 1 => membersStorable room members

def elementsStorable (room : Nat) : List Value → Bool
  | [] => true
  | v :: vs => v.isStorable room && elementsStorable room vs

def membersStorable (room : Nat) : List (Text × Value) → Bool
  | [] => true
  | (key, v) :: rest => key.isSome && v.isStorable room && membersStorable room rest

end

/-- Containers that may be open at once in a kept value. -/
def storageDepth : Nat := 127

mutual

/-- The value as a store of unique keys keeps it: of members with one key, the last. -/
def Value.lastMembers : Value → Value
  | .array elements => .array (lastMembersOfElements elements)
  | .object members => .object (lastMembersOf members)
  | v => v

def lastMembersOfElements : List Value → List Value
  | [] => []
  | v :: vs => v.lastMembers :: lastMembersOfElements vs

def lastMembersOf : List (Text × Value) → List (Text × Value)
  | [] => []
  | (key, v) :: rest =>
    if (rest.map Prod.fst).contains key then lastMembersOf rest
    else (key, v.lastMembers) :: lastMembersOf rest

end

/-- A text kept as a value, unless it is no JSON or cannot be kept. -/
def Value.store? (text : String) : Option Value :=
  (Value.ofText? text).bind fun v => if v.isStorable storageDepth then some v.lastMembers else none

end ChannelGuide.Json
