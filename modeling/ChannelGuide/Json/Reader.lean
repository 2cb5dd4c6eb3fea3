import ChannelGuide.Json.Value

/-!
Reading JSON text. The reader takes one character at a time and keeps the containers around its
place in a `Context`, so a text may nest as deep as it likes. It accepts exactly the grammar of the
format: no byte order mark, no comment, no trailing comma, nothing but blanks around the value.
-/
namespace ChannelGuide.Json

/-! ## Numbers -/

/-- How much of a number has been read; a number may end in `zero`, `whole`, `fraction` and
`exponent`. -/
inductive NumberPhase where
  | sign
  | zero
  | whole
  | point
  | fraction
  | mark
  | markSign
  | exponent
deriving DecidableEq, Repr

structure NumberState where
  phase : NumberPhase
  negative : Bool
  significand : Nat
  /-- Digits read after the point. -/
  decimals : Nat
  exponentNegative : Bool
  exponent : Nat
deriving DecidableEq, Repr

namespace NumberState

def digitValue (c : Char) : Nat := c.toNat - '0'.toNat

def start? (c : Char) : Option NumberState :=
  if c = '-' then some ⟨.sign, true, 0, 0, false, 0⟩
  else if c = '0' then some ⟨.zero, false, 0, 0, false, 0⟩
  else if c.isDigit then some ⟨.whole, false, digitValue c, 0, false, 0⟩
  else none

def addDigit (s : NumberState) (c : Char) : NumberState :=
  { s with significand := 10 * s.significand + digitValue c }

def addDecimal (s : NumberState) (c : Char) : NumberState :=
  { s.addDigit c with phase := .fraction, decimals := s.decimals + 1 }

def addExponent (s : NumberState) (c : Char) : NumberState :=
  { s with phase := .exponent, exponent := 10 * s.exponent + digitValue c }

def afterWhole? (s : NumberState) (c : Char) : Option NumberState :=
  if c = '.' then some { s with phase := .point }
  else if c = 'e' ∨ c = 'E' then some { s with phase := .mark }
  else none

/-- The state after one more character, if the number goes on with it. -/
def step? (s : NumberState) (c : Char) : Option NumberState :=
  match s.phase with
  | .sign =>
    if c = '0' then some { s with phase := .zero }
    else if c.isDigit then some { s.addDigit c with phase := .whole }
    else none
  | .zero => s.afterWhole? c
  | .whole => if c.isDigit then some (s.addDigit c) else s.afterWhole? c
  | .point => if c.isDigit then some (s.addDecimal c) else none
  | .fraction =>
    if c.isDigit then some (s.addDecimal c)
    else if c = 'e' ∨ c = 'E' then some { s with phase := .mark }
    else none
  | .mark =>
    if c = '+' then some { s with phase := .markSign }
    else if c = '-' then some { s with phase := .markSign, exponentNegative := true }
    else if c.isDigit then some (s.addExponent c)
    else none
  | .markSign => if c.isDigit then some (s.addExponent c) else none
  | .exponent => if c.isDigit then some (s.addExponent c) else none

def signed (negative : Bool) (n : Nat) : Int := if negative then -n else n

def finish? (s : NumberState) : Option Number :=
  let significand := signed s.negative s.significand
  match s.phase with
  | .zero => some (if s.negative then .decimal 0 0 else .integer 0)
  | .whole => some (.integer significand)
  | .fraction => some (.decimal significand (-s.decimals))
  | .exponent =>
    some (.decimal significand (signed s.exponentNegative s.exponent - s.decimals))
  | _ => none

end NumberState

/-! ## Strings -/

inductive TextPhase where
  | plain
  | escape
  /-- Inside `\u`: the digits still to come, and the number so far. -/
  | unit (left : Nat) (value : Nat)
deriving DecidableEq, Repr

structure TextState where
  phase : TextPhase
  /-- Characters read, the last one first. -/
  chars : List Char
  /-- A leading surrogate that waits for its partner. -/
  leading : Option Nat
  /-- Some surrogate had no partner. -/
  broken : Bool
deriving DecidableEq, Repr

namespace TextState

def start : TextState := ⟨.plain, [], none, false⟩

/-- Adds a character that is no surrogate; one that waited for its partner waited in vain. -/
def push (s : TextState) (c : Char) : TextState :=
  { phase := .plain, chars := c :: s.chars, leading := none
    broken := s.broken || s.leading.isSome }

def isLeading (unit : Nat) : Bool := 0xD800 ≤ unit && unit < 0xDC00

def isTrailing (unit : Nat) : Bool := 0xDC00 ≤ unit && unit < 0xE000

/-- Adds the code unit of a `\u` escape. -/
def pushUnit (s : TextState) (unit : Nat) : TextState :=
  if isLeading unit then
    { s with phase := .plain, leading := some unit, broken := s.broken || s.leading.isSome }
  else if isTrailing unit then
    match s.leading with
    | some lead =>
      let c := Char.ofNat (0x10000 + (lead - 0xD800) * 0x400 + (unit - 0xDC00))
      { s with phase := .plain, chars := c :: s.chars, leading := none }
    | none => { s with phase := .plain, broken := true }
  else s.push (Char.ofNat unit)

def hexValue? (c : Char) : Option Nat :=
  if '0' ≤ c ∧ c ≤ '9' then some (c.toNat - '0'.toNat)
  else if 'a' ≤ c ∧ c ≤ 'f' then some (c.toNat - 'a'.toNat + 10)
  else if 'A' ≤ c ∧ c ≤ 'F' then some (c.toNat - 'A'.toNat + 10)
  else none

def escaped? : Char → Option Char
  | '"' => some '"'
  | '\\' => some '\\'
  | '/' => some '/'
  | 'b' => some '\x08'
  | 'f' => some '\x0c'
  | 'n' => some '\n'
  | 'r' => some '\r'
  | 't' => some '\t'
  | _ => none

def finish (s : TextState) : Text :=
  if s.broken || s.leading.isSome then none else some (String.ofList s.chars.reverse)

/-- What one more character makes of a string that is still open. -/
inductive Step where
  | more (s : TextState)
  | closed (text : Text)

def step? (s : TextState) (c : Char) : Option Step :=
  match s.phase with
  | .plain =>
    if c = '"' then some (.closed s.finish)
    else if c = '\\' then some (.more { s with phase := .escape })
    else if c.toNat < 0x20 then none
    else some (.more (s.push c))
  | .escape =>
    if c = 'u' then some (.more { s with phase := .unit 4 0 })
    else (escaped? c).map fun c => .more (s.push c)
  | .unit left value =>
    (hexValue? c).map fun digit =>
      let value := 16 * value + digit
      if left ≤ 1 then .more (s.pushUnit value)
      else .more { s with phase := .unit (left - 1) value }

end TextState

/-! ## Values -/

/-- Where the value being read stands: elements and members before it are kept, the last first. -/
inductive Context where
  | document
  | element (before : List Value) (outer : Context)
  | member (before : List (Text × Value)) (key : Text) (outer : Context)

inductive State where
  /-- A value must begin. -/
  | value (place : Context)
  /-- After `[`. -/
  | firstElement (outer : Context)
  /-- After an element. -/
  | nextElement (before : List Value) (outer : Context)
  /-- After an opening brace. -/
  | firstKey (outer : Context)
  /-- After a comma between members. -/
  | key (before : List (Text × Value)) (outer : Context)
  | keyText (text : TextState) (before : List (Text × Value)) (outer : Context)
  | colon (before : List (Text × Value)) (key : Text) (outer : Context)
  /-- After a member. -/
  | nextMember (before : List (Text × Value)) (outer : Context)
  /-- Inside `true`, `false` or `null`. -/
  | word (left : List Char) (value : Value) (place : Context)
  | text (text : TextState) (place : Context)
  | number (number : NumberState) (place : Context)
  /-- After the whole value. -/
  | finished (value : Value)

def close (value : Value) : Context → State
  | .document => .finished value
  | .element before outer => .nextElement (value :: before) outer
  | .member before key outer => .nextMember ((key, value) :: before) outer

def isBlank (c : Char) : Bool := c = ' ' || c = '\t' || c = '\n' || c = '\r'

def openValue? (place : Context) (c : Char) : Option State :=
  if c = '"' then some (.text .start place)
  else if c = '[' then some (.firstElement place)
  else if c = '\x7b' then some (.firstKey place)
  else if c = 't' then some (.word ['r', 'u', 'e'] (.bool true) place)
  else if c = 'f' then some (.word ['a', 'l', 's', 'e'] (.bool false) place)
  else if c = 'n' then some (.word ['u', 'l', 'l'] .null place)
  else (NumberState.start? c).map fun n => .number n place

def between? (state : State) (c : Char) : Option State :=
  if isBlank c then some state
  else match state with
    | .nextElement before outer =>
      if c = ',' then some (.value (.element before outer))
      else if c = ']' then some (close (.array before.reverse) outer)
      else none
    | .nextMember before outer =>
      if c = ',' then some (.key before outer)
      else if c = '\x7d' then some (close (.object before.reverse) outer)
      else none
    | _ => none

def step? (state : State) (c : Char) : Option State :=
  match state with
  | .value place => if isBlank c then some state else openValue? place c
  | .firstElement outer =>
    if isBlank c then some state
    else if c = ']' then some (close (.array []) outer)
    else openValue? (.element [] outer) c
  | .firstKey outer =>
    if isBlank c then some state
    else if c = '\x7d' then some (close (.object []) outer)
    else if c = '"' then some (.keyText .start [] outer)
    else none
  | .key before outer =>
    if isBlank c then some state
    else if c = '"' then some (.keyText .start before outer)
    else none
  | .keyText text before outer =>
    (text.step? c).map fun
      | .more text => .keyText text before outer
      | .closed key => .colon before key outer
  | .colon before key outer =>
    if isBlank c then some state
    else if c = ':' then some (.value (.member before key outer))
    else none
  | .word left value place =>
    match left with
    | expected :: left =>
      if c = expected then
        some (if left = [] then close value place else .word left value place)
      else none
    | [] => none
  | .text text place =>
    (text.step? c).map fun
      | .more text => .text text place
      | .closed text => close (.string text) place
  | .number number place =>
    match number.step? c with
    | some number => some (.number number place)
    | none => number.finish?.bind fun n => between? (close (.number n) place) c
  | state => between? state c

def State.value? : State → Option Value
  | .finished v => some v
  | .number n .document => n.finish?.map Value.number
  | _ => none

def feed? (state : State) (cs : List Char) : Option State := cs.foldlM step? state

def Value.ofChars? (cs : List Char) : Option Value :=
  (feed? (.value .document) cs).bind State.value?

/-- The value that a text holds, if the text is JSON. -/
def Value.ofText? (text : String) : Option Value := Value.ofChars? text.toList

end ChannelGuide.Json
