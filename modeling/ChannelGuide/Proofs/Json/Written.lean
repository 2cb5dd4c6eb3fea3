import ChannelGuide.Proofs.Json.Number

/-!
Texts of values. A text is one of a value if from every place where a value may begin it leads the
reader to where that value has been read. Texts of arrays and objects are put together from texts of
their parts, with blanks around these as the writer likes.
-/
namespace ChannelGuide.Json

section Feed
variable {state middle last : State} {cs ds : List Char}

theorem feed?_cons (c : Char) (cs : List Char) :
    feed? state (c :: cs) = (step? state c).bind fun state => feed? state cs := rfl

theorem feed?_append (first : feed? state cs = some middle) (second : feed? middle ds = some last) :
    feed? state (cs ++ ds) = some last := by
  rw [feed?, List.foldlM_append, ← feed?, first]
  exact second

theorem feed?_step {c : Char} (first : step? state c = some middle)
    (second : feed? middle cs = some last) : feed? state (c :: cs) = some last := by
  rw [feed?_cons, first, Option.bind_some, second]

end Feed

/-- Only blanks. -/
def Blank (gap : List Char) : Prop := ∀ c ∈ gap, isBlank c = true

theorem blank_nil : Blank [] := fun _ member => absurd member List.not_mem_nil

theorem feed?_blank {state : State} {gap : List Char}
    (stays : ∀ c, isBlank c = true → step? state c = some state) (blank : Blank gap) :
    feed? state gap = some state := by
  induction gap with
  | nil => rfl
  | cons c gap ih =>
      obtain ⟨first, others⟩ := List.forall_mem_cons.mp blank
      exact feed?_step (stays c first) (ih others)

/-- What may stand after a value in a text. -/
def Follows (c : Char) : Prop := isBlank c = true ∨ c = ',' ∨ c = ']' ∨ c = '\x7d'

theorem Follows.no_number {c : Char} (follows : Follows c) :
    c.isDigit = false ∧ c ≠ '.' ∧ c ≠ 'e' ∧ c ≠ 'E' := by
  have cases : c = ' ' ∨ c = '\t' ∨ c = '\n' ∨ c = '\r' ∨ c = ',' ∨ c = ']' ∨ c = '\x7d' := by
    simpa [Follows, isBlank, or_assoc] using follows
  rcases cases with rfl | rfl | rfl | rfl | rfl | rfl | rfl <;> decide

namespace State

/-- A value may begin, and would stand at `place`. -/
inductive Awaits : State → Context → Prop
  | value {place : Context} : Awaits (.value place) place
  | first {outer : Context} : Awaits (.firstElement outer) (.element [] outer)

/-- A member may begin. -/
inductive AwaitsKey : State → List (Text × Value) → Context → Prop
  | first {outer : Context} : AwaitsKey (.firstKey outer) [] outer
  | next {before : List (Text × Value)} {outer : Context} : AwaitsKey (.key before outer) before outer

/-- Nothing that may follow tells the two apart, nor does the end of the text. A number is not
over before something follows it. -/
structure ActsAs (state target : State) : Prop where
  value?_eq : state.value? = target.value?
  step?_eq {c : Char} : Follows c → step? state c = step? target c

theorem ActsAs.refl (state : State) : state.ActsAs state := ⟨rfl, fun _ => rfl⟩

/-- Blanks make no difference where only something to follow is awaited. -/
theorem ActsAs.feed?_closing {state target last : State} (acts : state.ActsAs target)
    (stays : ∀ c, isBlank c = true → step? target c = some target) {gap : List Char}
    (blank : Blank gap) {c : Char} (follows : Follows c) (closes : step? target c = some last) :
    feed? state (gap ++ [c]) = some last := by
  have ends : feed? target [c] = some last := feed?_step closes rfl
  cases gap with
  | nil => exact feed?_step ((acts.step?_eq follows).trans closes) rfl
  | cons d gap =>
      obtain ⟨first, others⟩ := List.forall_mem_cons.mp blank
      have step := (acts.step?_eq (.inl first)).trans (stays d first)
      exact feed?_step step (feed?_append (feed?_blank stays others) ends)

section Awaits
variable {state : State} {place outer : Context} {before : List (Text × Value)} {gap : List Char}

theorem Awaits.step?_eq (awaits : state.Awaits place) {c : Char} (visible : isBlank c = false)
    (no_end : c ≠ ']') : step? state c = openValue? place c := by
  cases awaits with
  | value => simp [step?, visible]
  | first => simp [step?, visible, no_end]

theorem Awaits.feed?_gap (awaits : state.Awaits place) (blank : Blank gap) :
    feed? state gap = some state :=
  feed?_blank (fun c h => by cases awaits <;> simp [step?, h]) blank

theorem AwaitsKey.feed?_gap (awaits : state.AwaitsKey before outer) (blank : Blank gap) :
    feed? state gap = some state :=
  feed?_blank (fun c h => by cases awaits <;> simp [step?, h]) blank

theorem AwaitsKey.step?_quote (awaits : state.AwaitsKey before outer) :
    step? state '"' = some (.keyText .start before outer) := by
  cases awaits <;> rfl

end Awaits
end State

/-- `cs` is a text of the value `v`. -/
def Written (cs : List Char) (v : Value) : Prop :=
  ∀ ⦃state place⦄, State.Awaits state place →
    ∃ next, feed? state cs = some next ∧ next.ActsAs (close v place)

/-- `cs` is a text of the elements `vs` of an array, commas and all. -/
def ElementsWritten (cs : List Char) (vs : List Value) : Prop :=
  ∀ ⦃state before outer⦄, State.Awaits state (.element before outer) →
    ∃ next, feed? state cs = some next ∧ next.ActsAs (.nextElement (vs.reverse ++ before) outer)

/-- `cs` is a text of the members of an object, commas and all. -/
def MembersWritten (cs : List Char) (members : List (Text × Value)) : Prop :=
  ∀ ⦃state before outer⦄, State.AwaitsKey state before outer →
    ∃ next, feed? state cs = some next ∧ next.ActsAs (.nextMember (members.reverse ++ before) outer)

theorem Written.ofChars? {cs : List Char} {v : Value} (written : Written cs v) :
    Value.ofChars? cs = some v := by
  have awaits : State.Awaits (.value .document) .document := .value
  obtain ⟨next, read, acts⟩ := written awaits
  rw [Value.ofChars?, read, Option.bind_some, acts.value?_eq]
  rfl

/-! ## Words and numbers -/

theorem written_null : Written ['n', 'u', 'l', 'l'] .null := by
  intro state place awaits
  have first := awaits.step?_eq (by decide : isBlank 'n' = false) (by decide)
  exact ⟨close .null place, feed?_step first rfl, .refl _⟩

theorem written_bool (b : Bool) : Written (wordChars b) (.bool b) := by
  intro state place awaits
  cases b with
  | true =>
      have first := awaits.step?_eq (by decide : isBlank 't' = false) (by decide)
      exact ⟨close (.bool true) place, feed?_step first rfl, .refl _⟩
  | false =>
      have first := awaits.step?_eq (by decide : isBlank 'f' = false) (by decide)
      exact ⟨close (.bool false) place, feed?_step first rfl, .refl _⟩

section Number
variable {place : Context}

theorem openValue?_number (place : Context) {c : Char} {s : NumberState}
    (start : NumberState.start? c = some s) :
    openValue? place c = some (.number s place) ∧ isBlank c = false ∧ c ≠ ']' := by
  have sign_or_digit : c = '-' ∨ c.isDigit = true := by
    by_cases sign : c = '-'
    · exact .inl sign
    · by_cases zero : c = '0'
      · exact .inr (zero ▸ rfl)
      · by_cases digit : c.isDigit = true
        · exact .inr digit
        · simp [NumberState.start?, sign, zero, digit] at start
  have differs (d : Char) (no_digit : d.isDigit = false) (no_sign : d ≠ '-') : c ≠ d := by
    rintro rfl
    rcases sign_or_digit with sign | digit
    · exact no_sign sign
    · exact absurd digit (by rw [no_digit]; decide)
  refine ⟨?_, ?_, differs ']' rfl (by decide)⟩
  · rw [openValue?, if_neg (differs '"' rfl (by decide)), if_neg (differs '[' rfl (by decide)),
      if_neg (differs '\x7b' rfl (by decide)), if_neg (differs 't' rfl (by decide)),
      if_neg (differs 'f' rfl (by decide)), if_neg (differs 'n' rfl (by decide)), start,
      Option.map_some]
  · simp [isBlank, differs ' ' rfl (by decide), differs '\t' rfl (by decide),
      differs '\n' rfl (by decide), differs '\r' rfl (by decide)]

theorem feed?_number {s last : NumberState} {cs : List Char} (read : s.feed? cs = some last) :
    feed? (.number s place) cs = some (.number last place) := by
  induction cs generalizing s with
  | nil =>
      obtain rfl : s = last := Option.some.inj read
      rfl
  | cons c cs ih =>
      obtain ⟨next, step, rest⟩ := Option.bind_eq_some_iff.mp read
      have step : step? (.number s place) c = some (.number next place) := by
        simp only [step?, step]
      exact feed?_step step (ih rest)

theorem number_actsAs (n : Number) :
    (State.number (.ofNumber n) place).ActsAs (close (.number n) place) := by
  constructor
  · cases place with
    | document => simp only [State.value?, NumberState.finish?_ofNumber, close, Option.map_some]
    | element | member => rfl
  · intro c follows
    obtain ⟨no_digit, no_point, no_mark⟩ := follows.no_number
    have ended := NumberState.step?_ofNumber n no_digit no_point no_mark
    have closed : step? (close (.number n) place) c = between? (close (.number n) place) c := by
      cases place <;> rfl
    simp only [step?, ended, NumberState.finish?_ofNumber, Option.bind_some]
    exact closed.symm

theorem written_number (n : Number) : Written n.chars (.number n) := by
  intro state place awaits
  have read := NumberState.read?_chars n
  cases chars : n.chars with
  | nil => exact absurd read (by rw [chars]; simp [NumberState.read?])
  | cons c cs =>
      rw [chars] at read
      obtain ⟨s, start, rest⟩ := Option.bind_eq_some_iff.mp read
      obtain ⟨opened, visible, no_end⟩ := openValue?_number place start
      have first := (awaits.step?_eq visible no_end).trans opened
      exact ⟨_, feed?_step first (feed?_number rest), number_actsAs n⟩

end Number

/-! ## Strings -/

/-- A string that is open, of which `chars` have been read, the last first. -/
def TextState.after (chars : List Char) : TextState := ⟨.plain, chars, none, false⟩

/-- The states `opened` are those of a string, which ends in a state of `closed`. -/
def ReadsText (opened : TextState → State) (closed : Text → State) : Prop :=
  ∀ s c, step? (opened s) c = (s.step? c).map fun
    | .more s => opened s
    | .closed text => closed text

theorem readsText_value (place : Context) :
    ReadsText (State.text · place) fun text => close (.string text) place :=
  fun _ _ => rfl

theorem readsText_key (before : List (Text × Value)) (outer : Context) :
    ReadsText (State.keyText · before outer) fun key => .colon before key outer :=
  fun _ _ => rfl

theorem hexValue?_hexDigit (n : Nat) : TextState.hexValue? (hexDigit n) = some (n % 16) := by
  have digit : ∀ m < 16, TextState.hexValue? (Nat.digitChar m) = some m := by decide
  exact digit (n % 16) (Nat.mod_lt n (by decide))

/-- A control character by its number. -/
def unitEscape (c : Char) : List Char :=
  ['\\', 'u', '0', '0', hexDigit (c.toNat / 16), hexDigit (c.toNat % 16)]

/-- A character is written by a name, by its number or as it is. -/
theorem escapeChar_cases (c : Char) :
    (∃ name, escapeChar c = ['\\', name] ∧ name ≠ 'u' ∧ TextState.escaped? name = some c) ∨
      (escapeChar c = unitEscape c ∧ c.toNat < 0x20) ∨
      (escapeChar c = [c] ∧ c ≠ '"' ∧ c ≠ '\\' ∧ ¬ c.toNat < 0x20) := by
  by_cases has_name :
    c = '"' ∨ c = '\\' ∨ c = '\x08' ∨ c = '\x0c' ∨ c = '\n' ∨ c = '\r' ∨ c = '\t'
  · left
    rcases has_name with rfl | rfl | rfl | rfl | rfl | rfl | rfl <;>
      exact ⟨_, rfl, by decide, rfl⟩
  · right
    simp only [not_or] at has_name
    by_cases control : c.toNat < 0x20 <;> simp [escapeChar, unitEscape, has_name, control]

section Quoted
variable {opened : TextState → State} {closed : Text → State} {chars : List Char}

theorem ReadsText.more (reads : ReadsText opened closed) {s next : TextState} {c : Char}
    (step : s.step? c = some (.more next)) : Json.step? (opened s) c = some (opened next) := by
  rw [reads, step, Option.map_some]

theorem ReadsText.feed?_named (reads : ReadsText opened closed) {name c : Char}
    (no_unit : name ≠ 'u') (named : TextState.escaped? name = some c) :
    feed? (opened (.after chars)) ['\\', name] = some (opened (.after (c :: chars))) := by
  refine feed?_step (reads.more rfl) (feed?_step (reads.more ?_) rfl)
  simp only [TextState.step?, if_neg no_unit, named, Option.map_some]
  rfl

theorem ReadsText.feed?_unit (reads : ReadsText opened closed) {c : Char}
    (control : c.toNat < 0x20) :
    feed? (opened (.after chars)) (unitEscape c) = some (opened (.after (c :: chars))) := by
  have digits : 16 * (c.toNat / 16 % 16) + c.toNat % 16 = c.toNat := by omega
  have no_leading : TextState.isLeading c.toNat = false := by
    simp [TextState.isLeading]
    omega
  have no_trailing : TextState.isTrailing c.toNat = false := by
    simp [TextState.isTrailing]
    omega
  have third : (⟨.unit 2 0, chars, none, false⟩ : TextState).step? (hexDigit (c.toNat / 16)) =
      some (.more ⟨.unit 1 (c.toNat / 16 % 16), chars, none, false⟩) := by
    simp [TextState.step?, hexValue?_hexDigit]
  have fourth : (⟨.unit 1 (c.toNat / 16 % 16), chars, none, false⟩ : TextState).step?
      (hexDigit (c.toNat % 16)) = some (.more (.after (c :: chars))) := by
    simp [TextState.step?, hexValue?_hexDigit, digits, TextState.pushUnit, no_leading, no_trailing,
      TextState.push, Char.ofNat_toNat, TextState.after]
  refine feed?_step (reads.more rfl) ?_
  refine feed?_step (reads.more rfl) ?_
  refine feed?_step (reads.more rfl) ?_
  refine feed?_step (reads.more rfl) ?_
  exact feed?_step (reads.more third) (feed?_step (reads.more fourth) rfl)

theorem ReadsText.feed?_escapeChar (reads : ReadsText opened closed) (c : Char) :
    feed? (opened (.after chars)) (escapeChar c) = some (opened (.after (c :: chars))) := by
  obtain ⟨name, written, no_unit, named⟩ | ⟨written, control⟩ |
    ⟨written, no_quote, no_escape, visible⟩ := escapeChar_cases c
  · rw [written]
    exact reads.feed?_named no_unit named
  · rw [written]
    exact reads.feed?_unit control
  · have step : (TextState.after chars).step? c = some (.more (.after (c :: chars))) := by
      simp [TextState.after, TextState.step?, no_quote, no_escape, visible, TextState.push]
    rw [written]
    exact feed?_step (reads.more step) rfl

theorem ReadsText.feed?_escaped (reads : ReadsText opened closed) (cs : List Char) :
    feed? (opened (.after chars)) (cs.flatMap escapeChar) =
      some (opened (.after (cs.reverse ++ chars))) := by
  induction cs generalizing chars with
  | nil => rfl
  | cons c cs ih =>
      rw [List.flatMap_cons, List.reverse_cons, List.append_assoc]
      exact feed?_append (reads.feed?_escapeChar c) ih

theorem ReadsText.feed?_quoted (reads : ReadsText opened closed) (s : String) :
    feed? (opened .start) (s.toList.flatMap escapeChar ++ ['"']) = some (closed (some s)) := by
  have finish : (TextState.after s.toList.reverse).finish = some s := by
    simp [TextState.after, TextState.finish]
  have closing : step? (opened (.after s.toList.reverse)) '"' = some (closed (some s)) := by
    rw [reads, ← finish]
    rfl
  have inside : feed? (opened .start) (s.toList.flatMap escapeChar) =
      some (opened (.after (s.toList.reverse ++ []))) := reads.feed?_escaped s.toList
  rw [List.append_nil] at inside
  exact feed?_append inside (feed?_step closing rfl)

end Quoted

theorem written_text (s : String) : Written (quote (some s)) (.text s) := by
  intro state place awaits
  have first := awaits.step?_eq (by decide : isBlank '"' = false) (by decide)
  exact ⟨close (.text s) place, feed?_step first ((readsText_value place).feed?_quoted s), .refl _⟩

/-! ## Arrays and objects -/

section Elements
variable {gap cs es : List Char} {v : Value} {vs : List Value}

theorem ElementsWritten.one (blank : Blank gap) (element : Written cs v) :
    ElementsWritten (gap ++ cs) [v] := by
  intro state before outer awaits
  obtain ⟨next, read, acts⟩ := element awaits
  exact ⟨next, feed?_append (awaits.feed?_gap blank) read, acts⟩

theorem ElementsWritten.cons (blank : Blank gap) (element : Written cs v)
    (others : ElementsWritten es vs) : ElementsWritten (gap ++ cs ++ ',' :: es) (v :: vs) := by
  intro state before outer awaits
  obtain ⟨next, read, acts⟩ := element awaits
  have comma : step? next ',' = some (.value (.element (v :: before) outer)) :=
    acts.step?_eq (.inr (.inl rfl))
  obtain ⟨last, rest, ends⟩ := others (.value : State.Awaits _ (.element (v :: before) outer))
  refine ⟨last, ?_, ?_⟩
  · exact feed?_append (feed?_append (awaits.feed?_gap blank) read) (feed?_step comma rest)
  · rwa [List.reverse_cons, List.append_assoc]

theorem written_emptyArray : Written ['[', ']'] (.array []) := by
  intro state place awaits
  have first := awaits.step?_eq (by decide : isBlank '[' = false) (by decide)
  exact ⟨close (.array []) place, feed?_step first rfl, .refl _⟩

theorem ElementsWritten.array (blank : Blank gap) (elements : ElementsWritten es vs) :
    Written ('[' :: es ++ gap ++ [']']) (.array vs) := by
  intro state place awaits
  have first := awaits.step?_eq (by decide : isBlank '[' = false) (by decide)
  obtain ⟨next, read, acts⟩ := elements (.first : State.Awaits (.firstElement place) _)
  have closes : step? (.nextElement (vs.reverse ++ []) place) ']' =
      some (close (.array vs) place) := by
    simp [step?, between?, isBlank]
  have closing := acts.feed?_closing (fun c h => by simp [step?, between?, h]) blank
    (.inr (.inr (.inl rfl))) closes
  rw [List.append_assoc]
  exact ⟨close (.array vs) place, feed?_append (feed?_step first read) closing, .refl _⟩

end Elements

section Members
variable {gap space cs ms : List Char} {v : Value} {members : List (Text × Value)}

/-- A key, the colon after it, and the value of the member. -/
theorem exists_feed?_member {state : State} {before : List (Text × Value)} {outer : Context}
    (awaits : state.AwaitsKey before outer) (blank : Blank gap) (spaces : Blank space) (key : String)
    (value : Written cs v) :
    ∃ next, feed? state (gap ++ quote (some key) ++ ':' :: (space ++ cs)) = some next ∧
      next.ActsAs (.nextMember ((some key, v) :: before) outer) := by
  have place : State.Awaits (.value (.member before (some key) outer)) _ := .value
  obtain ⟨next, read, acts⟩ := value place
  have name : feed? state (quote (some key)) = some (.colon before (some key) outer) :=
    feed?_step awaits.step?_quote ((readsText_key before outer).feed?_quoted key)
  have colon : feed? (.colon before (some key) outer) (':' :: (space ++ cs)) = some next :=
    feed?_step rfl (feed?_append (place.feed?_gap spaces) read)
  exact ⟨next, feed?_append (feed?_append (awaits.feed?_gap blank) name) colon, acts⟩

theorem MembersWritten.one (blank : Blank gap) (spaces : Blank space) (key : String)
    (value : Written cs v) :
    MembersWritten (gap ++ quote (some key) ++ ':' :: (space ++ cs)) [(some key, v)] :=
  fun _ _ _ awaits => exists_feed?_member awaits blank spaces key value

theorem MembersWritten.cons (blank : Blank gap) (spaces : Blank space) (key : String)
    (value : Written cs v) (others : MembersWritten ms members) :
    MembersWritten (gap ++ quote (some key) ++ ':' :: (space ++ cs) ++ ',' :: ms)
      ((some key, v) :: members) := by
  intro state before outer awaits
  obtain ⟨next, read, acts⟩ := exists_feed?_member awaits blank spaces key value
  have comma : step? next ',' = some (.key ((some key, v) :: before) outer) :=
    acts.step?_eq (.inr (.inl rfl))
  obtain ⟨last, rest, ends⟩ := others (.next : State.AwaitsKey _ ((some key, v) :: before) outer)
  refine ⟨last, feed?_append read (feed?_step comma rest), ?_⟩
  rwa [List.reverse_cons, List.append_assoc]

theorem written_emptyObject : Written ['\x7b', '\x7d'] (.object []) := by
  intro state place awaits
  have first := awaits.step?_eq (by decide : isBlank '\x7b' = false) (by decide)
  exact ⟨close (.object []) place, feed?_step first rfl, .refl _⟩

theorem MembersWritten.object (blank : Blank gap) (written : MembersWritten ms members) :
    Written ('\x7b' :: ms ++ gap ++ ['\x7d']) (.object members) := by
  intro state place awaits
  have first := awaits.step?_eq (by decide : isBlank '\x7b' = false) (by decide)
  obtain ⟨next, read, acts⟩ := written (.first : State.AwaitsKey (.firstKey place) _ _)
  have closes : step? (.nextMember (members.reverse ++ []) place) '\x7d' =
      some (close (.object members) place) := by
    simp [step?, between?, isBlank]
  have closing := acts.feed?_closing (fun c h => by simp [step?, between?, h]) blank
    (.inr (.inr (.inr rfl))) closes
  rw [List.append_assoc]
  exact ⟨close (.object members) place, feed?_append (feed?_step first read) closing, .refl _⟩

end Members

end ChannelGuide.Json
