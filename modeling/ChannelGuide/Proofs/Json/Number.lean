import ChannelGuide.Json.Reader
import ChannelGuide.Json.Writer
import ChannelGuide.Proofs.Text.Decimal

/-!
Numbers that are written are read back. A whole number is written without a zero in front, which the
format asks for, and any other number as a significand and a power of ten.
-/
namespace ChannelGuide.Json

namespace NumberState

/-- The state after more characters of a number. -/
def feed? (s : NumberState) (cs : List Char) : Option NumberState := cs.foldlM step? s

/-- The state after the characters of a number. -/
def read? : List Char → Option NumberState
  | [] => none
  | c :: cs => (start? c).bind fun s => s.feed? cs

section Feed
variable {s : NumberState} {cs ds : List Char}

theorem feed?_cons (c : Char) : s.feed? (c :: cs) = (s.step? c).bind fun s => s.feed? cs := rfl

theorem read?_append (begun : cs ≠ []) :
    read? (cs ++ ds) = (read? cs).bind fun s => s.feed? ds := by
  obtain ⟨c, cs, rfl⟩ := List.exists_cons_of_ne_nil begun
  simp only [List.cons_append, read?, feed?, List.foldlM_append, Option.bind_assoc]
  rfl

theorem feed?_whole (digits : ∀ c ∈ ds, c.isDigit = true) (phase : s.phase = .whole) :
    s.feed? ds = some { s with significand := Nat.ofDigitChars 10 ds s.significand } := by
  induction ds generalizing s with
  | nil => rfl
  | cons d ds ih =>
      obtain ⟨first, others⟩ := List.forall_mem_cons.mp digits
      have step : s.step? d = some (s.addDigit d) := by
        simp only [step?, phase, if_pos first]
      have still : (s.addDigit d).phase = .whole := phase
      rw [feed?_cons, step, Option.bind_some, ih others still, Nat.ofDigitChars_cons]
      rfl

theorem feed?_exponent (digits : ∀ c ∈ ds, c.isDigit = true) (phase : s.phase = .exponent) :
    s.feed? ds = some { s with exponent := Nat.ofDigitChars 10 ds s.exponent } := by
  induction ds generalizing s with
  | nil => rfl
  | cons d ds ih =>
      obtain ⟨first, others⟩ := List.forall_mem_cons.mp digits
      have step : s.step? d = some (s.addExponent d) := by
        simp only [step?, phase, if_pos first]
      rw [feed?_cons, step, Option.bind_some, ih others rfl, Nat.ofDigitChars_cons]
      simp only [addExponent, phase]
      rfl

end Feed

/-- What has been read after the whole number `n`. -/
def ofInteger (n : Int) : NumberState where
  phase := if n = 0 then .zero else .whole
  negative := n < 0
  significand := n.natAbs
  decimals := 0
  exponentNegative := false
  exponent := 0

/-- What has been read after a significand and an exponent. -/
def ofDecimal (significand exponent : Int) : NumberState :=
  { ofInteger significand with
    phase := .exponent
    exponentNegative := exponent < 0
    exponent := exponent.natAbs }

def ofNumber : Number → NumberState
  | .integer n => ofInteger n
  | .decimal significand exponent => ofDecimal significand exponent

/-- The digits of a number: the first, which is no zero unless the number is, and the others, which
add up to the number from there. -/
theorem exists_digits (n : Nat) :
    ∃ d ds, Nat.toDigits 10 n = d :: ds ∧ d.isDigit = true ∧ (∀ c ∈ ds, c.isDigit = true) ∧
      Nat.ofDigitChars 10 ds (digitValue d) = n ∧ (0 < n → d ≠ '0') := by
  obtain ⟨d, ds, front⟩ := List.exists_cons_of_ne_nil (Nat.toDigits_ne_nil (n := n) (b := 10))
  have digits : ∀ c ∈ d :: ds, c.isDigit = true := fun c member =>
    Nat.isDigit_of_mem_toDigits (by decide) (by decide) (front ▸ member)
  have value : Nat.ofDigitChars 10 (d :: ds) 0 = n := front ▸ Nat.ofDigitChars_ten_toDigits
  obtain ⟨first, others⟩ := List.forall_mem_cons.mp digits
  rw [Nat.ofDigitChars_cons, Nat.mul_zero, Nat.zero_add] at value
  refine ⟨d, ds, front, first, others, value, fun positive => ?_⟩
  obtain ⟨d', ds', front', nonzero⟩ := Decimal.exists_toDigits_cons positive
  rw [(List.cons.inj (front.symm.trans front')).1]
  exact nonzero

theorem ne_of_isDigit {c d : Char} (digit : c.isDigit = true) (other : d.isDigit = false) :
    c ≠ d := by
  rintro rfl
  exact absurd digit (by rw [other]; decide)

theorem read?_integerChars (n : Int) : read? (integerChars n) = some (ofInteger n) := by
  obtain ⟨d, ds, front, digit, digits, value, nonzero⟩ := exists_digits n.natAbs
  rcases Int.lt_trichotomy n 0 with negative | rfl | positive
  · have nonzero := nonzero (by omega)
    have first : (⟨.sign, true, 0, 0, false, 0⟩ : NumberState).step? d =
        some ⟨.whole, true, digitValue d, 0, false, 0⟩ := by
      simp [step?, nonzero, digit, addDigit]
    rw [integerChars, if_pos negative, front, read?, start?, if_pos rfl, Option.bind_some,
      feed?_cons, first, Option.bind_some, feed?_whole digits rfl, value]
    simp [ofInteger, negative, Int.ne_of_lt negative]
  · rfl
  · have nonzero := nonzero (by omega)
    have no_sign := ne_of_isDigit digit (by decide : '-'.isDigit = false)
    have not_negative : ¬ n < 0 := by omega
    rw [integerChars, if_neg not_negative, front, read?, start?, if_neg no_sign, if_neg nonzero,
      if_pos digit, Option.bind_some, feed?_whole digits rfl, value]
    simp [ofInteger, not_negative, Int.ne_of_gt positive]

/-- After `e` a sign and any digits may stand, a zero in front too. -/
theorem feed?_mark {s : NumberState} (phase : s.phase = .mark)
    (unsigned : s.exponentNegative = false) (fresh : s.exponent = 0) (n : Int) :
    s.feed? (integerChars n) =
      some { s with phase := .exponent, exponentNegative := n < 0, exponent := n.natAbs } := by
  obtain ⟨d, ds, front, digit, digits, value, -⟩ := exists_digits n.natAbs
  by_cases negative : n < 0
  · have sign : s.step? '-' = some { s with phase := .markSign, exponentNegative := true } := by
      simp [step?, phase]
    have first : ({ s with phase := .markSign, exponentNegative := true } : NumberState).step? d =
        some { s with phase := .exponent, exponentNegative := true, exponent := digitValue d } := by
      simp [step?, digit, addExponent, fresh]
    rw [integerChars, if_pos negative, front, feed?_cons, sign, Option.bind_some, feed?_cons, first,
      Option.bind_some, feed?_exponent digits rfl, value, decide_eq_true negative]
  · have no_plus := ne_of_isDigit digit (by decide : '+'.isDigit = false)
    have no_minus := ne_of_isDigit digit (by decide : '-'.isDigit = false)
    have first : s.step? d = some { s with phase := .exponent, exponent := digitValue d } := by
      simp [step?, phase, no_plus, no_minus, digit, addExponent, fresh]
    rw [integerChars, if_neg negative, front, feed?_cons, first, Option.bind_some,
      feed?_exponent digits rfl, value, decide_eq_false negative, unsigned]

theorem read?_chars (n : Number) : read? n.chars = some (ofNumber n) := by
  cases n with
  | integer n => exact read?_integerChars n
  | decimal significand exponent =>
      have begun : integerChars significand ≠ [] := by
        intro none
        have read := read?_integerChars significand
        rw [none] at read
        exact absurd read (by simp [read?])
      have mark : (ofInteger significand).step? 'e' =
          some { ofInteger significand with phase := .mark } := by
        by_cases zero : significand = 0 <;> simp [ofInteger, zero, step?, afterWhole?]
      rw [Number.chars, read?_append begun, read?_integerChars, Option.bind_some, feed?_cons, mark,
        Option.bind_some, feed?_mark rfl rfl rfl, ofNumber, ofDecimal]

theorem signed_natAbs (n : Int) : signed (n < 0) n.natAbs = n := by
  by_cases negative : n < 0
  · rw [signed, if_pos (decide_eq_true negative)]
    omega
  · rw [signed, if_neg (by simpa using negative)]
    omega

theorem finish?_ofNumber (n : Number) : (ofNumber n).finish? = some n := by
  cases n with
  | integer n =>
      by_cases zero : n = 0 <;> simp [ofNumber, ofInteger, finish?, signed_natAbs, zero]
  | decimal significand exponent =>
      simp [ofNumber, ofDecimal, ofInteger, finish?, signed_natAbs]

theorem step?_ofNumber (n : Number) {c : Char} (no_digit : c.isDigit = false) (no_point : c ≠ '.')
    (no_mark : c ≠ 'e' ∧ c ≠ 'E') : (ofNumber n).step? c = none := by
  cases n with
  | integer n =>
      by_cases zero : n = 0 <;>
        simp [ofNumber, ofInteger, step?, afterWhole?, zero, no_digit, no_point, no_mark]
  | decimal significand exponent => simp [ofNumber, ofDecimal, step?, no_digit]

end NumberState
end ChannelGuide.Json
