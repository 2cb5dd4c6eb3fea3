import Mathlib.Algebra.Group.Nat.Defs
import Mathlib.Data.List.TakeWhile
import ChannelGuide.Text.Decimal

/-!
Digits that are read are those that were written. Both readers come to the number that the digits in
front of them stand for, and leave what follows.
-/
namespace ChannelGuide.Decimal

section Fixed
variable {width n : Nat}

theorem length_fixed (width n : Nat) : (fixed width n).length = width := by
  induction width generalizing n with
  | zero => rfl
  | succ width ih => rw [fixed, List.length_append, ih, List.length_singleton]

theorem isDigit_of_mem_fixed {c : Char} (member : c ∈ fixed width n) : c.isDigit = true := by
  induction width generalizing n with
  | zero => exact absurd member List.not_mem_nil
  | succ width ih =>
      rcases List.mem_append.mp member with front | last
      · exact ih front
      · rw [List.mem_singleton.mp last, Nat.isDigit_digitChar]
        exact decide_eq_true (Nat.mod_lt n (by decide))

theorem ofDigitChars_fixed (width n : Nat) :
    Nat.ofDigitChars 10 (fixed width n) 0 = n % 10 ^ width := by
  induction width generalizing n with
  | zero => rw [fixed, Nat.ofDigitChars_nil, Nat.pow_zero, Nat.mod_one]
  | succ width ih =>
      rw [fixed, Nat.ofDigitChars_append, ih,
        Nat.ofDigitChars_cons_digitChar_of_lt_ten (Nat.mod_lt n (by decide)), Nat.ofDigitChars_nil,
        Nat.pow_succ', Nat.mod_mul]
      omega

theorem ofDigitChars_fixed_of_lt (small : n < 10 ^ width) :
    Nat.ofDigitChars 10 (fixed width n) 0 = n := by
  rw [ofDigitChars_fixed, Nat.mod_eq_of_lt small]

end Fixed

/-- A number other than zero is written without a zero in front. -/
theorem exists_toDigits_cons {n : Nat} (positive : 0 < n) :
    ∃ d ds, Nat.toDigits 10 n = d :: ds ∧ d ≠ '0' := by
  induction n using Nat.strongRecOn with
  | ind n ih =>
      rcases Nat.lt_or_ge n 10 with short | long
      · refine ⟨n.digitChar, [], Nat.toDigits_of_lt_base short, ?_⟩
        rw [Ne, Nat.digitChar_eq_zero]
        exact Nat.ne_of_gt positive
      · obtain ⟨d, ds, front, nonzero⟩ := ih (n / 10) (by omega) (by omega)
        refine ⟨d, ds ++ [(n % 10).digitChar], ?_, nonzero⟩
        rw [Nat.toDigits_of_base_le (by decide) long, front, List.cons_append]

section Readers
variable {ds rest : List Char}

theorem toNat_of_isDigit {c : Char} (digit : c.isDigit = true) : 48 ≤ c.toNat ∧ c.toNat ≤ 57 := by
  simp only [Char.isDigit, Bool.and_eq_true, decide_eq_true_eq, UInt32.le_iff_toNat_le] at digit
  exact digit

/-- Digits after the number `before` stand for less than one more than it would. -/
theorem ofDigitChars_lt (digits : ∀ c ∈ ds, c.isDigit = true) (before : Nat) :
    Nat.ofDigitChars 10 ds before < (before + 1) * 10 ^ ds.length := by
  induction ds generalizing before with
  | nil => simp
  | cons d ds ih =>
      obtain ⟨first, others⟩ := List.forall_mem_cons.mp digits
      have value : d.toNat - '0'.toNat ≤ 9 := by
        have bounds := toNat_of_isDigit first
        change d.toNat - 48 ≤ 9
        omega
      rw [Nat.ofDigitChars_cons, List.length_cons, Nat.pow_succ', ← Nat.mul_assoc]
      exact Nat.lt_of_lt_of_le (ih others _) (Nat.mul_le_mul_right _ (by omega))

theorem readFixed?_append (digits : ∀ c ∈ ds, c.isDigit = true) (before : Nat) :
    readFixed? ds.length before (ds ++ rest) = some (Nat.ofDigitChars 10 ds before, rest) := by
  induction ds generalizing before with
  | nil => rfl
  | cons d ds ih =>
      obtain ⟨first, others⟩ := List.forall_mem_cons.mp digits
      rw [List.length_cons, List.cons_append, readFixed?, if_pos first, ih others,
        Nat.ofDigitChars_cons]
      rfl

theorem readFixed?_fixed {width n : Nat} (small : n < 10 ^ width) (rest : List Char) :
    readFixed? width 0 (fixed width n ++ rest) = some (n, rest) := by
  have digits : ∀ c ∈ fixed width n, c.isDigit = true := fun _ => isDigit_of_mem_fixed
  have read : readFixed? _ 0 (fixed width n ++ rest) = _ := readFixed?_append digits 0
  rwa [length_fixed, ofDigitChars_fixed_of_lt small] at read

theorem readShort?_fixed {width n : Nat} (wide : 0 < width) (small : n < 10 ^ width)
    (rest : List Char) : readShort? width (fixed width n ++ rest) = some (n, rest) := by
  have digits : ∀ c ∈ fixed width n, c.isDigit = true := fun _ => isDigit_of_mem_fixed
  have all : ((fixed width n ++ rest).take width).takeWhile Char.isDigit = fixed width n := by
    rw [List.take_left' (length_fixed width n), List.takeWhile_eq_self_iff]
    exact digits
  have value := ofDigitChars_fixed_of_lt small
  have length := length_fixed width n
  rw [readShort?, all]
  generalize fixed width n = ds at *
  cases ds with
  | nil => exact absurd length (Nat.ne_of_lt wide)
  | cons d ds =>
      simp only
      rw [value, List.drop_left]

theorem takeWhile_digits (digits : ∀ c ∈ ds, c.isDigit = true)
    (stop : ∀ c ∈ rest.head?, c.isDigit = false) :
    (ds ++ rest).takeWhile Char.isDigit = ds ∧ (ds ++ rest).dropWhile Char.isDigit = rest := by
  rw [List.takeWhile_append_of_pos digits, List.dropWhile_append_of_pos digits]
  cases rest with
  | nil => simp
  | cons c rest =>
      have ends := stop c rfl
      simp [ends]

theorem readMany?_append (some_digit : ds ≠ []) (digits : ∀ c ∈ ds, c.isDigit = true)
    (stop : ∀ c ∈ rest.head?, c.isDigit = false) :
    readMany? (ds ++ rest) = some (Nat.ofDigitChars 10 ds 0, rest) := by
  obtain ⟨front, back⟩ := takeWhile_digits digits stop
  obtain ⟨d, ds, rfl⟩ := List.exists_cons_of_ne_nil some_digit
  rw [readMany?, front, back]

theorem readMany?_toDigits (n : Nat) (stop : ∀ c ∈ rest.head?, c.isDigit = false) :
    readMany? (Nat.toDigits 10 n ++ rest) = some (n, rest) := by
  have digits : ∀ c ∈ Nat.toDigits 10 n, c.isDigit = true := fun _ =>
    Nat.isDigit_of_mem_toDigits (by decide) (by decide)
  rw [readMany?_append Nat.toDigits_ne_nil digits stop, Nat.ofDigitChars_ten_toDigits]

theorem readMany?_fixed {width n : Nat} (wide : 0 < width) (small : n < 10 ^ width)
    (stop : ∀ c ∈ rest.head?, c.isDigit = false) :
    readMany? (fixed width n ++ rest) = some (n, rest) := by
  have some_digit : fixed width n ≠ [] :=
    List.ne_nil_of_length_pos (by rwa [length_fixed])
  rw [readMany?_append some_digit (fun _ => isDigit_of_mem_fixed) stop,
    ofDigitChars_fixed_of_lt small]

end Readers
end ChannelGuide.Decimal
