import EditorScheme.Proofs.Json.Numerals
import EditorScheme.Proofs.Number.Grids

/-!
Decimals in JSON texts. Wherever the point stands, a decimal is written as a number of the same value, with few
digits before the point.
-/
namespace EditorScheme.Json

open Binary64 (decimalValue)

namespace NumberText

variable {text : NumberText} {d : Decimal}

def digits (text : NumberText) : List Char := text.whole ++ text.fraction.getD []

def size (text : NumberText) : ℚ :=
  Nat.ofDigitChars 10 text.digits 0 * 10 ^ (text.exponent.getD 0 - (text.fraction.getD []).length)

structure Writes (text : NumberText) (d : Decimal) : Prop where
  wellFormed : text.WellFormed
  short : text.whole.length ≤ 16
  marked : text.fraction.isSome ∨ text.exponent.isSome
  size : text.size = decimalValue d

end NumberText

open NumberText

theorem ofDigitChars_zeros (k n : Nat) : Nat.ofDigitChars 10 (List.replicate k '0') n = n * 10 ^ k := by
  induction k generalizing n with
  | zero => simp
  | succ k ih =>
    have zero : '0'.toNat = 48 := rfl
    rw [List.replicate_succ, Nat.ofDigitChars_cons, ih]
    simp only [Nat.sub_self, Nat.add_zero, Nat.pow_succ]
    ring

structure Numeral (digits : List Char) (n : Nat) : Prop where
  isDigits : IsDigits digits
  noZero : digits.head? ≠ some '0'
  value : Nat.ofDigitChars 10 digits 0 = n

theorem numeral_repr {n : Nat} (positive : n ≠ 0) : Numeral (Nat.repr n).toList n where
  isDigits := isDigits_repr n
  noZero := head?_repr positive
  value := by rw [Nat.toList_repr, Nat.ofDigitChars_ten_toDigits]

namespace NumberText

variable {d : Decimal} {digits : List Char} {point places : Nat} {text : NumberText}

theorem isDigit_of_mem_zeros : ∀ c ∈ List.replicate places '0', c.isDigit = true := by
  intro c member
  rw [List.eq_of_mem_replicate member]
  rfl

theorem size_eq (value : Nat.ofDigitChars 10 text.digits 0 = d.significand)
    (places : text.exponent.getD 0 - (text.fraction.getD []).length = d.exponent) : text.size = decimalValue d := by
  rw [size, value, places, decimalValue]

/-- One digit before the point, and an exponent. -/
theorem writes_scientific (numeral : Numeral digits d.significand) :
    Writes ⟨false, digits.take 1, if digits.length = 1 then none else some (digits.drop 1),
      some (digits.length + d.exponent - 1)⟩ d := by
  obtain ⟨c, rest, rfl⟩ := List.exists_cons_of_ne_nil numeral.isDigits.notEmpty
  have digit := numeral.isDigits.digit
  have value := numeral.value
  refine ⟨⟨⟨by simp, fun c' member => digit c' (List.mem_of_mem_take member)⟩, by simp, fun digits member => ?_⟩, by simp,
    by simp, size_eq ?_ ?_⟩
  · dsimp only at member
    split at member
    · cases member
    · next more =>
      cases member
      exact ⟨by simpa using more, fun c' inside => digit c' (List.mem_of_mem_drop inside)⟩
  · cases rest <;> simpa [NumberText.digits] using value
  · cases rest
    · simp
    · simp
      omega

/-- Zeros up to the point, and one behind it. -/
theorem writes_whole (numeral : Numeral digits d.significand) (zeros : d.exponent = places)
    (short : digits.length + places ≤ 16) :
    Writes ⟨false, digits ++ List.replicate places '0', some ['0'], none⟩ d := by
  refine ⟨⟨numeral.isDigits.append isDigit_of_mem_zeros, fun _ => ?_, fun digits member => ?_⟩, by simpa using short,
    by simp, ?_⟩
  · rw [List.head?_append_of_ne_nil _ numeral.isDigits.notEmpty]
    exact numeral.noZero
  · cases member
    exact ⟨by simp, by simp⟩
  · have all : Nat.ofDigitChars 10 (digits ++ (List.replicate places '0' ++ ['0'])) 0 =
        d.significand * 10 ^ places * 10 := by
      rw [Nat.ofDigitChars_append, Nat.ofDigitChars_append, numeral.value, ofDigitChars_zeros]
      simp [Nat.ofDigitChars_cons, Nat.mul_comm]
    simp only [size, NumberText.digits, Option.getD_some, Option.getD_none, List.append_assoc, all, decimalValue, zeros,
      zpow_natCast, List.length_singleton, Nat.cast_one, zero_sub, zpow_neg_one]
    push_cast
    ring

/-- The point between two digits. -/
theorem writes_split (numeral : Numeral digits d.significand) (inside : (point : Int) = digits.length + d.exponent)
    (positive : 0 < point) (less : d.exponent < 0) (short : point ≤ 16) :
    Writes ⟨false, digits.take point, some (digits.drop point), none⟩ d := by
  have digit := numeral.isDigits.digit
  have shorter : point < digits.length := by omega
  refine ⟨⟨⟨?_, fun c' member => digit c' (List.mem_of_mem_take member)⟩, fun _ => ?_, fun others member => ?_⟩, ?_,
    by simp, size_eq ?_ ?_⟩
  · exact List.ne_nil_of_length_pos (by rw [List.length_take]; omega)
  · rw [List.head?_take, if_neg (by omega)]
    exact numeral.noZero
  · cases member
    exact ⟨by simpa using shorter, fun c' inside => digit c' (List.mem_of_mem_drop inside)⟩
  · simp
    omega
  · simpa [NumberText.digits] using numeral.value
  · simp
    omega

/-- Zeros behind the point, and then the digits. -/
theorem writes_fraction (numeral : Numeral digits d.significand) (places : Nat)
    (zeros : -(places : Int) = digits.length + d.exponent) :
    Writes ⟨false, ['0'], some (List.replicate places '0' ++ digits), none⟩ d := by
  refine ⟨⟨⟨by simp, by simp⟩, by simp, fun others member => ?_⟩, by simp, by simp, size_eq ?_ ?_⟩
  · cases member
    refine ⟨by simp [numeral.isDigits.notEmpty], fun c inside => ?_⟩
    rcases List.mem_append.mp inside with zero | digit
    · exact isDigit_of_mem_zeros c zero
    · exact numeral.isDigits.digit c digit
  · have zero : '0' :: List.replicate places '0' = List.replicate (places + 1) '0' := rfl
    rw [NumberText.digits, Option.getD_some, List.singleton_append, ← List.cons_append, zero, Nat.ofDigitChars_append,
      ofDigitChars_zeros, Nat.zero_mul, numeral.value]
  · simp
    omega

theorem Writes.signed (writes : Writes text d) (negative : Bool) : Writes { text with negative } d where
  wellFormed := ⟨writes.wellFormed.whole, writes.wellFormed.noNeedlessZero, writes.wellFormed.fraction⟩
  short := writes.short
  marked := writes.marked
  size := writes.size

theorem chars_signed (unsigned : text.negative = false) (negative : Bool) :
    ({ text with negative } : NumberText).chars = (if negative then ['-'] else []) ++ text.chars := by
  simp [chars, unsigned]

end NumberText

/-- A decimal is written as a number of its value. -/
theorem exists_writes {d : Decimal} (positive : d.significand ≠ 0) : ∃ text : NumberText,
    text.negative = false ∧ Writes text d ∧ text.chars = numberLayout.magnitude d := by
  have numeral := numeral_repr positive
  unfold DecimalLayout.magnitude
  dsimp only
  generalize (Nat.repr d.significand).toList = digits at *
  have notEmpty := List.length_pos_of_ne_nil numeral.isDigits.notEmpty
  by_cases far : (digits.length : Int) + d.exponent - 1 < numberLayout.leastOrder ∨
      numberLayout.greatestOrder < (digits.length : Int) + d.exponent - 1
  · refine ⟨_, rfl, writes_scientific numeral, ?_⟩
    rw [if_pos far]
    by_cases one : digits.length = 1 <;> simp [chars, fractionChars, exponentChars, one]
  · rw [if_neg far]
    simp only [numberLayout, not_or, not_lt] at far
    by_cases whole : 0 ≤ d.exponent
    · obtain ⟨places, zeros⟩ := Int.eq_ofNat_of_zero_le whole
      refine ⟨_, rfl, writes_whole numeral zeros (by omega), ?_⟩
      rw [if_pos whole]
      simp [chars, fractionChars, exponentChars, zeros]
    · rw [if_neg whole]
      by_cases inside : 0 < (digits.length : Int) + d.exponent
      · obtain ⟨point, place⟩ := Int.eq_ofNat_of_zero_le inside.le
        refine ⟨_, rfl, writes_split numeral place.symm (by omega) (by omega) (by omega), ?_⟩
        rw [if_pos inside]
        simp [chars, fractionChars, exponentChars, place]
      · obtain ⟨places, place⟩ := Int.eq_ofNat_of_zero_le (a := -((digits.length : Int) + d.exponent)) (by omega)
        refine ⟨_, rfl, writes_fraction numeral places (by omega), ?_⟩
        rw [if_neg inside, place]
        simp [chars, fractionChars, exponentChars]

end EditorScheme.Json
