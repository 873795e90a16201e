import EditorScheme.Json.Value
import EditorScheme.Proofs.Text.Digits
import Mathlib.Algebra.Ring.Int.Defs
import Mathlib.Data.List.TakeWhile

/-!
How numbers are written in JSON texts, and that the parts of a number are found again in its text. An integer is
read back as it was.
-/
namespace EditorScheme.Json

/-- A number can end where such a text follows. -/
def EndsNumber (rest : List Char) : Prop := ∀ c ∈ rest.head?, c.isDigit = false ∧ c ≠ '.' ∧ c ≠ 'e' ∧ c ≠ 'E'

theorem endsNumber_nil : EndsNumber [] := by simp [EndsNumber]

namespace NumberText

variable {digits rest : List Char} {significand : Nat} {exponent : Int} {text : NumberText}

structure IsDigits (digits : List Char) : Prop where
  notEmpty : digits ≠ []
  digit : ∀ c ∈ digits, c.isDigit = true

theorem isDigits_repr (n : Nat) : IsDigits (Nat.repr n).toList where
  notEmpty := by simp [Nat.toList_repr]
  digit c member := by
    rw [Nat.toList_repr] at member
    exact Nat.isDigit_of_mem_toDigits (by decide) (by decide) member

theorem IsDigits.append {others : List Char} (first : IsDigits digits) (second : ∀ c ∈ others, c.isDigit = true) :
    IsDigits (digits ++ others) where
  notEmpty := by simp [first.notEmpty]
  digit c member := by
    rcases List.mem_append.mp member with left | right
    · exact first.digit c left
    · exact second c right

/-- What a reader of numbers accepts. -/
structure WellFormed (text : NumberText) : Prop where
  whole : IsDigits text.whole
  noNeedlessZero : 1 < text.whole.length → text.whole.head? ≠ some '0'
  fraction : ∀ digits ∈ text.fraction, IsDigits digits

def fractionChars (fraction : Option (List Char)) : List Char := fraction.elim [] ('.' :: ·)

def exponentChars (exponent : Option Int) : List Char := exponent.elim [] numberLayout.exponentText

/-- The parts put together as they are written. -/
def chars (text : NumberText) : List Char :=
  (if text.negative then ['-'] else []) ++ text.whole ++ fractionChars text.fraction ++ exponentChars text.exponent

theorem digits?_append (isDigits : IsDigits digits) (ends : ∀ c ∈ rest.head?, c.isDigit = false) :
    digits? (digits ++ rest) = some (digits, rest) := by
  have behind : rest.takeWhile Char.isDigit = [] ∧ rest.dropWhile Char.isDigit = rest := by
    cases rest with
    | nil => exact ⟨rfl, rfl⟩
    | cons c rest =>
      have other : c.isDigit = false := ends c rfl
      simp [other]
  have taken : (digits ++ rest).takeWhile Char.isDigit = digits := by
    rw [List.takeWhile_append_of_pos isDigits.digit, behind.1, List.append_nil]
  have dropped : (digits ++ rest).dropWhile Char.isDigit = rest := by
    rw [List.dropWhile_append_of_pos isDigits.digit, behind.2]
  unfold digits?
  rw [taken, dropped, if_neg (by simp [isDigits.notEmpty])]

theorem fraction?_append {fraction : Option (List Char)} (isDigits : ∀ digits ∈ fraction, IsDigits digits)
    (ends : ∀ c ∈ rest.head?, c.isDigit = false ∧ c ≠ '.') :
    fraction? (fractionChars fraction ++ rest) = some (fraction, rest) := by
  cases fraction with
  | none =>
    cases rest with
    | nil => rfl
    | cons c rest =>
      have other : c ≠ '.' := (ends c rfl).2
      simp only [fractionChars, Option.elim, List.nil_append]
      unfold fraction?
      split
      · next same => exact absurd (List.cons.inj same).1 other
      · rfl
  | some digits =>
    have read := digits?_append (isDigits digits rfl) fun c member => (ends c member).1
    simp [fractionChars, fraction?, read]

theorem exponent?_exponentText (ends : ∀ c ∈ rest.head?, c.isDigit = false) :
    exponent? (numberLayout.exponentText exponent ++ rest) = some (some exponent, rest) := by
  have isDigits := isDigits_repr exponent.natAbs
  have read := digits?_append isDigits ends
  have value : Text.readNat? 10 (Nat.repr exponent.natAbs).toList = some exponent.natAbs := by
    rw [Text.readNat?_ten isDigits.notEmpty isDigits.digit, Nat.toList_repr, Nat.ofDigitChars_ten_toDigits]
  unfold DecimalLayout.exponentText
  generalize (Nat.repr exponent.natAbs).toList = digits at read value
  generalize size : exponent.natAbs = magnitude at value
  by_cases negative : exponent < 0
  · simp [exponent?, negative, read, value]
    omega
  · simp [exponent?, negative, numberLayout, read, value]
    omega

theorem exponent?_append (exponent : Option Int) (ends : EndsNumber rest) :
    exponent? (exponentChars exponent ++ rest) = some (exponent, rest) := by
  cases exponent with
  | none =>
    cases rest with
    | nil => rfl
    | cons c rest =>
      obtain ⟨-, -, small, capital⟩ := ends c rfl
      simp [exponentChars, exponent?, small, capital]
  | some exponent => exact exponent?_exponentText fun c member => (ends c member).1

theorem exponentChars_ends (exponent : Option Int) (ends : EndsNumber rest) :
    ∀ c ∈ (exponentChars exponent ++ rest).head?, c.isDigit = false ∧ c ≠ '.' := by
  cases exponent with
  | none => exact fun c member => ⟨(ends c member).1, (ends c member).2.1⟩
  | some exponent =>
    intro c member
    cases Option.mem_some.mp member
    decide

theorem fractionChars_ends (fraction : Option (List Char)) (exponent : Option Int) (ends : EndsNumber rest) :
    ∀ c ∈ (fractionChars fraction ++ (exponentChars exponent ++ rest)).head?, c.isDigit = false := by
  cases fraction with
  | none => exact fun c member => (exponentChars_ends exponent ends c member).1
  | some digits =>
    intro c member
    cases Option.mem_some.mp member
    decide

def splitSign : List Char → Bool × List Char
  | '-' :: rest => (true, rest)
  | rest => (false, rest)

theorem read?_eq (text : List Char) : read? text = do
    let (whole, rest) ← digits? (splitSign text).2
    if 1 < whole.length ∧ whole.head? = some '0' then none
    else
      let (fraction, rest) ← fraction? rest
      let (exponent, rest) ← exponent? rest
      return (⟨(splitSign text).1, whole, fraction, exponent⟩, rest) := rfl

theorem splitSign_append (isDigits : IsDigits digits) (negative : Bool) (rest : List Char) :
    splitSign ((if negative then ['-'] else []) ++ (digits ++ rest)) = (negative, digits ++ rest) := by
  obtain ⟨c, others, rfl⟩ := List.exists_cons_of_ne_nil isDigits.notEmpty
  have digit := isDigits.digit c (by simp)
  have noSign : c ≠ '-' := by
    rintro rfl
    cases digit
  cases negative with
  | false => simp [splitSign, noSign]
  | true => rfl

/-- The parts of a number are found in its text, whatever follows it. -/
theorem read?_chars (wellFormed : text.WellFormed) (ends : EndsNumber rest) :
    read? (text.chars ++ rest) = some (text, rest) := by
  obtain ⟨negative, whole, fraction, exponent⟩ := text
  have noZero : ¬ (1 < whole.length ∧ whole.head? = some '0') :=
    fun needless => wellFormed.noNeedlessZero needless.1 needless.2
  have sign := splitSign_append wellFormed.whole negative
    (fractionChars fraction ++ (exponentChars exponent ++ rest))
  have readWhole := digits?_append wellFormed.whole (fractionChars_ends fraction exponent ends)
  have readFraction := fraction?_append wellFormed.fraction (exponentChars_ends exponent ends)
  have readExponent := exponent?_append exponent ends
  dsimp only at sign readWhole readFraction
  rw [read?_eq, chars, List.append_assoc, List.append_assoc, List.append_assoc, sign]
  simp [readWhole, readFraction, readExponent, noZero]

end NumberText

theorem mul_pow_le_ofDigitChars (digits : List Char) (significand : Nat) :
    significand * 10 ^ digits.length ≤ Nat.ofDigitChars 10 digits significand := by
  induction digits generalizing significand with
  | nil => simp
  | cons c digits ih =>
    rw [Nat.ofDigitChars_cons, List.length_cons, Nat.pow_succ', ← Nat.mul_assoc, Nat.mul_comm significand]
    exact (Nat.mul_le_mul_right _ (Nat.le_add_right _ _)).trans (ih _)

theorem le_ofDigitChars (digits : List Char) (significand : Nat) : significand ≤ Nat.ofDigitChars 10 digits significand :=
  (Nat.le_mul_of_pos_right _ (Nat.pow_pos (by decide))).trans (mul_pow_le_ofDigitChars digits significand)

theorem ofDigitChars_cons_eq (c : Char) (digits : List Char) (significand : Nat) :
    Nat.ofDigitChars 10 (c :: digits) significand =
      Nat.ofDigitChars 10 digits (significand * 10 + (c.toNat - 48)) := by
  rw [Nat.ofDigitChars_cons, Nat.mul_comm]
  rfl

theorem appendDigits_eq {digits : List Char} {significand : Nat}
    (fits : Nat.ofDigitChars 10 digits significand ≤ greatestSignificand) :
    appendDigits significand digits = (Nat.ofDigitChars 10 digits significand, digits.length) := by
  induction digits generalizing significand with
  | nil => simp [appendDigits]
  | cons c digits ih =>
    rw [ofDigitChars_cons_eq] at fits ⊢
    have next := Nat.le_trans (le_ofDigitChars digits _) fits
    simp [appendDigits, next, ih fits]

theorem appendDigits_le (digits : List Char) {significand : Nat} (fits : significand ≤ greatestSignificand) :
    (appendDigits significand digits).1 ≤ greatestSignificand := by
  induction digits generalizing significand with
  | nil => exact fits
  | cons c digits ih =>
    unfold appendDigits
    dsimp only
    split
    · next next => exact ih next
    · exact fits

namespace NumberText

variable {text : NumberText} {n : Int}

theorem range_of_value? (read : text.value? = some (.integer n)) : -2 ^ 63 ≤ n ∧ n < 2 ^ 64 := by
  have fits := appendDigits_le text.whole (Nat.zero_le greatestSignificand)
  unfold value? at read
  dsimp only at read
  split at read
  · generalize (appendDigits 0 text.whole).1 = significand at fits read
    unfold wholeNumber at read
    simp only [greatestSignificand, Nat.pow_eq] at fits read
    split at read
    · cases read
      omega
    · split at read
      · cases read
        omega
      · cases read
  · unfold float? at read
    obtain ⟨x, -, other⟩ := Option.map_eq_some_iff.mp read
    cases other

end NumberText

def ReadsAs (n other : Number) : Prop :=
  ∃ text : NumberText, text.WellFormed ∧ (n.text numberLayout).toList = text.chars ∧ text.value? = some other

def reread (n : Number) : Number :=
  ((NumberText.read? (n.text numberLayout).toList).bind fun (text, _) => text.value?).getD n

theorem ReadsAs.read? {n other : Number} {rest : List Char} (back : ReadsAs n other) (ends : EndsNumber rest) :
    ∃ text, NumberText.read? ((n.text numberLayout).toList ++ rest) = some (text, rest) ∧ text.value? = some other := by
  obtain ⟨text, wellFormed, written, value⟩ := back
  exact ⟨text, written ▸ NumberText.read?_chars wellFormed ends, value⟩

theorem ReadsAs.exists_start {n other : Number} (back : ReadsAs n other) :
    ∃ c rest, (n.text numberLayout).toList = c :: rest ∧ (c = '-' ∨ c.isDigit = true) := by
  obtain ⟨text, wellFormed, written, -⟩ := back
  obtain ⟨c, others, shape⟩ := List.exists_cons_of_ne_nil wellFormed.whole.notEmpty
  have digit := wellFormed.whole.digit c (by simp [shape])
  rw [written, NumberText.chars, shape]
  cases text.negative with
  | true => exact ⟨'-', _, rfl, .inl rfl⟩
  | false => exact ⟨c, _, rfl, .inr digit⟩

theorem ReadsAs.reread_eq {n other : Number} (back : ReadsAs n other) : reread n = other := by
  obtain ⟨text, read, value⟩ := back.read? endsNumber_nil
  rw [List.append_nil] at read
  simp [reread, read, value]

theorem head?_repr {n : Nat} (positive : n ≠ 0) : (Nat.repr n).toList.head? ≠ some '0' := by
  rw [Nat.toList_repr]
  induction n using Nat.strong_induction_on with
  | h n ih =>
    rw [Nat.toDigits_eq_if (by decide)]
    split
    · next small =>
      intro zero
      have code := congrArg Char.toNat (Option.some.inj zero)
      rw [Nat.toNat_digitChar_of_lt_ten small] at code
      exact positive (Nat.add_left_cancel (n := 48) code)
    · rw [List.head?_append_of_ne_nil _ (by simp)]
      exact ih (n / 10) (by omega) (by omega)

theorem toList_repr_int (n : Int) :
    (Int.repr n).toList = (if n < 0 then ['-'] else []) ++ (Nat.repr n.natAbs).toList := by
  by_cases negative : n < 0
  · have size : (-n).toNat = n.natAbs := by omega
    rw [Int.repr_eq_if, if_neg (Int.not_le.mpr negative), size, if_pos negative, String.toList_append]
    rfl
  · have size : n.toNat = n.natAbs := by omega
    rw [Int.repr_eq_if, if_pos (Int.not_lt.mp negative), size, if_neg negative, List.nil_append]

theorem wholeNumber_natAbs {n : Int} (low : -2 ^ 63 ≤ n) : wholeNumber (decide (n < 0)) n.natAbs = .integer n := by
  unfold wholeNumber
  by_cases negative : n < 0
  · have range : 0 < n.natAbs ∧ n.natAbs ≤ Nat.pow 2 63 := by
      rw [Nat.pow_eq]
      omega
    rw [if_neg (by simp [negative]), if_pos range]
    exact congrArg Number.integer (by omega)
  · rw [if_pos (by simpa using negative)]
    exact congrArg Number.integer (by omega)

theorem readsAs_integer {n : Int} (low : -2 ^ 63 ≤ n) (high : n < 2 ^ 64) : ReadsAs (.integer n) (.integer n) := by
  have fits : Nat.ofDigitChars 10 (Nat.repr n.natAbs).toList 0 ≤ greatestSignificand := by
    rw [Nat.toList_repr, Nat.ofDigitChars_ten_toDigits, greatestSignificand, Nat.pow_eq]
    omega
  have value := appendDigits_eq fits
  rw [Nat.toList_repr, Nat.ofDigitChars_ten_toDigits] at value
  refine ⟨⟨decide (n < 0), (Nat.repr n.natAbs).toList, none, none⟩, ⟨NumberText.isDigits_repr _, ?_, by simp⟩, ?_, ?_⟩
  · intro long
    apply head?_repr
    intro zero
    simp [zero] at long
  · change (Int.repr n).toList = _
    simp [toList_repr_int, NumberText.chars, NumberText.fractionChars, NumberText.exponentChars]
  · simp [NumberText.value?, value, wholeNumber_natAbs low]

end EditorScheme.Json
