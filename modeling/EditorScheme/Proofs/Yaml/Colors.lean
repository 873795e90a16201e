import EditorScheme.Proofs.Yaml.Numerals

/-!
Colors as plain scalars. A color of six digits of base sixteen is mostly read as it is written. The exceptions are
the colors that happen to be numbers of another notation, because a number is written in one way only.
-/
namespace EditorScheme

namespace DecimalLayout

/-- Without a point a magnitude is one digit with an exponent. -/
theorem magnitude_cases (layout : DecimalLayout) (d : Decimal) : '.' ∈ layout.magnitude d ∨
    ∃ c, layout.magnitude d = c :: layout.exponentText d.exponent := by
  simp only [magnitude]
  split
  · by_cases one : (Nat.repr d.significand).toList.length = 1
    · obtain ⟨c, single⟩ := List.length_eq_one_iff.mp one
      refine .inr ⟨c, ?_⟩
      simp [single]
    · left
      simp only [if_neg one]
      simp
  · split
    · simp
    · split <;> simp

theorem text_zero (layout : DecimalLayout) (exponent : Nat) :
    (layout.text (Binary64.ofDecimal false ⟨0, exponent⟩)).toList = ['0', '.', '0'] := by
  simp [Binary64.ofDecimal, Binary64.zero, text, finite]

/-- The text of a number has a point or a minus sign in it, or it is one digit with an exponent. -/
theorem text_cases (layout : DecimalLayout) (noPlus : layout.plusSign = false)
    (infinity : '.' ∈ layout.infinity.toList) (negative : '-' ∈ layout.negativeInfinity.toList)
    (notNumber : '.' ∈ layout.notNumber.toList) (x : Binary64) :
    '.' ∈ (layout.text x).toList ∨ '-' ∈ (layout.text x).toList ∨
      ∃ c k, (layout.text x).toList = c :: 'e' :: (Nat.repr k).toList := by
  cases x with
  | infinite sign => cases sign <;> simp [text, infinity, negative]
  | nan => simp [text, notNumber]
  | finite sign significand exponent =>
    cases sign with
    | true => simp [text, finite]
    | false =>
      by_cases zero : significand = 0
      · simp [text, finite, zero]
      · have shown : (layout.text (.finite false significand exponent)).toList =
            layout.magnitude (Binary64.shortest significand exponent) := by
          simp [text, finite, zero]
        rw [shown]
        refine (layout.magnitude_cases _).imp_right ?_
        rintro ⟨c, scientific⟩
        rw [scientific]
        by_cases small : (Binary64.shortest significand exponent).exponent < 0
        · simp [exponentText, small]
        · right
          refine ⟨c, (Binary64.shortest significand exponent).exponent.natAbs, ?_⟩
          simp [exponentText, small, noPlus]

end DecimalLayout

namespace Yaml

/-- A color without quotes: six digits of base sixteen, the letters of them small. -/
structure IsColor (text : List Char) : Prop where
  six : text.length = 6
  digits : ∀ c ∈ text, c.isDigit = true ∨ c ∈ ['a', 'b', 'c', 'd', 'e', 'f']

/-- The colors that are also numbers of another notation: binary digits behind the sign of their base, and digits
with an exponent, if the number is not too great to be finite. -/
inductive Respelled : List Char → Prop
  | binary {bits : List Char} : (∀ c ∈ bits, c = '0' ∨ c = '1') → Respelled ('0' :: 'b' :: bits)
  | scientific {whole exponent : List Char} : whole ≠ [] → exponent ≠ [] →
      (∀ c ∈ whole, c.isDigit = true) → (∀ c ∈ exponent, c.isDigit = true) →
      Nat.ofDigitChars 10 whole 0 * 10 ^ Nat.ofDigitChars 10 exponent 0 < Binary64.overflow →
      Respelled (whole ++ 'e' :: exponent)

namespace IsColor

variable {text : List Char}

theorem isWord (color : IsColor text) : IsWord text where
  notEmpty := by
    rintro rfl
    cases color.six
  alphanum c member := by
    rcases color.digits c member with digit | letter
    · exact Text.isAlphanum_iff.mpr (.inr digit)
    · simp only [List.mem_cons, List.not_mem_nil, or_false] at letter
      rcases letter with rfl | rfl | rfl | rfl | rfl | rfl <;> rfl

theorem notMem (color : IsColor text) {c : Char} (other : c.isDigit = false)
    (letter : c ∉ ['a', 'b', 'c', 'd', 'e', 'f']) : c ∉ text := by
  intro member
  rcases color.digits c member with digit | listed
  · rw [other] at digit
    cases digit
  · exact letter listed

theorem unbased (color : IsColor text)
    (notBinary : ∀ bits, text = '0' :: 'b' :: bits → ¬ ∀ c ∈ bits, c = '0' ∨ c = '1') : Unbased text where
  hexadecimal rest := by
    rintro rfl
    exact color.notMem (c := 'x') (by decide) (by decide) (by simp)
  octal rest := by
    rintro rfl
    exact color.notMem (c := 'o') (by decide) (by decide) (by simp)
  binary rest shape := by
    rw [← Option.not_isSome_iff_eq_none, Text.isSome_readNat?_iff]
    rintro ⟨-, bits⟩
    exact notBinary rest shape fun c member => Text.isSome_digitValue?_two.mp (bits c member)

theorem null?_eq {text : String} (color : IsColor text.toList) : null? text = false := by
  have six := color.six
  rw [← Bool.not_eq_true]
  intro null
  simp only [null?, Bool.or_eq_true, beq_iff_eq] at null
  rcases null with ((rfl | rfl) | rfl) | rfl <;> cases six

theorem bool?_eq {text : String} (color : IsColor text.toList) : bool? text = none := by
  have six := color.six
  unfold bool?
  split
  · next true =>
    rcases true with rfl | rfl | rfl <;> cases six
  · split
    · next false =>
      rcases false with rfl | rfl | rfl <;> cases six
    · rfl

theorem ofPlain_of_fits {text : String} {n : Nat} (color : IsColor text.toList)
    (fits : readInteger text.toList = .fits n) : Value.ofPlain text = .ok (.number (.integer n)) := by
  have notEmpty : text ≠ "" := by
    rintro rfl
    cases color.six
  simp [Value.ofPlain, notEmpty, color.null?_eq, color.bool?_eq, fits]

theorem ofPlain_binary {text : String} {bits : List Char} (color : IsColor text.toList)
    (shape : text.toList = '0' :: 'b' :: bits) (binary : ∀ c ∈ bits, c = '0' ∨ c = '1') :
    ∃ n : Nat, Value.ofPlain text = .ok (.number (.integer n)) ∧ Nat.repr n ≠ text := by
  have four : bits.length = 4 := by
    have six := color.six
    rw [shape] at six
    simpa using six
  have readable : (Text.readNat? 2 bits).isSome := by
    refine Text.isSome_readNat?_iff.mpr ⟨?_, fun c member => Text.isSome_digitValue?_two.mpr (binary c member)⟩
    rintro rfl
    cases four
  obtain ⟨n, read⟩ := Option.isSome_iff_exists.mp readable
  have small : n < 2 ^ 4 := four ▸ Text.readNat?_lt read
  have fits : readInteger text.toList = .fits n := by
    have inRange : n < Nat.pow 2 64 := Nat.lt_of_lt_of_le small (by decide)
    rw [color.isWord.readInteger_eq, shape]
    simp only [magnitude?, read, if_pos inRange]
  refine ⟨n, color.ofPlain_of_fits fits, ?_⟩
  rintro rfl
  rw [Nat.toList_repr] at shape
  have digit : 'b'.isDigit = true :=
    Nat.isDigit_of_mem_toDigits (b := 10) (n := n) (by decide) (by decide) (by simp [shape])
  cases digit

/-- Decimal digits are written as they are read, and with a needless zero they are no number. -/
theorem ofPlain_digits {text : String} (color : IsColor text.toList) (digits : ∀ c ∈ text.toList, c.isDigit = true) :
    ∃ value, Value.ofPlain text = .ok value ∧ value.scalarText? = some text := by
  have plain : Unbased text.toList := color.unbased fun bits shape _ => by
    have digit := digits 'b' (by simp [shape])
    cases digit
  have six := color.six
  have word := color.isWord
  by_cases padded : isZeroPadded text.toList = true
  · have notInteger : readInteger text.toList = .notInteger := by
      rw [word.readInteger_eq, IsWord.magnitude?_eq plain, padded]
      rfl
    have notEmpty : text ≠ "" := by
      rintro rfl
      cases six
    refine ⟨.string text, ?_, rfl⟩
    simp [Value.ofPlain, notEmpty, color.null?_eq, color.bool?_eq, notInteger, padded]
  · have read := Text.readNat?_ten word.notEmpty digits
    have small := Text.readNat?_lt read
    have fits : readInteger text.toList = .fits (Nat.ofDigitChars 10 text.toList 0) := by
      have inRange : Nat.ofDigitChars 10 text.toList 0 < Nat.pow 2 64 := by
        refine Nat.lt_of_lt_of_le small ?_
        rw [six]
        decide
      rw [word.readInteger_eq, IsWord.magnitude?_eq plain, if_neg padded, read]
      exact if_pos inRange
    refine ⟨_, color.ofPlain_of_fits fits, ?_⟩
    obtain ⟨c, rest, shape⟩ := List.exists_cons_of_ne_nil word.notEmpty
    have first : c ≠ '0' := by
      intro zero
      rw [shape] at padded six word digits
      rw [word.isZeroPadded_iff] at padded
      refine padded ⟨zero, ?_, digits⟩
      rintro rfl
      cases six
    have back : Nat.repr (Nat.ofDigitChars 10 text.toList 0) = text := by
      apply String.toList_inj.mp
      rw [Nat.toList_repr]
      rw [shape] at digits ⊢
      exact Text.toDigits_ofDigitChars digits first
    exact congrArg some back

theorem single_of_scientific {whole exponent behind : List Char} {c : Char} (notEmpty : whole ≠ [])
    (digits : ∀ d ∈ whole, d.isDigit = true) (same : whole ++ 'e' :: exponent = c :: 'e' :: behind) :
    whole = [c] ∧ exponent = behind := by
  obtain ⟨first, whole, rfl⟩ := List.exists_cons_of_ne_nil notEmpty
  obtain ⟨rfl, tails⟩ := List.cons.inj same
  cases whole with
  | nil =>
    obtain ⟨-, rfl⟩ := List.cons.inj tails
    exact ⟨rfl, rfl⟩
  | cons other whole =>
    obtain ⟨rfl, -⟩ := List.cons.inj tails
    cases digits 'e' (by simp)

theorem text_ne_of_decimal {text : String} {d : Decimal} (color : IsColor text.toList)
    (mixed : ¬ ∀ c ∈ text.toList, c.isDigit = true) (read : decimal? text.toList = some d)
    (finite : (Binary64.ofDecimal false d).isInfinite = false) :
    numberLayout.text (Binary64.ofDecimal false d) ≠ text := by
  have point : '.' ∉ text.toList := color.notMem (by decide) (by decide)
  have minus : '-' ∉ text.toList := color.notMem (by decide) (by decide)
  have capital : 'E' ∉ text.toList := color.notMem (by decide) (by decide)
  obtain ⟨whole, exponent, shape, notEmpty, -, digits, -, rfl⟩ :=
    (color.isWord.decimal?_eq_some_iff capital mixed).mp read
  intro same
  have written := numberLayout.text_cases rfl (by decide) (by decide) (by decide)
    (Binary64.ofDecimal false ⟨Nat.ofDigitChars 10 whole 0, Nat.ofDigitChars 10 exponent 0⟩)
  rw [same] at written
  rcases written with pointed | signed | ⟨c, k, scientific⟩
  · exact point pointed
  · exact minus signed
  · -- Four digits of an exponent without a needless zero are out of range, unless the number is zero.
    have large : 1000 ≤ k := by
      have six := color.six
      rw [scientific, Nat.toList_repr] at six
      have short := Nat.length_toDigits_le_iff (n := k) (b := 10) (k := 3) (by decide) (by decide)
      simp only [List.length_cons] at six
      omega
    rw [shape] at scientific
    obtain ⟨rfl, rfl⟩ := single_of_scientific notEmpty digits scientific
    rw [Nat.toList_repr, Nat.ofDigitChars_ten_toDigits] at finite same
    rw [Binary64.eq_zero_of_finite (by omega) finite] at same
    have zero := numberLayout.text_zero k
    rw [same] at zero
    exact point (by simp [zero])

theorem respelled_iff_of_decimal {text : List Char} {d : Decimal} (color : IsColor text)
    (mixed : ¬ ∀ c ∈ text, c.isDigit = true) (read : decimal? text = some d) :
    Respelled text ↔ (Binary64.ofDecimal false d).isInfinite = false := by
  have capital : 'E' ∉ text := color.notMem (by decide) (by decide)
  have decimal (d : Decimal) := color.isWord.decimal?_eq_some_iff (d := d) capital mixed
  rw [← Bool.not_eq_true]
  constructor
  · intro respelled
    cases respelled with
    | binary bits =>
      obtain ⟨whole, exponent, shape, -, -, digits, behind, -⟩ := (decimal _).mp read
      have member : 'b' ∈ whole ++ 'e' :: exponent := by simp [← shape]
      rcases List.mem_append.mp member with inside | member
      · cases digits 'b' inside
      · rcases List.mem_cons.mp member with same | inside
        · cases same
        · cases behind 'b' inside
    | scientific notEmpty behind digits digitsBehind inRange =>
      have written := (decimal _).mpr ⟨_, _, rfl, notEmpty, behind, digits, digitsBehind, rfl⟩
      rw [read] at written
      cases written
      rw [Binary64.isInfinite_ofDecimal_iff]
      omega
  · intro finite
    obtain ⟨whole, exponent, rfl, notEmpty, behind, digits, digitsBehind, rfl⟩ := (decimal _).mp read
    rw [Binary64.isInfinite_ofDecimal_iff] at finite
    exact .scientific notEmpty behind digits digitsBehind (by omega)

theorem not_respelled_of_digits {text : List Char} (digits : ∀ c ∈ text, c.isDigit = true) : ¬ Respelled text := by
  intro respelled
  cases respelled with
  | binary bits => cases digits 'b' (by simp)
  | scientific => cases digits 'e' (by simp)

theorem not_respelled_of_not_decimal {text : List Char} (color : IsColor text)
    (notBinary : ∀ bits, text = '0' :: 'b' :: bits → ¬ ∀ c ∈ bits, c = '0' ∨ c = '1')
    (mixed : ¬ ∀ c ∈ text, c.isDigit = true) (unread : decimal? text = none) : ¬ Respelled text := by
  have capital : 'E' ∉ text := color.notMem (by decide) (by decide)
  intro respelled
  cases respelled with
  | binary bits => exact notBinary _ rfl bits
  | scientific notEmpty behind digits digitsBehind inRange =>
    have written := (color.isWord.decimal?_eq_some_iff capital mixed).mpr
      ⟨_, _, rfl, notEmpty, behind, digits, digitsBehind, rfl⟩
    rw [unread] at written
    cases written

/-- Every color is read, and as it is written unless it is a number of another notation. -/
theorem exists_ofPlain {text : String} (color : IsColor text.toList) : ∃ value read,
    Value.ofPlain text = .ok value ∧ value.scalarText? = some read ∧ (read = text ↔ ¬ Respelled text.toList) := by
  by_cases mixed : ¬ ∀ c ∈ text.toList, c.isDigit = true
  · by_cases based : ∃ bits, text.toList = '0' :: 'b' :: bits ∧ ∀ c ∈ bits, c = '0' ∨ c = '1'
    · obtain ⟨bits, shape, binary⟩ := based
      obtain ⟨n, value, other⟩ := color.ofPlain_binary shape binary
      refine ⟨_, Nat.repr n, value, rfl, ?_⟩
      rw [shape]
      simp [other, Respelled.binary binary]
    · have notBinary (bits : List Char) (shape : text.toList = '0' :: 'b' :: bits) :
          ¬ ∀ c ∈ bits, c = '0' ∨ c = '1' := fun binary => based ⟨bits, shape, binary⟩
      have value := color.isWord.ofPlain_of_mixed (color.unbased notBinary) color.null?_eq color.bool?_eq mixed
      cases read : decimal? text.toList with
      | none =>
        rw [read] at value
        refine ⟨_, text, value, rfl, ?_⟩
        simp [color.not_respelled_of_not_decimal notBinary mixed read]
      | some d =>
        have respelled := color.respelled_iff_of_decimal mixed read
        rw [read, Option.map_some] at value
        dsimp only at value
        by_cases infinite : (Binary64.ofDecimal false d).isInfinite = true
        · rw [if_pos infinite] at value
          refine ⟨_, text, value, rfl, ?_⟩
          simp [respelled, infinite]
        · rw [if_neg infinite] at value
          refine ⟨_, _, value, rfl, ?_⟩
          rw [Bool.not_eq_true] at infinite
          simp [respelled, infinite, color.text_ne_of_decimal mixed read infinite, Number.text]
  · have digits : ∀ c ∈ text.toList, c.isDigit = true := not_not.mp mixed
    obtain ⟨value, ok, shown⟩ := color.ofPlain_digits digits
    refine ⟨value, text, ok, shown, ?_⟩
    simp [not_respelled_of_digits digits]

end IsColor

end Yaml

end EditorScheme
