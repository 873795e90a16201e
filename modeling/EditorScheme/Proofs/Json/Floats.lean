import EditorScheme.Proofs.Json.Decimals
import EditorScheme.Proofs.Json.Nesting

/-!
Floating-point numbers in JSON texts. Numbers from texts are in range, and what a number in range is written as is in
range as well, although it may be read as another number.
-/
namespace EditorScheme.Json

open Binary64

variable {x y : Binary64} {steps significand : Nat} {exponent : Int} {digits : List Char} {negative : Bool}

theorem greatestSignificand_lt : greatestSignificand < overflow := by decide +kernel

theorem ten_pow_lt {exponent : Nat} (small : exponent ≤ greatestPower) : 10 ^ exponent < overflow := by
  have most : 10 ^ greatestPower < overflow := by decide +kernel
  exact (Nat.pow_le_pow_right (by decide) small).trans_lt most

theorem le_ten_pow {exponent : Nat} (large : greatestPower < exponent) : overflow ≤ 10 ^ exponent := by
  have least : overflow ≤ 10 ^ (greatestPower + 1) := by decide +kernel
  exact least.trans (Nat.pow_le_pow_right (by decide) large)

theorem representable_zero (negative : Bool) : Representable (Binary64.zero negative) :=
  .finite negative (by decide) (by decide)

theorem representable_ofNat (fits : significand ≤ greatestSignificand) : Representable (Binary64.ofNat significand) := by
  by_cases zero : significand = 0
  · rw [zero]
    exact representable_zero false
  · exact (ofNat_bounds zero (fits.trans_lt greatestSignificand_lt)).1

theorem powerOfTen_bounds {exponent : Nat} (small : exponent ≤ greatestPower) : Representable (powerOfTen exponent) ∧
    1 ≤ (powerOfTen exponent).magnitude ∧ (powerOfTen exponent).magnitude ≤ 10 ^ exponent * (1 + 1 / 2 ^ 53) := by
  have bounds := ofNat_bounds (n := 10 ^ exponent) (by positivity) (ten_pow_lt small)
  rw [powerOfTen, Nat.pow_eq]
  exact_mod_cast bounds

theorem representable_negate (representable : Representable x) : Representable x.negate := by
  cases representable with
  | finite negative bits inRange => exact .finite _ bits inRange

theorem representable_of_scaled? (representable : Representable x) (scaled : scaled? steps x exponent = some y) :
    Representable y := by
  induction steps using Nat.strongRecOn generalizing x exponent with
  | ind steps ih =>
    unfold scaled? at scaled
    split at scaled
    · next small =>
      have power := powerOfTen_bounds small
      split at scaled
      · obtain ⟨done, finite⟩ := Option.filter_eq_some_iff.mp scaled
        cases done
        exact (timesPositive_finite representable power.1).2 (by simpa using finite)
      · cases scaled
        exact representable_overPositive representable power.1 power.2.1
    · split at scaled
      · cases scaled
        exact representable
      · split at scaled
        · cases scaled
        · split at scaled
          · cases scaled
            exact representable_zero false
          · next steps =>
            have power := powerOfTen_bounds (Nat.le_refl greatestPower)
            exact ih steps (by omega) (representable_overPositive representable power.1 power.2.1) scaled

theorem isSome_scaled?_of_neg (small : exponent < 0) : (scaled? steps x exponent).isSome := by
  induction steps using Nat.strongRecOn generalizing x exponent with
  | ind steps ih =>
    unfold scaled?
    rw [if_neg (not_le.mpr small)]
    split
    · rfl
    · next far =>
      split
      · rfl
      · rw [if_neg (not_le.mpr small)]
        split
        · rfl
        · next steps => exact ih steps (by omega) (by omega)

theorem representable_of_float? (fits : significand ≤ greatestSignificand)
    (read : float? negative significand exponent = some (.float x)) : Representable x := by
  obtain ⟨y, scaled, same⟩ := Option.map_eq_some_iff.mp read
  have representable := representable_of_scaled? (representable_ofNat fits) scaled
  cases same
  split
  · exact representable_negate representable
  · exact representable

theorem representable_of_value? {text : NumberText} (read : text.value? = some (.float x)) : Representable x := by
  have fits := appendDigits_le text.whole (Nat.zero_le greatestSignificand)
  unfold NumberText.value? at read
  dsimp only at read
  split at read
  · unfold wholeNumber at read
    split at read
    · cases read
    · split at read
      · cases read
      · cases read
        exact representable_negate (representable_ofNat fits)
  · exact representable_of_float? (appendDigits_le _ fits) read

theorem magnitude_ofNat_le (fits : significand ≤ greatestSignificand) :
    0 ≤ (Binary64.ofNat significand).magnitude ∧
      (Binary64.ofNat significand).magnitude ≤ significand * (1 + 1 / 2 ^ 53) := by
  by_cases zero : significand = 0
  · have same : (Binary64.ofNat significand).magnitude = 0 := by
      rw [zero, Binary64.ofNat, nearest, if_pos rfl, Binary64.zero, magnitude, Nat.cast_zero, zero_mul]
    rw [same, zero]
    simp
  · have bounds := (ofNat_bounds zero (fits.trans_lt greatestSignificand_lt)).2
    exact ⟨zero_le_one.trans bounds.1, bounds.2⟩

/-- A product that stays below the least number that is rounded to infinity, errors included, can be formed. -/
theorem isSome_scaled?_of_lt {exponent : Nat} (fits : significand ≤ greatestSignificand)
    (inside : (significand : ℚ) * 10 ^ exponent * (1 + 1 / 2 ^ 53) ^ 2 < overflow) :
    (scaled? steps (Binary64.ofNat significand) exponent).isSome := by
  have factor := magnitude_ofNat_le fits
  have positive : 0 ≤ (exponent : Int) := Int.natCast_nonneg exponent
  by_cases small : exponent ≤ greatestPower
  · have power := powerOfTen_bounds small
    have product : (Binary64.ofNat significand).magnitude * (powerOfTen exponent).magnitude < overflow := by
      refine lt_of_le_of_lt ?_ inside
      calc (Binary64.ofNat significand).magnitude * (powerOfTen exponent).magnitude
          ≤ significand * (1 + 1 / 2 ^ 53) * (10 ^ exponent * (1 + 1 / 2 ^ 53)) :=
            mul_le_mul factor.2 power.2.2 (zero_le_one.trans power.2.1) (factor.1.trans factor.2)
        _ = significand * 10 ^ exponent * (1 + 1 / 2 ^ 53) ^ 2 := by ring
    have finite := (timesPositive_finite (representable_ofNat fits) power.1).1 product
    unfold scaled?
    rw [Int.natAbs_natCast, if_pos small, if_pos positive]
    simp [finite]
  · have zero : significand = 0 := by
      by_contra nonzero
      have beyond : overflow ≤ significand * 10 ^ exponent :=
        (le_ten_pow (not_le.mp small)).trans (Nat.le_mul_of_pos_left _ (Nat.pos_of_ne_zero nonzero))
      have reached : (overflow : ℚ) ≤ significand * 10 ^ exponent := by exact_mod_cast beyond
      have more : (significand : ℚ) * 10 ^ exponent ≤ significand * 10 ^ exponent * (1 + 1 / 2 ^ 53) ^ 2 :=
        le_mul_of_one_le_right (by positivity) (one_le_pow₀ (by norm_num))
      exact absurd inside (not_lt.mpr (reached.trans more))
    unfold scaled?
    rw [Int.natAbs_natCast, if_neg small, zero]
    rfl

/-- Digits that do not fit are left out, so that no more is left than the digits say. -/
theorem appendDigits_bounds (digits : List Char) (significand : Nat) :
    (appendDigits significand digits).2 ≤ digits.length ∧
      (appendDigits significand digits).1 * 10 ^ (digits.length - (appendDigits significand digits).2) ≤
        Nat.ofDigitChars 10 digits significand := by
  induction digits generalizing significand with
  | nil => simp [appendDigits]
  | cons c digits ih =>
    unfold appendDigits
    dsimp only
    split
    · have bounds := ih (significand * 10 + (c.toNat - 48))
      rw [ofDigitChars_cons_eq]
      simpa using bounds
    · exact ⟨Nat.zero_le _, by simpa using mul_pow_le_ofDigitChars (c :: digits) significand⟩

variable {text : NumberText} {d : Decimal}

open NumberText

/-- A number with a point or an exponent is read from digits that stand for no more than its size. -/
theorem value?_eq_float? (writes : Writes text d) : ∃ significand places : Nat, significand ≤ greatestSignificand ∧
    (significand : ℚ) * 10 ^ (text.exponent.getD 0 - places) ≤ decimalValue d ∧
    text.value? = float? text.negative significand (text.exponent.getD 0 - places) := by
  have whole := writes.wellFormed.whole
  have below : Nat.ofDigitChars 10 text.whole 0 < 10 ^ 16 :=
    (Text.readNat?_lt (Text.readNat?_ten whole.notEmpty whole.digit)).trans_le
      (Nat.pow_le_pow_right (by decide) writes.short)
  have fits : Nat.ofDigitChars 10 text.whole 0 ≤ greatestSignificand := below.le.trans (by decide)
  have appended := appendDigits_eq fits
  have bounds := appendDigits_bounds (text.fraction.getD []) (Nat.ofDigitChars 10 text.whole 0)
  have most := appendDigits_le (text.fraction.getD []) fits
  have notWhole : ¬ (text.fraction.isNone ∧ text.exponent.isNone ∧ text.whole.length - text.whole.length = 0) := by
    rintro ⟨noFraction, noExponent, -⟩
    rcases writes.marked with fraction | exponent
    · simp [Option.isNone_iff_eq_none.mp noFraction] at fraction
    · simp [Option.isNone_iff_eq_none.mp noExponent] at exponent
  refine ⟨(appendDigits (Nat.ofDigitChars 10 text.whole 0) (text.fraction.getD [])).1,
    (appendDigits (Nat.ofDigitChars 10 text.whole 0) (text.fraction.getD [])).2, most, ?_, ?_⟩
  · generalize appendDigits (Nat.ofDigitChars 10 text.whole 0) (text.fraction.getD []) = result at *
    obtain ⟨significand, places⟩ := result
    dsimp only at bounds ⊢
    obtain ⟨enough, less⟩ := bounds
    rw [← writes.size, size, NumberText.digits, Nat.ofDigitChars_append]
    generalize text.exponent.getD 0 = exponent
    obtain ⟨left, length⟩ := Nat.exists_eq_add_of_le enough
    rw [length, Nat.add_sub_cancel_left] at less
    have total : (significand : ℚ) * 10 ^ left ≤
        Nat.ofDigitChars 10 (text.fraction.getD []) (Nat.ofDigitChars 10 text.whole 0) := by exact_mod_cast less
    have split : exponent - (places : Int) = left + (exponent - (text.fraction.getD []).length) := by omega
    rw [split, zpow_add₀ (by norm_num), zpow_natCast, ← mul_assoc]
    exact mul_le_mul_of_nonneg_right total (by positivity)
  · simp only [value?, appended, if_neg notWhole]
    congr 1
    omega

theorem isSome_value?_of_lt (writes : Writes text d) (inside : decimalValue d * (1 + 1 / 2 ^ 53) ^ 2 < overflow) :
    text.value?.isSome := by
  obtain ⟨significand, places, most, less, value⟩ := value?_eq_float? writes
  rw [value, float?, Option.isSome_map]
  generalize text.exponent.getD 0 - (places : Int) = exponent at *
  rcases lt_or_ge exponent 0 with below | above
  · exact isSome_scaled?_of_neg below
  · obtain ⟨exponent, rfl⟩ := Int.eq_ofNat_of_zero_le above
    rw [zpow_natCast] at less
    refine isSome_scaled?_of_lt most (lt_of_le_of_lt ?_ inside)
    exact mul_le_mul_of_nonneg_right less (by positivity)

/-- Rounding errors do not lead out of the range, but for the greatest numbers. -/
theorem shortest_inside (positive : significand ≠ 0) (bits : significand < 2 ^ 53)
    (inRange : exponent ≤ greatestExponent) (notLast : exponent < greatestExponent ∨ significand + 3 < 2 ^ 53) :
    decimalValue (shortest significand exponent) * (1 + 1 / 2 ^ 53) ^ 2 < overflow := by
  have most := (shortest_bounds positive bits inRange).2
  have error : (0 : ℚ) ≤ (1 + 1 / 2 ^ 53) ^ 2 := by norm_num
  have step : (0 : ℚ) < 2 ^ greatestExponent := zpow_pos two_pos _
  have low : (0 : ℚ) < 2 ^ max exponent 0 := zpow_pos two_pos _
  have bounded : (significand + 1 / 2 : ℚ) * 2 ^ max exponent 0 ≤ (2 ^ 53 - 7 / 2) * 2 ^ greatestExponent := by
    rcases notLast with less | fewer
    · have half : (2 : ℚ) ^ max exponent 0 * 2 ≤ 2 ^ greatestExponent := by
        rw [← zpow_add_one₀ two_ne_zero]
        refine zpow_le_zpow_right₀ one_le_two ?_
        have one : (1 : Int) ≤ greatestExponent := by decide
        omega
      have whole : (significand : ℚ) + 1 ≤ 2 ^ 53 := by exact_mod_cast bits
      generalize (2 : ℚ) ^ max exponent 0 = unit at *
      generalize (2 : ℚ) ^ greatestExponent = last at *
      calc (significand + 1 / 2 : ℚ) * unit ≤ (2 ^ 53 - 1 / 2) * unit := by
            gcongr
            linarith
        _ ≤ (2 ^ 53 - 1 / 2) * (last / 2) := by
          gcongr
          linarith
        _ ≤ (2 ^ 53 - 7 / 2) * last := by linarith
    · have most : (2 : ℚ) ^ max exponent 0 ≤ 2 ^ greatestExponent :=
        zpow_le_zpow_right₀ one_le_two (max_le inRange (by decide))
      have whole : (significand : ℚ) + 4 ≤ 2 ^ 53 := by exact_mod_cast fewer
      generalize (2 : ℚ) ^ max exponent 0 = unit at *
      generalize (2 : ℚ) ^ greatestExponent = last at *
      gcongr
      linarith
  rw [overflow_eq]
  generalize (2 : ℚ) ^ greatestExponent = last at *
  calc decimalValue (shortest significand exponent) * (1 + 1 / 2 ^ 53) ^ 2
      ≤ (2 ^ 53 - 7 / 2) * last * (1 + 1 / 2 ^ 53) ^ 2 := mul_le_mul_of_nonneg_right (most.trans bounded) error
    _ = (2 ^ 53 - 7 / 2) * (1 + 1 / 2 ^ 53) ^ 2 * last := by ring
    _ < (2 ^ 53 - 1 / 2) * last := by
      gcongr
      norm_num

theorem isSome_value?_greatest : ∀ k < 3, ((read? (numberLayout.magnitude
    (shortest (2 ^ 53 - 1 - k) greatestExponent))).bind fun (text, _) => text.value?).isSome := by decide +kernel

theorem isSome_value?_shortest (positive : significand ≠ 0) (bits : significand < 2 ^ 53)
    (inRange : exponent ≤ greatestExponent) (writes : Writes text (shortest significand exponent))
    (written : text.chars = numberLayout.magnitude (shortest significand exponent)) : text.value?.isSome := by
  by_cases notLast : exponent < greatestExponent ∨ significand + 3 < 2 ^ 53
  · exact isSome_value?_of_lt writes (shortest_inside positive bits inRange notLast)
  · -- The text of one of the three greatest numbers is read by computation.
    obtain ⟨k, few, rfl⟩ : ∃ k < 3, significand = 2 ^ 53 - 1 - k := ⟨2 ^ 53 - 1 - significand, by omega, by omega⟩
    obtain rfl : exponent = greatestExponent := by omega
    have read := read?_chars writes.wellFormed endsNumber_nil
    rw [List.append_nil, written] at read
    have greatest := isSome_value?_greatest k few
    rwa [read] at greatest

theorem isSome_value?_negative (text : NumberText) (negative : Bool) :
    ({ text with negative } : NumberText).value?.isSome = text.value?.isSome := by
  unfold value? float?
  dsimp only
  split <;> simp

theorem readsAs_zero (negative : Bool) (exponent : Int) :
    ∃ other, ReadsAs (.float (.finite negative 0 exponent)) other := by
  have readable : (NumberText.value? ⟨negative, ['0'], some ['0'], none⟩).isSome := by
    cases negative <;> decide +kernel
  obtain ⟨other, value⟩ := Option.isSome_iff_exists.mp readable
  refine ⟨other, _, ⟨⟨by simp, by simp⟩, by simp, fun digits member => ?_⟩, ?_, value⟩
  · cases member
    exact ⟨by simp, by simp⟩
  · simp [Number.text, DecimalLayout.text, DecimalLayout.finite, chars, fractionChars, exponentChars]

/-- What a number in range is written as is read as some number. -/
theorem readsAs_float (representable : Representable x) : ∃ other, ReadsAs (.float x) other := by
  cases representable with
  | @finite negative significand exponent bits inRange =>
    by_cases zero : significand = 0
    · rw [zero]
      exact readsAs_zero negative exponent
    · obtain ⟨text, unsigned, writes, written⟩ := exists_writes (shortest_bounds zero bits inRange).1
      have readable := isSome_value?_shortest zero bits inRange writes written
      rw [← isSome_value?_negative text negative] at readable
      obtain ⟨other, value⟩ := Option.isSome_iff_exists.mp readable
      refine ⟨other, _, (writes.signed negative).wellFormed, ?_, value⟩
      rw [chars_signed unsigned, written]
      simp [Number.text, DecimalLayout.text, DecimalLayout.finite, zero]

theorem exists_readsAs {n : Number} (fromText : IsRead n) : ∃ other, ReadsAs n other := by
  obtain ⟨text, read⟩ := fromText
  cases n with
  | integer n =>
    obtain ⟨low, high⟩ := range_of_value? read
    exact ⟨_, readsAs_integer low high⟩
  | float x => exact readsAs_float (representable_of_value? read)

end EditorScheme.Json
