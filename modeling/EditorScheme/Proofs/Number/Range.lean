import EditorScheme.Number
import Mathlib.Tactic.Ring
import Mathlib.Tactic.Linarith

/-!
The range of double-precision numbers: which decimals are too great to be rounded to a finite one.
-/
namespace EditorScheme

/-- Below a whole number of steps a quotient is rounded up to it from half a step on. -/
theorem roundQuotient_eq_iff {n half limit : Nat} (even : limit % 2 = 0) (positive : 0 < half)
    (below : n < limit * (2 * half)) : roundQuotient n (2 * half) = limit ↔ (2 * limit - 1) * half ≤ n := by
  have size : 2 * half * (n / (2 * half)) + n % (2 * half) = n := Nat.div_add_mod n (2 * half)
  have rest : n % (2 * half) < 2 * half := Nat.mod_lt n (by omega)
  have quotient : n / (2 * half) < limit := (Nat.div_lt_iff_lt_mul (by omega)).mpr below
  simp only [roundQuotient]
  generalize n / (2 * half) = q at *
  generalize n % (2 * half) = r at *
  obtain last | far : limit = q + 1 ∨ q + 2 ≤ limit := by omega
  · have odd : q % 2 = 1 := by omega
    have reach : (2 * limit - 1) * half = 2 * half * q + half := by
      rw [last, show 2 * (q + 1) - 1 = 2 * q + 1 by omega]
      ring
    rw [reach, last]
    split
    · omega
    · split <;> omega
  · have reach : n < (2 * limit - 1) * half :=
      calc n < 2 * half * (q + 1) := by rw [Nat.mul_succ]; omega
        _ = (2 * (q + 1)) * half := by ring
        _ ≤ (2 * limit - 1) * half := Nat.mul_le_mul_right half (by omega)
    have less : ¬ (2 * limit - 1) * half ≤ n := by omega
    rw [iff_false_right less]
    split
    · omega
    · split <;> omega

namespace Binary64

/-- The least number that is rounded to infinity. It lies half a step above the greatest finite one. -/
def overflow : Nat := (2 ^ 54 - 1) * 2 ^ 970

theorem scaleDown_of_nonneg {n exponent : Nat} : scaleDown n 1 exponent = (n, 2 ^ exponent) := by
  unfold scaleDown
  rw [if_neg (by omega), Int.toNat_natCast, Nat.one_mul, Nat.pow_eq]

theorem scaleDown_of_neg {n places : Nat} (positive : 0 < places) :
    scaleDown n 1 (-(places : Int)) = (n * 2 ^ places, 1) := by
  unfold scaleDown
  rw [if_pos (by omega), neg_neg, Int.toNat_natCast, Nat.pow_eq]

theorem exponentFor_one {n : Nat} (positive : n ≠ 0) : exponentFor n 1 = (n.log2 : Int) - 52 := by
  have low : 2 ^ n.log2 ≤ n := Nat.log2_self_le positive
  have one : Nat.log2 1 = 0 := by decide
  have exact (scaled : Nat × Nat) (same : scaleDown n 1 ((n.log2 : Int) - 52) = scaled)
      (reaches : scaled.2 * 2 ^ 52 ≤ scaled.1) : exponentFor n 1 = (n.log2 : Int) - 52 := by
    simp only [exponentFor, one, Nat.cast_zero, sub_zero, same, Nat.pow_eq]
    rw [if_neg (by omega), leastExponent]
    omega
  rcases Nat.lt_or_ge n.log2 52 with short | long
  · have places : (n.log2 : Int) - 52 = -((52 - n.log2 : Nat) : Int) := by omega
    refine exact _ (places ▸ scaleDown_of_neg (by omega)) ?_
    calc 1 * 2 ^ 52 = 2 ^ n.log2 * 2 ^ (52 - n.log2) := by
          rw [← Nat.pow_add, Nat.add_sub_cancel' (by omega), Nat.one_mul]
      _ ≤ n * 2 ^ (52 - n.log2) := Nat.mul_le_mul_right _ low
  · have steps : (n.log2 : Int) - 52 = ((n.log2 - 52 : Nat) : Int) := by omega
    refine exact _ (steps ▸ scaleDown_of_nonneg) ?_
    calc 2 ^ (n.log2 - 52) * 2 ^ 52 = 2 ^ n.log2 := by
          rw [← Nat.pow_add, Nat.sub_add_cancel long]
      _ ≤ n := low

theorem isInfinite_ite {negative : Bool} {significand : Nat} {exponent : Int} :
    (if greatestExponent < exponent then .infinite negative else .finite negative significand exponent :
      Binary64).isInfinite = true ↔ 971 < exponent := by
  unfold greatestExponent
  split <;> simp [isInfinite] <;> omega

theorem isInfinite_carried {negative : Bool} {rounded limit half : Nat} {exponent : Int} :
    (match if rounded = limit then (half, exponent + 1) else (rounded, exponent) with
      | (significand, exponent) =>
        if greatestExponent < exponent then Binary64.infinite negative
        else Binary64.finite negative significand exponent).isInfinite = true ↔
      971 < exponent ∨ exponent = 971 ∧ rounded = limit := by
  by_cases carried : rounded = limit
  · rw [if_pos carried]
    refine isInfinite_ite.trans ?_
    simp only [carried, and_true]
    omega
  · rw [if_neg carried]
    refine isInfinite_ite.trans ?_
    simp [carried]

/-- Only at the greatest exponent the rounding decides whether the result is finite. -/
theorem isInfinite_nearest {negative : Bool} {n : Nat} (positive : n ≠ 0) :
    (nearest negative n 1).isInfinite = true ↔
      1023 < n.log2 ∨ n.log2 = 1023 ∧ roundQuotient n (2 ^ 971) = 2 ^ 53 := by
  have last (places : n.log2 = 1023) : scaleDown n 1 ((n.log2 : Int) - 52) = (n, 2 ^ 971) := by
    have whole : (n.log2 : Int) - 52 = ((971 : Nat) : Int) := by omega
    rw [whole, scaleDown_of_nonneg]
  unfold nearest
  rw [if_neg positive, exponentFor_one positive]
  refine isInfinite_carried.trans ?_
  rw [Nat.pow_eq]
  constructor
  · rintro (beyond | ⟨greatest, rounded⟩)
    · omega
    · have places : n.log2 = 1023 := by omega
      rw [last places] at rounded
      exact .inr ⟨places, rounded⟩
  · rintro (beyond | ⟨places, rounded⟩)
    · omega
    · rw [last places]
      exact .inr ⟨by omega, rounded⟩

theorem isInfinite_nearest_iff {negative : Bool} {n : Nat} :
    (nearest negative n 1).isInfinite = true ↔ overflow ≤ n := by
  obtain ⟨half, isHalf⟩ : ∃ half, half = 2 ^ 970 := ⟨_, rfl⟩
  have least : 0 < half := isHalf ▸ pow_pos two_pos _
  have bound : overflow = (2 ^ 54 - 1) * half := by rw [overflow, isHalf]
  have step : 2 ^ 971 = 2 * half := by rw [isHalf, ← Nat.pow_succ']
  have below : 2 ^ 1023 = 2 ^ 53 * half := by rw [isHalf, ← Nat.pow_add]
  have above : 2 ^ 1024 = 2 ^ 54 * half := by rw [isHalf, ← Nat.pow_add]
  by_cases zero : n = 0
  · have under : ¬ overflow ≤ n := by omega
    rw [nearest, if_pos zero, iff_false_right under]
    simp [Binary64.zero, isInfinite]
  · rw [isInfinite_nearest zero, step, bound]
    have low : 2 ^ n.log2 ≤ n := Nat.log2_self_le zero
    have high : n < 2 ^ (n.log2 + 1) := Nat.lt_log2_self
    obtain short | last | long : n.log2 < 1023 ∨ n.log2 = 1023 ∨ 1023 < n.log2 := by omega
    · have small : n < 2 ^ 1023 := Nat.lt_of_lt_of_le high (pow_le_pow_right₀ (by omega) (by omega))
      omega
    · rw [last] at high
      have inside : n < 2 ^ 53 * (2 * half) := by omega
      rw [roundQuotient_eq_iff (by decide) least inside]
      omega
    · have large : 2 ^ 1024 ≤ n := Nat.le_trans (pow_le_pow_right₀ (by omega) (by omega)) low
      omega

theorem overflow_le {digits : Nat} (many : 310 ≤ digits) : overflow ≤ 10 ^ digits := by
  have start : overflow ≤ 10 ^ 310 := by decide +kernel
  exact Nat.le_trans start (pow_le_pow_right₀ (by omega) many)

theorem pow_le_of_length_repr {n digits : Nat} (positive : n ≠ 0) (length : (Nat.repr n).length = digits + 1) :
    10 ^ digits ≤ n := by
  rw [← String.length_toList, Nat.toList_repr] at length
  rcases Nat.eq_zero_or_pos digits with rfl | more
  · simpa [Nat.one_le_iff_ne_zero] using positive
  · have short := Nat.length_toDigits_le_iff (n := n) (b := 10) (by omega) more
    omega

/-- A whole decimal is rounded to infinity from the least number on that is. -/
theorem isInfinite_ofDecimal_iff {negative : Bool} {significand exponent : Nat} :
    (ofDecimal negative ⟨significand, exponent⟩).isInfinite = true ↔ overflow ≤ significand * 10 ^ exponent := by
  unfold ofDecimal
  dsimp only
  by_cases zero : significand = 0
  · have positive : 0 < overflow := Nat.mul_pos (by decide) (pow_pos two_pos _)
    have under : ¬ overflow ≤ significand * 10 ^ exponent := by
      rw [zero, Nat.zero_mul]
      omega
    rw [if_pos (.inl zero), iff_false_right under]
    simp [Binary64.zero, isInfinite]
  · have notSmall : ¬ (significand = 0 ∨ ((Nat.repr significand).length : Int) + exponent < -330) := by omega
    rw [if_neg notSmall]
    by_cases far : 310 < ((Nat.repr significand).length : Int) + exponent
    · have beyond : overflow ≤ significand * 10 ^ exponent := by
        obtain ⟨digits, length⟩ : ∃ digits, (Nat.repr significand).length = digits + 1 :=
          Nat.exists_eq_succ_of_ne_zero (Nat.ne_of_gt Nat.length_repr_pos)
        calc overflow ≤ 10 ^ (digits + exponent) := overflow_le (by omega)
          _ = 10 ^ digits * 10 ^ exponent := Nat.pow_add 10 digits exponent
          _ ≤ significand * 10 ^ exponent :=
            Nat.mul_le_mul_right _ (pow_le_of_length_repr zero length)
      rw [if_pos far, iff_true_right beyond]
      rfl
    · rw [if_neg far, if_neg (by omega), Int.toNat_natCast, Nat.pow_eq]
      exact isInfinite_nearest_iff

/-- With an exponent that is out of range only zero stays finite. -/
theorem eq_zero_of_finite {negative : Bool} {significand exponent : Nat} (large : 310 ≤ exponent)
    (finite : (ofDecimal negative ⟨significand, exponent⟩).isInfinite = false) : significand = 0 := by
  by_contra positive
  have beyond : overflow ≤ significand * 10 ^ exponent :=
    calc overflow ≤ 10 ^ exponent := overflow_le large
      _ ≤ significand * 10 ^ exponent := Nat.le_mul_of_pos_left _ (Nat.pos_of_ne_zero positive)
  rw [isInfinite_ofDecimal_iff.mpr beyond] at finite
  cases finite

end Binary64

end EditorScheme
