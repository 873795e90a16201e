import EditorScheme.Proofs.Number.Range
import Mathlib.Algebra.Order.Field.Power
import Mathlib.Data.Rat.Cast.Order
import Mathlib.Tactic.FieldSimp
import Mathlib.Tactic.NormNum
import Mathlib.Tactic.Positivity

/-!
Rounding to double precision, over the rationals. A quotient is rounded to a multiple of a power of two, with an
error of half that power, and the result is finite if the quotient is below the least number that is not.
-/
namespace EditorScheme

variable {n d : Nat}

theorem roundQuotient_bounds (n : Nat) (positive : 0 < d) :
    (roundQuotient n d : ℚ) ≤ n / d + 1 / 2 ∧ (n : ℚ) / d ≤ roundQuotient n d + 1 / 2 := by
  have size : d * (n / d) + n % d = n := Nat.div_add_mod n d
  have rest : n % d < d := Nat.mod_lt n positive
  have both : 2 * (d * roundQuotient n d) ≤ 2 * n + d ∧ 2 * n ≤ 2 * (d * roundQuotient n d) + d := by
    have up : d * (n / d + 1) = d * (n / d) + d := Nat.mul_succ d (n / d)
    unfold roundQuotient
    dsimp only
    split
    · omega
    · split
      · omega
      · rcases Nat.mod_two_eq_zero_or_one (n / d) with even | odd
        · rw [even, Nat.add_zero]
          omega
        · rw [odd]
          omega
  have inside : (0 : ℚ) < d := by exact_mod_cast positive
  have high : 2 * ((d : ℚ) * roundQuotient n d) ≤ 2 * n + d := by exact_mod_cast both.1
  have low : 2 * (n : ℚ) ≤ 2 * (d * roundQuotient n d) + d := by exact_mod_cast both.2
  constructor
  · rw [← sub_le_iff_le_add, le_div_iff₀ inside]
    linarith
  · rw [div_le_iff₀ inside]
    linarith

theorem scaleDown_eq (n : Nat) (positive : 0 < d) (exponent : Int) : 0 < (scaleDown n d exponent).2 ∧
    ((scaleDown n d exponent).1 : ℚ) / (scaleDown n d exponent).2 = n / d / 2 ^ exponent := by
  unfold scaleDown
  by_cases negative : exponent < 0
  · obtain ⟨places, rfl⟩ : ∃ places : Nat, exponent = -places := ⟨exponent.natAbs, by omega⟩
    rw [if_pos negative, neg_neg, Int.toNat_natCast, Nat.pow_eq, zpow_neg, zpow_natCast]
    refine ⟨positive, ?_⟩
    push_cast
    rw [div_inv_eq_mul]
    ring
  · obtain ⟨places, rfl⟩ : ∃ places : Nat, exponent = places := ⟨exponent.natAbs, by omega⟩
    rw [if_neg negative, Int.toNat_natCast, Nat.pow_eq, zpow_natCast]
    refine ⟨Nat.mul_pos positive (Nat.two_pow_pos places), ?_⟩
    push_cast
    rw [div_div]

namespace Binary64

theorem zpow_log2_le {n : Nat} (positive : n ≠ 0) : (2 : ℚ) ^ (n.log2 : Int) ≤ n := by
  rw [zpow_natCast]
  exact_mod_cast Nat.log2_self_le positive

theorem lt_zpow_log2 (n : Nat) : (n : ℚ) < 2 ^ (n.log2 + 1 : Int) := by
  rw [← Nat.cast_succ, zpow_natCast]
  exact_mod_cast Nat.lt_log2_self

/-- The binary logarithms tell the size of a quotient up to two bits. -/
theorem quotient_bounds (numerator : n ≠ 0) (positive : 0 < d) {guess : Int} (guessed : guess = n.log2 - d.log2 - 52) :
    2 ^ 51 * 2 ^ guess ≤ (n : ℚ) / d ∧ (n : ℚ) / d < 2 ^ 53 * 2 ^ guess := by
  have inside : (0 : ℚ) < d := by exact_mod_cast positive
  have bits (k : Nat) : (2 : ℚ) ^ k * 2 ^ guess = 2 ^ (k + guess) := by rw [zpow_add₀ two_ne_zero, zpow_natCast]
  constructor
  · rw [le_div_iff₀ inside, bits]
    calc (2 : ℚ) ^ (((51 : Nat) : Int) + guess) * d ≤ 2 ^ (((51 : Nat) : Int) + guess) * 2 ^ (d.log2 + 1 : Int) := by
          gcongr
          exact (lt_zpow_log2 d).le
      _ = 2 ^ (n.log2 : Int) := by
        rw [← zpow_add₀ two_ne_zero, guessed]
        congr 1
        omega
      _ ≤ n := zpow_log2_le numerator
  · rw [div_lt_iff₀ inside, bits]
    calc (n : ℚ) < 2 ^ (n.log2 + 1 : Int) := lt_zpow_log2 n
      _ = 2 ^ (((53 : Nat) : Int) + guess) * 2 ^ (d.log2 : Int) := by
        rw [← zpow_add₀ two_ne_zero, guessed]
        congr 1
        omega
      _ ≤ 2 ^ (((53 : Nat) : Int) + guess) * d := by
        gcongr
        exact zpow_log2_le (Nat.ne_of_gt positive)

/-- The exponent leaves at most 53 bits, and no fewer unless it is the least one. -/
theorem exponentFor_bounds (numerator : n ≠ 0) (positive : 0 < d) :
    leastExponent ≤ exponentFor n d ∧ (n : ℚ) / d < 2 ^ 53 * 2 ^ exponentFor n d ∧
      (leastExponent < exponentFor n d → 2 ^ 52 * 2 ^ exponentFor n d ≤ (n : ℚ) / d) := by
  obtain ⟨guess, guessed⟩ : ∃ guess : Int, guess = (n.log2 : Int) - d.log2 - 52 := ⟨_, rfl⟩
  obtain ⟨above, below⟩ := quotient_bounds numerator positive guessed
  obtain ⟨here, scaled⟩ := scaleDown_eq n positive guess
  have short : (scaleDown n d guess).1 < (scaleDown n d guess).2 * 2 ^ 52 ↔ (n : ℚ) / d < 2 ^ 52 * 2 ^ guess := by
    have whole : (0 : ℚ) < (scaleDown n d guess).2 := by exact_mod_cast here
    rw [← div_lt_iff₀ (zpow_pos two_pos guess), ← scaled, div_lt_iff₀ whole, mul_comm ((2 : ℚ) ^ 52)]
    exact_mod_cast Iff.rfl
  -- The guess is one too great if it leaves fewer than 53 bits.
  obtain ⟨exact, chosen, bounds⟩ : ∃ exact, exponentFor n d = max exact leastExponent ∧
      2 ^ 52 * 2 ^ exact ≤ (n : ℚ) / d ∧ (n : ℚ) / d < 2 ^ 53 * 2 ^ exact := by
    simp only [exponentFor, ← guessed, Nat.pow_eq]
    by_cases few : (scaleDown n d guess).1 < (scaleDown n d guess).2 * 2 ^ 52
    · have half : (2 : ℚ) ^ (guess - 1) * 2 = 2 ^ guess := by rw [← zpow_add_one₀ two_ne_zero, sub_add_cancel]
      refine ⟨guess - 1, by rw [if_pos few], ?_, ?_⟩
      · linarith
      · have less := short.mp few
        linarith
    · exact ⟨guess, by rw [if_neg few], not_lt.mp (mt short.mpr few), below⟩
  rw [chosen]
  refine ⟨le_max_right _ _, bounds.2.trans_le ?_, fun more => ?_⟩
  · gcongr
    · exact one_le_two
    · exact le_max_left _ _
  · rw [max_eq_left (by omega)]
    exact bounds.1

theorem overflow_eq : (overflow : ℚ) = (2 ^ 53 - 1 / 2) * 2 ^ greatestExponent := by
  obtain ⟨half, isHalf⟩ : ∃ half : ℚ, half = 2 ^ 970 := ⟨_, rfl⟩
  have power : (2 : ℚ) ^ greatestExponent = half * 2 := by
    rw [isHalf, ← pow_succ, ← zpow_natCast]
    rfl
  rw [power, overflow, Nat.cast_mul, Nat.cast_pow, Nat.cast_two, ← isHalf, ← mul_assoc, mul_right_comm]
  norm_num

/-- A multiple of a power of two that is nearest to a number, before a carry. -/
structure Rounds (x : ℚ) (significand : Nat) (exponent : Int) : Prop where
  least : leastExponent ≤ exponent
  bits : x < 2 ^ 53 * 2 ^ exponent
  enough : leastExponent < exponent → 2 ^ 52 * 2 ^ exponent ≤ x
  high : significand * 2 ^ exponent ≤ x + 2 ^ exponent / 2
  low : x ≤ significand * 2 ^ exponent + 2 ^ exponent / 2

namespace Rounds

variable {x : ℚ} {significand : Nat} {exponent : Int}

theorem significand_le (rounds : Rounds x significand exponent) : significand ≤ 2 ^ 53 := by
  have step : (0 : ℚ) < 2 ^ exponent := zpow_pos two_pos exponent
  have less : (significand : ℚ) * 2 ^ exponent < (2 ^ 53 + 1) * 2 ^ exponent := by
    linarith [rounds.high, rounds.bits]
  have below : (significand : ℚ) < 2 ^ 53 + 1 := lt_of_mul_lt_mul_right less step.le
  exact Nat.lt_succ_iff.mp (by exact_mod_cast below)

theorem le_significand (rounds : Rounds x significand exponent) (more : leastExponent < exponent) :
    2 ^ 52 ≤ significand := by
  have step : (0 : ℚ) < 2 ^ exponent := zpow_pos two_pos exponent
  have less : (2 ^ 52 : ℚ) * 2 ^ exponent < (significand + 1) * 2 ^ exponent := by
    linarith [rounds.low, rounds.enough more]
  have above : (2 : ℚ) ^ 52 < significand + 1 := lt_of_mul_lt_mul_right less step.le
  exact Nat.lt_succ_iff.mp (by exact_mod_cast above)

/-- What is rounded at a great exponent is not below the least number that is rounded to infinity. -/
theorem overflow_le (rounds : Rounds x significand exponent)
    (great : greatestExponent < exponent ∨ greatestExponent = exponent ∧ significand = 2 ^ 53) : (overflow : ℚ) ≤ x := by
  have step : (0 : ℚ) < 2 ^ greatestExponent := zpow_pos two_pos greatestExponent
  rw [overflow_eq]
  rcases great with beyond | ⟨rfl, full⟩
  · have twice : (2 : ℚ) * 2 ^ greatestExponent ≤ 2 ^ exponent := by
      rw [← zpow_one_add₀ two_ne_zero]
      exact zpow_le_zpow_right₀ one_le_two (by omega)
    have reached := rounds.enough (by
      rw [leastExponent]
      rw [greatestExponent] at beyond
      omega)
    linarith
  · have high := rounds.high
    rw [full] at high
    push_cast at high
    linarith

end Rounds

variable {negative : Bool}

theorem carried_eq {rounded limit half : Nat} {exponent : Int} :
    (match if rounded = limit then (half, exponent + 1) else (rounded, exponent) with
      | (significand, exponent) =>
        if greatestExponent < exponent then Binary64.infinite negative
        else Binary64.finite negative significand exponent) =
      if rounded = limit then
        if greatestExponent < exponent + 1 then .infinite negative else .finite negative half (exponent + 1)
      else if greatestExponent < exponent then .infinite negative else .finite negative rounded exponent := by
  by_cases carry : rounded = limit
  · rw [if_pos carry, if_pos carry]
  · rw [if_neg carry, if_neg carry]

theorem nearest_eq (negative : Bool) (numerator : n ≠ 0) (positive : 0 < d) : ∃ significand exponent,
    Rounds ((n : ℚ) / d) significand exponent ∧ nearest negative n d =
      if significand = 2 ^ 53 then
        if greatestExponent < exponent + 1 then .infinite negative else .finite negative (2 ^ 52) (exponent + 1)
      else if greatestExponent < exponent then .infinite negative else .finite negative significand exponent := by
  obtain ⟨least, bits, enough⟩ := exponentFor_bounds numerator positive
  obtain ⟨here, scaled⟩ := scaleDown_eq n positive (exponentFor n d)
  obtain ⟨high, low⟩ := roundQuotient_bounds (scaleDown n d (exponentFor n d)).1 here
  have step : (0 : ℚ) < 2 ^ exponentFor n d := zpow_pos two_pos _
  refine ⟨roundQuotient (scaleDown n d (exponentFor n d)).1 (scaleDown n d (exponentFor n d)).2, exponentFor n d,
    ⟨least, bits, enough, ?_, ?_⟩, ?_⟩
  · rw [scaled, ← sub_le_iff_le_add, le_div_iff₀ step] at high
    linarith
  · rw [scaled, div_le_iff₀ step] at low
    linarith
  · unfold nearest
    rw [if_neg numerator]
    refine carried_eq.trans ?_
    rw [Nat.pow_eq, Nat.pow_eq]

def magnitude : Binary64 → ℚ
  | .finite _ significand exponent => significand * 2 ^ exponent
  | _ => 0

/-- A finite number of 53 bits at most, with an exponent that is not too great. -/
inductive Representable : Binary64 → Prop
  | finite (negative : Bool) {significand : Nat} {exponent : Int} (bits : significand < 2 ^ 53)
    (inRange : exponent ≤ greatestExponent) : Representable (.finite negative significand exponent)

theorem Representable.magnitude_lt {x : Binary64} (representable : Representable x) : x.magnitude < overflow := by
  cases representable with
  | @finite negative significand exponent bits inRange =>
    have whole : (significand : ℚ) + 1 ≤ 2 ^ 53 := by exact_mod_cast bits
    have step : (0 : ℚ) < 2 ^ greatestExponent := zpow_pos two_pos greatestExponent
    rw [magnitude, overflow_eq]
    calc (significand : ℚ) * 2 ^ exponent ≤ significand * 2 ^ greatestExponent :=
          mul_le_mul_of_nonneg_left (zpow_le_zpow_right₀ one_le_two inRange) (Nat.cast_nonneg _)
      _ < (2 ^ 53 - 1 / 2) * 2 ^ greatestExponent := mul_lt_mul_of_pos_right (by linarith) step

theorem representable_nearest (positive : 0 < d) (finite : (nearest negative n d).isInfinite = false) :
    Representable (nearest negative n d) := by
  by_cases numerator : n = 0
  · rw [nearest, if_pos numerator]
    exact .finite negative (by decide) (by decide)
  · obtain ⟨significand, exponent, rounds, result⟩ := nearest_eq negative numerator positive
    have bits := rounds.significand_le
    rw [result] at finite ⊢
    split at finite
    · split at finite
      · cases finite
      · next full inRange =>
        rw [if_pos full, if_neg inRange]
        exact .finite negative (by decide) (by omega)
    · split at finite
      · cases finite
      · next full inRange =>
        rw [if_neg full, if_neg inRange]
        exact .finite negative (by omega) (by omega)

theorem nearest_of_lt (negative : Bool) (numerator : n ≠ 0) (positive : 0 < d) (inside : (n : ℚ) / d < overflow) :
    (nearest negative n d).isInfinite = false ∧ ∃ significand exponent, Rounds ((n : ℚ) / d) significand exponent ∧
      (nearest negative n d).magnitude = significand * 2 ^ exponent := by
  obtain ⟨significand, exponent, rounds, result⟩ := nearest_eq negative numerator positive
  have small : ¬ (greatestExponent < exponent ∨ greatestExponent = exponent ∧ significand = 2 ^ 53) :=
    fun great => absurd (rounds.overflow_le great) (not_le.mpr inside)
  obtain ⟨inRange, noCarry⟩ := not_or.mp small
  rw [result]
  by_cases full : significand = 2 ^ 53
  · have next : ¬ greatestExponent < exponent + 1 := fun beyond => noCarry ⟨by omega, full⟩
    rw [if_pos full, if_neg next]
    refine ⟨rfl, significand, exponent, rounds, ?_⟩
    rw [magnitude, full, zpow_add_one₀ two_ne_zero]
    push_cast
    ring
  · rw [if_neg full, if_neg inRange]
    exact ⟨rfl, significand, exponent, rounds, rfl⟩

theorem finite_nearest (positive : 0 < d) (inside : (n : ℚ) / d < overflow) :
    (nearest negative n d).isInfinite = false := by
  by_cases numerator : n = 0
  · rw [nearest, if_pos numerator]
    rfl
  · exact (nearest_of_lt negative numerator positive inside).1

/-- A whole number is rounded up by one part in 2⁵³ at most, and not to less than one. -/
theorem ofNat_bounds (numerator : n ≠ 0) (inside : n < overflow) : Representable (ofNat n) ∧
    1 ≤ (ofNat n).magnitude ∧ (ofNat n).magnitude ≤ n * (1 + 1 / 2 ^ 53) := by
  have one : (n : ℚ) / (1 : Nat) = n := by rw [Nat.cast_one, div_one]
  have least : (1 : ℚ) ≤ n := by exact_mod_cast Nat.one_le_iff_ne_zero.mpr numerator
  obtain ⟨finite, significand, exponent, rounds, size⟩ := nearest_of_lt false numerator
    Nat.one_pos (by rw [one]; exact_mod_cast inside)
  rw [one] at rounds
  have range : 0 < 53 + exponent := by
    have more : (1 : ℚ) < 2 ^ (53 + exponent) := by
      rw [zpow_add₀ two_ne_zero]
      exact least.trans_lt rounds.bits
    exact (one_lt_zpow_iff_right₀ one_lt_two).mp more
  have normal : leastExponent < exponent := by
    rw [leastExponent]
    omega
  have enough := rounds.enough normal
  refine ⟨representable_nearest Nat.one_pos finite, ?_, ?_⟩
  · have bits : (2 ^ 52 : ℚ) ≤ significand := by exact_mod_cast rounds.le_significand normal
    rw [ofNat, size]
    calc (1 : ℚ) ≤ 2 ^ (52 + exponent) := one_le_zpow₀ one_le_two (by omega)
      _ = 2 ^ 52 * 2 ^ exponent := by rw [zpow_add₀ two_ne_zero]; norm_num
      _ ≤ significand * 2 ^ exponent := by gcongr
  · rw [ofNat, size]
    linarith [rounds.high]

theorem ratio_eq (significand : Nat) (exponent : Int) : 0 < (ratio significand exponent).2 ∧
    ((ratio significand exponent).1 : ℚ) / (ratio significand exponent).2 = significand * 2 ^ exponent := by
  unfold ratio
  by_cases small : exponent < 0
  · obtain ⟨places, rfl⟩ : ∃ places : Nat, exponent = -places := ⟨exponent.natAbs, by omega⟩
    rw [if_pos small, neg_neg, Int.toNat_natCast, Nat.pow_eq, zpow_neg, zpow_natCast]
    refine ⟨Nat.two_pow_pos places, ?_⟩
    push_cast
    rw [div_eq_mul_inv]
  · obtain ⟨places, rfl⟩ : ∃ places : Nat, exponent = places := ⟨exponent.natAbs, by omega⟩
    rw [if_neg small, Int.toNat_natCast, Nat.pow_eq, zpow_natCast]
    refine ⟨Nat.one_pos, ?_⟩
    push_cast
    rw [div_one]

variable {x y : Binary64}

theorem timesPositive_finite (first : Representable x) (second : Representable y) :
    (x.magnitude * y.magnitude < overflow → (x.timesPositive y).isInfinite = false) ∧
      ((x.timesPositive y).isInfinite = false → Representable (x.timesPositive y)) := by
  cases first with
  | @finite negative m e =>
    cases second with
    | @finite _ k f =>
      obtain ⟨positive, size⟩ := ratio_eq m e
      obtain ⟨positive', size'⟩ := ratio_eq k f
      have both : (((ratio m e).1 * (ratio k f).1 : Nat) : ℚ) / ((ratio m e).2 * (ratio k f).2 : Nat) =
          m * 2 ^ e * (k * 2 ^ f) := by
        rw [Nat.cast_mul, Nat.cast_mul, mul_div_mul_comm, size, size']
      refine ⟨fun inside => finite_nearest (Nat.mul_pos positive positive') ?_, fun finite => ?_⟩
      · rw [both]
        exact inside
      · exact representable_nearest (Nat.mul_pos positive positive') finite

theorem representable_overPositive (first : Representable x) (second : Representable y) (least : 1 ≤ y.magnitude) :
    Representable (x.overPositive y) := by
  have below := first.magnitude_lt
  cases first with
  | @finite negative m e =>
    cases second with
    | @finite _ k f =>
      obtain ⟨positive, size⟩ := ratio_eq m e
      obtain ⟨positive', size'⟩ := ratio_eq k f
      have nonzero : (ratio k f).1 ≠ 0 := by
        intro zero
        rw [magnitude, ← size', zero, Nat.cast_zero, zero_div] at least
        exact absurd least (not_le.mpr zero_lt_one)
      have both : (((ratio m e).1 * (ratio k f).2 : Nat) : ℚ) / ((ratio m e).2 * (ratio k f).1 : Nat) =
          m * 2 ^ e / (k * 2 ^ f) := by
        rw [Nat.cast_mul, Nat.cast_mul, ← size, ← size', div_div_div_eq]
      have divisor : 0 < (ratio m e).2 * (ratio k f).1 := Nat.mul_pos positive (Nat.pos_of_ne_zero nonzero)
      refine representable_nearest divisor (finite_nearest divisor ?_)
      have size : (0 : ℚ) ≤ m * 2 ^ e := mul_nonneg (Nat.cast_nonneg m) (zpow_pos two_pos e).le
      rw [both]
      exact (div_le_self size least).trans_lt below

end Binary64

end EditorScheme
