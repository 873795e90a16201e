import EditorScheme.Number
import EditorScheme.Proofs.Number.Rounding

/-!
The shortest decimal of a number. It is found on one of the grids that are looked at unless the number is small, and
lies at most half a step above the number.
-/
namespace EditorScheme.Binary64

variable {significand : Nat} {exponent grid : Int} {d : Decimal}

def decimalValue (d : Decimal) : ℚ := d.significand * 10 ^ d.exponent

theorem gridScale_eq (exponent grid : Int) :
    0 < (gridScale exponent grid).1 ∧ 0 < (gridScale exponent grid).2 ∧
      ((gridScale exponent grid).1 : ℚ) * (4 * 10 ^ grid) = (gridScale exponent grid).2 * 2 ^ exponent := by
  have powers : ∃ factor divisor : Nat, 0 < factor ∧ 0 < divisor ∧ (factor : ℚ) = divisor * 2 ^ exponent ∧
      (if exponent < 0 then (1, Nat.pow 2 (-exponent).toNat) else (Nat.pow 2 exponent.toNat, 1)) = (factor, divisor) := by
    by_cases small : exponent < 0
    · obtain ⟨places, rfl⟩ : ∃ places : Nat, exponent = -places := ⟨exponent.natAbs, by omega⟩
      refine ⟨1, 2 ^ places, Nat.one_pos, Nat.two_pow_pos places, ?_, ?_⟩
      · rw [zpow_neg, zpow_natCast]
        push_cast
        rw [mul_inv_cancel₀ (by positivity)]
      · rw [if_pos small, neg_neg, Int.toNat_natCast, Nat.pow_eq]
    · obtain ⟨places, rfl⟩ : ∃ places : Nat, exponent = places := ⟨exponent.natAbs, by omega⟩
      refine ⟨2 ^ places, 1, Nat.two_pow_pos places, Nat.one_pos, ?_, ?_⟩
      · rw [zpow_natCast]
        push_cast
        ring
      · rw [if_neg small, Int.toNat_natCast, Nat.pow_eq]
  obtain ⟨factor, divisor, someFactor, someDivisor, size, same⟩ := powers
  unfold gridScale
  rw [same]
  dsimp only
  by_cases small : grid < 0
  · obtain ⟨places, rfl⟩ : ∃ places : Nat, grid = -places := ⟨grid.natAbs, by omega⟩
    rw [if_pos small, neg_neg, Int.toNat_natCast, Nat.pow_eq]
    refine ⟨by positivity, by positivity, ?_⟩
    rw [zpow_neg, zpow_natCast]
    push_cast
    rw [size]
    field_simp
  · obtain ⟨places, rfl⟩ : ∃ places : Nat, grid = places := ⟨grid.natAbs, by omega⟩
    rw [if_neg small, Int.toNat_natCast, Nat.pow_eq]
    refine ⟨someFactor, by positivity, ?_⟩
    rw [zpow_natCast]
    push_cast
    rw [size]
    ring

theorem roundQuotient_eq_or (n k : Nat) : roundQuotient n k = n / k ∨ roundQuotient n k = n / k + 1 := by
  unfold roundQuotient
  dsimp only
  split
  · exact .inl rfl
  · split
    · exact .inr rfl
    · omega

theorem le_of_inside {low high x : Nat} {even : Prop} [Decidable even]
    (inside : (if even then decide (low ≤ x) && decide (x ≤ high) else decide (low < x) && decide (x < high)) = true) :
    low ≤ x ∧ x ≤ high := by
  split at inside
  · simpa using inside
  · obtain ⟨below, above⟩ : low < x ∧ x < high := by simpa using inside
    exact ⟨below.le, above.le⟩

/-- A decimal on a grid is a multiple of its step that lies in the interval of the number. -/
theorem onGrid?_inside (found : onGrid? significand exponent grid = some d) : d.exponent = grid ∧
    (interval significand exponent).1 * (gridScale exponent grid).1 ≤ d.significand * (gridScale exponent grid).2 ∧
    d.significand * (gridScale exponent grid).2 ≤ (interval significand exponent).2.2 * (gridScale exponent grid).1 := by
  unfold onGrid? at found
  generalize interval significand exponent = range at *
  generalize gridScale exponent grid = scale at *
  dsimp only at found
  split at found
  · cases found
  · next below above =>
    cases found
    exact ⟨rfl, le_of_inside below⟩
  · next below above =>
    cases found
    exact ⟨rfl, le_of_inside above⟩
  · next below above =>
    cases found
    refine ⟨rfl, ?_⟩
    rcases roundQuotient_eq_or (range.2.1 * scale.1) scale.2 with down | up
    · rw [down]
      exact le_of_inside below
    · rw [up]
      exact le_of_inside above

theorem inside_of_lt {low high x : Nat} {even : Prop} [Decidable even] (below : low < x) (above : x < high) :
    (if even then decide (low ≤ x) && decide (x ≤ high) else decide (low < x) && decide (x < high)) = true := by
  split <;> simp <;> omega

/-- On a grid that is fine enough the next point above the number lies in its interval. -/
theorem isSome_onGrid? (positive : significand ≠ 0)
    (fine : (gridScale exponent grid).2 < 2 * (gridScale exponent grid).1) :
    (onGrid? significand exponent grid).isSome := by
  have around : (interval significand exponent).1 < (interval significand exponent).2.1 ∧
      (interval significand exponent).2.2 = (interval significand exponent).2.1 + 2 := by
    unfold interval
    dsimp only
    split <;> omega
  have some := (gridScale_eq exponent grid).2.1
  unfold onGrid?
  generalize interval significand exponent = range at *
  generalize gridScale exponent grid = scale at *
  obtain ⟨low, value, high⟩ := range
  obtain ⟨factor, divisor⟩ := scale
  dsimp only at around fine some ⊢
  have size : divisor * (value * factor / divisor) + value * factor % divisor = value * factor := Nat.div_add_mod _ _
  have next : (value * factor / divisor + 1) * divisor = divisor * (value * factor / divisor) + divisor := by ring
  have rest : value * factor % divisor < divisor := Nat.mod_lt _ some
  have low_le : low * factor ≤ value * factor := Nat.mul_le_mul_right factor around.1.le
  have high_eq : high * factor = value * factor + 2 * factor := by rw [around.2, Nat.add_mul]
  have inside : (if significand % 2 = 0 then
      decide (low * factor ≤ (value * factor / divisor + 1) * divisor) &&
        decide ((value * factor / divisor + 1) * divisor ≤ high * factor)
      else decide (low * factor < (value * factor / divisor + 1) * divisor) &&
        decide ((value * factor / divisor + 1) * divisor < high * factor)) = true :=
    inside_of_lt (by omega) (by omega)
  split
  · next below above => simp [inside] at above
  · rfl
  · rfl
  · rfl

theorem decimalValue_le (found : onGrid? significand exponent grid = some d) :
    decimalValue d ≤ (significand + 1 / 2) * 2 ^ exponent := by
  obtain ⟨rfl, -, high⟩ := onGrid?_inside found
  obtain ⟨-, positive, scale⟩ := gridScale_eq exponent d.exponent
  have divisor : (0 : ℚ) < (gridScale exponent d.exponent).2 := by exact_mod_cast positive
  have step : (0 : ℚ) < 10 ^ d.exponent := zpow_pos (by norm_num) _
  have inside : (d.significand : ℚ) * (gridScale exponent d.exponent).2 ≤
      (4 * significand + 2) * (gridScale exponent d.exponent).1 := by exact_mod_cast high
  have scaled := mul_le_mul_of_nonneg_right inside step.le
  refine le_of_mul_le_mul_right ?_ divisor
  calc decimalValue d * (gridScale exponent d.exponent).2
      = d.significand * (gridScale exponent d.exponent).2 * 10 ^ d.exponent := by rw [decimalValue]; ring
    _ ≤ (4 * significand + 2) * (gridScale exponent d.exponent).1 * 10 ^ d.exponent := scaled
    _ = (significand + 1 / 2) * ((gridScale exponent d.exponent).1 * (4 * 10 ^ d.exponent)) := by ring
    _ = (significand + 1 / 2) * 2 ^ exponent * (gridScale exponent d.exponent).2 := by rw [scale]; ring

theorem significand_ne_zero (positive : significand ≠ 0) (found : onGrid? significand exponent grid = some d) :
    d.significand ≠ 0 := by
  intro zero
  obtain ⟨-, low, -⟩ := onGrid?_inside found
  have factor := (gridScale_eq exponent grid).1
  have least : 0 < (interval significand exponent).1 := by
    unfold interval
    dsimp only
    split <;> omega
  rw [zero, Nat.zero_mul] at low
  exact absurd (Nat.mul_pos least factor) (by omega)

/-- The steps of a grid are fine enough if two of them are less than a step of the number. -/
theorem fine_of_lt (less : (2 : ℚ) * 10 ^ grid < 2 ^ exponent) :
    (gridScale exponent grid).2 < 2 * (gridScale exponent grid).1 := by
  obtain ⟨someFactor, -, scale⟩ := gridScale_eq exponent grid
  have factor : (0 : ℚ) < (gridScale exponent grid).1 := by exact_mod_cast someFactor
  have step : (0 : ℚ) < 2 ^ exponent := zpow_pos two_pos _
  have scaled : ((gridScale exponent grid).2 : ℚ) * 2 ^ exponent < 2 * (gridScale exponent grid).1 * 2 ^ exponent := by
    rw [← scale]
    calc ((gridScale exponent grid).1 : ℚ) * (4 * 10 ^ grid)
        = 2 * (gridScale exponent grid).1 * (2 * 10 ^ grid) := by ring
      _ < 2 * (gridScale exponent grid).1 * 2 ^ exponent := by gcongr
  exact_mod_cast lt_of_mul_lt_mul_right scaled step.le

/-- The top grid is found with an approximation of the decimal logarithm of two. -/
theorem ten_pow_le : ∀ k < 1024, 10 ^ (k * 30103 / 100000) ≤ 2 ^ (k + 1) := by decide +kernel

/-- The finest grid that is looked at is fine enough for numbers that are not small. -/
theorem isSome_onGrid?_last (places : Nat) (positive : significand ≠ 0) (bits : significand < 2 ^ 53)
    (inRange : places ≤ 971) : (onGrid? significand places (topGrid significand places - 24)).isSome := by
  obtain ⟨order, isOrder⟩ : ∃ order : Nat, order = (significand.log2 + places) * 30103 / 100000 := ⟨_, rfl⟩
  have top : topGrid significand places - 24 = order - 22 := by
    have whole : topGrid significand places = order + 2 := by
      rw [topGrid, isOrder]
      push_cast
      rfl
    omega
  have log : significand.log2 < 53 := (Nat.log2_lt positive).mpr bits
  have power : 10 ^ order ≤ 2 ^ 53 * 2 ^ places := by
    calc 10 ^ order ≤ 2 ^ (significand.log2 + places + 1) := isOrder ▸ ten_pow_le _ (by omega)
      _ ≤ 2 ^ (53 + places) := Nat.pow_le_pow_right two_pos (by omega)
      _ = 2 ^ 53 * 2 ^ places := Nat.pow_add 2 53 places
  have scaled : (10 : ℚ) ^ order ≤ 2 ^ 53 * 2 ^ places := by exact_mod_cast power
  refine isSome_onGrid? positive (fine_of_lt ?_)
  rw [top, zpow_sub₀ (by norm_num), zpow_natCast, zpow_natCast]
  have step : (0 : ℚ) < 2 ^ places := by positivity
  calc (2 : ℚ) * (10 ^ order / 10 ^ (22 : Int)) ≤ 2 * (2 ^ 53 * 2 ^ places / 10 ^ (22 : Int)) := by gcongr
    _ = 2 ^ 54 / 10 ^ (22 : Int) * 2 ^ places := by ring
    _ < 1 * 2 ^ places := by
      gcongr
      norm_num
    _ = 2 ^ places := one_mul _

/-- The shortest decimal lies at most half a step above the number, or is no decimal of a grid but a small number. -/
theorem shortest_bounds (positive : significand ≠ 0) (bits : significand < 2 ^ 53)
    (inRange : exponent ≤ greatestExponent) :
    (shortest significand exponent).significand ≠ 0 ∧
      decimalValue (shortest significand exponent) ≤ (significand + 1 / 2) * 2 ^ max exponent 0 := by
  have more : (significand + 1 / 2 : ℚ) * 2 ^ exponent ≤ (significand + 1 / 2) * 2 ^ max exponent 0 :=
    mul_le_mul_of_nonneg_left (zpow_le_zpow_right₀ one_le_two (le_max_left _ _)) (by positivity)
  unfold shortest
  dsimp only
  cases found : (List.range 25).findSome? fun down : Nat =>
      onGrid? significand exponent (topGrid significand exponent - down) with
  | some d =>
    obtain ⟨down, -, onGrid⟩ := List.exists_of_findSome?_eq_some found
    exact ⟨significand_ne_zero positive onGrid, (decimalValue_le onGrid).trans more⟩
  | none =>
    have small : exponent < 0 := by
      by_contra large
      obtain ⟨places, rfl⟩ : ∃ places : Nat, exponent = places := ⟨exponent.natAbs, by omega⟩
      have last := List.findSome?_eq_none_iff.mp found 24 (by decide)
      have onGrid := isSome_onGrid?_last places positive bits (by rw [greatestExponent] at inRange; omega)
      rw [Nat.cast_ofNat] at last
      simp [last] at onGrid
    refine ⟨positive, ?_⟩
    rw [Option.getD_none, decimalValue, max_eq_right small.le, zpow_zero, mul_one]
    have power : (10 : ℚ) ^ exponent ≤ 1 := zpow_le_one_of_nonpos₀ (by norm_num) small.le
    have size : (0 : ℚ) ≤ significand := Nat.cast_nonneg _
    linarith [mul_le_of_le_one_right size power]

end EditorScheme.Binary64
