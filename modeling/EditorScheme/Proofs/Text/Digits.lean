import EditorScheme.Number
import Mathlib.Algebra.Group.Nat.Defs
import Mathlib.Data.List.Basic

/-!
Numbers read from their digits. Decimal digits without a needless zero in front are what the number is written
with.
-/
namespace EditorScheme.Text

variable {base : Nat} {c : Char} {text : List Char}

theorem isUpper_iff : c.isUpper = true ↔ 65 ≤ c.toNat ∧ c.toNat ≤ 90 := by
  change decide (65 ≤ c.val ∧ c.val ≤ 90) = true ↔ _
  simp only [decide_eq_true_eq, UInt32.le_iff_toNat_le]
  exact Iff.rfl

theorem isLower_iff : c.isLower = true ↔ 97 ≤ c.toNat ∧ c.toNat ≤ 122 := by
  change (decide (97 ≤ c.val) && decide (c.val ≤ 122)) = true ↔ _
  simp only [Bool.and_eq_true, decide_eq_true_eq, UInt32.le_iff_toNat_le]
  exact Iff.rfl

theorem isAlphanum_iff : c.isAlphanum = true ↔ (c.isUpper = true ∨ c.isLower = true) ∨ c.isDigit = true := by
  change ((c.isUpper || c.isLower) || c.isDigit) = true ↔ _
  simp only [Bool.or_eq_true]

theorem le_iff_toNat_le {a b : Char} : a ≤ b ↔ a.toNat ≤ b.toNat := Iff.rfl

theorem digitChar_sub {c : Char} (digit : c.isDigit = true) : Nat.digitChar (c.toNat - 48) = c := by
  have range : 48 ≤ c.toNat ∧ c.toNat ≤ 57 := Char.isDigit_iff_toNat.mp digit
  apply Char.toNat_inj.mp
  rw [Nat.toNat_digitChar_of_lt_ten (by omega)]
  omega

theorem digitValue?_lt {value : Nat} (found : digitValue? base c = some value) : value < base := by
  unfold digitValue? at found
  simpa using (Option.filter_eq_some_iff.mp found).2

theorem digitValue?_of_le_ten (small : base ≤ 10) :
    digitValue? base c = if 48 ≤ c.toNat ∧ c.toNat < 48 + base then some (c.toNat - 48) else none := by
  have zero : '0'.toNat = 48 := rfl
  have nine : '9'.toNat = 57 := rfl
  have lower : 'a'.toNat = 97 := rfl
  have upper : 'A'.toNat = 65 := rfl
  simp only [digitValue?, le_iff_toNat_le, zero, nine, lower, upper]
  by_cases digit : 48 ≤ c.toNat ∧ c.toNat < 48 + base
  · have range : 48 ≤ c.toNat ∧ c.toNat ≤ 57 := by omega
    have below : c.toNat - 48 < base := by omega
    simp [digit, range, below]
  · rw [if_neg digit]
    apply Option.filter_eq_none_iff.mpr
    intro value found
    have high : base ≤ value := by
      split at found
      · cases found
        omega
      · split at found
        · cases found
          omega
        · split at found <;> cases found
          omega
    simpa using high

theorem isSome_digitValue?_ten : (digitValue? 10 c).isSome ↔ c.isDigit = true := by
  have zero : '0'.toNat = 48 := rfl
  have nine : '9'.toNat = 57 := rfl
  rw [digitValue?_of_le_ten (Nat.le_refl 10), Char.isDigit_iff_toNat, zero, nine]
  split <;> simp <;> omega

theorem isSome_digitValue?_two : (digitValue? 2 c).isSome ↔ c = '0' ∨ c = '1' := by
  have same (d : Char) : c = d ↔ c.toNat = d.toNat := Char.toNat_inj.symm
  have zero : '0'.toNat = 48 := rfl
  have one : '1'.toNat = 49 := rfl
  rw [digitValue?_of_le_ten (by omega), same, same, zero, one]
  split <;> simp <;> omega

theorem readNat?_eq (text : List Char) : readNat? base text =
    if text = [] then none
    else text.foldlM (fun total c => (digitValue? base c).map (total * base + ·)) 0 := by
  cases text <;> rfl

theorem isSome_readNat?_iff : (readNat? base text).isSome ↔ text ≠ [] ∧ ∀ c ∈ text, (digitValue? base c).isSome := by
  have fold (total : Nat) : (text.foldlM (fun total c => (digitValue? base c).map (total * base + ·)) total).isSome ↔
      ∀ c ∈ text, (digitValue? base c).isSome := by
    induction text generalizing total with
    | nil => simp
    | cons c text ih =>
      rw [List.foldlM_cons, List.forall_mem_cons]
      cases found : digitValue? base c with
      | none => simp
      | some value => simpa using ih (total * base + value)
  rw [readNat?_eq]
  by_cases empty : text = []
  · simp [empty]
  · rw [if_neg empty, fold]
    simp [empty]

/-- Of decimal digits comes the number that they stand for. -/
theorem readNat?_ten (notEmpty : text ≠ []) (digits : ∀ c ∈ text, c.isDigit = true) :
    readNat? 10 text = some (Nat.ofDigitChars 10 text 0) := by
  have fold (total : Nat) : text.foldlM (fun total c => (digitValue? 10 c).map (total * 10 + ·)) total =
      some (Nat.ofDigitChars 10 text total) := by
    clear notEmpty
    induction text generalizing total with
    | nil => rfl
    | cons c text ih =>
      obtain ⟨digit, digits⟩ := List.forall_mem_cons.mp digits
      have range : 48 ≤ c.toNat ∧ c.toNat ≤ 57 := Char.isDigit_iff_toNat.mp digit
      have inside : 48 ≤ c.toNat ∧ c.toNat < 48 + 10 := by omega
      have zero : '0'.toNat = 48 := rfl
      rw [List.foldlM_cons, digitValue?_of_le_ten (Nat.le_refl 10), if_pos inside, Nat.ofDigitChars_cons, zero,
        Nat.mul_comm 10 total]
      exact ih digits _
  rw [readNat?_eq, if_neg notEmpty, fold]

theorem toDigits_append {total : Nat} (positive : 0 < total) (digits : ∀ c ∈ text, c.isDigit = true) :
    Nat.toDigits 10 total ++ text = Nat.toDigits 10 (Nat.ofDigitChars 10 text total) := by
  induction text generalizing total with
  | nil => simp
  | cons c text ih =>
    obtain ⟨digit, digits⟩ := List.forall_mem_cons.mp digits
    have range : 48 ≤ c.toNat ∧ c.toNat ≤ 57 := Char.isDigit_iff_toNat.mp digit
    have small : c.toNat - 48 < 10 := by omega
    have zero : '0'.toNat = 48 := rfl
    have grown : Nat.toDigits 10 total ++ [c] = Nat.toDigits 10 (10 * total + (c.toNat - 48)) := by
      rw [← Nat.toDigits_append_toDigits (by decide) positive small, Nat.toDigits_of_lt_base small,
        digitChar_sub digit]
    rw [Nat.ofDigitChars_cons, zero, ← ih (by omega) digits, ← grown]
    simp

/-- Digits that start with no zero are what their number is written with. -/
theorem toDigits_ofDigitChars (digits : ∀ d ∈ c :: text, d.isDigit = true) (first : c ≠ '0') :
    Nat.toDigits 10 (Nat.ofDigitChars 10 (c :: text) 0) = c :: text := by
  obtain ⟨digit, digits⟩ := List.forall_mem_cons.mp digits
  have range : 48 ≤ c.toNat ∧ c.toNat ≤ 57 := Char.isDigit_iff_toNat.mp digit
  have notZero : c.toNat ≠ 48 := fun same => first (Char.toNat_inj.mp same)
  have zero : '0'.toNat = 48 := rfl
  have small : c.toNat - 48 < 10 := by omega
  rw [Nat.ofDigitChars_cons, zero, Nat.mul_zero, Nat.zero_add, ← toDigits_append (by omega) digits,
    Nat.toDigits_of_lt_base small, digitChar_sub digit]
  rfl

theorem digits_lt {total n : Nat} (read : text.foldlM (fun total c =>
    (digitValue? base c).map (total * base + ·)) total = some n) : n < (total + 1) * base ^ text.length := by
  induction text generalizing total with
  | nil =>
    cases read
    simp
  | cons c text ih =>
    rw [List.foldlM_cons] at read
    obtain ⟨next, stepped, read⟩ := Option.bind_eq_some_iff.mp read
    obtain ⟨value, found, rfl⟩ := Option.map_eq_some_iff.mp stepped
    have below := digitValue?_lt found
    calc n < (total * base + value + 1) * base ^ text.length := ih read
      _ ≤ ((total + 1) * base) * base ^ text.length := by
        apply Nat.mul_le_mul_right
        rw [Nat.add_mul]
        omega
      _ = (total + 1) * base ^ (c :: text).length := by
        rw [List.length_cons, Nat.pow_succ, Nat.mul_assoc, Nat.mul_comm base]

/-- A number has no more digits than the text that it was read from. -/
theorem readNat?_lt {n : Nat} (read : readNat? base text = some n) : n < base ^ text.length := by
  rw [readNat?_eq] at read
  split at read
  · cases read
  · simpa using digits_lt read

end EditorScheme.Text
