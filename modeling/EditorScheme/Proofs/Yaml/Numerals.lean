import EditorScheme.Proofs.Number.Range
import EditorScheme.Proofs.Yaml.Words
import EditorScheme.Yaml.Scalar
import Mathlib.Data.List.TakeWhile

/-!
Plain scalars of letters and digits, and which of them are numbers.
-/
namespace EditorScheme.Yaml

/-- The text starts with no sign for a base with digits of that base behind it. -/
structure Unbased (text : List Char) : Prop where
  hexadecimal : ∀ rest, text ≠ '0' :: 'x' :: rest
  octal : ∀ rest, text ≠ '0' :: 'o' :: rest
  binary : ∀ rest, text = '0' :: 'b' :: rest → Text.readNat? 2 rest = none

namespace IsWord

variable {text : List Char}

theorem readInteger_eq (word : IsWord text) : readInteger text =
    match magnitude? text (isZeroPadded text) with
    | some n =>
      if n < Nat.pow 2 64 then .fits n else if n < Nat.pow 2 128 then .outOfRange else .notInteger
    | none => .notInteger := by
  unfold readInteger
  split
  · exact absurd rfl (word.head_ne (d := '-') (by decide))
  · split
    · exact absurd rfl (word.head_ne (d := '+') (by decide))
    · rfl

theorem isZeroPadded_iff {c : Char} {rest : List Char} (word : IsWord (c :: rest)) :
    isZeroPadded (c :: rest) = true ↔ c = '0' ∧ rest ≠ [] ∧ ∀ d ∈ c :: rest, d.isDigit = true := by
  have plus := word.head_ne (d := '+') (by decide)
  have minus := word.head_ne (d := '-') (by decide)
  have zero : '0'.isDigit = true := by decide
  by_cases first : c = '0'
  · cases rest <;> simp [isZeroPadded, first, zero]
  · simp [isZeroPadded, plus, minus, first]

theorem float?_eq (word : IsWord text) :
    float? text = ((decimal? text).map (Binary64.ofDecimal false)).filter (!·.isInfinite) := by
  obtain ⟨c, rest, rfl⟩ := List.exists_cons_of_ne_nil word.notEmpty
  have plus := word.head_ne (d := '+') (by decide)
  have minus := word.head_ne (d := '-') (by decide)
  have point := word.head_ne (d := '.') (by decide)
  simp [float?, plus, minus, point]

theorem decimal?_append {whole rest : List Char} {c : Char} (digits : ∀ d ∈ whole, d.isDigit = true)
    (letter : c.isDigit = false) (point : c ≠ '.') (capital : c ≠ 'E') : decimal? (whole ++ c :: rest) =
      if whole ≠ [] ∧ c = 'e' then (exponent? rest).map (⟨Nat.ofDigitChars 10 whole 0, ·⟩) else none := by
  have taken : (whole ++ c :: rest).takeWhile Char.isDigit = whole := by
    rw [List.takeWhile_append_of_pos digits, List.takeWhile_cons_of_neg (by simp [letter]), List.append_nil]
  have dropped : (whole ++ c :: rest).dropWhile Char.isDigit = c :: rest := by
    rw [List.dropWhile_append_of_pos digits, List.dropWhile_cons_of_neg (by simp [letter])]
  have read : decimal? (whole ++ c :: rest) = (Text.readNat? 10 whole).bind fun significand =>
      if c = 'e' then (exponent? rest).map (⟨significand, ·⟩) else none := by
    unfold decimal?
    rw [taken, dropped]
    cases found : Text.readNat? 10 whole <;> simp [found, point, capital]
  rw [read]
  by_cases empty : whole = []
  · simp [empty, Text.readNat?]
  · simp [empty, Text.readNat?_ten empty digits]

theorem exponent?_eq {rest : List Char} (alphanum : ∀ c ∈ rest, c.isAlphanum = true) :
    exponent? rest = (Text.readNat? 10 rest).map Int.ofNat := by
  cases rest with
  | nil => rfl
  | cons c rest =>
    have word : IsWord (c :: rest) := ⟨by simp, alphanum⟩
    have plus := word.head_ne (d := '+') (by decide)
    have minus := word.head_ne (d := '-') (by decide)
    simp [exponent?, plus, minus]

theorem exists_letter (mixed : ¬ ∀ c ∈ text, c.isDigit = true) : ∃ whole c rest,
    text = whole ++ c :: rest ∧ (∀ d ∈ whole, d.isDigit = true) ∧ c.isDigit = false := by
  have split := List.takeWhile_append_dropWhile (p := Char.isDigit) (l := text)
  cases behind : text.dropWhile Char.isDigit with
  | nil => exact absurd (List.dropWhile_eq_nil_iff.mp behind) mixed
  | cons c rest =>
    have letter := List.head?_dropWhile_not Char.isDigit text
    rw [behind] at letter
    rw [behind] at split
    exact ⟨_, c, rest, split.symm, fun d member => List.mem_takeWhile_imp member, by simpa using letter⟩

/-- A word with letters in it is a decimal if it has an exponent behind its digits. -/
theorem decimal?_eq_some_iff (word : IsWord text) (capital : 'E' ∉ text) (mixed : ¬ ∀ c ∈ text, c.isDigit = true)
    {d : Decimal} : decimal? text = some d ↔
      ∃ whole exponent, text = whole ++ 'e' :: exponent ∧ whole ≠ [] ∧ exponent ≠ [] ∧
        (∀ c ∈ whole, c.isDigit = true) ∧ (∀ c ∈ exponent, c.isDigit = true) ∧
        d = ⟨Nat.ofDigitChars 10 whole 0, Nat.ofDigitChars 10 exponent 0⟩ := by
  have point : '.' ∉ text := word.notMem (by decide)
  constructor
  · intro found
    obtain ⟨whole, c, rest, rfl, digits, letter⟩ := exists_letter mixed
    have notPoint : c ≠ '.' := fun same => point (by simp [same])
    have notCapital : c ≠ 'E' := fun same => capital (by simp [same])
    have alphanum : ∀ c ∈ rest, c.isAlphanum = true := fun c member => word.alphanum c (by simp [member])
    rw [decimal?_append digits letter notPoint notCapital] at found
    split at found
    · next shape =>
      obtain ⟨notEmpty, rfl⟩ := shape
      rw [exponent?_eq alphanum, Option.map_map] at found
      obtain ⟨n, read, rfl⟩ := Option.map_eq_some_iff.mp found
      obtain ⟨behind, readable⟩ := Text.isSome_readNat?_iff.mp (Option.isSome_of_eq_some read)
      have digitsBehind : ∀ d ∈ rest, d.isDigit = true := fun d member =>
        Text.isSome_digitValue?_ten.mp (readable d member)
      rw [Text.readNat?_ten behind digitsBehind] at read
      cases read
      exact ⟨whole, rest, rfl, notEmpty, behind, digits, digitsBehind, rfl⟩
    · cases found
  · rintro ⟨whole, exponent, rfl, notEmpty, behind, digits, digitsBehind, rfl⟩
    have alphanum : ∀ c ∈ exponent, c.isAlphanum = true := fun c member => word.alphanum c (by simp [member])
    rw [decimal?_append digits (by decide) (by decide) (by decide), if_pos ⟨notEmpty, rfl⟩, exponent?_eq alphanum,
      Text.readNat?_ten behind digitsBehind]
    rfl

theorem magnitude?_eq {padded : Bool} (plain : Unbased text) :
    magnitude? text padded = if padded then none else Text.readNat? 10 text := by
  unfold magnitude?
  dsimp only
  split
  · next found =>
    split at found
    · exact absurd rfl (plain.hexadecimal _)
    · exact absurd rfl (plain.octal _)
    · rw [plain.binary _ rfl] at found
      cases found
    · cases found
  · rfl

theorem readInteger_of_mixed (word : IsWord text) (plain : Unbased text) (mixed : ¬ ∀ c ∈ text, c.isDigit = true) :
    readInteger text = .notInteger := by
  have unread : Text.readNat? 10 text = none := by
    rw [← Option.not_isSome_iff_eq_none, Text.isSome_readNat?_iff]
    rintro ⟨-, digits⟩
    exact mixed fun c member => Text.isSome_digitValue?_ten.mp (digits c member)
  rw [word.readInteger_eq, magnitude?_eq plain, unread]
  simp

/-- A word with letters in it is a finite decimal or a string, unless it starts with the sign of a base. -/
theorem ofPlain_of_mixed {text : String} (word : IsWord text.toList) (plain : Unbased text.toList)
    (null : null? text = false) (bool : bool? text = none) (mixed : ¬ ∀ c ∈ text.toList, c.isDigit = true) :
    Value.ofPlain text = .ok (match (decimal? text.toList).map (Binary64.ofDecimal false) with
      | some x => if x.isInfinite then .string text else .number (.float x)
      | none => .string text) := by
  have notEmpty : text ≠ "" := by
    rintro rfl
    exact word.notEmpty rfl
  have notPadded : isZeroPadded text.toList = false := by
    obtain ⟨c, rest, shape⟩ := List.exists_cons_of_ne_nil word.notEmpty
    rw [shape] at word mixed ⊢
    rw [← Bool.not_eq_true, word.isZeroPadded_iff]
    rintro ⟨-, -, digits⟩
    exact mixed digits
  simp only [Value.ofPlain, notEmpty, null, bool, word.readInteger_of_mixed plain mixed, notPadded, word.float?_eq]
  cases (decimal? text.toList).map (Binary64.ofDecimal false) with
  | none => simp
  | some x =>
    rw [Option.filter_some]
    by_cases infinite : x.isInfinite = true <;> simp [infinite]

/-- A word that starts with a letter is a string, unless it is one of the words for a value. -/
theorem ofPlain_of_letter {text : String} {c : Char} {rest : List Char} (word : IsWord text.toList)
    (null : null? text = false) (bool : bool? text = none) (shape : text.toList = c :: rest)
    (letter : c.isDigit = false) (capital : 'E' ∉ text.toList) : Value.ofPlain text = .ok (.string text) := by
  have notZero : c ≠ '0' := by
    rintro rfl
    cases letter
  have plain : Unbased text.toList := by
    rw [shape]
    exact ⟨by simp [notZero], by simp [notZero], by simp [notZero]⟩
  have mixed : ¬ ∀ d ∈ text.toList, d.isDigit = true := by
    intro digits
    have digit := digits c (by simp [shape])
    rw [letter] at digit
    cases digit
  have undecimal : decimal? text.toList = none := by
    rw [Option.eq_none_iff_forall_ne_some]
    intro d found
    obtain ⟨whole, exponent, split, notEmpty, -, digits, -⟩ := (word.decimal?_eq_some_iff capital mixed).mp found
    obtain ⟨first, whole, rfl⟩ := List.exists_cons_of_ne_nil notEmpty
    rw [shape] at split
    cases split
    rw [digits c (by simp)] at letter
    cases letter
  rw [word.ofPlain_of_mixed plain null bool mixed, undecimal]
  rfl

end IsWord

end EditorScheme.Yaml
