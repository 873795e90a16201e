import EditorScheme.Proofs.Text.Digits
import EditorScheme.Yaml.Lexer

/-!
Words of letters and digits. None of their characters means anything to the structure of a document, so a word is
read as a plain scalar up to the first other character.
-/
namespace EditorScheme.Yaml

theorem ne_of_isAlphanum {c d : Char} (letter : c.isAlphanum = true) (special : d.isAlphanum = false) :
    (c = d) = False := by
  refine eq_false fun same => ?_
  rw [same, special] at letter
  cases letter

theorem contains_eq_false {c : Char} {list : List Char} (letter : c.isAlphanum = true)
    (special : ∀ d ∈ list, d.isAlphanum = false) : list.contains c = false := by
  rw [← Bool.not_eq_true, List.contains_iff_mem]
  intro member
  rw [special c member] at letter
  cases letter

theorem toNat_of_isAlphanum {c : Char} (letter : c.isAlphanum = true) : 48 ≤ c.toNat ∧ c.toNat ≤ 122 := by
  have zero : '0'.toNat = 48 := rfl
  have nine : '9'.toNat = 57 := rfl
  rw [Text.isAlphanum_iff, Text.isUpper_iff, Text.isLower_iff, Char.isDigit_iff_toNat] at letter
  omega

structure IsWord (text : List Char) : Prop where
  notEmpty : text ≠ []
  alphanum : ∀ c ∈ text, c.isAlphanum = true

namespace IsWord

variable {text : List Char}

theorem notMem (word : IsWord text) {c : Char} (special : c.isAlphanum = false) : c ∉ text := by
  intro member
  have letter := word.alphanum c member
  rw [special] at letter
  cases letter

theorem head_ne {c d : Char} {rest : List Char} (word : IsWord (c :: rest)) (special : d.isAlphanum = false) :
    c ≠ d := by
  rintro rfl
  exact word.notMem special (by simp)

end IsWord

section Character

variable {c : Char} (letter : c.isAlphanum = true)

include letter

theorem utf8Size_of_isAlphanum : c.utf8Size = 1 := by
  have range := toNat_of_isAlphanum letter
  rw [Char.utf8Size_eq_one_iff, UInt32.le_iff_toNat_le]
  change c.toNat ≤ 127
  omega

theorem isAllowed_of_isAlphanum : isAllowed c = true := by
  have range := toNat_of_isAlphanum letter
  have low : '\x20' ≤ c := Text.le_iff_toNat_le.mpr (Nat.le_trans (by decide) range.1)
  have high : c ≤ '\x7e' := Text.le_iff_toNat_le.mpr (Nat.le_trans range.2 (by decide))
  simp [isAllowed, low, high]

theorem isBreak_of_isAlphanum : isBreak c = false := by
  simp (disch := decide) [isBreak, ne_of_isAlphanum letter]

theorem isBlank_of_isAlphanum : isBlank c = false := by
  simp (disch := decide) [isBlank, ne_of_isAlphanum letter]

theorem isIndicator_of_isAlphanum : isIndicator c = false :=
  contains_eq_false letter (by simp)

theorem past_of_isAlphanum (place : Position) : place.past c = place.along 1 := by
  rw [Position.past, Position.along, utf8Size_of_isAlphanum letter]

end Character

/-- A line ends with a line feed, perhaps behind a carriage return. -/
inductive LineEnd
  | feed
  | returnFeed

def LineEnd.text : LineEnd → List Char
  | .feed => ['\n']
  | .returnFeed => ['\r', '\n']

def LineEnd.size : LineEnd → Nat
  | .feed => 1
  | .returnFeed => 2

namespace PlainText

variable {indent : Nat} {done : List Char} {place : Position}

theorem readFrom_next {c : Char} {rest : List Char} (notReturn : c ≠ '\r') (visible : isBreak c = false)
    (solid : isBlank c = false) (goesOn : endsPlain false indent .none place.column (c :: rest) = false) :
    readFrom false indent (c :: rest) place done .none =
      readFrom false indent rest (place.past c) (c :: done) .none := by
  have colon : badColon false (c :: rest) = false := by
    unfold badColon
    split <;> simp
  rw [readFrom]
  · simp only [visible, solid, goesOn, colon, Bool.false_eq_true, ↓reduceIte]
    rfl
  · rintro rest' rfl
    exact absurd rfl notReturn

theorem readFrom_word {word : List Char} (alphanum : ∀ c ∈ word, c.isAlphanum = true) (rest : List Char) :
    readFrom false indent (word ++ rest) place done .none =
      readFrom false indent rest (place.along word.length) (word.reverse ++ done) .none := by
  induction word generalizing place done with
  | nil => rfl
  | cons c word ih =>
    obtain ⟨letter, alphanum⟩ := List.forall_mem_cons.mp alphanum
    have notReturn : c ≠ '\r' := (ne_of_isAlphanum letter (by decide)).mp
    have goesOn : endsPlain false indent .none place.column (c :: (word ++ rest)) = false := by
      simp (disch := decide) [endsPlain, ne_of_isAlphanum letter, Gap.none, Gap.isNone]
    rw [List.cons_append, readFrom_next notReturn (isBreak_of_isAlphanum letter) (isBlank_of_isAlphanum letter)
      goesOn, past_of_isAlphanum letter, ih alphanum]
    simp [Position.along, Nat.add_assoc, Nat.add_comm 1]

theorem readFrom_colon (rest : List Char) : readFrom false indent (':' :: ' ' :: rest) place done .none =
    .ok ⟨done.reverse, false, ⟨':' :: ' ' :: rest, place⟩⟩ := by
  rw [readFrom]
  · rfl
  · rintro rest' ⟨⟩

theorem readFrom_break (ending : LineEnd) (rest : List Char) :
    readFrom false indent (ending.text ++ rest) place done .none =
      readFrom false indent rest (place.nextLine ending.size) done (.breaks ['\n'] []) := by
  cases ending with
  | feed =>
    rw [LineEnd.text, List.cons_append, readFrom]
    · rfl
    · rintro rest' ⟨⟩
  | returnFeed => rfl

/-- A word ends at the end of its line, if nothing more indented comes behind it. -/
theorem readFrom_lineEnd (ending : LineEnd) {rest : List Char} (indented : 0 < indent)
    (behind : ∀ c ∈ rest.head?, c.isAlphanum = true) :
    readFrom false indent (ending.text ++ rest) place done .none =
      .ok ⟨done.reverse, true, ⟨rest, place.nextLine ending.size⟩⟩ := by
  rw [readFrom_break]
  cases rest with
  | nil => rfl
  | cons c rest =>
    have letter := behind c rfl
    have ends : endsPlain false indent (.breaks ['\n'] []) 0 (c :: rest) = true := by
      simp [endsPlain, Gap.isNone, indented]
    rw [readFrom]
    · simp [isBreak_of_isAlphanum letter, isBlank_of_isAlphanum letter, Position.nextLine, ends, Gap.hasBreak]
    · rintro rest' rfl
      cases letter

end PlainText

namespace Lexer

theorem skipFrom_visible {c : Char} {bracketed allowed : Bool} {place : Position} (rest : List Char)
    (visible : isBreak c = false) (solid : isBlank c = false) (noMark : c ≠ '\ufeff') (noComment : c ≠ '#') :
    skipFrom bracketed (c :: rest) place false allowed = (⟨c :: rest, place⟩, allowed) := by
  have notSpace : c ≠ ' ' ∧ c ≠ '\t' := by simpa [isBlank] using solid
  rw [skipFrom]
  · simp [visible, notSpace, noMark, noComment]
  · rintro rest' rfl
    cases visible

theorem skipFrom_space {bracketed allowed : Bool} {place : Position} (rest : List Char) :
    skipFrom bracketed (' ' :: rest) place false allowed = skipFrom bracketed rest (place.along 1) false allowed := by
  rw [skipFrom]
  · rfl
  · rintro rest' ⟨⟩

theorem atDocumentMark_eq_false {c : Char} {column : Nat} (rest : List Char) (dash : c ≠ '-') (point : c ≠ '.') :
    atDocumentMark column (c :: rest) = false := by
  unfold atDocumentMark
  split
  · next same => exact absurd (List.cons.inj same).1 dash
  · next same => exact absurd (List.cons.inj same).1 point
  · exact Bool.and_false _

/-- No token but a plain scalar starts with a letter or a digit. -/
theorem readToken_of_isAlphanum (s : Lexer) {c : Char} (letter : c.isAlphanum = true) (rest : List Char) :
    s.readToken c rest = s.plainScalar := by
  have noMark : atDocumentMark s.cursor.column (c :: rest) = false :=
    atDocumentMark_eq_false rest (ne_of_isAlphanum letter (by decide)).mp (ne_of_isAlphanum letter (by decide)).mp
  have starts : startsPlain s.bracketed c rest = true := by
    simp [startsPlain, isBlank_of_isAlphanum letter, isBreak_of_isAlphanum letter, isIndicator_of_isAlphanum letter]
  simp (disch := decide) [readToken, ne_of_isAlphanum letter, noMark, starts]

theorem readToken_colon (s : Lexer) (rest : List Char) : s.readToken ':' (' ' :: rest) = s.value := by
  have noMark : atDocumentMark s.cursor.column (':' :: ' ' :: rest) = false :=
    atDocumentMark_eq_false _ (by decide) (by decide)
  have gap : atGap (' ' :: rest) = true := rfl
  simp [readToken, noMark, gap]

end Lexer

end EditorScheme.Yaml
