import EditorScheme.Palette
import EditorScheme.Proofs.Schema.Reading
import EditorScheme.Proofs.Table
import EditorScheme.Proofs.Yaml.Colors
import EditorScheme.Proofs.Yaml.LineValues

/-!
Palettes whose colors stand without quotes. Every such text is read, if it has a line at all and no name is too long
for a key, and a color comes back as it was written unless it is a number of another notation.
-/
namespace EditorScheme

/-- A line `name: color` of a palette. -/
structure ColorLine where
  name : String
  color : String

namespace ColorLine

/-- The name is a word of small letters that stands for no other value, and the color has six digits. -/
structure Plain (line : ColorLine) : Prop where
  named : line.name ≠ ""
  lower : ∀ c ∈ line.name.toList, c.isLower = true
  ordinary : line.name ∉ ["null", "true", "false"]
  color : Yaml.IsColor line.color.toList

def chars (line : ColorLine) : Yaml.Line := ⟨line.name.toList, line.color.toList⟩

def join (ending : Yaml.LineEnd) (closed : Bool) (lines : List ColorLine) : String :=
  String.ofList (Yaml.Line.join ending closed (lines.map chars))

def value (line : ColorLine) : Yaml.Value := line.chars.typed

def loaded (line : ColorLine) : String := line.value.scalarText?.getD ""

namespace Plain

variable {line : ColorLine} (plain : line.Plain)

include plain

theorem word : Yaml.IsWord line.name.toList where
  notEmpty empty := plain.named (String.toList_eq_nil_iff.mp empty)
  alphanum c member := Text.isAlphanum_iff.mpr (.inl (.inr (plain.lower c member)))

theorem ofWords : line.chars.OfWords := ⟨plain.word, plain.color.isWord⟩

theorem ne_of_other {text : String} (other : ∃ c ∈ text.toList, c.isLower = false) : line.name ≠ text := by
  rintro rfl
  obtain ⟨c, member, notSmall⟩ := other
  rw [plain.lower c member] at notSmall
  cases notSmall

theorem ofPlain_name : Yaml.Value.ofPlain line.name = .ok (.string line.name) := by
  obtain ⟨notNull, notTrue, notFalse⟩ : line.name ≠ "null" ∧ line.name ≠ "true" ∧ line.name ≠ "false" := by
    simpa using plain.ordinary
  have null : Yaml.null? line.name = false := by
    simp only [Yaml.null?, Bool.or_eq_false_iff, beq_eq_false_iff_ne]
    exact ⟨⟨⟨notNull, plain.ne_of_other (by simp)⟩, plain.ne_of_other (by simp)⟩, plain.ne_of_other (by simp)⟩
  have bool : Yaml.bool? line.name = none := by
    have noTrue : ¬ (line.name = "true" ∨ line.name = "True" ∨ line.name = "TRUE") := by
      simp only [not_or]
      exact ⟨notTrue, plain.ne_of_other (by simp), plain.ne_of_other (by simp)⟩
    have noFalse : ¬ (line.name = "false" ∨ line.name = "False" ∨ line.name = "FALSE") := by
      simp only [not_or]
      exact ⟨notFalse, plain.ne_of_other (by simp), plain.ne_of_other (by simp)⟩
    rw [Yaml.bool?, if_neg noTrue, if_neg noFalse]
  obtain ⟨c, rest, shape⟩ := List.exists_cons_of_ne_nil plain.word.notEmpty
  have notDigit : c.isDigit = false := by
    have small := Text.isLower_iff.mp (plain.lower c (by simp [shape]))
    have nine : '9'.toNat = 57 := rfl
    rw [← Bool.not_eq_true, Char.isDigit_iff_toNat]
    omega
  have noCapital : 'E' ∉ line.name.toList := by
    intro member
    cases plain.lower 'E' member
  exact plain.word.ofPlain_of_letter null bool shape notDigit noCapital

theorem ofPlain_color : Yaml.Value.ofPlain line.color = .ok line.value ∧
    line.value.scalarText? = some line.loaded ∧ (line.loaded = line.color ↔ ¬ Yaml.Respelled line.color.toList) := by
  obtain ⟨value, read, ok, shown, same⟩ := plain.color.exists_ofPlain
  have found : line.value = value := by
    rw [ColorLine.value, Yaml.Line.typed, chars, String.ofList_toList, ok]
    rfl
  have text : line.loaded = read := by rw [loaded, found, shown]; rfl
  exact ⟨found ▸ ok, found ▸ text ▸ shown, text ▸ same⟩

end Plain

end ColorLine

namespace Palette

variable {lines : List ColorLine} (plain : ∀ line ∈ lines, line.Plain) (distinct : (lines.map (·.name)).Nodup)

include plain distinct

theorem readValue_join (ending : Yaml.LineEnd) (closed : Bool) (notEmpty : lines ≠ [])
    (short : ∀ line ∈ lines, line.name.length ≤ 1024) : readValue (ColorLine.join ending closed lines) =
      .ok (.mapping (lines.map fun line => (.string line.name, line.value))) := by
  have names : (lines.map ColorLine.chars).map Yaml.Line.key = (lines.map (·.name)).map String.toList := by
    rw [List.map_map, List.map_map]
    rfl
  have apart : ((lines.map ColorLine.chars).map Yaml.Line.key).Nodup := by
    rw [names]
    exact List.Pairwise.map String.toList (fun _ _ apart same => apart (String.toList_inj.mp same)) distinct
  have words : ∀ line ∈ lines.map ColorLine.chars, line.OfWords := by
    simpa using fun line member => (plain line member).ofWords
  have inLimit : ∀ line ∈ lines.map ColorLine.chars, line.key.length ≤ 1024 := by
    simpa [ColorLine.chars, String.length_toList] using short
  have keys : ∀ line ∈ lines.map ColorLine.chars,
      Yaml.Value.ofPlain (String.ofList line.key) = .ok (.string (String.ofList line.key)) := by
    simpa [ColorLine.chars] using fun line member => (plain line member).ofPlain_name
  have values : ∀ line ∈ lines.map ColorLine.chars,
      Yaml.Value.ofPlain (String.ofList line.value) = .ok line.typed := by
    intro line listed
    obtain ⟨source, member, rfl⟩ := List.mem_map.mp listed
    have color : String.ofList source.chars.value = source.color := String.ofList_toList
    rw [color]
    exact (plain source member).ofPlain_color.1
  have read := Yaml.Value.ofText_join ending closed words (by simpa using notEmpty) inLimit keys values apart
  rw [readValue, ColorLine.join, read, List.map_map]
  simp [ColorLine.value, ColorLine.chars, Function.comp_def]

theorem ofYaml_join (ending : Yaml.LineEnd) (closed : Bool) (name : String) (notEmpty : lines ≠ [])
    (short : ∀ line ∈ lines, line.name.length ≤ 1024) : ofYaml name (ColorLine.join ending closed lines) =
      .ok ⟨name, .ofList (lines.map fun line => (line.name, line.loaded))⟩ := by
  have pairs : scalarPairs (.palette name) (lines.map fun line => (.string line.name, line.value)) =
      .ok (lines.map fun line => (line.name, line.loaded)) := by
    rw [scalarPairs, List.mapM_map]
    refine mapM_eq_ok_map fun line member => ?_
    exact scalarPair_eq_ok_iff.mpr ⟨rfl, (plain line member).ofPlain_color.2.1⟩
  rw [ofYaml, readValue_join plain distinct ending closed notEmpty short]
  simp [ofValue, rootEntries, pairs, bind, Except.bind]

omit distinct in
theorem ofYaml_join_of_long (ending : Yaml.LineEnd) (closed : Bool) (name : String)
    (long : ∃ line ∈ lines, 1024 < line.name.length) :
    ∃ e, ofYaml name (ColorLine.join ending closed lines) = .error e := by
  have notEmpty : lines.map ColorLine.chars ≠ [] := by
    rintro empty
    obtain ⟨line, member, -⟩ := long
    simp [List.map_eq_nil_iff.mp empty] at member
  have words : ∀ line ∈ lines.map ColorLine.chars, line.OfWords := by
    simpa using fun line member => (plain line member).ofWords
  have tooLong : ∃ line ∈ lines.map ColorLine.chars, 1024 < line.key.length := by
    obtain ⟨line, member, long⟩ := long
    refine ⟨line.chars, List.mem_map_of_mem member, ?_⟩
    rwa [ColorLine.chars, String.length_toList]
  obtain ⟨e, failed⟩ : ∃ e, Yaml.Token.ofText (Yaml.Line.join ending closed (lines.map ColorLine.chars)) = .error e :=
    (Yaml.Line.ofText_join words notEmpty).long tooLong
  refine ⟨.notYaml e, ?_⟩
  simp [ofYaml, readValue, ColorLine.join, Yaml.Value.ofText, failed, bind, Except.bind]

omit plain in
theorem resolve_ofList (name : String) {line : ColorLine} (member : line ∈ lines) :
    (⟨name, .ofList (lines.map fun line => (line.name, line.loaded))⟩ : Palette).resolve line.name = line.loaded := by
  have keys : ((lines.map fun line => (line.name, line.loaded)).map Prod.fst).Nodup := by
    rw [List.map_map]
    exact distinct
  have listed : (line.name, line.loaded) ∈ lines.map fun line => (line.name, line.loaded) :=
    List.mem_map_of_mem member
  rw [resolve, Table.ofList_eq_insertAll, Table.get?_insertAll_of_mem keys listed]
  rfl

/-- A palette of lines is read if it has a line at all and no name is too long for a key. A color then comes back
as it was written unless it is a number of another notation. -/
theorem colors_survive_iff (ending : Yaml.LineEnd) (closed : Bool) (name : String) :
    ((∃ palette, ofYaml name (ColorLine.join ending closed lines) = .ok palette) ↔
      lines ≠ [] ∧ ∀ line ∈ lines, line.name.length ≤ 1024) ∧
    ∀ palette, ofYaml name (ColorLine.join ending closed lines) = .ok palette → ∀ line ∈ lines,
      (palette.resolve line.name = line.color ↔ ¬ Yaml.Respelled line.color.toList) := by
  have readable {palette : Palette} (read : ofYaml name (ColorLine.join ending closed lines) = .ok palette) :
      lines ≠ [] ∧ ∀ line ∈ lines, line.name.length ≤ 1024 := by
    refine ⟨?_, ?_⟩
    · rintro rfl
      have failed : ofYaml name "" = .error (.malformed (.palette name) (.noMappingAtTop .null)) := rfl
      rw [ColorLine.join, List.map_nil, Yaml.Line.join, String.ofList_nil, failed] at read
      cases read
    · by_contra long
      simp only [not_forall, not_le] at long
      obtain ⟨line, member, long⟩ := long
      obtain ⟨e, failed⟩ := ofYaml_join_of_long plain ending closed name ⟨line, member, long⟩
      rw [failed] at read
      cases read
  refine ⟨⟨?_, ?_⟩, ?_⟩
  · rintro ⟨palette, read⟩
    exact readable read
  · rintro ⟨notEmpty, short⟩
    exact ⟨_, ofYaml_join plain distinct ending closed name notEmpty short⟩
  · intro palette read line member
    obtain ⟨notEmpty, short⟩ := readable read
    rw [ofYaml_join plain distinct ending closed name notEmpty short] at read
    cases read
    rw [resolve_ofList distinct name member]
    exact (plain line member).ofPlain_color.2.2

omit plain distinct

/-- Colors of which the first is no number, the second is decimal digits and the third has an exponent. -/
def threeColors : List ColorLine := [⟨"background", "282c34"⟩, ⟨"white", "012345"⟩, ⟨"grey", "123e45"⟩]

theorem plain_threeColors : ∀ line ∈ threeColors, line.Plain := by
  intro line member
  simp only [threeColors, List.mem_cons, List.not_mem_nil, or_false] at member
  rcases member with rfl | rfl | rfl
  all_goals exact ⟨by simp, by simp, by simp, rfl, by simp⟩

theorem distinct_threeColors : (threeColors.map (·.name)).Nodup := by
  simp [threeColors]

theorem colors_survive_iff_threeColors :
    ColorLine.join .feed true threeColors = "background: 282c34\nwhite: 012345\ngrey: 123e45\n" ∧
    (∀ line ∈ threeColors, line.Plain) ∧ (threeColors.map (·.name)).Nodup ∧
    ((∃ palette, ofYaml "normal" (ColorLine.join .feed true threeColors) = .ok palette) ↔
      threeColors ≠ [] ∧ ∀ line ∈ threeColors, line.name.length ≤ 1024) ∧
    ∀ palette, ofYaml "normal" (ColorLine.join .feed true threeColors) = .ok palette → ∀ line ∈ threeColors,
      (palette.resolve line.name = line.color ↔ ¬ Yaml.Respelled line.color.toList) :=
  ⟨rfl, plain_threeColors, distinct_threeColors,
    colors_survive_iff plain_threeColors distinct_threeColors .feed true "normal"⟩

theorem color_respelled : ∃ palette, ofYaml "normal" "grey: 123e45\n" = .ok palette ∧
    palette.resolve "grey" = "1.23e47" := by
  have answer : (ofYaml "normal" "grey: 123e45\n").toOption.map (·.resolve "grey") = some "1.23e47" := by
    decide +kernel
  obtain ⟨palette, read, color⟩ := Option.map_eq_some_iff.mp answer
  exact ⟨palette, eq_ok_of_toOption read, color⟩

end Palette

end EditorScheme
