import EditorScheme.Palette
import EditorScheme.Proofs.Schema.Reading
import EditorScheme.Proofs.Table
import Mathlib.Data.Finset.Card

/-!
Palettes after any history of colors. A color has the value that it was given last, and a name that was given none
stands for itself. Two palettes are equal exactly if they answer alike; a color that is bound to its own name is still
told apart from a name without a color.
-/
namespace EditorScheme.Palette

variable {palette : Palette} {name token : String} {pairs : List (String × String)}

def addAll (palette : Palette) (pairs : List (String × String)) : Palette :=
  pairs.foldl (fun palette pair => palette.add pair.1 pair.2) palette

theorem addAll_eq (palette : Palette) (pairs : List (String × String)) :
    palette.addAll pairs = ⟨palette.name, palette.colors.insertAll pairs⟩ := by
  induction pairs generalizing palette with
  | nil => rfl
  | cons pair pairs ih => exact ih _

theorem addAll_empty (name : String) (pairs : List (String × String)) :
    (empty name).addAll pairs = ⟨name, .ofList pairs⟩ :=
  addAll_eq _ _

theorem contains_eq_true_iff : palette.contains token = true ↔ token ∈ palette.colors.keys := by
  rw [contains, Table.contains, Table.mem_keys_iff, Option.isSome_iff_exists]

theorem size_eq_card (palette : Palette) : palette.size = palette.colors.keys.toFinset.card := by
  have distinct : palette.colors.keys.Nodup := palette.colors.distinct
  rw [List.toFinset_card_of_nodup distinct, Table.keys, List.length_map]
  rfl

/-- What a palette answers if these colors have been added one after the other. -/
structure Answers (name : String) (pairs : List (String × String)) (palette : Palette) : Prop where
  name : palette.name = name
  contains : ∀ token, palette.contains token = true ↔ token ∈ pairs.map Prod.fst
  bound : ∀ before token value after, pairs = before ++ (token, value) :: after →
    token ∉ after.map Prod.fst → palette.resolve token = value
  unbound : ∀ token, token ∉ pairs.map Prod.fst → palette.resolve token = token
  size : palette.size = (pairs.map Prod.fst).toFinset.card
  isEmpty : palette.isEmpty = true ↔ palette.size = 0

theorem answers_addAll (name : String) (pairs : List (String × String)) :
    Answers name pairs ((empty name).addAll pairs) := by
  rw [addAll_empty]
  have keys (token : String) : token ∈ (Table.ofList pairs).keys ↔ token ∈ pairs.map Prod.fst := by
    rw [Table.keys_ofList, List.mem_eraseDups]
  refine ⟨rfl, fun token => ?_, ?_, fun token other => ?_, ?_, ?_⟩
  · rw [contains_eq_true_iff, keys]
  · rintro before token value after rfl last
    rw [resolve, Table.ofList_eq_insertAll, Table.insertAll_append, Table.insertAll_cons,
      Table.get?_insertAll_of_notMem last, Table.get?_insert, if_pos rfl, Option.getD_some]
  · rw [resolve, Table.ofList_eq_insertAll, Table.get?_insertAll_of_notMem other, Table.get?_empty, Option.getD_none]
  · rw [size_eq_card]
    congr 1
    ext token
    rw [List.mem_toFinset, List.mem_toFinset, keys]
  · simp [isEmpty, size, Table.isEmpty, Table.size]

/-- Whether a name is a color and what it stands for tell together what it is bound to. -/
theorem get?_eq_get?_iff {a b : Palette} : a.colors.get? token = b.colors.get? token ↔
    a.contains token = b.contains token ∧ a.resolve token = b.resolve token := by
  unfold contains Table.contains resolve
  cases a.colors.get? token <;> cases b.colors.get? token <;> simp

theorem beq_iff {a b : Palette} : (a == b) = true ↔
    a.name = b.name ∧ ∀ token, a.contains token = b.contains token ∧ a.resolve token = b.resolve token := by
  have parts : (a == b) = (a.name == b.name && a.colors.agrees b.colors) := rfl
  rw [parts, Bool.and_eq_true, beq_iff_eq, Table.agrees_iff_get?_eq]
  exact and_congr_right fun _ => forall_congr' fun token => get?_eq_get?_iff

theorem ofValue_eq_ok_iff {document : Yaml.Value} : ofValue name document = .ok palette ↔ ∃ root pairs,
    document = .mapping root ∧ Texts root pairs ∧ palette = (empty name).addAll pairs := by
  simp only [ofValue, bind_eq_ok_iff, rootEntries_eq_ok_iff, scalarPairs_eq_ok_iff, Except.ok.injEq, addAll_empty]
  constructor
  · rintro ⟨root, rfl, pairs, texts, rfl⟩
    exact ⟨root, pairs, rfl, texts, rfl⟩
  · rintro ⟨root, pairs, rfl, texts, rfl⟩
    exact ⟨root, rfl, pairs, texts, rfl⟩

theorem ofYaml_eq_ok_iff {text : String} : ofYaml name text = .ok palette ↔ ∃ root pairs,
    readValue text = .ok (.mapping root) ∧ Texts root pairs ∧ palette = (empty name).addAll pairs := by
  simp only [ofYaml, bind_eq_ok_iff, ofValue_eq_ok_iff]
  constructor
  · rintro ⟨_, read, root, pairs, rfl, made⟩
    exact ⟨root, pairs, read, made⟩
  · rintro ⟨root, pairs, read, made⟩
    exact ⟨_, read, root, pairs, rfl, made⟩

/-- A palette answers by the last colors of their names, whether they have been added or read from a document. Two
palettes are equal exactly if they have one name and answer alike, in whatever order their colors have been added. -/
theorem known_by_last_colors :
    (∀ name pairs, Answers name pairs ((empty name).addAll pairs)) ∧
    (∀ name text palette, ofYaml name text = .ok palette ↔ ∃ root pairs, readValue text = .ok (.mapping root) ∧
      Texts root pairs ∧ palette = (empty name).addAll pairs) ∧
    ∀ a b : Palette, (a == b) = true ↔
      a.name = b.name ∧ ∀ token, a.contains token = b.contains token ∧ a.resolve token = b.resolve token :=
  ⟨answers_addAll, fun _ _ _ => ofYaml_eq_ok_iff, fun _ _ => beq_iff⟩

/-- A string and a number are different keys, but one color. -/
example : (ofYaml "normal" "\"1\": black\n1: white\n").toOption.map (fun palette => (palette.resolve "1", palette.size)) =
    some ("white", 1) := by
  decide +kernel

end EditorScheme.Palette
