import EditorScheme.Proofs.Build.Result
import EditorScheme.Proofs.Json.RoundTrip

/-!
Theme files under another name and scheme. All other fields stay what they are, where they are, and the text of the
new file is read as these very fields. A theme that is renamed again is the base theme renamed once. The theme files
that a build derives are read as the base theme under other names and schemes.
-/
namespace EditorScheme

open Json

namespace ThemeJson

variable {base : Object} {name scheme : String} {depth : Nat}

/-- Fields under another name and scheme. Each of the two stands where it stood, or behind all others if it is new. -/
def renamedFields (fields : List (String × Value)) (name scheme : String) : List (String × Value) :=
  (fields.map fun field =>
    if field.1 = nameField then (field.1, .string name)
    else if field.1 = schemeField then (field.1, .string scheme)
    else field) ++
  [(nameField, .string name), (schemeField, .string scheme)].filter fun field => field.1 ∉ fields.map Prod.fst

theorem entries_rename (base : Object) (name scheme : String) :
    (rename base name scheme).entries = renamedFields base.entries name scheme := by
  have apart : nameField ≠ schemeField := by decide
  have named := nodup_map_fst_putEntry nameField (.string name) base.distinct
  have keys := map_fst_putEntry nameField (.string name) base.entries
  have listed : schemeField ∈ (putEntry nameField (.string name) base.entries).map Prod.fst ↔
      schemeField ∈ base.entries.map Prod.fst := by
    rw [keys]
    split
    · rfl
    · simp [Ne.symm apart]
  change putEntry schemeField (.string scheme) (putEntry nameField (.string name) base.entries) = _
  rw [Table.putEntry_eq named, if_congr listed rfl rfl, Table.putEntry_eq base.distinct, List.map_append, List.map_map,
    renamedFields, List.append_assoc]
  congr 1
  · refine List.map_congr_left fun field _ => ?_
    by_cases isName : field.1 = nameField
    · simp [isName, apart]
    · simp only [Function.comp_apply, isName, if_false]
      split
      · next isScheme => rw [isScheme]
      · rfl
  · by_cases hasName : nameField ∈ base.entries.map Prod.fst <;>
      by_cases hasScheme : schemeField ∈ base.entries.map Prod.fst <;>
      simp only [List.filter, hasName, hasScheme, apart, if_true, if_false, decide_true, decide_false, not_true_eq_false,
        not_false_eq_true, List.map_nil, List.map_cons, List.nil_append, List.append_nil, List.cons_append]

theorem rename_eq_insertAll (base : Object) (name scheme : String) : rename base name scheme =
    base.insertAll [(nameField, .string name), (schemeField, .string scheme)] := rfl

theorem keys_rename (base : Object) (name scheme : String) : (rename base name scheme).keys =
    base.keys ++ [nameField, schemeField].filter fun field => field ∉ base.keys := by
  have apart : schemeField ≠ nameField := by decide
  rw [rename, Table.keys_insert, Table.keys_insert]
  by_cases hasName : nameField ∈ base.keys <;> by_cases hasScheme : schemeField ∈ base.keys <;>
    simp [hasName, hasScheme, apart]

theorem get?_rename (base : Object) (name scheme field : String) : (rename base name scheme).get? field =
    if field = schemeField then some (.string scheme)
    else if field = nameField then some (.string name)
    else base.get? field := by
  rw [rename, Table.get?_insert, Table.get?_insert]

/-- Renaming keeps the fields in their order, with new ones behind the others, and changes only the name and the scheme.
The last renaming counts, so a theme file that is derived from a derived one is the file derived from the base. -/
theorem last_renaming_counts (base : Object) (name scheme : String) :
    (rename base name scheme).keys = base.keys ++ [nameField, schemeField].filter (fun field => field ∉ base.keys) ∧
    (rename base name scheme).keys.Nodup ∧
    (rename base name scheme).get? nameField = some (.string name) ∧
    (rename base name scheme).get? schemeField = some (.string scheme) ∧
    (∀ field, field ≠ nameField → field ≠ schemeField →
      (rename base name scheme).get? field = base.get? field) ∧
    (∀ name' scheme', rename (rename base name scheme) name' scheme' = rename base name' scheme') ∧
    ∀ config v, Build.themeJson config (rename base name scheme) v = Build.themeJson config base v := by
  have apart : nameField ≠ schemeField := by decide
  have again (name' scheme' : String) : rename (rename base name scheme) name' scheme' = rename base name' scheme' := by
    rw [rename_eq_insertAll, rename_eq_insertAll, rename_eq_insertAll]
    exact base.insertAll_insertAll_of_keys rfl
  refine ⟨keys_rename base name scheme, (rename base name scheme).distinct, ?_, ?_, fun field notName notScheme => ?_,
    again, fun config v => ?_⟩
  · rw [get?_rename, if_neg apart, if_pos rfl]
  · rw [get?_rename, if_pos rfl]
  · rw [get?_rename, if_neg notScheme, if_neg notName]
  · rw [Build.themeJson, again, Build.themeJson]

theorem nested_rename (nested : Nested (depth + 1) (.object base.entries)) :
    Nested (depth + 1) (.object (rename base name scheme).entries) := by
  cases nested with
  | object distinct inside =>
    refine .object (rename base name scheme).distinct fun field member => ?_
    rcases Table.mem_putEntry member with rfl | named
    · exact .string scheme
    · rcases Table.mem_putEntry named with rfl | old
      · exact .string name
      · exact inside field old

theorem numbers_rename {n : Number} (member : n ∈ (Value.object (rename base name scheme).entries).numbers) :
    n ∈ (Value.object base.entries).numbers := by
  rw [Value.numbers, fieldNumbers_eq] at member ⊢
  obtain ⟨field, inside, number⟩ := List.mem_flatMap.mp member
  rcases Table.mem_putEntry inside with rfl | named
  · cases number
  · rcases Table.mem_putEntry named with rfl | old
    · cases number
    · exact List.mem_flatMap.mpr ⟨field, old, number⟩

theorem ofText?_rename (nested : Nested maximalDepth (.object base.entries))
    (legible : ∀ n ∈ (Value.object base.entries).numbers, ∃ other, ReadsAs n other) :
    Value.ofText? ((rename base name scheme).text ++ "\n") =
      some ((Value.object (renamedFields base.entries name scheme)).mapNumbers reread) := by
  rw [← entries_rename]
  exact ofText?_text (nested_rename nested) (fun n member => legible n (numbers_rename member))
    (by simp [isSpace])

theorem exists_object_rename (name scheme : String) (nested : Nested maximalDepth (.object base.entries))
    (legible : ∀ n ∈ (Value.object base.entries).numbers, ∃ other, ReadsAs n other) : ∃ object,
      (Value.ofText? ((rename base name scheme).text ++ "\n")).bind Value.toObject? = some object ∧
      object.get? nameField = some (.string name) ∧ object.get? schemeField = some (.string scheme) := by
  have apart : nameField ≠ schemeField := by decide
  refine ⟨(rename base name scheme).mapValues (Value.mapNumbers reread), ?_, ?_, ?_⟩
  · rw [ofText?_rename nested legible, ← entries_rename, Option.bind_some, Value.mapNumbers, mapFields_eq,
      Value.toObject?, Option.some.injEq]
    exact Table.ext (Table.entries_ofList ((rename base name scheme).mapValues (Value.mapNumbers reread)).distinct)
  · rw [Table.get?_mapValues, get?_rename, if_neg apart, if_pos rfl]
    rfl
  · rw [Table.get?_mapValues, get?_rename, if_pos rfl]
    rfl

theorem ofText?_rename_of_integers {text : String} (read : Value.ofText? text = some (.object base.entries))
    (whole : ∀ n ∈ (Value.object base.entries).numbers, ∃ i, n = .integer i) :
    Value.ofText? ((rename base name scheme).text ++ "\n") =
      some (.object (renamedFields base.entries name scheme)) := by
  obtain ⟨nested, fromText⟩ := nested_of_ofText? read
  have back : ∀ n ∈ (Value.object base.entries).numbers, ReadsAs n n := by
    intro n member
    obtain ⟨i, rfl⟩ := whole n member
    obtain ⟨number, value⟩ := fromText _ member
    obtain ⟨low, high⟩ := NumberText.range_of_value? value
    exact readsAs_integer low high
  have same : (Value.object (rename base name scheme).entries).mapNumbers reread =
      .object (rename base name scheme).entries :=
    (nested_rename nested).mapNumbers_eq fun n member => (back n (numbers_rename member)).reread_eq
  rw [ofText?_rename nested fun n member => ⟨n, back n member⟩, ← entries_rename, same]

end ThemeJson

namespace Build

variable {config : Config} {start after : RecordedFiles} {variants : List Variant} {paths : List Path} {text : String}
  {fields : List (String × Value)}

theorem exists_text_of_baseThemeIn {tree : FileTree} {base : Object} (loaded : config.baseThemeIn tree = .ok base) :
    ∃ text, tree.readText (config.themeJsonPath Variant.base) = .ok text ∧
      Value.ofText? text = some (.object base.entries) := by
  obtain ⟨text, value, read, parsed, object⟩ := Config.baseThemeIn_eq_ok_iff.mp loaded
  cases value with
  | object fields =>
    cases object
    cases (nested_of_ofText? parsed).1 with
    | object distinct inside => exact ⟨text, read, (Table.entries_ofList distinct).symm ▸ parsed⟩
  | _ => cases object

theorem entries_of_baseThemeIn {tree : FileTree} {base : Object}
    (read : tree.readText (config.themeJsonPath Variant.base) = .ok text)
    (parsed : Value.ofText? text = some (.object fields)) (loaded : config.baseThemeIn tree = .ok base) :
    base.entries = fields := by
  obtain ⟨other, readOther, parsedOther⟩ := exists_text_of_baseThemeIn loaded
  cases read.symm.trans readOther
  cases parsed.symm.trans parsedOther
  rfl

/-- Every theme file is written with a text that is read as the fields of the base theme, in their order, but for the
name of the variant and the reference to its scheme. -/
theorem themes_keep_fields (read : start.files.readText (config.themeJsonPath Variant.base) = .ok text)
    (parsed : Value.ofText? text = some (.object fields))
    (whole : ∀ n ∈ (Value.object fields).numbers, ∃ i, n = .integer i)
    (ran : outcome (deriveThemes config variants) start = (.ok paths, after)) : ∃ files,
      start.files.writeAll files = .ok after.files ∧ paths = files.map (·.1) ∧
      List.Forall₂ (fun v file => file.1 = config.themeJsonPath v ∧
          Value.ofText? file.2 = some (.object (ThemeJson.renamedFields fields (v.displayName config.displayName)
            (config.schemeResource v))))
        (variants.filter fun v => !v.isBase) files := by
  obtain ⟨base, loaded, rfl, written⟩ := files_of_outcome_deriveThemes ran
  obtain rfl := entries_of_baseThemeIn read parsed loaded
  refine ⟨_, written, by simp [Config.themeFile], List.forall₂_map_right_iff.mpr (List.forall₂_same.mpr fun v _ => ?_)⟩
  exact ⟨rfl, ThemeJson.ofText?_rename_of_integers parsed whole⟩

/-- A base theme without a name. One of its fields is written twice, and there are escapes in its strings. -/
def nestedTheme : String :=
  "\x7b\"editorScheme\": \"/old.xml\", \"ui\": \x7b\"*\": [1, -2, \x7b\"\\u0000\\\"\": 18446744073709551615\x7d], " ++
    "\"twice\": 1, \"twice\": [\"\\ud83d\\ude00\\\\\"]\x7d, \"dark\": true\x7d"

def nestedTree : FileTree where
  entries := .ofList [
    (["w"], .directory),
    (["new", "w"], .directory),
    (["themes", "w"], .directory),
    (["x.theme.json", "themes", "w"], .file (.text nestedTheme))]
  workingDirectory := ["w"]

theorem themes_keep_fields_nestedTree : ∃ fields,
    nestedTree.readText (italicConfig.themeJsonPath Variant.base) = .ok nestedTheme ∧
    Value.ofText? nestedTheme = some (.object fields) ∧
    (∀ n ∈ (Value.object fields).numbers, ∃ i, n = .integer i) ∧ ∃ paths after,
      outcome (deriveThemes italicConfig italicConfig.variants) ⟨nestedTree, []⟩ = (.ok paths, after) ∧
      ∃ files, nestedTree.writeAll files = .ok after.files ∧ paths = files.map (·.1) ∧
        List.Forall₂ (fun v file => file.1 = italicConfig.themeJsonPath v ∧
            Value.ofText? file.2 = some (.object (ThemeJson.renamedFields fields
              (v.displayName italicConfig.displayName) (italicConfig.schemeResource v))))
          (italicConfig.variants.filter fun v => !v.isBase) files := by
  have read : nestedTree.readText (italicConfig.themeJsonPath Variant.base) = .ok nestedTheme :=
    eq_ok_of_toOption (by decide +kernel)
  have isObject : ((Value.ofText? nestedTheme).bind Value.toObject?).isSome := by decide +kernel
  have numbers : (Value.ofText? nestedTheme).map Value.numbers =
      some [.integer 1, .integer (-2), .integer 18446744073709551615] := by decide +kernel
  obtain ⟨fields, parsed⟩ : ∃ fields, Value.ofText? nestedTheme = some (.object fields) := by
    obtain ⟨object, found⟩ := Option.isSome_iff_exists.mp isObject
    obtain ⟨value, parsed, toObject⟩ := Option.bind_eq_some_iff.mp found
    cases value with
    | object fields => exact ⟨fields, parsed⟩
    | _ => cases toObject
  have whole : ∀ n ∈ (Value.object fields).numbers, ∃ i, n = .integer i := by
    rw [parsed, Option.map_some, Option.some.injEq] at numbers
    simp [numbers]
  have answers : (outcome (deriveThemes italicConfig italicConfig.variants) ⟨nestedTree, []⟩).1.toOption.isSome := by
    decide +kernel
  obtain ⟨paths, answer⟩ := Option.isSome_iff_exists.mp answers
  have ran := outcome_of_toOption answer
  refine ⟨fields, read, parsed, whole, paths, _, ran, themes_keep_fields ?_ parsed whole ran⟩
  exact read

end Build

end EditorScheme
