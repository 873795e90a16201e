import EditorScheme.Build.Basic
import EditorScheme.Proofs.Files.Joining
import EditorScheme.Proofs.Files.Writing
import EditorScheme.Proofs.VariantNames

/-!
The last names of what a build reads and writes. All outputs of a configuration lie in one directory,
their last names differ as the names of the variants do, and no source is named like an output.
-/
namespace EditorScheme

namespace Path

/-- The last three characters of a name, the last one first. -/
def nameEnding (name : String) : List Char := name.toList.reverse.take 3

theorem nameEnding_append (start : String) {tail : String} (long : 3 ≤ tail.toList.length) :
    nameEnding (start ++ tail) = nameEnding tail := by
  simp [nameEnding, String.toList_append, List.take_append, Nat.sub_eq_zero_of_le long]

def ending (path : Path) : Option (List Char) := path.names.getLast?.map nameEnding

theorem Ends.ending {path : Path} {absolute : Bool} {parents : List String} {last : String}
    (ends : path.Ends absolute parents last) : path.ending = some (nameEnding last) := by
  rw [Path.ending, ends.getLast?, Option.map_some]

theorem last_ne_of_ending {a b : Path} (different : a.ending ≠ b.ending) : a.names.getLast? ≠ b.names.getLast? :=
  fun same => different (by rw [ending, same, ending])

theorem exists_named_of_ending {path : Path} {characters : List Char} (ending : path.ending = some characters)
    (long : characters.length = 3) : ∃ name, path.Named name := by
  obtain ⟨name, last, rfl⟩ := Option.map_eq_some_iff.mp ending
  refine ⟨name, last, ?_, ?_⟩
  · rintro rfl
    exact absurd long (by decide)
  · rintro rfl
    exact absurd long (by decide)

end Path

namespace Config

variable {config : Config} {v w : Variant} {extension other : String}

/-- What the names of files of one kind end in. -/
structure Extension (extension : String) : Prop where
  long : 3 ≤ extension.toList.length
  plain : '/' ∉ extension.toList

theorem extension_xml : Extension ".xml" := ⟨by decide, by decide⟩

theorem extension_themeJson : Extension ".theme.json" := ⟨by decide, by decide⟩

/-- The path of a file of one kind; schemes and theme files are two kinds. -/
def outputPath (config : Config) (extension : String) (v : Variant) : Path :=
  config.output.join (v.fileStem config.fileName ++ extension)

theorem schemePath_eq (config : Config) : config.schemePath = config.outputPath ".xml" := rfl

theorem themeJsonPath_eq (config : Config) : config.themeJsonPath = config.outputPath ".theme.json" := rfl

/-- Every output lies below the same names, and is named by the suffix of its variant. -/
theorem exists_outputs (config : Config) : ∃ absolute parents first, ∀ (v : Variant) (extension : String),
    '/' ∉ v.palette.toList → Extension extension →
      (config.outputPath extension v).Ends absolute parents (first ++ (v.suffix "_" ++ extension)) := by
  obtain ⟨absolute, parents, first, ends⟩ := Path.exists_ends_join config.output config.fileName
  refine ⟨absolute, parents, first, fun v extension plain kind => ?_⟩
  have stem : v.fileStem config.fileName ++ extension = config.fileName ++ (v.suffix "_" ++ extension) := by
    rw [Variant.fileStem, Variant.label_eq, String.append_assoc]
  have suffix : '/' ∉ (v.suffix "_").toList := Variant.slash_not_mem_suffix (by decide) plain
  rw [outputPath, stem]
  refine ends _ ?_ ?_
  · intro empty
    have long := kind.long
    simp [(String.append_eq_empty_iff.mp empty).2] at long
  · simp [suffix, kind.plain]

theorem outputPath_last_inj (kind : Extension extension) (plainV : '/' ∉ v.palette.toList)
    (plainW : '/' ∉ w.palette.toList) :
    (config.outputPath extension v).names.getLast? = (config.outputPath extension w).names.getLast? ↔
      v.fileStem config.fileName = w.fileStem config.fileName := by
  obtain ⟨absolute, parents, first, ends⟩ := exists_outputs config
  rw [(ends v extension plainV kind).getLast?, (ends w extension plainW kind).getLast?, Variant.fileStem,
    Variant.fileStem, Variant.label_inj]
  simp

theorem outputPath_eq_of_last (kind : Extension extension) (plainV : '/' ∉ v.palette.toList)
    (plainW : '/' ∉ w.palette.toList)
    (last : (config.outputPath extension v).names.getLast? = (config.outputPath extension w).names.getLast?) :
    config.outputPath extension v = config.outputPath extension w := by
  rw [outputPath, outputPath, (outputPath_last_inj kind plainV plainW).mp last]

theorem outputPath_ending (kind : Extension extension) (plain : '/' ∉ v.palette.toList) :
    (config.outputPath extension v).ending = some (Path.nameEnding extension) := by
  obtain ⟨absolute, parents, first, ends⟩ := exists_outputs config
  rw [(ends v extension plain kind).ending, ← String.append_assoc, Path.nameEnding_append _ kind.long]

theorem exists_named_outputPath (config : Config) (kind : Extension extension) (plain : '/' ∉ v.palette.toList) :
    ∃ name, (config.outputPath extension v).Named name := by
  refine Path.exists_named_of_ending (outputPath_ending kind plain) ?_
  rw [Path.nameEnding, List.length_take, List.length_reverse]
  exact Nat.min_eq_left kind.long

theorem same_outputPath_iff (kind : Extension extension) (plainV : '/' ∉ v.palette.toList)
    (plainW : '/' ∉ w.palette.toList) :
    (config.outputPath extension v).same (config.outputPath extension w) = true ↔
      v.fileStem config.fileName = w.fileStem config.fileName := by
  constructor
  · intro same
    obtain ⟨m, left⟩ := exists_named_outputPath config kind plainV
    obtain ⟨n, right⟩ := exists_named_outputPath config kind plainW
    rw [← outputPath_last_inj kind plainV plainW, left.last, right.last, left.eq_of_same right same]
  · intro same
    rw [outputPath, outputPath, same]
    exact Path.same_refl _

theorem pairwise_outputPaths_iff {variants : List Variant} (kind : Extension extension)
    (plain : ∀ v ∈ variants, '/' ∉ v.palette.toList) :
    (variants.map (config.outputPath extension)).Pairwise (fun a b => a.same b = false) ↔
      (variants.map (·.fileStem config.fileName)).Nodup := by
  have apart_iff {v w : Variant} (memberV : v ∈ variants) (memberW : w ∈ variants) :
      (config.outputPath extension v).same (config.outputPath extension w) = false ↔
        v.fileStem config.fileName ≠ w.fileStem config.fileName := by
    rw [← Bool.not_eq_true, same_outputPath_iff kind (plain v memberV) (plain w memberW)]
  rw [List.Nodup, List.pairwise_map, List.pairwise_map]
  constructor
  · intro apart
    exact apart.imp_of_mem fun memberV memberW different => (apart_iff memberV memberW).mp different
  · intro apart
    exact apart.imp_of_mem fun memberV memberW different => (apart_iff memberV memberW).mpr different

theorem outputPath_last_ne (kind : Extension extension) (otherKind : Extension other)
    (different : Path.nameEnding extension ≠ Path.nameEnding other) (plainV : '/' ∉ v.palette.toList)
    (plainW : '/' ∉ w.palette.toList) :
    (config.outputPath extension v).names.getLast? ≠ (config.outputPath other w).names.getLast? := by
  apply Path.last_ne_of_ending
  rw [outputPath_ending kind plainV, outputPath_ending otherKind plainW]
  simpa using different

inductive Output (config : Config) : Path → Prop
  | scheme (v : Variant) (plain : '/' ∉ v.palette.toList) : config.Output (config.schemePath v)
  | theme (v : Variant) (plain : '/' ∉ v.palette.toList) : config.Output (config.themeJsonPath v)

inductive Source (config : Config) : Path → Prop
  | styles : config.Source config.styleMapPath
  | theme : config.Source config.themePath
  | palette (name : String) (plain : '/' ∉ name.toList) : config.Source (config.palettePath name)

theorem Source.ending {path : Path} (source : config.Source path) :
    path.ending = some (Path.nameEnding ".yaml") := by
  cases source with
  | styles =>
    rw [styleMapPath, (Path.ends_join _ (by decide) (by decide)).ending]
    decide
  | theme =>
    rw [themePath, (Path.ends_join _ (by decide) (by decide)).ending]
    decide
  | palette name plain =>
    rw [palettePath, (Path.ends_join _ (by simp) (by simp [plain])).ending, Path.nameEnding_append _ (by decide)]

/-- No source is named like an output, wherever the directories are. -/
theorem Source.last_ne {source output : Path} (read : config.Source source) (written : config.Output output) :
    output.names.getLast? ≠ source.names.getLast? := by
  apply Path.last_ne_of_ending
  rw [read.ending]
  cases written with
  | scheme v plain =>
    rw [schemePath_eq, outputPath_ending extension_xml plain]
    decide
  | theme v plain =>
    rw [themeJsonPath_eq, outputPath_ending extension_themeJson plain]
    decide

theorem Source.readText_iff {before after : FileTree} {writes : List (Path × String)} {path : Path} {text : String}
    (source : config.Source path) (written : before.writeAll writes = .ok after)
    (outputs : ∀ w ∈ writes, config.Output w.1) :
    after.readText path = .ok text ↔ before.readText path = .ok text := by
  obtain ⟨name, named⟩ := Path.exists_named_of_ending source.ending (by decide)
  refine FileTree.readText_iff_of_writeAll written named fun w member => ?_
  rw [← named.last]
  exact source.last_ne (outputs w member)

theorem readText_themeJsonPath_iff {before after : FileTree} {writes : List (Path × String)} {text : String}
    (plain : '/' ∉ v.palette.toList) (written : before.writeAll writes = .ok after)
    (schemes : ∀ x ∈ writes, ∃ w : Variant, '/' ∉ w.palette.toList ∧ x.1 = config.schemePath w) :
    after.readText (config.themeJsonPath v) = .ok text ↔ before.readText (config.themeJsonPath v) = .ok text := by
  rw [themeJsonPath_eq]
  obtain ⟨name, named⟩ := exists_named_outputPath config extension_themeJson plain
  refine FileTree.readText_iff_of_writeAll written named fun x member => ?_
  obtain ⟨w, plainW, path⟩ := schemes x member
  rw [← named.last, path, schemePath_eq]
  exact outputPath_last_ne extension_xml extension_themeJson (by decide) plainW plain

end Config

end EditorScheme
