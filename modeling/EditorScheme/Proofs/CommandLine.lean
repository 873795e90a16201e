import EditorScheme.CommandLine.Run
import EditorScheme.Proofs.Build.Result
import Mathlib.Algebra.GroupWithZero.Nat

/-!
The program as a build. Arguments that spell a configuration may come in any order and with any verbosity; the program
then does what a build of that configuration does, and its exit code tells how the build ended.
-/
namespace EditorScheme.CommandLine

def Setting.name : Setting → String
  | .source => "source"
  | .output => "out"
  | .fileName => "file-name"
  | .displayName => "display-name"
  | .palette => "palette"
  | .resourceRoot => "scheme-prefix"

/-- An argument as it may be given: a setting with its value attached, or a flag. -/
inductive Argument
  | assign (setting : Setting) (value : String)
  | skipThemes
  /-- One letter for each level, and at least one. -/
  | verbose (more : Nat)
deriving DecidableEq

namespace Argument

def text : Argument → String
  | .assign setting value => "--" ++ setting.name ++ "=" ++ value
  | .skipThemes => "--skip-json"
  | .verbose more => "-v" ++ String.ofList (List.replicate more 'v')

def value? (setting : Setting) : Argument → Option String
  | .assign other value => if other = setting then some value else none
  | _ => none

def level : Argument → Nat
  | .verbose more => more + 1
  | _ => 0

end Argument

def valuesOf (arguments : List Argument) (setting : Setting) : List String :=
  arguments.filterMap (Argument.value? setting)

def levelOf (arguments : List Argument) : Nat := (arguments.map Argument.level).sum

def settingsOf (config : Config) : Setting → List String
  | .source => [config.source.text]
  | .output => [config.output.text]
  | .fileName => [config.fileName]
  | .displayName => [config.displayName]
  | .palette => config.palettes
  | .resourceRoot => [config.resourceRoot]

/-- The arguments give every setting of the configuration once, and the palettes in order. Nothing is said of how
settings and flags stand among each other, nor of the verbosity. -/
structure Spells (arguments : List Argument) (config : Config) : Prop where
  settings : ∀ setting, valuesOf arguments setting = settingsOf config setting
  skipThemes : arguments.count .skipThemes = if config.deriveThemes then 0 else 1

theorem Setting.ofName?_name (setting : Setting) : Setting.ofName? setting.name = some setting := by
  cases setting <;> decide

theorem Setting.plain_name (setting : Setting) : ∀ c ∈ setting.name.toList, (c != '=') = true := by
  apply List.all_eq_true.mp
  cases setting <;> decide

/-- A name ends at the first equals sign, whatever the value is. -/
theorem splitLong_setting (setting : Setting) (value : String) :
    splitLong (setting.name.toList ++ '=' :: value.toList) = (setting.name, some value) := by
  simp [splitLong, List.takeWhile_append_of_pos setting.plain_name, List.dropWhile_append_of_pos setting.plain_name]

theorem readShort_replicate (more : Nat) (given : Given) :
    readShort (List.replicate more 'v') given = some (.more { given with verbosity := given.verbosity + more }) := by
  induction more generalizing given with
  | zero => rfl
  | succ more ih => simp [List.replicate_succ, readShort, ih, Nat.add_assoc, Nat.add_comm 1]

namespace Given

def put? (given : Given) : Argument → Option Given
  | .assign setting value => given.set? setting value
  | .skipThemes => if given.skipThemes then none else some { given with skipThemes := true }
  | .verbose more => some { given with verbosity := given.verbosity + (more + 1) }

def values (given : Given) : Setting → List String
  | .source => given.source.toList
  | .output => given.output.toList
  | .fileName => given.fileName.toList
  | .displayName => given.displayName.toList
  | .palette => given.palettes
  | .resourceRoot => given.resourceRoot.toList

end Given

theorem readFrom_text (argument : Argument) (rest : List String) (given : Given) :
    readFrom (argument.text :: rest) given = (given.put? argument).bind (readFrom rest) := by
  cases argument with
  | assign setting value =>
    obtain ⟨c, name, spelled⟩ : ∃ c name, setting.name.toList = c :: name :=
      List.exists_cons_of_ne_nil (by cases setting <;> decide)
    have chars : (Argument.assign setting value).text.toList = '-' :: '-' :: c :: (name ++ '=' :: value.toList) := by
      simp [Argument.text, spelled]
    have split : splitLong (c :: (name ++ '=' :: value.toList)) = (setting.name, some value) := by
      rw [← splitLong_setting, spelled, List.cons_append]
    rw [readFrom]
    simp only [chars, split, Setting.ofName?_name, Given.put?]
  | skipThemes =>
    have chars : Argument.skipThemes.text.toList = ['-', '-', 's', 'k', 'i', 'p', '-', 'j', 's', 'o', 'n'] := rfl
    have split : splitLong ['s', 'k', 'i', 'p', '-', 'j', 's', 'o', 'n'] = ("skip-json", none) := by decide
    have noSetting : Setting.ofName? "skip-json" = none := by decide
    have flag : readFlag "skip-json" given = (given.put? .skipThemes).map .more := by
      cases skipped : given.skipThemes <;> simp [readFlag, Given.put?, skipped]
    rw [readFrom]
    simp only [chars, split, noSetting, flag]
    cases given.put? .skipThemes <;> rfl
  | verbose more =>
    have chars : (Argument.verbose more).text.toList = '-' :: 'v' :: List.replicate more 'v' := by
      simp [Argument.text]
    have levels : readShort ('v' :: List.replicate more 'v') given =
        some (.more { given with verbosity := given.verbosity + (more + 1) }) := readShort_replicate (more + 1) given
    rw [readFrom]
    simp [chars, levels, Given.put?]

theorem readFrom_texts (arguments : List Argument) (given : Given) :
    readFrom (arguments.map Argument.text) given = (arguments.foldlM Given.put? given).map Given.request := by
  induction arguments generalizing given with
  | nil => simp [readFrom]
  | cons argument arguments ih =>
    rw [List.map_cons, readFrom_text, List.foldlM_cons]
    cases given.put? argument with
    | none => rfl
    | some after => exact ih after

namespace Given

variable {given : Given} {config : Config}

def put (given : Given) (value : String) : Setting → Given
  | .source => { given with source := some value }
  | .output => { given with output := some value }
  | .fileName => { given with fileName := some value }
  | .displayName => { given with displayName := some value }
  | .palette => { given with palettes := given.palettes ++ [value] }
  | .resourceRoot => { given with resourceRoot := some value }

/-- A setting may be given if it has not been given before, and palettes always. -/
theorem set?_eq_put {setting : Setting} {value : String} (room : setting = .palette ∨ given.values setting = [])
    (filled : setting = .source ∨ setting = .output → value ≠ "") :
    given.set? setting value = some (given.put value setting) := by
  cases setting <;> simp_all [set?, once, put, values]

theorem values_put {setting : Setting} (room : setting = .palette ∨ given.values setting = []) (value : String)
    (other : Setting) : (given.put value setting).values other =
      given.values other ++ if setting = other then [value] else [] := by
  cases setting <;> cases other <;> simp_all [put, values]

theorem skipThemes_put (value : String) (setting : Setting) : (given.put value setting).skipThemes = given.skipThemes := by
  cases setting <;> rfl

theorem verbosity_put (value : String) (setting : Setting) : (given.put value setting).verbosity = given.verbosity := by
  cases setting <;> rfl

/-- What has been given and the arguments that are left spell the configuration together. -/
structure Awaits (given : Given) (arguments : List Argument) (config : Config) : Prop where
  settings : ∀ setting, given.values setting ++ valuesOf arguments setting = settingsOf config setting
  skipThemes : given.skipThemes.toNat + arguments.count .skipThemes = (!config.deriveThemes).toNat

theorem single_settingsOf (config : Config) (setting : Setting) :
    setting = .palette ∨ ∃ value, settingsOf config setting = [value] := by
  cases setting with
  | palette => exact .inl rfl
  | _ => exact .inr ⟨_, rfl⟩

theorem valuesOf_cons (argument : Argument) (arguments : List Argument) (setting : Setting) :
    valuesOf (argument :: arguments) setting = (argument.value? setting).toList ++ valuesOf arguments setting := by
  unfold valuesOf
  cases value : argument.value? setting <;> simp [value]

variable {argument : Argument} {arguments : List Argument}

theorem Awaits.assign {setting : Setting} {value : String}
    (awaits : given.Awaits (.assign setting value :: arguments) config) (source : config.source.text ≠ "")
    (output : config.output.text ≠ "") : given.set? setting value = some (given.put value setting) ∧
      (given.put value setting).Awaits arguments config := by
  have whole := awaits.settings setting
  rw [valuesOf_cons, Argument.value?, if_pos rfl, Option.toList_some, List.singleton_append] at whole
  have room : setting = .palette ∨ given.values setting = [] := by
    rcases single_settingsOf config setting with palette | ⟨only, single⟩
    · exact .inl palette
    · rw [single] at whole
      have lengths := congrArg List.length whole
      rw [List.length_append, List.length_cons, List.length_singleton] at lengths
      exact .inr (List.eq_nil_of_length_eq_zero (by omega))
  have filled : setting = .source ∨ setting = .output → value ≠ "" := by
    rintro (rfl | rfl)
    · simp_all [settingsOf]
    · simp_all [settingsOf]
  refine ⟨set?_eq_put room filled, fun other => ?_, ?_⟩
  · rw [values_put room, ← awaits.settings other, valuesOf_cons, Argument.value?, List.append_assoc]
    split <;> rfl
  · rw [skipThemes_put]
    simpa using awaits.skipThemes

/-- Each argument is accepted, and what is left is still awaited. -/
theorem Awaits.step (awaits : given.Awaits (argument :: arguments) config) (source : config.source.text ≠ "")
    (output : config.output.text ≠ "") : ∃ after, given.put? argument = some after ∧
      after.Awaits arguments config ∧ after.verbosity = given.verbosity + argument.level := by
  cases argument with
  | assign setting value =>
    obtain ⟨set, rest⟩ := awaits.assign source output
    exact ⟨_, set, rest, verbosity_put value setting⟩
  | skipThemes =>
    have whole := awaits.skipThemes
    rw [List.count_cons_self] at whole
    have first : given.skipThemes = false := by
      cases skipped : given.skipThemes with
      | false => rfl
      | true =>
        rw [skipped] at whole
        have := Bool.toNat_le (!config.deriveThemes)
        simp at whole
        omega
    refine ⟨{ given with skipThemes := true }, by simp [put?, first], ⟨fun other => ?_, ?_⟩, rfl⟩
    · exact awaits.settings other
    · rw [first] at whole
      simpa [Nat.add_comm] using whole
  | verbose more =>
    refine ⟨_, rfl, ⟨fun other => awaits.settings other, ?_⟩, rfl⟩
    simpa using awaits.skipThemes

theorem Awaits.run (awaits : given.Awaits arguments config) (source : config.source.text ≠ "")
    (output : config.output.text ≠ "") : ∃ after, arguments.foldlM put? given = some after ∧
      after.Awaits [] config ∧ after.verbosity = given.verbosity + levelOf arguments := by
  induction arguments generalizing given with
  | nil => exact ⟨given, rfl, awaits, rfl⟩
  | cons argument arguments ih =>
    obtain ⟨middle, put, rest, first⟩ := awaits.step source output
    obtain ⟨after, folded, done, others⟩ := ih rest
    refine ⟨after, by rw [List.foldlM_cons, put]; exact folded, done, ?_⟩
    rw [others, first, levelOf, levelOf, List.map_cons, List.sum_cons, Nat.add_assoc]

theorem Awaits.config_eq (awaits : given.Awaits [] config) (palettes : config.palettes ≠ []) : given.config = config := by
  have given? (setting : Setting) : given.values setting = settingsOf config setting := by
    simpa [valuesOf] using awaits.settings setting
  have source : given.source = some config.source.text := Option.toList_eq_singleton_iff.mp (given? .source)
  have output : given.output = some config.output.text := Option.toList_eq_singleton_iff.mp (given? .output)
  have fileName : given.fileName = some config.fileName := Option.toList_eq_singleton_iff.mp (given? .fileName)
  have displayName : given.displayName = some config.displayName :=
    Option.toList_eq_singleton_iff.mp (given? .displayName)
  have named : given.palettes = config.palettes := given? .palette
  have resourceRoot : given.resourceRoot = some config.resourceRoot :=
    Option.toList_eq_singleton_iff.mp (given? .resourceRoot)
  have skipThemes : given.skipThemes = !config.deriveThemes := by
    have same : given.skipThemes.toNat = (!config.deriveThemes).toNat := awaits.skipThemes
    cases skipped : given.skipThemes <;> cases derived : config.deriveThemes <;> simp [skipped, derived] at same ⊢
  simp [Given.config, source, output, fileName, displayName, named, palettes, resourceRoot, skipThemes]

end Given

variable {config : Config} {arguments : List Argument}

theorem ofArguments?_of_spells (palettes : config.palettes ≠ []) (source : config.source.text ≠ "")
    (output : config.output.text ≠ "") (spells : Spells arguments config) :
    Request.ofArguments? (arguments.map Argument.text) = some (.build config (levelOf arguments)) := by
  have awaits : Given.Awaits {} arguments config := by
    refine ⟨fun setting => ?_, ?_⟩
    · rw [← spells.settings setting]
      cases setting <;> rfl
    · rw [spells.skipThemes]
      cases config.deriveThemes <;> rfl
  obtain ⟨after, folded, done, level⟩ := awaits.run source output
  rw [Request.ofArguments?, readFrom_texts, folded, Option.map_some, Given.request, done.config_eq palettes, level]
  simp

def resultOf (config : Config) (verbosity : Nat) : Except BuildError BuildReport × RecordedFiles → Result × FileTree
  | (.ok _, after) => (⟨0, successText, logText verbosity (after.events ++ [.generated])⟩, after.files)
  | (.error e, after) => (⟨1, "", logText verbosity after.events ++ failureText config e⟩, after.files)

theorem run_eq_resultOf_of_asked {given : List String} {verbosity : Nat}
    (asked : Request.ofArguments? given = some (.build config verbosity)) (files : FileTree) :
    run given files = resultOf config verbosity (Build.outcome (Build.run config) ⟨files, []⟩) := by
  have built : (build (m := Recorded) config).run ⟨files, []⟩ =
      Build.outcome (Build.run config >>= fun _ => Build.report .generated) ⟨files, []⟩ := rfl
  rw [run, asked]
  simp only [built, Build.outcome_bind]
  rcases Build.outcome (Build.run config) ⟨files, []⟩ with ⟨e | report, after⟩
  · rfl
  · simp [Build.outcome_report, buildResult, resultOf]

theorem run_eq_resultOf (palettes : config.palettes ≠ []) (source : config.source.text ≠ "")
    (output : config.output.text ≠ "") (spells : Spells arguments config) (files : FileTree) :
    run (arguments.map Argument.text) files =
      resultOf config (levelOf arguments) (Build.outcome (Build.run config) ⟨files, []⟩) :=
  run_eq_resultOf_of_asked (ofArguments?_of_spells palettes source output spells) files

/-- The program leaves what the build of the configuration leaves, and its exit code and its output tell whether the
build has succeeded. Other arguments for the same configuration change nothing but what is printed for errors and
reports, and not even that at the same verbosity. -/
theorem program_runs_build (palettes : config.palettes ≠ []) (source : config.source.text ≠ "")
    (output : config.output.text ≠ "") (spells : Spells arguments config) (files : FileTree) :
    (run (arguments.map Argument.text) files).2 = (Build.outcome (Build.run config) ⟨files, []⟩).2.files ∧
    ((run (arguments.map Argument.text) files).1.exitCode = 0 ∧
        (run (arguments.map Argument.text) files).1.output = "Theme files generated!\n" ↔
      ∃ report, (Build.outcome (Build.run config) ⟨files, []⟩).1 = .ok report) ∧
    ((run (arguments.map Argument.text) files).1.exitCode = 1 ∧
        (run (arguments.map Argument.text) files).1.output = "" ↔
      ∃ e, (Build.outcome (Build.run config) ⟨files, []⟩).1 = .error e) ∧
    ∀ others, Spells others config →
      (run (others.map Argument.text) files).2 = (run (arguments.map Argument.text) files).2 ∧
      (run (others.map Argument.text) files).1.exitCode = (run (arguments.map Argument.text) files).1.exitCode ∧
      (run (others.map Argument.text) files).1.output = (run (arguments.map Argument.text) files).1.output ∧
      (levelOf others = levelOf arguments →
        run (others.map Argument.text) files = run (arguments.map Argument.text) files) := by
  have shown {given : List Argument} (spells : Spells given config) :=
    run_eq_resultOf palettes source output spells files
  rw [shown spells]
  rcases ended : Build.outcome (Build.run config) ⟨files, []⟩ with ⟨e | report, after⟩
  · refine ⟨rfl, by simp [resultOf], by simp [resultOf], fun others spelled => ?_⟩
    rw [shown spelled, ended]
    exact ⟨rfl, rfl, rfl, fun level => by rw [level]⟩
  · refine ⟨rfl, by simp [resultOf, successText], by simp [resultOf], fun others spelled => ?_⟩
    rw [shown spelled, ended]
    exact ⟨rfl, rfl, rfl, fun level => by rw [level]⟩

/-- A command line with the settings in disorder and the verbosity in two places. -/
def italicArguments : List Argument := [.verbose 0, .assign .palette "normal", .assign .resourceRoot "/themes",
  .assign .output "new", .assign .displayName "X", .verbose 1, .assign .palette "italic",
  .assign .fileName "../themes/x", .assign .source "sources"]

theorem spells_italicArguments : Spells italicArguments Build.italicConfig := by
  refine ⟨fun setting => ?_, by decide⟩
  cases setting <;> decide

theorem program_runs_build_italicConfig :
    (Build.italicConfig.palettes ≠ [] ∧ Build.italicConfig.source.text ≠ "" ∧ Build.italicConfig.output.text ≠ "" ∧
      Spells italicArguments Build.italicConfig) ∧
    italicArguments.map Argument.text = ["-v", "--palette=normal", "--scheme-prefix=/themes", "--out=new",
      "--display-name=X", "-vv", "--palette=italic", "--file-name=../themes/x", "--source=sources"] ∧
    (run (italicArguments.map Argument.text) Build.sampleTree).1.exitCode = 0 ∧
    (run (italicArguments.map Argument.text) Build.sampleTree).1.output = "Theme files generated!\n" := by
  have program := program_runs_build (by decide) (by decide) (by decide) spells_italicArguments Build.sampleTree
  obtain ⟨exitCode, output⟩ := program.2.1.mpr ⟨Build.italicReport, by rw [Build.outcome_italicConfig]⟩
  exact ⟨⟨by decide, by decide, by decide, spells_italicArguments⟩, by decide, exitCode, output⟩

end EditorScheme.CommandLine
