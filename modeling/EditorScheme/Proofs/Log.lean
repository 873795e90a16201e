import EditorScheme.Proofs.Build.Course
import EditorScheme.Proofs.Build.MissingEncoding
import EditorScheme.Proofs.CommandLine

/-!
The log of a build against what the build does. Whoever asks for reports at all is told of every write, in order and
with its size, and of nothing that was not written; a higher verbosity only adds details between these reports.
-/
namespace EditorScheme

namespace Event

theorem isShown_one (event : Event) : event.isShown 1 = !event.isDetail := by
  cases detail : event.isDetail <;> simp [isShown, detail]

theorem isShown_of_not_isDetail {event : Event} {verbosity : Nat} (verbose : 1 ≤ verbosity)
    (notable : event.isDetail = false) : event.isShown verbosity = true := by
  simp [isShown, notable, verbose]

theorem filter_not_isDetail_filter_isShown {verbosity : Nat} (verbose : 1 ≤ verbosity) (events : List Event) :
    (events.filter fun event => event.isShown verbosity).filter (fun event => !event.isDetail) =
      events.filter fun event => event.isShown 1 := by
  rw [List.filter_filter]
  refine List.filter_congr fun event _ => ?_
  rw [isShown_one]
  cases detail : event.isDetail with
  | false => simp [isShown_of_not_isDetail verbose detail]
  | true => rfl

theorem filterMap_writtenFile?_filter_not_isDetail (events : List Event) :
    (events.filter fun event => !event.isDetail).filterMap writtenFile? = events.filterMap writtenFile? := by
  rw [List.filterMap_filter]
  refine List.filterMap_congr fun event _ => ?_
  cases event <;> rfl

end Event

namespace CommandLine

def closing : Except BuildError BuildReport → List Event
  | .ok _ => [.generated]
  | .error _ => []

/-- The reports of the program that are shown when its build has been seen. -/
def shown (verbosity : Nat) (result : Except BuildError BuildReport) (after : ObservedFiles) : List Event :=
  (after.events ++ closing result).filter fun event => event.isShown verbosity

/-- What the shown reports of a build tell of what was seen of it. -/
structure Tells (config : Config) (files : FileTree) (result : Except BuildError BuildReport) (after : ObservedFiles)
    (told : List Event) : Prop where
  /-- Apart from making the output directory, the writes are all that has changed the tree. -/
  files : (files.ensureDirectory config.output).2.writeAll after.writes = .ok after.files
  written : told.filterMap Event.writtenFile? = after.writes.map fun file => (file.1, file.2.utf8ByteSize)
  /-- How the reports stand between the writes. -/
  course : Build.Course config result (Deed.notable after.deeds)
  notable : told.filter (fun event => !event.isDetail) =
    (Deed.notable after.deeds).filterMap Deed.event? ++ closing result
  finished : ∀ schemes themes, .buildFinished schemes themes ∈ told ↔
    ∃ report, result = .ok report ∧ report.schemes.length = schemes ∧ report.themes.length = themes

variable {config : Config} {files : FileTree} {result : Except BuildError BuildReport} {after : ObservedFiles}

/-- The shown reports apart from details follow from what is notable, and the rest of what they tell from these. -/
theorem tells_of_course {verbosity : Nat} (verbose : 1 ≤ verbosity)
    (written : (files.ensureDirectory config.output).2.writeAll after.writes = .ok after.files)
    (course : Build.Course config result (Deed.notable after.deeds)) :
    Tells config files result after (shown verbosity result after) := by
  generalize shows : shown verbosity result after = told
  have notable : told.filter (fun event => !event.isDetail) =
      (Deed.notable after.deeds).filterMap Deed.event? ++ closing result := by
    rw [← shows, shown, Event.filter_not_isDetail_filter_isShown verbose, List.filter_append,
      Deed.filterMap_event?_notable]
    simp only [Event.isShown_one]
    congr 1
    cases result <;> rfl
  -- What the program itself reports is neither a write nor the end of the build.
  have unwritten : (closing result).filterMap Event.writtenFile? = [] := by cases result <;> rfl
  have unfinished (schemes themes : Nat) : .buildFinished schemes themes ∉ closing result := by
    cases result <;> simp [closing]
  refine ⟨written, ?_, course, notable, fun schemes themes => ?_⟩
  · have inStep := course.inStep
    rw [Build.InStep, Deed.filterMap_write?_notable] at inStep
    rw [← Event.filterMap_writtenFile?_filter_not_isDetail, notable, List.filterMap_append, unwritten, List.append_nil]
    exact inStep
  · have reported : .buildFinished schemes themes ∈ told ↔
        .buildFinished schemes themes ∈ told.filter fun event => !event.isDetail := by
      simp [List.mem_filter, Event.isDetail]
    rw [reported, notable, List.mem_append, or_iff_left (unfinished schemes themes), Deed.mem_filterMap_event?]
    exact course.finished_iff schemes themes

theorem resultOf_recorded (config : Config) (verbosity : Nat) (result : Except BuildError BuildReport)
    (after : ObservedFiles) : (resultOf config verbosity (result, after.recorded)).2 = after.files ∧
      (resultOf config verbosity (result, after.recorded)).1.errors =
        String.join ((shown verbosity result after).map fun event => event.line ++ "\n") ++
          (buildResult config (result.map fun _ => ())).errors := by
  cases result with
  | error e =>
    refine ⟨rfl, ?_⟩
    rw [shown, closing, List.append_nil]
    rfl
  | ok report => exact ⟨rfl, (String.append_empty ..).symm⟩

/-- The log tells what is written. The build is watched as it runs, and then every write is told of once, in order, with
its path and its size; a scheme is announced right before its write, and only the announcement of a scheme that fails is
left without one; and the end of the build is told of if there is one. -/
theorem log_tells_writes (config : Config) (files : FileTree) : ∃ result after,
    Build.seen (Build.run config) ⟨files, []⟩ = (result, after) ∧
    Build.outcome (Build.run config) ⟨files, []⟩ = (result, after.recorded) ∧
    ∀ verbosity, 1 ≤ verbosity →
      Tells config files result after (shown verbosity result after) ∧
      (shown verbosity result after).filter (fun event => !event.isDetail) = shown 1 result after ∧
      ∀ arguments, Request.ofArguments? arguments = some (.build config verbosity) →
        (run arguments files).2 = after.files ∧
        (run arguments files).1.errors =
          String.join ((shown verbosity result after).map fun event => event.line ++ "\n") ++
            (buildResult config (result.map fun _ => ())).errors := by
  rcases ran : Build.seen (Build.run config) ⟨files, []⟩ with ⟨result, after⟩
  have agrees : Build.outcome (Build.run config) ⟨files, []⟩ = (result, after.recorded) := by
    have same := Build.agrees_run config ⟨files, []⟩
    rw [ran] at same
    exact same
  obtain ⟨deeds, added, written, course⟩ := Build.exists_deeds_run config ⟨files, []⟩
  rw [ran] at added written course
  obtain rfl : after.deeds = deeds := added
  refine ⟨result, after, rfl, agrees, fun verbosity verbose => ⟨tells_of_course verbose written course,
    Event.filter_not_isDetail_filter_isShown verbose _, fun arguments asked => ?_⟩⟩
  rw [run_eq_resultOf_of_asked asked, agrees]
  exact resultOf_recorded config verbosity result after

def boldArguments : List String :=
  ["-v", "--source=sources", "--out=new", "--file-name=../themes/x", "--display-name=X"]

theorem log_tells_writes_boldTree :
    Request.ofArguments? boldArguments = some (.build (Build.sampleConfig ["normal", "vivid"]) 1) ∧
    ∃ result after, Tells (Build.sampleConfig ["normal", "vivid"]) Build.boldTree result after (shown 1 result after) ∧
      (run boldArguments Build.boldTree).2 = after.files ∧ (∃ e, result = .error e) := by
  have asked : Request.ofArguments? boldArguments = some (.build (Build.sampleConfig ["normal", "vivid"]) 1) := by
    decide
  obtain ⟨result, after, -, agrees, tells⟩ := log_tells_writes (Build.sampleConfig ["normal", "vivid"]) Build.boldTree
  obtain ⟨told, -, program⟩ := tells 1 (Nat.le_refl 1)
  rw [Build.outcome_boldTree] at agrees
  exact ⟨asked, result, after, told, (program _ asked).1, _, (Prod.mk.inj agrees).1.symm⟩

end CommandLine

end EditorScheme
