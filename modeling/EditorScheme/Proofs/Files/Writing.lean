import EditorScheme.Proofs.Files.Growth

/-!
What writing files and making directories change. A write puts one file where its path leads, and keeps
every directory; making a directory adds some that were missing on the way to it.
-/
namespace EditorScheme.FileTree

variable {tree files before middle after : FileTree} {path : Path} {location : Location}

theorem writeText_eq_ok_iff {text : String} : tree.writeText path text = .ok files ↔
    ∃ location, tree.target path = .ok (.named location) ∧ path.endsInSlash = false ∧
      hasLongName location = false ∧ tree.entry? location ≠ some .directory ∧
      files = tree.put location (.file (.text text)) := by
  unfold writeText write
  cases led : tree.target path with
  | error e => simp [bind, Except.bind]
  | ok target =>
    cases target with
    | standing => simp [bind, Except.bind]
    | named location =>
      by_cases slash : path.endsInSlash = true
      · simp [bind, Except.bind, slash]
      by_cases long : hasLongName location = true
      · simp [bind, Except.bind, slash, long]
      by_cases directory : tree.entry? location = some .directory
      · simp [bind, Except.bind, slash, long, directory]
      · simp [bind, Except.bind, slash, long, directory]
        exact eq_comm

theorem makeDirectory_eq_ok_iff : tree.makeDirectory path = .ok files ↔
    ∃ location, tree.target path = .ok (.named location) ∧ hasLongName location = false ∧
      tree.entry? location = none ∧ files = tree.put location .directory := by
  unfold makeDirectory
  cases led : tree.target path with
  | error e => simp [bind, Except.bind]
  | ok target =>
    cases target with
    | standing => simp [bind, Except.bind]
    | named location =>
      by_cases long : hasLongName location = true
      · simp [bind, Except.bind, long]
      cases here : tree.entry? location with
      | none =>
        simp [bind, Except.bind, long, here]
        exact eq_comm
      | some entry => simp [bind, Except.bind, long, here]

theorem ne_nil_of_target (led : tree.target path = .ok (.named location)) : location ≠ [] := by
  obtain ⟨_, parent, name, -, -, -, -, -, -, rfl⟩ := target_eq_named_iff.mp led
  simp

theorem head?_of_target (led : tree.target path = .ok (.named location)) :
    location.head? = path.names.getLast? := by
  obtain ⟨_, parent, name, -, last, -, -, -, -, rfl⟩ := target_eq_named_iff.mp led
  simp [last]

/-- The trees differ by files at some of the places. -/
structure Rewrites (places : Location → Prop) (before after : FileTree) : Prop where
  workingDirectory : after.workingDirectory = before.workingDirectory
  directories : ∀ location, after.entry? location = some .directory ↔
    before.entry? location = some .directory
  present : ∀ location, (before.entry? location).isSome → (after.entry? location).isSome
  elsewhere : ∀ location, ¬ places location → after.entry? location = before.entry? location

namespace Rewrites

variable {places others : Location → Prop}

theorem refl (tree : FileTree) : Rewrites places tree tree :=
  ⟨rfl, fun _ => Iff.rfl, fun _ here => here, fun _ _ => rfl⟩

theorem trans (first : Rewrites places before middle) (second : Rewrites places middle after) :
    Rewrites places before after where
  workingDirectory := second.workingDirectory.trans first.workingDirectory
  directories location := (second.directories location).trans (first.directories location)
  present location here := second.present location (first.present location here)
  elsewhere location other := (second.elsewhere location other).trans (first.elsewhere location other)

theorem mono (rewrites : Rewrites places before after) (wider : ∀ location, places location → others location) :
    Rewrites others before after where
  workingDirectory := rewrites.workingDirectory
  directories := rewrites.directories
  present := rewrites.present
  elsewhere location other := rewrites.elsewhere location fun inside => other (wider location inside)

theorem grows (rewrites : Rewrites places before after) : Grows before after :=
  ⟨rewrites.workingDirectory, fun location here => (rewrites.directories location).mpr here,
    rewrites.present⟩

/-- A walk that ends in a directory goes through directories only, and so it went the same way before. -/
theorem walk {names : List String} (rewrites : Rewrites places before after)
    (walked : after.walk location names = .ok next) (ends : after.entry? next = some .directory) :
    before.walk location names = .ok next := by
  induction names generalizing location with
  | nil => exact walked
  | cons name names ih =>
    obtain ⟨between, stepped, rest⟩ := walk_cons.mp walked
    have here := (rewrites.directories between).mp (entry?_of_walk rest ends)
    rw [step_eq_ok_iff, rewrites.directories] at stepped
    refine walk_cons.mpr ⟨between, step_eq_ok_iff.mpr ⟨stepped.1, ?_⟩, ih rest⟩
    rcases stepped.2 with dot | dots | ⟨noDot, noDots, short, -, rfl⟩
    · exact .inl dot
    · exact .inr (.inl dots)
    · exact .inr (.inr ⟨noDot, noDots, short, by simp [here], rfl⟩)

theorem target_iff (rewrites : Rewrites places before after) :
    after.target path = .ok (.named location) ↔ before.target path = .ok (.named location) := by
  refine ⟨fun led => ?_, rewrites.grows.target⟩
  obtain ⟨start, parent, name, origin, last, walked, here, plain⟩ := target_eq_named_iff.mp led
  exact target_eq_named_iff.mpr ⟨start, parent, name, (rewrites.grows.origin path).symm.trans origin, last,
    rewrites.walk walked here, (rewrites.directories parent).mp here, plain⟩

/-- A path leads to the same as before if nothing of its name was written. -/
theorem find_iff {name : String} {entry : Entry} (rewrites : Rewrites places before after) (named : path.Named name)
    (apart : ∀ location, places location → location.head? ≠ some name) :
    after.find path = .ok (location, entry) ↔ before.find path = .ok (location, entry) := by
  rw [find_eq_ok_iff_target named, find_eq_ok_iff_target named, rewrites.target_iff]
  refine and_congr_right fun led => ?_
  rw [rewrites.elsewhere location fun inside => apart location inside ((head?_of_target led).trans named.last)]

theorem walk_iff {names : List String} (rewrites : Rewrites places before after) (other : ¬ places next) :
    after.walk location names = .ok next ↔ before.walk location names = .ok next := by
  refine ⟨fun walked => ?_, rewrites.grows.walk⟩
  rcases List.eq_nil_or_concat names with rfl | ⟨first, last, rfl⟩
  · exact walked
  · rw [List.concat_eq_append] at walked ⊢
    obtain ⟨parent, led, final⟩ := walk_append.mp walked
    obtain ⟨_, stepped, done⟩ := walk_cons.mp final
    cases done
    obtain ⟨here, step⟩ := step_eq_ok_iff.mp stepped
    refine walk_append.mpr ⟨parent, rewrites.walk led here, walk_cons.mpr ⟨_, step_eq_ok_iff.mpr ?_, rfl⟩⟩
    refine ⟨(rewrites.directories parent).mp here, step.imp_right (Or.imp_right ?_)⟩
    rintro ⟨noDot, noDots, short, found, rfl⟩
    rw [rewrites.elsewhere _ other] at found
    exact ⟨noDot, noDots, short, found, rfl⟩

theorem find_elsewhere_iff {entry : Entry} (rewrites : Rewrites places before after) (other : ¬ places location) :
    after.find path = .ok (location, entry) ↔ before.find path = .ok (location, entry) := by
  simp only [find_eq_ok_iff, rewrites.grows.origin, rewrites.walk_iff other, rewrites.elsewhere location other]

end Rewrites

theorem rewrites_put {content : Content} (inside : location ≠ [])
    (file : tree.entry? location ≠ some .directory) :
    Rewrites (· = location) tree (tree.put location (.file content)) where
  workingDirectory := rfl
  directories other := by
    rw [entry?_put tree inside]
    by_cases same : other = location
    · simp [same, file]
    · simp [same]
  present other here := by
    rw [entry?_put tree inside]
    split
    · rfl
    · exact here
  elsewhere other apart := by rw [entry?_put tree inside, if_neg apart]

def writeAll (tree : FileTree) (writes : List (Path × String)) : Except FileError FileTree :=
  writes.foldlM (fun tree w => tree.writeText w.1 w.2) tree

theorem writeAll_cons_eq_ok_iff {w : Path × String} {writes : List (Path × String)} :
    tree.writeAll (w :: writes) = .ok after ↔
      ∃ middle, tree.writeText w.1 w.2 = .ok middle ∧ middle.writeAll writes = .ok after := by
  unfold writeAll
  rw [List.foldlM_cons]
  cases tree.writeText w.1 w.2 <;> simp [bind, Except.bind]

theorem writeAll_append_eq_ok_iff {a b : List (Path × String)} :
    tree.writeAll (a ++ b) = .ok after ↔
      ∃ middle, tree.writeAll a = .ok middle ∧ middle.writeAll b = .ok after := by
  induction a generalizing tree with
  | nil => simp [writeAll, pure, Except.pure]
  | cons w a ih =>
    simp only [List.cons_append, writeAll_cons_eq_ok_iff, ih]
    constructor
    · rintro ⟨first, written, middle, left, right⟩
      exact ⟨middle, ⟨first, written, left⟩, right⟩
    · rintro ⟨middle, ⟨first, written, left⟩, right⟩
      exact ⟨first, written, middle, left, right⟩

def Written (writes : List (Path × String)) (after : FileTree) (location : Location) : Prop :=
  ∃ w ∈ writes, after.target w.1 = .ok (.named location)

/-- Writes change nothing but the places that their paths lead to. -/
theorem rewrites_writeAll {writes : List (Path × String)} (written : tree.writeAll writes = .ok after) :
    Rewrites (Written writes after) tree after := by
  induction writes generalizing tree with
  | nil =>
    cases written
    exact .refl _
  | cons w writes ih =>
    obtain ⟨middle, first, rest⟩ := writeAll_cons_eq_ok_iff.mp written
    obtain ⟨location, led, -, -, file, rfl⟩ := writeText_eq_ok_iff.mp first
    have one : Rewrites (· = location) tree (tree.put location (.file (.text w.2))) :=
      rewrites_put (ne_nil_of_target led) file
    have others := ih rest
    refine (one.mono ?_).trans (others.mono ?_)
    · rintro _ rfl
      exact ⟨w, by simp, others.grows.target (one.grows.target led)⟩
    · rintro place ⟨w', member, led'⟩
      exact ⟨w', by simp [member], led'⟩

/-- Every path that was written leads to a file in the end, and to no directory from the start. -/
theorem find_of_writeAll {writes : List (Path × String)} (written : tree.writeAll writes = .ok after)
    (led : Written writes after location) :
    tree.entry? location ≠ some .directory ∧
      ∃ w ∈ writes, ∃ content, after.find w.1 = .ok (location, .file content) := by
  induction writes generalizing tree with
  | nil => simp [Written] at led
  | cons w writes ih =>
    obtain ⟨middle, first, rest⟩ := writeAll_cons_eq_ok_iff.mp written
    obtain ⟨place, target, plain, short, file, rfl⟩ := writeText_eq_ok_iff.mp first
    have inside := ne_nil_of_target target
    have one : Rewrites (· = place) tree (tree.put place (.file (.text w.2))) := rewrites_put inside file
    have others := rewrites_writeAll rest
    obtain ⟨w', member, led'⟩ := led
    rcases List.mem_cons.mp member with rfl | later
    · have same : place = location := by
        have there := others.grows.target (one.grows.target target)
        rw [led'] at there
        simpa using there.symm
      subst same
      have there : (after.entry? place).isSome :=
        others.present place (by simp [entry?_put tree inside])
      have noDirectory : after.entry? place ≠ some .directory := by
        rw [Ne, others.directories, one.directories]
        exact file
      obtain ⟨entry, here⟩ := Option.isSome_iff_exists.mp there
      cases entry with
      | directory => exact absurd here noDirectory
      | file content =>
        exact ⟨file, w', by simp, content, find_of_target led' short here (.inr plain)⟩
    · obtain ⟨noDirectory, w'', member', found⟩ := ih rest ⟨w', later, led'⟩
      rw [Ne, one.directories] at noDirectory
      exact ⟨noDirectory, w'', by simp [member'], found⟩

/-- A file keeps its text as long as nothing is written under the same last name. -/
theorem readText_of_writeAll {earlier later : List (Path × String)} {text : String}
    (written : tree.writeAll (earlier ++ (path, text) :: later) = .ok after)
    (apart : ∀ w ∈ later, w.1.names.getLast? ≠ path.names.getLast?) : after.readText path = .ok text := by
  obtain ⟨middle, -, rest⟩ := writeAll_append_eq_ok_iff.mp written
  obtain ⟨next, first, rest⟩ := writeAll_cons_eq_ok_iff.mp rest
  obtain ⟨location, led, plain, short, file, rfl⟩ := writeText_eq_ok_iff.mp first
  have inside := ne_nil_of_target led
  have one : Rewrites (· = location) middle (middle.put location (.file (.text text))) :=
    rewrites_put inside file
  have others := rewrites_writeAll rest
  have untouched : ¬ Written later after location := by
    rintro ⟨w, member, led'⟩
    exact apart w member ((head?_of_target led').symm.trans (head?_of_target led))
  have here : after.entry? location = some (.file (.text text)) := by
    rw [others.elsewhere location untouched, entry?_put middle inside, if_pos rfl]
  exact readText_eq_ok_iff.mpr
    ⟨location, find_of_target (others.grows.target (one.grows.target led)) short here (.inr plain)⟩

theorem find_iff_of_writeAll {writes : List (Path × String)} {name : String} {entry : Entry}
    (written : tree.writeAll writes = .ok after) (named : path.Named name)
    (apart : ∀ w ∈ writes, w.1.names.getLast? ≠ some name) :
    after.find path = .ok (location, entry) ↔ tree.find path = .ok (location, entry) := by
  refine (rewrites_writeAll written).find_iff named ?_
  rintro location ⟨w, member, led⟩ same
  exact apart w member ((head?_of_target led).symm.trans same)

theorem readText_iff_of_writeAll {writes : List (Path × String)} {name text : String}
    (written : tree.writeAll writes = .ok after) (named : path.Named name)
    (apart : ∀ w ∈ writes, w.1.names.getLast? ≠ some name) :
    after.readText path = .ok text ↔ tree.readText path = .ok text := by
  rw [readText_eq_ok_iff, readText_eq_ok_iff]
  exact exists_congr fun location => find_iff_of_writeAll written named apart

/-- The trees differ by directories that were missing at some of the places. -/
structure Adds (places : Location → Prop) (before after : FileTree) : Prop where
  workingDirectory : after.workingDirectory = before.workingDirectory
  entries : ∀ location, after.entry? location = before.entry? location ∨
    before.entry? location = none ∧ after.entry? location = some .directory ∧ places location

namespace Adds

variable {places others : Location → Prop}

theorem refl (tree : FileTree) : Adds places tree tree := ⟨rfl, fun _ => .inl rfl⟩

theorem trans (first : Adds places before middle) (second : Adds places middle after) :
    Adds places before after where
  workingDirectory := second.workingDirectory.trans first.workingDirectory
  entries location := by
    rcases second.entries location with same | ⟨missing, made, inside⟩
    · rcases first.entries location with same' | ⟨missing, made, inside⟩
      · exact .inl (same.trans same')
      · exact .inr ⟨missing, same.trans made, inside⟩
    · rcases first.entries location with same' | ⟨-, made', -⟩
      · exact .inr ⟨same'.symm.trans missing, made, inside⟩
      · simp [missing] at made'

theorem mono (adds : Adds places before after) (wider : ∀ location, places location → others location) :
    Adds others before after :=
  ⟨adds.workingDirectory, fun location => (adds.entries location).imp_right fun ⟨missing, made, inside⟩ =>
    ⟨missing, made, wider location inside⟩⟩

theorem grows (adds : Adds places before after) : Grows before after where
  workingDirectory := adds.workingDirectory
  directories location here := by
    rcases adds.entries location with same | ⟨-, made, -⟩
    · exact same.trans here
    · exact made
  present location here := by
    rcases adds.entries location with same | ⟨-, made, -⟩
    · rw [same]
      exact here
    · simp [made]

end Adds

def OnTheWay (paths : List Path) (after : FileTree) (location : Location) : Prop :=
  ∃ path ∈ paths, after.find path = .ok (location, .directory)

theorem makeDirectory_adds (made : tree.makeDirectory path = .ok after) :
    Adds (fun location => after.find path = .ok (location, .directory)) tree after := by
  obtain ⟨location, led, short, missing, rfl⟩ := makeDirectory_eq_ok_iff.mp made
  have inside := ne_nil_of_target led
  have here : FileTree.entry? (tree.put location .directory) location = some .directory := by
    simp [entry?_put tree inside]
  have grows : Grows tree (tree.put location .directory) := by
    refine ⟨rfl, fun other directory => ?_, fun other present => ?_⟩
    · rw [entry?_put tree inside]
      split
      · rfl
      · exact directory
    · rw [entry?_put tree inside]
      split
      · rfl
      · exact present
  refine ⟨rfl, fun other => ?_⟩
  by_cases same : other = location
  · subst same
    exact .inr ⟨missing, here, find_of_target (grows.target led) short here (.inl rfl)⟩
  · exact .inl (by rw [entry?_put tree inside, if_neg same])

theorem makeChain_adds (paths : List Path) (tree : FileTree) :
    Adds (OnTheWay paths (tree.makeChain paths).2) tree (tree.makeChain paths).2 := by
  induction paths generalizing tree with
  | nil => exact .refl tree
  | cons path around ih =>
    have one {start files : FileTree} (made : start.makeDirectory path = .ok files) :
        Adds (OnTheWay (path :: around) files) start files :=
      (makeDirectory_adds made).mono fun location led => ⟨path, by simp, led⟩
    unfold makeChain
    cases first : tree.makeDirectory path with
    | ok files => exact one first
    | error e =>
      cases e
      case notFound =>
        have others := ih tree
        cases chain : tree.makeChain around with
        | mk result files =>
          rw [chain] at others
          have widened : Adds (OnTheWay (path :: around) files) tree files :=
            others.mono fun location ⟨inner, member, led⟩ => ⟨inner, by simp [member], led⟩
          cases result with
          | error e => exact widened
          | ok done =>
            cases second : files.makeDirectory path with
            | error e => simpa only [second] using widened
            | ok last =>
              simp only [second]
              have grows := (one second).grows
              refine (widened.mono ?_).trans (one second)
              rintro location ⟨inner, member, led⟩
              exact ⟨inner, member, grows.find_directory led⟩
      all_goals exact .refl tree

/-- Making a directory changes nothing that is there, whether or not it succeeds. -/
theorem ensureDirectory_adds (tree : FileTree) (path : Path) :
    Adds (OnTheWay path.chain (tree.ensureDirectory path).2) tree (tree.ensureDirectory path).2 :=
  makeChain_adds path.chain tree

/-- Making a directory and then writing files changes nothing but these files, and directories that were missing on
the way to that directory. -/
theorem elsewhere_of_writeAll {writes : List (Path × String)}
    (written : (tree.ensureDirectory path).2.writeAll writes = .ok after)
    (other : ∀ w ∈ writes, ∀ content, after.find w.1 ≠ .ok (location, .file content)) :
    after.entry? location = tree.entry? location ∨
      tree.entry? location = none ∧ after.entry? location = some .directory ∧ OnTheWay path.chain after location := by
  have rewrites := rewrites_writeAll written
  have untouched : ¬ Written writes after location := by
    intro led
    obtain ⟨-, w, member, content, found⟩ := find_of_writeAll written led
    exact other w member content found
  rw [rewrites.elsewhere location untouched]
  refine ((ensureDirectory_adds tree path).entries location).imp_right ?_
  rintro ⟨missing, made, inner, member, found⟩
  exact ⟨missing, made, inner, member, rewrites.grows.find_directory found⟩

end EditorScheme.FileTree
