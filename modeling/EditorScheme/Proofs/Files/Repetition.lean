import EditorScheme.Proofs.Files.Writing
import EditorScheme.Proofs.Table

/-!
Doing the same again. Where a directory stands it is not made a second time, and files that are written again
in the same order leave the tree they left at first, even if some of them meet.
-/
namespace EditorScheme.FileTree

variable {tree before after : FileTree} {path : Path} {location : Location}

theorem makeDirectory_of_find (found : tree.find path = .ok (location, .directory)) :
    tree.makeDirectory path = .error .exists := by
  obtain ⟨start, origin, walked, here, -⟩ := find_eq_ok_iff.mp found
  unfold makeDirectory target
  rw [origin]
  cases last : path.names.getLast? with
  | none => simp [bind, Except.bind]
  | some name =>
    obtain ⟨names, split⟩ := List.getLast?_eq_some_iff.mp last
    rw [split] at walked
    obtain ⟨parent, first, rest⟩ := walk_append.mp walked
    obtain ⟨_, stepped, done⟩ := walk_cons.mp rest
    cases done
    have around : path.names.dropLast = names := by simp [split]
    obtain ⟨directory, ⟨rfl, -⟩ | ⟨rfl, -⟩ | ⟨noDot, noDots, short, present, -⟩⟩ := step_eq_ok_iff.mp stepped
    · simp [bind, Except.bind, around, first, directory]
    · simp [bind, Except.bind, around, first, directory]
    · have named : hasLongName (name :: parent) = false := by simpa [hasLongName] using short
      simp [bind, Except.bind, around, first, directory, noDot, noDots, named, present]

theorem makeChain_of_find {around : List Path} (found : tree.find path = .ok (location, .directory)) :
    tree.makeChain (path :: around) = (.ok (), tree) := by
  have standing : tree.isDirectory path = true := by simp [isDirectory, found]
  simp [makeChain, makeDirectory_of_find found, standing]

theorem find_of_makeDirectory (made : tree.makeDirectory path = .ok after) :
    ∃ location, after.find path = .ok (location, .directory) := by
  obtain ⟨location, led, short, missing, rfl⟩ := makeDirectory_eq_ok_iff.mp made
  rcases (makeDirectory_adds made).entries location with same | ⟨-, -, found⟩
  · have here : FileTree.entry? (tree.put location .directory) location = some .directory := by
      simp [entry?_put tree (ne_nil_of_target led)]
    rw [same, missing] at here
    cases here
  · exact ⟨location, found⟩

theorem find_of_isDirectory (standing : tree.isDirectory path = true) :
    ∃ location, tree.find path = .ok (location, .directory) := by
  unfold isDirectory at standing
  split at standing
  case h_1 location found => exact ⟨location, found⟩
  case h_2 => cases standing

theorem find_of_makeChain {around : List Path} (made : (tree.makeChain (path :: around)).1 = .ok ()) :
    ∃ location, (tree.makeChain (path :: around)).2.find path = .ok (location, .directory) := by
  have refused {files : FileTree} {e : FileError}
      (answer : (if files.isDirectory path then Except.ok () else .error e) = .ok ()) :
      ∃ location, files.find path = .ok (location, .directory) := by
    by_cases standing : files.isDirectory path = true
    · exact find_of_isDirectory standing
    · simp [standing] at answer
  unfold makeChain at made ⊢
  cases first : tree.makeDirectory path with
  | ok files => exact find_of_makeDirectory first
  | error e =>
    cases e
    case notFound =>
      simp only [first] at made ⊢
      cases chain : tree.makeChain around with
      | mk result files =>
        cases result with
        | error e => simp [chain] at made
        | ok done =>
          simp only [chain] at made ⊢
          cases second : files.makeDirectory path with
          | ok last => exact find_of_makeDirectory second
          | error e =>
            simp only [second] at made ⊢
            exact refused made
    all_goals
      simp only [first] at made ⊢
      exact refused made

/-- Once it is made, a directory is there for good, and making it again changes nothing. -/
theorem ensureDirectory_again (made : (tree.ensureDirectory path).1 = .ok ())
    (grows : Grows (tree.ensureDirectory path).2 after) : after.ensureDirectory path = (.ok (), after) := by
  unfold ensureDirectory at made grows ⊢
  cases chain : path.chain with
  | nil => rfl
  | cons first around =>
    rw [chain] at made grows
    obtain ⟨location, found⟩ := find_of_makeChain made
    exact makeChain_of_find (grows.find_directory found)

def putAll (tree : FileTree) (puts : List (Location × Entry)) : FileTree :=
  { tree with entries := tree.entries.insertAll puts }

theorem putAll_putAll (tree : FileTree) (puts : List (Location × Entry)) :
    (tree.putAll puts).putAll puts = tree.putAll puts := by
  simp only [putAll, Table.insertAll_insertAll]

theorem Rewrites.put {places : Location → Prop} (rewrites : Rewrites places before after) (inside : location ≠ [])
    (entry : Entry) : Rewrites places (before.put location entry) (after.put location entry) where
  workingDirectory := rewrites.workingDirectory
  directories other := by
    rw [entry?_put before inside, entry?_put after inside]
    split
    · rfl
    · exact rewrites.directories other
  present other here := by
    rw [entry?_put before inside] at here
    rw [entry?_put after inside]
    split
    · rfl
    · next apart =>
      rw [if_neg apart] at here
      exact rewrites.present other here
  elsewhere other apart := by
    rw [entry?_put before inside, entry?_put after inside, rewrites.elsewhere other apart]

/-- Writes that succeed put their files at places that files alone do not change. -/
theorem exists_puts_of_writeAll {writes : List (Path × String)} (written : tree.writeAll writes = .ok after) :
    ∃ puts, ∀ places other, Rewrites places tree other → other.writeAll writes = .ok (other.putAll puts) := by
  induction writes generalizing tree with
  | nil => exact ⟨[], fun _ _ _ => rfl⟩
  | cons w writes ih =>
    obtain ⟨middle, first, rest⟩ := writeAll_cons_eq_ok_iff.mp written
    obtain ⟨location, led, plain, short, file, rfl⟩ := writeText_eq_ok_iff.mp first
    obtain ⟨puts, later⟩ := ih rest
    refine ⟨(location, .file (.text w.2)) :: puts, fun places other rewrites => ?_⟩
    have noDirectory : other.entry? location ≠ some .directory := by
      rw [Ne, rewrites.directories]
      exact file
    have write : other.writeText w.1 w.2 = .ok (other.put location (.file (.text w.2))) :=
      writeText_eq_ok_iff.mpr ⟨location, rewrites.target_iff.mpr led, plain, short, noDirectory, rfl⟩
    refine writeAll_cons_eq_ok_iff.mpr ⟨_, write, ?_⟩
    exact later places _ (rewrites.put (ne_nil_of_target led) _)

/-- Writing the same files once more changes nothing, also where later ones were written over earlier ones. -/
theorem writeAll_again {writes : List (Path × String)} (written : tree.writeAll writes = .ok after) :
    after.writeAll writes = .ok after := by
  obtain ⟨puts, write⟩ := exists_puts_of_writeAll written
  have first : after = tree.putAll puts := by
    have same := write (fun _ => False) tree (.refl tree)
    rw [written] at same
    exact Except.ok.inj same
  have second := write _ after (rewrites_writeAll written)
  rw [second, first, putAll_putAll]

end EditorScheme.FileTree
