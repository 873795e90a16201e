import EditorScheme.Files
import EditorScheme.Proofs.Files.Joining

/-!
Trees that grow. As long as directories stay directories and nothing is removed, a path that leads
somewhere goes on leading there.
-/
namespace EditorScheme.FileTree

variable {tree before middle after : FileTree} {path : Path} {location start next : Location}

@[simp] theorem entry?_nil (tree : FileTree) : tree.entry? [] = some .directory := by
  simp only [↓reduceIte, entry?]

theorem entry?_put (tree : FileTree) (inside : location ≠ []) (entry : Entry) (other : Location) :
    FileTree.entry? (tree.put location entry) other = if other = location then some entry else tree.entry? other := by
  unfold entry? put
  by_cases same : other = location
  · simp [same, inside]
  · simp [same]

theorem step_eq_ok_iff {name : String} : tree.step location name = .ok next ↔
    tree.entry? location = some .directory ∧
      (name = "." ∧ next = location ∨ name = ".." ∧ next = location.tail ∨
        name ≠ "." ∧ name ≠ ".." ∧ name.utf8ByteSize ≤ maximalNameLength ∧
          (tree.entry? (name :: location)).isSome ∧ next = name :: location) := by
  unfold step
  split
  case h_1 here =>
    by_cases dot : name = "."
    · simp only [here, dot, ↓reduceIte, Except.ok.injEq]
      simpa using eq_comm
    by_cases dots : name = ".."
    · simp only [here, dots, ↓reduceIte]
      simpa using eq_comm
    by_cases long : maximalNameLength < name.utf8ByteSize
    · simp [here, dot, dots, long, Nat.not_le_of_lt long]
    by_cases found : (tree.entry? (name :: location)).isSome = true
    · simp [here, dot, dots, long, found, Nat.le_of_not_lt long, eq_comm]
    · simp [here, dot, dots, long, found]
  all_goals simp_all

theorem walk_cons {name : String} {names : List String} :
    tree.walk location (name :: names) = .ok next ↔
      ∃ between, tree.step location name = .ok between ∧ tree.walk between names = .ok next := by
  unfold walk
  rw [List.foldlM_cons]
  cases tree.step location name <;> simp [bind, Except.bind]

theorem walk_append {a b : List String} :
    tree.walk location (a ++ b) = .ok next ↔
      ∃ between, tree.walk location a = .ok between ∧ tree.walk between b = .ok next := by
  induction a generalizing location with
  | nil => simp [walk, pure, Except.pure]
  | cons name a ih =>
    simp only [List.cons_append, walk_cons, ih]
    constructor
    · rintro ⟨first, step, between, left, right⟩
      exact ⟨between, ⟨first, step, left⟩, right⟩
    · rintro ⟨between, ⟨first, step, left⟩, right⟩
      exact ⟨first, step, between, left, right⟩

theorem entry?_of_walk {names : List String} (walked : tree.walk location names = .ok next)
    (ends : tree.entry? next = some .directory) : tree.entry? location = some .directory := by
  cases names with
  | nil =>
    cases walked
    exact ends
  | cons name names =>
    obtain ⟨_, stepped, -⟩ := walk_cons.mp walked
    exact (step_eq_ok_iff.mp stepped).1

/-- What a path leads to a place for, if it is to make something new there. -/
theorem target_eq_named_iff : tree.target path = .ok (.named location) ↔
    ∃ start parent name, tree.origin path = .ok start ∧ path.names.getLast? = some name ∧
      tree.walk start path.names.dropLast = .ok parent ∧ tree.entry? parent = some .directory ∧
      name ≠ "." ∧ name ≠ ".." ∧ location = name :: parent := by
  unfold target
  cases origin : tree.origin path with
  | error e => simp [bind, Except.bind]
  | ok start =>
    cases last : path.names.getLast? with
    | none => simp [bind, Except.bind]
    | some name =>
      cases walked : tree.walk start path.names.dropLast with
      | error e => simp [bind, Except.bind, walked]
      | ok parent =>
        cases here : tree.entry? parent with
        | none => simp [bind, Except.bind, walked, here]
        | some entry =>
          cases entry with
          | file content => simp [bind, Except.bind, walked, here]
          | directory =>
            by_cases dots : name = "." ∨ name = ".."
            · rcases dots with rfl | rfl <;> simp [bind, Except.bind, walked, here]
            · obtain ⟨dot, dots⟩ := not_or.mp dots
              simp [bind, Except.bind, walked, here, dot, dots, eq_comm]

structure Grows (before after : FileTree) : Prop where
  workingDirectory : after.workingDirectory = before.workingDirectory
  directories : ∀ location, before.entry? location = some .directory →
    after.entry? location = some .directory
  present : ∀ location, (before.entry? location).isSome → (after.entry? location).isSome

namespace Grows

theorem refl (tree : FileTree) : Grows tree tree := ⟨rfl, fun _ h => h, fun _ h => h⟩

theorem trans (first : Grows before middle) (second : Grows middle after) : Grows before after :=
  ⟨second.workingDirectory.trans first.workingDirectory,
    fun location here => second.directories location (first.directories location here),
    fun location here => second.present location (first.present location here)⟩

theorem origin (grows : Grows before after) (path : Path) : after.origin path = before.origin path := by
  unfold FileTree.origin
  rw [grows.workingDirectory]

theorem step {name : String} (grows : Grows before after) (led : before.step location name = .ok next) :
    after.step location name = .ok next := by
  rw [step_eq_ok_iff] at led ⊢
  obtain ⟨here, dot | dots | ⟨noDot, noDots, short, found, rfl⟩⟩ := led
  · exact ⟨grows.directories _ here, .inl dot⟩
  · exact ⟨grows.directories _ here, .inr (.inl dots)⟩
  · exact ⟨grows.directories _ here, .inr (.inr ⟨noDot, noDots, short, grows.present _ found, rfl⟩)⟩

theorem walk {names : List String} (grows : Grows before after)
    (led : before.walk location names = .ok next) : after.walk location names = .ok next := by
  induction names generalizing location with
  | nil => exact led
  | cons name names ih =>
    obtain ⟨between, first, rest⟩ := walk_cons.mp led
    exact walk_cons.mpr ⟨between, grows.step first, ih rest⟩

theorem target (grows : Grows before after) (led : before.target path = .ok (.named location)) :
    after.target path = .ok (.named location) := by
  rw [target_eq_named_iff] at led ⊢
  obtain ⟨start, parent, name, origin, last, walked, here, plain⟩ := led
  exact ⟨start, parent, name, (grows.origin path).trans origin, last, grows.walk walked,
    grows.directories _ here, plain⟩

end Grows

theorem find_eq_ok_iff {entry : Entry} : tree.find path = .ok (location, entry) ↔
    ∃ start, tree.origin path = .ok start ∧ tree.walk start path.names = .ok location ∧
      tree.entry? location = some entry ∧ (entry = .directory ∨ path.endsInSlash = false) := by
  unfold find
  cases origin : tree.origin path with
  | error e => simp [bind, Except.bind]
  | ok start =>
    cases walked : tree.walk start path.names with
    | error e => simp [bind, Except.bind, walked]
    | ok last =>
      by_cases same : last = location
      · subst same
        cases here : tree.entry? last with
        | none => simp [bind, Except.bind, walked, here]
        | some found =>
          cases found with
          | directory =>
            simp only [bind, Except.bind, walked, here, Except.ok.injEq, Prod.mk.injEq, true_and,
              Option.some.injEq, exists_eq_left']
            constructor
            · rintro rfl
              exact ⟨rfl, .inl rfl⟩
            · exact fun ⟨same, _⟩ => same
          | file content =>
            cases slash : path.endsInSlash
            · simp [bind, Except.bind, walked, here]
            · simp only [bind, Except.bind, walked, here, ↓reduceIte, reduceCtorEq, false_iff]
              rintro ⟨_, -, -, found, directory | plain⟩
              · simp [directory] at found
              · simp at plain
      · cases here : tree.entry? last with
        | none => simp [bind, Except.bind, walked, here, same]
        | some found => cases found <;> cases slash : path.endsInSlash <;>
            simp [bind, Except.bind, walked, here, same]

theorem Grows.find_directory (grows : Grows before after)
    (found : before.find path = .ok (location, .directory)) :
    after.find path = .ok (location, .directory) := by
  rw [find_eq_ok_iff] at found ⊢
  obtain ⟨start, origin, walked, here, -⟩ := found
  exact ⟨start, (grows.origin path).trans origin, grows.walk walked, grows.directories _ here, .inl rfl⟩

theorem find_of_target (led : tree.target path = .ok (.named location))
    (short : hasLongName location = false) {entry : Entry} (here : tree.entry? location = some entry)
    (plain : entry = .directory ∨ path.endsInSlash = false) : tree.find path = .ok (location, entry) := by
  obtain ⟨start, parent, name, origin, last, walked, directory, noDot, noDots, rfl⟩ :=
    target_eq_named_iff.mp led
  obtain ⟨names, split⟩ := List.getLast?_eq_some_iff.mp last
  have stepped : tree.step parent name = .ok (name :: parent) := by
    rw [step_eq_ok_iff]
    refine ⟨directory, .inr (.inr ⟨noDot, noDots, ?_, by simp [here], rfl⟩)⟩
    simpa [hasLongName] using short
  refine find_eq_ok_iff.mpr ⟨start, origin, ?_, here, plain⟩
  rw [split] at walked ⊢
  exact walk_append.mpr ⟨parent, by simpa using walked, walk_cons.mpr ⟨_, stepped, rfl⟩⟩

theorem find_eq_ok_iff_target {name : String} {entry : Entry} (named : path.Named name) :
    tree.find path = .ok (location, entry) ↔
      tree.target path = .ok (.named location) ∧ hasLongName location = false ∧
        tree.entry? location = some entry ∧ (entry = .directory ∨ path.endsInSlash = false) := by
  refine ⟨fun found => ?_, fun ⟨led, short, here, plain⟩ => find_of_target led short here plain⟩
  obtain ⟨start, origin, walked, here, plain⟩ := find_eq_ok_iff.mp found
  obtain ⟨names, split⟩ := List.getLast?_eq_some_iff.mp named.last
  rw [split] at walked
  obtain ⟨parent, first, rest⟩ := walk_append.mp walked
  obtain ⟨_, stepped, done⟩ := walk_cons.mp rest
  cases done
  obtain ⟨directory, ⟨dot, -⟩ | ⟨dots, -⟩ | ⟨-, -, short, -, rfl⟩⟩ := step_eq_ok_iff.mp stepped
  · exact absurd dot named.noDot
  · exact absurd dots named.noDots
  · refine ⟨target_eq_named_iff.mpr
        ⟨start, parent, name, origin, named.last, ?_, directory, named.noDot, named.noDots, rfl⟩,
      by simpa [hasLongName] using short, here, plain⟩
    simpa [split] using first

theorem readText_eq_ok_iff {text : String} : tree.readText path = .ok text ↔
    ∃ location, tree.find path = .ok (location, .file (.text text)) := by
  unfold readText
  cases found : tree.find path with
  | error e => simp [bind, Except.bind]
  | ok there =>
    obtain ⟨location, entry⟩ := there
    rcases entry with _ | ⟨_ | _⟩ <;> simp [bind, Except.bind]

end EditorScheme.FileTree
