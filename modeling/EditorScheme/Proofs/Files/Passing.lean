import EditorScheme.Proofs.Files.Repetition

/-!
The directories around a path, and the places that the path comes through. The directories around a path are told from
its text, without dots and without needless slashes; they lie on the way all the same, wherever its dots lead. So making a
directory adds nothing but places that its path comes through.
-/
namespace EditorScheme

namespace Path

variable {path : Path} {names : List String} {name : String} {absolute : Bool}

def Proper (name : String) : Prop := name ≠ "" ∧ '/' ∉ name.toList

theorem splitNames_proper (proper : Proper name) : splitNames name.toList [] = [name] := by
  rw [splitNames_plain _ _ proper.2]
  simp [addName, proper.1]

theorem proper_of_mem_addName {part : List Char} (plain : '/' ∉ part) (rest : ∀ other ∈ names, Proper other)
    (member : name ∈ addName part names) : Proper name := by
  unfold addName at member
  split at member
  case isTrue => exact rest name member
  case isFalse nonempty =>
    rcases List.mem_cons.mp member with rfl | later
    · exact ⟨by simpa using nonempty, by simpa using plain⟩
    · exact rest name later

theorem proper_of_mem_splitNames {text part : List Char} (plain : '/' ∉ part)
    (member : name ∈ splitNames text part) : Proper name := by
  induction text generalizing part name with
  | nil => exact proper_of_mem_addName plain (by simp) member
  | cons c text ih =>
    by_cases slash : c = '/'
    · rw [splitNames, if_pos slash] at member
      exact proper_of_mem_addName plain (fun _ => ih (by simp)) member
    · rw [splitNames, if_neg slash] at member
      exact ih (by simp [plain, Ne.symm slash]) member

theorem proper_of_mem_names (member : name ∈ path.names) : Proper name :=
  proper_of_mem_splitNames (by simp) member

theorem proper_of_mem_components (member : name ∈ path.components) : Proper name := by
  have listed : name ∈ path.names := by
    unfold components at member
    split at member
    case h_1 rest relative dotted =>
      rw [dotted]
      rcases List.mem_cons.mp member with rfl | later
      · simp
      · simp [(List.mem_filter.mp later).1]
    case h_2 => exact (List.mem_filter.mp member).1
  exact proper_of_mem_names listed

theorem splitNames_intercalate (proper : ∀ name ∈ names, Proper name) :
    splitNames ("/".intercalate names).toList [] = names := by
  induction names with
  | nil => rfl
  | cons name names ih =>
    have first := splitNames_proper (proper name (by simp))
    cases names with
    | nil => simpa using first
    | cons next names =>
      have rest := ih fun other member => proper other (by simp [member])
      have text : ("/".intercalate (name :: next :: names)).toList =
          name.toList ++ '/' :: ("/".intercalate (next :: names)).toList := by
        simp only [String.intercalate_cons_cons, String.toList_append, List.append_assoc]
        rfl
      rw [text, splitNames_append_slash, first, rest]
      rfl

theorem names_ofNames (proper : ∀ name ∈ names, Proper name) : (ofNames absolute names).names = names := by
  have relative := splitNames_intercalate proper
  cases absolute with
  | false => simpa [Path.names, ofNames] using relative
  | true =>
    have text : (ofNames true names).text.toList = '/' :: ("/".intercalate names).toList := by
      simp only [ofNames, ↓reduceIte, String.toList_append]
      rfl
    rw [Path.names, text, splitNames, if_pos rfl, relative]
    rfl

theorem isAbsolute_ofNames (proper : ∀ name ∈ names, Proper name) :
    (ofNames absolute names).isAbsolute = absolute := by
  cases absolute with
  | true => simp [isAbsolute, ofNames]
  | false =>
    cases names with
    | nil => rfl
    | cons name names =>
      obtain ⟨nonempty, plain⟩ := proper name (by simp)
      obtain ⟨c, rest, text⟩ : ∃ c rest, name.toList = c :: rest :=
        List.exists_cons_of_ne_nil (by simpa using nonempty)
      have other : c ≠ '/' := fun same => plain (by simp [text, same])
      cases names <;> simp [isAbsolute, ofNames, text, other]

theorem exists_of_mem_around {inner : Path} (member : inner ∈ path.around) :
    ∃ n, inner = ofNames path.isAbsolute (path.components.take n) := by
  unfold around at member
  simp only at member
  split at member
  case isTrue root =>
    rcases List.mem_append.mp member with between | top
    · obtain ⟨n, -, rfl⟩ := List.mem_map.mp between
      exact ⟨n, rfl⟩
    · refine ⟨0, ?_⟩
      rw [List.mem_singleton.mp top, root.1]
      rfl
  case isFalse =>
    obtain ⟨n, -, rfl⟩ := List.mem_map.mp member
    exact ⟨n, rfl⟩

end Path

namespace FileTree

variable {tree : FileTree} {path : Path} {location next : Location} {names : List String}

def start (tree : FileTree) (path : Path) : Location := if path.isAbsolute then [] else tree.workingDirectory

theorem start_of_origin (origin : tree.origin path = .ok location) : location = tree.start path := by
  unfold FileTree.origin at origin
  split at origin
  · cases origin
  split at origin
  · cases origin
  split at origin
  · cases origin
  · exact (Except.ok.inj origin).symm

/-- A place that the path comes through when its names are followed one by one. -/
def Passes (tree : FileTree) (path : Path) (location : Location) : Prop :=
  ∃ names, names <+: path.names ∧ tree.walk (tree.start path) names = .ok location

/-- Names that lead to a directory lead there with dots between them. -/
theorem walk_of_walk_filter (walked : tree.walk location (names.filter (· != ".")) = .ok next)
    (ends : tree.entry? next = some .directory) : tree.walk location names = .ok next := by
  induction names generalizing location with
  | nil => exact walked
  | cons name names ih =>
    by_cases dot : name = "."
    · rw [List.filter_cons_of_neg (by simp [dot])] at walked
      have here := entry?_of_walk walked ends
      exact walk_cons.mpr ⟨location, step_eq_ok_iff.mpr ⟨here, .inl ⟨dot, rfl⟩⟩, ih walked⟩
    · rw [List.filter_cons_of_pos (by simp [dot])] at walked
      obtain ⟨between, stepped, rest⟩ := walk_cons.mp walked
      exact walk_cons.mpr ⟨between, stepped, ih rest⟩

/-- Where a path leads by its first components, its names lead as well. -/
theorem passes_of_components {n : Nat} (walked : tree.walk (tree.start path) (path.components.take n) = .ok location)
    (ends : tree.entry? location = some .directory) : tree.Passes path location := by
  have passes {place : Location} {first rest : List String} (inside : first <+: rest.filter (· != "."))
      (walked : tree.walk place first = .ok location) :
      ∃ names, names <+: rest ∧ tree.walk place names = .ok location := by
    obtain ⟨names, within, rfl⟩ := List.prefix_filter_iff.mp inside
    exact ⟨names, within, walk_of_walk_filter walked ends⟩
  unfold Path.components at walked
  split at walked
  case h_1 rest relative dotted =>
    -- The dot at the start of a relative path is a component, and the others are not.
    cases n with
    | zero => exact ⟨[], List.nil_prefix, walked⟩
    | succ n =>
      obtain ⟨between, stepped, walked⟩ := walk_cons.mp walked
      obtain ⟨names, within, led⟩ := passes (List.take_prefix n _) walked
      refine ⟨"." :: names, ?_, walk_cons.mpr ⟨between, stepped, led⟩⟩
      rw [dotted]
      exact (List.prefix_cons_inj ".").mpr within
  case h_2 => exact passes (List.take_prefix n _) walked

theorem passes_of_onTheWay (way : OnTheWay path.chain tree location) : tree.Passes path location := by
  obtain ⟨inner, member, found⟩ := way
  obtain ⟨place, origin, walked, here, -⟩ := find_eq_ok_iff.mp found
  obtain rfl := start_of_origin origin
  unfold Path.chain at member
  split at member
  case isTrue => cases member
  case isFalse =>
    rcases List.mem_cons.mp member with rfl | around
    · exact ⟨inner.names, List.prefix_rfl, walked⟩
    · obtain ⟨n, rfl⟩ := Path.exists_of_mem_around around
      have proper : ∀ name ∈ path.components.take n, Path.Proper name :=
        fun name member => Path.proper_of_mem_components (List.mem_of_mem_take member)
      rw [Path.names_ofNames proper, start, Path.isAbsolute_ofNames proper] at walked
      exact passes_of_components walked here

/-- What making a directory changes, whether or not it succeeds. -/
structure Prepares (path : Path) (before after : FileTree) : Prop where
  workingDirectory : after.workingDirectory = before.workingDirectory
  files : ∀ location content,
    after.entry? location = some (.file content) ↔ before.entry? location = some (.file content)
  directories : ∀ location, before.entry? location = some .directory → after.entry? location = some .directory
  added : ∀ location, after.entry? location = some .directory → before.entry? location = some .directory ∨
    before.entry? location = none ∧ after.Passes path location

theorem prepares_ensureDirectory (tree : FileTree) (path : Path) :
    Prepares path tree (tree.ensureDirectory path).2 := by
  have adds := (ensureDirectory_adds tree path).mono fun _ => passes_of_onTheWay
  refine ⟨adds.workingDirectory, fun location content => ?_, adds.grows.directories, fun location here => ?_⟩
  · rcases adds.entries location with same | ⟨missing, made, -⟩
    · rw [same]
    · simp [missing, made]
  · rcases adds.entries location with same | ⟨missing, -, passes⟩
    · exact .inl (same.symm.trans here)
    · exact .inr ⟨missing, passes⟩

/-- A directory stands where the path leads. The empty path stands for the working directory. -/
def HasDirectory (tree : FileTree) (path : Path) : Prop :=
  if path.text = "" then tree.entry? tree.workingDirectory = some .directory else tree.isDirectory path = true

theorem hasDirectory_ensureDirectory
    (standing : path.text = "" → tree.entry? tree.workingDirectory = some .directory)
    (made : (tree.ensureDirectory path).1 = .ok ()) : (tree.ensureDirectory path).2.HasDirectory path := by
  unfold HasDirectory
  split
  case isTrue empty =>
    have prepares := prepares_ensureDirectory tree path
    rw [prepares.workingDirectory]
    exact prepares.directories _ (standing empty)
  case isFalse nonempty =>
    unfold ensureDirectory at made ⊢
    rw [Path.chain, if_neg nonempty] at made ⊢
    obtain ⟨location, found⟩ := find_of_makeChain made
    simp [isDirectory, found]

end FileTree

end EditorScheme
