import EditorScheme.Files

/-!
The names of joined paths. A child without slashes becomes the last name below those of the path, and
paths that are joined to the same text differ in their last names alone.
-/
namespace EditorScheme.Path

theorem addName_append (name : List Char) (a b : List String) :
    addName name (a ++ b) = addName name a ++ b := by
  unfold addName
  split <;> simp

theorem splitNames_append_slash (a b name : List Char) :
    splitNames (a ++ '/' :: b) name = splitNames a name ++ splitNames b [] := by
  induction a generalizing name with
  | nil => simp [splitNames, addName]; split <;> simp
  | cons c a ih =>
    by_cases slash : c = '/'
    · simp only [List.cons_append, splitNames, slash, ↓reduceIte, ih, addName_append]
    · simp only [List.cons_append, splitNames, slash, ↓reduceIte, ih]

theorem splitNames_plain (text name : List Char) (plain : '/' ∉ text) :
    splitNames text name = addName (text.reverse ++ name) [] := by
  induction text generalizing name with
  | nil => rfl
  | cons c text ih =>
    have other : c ≠ '/' := fun same => plain (by simp [same])
    rw [splitNames, if_neg other, ih (c :: name) (fun inside => plain (by simp [inside]))]
    simp

/-- The path ends in a name that is more than dots. -/
structure Named (path : Path) (name : String) : Prop where
  last : path.names.getLast? = some name
  noDot : name ≠ "."
  noDots : name ≠ ".."

/-- The path follows `parents` from the root or the working directory and ends in the name `last`. -/
structure Ends (path : Path) (absolute : Bool) (parents : List String) (last : String) : Prop where
  absolute : path.isAbsolute = absolute
  names : path.names = parents ++ [last]
  plain : path.endsInSlash = false

theorem Ends.getLast? {path : Path} {absolute : Bool} {parents : List String} {last : String}
    (ends : path.Ends absolute parents last) : path.names.getLast? = some last := by
  simp [ends.names]

/-- Texts with the same start and no slash behind it. -/
theorem exists_ends (start : String) : ∃ absolute parents first, ∀ tail : String, tail ≠ "" →
    '/' ∉ tail.toList → (Path.mk (start ++ tail)).Ends absolute parents (first ++ tail) := by
  have split (text name : List Char) : ∃ parents first, ∀ tail : List Char, tail ≠ [] → '/' ∉ tail →
      splitNames (text ++ tail) name = parents ++ [String.ofList (first ++ tail)] := by
    induction text generalizing name with
    | nil =>
      refine ⟨[], name.reverse, fun tail nonempty plain => ?_⟩
      rw [List.nil_append, splitNames_plain tail name plain]
      simp [addName, nonempty]
    | cons c text ih =>
      by_cases slash : c = '/'
      · obtain ⟨parents, first, behind⟩ := ih []
        refine ⟨addName name parents, first, fun tail nonempty plain => ?_⟩
        simp only [List.cons_append, splitNames, slash, ↓reduceIte, behind tail nonempty plain,
          addName_append]
      · obtain ⟨parents, first, behind⟩ := ih (c :: name)
        refine ⟨parents, first, fun tail nonempty plain => ?_⟩
        simpa only [List.cons_append, splitNames, slash, ↓reduceIte] using behind tail nonempty plain
  obtain ⟨parents, first, names⟩ := split start.toList []
  refine ⟨start.toList.head? == some '/', parents, String.ofList first, fun tail nonempty plain => ?_⟩
  have characters : tail.toList ≠ [] := by simpa using nonempty
  refine ⟨?_, ?_, ?_⟩
  · cases text : start.toList with
    | nil =>
      obtain ⟨c, rest, tailText⟩ := List.exists_cons_of_ne_nil characters
      have other : c ≠ '/' := fun same => plain (by simp [tailText, same])
      simp [isAbsolute, text, tailText, other]
    | cons c rest => simp [isAbsolute, text]
  · simpa [Path.names] using names tail.toList characters plain
  · have last := List.getLast_mem characters
    have other : tail.toList.getLast characters ≠ '/' := fun same => plain (same ▸ last)
    simp [endsInSlash, List.getLast?_append, List.getLast?_eq_some_getLast characters, other]

/-- What is put between a path and a child depends on neither's end. -/
theorem exists_join_text (path : Path) (name : String) : ∃ start : String, ∀ tail : String,
    '/' ∉ tail.toList → (path.join (name ++ tail)).text = start ++ tail := by
  have relative (tail : String) (plain : '/' ∉ tail.toList) :
      (Path.mk (name ++ tail)).isAbsolute = (Path.mk name).isAbsolute := by
    cases text : name.toList with
    | nil =>
      cases tailText : tail.toList with
      | nil => simp [isAbsolute, text, tailText]
      | cons c rest =>
        have other : c ≠ '/' := fun same => plain (by simp [tailText, same])
        simp [isAbsolute, text, tailText, other]
    | cons c rest => simp [isAbsolute, text]
  by_cases absolute : (Path.mk name).isAbsolute = true
  · exact ⟨name, fun tail plain => by simp [join, relative tail plain, absolute]⟩
  · by_cases open_ : path.text = "" ∨ path.text.toList.getLast? = some '/'
    · refine ⟨path.text ++ name, fun tail plain => ?_⟩
      simp [join, relative tail plain, absolute, open_, String.append_assoc]
    · refine ⟨path.text ++ "/" ++ name, fun tail plain => ?_⟩
      simp [join, relative tail plain, absolute, open_, String.append_assoc]

/-- Children that differ only in a tail without slashes are siblings, with last names that differ in the
same way, whatever directories the common part goes through. -/
theorem exists_ends_join (path : Path) (name : String) : ∃ absolute parents first, ∀ tail : String,
    tail ≠ "" → '/' ∉ tail.toList → (path.join (name ++ tail)).Ends absolute parents (first ++ tail) := by
  obtain ⟨start, text⟩ := exists_join_text path name
  obtain ⟨absolute, parents, first, ends⟩ := exists_ends start
  refine ⟨absolute, parents, first, fun tail nonempty plain => ?_⟩
  have same : path.join (name ++ tail) = ⟨start ++ tail⟩ := by
    rw [← text tail plain]
  rw [same]
  exact ends tail nonempty plain

theorem ends_join (path : Path) {child : String} (nonempty : child ≠ "") (plain : '/' ∉ child.toList) :
    (path.join child).Ends path.isAbsolute path.names child := by
  obtain ⟨c, rest, text⟩ : ∃ c rest, child.toList = c :: rest :=
    List.exists_cons_of_ne_nil (by simpa using nonempty)
  have other : c ≠ '/' := fun same => plain (by simp [text, same])
  have relative : (Path.mk child).isAbsolute = false := by simp [isAbsolute, text, other]
  have name : splitNames child.toList [] = [child] := by
    rw [splitNames_plain _ _ plain]
    simp [addName, nonempty]
  have ending : child.toList.getLast? ≠ some '/' := fun last => plain (List.mem_of_getLast? last)
  have childEnd : ∃ last, child.toList.getLast? = some last :=
    ⟨_, List.getLast?_eq_some_getLast (by simp [text])⟩
  obtain ⟨last, childEnd⟩ := childEnd
  have notSlash : last ≠ '/' := fun same => ending (same ▸ childEnd)
  by_cases start : path.text = ""
  · have joined : path.join child = ⟨child⟩ := by simp [join, relative, start]
    rw [joined]
    refine ⟨?_, ?_, ?_⟩
    · simp [isAbsolute, start, text, other]
    · simp [Path.names, start, name, splitNames, addName]
    · simp [endsInSlash, childEnd, notSlash]
  · -- In both cases the text splits at a slash, and the path itself has the names before it.
    obtain ⟨before, joined, names⟩ : ∃ before, (path.join child).text.toList = before ++ '/' :: child.toList ∧
        path.names = splitNames before [] := by
      by_cases closed : path.text.toList.getLast? = some '/'
      · obtain ⟨before, split⟩ := List.getLast?_eq_some_iff.mp closed
        refine ⟨before, by simp [join, relative, split], ?_⟩
        rw [Path.names, split, splitNames_append_slash]
        simp [splitNames, addName]
      · exact ⟨path.text.toList, by simp [join, relative, start, closed], rfl⟩
    have head : (path.join child).text.toList.head? = path.text.toList.head? := by
      obtain ⟨first, more, pathText⟩ : ∃ first more, path.text.toList = first :: more :=
        List.exists_cons_of_ne_nil (by simpa using start)
      unfold join
      rw [relative]
      split <;> simp_all
      split <;> simp [pathText]
    refine ⟨?_, ?_, ?_⟩
    · rw [isAbsolute, head, isAbsolute]
    · rw [Path.names, joined, splitNames_append_slash, name, ← names]
    · simp [endsInSlash, joined, List.getLast?_append, List.getLast?_cons, childEnd, notSlash]

theorem Named.components {path : Path} {name : String} (named : path.Named name) :
    path.components.getLast? = some name := by
  obtain ⟨parents, names⟩ := List.getLast?_eq_some_iff.mp named.last
  have kept : ([name].filter (· != ".")) = [name] := by simp [named.noDot]
  unfold Path.components
  split
  case h_1 rest absolute dots =>
    rw [names] at dots
    cases parents with
    | nil => simp [named.noDot] at dots
    | cons first parents =>
      have split : rest = parents ++ [name] := (List.cons.inj dots).2.symm
      rw [split, List.filter_append, kept, ← List.cons_append, List.getLast?_concat]
  case h_2 => rw [names, List.filter_append, kept, List.getLast?_concat]

theorem Named.eq_of_same {a b : Path} {m n : String} (left : a.Named m) (right : b.Named n)
    (same : a.same b = true) : m = n := by
  have components : a.components = b.components := by
    simp only [Path.same, Bool.and_eq_true, beq_iff_eq] at same
    exact same.2
  have last := left.components
  rw [components, right.components] at last
  exact (Option.some.inj last).symm

theorem same_refl (path : Path) : path.same path = true := by simp [Path.same]

end EditorScheme.Path
