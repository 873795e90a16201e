import EditorScheme.Proofs.Resolution
import EditorScheme.Proofs.Schema.Reading

/-!
Style maps after any history of entries. The encodings of the categories and the owners of the options are not inverse
to each other: an option that moves to another category leaves its encoding behind. Both are known by the last
entries, and two style maps are equal exactly if nothing that can be asked of them tells them apart.
-/
namespace EditorScheme

namespace StyleMap

variable {styles a b : StyleMap} {category option : String}

@[simp] theorem addAll_nil (styles : StyleMap) : styles.addAll [] = styles := rfl

@[simp] theorem addAll_cons (styles : StyleMap) (entry : String × String × String)
    (entries : List (String × String × String)) :
    styles.addAll (entry :: entries) = (styles.add entry.1 entry.2.1 entry.2.2).addAll entries := rfl

theorem options_add (styles : StyleMap) (category option encoding other : String) :
    (styles.add category option encoding).options other =
      if other = category then (styles.options category).insert option encoding else styles.options other := by
  rw [options, add, Table.get?_insert]
  split <;> rfl

theorem owners_addAll (styles : StyleMap) (entries : List (String × String × String)) :
    (styles.addAll entries).owners = styles.owners.insertAll (entries.map fun entry => (entry.2.1, entry.1)) := by
  induction entries generalizing styles with
  | nil => rfl
  | cons entry entries ih => exact ih _

theorem options_addAll (styles : StyleMap) (entries : List (String × String × String)) (category : String) :
    (styles.addAll entries).options category = (styles.options category).insertAll
      ((entries.filter fun entry => decide (entry.1 = category)).map Prod.snd) := by
  induction entries generalizing styles with
  | nil => rfl
  | cons entry entries ih =>
    rw [addAll_cons, ih, options_add]
    by_cases same : entry.1 = category
    · rw [if_pos same.symm, List.filter_cons_of_pos (by simpa using same), same]
      rfl
    · rw [if_neg (Ne.symm same), List.filter_cons_of_neg (by simpa using same)]

theorem exists_categories_addAll (styles : StyleMap) (entries : List (String × String × String)) :
    ∃ pairs, pairs.map Prod.fst = entries.map Prod.fst ∧
      (styles.addAll entries).categories = styles.categories.insertAll pairs := by
  induction entries generalizing styles with
  | nil => exact ⟨[], rfl, rfl⟩
  | cons entry entries ih =>
    obtain ⟨pairs, names, made⟩ := ih (styles.add entry.1 entry.2.1 entry.2.2)
    exact ⟨(entry.1, (styles.options entry.1).insert entry.2.1 entry.2.2) :: pairs, by simp [names], made⟩

theorem owner_eq (entries : List (String × String × String)) (option : String) :
    (empty.addAll entries).owners.get? option =
      (entries.findRev? fun entry => decide (entry.2.1 = option)).map Prod.fst := by
  rw [owners_addAll]
  change (Table.ofList _).get? option = _
  rw [Table.get?_ofList]
  simp only [List.findRev?_eq_find?_reverse, ← List.map_reverse, List.find?_map, Option.map_map]
  rfl

theorem encoding_eq (entries : List (String × String × String)) (category option : String) :
    ((empty.addAll entries).options category).get? option =
      (entries.findRev? fun entry => decide (entry.1 = category ∧ entry.2.1 = option)).map (·.2.2) := by
  rw [options_addAll]
  change (Table.ofList _).get? option = _
  rw [Table.get?_ofList]
  simp only [List.findRev?_eq_find?_reverse, ← List.map_reverse, ← List.filter_reverse, List.find?_map,
    List.find?_filter, Option.map_map, Function.comp_def, decide_eq_true_eq, Bool.decide_and]

theorem classify_eq_literalColor_iff : styles.classify option = .literalColor ↔ styles.owners.get? option = none := by
  unfold classify
  split <;> simp_all

theorem classify_eq_classify_iff : a.classify option = b.classify option ↔
    a.owners.get? option = b.owners.get? option := by
  unfold classify
  cases a.owners.get? option <;> cases b.owners.get? option <;> simp

theorem encoding_eq_encoding_iff : a.encoding category option = b.encoding category option ↔
    (a.options category).get? option = (b.options category).get? option := by
  unfold encoding
  cases (a.options category).get? option <;> cases (b.options category).get? option <;> simp

def Occupied (styles : StyleMap) : Prop := ∀ category options, styles.categories.get? category = some options →
  ∃ option encoding, options.get? option = some encoding

theorem occupied_empty : empty.Occupied := fun _ _ listed => nomatch listed

theorem Occupied.add (occupied : styles.Occupied) (category option encoding : String) :
    (styles.add category option encoding).Occupied := by
  intro other options listed
  rw [StyleMap.add, Table.get?_insert] at listed
  split at listed
  case isTrue =>
    cases listed
    exact ⟨option, encoding, by simp⟩
  case isFalse => exact occupied other options listed

theorem Occupied.addAll (occupied : styles.Occupied) (entries : List (String × String × String)) :
    (styles.addAll entries).Occupied := by
  induction entries generalizing styles with
  | nil => exact occupied
  | cons entry entries ih => exact ih (occupied.add _ _ _)

/-- A category that lists nothing is not there at all, so two categories are alike if they list the same. -/
theorem rel_categories_iff (occupiedA : a.Occupied) (occupiedB : b.Occupied) :
    Option.Rel (fun x y => (x == y) = true) (a.categories.get? category) (b.categories.get? category) ↔
      ∀ option, (a.options category).get? option = (b.options category).get? option := by
  unfold options
  have occupiedA := occupiedA category
  have occupiedB := occupiedB category
  generalize a.categories.get? category = x at *
  generalize b.categories.get? category = y at *
  cases x with
  | none =>
    cases y with
    | none => exact ⟨fun _ _ => rfl, fun _ => .none⟩
    | some there =>
      obtain ⟨option, encoding, listed⟩ := occupiedB there rfl
      exact ⟨nofun, fun same => nomatch (same option).trans listed⟩
  | some here =>
    cases y with
    | none =>
      obtain ⟨option, encoding, listed⟩ := occupiedA here rfl
      exact ⟨nofun, fun same => nomatch (same option).symm.trans listed⟩
    | some there =>
      constructor
      · rintro (agree | _)
        exact Table.agrees_iff_get?_eq.mp agree
      · exact fun same => .some (Table.agrees_iff_get?_eq.mpr same)

theorem beq_iff (occupiedA : a.Occupied) (occupiedB : b.Occupied) : (a == b) = true ↔
    (∀ option, a.classify option = b.classify option) ∧
      ∀ category option, a.encoding category option = b.encoding category option := by
  have parts : (a == b) = (a.categories.agrees b.categories && a.owners.agrees b.owners) := rfl
  rw [parts, Bool.and_eq_true, Table.agrees_iff, Table.agrees_iff_get?_eq, and_comm]
  refine and_congr (forall_congr' fun option => classify_eq_classify_iff.symm) (forall_congr' fun category => ?_)
  rw [rel_categories_iff occupiedA occupiedB]
  exact forall_congr' fun option => encoding_eq_encoding_iff.symm

end StyleMap

/-- An attribute asks a style map for nothing but the kinds and the encodings of options. -/
theorem Attribute.resolve_congr {a b : StyleMap} (classify : ∀ option, a.classify option = b.classify option)
    (encoding : ∀ category option, a.encoding category option = b.encoding category option)
    (palette : Palette) (isItalic : Bool) (definition : Attribute) :
    definition.resolve palette a isItalic = definition.resolve palette b isItalic := by
  have flags : setFlag a isItalic = setFlag b isItalic := by
    funext resolved option
    simp only [setFlag, classify, encoding]
  cases definition with
  | foreground token => rfl
  | options list => simp only [resolve, setColors, classify, flags, StyleMap.boldItalic, encoding]

namespace StyleMap

/-- What a style map answers if these entries have been added one after the other. -/
structure Answers (entries : List (String × String × String)) (styles : StyleMap) : Prop where
  flag : ∀ option category, styles.classify option = .styleFlag category ↔
    ∃ encoding, (entries.findRev? fun entry => decide (entry.2.1 = option)) = some (category, option, encoding)
  color : ∀ option, styles.classify option = .literalColor ↔ ∀ entry ∈ entries, entry.2.1 ≠ option
  encoding : ∀ category option encoding, styles.encoding category option = .ok encoding ↔
    (entries.findRev? fun entry => decide (entry.1 = category ∧ entry.2.1 = option)) =
      some (category, option, encoding)
  missing : ∀ category option e, styles.encoding category option = .error e ↔
    (∀ entry ∈ entries, ¬ (entry.1 = category ∧ entry.2.1 = option)) ∧ e = .missingEncoding category option
  categories : styles.categoryNames = (entries.map Prod.fst).eraseDups
  encoded : ∀ option category, styles.classify option = .styleFlag category →
    ∃ encoding, styles.encoding category option = .ok encoding

theorem answers_addAll (entries : List (String × String × String)) : Answers entries (empty.addAll entries) where
  flag option category := by
    rw [classify_eq_styleFlag_iff, owner_eq, Option.map_eq_some_iff]
    constructor
    · rintro ⟨⟨_, named, encoding⟩, last, rfl⟩
      rw [List.findRev?_eq_find?_reverse] at last ⊢
      obtain rfl : named = option := by simpa using List.find?_some last
      exact ⟨encoding, last⟩
    · rintro ⟨encoding, last⟩
      exact ⟨_, last, rfl⟩
  color option := by
    rw [classify_eq_literalColor_iff, owner_eq, Option.map_eq_none_iff, Table.findRev?_eq_none_iff]
    simp
  encoding category option encoding := by
    rw [encoding_eq_ok_iff, encoding_eq, Option.map_eq_some_iff]
    constructor
    · rintro ⟨⟨listed, named, _⟩, last, rfl⟩
      rw [List.findRev?_eq_find?_reverse] at last ⊢
      obtain ⟨rfl, rfl⟩ : listed = category ∧ named = option := by simpa using List.find?_some last
      exact last
    · exact fun last => ⟨_, last, rfl⟩
  missing category option e := by
    have none : (∀ entry ∈ entries, ¬ (entry.1 = category ∧ entry.2.1 = option)) ↔
        ((empty.addAll entries).options category).get? option = none := by
      rw [encoding_eq, Option.map_eq_none_iff, Table.findRev?_eq_none_iff]
      simp
    rw [none, StyleMap.encoding]
    cases ((empty.addAll entries).options category).get? option <;> simp [eq_comm]
  categories := by
    obtain ⟨pairs, names, made⟩ := exists_categories_addAll empty entries
    rw [categoryNames, made, ← names]
    exact Table.keys_ofList pairs
  encoded _ _ flag := exists_encoding_of_classify flag

def CategoryLists (entry : Yaml.Value × Yaml.Value) (listed : List (String × String × String)) : Prop :=
  ∃ category options, ∃ pairs : List (String × String),
    entry.1.scalarText? = some category ∧ entry.2.entries? = some options ∧
    List.Forall₂ (fun option pair => option.1.scalarText? = some pair.1 ∧ option.2.scalarText? = some pair.2)
      options pairs ∧
    listed = pairs.map fun pair => (category, pair.1, pair.2)

def Lists (root : Entries) (entries : List (String × String × String)) : Prop :=
  ∃ listed, List.Forall₂ CategoryLists root listed ∧ entries = listed.flatten

theorem categoryEntries_eq_ok_iff {entry : Yaml.Value × Yaml.Value} {listed : List (String × String × String)} :
    categoryEntries entry = .ok listed ↔ CategoryLists entry listed := by
  simp only [categoryEntries, bind_eq_ok_iff, scalarText_eq_ok_iff, CategoryLists]
  refine exists_congr fun category => ?_
  cases found : entry.2.entries? with
  | none => simp
  | some options =>
    simp only [bind_eq_ok_iff, scalarPairs_eq_ok_iff, Texts, Except.ok.injEq, Option.some.injEq]
    constructor
    · rintro ⟨name, pairs, texts, rfl⟩
      exact ⟨options, pairs, name, rfl, texts, rfl⟩
    · rintro ⟨_, pairs, name, rfl, texts, rfl⟩
      exact ⟨name, pairs, texts, rfl⟩

theorem ofValue_eq_ok_iff {document : Yaml.Value} : ofValue document = .ok styles ↔ ∃ root entries,
    document = .mapping root ∧ Lists root entries ∧ styles = empty.addAll entries := by
  simp only [ofValue, bind_eq_ok_iff, rootEntries_eq_ok_iff, mapM_eq_ok_iff_forall₂, categoryEntries_eq_ok_iff,
    Except.ok.injEq]
  constructor
  · rintro ⟨root, rfl, listed, lists, rfl⟩
    exact ⟨root, _, rfl, ⟨listed, lists, rfl⟩, rfl⟩
  · rintro ⟨root, _, rfl, ⟨listed, lists, rfl⟩, rfl⟩
    exact ⟨root, rfl, listed, lists, rfl⟩

theorem ofYaml_eq_ok_iff {text : String} : ofYaml text = .ok styles ↔ ∃ root entries,
    readValue text = .ok (.mapping root) ∧ Lists root entries ∧ styles = empty.addAll entries := by
  simp only [ofYaml, bind_eq_ok_iff, ofValue_eq_ok_iff]
  constructor
  · rintro ⟨_, read, root, entries, rfl, made⟩
    exact ⟨root, entries, read, made⟩
  · rintro ⟨root, entries, read, made⟩
    exact ⟨_, read, root, entries, rfl, made⟩

/-- Only the entries of an option matter for it, so their order among those of other options does not. -/
theorem classify_eq_of_filter {entries others : List (String × String × String)}
    (same : ∀ option, (entries.filter fun entry => decide (entry.2.1 = option)) =
      others.filter fun entry => decide (entry.2.1 = option)) :
    (∀ option, (empty.addAll entries).classify option = (empty.addAll others).classify option) ∧
      ∀ category option, (empty.addAll entries).encoding category option =
        (empty.addAll others).encoding category option := by
  -- An entry that passes the test is an entry of the option.
  have last (option : String) (test : String × String × String → Bool)
      (about : ∀ entry, test entry = true → entry.2.1 = option) : entries.findRev? test = others.findRev? test := by
    have within (list : List (String × String × String)) : list.findRev? test =
        (list.filter fun entry => decide (entry.2.1 = option)).findRev? test := by
      rw [List.findRev?_eq_find?_reverse, List.findRev?_eq_find?_reverse, ← List.filter_reverse, List.find?_filter]
      congr 1
      funext entry
      cases passes : test entry with
      | false => simp
      | true => simp [about entry passes]
    rw [within entries, within others, same]
  constructor
  · intro option
    rw [classify_eq_classify_iff, owner_eq, owner_eq, last option _ (by simp)]
  · intro category option
    rw [encoding_eq_encoding_iff, encoding_eq, encoding_eq, last option _ (by simp)]

/-- A style map answers by its last entries, whether they have been added or read from a document. Two style maps are
equal exactly if they answer alike, which only depends on the order of the entries of each option, and then resolve
attributes alike. -/
theorem known_by_last_entries :
    (∀ entries, Answers entries (empty.addAll entries)) ∧
    (∀ text styles, ofYaml text = .ok styles ↔ ∃ root entries,
      readValue text = .ok (.mapping root) ∧ Lists root entries ∧ styles = empty.addAll entries) ∧
    ∀ entries others a b, a = empty.addAll entries → b = empty.addAll others →
      ((a == b) = true ↔ (∀ option, a.classify option = b.classify option) ∧
        ∀ category option, a.encoding category option = b.encoding category option) ∧
      ((∀ option, (entries.filter fun entry => decide (entry.2.1 = option)) =
        others.filter fun entry => decide (entry.2.1 = option)) → (a == b) = true) ∧
      ((a == b) = true → ∀ (palette : Palette) (isItalic : Bool) (definition : Attribute),
        definition.resolve palette a isItalic = definition.resolve palette b isItalic) := by
  refine ⟨answers_addAll, fun text styles => ofYaml_eq_ok_iff, ?_⟩
  rintro entries others a b rfl rfl
  have equal := beq_iff (occupied_empty.addAll entries) (occupied_empty.addAll others)
  refine ⟨equal, fun same => equal.mpr (classify_eq_of_filter same), fun alike palette isItalic definition => ?_⟩
  obtain ⟨classify, encoding⟩ := equal.mp alike
  exact Attribute.resolve_congr classify encoding palette isItalic definition

/-- An option that has moved keeps its encoding where it was. -/
example : (empty.addAll [("font-type", "strong", "1"), ("effect-type", "strong", "4")]).classify "strong" =
      .styleFlag "effect-type" ∧
    ((empty.addAll [("font-type", "strong", "1"), ("effect-type", "strong", "4")]).encoding "font-type" "strong").toOption =
      some "1" := by
  decide

end StyleMap

end EditorScheme
