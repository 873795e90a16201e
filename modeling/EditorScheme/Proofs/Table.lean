import EditorScheme.Table
import Mathlib.Data.List.Basic
import Mathlib.Data.List.Perm.Basic

/-!
Tables after several settings. A table is known by the order of its keys and by what it gives for each of
them, so settings that are made twice come to the same as once. Keys stand in the order of their first setting, and
the last setting of a key is what the table gives for it. Changing all values commutes with setting them. Tables
agree, whatever the order of their keys, if they give the same for every key.
-/
namespace EditorScheme.Table

variable {κ α : Type} [DecidableEq κ] {key : κ} {a b table : Table κ α}

def insertAll (table : Table κ α) (pairs : List (κ × α)) : Table κ α :=
  pairs.foldl (fun table pair => table.insert pair.1 pair.2) table

@[simp] theorem insertAll_nil (table : Table κ α) : table.insertAll [] = table := rfl

@[simp] theorem insertAll_cons (table : Table κ α) (pair : κ × α) (pairs : List (κ × α)) :
    table.insertAll (pair :: pairs) = (table.insert pair.1 pair.2).insertAll pairs := rfl

theorem insertAll_append (table : Table κ α) (first second : List (κ × α)) :
    table.insertAll (first ++ second) = (table.insertAll first).insertAll second :=
  List.foldl_append

theorem ofList_eq_insertAll (pairs : List (κ × α)) : ofList pairs = (empty : Table κ α).insertAll pairs := rfl

theorem mem_putEntry {entry : κ × α} {value : α} {entries : List (κ × α)}
    (member : entry ∈ putEntry key value entries) :
    entry = (key, value) ∨ entry ∈ entries := by
  induction entries with
  | nil => simpa [putEntry] using member
  | cons first rest ih =>
    unfold putEntry at member
    split at member
    · rcases List.mem_cons.mp member with same | later
      · exact .inl same
      · exact .inr (List.mem_cons_of_mem _ later)
    · rcases List.mem_cons.mp member with same | later
      · exact .inr (by simp [same])
      · exact (ih later).imp_right (List.mem_cons_of_mem _)

theorem putEntry_of_notMem {value : α} {entries : List (κ × α)} (fresh : key ∉ entries.map Prod.fst) :
    putEntry key value entries = entries ++ [(key, value)] := by
  induction entries with
  | nil => rfl
  | cons first rest ih =>
    simp only [List.map_cons, List.mem_cons, not_or] at fresh
    rw [putEntry, if_neg (Ne.symm fresh.1), ih fresh.2, List.cons_append]

/-- A key that is there keeps its place, and a new one comes last. -/
theorem putEntry_eq {value : α} {entries : List (κ × α)} (distinct : (entries.map Prod.fst).Nodup) :
    putEntry key value entries = (entries.map fun entry => if entry.1 = key then (key, value) else entry) ++
      if key ∈ entries.map Prod.fst then [] else [(key, value)] := by
  have without {rest : List (κ × α)} (fresh : key ∉ rest.map Prod.fst) :
      (rest.map fun entry => if entry.1 = key then (key, value) else entry) = rest := by
    refine (List.map_congr_left fun entry member => if_neg fun same => ?_).trans (List.map_id rest)
    exact fresh (same ▸ List.mem_map_of_mem member)
  induction entries with
  | nil => rfl
  | cons first rest ih =>
    rw [List.map_cons, List.nodup_cons] at distinct
    rw [List.map_cons, List.map_cons, putEntry]
    by_cases same : first.1 = key
    · rw [if_pos same, if_pos same, without (same ▸ distinct.1), if_pos (by simp [same]), List.append_nil]
    · have listed : key ∈ first.1 :: rest.map Prod.fst ↔ key ∈ rest.map Prod.fst := by simp [Ne.symm same]
      rw [if_neg same, if_neg same, ih distinct.2, if_congr listed rfl rfl, List.cons_append]

theorem entries_insertAll {pairs : List (κ × α)} (distinct : ((table.entries ++ pairs).map Prod.fst).Nodup) :
    (table.insertAll pairs).entries = table.entries ++ pairs := by
  induction pairs generalizing table with
  | nil => simp
  | cons pair pairs ih =>
    have fresh : pair.1 ∉ table.entries.map Prod.fst := by
      rw [List.map_append, List.map_cons] at distinct
      exact fun old => (List.nodup_append.mp distinct).2.2 _ old _ (by simp) rfl
    have appended : (table.insert pair.1 pair.2).entries = table.entries ++ [pair] := putEntry_of_notMem fresh
    rw [insertAll_cons, ih (by simpa [appended] using distinct), appended]
    simp

theorem entries_ofList {pairs : List (κ × α)} (distinct : (pairs.map Prod.fst).Nodup) :
    (ofList pairs).entries = pairs :=
  entries_insertAll (show (((empty : Table κ α).entries ++ pairs).map Prod.fst).Nodup from distinct)

theorem keys_insert (table : Table κ α) (key : κ) (value : α) :
    (table.insert key value).keys = if key ∈ table.keys then table.keys else table.keys ++ [key] :=
  map_fst_putEntry key value table.entries

theorem mem_keys_insert {other : κ} {value : α} :
    other ∈ (table.insert key value).keys ↔ other ∈ table.keys ∨ other = key := by
  rw [keys_insert]
  by_cases present : key ∈ table.keys
  · rw [if_pos present]
    constructor
    · exact .inl
    · rintro (member | rfl)
      · exact member
      · exact present
  · rw [if_neg present, List.mem_append, List.mem_singleton]

theorem mem_keys_insertAll {pairs : List (κ × α)} :
    key ∈ (table.insertAll pairs).keys ↔ key ∈ table.keys ∨ key ∈ pairs.map Prod.fst := by
  induction pairs generalizing table with
  | nil => simp
  | cons pair pairs ih =>
    rw [insertAll_cons, ih, mem_keys_insert, List.map_cons, List.mem_cons, or_assoc]

theorem keys_insertAll_of_subset {pairs : List (κ × α)} (present : ∀ pair ∈ pairs, pair.1 ∈ table.keys) :
    (table.insertAll pairs).keys = table.keys := by
  induction pairs generalizing table with
  | nil => rfl
  | cons pair pairs ih =>
    have kept : (table.insert pair.1 pair.2).keys = table.keys := by
      rw [keys_insert, if_pos (present pair (by simp))]
    rw [insertAll_cons, ih, kept]
    intro other member
    rw [kept]
    exact present other (by simp [member])

/-- What a table gives for a key after several settings does not depend on the table if one of the settings is
of that key. -/
theorem get?_insertAll_congr {pairs : List (κ × α)}
    (same : key ∈ pairs.map Prod.fst ∨ a.get? key = b.get? key) :
    (a.insertAll pairs).get? key = (b.insertAll pairs).get? key := by
  induction pairs generalizing a b with
  | nil => simpa using same
  | cons pair pairs ih =>
    rw [insertAll_cons, insertAll_cons]
    apply ih
    rw [get?_insert, get?_insert]
    by_cases this : key = pair.1
    · right
      rw [if_pos this, if_pos this]
    · rw [if_neg this, if_neg this]
      simpa [this] using same

theorem get?_insertAll_of_notMem {pairs : List (κ × α)} (other : key ∉ pairs.map Prod.fst) :
    (table.insertAll pairs).get? key = table.get? key := by
  induction pairs generalizing table with
  | nil => rfl
  | cons pair pairs ih =>
    rw [List.map_cons, List.mem_cons, not_or] at other
    rw [insertAll_cons, ih other.2, get?_insert, if_neg other.1]

theorem get?_insertAll_of_mem {pairs : List (κ × α)} {value : α} (distinct : (pairs.map Prod.fst).Nodup)
    (member : (key, value) ∈ pairs) : (table.insertAll pairs).get? key = some value := by
  obtain ⟨before, after, rfl⟩ := List.append_of_mem member
  rw [List.map_append, List.map_cons, List.nodup_append] at distinct
  have later : key ∉ after.map Prod.fst := (List.nodup_cons.mp distinct.2.1).1
  rw [insertAll_append, insertAll_cons, get?_insertAll_of_notMem later, get?_insert, if_pos rfl]

/-- What is set is given, with one of the values it is set to. -/
theorem exists_get?_insertAll (table : Table κ α) {pairs : List (κ × α)} (set : key ∈ pairs.map Prod.fst) :
    ∃ value, (key, value) ∈ pairs ∧ (table.insertAll pairs).get? key = some value := by
  induction pairs generalizing table with
  | nil => cases set
  | cons pair pairs ih =>
    rw [insertAll_cons]
    by_cases later : key ∈ pairs.map Prod.fst
    · obtain ⟨value, member, given⟩ := ih (table.insert pair.1 pair.2) later
      exact ⟨value, List.mem_cons_of_mem _ member, given⟩
    · have this : key = pair.1 := by simpa [later] using set
      refine ⟨pair.2, by simp [this], ?_⟩
      rw [get?_insertAll_of_notMem later, get?_insert, if_pos this]

theorem get?_of_mem {value : α} (member : (key, value) ∈ table.entries) : table.get? key = some value := by
  obtain ⟨before, after, split⟩ := List.append_of_mem member
  have distinct := table.distinct
  rw [split, List.map_append, List.map_cons] at distinct
  have others : ∀ entry ∈ before, ¬ entry.1 = key := by
    intro entry inside same
    have apart := (List.nodup_append.mp distinct).2.2
    exact apart key (List.mem_map.mpr ⟨entry, inside, same⟩) key (by simp) rfl
  have none : before.find? (fun entry => decide (entry.1 = key)) = none := by
    simpa using others
  simp [get?, split, none]

theorem get?_eq_some_iff {value : α} : table.get? key = some value ↔ (key, value) ∈ table.entries := by
  refine ⟨fun given => ?_, get?_of_mem⟩
  obtain ⟨entry, found, rfl⟩ := Option.map_eq_some_iff.mp given
  have same : entry.1 = key := by simpa using List.find?_some found
  exact same ▸ List.mem_of_find?_eq_some found

theorem mem_keys_iff : key ∈ table.keys ↔ ∃ value, table.get? key = some value := by
  simp [keys, get?_eq_some_iff]

theorem map_entries_eq (table : Table κ α) : table.entries.map (fun entry => (entry.1, some entry.2)) =
    table.keys.map fun key => (key, table.get? key) := by
  rw [keys, List.map_map]
  refine List.map_congr_left fun entry member => ?_
  rw [Function.comp_apply, get?_of_mem member]

theorem ext_get? (keys : a.keys = b.keys) (values : ∀ key ∈ a.keys, a.get? key = b.get? key) : a = b := by
  have pairs : a.keys.map (fun key => (key, a.get? key)) = b.keys.map (fun key => (key, b.get? key)) := by
    rw [← keys]
    exact List.map_congr_left fun key member => by rw [values key member]
  rw [← map_entries_eq, ← map_entries_eq] at pairs
  have injective : Function.Injective fun entry : κ × α => (entry.1, some entry.2) := by
    intro x y same
    obtain ⟨first, second⟩ := Prod.mk.inj same
    exact Prod.ext first (Option.some.inj second)
  exact ext (List.map_injective_iff.mpr injective pairs)

section History

theorem eraseDups_of_nodup {list : List κ} (distinct : list.Nodup) : list.eraseDups = list := by
  induction list with
  | nil => rfl
  | cons first rest ih =>
    obtain ⟨new, distinct⟩ := List.nodup_cons.mp distinct
    have others : rest.filter (fun other => !other == first) = rest :=
      List.filter_eq_self.mpr fun other member => by
        simpa using fun same : other = first => new (same ▸ member)
    rw [List.eraseDups_cons, others, ih distinct]

theorem eraseDups_append_cons_of_mem {before : List κ} (old : key ∈ before) (rest : List κ) :
    (before ++ key :: rest).eraseDups = (before ++ rest).eraseDups := by
  rw [List.eraseDups_append, List.eraseDups_append, List.cons_removeAll]
  simp [old]

/-- Keys stand in the order in which they are first set. -/
theorem keys_insertAll (table : Table κ α) (pairs : List (κ × α)) :
    (table.insertAll pairs).keys = (table.keys ++ pairs.map Prod.fst).eraseDups := by
  induction pairs generalizing table with
  | nil =>
    have distinct : table.keys.Nodup := table.distinct
    rw [insertAll_nil, List.map_nil, List.append_nil, eraseDups_of_nodup distinct]
  | cons pair pairs ih =>
    rw [insertAll_cons, ih, keys_insert, List.map_cons]
    split
    case isTrue old => rw [eraseDups_append_cons_of_mem old]
    case isFalse => rw [List.append_assoc, List.singleton_append]

theorem keys_ofList (pairs : List (κ × α)) : (ofList pairs).keys = (pairs.map Prod.fst).eraseDups :=
  keys_insertAll empty pairs

/-- The last setting of a key is the one that counts. -/
theorem get?_insertAll (table : Table κ α) (pairs : List (κ × α)) (key : κ) :
    (table.insertAll pairs).get? key =
      ((pairs.findRev? fun pair => decide (pair.1 = key)).map Prod.snd).or (table.get? key) := by
  induction pairs generalizing table with
  | nil => rfl
  | cons pair pairs ih =>
    rw [insertAll_cons, ih, get?_insert, List.findRev?]
    cases pairs.findRev? fun pair => decide (pair.1 = key) with
    | some last => rfl
    | none =>
      by_cases this : pair.1 = key
      · simp [this]
      · simp [this, Ne.symm this]

theorem get?_ofList (pairs : List (κ × α)) (key : κ) :
    (ofList pairs).get? key = (pairs.findRev? fun pair => decide (pair.1 = key)).map Prod.snd := by
  rw [ofList_eq_insertAll, get?_insertAll, get?_empty, Option.or_none]

theorem findRev?_append {α : Type} (first second : List α) (test : α → Bool) :
    (first ++ second).findRev? test = (second.findRev? test).or (first.findRev? test) := by
  simp [List.findRev?_eq_find?_reverse, List.find?_append]

theorem findRev?_eq_none_iff {α : Type} {list : List α} {test : α → Bool} :
    list.findRev? test = none ↔ ∀ item ∈ list, ¬ test item = true := by
  simp [List.findRev?_eq_find?_reverse]

end History

section Agreement

omit [DecidableEq κ] in
/-- Tables of one size have the same keys if those of one are among those of the other. -/
theorem perm_keys (size : a.size = b.size) (inside : a.keys ⊆ b.keys) : a.keys.Perm b.keys := by
  refine (List.subperm_of_subset a.distinct inside).perm_of_length_le ?_
  rw [List.length_map, keys, List.length_map]
  exact Nat.le_of_eq size.symm

/-- Tables agree if they give values that are taken for equal for the same keys. -/
theorem agrees_iff [BEq α] : a.agrees b = true ↔
    ∀ key, Option.Rel (fun x y => (x == y) = true) (a.get? key) (b.get? key) := by
  simp only [agrees, Bool.and_eq_true, beq_iff_eq, List.all_eq_true]
  constructor
  · rintro ⟨size, related⟩ key
    have found {key : κ} {value : α} (given : a.get? key = some value) :
        ∃ other, b.get? key = some other ∧ (value == other) = true := by
      have this := related (key, value) (get?_eq_some_iff.mp given)
      cases other : b.get? key with
      | none => simp [other] at this
      | some other' => exact ⟨other', rfl, by simpa [other] using this⟩
    have inside : a.keys ⊆ b.keys := fun key member => by
      obtain ⟨value, given⟩ := mem_keys_iff.mp member
      obtain ⟨other, given', -⟩ := found given
      exact mem_keys_iff.mpr ⟨other, given'⟩
    cases given : a.get? key with
    | some value =>
      obtain ⟨other, given', equal⟩ := found given
      rw [given']
      exact .some equal
    | none =>
      have missing : key ∉ b.keys := by
        rw [← (perm_keys size inside).mem_iff, mem_keys_iff]
        simp [given]
      rw [Option.eq_none_iff_forall_ne_some.mpr fun value given' => missing (mem_keys_iff.mpr ⟨value, given'⟩)]
      exact .none
  · intro related
    have same (key : κ) : key ∈ a.keys ↔ key ∈ b.keys := by
      have this := related key
      rw [mem_keys_iff, mem_keys_iff]
      generalize a.get? key = x, b.get? key = y at this
      cases this <;> simp
    refine ⟨?_, fun entry member => ?_⟩
    · have perm := (List.perm_ext_iff_of_nodup a.distinct b.distinct).mpr same
      simpa [size] using perm.length_eq
    · have this := related entry.1
      rw [get?_of_mem member] at this
      generalize b.get? entry.1 = y at this ⊢
      cases this with
      | some equal => exact equal

theorem agrees_iff_get?_eq [BEq α] [LawfulBEq α] : a.agrees b = true ↔ ∀ key, a.get? key = b.get? key := by
  rw [agrees_iff]
  refine forall_congr' fun key => ?_
  generalize a.get? key = x, b.get? key = y
  constructor
  · rintro (equal | _)
    · rw [eq_of_beq equal]
    · rfl
  · rintro rfl
    cases x with
    | none => exact .none
    | some value => exact .some (beq_self_eq_true value)

end Agreement

/-- Settings of the same keys in the same order undo what was set before them. -/
theorem insertAll_insertAll_of_keys (table : Table κ α) {first second : List (κ × α)}
    (same : first.map Prod.fst = second.map Prod.fst) :
    (table.insertAll first).insertAll second = table.insertAll second := by
  have present : ∀ pair ∈ second, pair.1 ∈ (table.insertAll first).keys := by
    intro pair member
    exact mem_keys_insertAll.mpr (.inr (same ▸ List.mem_map_of_mem member))
  refine ext_get? ?_ fun key _ => ?_
  · rw [keys_insertAll_of_subset present, keys_insertAll, keys_insertAll, same]
  · by_cases set : key ∈ second.map Prod.fst
    · exact get?_insertAll_congr (.inl set)
    · exact get?_insertAll_congr (.inr (get?_insertAll_of_notMem (same ▸ set)))

theorem insertAll_insertAll (table : Table κ α) (pairs : List (κ × α)) :
    (table.insertAll pairs).insertAll pairs = table.insertAll pairs := table.insertAll_insertAll_of_keys rfl

/-- Only the settings of a key matter for what a table gives for it. -/
theorem get?_insertAll_filter (table : Table κ α) (pairs : List (κ × α)) (key : κ) :
    (table.insertAll pairs).get? key = (table.insertAll (pairs.filter fun pair => decide (pair.1 = key))).get? key := by
  suffices general : ∀ a b : Table κ α, a.get? key = b.get? key → (a.insertAll pairs).get? key =
      (b.insertAll (pairs.filter fun pair => decide (pair.1 = key))).get? key from general table table rfl
  intro a b same
  induction pairs generalizing a b with
  | nil => exact same
  | cons pair pairs ih =>
    rw [insertAll_cons]
    by_cases this : pair.1 = key
    · rw [List.filter_cons_of_pos (by simpa using this), insertAll_cons]
      exact ih _ _ (by rw [get?_insert, get?_insert, same])
    · rw [List.filter_cons_of_neg (by simpa using this)]
      exact ih _ _ (by rw [get?_insert, if_neg (Ne.symm this), same])

section MapValues

variable {β : Type} {f : α → β}

def mapValues (table : Table κ α) (f : α → β) : Table κ β where
  entries := table.entries.map fun entry => (entry.1, f entry.2)
  distinct := by
    rw [List.map_map]
    exact table.distinct

omit [DecidableEq κ] in
@[simp] theorem keys_mapValues (table : Table κ α) (f : α → β) : (table.mapValues f).keys = table.keys :=
  List.map_map

theorem putEntry_map (key : κ) (value : α) (entries : List (κ × α)) :
    putEntry key (f value) (entries.map fun entry => (entry.1, f entry.2)) =
      (putEntry key value entries).map fun entry => (entry.1, f entry.2) := by
  induction entries with
  | nil => rfl
  | cons entry entries ih =>
    rw [List.map_cons, putEntry, putEntry, ih]
    split <;> rfl

theorem insert_mapValues (table : Table κ α) (key : κ) (value : α) :
    (table.mapValues f).insert key (f value) = (table.insert key value).mapValues f :=
  ext (putEntry_map key value table.entries)

theorem insertAll_mapValues (table : Table κ α) (pairs : List (κ × α)) :
    (table.mapValues f).insertAll (pairs.map fun pair => (pair.1, f pair.2)) = (table.insertAll pairs).mapValues f := by
  induction pairs generalizing table with
  | nil => rfl
  | cons pair pairs ih => rw [List.map_cons, insertAll_cons, insertAll_cons, insert_mapValues, ih]

@[simp] theorem get?_mapValues (table : Table κ α) (key : κ) :
    (table.mapValues f).get? key = (table.get? key).map f := by
  have found : ∀ entries : List (κ × α),
      (entries.map fun entry => (entry.1, f entry.2)).find? (fun entry => decide (entry.1 = key)) =
        (entries.find? fun entry => decide (entry.1 = key)).map fun entry => (entry.1, f entry.2) := by
    intro entries
    rw [List.find?_map]
    rfl
  rw [get?, mapValues, found, Option.map_map, get?, Option.map_map]
  rfl

end MapValues

end EditorScheme.Table
