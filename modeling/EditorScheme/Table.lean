/-!
Tables that keep their keys in the order of first insertion. A key occurs once: inserting a present
key replaces its value in place, inserting a new key appends it.
-/
namespace EditorScheme

variable {κ α : Type} [DecidableEq κ]

/-- The entry list after `key` has been given `value`. -/
def putEntry (key : κ) (value : α) : List (κ × α) → List (κ × α)
  | [] => [(key, value)]
  | entry :: rest =>
    if entry.1 = key then (key, value) :: rest else entry :: putEntry key value rest

theorem map_fst_putEntry (key : κ) (value : α) (entries : List (κ × α)) :
    (putEntry key value entries).map Prod.fst =
      if key ∈ entries.map Prod.fst then entries.map Prod.fst
      else entries.map Prod.fst ++ [key] := by
  induction entries with
  | nil => simp [putEntry]
  | cons entry rest ih =>
    by_cases h : entry.1 = key
    · simp [putEntry, h]
    · have h' : ¬ key = entry.1 := fun e => h e.symm
      simp only [putEntry, h, ↓reduceIte, List.map_cons, ih, List.mem_cons, h', false_or]
      split <;> simp

theorem nodup_map_fst_putEntry (key : κ) (value : α) {entries : List (κ × α)}
    (distinct : (entries.map Prod.fst).Nodup) :
    ((putEntry key value entries).map Prod.fst).Nodup := by
  rw [map_fst_putEntry]
  split
  · exact distinct
  · next fresh =>
    refine List.nodup_append.2 ⟨distinct, by simp, ?_⟩
    intro a ha b hb same
    simp only [List.mem_singleton] at hb
    exact fresh (hb ▸ same ▸ ha)

structure Table (κ α : Type) where
  entries : List (κ × α)
  distinct : (entries.map Prod.fst).Nodup

namespace Table

omit [DecidableEq κ] in
@[ext] theorem ext {a b : Table κ α} (same : a.entries = b.entries) : a = b := by
  cases a; cases b; cases same; rfl

def empty : Table κ α := ⟨[], by simp⟩

instance : Inhabited (Table κ α) := ⟨empty⟩

def insert (table : Table κ α) (key : κ) (value : α) : Table κ α :=
  ⟨putEntry key value table.entries, nodup_map_fst_putEntry key value table.distinct⟩

/-- Inserts the pairs from left to right, so the last value given to a key stays. -/
def ofList (pairs : List (κ × α)) : Table κ α :=
  pairs.foldl (fun table pair => table.insert pair.1 pair.2) empty

def keys (table : Table κ α) : List κ := table.entries.map Prod.fst

def size (table : Table κ α) : Nat := table.entries.length

def isEmpty (table : Table κ α) : Bool := table.entries.isEmpty

def get? (table : Table κ α) (key : κ) : Option α :=
  (table.entries.find? (fun entry => decide (entry.1 = key))).map Prod.snd

def contains (table : Table κ α) (key : κ) : Bool := (table.get? key).isSome

theorem find?_putEntry (key other : κ) (value : α) (entries : List (κ × α)) :
    ((putEntry key value entries).find? (fun entry => decide (entry.1 = other))).map Prod.snd =
      if other = key then some value
      else (entries.find? (fun entry => decide (entry.1 = other))).map Prod.snd := by
  induction entries with
  | nil =>
    by_cases h : other = key
    · simp [putEntry, h]
    · have h' : ¬ key = other := fun e => h e.symm
      simp [putEntry, h, h']
  | cons entry rest ih =>
    by_cases same : entry.1 = key
    · by_cases h : other = key
      · simp [putEntry, same, h]
      · have h' : ¬ key = other := fun e => h e.symm
        simp [putEntry, same, h, h']
    · by_cases found : entry.1 = other
      · have h : ¬ other = key := fun e => same (found.trans e)
        simp [putEntry, found, h]
      · simp [putEntry, same, found, ih]

@[simp] theorem get?_empty (key : κ) : (empty : Table κ α).get? key = none := rfl

@[simp] theorem get?_insert (table : Table κ α) (key other : κ) (value : α) :
    (table.insert key value).get? other = if other = key then some value else table.get? other :=
  find?_putEntry key other value table.entries

def filterKeys (table : Table κ α) (keep : κ → Bool) : Table κ α :=
  ⟨table.entries.filter (fun entry => keep entry.1),
    (List.Sublist.map Prod.fst List.filter_sublist).nodup table.distinct⟩

/-- Whether two tables have the same keys with the same values, in whatever order. -/
def agrees [BEq α] (a b : Table κ α) : Bool :=
  a.size == b.size &&
    a.entries.all fun entry => match b.get? entry.1 with
      | some value => entry.2 == value
      | none => false

end Table

end EditorScheme
