import Mathlib.Data.List.Perm.Basic

/-!
Lists that are worked through item by item, where an item may fail. The first failure is the failure of
the whole list.
-/
namespace EditorScheme

variable {ε α β : Type} {f : α → Except ε β}

@[simp] theorem mapError_ok {ε' : Type} (change : ε → ε') (a : α) :
    (Except.ok a : Except ε α).mapError change = .ok a := rfl

@[simp] theorem mapError_error {ε' : Type} (change : ε → ε') (e : ε) :
    (Except.error e : Except ε α).mapError change = .error (change e) := rfl

theorem map_eq_ok_iff {change : α → β} {result : Except ε α} {b : β} :
    result.map change = .ok b ↔ ∃ a, result = .ok a ∧ change a = b := by
  cases result <;> simp [Except.map]

theorem bind_eq_ok_iff {first : Except ε α} {next : α → Except ε β} {b : β} :
    (first >>= next) = .ok b ↔ ∃ a, first = .ok a ∧ next a = .ok b := by
  cases first <;> simp [bind, Except.bind]

theorem eq_ok_of_toOption {result : Except ε α} {a : α} (answer : result.toOption = some a) : result = .ok a := by
  cases result with
  | error e => cases answer
  | ok b => exact congrArg _ (Option.some.inj answer)

theorem mapM_cons_eq_ok_iff {item : α} {list : List α} {results : List β} :
    (item :: list).mapM f = .ok results ↔
      ∃ result rest, f item = .ok result ∧ list.mapM f = .ok rest ∧ results = result :: rest := by
  rw [List.mapM_cons]
  cases first : f item with
  | error e => simp [bind, Except.bind]
  | ok result =>
    cases others : list.mapM f <;> simp [bind, Except.bind, pure, Except.pure, eq_comm]

theorem mapM_cons_eq_error_iff {item : α} {list : List α} {e : ε} :
    (item :: list).mapM f = .error e ↔
      f item = .error e ∨ ∃ result, f item = .ok result ∧ list.mapM f = .error e := by
  rw [List.mapM_cons]
  cases first : f item with
  | error e' => simp [bind, Except.bind]
  | ok result =>
    cases others : list.mapM f <;> simp [bind, Except.bind, pure, Except.pure]

theorem mapM_append_eq_ok_iff {a b : List α} {results : List β} :
    (a ++ b).mapM f = .ok results ↔
      ∃ first rest, a.mapM f = .ok first ∧ b.mapM f = .ok rest ∧ results = first ++ rest := by
  rw [List.mapM_append]
  cases a.mapM f with
  | error e => simp [bind, Except.bind]
  | ok first => cases b.mapM f <;> simp [bind, Except.bind, pure, Except.pure, eq_comm]

/-- A list succeeds with the results of its items, one by one. -/
theorem mapM_eq_ok_iff_forall₂ {list : List α} {results : List β} :
    list.mapM f = .ok results ↔ List.Forall₂ (fun item result => f item = .ok result) list results := by
  constructor
  · intro all
    induction list generalizing results with
    | nil =>
      cases all
      exact .nil
    | cons item list ih =>
      obtain ⟨result, rest, first, others, rfl⟩ := mapM_cons_eq_ok_iff.mp all
      exact .cons first (ih others)
  · intro each
    induction each with
    | nil => rfl
    | cons first _ ih => exact mapM_cons_eq_ok_iff.mpr ⟨_, _, first, ih, rfl⟩

theorem forall₂_of_mapM_eq_ok {list : List α} {results : List β} (all : list.mapM f = .ok results) :
    List.Forall₂ (fun item result => f item = .ok result) list results := mapM_eq_ok_iff_forall₂.mp all

/-- Items in another order give the same results in another order. -/
theorem exists_perm_of_mapM_eq_ok {a b : List α} {results : List β} (perm : a.Perm b)
    (all : a.mapM f = .ok results) : ∃ others, b.mapM f = .ok others ∧ results.Perm others := by
  obtain ⟨others, each, arranged⟩ := List.perm_comp_forall₂ perm.symm (forall₂_of_mapM_eq_ok all)
  exact ⟨others, mapM_eq_ok_iff_forall₂.mpr each, arranged.symm⟩

/-- Items that give the same results one by one give the same results as a list. -/
theorem mapM_eq_ok_of_imp {g : α → Except ε β} {list : List α} {results : List β}
    (all : list.mapM f = .ok results)
    (same : ∀ item ∈ list, ∀ result, f item = .ok result → g item = .ok result) : list.mapM g = .ok results := by
  have inside : List.Forall₂ (fun item result => item ∈ list ∧ f item = .ok result) list results :=
    (List.forall₂_and_left list results).mpr ⟨fun item member => member, forall₂_of_mapM_eq_ok all⟩
  exact mapM_eq_ok_iff_forall₂.mpr (inside.imp fun item result made => same item made.1 result made.2)

theorem mapM_eq_ok_map {g : α → β} {list : List α} (each : ∀ item ∈ list, f item = .ok (g item)) :
    list.mapM f = .ok (list.map g) :=
  mapM_eq_ok_iff_forall₂.mpr (List.forall₂_map_right_iff.mpr (List.forall₂_same.mpr each))

theorem mapM_map_result {γ : Type} (change : β → γ) (list : List α) :
    (list.mapM fun item => (f item).map change) = (list.mapM f).map (List.map change) := by
  induction list with
  | nil => rfl
  | cons item list ih =>
    rw [List.mapM_cons, List.mapM_cons, ih]
    cases f item with
    | error e => rfl
    | ok result => cases list.mapM f <;> rfl

/-- What each result shows of its item, the results show of the list. -/
theorem map_eq_of_mapM_eq_ok {γ : Type} {shown : β → γ} {seen : α → γ} {list : List α} {results : List β}
    (all : list.mapM f = .ok results) (shows : ∀ item result, f item = .ok result → shown result = seen item) :
    results.map shown = list.map seen := by
  rw [eq_comm, ← List.forall₂_eq_eq_eq, List.forall₂_map_left_iff, List.forall₂_map_right_iff]
  exact (forall₂_of_mapM_eq_ok all).imp fun item result ok => (shows item result ok).symm

theorem exists_mem_of_mapM_eq_ok {list : List α} {results : List β} (all : list.mapM f = .ok results)
    {item : α} (member : item ∈ list) : ∃ result ∈ results, f item = .ok result := by
  obtain ⟨length, each⟩ := List.forall₂_iff_get.mp (forall₂_of_mapM_eq_ok all)
  obtain ⟨place, rfl⟩ := List.mem_iff_get.mp member
  exact ⟨results.get ⟨place, Nat.lt_of_lt_of_eq place.isLt length⟩, List.get_mem .., each place _ _⟩

theorem exists_of_mapM_eq_ok {list : List α} {results : List β} (all : list.mapM f = .ok results)
    {item : α} (member : item ∈ list) : ∃ result, f item = .ok result := by
  obtain ⟨result, -, ok⟩ := exists_mem_of_mapM_eq_ok all member
  exact ⟨result, ok⟩

theorem exists_of_mem_results {list : List α} {results : List β} (all : list.mapM f = .ok results) {result : β}
    (member : result ∈ results) : ∃ item ∈ list, f item = .ok result := by
  obtain ⟨length, each⟩ := List.forall₂_iff_get.mp (forall₂_of_mapM_eq_ok all)
  obtain ⟨place, rfl⟩ := List.mem_iff_get.mp member
  exact ⟨list.get ⟨place, Nat.lt_of_lt_of_eq place.isLt length.symm⟩, List.get_mem .., each place _ _⟩

theorem exists_of_mapM_eq_error {list : List α} {e : ε} (failed : list.mapM f = .error e) :
    ∃ item ∈ list, f item = .error e := by
  induction list with
  | nil => simp [pure, Except.pure] at failed
  | cons head list ih =>
    rcases mapM_cons_eq_error_iff.mp failed with first | ⟨_, -, others⟩
    · exact ⟨head, by simp, first⟩
    · obtain ⟨item, member, fault⟩ := ih others
      exact ⟨item, by simp [member], fault⟩

/-- If there is only one way to fail, it does not matter which item is the first to do so. -/
theorem mapM_eq_error_iff_exists {list : List α} {e : ε}
    (only : ∀ item e', f item = .error e' → e' = e) :
    list.mapM f = .error e ↔ ∃ item ∈ list, f item = .error e := by
  refine ⟨exists_of_mapM_eq_error, ?_⟩
  rintro ⟨item, member, fault⟩
  cases all : list.mapM f with
  | error e' =>
    obtain ⟨first, -, fault'⟩ := exists_of_mapM_eq_error all
    rw [only first e' fault']
  | ok results =>
    obtain ⟨result, ok⟩ := exists_of_mapM_eq_ok all member
    simp [fault] at ok

end EditorScheme
