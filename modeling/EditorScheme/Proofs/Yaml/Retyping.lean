import EditorScheme.Proofs.Schema.Shape

/-!
Documents whose scalars are typed in another way: what one of them has as a number or a boolean, the other one may have
as a string of the same text. The keys of mappings stay what they are, since the sections of a document are found by
strings.
-/
namespace EditorScheme.Yaml

/-- Whatever is not the key of a mapping counts as a value. -/
inductive Role
  | key
  | value

namespace Value

mutual

/-- The same tree, but for scalars that are values, of which only the texts stay. -/
inductive Retyped : Role → Value → Value → Prop
  | scalar {a b : Value} {text : String} (first : a.scalarText? = some text) (second : b.scalarText? = some text) :
      Retyped .value a b
  | same (role : Role) (value : Value) : Retyped role value value
  | sequence {role : Role} {as bs : List Value} (items : List.Forall₂ (Retyped .value) as bs) :
      Retyped role (.sequence as) (.sequence bs)
  | mapping {role : Role} {as bs : List (Value × Value)} (entries : List.Forall₂ RetypedEntry as bs) :
      Retyped role (.mapping as) (.mapping bs)
  | tagged {role : Role} (tag : String) {a b : Value} (inner : Retyped role a b) :
      Retyped role (.tagged tag a) (.tagged tag b)

inductive RetypedEntry : Value × Value → Value × Value → Prop
  | intro {k l a b : Value} (key : Retyped .key k l) (value : Retyped .value a b) : RetypedEntry (k, a) (l, b)

end

theorem RetypedEntry.same (entry : Value × Value) : RetypedEntry entry entry :=
  .intro (.same .key entry.1) (.same .value entry.2)

namespace Retyped

variable {role : Role} {a b : Value} {as bs : List (Value × Value)} {name : String}

theorem symm (retyped : Retyped role a b) : Retyped role b a := by
  -- The relation is nested in lists of items and of entries, so each kind of list has a statement of its own.
  refine @Retyped.rec (fun role a b _ => Retyped role b a) (fun a b _ => RetypedEntry b a)
    (fun as bs _ => List.Forall₂ (Retyped .value) bs as) (fun as bs _ => List.Forall₂ RetypedEntry bs as)
    ?scalar ?same ?sequence ?mapping ?tagged ?entry ?noItems ?items ?noEntries ?entries role a b retyped
  case scalar => exact fun first second => .scalar second first
  case same => exact fun role value => .same role value
  case sequence => exact fun _ items => .sequence items
  case mapping => exact fun _ entries => .mapping entries
  case tagged => exact fun tag _ _ _ inner => .tagged tag inner
  case entry => exact fun _ _ key value => .intro key value
  case noItems => exact .nil
  case items => exact fun _ _ item items => .cons item items
  case noEntries => exact .nil
  case entries => exact fun _ _ entry entries => .cons entry entries

theorem scalarText?_eq (retyped : Retyped role a b) : a.scalarText? = b.scalarText? := by
  cases retyped with
  | scalar first second => rw [first, second]
  | _ => rfl

theorem exists_mapping (retyped : Retyped role (.mapping as) b) :
    ∃ bs, b = .mapping bs ∧ List.Forall₂ RetypedEntry as bs := by
  cases retyped with
  | scalar first _ => cases first
  | same => exact ⟨as, rfl, List.forall₂_same.mpr fun entry _ => .same entry⟩
  | mapping entries => exact ⟨_, rfl, entries⟩

theorem exists_isMapping (retyped : Retyped role a b) (mapping : a.IsMapping as) :
    ∃ bs, b.IsMapping bs ∧ List.Forall₂ RetypedEntry as bs := by
  induction mapping generalizing b with
  | plain =>
    obtain ⟨bs, rfl, entries⟩ := retyped.exists_mapping
    exact ⟨bs, .plain, entries⟩
  | @tagged tag value inner ih =>
    cases retyped with
    | scalar first _ => cases first
    | same => exact ⟨as, .tagged tag inner, List.forall₂_same.mpr fun entry _ => .same entry⟩
    | tagged _ retyped =>
      obtain ⟨bs, mapping, entries⟩ := ih retyped
      exact ⟨bs, .tagged tag mapping, entries⟩

theorem key_eq_string_iff (retyped : Retyped .key a b) : a = .string name ↔ b = .string name := by
  cases retyped <;> simp

end Retyped

theorem lookup_cons_of_ne {name : String} {entry : Value × Value} (rest : List (Value × Value))
    (other : entry.1 ≠ .string name) : lookup name (entry :: rest) = lookup name rest := by
  obtain ⟨key, value⟩ := entry
  cases key with
  | string s => exact if_neg fun same => other (congrArg _ same)
  | _ => rfl

theorem RetypedEntry.exists_lookup {as bs : List (Value × Value)} {name : String} {value : Value}
    (entries : List.Forall₂ RetypedEntry as bs) (found : lookup name as = some value) :
    ∃ other, lookup name bs = some other ∧ Retyped .value value other := by
  induction entries with
  | nil => cases found
  | @cons first second as bs entry _ ih =>
    obtain @⟨k, l, a, b, key, retyped⟩ := entry
    -- The key is the name on both sides or on neither.
    by_cases here : k = .string name
    · obtain rfl : l = .string name := key.key_eq_string_iff.mp here
      subst here
      rw [lookup, if_pos rfl, Option.some.injEq] at found
      exact ⟨b, if_pos rfl, found ▸ retyped⟩
    · rw [lookup_cons_of_ne _ here] at found
      rw [lookup_cons_of_ne _ (mt key.key_eq_string_iff.mpr here)]
      exact ih found

mutual

/-- Whether two values are seen to be retyped by going through both of them. -/
def retypes : Role → Value → Value → Bool
  | _, .null, .null => true
  | _, .sequence as, .sequence bs => itemsRetype as bs
  | _, .mapping as, .mapping bs => entriesRetype as bs
  | role, .tagged tag a, .tagged other b => tag == other && retypes role a b
  | .key, .bool a, .bool b => a == b
  | .key, .number a, .number b => decide (a = b)
  | .key, .string a, .string b => a == b
  | .key, _, _ => false
  | .value, a, b => a.scalarText?.isSome && a.scalarText? == b.scalarText?

def itemsRetype : List Value → List Value → Bool
  | [], [] => true
  | a :: as, b :: bs => retypes .value a b && itemsRetype as bs
  | _, _ => false

def entriesRetype : List (Value × Value) → List (Value × Value) → Bool
  | [], [] => true
  | (k, a) :: as, (l, b) :: bs => retypes .key k l && retypes .value a b && entriesRetype as bs
  | _, _ => false

end

theorem retyped_of_retypes : (∀ role a b, retypes role a b = true → Retyped role a b) ∧
    (∀ as bs, entriesRetype as bs = true → List.Forall₂ RetypedEntry as bs) ∧
    ∀ as bs, itemsRetype as bs = true → List.Forall₂ (Retyped .value) as bs := by
  refine retypes.mutual_induct (fun role a b => retypes role a b = true → Retyped role a b)
    (fun as bs => entriesRetype as bs = true → List.Forall₂ RetypedEntry as bs)
    (fun as bs => itemsRetype as bs = true → List.Forall₂ (Retyped .value) as bs)
    ?null ?sequence ?mapping ?tagged ?bool ?number ?string ?otherKey ?scalar ?noItems ?items ?otherItems
    ?noEntries ?entries ?otherEntries
  case null => exact fun role _ => .same role .null
  case sequence => exact fun _ _ _ items seen => .sequence (items seen)
  case mapping => exact fun _ _ _ entries seen => .mapping (entries seen)
  case tagged =>
    intro role tag a other b inner seen
    obtain ⟨rfl, below⟩ : tag = other ∧ retypes role a b = true := by simpa [retypes] using seen
    exact .tagged tag (inner below)
  case bool =>
    intro a b seen
    obtain rfl : a = b := by simpa [retypes] using seen
    exact .same .key (.bool a)
  case number =>
    intro a b seen
    obtain rfl : a = b := by simpa [retypes] using seen
    exact .same .key (.number a)
  case string =>
    intro a b seen
    obtain rfl : a = b := by simpa [retypes] using seen
    exact .same .key (.string a)
  -- Of all other keys the check holds for none.
  case otherKey =>
    intro a b _ _ _ _ _ _ _ seen
    rw [retypes] at seen <;> first | assumption | cases seen
  case scalar =>
    intro a b _ _ _ _ seen
    rw [retypes] at seen <;> try assumption
    obtain ⟨some, same⟩ : a.scalarText?.isSome = true ∧ a.scalarText? = b.scalarText? := by simpa using seen
    obtain ⟨text, first⟩ := Option.isSome_iff_exists.mp some
    exact .scalar first (same ▸ first)
  case noItems => exact fun _ => .nil
  case items =>
    intro a as b bs item items seen
    obtain ⟨here, behind⟩ : retypes .value a b = true ∧ itemsRetype as bs = true := by simpa [itemsRetype] using seen
    exact .cons (item here) (items behind)
  case otherItems =>
    intro as bs _ _ seen
    rw [itemsRetype] at seen <;> first | assumption | cases seen
  case noEntries => exact fun _ => .nil
  case entries =>
    intro k a as l b bs key value entries seen
    obtain ⟨⟨name, here⟩, behind⟩ : (retypes .key k l = true ∧ retypes .value a b = true) ∧
      entriesRetype as bs = true := by simpa [entriesRetype] using seen
    exact .cons (.intro (key name) (value here)) (entries behind)
  case otherEntries =>
    intro as bs _ _ seen
    rw [entriesRetype] at seen <;> first | assumption | cases seen

end Value

end EditorScheme.Yaml
