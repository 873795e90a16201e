import EditorScheme.Yaml.Document

/-!
Keys of mappings. In the value of a YAML text no mapping, however deep it lies, has two keys that are equal as
values. The texts of different keys may still be the same.
-/
namespace EditorScheme.Yaml

namespace Value

/-- No mapping in the value has two equal keys. -/
inductive KeysDiffer : Value → Prop
  | null : KeysDiffer .null
  | bool (b : Bool) : KeysDiffer (.bool b)
  | number (n : Number) : KeysDiffer (.number n)
  | string (s : String) : KeysDiffer (.string s)
  | sequence {items : List Value} (each : ∀ item ∈ items, KeysDiffer item) : KeysDiffer (.sequence items)
  | mapping {entries : List (Value × Value)} (apart : entries.Pairwise fun a b => a.1.same b.1 = false)
      (keys : ∀ entry ∈ entries, KeysDiffer entry.1) (values : ∀ entry ∈ entries, KeysDiffer entry.2) :
      KeysDiffer (.mapping entries)
  | tagged (tag : String) {value : Value} (inner : KeysDiffer value) : KeysDiffer (.tagged tag value)

variable {value : Value} {entries : List (Value × Value)}

theorem KeysDiffer.withTag (differ : value.KeysDiffer) (tag : Option (List UInt8)) :
    (Value.withTag tag value).KeysDiffer := by
  unfold Value.withTag
  split
  · exact .tagged _ differ
  · exact differ

theorem KeysDiffer.lookup {name : String} (values : ∀ entry ∈ entries, entry.2.KeysDiffer)
    (found : Value.lookup name entries = some value) : value.KeysDiffer := by
  fun_induction Value.lookup name entries with
  | case1 => cases found
  | case2 first rest =>
    cases found
    exact values (.string name, value) (by simp)
  | case3 _ first rest _ ih => exact ih (fun entry member => values entry (by simp [member])) found
  | case4 _ rest _ ih => exact ih (fun entry member => values entry (by simp [member])) found

theorem KeysDiffer.entries? (differ : value.KeysDiffer) (found : value.entries? = some entries) :
    entries.Pairwise fun a b => a.1.same b.1 = false := by
  induction differ with
  | mapping apart =>
    cases found
    exact apart
  | tagged tag inner ih => exact ih found
  | _ => cases found

theorem keysDiffer_of_ofPlain {text : String} (ok : ofPlain text = .ok value) : value.KeysDiffer := by
  unfold ofPlain at ok
  by_cases null : text = "" ∨ null? text = true
  · rw [if_pos null] at ok
    cases ok
    exact .null
  rw [if_neg null] at ok
  cases bool : bool? text with
  | some b =>
    simp only [bool] at ok
    cases ok
    exact .bool b
  | none =>
    cases read : readInteger text.toList with
    | fits n =>
      simp only [bool, read] at ok
      cases ok
      exact .number (.integer n)
    | outOfRange => simp [bool, read] at ok
    | notInteger =>
      simp only [bool, read] at ok
      repeat' split at ok
      all_goals cases ok
      all_goals constructor

theorem keysDiffer_of_ofUntyped {text : String} {plain : Bool} (ok : ofUntyped text plain = .ok value) :
    value.KeysDiffer := by
  unfold ofUntyped at ok
  split at ok
  · exact keysDiffer_of_ofPlain ok
  · cases ok
    exact .string text

theorem keysDiffer_of_ofTyped {type : ScalarType} {text : String} (ok : ofTyped type text = .ok value) :
    value.KeysDiffer := by
  unfold ofTyped at ok
  repeat' split at ok
  all_goals cases ok
  all_goals constructor

theorem keysDiffer_of_ofScalar {tag : Option (List UInt8)} {text : String} {plain : Bool}
    (ok : ofScalar tag text plain = .ok value) : value.KeysDiffer := by
  unfold ofScalar at ok
  split at ok
  · exact keysDiffer_of_ofUntyped ok
  · split at ok
    · next name _ =>
      cases untyped : ofUntyped text plain with
      | error e => simp [untyped, Except.map] at ok
      | ok inner =>
        rw [untyped] at ok
        cases ok
        exact .tagged name (keysDiffer_of_ofUntyped untyped)
    · split at ok
      · exact keysDiffer_of_ofTyped ok
      · split at ok
        · exact keysDiffer_of_ofUntyped ok
        · cases ok
          exact .string text

end Value

namespace Composition

open Value

variable {f : Node → Nat → Except Error (Value × Nat)} {count last : Nat}

theorem keysDiffer_of_eachItem (each : ∀ node count value last, f node count = .ok (value, last) → value.KeysDiffer)
    {items : List Node} {values : List Value} (ok : eachItem f items count = .ok (values, last)) :
    ∀ value ∈ values, value.KeysDiffer := by
  induction items generalizing count values with
  | nil =>
    cases ok
    simp
  | cons item items ih =>
    unfold eachItem at ok
    cases first : f item count with
    | error e => simp [first, bind, Except.bind] at ok
    | ok head =>
      obtain ⟨value, between⟩ := head
      simp only [first, bind, Except.bind] at ok
      cases others : eachItem f items between with
      | error e => simp [others] at ok
      | ok tail =>
        simp only [others] at ok
        cases ok
        intro other member
        rcases List.mem_cons.mp member with rfl | later
        · exact each _ _ _ _ first
        · exact ih others other later

/-- Entries are added one by one, each with a key that is not there yet. -/
theorem keysDiffer_of_eachEntry (each : ∀ node count value last, f node count = .ok (value, last) → value.KeysDiffer)
    {entries : List (Node × Node)} {done results : List (Value × Value)} (differ : (Value.mapping done).KeysDiffer)
    (ok : eachEntry f entries done count = .ok (results, last)) : (Value.mapping results).KeysDiffer := by
  induction entries generalizing count done with
  | nil =>
    cases ok
    exact differ
  | cons entry entries ih =>
    unfold eachEntry at ok
    cases first : f entry.1 count with
    | error e => simp [first, bind, Except.bind] at ok
    | ok head =>
      obtain ⟨key, between⟩ := head
      simp only [first, bind, Except.bind] at ok
      by_cases repeated : done.any (fun entry => entry.1.same key) = true
      · simp [repeated] at ok
      rw [if_neg repeated] at ok
      cases second : f entry.2 between with
      | error e => simp [second] at ok
      | ok tail =>
        obtain ⟨value, after⟩ := tail
        simp only [second] at ok
        refine ih ?_ ok
        cases differ with
        | mapping apart keys values =>
          have fresh : ∀ entry ∈ done, entry.1.same key = false := by simpa using repeated
          refine .mapping ?_ ?_ ?_
          · rw [List.pairwise_append]
            refine ⟨apart, by simp, fun earlier member new inside => ?_⟩
            cases List.mem_singleton.mp inside
            exact fresh earlier member
          · intro other member
            rcases List.mem_append.mp member with earlier | new
            · exact keys other earlier
            · cases List.mem_singleton.mp new
              exact each _ _ _ _ first
          · intro other member
            rcases List.mem_append.mp member with earlier | new
            · exact values other earlier
            · cases List.mem_singleton.mp new
              exact each _ _ _ _ second

/-- The value of any node, however deep its collections go and whatever its aliases refer to. -/
theorem keysDiffer_of_value {c : Composition} {depth : Nat} {node : Node} {value : Value}
    (ok : c.value depth node count = .ok (value, last)) : value.KeysDiffer := by
  induction depth using Nat.strongRecOn generalizing node count value last with
  | ind depth ih =>
    unfold Composition.value at ok
    cases followed : c.follow node count with
    | error e => simp [followed, bind, Except.bind] at ok
    | ok target =>
      obtain ⟨target, between⟩ := target
      simp only [followed, bind, Except.bind] at ok
      cases target with
      | scalar properties text plain =>
        cases typed : Value.ofScalar properties.tag text plain with
        | error e => simp [typed] at ok
        | ok scalar =>
          simp only [typed] at ok
          cases ok
          exact keysDiffer_of_ofScalar typed
      | sequence properties items =>
        cases depth with
        | zero => cases ok
        | succ depth =>
          cases each : eachItem (c.value depth) items between with
          | error e => simp [each] at ok
          | ok results =>
            simp only [each] at ok
            cases ok
            refine KeysDiffer.withTag (.sequence ?_) _
            exact keysDiffer_of_eachItem (fun _ _ _ _ inner => ih depth (Nat.lt_succ_self depth) inner) each
      | mapping properties entries =>
        cases depth with
        | zero => cases ok
        | succ depth =>
          cases each : eachEntry (c.value depth) entries [] between with
          | error e => simp [each] at ok
          | ok results =>
            simp only [each] at ok
            cases ok
            have start : (Value.mapping []).KeysDiffer := .mapping .nil (by simp) (by simp)
            refine KeysDiffer.withTag ?_ _
            exact keysDiffer_of_eachEntry (fun _ _ _ _ inner => ih depth (Nat.lt_succ_self depth) inner) start each
      | _ => cases ok

end Composition

/-- No mapping of a YAML text has two equal keys. -/
theorem Value.keysDiffer_of_ofText {text : String} {value : Value} (ok : Value.ofText text = .ok value) :
    value.KeysDiffer := by
  unfold Value.ofText at ok
  cases read : Token.ofText text.toList with
  | error e => simp [read, bind, Except.bind] at ok
  | ok tokens =>
    simp only [read, bind, Except.bind] at ok
    cases parsed : Node.ofTokens? tokens with
    | error e => simp [parsed] at ok
    | ok root =>
      cases root with
      | none =>
        simp only [parsed] at ok
        cases ok
        exact .null
      | some root =>
        simp only [parsed] at ok
        cases composed : (Composition.ofNode root).value maximalDepth root 0 with
        | error e => simp [composed] at ok
        | ok result =>
          simp only [composed] at ok
          cases ok
          exact Composition.keysDiffer_of_value composed

end EditorScheme.Yaml
