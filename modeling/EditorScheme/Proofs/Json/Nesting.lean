import EditorScheme.Json.Text
import EditorScheme.Proofs.Table

/-!
What a JSON value is made of, and what values are read from texts: no deeper than is allowed, with different names
for the fields of an object, and with numbers that were read themselves.
-/
namespace EditorScheme.Json

mutual

def Value.numbers : Value → List Number
  | .number n => [n]
  | .array items => itemNumbers items
  | .object fields => fieldNumbers fields
  | _ => []

def itemNumbers : List Value → List Number
  | [] => []
  | item :: rest => item.numbers ++ itemNumbers rest

def fieldNumbers : List (String × Value) → List Number
  | [] => []
  | (_, value) :: rest => value.numbers ++ fieldNumbers rest

end

mutual

def Value.mapNumbers (f : Number → Number) : Value → Value
  | .number n => .number (f n)
  | .array items => .array (mapItems f items)
  | .object fields => .object (mapFields f fields)
  | value => value

def mapItems (f : Number → Number) : List Value → List Value
  | [] => []
  | item :: rest => item.mapNumbers f :: mapItems f rest

def mapFields (f : Number → Number) : List (String × Value) → List (String × Value)
  | [] => []
  | (name, value) :: rest => (name, value.mapNumbers f) :: mapFields f rest

end

variable {f : Number → Number} {depth : Nat} {text rest : List Char} {reader : Reader Value} {P : Value → Prop}

theorem itemNumbers_eq (items : List Value) : itemNumbers items = items.flatMap Value.numbers := by
  induction items with
  | nil => rfl
  | cons item items ih => rw [itemNumbers, ih, List.flatMap_cons]

theorem fieldNumbers_eq (fields : List (String × Value)) :
    fieldNumbers fields = fields.flatMap fun field => field.2.numbers := by
  induction fields with
  | nil => rfl
  | cons field fields ih => rw [fieldNumbers, ih, List.flatMap_cons]

theorem mapItems_eq (items : List Value) : mapItems f items = items.map (Value.mapNumbers f) := by
  induction items with
  | nil => rfl
  | cons item items ih => rw [mapItems, ih, List.map_cons]

theorem mapFields_eq (fields : List (String × Value)) :
    mapFields f fields = fields.map fun field => (field.1, field.2.mapNumbers f) := by
  induction fields with
  | nil => rfl
  | cons field fields ih => rw [mapFields, ih, List.map_cons]

/-- A value in which arrays and objects are nested at most so deep, and no object has two fields of one name. -/
inductive Nested : Nat → Value → Prop
  | null {depth : Nat} : Nested depth .null
  | bool {depth : Nat} (b : Bool) : Nested depth (.bool b)
  | number {depth : Nat} (n : Number) : Nested depth (.number n)
  | string {depth : Nat} (s : String) : Nested depth (.string s)
  | array {depth : Nat} {items : List Value} (inside : ∀ item ∈ items, Nested depth item) :
    Nested (depth + 1) (.array items)
  | object {depth : Nat} {fields : List (String × Value)} (distinct : (fields.map Prod.fst).Nodup)
    (inside : ∀ field ∈ fields, Nested depth field.2) : Nested (depth + 1) (.object fields)

theorem Nested.mapNumbers_eq {v : Value} (nested : Nested depth v) (same : ∀ n ∈ v.numbers, f n = n) :
    v.mapNumbers f = v := by
  induction nested with
  | null | bool | string => rfl
  | number n => exact congrArg Value.number (same n (by simp [Value.numbers]))
  | @array _ items inside ih =>
    rw [Value.numbers, itemNumbers_eq] at same
    have kept : items.map (Value.mapNumbers f) = items :=
      (List.map_congr_left fun item member => ih item member fun n number =>
        same n (List.mem_flatMap.mpr ⟨item, member, number⟩)).trans (List.map_id items)
    rw [Value.mapNumbers, mapItems_eq, kept]
  | @object _ fields distinct inside ih =>
    rw [Value.numbers, fieldNumbers_eq] at same
    have kept : (fields.map fun field => (field.1, field.2.mapNumbers f)) = fields := by
      refine (List.map_congr_left fun field member => ?_).trans (List.map_id fields)
      rw [ih field member fun n number => same n (List.mem_flatMap.mpr ⟨field, member, number⟩)]
      rfl
    rw [Value.mapNumbers, mapFields_eq, kept]

def Gives (reader : Reader Value) (P : Value → Prop) : Prop :=
  ∀ text v rest, reader text = some (v, rest) → P v

namespace Gives

theorem readMoreItems (gives : Gives reader P) {bound : Nat} {done items : List Value} (before : ∀ v ∈ done, P v)
    (read : readMoreItems reader bound done text = some (items, rest)) : ∀ v ∈ items, P v := by
  induction bound generalizing done text with
  | zero => cases read
  | succ bound ih =>
    unfold Json.readMoreItems at read
    split at read
    · obtain ⟨⟨v, others⟩, one, more⟩ := Option.bind_eq_some_iff.mp read
      exact ih (List.forall_mem_cons.mpr ⟨gives _ _ _ one, before⟩) more
    · cases read
      simpa using before
    · cases read

theorem readItems (gives : Gives reader P) {items : List Value} (read : readItems reader text = some (items, rest)) :
    ∀ v ∈ items, P v := by
  unfold Json.readItems at read
  split at read
  · cases read
    simp
  · obtain ⟨⟨v, others⟩, one, more⟩ := Option.bind_eq_some_iff.mp read
    exact gives.readMoreItems (by simpa using gives _ _ _ one) more

theorem readField (gives : Gives reader P) {field : String × Value}
    (read : readField reader text = some (field, rest)) : P field.2 := by
  unfold Json.readField at read
  split at read
  · obtain ⟨⟨name, others⟩, -, read⟩ := Option.bind_eq_some_iff.mp read
    dsimp only at read
    split at read
    · obtain ⟨⟨v, others⟩, one, done⟩ := Option.bind_eq_some_iff.mp read
      cases done
      exact gives _ _ _ one
    · cases read
  · cases read

theorem readMoreFields (gives : Gives reader P) {bound : Nat} {done fields : List (String × Value)}
    (distinct : (done.map Prod.fst).Nodup) (before : ∀ field ∈ done, P field.2)
    (read : readMoreFields reader bound done text = some (fields, rest)) :
    (fields.map Prod.fst).Nodup ∧ ∀ field ∈ fields, P field.2 := by
  induction bound generalizing done text with
  | zero => cases read
  | succ bound ih =>
    unfold Json.readMoreFields at read
    split at read
    · obtain ⟨⟨field, others⟩, one, more⟩ := Option.bind_eq_some_iff.mp read
      refine ih (nodup_map_fst_putEntry _ _ distinct) (fun other member => ?_) more
      rcases Table.mem_putEntry member with rfl | old
      · exact gives.readField one
      · exact before other old
    · cases read
      exact ⟨distinct, before⟩
    · cases read

theorem readFields (gives : Gives reader P) {fields : List (String × Value)}
    (read : readFields reader text = some (fields, rest)) :
    (fields.map Prod.fst).Nodup ∧ ∀ field ∈ fields, P field.2 := by
  unfold Json.readFields at read
  split at read
  · cases read
    simp
  · obtain ⟨⟨field, others⟩, one, more⟩ := Option.bind_eq_some_iff.mp read
    exact gives.readMoreFields (by simp) (by simpa using gives.readField one) more

end Gives

def IsRead (n : Number) : Prop := ∃ text : NumberText, text.value? = some n

/-- Values from texts are nested and made of numbers from texts. -/
theorem gives_readValue (depth : Nat) :
    Gives (readValue depth) fun v => Nested depth v ∧ ∀ n ∈ v.numbers, IsRead n := by
  induction depth using Nat.strongRecOn with
  | ind depth ih =>
    intro text v rest read
    have none (v : Value) (empty : v.numbers = []) : ∀ n ∈ v.numbers, IsRead n := by simp [empty]
    unfold readValue at read
    split at read
    · cases read
      exact ⟨.null, none _ rfl⟩
    · cases read
      exact ⟨.bool true, none _ rfl⟩
    · cases read
      exact ⟨.bool false, none _ rfl⟩
    · obtain ⟨⟨s, others⟩, -, done⟩ := Option.bind_eq_some_iff.mp read
      cases done
      exact ⟨.string s, none _ rfl⟩
    · split at read
      · cases read
      · next depth =>
        obtain ⟨⟨items, others⟩, inside, done⟩ := Option.bind_eq_some_iff.mp read
        cases done
        have sound := (ih depth (by omega)).readItems inside
        refine ⟨.array fun item member => (sound item member).1, fun n number => ?_⟩
        rw [Value.numbers, itemNumbers_eq] at number
        obtain ⟨item, member, inItem⟩ := List.mem_flatMap.mp number
        exact (sound item member).2 n inItem
    · split at read
      · cases read
      · next depth =>
        obtain ⟨⟨fields, others⟩, inside, done⟩ := Option.bind_eq_some_iff.mp read
        cases done
        obtain ⟨distinct, sound⟩ := (ih depth (by omega)).readFields inside
        refine ⟨.object distinct fun field member => (sound field member).1, fun n number => ?_⟩
        rw [Value.numbers, fieldNumbers_eq] at number
        obtain ⟨field, member, inField⟩ := List.mem_flatMap.mp number
        exact (sound field member).2 n inField
    · obtain ⟨⟨number, others⟩, -, value⟩ := Option.bind_eq_some_iff.mp read
      obtain ⟨n, found, done⟩ := Option.bind_eq_some_iff.mp value
      cases done
      refine ⟨.number n, fun other member => ?_⟩
      cases List.mem_singleton.mp member
      exact ⟨number, found⟩

theorem nested_of_ofText? {text : String} {v : Value} (read : Value.ofText? text = some v) :
    Nested maximalDepth v ∧ ∀ n ∈ v.numbers, IsRead n := by
  obtain ⟨⟨value, rest⟩, found, whole⟩ := Option.bind_eq_some_iff.mp read
  dsimp only at whole
  split at whole
  · cases whole
    exact gives_readValue maximalDepth _ _ _ found
  · cases whole

end EditorScheme.Json
