import EditorScheme.Proofs.Json.Nesting
import EditorScheme.Proofs.Json.Numerals
import Mathlib.Data.List.Basic

/-!
A nested value is read back from its text, with all its names and strings, whatever characters they are made of, and
the order of its fields. Its numbers are those that their texts are read as.
-/
namespace EditorScheme.Json

section Quoted

variable {c : Char} {rest done : List Char}

theorem unquoteFrom_cons (noQuote : c ≠ '"') (noBackslash : c ≠ '\\') (visible : ¬ c.toNat < 32) :
    unquoteFrom (c :: rest) done = unquoteFrom rest (c :: done) := by
  have plain : ¬ (c.toNat < 32 ∨ c = '\\') := by simp [visible, noBackslash]
  rw [unquoteFrom.eq_def]
  split
  · next same => exact absurd (List.cons.inj same).1 noBackslash
  · next same => exact absurd (List.cons.inj same).1 noBackslash
  · next same => exact absurd (List.cons.inj same).1 noQuote
  · next same =>
    obtain ⟨rfl, rfl⟩ := List.cons.inj same
    exact if_neg plain
  · next same => cases same

/-- The control characters that have no escape of their own. -/
theorem unquoteFrom_codeEscape (rest done : List Char) : ∀ n < 32, unquoteFrom ('\\' :: 'u' :: '0' :: '0' ::
    hexDigit (n / 16) :: hexDigit (n % 16) :: rest) done = unquoteFrom rest (Char.ofNat n :: done) := by
  intro n small
  have code : ∀ n < 32, Text.readNat? 16 ['0', '0', hexDigit (n / 16), hexDigit (n % 16)] = some n := by decide
  have low : isLowSurrogate n = false := by
    simp only [isLowSurrogate, Bool.and_eq_false_iff, decide_eq_false_iff_not]
    omega
  have high : isHighSurrogate n = false := by
    simp only [isHighSurrogate, Bool.and_eq_false_iff, decide_eq_false_iff_not]
    omega
  rw [unquoteFrom, code n small]
  simp [low, high]

theorem unquoteFrom_quoteChar :
    unquoteFrom (quoteChar c ++ rest) done = unquoteFrom rest (c :: done) := by
  unfold quoteChar
  split_ifs with quote backslash
  · rw [quote]; rfl
  · rw [backslash]; rfl
  iterate 5
    · subst c
      rfl
  · next control =>
    have back := unquoteFrom_codeEscape rest done c.toNat control
    rwa [Char.ofNat_toNat] at back
  · next control => exact unquoteFrom_cons quote backslash control

theorem unquoteFrom_flatMap (text : List Char) :
    unquoteFrom (text.flatMap quoteChar ++ '"' :: rest) done =
      some (String.ofList (done.reverse ++ text), rest) := by
  induction text generalizing done with
  | nil => simp [unquoteFrom]
  | cons c text ih =>
    rw [List.flatMap_cons, List.append_assoc, unquoteFrom_quoteChar, ih]
    simp

theorem unquoteFrom_string (text : String) (rest : List Char) :
    unquoteFrom (text.toList.flatMap quoteChar ++ '"' :: rest) [] = some (text, rest) := by
  rw [unquoteFrom_flatMap]
  simp

end Quoted

variable {reader : Reader Value} {g : Value → Value} {depth outer bound : Nat} {space text rest : List Char} {c : Char}

theorem skipSpace_append (blank : ∀ c ∈ space, isSpace c = true) : skipSpace (space ++ text) = skipSpace text :=
  List.dropWhile_append_of_pos blank

theorem skipSpace_cons (visible : isSpace c = false) : skipSpace (c :: text) = c :: text :=
  List.dropWhile_cons_of_neg (by simp [visible])

theorem newLine_blank (depth : Nat) : ∀ c ∈ newLine depth, isSpace c = true := by
  intro c member
  rcases List.mem_cons.mp member with rfl | later
  · rfl
  · cases List.eq_of_mem_replicate later
    rfl

theorem newLine_endsNumber (depth : Nat) (rest : List Char) : EndsNumber (newLine depth ++ rest) := by
  intro c member
  cases Option.mem_some.mp member
  decide

theorem moreItems_endsNumber (depth outer : Nat) (items : List Value) (rest : List Char) :
    EndsNumber (moreItems depth items ++ (newLine outer ++ rest)) := by
  cases items with
  | nil => exact newLine_endsNumber outer rest
  | cons item items =>
    intro c member
    cases Option.mem_some.mp member
    decide

theorem moreFields_endsNumber (depth outer : Nat) (fields : List (String × Value)) (rest : List Char) :
    EndsNumber (moreFields depth fields ++ (newLine outer ++ rest)) := by
  cases fields with
  | nil => exact newLine_endsNumber outer rest
  | cons field fields =>
    intro c member
    cases Option.mem_some.mp member
    decide

/-- From the text of the value the reader gives `g` of it, whatever space stands before the text and whatever
follows. -/
def ReadsBack (reader : Reader Value) (g : Value → Value) (v : Value) : Prop :=
  ∀ space depth rest, (∀ c ∈ space, isSpace c = true) → EndsNumber rest →
    reader (space ++ (v.chars depth ++ rest)) = some (g v, rest)

theorem readMoreItems_moreItems (depth outer : Nat) (rest : List Char) (done : List Value) {items : List Value}
    (back : ∀ item ∈ items, ReadsBack reader g item) (enough : items.length < bound) :
    readMoreItems reader bound done (moreItems depth items ++ (newLine outer ++ ']' :: rest)) =
      some (done.reverse ++ items.map g, rest) := by
  induction items generalizing done bound with
  | nil =>
    obtain ⟨bound, rfl⟩ := Nat.exists_eq_succ_of_ne_zero (Nat.ne_of_gt enough)
    have close : skipSpace (newLine outer ++ ']' :: rest) = ']' :: rest := by
      rw [skipSpace_append (newLine_blank outer), skipSpace_cons (by decide)]
    simp [moreItems, readMoreItems, close]
  | cons item items ih =>
    obtain ⟨bound, rfl⟩ := Nat.exists_eq_succ_of_ne_zero (Nat.ne_of_gt (Nat.zero_lt_of_lt enough))
    have one := back item (by simp) (newLine depth) depth _ (newLine_blank depth)
      (moreItems_endsNumber depth outer items (']' :: rest))
    have others := @ih bound (g item :: done) (fun other member => back other (by simp [member])) (by simpa using enough)
    simp [moreItems, readMoreItems, skipSpace_cons, isSpace, one, others]

theorem readField_chars (depth : Nat) (name : String) {v : Value} (back : ReadsBack reader g v)
    (blank : ∀ c ∈ space, isSpace c = true) (ends : EndsNumber rest) :
    readField reader (space ++ (quote name ++ (':' :: ' ' :: (v.chars depth ++ rest)))) = some ((name, g v), rest) := by
  have one := back [' '] depth rest (by simp [isSpace]) ends
  have string := unquoteFrom_string name (':' :: ' ' :: (v.chars depth ++ rest))
  simp only [List.cons_append, List.nil_append] at one
  simp [readField, quote, skipSpace_append blank, skipSpace_cons, isSpace, string, one]

theorem readMoreFields_moreFields (depth outer : Nat) (rest : List Char) (done : List (String × Value))
    {fields : List (String × Value)}
    (back : ∀ field ∈ fields, ReadsBack reader g field.2) (distinct : ((done ++ fields).map Prod.fst).Nodup)
    (enough : fields.length < bound) :
    readMoreFields reader bound done (moreFields depth fields ++ (newLine outer ++ '\x7d' :: rest)) =
      some (done ++ fields.map fun field => (field.1, g field.2), rest) := by
  induction fields generalizing done bound with
  | nil =>
    obtain ⟨bound, rfl⟩ := Nat.exists_eq_succ_of_ne_zero (Nat.ne_of_gt enough)
    have close : skipSpace (newLine outer ++ '\x7d' :: rest) = '\x7d' :: rest := by
      rw [skipSpace_append (newLine_blank outer), skipSpace_cons (by decide)]
    simp [moreFields, readMoreFields, close]
  | cons field fields ih =>
    obtain ⟨bound, rfl⟩ := Nat.exists_eq_succ_of_ne_zero (Nat.ne_of_gt (Nat.zero_lt_of_lt enough))
    obtain ⟨name, v⟩ := field
    have one := readField_chars depth name (back (name, v) (by simp)) (newLine_blank depth)
      (moreFields_endsNumber depth outer fields ('\x7d' :: rest))
    have fresh : name ∉ done.map Prod.fst := by
      rw [List.map_append, List.map_cons] at distinct
      exact fun old => (List.nodup_append.mp distinct).2.2 _ old _ (by simp) rfl
    have others := @ih bound (done ++ [(name, g v)])
      (fun other member => back other (by simp [member])) (by simpa using distinct) (by simpa using enough)
    simp [moreFields, readMoreFields, skipSpace_cons, isSpace, one, Table.putEntry_of_notMem fresh, others]

theorem length_le_moreItems (depth : Nat) (items : List Value) : items.length ≤ (moreItems depth items).length := by
  induction items with
  | nil => simp
  | cons item items ih =>
    simp [moreItems]
    omega

theorem length_le_moreFields (depth : Nat) (fields : List (String × Value)) :
    fields.length ≤ (moreFields depth fields).length := by
  induction fields with
  | nil => simp
  | cons field fields ih =>
    obtain ⟨name, v⟩ := field
    simp [moreFields]
    omega

theorem readItems_chars (depth outer : Nat) (rest : List Char) {item : Value} {items : List Value}
    (back : ∀ v ∈ item :: items, ReadsBack reader g v)
    (refuses : ∀ text rest, skipSpace text = ']' :: rest → reader text = none) :
    readItems reader (newLine depth ++ (item.chars depth ++ (moreItems depth items ++ (newLine outer ++ ']' :: rest)))) =
      some ((item :: items).map g, rest) := by
  have one := back item (by simp) (newLine depth) depth _ (newLine_blank depth)
    (moreItems_endsNumber depth outer items (']' :: rest))
  have enough : items.length < (moreItems depth items ++ (newLine outer ++ ']' :: rest)).length := by
    have least := length_le_moreItems depth items
    simp
    omega
  have others := readMoreItems_moreItems depth outer rest [g item]
    (fun v member => back v (by simp [member])) enough
  unfold readItems
  split
  · next close => simp [refuses _ _ close] at one
  · simpa [one] using others

theorem readFields_chars (depth outer : Nat) (rest : List Char) {name : String} {v : Value}
    {fields : List (String × Value)} (back : ∀ field ∈ (name, v) :: fields, ReadsBack reader g field.2)
    (distinct : (((name, v) :: fields).map Prod.fst).Nodup) :
    readFields reader (newLine depth ++ (quote name ++ (':' :: ' ' :: (v.chars depth ++
        (moreFields depth fields ++ (newLine outer ++ '\x7d' :: rest)))))) =
      some (((name, v) :: fields).map fun field => (field.1, g field.2), rest) := by
  have one := readField_chars depth name (back (name, v) (by simp)) (newLine_blank depth)
    (moreFields_endsNumber depth outer fields ('\x7d' :: rest))
  have enough : fields.length < (moreFields depth fields ++ (newLine outer ++ '\x7d' :: rest)).length := by
    have least := length_le_moreFields depth fields
    simp
    omega
  have others := readMoreFields_moreFields depth outer rest [(name, g v)]
    (fun field member => back field (by simp [member])) (by simpa using distinct) enough
  have quoted (text : List Char) : skipSpace (newLine depth ++ (quote name ++ text)) = quote name ++ text := by
    rw [skipSpace_append (newLine_blank depth), quote, List.cons_append, List.cons_append, skipSpace_cons (by decide)]
  unfold readFields
  rw [quoted]
  split
  · next close => cases close
  · simpa [one] using others

theorem readValue_append (blank : ∀ c ∈ space, isSpace c = true) :
    readValue depth (space ++ text) = readValue depth text := by
  unfold readValue
  rw [skipSpace_append blank]

theorem readValue_number (start : c = '-' ∨ c.isDigit = true) : readValue depth (c :: text) =
    (NumberText.read? (c :: text)).bind fun (number, rest) => number.value?.bind fun n => some (.number n, rest) := by
  have other {d : Char} (noStart : d ≠ '-' ∧ d.isDigit = false) {rest : List Char} : c :: text ≠ d :: rest := by
    intro same
    obtain ⟨rfl, -⟩ := List.cons.inj same
    simp [noStart] at start
  have visible : isSpace c = false := by
    by_contra blank
    simp only [isSpace, Bool.not_eq_false, Bool.or_eq_true, beq_iff_eq] at blank
    rcases blank with ((rfl | rfl) | rfl) | rfl <;> exact absurd start (by decide)
  unfold readValue
  rw [skipSpace_cons visible]
  split
  · next same => exact absurd same (other (by decide))
  · next same => exact absurd same (other (by decide))
  · next same => exact absurd same (other (by decide))
  · next same => exact absurd same (other (by decide))
  · next same => exact absurd same (other (by decide))
  · next same => exact absurd same (other (by decide))
  · rfl

theorem readValue_refuses (close : skipSpace text = ']' :: rest) : readValue depth text = none := by
  unfold readValue
  rw [close]
  rfl

theorem readValue_string : readValue depth ('"' :: text) =
    (unquoteFrom text []).bind fun (s, rest) => some (.string s, rest) := by
  unfold readValue
  rfl

theorem readValue_array : readValue (depth + 1) ('[' :: text) =
    (readItems (readValue depth) text).bind fun (items, rest) => some (.array items, rest) := by
  conv_lhs => unfold readValue
  rfl

theorem readValue_object : readValue (depth + 1) ('\x7b' :: text) =
    (readFields (readValue depth) text).bind fun (fields, rest) => some (.object fields, rest) := by
  conv_lhs => unfold readValue
  rfl

/-- A nested value is read back from its text if every number of it is read as some number. -/
theorem readsBack_readValue {v : Value} (nested : Nested depth v) (legible : ∀ n ∈ v.numbers, ∃ other, ReadsAs n other) :
    ReadsBack (readValue depth) (Value.mapNumbers reread) v := by
  induction nested with
  | null =>
    intro space outer rest blank ends
    rw [readValue_append blank]
    unfold readValue
    rfl
  | bool b =>
    intro space outer rest blank ends
    rw [readValue_append blank]
    unfold readValue
    cases b <;> rfl
  | number n =>
    intro space outer rest blank ends
    obtain ⟨other, back⟩ := legible n (by simp [Value.numbers])
    obtain ⟨c, digits, start, number⟩ := back.exists_start
    obtain ⟨text, read, value⟩ := back.read? ends
    rw [start] at read
    rw [readValue_append blank, Value.chars, start, List.cons_append, readValue_number number, ← List.cons_append, read]
    simp [value, Value.mapNumbers, back.reread_eq]
  | string s =>
    intro space outer rest blank ends
    rw [readValue_append blank]
    simp [Value.chars, quote, readValue_string, unquoteFrom_string, Value.mapNumbers]
  | @array depth items inside ih =>
    intro space outer rest blank ends
    rw [readValue_append blank]
    rw [Value.numbers, itemNumbers_eq] at legible
    have back : ∀ item ∈ items, ReadsBack (readValue depth) (Value.mapNumbers reread) item := fun item member =>
      ih item member fun n number => legible n (List.mem_flatMap.mpr ⟨item, member, number⟩)
    cases items with
    | nil =>
      unfold readValue
      rfl
    | cons item items =>
      have read := readItems_chars (outer + 1) outer rest back fun _ _ => readValue_refuses
      simp only [Value.chars, List.cons_append, List.append_assoc, List.nil_append, readValue_array]
      rw [read]
      simp [Value.mapNumbers, mapItems_eq]
  | @object depth fields distinct inside ih =>
    intro space outer rest blank ends
    rw [readValue_append blank]
    rw [Value.numbers, fieldNumbers_eq] at legible
    have back : ∀ field ∈ fields, ReadsBack (readValue depth) (Value.mapNumbers reread) field.2 := fun field member =>
      ih field member fun n number => legible n (List.mem_flatMap.mpr ⟨field, member, number⟩)
    cases fields with
    | nil =>
      unfold readValue
      rfl
    | cons field fields =>
      obtain ⟨name, v⟩ := field
      have read := readFields_chars (outer + 1) outer rest back distinct
      simp only [Value.chars, List.cons_append, List.append_assoc, List.nil_append, readValue_object]
      rw [read]
      simp [Value.mapNumbers, mapFields_eq]

/-- The text of a nested value is read as that value, but for its numbers. -/
theorem ofText?_text {v : Value} {after : String} (nested : Nested maximalDepth v)
    (legible : ∀ n ∈ v.numbers, ∃ other, ReadsAs n other) (blank : ∀ c ∈ after.toList, isSpace c = true) :
    Value.ofText? (v.text ++ after) = some (v.mapNumbers reread) := by
  have ends : EndsNumber after.toList := by
    intro c member
    have space := blank c (List.mem_of_mem_head? member)
    simp only [isSpace, Bool.or_eq_true, beq_iff_eq] at space
    rcases space with ((rfl | rfl) | rfl) | rfl <;> decide
  have read := readsBack_readValue nested legible [] 0 after.toList (by simp) ends
  have close : skipSpace after.toList = [] := List.dropWhile_eq_nil_iff.mpr blank
  rw [List.nil_append] at read
  simp [Value.ofText?, Value.text, read, close]

end EditorScheme.Json
