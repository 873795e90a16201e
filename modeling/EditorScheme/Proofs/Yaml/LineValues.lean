import EditorScheme.Proofs.Yaml.Lines
import EditorScheme.Yaml.Document

/-!
The value of a document of lines `key: value`: a mapping with an entry for each line.
-/
namespace EditorScheme.Yaml

namespace Line

variable {lines : List Line}

def node (line : Line) : Node × Node :=
  (.scalar .none (String.ofList line.key) true, .scalar .none (String.ofList line.value) true)

/-- What the value of a line stands for, if it stands for anything. -/
def typed (line : Line) : Value := (Value.ofPlain (String.ofList line.value)).toOption.getD .null

theorem readBlockEntries_tokens (handles : Handles) (bound : Nat) (line : Line) (rest : List Token)
    (anchors : List (String × Nat)) :
    readBlockEntries handles (bound + 4) ⟨line.tokens ++ rest, anchors⟩ = (do
      let (entries, input) ← readBlockEntries handles (bound + 3) ⟨rest, anchors⟩
      .ok (line.node :: entries, input)) := by
  rfl

theorem readBlockEntries_lines (handles : Handles) {bound : Nat} (room : lines.length + 3 < bound) :
    readBlockEntries handles bound ⟨lines.flatMap tokens ++ [.blockEnd], []⟩ = .ok (lines.map node, ⟨[], []⟩) := by
  induction lines generalizing bound with
  | nil =>
    obtain ⟨bound, rfl⟩ := Nat.exists_eq_add_of_lt room
    rfl
  | cons line more ih =>
    rw [List.length_cons] at room
    obtain ⟨bound, rfl⟩ : ∃ less, bound = less + 4 := Nat.exists_eq_add_of_le' (by omega)
    rw [List.flatMap_cons, List.append_assoc, readBlockEntries_tokens, ih (by omega)]
    rfl

theorem readNode_blockMapping (handles : Handles) (bound : Nat) (rest : List Token) :
    readNode handles (bound + 1) .block ⟨.blockMappingStart :: rest, []⟩ = (do
      let (entries, input) ← readBlockEntries handles bound ⟨rest, []⟩
      .ok (.mapping .none entries, input)) := by
  rfl

theorem ofTokens?_lines : Node.ofTokens? (.blockMappingStart :: lines.flatMap tokens ++ [.blockEnd]) =
    .ok (some (.mapping .none (lines.map node))) := by
  have length : (lines.flatMap tokens).length = 4 * lines.length := by
    induction lines with
    | nil => rfl
    | cons line more ih =>
      rw [List.flatMap_cons, List.length_append, ih, List.length_cons, tokens]
      simp only [List.length_cons, List.length_nil]
      omega
  have room : lines.length + 3 < 4 * (lines.flatMap tokens ++ [Token.blockEnd]).length + 7 := by
    rw [List.length_append, length]
    omega
  have read := readBlockEntries_lines standardHandles room
  have bound : readBound (.blockMappingStart :: (lines.flatMap tokens ++ [.blockEnd])) =
      4 * (lines.flatMap tokens ++ [Token.blockEnd]).length + 7 + 1 := by
    rw [readBound, List.length_cons]
    omega
  have root : readNode standardHandles (readBound (.blockMappingStart :: (lines.flatMap tokens ++ [.blockEnd])))
      .block ⟨.blockMappingStart :: (lines.flatMap tokens ++ [.blockEnd]), []⟩ =
      .ok (.mapping .none (lines.map node), ⟨[], []⟩) := by
    rw [bound, readNode_blockMapping, read]
    rfl
  rw [List.cons_append]
  simp only [Node.ofTokens?, startsDocument, Bool.false_eq_true, ↓reduceIte, root]
  rfl

variable {count : Nat}

theorem value_scalar (c : Composition) (depth : Nat) (text : String) :
    c.value depth (.scalar .none text true) count = (Value.ofPlain text).map (·, count) := by
  unfold Composition.value
  cases typed : Value.ofPlain text <;>
    simp [Composition.follow, Value.ofScalar, Value.ofUntyped, Properties.none, typed, bind, Except.bind, Except.map]

theorem value_mapping (c : Composition) (depth : Nat) (entries : List (Node × Node)) :
    c.value (depth + 1) (.mapping .none entries) count =
      (Composition.eachEntry (c.value depth) entries [] count).map fun result => (.mapping result.1, result.2) := by
  rw [Composition.value]
  cases read : Composition.eachEntry (c.value depth) entries [] count <;>
    simp [Composition.follow, read, Properties.none, Value.withTag, bind, Except.bind, Except.map]

theorem eachEntry_lines (c : Composition) (depth : Nat) (done : List (Value × Value))
    (keys : ∀ line ∈ lines, Value.ofPlain (String.ofList line.key) = .ok (.string (String.ofList line.key)))
    (values : ∀ line ∈ lines, Value.ofPlain (String.ofList line.value) = .ok line.typed)
    (distinct : (lines.map Line.key).Nodup)
    (fresh : ∀ line ∈ lines, ∀ entry ∈ done, entry.1.same (.string (String.ofList line.key)) = false) :
    Composition.eachEntry (c.value depth) (lines.map node) done count =
      .ok (done ++ lines.map fun line => (.string (String.ofList line.key), line.typed), count) := by
  induction lines generalizing done with
  | nil => simp [Composition.eachEntry]
  | cons line more ih =>
    obtain ⟨key, keys⟩ := List.forall_mem_cons.mp keys
    obtain ⟨value, values⟩ := List.forall_mem_cons.mp values
    obtain ⟨new, fresh⟩ := List.forall_mem_cons.mp fresh
    obtain ⟨apart, distinct⟩ := List.nodup_cons.mp distinct
    have unseen : ¬ done.any (fun entry => entry.1.same (.string (String.ofList line.key))) = true := by
      rw [List.any_eq_true]
      rintro ⟨entry, member, same⟩
      rw [new entry member] at same
      cases same
    have freshBehind : ∀ other ∈ more, ∀ entry ∈ done ++ [(.string (String.ofList line.key), line.typed)],
        entry.1.same (.string (String.ofList other.key)) = false := by
      intro other member entry listed
      rcases List.mem_append.mp listed with before | last
      · exact fresh other member entry before
      · cases List.mem_singleton.mp last
        have differ : String.ofList line.key ≠ String.ofList other.key := fun same =>
          apart (String.ofList_inj.mp same ▸ List.mem_map_of_mem member)
        simp [Value.same, differ]
    have rest := ih _ keys values distinct freshBehind
    simp only [List.map_cons, node, Composition.eachEntry, value_scalar, key, value, Except.map, bind, Except.bind,
      if_neg unseen]
    rw [rest, List.append_assoc]
    rfl

end Line

/-- A text of lines is read as a mapping, if its keys are different strings that are not too long. -/
theorem Value.ofText_join (ending : LineEnd) (closed : Bool) {lines : List Line}
    (words : ∀ line ∈ lines, line.OfWords) (notEmpty : lines ≠ []) (short : ∀ line ∈ lines, line.key.length ≤ 1024)
    (keys : ∀ line ∈ lines, Value.ofPlain (String.ofList line.key) = .ok (.string (String.ofList line.key)))
    (values : ∀ line ∈ lines, Value.ofPlain (String.ofList line.value) = .ok line.typed)
    (distinct : (lines.map Line.key).Nodup) : Value.ofText (String.ofList (Line.join ending closed lines)) =
      .ok (.mapping (lines.map fun line => (.string (String.ofList line.key), line.typed))) := by
  have tokens : Token.ofText (Line.join ending closed lines) = _ := (Line.ofText_join words notEmpty).short short
  have value (c : Composition) : c.value maximalDepth (.mapping .none (lines.map Line.node)) 0 =
      .ok (.mapping (lines.map fun line => (.string (String.ofList line.key), line.typed)), 0) := by
    rw [maximalDepth, Line.value_mapping, Line.eachEntry_lines c 127 [] keys values distinct (by simp)]
    rfl
  simp only [Value.ofText, String.toList_ofList, tokens, Line.ofTokens?_lines, value, bind, Except.bind]

end EditorScheme.Yaml
