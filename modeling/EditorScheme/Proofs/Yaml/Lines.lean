import EditorScheme.Proofs.Yaml.Words

/-!
Documents of lines `key: value`, where keys and values are words. Each line gives a key and a value; the one thing
that can go wrong is a key of more than 1024 characters.
-/
namespace EditorScheme.Yaml

structure Line where
  key : List Char
  value : List Char

namespace Line

structure OfWords (line : Line) : Prop where
  key : IsWord line.key
  value : IsWord line.value

def tokens (line : Line) : List Token :=
  [.key, .scalar (String.ofList line.key) true, .value, .scalar (String.ofList line.value) true]

/-- The text of lines one below the other. The last one ends without a line break unless the text is closed. -/
def join (ending : LineEnd) (closed : Bool) : List Line → List Char
  | [] => []
  | line :: more =>
    line.key ++ ':' :: ' ' ::
      (line.value ++ ((if more.isEmpty && !closed then [] else ending.text) ++ join ending closed more))

/-- What lines give to the lexer: tokens, unless one of the keys is too long. -/
structure Give (lines : List Line) (tokens : List Token) (result : Except Error (List Token)) : Prop where
  short : (∀ line ∈ lines, line.key.length ≤ 1024) → result = .ok tokens
  long : (∃ line ∈ lines, 1024 < line.key.length) → ∃ e, result = .error e

end Line

namespace Lexer

variable {blocks : List Nat} {keyStart later : Option KeyStart} {allowed : Bool} {tokens : List Token}
  {count bound : Nat} {place : Position} {rest : List Char}

theorem closeBlocks_of_le {s : Lexer} {column : Nat} (shallow : ∀ block ∈ s.blocks, block ≤ column) :
    s.closeBlocks column = s := by
  have kept : s.blocks.takeWhile (column < ·) = [] := by
    cases blocks : s.blocks with
    | nil => rfl
    | cons block more =>
      have fits := shallow block (by simp [blocks])
      exact List.takeWhile_cons_of_neg (by simpa using fits)
  unfold closeBlocks
  split
  · rfl
  · simp [kept]

/-- Where nothing is skipped, only the place for a key can have expired. -/
theorem toToken_visible {c : Char} (visible : isBreak c = false) (solid : isBlank c = false) (noMark : c ≠ '\ufeff')
    (noComment : c ≠ '#') (shallow : ∀ block ∈ blocks, block ≤ place.column) :
    toToken ⟨⟨c :: rest, place⟩, blocks, keyStart, [], allowed, tokens, count⟩ =
      (expire place keyStart).map fun live => ⟨⟨c :: rest, place⟩, blocks, live, [], allowed, tokens, count⟩ := by
  simp only [toToken, bracketed, List.isEmpty_nil, Bool.not_true,
    skipFrom_visible rest visible solid noMark noComment]
  cases expired : expire place keyStart with
  | error e => rfl
  | ok live => exact congrArg Except.ok (closeBlocks_of_le shallow)

theorem run_visible {c : Char} (visible : isBreak c = false) (solid : isBlank c = false) (noMark : c ≠ '\ufeff')
    (noComment : c ≠ '#') (shallow : ∀ block ∈ blocks, block ≤ place.column)
    (live : expire place keyStart = .ok later) :
    run (bound + 1) ⟨⟨c :: rest, place⟩, blocks, keyStart, [], allowed, tokens, count⟩ = (do
      let s ← readToken ⟨⟨c :: rest, place⟩, blocks, later, [], allowed, tokens, count⟩ c rest
      run bound s) := by
  rw [run, toToken_visible visible solid noMark noComment shallow, live]
  rfl

theorem run_word {c : Char} (letter : c.isAlphanum = true) (shallow : ∀ block ∈ blocks, block ≤ place.column)
    (live : expire place keyStart = .ok later) :
    run (bound + 1) ⟨⟨c :: rest, place⟩, blocks, keyStart, [], allowed, tokens, count⟩ = (do
      let s ← plainScalar ⟨⟨c :: rest, place⟩, blocks, later, [], allowed, tokens, count⟩
      run bound s) := by
  rw [run_visible (isBreak_of_isAlphanum letter) (isBlank_of_isAlphanum letter)
    (ne_of_isAlphanum letter (by decide)).mp (ne_of_isAlphanum letter (by decide)).mp shallow live,
    readToken_of_isAlphanum _ letter]

def lineBlocks (opened : Bool) : List Nat := if opened then [0] else []

/-- A word at the start of a line may be a key. -/
theorem run_key {opened : Bool} {key : List Char} (word : IsWord key) (start : place.column = 0) :
    run (bound + 1) ⟨⟨key ++ ':' :: ' ' :: rest, place⟩, lineBlocks opened, none, [], true, tokens, count⟩ =
      run bound ⟨⟨':' :: ' ' :: rest, place.along key.length⟩, lineBlocks opened, some ⟨opened, count, place⟩, [],
        false, .scalar (String.ofList key) true :: tokens, count + 1⟩ := by
  have shallow : ∀ block ∈ lineBlocks opened, block ≤ place.column := by
    cases opened <;> simp [lineBlocks]
  have read (indent : Nat) : PlainText.readFrom false indent (key ++ ':' :: ' ' :: rest) place [] .none =
      .ok ⟨key, false, ⟨':' :: ' ' :: rest, place.along key.length⟩⟩ := by
    rw [PlainText.readFrom_word word.alphanum, PlainText.readFrom_colon]
    simp
  obtain ⟨c, letters, rfl⟩ := List.exists_cons_of_ne_nil word.notEmpty
  rw [List.cons_append, run_word (word.alphanum c (by simp)) shallow rfl]
  rw [List.cons_append] at read
  cases opened <;>
    simp [plainScalar, saveKey, dropKey, bracketed, lineBlocks, Cursor.column, start, read, emit, bind, Except.bind]

/-- At the colon behind it a word becomes a key, unless it is too long. -/
theorem run_colon {opened : Bool} {word : Token} {length : Nat} (short : length ≤ 1024) (start : place.column = 0) :
    run (bound + 1) ⟨⟨':' :: ' ' :: rest, place.along length⟩, lineBlocks opened, some ⟨opened, count, place⟩, [],
        false, word :: tokens, count + 1⟩ =
      run bound ⟨⟨' ' :: rest, place.along (length + 1)⟩, [0], none, [], false,
        .value :: word :: .key :: (if opened then tokens else .blockMappingStart :: tokens),
        count + (if opened then 3 else 4)⟩ := by
  have shallow : ∀ block ∈ lineBlocks opened, block ≤ (place.along length).column := by
    cases opened <;> simp [lineBlocks]
  have live : expire (place.along length) (some ⟨opened, count, place⟩) = .ok (some ⟨opened, count, place⟩) := by
    have inTime : KeyStart.isPast ⟨opened, count, place⟩ (place.along length) = false := by
      simp [KeyStart.isPast, Position.along]
      omega
    simp [expire, inTime]
  rw [run_visible (by decide) (by decide) (by decide) (by decide) shallow live, readToken_colon]
  cases opened <;>
    simp [value, bracketed, isDeeper, lineBlocks, start, insertTokens, emitSkip, emit, Cursor.skip, Position.along,
      bind, Except.bind, Nat.add_assoc]

theorem run_colon_of_long (bound : Nat) (opened : Bool) (place : Position) (word : Token) {length : Nat}
    (long : 1024 < length) : ∃ e, run (bound + 1) ⟨⟨':' :: ' ' :: rest, place.along length⟩, lineBlocks opened,
      some ⟨opened, count, place⟩, [], false, word :: tokens, count + 1⟩ = .error e := by
  have past : KeyStart.isPast ⟨opened, count, place⟩ (place.along length) = true := by
    simp [KeyStart.isPast, Position.along]
    omega
  cases opened with
  | true =>
    refine ⟨.unfinishedKey, ?_⟩
    rw [run, toToken_visible (by decide) (by decide) (by decide) (by decide) (by simp [lineBlocks])]
    simp [expire, past, bind, Except.bind, Except.map]
  | false =>
    have live : expire (place.along length) (some ⟨false, count, place⟩) = .ok none := by
      simp [expire, past]
    refine ⟨.misplacedIndicator, ?_⟩
    rw [run_visible (by decide) (by decide) (by decide) (by decide) (by simp [lineBlocks]) live, readToken_colon]
    rfl

theorem run_space :
    run (bound + 1) ⟨⟨' ' :: rest, place⟩, blocks, keyStart, [], allowed, tokens, count⟩ =
      run (bound + 1) ⟨⟨rest, place.along 1⟩, blocks, keyStart, [], allowed, tokens, count⟩ := by
  have same : toToken ⟨⟨' ' :: rest, place⟩, blocks, keyStart, [], allowed, tokens, count⟩ =
      toToken ⟨⟨rest, place.along 1⟩, blocks, keyStart, [], allowed, tokens, count⟩ := by
    simp only [toToken, bracketed, skipFrom_space]
  rw [run, run, same]

def afterValue (ending : LineEnd) (closed : Bool) (more : List Line) : List Char :=
  (if more.isEmpty && !closed then [] else ending.text) ++ Line.join ending closed more

theorem readFrom_afterValue (ending : LineEnd) (closed : Bool) (place : Position) (done : List Char) {indent : Nat}
    {more : List Line} (indented : 0 < indent) (words : ∀ line ∈ more, line.OfWords) : ∃ passed next,
      (more ≠ [] → passed = true ∧ next.column = 0) ∧
      PlainText.readFrom false indent (afterValue ending closed more) place done .none =
        .ok ⟨done.reverse, passed, ⟨Line.join ending closed more, next⟩⟩ := by
  unfold afterValue
  split
  · next last =>
    have empty : more = [] := by
      cases more <;> simp_all
    subst empty
    exact ⟨false, place, by simp, rfl⟩
  · refine ⟨true, place.nextLine ending.size, fun _ => ⟨rfl, rfl⟩, PlainText.readFrom_lineEnd ending indented ?_⟩
    cases more with
    | nil => simp [Line.join]
    | cons line more =>
      have word := (words line (by simp)).key
      obtain ⟨c, letters, shape⟩ := List.exists_cons_of_ne_nil word.notEmpty
      have letter := word.alphanum c (by simp [shape])
      simpa [Line.join, shape] using letter

variable (ending : LineEnd) (closed : Bool) (bound : Nat) (place : Position) (tokens : List Token) (count : Nat)

/-- The value of a line is a scalar that ends with the line. -/
theorem run_value {value : List Char} {more : List Line} (word : IsWord value) (words : ∀ line ∈ more, line.OfWords) :
    ∃ passed next, (more ≠ [] → passed = true ∧ next.column = 0) ∧
      run (bound + 1) ⟨⟨' ' :: (value ++ afterValue ending closed more), place⟩, [0], none, [], false, tokens,
          count⟩ =
        run bound ⟨⟨Line.join ending closed more, next⟩, [0], none, [], passed,
          .scalar (String.ofList value) true :: tokens, count + 1⟩ := by
  obtain ⟨passed, next, start, read⟩ :=
    readFrom_afterValue ending closed ((place.along 1).along value.length) value.reverse Nat.one_pos words
  refine ⟨passed, next, start, ?_⟩
  replace read : PlainText.readFrom false 1 (value ++ afterValue ending closed more) (place.along 1) [] .none =
      .ok ⟨value, passed, ⟨Line.join ending closed more, next⟩⟩ := by
    rw [PlainText.readFrom_word word.alphanum, List.append_nil, read, List.reverse_reverse]
  obtain ⟨c, letters, rfl⟩ := List.exists_cons_of_ne_nil word.notEmpty
  rw [List.cons_append] at read ⊢
  rw [run_space, run_word (word.alphanum c (by simp)) (by simp) rfl]
  simp [plainScalar, saveKey, bracketed, read, emit, bind, Except.bind]

theorem run_end : run (bound + 1) ⟨⟨[], place⟩, [0], none, [], allowed, tokens, count⟩ =
    .ok (tokens.reverse ++ [.blockEnd]) := by
  have moved : toToken ⟨⟨[], place⟩, [0], none, [], allowed, tokens, count⟩ =
      .ok ⟨⟨[], place⟩, [0], none, [], allowed, tokens, count⟩ :=
    congrArg Except.ok (closeBlocks_of_le (by simp))
  rw [run, moved]
  simp [closeAllBlocks, bracketed, dropKey, bind, Except.bind]

theorem run_line (opened : Bool) {line : Line} {more : List Line} (words : ∀ other ∈ line :: more, other.OfWords)
    (short : line.key.length ≤ 1024) (start : place.column = 0) :
    ∃ passed next later, (more ≠ [] → passed = true ∧ next.column = 0) ∧
      run (bound + 3) ⟨⟨Line.join ending closed (line :: more), place⟩, lineBlocks opened, none, [], true, tokens,
          count⟩ =
        run bound ⟨⟨Line.join ending closed more, next⟩, [0], none, [], passed,
          line.tokens.reverse ++ (if opened then tokens else .blockMappingStart :: tokens), later⟩ := by
  obtain ⟨word, words⟩ := List.forall_mem_cons.mp words
  obtain ⟨passed, next, behind, value⟩ := run_value ending closed bound (place.along (line.key.length + 1))
    (.value :: .scalar (String.ofList line.key) true :: .key ::
      (if opened then tokens else .blockMappingStart :: tokens))
    (count + (if opened then 3 else 4)) word.value words
  refine ⟨passed, next, count + (if opened then 3 else 4) + 1, behind, ?_⟩
  calc run (bound + 3) ⟨⟨Line.join ending closed (line :: more), place⟩, lineBlocks opened, none, [], true, tokens,
          count⟩
      _ = run (bound + 2) _ := run_key word.key start
      _ = run (bound + 1) _ := run_colon short start
      _ = _ := value

theorem run_line_of_long (opened : Bool) {line : Line} {more : List Line} (word : line.OfWords)
    (long : 1024 < line.key.length) (start : place.column = 0) :
    ∃ e, run (bound + 3) ⟨⟨Line.join ending closed (line :: more), place⟩, lineBlocks opened, none, [], true, tokens,
      count⟩ = .error e := by
  obtain ⟨e, failed⟩ := run_colon_of_long (bound + 1) opened place (.scalar (String.ofList line.key) true) long
  exact ⟨e, (run_key word.key start).trans failed⟩

/-- The lines of a text give their tokens one after the other, unless one of the keys is too long. -/
theorem run_lines (opened allowed : Bool) {lines : List Line} (words : ∀ line ∈ lines, line.OfWords)
    (steps : 3 * lines.length < bound) (start : lines ≠ [] → allowed = true ∧ place.column = 0)
    (before : lines = [] → opened = true) : Line.Give lines
      ((if opened then tokens else .blockMappingStart :: tokens).reverse ++ lines.flatMap Line.tokens ++ [.blockEnd])
      (run bound ⟨⟨Line.join ending closed lines, place⟩, lineBlocks opened, none, [], allowed, tokens, count⟩) := by
  induction lines generalizing opened bound place allowed tokens count with
  | nil =>
    cases before rfl
    obtain ⟨bound, rfl⟩ := Nat.exists_eq_add_of_lt steps
    refine ⟨fun _ => ?_, by simp⟩
    simpa [Line.join, lineBlocks] using run_end bound place tokens count
  | cons line more ih =>
    obtain ⟨rfl, first⟩ := start (by simp)
    rw [List.length_cons] at steps
    obtain ⟨bound, rfl⟩ : ∃ later, bound = later + 3 := Nat.exists_eq_add_of_le' (by omega)
    have wordsBehind : ∀ other ∈ more, other.OfWords := fun other member => words other (by simp [member])
    rcases Nat.lt_or_ge 1024 line.key.length with long | short
    · refine ⟨fun short => ?_, fun _ =>
        run_line_of_long ending closed bound place tokens count opened (words line (by simp)) long first⟩
      have fits := short line (by simp)
      omega
    · obtain ⟨passed, next, later, behind, step⟩ :=
        run_line ending closed bound place tokens count opened words short first
      have rest := ih bound next (line.tokens.reverse ++ (if opened then tokens else .blockMappingStart :: tokens))
        later true passed wordsBehind (by omega) behind fun _ => rfl
      refine ⟨fun all => ?_, ?_⟩
      · refine step.trans ((rest.short fun other member => all other (by simp [member])).trans ?_)
        simp
      · rintro ⟨other, member, long⟩
        rcases List.mem_cons.mp member with rfl | later
        · omega
        · obtain ⟨e, failed⟩ := rest.long ⟨other, later, long⟩
          exact ⟨e, step.trans failed⟩

end Lexer

namespace Line

variable {ending : LineEnd} {closed : Bool} {lines : List Line}

theorem isAllowed_of_mem_join (words : ∀ line ∈ lines, line.OfWords) :
    ∀ c ∈ join ending closed lines, isAllowed c = true := by
  have breaks : ∀ c ∈ ending.text, isAllowed c = true := by
    cases ending <;> simp [LineEnd.text, isAllowed]
  induction lines with
  | nil => simp [join]
  | cons line more ih =>
    obtain ⟨word, words⟩ := List.forall_mem_cons.mp words
    have afterLine : ∀ c ∈ (if more.isEmpty && !closed then [] else ending.text), isAllowed c = true := by
      split
      · simp
      · exact breaks
    have letters {text : List Char} (word : IsWord text) : ∀ c ∈ text, isAllowed c = true := fun c member =>
      isAllowed_of_isAlphanum (word.alphanum c member)
    have colon : isAllowed ':' = true ∧ isAllowed ' ' = true := by decide
    simp only [join, List.forall_mem_append, List.forall_mem_cons]
    exact ⟨letters word.key, colon.1, colon.2, letters word.value, afterLine, ih words⟩

theorem length_join (words : ∀ line ∈ lines, line.OfWords) :
    3 * lines.length ≤ (join ending closed lines).length := by
  induction lines with
  | nil => simp
  | cons line more ih =>
    obtain ⟨word, words⟩ := List.forall_mem_cons.mp words
    have key := List.length_pos_of_ne_nil word.key.notEmpty
    have behind := ih words
    simp only [join, List.length_cons, List.length_append]
    omega

theorem ofText_join (words : ∀ line ∈ lines, line.OfWords) (notEmpty : lines ≠ []) :
    Give lines (.blockMappingStart :: lines.flatMap tokens ++ [.blockEnd])
      (Token.ofText (join ending closed lines)) := by
  have allowed : (join ending closed lines).all isAllowed = true := List.all_eq_true.mpr (isAllowed_of_mem_join words)
  have long : 3 * lines.length ≤ (join ending closed lines).length := length_join words
  rw [Token.ofText, if_pos allowed]
  exact Lexer.run_lines ending closed _ .start [] 0 false true words (by omega) (fun _ => ⟨rfl, rfl⟩)
    (fun empty => absurd empty notEmpty)

end Line

end EditorScheme.Yaml
