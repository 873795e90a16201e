import EditorScheme.Proofs.Build.Observation
import EditorScheme.Proofs.Files.Writing

/-!
The course of a build, as it is seen from outside. Files are written in the order of the variants, all schemes before
the first theme file. A scheme is announced before it is written, and every file is reported right behind its write; a
build that fails breaks this sequence off, and nothing else. The tree changes by the writes that are seen.
-/
namespace EditorScheme

def Event.writtenFile? : Event → Option (Path × Nat)
  | wroteFile path bytes => some (path, bytes)
  | _ => none

namespace Deed

def isDetail : Deed → Bool
  | wrote .. => false
  | reported event => event.isDetail

def notable (deeds : List Deed) : List Deed := deeds.filter fun deed => !deed.isDetail

theorem notable_append (first second : List Deed) : notable (first ++ second) = notable first ++ notable second :=
  List.filter_append ..

theorem filterMap_write?_notable (deeds : List Deed) :
    (notable deeds).filterMap write? = deeds.filterMap write? := by
  rw [notable, List.filterMap_filter]
  congr 1
  funext deed
  cases deed with
  | wrote path text => rfl
  | reported event => cases detail : event.isDetail <;> simp [isDetail, write?, detail]

theorem filterMap_event?_notable (deeds : List Deed) :
    (notable deeds).filterMap event? = (deeds.filterMap event?).filter fun event => !event.isDetail := by
  rw [notable, List.filterMap_filter, List.filter_filterMap]
  congr 1
  funext deed
  cases deed with
  | wrote path text => rfl
  | reported event => cases detail : event.isDetail <;> simp [isDetail, event?, Option.filter, detail]

theorem mem_filterMap_event? {deeds : List Deed} {event : Event} :
    event ∈ deeds.filterMap event? ↔ .reported event ∈ deeds := by
  rw [List.mem_filterMap]
  constructor
  · rintro ⟨_ | other, member, ⟨⟩⟩
    exact member
  · exact fun member => ⟨_, member, rfl⟩

end Deed

namespace Build

open Deed

variable {α β γ : Type} {config : Config} {path : Variant → Path} {announce : Variant → List Deed}
  {variants others : List Variant} {deeds before : List Deed} {paths : List Path} {e : BuildError}
  {answer : Except BuildError (List Path)}

/-- A step adds to what has been seen, and changes the tree by the writes that it adds and by nothing else. What it adds
apart from details suits its answer. -/
def Does (step : Step Observed α) (suits : Except BuildError α → List Deed → Prop) : Prop :=
  ∀ start, ∃ deeds, (seen step start).2.deeds = start.deeds ++ deeds ∧
    start.files.writeAll (deeds.filterMap Deed.write?) = .ok (seen step start).2.files ∧
    suits (seen step start).1 (notable deeds)

namespace Does

variable {step : Step Observed α} {next : α → Step Observed β} {suitsFirst : Except BuildError α → List Deed → Prop}
  {suits : Except BuildError β → List Deed → Prop}

theorem pure {b : β} (nothing : suits (.ok b) []) : Does (pure b) suits :=
  fun _ => ⟨[], (List.append_nil _).symm, rfl, nothing⟩

theorem throw {e : BuildError} (nothing : suits (.error e) []) : Does (throw e) suits :=
  fun _ => ⟨[], (List.append_nil _).symm, rfl, nothing⟩

/-- The second step adds to what the first one has added; there is none if the first one fails. -/
theorem bind (first : Does step suitsFirst) (fails : ∀ e deeds, suitsFirst (.error e) deeds → suits (.error e) deeds)
    (goesOn : ∀ a before, suitsFirst (.ok a) before →
      Does (next a) fun answer deeds => suits answer (before ++ deeds)) : Does (step >>= next) suits := by
  intro start
  obtain ⟨deeds, added, written, suited⟩ := first start
  rw [seen_bind]
  generalize seen step start = result at added written suited ⊢
  rcases result with ⟨e | a, middle⟩
  · exact ⟨deeds, added, written, fails e _ suited⟩
  · obtain ⟨more, addedMore, writtenMore, suitedMore⟩ := goesOn a _ suited middle
    refine ⟨deeds ++ more, ?_, ?_, ?_⟩
    · rw [addedMore, added, List.append_assoc]
    · rw [List.filterMap_append]
      exact FileTree.writeAll_append_eq_ok_iff.mpr ⟨_, written, writtenMore⟩
    · rw [notable_append]
      exact suitedMore

theorem mono (does : Does step suitsFirst) {suits : Except BuildError α → List Deed → Prop}
    (weaker : ∀ answer deeds, suitsFirst answer deeds → suits answer deeds) : Does step suits := by
  intro start
  obtain ⟨deeds, added, written, suited⟩ := does start
  exact ⟨deeds, added, written, weaker _ _ suited⟩

theorem map {f : α → β} (does : Does step fun answer deeds => suits (answer.map f) deeds) :
    Does (step >>= fun a => Pure.pure (f a)) suits := by
  refine does.bind (fun _ _ suited => suited) fun a before suited => pure ?_
  rw [List.append_nil]
  exact suited

/-- A first step that does nothing of note. -/
theorem behind (first : Does step fun _ deeds => deeds = []) (fails : ∀ e, suits (.error e) [])
    (goesOn : ∀ a, Does (next a) suits) : Does (step >>= next) suits := by
  refine first.bind ?_ ?_
  · rintro e _ rfl
    exact fails e
  · rintro a _ rfl
    exact goesOn a

end Does

theorem does_report (event : Event) :
    Does (report event) fun answer deeds => answer = .ok () ∧ deeds = notable [.reported event] :=
  fun _ => ⟨[.reported event], rfl, rfl, rfl, rfl⟩

theorem does_report_detail {event : Event} (detail : event.isDetail = true) :
    Does (report event) fun _ deeds => deeds = [] := by
  refine (does_report event).mono ?_
  rintro _ _ ⟨-, rfl⟩
  simp [notable, Deed.isDetail, detail]

theorem does_checked (path : Path) (result : Except SchemaError α) :
    Does (checked path result) fun _ deeds => deeds = [] :=
  fun _ => ⟨[], (List.append_nil _).symm, rfl, rfl⟩

theorem does_readDocument (path : Path) : Does (readDocument path) fun _ deeds => deeds = [] :=
  fun _ => ⟨[.reported (.readingDocument path)], rfl, rfl, rfl⟩

/-- A file is reported right behind its write, with the size of what was written. -/
def written (path : Path) (text : String) : List Deed :=
  [.wrote path text, .reported (.wroteFile path text.utf8ByteSize)]

theorem does_writeFile (path : Path) (text : String) : Does (writeFile path text) fun answer deeds =>
    answer = .ok () ∧ deeds = written path text ∨ (∃ e, answer = .error e) ∧ deeds = [] := by
  intro start
  rw [seen_writeFile]
  cases write : start.files.writeText path text with
  | error cause => exact ⟨[], (List.append_nil _).symm, rfl, .inr ⟨⟨_, rfl⟩, rfl⟩⟩
  | ok files =>
    refine ⟨written path text, ?_, ?_, .inl ⟨rfl, rfl⟩⟩
    · exact List.append_assoc ..
    · exact FileTree.writeAll_cons_eq_ok_iff.mpr ⟨files, write, rfl⟩

/-- Files are written for variants, in order. Of each variant `announce` is seen, and then the file at its `path` is
written and reported. Where the sequence breaks off, one more variant may have been announced. -/
inductive InOrder (path : Variant → Path) (announce : Variant → List Deed) (variants : List Variant) :
    Except BuildError (List Path) → List Deed → Prop
  | done (files : List (Variant × String)) (all : files.map Prod.fst = variants) :
      InOrder path announce variants (.ok (variants.map path))
        (files.flatMap fun file => announce file.1 ++ written (path file.1) file.2)
  | stopped (e : BuildError) (files : List (Variant × String)) (failed : Option Variant)
      (part : files.map Prod.fst ++ failed.toList <+: variants) :
      InOrder path announce variants (.error e)
        ((files.flatMap fun file => announce file.1 ++ written (path file.1) file.2) ++ failed.toList.flatMap announce)

namespace InOrder

theorem nothing : InOrder path announce [] (.ok []) [] := .done [] rfl

theorem nothing_of_error (e : BuildError) (variants : List Variant) :
    InOrder path announce variants (.error e) [] :=
  .stopped e [] none (by simp)

theorem one (v : Variant) (text : String) :
    InOrder path announce [v] (.ok [path v]) (announce v ++ written (path v) text) := by
  have whole : InOrder path announce [v] _ _ := .done [(v, text)] rfl
  simpa using whole

theorem announcement (e : BuildError) (v : Variant) : InOrder path announce [v] (.error e) (announce v) := by
  have whole : InOrder path announce [v] (.error e) _ := .stopped e [] (some v) (List.prefix_refl [v])
  simpa using whole

/-- A sequence that breaks off does not know what would follow. -/
theorem extend (stopped : InOrder path announce variants (.error e) deeds) (others : List Variant) :
    InOrder path announce (variants ++ others) (.error e) deeds := by
  cases stopped with
  | stopped _ files failed part => exact .stopped e files failed (part.trans (List.prefix_append ..))

theorem append (first : InOrder path announce variants (.ok paths) before)
    (course : InOrder path announce others answer deeds) :
    InOrder path announce (variants ++ others) (answer.map (paths ++ ·)) (before ++ deeds) := by
  cases first with
  | done files all =>
    subst all
    cases course with
    | done more allMore =>
      subst allMore
      simp only [Except.map, ← List.map_append, ← List.flatMap_append]
      exact .done (files ++ more) rfl
    | stopped e more failed part =>
      rw [Except.map, ← List.append_assoc, ← List.flatMap_append]
      refine .stopped e (files ++ more) failed ?_
      rw [List.map_append, List.append_assoc]
      exact (List.prefix_append_right_inj _).mpr part

end InOrder

theorem does_inOrder_bind {step : Step Observed α} {next : α → Step Observed β} {first : α → List Path}
    {both : β → List Path}
    (here : Does step fun answer deeds => InOrder path announce variants (answer.map first) deeds)
    (there : ∀ a, Does (next a) fun answer deeds =>
      ∃ rest, InOrder path announce others rest deeds ∧ answer.map both = rest.map (first a ++ ·)) :
    Does (step >>= next) fun answer deeds => InOrder path announce (variants ++ others) (answer.map both) deeds := by
  refine here.bind (fun e deeds stopped => stopped.extend others) fun a before done => (there a).mono ?_
  rintro answer deeds ⟨rest, course, both⟩
  rw [both]
  exact done.append course

theorem does_inOrder_mapM {each : α → Step Observed β} {variantsOf : α → List Variant} {pathsOf : β → List Path}
    (pass : ∀ a, Does (each a) fun answer deeds => InOrder path announce (variantsOf a) (answer.map pathsOf) deeds)
    (list : List α) : Does (list.mapM each) fun answer deeds =>
      InOrder path announce (list.flatMap variantsOf) (answer.map (·.flatMap pathsOf)) deeds := by
  induction list with
  | nil => exact .pure .nothing
  | cons a list ih =>
    rw [List.mapM_cons, List.flatMap_cons]
    refine does_inOrder_bind (pass a) fun b => .map (ih.mono fun answer deeds course => ⟨_, course, ?_⟩)
    cases answer <;> rfl

variable (styles : StyleMap) (theme : Theme)

def announced (config : Config) (v : Variant) : List Deed :=
  [.reported (.buildingScheme v (v.displayName config.displayName))]

def themed (config : Config) : List Variant :=
  if config.deriveThemes then config.variants.filter fun v => !v.isBase else []

theorem does_writeFile_behind (v : Variant) (text : String) : Does (do writeFile (path v) text; return path v)
    fun answer deeds => InOrder path announce [v] (answer.map ([·])) (announce v ++ deeds) := by
  refine (does_writeFile (path v) text).bind ?_ ?_
  · rintro e _ (⟨⟨⟩, -⟩ | ⟨-, rfl⟩)
    rw [List.append_nil]
    exact .announcement e v
  · rintro _ _ (⟨-, rfl⟩ | ⟨⟨_, ⟨⟩⟩, -⟩)
    refine .pure ?_
    rw [List.append_nil]
    exact .one v text

theorem does_buildVariant (v : Variant) (palette : Palette) :
    Does (buildVariant config v palette styles theme)
      fun answer deeds => InOrder config.schemePath (announced config) [v] (answer.map ([·])) deeds := by
  refine (does_report _).bind ?_ ?_
  · rintro e _ ⟨⟨⟩, -⟩
  · rintro _ _ ⟨-, rfl⟩
    -- Until the file is written the announcement stands alone.
    have stopped (e : BuildError) :
        InOrder config.schemePath (announced config) [v] (.error e) (announced config v ++ []) := by
      rw [List.append_nil]
      exact .announcement e v
    exact (does_checked _ _).behind stopped fun scheme => (does_report_detail rfl).behind stopped fun _ =>
      does_writeFile_behind v scheme.toXml

theorem does_loadPalette (name : String) : Does (loadPalette config name) fun _ deeds => deeds = [] :=
  (does_readDocument _).behind (fun _ => rfl) fun _ => does_checked _ _

theorem does_buildPalette (name : String) : Does (buildPalette config styles theme name) fun answer deeds =>
    InOrder config.schemePath (announced config) [⟨name, false⟩, ⟨name, true⟩] (answer.map id) deeds := by
  refine (does_loadPalette name).behind (.nothing_of_error · _) fun palette => ?_
  refine does_inOrder_bind (does_buildVariant styles theme _ palette) fun plain => .map ?_
  refine (does_buildVariant styles theme _ palette).mono fun answer deeds course => ⟨_, course, ?_⟩
  cases answer <;> rfl

theorem does_palettes (config : Config) :
    Does (config.palettes.mapM (buildPalette config styles theme)) fun answer deeds =>
      InOrder config.schemePath (announced config) config.variants (answer.map List.flatten) deeds := by
  refine (does_inOrder_mapM (does_buildPalette styles theme) config.palettes).mono fun answer deeds course => ?_
  simp only [List.flatMap_id] at course
  exact course

theorem does_loadThemeJson (config : Config) : Does (loadThemeJson config) fun _ deeds => deeds = [] := by
  refine (does_readDocument _).behind (fun _ => rfl) fun text => ?_
  cases Json.Value.ofText? text with
  | none => exact .throw rfl
  | some value =>
    dsimp only
    cases value.toObject? with
    | none => exact .throw rfl
    | some object => exact .pure rfl

theorem does_writeThemeJson (config : Config) (base : Json.Object) (v : Variant) :
    Does (writeThemeJson config base v)
      fun answer deeds => InOrder config.themeJsonPath (fun _ => []) [v] (answer.map ([·])) deeds :=
  does_writeFile_behind v (themeJson config base v)

theorem does_deriveThemes (config : Config) (variants : List Variant) : Does (deriveThemes config variants)
    fun answer deeds => InOrder config.themeJsonPath (fun _ => []) (variants.filter fun v => !v.isBase) answer deeds := by
  refine (does_loadThemeJson config).behind (.nothing_of_error · _) fun base => ?_
  refine (does_inOrder_mapM (does_writeThemeJson config base) _).mono fun answer deeds course => ?_
  simp only [List.flatMap_singleton'] at course
  cases answer <;> exact course

/-- What is seen of a build apart from details, for each answer. -/
inductive Course (config : Config) : Except BuildError BuildReport → List Deed → Prop
  | finished (report : BuildReport) (schemes themes : List Deed)
      (first : InOrder config.schemePath (announced config) config.variants (.ok report.schemes) schemes)
      (second : InOrder config.themeJsonPath (fun _ => []) (themed config) (.ok report.themes) themes) :
      Course config (.ok report)
        (schemes ++ themes ++ [.reported (.buildFinished report.schemes.length report.themes.length)])
  | stopped (e : BuildError) (schemes : List Deed)
      (first : InOrder config.schemePath (announced config) config.variants (.error e) schemes) :
      Course config (.error e) schemes
  | stoppedBehind (e : BuildError) (paths : List Path) (schemes themes : List Deed)
      (first : InOrder config.schemePath (announced config) config.variants (.ok paths) schemes)
      (second : InOrder config.themeJsonPath (fun _ => []) (themed config) (.error e) themes) :
      Course config (.error e) (schemes ++ themes)

theorem Course.nothing_of_error (config : Config) (e : BuildError) : Course config (.error e) [] :=
  .stopped e [] (.nothing_of_error e _)

theorem does_themes {step : Step Observed (List Path)} {schemes : List Path}
    (themes : Does step (InOrder config.themeJsonPath (fun _ => []) (themed config)))
    (first : InOrder config.schemePath (announced config) config.variants (.ok schemes) before) :
    Does (do
      let themes ← step
      report (.buildFinished schemes.length themes.length)
      return (⟨schemes, themes⟩ : BuildReport)) fun answer deeds => Course config answer (before ++ deeds) := by
  refine themes.bind (fun e deeds stopped => .stoppedBehind e _ _ _ first stopped) fun themes deeds second => ?_
  refine (does_report _).bind (by rintro e _ ⟨⟨⟩, -⟩) ?_
  rintro ⟨⟩ _ ⟨-, rfl⟩
  refine .pure ?_
  rw [← List.append_assoc, List.append_nil]
  exact .finished ⟨schemes, themes⟩ before deeds first second

theorem does_ensureDirectory {next : Unit → Step Observed α} {suits : Except BuildError α → List Deed → Prop}
    (path : Path) (fails : ∀ e, suits (.error e) []) (goesOn : Does (next ()) suits) (start : ObservedFiles) :
    ∃ deeds, (seen (ensureDirectory path >>= next) start).2.deeds = start.deeds ++ deeds ∧
      (start.files.ensureDirectory path).2.writeAll (deeds.filterMap Deed.write?) =
        .ok (seen (ensureDirectory path >>= next) start).2.files ∧
      suits (seen (ensureDirectory path >>= next) start).1 (notable deeds) := by
  rw [seen_bind, seen_ensureDirectory]
  cases (start.files.ensureDirectory path).1 with
  | error e => exact ⟨[], (List.append_nil _).symm, rfl, fails _⟩
  | ok _ => exact goesOn { start with files := (start.files.ensureDirectory path).2 }

/-- A build makes its directory, and then the tree changes by the writes that are seen and by nothing else. -/
theorem exists_deeds_run (config : Config) (start : ObservedFiles) :
    ∃ deeds, (seen (run config) start).2.deeds = start.deeds ++ deeds ∧
      (start.files.ensureDirectory config.output).2.writeAll (deeds.filterMap Deed.write?) =
        .ok (seen (run config) start).2.files ∧
      Course config (seen (run config) start).1 (notable deeds) := by
  refine does_ensureDirectory config.output (Course.nothing_of_error config) ?_ start
  have loaded {α : Type} (path : Path) (parse : String → Except SchemaError α) :
      Does (do checked path (parse (← readDocument path))) fun _ deeds => deeds = [] :=
    (does_readDocument path).behind (fun _ => rfl) fun _ => does_checked _ _
  -- Nothing of note is seen before the first scheme.
  refine (loaded _ _).behind (Course.nothing_of_error config) fun styles => ?_
  refine (loaded _ _).behind (Course.nothing_of_error config) fun theme => ?_
  refine (does_palettes styles theme config).bind (fun e deeds stopped => .stopped e deeds stopped)
    fun schemes before first => ?_
  split
  case isTrue derive =>
    refine does_themes ?_ first
    rw [themed, if_pos derive]
    exact does_deriveThemes config config.variants
  case isFalse underived =>
    refine does_themes ?_ first
    rw [themed, if_neg underived]
    exact .pure .nothing

/-- The reports name the files that are written, in the same order and with their sizes. -/
def InStep (deeds : List Deed) : Prop :=
  (deeds.filterMap event?).filterMap Event.writtenFile? =
    (deeds.filterMap write?).map fun file => (file.1, file.2.utf8ByteSize)

namespace InStep

theorem append {first second : List Deed} (before : InStep first) (behind : InStep second) :
    InStep (first ++ second) := by
  unfold InStep at *
  rw [List.filterMap_append, List.filterMap_append, List.filterMap_append, List.map_append, before, behind]

theorem flatMap {deedsOf : α → List Deed} (each : ∀ a, InStep (deedsOf a)) (list : List α) :
    InStep (list.flatMap deedsOf) := by
  induction list with
  | nil => rfl
  | cons a list ih => exact (each a).append ih

end InStep

theorem InOrder.inStep (course : InOrder path announce variants answer deeds) (each : ∀ v, InStep (announce v)) :
    InStep deeds := by
  have behind (file : Variant × String) : InStep (announce file.1 ++ written (path file.1) file.2) :=
    (each file.1).append rfl
  cases course with
  | done files all => exact .flatMap behind files
  | stopped e files failed part => exact .append (.flatMap behind files) (.flatMap each _)

theorem InOrder.not_mem_of_not_announced (course : InOrder path announce variants answer deeds) {event : Event}
    (unannounced : ∀ v, .reported event ∉ announce v) (unwritten : event.writtenFile? = none) :
    .reported event ∉ deeds := by
  have other (path : Path) (text : String) : event ≠ .wroteFile path text.utf8ByteSize := by
    rintro rfl
    cases unwritten
  cases course with
  | done files all => simp [written, unannounced, other]
  | stopped e files failed part => simp [written, unannounced, other]

namespace Course

variable {result : Except BuildError BuildReport}

theorem inStep (course : Course config result deeds) : InStep deeds := by
  cases course with
  | finished report schemes themes first second =>
    exact .append (.append (first.inStep fun _ => rfl) (second.inStep fun _ => rfl)) rfl
  | stopped e schemes first => exact first.inStep fun _ => rfl
  | stoppedBehind e paths schemes themes first second =>
    exact .append (first.inStep fun _ => rfl) (second.inStep fun _ => rfl)

/-- A build reports its end if it succeeds, and then with the numbers of the files that it names. -/
theorem finished_iff (course : Course config result deeds) (schemes themes : Nat) :
    .reported (.buildFinished schemes themes) ∈ deeds ↔
      ∃ report, result = .ok report ∧ report.schemes.length = schemes ∧ report.themes.length = themes := by
  have unannounced (v : Variant) : .reported (.buildFinished schemes themes) ∉ announced config v := by simp [announced]
  have nothing (v : Variant) : .reported (.buildFinished schemes themes) ∉ (fun _ : Variant => ([] : List Deed)) v :=
    List.not_mem_nil
  cases course with
  | finished report _ _ first second =>
    simp [first.not_mem_of_not_announced unannounced rfl, second.not_mem_of_not_announced nothing rfl, eq_comm]
  | stopped e _ first => simp [first.not_mem_of_not_announced unannounced rfl]
  | stoppedBehind e _ _ _ first second =>
    simp [first.not_mem_of_not_announced unannounced rfl, second.not_mem_of_not_announced nothing rfl]

end Course

end Build

end EditorScheme
