import EditorScheme.Proofs.Origins

/-!
Two palettes for one theme. They give schemes that are alike in everything but the values of colors, and such a
value differs only as the palettes differ in one color token of the theme.
-/
namespace EditorScheme

/-- Two results that are both the same failure, or are both successes with related values. -/
inductive Alongside {ε α β : Type} (related : α → β → Prop) : Except ε α → Except ε β → Prop
  | error (e : ε) : Alongside related (.error e) (.error e)
  | ok {a : α} {b : β} (values : related a b) : Alongside related (.ok a) (.ok b)

namespace Alongside

variable {ε α β γ : Type} {related : α → β → Prop}

theorem map {start : Except ε γ} {f : γ → α} {g : γ → β} (values : ∀ c, start = .ok c → related (f c) (g c)) :
    Alongside related (start.map f) (start.map g) := by
  cases start with
  | error e => exact .error e
  | ok c => exact .ok (values c rfl)

theorem eq {same : α → α → Prop} {first second : Except ε α} (alongside : Alongside same first second)
    (values : ∀ a b, same a b → a = b) : first = second := by
  cases alongside with
  | error e => rfl
  | ok related => rw [values _ _ related]

end Alongside

/-- Both are one text, or what two palettes make of one of the tokens. -/
inductive Recolored (tokens : String → Prop) (p q : Palette) : String → String → Prop
  | same (text : String) : Recolored tokens p q text text
  | token (text : String) (listed : tokens text) : Recolored tokens p q (p.resolve text) (q.resolve text)

variable {tokens : String → Prop} {p q : Palette} {styles : StyleMap} {italic : Bool}

theorem Recolored.eq {a b : String} (recolored : Recolored tokens p q a b)
    (alike : ∀ token, tokens token → p.resolve token = q.resolve token) : a = b := by
  cases recolored with
  | same => rfl
  | token text listed => exact alike text listed

theorem Origin.recolored (origin : Origin) (listed : ∀ text, origin = .token text → tokens text) :
    Recolored tokens p q (origin.value p) (origin.value q) := by
  cases origin with
  | token text => exact .token text (listed text rfl)
  | encoding text => exact .same text

namespace Scheme

def Entry.Recolors (tokens : String → Prop) (p q : Palette) (a b : Entry) : Prop :=
  a.name = b.name ∧ Recolored tokens p q a.value b.value

/-- The schemes have the same shape, and differ at most in the values that two palettes give to tokens. -/
structure Recolors (tokens : String → Prop) (p q : Palette) (a b : Scheme) : Prop where
  name : a.name = b.name
  parentScheme : a.parentScheme = b.parentScheme
  version : a.version = b.version
  colors : List.Forall₂ (Entry.Recolors tokens p q) a.colors b.colors
  inherited : a.inherited = b.inherited
  attributes : List.Forall₂ (fun x y => x.name = y.name ∧ List.Forall₂ (Entry.Recolors tokens p q) x.options y.options)
    a.attributes b.attributes

theorem eq_of_recolors {a b : List Entry} (recolors : List.Forall₂ (Entry.Recolors tokens p q) a b)
    (alike : ∀ token, tokens token → p.resolve token = q.resolve token) : a = b := by
  refine List.forall₂_eq_eq_eq ▸ recolors.imp ?_
  rintro ⟨name, value⟩ ⟨_, other⟩ ⟨rfl, recolored⟩
  have same : value = other := recolored.eq alike
  rw [same]

theorem Recolors.eq {a b : Scheme} (recolors : Recolors tokens p q a b)
    (alike : ∀ token, tokens token → p.resolve token = q.resolve token) : a = b := by
  obtain ⟨name, parentScheme, version, colors, inherited, attributes⟩ := recolors
  have blocks : a.attributes = b.attributes := by
    refine List.forall₂_eq_eq_eq ▸ attributes.imp ?_
    rintro ⟨name, options⟩ ⟨_, others⟩ ⟨rfl, entries⟩
    have same : options = others := eq_of_recolors entries alike
    rw [same]
  cases a
  cases b
  rw [mk.injEq]
  exact ⟨name, parentScheme, version, eq_of_recolors colors alike, inherited, blocks⟩

end Scheme

namespace Theme

/-- The theme uses this text as the name of a color: in its color table or in an attribute. -/
def HasToken (styles : StyleMap) (token : String) (theme : Theme) : Prop :=
  (∃ color ∈ theme.colors, color.2 = token) ∨ ∃ entry ∈ theme.attributes, entry.2.HasToken styles token

theorem hasToken_of_mem_outline {theme : Theme} {outline : List (String × Table String Origin)}
    (made : theme.outline styles italic = .ok outline) {entry : String × Table String Origin} (member : entry ∈ outline)
    {key text : String} (option : (key, Origin.token text) ∈ entry.2.entries) : theme.HasToken styles text := by
  obtain ⟨source, inside, ok⟩ := exists_of_mem_results made member
  obtain ⟨table, origins, rfl⟩ := map_eq_ok_iff.mp ok
  obtain ⟨style, color⟩ := Attribute.origins_get? key origins
  have given := Table.get?_of_mem option
  by_cases sets : source.2.SetsStyle styles italic key
  · obtain ⟨origin, given', _, _, -, rfl⟩ := style sets
    cases given.symm.trans given'
  · obtain ⟨token, same, has⟩ := color sets _ given
    cases same
    exact .inr ⟨source, inside, has⟩

theorem scheme_recolors {theme : Theme} {outline : List (String × Table String Origin)} (name : String)
    (made : theme.outline styles italic = .ok outline) :
    Scheme.Recolors (theme.HasToken styles) p q (theme.scheme p name outline) (theme.scheme q name outline) := by
  refine ⟨rfl, rfl, rfl, ?_, rfl, ?_⟩
  · rw [scheme, scheme, List.forall₂_map_left_iff, List.forall₂_map_right_iff, List.forall₂_same]
    exact fun color member => ⟨rfl, .token color.2 (.inl ⟨color, member, rfl⟩)⟩
  · rw [scheme, scheme, List.forall₂_map_left_iff, List.forall₂_map_right_iff, List.forall₂_same]
    intro entry sorted
    have member : entry ∈ outline := (List.mergeSort_perm outline _).mem_iff.mp sorted
    refine ⟨rfl, ?_⟩
    rw [paint, paint, List.forall₂_map_left_iff, List.forall₂_map_right_iff, List.forall₂_same]
    rintro ⟨key, origin⟩ inside
    refine ⟨rfl, origin.recolored ?_⟩
    rintro text rfl
    exact hasToken_of_mem_outline made member inside

theorem assemble_alongside (theme : Theme) (styles : StyleMap) (italic : Bool) (name : String) (p q : Palette) :
    Alongside (Scheme.Recolors (theme.HasToken styles) p q) (theme.assemble p styles italic name)
      (theme.assemble q styles italic name) := by
  rw [assemble_eq_outline, assemble_eq_outline]
  exact .map fun outline made => scheme_recolors name made

end Theme

theorem Attribute.resolve_style_alongside {definition : Attribute} {key : String} (p q : Palette)
    (style : definition.SetsStyle styles italic key) :
    Alongside (fun a b => ∃ option encoding, styles.encoding key option = .ok encoding ∧
        a.get? key = some encoding ∧ b.get? key = some encoding)
      (definition.resolve p styles italic) (definition.resolve q styles italic) := by
  rw [resolve_eq_origins, resolve_eq_origins]
  refine .map fun table made => ?_
  obtain ⟨origin, given, option, encoding, listed, rfl⟩ := (origins_get? key made).1 style
  refine ⟨option, encoding, listed, ?_, ?_⟩
  · rw [Table.get?_mapValues, given]
    rfl
  · rw [Table.get?_mapValues, given]
    rfl

theorem Palette.resolve_add_of_ne (palette : Palette) {color token : String} (value : String) (other : token ≠ color) :
    (palette.add color value).resolve token = palette.resolve token := by
  simp only [resolve, add, Table.get?_insert, if_neg other]

/-- Whether a theme can be assembled, and everything in its scheme but the values of colors, is the same for all
palettes. Such a value differs only as the palettes differ in one color token of the theme, and what is set as a style
never does. So palettes that make the same of these tokens give the same scheme, whatever else they name. -/
theorem Theme.palette_gives_values_alone (theme : Theme) (styles : StyleMap) (italic : Bool) (name : String)
    (p q : Palette) :
    Alongside (Scheme.Recolors (theme.HasToken styles) p q) (theme.assemble p styles italic name)
      (theme.assemble q styles italic name) ∧
    (∀ definition key, Attribute.SetsStyle styles italic key definition →
      Alongside (fun a b => ∃ option encoding, styles.encoding key option = .ok encoding ∧
          a.get? key = some encoding ∧ b.get? key = some encoding)
        (definition.resolve p styles italic) (definition.resolve q styles italic)) ∧
    ((∀ token, theme.HasToken styles token → p.resolve token = q.resolve token) →
      theme.assemble p styles italic name = theme.assemble q styles italic name) ∧
    ∀ color value, ¬ theme.HasToken styles color →
      theme.assemble (p.add color value) styles italic name = theme.assemble p styles italic name := by
  have alike (p q : Palette) (same : ∀ token, theme.HasToken styles token → p.resolve token = q.resolve token) :
      theme.assemble p styles italic name = theme.assemble q styles italic name :=
    (theme.assemble_alongside styles italic name p q).eq fun _ _ recolors => recolors.eq same
  refine ⟨theme.assemble_alongside styles italic name p q,
    fun definition key style => Attribute.resolve_style_alongside p q style, alike p q, fun color value unused => ?_⟩
  refine alike _ _ fun token has => p.resolve_add_of_ne value ?_
  rintro rfl
  exact unused has

end EditorScheme
