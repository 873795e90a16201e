import EditorScheme.Palette
import EditorScheme.StyleMap
import EditorScheme.Text.Uppercase
import EditorScheme.Theme

/-!
Color schemes as an editor reads them, and how a theme becomes one for a variant. Colors are looked up in the palette;
options that switch a style on become the encoding of their category, in the variants that their condition selects;
bold and italic together have an encoding of their own.
-/
namespace EditorScheme

inductive Selector
  | always
  | theme
deriving DecidableEq, Repr

namespace Selector

def ofText? (text : String) : Option Selector :=
  if text = "always" then some .always
  else if text = "theme" then some .theme
  else none

def applies (selector : Selector) (italic : Bool) : Bool :=
  match selector with
  | .always => true
  | .theme => italic

end Selector

/-- A text that is no selector never applies. -/
def conditionApplies (condition : String) (italic : Bool) : Bool :=
  match Selector.ofText? condition with
  | some selector => selector.applies italic
  | none => false

/-- The options of an attribute with their values, in the order in which they were first set. -/
abbrev ResolvedAttribute := Table String String

namespace Attribute

def foregroundOption : String := "foreground"

/-- Whether the attribute is bold at all and italic in this variant. -/
def isBoldItalic (definition : Attribute) (isItalic : Bool) : Bool :=
  (definition.subOption? bold).isSome &&
    match definition.subOption? italic with
    | some option => conditionApplies option.condition isItalic
    | none => false

def setColors (palette : Palette) (styles : StyleMap) (options : List SubOption)
    (resolved : ResolvedAttribute) : ResolvedAttribute :=
  options.foldl (fun resolved option =>
    match styles.classify option.name with
    | .styleFlag _ => resolved
    | .literalColor => resolved.insert option.name (palette.resolve option.condition)) resolved

/-- Sets the category of an option that switches a style on in this variant. -/
def setFlag (styles : StyleMap) (isItalic : Bool) (resolved : ResolvedAttribute)
    (option : SubOption) : Except SchemaError ResolvedAttribute :=
  match styles.classify option.name with
  | .styleFlag category =>
    if conditionApplies option.condition isItalic then
      (styles.encoding category option.name).map (resolved.insert category)
    else .ok resolved
  | .literalColor => .ok resolved

def resolve (palette : Palette) (styles : StyleMap) (isItalic : Bool) (definition : Attribute) :
    Except SchemaError ResolvedAttribute :=
  match definition with
  | .foreground token => .ok (Table.empty.insert foregroundOption (palette.resolve token))
  | .options list => do
    let resolved ← list.foldlM (setFlag styles isItalic) (setColors palette styles list .empty)
    if definition.isBoldItalic isItalic then
      (styles.boldItalic).map (resolved.insert StyleMap.fontType)
    else .ok resolved

end Attribute

namespace Scheme

structure Entry where
  name : String
  value : String
deriving DecidableEq, Repr

structure Inherited where
  name : String
  base : String
deriving DecidableEq, Repr

structure Block where
  name : String
  options : List Entry
deriving DecidableEq, Repr

def formatVersion : String := "142"

end Scheme

structure Scheme where
  name : String
  parentScheme : String
  version : String
  colors : List Scheme.Entry
  inherited : List Scheme.Inherited
  attributes : List Scheme.Block
deriving DecidableEq, Repr

/-- The name of an option in a scheme: underscores for hyphens, in upper case. -/
def schemeOptionName (name : String) : String :=
  Text.upper (name.map fun c => if c = '-' then '_' else c)

namespace Theme

def block (palette : Palette) (styles : StyleMap) (italic : Bool) (entry : String × Attribute) :
    Except SchemaError Scheme.Block := do
  let resolved ← entry.2.resolve palette styles italic
  .ok ⟨entry.1, resolved.entries.map fun option => ⟨schemeOptionName option.1, option.2⟩⟩

/-- The scheme of one variant. Its attributes are in the order of their names; equal names keep the
order of the theme. -/
def assemble (theme : Theme) (palette : Palette) (styles : StyleMap) (italic : Bool) (name : String) :
    Except SchemaError Scheme := do
  let blocks ← theme.attributes.mapM (block palette styles italic)
  .ok {
    name
    parentScheme := theme.parentScheme
    version := Scheme.formatVersion
    colors := theme.colors.map fun color => ⟨color.1, palette.resolve color.2⟩
    inherited := theme.inheriting.map fun pair => ⟨pair.1, pair.2⟩
    attributes := blocks.mergeSort (fun a b => decide (a.name ≤ b.name)) }

end Theme

end EditorScheme
