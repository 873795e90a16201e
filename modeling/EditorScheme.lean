import EditorScheme.Main
import EditorScheme.Proofs.Assembly
import EditorScheme.Proofs.Scheme.Reader
import EditorScheme.Proofs.Files.Growth
import EditorScheme.Proofs.Files.Joining
import EditorScheme.Proofs.Files.Writing
import EditorScheme.Proofs.VariantNames
import EditorScheme.Proofs.Build.Outcome
import EditorScheme.Proofs.Build.Outputs
import EditorScheme.Proofs.Build.Success
import EditorScheme.Proofs.Build.Result
import EditorScheme.Proofs.Files.Repetition
import EditorScheme.Proofs.Build.Repetition
import EditorScheme.Proofs.OptionNames
import EditorScheme.Proofs.BlockOrder
import EditorScheme.Proofs.Arrangement
import EditorScheme.Proofs.Number.Range
import EditorScheme.Proofs.Text.Digits
import EditorScheme.Proofs.Yaml.Numerals
import EditorScheme.Proofs.Yaml.Colors
import EditorScheme.Proofs.Yaml.Lines
import EditorScheme.Proofs.Yaml.LineValues
import EditorScheme.Proofs.PaletteColors
import EditorScheme.Proofs.Origins
import EditorScheme.Proofs.Recoloring
import EditorScheme.Proofs.ItalicVariant
import EditorScheme.Proofs.Build.Failure
import EditorScheme.Proofs.Build.MissingEncoding
import EditorScheme.Proofs.Build.BaseTheme
import EditorScheme.Proofs.Build.ThemeFiles
import EditorScheme.Proofs.Build.SchemeReferences
import EditorScheme.Proofs.StyleMap
import EditorScheme.Proofs.ResolvedOptions
import EditorScheme.Proofs.CommandLine
import EditorScheme.Proofs.Xml.Processor
import EditorScheme.Proofs.AssembledScheme
import EditorScheme.Proofs.Palette
import EditorScheme.Proofs.Schema.Violations
import EditorScheme.Proofs.Scheme.Processor
import EditorScheme.Proofs.Retyping
import EditorScheme.Proofs.Scheme.Layout
import EditorScheme.Proofs.Log
import EditorScheme.Proofs.Files.Passing
import EditorScheme.Proofs.Build.Effects
import EditorScheme.Proofs.OptionForm
