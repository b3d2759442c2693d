import EditorTheme.Rational
import EditorTheme.Decimal.Layout
import EditorTheme.Text.Blank
import EditorTheme.Text.LetterCase
import EditorTheme.Text.Printable
import EditorTheme.Text.Quoted
import EditorTheme.Moment
import EditorTheme.Table
import EditorTheme.Value
import EditorTheme.Color
import EditorTheme.Color.Contrast
import EditorTheme.Decimal.Numeral
import EditorTheme.Expression
import EditorTheme.Expression.Grammar
import EditorTheme.Expression.Reading
import EditorTheme.Palette
import EditorTheme.Palette.Order
import EditorTheme.Palette.Resolution
import EditorTheme.Background
import EditorTheme.GlobalColor
import EditorTheme.Json
import EditorTheme.Lua.Colorscheme
import EditorTheme.Theme.Compilation
import EditorTheme.Theme.PaletteJson
import EditorTheme.Theme.Preview
import EditorTheme.Session
import EditorTheme.Toml.Blank
import EditorTheme.Toml.StringLiteral
import EditorTheme.Toml.Content
import EditorTheme.Toml.Document
import EditorTheme.CommandLine.Arguments
import EditorTheme.CommandLine.Export
import EditorTheme.CommandLine.Run
import EditorTheme.Main
import EditorTheme.Proofs.Sequencing
import EditorTheme.Proofs.Table
import EditorTheme.Proofs.Value
import EditorTheme.Proofs.Failure
import EditorTheme.Proofs.Expression.Evaluation
import EditorTheme.Proofs.Palette.Order
import EditorTheme.Proofs.Palette.Solution
import EditorTheme.Proofs.Palette.Texts
import EditorTheme.Proofs.Palette.Outcome
import EditorTheme.Proofs.Palette.Locality
import EditorTheme.Proofs.Palette.Rewriting
import EditorTheme.Proofs.Palette.Aliases
import EditorTheme.Proofs.Decimal.Numeral
import EditorTheme.Proofs.Expression.Grammar
import EditorTheme.Proofs.Expression.Reading
import EditorTheme.Proofs.Expression.References
import EditorTheme.Proofs.Text.Words
import EditorTheme.Proofs.Style
import EditorTheme.Proofs.Highlight
import EditorTheme.Proofs.Color.Hexadecimal
import EditorTheme.Proofs.Lua.Quoted
import EditorTheme.Proofs.Lua.Assignment
import EditorTheme.Proofs.Lua.HighlightLine
import EditorTheme.Proofs.Lua.Module
import EditorTheme.Proofs.Lua.StyleFlags
import EditorTheme.Proofs.Theme.PaletteJson
import EditorTheme.Proofs.Decimal.Layout
import EditorTheme.Proofs.Json.Reading
import EditorTheme.Proofs.Color.Exact
import EditorTheme.Proofs.Color.Rational
import EditorTheme.Proofs.Color.RoundTrip
import EditorTheme.Proofs.Color.Range
import EditorTheme.Proofs.Color.ByteRange
import EditorTheme.Proofs.Color.Contrast
import EditorTheme.Proofs.Color.Adjusting
import EditorTheme.Proofs.Color.Mixing
import EditorTheme.Proofs.Double.Unpacked
import EditorTheme.Proofs.Double.Magnitude
import EditorTheme.Proofs.Double.Order
import EditorTheme.Proofs.Double.Rounding
import EditorTheme.Proofs.Double.Addition
import EditorTheme.Proofs.Color.Denominators
import EditorTheme.Proofs.Double.Channels
import EditorTheme.Proofs.Double.Comparison
import EditorTheme.Proofs.Double.Wrapping
import EditorTheme.Proofs.Double.Division
import EditorTheme.Proofs.Double.Naturals
import EditorTheme.Proofs.Decimal.Places
import EditorTheme.Proofs.Theme.Components
import EditorTheme.Proofs.Theme.Compilation
import EditorTheme.Proofs.Theme.Document
import EditorTheme.Proofs.Theme.Range
import EditorTheme.Proofs.Palette.Shading
import EditorTheme.Proofs.Theme.HighlightLines
import EditorTheme.Proofs.HueTable
import EditorTheme.Proofs.HueTable.Pairs
import EditorTheme.Proofs.Palette.NamedHues
import EditorTheme.Proofs.Raising.Operations
import EditorTheme.Proofs.Raising.Writing
import EditorTheme.Proofs.Raising.Expression
import EditorTheme.Proofs.Raising.Evaluation
import EditorTheme.Proofs.Raising.Resolution
import EditorTheme.Proofs.Raising.Highlight
import EditorTheme.Proofs.Raising.Compilation
import EditorTheme.Proofs.Theme.Failures
import EditorTheme.Proofs.Theme.Depth
import EditorTheme.Proofs.GlobalColor
import EditorTheme.Proofs.Palette.TopologicalOrder
import EditorTheme.Proofs.Palette.DeclarationOrder
import EditorTheme.Proofs.Palette.Cycle
import EditorTheme.Proofs.FilePath
import EditorTheme.Proofs.FileTree
import EditorTheme.Proofs.Lua.Loader
import EditorTheme.Proofs.CommandLine.Actions
import EditorTheme.Proofs.CommandLine.Export
import EditorTheme.Proofs.CommandLine.Run
