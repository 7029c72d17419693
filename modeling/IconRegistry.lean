import IconRegistry.Command.Add
import IconRegistry.Command.Basic
import IconRegistry.Command.Init
import IconRegistry.Command.List
import IconRegistry.Command.Outcome
import IconRegistry.Command.Remove
import IconRegistry.CommandLine.Arguments
import IconRegistry.CommandLine.Run
import IconRegistry.Component.Annotated
import IconRegistry.Component.CallTree
import IconRegistry.Component.Failure
import IconRegistry.Component.Jsx
import IconRegistry.Component.Name
import IconRegistry.Component.SourceFile
import IconRegistry.Component.Spec
import IconRegistry.Component.StringLiteral
import IconRegistry.Config.Settings
import IconRegistry.Config.Toml.Document
import IconRegistry.Config.Toml.Item
import IconRegistry.Config.Toml.Literal
import IconRegistry.Framework
import IconRegistry.Framework.Catalogue
import IconRegistry.Main
import IconRegistry.Markup.Canonical
import IconRegistry.Markup.Element
import IconRegistry.Markup.Entity
import IconRegistry.Markup.Reader
import IconRegistry.Markup.Tag
import IconRegistry.Path
import IconRegistry.Proofs.Command.Adding
import IconRegistry.Proofs.Command.AddingImports
import IconRegistry.Proofs.Command.AddingIsolates
import IconRegistry.Proofs.Command.AddingKeeps
import IconRegistry.Proofs.Command.AddingRepeats
import IconRegistry.Proofs.Command.Agreement
import IconRegistry.Proofs.Command.Answering
import IconRegistry.Proofs.Command.Batching
import IconRegistry.Proofs.Command.Emptying
import IconRegistry.Proofs.Command.Failing
import IconRegistry.Proofs.Command.Initialising
import IconRegistry.Proofs.Command.KeepingIcons
import IconRegistry.Proofs.Command.Listing
import IconRegistry.Proofs.Command.Removing
import IconRegistry.Proofs.Command.RemovingListed
import IconRegistry.Proofs.Command.RemovingNamed
import IconRegistry.Proofs.Command.Repeating
import IconRegistry.Proofs.Command.RepeatingEntries
import IconRegistry.Proofs.Command.RepeatingFiles
import IconRegistry.Proofs.Command.Running
import IconRegistry.Proofs.Command.ServingEntries
import IconRegistry.Proofs.Command.ServingFiles
import IconRegistry.Proofs.Command.Stepping
import IconRegistry.Proofs.Command.Touching
import IconRegistry.Proofs.Component.Agreeing
import IconRegistry.Proofs.Component.Annotating
import IconRegistry.Proofs.Component.CallReading
import IconRegistry.Proofs.Component.CamelCase
import IconRegistry.Proofs.Component.Derivation
import IconRegistry.Proofs.Component.EmptyRegistry
import IconRegistry.Proofs.Component.Name
import IconRegistry.Proofs.Component.Naming
import IconRegistry.Proofs.Component.ObjectReading
import IconRegistry.Proofs.Component.ReadBack
import IconRegistry.Proofs.Component.ReadableName
import IconRegistry.Proofs.Component.Retagging
import IconRegistry.Proofs.Component.StableName
import IconRegistry.Proofs.Component.Styling
import IconRegistry.Proofs.Component.TextChildren
import IconRegistry.Proofs.Component.Titling
import IconRegistry.Proofs.Markup.Canonical
import IconRegistry.Proofs.Markup.CanonicalTag
import IconRegistry.Proofs.Markup.Counting
import IconRegistry.Proofs.Markup.Decoding
import IconRegistry.Proofs.Markup.Entity
import IconRegistry.Proofs.Markup.Every
import IconRegistry.Proofs.Markup.Failing
import IconRegistry.Proofs.Markup.Keeping
import IconRegistry.Proofs.Markup.Layout
import IconRegistry.Proofs.Markup.Mapping
import IconRegistry.Proofs.Markup.Matching
import IconRegistry.Proofs.Markup.NormalForm
import IconRegistry.Proofs.Markup.Passes
import IconRegistry.Proofs.Markup.Reading
import IconRegistry.Proofs.Markup.RootTag
import IconRegistry.Proofs.Markup.Stripping
import IconRegistry.Proofs.Markup.TagReading
import IconRegistry.Proofs.Markup.Tiling
import IconRegistry.Proofs.Markup.Writing
import IconRegistry.Proofs.Markup.XmlProlog
import IconRegistry.Proofs.Path.Pieces
import IconRegistry.Proofs.Registry.Draining
import IconRegistry.Proofs.Registry.Establishing
import IconRegistry.Proofs.Registry.Grammar
import IconRegistry.Proofs.Registry.Growth
import IconRegistry.Proofs.Registry.Importing
import IconRegistry.Proofs.Registry.Insertion
import IconRegistry.Proofs.Registry.Layout
import IconRegistry.Proofs.Registry.Lines
import IconRegistry.Proofs.Registry.Listing
import IconRegistry.Proofs.Registry.LiteralLayout
import IconRegistry.Proofs.Registry.LiteralReading
import IconRegistry.Proofs.Registry.ModuleImporting
import IconRegistry.Proofs.Registry.ModuleTaking
import IconRegistry.Proofs.Registry.NameOrder
import IconRegistry.Proofs.Registry.NameSorting
import IconRegistry.Proofs.Registry.OutlineLayout
import IconRegistry.Proofs.Registry.Passages
import IconRegistry.Proofs.Registry.Reading
import IconRegistry.Proofs.Registry.Removal
import IconRegistry.Proofs.Registry.Restoring
import IconRegistry.Proofs.Registry.Rewriting
import IconRegistry.Proofs.Registry.SortedLines
import IconRegistry.Proofs.Registry.Splice
import IconRegistry.Proofs.Registry.StatementLines
import IconRegistry.Proofs.Registry.Withdrawal
import IconRegistry.Proofs.Result
import IconRegistry.Proofs.Script.Advancing
import IconRegistry.Proofs.Script.AdvancingExpressions
import IconRegistry.Proofs.Script.AdvancingStatements
import IconRegistry.Proofs.Script.AdvancingTypes
import IconRegistry.Proofs.Script.ArrowFunction
import IconRegistry.Proofs.Script.Cutting
import IconRegistry.Proofs.Script.Denoting
import IconRegistry.Proofs.Script.Element
import IconRegistry.Proofs.Script.Expression
import IconRegistry.Proofs.Script.Gap
import IconRegistry.Proofs.Script.ImportLine
import IconRegistry.Proofs.Script.Meeting
import IconRegistry.Proofs.Script.ModuleReading
import IconRegistry.Proofs.Script.Quoting
import IconRegistry.Proofs.Script.Running
import IconRegistry.Proofs.Script.Tag
import IconRegistry.Proofs.Script.TokenPlaces
import IconRegistry.Proofs.Script.TopLevel
import IconRegistry.Proofs.Script.TypeReference
import IconRegistry.Proofs.Script.Yielding
import IconRegistry.Proofs.Store.Available
import IconRegistry.Proofs.Store.Changing
import IconRegistry.Proofs.Store.Enumerating
import IconRegistry.Proofs.Store.Fetching
import IconRegistry.Proofs.Store.Following
import IconRegistry.Proofs.Store.Holding
import IconRegistry.Proofs.Store.Placing
import IconRegistry.Proofs.Store.Writing
import IconRegistry.Proofs.Text.Counting
import IconRegistry.Proofs.Text.Spacing
import IconRegistry.Proofs.Text.Splitting
import IconRegistry.Proofs.Text.Substitution
import IconRegistry.Proofs.Text.Trim
import IconRegistry.Proofs.Text.UpperCase
import IconRegistry.Registry.Edit
import IconRegistry.Registry.Editor
import IconRegistry.Registry.NameOrder
import IconRegistry.Registry.View
import IconRegistry.Script.Dialect
import IconRegistry.Script.Grammar.Arrow
import IconRegistry.Script.Grammar.Binding
import IconRegistry.Script.Grammar.Class
import IconRegistry.Script.Grammar.Core
import IconRegistry.Script.Grammar.Declaration
import IconRegistry.Script.Grammar.Function
import IconRegistry.Script.Grammar.Jsx
import IconRegistry.Script.Grammar.Modifier
import IconRegistry.Script.Grammar.Module
import IconRegistry.Script.Grammar.Operand
import IconRegistry.Script.Grammar.Operator
import IconRegistry.Script.Grammar.Statement
import IconRegistry.Script.Grammar.Types
import IconRegistry.Script.Lexeme
import IconRegistry.Script.Literal
import IconRegistry.Script.Outline
import IconRegistry.Script.Token
import IconRegistry.Store.Basic
import IconRegistry.Store.ComponentFile
import IconRegistry.Store.FileError
import IconRegistry.Store.IconSource
import IconRegistry.Text.Basic
import IconRegistry.Text.Blank
import IconRegistry.Text.Case
import IconRegistry.Text.CaseTable
import IconRegistry.Text.Ranges
import IconRegistry.Text.Substitution
import IconRegistry.Text.Word
import IconRegistry.Text.WordTable
