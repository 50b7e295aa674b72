import TemplateTree.Binary
import TemplateTree.Command
import TemplateTree.Command.Action
import TemplateTree.Command.Binding
import TemplateTree.Command.Directory
import TemplateTree.Command.Line
import TemplateTree.Command.Path
import TemplateTree.Command.Report
import TemplateTree.Engine.Catalogue
import TemplateTree.Engine.Declared
import TemplateTree.Engine.Draft
import TemplateTree.Engine.Registry
import TemplateTree.Engine.Stage
import TemplateTree.EngineFile
import TemplateTree.Error
import TemplateTree.Expression
import TemplateTree.Json.Fault
import TemplateTree.Json.Reader
import TemplateTree.Json.Scan
import TemplateTree.Json.Value
import TemplateTree.Json.Writer
import TemplateTree.Literal
import TemplateTree.NameMap
import TemplateTree.Number.Decimal
import TemplateTree.Number.Double
import TemplateTree.Number.Layout
import TemplateTree.Options
import TemplateTree.Pass.Basic
import TemplateTree.Pass.ControlFlow
import TemplateTree.Pass.Erase
import TemplateTree.Pass.Flatten
import TemplateTree.Pass.InlineDynamic
import TemplateTree.Pass.MergeStatic
import TemplateTree.Pass.Validate
import TemplateTree.Program.Emitter
import TemplateTree.Program.Generator
import TemplateTree.Program.Piece
import TemplateTree.Proofs.AcceptedBindings
import TemplateTree.Proofs.BinaryFormat
import TemplateTree.Proofs.BlamedNodes
import TemplateTree.Proofs.BoundOptions
import TemplateTree.Proofs.CatalogueStages
import TemplateTree.Proofs.CheckedDecoding
import TemplateTree.Proofs.CommandHistories
import TemplateTree.Proofs.CommandSteps
import TemplateTree.Proofs.CoreClosure
import TemplateTree.Proofs.CoreTrees
import TemplateTree.Proofs.DeclaredEngines
import TemplateTree.Proofs.Depth
import TemplateTree.Proofs.DepthLimits
import TemplateTree.Proofs.Directories
import TemplateTree.Proofs.EmittedPieces
import TemplateTree.Proofs.EngineComposition
import TemplateTree.Proofs.EngineDeclarations
import TemplateTree.Proofs.ErasedTrees
import TemplateTree.Proofs.EscapedTexts
import TemplateTree.Proofs.Except
import TemplateTree.Proofs.Exchange
import TemplateTree.Proofs.FileEnds
import TemplateTree.Proofs.FilterOrder
import TemplateTree.Proofs.FlattenedTrees
import TemplateTree.Proofs.GeneratorAgreement
import TemplateTree.Proofs.GeneratorOptions
import TemplateTree.Proofs.JsonDocuments
import TemplateTree.Proofs.JsonNumbers
import TemplateTree.Proofs.JsonReading
import TemplateTree.Proofs.JsonStrings
import TemplateTree.Proofs.Levels
import TemplateTree.Proofs.LiteralGrammar
import TemplateTree.Proofs.LiteralSources
import TemplateTree.Proofs.LowerableTrees
import TemplateTree.Proofs.Lowering
import TemplateTree.Proofs.MergedOptions
import TemplateTree.Proofs.MergedTrees
import TemplateTree.Proofs.NameMaps
import TemplateTree.Proofs.NormalTrees
import TemplateTree.Proofs.NumberForms
import TemplateTree.Proofs.NumberTokens
import TemplateTree.Proofs.Numeral
import TemplateTree.Proofs.OutputNames
import TemplateTree.Proofs.ProgramMeaning
import TemplateTree.Proofs.ProgramReading
import TemplateTree.Proofs.ReadNumbers
import TemplateTree.Proofs.Rendering
import TemplateTree.Proofs.SavedEngines
import TemplateTree.Proofs.ShortestDecimal
import TemplateTree.Proofs.Simplification
import TemplateTree.Proofs.Statements
import TemplateTree.Proofs.StaticTexts
import TemplateTree.Proofs.StoredLengths
import TemplateTree.Proofs.StructuredPrograms
import TemplateTree.Proofs.TableOrder
import TemplateTree.Proofs.TokenValues
import TemplateTree.Proofs.TomlDocuments
import TemplateTree.Proofs.TomlStrings
import TemplateTree.Proofs.TomlValues
import TemplateTree.Proofs.TreeConversion
import TemplateTree.Proofs.TreeNodes
import TemplateTree.Proofs.Utf8
import TemplateTree.Render
import TemplateTree.Text.Blank
import TemplateTree.Text.Escaped
import TemplateTree.Text.Quoted
import TemplateTree.Text.Split
import TemplateTree.Text.Unprintable
import TemplateTree.Text.Utf8
import TemplateTree.Toml.Document
import TemplateTree.Toml.Reader
import TemplateTree.Toml.Scalars
import TemplateTree.Toml.Strings
import TemplateTree.Toml.Value
import TemplateTree.Toml.Writer
import TemplateTree.Tree
import TemplateTree.Main
