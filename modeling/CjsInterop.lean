import CjsInterop.Binary64
import CjsInterop.Builtin
import CjsInterop.Bundle
import CjsInterop.Bundle.Decision
import CjsInterop.Bundle.Render
import CjsInterop.Command
import CjsInterop.Command.Arguments
import CjsInterop.Command.Report
import CjsInterop.Disk
import CjsInterop.Files
import CjsInterop.Glob
import CjsInterop.Import
import CjsInterop.Json
import CjsInterop.Json.Exact
import CjsInterop.Json.Reader
import CjsInterop.Main
import CjsInterop.Manifest
import CjsInterop.Manifest.Nearest
import CjsInterop.Options
import CjsInterop.Options.Describe
import CjsInterop.Options.Reader
import CjsInterop.Package
import CjsInterop.Path
import CjsInterop.Platform
import CjsInterop.Plugin
import CjsInterop.Proofs.ChunkDecision
import CjsInterop.Proofs.DiskSpelling
import CjsInterop.Proofs.ImportSpan
import CjsInterop.Proofs.ItemOrder
import CjsInterop.Proofs.LexerOrder
import CjsInterop.Proofs.NearestManifest
import CjsInterop.Proofs.PathSteps
import CjsInterop.Proofs.Pieces
import CjsInterop.Proofs.ShimValues
import CjsInterop.Proofs.Splicing
import CjsInterop.Proofs.Steady
import CjsInterop.Proofs.SteadyExpressions
import CjsInterop.Proofs.SteadyRules
import CjsInterop.Proofs.SteadyTypes
import CjsInterop.Proofs.VerdictExact
import CjsInterop.Resolution
import CjsInterop.Resolution.Pattern
import CjsInterop.Resolution.Specifier
import CjsInterop.Rewrite.Buffer
import CjsInterop.Rewrite.Chunk
import CjsInterop.Rewrite.Plan
import CjsInterop.Rewrite.SourceMap
import CjsInterop.Surface
import CjsInterop.Syntax.Grammar.Basic
import CjsInterop.Syntax.Grammar.Expression
import CjsInterop.Syntax.Grammar.Function
import CjsInterop.Syntax.Grammar.Markup
import CjsInterop.Syntax.Grammar.Module
import CjsInterop.Syntax.Grammar.Pattern
import CjsInterop.Syntax.Grammar.Statement
import CjsInterop.Syntax.Grammar.Types
import CjsInterop.Syntax.Lexer
import CjsInterop.Syntax.Program
import CjsInterop.Syntax.Token
import CjsInterop.Syntax.Tree
import CjsInterop.Text
import CjsInterop.Text.Identifier
import CjsInterop.Text.IdentifierTable
import CjsInterop.Text.Literal
import CjsInterop.Text.ShapelessTable
import CjsInterop.Verdict
import CjsInterop.Proofs.ExpressionReading
import CjsInterop.Proofs.DeclaredNames
import CjsInterop.Proofs.AlikeTrees
import CjsInterop.Proofs.DefiniteResolution
import CjsInterop.Proofs.DefiniteVerdict
import CjsInterop.Proofs.DefinitionReading
import CjsInterop.Proofs.FileOrder
import CjsInterop.Proofs.ImportNames
import CjsInterop.Proofs.PreamblePlace
import CjsInterop.Proofs.RewrittenProgram
import CjsInterop.Proofs.RewrittenSurface
import CjsInterop.Proofs.FailedFiles
import CjsInterop.Proofs.ImportGrammar
import CjsInterop.Proofs.ImportSpelling
import CjsInterop.Proofs.KeptNames
import CjsInterop.Proofs.EditOrder
import CjsInterop.Proofs.FlagPrecedence
import CjsInterop.Proofs.ReadBack
import CjsInterop.Proofs.SharedInspector
import CjsInterop.Proofs.AcceptedScripts
import CjsInterop.Proofs.ManifestWalk
import CjsInterop.Proofs.SurfaceListing
import CjsInterop.Proofs.MapJson
import CjsInterop.Proofs.MappingText
import CjsInterop.Proofs.MapSegments
import CjsInterop.Proofs.MapAgreement
import CjsInterop.Proofs.ExtensionGlob
import CjsInterop.Proofs.JsonString
import CjsInterop.Proofs.JsonGrammar
import CjsInterop.Proofs.DeclaredType
import CjsInterop.Proofs.LiteralBounds
