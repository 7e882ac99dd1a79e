import Rebrace.Block
import Rebrace.Buffer
import Rebrace.CommandLine.Arguments
import Rebrace.CommandLine.Directory
import Rebrace.CommandLine.Session
import Rebrace.CommandLine.System
import Rebrace.DocComment
import Rebrace.Error
import Rebrace.Header.ClassHeader
import Rebrace.Header.Clause
import Rebrace.Header.Param
import Rebrace.Header.Signature
import Rebrace.Keyword
import Rebrace.Line.Comment
import Rebrace.Line.Equality
import Rebrace.Line.Identifier
import Rebrace.Line.Indentation
import Rebrace.Log
import Rebrace.Main
import Rebrace.Pass.Clauses
import Rebrace.Pass.Declarations
import Rebrace.Pass.Outcome
import Rebrace.Pass.Pipeline
import Rebrace.Scan.Basic
import Rebrace.Scan.Bracket
import Rebrace.Scan.Split
import Rebrace.Scan.TopLevel
import Rebrace.Terminal
import Rebrace.Text.Basic
import Rebrace.Text.White
import Rebrace.Text.Word
import Rebrace.TypeExpr.Basic
import Rebrace.TypeExpr.Shape
import Rebrace.Proofs.Blocks
import Rebrace.Proofs.Layout
import Rebrace.Proofs.ClauseLayout
import Rebrace.Proofs.DeclarationLayout
import Rebrace.Proofs.Lexical
import Rebrace.Proofs.Seam
import Rebrace.Proofs.Statements
import Rebrace.Proofs.Closings
import Rebrace.Proofs.HeaderClosings
import Rebrace.Proofs.Scanning
import Rebrace.Proofs.TypeSyntax
import Rebrace.Proofs.TypeReading
import Rebrace.Proofs.SignatureSyntax
import Rebrace.Proofs.SignatureReading
import Rebrace.Proofs.TargetReading
import Rebrace.Proofs.LocalSpelling
import Rebrace.Proofs.ClauseSpelling
import Rebrace.Proofs.ParameterNames
import Rebrace.Proofs.LoopElse
import Rebrace.Proofs.Offsets
import Rebrace.Proofs.OffsetLines
import Rebrace.Proofs.OffsetHeaders
import Rebrace.Proofs.RowNumbers
import Rebrace.Proofs.NoFaults
import Rebrace.Proofs.AllOrNothing
import Rebrace.Proofs.OneLine
import Rebrace.Proofs.FinalNewline
import Rebrace.Proofs.HeaderEnd
import Rebrace.Proofs.Pieces
import Rebrace.Proofs.LoopTargets
import Rebrace.Proofs.CommentEnd
import Rebrace.Proofs.TypeBrackets
import Rebrace.Proofs.ClauseGrammar
import Rebrace.Proofs.ClassReading
import Rebrace.Proofs.StableSpelling
import Rebrace.Proofs.BlockExtents
import Rebrace.Proofs.CommentText
import Rebrace.Proofs.ParameterJoin
import Rebrace.Proofs.DelimiterCuts
import Rebrace.Proofs.LiteralScanners
import Rebrace.Proofs.BracketPartners
import Rebrace.Proofs.EqualsRuns
import Rebrace.Proofs.IndentLevels
import Rebrace.Proofs.LineEndings
