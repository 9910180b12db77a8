import Sentential.CommandLine
import Sentential.Main
import Sentential.Script
import Sentential.Service
import Sentential.Service.Launch
import Sentential.Session
import Sentential.Token.Display
import Sentential.Token.Stream
import Sentential.Proofs.Grammar
import Sentential.Proofs.Parsing
import Sentential.Proofs.Outline
import Sentential.Proofs.Lexing
import Sentential.Proofs.RoundTrip
import Sentential.Proofs.OpenExpression
import Sentential.Proofs.Substitution
import Sentential.Proofs.TruthTable
import Sentential.Proofs.NormalForm
import Sentential.Proofs.ClosedExpression
import Sentential.Proofs.Compound
import Sentential.Proofs.Layout
import Sentential.Proofs.Equivalence
import Sentential.Proofs.ExitCode
import Sentential.Proofs.Settings
import Sentential.Proofs.Replacement
import Sentential.Proofs.Uniformity
import Sentential.Proofs.Duality
import Sentential.Proofs.Spacing
import Sentential.Proofs.Sharing
import Sentential.Proofs.Keeping
import Sentential.Proofs.FrontEnds
import Sentential.Proofs.Lines
import Sentential.Proofs.Message
import Sentential.Proofs.Session
import Sentential.Proofs.Script
import Sentential.Proofs.PlainExpression
import Sentential.Proofs.Revision
import Sentential.Proofs.Evaluation
import Sentential.Proofs.Enumeration
import Sentential.Proofs.Viability
import Sentential.Proofs.LexicalError
import Sentential.Proofs.Concatenation
import Sentential.Proofs.Rederivation
import Sentential.Proofs.Environment
import Sentential.Proofs.Expansion
import Sentential.Proofs.Unassigned
import Sentential.Proofs.PrintedTable
import Sentential.Proofs.CommandWord
import Sentential.Proofs.Loops
