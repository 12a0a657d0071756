import Frontend.Main
import Frontend.Proofs.Extent
import Frontend.Proofs.Readers
import Frontend.Proofs.Grouping
import Frontend.Proofs.StatementOutcome
import Frontend.Proofs.Unambiguity
import Frontend.Proofs.Items
import Frontend.Proofs.Acceptance
import Frontend.Proofs.Precedence
import Frontend.Proofs.Lexemes
import Frontend.Proofs.Scanning
import Frontend.Proofs.Recovery
import Frontend.Proofs.Segments
import Frontend.Proofs.Replacement
import Frontend.Proofs.Containment
import Frontend.Proofs.Interruption
import Frontend.Proofs.Classification
import Frontend.Proofs.CursorRun
import Frontend.Proofs.Decomposition
import Frontend.Proofs.Correspondence
import Frontend.Proofs.ViablePrefix
import Frontend.Proofs.Seams
import Frontend.Proofs.Spacing
import Frontend.Proofs.Rendering
import Frontend.Proofs.UnambiguousText
import Frontend.Proofs.Rereading
import Frontend.Proofs.ReadSegments
import Frontend.Proofs.StatementSequence
import Frontend.Proofs.OptionalSemicolon
import Frontend.Proofs.TextTokens
import Frontend.Proofs.Blame
import Frontend.Proofs.CursorWalk
import Frontend.Proofs.Operations
import Frontend.Proofs.SlidingWindow
import Frontend.Proofs.IdleRegistrations
import Frontend.Proofs.Procedures
import Frontend.Proofs.Termination
import Frontend.Proofs.Layering
import Frontend.Proofs.Lines
import Frontend.Proofs.LineByLine
import Frontend.Proofs.Quoting
import Frontend.Proofs.TokenListing
import Frontend.Proofs.Places
import Frontend.Proofs.DisplayLines
import Frontend.Proofs.DisplayBytes
import Frontend.Proofs.CaretRow
import Frontend.Proofs.TypedLines
import Frontend.Proofs.Caret
import Frontend.Proofs.FullDevice
import Frontend.Proofs.ChainsAbove
import Frontend.Proofs.Reach
import Frontend.Proofs.NodeFields
import Frontend.Proofs.Arguments
import Frontend.Proofs.ExitCode
