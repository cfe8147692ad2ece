import TexMath.CommandLine.Response
import TexMath.Diagnostic
import TexMath.Lexeme
import TexMath.Lexer
import TexMath.Macro.History
import TexMath.Main
import TexMath.Proofs.Adjacency
import TexMath.Proofs.Arguments
import TexMath.Proofs.Boundary
import TexMath.Proofs.Caret
import TexMath.Proofs.Collecting
import TexMath.Proofs.Concatenation
import TexMath.Proofs.Conservation
import TexMath.Proofs.Coordinates
import TexMath.Proofs.Decoding
import TexMath.Proofs.Determination
import TexMath.Proofs.DigitLimit
import TexMath.Proofs.Fused
import TexMath.Proofs.Highlighting
import TexMath.Proofs.Hints
import TexMath.Proofs.Increasing
import TexMath.Proofs.Independence
import TexMath.Proofs.Interruption
import TexMath.Proofs.Invocation
import TexMath.Proofs.LatestRegistration
import TexMath.Proofs.Laziness
import TexMath.Proofs.Lines
import TexMath.Proofs.Location
import TexMath.Proofs.Logging
import TexMath.Proofs.Lookahead
import TexMath.Proofs.MaximalMunch
import TexMath.Proofs.Memoryless
import TexMath.Proofs.Noninterference
import TexMath.Proofs.Outcomes
import TexMath.Proofs.Printing
import TexMath.Proofs.Quoting
import TexMath.Proofs.Reading
import TexMath.Proofs.Registration
import TexMath.Proofs.Reporting
import TexMath.Proofs.Responses
import TexMath.Proofs.Spelling
import TexMath.Proofs.Splitting
import TexMath.Proofs.StreamRuns
import TexMath.Proofs.Transparency
import TexMath.Proofs.Unread
import TexMath.Session
import TexMath.Token.Lexable
