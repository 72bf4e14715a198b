import Calculator.Expr.Count
import Calculator.Log
import Calculator.Main
import Calculator.Proofs.Caret
import Calculator.Proofs.Earliest
import Calculator.Proofs.Limits
import Calculator.Proofs.RoundTrip
import Calculator.Proofs.Segmentation
import Calculator.Proofs.Spans
import Calculator.Proofs.Substitution
import Calculator.Proofs.Unreadable
import Calculator.Proofs.Layout
import Calculator.Proofs.Reach
import Calculator.Proofs.Midstream
import Calculator.Proofs.Trail
import Calculator.Proofs.Transcripts
import Calculator.Proofs.Depth
import Calculator.Proofs.InOrder
import Calculator.Proofs.Joining
import Calculator.Proofs.Drawing
import Calculator.Proofs.Lookahead
import Calculator.Proofs.Printing
import Calculator.Proofs.Counting
import Calculator.Proofs.Termination
import Calculator.Proofs.Progress
import Calculator.Proofs.Routes
