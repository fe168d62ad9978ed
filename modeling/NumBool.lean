import NumBool.Main
import NumBool.Phrase.Tokens
import NumBool.Tree.Printed
import NumBool.Tree.Same
import NumBool.Proofs.Grammar
import NumBool.Proofs.Reader.Soundness
import NumBool.Proofs.Reader.Completeness
import NumBool.Proofs.Parse
import NumBool.Proofs.Check.Simulation
import NumBool.Proofs.Check.Shape
import NumBool.Proofs.Check.Violation
import NumBool.Proofs.Check.Typing
import NumBool.Proofs.Check.OrderFree
import NumBool.Proofs.Check.Statistics
import NumBool.Proofs.Token.Spelling
import NumBool.Proofs.Report.Session
import NumBool.Proofs.Tree.Shape
import NumBool.Proofs.Tree.Written
import NumBool.Proofs.RoundTrip
import NumBool.Proofs.Token.Seam
import NumBool.Proofs.Concatenation
import NumBool.Proofs.Token.Places
import NumBool.Proofs.Layout
import NumBool.Proofs.OpenComment
import NumBool.Proofs.Check.Concatenation
import NumBool.Proofs.Check.Normal
import NumBool.Proofs.Check.Safety
import NumBool.Proofs.Disk.Frame
import NumBool.Proofs.Report.Verdict
import NumBool.Proofs.Cli.Ends
import NumBool.Proofs.Cli
import NumBool.Proofs.Token.Pieces
import NumBool.Proofs.Token.Division
import NumBool.Proofs.Report.LineEnds
import NumBool.Proofs.Report.Deliveries
import NumBool.Proofs.Report.History
import NumBool.Proofs.Check.Renaming
import NumBool.Proofs.Check.Kinds
import NumBool.Proofs.Tree.Nodes
import NumBool.Proofs.Check.Definite
import NumBool.Proofs.Check.Census
import NumBool.Proofs.Check.Table
import NumBool.Proofs.Disk.Tree
import NumBool.Proofs.Report.FailedWrite
import NumBool.Proofs.Check.Unknown
import NumBool.Proofs.Text.ReadsOff
import NumBool.Proofs.Tree.Readable
import NumBool.Proofs.Tree.Printed
