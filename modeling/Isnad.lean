import Isnad.Binary64.Basic
import Isnad.Binary64.Printer
import Isnad.Binary64.Reader
import Isnad.Binary64.Shortest
import Isnad.Chain.Cycle
import Isnad.Chain.Link
import Isnad.Chain.Linkage
import Isnad.Claim.Basic
import Isnad.Claim.Validity
import Isnad.Command
import Isnad.Debate.Account
import Isnad.Debate.Outcome
import Isnad.Debate.Output
import Isnad.Debate.Run
import Isnad.Debate.Script
import Isnad.Debate.State
import Isnad.Debate.Stop
import Isnad.Decimal.Basic
import Isnad.Decimal.Printer
import Isnad.Decimal.Reader
import Isnad.Document
import Isnad.Evidence.Basic
import Isnad.Evidence.Store
import Isnad.Gate.Basic
import Isnad.Gate.Clearance
import Isnad.Gate.Decision
import Isnad.Grade
import Isnad.Grading.Basic
import Isnad.Grading.Corroboration
import Isnad.Grading.Cure
import Isnad.Grading.Lookup
import Isnad.Grading.Session
import Isnad.Invocation
import Isnad.Issue
import Isnad.Json.Basic
import Isnad.Json.Decode
import Isnad.Json.Ordered
import Isnad.Json.Printer
import Isnad.Json.Reader
import Isnad.Json.Written
import Isnad.Label
import Isnad.Main
import Isnad.Power
import Isnad.Sanad.Basic
import Isnad.Sanad.Validity
import Isnad.Settings
import Isnad.Text.Blank
import Isnad.Text.Digits
import Isnad.Text.Printable
import Isnad.Text.Quoted
import Isnad.Timestamp.Basic
import Isnad.Timestamp.Printer
import Isnad.Timestamp.Reader
import Isnad.Toml.Quoted
import Isnad.Toml.Reader
import Isnad.Toml.Scalar
import Isnad.Toml.Tree
import Isnad.Uuid
import Isnad.Proofs.Chain.Reach
import Isnad.Proofs.Chain.Linkage
import Isnad.Proofs.Chain.Rooted
import Isnad.Proofs.Decimal.Value
import Isnad.Proofs.Document.Field
import Isnad.Proofs.Sanad.Grammar
import Isnad.Proofs.Json.Record
import Isnad.Proofs.Sanad.Codes
import Isnad.Proofs.Sanad.Spelling
import Isnad.Proofs.Grading.Regrading
import Isnad.Proofs.Text.Digits
import Isnad.Proofs.Decimal.Literal
import Isnad.Proofs.Binary64.Rounding
import Isnad.Proofs.Binary64.Shortest
import Isnad.Proofs.Binary64.Printer
import Isnad.Proofs.Binary64.Reader
import Isnad.Proofs.Json.Source
import Isnad.Proofs.Gate.Written
import Isnad.Proofs.Debate.Account
import Isnad.Proofs.Debate.Record
import Isnad.Proofs.Debate.Rounds
import Isnad.Proofs.Debate.Stop
import Isnad.Proofs.Debate.Run
import Isnad.Proofs.Debate.Release
import Isnad.Proofs.Grading.Formula
import Isnad.Proofs.Grading.Monotone
import Isnad.Proofs.Json.Object
import Isnad.Proofs.Sanad.Regraded
import Isnad.Proofs.Decimal.Places
import Isnad.Proofs.Binary64.Ties
import Isnad.Proofs.Binary64.Document
import Isnad.Proofs.Document.Decimal
import Isnad.Proofs.Sanad.Reading
import Isnad.Proofs.Debate.Script
import Isnad.Proofs.Timestamp
import Isnad.Proofs.Json.Ordered
import Isnad.Proofs.Document.Record
import Isnad.Proofs.Decimal.Printer
import Isnad.Proofs.Document.Written
import Isnad.Proofs.Sanad.Readable
import Isnad.Proofs.Claim.Grammar
import Isnad.Proofs.Claim.Rules
import Isnad.Proofs.Document.Parse
import Isnad.Proofs.Sanad.Written
import Isnad.Proofs.Grade
import Isnad.Proofs.Gate.Batch
import Isnad.Proofs.Grading.Order
import Isnad.Proofs.Grading.FailClosed
import Isnad.Proofs.Json.Token
import Isnad.Proofs.Json.Compact
import Isnad.Proofs.RoundTrip
import Isnad.Proofs.Debate.Course
import Isnad.Proofs.Chain.Loop
import Isnad.Proofs.Chain.Events
import Isnad.Proofs.Chain.Cycles
import Isnad.Proofs.Chain.Firsts
import Isnad.Proofs.Chain.Report
import Isnad.Proofs.Chain.Parents
import Isnad.Proofs.Chain.Reported
import Isnad.Proofs.Chain.Orphans
import Isnad.Proofs.Grading.OnFile
import Isnad.Proofs.Command
import Isnad.Proofs.Grading.Counting
import Isnad.Proofs.Grading.Independence
import Isnad.Proofs.Document.Path
import Isnad.Proofs.Sanad.Places
import Isnad.Proofs.Sanad.Sections
import Isnad.Proofs.Chain.Order
import Isnad.Proofs.Sanad.Order
import Isnad.Proofs.Gate.Verdict
import Isnad.Proofs.Debate.Calls
import Isnad.Proofs.Grading.Session
import Isnad.Proofs.Grading.Repeats
import Isnad.Proofs.Claim.Attach
import Isnad.Proofs.Grading.Resolved
import Isnad.Proofs.Settings
import Isnad.Proofs.Gate.Record
import Isnad.Proofs.Chain.Sweep
