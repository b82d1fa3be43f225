import DecisionGate.Numeric.Format
import DecisionGate.Numeric.Reader
import DecisionGate.Text.Case
import DecisionGate.Text.Printable
import DecisionGate.Text.Digit
import DecisionGate.Text.Lines
import DecisionGate.Text.Quoted
import DecisionGate.Text.Utf8
import DecisionGate.Value.Text
import DecisionGate.Value.Arithmetic
import DecisionGate.Json.Reader
import DecisionGate.Json.Printer
import DecisionGate.Heuristic.Input
import DecisionGate.Heuristic.StrictInput
import DecisionGate.Heuristic.Scoring
import DecisionGate.Heuristic.Template
import DecisionGate.Telemetry
import DecisionGate.Config.Resolution
import DecisionGate.Config.Listener
import DecisionGate.Criteria.Grammar
import DecisionGate.Services
import DecisionGate.Packaged
import DecisionGate.Web.Application
import DecisionGate.Main
import DecisionGate.Yaml.Writer
import DecisionGate.Proofs.Consistency
import DecisionGate.Proofs.Convergence
import DecisionGate.Proofs.Wholeness
import DecisionGate.Proofs.Answers
import DecisionGate.Proofs.Vetoes
import DecisionGate.Proofs.ScoreRange
import DecisionGate.Proofs.Effective
import DecisionGate.Proofs.Entrances
import DecisionGate.Proofs.Decoding
import DecisionGate.Proofs.Unreadable
import DecisionGate.Proofs.Parsing
import DecisionGate.Proofs.StoreRun
import DecisionGate.Proofs.Delivery
import DecisionGate.Proofs.Arming
import DecisionGate.Proofs.Lifetimes
import DecisionGate.Proofs.MemoTable
import DecisionGate.Proofs.ReloadReport
import DecisionGate.Proofs.Independence
import DecisionGate.Proofs.Snapshot
import DecisionGate.Proofs.Checkable
import DecisionGate.Proofs.Override
import DecisionGate.Proofs.Sharing
import DecisionGate.Proofs.Choice
import DecisionGate.Proofs.Constraints
import DecisionGate.Proofs.Diagnosis
import DecisionGate.Proofs.Reordering
import DecisionGate.Proofs.Monotone
import DecisionGate.Proofs.Ladder
import DecisionGate.Proofs.Floors
import DecisionGate.Proofs.Registration
import DecisionGate.Proofs.Settings
import DecisionGate.Proofs.Flattening
import DecisionGate.Proofs.Levels
import DecisionGate.Proofs.TaskReport
import DecisionGate.Proofs.Lines
import DecisionGate.Proofs.Blocks
import DecisionGate.Proofs.Sectioning
import DecisionGate.Proofs.Fenced
import DecisionGate.Proofs.History
import DecisionGate.Proofs.Averages
import DecisionGate.Proofs.Matches
