import Ratchet.Main
import Ratchet.SettingsFile
import Ratchet.FileTree
import Ratchet.Recorder
import Ratchet.Report.Reader
import Ratchet.Proofs.FileTree
import Ratchet.Proofs.NameMap
import Ratchet.Proofs.Regression
import Ratchet.Proofs.Fault
import Ratchet.Proofs.AcceptanceRun
import Ratchet.Proofs.Lines
import Ratchet.Proofs.Tally
import Ratchet.Proofs.Convergence
import Ratchet.Proofs.ConvergenceRun
import Ratchet.Proofs.Rounding
import Ratchet.Proofs.Comparison
import Ratchet.Proofs.Decimal
import Ratchet.Proofs.Numeral
import Ratchet.Proofs.NumberText
import Ratchet.Proofs.BaselineText
import Ratchet.Proofs.Share
import Ratchet.Proofs.Recording
import Ratchet.Proofs.Decision
import Ratchet.Proofs.GateStep
import Ratchet.Proofs.Interleaving
import Ratchet.Proofs.Ratcheting
import Ratchet.Proofs.History
import Ratchet.Proofs.Composition
import Ratchet.Proofs.Bounds
import Ratchet.Proofs.Overflow
import Ratchet.Proofs.ToleranceBand
import Ratchet.Proofs.Announcements
import Ratchet.Proofs.Repetition
import Ratchet.Proofs.Bytes
import Ratchet.Proofs.ReportLine
import Ratchet.Proofs.ExitCodes
import Ratchet.Proofs.StoredNames
import Ratchet.Proofs.Saving
import Ratchet.Proofs.ReportDocument
import Ratchet.Proofs.JsonBaseline
import Ratchet.Proofs.Places
import Ratchet.Proofs.RunningBounds
import Ratchet.Proofs.ExactMoments
import Ratchet.Proofs.Fractions
import Ratchet.Proofs.Loosening
import Ratchet.Proofs.Lenience
import Ratchet.Proofs.Speedup
import Ratchet.Proofs.Batches
import Ratchet.Proofs.BaselineFormat
import Ratchet.Proofs.NumberGrammar
import Ratchet.Proofs.DecimalRange
import Ratchet.Proofs.MeasurementFormat
import Ratchet.Proofs.EqualValues
import Ratchet.Proofs.Retention
import Ratchet.Proofs.LineEndings
import Ratchet.Proofs.Thresholds
import Ratchet.Proofs.SettingsFile
import Ratchet.Proofs.Arguments
import Ratchet.Proofs.Precedence
