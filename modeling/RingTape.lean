import RingTape.Main
import RingTape.Directory
import RingTape.Settings.Render
import RingTape.Proofs.OpenLoops
import RingTape.Proofs.Structured
import RingTape.Proofs.StepLimit
import RingTape.Proofs.Tracing
import RingTape.Proofs.Reading
import RingTape.Proofs.Carets
import RingTape.Proofs.Records
import RingTape.Proofs.Failures
import RingTape.Proofs.Truncation
import RingTape.Proofs.Interruption
import RingTape.Proofs.Table
import RingTape.Proofs.Rotation
import RingTape.Proofs.Renewal
import RingTape.Proofs.Concatenation
import RingTape.Proofs.DeadLoops
import RingTape.Footprint
import RingTape.Proofs.Footprint
import RingTape.Proofs.LongerTapes
import RingTape.Proofs.Readback
import RingTape.Settings.Grammar
import RingTape.Proofs.FileLines
import RingTape.Proofs.LastAssignments
import RingTape.Proofs.SettingsFile
import RingTape.Proofs.UnmatchedBrackets
import RingTape.Settings.Layers
import RingTape.Proofs.Layers
import RingTape.CommandLine.Checks
import RingTape.Proofs.Precedence
import RingTape.Proofs.Answers
import RingTape.Proofs.Checks
import RingTape.CommandLine.Spelling
import RingTape.Proofs.FurtherOptions
import RingTape.Proofs.Spelling
import RingTape.Program.Reader
import RingTape.Proofs.LoopEnds
import RingTape.Console.InputGrammar
import RingTape.Proofs.Acceptance
import RingTape.Proofs.Echo
import RingTape.Proofs.Flushes
import RingTape.Stroke
import RingTape.Proofs.Strokes
import RingTape.Proofs.CountingLoops
import RingTape.Text.Slices
import RingTape.Report.Search
import RingTape.Proofs.Windows
import RingTape.Settings.Values
import RingTape.Proofs.LayerSteps
import RingTape.Settings.Sources
import RingTape.Proofs.SingleSettings
import RingTape.Proofs.Repetition
import RingTape.Text.Marks
import RingTape.Proofs.Painting
import RingTape.Proofs.Stopping
import RingTape.Proofs.Verdicts
import RingTape.Proofs.Watching
