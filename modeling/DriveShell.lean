import DriveShell.Calendar
import DriveShell.Command.Builtin
import DriveShell.Command.Files
import DriveShell.Command.Machine
import DriveShell.Command.Redirect
import DriveShell.Command.Registry
import DriveShell.Command.Shell
import DriveShell.Command.Words
import DriveShell.CommandLine.Encoding
import DriveShell.CommandLine.Options
import DriveShell.CommandLine.Terminal
import DriveShell.Config.Basic
import DriveShell.Config.Document
import DriveShell.Failure
import DriveShell.FileSystem.Basic
import DriveShell.FileSystem.Reference
import DriveShell.Host.Basic
import DriveShell.Host.Load
import DriveShell.Host.Stream
import DriveShell.Number.Decimal
import DriveShell.Number.Floating
import DriveShell.Path
import DriveShell.Phrase.Interpretation
import DriveShell.Phrase.Pattern
import DriveShell.Phrase.Rule
import DriveShell.Phrase.Suggestion
import DriveShell.Phrase.Vocabulary
import DriveShell.Session
import DriveShell.Text.Basic
import DriveShell.Text.Blank
import DriveShell.Text.Grouped
import DriveShell.Text.LetterCase
import DriveShell.Toml.Document
import DriveShell.Toml.Reader
import DriveShell.Toml.Scalar
import DriveShell.Toml.Value
import DriveShell.Tree.Directory
import DriveShell.Tree.Drawing
import DriveShell.Tree.Listing
import DriveShell.Main
import DriveShell.Proofs.CanonicalPath
import DriveShell.Proofs.Changes
import DriveShell.Proofs.Standing
import DriveShell.Proofs.Course
import DriveShell.Proofs.Moves
import DriveShell.Proofs.Protection
import DriveShell.Proofs.ValidNames
import DriveShell.Proofs.EarlyFailure
import DriveShell.Proofs.Leaving
import DriveShell.Proofs.RelativePaths
import DriveShell.Proofs.WrittenWords
import DriveShell.Proofs.Redirection
import DriveShell.Proofs.DistinctNames
import DriveShell.Proofs.Observations
import DriveShell.Proofs.CheckedWrites
import DriveShell.Proofs.Matching
import DriveShell.Proofs.Rereading
import DriveShell.Proofs.WrittenCommands
import DriveShell.Proofs.Reach
import DriveShell.Proofs.Gaps
import DriveShell.Proofs.SpokenCommands
import DriveShell.Proofs.GoingHome
import DriveShell.Proofs.HostIndependence
import DriveShell.Proofs.Recognition
import DriveShell.Proofs.UnknownVerbs
import DriveShell.Proofs.LetterCase
import DriveShell.Proofs.Transcript
import DriveShell.Proofs.AbsolutePaths
import DriveShell.Proofs.History
import DriveShell.Proofs.Entries
import DriveShell.Proofs.Drawings
import DriveShell.Proofs.DrawnPaths
import DriveShell.Proofs.KeptOutput
import DriveShell.Proofs.Appending
import DriveShell.Proofs.OpenQuotes
import DriveShell.Proofs.HiddenRules
import DriveShell.Proofs.AnswerLines
import DriveShell.Proofs.VerbIndex
import DriveShell.Proofs.VerbOrder
import DriveShell.Proofs.DayNumbers
import DriveShell.Proofs.MachineClock
import DriveShell.Proofs.Words
import DriveShell.Proofs.Weekdays
import DriveShell.Proofs.GroupedFigures
import DriveShell.Proofs.JoinedPaths
import DriveShell.Proofs.ListedEntries
import DriveShell.Proofs.TakingBack
import DriveShell.Proofs.PaddedNumbers
import DriveShell.Proofs.ClockTexts
import DriveShell.Proofs.DrawnLoads
import DriveShell.Proofs.DrawnShapes
import DriveShell.Proofs.SegmentLists
import DriveShell.Proofs.GoingUp
import DriveShell.Proofs.EditHistories
