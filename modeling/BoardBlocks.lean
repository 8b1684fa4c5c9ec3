import BoardBlocks.Text.Blank
import BoardBlocks.Text.Lines
import BoardBlocks.Text.Quoted
import BoardBlocks.Keyed
import BoardBlocks.Decimal.Style
import BoardBlocks.Decimal.Numeral
import BoardBlocks.Json.Reader
import BoardBlocks.Json.Printer
import BoardBlocks.Json.Record
import BoardBlocks.Block.Document
import BoardBlocks.Snippet.Template
import BoardBlocks.Sketch.Layout
import BoardBlocks.Callback
import BoardBlocks.Wire.Dispatcher
import BoardBlocks.Settings.Document
import BoardBlocks.Generation.Program
import BoardBlocks.Link.Blocks
import BoardBlocks.Failure
import BoardBlocks.Palette.Document
import BoardBlocks.CommandLine.Folder
import BoardBlocks.Main
import BoardBlocks.Proofs.KeptRoutines
import BoardBlocks.Proofs.DecoderRuns
import BoardBlocks.Proofs.ConnectOutcome
import BoardBlocks.Proofs.HostRuns
import BoardBlocks.Proofs.ClientLog
import BoardBlocks.Proofs.CollidingTopics
import BoardBlocks.Proofs.CallbackNames
import BoardBlocks.Proofs.ReservedNames
import BoardBlocks.Proofs.BlockProblems
import BoardBlocks.Proofs.TargetAgreement
import BoardBlocks.Proofs.CommandCode
import BoardBlocks.Proofs.StringLiterals
import BoardBlocks.Proofs.Formats
import BoardBlocks.Proofs.SentLines
import BoardBlocks.Proofs.QueueRuns
import BoardBlocks.Proofs.Trimming
import BoardBlocks.Proofs.CommandFrames
import BoardBlocks.Proofs.Registrations
import BoardBlocks.Proofs.MeetingTopics
import BoardBlocks.Proofs.StaleEvents
import BoardBlocks.Proofs.MessageTraffic
import BoardBlocks.Proofs.StateRuns
import BoardBlocks.Proofs.DispatchRuns
import BoardBlocks.Proofs.WellFormedBlocks
import BoardBlocks.Proofs.SectionKeys
import BoardBlocks.Proofs.InteractiveHats
import BoardBlocks.Proofs.ConnectCredentials
import BoardBlocks.Proofs.OrderedArguments
import BoardBlocks.Proofs.ProgramDocuments
import BoardBlocks.Proofs.SettingsDocuments
import BoardBlocks.Proofs.SettingsFaults
import BoardBlocks.Proofs.NotificationGrammar
import BoardBlocks.Proofs.CommandLines
import BoardBlocks.Proofs.ValueFrames
import BoardBlocks.Proofs.CallbackRuns
import BoardBlocks.Proofs.FailedBlocks
import BoardBlocks.Proofs.FailedArguments
import BoardBlocks.Proofs.IncomingMessages
import BoardBlocks.Proofs.TemplatePlaceholders
import BoardBlocks.Proofs.RoutineLines
import BoardBlocks.Proofs.CleanedArguments
import BoardBlocks.Proofs.SketchContents
import BoardBlocks.Proofs.TerminatedStatements
import BoardBlocks.Proofs.PaletteBlocks
