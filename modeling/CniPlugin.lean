import CniPlugin.Main
import CniPlugin.Proofs.AcceptedText
import CniPlugin.Proofs.AgreedSettings
import CniPlugin.Proofs.ArgumentPairs
import CniPlugin.Proofs.Attachments
import CniPlugin.Proofs.BreakingOutput
import CniPlugin.Proofs.BreakingSessions
import CniPlugin.Proofs.CheckSelection
import CniPlugin.Proofs.CheckVerdict
import CniPlugin.Proofs.ConfiguredSettings
import CniPlugin.Proofs.DeclaredVersion
import CniPlugin.Proofs.DividedInput
import CniPlugin.Proofs.FailedRuns
import CniPlugin.Proofs.FirstFailure
import CniPlugin.Proofs.Footprint
import CniPlugin.Proofs.HandlerEndings
import CniPlugin.Proofs.HandlerGate
import CniPlugin.Proofs.IncompatibleDetails
import CniPlugin.Proofs.InputEnds
import CniPlugin.Proofs.KeptValues
import CniPlugin.Proofs.LearnedVersions
import CniPlugin.Proofs.ListedMembers
import CniPlugin.Proofs.ListedRecords
import CniPlugin.Proofs.LogEntries
import CniPlugin.Proofs.LogJournal
import CniPlugin.Proofs.NamelessBodies
import CniPlugin.Proofs.OutputTrace
import CniPlugin.Proofs.PassedValues
import CniPlugin.Proofs.PlainReading
import CniPlugin.Proofs.ReaderSteps
import CniPlugin.Proofs.ReconciledVersion
import CniPlugin.Proofs.RecorderEndings
import CniPlugin.Proofs.RecorderOutput
import CniPlugin.Proofs.Reencoding
import CniPlugin.Proofs.ReportRoundTrip
import CniPlugin.Proofs.RunReports
import CniPlugin.Proofs.ServedVersions
import CniPlugin.Proofs.Stages
import CniPlugin.Proofs.StartedProgram
import CniPlugin.Proofs.VariableTable
import CniPlugin.Proofs.VersionAnswer
import CniPlugin.Proofs.VersionGrammar
import CniPlugin.Proofs.VersionOrder
import CniPlugin.Proofs.WellFormedUtf8
import CniPlugin.Proofs.WrittenLines
import CniPlugin.Proofs.WrittenRecords
import CniPlugin.Proofs.WrittenTokens
import CniPlugin.Proofs.WrittenValues
