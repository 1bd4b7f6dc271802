import Blocklist.Text.Blank
import Blocklist.Text.Encode
import Blocklist.Text.Fields
import Blocklist.Text.Grouped
import Blocklist.Text.Lines
import Blocklist.Text.Numeral
import Blocklist.Text.Printable
import Blocklist.Text.Quoted
import Blocklist.Text.Tenths
import Blocklist.Text.Utf8
import Blocklist.Json
import Blocklist.Line
import Blocklist.Rule
import Blocklist.Parse
import Blocklist.Merge
import Blocklist.Path
import Blocklist.FileTree
import Blocklist.Save
import Blocklist.ListFile
import Blocklist.Location.Address
import Blocklist.Location
import Blocklist.Fault
import Blocklist.Web
import Blocklist.Fetch
import Blocklist.Schedule
import Blocklist.Source
import Blocklist.Console
import Blocklist.Notice
import Blocklist.Gather
import Blocklist.Calendar
import Blocklist.Moment
import Blocklist.Signature
import Blocklist.Vacancy
import Blocklist.Build
import Blocklist.Options
import Blocklist.Program
import Blocklist.Main
import Blocklist.Proofs.FirstOccurrence
import Blocklist.Proofs.Parsing
import Blocklist.Proofs.Merging
import Blocklist.Proofs.Scheduling
import Blocklist.Proofs.Outcome
import Blocklist.Proofs.Fetching
import Blocklist.Proofs.Gathering
import Blocklist.Proofs.Stages
import Blocklist.Proofs.RuleLayout
import Blocklist.Proofs.Isolation
import Blocklist.Proofs.FileOperations
import Blocklist.Proofs.Encoding
import Blocklist.Proofs.Saving
import Blocklist.Proofs.HalvesInFiles
import Blocklist.Proofs.Destinations
import Blocklist.Proofs.RunEndings
import Blocklist.Proofs.LeftBehind
import Blocklist.Proofs.LineGrammar
import Blocklist.Proofs.Growth
import Blocklist.Proofs.JsonGrammar
import Blocklist.Proofs.Reporting
import Blocklist.Proofs.JsonReader
import Blocklist.Proofs.JsonRoundTrip
import Blocklist.Proofs.Concurrency
import Blocklist.Proofs.LineSplitting
import Blocklist.Proofs.LineBytes
import Blocklist.Proofs.FileReading
import Blocklist.Proofs.CalendarDays
import Blocklist.Proofs.Datestamps
import Blocklist.Proofs.OneInstant
import Blocklist.Proofs.StoppingPoint
import Blocklist.Proofs.KeptRules
import Blocklist.Proofs.Balance
import Blocklist.Proofs.RuleFile
import Blocklist.Proofs.Accounting
import Blocklist.Proofs.AtomicSave
import Blocklist.Proofs.Regrouping
import Blocklist.Proofs.Pruning
import Blocklist.Proofs.LineCounts
import Blocklist.Proofs.PlainList
import Blocklist.Proofs.Reordering
import Blocklist.Proofs.RuleReading
import Blocklist.Proofs.PageFetching
