import Clipboard.Calendar.Date
import Clipboard.Calendar.DateRange
import Clipboard.Calendar.DayPart
import Clipboard.Calendar.Fault
import Clipboard.Calendar.Iso
import Clipboard.Calendar.Moment
import Clipboard.Calendar.Phrase
import Clipboard.Calendar.Resolver
import Clipboard.Calendar.Time
import Clipboard.Classify.Classification
import Clipboard.Classify.Rule
import Clipboard.Classify.Tags
import Clipboard.Cli.Invocation
import Clipboard.Cli.Message
import Clipboard.Cli.Plain
import Clipboard.Cli.Render
import Clipboard.Cli.Run
import Clipboard.Cli.Session
import Clipboard.Code.Evidence
import Clipboard.Code.Language
import Clipboard.Code.Rubric
import Clipboard.Code.Signatures
import Clipboard.Collection.Basic
import Clipboard.Collection.Demo
import Clipboard.Collection.Gate
import Clipboard.Collection.Handler
import Clipboard.Decimal.Binary
import Clipboard.Decimal.Ceiling
import Clipboard.Decimal.Fixed
import Clipboard.Decimal.Reader
import Clipboard.Decimal.Shortest
import Clipboard.Json.Basic
import Clipboard.Json.Inspect
import Clipboard.Json.Parser
import Clipboard.Json.Printer
import Clipboard.Json.Same
import Clipboard.Main
import Clipboard.Pattern.Basic
import Clipboard.Pattern.Forms
import Clipboard.Program.CommandLine
import Clipboard.Program.Evidence
import Clipboard.Program.Number
import Clipboard.Program.Outline.Basic
import Clipboard.Program.Outline.Value
import Clipboard.Remote.Access
import Clipboard.Remote.Basic
import Clipboard.Remote.Dates
import Clipboard.Remote.Labeller
import Clipboard.Remote.Reply
import Clipboard.Search.Debouncer
import Clipboard.Search.Filter
import Clipboard.Search.Match
import Clipboard.Search.Query
import Clipboard.Search.Results
import Clipboard.Search.Terms
import Clipboard.Settings.Basic
import Clipboard.Settings.Convert
import Clipboard.Settings.Inspect
import Clipboard.Settings.Layers
import Clipboard.Settings.Value
import Clipboard.Shape.Color
import Clipboard.Shape.Host
import Clipboard.Shape.Link
import Clipboard.Shape.Prose
import Clipboard.Snippet.Basic
import Clipboard.Snippet.Identifier
import Clipboard.Snippet.Kind
import Clipboard.Snippet.Parts
import Clipboard.Snippet.Record
import Clipboard.Store.Basic
import Clipboard.Store.FilePath
import Clipboard.Store.Place
import Clipboard.Store.Text
import Clipboard.Text.Base64
import Clipboard.Text.Case
import Clipboard.Text.CaseTable
import Clipboard.Text.CharClass
import Clipboard.Text.ClassTable
import Clipboard.Text.CodePoint
import Clipboard.Text.Quoted
import Clipboard.Text.Slice
import Clipboard.Text.Split
import Clipboard.Proofs.Calendar.Canonical
import Clipboard.Proofs.Calendar.DateRange
import Clipboard.Proofs.Calendar.DayPart
import Clipboard.Proofs.Calendar.Days
import Clipboard.Proofs.Calendar.Extent
import Clipboard.Proofs.Calendar.Iso
import Clipboard.Proofs.Calendar.Making
import Clipboard.Proofs.Calendar.Moments
import Clipboard.Proofs.Calendar.Periods
import Clipboard.Proofs.Calendar.Phrase
import Clipboard.Proofs.Calendar.Resolver
import Clipboard.Proofs.Calendar.Spans
import Clipboard.Proofs.Calendar.Units
import Clipboard.Proofs.Calendar.Weekdays
import Clipboard.Proofs.Classify.Cleaning
import Clipboard.Proofs.Classify.Coherence
import Clipboard.Proofs.Classify.ErrorReports
import Clipboard.Proofs.Classify.Model
import Clipboard.Proofs.Classify.Padding
import Clipboard.Proofs.Classify.Ranking
import Clipboard.Proofs.Classify.Tags
import Clipboard.Proofs.Cli.Commands
import Clipboard.Proofs.Cli.Offline
import Clipboard.Proofs.Cli.Preview
import Clipboard.Proofs.Cli.Render
import Clipboard.Proofs.Cli.Running
import Clipboard.Proofs.Cli.Session
import Clipboard.Proofs.Cli.Stored
import Clipboard.Proofs.Code.Braces
import Clipboard.Proofs.Code.Evidence
import Clipboard.Proofs.Code.Markers
import Clipboard.Proofs.Collection.Capture
import Clipboard.Proofs.Collection.Distinct
import Clipboard.Proofs.Collection.Effect
import Clipboard.Proofs.Collection.Frame
import Clipboard.Proofs.Collection.Handler
import Clipboard.Proofs.Collection.Outcome
import Clipboard.Proofs.Collection.Recall
import Clipboard.Proofs.Collection.Refusal
import Clipboard.Proofs.Collection.Run
import Clipboard.Proofs.Collection.Unread
import Clipboard.Proofs.Decimal.Ceiling
import Clipboard.Proofs.Decimal.Rank
import Clipboard.Proofs.Decimal.Value
import Clipboard.Proofs.Fallible
import Clipboard.Proofs.Json.Limits
import Clipboard.Proofs.Json.RoundTrip
import Clipboard.Proofs.Pattern.Blanks
import Clipboard.Proofs.Pattern.Edges
import Clipboard.Proofs.Pattern.Match
import Clipboard.Proofs.Pattern.Overlooks
import Clipboard.Proofs.Pattern.Padding
import Clipboard.Proofs.Remote.Asked
import Clipboard.Proofs.Remote.Guarded
import Clipboard.Proofs.Remote.Labels
import Clipboard.Proofs.Remote.Reply
import Clipboard.Proofs.Remote.Surrounded
import Clipboard.Proofs.Remote.Told
import Clipboard.Proofs.Remote.Unasked
import Clipboard.Proofs.Search.Coherence
import Clipboard.Proofs.Search.Debouncer
import Clipboard.Proofs.Search.Identity
import Clipboard.Proofs.Search.Match
import Clipboard.Proofs.Search.Notes
import Clipboard.Proofs.Search.Order
import Clipboard.Proofs.Search.Phrase
import Clipboard.Proofs.Search.Question
import Clipboard.Proofs.Search.Results
import Clipboard.Proofs.Search.Run
import Clipboard.Proofs.Search.Terms
import Clipboard.Proofs.Search.Withdrawal
import Clipboard.Proofs.Settings.Emptied
import Clipboard.Proofs.Settings.Environment
import Clipboard.Proofs.Settings.Faults
import Clipboard.Proofs.Settings.Loading
import Clipboard.Proofs.Settings.Overlay
import Clipboard.Proofs.Settings.Places
import Clipboard.Proofs.Settings.Precedence
import Clipboard.Proofs.Settings.Secrets
import Clipboard.Proofs.Settings.Sections
import Clipboard.Proofs.Settings.Setting
import Clipboard.Proofs.Shape.Blanks
import Clipboard.Proofs.Shape.Color
import Clipboard.Proofs.Shape.Host
import Clipboard.Proofs.Shape.Link
import Clipboard.Proofs.Snippet.Record
import Clipboard.Proofs.Store.Legible
import Clipboard.Proofs.Store.RoundTrip
import Clipboard.Proofs.Text.Base64
import Clipboard.Proofs.Text.Words
