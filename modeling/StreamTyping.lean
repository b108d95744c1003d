import StreamTyping.Attribution
import StreamTyping.CommandLine.Options
import StreamTyping.CommandLine.Run
import StreamTyping.CommandLine.System
import StreamTyping.Decimal.Numeral
import StreamTyping.Decimal.Shortest
import StreamTyping.Descriptor.Basic
import StreamTyping.Descriptor.Reader
import StreamTyping.Diagnostic
import StreamTyping.Dict
import StreamTyping.Event.Basic
import StreamTyping.Event.Oracle
import StreamTyping.Event.Wire
import StreamTyping.Graph.Basic
import StreamTyping.Graph.Drawing
import StreamTyping.Graph.Propagation
import StreamTyping.Json.Reader
import StreamTyping.Json.Token
import StreamTyping.Json.Tree
import StreamTyping.Json.Value
import StreamTyping.Locator
import StreamTyping.Main
import StreamTyping.Operator
import StreamTyping.Proofs.Account
import StreamTyping.Proofs.Agenda
import StreamTyping.Proofs.Arrival
import StreamTyping.Proofs.Colours
import StreamTyping.Proofs.Combined
import StreamTyping.Proofs.Command
import StreamTyping.Proofs.Confluence
import StreamTyping.Proofs.Denotation
import StreamTyping.Proofs.Dict
import StreamTyping.Proofs.Documents
import StreamTyping.Proofs.Downstream
import StreamTyping.Proofs.Drawings
import StreamTyping.Proofs.Duration
import StreamTyping.Proofs.Environment
import StreamTyping.Proofs.Essence
import StreamTyping.Proofs.EventTexts
import StreamTyping.Proofs.Extension
import StreamTyping.Proofs.Findings
import StreamTyping.Proofs.Growth
import StreamTyping.Proofs.Guarded
import StreamTyping.Proofs.Idempotence
import StreamTyping.Proofs.Lexing
import StreamTyping.Proofs.Lockstep
import StreamTyping.Proofs.Lossless
import StreamTyping.Proofs.Propagation
import StreamTyping.Proofs.Provenance
import StreamTyping.Proofs.Reachable
import StreamTyping.Proofs.Readers
import StreamTyping.Proofs.Reading
import StreamTyping.Proofs.Refusal
import StreamTyping.Proofs.Rejection
import StreamTyping.Proofs.Repetition
import StreamTyping.Proofs.ReportTexts
import StreamTyping.Proofs.Simulation
import StreamTyping.Proofs.Staged
import StreamTyping.Proofs.StringLeaves
import StreamTyping.Proofs.Sweep
import StreamTyping.Proofs.Verdict
import StreamTyping.Proofs.WeakArguments
import StreamTyping.Proofs.WellFormed
import StreamTyping.Proofs.WellTyped
import StreamTyping.Proofs.WireForm
import StreamTyping.Report.Basic
import StreamTyping.Report.Reader
import StreamTyping.Session.Basic
import StreamTyping.Session.Build
import StreamTyping.Session.Pipeline
import StreamTyping.Session.Verdict
import StreamTyping.Text.Shown
import StreamTyping.Text.Unprintable
