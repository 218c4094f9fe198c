import DiagnosticWatch.Text.Blank
import DiagnosticWatch.Text.Digit
import DiagnosticWatch.Text.Word
import DiagnosticWatch.Text.Printable
import DiagnosticWatch.Text.Search
import DiagnosticWatch.FileTree
import DiagnosticWatch.Decimal.Shortest
import DiagnosticWatch.Wire.Diagnostic
import DiagnosticWatch.Error
import DiagnosticWatch.Session
import DiagnosticWatch.Cache
import DiagnosticWatch.Store
import DiagnosticWatch.Ignore.Filter
import DiagnosticWatch.Workspace.Detect
import DiagnosticWatch.Compiler.Install
import DiagnosticWatch.Wire.Workspace
import DiagnosticWatch.Watcher.Basic
import DiagnosticWatch.Main
import DiagnosticWatch.Proofs.Run
import DiagnosticWatch.Proofs.Path.Normal
import DiagnosticWatch.Proofs.Path.Join
import DiagnosticWatch.Proofs.Path.Ancestors
import DiagnosticWatch.Proofs.Path.Canonical
import DiagnosticWatch.Proofs.FileTree.Lookup
import DiagnosticWatch.Proofs.Compiler.Blocks
import DiagnosticWatch.Proofs.Compiler.Paragraphs
import DiagnosticWatch.Proofs.Compiler.Printing
import DiagnosticWatch.Proofs.Compiler.Nearest
import DiagnosticWatch.Proofs.Session
import DiagnosticWatch.Proofs.Session.Watched
import DiagnosticWatch.Proofs.Store.Index
import DiagnosticWatch.Proofs.Store.Step
import DiagnosticWatch.Proofs.Store.History
import DiagnosticWatch.Proofs.Store.Refinement
import DiagnosticWatch.Proofs.Store.Passes
import DiagnosticWatch.Proofs.Cache.Entries
import DiagnosticWatch.Proofs.Cache.Recency
import DiagnosticWatch.Proofs.Cache.Lookup
import DiagnosticWatch.Proofs.Cache.Balance
import DiagnosticWatch.Proofs.Cache.Growth
import DiagnosticWatch.Proofs.Cache.Retention
import DiagnosticWatch.Proofs.Watcher.Frame
import DiagnosticWatch.Proofs.Watcher.Coherence
import DiagnosticWatch.Proofs.Watcher.WriteThrough
import DiagnosticWatch.Proofs.Watcher.Events
import DiagnosticWatch.Proofs.Watcher.Output
import DiagnosticWatch.Proofs.Watcher.FileQuery
import DiagnosticWatch.Proofs.Watcher.Held
import DiagnosticWatch.Proofs.Watcher.Warmth
import DiagnosticWatch.Proofs.Watcher.Interleaving
import DiagnosticWatch.Proofs.Watcher.Parts
import DiagnosticWatch.Proofs.Watcher.Sessions
import DiagnosticWatch.Proofs.Watcher.Happenings
import DiagnosticWatch.Proofs.Watcher.Starting
import DiagnosticWatch.Proofs.Watcher.Announcements
import DiagnosticWatch.Proofs.Watcher.Clearing
import DiagnosticWatch.Proofs.Watcher.Restart
import DiagnosticWatch.Proofs.Watcher.Aggregates
import DiagnosticWatch.Proofs.Json.Comments
import DiagnosticWatch.Proofs.Json.Decoder
import DiagnosticWatch.Proofs.Wire.Payloads
import DiagnosticWatch.Proofs.Daemon.Lines
import DiagnosticWatch.Proofs.Daemon.Messages
import DiagnosticWatch.Proofs.Daemon.Shutdown
import DiagnosticWatch.Proofs.Regex.Matching
import DiagnosticWatch.Proofs.Regex.Language
import DiagnosticWatch.Proofs.Regex.Reading
import DiagnosticWatch.Proofs.Ignore.Classes
import DiagnosticWatch.Proofs.Ignore.Tokens
import DiagnosticWatch.Proofs.Ignore.Listings
import DiagnosticWatch.Proofs.Ignore.Segments
import DiagnosticWatch.Proofs.Ignore.Separators
import DiagnosticWatch.Proofs.Ignore.Directories
import DiagnosticWatch.Proofs.Ignore.Nesting
import DiagnosticWatch.Proofs.Ignore.Alternation
import DiagnosticWatch.Proofs.Workspace.Patterns
import DiagnosticWatch.Proofs.Workspace.Descent
import DiagnosticWatch.Proofs.Workspace.Members
import DiagnosticWatch.Proofs.Workspace.Detection
import DiagnosticWatch.Proofs.Workspace.Resolution
import DiagnosticWatch.Proofs.Workspace.Folders
