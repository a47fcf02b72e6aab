import ItemGuard.Action
import ItemGuard.Actor
import ItemGuard.Audit.Record
import ItemGuard.Audit.RollingLog
import ItemGuard.Audit.Sink
import ItemGuard.Blacklist.Failure
import ItemGuard.Blacklist.Line
import ItemGuard.Blacklist.Notice
import ItemGuard.Blacklist.Option
import ItemGuard.Blacklist.Report
import ItemGuard.Decimal.Binary64
import ItemGuard.Decimal.Shortest
import ItemGuard.Diagnostic
import ItemGuard.Event.Basic
import ItemGuard.Event.Document
import ItemGuard.Event.Player
import ItemGuard.Guard.Basic
import ItemGuard.Guard.Reload
import ItemGuard.Guard.Start
import ItemGuard.Item.Classic
import ItemGuard.Item.Id
import ItemGuard.Item.Names
import ItemGuard.Item.Registry
import ItemGuard.Item.TableFile
import ItemGuard.Json.Numbers
import ItemGuard.Json.Quoted
import ItemGuard.Json.Reader
import ItemGuard.Json.Skip
import ItemGuard.Json.Strings
import ItemGuard.Json.Value
import ItemGuard.Rule.Basic
import ItemGuard.Rule.Draft
import ItemGuard.Rule.Evaluation
import ItemGuard.Rule.Ruleset
import ItemGuard.Settings.Basic
import ItemGuard.Settings.Document
import ItemGuard.Settings.Output
import ItemGuard.Settings.Search
import ItemGuard.Storage.Failure
import ItemGuard.Storage.Files
import ItemGuard.Storage.Path
import ItemGuard.Strikes
import ItemGuard.Text.Blank
import ItemGuard.Text.Fields
import ItemGuard.Text.Letters
import ItemGuard.Text.Lines
import ItemGuard.Text.Numeral
import ItemGuard.Text.Printed
import ItemGuard.Text.Quoted
import ItemGuard.Text.Scan
import ItemGuard.Text.Utf8
import ItemGuard.Time.Timestamp
import ItemGuard.Toml.Blanks
import ItemGuard.Toml.Dates
import ItemGuard.Toml.Document
import ItemGuard.Toml.Field
import ItemGuard.Toml.Numbers
import ItemGuard.Toml.Scalar
import ItemGuard.Toml.Strings
import ItemGuard.Toml.Table
import ItemGuard.Toml.Value
import ItemGuard.Verdict
import ItemGuard.Proofs.Audit.Appending
import ItemGuard.Proofs.Audit.Counting
import ItemGuard.Proofs.Audit.Failing
import ItemGuard.Proofs.Audit.Framing
import ItemGuard.Proofs.Audit.LongNames
import ItemGuard.Proofs.Audit.Numbered
import ItemGuard.Proofs.Audit.Removals
import ItemGuard.Proofs.Audit.Reopening
import ItemGuard.Proofs.Audit.Retention
import ItemGuard.Proofs.Audit.Rewriting
import ItemGuard.Proofs.Audit.Rotation
import ItemGuard.Proofs.Audit.Run
import ItemGuard.Proofs.Audit.Shifting
import ItemGuard.Proofs.Audit.Sizes
import ItemGuard.Proofs.Audit.Tracking
import ItemGuard.Proofs.Audit.Words
import ItemGuard.Proofs.Blacklist.DeadSections
import ItemGuard.Proofs.Blacklist.Flaws
import ItemGuard.Proofs.Blacklist.Headers
import ItemGuard.Proofs.Blacklist.Layout
import ItemGuard.Proofs.Blacklist.Meaning
import ItemGuard.Proofs.Blacklist.Notices
import ItemGuard.Proofs.Blacklist.Overlay
import ItemGuard.Proofs.Blacklist.Ownership
import ItemGuard.Proofs.Blacklist.Reading
import ItemGuard.Proofs.Blacklist.Sections
import ItemGuard.Proofs.Blacklist.Writing
import ItemGuard.Proofs.Event.Decoding
import ItemGuard.Proofs.Guard.Accounting
import ItemGuard.Proofs.Guard.Decisions
import ItemGuard.Proofs.Guard.Events
import ItemGuard.Proofs.Guard.Exemptions
import ItemGuard.Proofs.Guard.Reachable
import ItemGuard.Proofs.Guard.Run
import ItemGuard.Proofs.Guard.Sinks
import ItemGuard.Proofs.Guard.Starting
import ItemGuard.Proofs.Item.Resolving
import ItemGuard.Proofs.Item.Spellings
import ItemGuard.Proofs.Item.Tables
import ItemGuard.Proofs.Json.Fields
import ItemGuard.Proofs.Json.Grammar
import ItemGuard.Proofs.Json.Nesting
import ItemGuard.Proofs.Json.Spelling
import ItemGuard.Proofs.Rule.Canonical
import ItemGuard.Proofs.Rule.Compaction
import ItemGuard.Proofs.Rule.Renumbering
import ItemGuard.Proofs.Storage.Additions
import ItemGuard.Proofs.Storage.Changes
import ItemGuard.Proofs.Storage.Directories
import ItemGuard.Proofs.Storage.Entries
import ItemGuard.Proofs.Storage.Moves
import ItemGuard.Proofs.Storage.Pointing
import ItemGuard.Proofs.Storage.Upward
import ItemGuard.Proofs.Text.Trimming
