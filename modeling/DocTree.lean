import DocTree.Text.Blank
import DocTree.Text.Case
import DocTree.Text.Digit
import DocTree.Text.Order
import DocTree.Text.Quoted
import DocTree.Tag.Kind
import DocTree.Tag.Declaration
import DocTree.Hash.Tree
import DocTree.Number.Binary64
import DocTree.Number.Radix
import DocTree.Value.Basic
import DocTree.Value.Display
import DocTree.Yaml.Read
import DocTree.Yaml.Write
import DocTree.Json.Read
import DocTree.Json.Write
import DocTree.Tag.Registry
import DocTree.Schema.Issue
import DocTree.Hash.Token
import DocTree.Hash.Parser
import DocTree.Hash.Export
import DocTree.Tag.Build
import DocTree.Schema.Check
import DocTree.Source.Check
import DocTree.Source.Dump
import DocTree.Hash.Check
import DocTree.Settings.Basic
import DocTree.Source.Classify
import DocTree.Record.Element
import DocTree.Run.Concurrent
import DocTree.Run.Cancellation
import DocTree.Schema.Report
import DocTree.Files.Folder
import DocTree.Source.Load
import DocTree.Settings.Reference
import DocTree.Settings.Load
import DocTree.Log.Setup
import DocTree.Command.Perform
import DocTree.Main
import DocTree.Proofs.Text.Words
import DocTree.Proofs.Log.Outcome
import DocTree.Proofs.Schema.Checked
import DocTree.Proofs.Schema.Stability
import DocTree.Proofs.Source.Classifying
import DocTree.Proofs.Run.Isolation
import DocTree.Proofs.Run.Scheduling
import DocTree.Proofs.Run.Turns
import DocTree.Proofs.Run.Concurrency
import DocTree.Proofs.Text.Heads
import DocTree.Proofs.Tag.Declaration
import DocTree.Proofs.Tag.Version
import DocTree.Proofs.Tag.Building
import DocTree.Proofs.Hash.Grammar
import DocTree.Proofs.Hash.Parsing
import DocTree.Proofs.Hash.Children
import DocTree.Proofs.Hash.Lexing
import DocTree.Proofs.Hash.Escaping
import DocTree.Proofs.Hash.Writing
import DocTree.Proofs.Hash.Spacing
import DocTree.Proofs.Record.RawText
import DocTree.Proofs.Record.Strictness
import DocTree.Proofs.Record.LineBreaks
import DocTree.Proofs.Tag.Stability
import DocTree.Proofs.Source.Stability
import DocTree.Proofs.Settings.Stability
import DocTree.Proofs.Source.Classified
import DocTree.Proofs.Run.FailFast
import DocTree.Proofs.Source.Loading
import DocTree.Proofs.Run.Loading
import DocTree.Proofs.Source.Reading
import DocTree.Proofs.Hash.Numbering
import DocTree.Proofs.Hash.IndexMode
import DocTree.Proofs.Hash.Braces
import DocTree.Proofs.Hash.Locating
import DocTree.Proofs.Hash.Depth
import DocTree.Proofs.Hash.WellFormed
import DocTree.Proofs.Files.Folder
import DocTree.Proofs.Value.Keys
import DocTree.Proofs.Value.Bindings
import DocTree.Proofs.Text.Case
import DocTree.Proofs.Tag.Registry
import DocTree.Proofs.Tag.Overriding
import DocTree.Proofs.Json.Reading
import DocTree.Proofs.Text.Halves
import DocTree.Proofs.Text.Renaming
import DocTree.Proofs.Hash.Renaming
import DocTree.Proofs.Hash.Exporting
import DocTree.Proofs.Yaml.Reading
import DocTree.Proofs.Settings.Overrides
import DocTree.Proofs.Settings.Places
import DocTree.Proofs.Settings.Noninterference
import DocTree.Proofs.Settings.References
import DocTree.Proofs.Yaml.Writing
import DocTree.Proofs.Settings.Saving
import DocTree.Proofs.Settings.Remembering
import DocTree.Proofs.Log.Keeping
import DocTree.Proofs.Command.Markup
import DocTree.Proofs.Run.Interruption
import DocTree.Proofs.Run.Records
import DocTree.Proofs.Command.Preparing
import DocTree.Proofs.Command.Summary
import DocTree.Proofs.Command.Exporting
import DocTree.Proofs.Hash.Roles
import DocTree.Proofs.Hash.Tiling
import DocTree.Proofs.Hash.Structure
import DocTree.Proofs.Hash.Literal
import DocTree.Proofs.Record.Uses
import DocTree.Proofs.Record.Recovery
import DocTree.Proofs.Source.Retyping
import DocTree.Proofs.Record.RelativePath
import DocTree.Proofs.Settings.Substitution
import DocTree.Proofs.Settings.Variables
import DocTree.Proofs.Settings.Agreement
import DocTree.Proofs.Settings.Texts
import DocTree.Proofs.Settings.FromEnvironment
