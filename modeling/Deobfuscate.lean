import Deobfuscate.Archive.Artifact
import Deobfuscate.Archive.Basic
import Deobfuscate.Archive.Checksum
import Deobfuscate.Archive.Entry
import Deobfuscate.Archive.Error
import Deobfuscate.Archive.ExtraField
import Deobfuscate.Archive.Inflate
import Deobfuscate.Archive.Zip
import Deobfuscate.Cache.Error
import Deobfuscate.Cache.Lock
import Deobfuscate.Cache.Replace
import Deobfuscate.Cache.Root
import Deobfuscate.Cache.Service
import Deobfuscate.Chain
import Deobfuscate.Csv
import Deobfuscate.Dict
import Deobfuscate.Digest.Fingerprint
import Deobfuscate.Digest.Input
import Deobfuscate.Digest.Memo
import Deobfuscate.Digest.Sha256
import Deobfuscate.FileTree.Action
import Deobfuscate.FileTree.Basic
import Deobfuscate.FileTree.Path
import Deobfuscate.FileTree.Problem
import Deobfuscate.FileTree.Temporary
import Deobfuscate.LittleEndian
import Deobfuscate.Mapping.Error
import Deobfuscate.Mapping.Exceptions
import Deobfuscate.Mapping.Files
import Deobfuscate.Mapping.Generate
import Deobfuscate.Mapping.SymbolSet
import Deobfuscate.Mapping.Table
import Deobfuscate.NameTable
import Deobfuscate.Patch.Access
import Deobfuscate.Patch.Bundle
import Deobfuscate.Patch.Hunk
import Deobfuscate.Patch.Parser
import Deobfuscate.Patch.Report
import Deobfuscate.Patch.Window
import Deobfuscate.Patch.WorkingSet
import Deobfuscate.Pipeline
import Deobfuscate.Settings.Basic
import Deobfuscate.Settings.Load
import Deobfuscate.Settings.LogFilter
import Deobfuscate.Shell.Arithmetic
import Deobfuscate.Shell.Builtin
import Deobfuscate.Shell.Concatenate
import Deobfuscate.Shell.Condition
import Deobfuscate.Shell.Copy
import Deobfuscate.Shell.Evaluate
import Deobfuscate.Shell.Expansion
import Deobfuscate.Shell.Field
import Deobfuscate.Shell.FileName
import Deobfuscate.Shell.Format
import Deobfuscate.Shell.Head
import Deobfuscate.Shell.Host
import Deobfuscate.Shell.Integer
import Deobfuscate.Shell.Invocation
import Deobfuscate.Shell.Job
import Deobfuscate.Shell.Option
import Deobfuscate.Shell.Parser
import Deobfuscate.Shell.Pattern
import Deobfuscate.Shell.Pipe
import Deobfuscate.Shell.Program
import Deobfuscate.Shell.Reader
import Deobfuscate.Shell.Redirection
import Deobfuscate.Shell.Schedule
import Deobfuscate.Shell.Script
import Deobfuscate.Shell.Session
import Deobfuscate.Shell.Shown
import Deobfuscate.Shell.Task
import Deobfuscate.Shell.Translate
import Deobfuscate.Shell.Utility
import Deobfuscate.Shell.World
import Deobfuscate.Source.Declaration
import Deobfuscate.Source.Generics
import Deobfuscate.Source.Identifier
import Deobfuscate.Source.Javadoc
import Deobfuscate.Source.LineEdit
import Deobfuscate.Source.Load
import Deobfuscate.Source.Renamer
import Deobfuscate.Stage.Basic
import Deobfuscate.Stage.Cleanup
import Deobfuscate.Stage.Error
import Deobfuscate.Stage.ExternalTool
import Deobfuscate.Stage.Patching
import Deobfuscate.Stage.Renaming
import Deobfuscate.Stage.SwitchLabels
import Deobfuscate.TableError
import Deobfuscate.Text.Blank
import Deobfuscate.Text.Bytes
import Deobfuscate.Text.CharClass
import Deobfuscate.Text.CodePage
import Deobfuscate.Text.Decimal
import Deobfuscate.Text.Double
import Deobfuscate.Text.Lines
import Deobfuscate.Text.Quoted
import Deobfuscate.Text.Search
import Deobfuscate.Text.Word
import Deobfuscate.Toml.Decode
import Deobfuscate.Toml.Item
import Deobfuscate.Toml.Number
import Deobfuscate.Toml.Parser
import Deobfuscate.Toml.Quoted
import Deobfuscate.Toml.Reader
import Deobfuscate.Tool.Command
import Deobfuscate.Tool.Result
import Deobfuscate.Tool.Run
import Deobfuscate.Proofs.Text.Lines
import Deobfuscate.Proofs.Patch.ExactDiff
import Deobfuscate.Proofs.Digest.Framing
import Deobfuscate.Proofs.Digest.Memo
import Deobfuscate.Proofs.Patch.Competition
import Deobfuscate.Proofs.FileTree.Resolution
import Deobfuscate.Proofs.FileTree.WellFormed
import Deobfuscate.Proofs.Digest.Walk
import Deobfuscate.Proofs.FileTree.PathOrder
import Deobfuscate.Proofs.Digest.Stream
import Deobfuscate.Proofs.Stage.ToolInputs
import Deobfuscate.Proofs.Action
import Deobfuscate.Proofs.FileTree.Places
import Deobfuscate.Proofs.FileTree.Parent
import Deobfuscate.Proofs.FileTree.Change
import Deobfuscate.Proofs.FileTree.Temporary
import Deobfuscate.Proofs.Chain.Link
import Deobfuscate.Proofs.Chain.Failure
import Deobfuscate.Proofs.Digest.Record
import Deobfuscate.Proofs.Digest.Untouched
import Deobfuscate.Proofs.Digest.Content
import Deobfuscate.Proofs.Chain.Composition
import Deobfuscate.Proofs.Stage.Contents
import Deobfuscate.Proofs.Chain.Stages
import Deobfuscate.Proofs.Chain.Caching
import Deobfuscate.Proofs.Chain.History
import Deobfuscate.Proofs.FileTree.Shape
import Deobfuscate.Proofs.Stage.PatchEffect
import Deobfuscate.Proofs.Stage.PatchInputs
import Deobfuscate.Proofs.Cache.Access
import Deobfuscate.Proofs.Digest.MemoHistory
import Deobfuscate.Proofs.Mapping.Names
import Deobfuscate.Proofs.Mapping.Translation
import Deobfuscate.Proofs.Csv
import Deobfuscate.Proofs.Mapping.ReadBack
import Deobfuscate.Proofs.Cache.Replacing
import Deobfuscate.Proofs.Mapping.Publication
import Deobfuscate.Proofs.Source.Comments
import Deobfuscate.Proofs.Archive.Saving
import Deobfuscate.Proofs.Text.Search
import Deobfuscate.Proofs.Patch.Reading
import Deobfuscate.Proofs.Patch.Writing
import Deobfuscate.Proofs.Patch.Creation
import Deobfuscate.Proofs.Archive.Separate
import Deobfuscate.Proofs.Stage.Transformation
import Deobfuscate.Proofs.Stage.Separation
import Deobfuscate.Proofs.Archive.Listing
import Deobfuscate.Proofs.Archive.Extraction
import Deobfuscate.Proofs.Cache.Extracted
import Deobfuscate.Proofs.Archive.Loading
import Deobfuscate.Proofs.Patch.BestWindow
import Deobfuscate.Proofs.Patch.OutwardSearch
import Deobfuscate.Proofs.Patch.Landing
import Deobfuscate.Proofs.Patch.HigherFuzz
import Deobfuscate.Proofs.Source.Accounting
import Deobfuscate.Proofs.Patch.Deletion
import Deobfuscate.Proofs.Patch.Grouping
import Deobfuscate.Proofs.Source.Identifier
import Deobfuscate.Proofs.Source.ParameterList
import Deobfuscate.Proofs.Source.TypeArguments
import Deobfuscate.Proofs.Source.Wrapping
import Deobfuscate.Proofs.Source.ColumnLimit
import Deobfuscate.Proofs.Source.Declaration
import Deobfuscate.Proofs.Source.Constructor
import Deobfuscate.Proofs.Text.JoinedLines
import Deobfuscate.Proofs.Source.Markers
import Deobfuscate.Proofs.Source.TwoPasses
import Deobfuscate.Proofs.Tool.Substitution
import Deobfuscate.Proofs.Text.Cutting
import Deobfuscate.Proofs.Stage.SwitchLabels
import Deobfuscate.Proofs.Patch.Drift
