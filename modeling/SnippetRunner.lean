import SnippetRunner.Client.Basic
import SnippetRunner.Client.Lifecycle
import SnippetRunner.Client.Process
import SnippetRunner.Client.Request
import SnippetRunner.CommandLine.Arguments
import SnippetRunner.CommandLine.Run
import SnippetRunner.CommandLine.Word
import SnippetRunner.Decimal.Binary64
import SnippetRunner.Decimal.Shortest
import SnippetRunner.Delegate.Fallback
import SnippetRunner.Delegate.Interpreter
import SnippetRunner.Delegate.Remote
import SnippetRunner.Duration
import SnippetRunner.Execution.Capture
import SnippetRunner.Execution.Chain
import SnippetRunner.Execution.Command
import SnippetRunner.Execution.Drive
import SnippetRunner.Execution.Outcome
import SnippetRunner.Execution.Spawn
import SnippetRunner.Execution.Tracker
import SnippetRunner.Failure
import SnippetRunner.FileTree.Basic
import SnippetRunner.FileTree.Edit
import SnippetRunner.FileTree.Error
import SnippetRunner.FileTree.Plant
import SnippetRunner.FileTree.RealPath
import SnippetRunner.FileTree.Trail
import SnippetRunner.FileTree.Walk
import SnippetRunner.Host
import SnippetRunner.Json.Reader
import SnippetRunner.Json.Value
import SnippetRunner.Json.Writer
import SnippetRunner.Language.BuiltIn
import SnippetRunner.Language.Catalog
import SnippetRunner.Language.Descriptor
import SnippetRunner.Language.Level
import SnippetRunner.Language.Pattern
import SnippetRunner.Log
import SnippetRunner.Machine.BasicPattern
import SnippetRunner.Machine.Builtin
import SnippetRunner.Machine.Child
import SnippetRunner.Machine.Condition
import SnippetRunner.Machine.Echo
import SnippetRunner.Machine.Filters
import SnippetRunner.Machine.Programs
import SnippetRunner.Machine.Step
import SnippetRunner.Machine.System
import SnippetRunner.Main
import SnippetRunner.Message.Fault
import SnippetRunner.Message.Field
import SnippetRunner.Message.Intake
import SnippetRunner.Message.Notification
import SnippetRunner.Message.RunParams
import SnippetRunner.Moment
import SnippetRunner.Network.Script
import SnippetRunner.Network.Status
import SnippetRunner.Network.Target
import SnippetRunner.Output.Record
import SnippetRunner.Output.Sink
import SnippetRunner.Path
import SnippetRunner.Project.Glob
import SnippetRunner.Project.Library
import SnippetRunner.Project.Listing
import SnippetRunner.Project.Root
import SnippetRunner.Selection.Chase
import SnippetRunner.Selection.InFile
import SnippetRunner.Selection.InProject
import SnippetRunner.Selection.Notes
import SnippetRunner.Selection.Resolve
import SnippetRunner.Selection.Snippet
import SnippetRunner.Server.Basic
import SnippetRunner.Server.Board
import SnippetRunner.Server.Dispatch
import SnippetRunner.Server.Time
import SnippetRunner.Server.Work
import SnippetRunner.Settings
import SnippetRunner.Shell.Arithmetic
import SnippetRunner.Shell.Expansion
import SnippetRunner.Shell.Language
import SnippetRunner.Shell.Reader
import SnippetRunner.Site
import SnippetRunner.Source.Definition
import SnippetRunner.Source.File
import SnippetRunner.Source.Import
import SnippetRunner.Source.Literal
import SnippetRunner.Text.Ascii
import SnippetRunner.Text.Blank
import SnippetRunner.Text.Case
import SnippetRunner.Text.Letter
import SnippetRunner.Text.Lines
import SnippetRunner.Text.Numeral
import SnippetRunner.Text.Printable
import SnippetRunner.Text.Quoted
import SnippetRunner.Text.Template
import SnippetRunner.Text.Utf8
import SnippetRunner.Text.Wildcard
import SnippetRunner.Transport.Http
import SnippetRunner.Transport.Lines
import SnippetRunner.Workspace.Directory
import SnippetRunner.Workspace.Materials
import SnippetRunner.Workspace.Render
import SnippetRunner.Proofs.Selection.Chase
import SnippetRunner.Proofs.Selection.InFile
import SnippetRunner.Proofs.Selection.InProject
import SnippetRunner.Proofs.Selection.Context
import SnippetRunner.Proofs.FileTree.Growth
import SnippetRunner.Proofs.FileTree.Walking
import SnippetRunner.Proofs.FileTree.Writing
import SnippetRunner.Proofs.Project.Listing
import SnippetRunner.Proofs.Selection.Imported
import SnippetRunner.Proofs.Selection.Mirrored
import SnippetRunner.Proofs.Workspace.Materials
import SnippetRunner.Proofs.FileTree.Refusals
import SnippetRunner.Proofs.Output.Publishing
import SnippetRunner.Proofs.Server.Order
import SnippetRunner.Proofs.Server.Serving
import SnippetRunner.Proofs.Selection.Levels
import SnippetRunner.Proofs.Selection.LineNumbers
import SnippetRunner.Proofs.Execution.Listing
import SnippetRunner.Proofs.Selection.Accounting
import SnippetRunner.Proofs.Server.Restarts
import SnippetRunner.Proofs.Execution.Closing
import SnippetRunner.Proofs.Execution.Steps
import SnippetRunner.Proofs.Workspace.Additions
import SnippetRunner.Proofs.Execution.Touching
import SnippetRunner.Proofs.Server.Effects
import SnippetRunner.Proofs.Server.Cancellation
import SnippetRunner.Proofs.FileTree.RealPaths
import SnippetRunner.Proofs.FileTree.Trails
import SnippetRunner.Proofs.Project.Obstacles
import SnippetRunner.Proofs.Project.Discovery
import SnippetRunner.Proofs.Selection.Obstruction
import SnippetRunner.Proofs.Selection.OwnNames
import SnippetRunner.Proofs.Workspace.Rendering
import SnippetRunner.Proofs.Execution.Admission
import SnippetRunner.Proofs.Server.Rejection
import SnippetRunner.Proofs.FileTree.Enumeration
import SnippetRunner.Proofs.Project.Enumeration
import SnippetRunner.Proofs.Selection.Enumeration
import SnippetRunner.Proofs.Output.Polling
import SnippetRunner.Proofs.Server.Pending
import SnippetRunner.Proofs.Client.Apart
import SnippetRunner.Proofs.Client.Backends
import SnippetRunner.Proofs.Execution.Tracking
import SnippetRunner.Proofs.Server.Custody
import SnippetRunner.Proofs.Server.Scenes
import SnippetRunner.Proofs.Server.Isolation
import SnippetRunner.Proofs.Text.PathNames
import SnippetRunner.Proofs.Project.Bounds
import SnippetRunner.Proofs.Project.Roots
import SnippetRunner.Proofs.Selection.Places
import SnippetRunner.Proofs.Workspace.Confinement
import SnippetRunner.Proofs.Message.Notifications
import SnippetRunner.Proofs.Transport.Lines
import SnippetRunner.Proofs.FileTree.Subtrees
import SnippetRunner.Proofs.FileTree.Making
import SnippetRunner.Proofs.FileTree.Removal
import SnippetRunner.Proofs.Project.Everything
import SnippetRunner.Proofs.Workspace.Keeping
import SnippetRunner.Proofs.Workspace.Listing
import SnippetRunner.Proofs.Source.Decorators
import SnippetRunner.Proofs.Language.Readings
import SnippetRunner.Proofs.Source.Bodies
import SnippetRunner.Proofs.Source.Comments
import SnippetRunner.Proofs.Source.Nearest
import SnippetRunner.Proofs.Selection.Arrangement
import SnippetRunner.Proofs.Text.Margins
import SnippetRunner.Proofs.Selection.Indentation
import SnippetRunner.Proofs.Language.Names
import SnippetRunner.Proofs.Source.References
import SnippetRunner.Proofs.Text.Decoding
import SnippetRunner.Proofs.Execution.Captures
import SnippetRunner.Proofs.Delegate.Answers
import SnippetRunner.Proofs.Machine.Numbering
import SnippetRunner.Proofs.Execution.Deeds
import SnippetRunner.Proofs.Execution.Courses
import SnippetRunner.Proofs.Execution.Reclaiming
import SnippetRunner.Proofs.Settings.Replacements
import SnippetRunner.Proofs.Source.Statements
import SnippetRunner.Proofs.Source.Pieces
import SnippetRunner.Proofs.Project.Libraries
import SnippetRunner.Proofs.Source.Searches
import SnippetRunner.Proofs.Selection.Ending
