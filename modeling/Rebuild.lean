import Rebuild.Text.Basic
import Rebuild.Text.Utf8
import Rebuild.Table
import Rebuild.Pattern.Compile
import Rebuild.Lexing.Cursor
import Rebuild.Language.Eval
import Rebuild.Project.Commands
import Rebuild.Project.Hint
import Rebuild.Path.Normal
import Rebuild.Include.Tree
import Rebuild.Project.Export
import Rebuild.Project.Init
import Rebuild.Project.Load
import Rebuild.Project.Script
import Rebuild.Schedule.Run
import Rebuild.FileStore.Walk
import Rebuild.Toml.Text
import Rebuild.Toml.Value
import Rebuild.Settings
import Rebuild.Shell.Execute
import Rebuild.Program
import Rebuild.Main
import Rebuild.Proofs.Schedule.Reach
import Rebuild.Proofs.Schedule.Invariant
import Rebuild.Proofs.Schedule.Safety
import Rebuild.Proofs.FileStore.Follow
import Rebuild.Proofs.Include.Search
import Rebuild.Proofs.Include.Closure
import Rebuild.Proofs.Project.Staleness
import Rebuild.Proofs.FileStore.Walk
import Rebuild.Proofs.FileStore.Alike
import Rebuild.Proofs.FileStore.Place
import Rebuild.Proofs.Project.Pass
import Rebuild.Proofs.Session
import Rebuild.Proofs.Effect
import Rebuild.Proofs.Project.Course
import Rebuild.Proofs.Project.Independence
import Rebuild.Proofs.FileStore.Ways
import Rebuild.Proofs.FileStore.Writing
import Rebuild.Proofs.Project.Execution
import Rebuild.Proofs.Project.FixedPoint
import Rebuild.Proofs.FileStore.Reworking
import Rebuild.Proofs.Project.Ready
import Rebuild.Proofs.Project.Retry
import Rebuild.Proofs.Path.Extension
import Rebuild.Proofs.Project.Objects
import Rebuild.Proofs.Path.Normal
import Rebuild.Proofs.Include.Growth
import Rebuild.Proofs.Language.Grammar
import Rebuild.Proofs.Language.Meaning
import Rebuild.Proofs.Language.Layout
import Rebuild.Proofs.Assignments
import Rebuild.Proofs.FileStore.Listing
import Rebuild.Proofs.Project.Sources
import Rebuild.Proofs.FileStore.Lasting
import Rebuild.Proofs.Include.Unit
import Rebuild.Proofs.Project.Advance
import Rebuild.Proofs.Project.Cleaning
import Rebuild.Proofs.Project.Incremental
import Rebuild.Proofs.Lexing.Remainder
import Rebuild.Proofs.Lexing.Scan
import Rebuild.Proofs.Text.Json
import Rebuild.Proofs.Project.Agreement
import Rebuild.Proofs.FileStore.Sound
import Rebuild.Proofs.Project.Exporting
import Rebuild.Proofs.Project.ExportPlaces
import Rebuild.Proofs.Language.Stopping
import Rebuild.Proofs.Lexing.Contract
import Rebuild.Proofs.Pattern.Normal
import Rebuild.Proofs.Language.Direct
import Rebuild.Proofs.Language.Quoting
import Rebuild.Proofs.Command.Splitting
import Rebuild.Proofs.Project.Wording
import Rebuild.Proofs.Path.Trunk
import Rebuild.Proofs.Project.Placement
import Rebuild.Proofs.FileStore.Pruning
import Rebuild.Proofs.Project.Scanning
import Rebuild.Proofs.Include.Drawing
import Rebuild.Proofs.Table.Layout
import Rebuild.Proofs.Project.Searching
import Rebuild.Proofs.Project.Settling
import Rebuild.Proofs.Path.Lexical
import Rebuild.Proofs.Include.Directive
import Rebuild.Proofs.Config
