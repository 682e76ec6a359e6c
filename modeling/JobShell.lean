import JobShell.Text.Cluster
import JobShell.Text.Segmentation
import JobShell.Text.Bindings
import JobShell.Syntax.Pipeline
import JobShell.Job.Table
import JobShell.Line.View
import JobShell.System.FileSystem
import JobShell.System.Program.Table
import JobShell.System.Kernel
import JobShell.Session.Run
import JobShell.Settings.Basic
import JobShell.Settings.LogLevel
import JobShell.Session.Lifetime
import JobShell.Main
import JobShell.Proofs.Syntax.Quotation
import JobShell.Proofs.Text.Numerals
import JobShell.Proofs.Syntax.WrittenPipeline
import JobShell.Proofs.Syntax.Expanding
import JobShell.Proofs.Syntax.Injection
import JobShell.Proofs.History.FileFormat
import JobShell.Proofs.Syntax.Extent
import JobShell.Proofs.History.Reopening
import JobShell.Proofs.History.Sharing
import JobShell.Proofs.Job.Reports
import JobShell.Proofs.Syntax.Aliases
import JobShell.Proofs.Syntax.Joining
import JobShell.Proofs.Line.Cursor
import JobShell.Proofs.Text.Cuts
import JobShell.Proofs.Text.Segments
import JobShell.Proofs.Text.Clusters
import JobShell.Proofs.Syntax.Origins
import JobShell.Proofs.Session.Substituting
import JobShell.Proofs.Session.OwnCommand
import JobShell.Proofs.Session.Breakdown
import JobShell.Proofs.Session.Continuing
import JobShell.Proofs.Line.Browsing
import JobShell.Proofs.Line.Searching
import JobShell.Proofs.Job.Notices
import JobShell.Proofs.Session.Watching
import JobShell.Proofs.Session.Starting
import JobShell.Proofs.Session.Owning
import JobShell.Proofs.Job.Numbers
import JobShell.Proofs.Syntax.Grammar
import JobShell.Proofs.Text.Places
import JobShell.Proofs.Line.CommonStart
import JobShell.Proofs.Line.Offsets
import JobShell.Proofs.Line.WordOffsets
import JobShell.Proofs.Line.Indices
import JobShell.Proofs.Line.Safety
import JobShell.Proofs.Line.Typing
import JobShell.Proofs.Line.Sequences
import JobShell.Proofs.Syntax.OpenQuotes
import JobShell.Proofs.Session.OpenLines
import JobShell.Proofs.Text.Rounds
import JobShell.Proofs.Text.Octets
import JobShell.Proofs.Syntax.ByteExpansion
import JobShell.Proofs.Syntax.ByteSegments
import JobShell.Proofs.Syntax.ByteReader
import JobShell.Proofs.History.Recency
import JobShell.Proofs.Line.Accepting
import JobShell.Proofs.Text.Decoding
import JobShell.Proofs.History.Unfinished
import JobShell.Proofs.Session.Preparing
import JobShell.Proofs.Syntax.Tildes
import JobShell.Proofs.Session.SearchPath
import JobShell.Proofs.Job.Foreground
import JobShell.Proofs.Line.Extending
import JobShell.Proofs.Job.LifeCycle
import JobShell.Proofs.Session.Resuming
import JobShell.Proofs.Session.Redirecting
import JobShell.Proofs.Line.Boundaries
import JobShell.Proofs.Syntax.Descriptors
import JobShell.Proofs.Line.Vocabulary
import JobShell.Proofs.History.Clearing
import JobShell.Proofs.System.Directories
import JobShell.Proofs.Session.Agreement
