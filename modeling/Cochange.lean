import Cochange.Text.Characters
import Cochange.Text.Lowercase
import Cochange.Text.Hidden
import Cochange.Text.Alphanumeric
import Cochange.QualifiedId.Parse
import Cochange.Decimal.Layout
import Cochange.SourceTree
import Cochange.Language
import Cochange.Instant.Rfc3339
import Cochange.History
import Cochange.OutputFormat
import Cochange.SparseMatrix
import Cochange.Blob.Search
import Cochange.Graph.Json
import Cochange.ChangeCounter
import Cochange.DivergentChange
import Cochange.FeatureEnvy
import Cochange.Json.Parser
import Cochange.Json.Printer
import Cochange.Decimal.Reading
import Cochange.Config.Reading
import Cochange.Path
import Cochange.Program.Machine
import Cochange.Main
import Cochange.Inspection
import Cochange.Context.Json
import Cochange.DivergentChange.Json
import Cochange.FeatureEnvy.Json
import Cochange.Proofs.Counting.Contexts
import Cochange.Proofs.Counting.Edited
import Cochange.Proofs.Counting.Recount
import Cochange.Proofs.Heap.Order
import Cochange.Proofs.Heap.Sift
import Cochange.Proofs.Heap.Spec
import Cochange.Proofs.Density.Basic
import Cochange.Proofs.Density.Exact
import Cochange.Proofs.Density.Plain
import Cochange.Proofs.Density.Links
import Cochange.Proofs.Density.Peeling
import Cochange.Proofs.Density.Densest
import Cochange.Proofs.Graph.Partition
import Cochange.Proofs.Graph.Components
import Cochange.Proofs.Density.Graphs
import Cochange.Proofs.Density.Leftover
import Cochange.Proofs.Graph.Connected
import Cochange.Proofs.Density.Blobs
import Cochange.Proofs.Density.Cohesion
import Cochange.Proofs.Files.Trees
import Cochange.Proofs.Files.Counts
import Cochange.Proofs.Files.Contexts
import Cochange.Proofs.Files.Independence
import Cochange.Proofs.Json.Literals
import Cochange.Proofs.Json.Tokens
import Cochange.Proofs.Json.Reading
import Cochange.Proofs.History.Nodes
import Cochange.Proofs.History.Revisions
import Cochange.Proofs.History.Lines
import Cochange.Proofs.History.RoundTrip
import Cochange.Proofs.Text.ByteOrder
import Cochange.Proofs.Tree.Nesting
import Cochange.Proofs.Tree.Gaps
import Cochange.Proofs.Tree.Descendants
import Cochange.Proofs.Counting.Leaving
import Cochange.Proofs.Density.Degrees
import Cochange.Proofs.Counting.Failing
import Cochange.Proofs.Contexts.Answers
import Cochange.Proofs.Contexts.Rearranged
import Cochange.Proofs.Ids.Parts
import Cochange.Proofs.Ids.Grammar
import Cochange.Proofs.Graph.Induced
import Cochange.Proofs.Graph.Dangling
import Cochange.Proofs.Graph.Search
import Cochange.Proofs.Graph.Local
import Cochange.Proofs.Heap.Checked
import Cochange.Proofs.Heap.Runs
import Cochange.Proofs.Files.Projection
import Cochange.Proofs.Contexts.Thresholds
import Cochange.Proofs.Counting.Kinds
import Cochange.Proofs.Program.Directories
import Cochange.Proofs.Envy.Report
import Cochange.Proofs.Envy.Stricter
import Cochange.Proofs.Graph.Denser
import Cochange.Proofs.Divergence.Report
import Cochange.Proofs.Density.Covering
import Cochange.Proofs.Graph.Merging
import Cochange.Proofs.Density.AntiBlob
import Cochange.Proofs.Heap.Rekeyed
import Cochange.Proofs.Density.Rearranged
import Cochange.Proofs.Graph.Repeated
import Cochange.Proofs.Contexts.Listing
import Cochange.Proofs.Ids.Children
import Cochange.Proofs.Walk.Places
import Cochange.Proofs.Walk.Stack
import Cochange.Proofs.Walk.Preorder
import Cochange.Proofs.Tree.Undo
import Cochange.Proofs.Counting.Limits
import Cochange.Proofs.Matrix.Cells
import Cochange.Proofs.Matrix.Refinement
import Cochange.Proofs.Program.Containment
import Cochange.Proofs.Text.Lowering
import Cochange.Proofs.Languages.Extensions
import Cochange.Proofs.Graph.Algebra
import Cochange.Proofs.Counting.Numbering
import Cochange.Proofs.Contexts.Lookups
import Cochange.Proofs.Counting.Lookups
