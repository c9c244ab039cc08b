import CallAtlas.Main
import CallAtlas.View.Http
import CallAtlas.Proofs.Pruning
import CallAtlas.Proofs.View.Toggles
import CallAtlas.Proofs.Growth.WellGrown
import CallAtlas.Proofs.Integrity
import CallAtlas.Proofs.Growth.Depth
import CallAtlas.Proofs.Graph.Arrows
import CallAtlas.Proofs.Graph.Edges
import CallAtlas.Proofs.Graph.Links
import CallAtlas.Proofs.Text.Delimited
import CallAtlas.Proofs.Graph.DotText
import CallAtlas.Proofs.FileSystem.Canonical
import CallAtlas.Proofs.Lookup.Items
import CallAtlas.Proofs.Lookup.Closed
import CallAtlas.Proofs.Lookup.Dual
import CallAtlas.Proofs.View.Requests
import CallAtlas.Proofs.Batch.Outputs
import CallAtlas.Proofs.Path
import CallAtlas.Proofs.Batch.Orders
import CallAtlas.Proofs.Batch.Failures
import CallAtlas.Proofs.FileSystem.Alike
import CallAtlas.Proofs.Attribution
import CallAtlas.Proofs.Graph.Hrefs
import CallAtlas.Proofs.View.Confinement
import CallAtlas.Proofs.View.PlainPages
import CallAtlas.Proofs.Growth.Reuse
import CallAtlas.Proofs.Json
import CallAtlas.Proofs.Settings
import CallAtlas.Proofs.FileSystem.Ways
import CallAtlas.Proofs.Batch.Confined
import CallAtlas.Proofs.Lookup.Selections
import CallAtlas.Proofs.Lookup.Expansions
import CallAtlas.Proofs.Labels
import CallAtlas.Proofs.Graph.Merging
import CallAtlas.Proofs.Nesting
import CallAtlas.Proofs.View.Stores
import CallAtlas.Proofs.Candidates
import CallAtlas.Proofs.Comments.Json
import CallAtlas.Proofs.Layout.Spacing
import CallAtlas.Proofs.Layout.Nodes
import CallAtlas.Proofs.Layout.Parsing
import CallAtlas.Proofs.Layout.Literals
import CallAtlas.Proofs.Layout.Expressions
import CallAtlas.Proofs.Layout.Statements
import CallAtlas.Proofs.CallSites.Names
import CallAtlas.Proofs.CallSites.Order
import CallAtlas.Proofs.Json.Members
import CallAtlas.Proofs.Settings.Layouts
import CallAtlas.Proofs.Json.Spelling
import CallAtlas.Proofs.Settings.Repetition
import CallAtlas.Proofs.FileSystem.Scan
import CallAtlas.Proofs.Text.Decoding
import CallAtlas.Proofs.View.Addresses
import CallAtlas.Proofs.Copies
import CallAtlas.Proofs.Walks
import CallAtlas.Proofs.Text.Utf8
import CallAtlas.Proofs.Text.Offsets
import CallAtlas.Proofs.Json.Written
import CallAtlas.Proofs.View.Scripts
