import TerraDeps.Address
import TerraDeps.Address.Order
import TerraDeps.Catalog
import TerraDeps.Decimal.Binary64
import TerraDeps.Decimal.Shortest
import TerraDeps.DependencyGraph
import TerraDeps.DependencyGraph.BuildOrder
import TerraDeps.DependencyGraph.CycleSearch
import TerraDeps.DependencyGraph.Gathering
import TerraDeps.DependencyGraph.Nodes
import TerraDeps.Digest.Sha256
import TerraDeps.Document.Blocks
import TerraDeps.Failure
import TerraDeps.FileTree
import TerraDeps.FileTree.Files
import TerraDeps.FileTree.Lookup
import TerraDeps.Glob
import TerraDeps.Inference
import TerraDeps.Invocation
import TerraDeps.Json.Number
import TerraDeps.Json.Reader
import TerraDeps.Json.Value
import TerraDeps.Json.Writer
import TerraDeps.Listing
import TerraDeps.Main
import TerraDeps.Marker
import TerraDeps.ModuleBlock
import TerraDeps.ModulePath
import TerraDeps.ModuleReference
import TerraDeps.ModuleSource
import TerraDeps.Native.Blocks
import TerraDeps.Native.Quoted
import TerraDeps.Native.Token
import TerraDeps.OrderedSet
import TerraDeps.Path
import TerraDeps.Proofs.Address
import TerraDeps.Proofs.Address.Rereading
import TerraDeps.Proofs.Catalog
import TerraDeps.Proofs.DependencyGraph.Additions
import TerraDeps.Proofs.DependencyGraph.BuildOrder
import TerraDeps.Proofs.DependencyGraph.CycleSearch
import TerraDeps.Proofs.DependencyGraph.Cycles
import TerraDeps.Proofs.DependencyGraph.Gathering
import TerraDeps.Proofs.DependencyGraph.OfEdges
import TerraDeps.Proofs.DependencyGraph.Roots
import TerraDeps.Proofs.Document
import TerraDeps.Proofs.Document.ArrayForms
import TerraDeps.Proofs.FileTree
import TerraDeps.Proofs.FileTree.Contents
import TerraDeps.Proofs.FileTree.Places
import TerraDeps.Proofs.FileTree.Relative
import TerraDeps.Proofs.FileTree.Walk
import TerraDeps.Proofs.Inference
import TerraDeps.Proofs.Json.Texts
import TerraDeps.Proofs.Marker.Calls
import TerraDeps.Proofs.Marker.Comments
import TerraDeps.Proofs.Marker.Declarations
import TerraDeps.Proofs.Marker.Lines
import TerraDeps.Proofs.ModulePath
import TerraDeps.Proofs.ModulePath.Composition
import TerraDeps.Proofs.ModulePath.Parents
import TerraDeps.Proofs.ModuleReference
import TerraDeps.Proofs.ModuleReference.FirstFault
import TerraDeps.Proofs.ModuleSource
import TerraDeps.Proofs.Native.Balance
import TerraDeps.Proofs.Native.Blocks
import TerraDeps.Proofs.Native.CarriageReturns
import TerraDeps.Proofs.Native.Concatenation
import TerraDeps.Proofs.Native.Heredocs
import TerraDeps.Proofs.Native.LineEnds
import TerraDeps.Proofs.Native.LineNumbers
import TerraDeps.Proofs.Native.Lines
import TerraDeps.Proofs.Native.Positions
import TerraDeps.Proofs.Native.Quoted
import TerraDeps.Proofs.Native.Rendering
import TerraDeps.Proofs.Native.Templates
import TerraDeps.Proofs.Native.Turns.Tokens
import TerraDeps.Proofs.OrderedSet
import TerraDeps.Proofs.Path
import TerraDeps.Proofs.Session.PathLines
import TerraDeps.Proofs.Session.Queries
import TerraDeps.Proofs.Settings.Root
import TerraDeps.Proofs.Snapshot
import TerraDeps.Proofs.Text.EditDistance
import TerraDeps.Proofs.UnitIndex.Discovery
import TerraDeps.Proofs.UnitIndex.Ignoring
import TerraDeps.Proofs.UnitIndex.Lookup
import TerraDeps.Proofs.UnitIndex.Query
import TerraDeps.Proofs.UnitIndex.ReadBack
import TerraDeps.Proofs.UnitIndex.Selection
import TerraDeps.Proofs.UnitIndex.Sources
import TerraDeps.Proofs.UnitIndex.Suggestions
import TerraDeps.Proofs.Workspace
import TerraDeps.Report
import TerraDeps.Result
import TerraDeps.Session
import TerraDeps.Settings
import TerraDeps.Settings.Load
import TerraDeps.Snapshot
import TerraDeps.Snapshot.Capture
import TerraDeps.Terminal
import TerraDeps.Text.Blank
import TerraDeps.Text.CharRange
import TerraDeps.Text.EditDistance
import TerraDeps.Text.Hex
import TerraDeps.Text.Letter
import TerraDeps.Text.Pieces
import TerraDeps.Text.Utf8
import TerraDeps.Toml.Quoted
import TerraDeps.Toml.Reader
import TerraDeps.Toml.Scalar
import TerraDeps.Toml.Table
import TerraDeps.UnitIndex
import TerraDeps.UnitIndex.Selection
import TerraDeps.Workspace
