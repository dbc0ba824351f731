import RiscvTables.Build
import RiscvTables.Command.Run
import RiscvTables.Json.Reader
import RiscvTables.Main
import RiscvTables.Proofs.Text.Utf8
import RiscvTables.Proofs.Outcome
import RiscvTables.Proofs.Record.Store
import RiscvTables.Proofs.Rhct.Node
import RiscvTables.Proofs.Rhct.Layout
import RiscvTables.Proofs.Rhct.Checksum
import RiscvTables.Proofs.Rhct.RoundTrip
import RiscvTables.Proofs.Rhct.Entries
import RiscvTables.Proofs.Rhct.Admissible
import RiscvTables.Proofs.DeviceTree.Edit
import RiscvTables.Proofs.DeviceTree.Reachable
import RiscvTables.Proofs.DeviceTree.WellFormed
import RiscvTables.Proofs.DeviceTree.Preorder
import RiscvTables.Proofs.Loop
import RiscvTables.Proofs.DeviceTree.Walks
import RiscvTables.Proofs.DeviceTree.Compatible
import RiscvTables.Proofs.DeviceTree.Paths
import RiscvTables.Proofs.DeviceTree.Spelling
import RiscvTables.Proofs.DeviceTree.Token
import RiscvTables.Proofs.DeviceTree.Header
import RiscvTables.Proofs.DeviceTree.Blob
import RiscvTables.Proofs.DeviceTree.Rebuild
import RiscvTables.Proofs.DeviceTree.Replay
import RiscvTables.Proofs.DeviceTree.InOrder
import RiscvTables.Proofs.DeviceTree.RoundTrip
import RiscvTables.Proofs.Topology.Journal
import RiscvTables.Proofs.Topology.HartTable
import RiscvTables.Proofs.Topology.Harts
import RiscvTables.Proofs.Record.Platform
import RiscvTables.Proofs.Topology
import RiscvTables.Proofs.Platform.Config
import RiscvTables.Proofs.Topology.Capabilities
import RiscvTables.Proofs.Build
import RiscvTables.Proofs.Topology.Contexts
import RiscvTables.Proofs.Topology.Banks
import RiscvTables.Proofs.Topology.ExternalIds
import RiscvTables.Proofs.Topology.Gsi
import RiscvTables.Proofs.Topology.Independence
import RiscvTables.Proofs.Topology.Publication
import RiscvTables.Proofs.Rhct.Damage
import RiscvTables.Proofs.Rhct.Retention
import RiscvTables.Proofs.Rhct.Indexed
import RiscvTables.Proofs.Rhct.Positions
import RiscvTables.Proofs.DeviceTree.Renumbering
import RiscvTables.Proofs.Topology.Renumbering
import RiscvTables.Proofs.DeviceTree.Grammar
import RiscvTables.Proofs.DeviceTree.Acceptance
import RiscvTables.Proofs.DeviceTree.Versions
import RiscvTables.Proofs.DeviceTree.Session
import RiscvTables.Proofs.DeviceTree.PhandleIndex
import RiscvTables.Proofs.Topology.Receiver
import RiscvTables.Proofs.Topology.Controllers
import RiscvTables.Proofs.Topology.Rewiring
import RiscvTables.Proofs.Topology.Pages
import RiscvTables.Proofs.Rhct.NodeArea
import RiscvTables.Proofs.Rhct.Size
import RiscvTables.Proofs.Platform.Overrides
import RiscvTables.Proofs.Record.History
import RiscvTables.Proofs.Topology.HartColumns
import RiscvTables.Proofs.Topology.HartHistory
import RiscvTables.Proofs.DeviceTree.Cells
import RiscvTables.Proofs.DeviceTree.Regions
import RiscvTables.Proofs.Topology.Discovery
import RiscvTables.Proofs.DeviceTree.Names
import RiscvTables.Proofs.DeviceTree.Indexed
import RiscvTables.Proofs.DeviceTree.Positions
import RiscvTables.Proofs.DeviceTree.Writer
import RiscvTables.Proofs.Topology.IndexWidth
import RiscvTables.Proofs.Topology.CacheBlocks
import RiscvTables.Proofs.Platform.Validation
import RiscvTables.Proofs.Text.Parser
import RiscvTables.Proofs.Document
import RiscvTables.Proofs.Format
import RiscvTables.Proofs.Toml.Strings
import RiscvTables.Proofs.Toml.Lines
import RiscvTables.Proofs.Toml.Layouts
import RiscvTables.Proofs.Toml.Format
import RiscvTables.Proofs.Platform.File
