import DiscPatch.Command.Run
import DiscPatch.External.Shelf
import DiscPatch.Main
import DiscPatch.Proofs.Content.Reading
import DiscPatch.Proofs.Content.WellFormed
import DiscPatch.Proofs.Content.ByteModel
import DiscPatch.Proofs.Content.Windows
import DiscPatch.Proofs.Content.TwoOverwrites
import DiscPatch.Proofs.Content.Clipping
import DiscPatch.Proofs.External.Finding
import DiscPatch.Proofs.Disc.Places
import DiscPatch.Proofs.Disc.PlainTree
import DiscPatch.Proofs.Patch.Expansion
import DiscPatch.Proofs.Patch.PlainModel
import DiscPatch.Proofs.Patch.Runs
import DiscPatch.Proofs.Disc.Trails
import DiscPatch.Proofs.Host.Walk
import DiscPatch.Proofs.Disc.ExportPaths
import DiscPatch.Proofs.External.Confinement
import DiscPatch.Proofs.Disc.Growth
import DiscPatch.Proofs.Patch.Unavailable
import DiscPatch.Proofs.Host.Descent
import DiscPatch.Proofs.External.Isolation
import DiscPatch.Proofs.Content.Pointwise
import DiscPatch.Proofs.Disc.Entries
import DiscPatch.Proofs.Patch.Targets
import DiscPatch.Proofs.Patch.Faults
import DiscPatch.Proofs.Patch.Supplies
import DiscPatch.Proofs.Disc.Distinct
import DiscPatch.Proofs.Disc.Proper
import DiscPatch.Proofs.Patch.Errands
import DiscPatch.Proofs.Patch.Executable
import DiscPatch.Proofs.Patch.FolderFiles
import DiscPatch.Proofs.Host.Linkless
import DiscPatch.Proofs.External.Agreement
import DiscPatch.Proofs.Machine.Changes
import DiscPatch.Proofs.Machine.Intercepts
import DiscPatch.Proofs.Machine.Addresses
import DiscPatch.Proofs.Machine.Scans
import DiscPatch.Proofs.Machine.Branches
import DiscPatch.Proofs.Machine.Overhang
import DiscPatch.Proofs.Content.Assembly
import DiscPatch.Proofs.Content.Provenance
import DiscPatch.Proofs.Content.HostContent
import DiscPatch.Proofs.External.Degrading
import DiscPatch.Proofs.Host.Onward
import DiscPatch.Proofs.Host.Unambiguous
import DiscPatch.Proofs.Disc.HostMirror
import DiscPatch.Proofs.Content.Freezing
import DiscPatch.Proofs.Content.Fetches
import DiscPatch.Proofs.Disc.Creation
import DiscPatch.Proofs.Machine.PlainWrites
import DiscPatch.Proofs.External.Joining
import DiscPatch.Proofs.External.Descriptions
import DiscPatch.Proofs.Host.Extension
import DiscPatch.Proofs.Content.Dependence
import DiscPatch.Proofs.Disc.Copying
import DiscPatch.Proofs.Machine.Stops
import DiscPatch.Proofs.Document.HexSpelling
import DiscPatch.Proofs.Content.Splitting
import DiscPatch.Proofs.Command.PatchLists
import DiscPatch.Proofs.Content.Clearing
