import Bootsmith.Library.Image
import Bootsmith.Library.Endian
import Bootsmith.Library.Fallible
import Bootsmith.Library.Packing
import Bootsmith.Library.StableSort
import Bootsmith.Library.Ascii
import Bootsmith.Library.Text
import Bootsmith.Library.Utf8
import Bootsmith.Library.File
import Bootsmith.Library.Commute
import Bootsmith.Library.Splice
import Bootsmith.Iso.Record
import Bootsmith.Iso.Directory
import Bootsmith.Iso.Mutate
import Bootsmith.Iso.Rewrite
import Bootsmith.Iso.Append
import Bootsmith.Iso.Volume
import Bootsmith.Iso.WellFormed
import Bootsmith.Iso.Steps
import Bootsmith.Iso.Run
import Bootsmith.Iso.Frame
import Bootsmith.Iso.Plant
import Bootsmith.Iso.Readback
import Bootsmith.Iso.Shape
import Bootsmith.Iso.Sizes
import Bootsmith.Iso.Order
import Bootsmith.Driver.Txtsetup
import Bootsmith.Driver.Slipstream
import Bootsmith.Driver.Anchors
import Bootsmith.Driver.Patch
import Bootsmith.Driver.Services
import Bootsmith.Driver.Pack
import Bootsmith.Driver.Registers
import Bootsmith.Library.Twelve
import Bootsmith.Library.Chain
import Bootsmith.Library.Buffer
import Bootsmith.Floppy.Layout
import Bootsmith.Floppy.Name
import Bootsmith.Floppy.Volume
import Bootsmith.Floppy.Table
import Bootsmith.Floppy.Root
import Bootsmith.Floppy.File
import Bootsmith.Floppy.Consistent
import Bootsmith.Floppy.Step
import Bootsmith.Floppy.Run
import Bootsmith.Library.Walk
import Bootsmith.Library.Checked
import Bootsmith.Disk.Name
import Bootsmith.Core.Plan
import Bootsmith.Disk.Guard
import Bootsmith.Inspect.Reader
import Bootsmith.Inspect.Tree
import Bootsmith.Inspect.Agree
import Bootsmith.Inspect.Udf
import Bootsmith.Inspect.Classify
import Bootsmith.Unattended.WinntSif
import Bootsmith.Library.Peer
import Bootsmith.Eval.Qmp
import Bootsmith.Floppy.Replace
import Bootsmith.Driver.Blocks
import Bootsmith.Driver.Verbatim
import Bootsmith.Driver.Placement
import Bootsmith.Driver.LoadLine
import Bootsmith.Library.Frame
import Bootsmith.Floppy.Separated
import Bootsmith.Floppy.Truncated
import Bootsmith.Floppy.Freed
import Bootsmith.Floppy.Listing
import Bootsmith.Iso.Late
import Bootsmith.Library.ByteSource
import Bootsmith.Disk.Raw
import Bootsmith.Hybrid.Write
import Bootsmith.Hybrid.Verify
import Bootsmith.Inspect.Recorded
import Bootsmith.Iso.Growth
import Bootsmith.Driver.Stage
import Bootsmith.Library.Keyed
import Bootsmith.Driver.Controllers
import Bootsmith.Driver.Emit
import Bootsmith.Driver.Strip
import Bootsmith.Driver.Merge
import Bootsmith.Driver.Disks
import Bootsmith.Driver.Joined
import Bootsmith.Library.Lines
import Bootsmith.Driver.Scan
import Bootsmith.Driver.Readings
import Bootsmith.Driver.Dosnet
import Bootsmith.Library.Program
import Bootsmith.Pipeline.System
import Bootsmith.Pipeline.BootTrack
import Bootsmith.Pipeline.Grub4dos
import Bootsmith.Pipeline.Hybrid
import Bootsmith.Pipeline.Windows
import Bootsmith.Pipeline.Start
import Bootsmith.Pipeline.Unmounted
import Bootsmith.Pipeline.Asked
import Bootsmith.Pipeline.Confined
import Bootsmith.Pipeline.Finished
import Bootsmith.Pipeline.Verified
import Bootsmith.Library.Machine
import Bootsmith.Pipeline.HybridRun
import Bootsmith.Library.PartitionTable
import Bootsmith.Pipeline.Bootable
import Bootsmith.Library.Store
import Bootsmith.Pipeline.Files
import Bootsmith.Pipeline.Copied
import Bootsmith.Pipeline.Folders
import Bootsmith.Pipeline.Staged
import Bootsmith.Driver.Installed
import Bootsmith.Eval.Harness
import Bootsmith.Eval.Killed
import Bootsmith.Eval.Judged
import Bootsmith.Pipeline.Win2000
import Bootsmith.Disk.Enumerate
import Bootsmith.Library.Placed
import Bootsmith.Floppy.Laid
