/-
**The boot track of the GRUB4DOS sticks** (`windows_ntxp.rs`, `windows_2000.rs`).

The first sectors of the stick are the boot code with a partition table patched into it.
-/

import Bootsmith.Disk.Guard
import Bootsmith.Library.Endian
import Bootsmith.Pipeline.System

namespace Bootsmith.Pipeline

open Bootsmith.Library Bootsmith.Disk

def sectorSize : Nat := 512

/-- The first sector of the partition. -/
def partitionStartLba : Nat := 2048

/-- The table entry of an active FAT32 partition: the flag, the first sector in the old form, the type, the
last sector in the old form, and the first sector and their number. -/
def partitionEntry (partitionSectors : Nat) : Bytes :=
  [0x80] ++ [0x20, 0x21, 0x00] ++ [0x0c] ++ [0xfe, 0xff, 0xff] ++ leBytes 4 partitionStartLba
    ++ leBytes 4 partitionSectors

def patchPartitionTable (mbrTrack : Bytes) (diskSizeBytes : Nat) : Fallible Bytes :=
  if mbrTrack.length < 512 then Fallible.bail "GRUB4DOS MBR asset shorter than one sector"
  else
    let diskSectors := diskSizeBytes / sectorSize
    if diskSectors ≤ partitionStartLba then
      Fallible.bail s!"device is too small for a partition starting at LBA {partitionStartLba}"
    else do
      let partitionSectors ← Fallible.context
        "device too large for this MBR-only prototype path (>2TiB partition)"
        (tryFrom (2 ^ 32) (diskSectors - partitionStartLba))
      let mbrTrack := overlay mbrTrack 446 (partitionEntry partitionSectors)
      let mbrTrack := overlay mbrTrack 462 (List.replicate 48 0)
      pure (overlay mbrTrack 510 [0x55, 0xaa])

/-- Write the boot track, and read it back when the run verifies. -/
def writeGrub4dosMbrTrack (grldrMbr : Bytes) (info : DeviceInfo) (verify : Bool) : Io Unit :=
  withRaw "opening whole disk for GRUB4DOS MBR write" info.path fun geometry => do
    let bootTrack ← Exchange.lift (patchPartitionTable grldrMbr geometry.sizeBytes)
    writeRaw info.path 0 bootTrack
    syncRaw info.path
    if verify then readBack "GRUB4DOS MBR/boot-track write verify mismatch" info.path bootTrack
    else pure ()

end Bootsmith.Pipeline
