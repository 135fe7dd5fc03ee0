/-
**The pipeline of Windows 7 and later** (`pipeline/windows.rs`).

The boot records come from a library (`Bootrec`); what it makes of its input is left open. The files of the
ISO are copied from its mount point to the formatted volume, folders first.
-/

import Bootsmith.Disk.Guard
import Bootsmith.Library.StableSort
import Bootsmith.Pipeline.System
import Mathlib.Data.Char
import Mathlib.Data.List.Lex
import Mathlib.Data.Prod.Lex

namespace Bootsmith.Pipeline.Windows

open Bootsmith.Library Bootsmith.Disk Bootsmith.Core

/-! ### Boot records -/

/-- The library of boot records: whether its boot code is there, the first sector for a disk of so many
sectors, and the boot sectors of a partition for the sectors that the format left. -/
structure Bootrec where
  embedded : Bool
  mbrWin7 : Nat → Except String { bytes : Bytes // bytes.length = 512 }
  spliceFat32PbrMulti : Bytes → Except String Bytes

def buildMbrWin7 (bootrec : Bootrec) (diskSizeBytes : Nat) : Fallible Bytes :=
  (told ["bootrec::mbr_win7"] (bootrec.mbrWin7 (diskSizeBytes / 512))).map Subtype.val

def splicePbrBootmgr (bootrec : Bootrec) (formatterReserved : Bytes) : Fallible Bytes :=
  told ["bootrec::splice_fat32_pbr_multi"] (bootrec.spliceFat32PbrMulti formatterReserved)

def ensureEmbeddedBlobs (bootrec : Bootrec) : Fallible Unit :=
  if bootrec.embedded then .ok ()
  else Fallible.bail "bootrec was built without embedded boot blobs; rebuild with --features embed-boot-asm or pass --boot-record=ms-sys"

def writeMbrSector (bootrec : Bootrec) (info : DeviceInfo) : Io Unit := do
  let mbr ← Exchange.lift (buildMbrWin7 bootrec info.sizeBytes)
  withRaw "opening whole disk for MBR write" info.path fun _ => do
    writeRaw info.path 0 mbr
    syncRaw info.path
    readBack "MBR write verify mismatch" info.path mbr

def splicePbr (bootrec : Bootrec) (partitionRaw : Text) (verify : Bool) : Io Unit :=
  withRaw s!"opening {String.ofList partitionRaw} for PBR splice" partitionRaw fun _ => do
    let existing ← readRaw partitionRaw 0 1024
    let spliced ← Exchange.lift (splicePbrBootmgr bootrec existing)
    writeRaw partitionRaw 0 spliced
    syncRaw partitionRaw
    if verify then readBack "PBR splice verify mismatch" partitionRaw spliced else pure ()

/-! ### The files -/

structure CopyEntry where
  rel : List Text
  size : Nat
  isDir : Bool
  deriving DecidableEq

/-- The entries below a folder, in the order in which the folders are read. -/
def walkRecursive (rel : List Text) : Listing → Fallible (List CopyEntry)
  | .nil => .ok []
  | .file name size rest => do
    let entries ← walkRecursive rel rest
    pure (⟨rel ++ [name], size, false⟩ :: entries)
  | .folder name children rest => do
    let below ← walkRecursive (rel ++ [name]) children
    let entries ← walkRecursive rel rest
    pure (⟨rel ++ [name], 0, true⟩ :: below ++ entries)
  | .special _ rest => walkRecursive rel rest
  | .denied chain => .error (.error chain)

/-- The order of the entries: folders before files, and each by their paths. -/
def CopyEntry.key (entry : CopyEntry) : Bool ×ₗ List (List Char) := toLex (!entry.isDir, entry.rel)

def walkFiles (listing : Listing) : Fallible (List CopyEntry) := do
  let out ← walkRecursive [] listing
  pure (sortBy CopyEntry.key out)

/-- The path of an entry below a mount point. -/
def entryPath (mount : Text) (rel : List Text) : Text := rel.foldl join mount

def createFolder (usbMount : Text) (entry : CopyEntry) : Io Unit :=
  let dest := entryPath usbMount entry.rel
  Exchange.ask (.createDirAll dest) (told [s!"mkdir {String.ofList dest}"])

def copyFile (isoMount usbMount : Text) (entry : CopyEntry) : Io Unit :=
  let src := entryPath isoMount entry.rel
  let dest := entryPath usbMount entry.rel
  Exchange.context s!"copy {String.ofList src} -> {String.ofList dest}" do
    let input ← openFile "open" src
    createFile "create" dest
    copyChunks "read from ISO" "write to USB" dest input.broken input.source

/-- One call for each entry. -/
def forEach (call : CopyEntry → Io Unit) : List CopyEntry → Io Unit
  | [] => pure ()
  | entry :: entries => do
    call entry
    forEach call entries

def copyIsoContents (isoMount usbMount : Text) : Io Unit := do
  let listing ← Exchange.ask (.readTree isoMount) .ok
  let entries ← Exchange.lift (walkFiles listing)
  forEach (createFolder usbMount) (entries.filter (·.isDir))
  forEach (copyFile isoMount usbMount) (entries.filter (!·.isDir))
  syncAll

/-! ### The run -/

/-- The boot records behind the copy. -/
def writeBootRecords (bootrec : Bootrec) (bsdPath partitionRaw partitionBsd : Text) (verify : Bool) :
    Option Text → Io Unit
  | some msSys => do
    Exchange.context "ms-sys --mbr7 (writing Win 7 MBR boot code)" (msSysMbr7 msSys bsdPath)
    Exchange.context "force-unmount between ms-sys --mbr7 and --fat32pe" (unmountDiskForce bsdPath)
    Exchange.context "ms-sys --fat32pe (writing FAT32 PE PBR)" (msSysFat32pe msSys partitionBsd)
  | none => do
    Exchange.context "force-unmount before bootrec PBR splice" (unmountDiskForce bsdPath)
    Exchange.context "bootrec FAT32 BOOTMGR PBR splice" (splicePbr bootrec partitionRaw verify)

/-- The binary of `ms-sys`, when it writes the boot records. -/
def resolveMsSys (bootrec : Bootrec) : BootRecordImpl → Io (Option Text)
  | .msSys => do
    let msSys ← findMsSys
    pure (some msSys)
  | .bootrec => do
    Exchange.lift (ensureEmbeddedBlobs bootrec)
    pure none

/-- The copy between the attach and the detach, which is made whatever came of the copy. -/
def copyFromIso (isoPath usbMount : Text) : Io Unit := do
  let isoMount ← Exchange.context s!"attaching ISO {String.ofList isoPath}" (hdiutilAttachIso isoPath)
  let copyResult ← Exchange.attempt (copyIsoContents isoMount usbMount)
  let _ ← Exchange.attempt (hdiutilDetach isoMount)
  Exchange.context "copying ISO contents to USB" (Exchange.lift copyResult)

def run (bootrec : Bootrec) (plan : WritePlan) (info : DeviceInfo) (config : RunConfig) : Io Unit := do
  let bsdPath := bsdPathOf info.path
  let partitionRaw := partitionOf info.path
  let partitionBsd := partitionOf bsdPath
  let msSys ← resolveMsSys bootrec config.bootRecordImpl
  Exchange.context "unmount before partition write" (unmountDisk bsdPath)
  writeMbrSector bootrec info
  rereadPartitionTable bsdPath
  let usbMount ← formatPartition bsdPath partitionRaw plan.label
  copyFromIso plan.isoPath usbMount
  Exchange.context "unmount before MBR/PBR write" (unmountDisk bsdPath)
  writeBootRecords bootrec bsdPath partitionRaw partitionBsd config.verify msSys
  let _ ← Exchange.attempt (unmountDisk bsdPath)
  Exchange.context "eject after write" (eject bsdPath)

end Bootsmith.Pipeline.Windows
