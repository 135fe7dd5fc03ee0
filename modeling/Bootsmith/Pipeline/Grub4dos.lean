/-
**The GRUB4DOS pipelines** (`windows_ntxp.rs`, `windows_2000.rs`).

The two pipelines prepare the stick in the same steps (`runGrub4dos`) and differ in the files they stage.
-/

import Bootsmith.Driver.Stage
import Bootsmith.Pipeline.BootTrack

namespace Bootsmith.Pipeline

open Bootsmith.Library Bootsmith.Disk Bootsmith.Core

/-! ### The common steps -/

/-- The steps of both pipelines: the checks of the assets and of the capacity, the boot track, the format,
the files, and the eject. -/
def runGrub4dos (checks : Fallible Unit) (grldrMbr : Bytes) (stage : Text → Io Unit) (plan : WritePlan)
    (info : DeviceInfo) (verify : Bool) : Io Unit := do
  let bsdPath := bsdPathOf info.path
  let partitionRaw := partitionOf info.path
  Exchange.lift checks
  Exchange.context "unmount before GRUB4DOS MBR write" (unmountDisk bsdPath)
  Exchange.context "writing GRUB4DOS MBR/boot track" (writeGrub4dosMbrTrack grldrMbr info verify)
  rereadPartitionTable bsdPath
  let usbMount ← formatPartition bsdPath partitionRaw plan.label
  stage usbMount
  Exchange.context "unmount after staging files" (unmountDisk bsdPath)
  Exchange.context "eject after write" (eject bsdPath)

/-- The checks of the embedded files; `floppy` is the name of the floppy image. -/
def validateAssets (grldrMbr grldr : Bytes) (floppy : String) (floppyBytes : Nat) : Fallible Unit :=
  if grldrMbr.length < 16 * sectorSize ∨ grldrMbr.length % sectorSize ≠ 0 then
    Fallible.bail s!"embedded grldr.mbr has unexpected length {grldrMbr.length}"
  else if grldr = [] then Fallible.bail "embedded GRLDR asset is empty"
  else if floppyBytes ≠ 1474560 then
    Fallible.bail s!"embedded {floppy} has unexpected length {floppyBytes}; expected 1.44MB floppy image"
  else .ok ()

/-! ### Windows NT and XP -/

namespace NtXp

def copyIsoAsXpIso (src dest : Text) : Io Unit := do
  let _ ← fileSize src
  let input ← openFile "open" src
  createFile "create" dest
  copyChunks "read ISO" "write XP.ISO" dest input.broken input.source

/-- The drivers of the folder that the user names. -/
def slipstreamStep (order : Driver.HashOrder) (folderAt : Text → Driver.Folder) (xpIso : Text) :
    Option Text → Io Unit
  | none => pure ()
  | some dir => Exchange.context s!"slipstreaming AHCI drivers from {String.ofList dir}"
      (Exchange.ask (.editImage xpIso (Driver.slipstreamAhciIntoIso order (folderAt dir))) id)

/-- The floppy, with the answer file in it and in the ISO when a setup is unattended. -/
def answerStep (firadisk : Image) (xpIso : Text) : Option UnattendedConfig → Io Image
  | none => pure firadisk
  | some unattended => do
    let sif := toUtf8 (Unattended.generateWinntSifNtXp unattended)
    let firadisk ← Exchange.lift (Fallible.context
      "injecting A:\\WINNT.SIF into FiraDisk floppy image" (Driver.leaves (Floppy.addWinntSif sif) firadisk))
    Exchange.context s!"injecting I386/WINNT.SIF into {String.ofList xpIso}"
      (Exchange.ask (.editImage xpIso (Iso.injectWinntSif sif)) id)
    pure firadisk

def stageFiles (order : Driver.HashOrder) (assets : Driver.Assets) (folderAt : Text → Driver.Folder)
    (plan : WritePlan) (usbMount : Text) (config : Config) : Io Unit := do
  writeFile (join usbMount "GRLDR".toList) assets.grldr
  writeFile (join usbMount "menu.lst".toList) (toUtf8 Driver.menuLst)
  let xpIso := join usbMount "XP.ISO".toList
  copyIsoAsXpIso plan.isoPath xpIso
  slipstreamStep order folderAt xpIso config.ahciDriverDir
  let firadisk ← answerStep assets.firadiskIma xpIso config.unattended
  writeFile (join usbMount "FIRADISK.IMA".toList) firadisk.bytes
  syncAll

def run (order : Driver.HashOrder) (grldrMbr : Bytes) (assets : Driver.Assets)
    (folderAt : Text → Driver.Folder) (plan : WritePlan) (info : DeviceInfo) (config : RunConfig) : Io Unit :=
  runGrub4dos
    (do
      validateAssets grldrMbr assets.grldr "FIRADISK.IMA" assets.firadiskIma.size
      Driver.validateCapacity assets plan info)
    grldrMbr
    (fun usbMount => Exchange.context "staging GRUB4DOS/FiraDisk XP payload"
      (stageFiles order assets folderAt plan usbMount config.toConfig))
    plan info config.verify

end NtXp

/-! ### Windows 2000 -/

namespace Win2000

/-- The embedded files. -/
structure Assets where
  grldr : Bytes
  svbusIma : Image

def menuLst : Text :=
  ("timeout 10\ndefault 0\n\n"
    ++ "title 1. Win2k text-mode setup from RAM ISO (SVBus)\n"
    ++ "map --mem /SVBUS.IMA (fd0)\nmap --mem /WIN2K.ISO (0xff)\nmap --hook\nchainloader (0xff)\n\n"
    ++ "title 2. Boot installed Windows 2000 (requires rdisk(0) in boot.ini)\n"
    ++ "map (hd0) (hd1)\nmap (hd1) (hd0)\nmap --hook\nrootnoverify (hd0,0)\n"
    ++ "chainloader (hd0,0)/ntldr\nboot\n\n"
    ++ "title 3. Win2k text-mode setup via direct SETUPLDR.BIN (fallback)\n"
    ++ "map --mem /SVBUS.IMA (fd0)\nmap --mem /WIN2K.ISO (0xff)\nmap --hook\nroot (0xff)\n"
    ++ "chainloader (0xff)/I386/SETUPLDR.BIN\n").toList

def neededBytes (assets : Assets) (plan : WritePlan) : Nat :=
  plan.isoBytes + assets.grldr.length + assets.svbusIma.size + (toUtf8 menuLst).length + 16 * 1024 * 1024

def validateCapacity (assets : Assets) (plan : WritePlan) (info : DeviceInfo) : Fallible Unit :=
  let needed := neededBytes assets plan
  let usable := info.sizeBytes - partitionStartLba * sectorSize
  if needed > usable then
    Fallible.bail s!"Win2k SVBus payload needs {needed} bytes; device has about {usable} usable bytes"
  else .ok ()

def copyIsoTo (src dst : Text) : Io Unit := do
  let input ← openFile "opening" src
  createFile "creating" dst
  let _ ← fileSize src
  copyChunks "read ISO" "write WIN2K.ISO" dst input.broken input.source

/-- The floppy, and the answer file in it and in the ISO when a setup is unattended. -/
def floppyStep (assets : Assets) (usbMount win2kIso : Text) : Option UnattendedConfig → Io Unit
  | none => writeFile (join usbMount "SVBUS.IMA".toList) assets.svbusIma.bytes
  | some unattended => do
    let sif := toUtf8 (Unattended.generateWinntSif2000 unattended)
    let svbus ← Exchange.lift (Fallible.context "injecting A:\\WINNT.SIF into SVBus floppy image"
      (Driver.leaves (Floppy.addWinntSif sif) assets.svbusIma))
    writeFile (join usbMount "SVBUS.IMA".toList) svbus.bytes
    Exchange.context s!"injecting I386/WINNT.SIF into {String.ofList win2kIso}"
      (Exchange.ask (.editImage win2kIso (Iso.injectWinntSif sif)) id)

def stageFiles (assets : Assets) (plan : WritePlan) (usbMount : Text) (config : Config) : Io Unit := do
  writeFile (join usbMount "GRLDR".toList) assets.grldr
  writeFile (join usbMount "menu.lst".toList) (toUtf8 menuLst)
  let win2kIso := join usbMount "WIN2K.ISO".toList
  copyIsoTo plan.isoPath win2kIso
  floppyStep assets usbMount win2kIso config.unattended
  syncAll

def run (grldrMbr : Bytes) (assets : Assets) (plan : WritePlan) (info : DeviceInfo) (config : RunConfig) :
    Io Unit :=
  runGrub4dos
    (do
      validateAssets grldrMbr assets.grldr "SVBUS.IMA" assets.svbusIma.size
      validateCapacity assets plan info)
    grldrMbr
    (fun usbMount => Exchange.context "staging GRUB4DOS/SVBus Win2k payload"
      (stageFiles assets plan usbMount config.toConfig))
    plan info config.verify

end Win2000

end Bootsmith.Pipeline
