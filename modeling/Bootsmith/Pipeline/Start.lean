/-
**A whole run** (`pipeline.rs`): the checks and the question to the user, and the pipeline of the mode.
-/

import Bootsmith.Pipeline.Grub4dos
import Bootsmith.Pipeline.Hybrid
import Bootsmith.Pipeline.Windows

namespace Bootsmith.Pipeline

open Bootsmith.Library Bootsmith.Disk Bootsmith.Core

/-- What is built into the program, the order of its hash sets, and the folders of drivers. -/
structure Parts where
  grldrMbr : Bytes
  ntXp : Driver.Assets
  win2000 : Win2000.Assets
  bootrec : Windows.Bootrec
  order : Driver.HashOrder
  folderAt : Text → Driver.Folder

/-- The pipeline of the mode. -/
def startPipeline (parts : Parts) (plan : WritePlan) (info : DeviceInfo) (config : RunConfig) : Io Unit :=
  match plan.mode with
  | .hybrid => Exchange.context "hybrid mode pipeline failed" (Hybrid.run plan info config.verify)
  | .windows =>
    Exchange.context "Windows 7+ mode pipeline failed" (Windows.run parts.bootrec plan info config)
  | .windowsNtXp => Exchange.context "Windows NT/XP FiraDisk mode pipeline failed"
      (NtXp.run parts.order parts.grldrMbr parts.ntXp parts.folderAt plan info config)
  | .windows2000 => Exchange.context "Windows 2000 SVBus mode pipeline failed"
      (Win2000.run parts.grldrMbr parts.win2000 plan info config)
  | .isolinuxLinux => Exchange.bail "isolinux Linux mode lands in v0.4"
  | .uefiOnly => Exchange.bail "UEFI-only mode lands in v0.4"

/-- A run: the checks, and the pipeline unless the run is dry. -/
def runPipeline (parts : Parts) (host : Host) (config : RunConfig) : Io Unit := do
  let outcome ← Exchange.lift (Disk.run host config.toConfig)
  match outcome with
  | .dryRun _ => pure ()
  | .started plan info => startPipeline parts plan info config

/-! ### Samples -/

/-- A stick at `/dev/rdisk3`, and what is written to it. -/
def sampleInfo : DeviceInfo := ⟨"/dev/rdisk3".toList, 64000000000, "Sample Media".toList, false, false, true⟩

def samplePlan (mode : BootMode) : WritePlan := ⟨"sample.iso".toList, 700000000, mode, "BOOTSMITH".toList⟩

/-- A hybrid run on a slice of the stick. -/
def sampleRunConfig : RunConfig := { Disk.sampleConfig with verify := true, bootRecordImpl := .bootrec }

/-- Assets of the lengths the embedded ones have, and boot records of zeros. -/
def sampleParts : Parts where
  grldrMbr := List.replicate 8192 0
  ntXp := Driver.blankAssets
  win2000 := ⟨List.replicate 283887 0, Image.zeros 1474560⟩
  bootrec := ⟨true, fun _ => .ok ⟨List.replicate 512 0, List.length_replicate⟩, fun sectors => .ok sectors⟩
  order := .plain
  folderAt _ := Driver.driverFolder [1]

/-- What a program leaves that prints a text and succeeds. -/
def sampleOutput (text : String) : Output := ⟨some 0, text.toList, []⟩

/-- A run of the Windows pipeline on the sample stick, up to the attach of an ISO. -/
def sampleAttached : History :=
  let disk := bsdPathOf sampleInfo.path
  let ran : Except String Output := .ok (sampleOutput "")
  [⟨.command (.unmountDisk disk), ran⟩, ⟨.openRaw sampleInfo.path, .ok ⟨512, 125000000⟩⟩,
    ⟨.writeRaw sampleInfo.path 0 (List.replicate 512 0), .ok ()⟩, ⟨.syncRaw sampleInfo.path, .ok ()⟩,
    ⟨.readRaw sampleInfo.path 0 (List.replicate 512 0).length, .ok ⟨List.replicate 512 0, rfl⟩⟩,
    ⟨.closeRaw sampleInfo.path, ()⟩, ⟨.command (.unmountDisk disk), ran⟩, ⟨.command (.mountDisk disk), ran⟩,
    ⟨.command (.unmountDiskForce disk), ran⟩,
    ⟨.command (.newfsMsdosFat32 (partitionOf sampleInfo.path) "BOOTSMITH".toList), ran⟩,
    ⟨.command (.mountDisk disk), ran⟩, ⟨.pathExists (volumePath "BOOTSMITH".toList), true⟩,
    ⟨.command (.hdiutilAttach "sample.iso".toList), .ok (sampleOutput "/dev/disk5  /Volumes/ISO\n")⟩]

/-- What comes behind it when a folder of the ISO cannot be created. -/
def sampleStopped : History :=
  [⟨.readTree "/Volumes/ISO".toList, .folder "SETUP".toList .nil .nil⟩,
    ⟨.createDirAll (Windows.entryPath (volumePath "BOOTSMITH".toList) ["SETUP".toList]), .error "No space left"⟩,
    ⟨.command (.hdiutilDetach "/Volumes/ISO".toList), .error "not found"⟩]

/-- Why that run stops. -/
def sampleStop : List String :=
  let folder := Windows.entryPath (volumePath "BOOTSMITH".toList) ["SETUP".toList]
  ["Windows 7+ mode pipeline failed", "copying ISO contents to USB", s!"mkdir {String.ofList folder}", "No space left"]

set_option maxRecDepth 20000 in
theorem sampleStopped_traces :
    Program.Traces (startPipeline sampleParts (samplePlan .windows) sampleInfo sampleRunConfig)
      (sampleAttached ++ sampleStopped) (.error (.error sampleStop)) := by
  iterate 16 apply Program.Traces.ask
  exact .done _

/-- What comes behind it when the ISO is empty and nothing fails. -/
def sampleBooted : History :=
  let disk := bsdPathOf sampleInfo.path
  let partition := partitionOf sampleInfo.path
  let ran : Except String Output := .ok (sampleOutput "")
  let sectors : Bytes := List.replicate 1024 0
  [⟨.readTree "/Volumes/ISO".toList, .nil⟩, ⟨.command .sync, ran⟩,
    ⟨.command (.hdiutilDetach "/Volumes/ISO".toList), ran⟩, ⟨.command (.unmountDisk disk), ran⟩,
    ⟨.command (.unmountDiskForce disk), ran⟩, ⟨.openRaw partition, .ok ⟨512, 124997952⟩⟩,
    ⟨.readRaw partition 0 1024, .ok ⟨sectors, List.length_replicate⟩⟩, ⟨.writeRaw partition 0 sectors, .ok ()⟩,
    ⟨.syncRaw partition, .ok ()⟩, ⟨.readRaw partition 0 sectors.length, .ok ⟨sectors, rfl⟩⟩,
    ⟨.closeRaw partition, ()⟩, ⟨.command (.unmountDisk disk), ran⟩, ⟨.command (.eject disk), ran⟩]

set_option maxRecDepth 20000 in
theorem sampleBooted_traces :
    Program.Traces (startPipeline sampleParts (samplePlan .windows) sampleInfo sampleRunConfig)
      (sampleAttached ++ sampleBooted) (.ok ()) := by
  iterate 26 apply Program.Traces.ask
  exact .done _

/-- The calls that show a file or a tree. -/
def Call.shows : Call → Bool
  | .openFile _ => true
  | .readTree _ => true
  | _ => false

end Bootsmith.Pipeline
