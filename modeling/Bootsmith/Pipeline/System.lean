/-
**What the pipelines ask of the system** (`pipeline/diskutil.rs`, `bootsmith-disk/src/raw.rs`).

A pipeline runs other programs, opens raw devices and works on files. Each of these is a `Call`; what the
system answers is left open, so what holds of every trace of a pipeline holds whatever the tools, the disk
and the user's files do. The wrappers below read the answers as the source does.
-/

import Bootsmith.Core.Plan
import Bootsmith.Disk.Name
import Bootsmith.Library.ByteSource
import Bootsmith.Library.Program

namespace Bootsmith.Pipeline

open Bootsmith.Library Bootsmith.Core

/-! ### Calls -/

/-- The programs that are started, with what they are given. -/
inductive Command
  | unmountDisk (disk : Text)
  | unmountDiskForce (disk : Text)
  | mountDisk (disk : Text)
  | eject (disk : Text)
  | newfsMsdosFat32 (partition label : Text)
  | hdiutilAttach (iso : Text)
  | hdiutilDetach (mountPoint : Text)
  | whichMsSys
  | msSysMbr7 (msSys disk : Text)
  | msSysFat32pe (msSys partition : Text)
  | sync
  deriving DecidableEq

/-- The name of the program and its arguments. -/
def Command.words : Command → Text × List Text
  | unmountDisk disk => ("diskutil".toList, ["unmountDisk".toList, disk])
  | unmountDiskForce disk => ("diskutil".toList, ["unmountDisk".toList, "force".toList, disk])
  | mountDisk disk => ("diskutil".toList, ["mountDisk".toList, disk])
  | eject disk => ("diskutil".toList, ["eject".toList, disk])
  | newfsMsdosFat32 partition label =>
    ("newfs_msdos".toList, ["-F".toList, "32".toList, "-v".toList, label, partition])
  | hdiutilAttach iso =>
    ("hdiutil".toList, ["attach".toList, "-nobrowse".toList, "-readonly".toList, iso])
  | hdiutilDetach mountPoint => ("hdiutil".toList, ["detach".toList, mountPoint])
  | whichMsSys => ("/usr/bin/env".toList, ["which".toList, "ms-sys".toList])
  | msSysMbr7 msSys disk => (msSys, ["-f".toList, "--mbr7".toList, disk])
  | msSysFat32pe msSys partition => (msSys, ["-f".toList, "--fat32pe".toList, partition])
  | sync => ("sync".toList, [])

/-- What a finished program leaves; it has no exit code when a signal ended it. -/
structure Output where
  code : Option Nat
  stdout : Text
  stderr : Text

/-- The geometry of a raw device. -/
structure Geometry where
  blockSize : Nat
  blockCount : Nat

def Geometry.sizeBytes (geometry : Geometry) : Nat := geometry.blockSize * geometry.blockCount

/-- A file that is open for reading: its bytes, and the error that a read past them meets instead of the
end of the file. -/
structure Opened where
  source : ByteSource
  broken : Option String

/-- What is seen in a directory, in the order in which it is read. The reading ends where it is denied. -/
inductive Listing
  | nil
  | file (name : Text) (size : Nat) (rest : Listing)
  | folder (name : Text) (children rest : Listing)
  | special (name : Text) (rest : Listing)
  | denied (chain : List String)

inductive Call
  | command (command : Command)
  | envVar (name : String)
  | pathExists (path : Text)
  | openRaw (path : Text)
  | readRaw (path : Text) (offset count : Nat)
  | writeRaw (path : Text) (offset : Nat) (bytes : Bytes)
  | syncRaw (path : Text)
  | closeRaw (path : Text)
  | readTree (path : Text)
  | fileSize (path : Text)
  | openFile (path : Text)
  | createDirAll (path : Text)
  | createFile (path : Text)
  | writeAll (path : Text) (bytes : Bytes)
  | writeFile (path : Text) (bytes : Bytes)
  | editImage (path : Text) (call : Effect Image Unit)

/-- What the system may answer. -/
def Answer : Call → Type
  | .command _ => Except String Output
  | .envVar _ => Option Text
  | .pathExists _ => Bool
  | .openRaw _ => Except (List String) Geometry
  | .readRaw _ _ count => Except String { bytes : Bytes // bytes.length = count }
  | .writeRaw _ _ _ => Except String Unit
  | .syncRaw _ => Except String Unit
  | .closeRaw _ => Unit
  | .readTree _ => Listing
  | .fileSize _ => Except String Nat
  | .openFile _ => Except String Opened
  | .createDirAll _ => Except String Unit
  | .createFile _ => Except String Unit
  | .writeAll _ _ => Except String Unit
  | .writeFile _ _ => Except String Unit
  | .editImage _ _ => Fallible Unit

/-- A pipeline, or a part of one. -/
abbrev Io (α : Type) := Exchange Call Answer α

/-- The events of a run. -/
abbrev History := Past Answer

/-- An answer of the operating system, with the messages that stand in front of its error. -/
def told {α : Type} (messages : List String) : Except String α → Fallible α
  | .ok value => .ok value
  | .error text => .error (.error (messages ++ [text]))

inductive BootRecordImpl
  | msSys
  | bootrec
  deriving DecidableEq, Repr

/-- What a run asks for, with what only the pipelines look at. -/
structure RunConfig extends Config where
  verify : Bool
  bootRecordImpl : BootRecordImpl

/-! ### Programs -/

/-- The exit status of a program: what it left when it succeeded. -/
def finished (spawning failing : String) (detail : Output → Text) (answer : Except String Output) :
    Fallible Output := do
  let output ← told [spawning] answer
  if output.code = some 0 then pure output
  else Fallible.bail (failing ++ String.ofList (detail output))

def start (command : Command) (spawning failing : String) (detail : Output → Text) : Io Output :=
  Exchange.ask (.command command) (finished spawning failing detail)

def runDiskutil (command : Command) : Io Unit := do
  let args := String.ofList ([' '].intercalate command.words.2)
  let _ ← start command s!"spawning `diskutil {args}`" s!"diskutil {args} failed: " Output.stderr
  pure ()

def unmountDisk (bsdPath : Text) : Io Unit :=
  Exchange.context s!"diskutil unmountDisk {String.ofList bsdPath}" (runDiskutil (.unmountDisk bsdPath))

def unmountDiskForce (bsdPath : Text) : Io Unit :=
  Exchange.context s!"diskutil unmountDisk force {String.ofList bsdPath}"
    (runDiskutil (.unmountDiskForce bsdPath))

def mountDisk (bsdPath : Text) : Io Unit :=
  Exchange.context s!"diskutil mountDisk {String.ofList bsdPath}" (runDiskutil (.mountDisk bsdPath))

def eject (bsdPath : Text) : Io Unit :=
  Exchange.context s!"diskutil eject {String.ofList bsdPath}" (runDiskutil (.eject bsdPath))

def newfsMsdosFat32 (partitionPath label : Text) : Io Unit := do
  let _ ← start (.newfsMsdosFat32 partitionPath label)
    s!"spawning newfs_msdos for {String.ofList partitionPath}" "newfs_msdos failed: " Output.stderr
  pure ()

/-- The words of a line. -/
def splitWhitespace (line : Text) : List Text := (line.splitOnP isWhitespace).filter (· ≠ [])

/-- The first word of a text that names a mount point. -/
def mountPointOf (stdout : Text) : Option Text :=
  (lines stdout).findSome? fun line => (splitWhitespace line).find? ("/Volumes/".toList.isPrefixOf ·)

def hdiutilAttachIso (iso : Text) : Io Text := do
  let output ← start (.hdiutilAttach iso) s!"hdiutil attach {String.ofList iso}" "hdiutil attach failed: "
    Output.stderr
  Exchange.lift (Fallible.okOr
    s!"hdiutil attach gave no /Volumes/ mount: {String.ofList output.stdout}" (mountPointOf output.stdout))

def hdiutilDetach (mountPoint : Text) : Io Unit := do
  let _ ← start (.hdiutilDetach mountPoint) s!"hdiutil detach {String.ofList mountPoint}"
    "hdiutil detach failed: " Output.stderr
  pure ()

/-- `sync`, whose outcome is dropped. -/
def syncAll : Io Unit := Exchange.ask (.command .sync) fun _ => .ok ()

/-! ### The binary of `ms-sys` -/

def pathExists (path : Text) : Io Bool := Exchange.ask (.pathExists path) .ok

/-- The first of some paths that exists. -/
def firstExisting : List Text → Io (Option Text)
  | [] => pure none
  | path :: rest => do
    let there ← pathExists path
    if there then pure (some path) else firstExisting rest

/-- The line that `which` prints, if it finds the binary. -/
def whichLine : Except String Output → Text
  | .ok output => if output.code = some 0 then trim output.stdout else []
  | .error _ => []

def findMsSys : Io Text := do
  let named ← Exchange.ask (.envVar "BOOTSMITH_MS_SYS") .ok
  let found ← firstExisting
    (named.toList ++ ["/usr/local/bin/ms-sys".toList, "/opt/homebrew/bin/ms-sys".toList])
  match found with
  | some path => pure path
  | none => do
    let line ← Exchange.ask (.command .whichMsSys) fun answer => .ok (whichLine answer)
    if line ≠ [] then pure line else Exchange.bail "ms-sys binary not found. Windows-mode v0.2 needs ms-sys for the boot records (see FIELD_FINDINGS_2026_05_18.md). To install:\n  git clone https://gitlab.com/cmaiolino/ms-sys.git /tmp/ms-sys && cd /tmp/ms-sys && make\nThen either: sudo cp /tmp/ms-sys/bin/ms-sys /usr/local/bin/  OR  export BOOTSMITH_MS_SYS=/tmp/ms-sys/bin/ms-sys"

/-- The exit status of `ms-sys`, and what it printed. -/
def formatMsSysFailure (output : Output) : Text :=
  let status := match output.code with
    | some code => "exit ".toList ++ (Nat.repr code).toList
    | none => "killed by signal".toList
  let stderr := trim output.stderr
  let stdout := trim output.stdout
  "; ".toList.intercalate ([status] ++ (if stderr ≠ [] then ["stderr: ".toList ++ stderr] else [])
    ++ (if stdout ≠ [] then ["stdout: ".toList ++ stdout] else []))

def msSysMbr7 (msSys bufferedDiskPath : Text) : Io Unit := do
  let _ ← start (.msSysMbr7 msSys bufferedDiskPath)
    s!"invoking ms-sys --mbr7 {String.ofList bufferedDiskPath}" "ms-sys --mbr7 failed: " formatMsSysFailure
  pure ()

def msSysFat32pe (msSys partitionBufferedPath : Text) : Io Unit := do
  let _ ← start (.msSysFat32pe msSys partitionBufferedPath)
    s!"invoking ms-sys --fat32pe {String.ofList partitionBufferedPath}" "ms-sys --fat32pe failed: "
    formatMsSysFailure
  pure ()

/-! ### Raw devices -/

def rdiskPrefix : Text := "/dev/rdisk".toList

/-- `RawDevice::open`. -/
def openRaw (path : Text) : Io Geometry :=
  if rdiskPrefix.isPrefixOf path then
    Exchange.ask (.openRaw path) fun answer => answer.mapError .error
  else Exchange.bail s!"device path must be /dev/rdiskN, got: {String.ofList path}"

/-- A raw device that is open while the body runs, and is closed when it is dropped. -/
def withRaw {α : Type} (opening : String) (path : Text) (body : Geometry → Io α) : Io α := do
  let geometry ← Exchange.context opening (openRaw path)
  Exchange.dropping (.closeRaw path) (body geometry)

def readRaw (path : Text) (offset count : Nat) : Io Bytes :=
  Exchange.ask (.readRaw path offset count) fun answer => (told ["I/O error"] answer).map Subtype.val

def writeRaw (path : Text) (offset : Nat) (bytes : Bytes) : Io Unit :=
  Exchange.ask (.writeRaw path offset bytes) (told ["I/O error"])

def syncRaw (path : Text) : Io Unit := Exchange.ask (.syncRaw path) (told ["I/O error"])

/-- Read back what was written, and fail when it differs. -/
def readBack (message : String) (path : Text) (bytes : Bytes) : Io Unit := do
  let readback ← readRaw path 0 bytes.length
  if readback ≠ bytes then Exchange.bail message else pure ()

/-! ### Paths and mount points -/

/-- Replace every occurrence of a pattern that is not empty. -/
def replaceText (pattern replacement : Text) (text : Text) : Text :=
  match findText pattern text with
  | none => text
  | some (before, after) =>
    if after.length < text.length then before ++ replacement ++ replaceText pattern replacement after
    else text
termination_by text.length

/-- The path of the buffered device. -/
def bsdPathOf (path : Text) : Text := replaceText "/dev/r".toList "/dev/".toList path

/-- The path of the first partition. -/
def partitionOf (path : Text) : Text := path ++ "s1".toList

/-- `Path::join`: an absolute path replaces the one in front. -/
def join (directory name : Text) : Text :=
  if ['/'].isPrefixOf name then name
  else if directory = [] ∨ ['/'].isSuffixOf directory then directory ++ name
  else directory ++ '/' :: name

/-- The path of a mounted volume. -/
def volumePath (label : Text) : Text := join "/Volumes".toList label

/-- Look for a path so many times. -/
def waitFor (path : Text) : Nat → Io Bool
  | 0 => pure false
  | times + 1 => do
    let there ← pathExists path
    if there then pure true else waitFor path times

def findMountForLabel (label : Text) : Io Text := do
  let there ← waitFor (volumePath label) 20
  if there then pure (volumePath label) else Exchange.bail "formatted partition didn't appear in /Volumes"

/-! ### The partition -/

/-- Make the kernel read the new partition table. The first unmount may fail. -/
def rereadPartitionTable (bsdPath : Text) : Io Unit := do
  let _ ← Exchange.attempt (unmountDisk bsdPath)
  Exchange.context "mount after partition write" (mountDisk bsdPath)
  Exchange.context "force-unmount before format (disk arbitration race)" (unmountDiskForce bsdPath)

/-- Format the partition and find where the new volume is mounted. -/
def formatPartition (bsdPath partitionRaw label : Text) : Io Text := do
  Exchange.context s!"formatting {String.ofList partitionRaw} as FAT32" (newfsMsdosFat32 partitionRaw label)
  Exchange.context "mount after format" (mountDisk bsdPath)
  findMountForLabel label

/-! ### Files -/

def openFile (opening : String) (path : Text) : Io Opened :=
  Exchange.ask (.openFile path) (told [s!"{opening} {String.ofList path}"])

def createFile (creating : String) (path : Text) : Io Unit :=
  Exchange.ask (.createFile path) (told [s!"{creating} {String.ofList path}"])

def fileSize (path : Text) : Io Nat :=
  Exchange.ask (.fileSize path) (told [s!"stat {String.ofList path}"])

/-- The loop that copies what is left of an open file to the end of another, 4 MiB at a time. -/
def copyChunks (reading writing : String) (dest : Text) (broken : Option String) (source : ByteSource) :
    Io Unit :=
  match _taken : source.read (4 * 1024 * 1024) with
  | (bytes, next) =>
    if bytes = [] then
      match broken with
      | none => pure ()
      | some text => Exchange.lift (.error (.error [reading, text]))
    else do
      Exchange.ask (.writeAll dest bytes) (told [writing])
      copyChunks reading writing dest broken next
termination_by source.rest.length
decreasing_by
  rename_i something
  have split : (source.read (4 * 1024 * 1024)).1.length + _ = _ := source.read_length
  have some := List.length_pos_of_ne_nil something
  simp only [_taken] at split
  omega

def writeFile (path : Text) (bytes : Bytes) : Io Unit :=
  Exchange.ask (.writeFile path bytes) (told [s!"writing {String.ofList path}"])

/-! ### Rules -/

section Rules

variable {allowed : History → Call → Prop} {pre bad : History → Prop}

theorem start_triple {command : Command} {spawning failing : String} {detail : Output → Text}
    {good : Output → History → Prop} (permitted : ∀ past, pre past → allowed past (.command command))
    (succeeds : ∀ past output, pre past → output.code = some 0 →
      good output (past ++ [⟨.command command, .ok output⟩]))
    (fails : ∀ past answer, pre past → (∀ output, answer = .ok output → output.code ≠ some 0) →
      bad (past ++ [⟨.command command, answer⟩])) :
    Exchange.Triple allowed pre (start command spawning failing detail) good bad := by
  refine Exchange.Triple.ask permitted fun past answer holds => ?_
  cases answer with
  | error text => exact fails past (.error text) holds nofun
  | ok output =>
    by_cases zero : output.code = some 0
    · have returned : finished spawning failing detail (.ok output) = .ok output := if_pos zero
      rw [returned]
      exact succeeds past output holds zero
    · have failed : finished spawning failing detail (.ok output)
          = Fallible.bail (failing ++ String.ofList (detail output)) := if_neg zero
      rw [failed]
      refine fails past (.ok output) holds fun other same => ?_
      cases same
      exact zero

/-- A command of `diskutil`. -/
theorem runDiskutil_triple {command : Command} {good : Unit → History → Prop}
    (permitted : ∀ past, pre past → allowed past (.command command))
    (succeeds : ∀ past output, pre past → output.code = some 0 →
      good () (past ++ [⟨.command command, .ok output⟩]))
    (fails : ∀ past answer, pre past → (∀ output, answer = .ok output → output.code ≠ some 0) →
      bad (past ++ [⟨.command command, answer⟩])) :
    Exchange.Triple allowed pre (runDiskutil command) good bad :=
  (start_triple permitted succeeds fails).bind fun _ => Exchange.Triple.pure fun _ holds => holds

end Rules

end Bootsmith.Pipeline
