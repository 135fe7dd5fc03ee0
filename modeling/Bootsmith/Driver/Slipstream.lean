/-
**Patching `TXTSETUP.SIF` and `DOSNET.INF`** (`ntxp_slipstream.rs`).

`applyAdditions` scans the lines of the text once and notes the header and the last body line of each
section, then puts each group of new lines behind its section's anchor. Its maps are association lists;
the order in which the hash map of headers is visited is a parameter (`HashOrder`).
-/

import Bootsmith.Library.Fallible
import Bootsmith.Library.Splice
import Bootsmith.Library.Text

namespace Bootsmith.Driver

open Bootsmith.Library

/-- What was added, for the log line. -/
structure PatchedSummary where
  service : Text
  displayName : Text
  files : List Text
  hardwareIdCount : Nat
  deriving DecidableEq, Repr

structure Patched where
  text : Text
  additions : PatchedSummary
  deriving DecidableEq, Repr

/-- The new lines of each of the four sections. -/
structure SectionAdditions where
  scsiLoad : List Text
  scsi : List Text
  hardwareIdsDatabase : List Text
  sourceDisksFiles : List Text
  deriving DecidableEq, Repr

namespace SectionAdditions

def forSection (additions : SectionAdditions) (nameLower : Text) : Option (List Text) :=
  if nameLower = "scsi.load".toList then some additions.scsiLoad
  else if nameLower = "scsi".toList then some additions.scsi
  else if nameLower = "hardwareidsdatabase".toList then some additions.hardwareIdsDatabase
  else if nameLower = "sourcedisksfiles".toList then some additions.sourceDisksFiles
  else none

/-- The sections that get new lines. -/
def required (additions : SectionAdditions) : List String :=
  (if additions.scsiLoad ≠ [] then ["SCSI.Load"] else [])
    ++ (if additions.scsi ≠ [] then ["SCSI"] else [])
    ++ (if additions.hardwareIdsDatabase ≠ [] then ["HardwareIdsDatabase"] else [])
    ++ (if additions.sourceDisksFiles ≠ [] then ["SourceDisksFiles"] else [])

end SectionAdditions

/-! ### Lines -/

def parseSectionHeader (trimmed : Text) : Option Text :=
  if trimmed.head? = some '[' then
    match splitOnce ']' trimmed with
    | none => none
    | some (before, _) =>
      let name := trim (before.drop 1)
      if name = [] then none else some name
  else none

/-- The section a header line opens, in lower case. -/
def headerKey (raw : Text) : Option Text := (parseSectionHeader (trimStart raw)).map lower

/-- The name ends with an extension. -/
def endsWith (name : Text) (extension : String) : Bool := extension.toList.isSuffixOf name

def scsiLoadLine (service driverSys : Text) : Text := service ++ " = ".toList ++ driverSys ++ ",4".toList

def scsiLine (service displayName : Text) : Text :=
  service ++ " = \"".toList ++ displayName ++ "\"".toList

def hardwareIdLineOf (entry : Text × Text) : Text :=
  entry.1 ++ " = \"".toList ++ entry.2 ++ "\"".toList

/-- The value of a file's line, by extension. -/
def sourceDisksFilesFormat (file : Text) : Option String :=
  if endsWith (lower file) ".sys" then some "1,,,,,,_x,4,1,,,1,4"
  else if endsWith (lower file) ".inf" || endsWith (lower file) ".cat" then some "1,,,,,,_x,20,0,0"
  else none

def formatSourceDisksFilesLine (file : Text) : Fallible Text :=
  match sourceDisksFilesFormat file with
  | some format => .ok (file ++ " = ".toList ++ format.toList)
  | none =>
    Fallible.bail s!"slipstream file {String.ofList file} has an unsupported extension (expected .sys / .inf / .cat)"

def dosnetLine (file : Text) : Text := "d1,".toList ++ lower file

/-! ### `TXTSETUP.SIF` -/

/-- An order in which the entries of a hash map are visited. -/
structure HashOrder where
  visit : List (Text × Nat) → List (Text × Nat)
  perm : ∀ entries, (visit entries).Perm entries

/-- What the scan knows after some lines. -/
structure ScanState where
  currentSection : Option Text
  lastBodyIdx : List (Text × Nat)
  sectionFirstSeen : List (Text × Nat)
  sectionLeft : List Text
  deriving DecidableEq, Repr

/-- Set the value of a key. -/
def insertKey (key : Text) (idx : Nat) (map : List (Text × Nat)) : List (Text × Nat) :=
  (key, idx) :: map.filter fun entry => entry.1 ≠ key

/-- Set the value of a key that has none. -/
def orInsert (key : Text) (idx : Nat) (map : List (Text × Nat)) : List (Text × Nat) :=
  if (map.lookup key).isSome then map else (key, idx) :: map

/-- The scan of one line. -/
def scanLine (state : ScanState) (line : Text × Nat) : ScanState :=
  match headerKey line.1 with
  | some key =>
    let left :=
      match state.currentSection with
      | some prev => if prev ≠ key then prev :: state.sectionLeft else state.sectionLeft
      | none => state.sectionLeft
    ⟨some key, state.lastBodyIdx, orInsert key line.2 state.sectionFirstSeen, left⟩
  | none =>
    match state.currentSection with
    | none => state
    | some sec =>
      if sec ∈ state.sectionLeft then state
      else
        match state.sectionFirstSeen.lookup sec with
        -- a section that was entered has been seen
        | none => state
        | some firstSeen =>
          if firstSeen ≤ line.2 ∧ trim line.1 ≠ [] then
            { state with lastBodyIdx := insertKey sec line.2 state.lastBodyIdx }
          else state

/-- The scan of all lines. -/
def scanLines (all : List Text) : ScanState := all.zipIdx.foldl scanLine ⟨none, [], [], []⟩

/-- The line a section's group goes behind. -/
def anchorOf (lastBodyIdx : List (Text × Nat)) (entry : Text × Nat) : Nat :=
  (lastBodyIdx.lookup entry.1).getD entry.2

/-- Put the group of one section to its anchor. -/
def addGroup (additions : SectionAdditions) (lastBodyIdx : List (Text × Nat))
    (spliceAt : Nat → List Text) (entry : Text × Nat) : Nat → List Text :=
  match additions.forSection entry.1 with
  | none => spliceAt
  | some adds =>
    if adds = [] then spliceAt
    else
      Function.update spliceAt (anchorOf lastBodyIdx entry)
        (spliceAt (anchorOf lastBodyIdx entry) ++ adds)

def applyAdditions (order : HashOrder) (sif : Text) (additions : SectionAdditions) : Fallible Text :=
  let all := splitCrlf sif
  let state := scanLines all
  match additions.required.find? fun sec =>
      (state.sectionFirstSeen.lookup (lower sec.toList)).isNone with
  | some sec => Fallible.bail s!"TXTSETUP.SIF is missing required section [{sec}]"
  | none =>
    let spliceAt :=
      (order.visit state.sectionFirstSeen).foldl (addGroup additions state.lastBodyIdx) fun _ => []
    .ok (joinCrlf (splice spliceAt 0 all))

/-- The hardware ids of the PCI bus. -/
def pciHardwareIds (hardwareIds : List (Text × Text)) : List (Text × Text) :=
  hardwareIds.filter fun entry => "PCI\\".toList.isPrefixOf (upper entry.1)

def patchTxtsetupSif (order : HashOrder) (sif service displayName : Text) (files : List Text)
    (hardwareIds : List (Text × Text)) : Fallible Patched :=
  if service = [] then Fallible.bail "slipstream service name is empty"
  else if displayName = [] then Fallible.bail "slipstream display name is empty"
  else do
    let driverSys ← Fallible.okOr "slipstream file list has no .sys driver"
      (files.find? fun file => endsWith (lower file) ".sys")
    let hardwareIdsPci := pciHardwareIds hardwareIds
    if hardwareIdsPci = [] then
      Fallible.bail "slipstream HwID list has no PCI entries; nothing for PnP to match against"
    else do
      let sourceDisksFiles ← files.mapM formatSourceDisksFilesLine
      let patched ← applyAdditions order sif
        ⟨[scsiLoadLine service driverSys], [scsiLine service displayName],
          hardwareIdsPci.map hardwareIdLineOf, sourceDisksFiles⟩
      pure ⟨patched, ⟨service, displayName, files, hardwareIdsPci.length⟩⟩

/-! ### `DOSNET.INF` -/

/-- The index of the last `[Files]` header. -/
def lastFilesHeader (all : List Text) : Option Nat :=
  all.zipIdx.foldl
    (fun found line =>
      match parseSectionHeader (trimStart line.1) with
      | some name => if eqIgnoreCase name "Files".toList then some line.2 else found
      | none => found)
    none

/-- The last line with text before the next header, from line `idx` on. -/
def lastBodyFrom (idx last : Nat) : List Text → Nat
  | [] => last
  | raw :: rest =>
    if (parseSectionHeader (trimStart raw)).isSome then last
    else lastBodyFrom (idx + 1) (if trim raw ≠ [] then idx else last) rest

def patchDosnetInf (text : Text) (files : List Text) : Fallible Text :=
  if files = [] then .ok text
  else
    let all := splitCrlf text
    match lastFilesHeader all with
    | none => Fallible.bail "DOSNET.INF has no [Files] section"
    | some headerIdx =>
      let lastBodyIdx := lastBodyFrom (headerIdx + 1) headerIdx (all.drop (headerIdx + 1))
      .ok (joinCrlf
        (splice (fun idx => if idx = lastBodyIdx then files.map dosnetLine else []) 0 all))

end Bootsmith.Driver
