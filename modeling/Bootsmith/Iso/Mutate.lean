/-
**Mutating an ISO image** (`ntxp_iso.rs`): appending a file to a directory and replacing a file of
`\I386`.

The two append functions of the source differ in the directory they look up, the place of the
directory's size field and the texts of two errors, so both are `appendFileInto`.
-/

import Bootsmith.Iso.Directory
import Bootsmith.Library.StableSort
import Bootsmith.Library.Utf8

namespace Bootsmith.Iso

open Bootsmith.Library

def write733At (offset value : Nat) : Effect Image Unit := writeAll offset (write733 value)

/-- The records of a directory in the order they are written back: the first two stay, the others
are sorted by name. -/
def sortAfterDots (materialized : List Bytes) : List Bytes :=
  if materialized.length > 2 then
    materialized.take 2
      ++ sortBy (fun record => isoSortKey (recordName record)) (materialized.drop 2)
  else materialized

/-- The loop that copies the records into the directory buffer. -/
def packRecords (dirStart allocated : Nat) : List Bytes → Image → Nat → Fallible (Image × Nat)
  | [], dir, pos => .ok (dir, pos)
  | record :: rest, dir, pos =>
    let inSector := pos % sectorSize
    let pos := if inSector + record.length > sectorSize then pos + (sectorSize - inSector) else pos
    if pos + record.length > dir.size then
      Fallible.bail s!"ISO9660 directory at LBA {dirStart / sectorSize} has no room for new sorted record set ({allocated} bytes allocated; next record needs {record.length} bytes at offset {pos})"
    else packRecords dirStart allocated rest (dir.write pos record) (pos + record.length)

def rewriteDirectoryWithAddedRecord (dirStart allocated : Nat) (records : List DirectoryRecord)
    (newRecord : Bytes) : Effect Image Nat := do
  let materialized ← Effect.query fun image =>
    records.mapM fun record => readExact image record.offset record.len
  let (dir, pos) ← Effect.lift
    (packRecords dirStart allocated (sortAfterDots (materialized ++ [newRecord]))
      (Image.zeros allocated) 0)
  writeAll dirStart dir.bytes
  pure pos

def writeFileContentsAtEnd (newExtentLba : Nat) (contents : Bytes) : Effect Image Unit := do
  let isoLen ← fileLen
  let fileDataOffset := newExtentLba * sectorSize
  if fileDataOffset < isoLen then
    Effect.bail s!"internal error: new extent LBA {newExtentLba} maps to {fileDataOffset} but ISO is already {isoLen} bytes"
  else do
    let finalLen := alignUp (fileDataOffset + contents.length) sectorSize
    let finalSectors ← Effect.lift
      (Fallible.context "patched ISO exceeds 32-bit volume size"
        (tryFrom (2 ^ 32) (finalLen / sectorSize)))
    writeZeroes isoLen (fileDataOffset - isoLen)
    writeAll fileDataOffset contents
    writeZeroes (fileDataOffset + contents.length) (finalLen - fileDataOffset - contents.length)
    Effect.update fun image => image.setLen finalLen
    write733At volumeSpaceSizeOffsetInPvd finalSectors

/-- The common body of `append_file_into_i386` and `append_file_into_root`. -/
def appendFileInto (find : Image → Fallible DirectoryRecord) (sizeField : DirectoryRecord → Nat)
    (path tooLarge : String) (fileName contents : Bytes) : Effect Image Unit :=
  if contents = [] then
    Effect.bail s!"refusing to append zero-length file {fromUtf8Lossy fileName}"
  else do
    let directory ← Effect.query find
    let records ← Effect.query fun image => readDirectoryRecords image directory
    if records.any fun record => isoNameEq record.name fileName then
      Effect.bail s!"ISO9660 {path}{fromUtf8Lossy fileName} already exists"
    else do
      let allocated := alignUp directory.dataLen sectorSize
      let isoLen ← fileLen
      let newExtentLba ← Effect.lift
        (Fallible.context "patched ISO would exceed 32-bit ISO9660 LBA range"
          (tryFrom (2 ^ 32) (alignUp isoLen sectorSize / sectorSize)))
      let newDataLen ← Effect.lift
        (Fallible.context s!"file {fromUtf8Lossy fileName} too large for ISO9660"
          (tryFrom (2 ^ 32) contents.length))
      let record ← Effect.lift (buildFileRecord fileName newExtentLba newDataLen)
      let newDirDataLen ←
        rewriteDirectoryWithAddedRecord directory.start allocated records record
      let newDirDataLen ← Effect.lift
        (Fallible.context tooLarge (tryFrom (2 ^ 32) newDirDataLen))
      -- the size in the record that names the directory, and in its own `.` record
      write733At (sizeField directory) newDirDataLen
      write733At (directory.start + 10) newDirDataLen
      writeFileContentsAtEnd newExtentLba contents

def appendFileIntoRoot (fileName contents : Bytes) : Effect Image Unit :=
  appendFileInto findRootRecord (fun _ => pvdOffset + rootRecordOffsetInPvd + 10) "/"
    "ISO9660 root directory too large for 32-bit data_len" fileName contents

def appendFileIntoI386 (fileName contents : Bytes) : Effect Image Unit :=
  appendFileInto findI386Record (fun i386 => i386.offset + 10) "/I386/"
    "ISO9660 /I386 directory too large for 32-bit data_len" fileName contents

def replaceFileIntoI386 (fileName contents : Bytes) : Effect Image Unit :=
  if contents = [] then
    Effect.bail s!"refusing to replace {fromUtf8Lossy fileName} with zero-length content"
  else do
    let i386 ← Effect.query findI386Record
    let records ← Effect.query fun image => readDirectoryRecords image i386
    let existing ← Effect.lift
      (Fallible.okOr s!"ISO9660 /I386/{fromUtf8Lossy fileName} not found"
        (records.find? fun record => isoNameEq record.name fileName))
    let isoLen ← fileLen
    let newExtentLba ← Effect.lift
      (Fallible.context "patched ISO would exceed 32-bit ISO9660 LBA range"
        (tryFrom (2 ^ 32) (alignUp isoLen sectorSize / sectorSize)))
    let newDataLen ← Effect.lift
      (Fallible.context s!"file {fromUtf8Lossy fileName} too large for ISO9660"
        (tryFrom (2 ^ 32) contents.length))
    write733At (existing.offset + 2) newExtentLba
    write733At (existing.offset + 10) newDataLen
    writeFileContentsAtEnd newExtentLba contents

/-! ### The public calls, each on a freshly opened image -/

def appendFileToI386 (fileName contents : Bytes) : Effect Image Unit := do
  Effect.query openIsoRw
  appendFileIntoI386 fileName contents

def appendFileToRoot (fileName contents : Bytes) : Effect Image Unit := do
  Effect.query openIsoRw
  appendFileIntoRoot fileName contents

def replaceFileInI386 (fileName contents : Bytes) : Effect Image Unit := do
  Effect.query openIsoRw
  replaceFileIntoI386 fileName contents

def injectWinntSif (contents : Bytes) : Effect Image Unit :=
  if contents = [] then Effect.bail "generated WINNT.SIF is empty"
  else appendFileToI386 winntSifName contents

end Bootsmith.Iso
