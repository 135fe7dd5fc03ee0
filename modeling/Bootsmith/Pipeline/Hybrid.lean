/-
**The hybrid pipeline** (`pipeline/hybrid.rs`): the bytes of the ISO, and a pass that reads them back.

The device is open from the first write to the end of the run, past the eject.
-/

import Bootsmith.Disk.Guard
import Bootsmith.Hybrid.Verify
import Bootsmith.Pipeline.System

namespace Bootsmith.Pipeline.Hybrid

open Bootsmith.Library Bootsmith.Disk Bootsmith.Core Bootsmith.Hybrid

/-- The error that `read_full` meets when it did not fill the buffer. -/
def brokenRead (count : Nat) (broken : Option String) : Option String :=
  if count < chunkSize then broken else none

/-- The loop of `write_iso_to_device`. -/
def writeIsoFrom (path : Text) (blockSize : Nat) (broken : Option String) (source : ByteSource) (buf : Bytes)
    (offset : Nat) : Io Unit :=
  match _filled : readFull source buf with
  | (n, buf', source') =>
    match brokenRead n broken with
    | some text => Exchange.lift (.error (.error ["reading ISO", text]))
    | none =>
      if n = 0 then pure ()
      else do
        let aligned ← Exchange.lift (alignedLen n blockSize)
        let buf' ← Exchange.lift (if aligned > n then zeroPart buf' n aligned else pure buf')
        let part ← Exchange.lift (partOf buf' 0 aligned)
        writeRaw path offset part
        if n < chunkSize then pure () else writeIsoFrom path blockSize broken source' buf' (offset + n)
termination_by source.rest.length
decreasing_by
  obtain ⟨count, _, rest⟩ := readFull_spec source buf
  simp only [_filled] at count rest
  rw [rest, List.length_drop]
  omega

/-- The loop of `verify_device_matches_iso`. -/
def verifyIsoFrom (path : Text) (blockSize : Nat) (broken : Option String) (source : ByteSource)
    (isoBuf devBuf : Bytes) (offset : Nat) : Io Unit :=
  match _filled : readFull source isoBuf with
  | (n, isoBuf', source') =>
    match brokenRead n broken with
    | some text => Exchange.lift (.error (.error ["reading ISO", text]))
    | none =>
      if n = 0 then pure ()
      else do
        let aligned ← Exchange.lift (alignedLen n blockSize)
        let target ← Exchange.lift (partOf devBuf 0 aligned)
        let bytes ← readRaw path offset target.length
        let devBuf' := overlay devBuf 0 bytes
        let devPart ← Exchange.lift (partOf devBuf' 0 n)
        let isoPart ← Exchange.lift (partOf isoBuf' 0 n)
        if devPart ≠ isoPart then
          let firstBad :=
            ((List.range n).find? fun index => devBuf'.getD index 0 ≠ isoBuf'.getD index 0).getD 0
          Exchange.bail (mismatch (offset + firstBad) (isoBuf'.getD firstBad 0) (devBuf'.getD firstBad 0))
        else if n < chunkSize then pure ()
        else verifyIsoFrom path blockSize broken source' isoBuf' devBuf' (offset + n)
termination_by source.rest.length
decreasing_by
  obtain ⟨count, _, rest⟩ := readFull_spec source isoBuf
  simp only [_filled] at count rest
  rw [rest, List.length_drop]
  omega

def writeIsoToDevice (path : Text) (blockSize : Nat) (iso : Opened) : Io Unit :=
  writeIsoFrom path blockSize iso.broken iso.source (List.replicate chunkSize 0) 0

def verifyDeviceMatchesIso (path : Text) (blockSize : Nat) (iso : Opened) : Io Unit :=
  verifyIsoFrom path blockSize iso.broken iso.source (List.replicate chunkSize 0)
    (List.replicate chunkSize 0) 0

/-- The pass that reads the device back. -/
def verifyPass (path : Text) (blockSize : Nat) (isoPath : Text) : Bool → Io Unit
  | false => pure ()
  | true => do
    let iso ← openFile "re-opening ISO for verify" isoPath
    Exchange.context "verify pass" (verifyDeviceMatchesIso path blockSize iso)

def run (plan : WritePlan) (info : DeviceInfo) (verify : Bool) : Io Unit := do
  let bsdPath := bsdPathOf info.path
  Exchange.context "unmount before raw write" (unmountDisk bsdPath)
  withRaw "opening raw device for write" info.path fun geometry => do
    let iso ← openFile "opening ISO" plan.isoPath
    Exchange.context "writing ISO bytes" (writeIsoToDevice info.path geometry.blockSize iso)
    syncRaw info.path
    verifyPass info.path geometry.blockSize plan.isoPath verify
    let _ ← Exchange.attempt (unmountDisk bsdPath)
    Exchange.context "eject after write" (eject bsdPath)

end Bootsmith.Pipeline.Hybrid
