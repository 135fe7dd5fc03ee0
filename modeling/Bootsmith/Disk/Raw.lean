/-
**A raw block device** (`bootsmith-disk/src/raw.rs`).

A disk of whole blocks. The operating system takes only whole blocks inside the disk, and answers every
other access with an error; what it says then is left open. The device keeps a record of the writes it
was asked for, also of those that were refused.
-/

import Bootsmith.Library.ByteSource

namespace Bootsmith.Disk

open Bootsmith.Library

structure RawDevice where
  image : Image
  blockSize : Nat
  /-- The disk is some number of blocks long. -/
  whole : blockSize ∣ image.size
  writes : List Span
  /-- What the operating system says of an access that it refuses. -/
  refusal : Span → String

namespace RawDevice

/-- Whole blocks inside the disk. -/
def Takes (device : RawDevice) (span : Span) : Prop :=
  device.blockSize ∣ span.start ∧ device.blockSize ∣ span.count ∧ span.stop ≤ device.image.size

instance (device : RawDevice) (span : Span) : Decidable (device.Takes span) :=
  inferInstanceAs (Decidable (_ ∧ _ ∧ _))

/-- The error of an access that is refused. -/
def refused (device : RawDevice) (span : Span) : Failure := .error ["I/O error", device.refusal span]

def readAt (device : RawDevice) (offset count : Nat) : Fallible Bytes :=
  if device.Takes ⟨offset, count⟩ then .ok (device.image.slice offset count)
  else .error (device.refused ⟨offset, count⟩)

/-- The device was asked for a write. -/
def asked (device : RawDevice) (span : Span) : RawDevice :=
  { device with writes := device.writes ++ [span] }

/-- The device after a write that it takes. -/
def written (device : RawDevice) (offset : Nat) (bytes : Bytes)
    (taken : device.Takes ⟨offset, bytes.length⟩) : RawDevice :=
  { device.asked ⟨offset, bytes.length⟩ with
    image := device.image.write offset bytes
    whole := (Image.write_size_of_le _ _ _ taken.2.2).symm ▸ device.whole }

def writeAt (offset : Nat) (bytes : Bytes) : Effect RawDevice Unit := fun device =>
  if taken : device.Takes ⟨offset, bytes.length⟩ then .ok () (device.written offset bytes taken)
  else .error (device.refused ⟨offset, bytes.length⟩) (device.asked ⟨offset, bytes.length⟩)

theorem readAt_of_takes {device : RawDevice} {offset count : Nat}
    (taken : device.Takes ⟨offset, count⟩) :
    device.readAt offset count = .ok (device.image.slice offset count) :=
  if_pos taken

theorem writeAt_of_takes {device : RawDevice} {offset : Nat} {bytes : Bytes}
    (taken : device.Takes ⟨offset, bytes.length⟩) :
    (writeAt offset bytes).run device = .ok () (device.written offset bytes taken) :=
  dif_pos taken

end RawDevice

end Bootsmith.Disk
