/-
**The size of a directory is a matter of names and lengths.**

What an append sorts and packs is told by the name and the length of each record (`shape`); the
extents and the dates do not matter. So the size a directory gets is a function of the shapes of its
records and of the new name (`newEnd_eq_sizeAfter`), and appends of different names may change
places.
-/

import Bootsmith.Iso.Steps

namespace Bootsmith.Iso

open Bootsmith.Library

/-- The name and the length of a record. -/
def shape (raw : Bytes) : Bytes × Nat := (recordName raw, raw.length)

/-- The shape of the record of a new file. -/
def newShape (fileName : Bytes) : Bytes × Nat :=
  (fileName, 33 + fileName.length + (33 + fileName.length) % 2)

/-- The shapes of a directory in the order they are written back. -/
def sortShapes (shapes : List (Bytes × Nat)) : List (Bytes × Nat) :=
  if shapes.length > 2 then
    shapes.take 2 ++ sortBy (fun one => isoSortKey one.1) (shapes.drop 2)
  else shapes

/-- The end of packed records of these shapes. -/
def shapesEnd (shapes : List (Bytes × Nat)) : Nat := layoutEnd sectorSize Prod.snd 0 shapes

/-- The size a directory gets when a file is appended to it. -/
def sizeAfter (raws : List Bytes) (fileName : Bytes) : Nat :=
  shapesEnd (sortShapes (raws.map shape ++ [newShape fileName]))

theorem map_sortAfterDots (raws : List Bytes) :
    (sortAfterDots raws).map shape = sortShapes (raws.map shape) := by
  unfold sortAfterDots sortShapes
  rw [List.length_map]
  split
  · rw [List.map_append, List.map_take, List.map_drop.symm]
    congr 1
    exact map_sortBy _ _ shape (raws.drop 2) fun _ _ => rfl
  · rfl

theorem packedEnd_eq_shapesEnd (raws : List Bytes) : packedEnd 0 raws = shapesEnd (raws.map shape) := by
  rw [shapesEnd, layoutEnd_map]
  rfl

/-- The record of a new file has the shape its name gives. -/
theorem shape_newRecord {image : Image} {fileName contents : Bytes} (short : fileName.length ≤ 221)
    (lbaFits : nextLba image < 2 ^ 32) (lenFits : contents.length < 2 ^ 32) :
    shape (newRecord image fileName contents) = newShape fileName := by
  have valid : RawRecord (newRecord image fileName contents) :=
    fileRecord_valid short lbaFits lenFits
  rw [shape, recordName_eq valid 0, newRecord, recordOf_fileRecord short lbaFits lenFits,
    fileRecord_length, newShape]

/-- **The size after an append depends on names and lengths only.** -/
theorem newEnd_eq_sizeAfter {image : Image} (placed : List (Nat × Bytes)) {fileName contents : Bytes}
    (short : fileName.length ≤ 221) (lbaFits : nextLba image < 2 ^ 32)
    (lenFits : contents.length < 2 ^ 32) :
    newEnd image placed fileName contents = sizeAfter (placed.map Prod.snd) fileName := by
  rw [newEnd, packedEnd_eq_shapesEnd, sortedRecords, map_sortAfterDots, List.map_append, sizeAfter,
    List.map_singleton, shape_newRecord short lbaFits lenFits]

end Bootsmith.Iso
