/-
**The layout of a FAT12 image** (`ntxp_floppy.rs`).

`parseLayout` reads the boot sector. The areas of an accepted image follow each other: the reserved
sectors, the copies of the table, the root directory and the data area with its clusters, which ends
inside the image (`Geometry`).

The layout is taken from the boot sector before every call, so a call must not change it: an image whose
first table lies behind the first 512 bytes keeps its layout when only the areas change
(`parseLayout_congr`).
-/

import Bootsmith.Library.Buffer
import Bootsmith.Library.Endian
import Bootsmith.Library.Packing

namespace Bootsmith.Floppy

open Bootsmith.Library

structure Fat12Layout where
  bytesPerSector : Nat
  reservedSectors : Nat
  fatCount : Nat
  rootEntries : Nat
  sectorsPerFat : Nat
  rootDirOffset : Nat
  dataOffset : Nat
  clusterSize : Nat
  clusterCount : Nat
  deriving DecidableEq, Repr

def u16At (bytes : Image) (offset : Nat) : Fallible Nat :=
  if offset + 2 ≤ bytes.size then .ok (leNat (bytes.slice offset 2))
  else Fallible.bail s!"short FAT image reading u16 at {offset}"

def u32At (bytes : Image) (offset : Nat) : Fallible Nat :=
  if offset + 4 ≤ bytes.size then .ok (leNat (bytes.slice offset 4))
  else Fallible.bail s!"short FAT image reading u32 at {offset}"

def parseLayout (image : Image) : Fallible Fat12Layout :=
  if image.size < 512 then Fallible.bail "floppy image is too small for a FAT boot sector"
  -- every index below 512 is inside the image from here on
  else if image.get 510 ≠ 0x55 ∨ image.get 511 ≠ 0xaa then
    Fallible.bail "floppy image has no FAT boot-sector signature"
  else do
    let bytesPerSector ← u16At image 11
    let sectorsPerCluster := (image.get 13).toNat
    let reservedSectors ← u16At image 14
    let fatCount := (image.get 16).toNat
    let rootEntries ← u16At image 17
    let totalSectors16 ← u16At image 19
    let totalSectors32 ← u32At image 32
    let totalSectors := if totalSectors16 ≠ 0 then totalSectors16 else totalSectors32
    let sectorsPerFat ← u16At image 22
    if bytesPerSector = 0 ∨ sectorsPerCluster = 0 ∨ reservedSectors = 0 ∨ fatCount = 0 ∨
        rootEntries = 0 ∨ totalSectors = 0 ∨ sectorsPerFat = 0 then
      Fallible.bail "floppy image has invalid FAT12 BPB fields"
    else if image.size < totalSectors * bytesPerSector then
      Fallible.bail "floppy image is shorter than its FAT BPB total-sector count"
    else
      let rootDirOffset := (reservedSectors + fatCount * sectorsPerFat) * bytesPerSector
      let rootDirLen := rootEntries * 32
      let dataOffset := rootDirOffset + rootDirLen
      let clusterSize := bytesPerSector * sectorsPerCluster
      if image.size < dataOffset then
        Fallible.bail "floppy image FAT/root layout exceeds image size"
      else
        let used := reservedSectors + fatCount * sectorsPerFat
          + (rootDirLen + bytesPerSector - 1) / bytesPerSector
        if totalSectors < used then Fallible.bail "floppy image FAT layout underflows"
        else
          let dataSectors := totalSectors - used
          let clusterCount := dataSectors / sectorsPerCluster
          if 4085 ≤ clusterCount then Fallible.bail "floppy image is not FAT12-sized"
          else
            pure ⟨bytesPerSector, reservedSectors, fatCount, rootEntries, sectorsPerFat, rootDirOffset,
              dataOffset, clusterSize, clusterCount⟩

namespace Fat12Layout

/-! ### The areas -/

variable (layout : Fat12Layout)

/-- Where the copy `copy` of the table starts. -/
def fatOffset (copy : Nat) : Nat :=
  (layout.reservedSectors + copy * layout.sectorsPerFat) * layout.bytesPerSector

/-- The length of one copy of the table. -/
def fatLen : Nat := layout.sectorsPerFat * layout.bytesPerSector

/-- Where the slot `slot` of the root directory starts. -/
def slotOffset (slot : Nat) : Nat := layout.rootDirOffset + slot * 32

/-- The cluster is one of the data area. -/
def IsData (cluster : Nat) : Prop := 2 ≤ cluster ∧ cluster < layout.clusterCount + 2

instance (cluster : Nat) : Decidable (layout.IsData cluster) := inferInstanceAs (Decidable (_ ∧ _))

/-- Where the cluster `cluster` starts. -/
def clusterStart (cluster : Nat) : Nat := layout.dataOffset + (cluster - 2) * layout.clusterSize

/-- The clusters of `length` bytes. -/
def clustersFor (length : Nat) : Nat := (length + layout.clusterSize - 1) / layout.clusterSize

/-- Each copy of the table is large enough for the entries of all clusters, of twelve bits each. -/
def EntriesFit : Prop := (layout.clusterCount + 2) * 12 ≤ layout.fatLen * 8

instance : Decidable layout.EntriesFit := inferInstanceAs (Decidable (_ ≤ _))

/-- **The areas of an accepted image of `size` bytes** follow each other. -/
structure Geometry (size : Nat) : Prop where
  sector : 0 < layout.bytesPerSector
  cluster : 0 < layout.clusterSize
  copies : 0 < layout.fatCount
  root : layout.rootDirOffset = layout.fatOffset layout.fatCount
  data : layout.dataOffset = layout.slotOffset layout.rootEntries
  dataEnd : layout.dataOffset + layout.clusterCount * layout.clusterSize ≤ size
  small : layout.clusterCount < 4085
  large : 512 ≤ size

variable {layout}

theorem fatOffset_succ (copy : Nat) :
    layout.fatOffset (copy + 1) = layout.fatOffset copy + layout.fatLen := by
  unfold fatOffset fatLen
  ring

theorem fatOffset_le (layout : Fat12Layout) {first second : Nat} (order : first ≤ second) :
    layout.fatOffset first ≤ layout.fatOffset second := by
  unfold fatOffset
  gcongr

/-- The copies do not overlap. -/
theorem fatOffset_apart (layout : Fat12Layout) {first second : Nat} (order : first < second) :
    layout.fatOffset first + layout.fatLen ≤ layout.fatOffset second := by
  rw [← fatOffset_succ]
  exact fatOffset_le layout order

/-- The clusters do not overlap. -/
theorem clusterStart_apart {first second : Nat} (data : layout.IsData first) (order : first < second) :
    layout.clusterStart first + layout.clusterSize ≤ layout.clusterStart second := by
  have steps : first - 2 + 1 ≤ second - 2 := by
    have := data.1
    omega
  have product := Nat.mul_le_mul_right layout.clusterSize steps
  rw [Nat.add_mul, Nat.one_mul] at product
  unfold clusterStart
  omega

namespace Geometry

variable {size : Nat} (geometry : layout.Geometry size)

include geometry

theorem fat_end {copy : Nat} (inside : copy < layout.fatCount) :
    layout.fatOffset copy + layout.fatLen ≤ layout.rootDirOffset :=
  geometry.root ▸ fatOffset_apart layout inside

theorem slot_end {slot : Nat} (inside : slot < layout.rootEntries) :
    layout.rootDirOffset ≤ layout.slotOffset slot ∧ layout.slotOffset slot + 32 ≤ layout.dataOffset := by
  have data := geometry.data
  unfold slotOffset at *
  omega

theorem cluster_end {cluster : Nat} (data : layout.IsData cluster) :
    layout.dataOffset ≤ layout.clusterStart cluster ∧
      layout.clusterStart cluster + layout.clusterSize ≤ size := by
  have dataEnd := geometry.dataEnd
  have steps : cluster - 2 + 1 ≤ layout.clusterCount := by
    obtain ⟨first, last⟩ := data
    omega
  have product := Nat.mul_le_mul_right layout.clusterSize steps
  rw [Nat.add_mul, Nat.one_mul] at product
  unfold clusterStart
  omega

theorem dataOffset_le : layout.dataOffset ≤ size :=
  (Nat.le_add_right _ _).trans geometry.dataEnd

theorem root_le_data : layout.rootDirOffset ≤ layout.dataOffset := by
  have data := geometry.data
  unfold slotOffset at data
  omega

end Geometry

/-- **An entry of twelve bits lies in its copy.** -/
theorem EntriesFit.inside (fit : layout.EntriesFit) {cluster : Nat}
    (small : cluster < layout.clusterCount + 2) : cluster * 3 / 2 + 1 < layout.fatLen := by
  unfold EntriesFit at fit
  omega

end Fat12Layout

open Fat12Layout

/-- The clusters fit behind the areas that are rounded up to sectors. -/
theorem clusters_fit {sector perCluster total start rootLen : Nat} (positive : 0 < sector)
    (used : start + (rootLen + sector - 1) / sector ≤ total) :
    start * sector + rootLen + (total - (start + (rootLen + sector - 1) / sector)) / perCluster
      * (sector * perCluster) ≤ total * sector := by
  have root : rootLen ≤ (rootLen + sector - 1) / sector * sector := le_alignUp rootLen positive
  generalize (rootLen + sector - 1) / sector = rootSectors at *
  obtain ⟨free, rfl⟩ := Nat.exists_eq_add_of_le used
  rw [Nat.add_sub_cancel_left]
  have whole := Nat.mul_le_mul_right sector (Nat.div_mul_le_self free perCluster)
  have same : free / perCluster * (sector * perCluster) = free / perCluster * perCluster * sector := by
    ring
  rw [same, Nat.add_mul, Nat.add_mul]
  omega

/-- **What `parseLayout` accepts.** -/
theorem parseLayout_geometry {image : Image} {layout : Fat12Layout}
    (accepted : parseLayout image = .ok layout) : layout.Geometry image.size := by
  unfold parseLayout at accepted
  split at accepted
  · cases accepted
  rename_i large
  split at accepted
  · cases accepted
  obtain ⟨bytesPerSector, _, accepted⟩ := (Fallible.bind_eq_ok _ _ _).mp accepted
  obtain ⟨reservedSectors, _, accepted⟩ := (Fallible.bind_eq_ok _ _ _).mp accepted
  obtain ⟨rootEntries, _, accepted⟩ := (Fallible.bind_eq_ok _ _ _).mp accepted
  obtain ⟨totalSectors16, _, accepted⟩ := (Fallible.bind_eq_ok _ _ _).mp accepted
  obtain ⟨totalSectors32, _, accepted⟩ := (Fallible.bind_eq_ok _ _ _).mp accepted
  obtain ⟨sectorsPerFat, _, accepted⟩ := (Fallible.bind_eq_ok _ _ _).mp accepted
  simp only at accepted
  generalize (if totalSectors16 ≠ 0 then totalSectors16 else totalSectors32) = totalSectors at accepted
  generalize (image.get 13).toNat = sectorsPerCluster at accepted
  generalize (image.get 16).toNat = fatCount at accepted
  split at accepted
  · cases accepted
  rename_i fields
  simp only [not_or] at fields
  obtain ⟨sector, cluster, _, copies, _⟩ := fields
  split at accepted
  · cases accepted
  rename_i long
  split at accepted
  · cases accepted
  split at accepted
  · cases accepted
  rename_i used
  split at accepted
  · cases accepted
  rename_i small
  obtain rfl := (Fallible.pure_eq_ok _ _).mp accepted
  have sector := Nat.pos_of_ne_zero sector
  exact ⟨sector, Nat.mul_pos sector (Nat.pos_of_ne_zero cluster), Nat.pos_of_ne_zero copies, rfl, rfl,
    (clusters_fit sector (Nat.le_of_not_lt used)).trans (Nat.le_of_not_lt long),
    Nat.lt_of_not_le small, Nat.le_of_not_lt large⟩

/-- The bytes of the boot sector the layout is read from: the fields, without those that are skipped, and
the signature. -/
def IsHeader (index : Nat) : Prop :=
  (11 ≤ index ∧ index < 21) ∨ (22 ≤ index ∧ index < 24) ∨ (32 ≤ index ∧ index < 36) ∨ (510 ≤ index ∧ index < 512)

/-- The layout is read from the bytes of the header and the length. -/
theorem parseLayout_header {image image' : Image} (size : image'.size = image.size)
    (same : ∀ index, IsHeader index → image'.get index = image.get index) :
    parseLayout image' = parseLayout image := by
  have short : ∀ offset, IsHeader offset → IsHeader (offset + 1) →
      u16At image' offset = u16At image offset := by
    intro offset first second
    have bytes : image'.slice offset 2 = image.slice offset 2 := by
      refine Image.slice_congr fun index after before => ?_
      rcases Nat.lt_or_eq_of_le after with later | rfl
      · obtain rfl : index = offset + 1 := by omega
        exact same _ second
      · exact same _ first
    rw [u16At, size, bytes, u16At]
  have long : u32At image' 32 = u32At image 32 := by
    have bytes : image'.slice 32 4 = image.slice 32 4 :=
      Image.slice_congr fun index after before => same index (by unfold IsHeader; omega)
    rw [u32At, size, bytes, u32At]
  have byte : ∀ index, IsHeader index → image'.get index = image.get index := same
  unfold IsHeader at short byte
  unfold parseLayout
  rw [size, byte 510 (by decide), byte 511 (by decide), byte 13 (by decide), byte 16 (by decide),
    short 11 (by decide) (by decide), short 14 (by decide) (by decide), short 17 (by decide) (by decide),
    short 19 (by decide) (by decide), long, short 22 (by decide) (by decide)]

/-- The layout is read from the first 512 bytes and the length. -/
theorem parseLayout_congr {image image' : Image} (size : image'.size = image.size)
    (same : ∀ index < 512, image'.get index = image.get index) :
    parseLayout image' = parseLayout image :=
  parseLayout_header size fun index header => same index (by unfold IsHeader at header; omega)

end Bootsmith.Floppy
