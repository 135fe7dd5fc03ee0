/-
**A FAT12 volume**: what an image is in terms of its areas.

`volumeOf` reads an image as its reserved sectors, the nibbles of each copy of the table, the slots of
the root directory and the bytes of each cluster. A write inside one entry, one slot or one cluster
changes that part of the volume and nothing else (`volumeOf_setTwelve`, `volumeOf_write_slot`,
`volumeOf_write_cluster`), because the areas of an accepted image do not overlap.
-/

import Bootsmith.Floppy.Layout
import Bootsmith.Library.Twelve

namespace Bootsmith.Floppy

open Bootsmith.Library

@[ext] structure Volume where
  size : Nat
  reserved : Bytes
  fats : Nat → Nat → Nat
  slots : Nat → Bytes
  clusters : Nat → Bytes

namespace Volume

/-- The table of one copy. -/
def table (volume : Volume) (copy : Nat) : Nat → Nat := twelve (volume.fats copy)

/-- Set an entry in one copy. -/
def setEntry (volume : Volume) (copy cluster value : Nat) : Volume :=
  { volume with
    fats := Function.update volume.fats copy (setTwelve (volume.fats copy) cluster value) }

/-- Set a slot. -/
def setSlot (volume : Volume) (slot : Nat) (bytes : Bytes) : Volume :=
  { volume with slots := Function.update volume.slots slot bytes }

/-- Set the bytes of a cluster. -/
def setCluster (volume : Volume) (cluster : Nat) (bytes : Bytes) : Volume :=
  { volume with clusters := Function.update volume.clusters cluster bytes }

@[simp] theorem setSlot_slots_self (volume : Volume) (slot : Nat) (bytes : Bytes) :
    (volume.setSlot slot bytes).slots slot = bytes := Function.update_self _ _ _

theorem setSlot_slots_of_ne (volume : Volume) {slot other : Nat} (bytes : Bytes)
    (different : other ≠ slot) : (volume.setSlot slot bytes).slots other = volume.slots other :=
  Function.update_of_ne different _ _

theorem setSlot_setSlot (volume : Volume) (slot : Nat) (first second : Bytes) :
    (volume.setSlot slot first).setSlot slot second = volume.setSlot slot second :=
  Volume.ext rfl rfl rfl (Function.update_idem _ _ _) rfl

@[simp] theorem setCluster_clusters_self (volume : Volume) (cluster : Nat) (bytes : Bytes) :
    (volume.setCluster cluster bytes).clusters cluster = bytes := Function.update_self _ _ _

end Volume

/-- The volume an image is. -/
def volumeOf (layout : Fat12Layout) (image : Image) : Volume where
  size := image.size
  reserved := image.slice 0 (layout.fatOffset 0)
  fats copy count :=
    if copy < layout.fatCount ∧ count < 2 * layout.fatLen then image.nibble (layout.fatOffset copy) count
    else 0
  slots slot := if slot < layout.rootEntries then image.slice (layout.slotOffset slot) 32 else []
  clusters cluster :=
    if layout.IsData cluster then image.slice (layout.clusterStart cluster) layout.clusterSize else []

section Parts

variable {layout : Fat12Layout} {image : Image}

theorem volumeOf_slot {slot : Nat} (inside : slot < layout.rootEntries) :
    (volumeOf layout image).slots slot = image.slice (layout.slotOffset slot) 32 :=
  if_pos inside

theorem volumeOf_cluster {cluster : Nat} (data : layout.IsData cluster) :
    (volumeOf layout image).clusters cluster
      = image.slice (layout.clusterStart cluster) layout.clusterSize :=
  if_pos data

theorem volumeOf_fat {copy count : Nat} (inside : copy < layout.fatCount)
    (short : count < 2 * layout.fatLen) :
    (volumeOf layout image).fats copy count = image.nibble (layout.fatOffset copy) count :=
  if_pos ⟨inside, short⟩

/-- An entry of the volume is that of the image. -/
theorem volumeOf_table (fit : layout.EntriesFit) {copy cluster : Nat} (inside : copy < layout.fatCount)
    (small : cluster < layout.clusterCount + 2) :
    (volumeOf layout image).table copy cluster
      = twelve (image.nibble (layout.fatOffset copy)) cluster := by
  have within := fit.inside small
  unfold Volume.table twelve
  rw [volumeOf_fat inside (by omega), volumeOf_fat inside (by omega), volumeOf_fat inside (by omega)]

theorem volumeOf_fats_lt (copy count : Nat) : (volumeOf layout image).fats copy count < 16 := by
  show (if _ then _ else _) < 16
  split
  · exact Image.nibble_lt _ _ _
  · decide

end Parts

section Writes

variable {layout : Fat12Layout} {image : Image} (geometry : layout.Geometry image.size)

include geometry

/-- **Setting an entry of one copy** changes that entry. -/
theorem volumeOf_setTwelve (fit : layout.EntriesFit) {copy cluster : Nat} (value : Nat)
    (inside : copy < layout.fatCount) (small : cluster < layout.clusterCount + 2) :
    volumeOf layout (image.setTwelve (layout.fatOffset copy) cluster value)
      = (volumeOf layout image).setEntry copy cluster value := by
  have within := fit.inside small
  have fatEnd := geometry.fat_end inside
  have rootEnd := geometry.root_le_data
  have dataEnd := geometry.dataOffset_le
  have start := Fat12Layout.fatOffset_le layout (Nat.zero_le copy)
  have same : ∀ place, place < layout.fatOffset copy ∨ layout.fatOffset copy + layout.fatLen ≤ place →
      (image.setTwelve (layout.fatOffset copy) cluster value).get place = image.get place :=
    fun place outside => Image.setTwelve_get_of_outside _ _ (by omega)
  refine Volume.ext (Image.setTwelve_size _ _ (by omega)) ?_ ?_ ?_ ?_
  · exact Image.slice_congr fun place _ before => same place (by omega)
  · funext other count
    show (if other < layout.fatCount ∧ count < 2 * layout.fatLen then _ else 0)
      = Function.update (volumeOf layout image).fats copy _ other count
    by_cases here : other = copy
    · obtain rfl := here
      rw [Function.update_self, Image.nibble_setTwelve]
      unfold setTwelve
      by_cases short : count < 2 * layout.fatLen
      · rw [if_pos ⟨inside, short⟩, volumeOf_fat inside short]
      · rw [if_neg fun both => short both.2, if_neg (by omega)]
        exact (if_neg fun both => short both.2).symm
    · rw [Function.update_of_ne here]
      by_cases known : other < layout.fatCount ∧ count < 2 * layout.fatLen
      · rw [if_pos known, volumeOf_fat known.1 known.2]
        refine Image.nibble_congr (same _ ?_)
        rcases Nat.lt_or_gt_of_ne here with before | after
        · have apart := Fat12Layout.fatOffset_apart layout before
          omega
        · have apart := Fat12Layout.fatOffset_apart layout after
          omega
      · rw [if_neg known]
        exact (if_neg known).symm
  · funext slot
    show (if _ then _ else _) = if _ then _ else _
    split
    · rename_i known
      have bounds := geometry.slot_end known
      exact Image.slice_congr fun place _ before => same place (by omega)
    · rfl
  · funext other
    show (if _ then _ else _) = if _ then _ else _
    split
    · rename_i data
      have bounds := geometry.cluster_end data
      exact Image.slice_congr fun place _ before => same place (by omega)
    · rfl

/-- A write behind the copies of the table leaves the reserved sectors and the copies. -/
theorem volumeOf_write_behind (start : Nat) (bytes : Bytes) (behind : layout.rootDirOffset ≤ start)
    (fits : start + bytes.length ≤ image.size) :
    (volumeOf layout (image.write start bytes)).size = image.size ∧
      (volumeOf layout (image.write start bytes)).reserved = (volumeOf layout image).reserved ∧
      (volumeOf layout (image.write start bytes)).fats = (volumeOf layout image).fats := by
  have reserved := geometry.root ▸ Fat12Layout.fatOffset_le layout
    (Nat.zero_le layout.fatCount)
  refine ⟨Image.write_size_of_le _ _ _ fits, Image.slice_write_apart _ _ _ _ _ (by omega), ?_⟩
  funext copy count
  show (if _ then _ else _) = if _ then _ else _
  split
  · rename_i known
    have fatEnd := geometry.fat_end known.1
    exact Image.nibble_congr (Image.write_get_of_outside _ _ _ (by omega))
  · rfl

/-- **A write of a part of a slot** changes that slot. -/
theorem volumeOf_write_slot {slot offset : Nat} {bytes : Bytes} (inside : slot < layout.rootEntries)
    (within : offset + bytes.length ≤ 32) :
    volumeOf layout (image.write (layout.slotOffset slot + offset) bytes)
      = (volumeOf layout image).setSlot slot
        (overlay ((volumeOf layout image).slots slot) offset bytes) := by
  have bounds := geometry.slot_end inside
  have dataEnd := geometry.dataOffset_le
  obtain ⟨size, reserved, fats⟩ := volumeOf_write_behind geometry
    (layout.slotOffset slot + offset) bytes (by omega) (by omega)
  refine Volume.ext size reserved fats ?_ ?_
  · funext other
    show (if other < layout.rootEntries then _ else [])
      = Function.update (volumeOf layout image).slots slot _ other
    by_cases here : other = slot
    · obtain rfl := here
      rw [if_pos inside, Function.update_self, Image.slice_write_inside _ _ _ _ _ within,
        volumeOf_slot inside, overlay]
    · rw [Function.update_of_ne here]
      show _ = if other < layout.rootEntries then _ else []
      split
      · refine Image.slice_write_apart _ _ _ _ _ ?_
        unfold Fat12Layout.slotOffset
        omega
      · rfl
  · funext other
    show (if _ then _ else _) = if _ then _ else _
    split
    · rename_i data
      have clusterBounds := geometry.cluster_end data
      exact Image.slice_write_apart _ _ _ _ _ (by omega)
    · rfl

/-- **A write of a cluster** changes that cluster. -/
theorem volumeOf_write_cluster {cluster : Nat} {bytes : Bytes} (data : layout.IsData cluster)
    (whole : bytes.length = layout.clusterSize) :
    volumeOf layout (image.write (layout.clusterStart cluster) bytes)
      = (volumeOf layout image).setCluster cluster bytes := by
  have bounds := geometry.cluster_end data
  have rootEnd := geometry.root_le_data
  obtain ⟨size, reserved, fats⟩ := volumeOf_write_behind geometry (layout.clusterStart cluster) bytes
    (by omega) (by omega)
  refine Volume.ext size reserved fats ?_ ?_
  · funext slot
    show (if _ then _ else _) = if _ then _ else _
    split
    · rename_i known
      have slotBounds := geometry.slot_end known
      exact Image.slice_write_apart _ _ _ _ _ (by omega)
    · rfl
  · funext other
    show (if layout.IsData other then _ else [])
      = Function.update (volumeOf layout image).clusters cluster _ other
    by_cases here : other = cluster
    · obtain rfl := here
      rw [if_pos data, Function.update_self, ← whole, Image.slice_write]
    · rw [Function.update_of_ne here]
      show _ = if layout.IsData other then _ else []
      split
      · rename_i known
        refine Image.slice_write_apart _ _ _ _ _ ?_
        rcases Nat.lt_or_gt_of_ne here with before | after
        · have apart := Fat12Layout.clusterStart_apart known before
          omega
        · have apart := Fat12Layout.clusterStart_apart data after
          omega
      · rfl

end Writes

end Bootsmith.Floppy
