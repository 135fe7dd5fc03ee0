/-
**The classifier** (`bootsmith-iso/src/lib.rs`): the boot mode of an image, from the paths of its
ISO9660 volume and of its UDF partition.

* `collectPaths_cases`: the ISO9660 reader returns the paths, when the volume descriptor is valid and
  the directories it reaches lie in the image (`Listed`), or an error; it never panics;
* `classify_iff`: the classifier finishes, with the UDF walker's listing as a soft addition, exactly
  when the volume is not listed or the UDF walker is sound;
* `overlong_panics`: an image on which it panics.
-/

import Bootsmith.Inspect.Tree
import Bootsmith.Inspect.Udf

namespace Bootsmith.Inspect

open Bootsmith.Library Bootsmith.Core

/-! ### The boot mode -/

def has (entries : Finset Text) (path : String) : Prop := path.toList ∈ entries

def hasWin51OrWin52Marker (entries : Finset Text) : Prop :=
  ∃ p ∈ entries, p = "WIN51".toList ∨ "WIN51".toList <+: p ∨ p = "WIN52".toList ∨ "WIN52".toList <+: p

def isNt5InstallMedia (entries : Finset Text) : Prop :=
  has entries "I386/TXTSETUP.SIF" ∧
    (has entries "I386/SETUPLDR.BIN" ∨ has entries "I386/NTDETECT.COM" ∨ hasWin51OrWin52Marker entries) ∧
    ¬ has entries "BOOTMGR" ∧ ¬ ∃ p ∈ entries, "SOURCES/".toList <+: p

instance (entries : Finset Text) (path : String) : Decidable (has entries path) :=
  inferInstanceAs (Decidable (_ ∈ entries))

instance (entries : Finset Text) : Decidable (hasWin51OrWin52Marker entries) :=
  inferInstanceAs (Decidable (∃ p ∈ entries, _))

instance (entries : Finset Text) : Decidable (isNt5InstallMedia entries) :=
  inferInstanceAs (Decidable (_ ∧ _ ∧ _ ∧ ¬ ∃ p ∈ entries, _))

/-- The boot mode of a set of paths: the part of `classify` behind the readers. -/
def bootModeOf (entries : Finset Text) : Fallible BootMode :=
  if isNt5InstallMedia entries then
    if hasWin51OrWin52Marker entries then pure .windowsNtXp else pure .windows2000
  else if has entries "BOOTMGR" ∧ (has entries "SOURCES/INSTALL.WIM" ∨ has entries "SOURCES/INSTALL.ESD") then
    pure .windows
  else if has entries "ISOLINUX/ISOLINUX.BIN" then pure .isolinuxLinux
  else if has entries "EFI/BOOT/BOOTX64.EFI" then pure .uefiOnly
  else Fallible.bail "cannot determine boot mode automatically; pass --type explicitly"

def classify (beyond : Char → Text) (image : Image) : Fallible BootMode := do
  let entries ← collectPaths beyond image
  let udfEntries ← Udf.collectPaths beyond image
  bootModeOf (entries ∪ udfEntries.getD ∅)

/-! ### The ISO9660 reader -/

section Reader

variable {beyond : Char → Text} {image : Image}

/-- The first bytes of a valid volume descriptor. -/
def HasHeader (image : Image) : Prop :=
  (pvdSector + 1) * sectorSize ≤ image.size ∧ image.slice (pvdSector * sectorSize) 6 = 1 :: isoId

/-- The root that a valid volume descriptor names. -/
def rootOf (image : Image) : DirRef := dirRefOf (image.slice (pvdSector * sectorSize + 156) 34)

/-- A directory lies in the image. -/
def DirRef.Inside (image : Image) (dir : DirRef) : Prop :=
  dir.len = 0 ∨ dir.extent * sectorSize + dir.len ≤ image.size

variable (beyond image) in
/-- The volume descriptor is valid, and every directory the reader reaches lies in the image. -/
def Listed : Prop :=
  HasHeader image ∧ ∀ dir, Reaches (isoEntries beyond image) (maxDirDepth + 1) (rootOf image) dir →
    dir.Inside image

variable (beyond image) in
theorem openIso_cases : (HasHeader image ∧ openIso beyond image = .ok (rootOf image)) ∨
    (¬ HasHeader image ∧ ∃ chain, openIso beyond image = .error (.error chain)) := by
  by_cases valid : HasHeader image
  · exact Or.inl ⟨valid, openIso_of_header valid.1 valid.2⟩
  refine Or.inr ⟨valid, ?_⟩
  by_cases large : pvdSector * sectorSize + sectorSize ≤ image.size
  · have read : ioError (readExact image (pvdSector * sectorSize) sectorSize)
        = .ok (image.slice (pvdSector * sectorSize) sectorSize) := by
      rw [readExact_of_le large]
      rfl
    have length : (image.slice (pvdSector * sectorSize) sectorSize).length = 2048 := Image.slice_length _ _ _
    have bad : (image.slice (pvdSector * sectorSize) sectorSize).getD 0 0 ≠ 1 ∨
        subrange (image.slice (pvdSector * sectorSize) sectorSize) 1 6 ≠ isoId := by
      by_contra good
      rw [not_or, not_not, not_not, Image.getD_slice _ _ (by decide), Image.subrange_slice _ _ (by decide)] at good
      refine valid ⟨large, ?_⟩
      rw [Image.slice_append _ _ 1 5]
      exact congrArg₂ (fun byte bytes => byte :: bytes) good.1 good.2
    refine ⟨["not a valid ISO9660 image: missing primary volume descriptor"], ?_⟩
    rw [openIso, Fallible.bind_of_ok read, Fallible.bind_of_ok (byteOf_of_lt (by omega)),
      Fallible.bind_of_ok (partOf_of_le (by omega) (by omega)), if_pos bad]
    rfl
  · have failed : readExact image (pvdSector * sectorSize) sectorSize = Fallible.bail "failed to fill whole buffer" :=
      if_neg fun either => either.elim (by decide) large
    refine ⟨["I/O: failed to fill whole buffer", "failed to fill whole buffer"], ?_⟩
    rw [openIso, failed]
    rfl

theorem isoEntries_cases (dir : DirRef) :
    (dir.Inside image ∧ ∃ entries, isoEntries beyond image dir = .ok entries) ∨
      (¬ dir.Inside image ∧ ∃ chain, isoEntries beyond image dir = .error (.error chain)) := by
  by_cases inside : dir.Inside image
  · have read : readExtent image dir = .ok (image.slice (dir.extent * sectorSize) dir.len) := by
      have fits : readExact image (dir.extent * sectorSize) dir.len = .ok _ := if_pos inside
      rw [readExtent, fits]
      rfl
    exact Or.inl ⟨inside, _, Fallible.bind_of_ok read⟩
  · have failed : readExact image (dir.extent * sectorSize) dir.len = Fallible.bail "failed to fill whole buffer" :=
      if_neg inside
    refine Or.inr ⟨inside, ["I/O: failed to fill whole buffer", "failed to fill whole buffer"], ?_⟩
    rw [isoEntries, readExtent, failed]
    rfl

variable (beyond image) in
/-- **The ISO9660 reader** returns the paths of a volume that is listed, and else an error. -/
theorem collectPaths_cases : (Listed beyond image ∧ ∃ paths, collectPaths beyond image = .ok paths) ∨
    (¬ Listed beyond image ∧ ∃ chain, collectPaths beyond image = .error (.error chain)) := by
  rcases openIso_cases beyond image with ⟨header, opened⟩ | ⟨noHeader, chain, failed⟩
  · have walks : collectPaths beyond image
        = walk (isoEntries beyond image) (maxDirDepth + 1) (rootOf image) [] ∅ := by
      rw [collectPaths, Fallible.bind_of_ok opened]
      exact walkDir_eq image _ [] 0 ∅
    rw [walks, Listed]
    by_cases inside : ∀ dir, Reaches (isoEntries beyond image) (maxDirDepth + 1) (rootOf image) dir →
        dir.Inside image
    · exact Or.inl ⟨⟨header, inside⟩, walk_isOk_iff.mpr fun dir reached =>
        ((isoEntries_cases dir).resolve_right fun bad => bad.1 (inside dir reached)).2⟩
    · refine Or.inr ⟨fun listed => inside listed.2, ?_⟩
      cases walked : walk (isoEntries beyond image) (maxDirDepth + 1) (rootOf image) [] ∅ with
      | ok paths =>
        refine absurd (fun dir reached => ?_) inside
        obtain ⟨entries, read⟩ := walk_isOk_iff.mp ⟨paths, walked⟩ dir reached
        rcases isoEntries_cases dir with ⟨here, _⟩ | ⟨_, chain, failed⟩
        · exact here
        · cases failed.symm.trans read
      | error failure =>
        obtain ⟨dir, _, failed⟩ := walk_error walked
        rcases isoEntries_cases dir with ⟨_, entries, read⟩ | ⟨_, chain, failed'⟩
        · cases failed.symm.trans read
        · exact ⟨chain, congrArg Except.error (Except.error.inj (failed.symm.trans failed'))⟩
  · refine Or.inr ⟨fun listed => noHeader listed.1, chain, ?_⟩
    rw [collectPaths, failed]
    rfl

end Reader

/-! ### The classifier -/

theorem bootModeOf_ne_panic (entries : Finset Text) : bootModeOf entries ≠ .error .panic := by
  unfold bootModeOf
  split_ifs <;> exact nofun

/-- The classifier returns a mode or an error, and the UDF part of the image only adds to the paths of a
volume that is listed: what the UDF walker lists of the directories it can read, or nothing where it finds
no root. -/
def Finishes (beyond : Char → Text) (image : Image) : Prop :=
  classify beyond image ≠ .error .panic ∧ ∀ paths, collectPaths beyond image = .ok paths →
    ∃ listing, Udf.collectPaths beyond image = .ok listing ∧ Udf.SoftListing beyond image listing ∧
      classify beyond image = bootModeOf (paths ∪ listing.getD ∅)

/-- **The classifier finishes exactly** when the volume is not listed, so that the UDF part is not read,
or no file entry the UDF walker reaches is overlong. -/
theorem classify_iff (beyond : Char → Text) (image : Image) :
    Finishes beyond image ↔ (Listed beyond image → Udf.Sound beyond image) := by
  unfold Finishes
  rcases collectPaths_cases beyond image with ⟨listed, paths, read⟩ | ⟨unlisted, chain, failed⟩
  · rw [classify, Fallible.bind_of_ok read]
    rcases Udf.collectPaths_cases beyond image with ⟨sound, listing, walked⟩ | ⟨unsound, panics⟩
    · rw [Fallible.bind_of_ok walked]
      refine iff_of_true ⟨bootModeOf_ne_panic _, fun paths' read' => ?_⟩ fun _ => sound
      obtain rfl := Except.ok.inj (read.symm.trans read')
      exact ⟨listing, walked, Udf.collectPaths_soft walked, rfl⟩
    · rw [panics]
      exact iff_of_false (fun finishes => finishes.1 rfl) fun sound => unsound (sound listed)
  · rw [classify, failed]
    refine iff_of_true ⟨nofun, fun paths read => ?_⟩ fun listed => absurd listed unlisted
    cases read

/-! ### An overlong file entry -/

/-- The records of a root without files, in sector 18. -/
def overlongRoot : List Bytes := [Iso.directoryRecord [0] 18 68, Iso.directoryRecord [1] 18 68]

/-- A volume without files and a partition whose root has its data in the file entry, behind extended
attributes that end one byte past the sector. -/
def overlongEntries : List (Nat × Bytes) :=
  [(Iso.pvdOffset, Iso.pvdHeader), (Iso.rootOffset, Iso.directoryRecord [0] 18 68)]
    ++ Iso.placements (18 * Iso.sectorSize) overlongRoot
    ++ [(256 * sectorSize, leBytes 2 Udf.tagAnchorVdp), (256 * sectorSize + 16, leBytes 4 4096 ++ leBytes 4 257),
      (257 * sectorSize, leBytes 2 Udf.tagPartitionDesc), (257 * sectorSize + 188, leBytes 4 259),
      (258 * sectorSize, leBytes 2 Udf.tagLogicalVolumeDesc),
      (259 * sectorSize, leBytes 2 Udf.tagFileSetDesc), (259 * sectorSize + 404, leBytes 4 1),
      (260 * sectorSize, leBytes 2 Udf.tagFileEntry), (260 * sectorSize + 34, leBytes 2 3),
      (260 * sectorSize + 168, leBytes 4 1873)]

def overlongIso : Image := Iso.plant (261 * sectorSize) overlongEntries

set_option maxRecDepth 20000 in
theorem overlongIso_root : Udf.findRoot overlongIso = .ok (some (259, ⟨1⟩)) := by
  obtain ⟨found, searched⟩ := Udf.findRoot_isOk overlongIso
  have here : (Udf.findRoot overlongIso).toOption = some (some (259, ⟨1⟩)) := by decide
  rw [searched] at here ⊢
  rw [Option.some.inj here]

set_option maxRecDepth 20000 in
theorem overlongIso_overlong : Udf.Overlong overlongIso 259 ⟨1⟩ := by
  refine ⟨overlongIso.slice (260 * sectorSize) sectorSize, 176, if_pos (by decide), ?_, ?_, ?_⟩
  · decide
  · decide
  · decide

theorem overlongIso_listed (beyond : Char → Text) : Listed beyond overlongIso := by
  have planted : Iso.Planted (261 * sectorSize) overlongEntries := by decide
  have record : (Iso.rootOffset, Iso.directoryRecord [0] 18 68) ∈ overlongEntries := by simp [overlongEntries]
  have volume : Volume overlongIso ⟨18, 68⟩ :=
    volume_of_plant planted (by decide) (by simp [overlongEntries]) record (by decide)
  obtain ⟨root, readRoot, laidRoot⟩ := directory_of_plant planted 18 68 overlongRoot (by decide)
    (by decide) (by decide) (by decide)
  have holds : Holds overlongIso ⟨18, 68⟩ .nil :=
    ⟨root, ⟨18, 68⟩, _, _, _, readRoot, laidRoot, by decide, by decide, rfl⟩
  have visible : ∀ name ∈ Folder.nil.names, Visible beyond name := by simp [Folder.names]
  obtain ⟨paths, read, _⟩ := collectPaths_of_holds volume holds visible (by decide)
  rcases collectPaths_cases beyond overlongIso with ⟨listed, _⟩ | ⟨_, chain, failed⟩
  · exact listed
  · cases read.symm.trans failed

/-- **The classifier panics** on a file entry that is overlong. -/
theorem overlong_panics (beyond : Char → Text) : classify beyond overlongIso = .error .panic := by
  rcases collectPaths_cases beyond overlongIso with ⟨_, paths, read⟩ | ⟨unlisted, _⟩
  · rcases Udf.collectPaths_cases beyond overlongIso with ⟨sound, _⟩ | ⟨_, panics⟩
    · exact absurd overlongIso_overlong (sound 259 ⟨1⟩ overlongIso_root ⟨1⟩ (Or.inl rfl))
    · rw [classify, Fallible.bind_of_ok read, panics]
      rfl
  · exact absurd (overlongIso_listed beyond) unlisted

/-- Not every image is classified. -/
theorem not_every_image_finishes : ¬ ∀ beyond image, Finishes beyond image := fun claimed =>
  (claimed (fun char => [char]) overlongIso).1 (overlong_panics _)

end Bootsmith.Inspect
