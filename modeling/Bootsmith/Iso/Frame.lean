/-
**What a run of calls on `\I386` leaves alone.**

The original bytes change in the sectors of `\I386`, in the size field of its record and in the volume
size only. So the boot image stays where the boot record and the boot catalog say
(`BootImage.keep`), every file and directory beside the root and `\I386` keeps its bytes, every
directory beside `\I386` keeps its records up to the size of `\I386`, and new data lies behind the
original image (`runCalls_frame`).
-/

import Bootsmith.Iso.Run

namespace Bootsmith.Iso

open Bootsmith.Library

/-! ### The boot image -/

/-- The boot record names a catalog sector, whose initial entry names a boot image: its first sector
and how many bytes (in units of 512) are loaded. -/
structure BootImage (image : Image) (catalog lba count : Nat) : Prop where
  header : image.slice ((pvdLba + 1) * sectorSize) 30 = bootRecordHeader
  pointer : leNat (image.slice ((pvdLba + 1) * sectorSize + 71) 4) = catalog
  bootable : image.get (catalog * sectorSize + 32) = 0x88
  loaded : leNat (image.slice (catalog * sectorSize + 38) 2) * 512 = count
  start : leNat (image.slice (catalog * sectorSize + 40) 4) = lba

/-- What the boot image is read from: the boot record, the catalog and the image itself. -/
def bootSpans (catalog lba count : Nat) : List Span :=
  [⟨(pvdLba + 1) * sectorSize, sectorSize⟩, ⟨catalog * sectorSize, sectorSize⟩, ⟨lba * sectorSize, count⟩]

theorem BootImage.keep {image image' : Image} {catalog lba count : Nat} {spans : List Span}
    (boot : BootImage image catalog lba count) (same : Image.SameOutside spans image image')
    (inside : ∀ part ∈ bootSpans catalog lba count, part.stop ≤ image.size)
    (apart : ∀ part ∈ bootSpans catalog lba count, ∀ span ∈ spans, part.Apart span) :
    BootImage image' catalog lba count ∧
      image'.slice (lba * sectorSize) count = image.slice (lba * sectorSize) count := by
  simp only [bootSpans, List.mem_cons, List.not_mem_nil, or_false, forall_eq_or_imp, forall_eq,
    Span.stop] at inside apart
  obtain ⟨insideRecord, insideCatalog, insideBoot⟩ := inside
  obtain ⟨apartRecord, apartCatalog, apartBoot⟩ := apart
  have sector : sectorSize = 2048 := rfl
  have part : ∀ start offset size, offset + size ≤ sectorSize → start + sectorSize ≤ image.size →
      (∀ span ∈ spans, (⟨start, sectorSize⟩ : Span).Apart span) →
      image'.slice (start + offset) size = image.slice (start + offset) size := by
    intro start offset size fits startInside clear
    refine same.slice (by omega) fun span member => (clear span member).mono ?_ (Span.Within.refl _)
    simp only [Span.Within, Span.stop]
    omega
  have byte := part _ 32 1 (by omega) insideCatalog apartCatalog
  refine ⟨⟨?_, ?_, ?_, ?_, ?_⟩, same.slice insideBoot apartBoot⟩
  · rw [← boot.header]
    exact part _ 0 30 (by decide) insideRecord apartRecord
  · rw [part _ 71 4 (by omega) insideRecord apartRecord, boot.pointer]
  · rw [← boot.bootable]
    exact (List.cons.inj byte).1
  · rw [part _ 38 2 (by omega) insideCatalog apartCatalog, boot.loaded]
  · rw [part _ 40 4 (by omega) insideCatalog apartCatalog, boot.start]

/-! ### The frame of a run -/

section Frame

variable {image image' : Image} {i386 : DirectoryRecord}

/-- A directory beside `\I386` keeps its records, up to the size of `\I386`. -/
theorem WellFormed.records_keep (wellFormed : WellFormed image) {root : DirectoryRecord}
    {rootPlaced placed rootPlaced' : List (Nat × Bytes)} {i386' : DirectoryRecord}
    (staged : Staged image root i386 rootPlaced placed) (i386In : Directory image i386)
    (same : Image.SameOutside [i386.sectors, ⟨i386.offset + 10, 8⟩, volumeField] image image')
    (offset : i386'.offset = i386.offset)
    (rootScan' : Scan image' (root.start + root.dataLen) root.start rootPlaced')
    (rootRecords : parsed rootPlaced' = (parsed rootPlaced).map (resized i386'))
    {directory : DirectoryRecord} (inVolume : Directory image directory) (beside : directory ≠ i386) :
    ∃ records, readDirectoryRecords image directory = .ok records ∧
      readDirectoryRecords image' directory = .ok (records.map (resized i386')) := by
  have foundRoot := staged.findRoot
  have field := staged.field_within
  have rootExtent := root.extent_within_sectors
  simp only [Span.Within, Span.stop, DirectoryRecord.extent] at field
  by_cases isRoot : directory = root
  · subst isRoot
    exact ⟨_, staged.rootScan.read, rootRecords ▸ rootScan'.read⟩
  · obtain ⟨dirPlaced, scan, read, _, _⟩ := wellFormed.scan inVolume
    obtain ⟨raw, member, _, within⟩ := staged.entry
    have minimum := (staged.rootScan.bounds_at member).2.2.2.1.minimum
    simp only [Span.Within, Span.stop, DirectoryRecord.extent] at within
    have clear := (wellFormed.clear_of_entry foundRoot i386In (by omega) (by omega) inVolume.entry
      isRoot beside).resolve_left (wellFormed.dataLen_pos inVolume)
    obtain ⟨inside, apart, apartField, apartVolume⟩ := clear
    have apartRoot := (wellFormed.directory_apart (.root foundRoot) inVolume.entry isRoot).resolve_left
      (wellFormed.dataLen_pos inVolume)
    have unchanged : Scan image' (directory.start + directory.dataLen) directory.start dirPlaced := by
      refine scan.congr (fun index after before => ?_) same.size
      refine same.get index (by omega) fun span inSpans held => ?_
      have inDirectory : directory.extent.Holds index := ⟨after, before⟩
      simp only [List.mem_cons, List.not_mem_nil, or_false] at inSpans
      rcases inSpans with rfl | rfl | rfl
      · exact apart.not_holds inDirectory held
      · exact apartField.not_holds inDirectory held
      · exact apartVolume.not_holds inDirectory held
    -- no record of another directory lies where the record of `\I386` does
    have others : (parsed dirPlaced).map (resized i386') = parsed dirPlaced := by
      refine (List.map_congr_left fun record listed => if_neg fun here => ?_).trans (List.map_id _)
      have inDirectory := offset_within scan listed
      have extent := directory.extent_within_sectors
      simp only [Span.Apart, Span.Within, Span.stop, DirectoryRecord.sectors,
        DirectoryRecord.extent] at *
      omega
    exact ⟨_, read, others.symm ▸ unchanged.read⟩

/-- **A run of successful calls changes the original image in three ranges only**: the sectors of
`\I386`, the size field of its record and the volume size. -/
theorem runCalls_frame {calls : List Call} {value : Unit} (wellFormed : WellFormed image)
    (found : findI386Record image = .ok i386)
    (run : (runCalls calls).run image = .ok value image') :
    Image.SameOutside [i386.sectors, ⟨i386.offset + 10, 8⟩, volumeField] image image' ∧
      (∀ entry, Entry image entry → findRootRecord image ≠ .ok entry → entry ≠ i386 →
        image'.slice entry.start entry.dataLen = image.slice entry.start entry.dataLen) ∧
      (∀ catalog lba count, BootImage image catalog lba count →
        (∀ part ∈ bootSpans catalog lba count, part.stop ≤ image.size ∧
          part.Apart i386.sectors ∧ part.Apart ⟨i386.offset + 10, 8⟩ ∧ part.Apart volumeField) →
        BootImage image' catalog lba count ∧
          image'.slice (lba * sectorSize) count = image.slice (lba * sectorSize) count) ∧
      ∃ i386', findI386Record image' = .ok i386' ∧ i386'.offset = i386.offset ∧
        i386'.extentLba = i386.extentLba ∧
        (∀ directory, Directory image directory → directory ≠ i386 →
          ∃ records, readDirectoryRecords image directory = .ok records ∧
            readDirectoryRecords image' directory = .ok (records.map (resized i386'))) ∧
        ∃ records records', readDirectoryRecords image i386 = .ok records ∧
          readDirectoryRecords image' i386' = .ok records' ∧
          ∀ record' ∈ records'.drop 2,
            (∃ record ∈ records.drop 2, record'.name = record.name ∧
              record'.extentLba = record.extentLba ∧ record'.dataLen = record.dataLen) ∨
            image.size ≤ record'.start := by
  obtain ⟨root, rootPlaced, placed, staged, _⟩ := wellFormed.staged found
  obtain ⟨root', records, foundRoot, readRoot, named, isDirectory⟩ := findI386Record_eq_ok.mp found
  obtain rfl : root' = root := Except.ok.inj (foundRoot.symm.trans staged.findRoot)
  obtain ⟨i386In, _, after, before⟩ :=
    wellFormed.i386_directory foundRoot readRoot named isDirectory
  obtain ⟨same, i386', rootPlaced', placed', staged', offset, extentLba, rootRecords, kept⟩ :=
    staged.run_frame run
  refine ⟨same, fun entry inVolume notRoot notI386 => ?_, fun catalog lba count boot clear => ?_,
    i386', staged'.findI386, offset, extentLba, fun directory inVolume beside => ?_,
    _, _, staged.scan.read, staged'.scan.read, kept⟩
  · refine (wellFormed.clear_of_entry foundRoot i386In after before inVolume ?_ notI386).extentBytes_eq
      same
    rintro rfl
    exact notRoot foundRoot
  · refine boot.keep same (fun part member => (clear part member).1) fun part member => ?_
    obtain ⟨_, apart, field, volume⟩ := clear part member
    simp only [List.mem_cons, List.not_mem_nil, or_false, forall_eq_or_imp, forall_eq]
    exact ⟨apart, field, volume⟩
  · exact wellFormed.records_keep staged i386In same offset staged'.rootScan rootRecords inVolume beside

end Frame

theorem bootIso_bootImage : BootImage bootIso 20 21 2048 := by
  have planted := bootIso_fits.planted
  have bytes : ∀ entry ∈ bootSector ++ bootData, bootIso.slice entry.1 entry.2.length = entry.2 := fun entry member =>
    slice_plant planted (by
      rcases List.mem_append.mp member with inSector | inData
      · simp [sampleEntries, inSector]
      · simp [sampleEntries, inData])
  refine ⟨bytes (17 * sectorSize, bootRecordHeader) (by decide), ?_, ?_, ?_, ?_⟩
  · exact congrArg leNat (bytes (17 * sectorSize + 71, [20, 0, 0, 0]) (by decide))
  · exact (List.cons.inj (bytes (20 * sectorSize + 32, [0x88]) (by decide))).1
  · exact congrArg (leNat · * 512) (bytes (20 * sectorSize + 38, [4, 0]) (by decide))
  · exact congrArg leNat (bytes (20 * sectorSize + 40, [21, 0, 0, 0]) (by decide))

/-- A mixed run on the sample volume with two files keeps the file `C` and the boot image in their places. -/
theorem runCalls_frame_bootIso : ∃ image', (runCalls bootCalls).run bootIso = .ok () image' ∧
    Image.SameOutside [(sampleI386 136).sectors, ⟨(sampleI386 136).offset + 10, 8⟩, volumeField] bootIso image' ∧
    image'.slice (23 * sectorSize) 1 = bootIso.slice (23 * sectorSize) 1 ∧
    BootImage image' 20 21 2048 ∧ image'.slice (21 * sectorSize) 2048 = bootIso.slice (21 * sectorSize) 2048 := by
  obtain ⟨image', run⟩ := bootCalls_run
  obtain ⟨foundRoot, readRoot⟩ := sampleIso_root bootIso_fits
  obtain ⟨found, scan⟩ := sampleIso_i386 bootIso_fits bootIso_shape
  obtain ⟨same, kept, boots, _⟩ := runCalls_frame bootIso_wellFormed found run
  have inVolume : Directory bootIso (sampleI386 136) :=
    .child (.root foundRoot) readRoot (by decide) bootIso_shape.found.2
  have notRoot : findRootRecord bootIso ≠ .ok (recordOf (19 * sectorSize + 102) (fileRecord [67] 23 1)) := fun root =>
    absurd (Except.ok.inj (foundRoot.symm.trans root)) (by decide)
  have file := kept (recordOf (19 * sectorSize + 102) (fileRecord [67] 23 1))
    (.listed inVolume scan.read (by decide)) notRoot (by decide)
  have size : bootIso.size = 24 * sectorSize := sampleIso_size bootIso_fits
  have boot := boots 20 21 2048 bootIso_bootImage (by rw [size]; decide)
  exact ⟨image', run, same, file, boot.1, boot.2⟩

end Bootsmith.Iso
