/-
**Well-formed images.**

`Directory image` holds of the root and, from there down, of every record with the directory flag
behind the two dot records of a directory; `Entry image` holds of the root and of all such records,
files and directories. `WellFormed` asks that every directory reads, starts with its dot records and
keeps its records inside sectors, and that the extents of all entries lie in the image, in sectors
of their own, clear of the volume descriptor.

A well-formed image with an `\I386` directory is `Staged` (`WellFormed.staged`), and an append into
its root finds the root clear of what the append writes (`WellFormed.rootSite`).
-/

import Bootsmith.Iso.Volume

namespace Bootsmith.Iso

open Bootsmith.Library

/-- The directories of the volume. -/
inductive Directory (image : Image) : DirectoryRecord → Prop
  | root {root : DirectoryRecord} (found : findRootRecord image = .ok root) : Directory image root
  | child {directory child : DirectoryRecord} {records : List DirectoryRecord}
      (parent : Directory image directory) (read : readDirectoryRecords image directory = .ok records)
      (member : child ∈ records.drop 2) (isDirectory : child.IsDirectory) : Directory image child

/-- The files and directories of the volume. -/
inductive Entry (image : Image) : DirectoryRecord → Prop
  | root {root : DirectoryRecord} (found : findRootRecord image = .ok root) : Entry image root
  | listed {directory entry : DirectoryRecord} {records : List DirectoryRecord}
      (parent : Directory image directory) (read : readDirectoryRecords image directory = .ok records)
      (member : entry ∈ records.drop 2) : Entry image entry

theorem Directory.entry {image : Image} {directory : DirectoryRecord}
    (inVolume : Directory image directory) : Entry image directory := by
  cases inVolume with
  | root found => exact .root found
  | child parent read member _ => exact .listed parent read member

/-- No record crosses the end of a sector. -/
def InSectors (records : List DirectoryRecord) : Prop :=
  ∀ record ∈ records, record.offset % sectorSize + record.len ≤ sectorSize

/-- The volume descriptor is valid, every directory reads and has its dot records first and its
records inside sectors, and all extents lie in the image, in sectors of their own. -/
structure WellFormed (image : Image) : Prop where
  root : ∃ root, findRootRecord image = .ok root
  directories : ∀ directory, Directory image directory →
    ∃ records, readDirectoryRecords image directory = .ok records ∧ StartsWithDots records ∧
      InSectors records
  inside : ∀ entry, Entry image entry → entry.dataLen = 0 ∨ entry.start + entry.dataLen ≤ image.size
  clear : ∀ entry, Entry image entry → entry.dataLen = 0 ∨ entry.sectors.Apart pvdSector
  disjoint : ∀ first second, Entry image first → Entry image second → first ≠ second →
    first.dataLen = 0 ∨ second.dataLen = 0 ∨ first.sectors.Apart second.sectors

/-! ### What a directory of a well-formed image has -/

/-- The name of `\I386` is not the name of a dot record. -/
theorem not_dot_of_I386 {record : DirectoryRecord} (named : isoNameEq record.name (ascii "I386")) :
    record.name ≠ [0] ∧ record.name ≠ [1] := by
  constructor <;> intro dot <;> rw [dot] at named <;> exact absurd named (by decide)

/-- A search that does not find the dot records looks behind them. -/
theorem StartsWithDots.mem_drop {records : List DirectoryRecord} (dots : StartsWithDots records)
    {record : DirectoryRecord} (member : record ∈ records)
    (notDot : record.name ≠ [0] ∧ record.name ≠ [1]) : record ∈ records.drop 2 := by
  obtain ⟨dot, dotdot, rest, rfl, first, second⟩ := dots
  rcases List.mem_cons.mp member with rfl | member
  · exact absurd first notDot.1
  rcases List.mem_cons.mp member with rfl | member
  · exact absurd second notDot.2
  · exact member

/-- A directory with records is not empty. -/
theorem dataLen_pos_of_dots {image : Image} {directory : DirectoryRecord}
    {placed : List (Nat × Bytes)}
    (scan : Scan image (directory.start + directory.dataLen) directory.start placed)
    (dots : StartsWithDots (parsed placed)) : directory.dataLen ≠ 0 := by
  obtain ⟨dot, dotdot, rest, shape, _, _⟩ := dots
  intro none
  rw [none] at scan
  cases scan with
  | done past => cases shape
  | skip before _ _ _ => omega
  | record valid fits _ _ _ =>
    have minimum := valid.minimum
    omega

/-- A record lies inside the extent of its directory. -/
theorem offset_within {image : Image} {directory record : DirectoryRecord}
    {placed : List (Nat × Bytes)}
    (scan : Scan image (directory.start + directory.dataLen) directory.start placed)
    (member : record ∈ parsed placed) :
    directory.start ≤ record.offset ∧ record.offset + 34 ≤ directory.start + directory.dataLen := by
  obtain ⟨entry, inside, rfl⟩ := List.mem_map.mp member
  obtain ⟨after, before, _, valid, _⟩ := scan.bounds inside
  have minimum := valid.minimum
  exact ⟨after, show entry.1 + 34 ≤ _ by omega⟩

/-- The root record lies in the volume descriptor. -/
theorem root_offset {image : Image} {root : DirectoryRecord}
    (found : findRootRecord image = .ok root) : root.offset = rootOffset := by
  obtain ⟨raw, _, shape⟩ := findRootRecord_eq_ok.mp found
  rw [shape, recordOf]

theorem rootOffset_inside : pvdOffset ≤ rootOffset ∧ rootOffset + 34 ≤ pvdOffset + sectorSize := by
  decide

namespace WellFormed

variable {image : Image} (wellFormed : WellFormed image)

include wellFormed

theorem scan {directory : DirectoryRecord} (inVolume : Directory image directory) :
    ∃ placed, Scan image (directory.start + directory.dataLen) directory.start placed ∧
      readDirectoryRecords image directory = .ok (parsed placed) ∧
      StartsWithDots (parsed placed) ∧ InSectors (parsed placed) := by
  obtain ⟨records, read, dots, inSectors⟩ := wellFormed.directories directory inVolume
  obtain ⟨placed, scan, rfl⟩ := readDirectoryRecordsFrom_eq_ok.mp read
  exact ⟨placed, scan, read, dots, inSectors⟩

theorem dataLen_pos {directory : DirectoryRecord} (inVolume : Directory image directory) :
    directory.dataLen ≠ 0 := by
  obtain ⟨placed, scan, _, dots, _⟩ := wellFormed.scan inVolume
  exact dataLen_pos_of_dots scan dots

theorem directory_inside {directory : DirectoryRecord} (inVolume : Directory image directory) :
    directory.start + directory.dataLen ≤ image.size ∧ directory.sectors.Apart pvdSector :=
  ⟨(wellFormed.inside _ inVolume.entry).resolve_left (wellFormed.dataLen_pos inVolume),
    (wellFormed.clear _ inVolume.entry).resolve_left (wellFormed.dataLen_pos inVolume)⟩

/-- The sectors of a directory are apart from the extents of all other entries. -/
theorem directory_apart {directory entry : DirectoryRecord} (inVolume : Directory image directory)
    (listed : Entry image entry) (different : entry ≠ directory) :
    entry.dataLen = 0 ∨ entry.sectors.Apart directory.sectors :=
  (wellFormed.disjoint entry directory listed inVolume.entry different).imp_right fun either =>
    either.resolve_left (wellFormed.dataLen_pos inVolume)

/-- The directory `\I386` is not the root, and its record lies in the root. -/
theorem i386_directory {root i386 : DirectoryRecord} {records : List DirectoryRecord}
    (foundRoot : findRootRecord image = .ok root)
    (readRoot : readDirectoryRecords image root = .ok records)
    (named : records.find? (fun record => isoNameEq record.name (ascii "I386")) = some i386)
    (isDirectory : i386.IsDirectory) :
    Directory image i386 ∧ i386 ≠ root ∧ root.start ≤ i386.offset ∧
      i386.offset + 34 ≤ root.start + root.dataLen := by
  have rootIn : Directory image root := .root foundRoot
  obtain ⟨rootPlaced, rootScan, read, rootDots, _⟩ := wellFormed.scan rootIn
  obtain rfl : records = parsed rootPlaced := Except.ok.inj (readRoot.symm.trans read)
  have called : isoNameEq i386.name (ascii "I386") := by simpa using List.find?_some named
  have notDot := not_dot_of_I386 called
  have inRoot := List.mem_of_find?_eq_some named
  have member := rootDots.mem_drop inRoot notDot
  have atI386 := offset_within rootScan inRoot
  refine ⟨.child rootIn readRoot member isDirectory, ?_, atI386⟩
  rintro rfl
  -- the record of the root lies in the descriptor, that of `\I386` in the root
  have atRoot := root_offset foundRoot
  have descriptor := rootOffset_inside
  have rootClear := (wellFormed.directory_inside rootIn).2
  have extent := i386.extent_within_sectors
  simp only [Span.Apart, Span.Within, Span.stop, pvdSector, DirectoryRecord.sectors,
    DirectoryRecord.extent] at *
  omega

/-- The entries beside the root and `\I386` lie clear of what is written in place. -/
theorem clear_of_entry {root i386 entry : DirectoryRecord}
    (foundRoot : findRootRecord image = .ok root) (i386In : Directory image i386)
    (after : root.start ≤ i386.offset) (before : i386.offset + 34 ≤ root.start + root.dataLen)
    (inVolume : Entry image entry) (notRoot : entry ≠ root) (notI386 : entry ≠ i386) :
    Clear image i386 entry := by
  rcases wellFormed.inside entry inVolume with empty | recordInside
  · exact Or.inl empty
  rcases wellFormed.directory_apart i386In inVolume notI386 with empty | apartI386
  · exact Or.inl empty
  rcases wellFormed.directory_apart (.root foundRoot) inVolume notRoot with empty | apartRoot
  · exact Or.inl empty
  rcases wellFormed.clear entry inVolume with empty | apartPvd
  · exact Or.inl empty
  have field : (⟨i386.offset + 10, 8⟩ : Span).Within root.sectors := by
    refine Span.Within.trans ?_ root.extent_within_sectors
    simp only [Span.Within, Span.stop, DirectoryRecord.extent]
    omega
  have within := entry.extent_within_sectors
  exact Or.inr ⟨recordInside, apartI386.mono within (Span.Within.refl _),
    apartRoot.mono within field, apartPvd.mono within volumeField_within⟩

/-- **A well-formed image with an `\I386` directory is staged.** -/
theorem staged {i386 : DirectoryRecord} (found : findI386Record image = .ok i386) :
    ∃ root rootPlaced placed, Staged image root i386 rootPlaced placed ∧
      InSectors (parsed placed) := by
  obtain ⟨root, records, foundRoot, readRoot, named, isDirectory⟩ := findI386Record_eq_ok.mp found
  obtain ⟨i386In, different, after, before⟩ :=
    wellFormed.i386_directory foundRoot readRoot named isDirectory
  have rootIn : Directory image root := .root foundRoot
  obtain ⟨rootPlaced, rootScan, read, _, _⟩ := wellFormed.scan rootIn
  obtain rfl : records = parsed rootPlaced := Except.ok.inj (readRoot.symm.trans read)
  obtain ⟨placed, scan, readI386, dots, inSectors⟩ := wellFormed.scan i386In
  obtain ⟨rootInside, rootClear⟩ := wellFormed.directory_inside rootIn
  obtain ⟨inside, clear⟩ := wellFormed.directory_inside i386In
  have apart := (wellFormed.directory_apart rootIn i386In.entry different).resolve_left
    (wellFormed.dataLen_pos i386In)
  have rootExtent := root.extent_within_sectors
  refine ⟨root, rootPlaced, placed, ⟨findRootRecord_eq_ok.mp foundRoot, rootScan, rootInside,
    rootClear.mono rootExtent (Span.Within.refl _), named, isDirectory, scan, dots,
    inside, clear, apart.mono (Span.Within.refl _) rootExtent, fun record listed => ?_⟩, inSectors⟩
  have here := offset_within scan (List.mem_of_mem_drop listed)
  have atRoot := root_offset foundRoot
  have descriptor := rootOffset_inside
  have extent := i386.extent_within_sectors
  refine wellFormed.clear_of_entry foundRoot i386In after before (.listed i386In readI386 listed) ?_ ?_
  · rintro rfl
    simp only [Span.Apart, Span.Within, Span.stop, pvdSector, DirectoryRecord.sectors,
      DirectoryRecord.extent] at *
    omega
  · rintro rfl
    simp only [Span.Apart, Span.Within, Span.stop, DirectoryRecord.sectors,
      DirectoryRecord.extent] at *
    omega

/-- **An append into the root of a well-formed image** stays clear of what it reads. -/
theorem rootSite {root : DirectoryRecord} (found : findRootRecord image = .ok root) :
    Site image root (rootOffset + 10) := by
  obtain ⟨inside, clear⟩ := wellFormed.directory_inside (.root found)
  obtain ⟨raw, record, _⟩ := findRootRecord_eq_ok.mp found
  have large := record.large
  have field : (⟨rootOffset + 10, 8⟩ : Span).Within pvdSector := by
    constructor <;> decide
  have fieldInside : rootOffset + 10 + 8 ≤ (pvdLba + 1) * sectorSize := by decide
  exact ⟨large, inside, fieldInside.trans large, clear.mono (Span.Within.refl _) volumeField_within,
    clear.mono (Span.Within.refl _) field, Or.inr (show volumeField.stop ≤ rootOffset + 10 by decide)⟩

end WellFormed

end Bootsmith.Iso
