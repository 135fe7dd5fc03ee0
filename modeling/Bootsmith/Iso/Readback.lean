/-
**What the directories read as after a call.**

After an append the target directory reads as its old records and one new one: the dot records stay
in front, the others are sorted by name, no record crosses a sector, the recorded size is the end of
the last record, and the directory needs no more sectors than before (`Grown`). After a replacement
`\I386` reads as before up to one record. After both the image is whole sectors long and says how
many (`WholeSectors`). `calls_readback` states all of this for well-formed images.
-/

import Bootsmith.Iso.Frame

namespace Bootsmith.Iso

open Bootsmith.Library

/-! ### Targets -/

/-- The directory an append goes to. -/
inductive Target
  | i386
  | root
  deriving DecidableEq, Repr

namespace Target

/-- The lookup of the directory. -/
def find : Target → Image → Fallible DirectoryRecord
  | i386 => findI386Record
  | root => findRootRecord

/-- Where the size of the directory is kept beside the directory. -/
def sizeField : Target → DirectoryRecord → Nat
  | i386, directory => directory.offset + 10
  | root, _ => rootOffset + 10

/-- The append into the directory. -/
def appendFile : Target → Bytes → Bytes → Effect Image Unit
  | i386 => appendFileToI386
  | root => appendFileToRoot

end Target

/-- The bytes of the records of a directory. -/
def recordBytes (image : Image) (records : List DirectoryRecord) : List Bytes :=
  records.map fun record => image.slice record.offset record.len

theorem Scan.recordBytes {image : Image} {stop pos : Nat} {placed : List (Nat × Bytes)}
    (scan : Scan image stop pos placed) : recordBytes image (parsed placed) = placed.map Prod.snd := by
  rw [Iso.recordBytes, parsed, List.map_map]
  exact List.map_congr_left fun entry member => (scan.bounds member).2.2.2.2

/-! ### What is read back -/

/-- The image is whole sectors long, and its volume descriptor says how many. -/
def WholeSectors (image : Image) : Prop :=
  image.size % sectorSize = 0 ∧
    ∃ sectors, read733 (image.slice volumeSpaceSizeOffsetInPvd 8) = .ok sectors ∧
      sectors * sectorSize = image.size

theorem AtEnd.wholeSectors {image : Image} {lba : Nat} {contents : Bytes}
    (atEnd : AtEnd lba contents image) (fits : finalLen lba contents / sectorSize < 2 ^ 32) :
    WholeSectors image := by
  have aligned : sectorSize ∣ image.size := by
    rw [atEnd.size]
    exact alignUp_dvd _ _
  refine ⟨Nat.mod_eq_zero_of_dvd aligned, image.size / sectorSize, ?_, Nat.div_mul_cancel aligned⟩
  rw [atEnd.volume, read733_write733 (by rw [atEnd.size]; exact fits)]

/-- The directory after an append, against the directory before. -/
structure Grown (image : Image) (directory : DirectoryRecord) (records : List DirectoryRecord)
    (fileName contents : Bytes) (image' : Image) (directory' : DirectoryRecord)
    (records' : List DirectoryRecord) : Prop where
  place : directory' = { directory with dataLen := directory'.dataLen }
  bytes : ∃ dot dotdot rest tail,
    recordBytes image records = dot :: dotdot :: rest ∧
      recordBytes image' records' = withField 10 directory'.dataLen dot :: dotdot :: tail ∧
      tail.Perm (rest ++ [newRecord image fileName contents])
  new : recordOf 0 (newRecord image fileName contents)
    = ⟨0, 33 + fileName.length + (33 + fileName.length) % 2, nextLba image, contents.length, 0,
      fileName⟩
  dots : StartsWithDots records'
  sorted : (records'.drop 2).Pairwise fun first second =>
    isoSortKey first.name ≤ isoSortKey second.name
  inSectors : InSectors records'
  ends : ∃ last, records'.getLast? = some last ∧
    directory'.start + directory'.dataLen = last.offset + last.len
  room : alignUp directory'.dataLen sectorSize ≤ alignUp directory.dataLen sectorSize

section Append

theorem packedEnd_withSize {raws : List Bytes} (valid : ∀ raw ∈ raws, RawRecord raw)
    (pos value : Nat) : packedEnd pos (withSize value raws) = packedEnd pos raws := by
  cases raws with
  | nil => rfl
  | cons head rest =>
    have minimum := (valid head List.mem_cons_self).minimum
    have length : (withField 10 value head).length = head.length := withField_length (by omega)
    simp only [packedEnd, withSize, layoutEnd, length]

/-- Records packed in the order of their names are read in the order of their names. -/
theorem parsed_placements_sorted {raws : List Bytes} (valid : ∀ raw ∈ raws, RawRecord raw)
    (sorted : raws.Pairwise (KeyLe fun raw => isoSortKey (recordName raw))) (pos : Nat) :
    (parsed (placements pos raws)).Pairwise fun first second =>
      isoSortKey first.name ≤ isoSortKey second.name := by
  have entries : (placements pos raws).map Prod.snd = raws := layout_map_snd pos raws
  rw [← entries, List.pairwise_map] at sorted
  rw [parsed, List.pairwise_map]
  refine sorted.imp_of_mem fun {first second} inFirst inSecond le => ?_
  have firstValid := valid first.2 (entries ▸ List.mem_map_of_mem inFirst)
  have secondValid := valid second.2 (entries ▸ List.mem_map_of_mem inSecond)
  rw [← recordName_eq firstValid first.1, ← recordName_eq secondValid second.1]
  exact le

variable {image image' : Image} {directory : DirectoryRecord} {sizeField : Nat}
  {placed : List (Nat × Bytes)} {fileName contents : Bytes}

/-- **The directory after an append.** -/
theorem Appended.grown (appended : Appended image directory sizeField placed fileName contents image')
    (scan : Scan image (directory.start + directory.dataLen) directory.start placed)
    (dots : StartsWithDots (parsed placed))
    (fits : AppendFits image directory placed fileName contents) :
    ∃ records', readDirectoryRecords image'
        { directory with dataLen := newEnd image placed fileName contents } = .ok records' ∧
      Grown image directory (parsed placed) fileName contents image'
        { directory with dataLen := newEnd image placed fileName contents } records' := by
  obtain ⟨dot, dotdot, rest, shape, dotName, dotdotName⟩ := StartsWithDots.placed dots
  have written := withSize_sortedRecords image dot dotdot rest fileName contents
    (newEnd image placed fileName contents)
  rw [← shape] at written
  have scan' := appended.scan
  have valid' : ∀ raw ∈ withSize (newEnd image placed fileName contents)
      (sortedRecords image placed fileName contents), RawRecord raw := by
    intro raw member
    rw [← layout_map_snd directory.start (withSize _ _)] at member
    obtain ⟨entry, inside, rfl⟩ := List.mem_map.mp member
    exact (scan'.bounds inside).2.2.2.1
  have dotValid : RawRecord dot.2 := (scan.bounds (by simp [shape])).2.2.2.1
  have sortedValid := sortedRecords_valid scan fits.starts
  have aligned : sectorSize ∣ directory.start := Dvd.intro_left _ rfl
  have bytes := scan'.recordBytes
  rw [layout_map_snd] at bytes
  refine ⟨_, scan'.read, rfl, ⟨dot.2, dotdot.2, rest.map Prod.snd, _, ?_, bytes.trans written,
    sortBy_perm _ _⟩, ?_, ?_, ?_, ?_, ?_, ?_⟩
  · rw [scan.recordBytes, shape]
    rfl
  · exact recordOf_fileRecord fits.short fits.lbaFits fits.lenFits 0
  · rw [written]
    exact placements_dots _ _ dotValid fits.sizeFits dotName dotdotName
  · rw [written] at valid' ⊢
    exact parsed_placements_sorted (fun raw member => valid' raw (by simp [member]))
      (sortBy_pairwise _ _) _
  · intro record member
    obtain ⟨entry, inside, rfl⟩ := List.mem_map.mp member
    exact (layout_mem sectorSize_pos (fun raw listed =>
      (valid' raw listed).length_le.trans (by decide)) inside).2.2
  · have nonempty : withSize (newEnd image placed fileName contents)
        (sortedRecords image placed fileName contents) ≠ [] := by
      rw [written]
      exact List.cons_ne_nil _ _
    obtain ⟨last, isLast, ends⟩ : ∃ last, (placements directory.start _).getLast? = some last ∧
      packedEnd directory.start _ = last.1 + last.2.length := layoutEnd_eq_last nonempty
    refine ⟨recordOf last.1 last.2, ?_, ?_⟩
    · rw [parsed, List.getLast?_map, isLast]
      rfl
    · have total := packedEnd_withSize sortedValid directory.start
        (newEnd image placed fileName contents)
      have shifted : packedEnd (directory.start + 0) (sortedRecords image placed fileName contents)
          = directory.start + newEnd image placed fileName contents := layoutEnd_shift aligned 0 _
      rw [Nat.add_zero] at shifted
      show directory.start + newEnd image placed fileName contents = last.1 + last.2.length
      rw [← shifted, ← total, ends]
  · exact alignUp_le sectorSize_pos fits.room (alignUp_dvd _ _)

end Append

/-! ### An append into either directory -/

/-- What a successful append into a directory of a well-formed image starts from and leaves. -/
structure TargetAppended (target : Target) (image : Image) (directory : DirectoryRecord)
    (placed : List (Nat × Bytes)) (fileName contents : Bytes) (image' : Image) : Prop where
  found : target.find image = .ok directory
  inVolume : Directory image directory
  scan : Scan image (directory.start + directory.dataLen) directory.start placed
  dots : StartsWithDots (parsed placed)
  site : Site image directory (target.sizeField directory)
  fits : AppendFits image directory placed fileName contents
  appended : Appended image directory (target.sizeField directory) placed fileName contents image'
  found' : target.find image'
    = .ok { directory with dataLen := newEnd image placed fileName contents }

section Target

variable {image image' : Image} {fileName contents : Bytes} {value : Unit}

theorem findRoot_of_append
    (run : (appendFileToRoot fileName contents).run image = .ok value image') :
    ∃ root, findRootRecord image = .ok root := by
  obtain ⟨_, _, opened, run⟩ := (Effect.bind_eq_ok _ _ _ _ _).mp run
  obtain ⟨_, rfl⟩ := (Effect.query_eq_ok _ _ _ _).mp opened
  rw [appendFileIntoRoot, appendFileInto] at run
  split at run
  · simp at run
  · obtain ⟨root, _, found, _⟩ := (Effect.bind_eq_ok _ _ _ _ _).mp run
    exact ⟨root, ((Effect.query_eq_ok _ _ _ _).mp found).1⟩

/-- **A successful append into the root.** -/
theorem WellFormed.appendRoot (wellFormed : WellFormed image)
    (run : (appendFileToRoot fileName contents).run image = .ok value image') :
    ∃ root placed, TargetAppended .root image root placed fileName contents image' := by
  obtain ⟨root, found⟩ := findRoot_of_append run
  obtain ⟨placed, scan, _, dots, _⟩ := wellFormed.scan (.root found)
  have site := wellFormed.rootSite found
  obtain ⟨raw, record, shape⟩ := findRootRecord_eq_ok.mp found
  have opened : openIsoRw image = .ok () := if_neg (not_lt.mpr record.large)
  rw [appendFileToRoot, Effect.query_bind openIsoRw opened] at run
  obtain ⟨fits, rfl⟩ := (appendFileInto_eq_ok found scan site).mp run
  have appended := appended_appendedImage scan site fits
  refine ⟨root, placed, found, .root found, scan, dots, site, fits, appended, ?_⟩
  have clear := (wellFormed.directory_inside (.root found)).2
  have within := record.within_pvdSector
  have header : (⟨pvdOffset, 7⟩ : Span).Within pvdSector := by constructor <;> decide
  have resized := record.resize fits.sizeFits appended.same (by
    simp only [List.mem_cons, List.not_mem_nil, or_false, forall_eq_or_imp, forall_eq]
    exact ⟨clear.symm.mono header (Span.Within.refl _), Or.inl (by decide), Or.inl (by decide)⟩)
    appended.field (by
    simp only [List.mem_cons, List.not_mem_nil, or_false, forall_eq_or_imp, forall_eq]
    exact ⟨Or.inr (clear.symm.mono within (Span.Within.refl _)), Or.inl trivial,
      Or.inr (RootRecord.apart_volumeField raw)⟩)
  refine findRootRecord_eq_ok.mpr ⟨_, resized, ?_⟩
  rw [(withField_dataLen record.valid fits.sizeFits).2, shape]

/-- **A successful append into `\I386`.** -/
theorem WellFormed.appendI386 (wellFormed : WellFormed image)
    (run : (appendFileToI386 fileName contents).run image = .ok value image') :
    ∃ i386 placed, TargetAppended .i386 image i386 placed fileName contents image' := by
  obtain ⟨i386, found⟩ := findI386_of_append run
  obtain ⟨root, rootPlaced, placed, staged, _⟩ := wellFormed.staged found
  obtain ⟨root, records, foundRoot, readRoot, named, isDirectory⟩ := findI386Record_eq_ok.mp found
  obtain ⟨i386In, _⟩ := wellFormed.i386_directory foundRoot readRoot named isDirectory
  obtain ⟨fits, rfl⟩ := (appendFileToI386_run staged).mp run
  obtain ⟨_, wrote⟩ := staged.append fits
  exact ⟨i386, placed, found, i386In, staged.scan, staged.dots, staged.site, fits,
    appended_appendedImage staged.scan staged.site fits, wrote.staged.findI386⟩

/-- **A successful append.** -/
theorem WellFormed.append {target : Target} (wellFormed : WellFormed image)
    (run : (target.appendFile fileName contents).run image = .ok value image') :
    ∃ directory placed, TargetAppended target image directory placed fileName contents image' := by
  cases target with
  | i386 => exact wellFormed.appendI386 run
  | root => exact wellFormed.appendRoot run

end Target

/-! ### The two laws -/

/-- `\I386` after a replacement reads as before, up to the extent of one record. -/
structure Retargeted (image : Image) (i386 : DirectoryRecord) (records : List DirectoryRecord)
    (fileName contents : Bytes) (image' : Image) (records' : List DirectoryRecord) : Prop where
  found' : findI386Record image' = .ok i386
  read' : readDirectoryRecords image' i386 = .ok records'
  records : ∃ existing,
    records.find? (fun record => isoNameEq record.name fileName) = some existing ∧
    records' = records.map fun record =>
      if record.offset = existing.offset then
        { record with extentLba := nextLba image, dataLen := contents.length }
      else record

/-- **Reading a directory back.** After an append the target holds its old records and one new one,
sorted and packed; after a replacement `\I386` keeps its records in order; both leave whole
sectors. -/
theorem calls_readback {image : Image} (wellFormed : WellFormed image) :
    (∀ target fileName contents value image',
      (Target.appendFile target fileName contents).run image = .ok value image' →
      ∃ directory directory' records records', target.find image = .ok directory ∧
        target.find image' = .ok directory' ∧ readDirectoryRecords image directory = .ok records ∧
        readDirectoryRecords image' directory' = .ok records' ∧
        Grown image directory records fileName contents image' directory' records' ∧
        WholeSectors image') ∧
    (∀ fileName contents value image',
      (replaceFileInI386 fileName contents).run image = .ok value image' →
      ∃ i386 records records', findI386Record image = .ok i386 ∧
        readDirectoryRecords image i386 = .ok records ∧
        Retargeted image i386 records fileName contents image' records' ∧ WholeSectors image') := by
  constructor
  · intro target fileName contents value image' run
    obtain ⟨directory, placed, append⟩ := wellFormed.append run
    obtain ⟨records', read', grown⟩ := append.appended.grown append.scan append.dots append.fits
    exact ⟨directory, _, parsed placed, records', append.found, append.found', append.scan.read, read',
      grown, append.appended.atEnd.wholeSectors append.fits.volumeFits⟩
  · intro fileName contents value image' run
    obtain ⟨i386, found⟩ := findI386_of_call (show (Call.replace fileName contents).run.run image = _ from run)
    obtain ⟨root, rootPlaced, placed, staged, _⟩ := wellFormed.staged found
    obtain ⟨fits, existing, named, rfl⟩ := (replaceFileInI386_run staged).mp run
    obtain ⟨placed', wrote, records⟩ := staged.replace fits named
    exact ⟨i386, parsed placed, parsed placed', found, staged.scan.read, ⟨wrote.staged.findI386,
      wrote.staged.scan.read, existing, named, records⟩, wrote.atEnd.wholeSectors fits.volumeFits⟩

/-- An append to the sample volume without files is read back. -/
theorem calls_readback_bareIso : ∃ image' records records' i386',
    (appendFileToI386 [65] [1]).run bareIso = .ok () image' ∧
      findI386Record image' = .ok i386' ∧ readDirectoryRecords image' i386' = .ok records' ∧
      Grown bareIso (sampleI386 68) records [65] [1] image' i386' records' ∧ WholeSectors image' := by
  obtain ⟨appends, _⟩ := calls_readback bareIso_wellFormed
  obtain ⟨directory, i386', records, records', found, found', _, read', grown, whole⟩ :=
    appends .i386 [65] [1] () _ bareIso_append
  obtain rfl := Except.ok.inj (found.symm.trans (sampleIso_i386 bareIso_fits bareIso_shape).1)
  exact ⟨_, records, records', i386', bareIso_append, found', read', grown, whole⟩

end Bootsmith.Iso
