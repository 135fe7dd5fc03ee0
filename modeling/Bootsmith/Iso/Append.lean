/-
**What one append and one replacement do to the image.**

`appendFileInto_eq_ok` says when an append into a directory succeeds and which image it leaves, and
`Appended` collects what a reader sees in that image: the directory reads back as the sorted,
packed records with its new size, the contents lie at the end, the volume size is the length of
the image, and nothing else changed. `replaceFileIntoI386_eq_ok` and `Replaced` do the same for a
replacement.

Both need the directory to stand clear of the fields that are written beside it: `Site`.
-/

import Bootsmith.Iso.Rewrite

namespace Bootsmith.Iso

open Bootsmith.Library

/-- The sector of the primary volume descriptor. -/
def pvdSector : Span := ⟨pvdOffset, sectorSize⟩

/-- The volume size field of the primary volume descriptor. -/
def volumeField : Span := ⟨volumeSpaceSizeOffsetInPvd, 8⟩

theorem volumeField_within : volumeField.Within pvdSector := by
  constructor <;> decide

/-- The first sector at or past the end of the image. -/
def nextLba (image : Image) : Nat := alignUp image.size sectorSize / sectorSize

theorem nextLba_mul (image : Image) : nextLba image * sectorSize = alignUp image.size sectorSize :=
  Nat.div_mul_cancel (alignUp_dvd _ _)

theorem size_le_nextLba (image : Image) : image.size ≤ nextLba image * sectorSize := by
  rw [nextLba_mul]
  exact le_alignUp _ sectorSize_pos

/-! ### Contents at the end of the image -/

/-- The length of the image after `contents` are appended at a sector. -/
def finalLen (lba : Nat) (contents : Bytes) : Nat :=
  alignUp (lba * sectorSize + contents.length) sectorSize

/-- The image `write_file_contents_at_end` leaves. -/
def endImage (image : Image) (lba : Nat) (contents : Bytes) : Image :=
  let offset := lba * sectorSize
  let filled := (image.write image.size (List.replicate (offset - image.size) 0)).write offset contents
  let padded := filled.write (offset + contents.length)
    (List.replicate (finalLen lba contents - offset - contents.length) 0)
  (padded.setLen (finalLen lba contents)).write volumeSpaceSizeOffsetInPvd
    (write733 (finalLen lba contents / sectorSize))

theorem writeFileContentsAtEnd_eq_ok {lba : Nat} {contents : Bytes} {image image' : Image}
    {value : Unit} :
    (writeFileContentsAtEnd lba contents).run image = .ok value image' ↔
      image.size ≤ lba * sectorSize ∧ finalLen lba contents / sectorSize < 2 ^ 32 ∧
        image' = endImage image lba contents := by
  unfold writeFileContentsAtEnd write733At
  simp only [Effect.bind_eq_ok, fileLen_eq_ok, exists_and_left, and_assoc, exists_eq_left']
  split
  · rename_i early
    simp only [Effect.bail_ne_ok, false_iff, not_and]
    omega
  · rename_i late
    simp only [Effect.bind_eq_ok, Effect.lift_eq_ok, Fallible.context_eq_ok, tryFrom_eq_ok,
      writeZeroes_eq_ok, writeAll_eq_ok, Effect.update_eq_ok, exists_and_left, and_assoc,
      exists_eq_left', exists_const]
    constructor
    · rintro ⟨fits, written⟩
      exact ⟨by omega, fits, written.symm⟩
    · rintro ⟨_, fits, rfl⟩
      exact ⟨fits, rfl⟩

section End

variable {image : Image} {lba : Nat} {contents : Bytes}
  (large : (pvdLba + 1) * sectorSize ≤ image.size) (past : image.size ≤ lba * sectorSize)

theorem le_finalLen (lba : Nat) (contents : Bytes) :
    lba * sectorSize + contents.length ≤ finalLen lba contents :=
  le_alignUp _ sectorSize_pos

include large past

theorem endImage_size : (endImage image lba contents).size = finalLen lba contents := by
  have long := le_finalLen lba contents
  have below : volumeSpaceSizeOffsetInPvd + 8 ≤ (pvdLba + 1) * sectorSize := by decide
  refine (Image.write_size_of_le _ _ _ ?_).trans (Image.setLen_size _ _)
  rw [Image.setLen_size, write733_length]
  omega

theorem endImage_sameOutside : Image.SameOutside [volumeField] image (endImage image lba contents) := by
  have long := le_finalLen lba contents
  refine ⟨?_, fun index inside outside => ?_⟩
  · rw [endImage_size large past]
    omega
  · have apart : ¬ volumeField.Holds index := outside volumeField List.mem_cons_self
    unfold endImage
    rw [Image.write_get_of_not_holds _ _ _ (by rwa [write733_length]), Image.setLen_get _ (by omega),
      Image.write_get_of_outside _ _ _ (by omega), Image.write_get_of_outside _ _ _ (by omega),
      Image.write_get_of_outside _ _ _ (by omega)]

theorem slice_endImage :
    (endImage image lba contents).slice (lba * sectorSize) contents.length = contents := by
  have long := le_finalLen lba contents
  have below : volumeSpaceSizeOffsetInPvd + 8 ≤ (pvdLba + 1) * sectorSize := by decide
  refine Eq.trans (Image.slice_congr fun index after before => ?_)
    (Image.slice_write (image.write image.size (List.replicate (lba * sectorSize - image.size) 0))
      (lba * sectorSize) contents)
  unfold endImage
  rw [Image.write_get_of_outside _ _ _ (by rw [write733_length]; omega),
    Image.setLen_get _ (by omega), Image.write_get_of_outside _ _ _ (by omega)]

omit large past in
theorem volume_endImage :
    (endImage image lba contents).slice volumeSpaceSizeOffsetInPvd 8
      = write733 (finalLen lba contents / sectorSize) := by
  have read := Image.slice_write
    (((((image.write image.size (List.replicate (lba * sectorSize - image.size) 0)).write
      (lba * sectorSize) contents).write (lba * sectorSize + contents.length)
      (List.replicate (finalLen lba contents - lba * sectorSize - contents.length) 0))).setLen
      (finalLen lba contents)) volumeSpaceSizeOffsetInPvd
    (write733 (finalLen lba contents / sectorSize))
  rwa [write733_length] at read

/-- The contents lie at a sector, where they end an image of whole sectors that says how many. -/
structure AtEnd (lba : Nat) (contents : Bytes) (image' : Image) : Prop where
  stored : image'.slice (lba * sectorSize) contents.length = contents
  size : image'.size = finalLen lba contents
  volume : image'.slice volumeSpaceSizeOffsetInPvd 8 = write733 (image'.size / sectorSize)

theorem atEnd_endImage : AtEnd lba contents (endImage image lba contents) := by
  have size : (endImage image lba contents).size = _ := endImage_size large past
  refine ⟨slice_endImage large past, size, ?_⟩
  rw [size]
  exact volume_endImage

end End

/-! ### Rewriting the directory -/

/-- The directory reader's records are read again as their bytes. -/
theorem mapM_readExact {image : Image} {stop pos : Nat} {placed : List (Nat × Bytes)}
    (scan : Scan image stop pos placed) :
    ((parsed placed).mapM fun record => readExact image record.offset record.len)
      = .ok (placed.map Prod.snd) := by
  induction scan with
  | done past => rfl
  | skip before inside zero rest ih => exact ih
  | @record pos raw placed valid fits inside here rest ih =>
    show ((recordOf pos raw :: parsed placed).mapM _) = _
    rw [List.mapM_cons, Fallible.bind_eq_ok]
    refine ⟨raw, readExact_eq_ok.mpr ⟨Or.inr inside, here⟩, ?_⟩
    rw [ih]
    rfl

theorem sortAfterDots_perm (raws : List Bytes) : (sortAfterDots raws).Perm raws := by
  unfold sortAfterDots
  split
  · have sorted := sortBy_perm (fun record => isoSortKey (recordName record)) (raws.drop 2)
    exact (sorted.append_left _).trans (by rw [List.take_append_drop])
  · exact .refl _

theorem rewriteDirectoryWithAddedRecord_eq_ok {image image' : Image} {stop pos : Nat}
    {placed : List (Nat × Bytes)} (scan : Scan image stop pos placed) {new : Bytes}
    (valid : RawRecord new) {dirStart allocated newEnd : Nat} :
    (rewriteDirectoryWithAddedRecord dirStart allocated (parsed placed) new).run image
        = .ok newEnd image' ↔
      newEnd = packedEnd 0 (sortAfterDots (placed.map Prod.snd ++ [new])) ∧
        newEnd ≤ allocated ∧
        image' = image.write dirStart
          (packedDir allocated (sortAfterDots (placed.map Prod.snd ++ [new]))).bytes := by
  have fits : ∀ raw ∈ sortAfterDots (placed.map Prod.snd ++ [new]), raw.length ≤ sectorSize := by
    intro raw member
    have short : raw.length ≤ 255 := by
      rcases List.mem_append.mp ((sortAfterDots_perm _).mem_iff.mp member) with old | added
      · obtain ⟨entry, inside, rfl⟩ := List.mem_map.mp old
        exact (scan.bounds inside).2.2.2.1.length_le
      · rw [List.mem_singleton.mp added]
        exact valid.length_le
    exact short.trans (by decide)
  unfold rewriteDirectoryWithAddedRecord
  simp only [Effect.bind_eq_ok, Effect.query_eq_ok, mapM_readExact scan, Except.ok.injEq,
    Effect.lift_eq_ok, Effect.pure_eq_ok, writeAll_eq_ok]
  constructor
  · rintro ⟨_, _, ⟨rfl, rfl⟩, ⟨dir, pos⟩, _, ⟨packed, rfl⟩, _, _, rfl, rfl, rfl⟩
    rw [packRecords_eq_ok dirStart allocated (Nat.zero_le _) fits] at packed
    obtain ⟨room, rfl, rfl⟩ := packed
    exact ⟨rfl, room, rfl⟩
  · rintro ⟨rfl, room, rfl⟩
    exact ⟨_, _, ⟨rfl, rfl⟩, (packedDir allocated _, _), _,
      ⟨(packRecords_eq_ok dirStart allocated (Nat.zero_le _) fits).mpr ⟨room, rfl, rfl⟩, rfl⟩,
      (), _, rfl, rfl, rfl⟩

/-- **The rewritten directory reads back as the packed records.** -/
theorem scan_rewritten (image : Image) {dirStart allocated : Nat} {raws : List Bytes}
    (aligned : sectorSize ∣ dirStart) (within : dirStart ≤ image.size)
    (valid : ∀ raw ∈ raws, RawRecord raw) (room : packedEnd 0 raws ≤ allocated) :
    Scan (image.write dirStart (packedDir allocated raws).bytes) (dirStart + packedEnd 0 raws)
      dirStart (placements dirStart raws) := by
  have fits : ∀ raw ∈ raws, raw.length ≤ sectorSize := fun raw member =>
    (valid raw member).length_le.trans (by decide)
  have size : (packedDir allocated raws).size = allocated := packedDir_size fits room
  have moved : placements dirStart raws
      = (placements 0 raws).map fun entry => (dirStart + entry.1, entry.2) :=
    layout_shift aligned 0 raws
  have ends : packedEnd dirStart raws = dirStart + packedEnd 0 raws := layoutEnd_shift aligned 0 raws
  rw [← ends]
  have here : ∀ index < allocated, (image.write dirStart (packedDir allocated raws).bytes).get
      (dirStart + index) = (packedDir allocated raws).get index := fun index inside =>
    Image.write_bytes_get _ _ _ (by omega)
  refine scan_of_layout valid ?_ ?_ ?_
  · have grown := image.le_write_size dirStart (packedDir allocated raws).bytes within
    rw [Image.bytes_length, size] at grown
    omega
  · rw [moved]
    intro entry member
    obtain ⟨original, inside, rfl⟩ := List.mem_map.mp member
    have bound : original.1 + original.2.length ≤ packedEnd 0 raws :=
      (layout_mem sectorSize_pos fits inside).2.1
    have read : (packedDir allocated raws).slice original.1 original.2.length = original.2 :=
      slice_packedDir inside
    refine Eq.trans ?_ read
    refine List.ext_getElem (by simp) fun index short _ => ?_
    simp only [Image.slice_length] at short
    rw [Image.getElem_slice, Image.getElem_slice, Nat.add_assoc, here _ (by omega)]
  · intro index after before outside
    obtain ⟨offset, rfl⟩ := Nat.exists_eq_add_of_le after
    rw [here _ (by omega)]
    refine packedDir_zero fun entry member held => ?_
    refine outside (dirStart + entry.1, entry.2) ?_ ?_
    · rw [moved]
      exact List.mem_map_of_mem member
    · simp only [Span.Holds, Span.stop] at *
      omega

/-! ### The append -/

/-- The directory lies in the image, clear of the two fields that are written outside of it. -/
structure Site (image : Image) (directory : DirectoryRecord) (sizeField : Nat) : Prop where
  large : (pvdLba + 1) * sectorSize ≤ image.size
  inside : directory.start + directory.dataLen ≤ image.size
  fieldInside : sizeField + 8 ≤ image.size
  clearVolume : directory.sectors.Apart volumeField
  clearField : directory.sectors.Apart ⟨sizeField, 8⟩
  fieldVolume : (⟨sizeField, 8⟩ : Span).Apart volumeField

/-- The directory's sectors start in the image and end before the next free one, and the field that
holds the directory's size lies in the image. -/
structure Seat (image : Image) (directory : DirectoryRecord) (sizeField : Nat) : Prop where
  start_le : directory.start ≤ image.size
  sectors : directory.start + alignUp directory.dataLen sectorSize ≤ nextLba image * sectorSize
  fieldInside : sizeField + 8 ≤ image.size

/-- The record an append adds. -/
def newRecord (image : Image) (fileName contents : Bytes) : Bytes :=
  fileRecord fileName (nextLba image) contents.length

/-- The records of a directory after an append, in their new order. -/
def sortedRecords (image : Image) (placed : List (Nat × Bytes)) (fileName contents : Bytes) :
    List Bytes :=
  sortAfterDots (placed.map Prod.snd ++ [newRecord image fileName contents])

/-- The size of a directory after an append. -/
def newEnd (image : Image) (placed : List (Nat × Bytes)) (fileName contents : Bytes) : Nat :=
  packedEnd 0 (sortedRecords image placed fileName contents)

/-- The first record with its data length set. -/
def withSize (value : Nat) : List Bytes → List Bytes
  | [] => []
  | head :: rest => withField 10 value head :: rest

/-- What an append checks before its first write. -/
structure AppendStarts (image : Image) (directory : DirectoryRecord) (placed : List (Nat × Bytes))
    (fileName contents : Bytes) : Prop where
  nonempty : contents ≠ []
  absent : ∀ record ∈ parsed placed, isoSortKey record.name ≠ isoSortKey fileName
  lbaFits : nextLba image < 2 ^ 32
  lenFits : contents.length < 2 ^ 32
  short : fileName.length ≤ 221
  room : newEnd image placed fileName contents ≤ alignUp directory.dataLen sectorSize

/-- What an append checks. -/
structure AppendFits (image : Image) (directory : DirectoryRecord) (placed : List (Nat × Bytes))
    (fileName contents : Bytes) : Prop where
  nonempty : contents ≠ []
  absent : ∀ record ∈ parsed placed, isoSortKey record.name ≠ isoSortKey fileName
  lbaFits : nextLba image < 2 ^ 32
  lenFits : contents.length < 2 ^ 32
  short : fileName.length ≤ 221
  room : newEnd image placed fileName contents ≤ alignUp directory.dataLen sectorSize
  sizeFits : newEnd image placed fileName contents < 2 ^ 32
  volumeFits : finalLen (nextLba image) contents / sectorSize < 2 ^ 32

/-- The image with the directory rewritten. -/
def rewrittenImage (image : Image) (directory : DirectoryRecord) (sorted : List Bytes) : Image :=
  image.write directory.start (packedDir (alignUp directory.dataLen sectorSize) sorted).bytes

/-- The image with the directory rewritten and its size updated. -/
def grownImage (image : Image) (directory : DirectoryRecord) (sizeField : Nat)
    (sorted : List Bytes) : Image :=
  ((rewrittenImage image directory sorted).write sizeField (write733 (packedEnd 0 sorted))).write
    (directory.start + 10) (write733 (packedEnd 0 sorted))

/-- The image an append leaves. -/
def appendedImage (image : Image) (directory : DirectoryRecord) (sizeField : Nat)
    (placed : List (Nat × Bytes)) (fileName contents : Bytes) : Image :=
  endImage (grownImage image directory sizeField (sortedRecords image placed fileName contents))
    (nextLba image) contents

section Append

variable {image : Image} {directory : DirectoryRecord} {sizeField : Nat}
  {placed : List (Nat × Bytes)} {fileName contents : Bytes}

theorem AppendFits.starts (fits : AppendFits image directory placed fileName contents) :
    AppendStarts image directory placed fileName contents :=
  ⟨fits.nonempty, fits.absent, fits.lbaFits, fits.lenFits, fits.short, fits.room⟩

theorem newRecord_valid (starts : AppendStarts image directory placed fileName contents) :
    RawRecord (newRecord image fileName contents) :=
  fileRecord_valid starts.short starts.lbaFits starts.lenFits

theorem sortedRecords_perm (image : Image) (placed : List (Nat × Bytes))
    (fileName contents : Bytes) :
    (sortedRecords image placed fileName contents).Perm
      (placed.map Prod.snd ++ [newRecord image fileName contents]) :=
  sortAfterDots_perm _

theorem sortedRecords_valid {stop pos : Nat} (scan : Scan image stop pos placed)
    (starts : AppendStarts image directory placed fileName contents) :
    ∀ raw ∈ sortedRecords image placed fileName contents, RawRecord raw := by
  intro raw member
  rcases List.mem_append.mp ((sortedRecords_perm _ _ _ _).mem_iff.mp member) with old | added
  · obtain ⟨entry, inside, rfl⟩ := List.mem_map.mp old
    exact (scan.bounds inside).2.2.2.1
  · rw [List.mem_singleton.mp added]
    exact newRecord_valid starts

theorem sortedRecords_ne_nil : sortedRecords image placed fileName contents ≠ [] := by
  intro empty
  have length := (sortedRecords_perm image placed fileName contents).length_eq
  rw [empty, List.length_append, List.length_singleton, List.length_nil] at length
  omega

theorem sectors_le_nextLba (site : Site image directory sizeField) :
    directory.start + alignUp directory.dataLen sectorSize ≤ nextLba image * sectorSize := by
  have inside := site.inside
  have aligned : sectorSize ∣ directory.start := Dvd.intro_left _ rfl
  rw [nextLba_mul, ← alignUp_add _ sectorSize_pos aligned]
  exact alignUp_mono sectorSize_pos inside

theorem Site.seat (site : Site image directory sizeField) : Seat image directory sizeField :=
  ⟨(Nat.le_add_right _ _).trans site.inside, sectors_le_nextLba site, site.fieldInside⟩

/-- A directory with records has room for the size field of the first one. -/
theorem le_packedEnd {raws : List Bytes} (valid : ∀ raw ∈ raws, RawRecord raw)
    (nonempty : raws ≠ []) : 34 ≤ packedEnd 0 raws := by
  cases raws with
  | nil => exact absurd rfl nonempty
  | cons raw rest =>
    have minimum := (valid raw List.mem_cons_self).minimum
    have ends : place sectorSize 0 raw.length + raw.length ≤ packedEnd 0 (raw :: rest) :=
      le_layoutEnd _ rest
    omega

theorem rewrittenImage_size (seat : Seat image directory sizeField) {sorted : List Bytes}
    (valid : ∀ raw ∈ sorted, RawRecord raw)
    (room : packedEnd 0 sorted ≤ alignUp directory.dataLen sectorSize) :
    image.size ≤ (rewrittenImage image directory sorted).size ∧
      directory.start + alignUp directory.dataLen sectorSize
        ≤ (rewrittenImage image directory sorted).size ∧
      (rewrittenImage image directory sorted).size ≤ nextLba image * sectorSize := by
  have within := seat.sectors
  have past := size_le_nextLba image
  have start := seat.start_le
  have size : (packedDir (alignUp directory.dataLen sectorSize) sorted).size = _ :=
    packedDir_size (fun raw member => (valid raw member).length_le.trans (by decide)) room
  refine ⟨Image.size_le_write _ _ _, ?_, ?_⟩
  · have grown := image.le_write_size directory.start
      (packedDir (alignUp directory.dataLen sectorSize) sorted).bytes (by omega)
    rwa [Image.bytes_length, size] at grown
  · rw [rewrittenImage, Image.write_size, Image.bytes_length, size]
    split <;> omega

theorem grownImage_size (seat : Seat image directory sizeField) {sorted : List Bytes}
    (valid : ∀ raw ∈ sorted, RawRecord raw) (nonempty : sorted ≠ [])
    (room : packedEnd 0 sorted ≤ alignUp directory.dataLen sectorSize) :
    (grownImage image directory sizeField sorted).size
      = (rewrittenImage image directory sorted).size := by
  have minimum := le_packedEnd valid nonempty
  have fieldInside := seat.fieldInside
  obtain ⟨kept, grown, _⟩ := rewrittenImage_size seat valid room
  have fielded : ((rewrittenImage image directory sorted).write sizeField
      (write733 (packedEnd 0 sorted))).size = (rewrittenImage image directory sorted).size :=
    Image.write_size_of_le _ _ _ (by rw [write733_length]; omega)
  rw [grownImage, Image.write_size_of_le _ _ _ (by rw [write733_length]; omega), fielded]

theorem grownImage_sameOutside {sorted : List Bytes}
    (valid : ∀ raw ∈ sorted, RawRecord raw) (nonempty : sorted ≠ [])
    (room : packedEnd 0 sorted ≤ alignUp directory.dataLen sectorSize) :
    Image.SameOutside [directory.sectors, ⟨sizeField, 8⟩] image
      (grownImage image directory sizeField sorted) := by
  have minimum := le_packedEnd valid nonempty
  have size : (packedDir (alignUp directory.dataLen sectorSize) sorted).size = _ :=
    packedDir_size (fun raw member => (valid raw member).length_le.trans (by decide)) room
  refine ((Image.SameOutside.write _ _ _ ?_).trans (Image.SameOutside.write _ _ _ ?_)).trans
    (Image.SameOutside.write _ _ _ ?_)
  · refine ⟨directory.sectors, List.mem_cons_self, le_rfl, ?_⟩
    show directory.start + (Image.bytes _).length ≤ directory.start + alignUp _ _
    rw [Image.bytes_length, size]
  · exact ⟨⟨sizeField, 8⟩, by simp, le_rfl, by simp [Span.stop]⟩
  · refine ⟨directory.sectors, List.mem_cons_self, Nat.le_add_right _ _, ?_⟩
    show directory.start + 10 + (write733 _).length ≤ directory.start + alignUp _ _
    rw [write733_length]
    omega

/-- The duplicate check compares sort keys. -/
theorem any_isoNameEq_iff : (parsed placed).any (fun record => isoNameEq record.name fileName) = false ↔
    ∀ record ∈ parsed placed, isoSortKey record.name ≠ isoSortKey fileName := by
  simp only [List.any_eq_false, ne_eq, ← isoNameEq_iff]

/-- **When an append succeeds, and the image it leaves.** -/
theorem appendFileInto_eq_ok {find : Image → Fallible DirectoryRecord}
    {field : DirectoryRecord → Nat} {path tooLarge : String} {image' : Image} {value : Unit}
    (found : find image = .ok directory)
    (scan : Scan image (directory.start + directory.dataLen) directory.start placed)
    (site : Site image directory (field directory)) :
    (appendFileInto find field path tooLarge fileName contents).run image = .ok value image' ↔
      AppendFits image directory placed fileName contents ∧
        image' = appendedImage image directory (field directory) placed fileName contents := by
  have read : readDirectoryRecords image directory = .ok (parsed placed) := scan.read
  unfold appendFileInto
  split
  · rename_i empty
    simp only [Effect.bail_ne_ok, false_iff, not_and]
    exact fun fits => absurd empty fits.nonempty
  rename_i nonempty
  rw [Effect.query_bind find found,
    Effect.query_bind (fun image => readDirectoryRecords image directory) read]
  split
  · rename_i present
    simp only [Effect.bail_ne_ok, false_iff, not_and]
    exact fun fits => absurd (any_isoNameEq_iff.mpr fits.absent) (by simp [present])
  rename_i absent
  simp only [fileLen_bind, Effect.lift_bind_eq_ok, Fallible.context_eq_ok, tryFrom_eq_ok, buildFileRecord_eq_ok,
    and_assoc]
  constructor
  · rintro ⟨_, lbaFits, rfl, _, lenFits, rfl, _, short, rfl, run⟩
    obtain ⟨stop, middle, rewrote, run⟩ := (Effect.bind_eq_ok _ _ _ _ _).mp run
    obtain ⟨rfl, room, rfl⟩ := (rewriteDirectoryWithAddedRecord_eq_ok scan
      (fileRecord_valid short lbaFits lenFits)).mp rewrote
    simp only [Effect.lift_bind_eq_ok, Fallible.context_eq_ok, tryFrom_eq_ok, and_assoc] at run
    obtain ⟨_, sizeFits, rfl, run⟩ := run
    simp only [Effect.bind_eq_ok, write733At, writeAll_eq_ok, exists_eq_left', exists_const,
      writeFileContentsAtEnd_eq_ok] at run
    obtain ⟨_, volumeFits, rfl⟩ := run
    exact ⟨⟨nonempty, any_isoNameEq_iff.mp (by simpa using absent), lbaFits, lenFits, short, room, sizeFits,
      volumeFits⟩, rfl⟩
  · rintro ⟨fits, rfl⟩
    refine ⟨_, fits.lbaFits, rfl, _, fits.lenFits, rfl, _, fits.short, rfl, ?_⟩
    rw [Effect.bind_eq_ok]
    refine ⟨_, _, (rewriteDirectoryWithAddedRecord_eq_ok scan (newRecord_valid fits.starts)).mpr
      ⟨rfl, fits.room, rfl⟩, ?_⟩
    simp only [Effect.lift_bind_eq_ok, Fallible.context_eq_ok, tryFrom_eq_ok, and_assoc]
    refine ⟨_, fits.sizeFits, rfl, ?_⟩
    simp only [Effect.bind_eq_ok, write733At, writeAll_eq_ok, exists_eq_left', exists_const,
      writeFileContentsAtEnd_eq_ok]
    have valid := sortedRecords_valid scan fits.starts
    have size := grownImage_size site.seat valid sortedRecords_ne_nil fits.room
    exact ⟨size.trans_le (rewrittenImage_size site.seat valid fits.room).2.2, fits.volumeFits, rfl⟩

/-- Setting the size in the first record of a packed directory. -/
theorem replaced_placements (value : Nat) {start : Nat} {sorted : List Bytes} {head : Bytes}
    {rest : List Bytes} (aligned : sectorSize ∣ start) (shape : sorted = head :: rest)
    (valid : ∀ raw ∈ sorted, RawRecord raw) :
    Scan.replaced start (withField 10 value head) (placements start sorted)
        = placements start (withSize value sorted) ∧
      (start, head) ∈ placements start sorted := by
  subst shape
  have minimum := (valid head List.mem_cons_self).minimum
  have short := (valid head List.mem_cons_self).length_le
  have stays : place sectorSize start head.length = start :=
    place_of_dvd aligned (short.trans (by decide))
  have length : (withField 10 value head).length = head.length := withField_length (by omega)
  have others : Scan.replaced start (withField 10 value head)
      (placements (start + head.length) rest) = placements (start + head.length) rest :=
    Scan.replaced_of_ne fun entry member => by
      have after := (layout_mem sectorSize_pos (fun raw inside =>
        (valid raw (List.mem_cons_of_mem _ inside)).length_le.trans (by decide)) member).1
      omega
  unfold placements at others
  simp only [placements, layout, withSize, stays, length]
  refine ⟨?_, List.mem_cons_self⟩
  show (if start = start then _ else _) :: Scan.replaced _ _ _ = _
  rw [if_pos rfl, others]

/-- **The directory of the grown image reads back** as the packed records with its new size, which
also stands in the size field beside it. -/
theorem scan_grownImage (within : directory.start ≤ image.size)
    (clear : directory.sectors.Apart ⟨sizeField, 8⟩) {sorted : List Bytes}
    (valid : ∀ raw ∈ sorted, RawRecord raw) (nonempty : sorted ≠ [])
    (room : packedEnd 0 sorted ≤ alignUp directory.dataLen sectorSize)
    (sizeFits : packedEnd 0 sorted < 2 ^ 32) :
    Scan (grownImage image directory sizeField sorted) (directory.start + packedEnd 0 sorted)
        directory.start (placements directory.start (withSize (packedEnd 0 sorted) sorted)) ∧
      (grownImage image directory sizeField sorted).slice sizeField 8
        = write733 (packedEnd 0 sorted) := by
  have aligned : sectorSize ∣ directory.start := Dvd.intro_left _ rfl
  simp only [Span.Apart, DirectoryRecord.sectors, Span.stop] at clear
  have start : Scan (rewrittenImage image directory sorted) _ _ _ :=
    scan_rewritten image aligned within valid room
  obtain ⟨head, rest, shape⟩ := List.exists_cons_of_ne_nil nonempty
  obtain ⟨moved, first⟩ := replaced_placements (packedEnd 0 sorted) aligned shape valid
  have headValid := valid head (by simp [shape])
  have minimum := headValid.minimum
  have small := le_packedEnd valid nonempty
  unfold grownImage
  generalize rewrittenImage image directory sorted = rewritten at *
  -- the field lies outside of the directory
  have fielded : Scan (rewritten.write sizeField (write733 (packedEnd 0 sorted)))
      (directory.start + packedEnd 0 sorted) directory.start (placements directory.start sorted) :=
    start.congr (fun index after before => Image.write_get_of_outside _ _ _ (by
      rw [write733_length]
      omega)) (Image.size_le_write _ _ _)
  have length : (withField 10 (packedEnd 0 sorted) head).length = head.length :=
    withField_length (by omega)
  constructor
  · rw [← moved]
    refine fielded.overwrite first (withField_dataLen headValid sizeFits).1 length ?_ ?_
      (Image.size_le_write _ _ _)
    · rw [length, Image.slice_write_inside _ _ _ _ _ (by rw [write733_length]; omega),
        (fielded.bounds first).2.2.2.2, write733_length]
      rfl
    · intro index _ _ outside
      refine Image.write_get_of_outside _ _ _ ?_
      simp only [Span.Holds, Span.stop] at outside
      rw [write733_length]
      omega
  · rw [Image.slice_write_apart _ _ _ _ _ (by rw [write733_length]; omega)]
    have read := Image.slice_write rewritten sizeField (write733 (packedEnd 0 sorted))
    rwa [write733_length] at read

/-- What a reader sees after an append. -/
structure Appended (image : Image) (directory : DirectoryRecord) (sizeField : Nat)
    (placed : List (Nat × Bytes)) (fileName contents : Bytes) (image' : Image) : Prop where
  same : Image.SameOutside [directory.sectors, ⟨sizeField, 8⟩, volumeField] image image'
  field : image'.slice sizeField 8 = write733 (newEnd image placed fileName contents)
  scan : Scan image' (directory.start + newEnd image placed fileName contents) directory.start
    (placements directory.start (withSize (newEnd image placed fileName contents)
      (sortedRecords image placed fileName contents)))
  atEnd : AtEnd (nextLba image) contents image'

/-- **What the image an append leaves holds.** -/
theorem appended_appendedImage
    (scan : Scan image (directory.start + directory.dataLen) directory.start placed)
    (site : Site image directory sizeField)
    (fits : AppendFits image directory placed fileName contents) :
    Appended image directory sizeField placed fileName contents
      (appendedImage image directory sizeField placed fileName contents) := by
  have valid := sortedRecords_valid scan fits.starts
  have room := fits.room
  have sameGrown : Image.SameOutside _ image (grownImage image directory sizeField _) :=
    grownImage_sameOutside valid sortedRecords_ne_nil room
  have sizeGrown := grownImage_size site.seat valid sortedRecords_ne_nil room
  obtain ⟨_, grown, past⟩ := rewrittenImage_size site.seat valid room
  rw [← sizeGrown] at grown past
  obtain ⟨scanGrown, fieldGrown⟩ := scan_grownImage site.seat.start_le site.clearField valid
    sortedRecords_ne_nil room fits.sizeFits
  have large := site.large.trans sameGrown.size
  have fieldInside := site.fieldInside.trans sameGrown.size
  have sameEnd : Image.SameOutside [volumeField] _
      (appendedImage image directory sizeField placed fileName contents) :=
    endImage_sameOutside large past
  refine ⟨(sameGrown.mono ?_).trans (sameEnd.mono ?_), ?_, ?_, atEnd_endImage large past⟩
  · simp only [List.mem_cons, List.not_mem_nil, or_false, forall_eq_or_imp, forall_eq]
    exact ⟨⟨_, Or.inl rfl, Span.Within.refl _⟩, ⟨_, Or.inr (Or.inl rfl), Span.Within.refl _⟩⟩
  · simp only [List.mem_cons, List.not_mem_nil, or_false, forall_eq]
    exact ⟨_, Or.inr (Or.inr rfl), Span.Within.refl _⟩
  · rw [sameEnd.slice fieldInside (by simpa using site.fieldVolume)]
    exact fieldGrown
  · refine scanGrown.congr (fun index after before => ?_) sameEnd.size
    have before' : index < directory.start + alignUp directory.dataLen sectorSize :=
      before.trans_le (Nat.add_le_add_left room _)
    refine sameEnd.get index (by omega) fun span member held => ?_
    rw [List.mem_singleton.mp member] at held
    exact site.clearVolume.not_holds ⟨after, before'⟩ held

end Append

/-! ### The replacement -/

/-- The record with its extent and its data length set. -/
def retargeted (lba count : Nat) (raw : Bytes) : Bytes := withField 10 count (withField 2 lba raw)

theorem retargeted_valid {raw : Bytes} (valid : RawRecord raw) {lba count : Nat}
    (lbaFits : lba < 2 ^ 32) (lenFits : count < 2 ^ 32) :
    RawRecord (retargeted lba count raw) ∧ (retargeted lba count raw).length = raw.length ∧
      ∀ offset, recordOf offset (retargeted lba count raw)
        = { recordOf offset raw with extentLba := lba, dataLen := count } := by
  have minimum := valid.minimum
  obtain ⟨moved, readMoved⟩ := withField_extentLba valid lbaFits
  obtain ⟨sized, readSized⟩ := withField_dataLen moved lenFits
  have length : (withField 2 lba raw).length = raw.length := withField_length (by omega)
  have length' : (retargeted lba count raw).length = _ := withField_length (by omega)
  exact ⟨sized, length'.trans length, fun offset => by rw [retargeted, readSized, readMoved]⟩

/-- The next free sector behind new data. -/
theorem AtEnd.nextLba {image' : Image} {lba : Nat} {contents : Bytes}
    (atEnd : AtEnd lba contents image') :
    Iso.nextLba image' = finalLen lba contents / sectorSize := by
  have whole : sectorSize ∣ finalLen lba contents := alignUp_dvd _ _
  rw [Iso.nextLba, atEnd.size, alignUp_of_dvd sectorSize_pos whole]

/-- What a replacement checks. -/
structure ReplaceFits (image : Image) (contents : Bytes) : Prop where
  nonempty : contents ≠ []
  lbaFits : nextLba image < 2 ^ 32
  lenFits : contents.length < 2 ^ 32
  volumeFits : finalLen (nextLba image) contents / sectorSize < 2 ^ 32

/-- The image with a record retargeted. -/
def retargetedImage (image : Image) (offset : Nat) (contents : Bytes) : Image :=
  (image.write (offset + 2) (write733 (nextLba image))).write (offset + 10)
    (write733 contents.length)

/-- The image a replacement leaves. -/
def replacedImage (image : Image) (offset : Nat) (contents : Bytes) : Image :=
  endImage (retargetedImage image offset contents) (nextLba image) contents

section Replace

variable {image : Image} {i386 : DirectoryRecord} {placed : List (Nat × Bytes)}
  {fileName contents : Bytes} {offset : Nat} {raw : Bytes}

theorem retargetedImage_size (inside : offset + 18 ≤ image.size) :
    (retargetedImage image offset contents).size = image.size := by
  have first : (image.write (offset + 2) (write733 (nextLba image))).size = image.size :=
    Image.write_size_of_le _ _ _ (by rw [write733_length]; omega)
  rw [retargetedImage, Image.write_size_of_le _ _ _ (by rw [write733_length]; omega), first]

theorem retargetedImage_sameOutside :
    Image.SameOutside [⟨offset + 2, 16⟩] image (retargetedImage image offset contents) := by
  refine (Image.SameOutside.write _ _ _ ?_).trans (Image.SameOutside.write _ _ _ ?_)
  · exact ⟨_, List.mem_singleton_self _, le_rfl, by simp [Span.stop]⟩
  · exact ⟨_, List.mem_singleton_self _, by simp, by simp [Span.stop]⟩

/-- **When a replacement succeeds, and the image it leaves.** -/
theorem replaceFileIntoI386_eq_ok {image' : Image} {value : Unit}
    (found : findI386Record image = .ok i386)
    (scan : Scan image (i386.start + i386.dataLen) i386.start placed) :
    (replaceFileIntoI386 fileName contents).run image = .ok value image' ↔
      ReplaceFits image contents ∧
        ∃ existing, (parsed placed).find? (fun record => isoNameEq record.name fileName)
            = some existing ∧ image' = replacedImage image existing.offset contents := by
  have read : readDirectoryRecords image i386 = .ok (parsed placed) := scan.read
  unfold replaceFileIntoI386
  split
  · rename_i empty
    simp only [Effect.bail_ne_ok, false_iff, not_and]
    exact fun fits => absurd empty fits.nonempty
  rename_i nonempty
  rw [Effect.query_bind findI386Record found,
    Effect.query_bind (fun image => readDirectoryRecords image i386) read]
  simp only [Effect.lift_bind_eq_ok, fileLen_bind, Fallible.context_eq_ok, Fallible.okOr_eq_ok,
    tryFrom_eq_ok, and_assoc]
  simp only [Effect.bind_eq_ok, write733At, writeAll_eq_ok, exists_eq_left', exists_const,
    writeFileContentsAtEnd_eq_ok]
  have past := size_le_nextLba image
  constructor
  · rintro ⟨existing, named, _, lbaFits, rfl, _, lenFits, rfl, _, volumeFits, rfl⟩
    exact ⟨⟨nonempty, lbaFits, lenFits, volumeFits⟩, existing, named, rfl⟩
  · rintro ⟨fits, existing, named, rfl⟩
    obtain ⟨entry, member, rfl⟩ := List.mem_map.mp (List.mem_of_find?_eq_some named)
    obtain ⟨_, _, inside, valid, _⟩ := scan.bounds member
    have minimum := valid.minimum
    have size : (retargetedImage image entry.1 contents).size = image.size :=
      retargetedImage_size (by omega)
    exact ⟨_, named, _, fits.lbaFits, rfl, _, fits.lenFits, rfl, size.trans_le past,
      fits.volumeFits, rfl⟩

/-- What a reader sees after the record at `offset` got new contents. -/
structure Replaced (image : Image) (offset : Nat) (contents : Bytes) (image' : Image) : Prop where
  same : Image.SameOutside [⟨offset + 2, 16⟩, volumeField] image image'
  scan : ∀ stop pos placed raw, Scan image stop pos placed → (offset, raw) ∈ placed →
    (∀ index, pos ≤ index → index < stop → ¬ volumeField.Holds index) → stop ≤ image.size →
    Scan image' stop pos
      (Scan.replaced offset (retargeted (nextLba image) contents.length raw) placed)
  atEnd : AtEnd (nextLba image) contents image'

/-- **What the image a replacement leaves holds.** -/
theorem replaced_replacedImage (large : (pvdLba + 1) * sectorSize ≤ image.size)
    (inside : offset + 34 ≤ image.size) (fits : ReplaceFits image contents) :
    Replaced image offset contents (replacedImage image offset contents) := by
  have size : (retargetedImage image offset contents).size = image.size :=
    retargetedImage_size (by omega)
  have past := size.trans_le (size_le_nextLba image)
  have same : Image.SameOutside [⟨offset + 2, 16⟩] image (retargetedImage image offset contents) :=
    retargetedImage_sameOutside
  have sameEnd : Image.SameOutside [volumeField] _ (replacedImage image offset contents) :=
    endImage_sameOutside (large.trans same.size) past
  refine ⟨(same.mono ?_).trans (sameEnd.mono ?_), fun stop pos placed raw scan member clear within =>
    ?_, atEnd_endImage (large.trans same.size) past⟩
  · simp only [List.mem_cons, List.not_mem_nil, or_false, forall_eq]
    exact ⟨_, Or.inl rfl, Span.Within.refl _⟩
  · simp only [List.mem_cons, List.not_mem_nil, or_false, forall_eq]
    exact ⟨_, Or.inr rfl, Span.Within.refl _⟩
  · obtain ⟨_, _, _, valid, here⟩ := scan.bounds_at member
    have minimum := valid.minimum
    obtain ⟨valid', length, _⟩ := retargeted_valid valid fits.lbaFits fits.lenFits
    have middle : Scan (retargetedImage image offset contents) stop pos
        (Scan.replaced offset (retargeted (nextLba image) contents.length raw) placed) := by
      refine scan.overwrite member valid' length ?_ (fun index _ _ outside => ?_) same.size
      · have moved : (image.write (offset + 2) (write733 (nextLba image))).slice offset raw.length
            = withField 2 (nextLba image) raw := by
          rw [Image.slice_write_inside _ _ _ _ _ (by rw [write733_length]; omega), here,
            write733_length]
          rfl
        rw [length, retargetedImage, Image.slice_write_inside _ _ _ _ _ (by
          rw [write733_length]; omega), moved, write733_length]
        rfl
      · by_cases inImage : index < image.size
        · refine same.get index inImage fun span held => ?_
          rw [List.mem_singleton.mp held]
          simp only [Span.Holds, Span.stop] at *
          omega
        · rw [Image.zeroPast _ index (by omega), Image.zeroPast _ index (by omega)]
    refine middle.congr (fun index after before => ?_) sameEnd.size
    refine sameEnd.get index (by omega) fun span held => ?_
    rw [List.mem_singleton.mp held]
    exact clear index after before

end Replace

end Bootsmith.Iso
