/-
**Checks that come after the first write.**

An append and a replacement check almost everything before they write. Two checks come later: that
the rewritten directory is shorter than `2 ^ 32` bytes, when the directory itself is already written,
and that the volume has fewer than `2 ^ 32` sectors, when the size fields or the record are. A call
that fails there leaves what it wrote (`appendFileInto_cleanAt_iff`, `replaceFileIntoI386_cleanAt_iff`).

The directory was read, so the write at the end never finds the image grown past the sector it was
given (`Scan.sectors_le`): the check for that never fails.
-/

import Bootsmith.Iso.Plant

namespace Bootsmith.Iso

open Bootsmith.Library Effect

/-! ### A directory that was read lies before the next free sector -/

section Scanned

variable {image : Image} {stop pos : Nat} {placed : List (Nat × Bytes)}

theorem Scan.pos_lt_size (scan : Scan image stop pos placed) (before : pos < stop) :
    pos < image.size := by
  cases scan with
  | done past => omega
  | skip _ inside _ _ => exact inside
  | record valid _ inside _ _ =>
    have minimum := valid.minimum
    omega

/-- The last byte of the directory may be past the end of the image, but not past its last sector. -/
theorem Scan.sectors_le (scan : Scan image stop pos placed) (before : pos < stop) :
    alignUp stop sectorSize ≤ alignUp image.size sectorSize := by
  induction scan with
  | done past => omega
  | @skip pos placed _ inside zero rest ih =>
    by_cases more : alignUp (pos + 1) sectorSize < stop
    · exact ih more
    · have next : alignUp (pos + 1) sectorSize ≤ alignUp image.size sectorSize :=
        alignUp_mono sectorSize_pos inside
      exact alignUp_le sectorSize_pos (by omega) (alignUp_dvd _ _)
  | @record pos raw placed valid fits inside here rest ih =>
    by_cases more : pos + raw.length < stop
    · exact ih more
    · exact alignUp_mono sectorSize_pos (by omega)

end Scanned

theorem seat_of_scan {image : Image} {directory : DirectoryRecord} {sizeField : Nat}
    {placed : List (Nat × Bytes)}
    (scan : Scan image (directory.start + directory.dataLen) directory.start placed)
    (something : 0 < directory.dataLen) (fieldInside : sizeField + 8 ≤ image.size) :
    Seat image directory sizeField := by
  have aligned : sectorSize ∣ directory.start := Dvd.intro_left _ rfl
  have before : directory.start < directory.start + directory.dataLen := by omega
  refine ⟨(scan.pos_lt_size before).le, ?_, fieldInside⟩
  rw [nextLba_mul, ← alignUp_add _ sectorSize_pos aligned]
  exact scan.sectors_le before

/-! ### The late checks -/

/-- A conversion that does not fit stops the call, and what was written stays written. -/
theorem run_tryFrom_late {β : Type} {message : String} {bound value : Nat} (late : bound ≤ value)
    (next : Nat → Effect Image β) (image : Image) :
    (Effect.lift (Fallible.context message (tryFrom bound value)) >>= next).run image
      = .error (.error [message, "out of range integral type conversion attempted"]) image := by
  have refused : tryFrom bound value
      = Fallible.bail "out of range integral type conversion attempted" := if_neg (not_lt.mpr late)
  rw [refused]
  rfl

/-- A conversion that fits changes nothing. -/
theorem run_tryFrom {β : Type} {message : String} {bound value : Nat} (fits : value < bound)
    (next : Nat → Effect Image β) (image : Image) :
    (Effect.lift (Fallible.context message (tryFrom bound value)) >>= next).run image
      = (next value).run image := by
  refine bind_of_ok ?_ next
  rw [lift_eq_ok, Fallible.context_eq_ok, tryFrom_eq_ok]
  exact ⟨⟨fits, rfl⟩, rfl⟩

theorem run_writeAll {β : Type} (start : Nat) (bytes : Bytes) (next : Unit → Effect Image β)
    (image : Image) :
    (writeAll start bytes >>= next).run image = (next ()).run (image.write start bytes) := rfl

theorem writeFileContentsAtEnd_late {image : Image} {lba : Nat} {contents : Bytes}
    (past : image.size ≤ lba * sectorSize) (late : 2 ^ 32 ≤ finalLen lba contents / sectorSize) :
    ∃ chain, (writeFileContentsAtEnd lba contents).run image = .error (.error chain) image := by
  unfold writeFileContentsAtEnd
  rw [fileLen_bind, if_neg (not_lt.mpr past)]
  exact ⟨_, run_tryFrom_late late _ image⟩

/-! ### The append -/

/-- The directory of an append is as long as the 32-bit limit, and the image has not got the rewritten
directory yet. -/
structure TooLong (image : Image) (directory : DirectoryRecord) (placed : List (Nat × Bytes))
    (fileName contents : Bytes) : Prop where
  starts : AppendStarts image directory placed fileName contents
  late : 2 ^ 32 ≤ newEnd image placed fileName contents
  changes : rewrittenImage image directory (sortedRecords image placed fileName contents) ≠ image

/-- The volume of an append has as many sectors as the 32-bit limit. -/
structure TooFar (image : Image) (directory : DirectoryRecord) (placed : List (Nat × Bytes))
    (fileName contents : Bytes) : Prop where
  starts : AppendStarts image directory placed fileName contents
  sizeFits : newEnd image placed fileName contents < 2 ^ 32
  late : 2 ^ 32 ≤ finalLen (nextLba image) contents / sectorSize

section Append

variable {image : Image} {directory : DirectoryRecord} {placed : List (Nat × Bytes)}
  {fileName contents : Bytes} {find : Image → Fallible DirectoryRecord}
  {field : DirectoryRecord → Nat} {path tooLarge : String}

/-- An append has room for a record, so the directory was not empty. -/
theorem AppendStarts.something (starts : AppendStarts image directory placed fileName contents)
    (scan : Scan image (directory.start + directory.dataLen) directory.start placed) :
    0 < directory.dataLen := by
  by_contra none
  have minimum := le_packedEnd (sortedRecords_valid scan starts) sortedRecords_ne_nil
  have room := starts.room
  rw [Nat.le_zero.mp (not_lt.mp none), newEnd] at room
  have zero : alignUp 0 sectorSize = 0 := by decide
  omega

theorem rewriteDirectoryWithAddedRecord_cleanAt (dirStart allocated : Nat)
    (records : List DirectoryRecord) (new : Bytes) :
    CleanAt (rewriteDirectoryWithAddedRecord dirStart allocated records new) image :=
  CleanAt.query_bind _ fun _ _ => CleanAt.query_bind _ fun _ _ =>
    cleanAt_of_ok rfl

/-- **The checks before the first write leave the image.** -/
theorem appendFileInto_early (found : find image = .ok directory)
    (scan : Scan image (directory.start + directory.dataLen) directory.start placed)
    (refused : ¬ AppendStarts image directory placed fileName contents) :
    CleanAt (appendFileInto find field path tooLarge fileName contents) image := by
  have read : readDirectoryRecords image directory = .ok (parsed placed) := scan.read
  unfold appendFileInto
  split
  · exact cleanAt_bail _ _
  rename_i nonempty
  refine CleanAt.query_bind _ fun _ answer => ?_
  obtain rfl := Except.ok.inj (found.symm.trans answer)
  refine CleanAt.query_bind _ fun _ answer => ?_
  obtain rfl := Except.ok.inj (read.symm.trans answer)
  split
  · exact cleanAt_bail _ _
  rename_i absent
  refine CleanAt.query_bind _ fun _ length => ?_
  obtain rfl := Except.ok.inj length
  refine CleanAt.query_bind _ fun _ lba => ?_
  obtain ⟨lbaFits, rfl⟩ := (tryFrom_eq_ok _ _ _).mp ((Fallible.context_eq_ok _ _ _).mp lba)
  refine CleanAt.query_bind _ fun _ count => ?_
  obtain ⟨lenFits, rfl⟩ := (tryFrom_eq_ok _ _ _).mp ((Fallible.context_eq_ok _ _ _).mp count)
  refine CleanAt.query_bind _ fun _ built => ?_
  obtain ⟨short, rfl⟩ := buildFileRecord_eq_ok.mp built
  refine (rewriteDirectoryWithAddedRecord_cleanAt _ _ _ _).bind_of_stop fun stop middle rewrote => ?_
  -- the only check that is left is the room in the directory
  obtain ⟨rfl, room, _⟩ := (rewriteDirectoryWithAddedRecord_eq_ok scan
    (fileRecord_valid short lbaFits lenFits)).mp rewrote
  exact refused ⟨nonempty, any_isoNameEq_iff.mp (by simpa using absent), lbaFits, lenFits, short, room⟩

/-- **An append that passes them has rewritten the directory.** -/
theorem appendFileInto_started (found : find image = .ok directory)
    (scan : Scan image (directory.start + directory.dataLen) directory.start placed)
    (starts : AppendStarts image directory placed fileName contents) :
    (appendFileInto find field path tooLarge fileName contents).run image
      = (Effect.lift (Fallible.context tooLarge
            (tryFrom (2 ^ 32) (newEnd image placed fileName contents))) >>= fun size =>
          writeAll (field directory) (write733 size) >>= fun _ =>
          writeAll (directory.start + 10) (write733 size) >>= fun _ =>
          writeFileContentsAtEnd (nextLba image) contents).run
        (rewrittenImage image directory (sortedRecords image placed fileName contents)) := by
  have read : readDirectoryRecords image directory = .ok (parsed placed) := scan.read
  have absent := any_isoNameEq_iff.mpr starts.absent
  have built : (Effect.lift (buildFileRecord fileName (nextLba image) contents.length)).run image
      = .ok (newRecord image fileName contents) image :=
    (lift_eq_ok _ _ _ _).mpr ⟨buildFileRecord_eq_ok.mpr ⟨starts.short, rfl⟩, rfl⟩
  have rewrote : (rewriteDirectoryWithAddedRecord directory.start
      (alignUp directory.dataLen sectorSize) (parsed placed) (newRecord image fileName contents)).run image
        = .ok (newEnd image placed fileName contents) (rewrittenImage image directory _) :=
    (rewriteDirectoryWithAddedRecord_eq_ok scan (newRecord_valid starts)).mpr ⟨rfl, starts.room, rfl⟩
  have next : alignUp image.size sectorSize / sectorSize = nextLba image := rfl
  unfold appendFileInto
  rw [if_neg starts.nonempty, Effect.query_bind find found,
    Effect.query_bind (fun image => readDirectoryRecords image directory) read,
    if_neg (by simp [absent]), fileLen_bind, next, run_tryFrom starts.lbaFits,
    run_tryFrom starts.lenFits, bind_of_ok built, bind_of_ok rewrote]
  rfl

/-- The write at the end starts past the image with its directory rewritten. -/
theorem grownImage_le {sizeField : Nat}
    (scan : Scan image (directory.start + directory.dataLen) directory.start placed)
    (fieldInside : sizeField + 8 ≤ image.size)
    (starts : AppendStarts image directory placed fileName contents) :
    (grownImage image directory sizeField (sortedRecords image placed fileName contents)).size
      ≤ nextLba image * sectorSize := by
  have seat := seat_of_scan scan (starts.something scan) fieldInside
  have valid := sortedRecords_valid scan starts
  have size := grownImage_size seat valid sortedRecords_ne_nil starts.room
  exact size.trans_le (rewrittenImage_size seat valid starts.room).2.2

/-- **A failed append leaves the image, unless a late check fails after bytes were changed.** -/
theorem appendFileInto_cleanAt_iff (found : find image = .ok directory)
    (scan : Scan image (directory.start + directory.dataLen) directory.start placed)
    (fieldInside : field directory + 8 ≤ image.size) :
    CleanAt (appendFileInto find field path tooLarge fileName contents) image ↔
      ¬ (TooLong image directory placed fileName contents ∨
        (TooFar image directory placed fileName contents ∧
          grownImage image directory (field directory) (sortedRecords image placed fileName contents)
            ≠ image)) := by
  by_cases starts : AppendStarts image directory placed fileName contents
  swap
  · refine iff_of_true (appendFileInto_early found scan starts) ?_
    rintro (long | ⟨far, _⟩)
    · exact starts long.starts
    · exact starts far.starts
  have started : (appendFileInto find field path tooLarge fileName contents).run image = _ :=
    appendFileInto_started found scan starts
  by_cases sizeFits : newEnd image placed fileName contents < 2 ^ 32
  swap
  · -- the directory is written, its size is not
    have late := not_lt.mp sizeFits
    rw [run_tryFrom_late late] at started
    rw [cleanAt_iff_of_error started]
    constructor
    · rintro same (long | ⟨far, _⟩)
      · exact long.changes same
      · exact sizeFits far.sizeFits
    · intro clean
      by_contra changes
      exact clean (Or.inl ⟨starts, late, changes⟩)
  rw [run_tryFrom sizeFits, run_writeAll, run_writeAll] at started
  change _ = (writeFileContentsAtEnd (nextLba image) contents).run (grownImage image directory _ _)
    at started
  have past : (grownImage image directory (field directory) _).size ≤ _ :=
    grownImage_le scan fieldInside starts
  by_cases volumeFits : finalLen (nextLba image) contents / sectorSize < 2 ^ 32
  · have ends : (writeFileContentsAtEnd (nextLba image) contents).run _ = .ok () _ :=
      writeFileContentsAtEnd_eq_ok.mpr ⟨past, volumeFits, rfl⟩
    refine iff_of_true (cleanAt_of_ok (started.trans ends)) ?_
    rintro (long | ⟨far, _⟩)
    · exact absurd sizeFits (not_lt.mpr long.late)
    · exact absurd volumeFits (not_lt.mpr far.late)
  · -- the directory and its two size fields are written, the contents are not
    have late := not_lt.mp volumeFits
    obtain ⟨chain, fails⟩ := writeFileContentsAtEnd_late past late
    rw [cleanAt_iff_of_error (started.trans fails)]
    constructor
    · rintro same (long | ⟨_, changes⟩)
      · exact absurd sizeFits (not_lt.mpr long.late)
      · exact changes same
    · intro clean
      by_contra changes
      exact clean (Or.inr ⟨⟨starts, sizeFits, late⟩, changes⟩)

/-- The same of an append whose directory was not looked up yet. -/
theorem appendFileInto_cleanAt_iff_exists
    (fieldInside : ∀ directory, find image = .ok directory → field directory + 8 ≤ image.size) :
    CleanAt (appendFileInto find field path tooLarge fileName contents) image ↔
      ¬ ∃ directory placed, find image = .ok directory ∧
        Scan image (directory.start + directory.dataLen) directory.start placed ∧
        (TooLong image directory placed fileName contents ∨
          (TooFar image directory placed fileName contents ∧
            grownImage image directory (field directory) (sortedRecords image placed fileName contents)
              ≠ image)) := by
  by_cases reads : ∃ directory placed, find image = .ok directory ∧
    Scan image (directory.start + directory.dataLen) directory.start placed
  · obtain ⟨directory, placed, found, scan⟩ := reads
    rw [appendFileInto_cleanAt_iff found scan (fieldInside directory found), not_iff_not]
    constructor
    · exact fun late => ⟨directory, placed, found, scan, late⟩
    · rintro ⟨directory', placed', found', scan', late⟩
      obtain rfl := Except.ok.inj (found.symm.trans found')
      obtain rfl := scan.unique scan'
      exact late
  · refine iff_of_true ?_ fun ⟨directory, placed, found, scan, _⟩ => reads ⟨directory, placed, found, scan⟩
    -- the directory is not found or does not read, which is seen before anything is written
    unfold appendFileInto
    split
    · exact cleanAt_bail _ _
    refine CleanAt.query_bind _ fun directory found => ?_
    refine CleanAt.query_bind _ fun records read => ?_
    obtain ⟨placed, scan, _⟩ := Scan.of_read read
    exact absurd ⟨directory, placed, found, scan⟩ reads

/-! ### Bytes that change -/

/-- A record's data length is the number in its size field. -/
theorem dataLen_eq {start value : Nat} {raw : Bytes} (valid : RawRecord raw)
    (here : image.slice start raw.length = raw) (fits : value < 2 ^ 32)
    (field : image.slice (start + 10) 8 = write733 value) : (recordOf start raw).dataLen = value := by
  have minimum := valid.minimum
  refine leNat_write733 fits ?_
  rw [← here, Image.subrange_slice _ _ (by omega)]
  exact field

/-- **The append changes a directory that is clear of its size field**: the image it leaves has one
record more. -/
theorem grownImage_ne_of_apart {start : Nat} {raw : Bytes} (valid : RawRecord raw)
    (here : image.slice start raw.length = raw) (named : directory = recordOf start raw)
    (scan : Scan image (directory.start + directory.dataLen) directory.start placed)
    (far : TooFar image directory placed fileName contents)
    (clear : directory.sectors.Apart ⟨start + 10, 8⟩) :
    grownImage image directory (start + 10) (sortedRecords image placed fileName contents) ≠ image := by
  intro same
  have within := scan.pos_lt_size (by have := far.starts.something scan; omega)
  obtain ⟨rescan, field⟩ := scan_grownImage within.le clear (sortedRecords_valid scan far.starts)
    sortedRecords_ne_nil far.starts.room far.sizeFits
  rw [same] at rescan field
  have size : directory.dataLen = packedEnd 0 _ := named ▸ dataLen_eq valid here far.sizeFits field
  rw [← size] at rescan
  have lengths := congrArg List.length (congrArg (List.map Prod.snd) (scan.unique rescan))
  have grown := (sortedRecords_perm image placed fileName contents).length_eq
  have kept : ∀ (value : Nat) (raws : List Bytes), (withSize value raws).length = raws.length := by
    intro value raws
    cases raws <;> rfl
  rw [placements, layout_map_snd, kept, grown] at lengths
  simp at lengths

/-- No sector of a packed directory looks like a volume descriptor. -/
theorem packedDir_ne_one {allocated index : Nat} {raws : List Bytes}
    (valid : ∀ raw ∈ raws, RawRecord raw) (aligned : sectorSize ∣ index) :
    (packedDir allocated raws).get index ≠ 1 := by
  intro one
  by_cases held : ∃ entry ∈ placements 0 raws, (⟨entry.1, entry.2.length⟩ : Span).Holds index
  · obtain ⟨entry, member, inside⟩ := held
    obtain ⟨_, _, block⟩ := layout_mem sectorSize_pos
      (fun raw inside => (valid raw inside).length_le.trans (by decide)) member
    have listed : (placements 0 raws).map Prod.snd = raws := layout_map_snd 0 raws
    have record : RawRecord entry.2 := valid _ (listed ▸ List.mem_map_of_mem member)
    have minimum := record.minimum
    have zero := Nat.mod_eq_zero_of_dvd aligned
    simp only [Span.Holds, Span.stop] at inside
    have first : index = entry.1 := by
      unfold sectorSize at zero block
      omega
    have length : ((packedDir allocated raws).get entry.1).toNat = _ :=
      record.get_first (slice_packedDir member)
    rw [← first, one] at length
    have : (1 : UInt8).toNat = 1 := rfl
    omega
  · rw [packedDir_zero fun entry member inside => held ⟨entry, member, inside⟩] at one
    exact absurd one (by decide)

/-- **The append to the root changes the image**: where the root covers the volume descriptor, it
overwrites its first byte. -/
theorem grownRoot_ne {raw : Bytes} (record : RootRecord image raw)
    (named : directory = recordOf rootOffset raw)
    (scan : Scan image (directory.start + directory.dataLen) directory.start placed)
    (far : TooFar image directory placed fileName contents) :
    grownImage image directory (rootOffset + 10) (sortedRecords image placed fileName contents)
      ≠ image := by
  by_cases clear : directory.sectors.Apart ⟨rootOffset + 10, 8⟩
  · exact grownImage_ne_of_apart record.valid record.here named scan far clear
  intro same
  have valid := sortedRecords_valid scan far.starts
  obtain ⟨sectors, whole⟩ := alignUp_dvd directory.dataLen sectorSize
  have descriptor : pvdOffset = 16 * sectorSize := by decide
  have field : rootOffset = pvdOffset + 156 := by decide
  have start : directory.start = directory.extentLba * sectorSize := rfl
  simp only [Span.Apart, DirectoryRecord.sectors, Span.stop] at clear
  unfold sectorSize at descriptor start whole clear
  have one : image.get pvdOffset = 1 := by
    have first := (image.slice_eq_iff pvdOffset pvdHeader).mp record.header 0 (by decide)
    exact first
  have size : (packedDir (alignUp directory.dataLen sectorSize)
      (sortedRecords image placed fileName contents)).size = _ :=
    packedDir_size (fun raw member => (valid raw member).length_le.trans (by decide))
      far.starts.room
  have kept : (grownImage image directory (rootOffset + 10)
      (sortedRecords image placed fileName contents)).get pvdOffset
        = (packedDir (alignUp directory.dataLen sectorSize)
          (sortedRecords image placed fileName contents)).get (pvdOffset - directory.start) := by
    unfold grownImage rewrittenImage
    rw [Image.write_get_of_outside _ _ _ (by rw [write733_length]; omega),
      Image.write_get_of_outside _ _ _ (by rw [write733_length]; omega)]
    have inside : pvdOffset - directory.start < alignUp directory.dataLen sectorSize := by
      unfold sectorSize
      omega
    have read := Image.write_bytes_get image (packedDir (alignUp directory.dataLen sectorSize)
      (sortedRecords image placed fileName contents)) directory.start (inside.trans_eq size.symm)
    rwa [Nat.add_sub_of_le (by omega)] at read
  rw [same, one] at kept
  refine packedDir_ne_one valid ?_ kept.symm
  refine Nat.dvd_sub ?_ ?_
  · exact Dvd.intro_left 16 rfl
  · exact Dvd.intro_left _ rfl

end Append

/-! ### The replacement -/

/-- The bytes of a both-endian field are what writing its number gives. -/
theorem write733_of_read733 {bytes : Bytes} {value : Nat} (read : read733 bytes = .ok value) :
    write733 value = bytes := by
  obtain ⟨length, little, big⟩ := read733_eq_ok.mp read
  have low := leBytes_leNat (bytes.take 4)
  have high := leBytes_leNat (bytes.drop 4).reverse
  rw [List.length_take, length, little] at low
  rw [List.length_reverse, List.length_drop, length] at high
  change leBytes 4 (beNat _) = _ at high
  rw [big] at high
  have second : beBytes 4 value = bytes.drop 4 := by rw [beBytes, high, List.reverse_reverse]
  change leBytes 4 value = _ at low
  rw [write733, second, low, List.take_append_drop]

/-- **A replacement changes no byte exactly when the record names the new extent already.** -/
theorem retargetedImage_eq_self_iff {image : Image} {offset : Nat} {raw contents : Bytes}
    (valid : RawRecord raw) (inside : offset + raw.length ≤ image.size)
    (here : image.slice offset raw.length = raw) (lbaFits : nextLba image < 2 ^ 32)
    (lenFits : contents.length < 2 ^ 32) :
    retargetedImage image offset contents = image ↔
      (recordOf offset raw).extentLba = nextLba image ∧
        (recordOf offset raw).dataLen = contents.length := by
  have minimum := valid.minimum
  constructor
  · intro same
    have sized : image.slice (offset + 10) 8 = write733 contents.length := by
      have read := Image.slice_write (image.write (offset + 2) (write733 (nextLba image)))
        (offset + 10) (write733 contents.length)
      rwa [write733_length, ← retargetedImage, same] at read
    have moved : image.slice (offset + 2) 8 = write733 (nextLba image) := by
      have read := Image.slice_write image (offset + 2) (write733 (nextLba image))
      have kept := Image.slice_write_apart (image.write (offset + 2) (write733 (nextLba image)))
        (offset + 10) (write733 contents.length) (offset + 2) 8 (by omega)
      rw [write733_length] at read
      rwa [← retargetedImage, same, read] at kept
    refine ⟨leNat_write733 lbaFits ?_, dataLen_eq valid here lenFits sized⟩
    rw [← here, Image.subrange_slice _ _ (by omega)]
    exact moved
  · rintro ⟨moved, sized⟩
    obtain ⟨lba, readLba⟩ := valid.extentLba
    obtain ⟨len, readLen⟩ := valid.dataLen
    have lbaIs : (recordOf offset raw).extentLba = lba := by
      have low := (read733_eq_ok.mp readLba).2.1
      rwa [subrange_take _ _ _ _ (by omega)] at low
    have lenIs : (recordOf offset raw).dataLen = len := by
      have low := (read733_eq_ok.mp readLen).2.1
      rwa [subrange_take _ _ _ _ (by omega)] at low
    rw [← moved.symm.trans lbaIs, ← here, Image.subrange_slice _ _ (by omega)] at readLba
    rw [← sized.symm.trans lenIs, ← here, Image.subrange_slice _ _ (by omega)] at readLen
    have first : image.write (offset + 2) (write733 (nextLba image)) = image :=
      Image.write_self _ _ (by rw [write733_length]; omega)
        (by rw [write733_length]; exact (write733_of_read733 readLba).symm)
    rw [retargetedImage, first]
    exact Image.write_self _ _ (by rw [write733_length]; omega)
      (by rw [write733_length]; exact (write733_of_read733 readLen).symm)

/-- The volume of a replacement has as many sectors as the 32-bit limit, and the record does not name
the new extent yet. -/
structure ReplaceTooFar (image : Image) (existing : DirectoryRecord) (contents : Bytes) : Prop where
  nonempty : contents ≠ []
  lbaFits : nextLba image < 2 ^ 32
  lenFits : contents.length < 2 ^ 32
  late : 2 ^ 32 ≤ finalLen (nextLba image) contents / sectorSize
  changes : ¬ (existing.extentLba = nextLba image ∧ existing.dataLen = contents.length)

section Replace

variable {image : Image} {i386 existing : DirectoryRecord} {placed : List (Nat × Bytes)}
  {fileName contents : Bytes}

/-- The checks before the first write leave the image. -/
theorem replaceFileIntoI386_early
    (refused : ¬ (nextLba image < 2 ^ 32 ∧ contents.length < 2 ^ 32)) :
    CleanAt (replaceFileIntoI386 fileName contents) image := by
  unfold replaceFileIntoI386
  split
  · exact cleanAt_bail _ _
  refine CleanAt.query_bind _ fun _ _ => CleanAt.query_bind _ fun _ _ =>
    CleanAt.query_bind _ fun _ _ => CleanAt.query_bind _ fun _ length => ?_
  obtain rfl := Except.ok.inj length
  refine CleanAt.query_bind _ fun _ lba => CleanAt.query_bind _ fun _ count => ?_
  obtain ⟨lbaFits, rfl⟩ := (tryFrom_eq_ok _ _ _).mp ((Fallible.context_eq_ok _ _ _).mp lba)
  obtain ⟨lenFits, rfl⟩ := (tryFrom_eq_ok _ _ _).mp ((Fallible.context_eq_ok _ _ _).mp count)
  exact absurd ⟨lbaFits, lenFits⟩ refused

/-- A replacement that passes them has retargeted the record. -/
theorem replaceFileIntoI386_started (found : findI386Record image = .ok i386)
    (scan : Scan image (i386.start + i386.dataLen) i386.start placed)
    (named : (parsed placed).find? (fun record => isoNameEq record.name fileName) = some existing)
    (nonempty : contents ≠ []) (lbaFits : nextLba image < 2 ^ 32)
    (lenFits : contents.length < 2 ^ 32) :
    (replaceFileIntoI386 fileName contents).run image
      = (writeFileContentsAtEnd (nextLba image) contents).run
        (retargetedImage image existing.offset contents) := by
  have read : readDirectoryRecords image i386 = .ok (parsed placed) := scan.read
  have lookup : (Effect.lift (Fallible.okOr s!"ISO9660 /I386/{fromUtf8Lossy fileName} not found"
      ((parsed placed).find? fun record => isoNameEq record.name fileName))).run image
        = .ok existing image := by
    rw [lift_eq_ok, Fallible.okOr_eq_ok]
    exact ⟨named, rfl⟩
  have next : alignUp image.size sectorSize / sectorSize = nextLba image := rfl
  unfold replaceFileIntoI386
  rw [if_neg nonempty, Effect.query_bind findI386Record found,
    Effect.query_bind (fun image => readDirectoryRecords image i386) read, bind_of_ok lookup,
    fileLen_bind, next, run_tryFrom lbaFits, run_tryFrom lenFits]
  rfl

/-- **A failed replacement leaves the image, unless the late check fails after bytes were changed.** -/
theorem replaceFileIntoI386_cleanAt_iff (found : findI386Record image = .ok i386)
    (scan : Scan image (i386.start + i386.dataLen) i386.start placed)
    (named : (parsed placed).find? (fun record => isoNameEq record.name fileName) = some existing) :
    CleanAt (replaceFileIntoI386 fileName contents) image ↔ ¬ ReplaceTooFar image existing contents := by
  obtain ⟨⟨offset, raw⟩, member, same⟩ := List.mem_map.mp (List.mem_of_find?_eq_some named)
  obtain ⟨_, _, inside, valid, here⟩ := scan.bounds_at member
  have minimum := valid.minimum
  by_cases empty : contents = []
  · refine iff_of_true ?_ fun far => far.nonempty empty
    rw [replaceFileIntoI386, if_pos empty]
    exact cleanAt_bail _ _
  by_cases fits : nextLba image < 2 ^ 32 ∧ contents.length < 2 ^ 32
  swap
  · exact iff_of_true (replaceFileIntoI386_early fits) fun far => fits ⟨far.lbaFits, far.lenFits⟩
  obtain ⟨lbaFits, lenFits⟩ := fits
  have started := replaceFileIntoI386_started found scan named empty lbaFits lenFits
  subst same
  change _ = (writeFileContentsAtEnd _ _).run (retargetedImage image offset contents) at started
  have size : (retargetedImage image offset contents).size = image.size :=
    retargetedImage_size (by omega)
  have past := size.trans_le (size_le_nextLba image)
  by_cases volumeFits : finalLen (nextLba image) contents / sectorSize < 2 ^ 32
  · have ends : (writeFileContentsAtEnd (nextLba image) contents).run _ = .ok () _ :=
      writeFileContentsAtEnd_eq_ok.mpr ⟨past, volumeFits, rfl⟩
    exact iff_of_true (cleanAt_of_ok (started.trans ends))
      fun far => absurd volumeFits (not_lt.mpr far.late)
  · -- the record is written, the contents are not
    have late := not_lt.mp volumeFits
    obtain ⟨chain, fails⟩ := writeFileContentsAtEnd_late past late
    rw [cleanAt_iff_of_error (started.trans fails),
      retargetedImage_eq_self_iff valid inside here lbaFits lenFits]
    constructor
    · exact fun same far => far.changes same
    · intro clean
      by_contra changes
      exact clean ⟨empty, lbaFits, lenFits, late, changes⟩

end Replace

/-! ### All three calls -/

/-- A late check of an append to the root fails after bytes were changed. -/
def RootLate (image : Image) (fileName contents : Bytes) : Prop :=
  ∃ root placed, findRootRecord image = .ok root ∧
    Scan image (root.start + root.dataLen) root.start placed ∧
    (TooLong image root placed fileName contents ∨ TooFar image root placed fileName contents)

/-- A late check of an append to `\I386` fails after bytes were changed. Only where the directory lies
over the field with its own size can the bytes that were written be those that were there. -/
def I386Late (image : Image) (fileName contents : Bytes) : Prop :=
  ∃ i386 placed, findI386Record image = .ok i386 ∧
    Scan image (i386.start + i386.dataLen) i386.start placed ∧
    (TooLong image i386 placed fileName contents ∨
      (TooFar image i386 placed fileName contents ∧
        (¬ i386.sectors.Apart ⟨i386.offset + 10, 8⟩ →
          grownImage image i386 (i386.offset + 10) (sortedRecords image placed fileName contents)
            ≠ image)))

/-- The late check of a replacement fails after bytes were changed. -/
def ReplaceLate (image : Image) (fileName contents : Bytes) : Prop :=
  ∃ i386 placed existing, findI386Record image = .ok i386 ∧
    Scan image (i386.start + i386.dataLen) i386.start placed ∧
    (parsed placed).find? (fun record => isoNameEq record.name fileName) = some existing ∧
    ReplaceTooFar image existing contents

/-- The record that names `\I386`, with its bytes. -/
theorem findI386Record_raw {image : Image} {i386 : DirectoryRecord}
    (found : findI386Record image = .ok i386) :
    ∃ raw, RawRecord raw ∧ i386 = recordOf i386.offset raw ∧
      i386.offset + raw.length ≤ image.size ∧ image.slice i386.offset raw.length = raw := by
  obtain ⟨root, records, _, read, named, _⟩ := findI386Record_eq_ok.mp found
  obtain ⟨placed, scan, rfl⟩ := Scan.of_read read
  obtain ⟨⟨offset, raw⟩, member, rfl⟩ := List.mem_map.mp (List.mem_of_find?_eq_some named)
  obtain ⟨_, _, inside, valid, here⟩ := scan.bounds_at member
  exact ⟨raw, valid, rfl, inside, here⟩

/-- **An error leaves the image as it was, unless a late check fails**: for every image, name and
contents, an append to the root, an append to `\I386` and a replacement in `\I386`. -/
theorem cleanAt_iff_not_late (image : Image) (fileName contents : Bytes) :
    (CleanAt (appendFileIntoRoot fileName contents) image ↔ ¬ RootLate image fileName contents) ∧
      (CleanAt (appendFileIntoI386 fileName contents) image ↔ ¬ I386Late image fileName contents) ∧
      (CleanAt (replaceFileIntoI386 fileName contents) image ↔ ¬ ReplaceLate image fileName contents) := by
  refine ⟨?_, ?_, ?_⟩
  · have field : pvdOffset + rootRecordOffsetInPvd + 10 = rootOffset + 10 := rfl
    have below : rootOffset + 10 + 8 ≤ (pvdLba + 1) * sectorSize := by decide
    rw [appendFileIntoRoot, appendFileInto_cleanAt_iff_exists, not_iff_not]
    · refine exists₂_congr fun root placed => and_congr_right fun found => and_congr_right fun scan =>
        or_congr_right (and_iff_left_of_imp fun far => ?_)
      obtain ⟨raw, record, named⟩ := findRootRecord_eq_ok.mp found
      rw [field]
      exact grownRoot_ne record named scan far
    · intro root found
      obtain ⟨raw, record, _⟩ := findRootRecord_eq_ok.mp found
      exact (field ▸ below).trans record.large
  · rw [appendFileIntoI386, appendFileInto_cleanAt_iff_exists, not_iff_not]
    · refine exists₂_congr fun i386 placed => and_congr_right fun found => and_congr_right fun scan =>
        or_congr_right (and_congr_right fun far => ?_)
      obtain ⟨raw, valid, named, _, here⟩ := findI386Record_raw found
      constructor
      · exact fun changes _ => changes
      · intro overlapping
        by_cases clear : i386.sectors.Apart ⟨i386.offset + 10, 8⟩
        · exact grownImage_ne_of_apart valid here named scan far clear
        · exact overlapping clear
    · intro i386 found
      obtain ⟨raw, valid, _, inside, _⟩ := findI386Record_raw found
      have minimum := valid.minimum
      omega
  · by_cases reads : ∃ i386 placed existing, findI386Record image = .ok i386 ∧
      Scan image (i386.start + i386.dataLen) i386.start placed ∧
      (parsed placed).find? (fun record => isoNameEq record.name fileName) = some existing
    · obtain ⟨i386, placed, existing, found, scan, named⟩ := reads
      rw [replaceFileIntoI386_cleanAt_iff found scan named, not_iff_not]
      constructor
      · exact fun far => ⟨i386, placed, existing, found, scan, named, far⟩
      · rintro ⟨i386', placed', existing', found', scan', named', far⟩
        obtain rfl := Except.ok.inj (found.symm.trans found')
        obtain rfl := scan.unique scan'
        obtain rfl := Option.some.inj (named.symm.trans named')
        exact far
    · refine iff_of_true ?_ fun ⟨i386, placed, existing, found, scan, named, _⟩ =>
        reads ⟨i386, placed, existing, found, scan, named⟩
      -- the directory or the record is missing, which is seen before anything is written
      unfold replaceFileIntoI386
      split
      · exact cleanAt_bail _ _
      refine CleanAt.query_bind _ fun i386 found => CleanAt.query_bind _ fun records read =>
        CleanAt.query_bind _ fun existing named => ?_
      obtain ⟨placed, scan, rfl⟩ := Scan.of_read read
      exact absurd ⟨i386, placed, existing, found, scan, (Fallible.okOr_eq_ok _ _ _).mp named⟩ reads

/-! ### A volume that is full -/

/-- The sample volume without files, with one sector less than the limit. -/
def fullIso : Image := sampleIso (2 ^ 32 - 1) 68 bareRecords []

theorem fullIso_fits : SampleFits (2 ^ 32 - 1) 68 bareRecords [] := by
  constructor <;> decide

theorem fullIso_shape : SampleShape (2 ^ 32 - 1) 68 bareRecords := by
  constructor <;> decide

theorem fullIso_nextLba : nextLba fullIso = 2 ^ 32 - 1 := sampleIso_nextLba fullIso_fits

/-- A file of one byte is one sector too many. -/
theorem fullIso_tooFar :
    TooFar fullIso (sampleI386 68) (placements (19 * sectorSize) bareRecords) [65] [1] := by
  have sorted : newEnd fullIso (placements (19 * sectorSize) bareRecords) [65] [1] = 102 := by
    rw [newEnd, sortedRecords, newRecord, fullIso_nextLba]
    rfl
  refine ⟨⟨by decide, by decide, ?_, by decide, by decide, ?_⟩, ?_, ?_⟩
  · rw [fullIso_nextLba]
    decide
  · rw [sorted]
    decide
  · rw [sorted]
    decide
  · rw [fullIso_nextLba]
    decide

/-- **The append fails, and `\I386` has the record of a file that is not there.** -/
theorem appendFileIntoI386_not_clean : ¬ CleanAt (appendFileIntoI386 [65] [1]) fullIso := by
  obtain ⟨found, scan⟩ := sampleIso_i386 fullIso_fits fullIso_shape
  rw [← fullIso] at found scan
  obtain ⟨raw, valid, named, inside, here⟩ := findI386Record_raw found
  have minimum := valid.minimum
  have clear : (sampleI386 68).sectors.Apart ⟨(sampleI386 68).offset + 10, 8⟩ := by decide
  rw [appendFileIntoI386, appendFileInto_cleanAt_iff found scan (by omega)]
  exact fun clean => clean (Or.inr ⟨fullIso_tooFar,
    grownImage_ne_of_apart valid here named scan fullIso_tooFar clear⟩)

end Bootsmith.Iso
