/-
**Rewriting a directory in place** (`rewrite_directory_with_added_record`) and the size fields that
follow it.

The packed buffer is a scattered write of the records at their `layout` (`packRecords_eq_ok`), and
a directory that holds such a buffer reads back as that layout (`scan_of_layout`): the gap in front
of a moved record is zero, and a zero byte sends the reader to the next sector, which is where the
packer put the record.
-/

import Bootsmith.Iso.Mutate

namespace Bootsmith.Iso

open Bootsmith.Library

/-- The records with the offsets the packer puts them at, from `pos` on. -/
abbrev placements (pos : Nat) (raws : List Bytes) : List (Nat × Bytes) :=
  layout sectorSize List.length pos raws

/-- The end of the last packed record. -/
abbrev packedEnd (pos : Nat) (raws : List Bytes) : Nat := layoutEnd sectorSize List.length pos raws

/-- The buffer the packer fills. -/
def packedDir (allocated : Nat) (raws : List Bytes) : Image :=
  (Image.zeros allocated).scatter (placements 0 raws)

/-! ### Packing -/

theorem packRecords_eq_ok (dirStart allocated : Nat) {records : List Bytes} {dir dir' : Image}
    {pos stop : Nat} (room : pos ≤ dir.size)
    (fits : ∀ record ∈ records, record.length ≤ sectorSize) :
    packRecords dirStart allocated records dir pos = .ok (dir', stop) ↔
      packedEnd pos records ≤ dir.size ∧ dir' = dir.scatter (placements pos records) ∧
        stop = packedEnd pos records := by
  induction records generalizing dir pos with
  | nil =>
    simp only [packRecords, Except.ok.injEq, Prod.mk.injEq, packedEnd, placements, layoutEnd,
      layout, Image.scatter, List.foldl_nil]
    constructor
    · rintro ⟨rfl, rfl⟩
      exact ⟨room, rfl, rfl⟩
    · rintro ⟨_, rfl, rfl⟩
      exact ⟨rfl, rfl⟩
  | cons record rest ih =>
    have restFits := fun other inside => fits other (List.mem_cons_of_mem _ inside)
    show (if place sectorSize pos record.length + record.length > dir.size then Fallible.bail _
      else packRecords dirStart allocated rest
        (dir.write (place sectorSize pos record.length) record)
        (place sectorSize pos record.length + record.length)) = _ ↔ _
    have grows : place sectorSize pos record.length + record.length
        ≤ packedEnd pos (record :: rest) := le_layoutEnd _ rest
    split
    · rename_i full
      simp only [Fallible.bail_ne_ok, false_iff, not_and]
      intro small
      omega
    · rename_i space
      have same : (dir.write (place sectorSize pos record.length) record).size = dir.size :=
        Image.write_size_of_le _ _ _ (by omega)
      rw [ih (by omega) restFits, same]
      rfl

section Packed

variable {allocated : Nat} {raws : List Bytes} (fits : ∀ raw ∈ raws, raw.length ≤ sectorSize)
  (room : packedEnd 0 raws ≤ allocated)

include fits room

theorem packedDir_size : (packedDir allocated raws).size = allocated := by
  refine Image.scatter_size _ _ fun entry member => ?_
  have inside := (layout_mem sectorSize_pos fits member).2.1
  exact inside.trans room

omit fits room in
theorem slice_packedDir {entry : Nat × Bytes} (member : entry ∈ placements 0 raws) :
    (packedDir allocated raws).slice entry.1 entry.2.length = entry.2 :=
  Image.slice_scatter _ _ (layout_pairwise 0 raws) member

omit fits room in
theorem packedDir_zero {index : Nat}
    (outside : ∀ entry ∈ placements 0 raws, ¬ (⟨entry.1, entry.2.length⟩ : Span).Holds index) :
    (packedDir allocated raws).get index = 0 := by
  rw [packedDir, Image.scatter_get_of_outside _ _ outside, Image.zeros_get]

end Packed

/-! ### Reading a packed directory back -/

/-- **A packed directory reads back as its layout.** -/
theorem scan_of_layout {image : Image} {pos : Nat} {raws : List Bytes}
    (valid : ∀ raw ∈ raws, RawRecord raw) (inside : packedEnd pos raws ≤ image.size)
    (here : ∀ entry ∈ placements pos raws, image.slice entry.1 entry.2.length = entry.2)
    (zeros : ∀ index, pos ≤ index → index < packedEnd pos raws →
      (∀ entry ∈ placements pos raws, ¬ (⟨entry.1, entry.2.length⟩ : Span).Holds index) →
      image.get index = 0) :
    Scan image (packedEnd pos raws) pos (placements pos raws) := by
  induction raws generalizing pos with
  | nil => exact .done le_rfl
  | cons raw rest ih =>
    have head := valid raw List.mem_cons_self
    have short := head.length_le
    have restValid := fun other inside => valid other (List.mem_cons_of_mem _ inside)
    have up := le_place sectorSize pos raw.length
    have minimum := head.minimum
    have ends : place sectorSize pos raw.length + raw.length ≤ packedEnd pos (raw :: rest) :=
      le_layoutEnd _ rest
    have later : ∀ entry ∈ placements (place sectorSize pos raw.length + raw.length) rest,
        place sectorSize pos raw.length + raw.length ≤ entry.1 := fun entry member =>
      (layout_mem sectorSize_pos (fun other inside =>
        (restValid other inside).length_le.trans (by decide)) member).1
    have tail : Scan image (packedEnd pos (raw :: rest))
        (place sectorSize pos raw.length + raw.length)
        (placements (place sectorSize pos raw.length + raw.length) rest) := by
      refine ih restValid inside (fun entry member => here entry (List.mem_cons_of_mem _ member))
        fun index after before outside => zeros index (by omega) before fun entry member => ?_
      rcases List.mem_cons.mp member with rfl | inRest
      · simp only [Span.Holds, Span.stop]
        omega
      · exact outside entry inRest
    have start : Scan image (packedEnd pos (raw :: rest)) (place sectorSize pos raw.length)
        (placements pos (raw :: rest)) :=
      .record head ends (ends.trans inside) (here _ List.mem_cons_self) tail
    rcases up.lt_or_eq with moved | stays
    · -- the cursor stands in the gap before a record that moved to the next sector
      have next := place_of_lt sectorSize_pos (short.trans (by decide)) moved
      refine .skip (by omega) (by omega) (zeros pos le_rfl (by omega) fun entry member => ?_) ?_
      · rcases List.mem_cons.mp member with rfl | inRest
        · simp only [Span.Holds]
          omega
        · have after := later entry inRest
          simp only [Span.Holds]
          omega
      · rwa [← next]
    · rwa [← stays] at start

/-! ### Overwriting the fields of a record -/

/-- The record with the both-endian field at `offset` set to `value`. -/
def withField (offset value : Nat) (raw : Bytes) : Bytes :=
  raw.take offset ++ write733 value ++ raw.drop (offset + 8)

section Fields

variable {raw : Bytes} {offset value : Nat} (inside : offset + 8 ≤ raw.length)

include inside

@[simp] theorem withField_length : (withField offset value raw).length = raw.length := by
  simp only [withField, List.length_append, List.length_take, List.length_drop, write733_length]
  omega

theorem withField_getElem? {index : Nat} (outside : index < offset ∨ offset + 8 ≤ index) :
    (withField offset value raw)[index]? = raw[index]? := by
  have head : (raw.take offset).length = offset := by
    rw [List.length_take]
    omega
  rcases outside with before | after
  · rw [withField, List.append_assoc, List.getElem?_append_left (by omega),
      List.getElem?_take_of_lt before]
  · rw [withField, List.getElem?_append_right (by
      simp only [List.length_append, write733_length]
      omega), List.getElem?_drop]
    congr 1
    simp only [List.length_append, write733_length]
    omega

theorem withField_getD {index : Nat} (outside : index < offset ∨ offset + 8 ≤ index) :
    (withField offset value raw).getD index 0 = raw.getD index 0 := by
  rw [List.getD_eq_getElem?_getD, List.getD_eq_getElem?_getD, withField_getElem? inside outside]

theorem withField_subrange_apart {start stop : Nat} (apart : stop ≤ offset ∨ offset + 8 ≤ start) :
    subrange (withField offset value raw) start stop = subrange raw start stop := by
  apply List.ext_getElem?
  intro index
  by_cases short : index < stop - start
  · rw [subrange, subrange, List.getElem?_take_of_lt short, List.getElem?_take_of_lt short,
      List.getElem?_drop, List.getElem?_drop, withField_getElem? inside (by omega)]
  · rw [subrange, subrange, List.getElem?_take_eq_none (by omega),
      List.getElem?_take_eq_none (by omega)]

theorem withField_subrange : subrange (withField offset value raw) offset (offset + 8)
    = write733 value := by
  have head : (raw.take offset).length = offset := by
    rw [List.length_take]
    omega
  rw [subrange, withField, List.append_assoc, List.drop_left' head, Nat.add_sub_cancel_left,
    List.take_left' (write733_length value)]

end Fields

/-- **A change of one field, seen in the slice of its record.** -/
theorem slice_withField {image image' : Image} {start count offset value : Nat}
    (inside : offset + 8 ≤ count) (field : image'.slice (start + offset) 8 = write733 value)
    (same : ∀ index, start ≤ index → index < start + count →
      ¬ (⟨start + offset, 8⟩ : Span).Holds index → image'.get index = image.get index) :
    image'.slice start count = withField offset value (image.slice start count) := by
  obtain ⟨rest, rfl⟩ := Nat.exists_eq_add_of_le inside
  simp only [Span.Holds, Span.stop] at same
  rw [withField, Image.slice_take _ _ _ _ (by omega), Image.slice_drop _ _ _ _ (by omega),
    Nat.add_sub_cancel_left, Image.slice_append, Image.slice_append, field]
  have front : image'.slice start offset = image.slice start offset :=
    Image.slice_congr fun index after before => same index after (by omega) (by omega)
  have back : image'.slice (start + (offset + 8)) rest = image.slice (start + (offset + 8)) rest :=
    Image.slice_congr fun index after before => same index (by omega) (by omega) (by omega)
  rw [front, back]

theorem leNat_write733 {bytes : Bytes} {value start : Nat} (fits : value < 2 ^ 32)
    (field : subrange bytes start (start + 8) = write733 value) :
    leNat (subrange bytes start (start + 4)) = value := by
  rw [← subrange_take bytes start 4 (start + 8) (by omega), field]
  exact (read733_eq_ok.mp (read733_write733 fits)).2.1

section FieldsOfRecord

variable {raw : Bytes} (valid : RawRecord raw) {value : Nat} (fits : value < 2 ^ 32)

include valid fits

/-- **Setting the data length of a record.** -/
theorem withField_dataLen :
    RawRecord (withField 10 value raw) ∧
      ∀ offset, recordOf offset (withField 10 value raw)
        = { recordOf offset raw with dataLen := value } := by
  have minimum := valid.minimum
  have inside : 10 + 8 ≤ raw.length := by omega
  have length : (withField 10 value raw).length = raw.length := withField_length inside
  refine ⟨⟨by omega, ?_, ?_, ?_, ⟨value, ?_⟩⟩, fun offset => ?_⟩
  · rw [withField_getD inside (by omega), valid.lenByte, length]
  · rw [withField_getD inside (by omega), length]
    exact valid.nameFits
  · rw [withField_subrange_apart inside (by omega)]
    exact valid.extentLba
  · rw [withField_subrange inside, read733_write733 fits]
  · have data : leNat (subrange (withField 10 value raw) 10 14) = value :=
      leNat_write733 fits (withField_subrange inside)
    have name : ∀ stop, subrange (withField 10 value raw) 33 stop = subrange raw 33 stop :=
      fun _ => withField_subrange_apart inside (by omega)
    have extent : subrange (withField 10 value raw) 2 6 = subrange raw 2 6 :=
      withField_subrange_apart inside (by omega)
    have flags : (withField 10 value raw).getD 25 0 = raw.getD 25 0 :=
      withField_getD inside (by omega)
    have nameLen : (withField 10 value raw).getD 32 0 = raw.getD 32 0 :=
      withField_getD inside (by omega)
    simp only [recordOf, length, data, name, extent, flags, nameLen]

/-- **Setting the extent of a record.** -/
theorem withField_extentLba :
    RawRecord (withField 2 value raw) ∧
      ∀ offset, recordOf offset (withField 2 value raw)
        = { recordOf offset raw with extentLba := value } := by
  have minimum := valid.minimum
  have inside : 2 + 8 ≤ raw.length := by omega
  have length : (withField 2 value raw).length = raw.length := withField_length inside
  refine ⟨⟨by omega, ?_, ?_, ⟨value, ?_⟩, ?_⟩, fun offset => ?_⟩
  · rw [withField_getD inside (by omega), valid.lenByte, length]
  · rw [withField_getD inside (by omega), length]
    exact valid.nameFits
  · rw [withField_subrange inside, read733_write733 fits]
  · rw [withField_subrange_apart inside (by omega)]
    exact valid.dataLen
  · have extent : leNat (subrange (withField 2 value raw) 2 6) = value :=
      leNat_write733 fits (withField_subrange inside)
    have name : ∀ stop, subrange (withField 2 value raw) 33 stop = subrange raw 33 stop :=
      fun _ => withField_subrange_apart inside (by omega)
    have data : subrange (withField 2 value raw) 10 14 = subrange raw 10 14 :=
      withField_subrange_apart inside (by omega)
    have flags : (withField 2 value raw).getD 25 0 = raw.getD 25 0 :=
      withField_getD inside (by omega)
    have nameLen : (withField 2 value raw).getD 32 0 = raw.getD 32 0 :=
      withField_getD inside (by omega)
    simp only [recordOf, length, data, name, extent, flags, nameLen]

end FieldsOfRecord

theorem fileRecord_valid {name : Bytes} {extentLba dataLen : Nat} (short : name.length ≤ 221)
    (extentFits : extentLba < 2 ^ 32) (dataFits : dataLen < 2 ^ 32) :
    RawRecord (fileRecord name extentLba dataLen) := by
  have length := fileRecord_length name extentLba dataLen
  have nameLen : (UInt8.ofNat name.length).toNat = name.length := by
    rw [UInt8.toNat_ofNat']
    omega
  refine ⟨by omega, ?_, ?_, ⟨extentLba, ?_⟩, ⟨dataLen, ?_⟩⟩
  · show (UInt8.ofNat (33 + name.length + (33 + name.length) % 2)).toNat = _
    rw [UInt8.toNat_ofNat', length]
    omega
  · rw [fileRecord_nameLen, nameLen]
    omega
  · rw [fileRecord_extentLba, read733_write733 extentFits]
  · rw [fileRecord_dataLen, read733_write733 dataFits]

/-- **The record a new file record stands for.** -/
theorem recordOf_fileRecord {name : Bytes} {extentLba dataLen : Nat} (short : name.length ≤ 221)
    (extentFits : extentLba < 2 ^ 32) (dataFits : dataLen < 2 ^ 32) (offset : Nat) :
    recordOf offset (fileRecord name extentLba dataLen)
      = ⟨offset, 33 + name.length + (33 + name.length) % 2, extentLba, dataLen, 0, name⟩ := by
  have nameLen : (UInt8.ofNat name.length).toNat = name.length := by
    rw [UInt8.toNat_ofNat']
    omega
  simp only [recordOf, fileRecord_length, fileRecord_nameLen, nameLen, fileRecord_flags,
    fileRecord_name, leNat_write733 extentFits fileRecord_extentLba,
    leNat_write733 dataFits fileRecord_dataLen]

end Bootsmith.Iso
