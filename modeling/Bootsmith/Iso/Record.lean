/-
**ISO9660 directory records** (`ntxp_iso.rs`): the constants, the record parser, the record
builder and the two name functions.

A record's bytes and the parsed `DirectoryRecord` carry the same data: `parseDirectoryRecord_ok`
says which bytes parse and to what, and `buildFileRecord_ok` that a built record is one of them.
Names are compared (`isoNameEq`) and sorted (`isoSortKey`) alike: both drop one `;1` and ignore
ASCII case (`isoNameEq_iff`).
-/

import Bootsmith.Library.Ascii
import Bootsmith.Library.Endian
import Bootsmith.Library.Fallible
import Bootsmith.Library.Packing

namespace Bootsmith.Iso

open Bootsmith.Library

def sectorSize : Nat := 2048
def pvdLba : Nat := 16
def pvdOffset : Nat := pvdLba * sectorSize
def rootRecordOffsetInPvd : Nat := 156
def volumeSpaceSizeOffsetInPvd : Nat := pvdOffset + 80
def directoryFlag : UInt8 := 0x02
def winntSifName : Bytes := ascii "WINNT.SIF;1"

theorem sectorSize_pos : 0 < sectorSize := by decide

structure DirectoryRecord where
  offset : Nat
  len : Nat
  extentLba : Nat
  dataLen : Nat
  flags : UInt8
  name : Bytes
  deriving DecidableEq, Repr

/-- The record has the directory flag. -/
def DirectoryRecord.IsDirectory (record : DirectoryRecord) : Prop :=
  record.flags &&& directoryFlag ≠ 0

instance (record : DirectoryRecord) : Decidable record.IsDirectory :=
  inferInstanceAs (Decidable (_ ≠ _))

/-! ### Fields -/

def validatePvd (sector : Bytes) : Fallible Unit :=
  if sector.length ≠ sectorSize then
    Fallible.bail "short ISO9660 primary volume descriptor"
  else if sector.getD 0 0 ≠ 1 ∨ subrange sector 1 6 ≠ ascii "CD001" ∨ sector.getD 6 0 ≠ 1 then
    Fallible.bail "ISO9660 primary volume descriptor not found at sector 16"
  else .ok ()

def read733 (bytes : Bytes) : Fallible Nat :=
  if bytes.length ≠ 8 then
    Fallible.bail "invalid ISO9660 733 field length"
  else
    let le := leNat (bytes.take 4)
    let be := beNat (bytes.drop 4)
    if le ≠ be then
      Fallible.bail s!"ISO9660 both-endian field mismatch: little={le}, big={be}"
    else .ok le

/-- The eight bytes `write_733` puts into a field. -/
def write733 (value : Nat) : Bytes := leBytes 4 value ++ beBytes 4 value

/-- The four bytes `write_723` puts into a field. -/
def write723 (value : Nat) : Bytes := leBytes 2 value ++ beBytes 2 value

@[simp] theorem write733_length (value : Nat) : (write733 value).length = 8 := by
  simp [write733]

/-- **A both-endian field reads back.** -/
theorem read733_write733 {value : Nat} (fits : value < 2 ^ 32) :
    read733 (write733 value) = .ok value := by
  have small : value < 256 ^ 4 := by simpa using fits
  have low : (write733 value).take 4 = leBytes 4 value := by
    rw [write733, List.take_append_of_le_length (by simp), List.take_of_length_le (by simp)]
  have high : (write733 value).drop 4 = beBytes 4 value := by
    rw [write733, List.drop_append_of_le_length (by simp), List.drop_of_length_le (by simp),
      List.nil_append]
  simp only [read733, write733_length, low, high, leNat_leBytes small, beNat_beBytes small,
    ne_eq, not_true_eq_false, if_false]

theorem read733_eq_ok {bytes : Bytes} {value : Nat} :
    read733 bytes = .ok value ↔
      bytes.length = 8 ∧ leNat (bytes.take 4) = value ∧ beNat (bytes.drop 4) = value := by
  unfold read733
  by_cases length : bytes.length = 8
  · by_cases same : leNat (bytes.take 4) = beNat (bytes.drop 4)
    · simp [length, same]
    · simp only [length, ne_eq, not_true_eq_false, if_false, same, not_false_eq_true, if_true,
        Fallible.bail_ne_ok, true_and, false_iff, not_and]
      exact fun low high => same (low.trans high.symm)
  · simp [length]

/-! ### Parsing a record -/

def parseDirectoryRecord (buf : Bytes) (offset absoluteBase : Nat) : Fallible DirectoryRecord :=
  if offset ≥ buf.length then
    Fallible.bail "directory record offset out of range"
  else
    let len := (buf.getD offset 0).toNat
    if len < 34 then
      Fallible.bail s!"ISO9660 directory record at byte {absoluteBase + offset} is too short"
    else if offset + len > buf.length then
      Fallible.bail s!"ISO9660 directory record at byte {absoluteBase + offset} is truncated"
    else
      let nameLen := (buf.getD (offset + 32) 0).toNat
      if offset + 33 + nameLen > offset + len then
        Fallible.bail
          s!"ISO9660 directory record at byte {absoluteBase + offset} has truncated name"
      else do
        let extentLba ← read733 (subrange buf (offset + 2) (offset + 10))
        let dataLen ← read733 (subrange buf (offset + 10) (offset + 18))
        pure {
          offset := absoluteBase + offset
          len := len
          extentLba := extentLba
          dataLen := dataLen
          flags := buf.getD (offset + 25) 0
          name := subrange buf (offset + 33) (offset + 33 + nameLen) }

/-- The bytes of one record, as the parser accepts them: the length byte is the length, the name
fits, and both both-endian fields agree with themselves. -/
structure RawRecord (raw : Bytes) : Prop where
  minimum : 34 ≤ raw.length
  lenByte : (raw.getD 0 0).toNat = raw.length
  nameFits : 33 + (raw.getD 32 0).toNat ≤ raw.length
  extentLba : ∃ value, read733 (subrange raw 2 10) = .ok value
  dataLen : ∃ value, read733 (subrange raw 10 18) = .ok value

/-- The record that bytes the parser accepts stand for, when they lie at `offset`. -/
def recordOf (offset : Nat) (raw : Bytes) : DirectoryRecord where
  offset := offset
  len := raw.length
  extentLba := leNat (subrange raw 2 6)
  dataLen := leNat (subrange raw 10 14)
  flags := raw.getD 25 0
  name := subrange raw 33 (33 + (raw.getD 32 0).toNat)

@[simp] theorem recordOf_offset (offset : Nat) (raw : Bytes) :
    (recordOf offset raw).offset = offset := rfl

theorem RawRecord.length_le {raw : Bytes} (valid : RawRecord raw) : raw.length ≤ 255 := by
  have small := (raw.getD 0 0).toNat_lt
  rw [← valid.lenByte]
  omega

theorem subrange_take (bytes : Bytes) (start count stop : Nat) (within : start + count ≤ stop) :
    (subrange bytes start stop).take count = subrange bytes start (start + count) := by
  rw [subrange, subrange, List.take_take]
  congr 1
  omega

theorem subrange_length {bytes : Bytes} {start stop : Nat} (inside : stop ≤ bytes.length) :
    (subrange bytes start stop).length = stop - start := by
  rw [subrange, List.length_take, List.length_drop]
  omega

theorem getD_subrange {bytes : Bytes} {start stop index : Nat} (inside : start + index < stop) :
    (subrange bytes start stop).getD index 0 = bytes.getD (start + index) 0 := by
  rw [List.getD_eq_getElem?_getD, List.getD_eq_getElem?_getD, subrange,
    List.getElem?_take_of_lt (by omega), List.getElem?_drop]

theorem subrange_subrange {bytes : Bytes} {start stop first last : Nat}
    (inside : start + last ≤ stop) :
    subrange (subrange bytes start stop) first last = subrange bytes (start + first) (start + last) := by
  rw [subrange, subrange, subrange, List.drop_take, List.drop_drop, List.take_take]
  congr 1
  omega

/-- **Which bytes the record parser accepts, and what it returns.** -/
theorem parseDirectoryRecord_eq_ok {buf : Bytes} {offset base : Nat} {record : DirectoryRecord} :
    parseDirectoryRecord buf offset base = .ok record ↔
      ∃ raw, offset + raw.length ≤ buf.length ∧ subrange buf offset (offset + raw.length) = raw ∧
        RawRecord raw ∧ record = recordOf (base + offset) raw := by
  have field : ∀ bytes start value, read733 (subrange bytes start (start + 8)) = .ok value →
      leNat (subrange bytes start (start + 4)) = value := by
    intro bytes start value read
    rw [← subrange_take bytes start 4 (start + 8) (by omega)]
    exact (read733_eq_ok.mp read).2.1
  constructor
  · intro parsed
    unfold parseDirectoryRecord at parsed
    split at parsed
    · simp at parsed
    dsimp only at parsed
    split at parsed
    · simp at parsed
    split at parsed
    · simp at parsed
    split at parsed
    · simp at parsed
    rename_i inside long fits named
    rw [Fallible.bind_eq_ok] at parsed
    obtain ⟨extentLba, readExtent, parsed⟩ := parsed
    rw [Fallible.bind_eq_ok] at parsed
    obtain ⟨dataLen, readData, parsed⟩ := parsed
    rw [Fallible.pure_eq_ok] at parsed
    generalize count : (buf.getD offset 0).toNat = len at *
    have length : (subrange buf offset (offset + len)).length = len := by
      rw [subrange_length (by omega)]
      omega
    have byte : ∀ index < len, (subrange buf offset (offset + len)).getD index 0
        = buf.getD (offset + index) 0 := fun index before => getD_subrange (by omega)
    have part : ∀ first last, last ≤ len → subrange (subrange buf offset (offset + len)) first last
        = subrange buf (offset + first) (offset + last) :=
      fun first last before => subrange_subrange (by omega)
    refine ⟨subrange buf offset (offset + len), by omega, by rw [length], ⟨by omega, ?_, ?_,
      ⟨extentLba, ?_⟩, ⟨dataLen, ?_⟩⟩, ?_⟩
    · rw [byte 0 (by omega), length, Nat.add_zero, count]
    · rw [byte 32 (by omega), length]
      omega
    · rw [part _ _ (by omega), readExtent]
    · rw [part _ _ (by omega), readData]
    · rw [← parsed, recordOf, length, byte 25 (by omega), byte 32 (by omega), part 2 6 (by omega),
        part 10 14 (by omega), part 33 _ (by omega), ← field _ (offset + 2) _ readExtent,
        ← field _ (offset + 10) _ readData, Nat.add_assoc offset 33]
  · rintro ⟨raw, fits, here, valid, rfl⟩
    obtain ⟨minimum, lenByte, nameFits, ⟨extentLba, readExtent⟩, ⟨dataLen, readData⟩⟩ := valid
    have byte : ∀ index < raw.length, buf.getD (offset + index) 0 = raw.getD index 0 := by
      intro index before
      rw [← here, getD_subrange (by omega)]
    have part : ∀ first last, last ≤ raw.length →
        subrange buf (offset + first) (offset + last) = subrange raw first last := by
      intro first last before
      rw [← here, subrange_subrange (by omega)]
    have first := byte 0 (by omega)
    rw [Nat.add_zero] at first
    unfold parseDirectoryRecord
    rw [if_neg (by omega)]
    dsimp only
    rw [first, lenByte, byte 32 (by omega), if_neg (by omega), if_neg (by omega), if_neg (by omega),
      Fallible.bind_eq_ok]
    refine ⟨extentLba, (part 2 10 (by omega)).symm ▸ readExtent, ?_⟩
    rw [Fallible.bind_eq_ok]
    refine ⟨dataLen, (part 10 18 (by omega)).symm ▸ readData, ?_⟩
    rw [Fallible.pure_eq_ok, byte 25 (by omega), Nat.add_assoc offset 33, part 33 _ (by omega),
      ← field raw 2 _ readExtent, ← field raw 10 _ readData]
    rfl

/-- Bytes of which the first is their number parse as one record. -/
theorem parseDirectoryRecord_ok {raw : Bytes} {base : Nat} {record : DirectoryRecord}
    (whole : (raw.getD 0 0).toNat = raw.length) :
    parseDirectoryRecord raw 0 base = .ok record ↔ RawRecord raw ∧ record = recordOf base raw := by
  rw [parseDirectoryRecord_eq_ok]
  constructor
  · rintro ⟨part, fits, here, valid, rfl⟩
    have minimum := valid.minimum
    have first := valid.lenByte
    rw [← here, getD_subrange (by omega), Nat.zero_add, here, whole] at first
    rw [Nat.zero_add, ← first, subrange, List.drop_zero, Nat.sub_zero, List.take_length] at here
    exact ⟨here ▸ valid, by rw [here, Nat.add_zero]⟩
  · rintro ⟨valid, rfl⟩
    exact ⟨raw, by omega, by simp [subrange], valid, rfl⟩

/-! ### Names -/

/-- Drop one trailing `;1`. -/
def stripVersion (name : Bytes) : Bytes :=
  if (ascii ";1").isSuffixOf name then name.take (name.length - 2) else name

def isoSortKey (name : Bytes) : Bytes := (stripVersion name).map toAsciiUpper

def isoNameEq (actual expected : Bytes) : Bool :=
  eqIgnoreAsciiCase (stripVersion actual) (stripVersion expected)

/-- **Names are equal up to case and `;1` exactly when their sort keys are equal.** -/
theorem isoNameEq_iff (actual expected : Bytes) :
    isoNameEq actual expected = true ↔ isoSortKey actual = isoSortKey expected :=
  eqIgnoreAsciiCase_iff_upper _ _

def recordName (record : Bytes) : Bytes :=
  let nameLen := (record.getD 32 0).toNat
  if record.length < 33 + nameLen then [] else subrange record 33 (33 + nameLen)

theorem recordName_eq {raw : Bytes} (valid : RawRecord raw) (offset : Nat) :
    recordName raw = (recordOf offset raw).name := by
  have fits := valid.nameFits
  rw [recordName]
  exact if_neg (by omega)

/-! ### Building a record -/

/-- The bytes of a new file record; the date is fixed and the volume sequence number is 1. -/
def fileRecord (name : Bytes) (extentLba dataLen : Nat) : Bytes :=
  let len := 33 + name.length + (33 + name.length) % 2
  [UInt8.ofNat len, 0] ++ write733 extentLba ++ write733 dataLen
    ++ [126, 5, 21, 0, 0, 0, 0, 0, 0, 0] ++ write723 1 ++ [UInt8.ofNat name.length] ++ name
    ++ List.replicate ((33 + name.length) % 2) 0

def buildFileRecord (name : Bytes) (extentLba dataLen : Nat) : Fallible Bytes := do
  let len := 33 + name.length + (33 + name.length) % 2
  let _ ← Fallible.context "ISO9660 file name is too long" (tryFrom 256 len)
  let _ ← Fallible.context "ISO9660 file name is too long" (tryFrom 256 name.length)
  pure (fileRecord name extentLba dataLen)

theorem buildFileRecord_eq_ok {name raw : Bytes} {extentLba dataLen : Nat} :
    buildFileRecord name extentLba dataLen = .ok raw ↔
      name.length ≤ 221 ∧ raw = fileRecord name extentLba dataLen := by
  unfold buildFileRecord
  simp only [Fallible.bind_eq_ok, Fallible.context_eq_ok, tryFrom_eq_ok, Fallible.pure_eq_ok]
  constructor
  · rintro ⟨_, ⟨small, _⟩, _, _, rfl⟩
    exact ⟨by omega, rfl⟩
  · rintro ⟨short, rfl⟩
    exact ⟨_, ⟨by omega, rfl⟩, _, ⟨by omega, rfl⟩, rfl⟩

@[simp] theorem fileRecord_length (name : Bytes) (extentLba dataLen : Nat) :
    (fileRecord name extentLba dataLen).length
      = 33 + name.length + (33 + name.length) % 2 := by
  simp only [fileRecord, List.length_append, List.length_cons, List.length_nil, write733_length,
    write723, leBytes_length, beBytes_length, List.length_replicate]

section Built

variable {name : Bytes} {extentLba dataLen : Nat}

theorem fileRecord_extentLba :
    subrange (fileRecord name extentLba dataLen) 2 10 = write733 extentLba := by
  simp [fileRecord, subrange, List.append_assoc]

theorem fileRecord_dataLen :
    subrange (fileRecord name extentLba dataLen) 10 18 = write733 dataLen := by
  simp [fileRecord, subrange, List.append_assoc]

theorem fileRecord_nameLen :
    (fileRecord name extentLba dataLen).getD 32 0 = UInt8.ofNat name.length := by
  simp [fileRecord, write723, List.append_assoc, List.getElem?_append]

theorem fileRecord_flags : (fileRecord name extentLba dataLen).getD 25 0 = 0 := by
  simp [fileRecord, List.append_assoc, List.getElem?_append]

theorem fileRecord_name :
    subrange (fileRecord name extentLba dataLen) 33 (33 + name.length) = name := by
  simp [fileRecord, subrange, write723, List.append_assoc, List.drop_append,
    List.drop_of_length_le]

end Built

end Bootsmith.Iso
