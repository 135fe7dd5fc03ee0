/-
**Verifying a device against a hybrid ISO** (`pipeline/hybrid.rs`).

`compareFrom` says what a verify pass is for: the first byte of the device that is not the ISO's stops it.
The loop of `verify_device_matches_iso` compares chunk by chunk, over whole blocks that may reach past the
ISO; it gives the same answer (`verifyIsoFrom_eq`), so it is sound and complete
(`verifyDeviceMatchesIso_iff`).
-/

import Bootsmith.Hybrid.Write

namespace Bootsmith.Hybrid

open Bootsmith.Library Bootsmith.Disk

/-- A byte as two hexadecimal digits. -/
def hexByte (byte : UInt8) : String :=
  String.ofList [Nat.digitChar (byte.toNat / 16), Nat.digitChar (byte.toNat % 16)]

def mismatch (offset : Nat) (isoByte deviceByte : UInt8) : String :=
  s!"verify mismatch at offset {offset} (ISO byte 0x{hexByte isoByte}, device byte 0x{hexByte deviceByte})"

/-! ### Comparing byte by byte -/

/-- The bytes from `offset` on are these, or the first that is not is named. -/
def compareFrom (image : Image) (offset : Nat) : Bytes → Fallible Unit
  | [] => .ok ()
  | byte :: rest =>
    if image.get offset = byte then compareFrom image (offset + 1) rest
    else Fallible.bail (mismatch offset byte (image.get offset))

section Compare

variable {image image' : Image} {offset : Nat} {bytes : Bytes}

theorem compareFrom_append (front : Bytes) :
    compareFrom image offset (front ++ bytes)
      = (compareFrom image offset front >>= fun _ => compareFrom image (offset + front.length) bytes) := by
  induction front generalizing offset with
  | nil => rfl
  | cons byte rest ih =>
    rw [List.cons_append, compareFrom, compareFrom]
    split
    · rw [ih, List.length_cons, Nat.add_right_comm, Nat.add_assoc]
    · rfl

/-- **The first byte that differs is named.** -/
theorem compareFrom_of_first {index : Nat} (inside : index < bytes.length)
    (differs : image.get (offset + index) ≠ bytes[index])
    (first : ∀ before (short : before < index), image.get (offset + before) = bytes[before]) :
    compareFrom image offset bytes
      = Fallible.bail (mismatch (offset + index) bytes[index] (image.get (offset + index))) := by
  induction bytes generalizing offset index with
  | nil => cases inside
  | cons byte rest ih =>
    cases index with
    | zero => exact if_neg differs
    | succ index =>
      have same : image.get offset = byte := first 0 (Nat.succ_pos index)
      have shift : ∀ before, offset + (before + 1) = offset + 1 + before := by omega
      rw [shift] at differs ⊢
      rw [compareFrom, if_pos same]
      refine ih (Nat.lt_of_succ_lt_succ inside) differs fun before short => ?_
      have next := first (before + 1) (Nat.succ_lt_succ short)
      rwa [shift] at next

/-- Bytes that are not there have a first one. -/
theorem exists_first (wrong : image.slice offset bytes.length ≠ bytes) :
    ∃ (index : Nat) (inside : index < bytes.length), image.get (offset + index) ≠ bytes[index] ∧
      ∀ before (short : before < index), image.get (offset + before) = bytes[before] := by
  have some : ∃ index, ∃ inside : index < bytes.length, image.get (offset + index) ≠ bytes[index] := by
    by_contra none
    push Not at none
    exact wrong ((Image.slice_eq_iff _ _ _).mpr none)
  obtain ⟨inside, differs⟩ := Nat.find_spec some
  refine ⟨Nat.find some, inside, differs, fun before short => ?_⟩
  by_contra other
  exact Nat.find_min some short ⟨short.trans inside, other⟩

/-- **The comparison succeeds exactly when the bytes are there.** -/
theorem compareFrom_eq_ok : compareFrom image offset bytes = .ok () ↔ image.slice offset bytes.length = bytes := by
  constructor
  · intro same
    by_contra wrong
    obtain ⟨index, inside, differs, first⟩ := exists_first wrong
    rw [compareFrom_of_first inside differs first] at same
    cases same
  · intro here
    rw [Image.slice_eq_iff] at here
    induction bytes generalizing offset with
    | nil => rfl
    | cons byte rest ih =>
      have same : image.get offset = byte := here 0 (Nat.succ_pos _)
      rw [compareFrom, if_pos same]
      refine ih fun index inside => ?_
      have next := here (index + 1) (Nat.succ_lt_succ inside)
      rwa [← Nat.add_assoc, Nat.add_right_comm] at next

/-- The comparison looks at no other bytes. -/
theorem compareFrom_congr (same : ∀ index < offset + bytes.length, image'.get index = image.get index) :
    compareFrom image' offset bytes = compareFrom image offset bytes := by
  induction bytes generalizing offset with
  | nil => rfl
  | cons byte rest ih =>
    rw [List.length_cons] at same
    rw [compareFrom, compareFrom, same offset (by omega),
      ih fun index inside => same index (by omega)]

end Compare

/-! ### The loop -/

/-- The loop of `verify_device_matches_iso`. -/
def verifyIsoFrom (device : RawDevice) (source : ByteSource) (isoBuf devBuf : Bytes) (offset : Nat) :
    Fallible Unit :=
  match _filled : readFull source isoBuf with
  | (n, isoBuf', source') =>
    if n = 0 then pure ()
    else do
      let aligned ← alignedLen n device.blockSize
      let target ← partOf devBuf 0 aligned
      let bytes ← device.readAt offset target.length
      let devBuf' := overlay devBuf 0 bytes
      let devPart ← partOf devBuf' 0 n
      let isoPart ← partOf isoBuf' 0 n
      if devPart ≠ isoPart then
        let firstBad :=
          ((List.range n).find? fun index => devBuf'.getD index 0 ≠ isoBuf'.getD index 0).getD 0
        Fallible.bail (mismatch (offset + firstBad) (isoBuf'.getD firstBad 0) (devBuf'.getD firstBad 0))
      else if n < chunkSize then pure ()
      else verifyIsoFrom device source' isoBuf' devBuf' (offset + n)
termination_by source.rest.length
decreasing_by
  obtain ⟨count, _, rest⟩ := readFull_spec source isoBuf
  simp only [_filled] at count rest
  rw [rest, List.length_drop]
  omega

def verifyDeviceMatchesIso (device : RawDevice) (source : ByteSource) : Fallible Unit :=
  verifyIsoFrom device source (List.replicate chunkSize 0) (List.replicate chunkSize 0) 0

/-- **One chunk**: comparing the buffers finds what comparing the bytes finds. -/
theorem compareChunk {image : Image} {offset n : Nat} {devBuf isoBuf front : Bytes}
    (length : front.length = n)
    (device : devBuf.take n = image.slice offset n) (iso : isoBuf.take n = front)
    (next : Fallible Unit) :
    (if devBuf.take n ≠ isoBuf.take n then
        let firstBad :=
          ((List.range n).find? fun index => devBuf.getD index 0 ≠ isoBuf.getD index 0).getD 0
        Fallible.bail (mismatch (offset + firstBad) (isoBuf.getD firstBad 0) (devBuf.getD firstBad 0))
      else next)
      = (compareFrom image offset front >>= fun _ => next) := by
  subst length
  by_cases same : image.slice offset front.length = front
  · rw [compareFrom_eq_ok.mpr same, if_neg (not_not.mpr (device.trans (same.trans iso.symm)))]
    rfl
  have different : devBuf.take front.length ≠ isoBuf.take front.length := fun equal =>
    same (device.symm.trans (equal.trans iso))
  obtain ⟨index, inside, differs, first⟩ := exists_first same
  have devByte : ∀ index < front.length, devBuf.getD index 0 = image.get (offset + index) := by
    intro index inside
    have read := congrArg (List.getD · index 0) device
    rw [Image.getD_slice _ _ inside] at read
    rwa [List.getD_eq_getElem?_getD, List.getElem?_take_of_lt inside, ← List.getD_eq_getElem?_getD] at read
  have isoByte : ∀ index (inside : index < front.length), isoBuf.getD index 0 = front[index] := by
    intro index inside
    have read := congrArg (List.getD · index 0) iso
    rw [List.getD_eq_getElem _ _ inside] at read
    rwa [List.getD_eq_getElem?_getD, List.getElem?_take_of_lt inside, ← List.getD_eq_getElem?_getD] at read
  have found : (List.range front.length).find? (fun index => devBuf.getD index 0 ≠ isoBuf.getD index 0)
      = some index := by
    rw [List.find?_range_eq_some]
    refine ⟨?_, List.mem_range.mpr inside, fun before short => ?_⟩
    · rw [devByte index inside, isoByte index inside]
      exact decide_eq_true differs
    · rw [devByte before (short.trans inside), isoByte before (short.trans inside), first before short]
      simp
  rw [if_pos different, found, compareFrom_of_first inside differs first, Option.getD_some]
  simp only [devByte index inside, isoByte index inside]
  rfl

/-- **The loop compares the rest of the ISO with the device.** -/
theorem verifyIsoFrom_eq (device : RawDevice) (divides : device.blockSize ∣ chunkSize)
    (source : ByteSource)
    {isoBuf devBuf : Bytes} {offset : Nat} (isoLength : isoBuf.length = chunkSize)
    (devLength : devBuf.length = chunkSize) (aligned : device.blockSize ∣ offset)
    (room : offset + source.rest.length ≤ device.image.size) :
    verifyIsoFrom device source isoBuf devBuf offset = compareFrom device.image offset source.rest := by
  have positive : 0 < device.blockSize := Nat.pos_of_dvd_of_pos divides chunkSize_pos
  induction left : source.rest.length using Nat.strong_induction_on generalizing source isoBuf devBuf offset with
  | _ left ih =>
    subst left
    obtain ⟨count, _, after⟩ := readFull_spec source isoBuf
    obtain ⟨kept, front⟩ := readFull_buf source isoBuf
    rw [verifyIsoFrom]
    split
    rename_i n isoBuf' source' filled
    simp only [filled] at count after kept front
    rw [isoLength] at count after kept front
    have whole := List.take_append_drop chunkSize source.rest
    rw [← after, ← front] at whole
    have taken : (isoBuf'.take n).length = n := by
      rw [List.length_take]
      omega
    by_cases ended : n = 0
    · have empty : source.rest = [] := List.eq_nil_of_length_eq_zero (by have := chunkSize_pos; omega)
      rw [if_pos ended, empty]
      rfl
    rw [if_neg ended]
    have up := le_alignUp n positive
    have below : alignUp n device.blockSize ≤ devBuf.length :=
      alignUp_le positive (by omega) (devLength ▸ divides)
    have target : (devBuf.take (alignUp n device.blockSize)).length = alignUp n device.blockSize := by
      rw [List.length_take]
      omega
    have takes : device.Takes ⟨offset, (padded device.blockSize (isoBuf'.take n)).length⟩ :=
      takes_padded positive aligned (by omega)
    rw [padded_length positive, taken] at takes
    have read := RawDevice.readAt_of_takes takes
    generalize held : device.image.slice offset (alignUp n device.blockSize) = bytes at read
    have bytesLength : bytes.length = alignUp n device.blockSize := by rw [← held, Image.slice_length]
    have devLength' : (overlay devBuf 0 bytes).length = devBuf.length := overlay_length (by omega)
    have devFront : (overlay devBuf 0 bytes).take n = device.image.slice offset n := by
      rw [overlay_zero, List.take_append_of_le_length (by omega), ← held, Image.slice_take _ _ _ _ up]
    rw [Fallible.bind_of_ok (alignedLen_eq positive), Fallible.bind_of_ok (partOf_zero below), target,
      Fallible.bind_of_ok read, Fallible.bind_of_ok (partOf_zero (by omega)),
      Fallible.bind_of_ok (partOf_zero (by omega))]
    refine (compareChunk taken devFront rfl _).trans ?_
    rw [← whole, compareFrom_append, taken]
    congr 1
    funext _
    by_cases last : n < chunkSize
    · -- the ISO is at its end
      have none : source'.rest = [] := by
        rw [after]
        exact List.drop_of_length_le (by omega)
      rw [if_pos last, none]
      rfl
    · obtain rfl : n = chunkSize := by omega
      have total := congrArg List.length whole
      rw [List.length_append] at total
      rw [if_neg last]
      exact ih source'.rest.length (by have := chunkSize_pos; omega) source' kept (devLength'.trans devLength)
        (Nat.dvd_add aligned divides) (by omega) rfl

/-! ### The whole pass -/

/-- A verify pass compares the ISO with the start of the device. -/
theorem verifyDeviceMatchesIso_eq (device : RawDevice) (source : ByteSource)
    (divides : device.blockSize ∣ chunkSize) (room : source.rest.length ≤ device.image.size) :
    verifyDeviceMatchesIso device source = compareFrom device.image 0 source.rest :=
  verifyIsoFrom_eq device divides source List.length_replicate List.length_replicate (dvd_zero _)
    (by rwa [Nat.zero_add])

/-- **The verify pass is sound and complete**: it succeeds exactly when the device starts with the ISO, and
otherwise names the first offset where it does not, with the two bytes there; a device that starts with the
same bytes gives the same answer. -/
theorem verifyDeviceMatchesIso_iff (source : ByteSource) (device : RawDevice)
    (divides : device.blockSize ∣ chunkSize) (room : source.rest.length ≤ device.image.size) :
    (verifyDeviceMatchesIso device source = .ok () ↔
        device.image.slice 0 source.rest.length = source.rest) ∧
      (device.image.slice 0 source.rest.length ≠ source.rest →
        ∃ (offset : Nat) (inside : offset < source.rest.length),
          device.image.get offset ≠ source.rest[offset] ∧
          (∀ before (short : before < offset), device.image.get before = source.rest[before]) ∧
          verifyDeviceMatchesIso device source
            = .error (.error [mismatch offset source.rest[offset] (device.image.get offset)])) ∧
      ∀ device' : RawDevice, device'.blockSize ∣ chunkSize → source.rest.length ≤ device'.image.size →
        (∀ index < source.rest.length, device'.image.get index = device.image.get index) →
        verifyDeviceMatchesIso device' source = verifyDeviceMatchesIso device source := by
  have here := verifyDeviceMatchesIso_eq device source divides room
  refine ⟨?_, fun wrong => ?_, fun device' divides' room' same => ?_⟩
  · rw [here]
    exact compareFrom_eq_ok
  · obtain ⟨offset, inside, differs, first⟩ := exists_first wrong
    rw [here, compareFrom_of_first inside differs first]
    simp only [Nat.zero_add] at differs first ⊢
    exact ⟨offset, inside, differs, first, rfl⟩
  · rw [here, verifyDeviceMatchesIso_eq device' source divides' room']
    exact compareFrom_congr fun index inside => same index (by omega)

/-- **A device that was written verifies**, however the ISO is read the second time. -/
theorem verify_of_write {source again : ByteSource} {device : RawDevice}
    (reopened : again.rest = source.rest)
    (divides : device.blockSize ∣ chunkSize) (room : source.rest.length ≤ device.image.size) :
    ∃ device', (writeIsoToDevice source).run device = .ok () device' ∧
      verifyDeviceMatchesIso device' again = .ok () := by
  have positive : 0 < device.blockSize := Nat.pos_of_dvd_of_pos divides chunkSize_pos
  obtain ⟨device', run, streamed⟩ := writeIsoFrom_run source List.length_replicate divides
    (dvd_zero device.blockSize) (by rwa [Nat.zero_add])
  have written := streamed.written positive room
  have divides' : device'.blockSize ∣ chunkSize := streamed.blockSize ▸ divides
  refine ⟨device', run, ?_⟩
  rw [verifyDeviceMatchesIso_eq device' again divides' (by rwa [reopened, written.size]), reopened]
  exact compareFrom_eq_ok.mpr written.stored

/-- Three bytes against the sample device, whose bytes are all ones. -/
theorem verifyDeviceMatchesIso_iff_sample :
    verifyDeviceMatchesIso sampleDevice ⟨[1, 1, 1], fun _ => 2, 0⟩ = .ok () ∧
      verifyDeviceMatchesIso sampleDevice ⟨[1, 171, 2], fun _ => 2, 0⟩
        = .error (.error ["verify mismatch at offset 1 (ISO byte 0xab, device byte 0x01)"]) := by
  have divides : sampleDevice.blockSize ∣ chunkSize := show 512 ∣ chunkSize by decide
  obtain ⟨same, _, _⟩ := verifyDeviceMatchesIso_iff ⟨[1, 1, 1], fun _ => 2, 0⟩ sampleDevice divides
    (show 3 ≤ 1024 by decide)
  obtain ⟨_, other, _⟩ := verifyDeviceMatchesIso_iff ⟨[1, 171, 2], fun _ => 2, 0⟩ sampleDevice divides
    (show 3 ≤ 1024 by decide)
  have ones : sampleDevice.image.slice 0 3 = [1, 1, 1] := by decide
  constructor
  · exact same.mpr ones
  · obtain ⟨offset, inside, differs, first, named⟩ := other (by decide)
    have second : offset = 1 := by
      clear named
      match offset, inside with
      | 0, _ => exact absurd rfl differs
      | 1, _ => rfl
      | 2, _ => exact absurd (first 1 (by decide)) (show ¬ (1 : UInt8) = 171 by decide)
    subst second
    rw [named]
    show Except.error (Failure.error [mismatch 1 171 1]) = _
    decide

end Bootsmith.Hybrid
