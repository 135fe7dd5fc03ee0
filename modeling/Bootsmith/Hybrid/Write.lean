/-
**Writing a hybrid ISO to a device** (`pipeline/hybrid.rs`).

`read_full` fills the buffer from a source that may return short reads, and gives what it would give of a
source that does not (`readFull_spec`). `write_iso_to_device` pads the last chunk to a whole block and
writes each chunk; a run leaves the device as one write of the padded ISO would
(`writeIsoFrom_run`), whatever the buffer held before.
-/

import Bootsmith.Disk.Raw
import Bootsmith.Library.Checked

namespace Bootsmith.Hybrid

open Bootsmith.Library Bootsmith.Disk

/-- 4 MiB. -/
def chunkSize : Nat := 4 * 1024 * 1024

theorem chunkSize_pos : 0 < chunkSize := by decide

/-! ### Filling the buffer -/

/-- The loop of `read_full` with `total` bytes in the buffer: the count of bytes read, the buffer, and the
source that is left. -/
def readFullFrom (source : ByteSource) (buf : Bytes) (total : Nat) : Nat × Bytes × ByteSource :=
  if total < buf.length then
    match _taken : source.read (buf.length - total) with
    | (bytes, next) =>
      if bytes = [] then (total, buf, next)
      else readFullFrom next (overlay buf total bytes) (total + bytes.length)
  else (total, buf, source)
termination_by source.rest.length
decreasing_by
  rename_i something
  have split : (source.read (buf.length - total)).1.length + _ = _ := source.read_length
  have some := List.length_pos_of_ne_nil something
  simp only [_taken] at split
  omega

def readFull (source : ByteSource) (buf : Bytes) : Nat × Bytes × ByteSource := readFullFrom source buf 0

/-- Two overlays one after the other are one. -/
theorem overlay_overlay {outer first second : Bytes} {offset : Nat}
    (within : offset + first.length + second.length ≤ outer.length) :
    overlay (overlay outer offset first) (offset + first.length) second
      = overlay outer offset (first ++ second) := by
  have inner : offset + first.length ≤ outer.length := by omega
  have length := overlay_length inner
  refine List.ext_getElem? fun index => ?_
  rw [overlay_getElem? index (by omega), overlay_getElem? index inner,
    overlay_getElem? index (by rw [List.length_append]; omega), List.length_append]
  by_cases inSecond : offset + first.length ≤ index ∧ index < offset + first.length + second.length
  · rw [if_pos inSecond, if_pos (by omega), List.getElem?_append_right (by omega), Nat.sub_add_eq]
  · rw [if_neg inSecond]
    by_cases inFirst : offset ≤ index ∧ index < offset + first.length
    · rw [if_pos inFirst, if_pos (by omega), List.getElem?_append_left (by omega)]
    · rw [if_neg inFirst, if_neg (by omega)]

/-- **What `read_full` reads**: as many bytes as fit, or all there are, whatever the reads return. -/
theorem readFullFrom_spec (source : ByteSource) (buf : Bytes) (total : Nat)
    (inside : total ≤ buf.length) :
    (readFullFrom source buf total).1 = total + min source.rest.length (buf.length - total) ∧
      (readFullFrom source buf total).2.1
        = overlay buf total (source.rest.take (buf.length - total)) ∧
      (readFullFrom source buf total).2.2.rest = source.rest.drop (buf.length - total) := by
  induction left : source.rest.length using Nat.strong_induction_on generalizing source buf total with
  | _ left ih =>
    subst left
    rw [readFullFrom]
    split
    swap
    · rename_i full
      have none : buf.length - total = 0 := by omega
      rw [none, List.take_zero, overlay_nil]
      exact ⟨by simp, rfl, rfl⟩
    rename_i room
    have shorter : (source.read (buf.length - total)).1.length + _ = _ := source.read_length
    have short : (source.read (buf.length - total)).1.length ≤ _ := source.read_length_le
    have whole : (source.read (buf.length - total)).1 ++ _ = _ := source.read_append
    split
    rename_i bytes next taken
    simp only [taken] at shorter short whole
    split
    · rename_i nothing
      have ended := (source.read_eq_nil (show 0 < buf.length - total by omega)).mp
        ((congrArg Prod.fst taken).trans nothing)
      rw [nothing, List.nil_append] at whole
      rw [whole, ended, List.take_nil, overlay_nil, List.drop_nil]
      exact ⟨by simp, rfl, rfl⟩
    · rename_i something
      have some := List.length_pos_of_ne_nil something
      have length : (overlay buf total bytes).length = buf.length := overlay_length (by omega)
      obtain ⟨count, held, rest⟩ := ih _ (by omega) next (overlay buf total bytes)
        (total + bytes.length) (by omega) rfl
      have remains : buf.length - (total + bytes.length) = buf.length - total - bytes.length := by omega
      rw [length, remains] at count held rest
      rw [← whole]
      refine ⟨?_, ?_, ?_⟩
      · rw [count, List.length_append]
        omega
      · rw [held, overlay_overlay (by rw [List.length_take]; omega), List.take_append,
          List.take_of_length_le short]
      · rw [rest, List.drop_append, List.drop_of_length_le short, List.nil_append]

/-- `read_full` into a whole buffer: the count, the buffer and the rest of the source. -/
theorem readFull_spec (source : ByteSource) (buf : Bytes) :
    (readFull source buf).1 = min source.rest.length buf.length ∧
      (readFull source buf).2.1 = overlay buf 0 (source.rest.take buf.length) ∧
      (readFull source buf).2.2.rest = source.rest.drop buf.length := by
  have spec := readFullFrom_spec source buf 0 (Nat.zero_le _)
  rwa [Nat.zero_add, Nat.sub_zero] at spec

/-- The buffer keeps its length, and the bytes that were read stand in front. -/
theorem readFull_buf (source : ByteSource) (buf : Bytes) :
    (readFull source buf).2.1.length = buf.length ∧
      (readFull source buf).2.1.take (readFull source buf).1 = source.rest.take buf.length := by
  obtain ⟨count, held, _⟩ := readFull_spec source buf
  have length : (source.rest.take buf.length).length = min buf.length source.rest.length :=
    List.length_take
  rw [held, count]
  refine ⟨overlay_length (by omega), ?_⟩
  rw [overlay_zero, List.take_append_of_le_length (by omega), List.take_of_length_le (by omega)]

/-! ### Writing -/

/-- A remainder; a divisor of zero panics. -/
def remOf (value divisor : Nat) : Fallible Nat :=
  if divisor = 0 then .error .panic else .ok (value % divisor)

/-- The count rounded up to whole blocks, as both loops compute it. -/
def alignedLen (count blockSize : Nat) : Fallible Nat := do
  let excess ← remOf count blockSize
  pure (if excess = 0 then count else (count / blockSize + 1) * blockSize)

/-- Set the bytes `start .. stop` to zero; a range that is reversed or ends past the end panics. -/
def zeroPart (buf : Bytes) (start stop : Nat) : Fallible Bytes :=
  if start ≤ stop ∧ stop ≤ buf.length then .ok (overlay buf start (List.replicate (stop - start) 0))
  else .error .panic

/-- The loop of `write_iso_to_device`. -/
def writeIsoFrom (source : ByteSource) (buf : Bytes) (offset : Nat) : Effect RawDevice Unit :=
  match _filled : readFull source buf with
  | (n, buf', source') =>
    if n = 0 then pure ()
    else do
      let bs ← Effect.query fun device => .ok device.blockSize
      let aligned ← Effect.lift (alignedLen n bs)
      let buf' ← Effect.lift (if aligned > n then zeroPart buf' n aligned else pure buf')
      let part ← Effect.lift (partOf buf' 0 aligned)
      RawDevice.writeAt offset part
      if n < chunkSize then pure () else writeIsoFrom source' buf' (offset + n)
termination_by source.rest.length
decreasing_by
  obtain ⟨count, _, rest⟩ := readFull_spec source buf
  simp only [_filled] at count rest
  rw [rest, List.length_drop]
  omega

def writeIsoToDevice (source : ByteSource) : Effect RawDevice Unit :=
  writeIsoFrom source (List.replicate chunkSize 0) 0

/-- **The aligned count** is the next whole number of blocks. -/
theorem alignedLen_eq {count blockSize : Nat} (positive : 0 < blockSize) :
    alignedLen count blockSize = .ok (alignUp count blockSize) := by
  have divided : remOf count blockSize = .ok (count % blockSize) := if_neg (by omega)
  rw [alignedLen, Fallible.bind_of_ok divided]
  show Except.ok _ = _
  congr 1
  by_cases whole : count % blockSize = 0
  · rw [if_pos whole, alignUp_of_dvd positive (Nat.dvd_of_mod_eq_zero whole)]
  · obtain ⟨less, rfl⟩ : ∃ less, count = less + 1 := Nat.exists_eq_succ_of_ne_zero (by
      rintro rfl
      exact whole (Nat.zero_mod _))
    rw [if_neg whole, alignUp_succ _ positive, Nat.succ_div_of_not_dvd]
    rwa [Nat.dvd_iff_mod_eq_zero]

/-- **The bytes of a chunk that are written**: what was read, and zeros. What the buffer held before
behind the bytes that were read is not among them. -/
theorem zeroTail {buf : Bytes} {n aligned : Nat} (up : n ≤ aligned) (inside : aligned ≤ buf.length) :
    ∃ zeroed, (if aligned > n then zeroPart buf n aligned else pure buf : Fallible Bytes) = .ok zeroed ∧
      zeroed.length = buf.length ∧
      partOf zeroed 0 aligned = .ok (buf.take n ++ List.replicate (aligned - n) 0) := by
  have front : (buf.take n ++ List.replicate (aligned - n) 0).length = aligned := by
    rw [List.length_append, List.length_take, List.length_replicate]
    omega
  by_cases short : aligned > n
  · have length : (overlay buf n (List.replicate (aligned - n) 0)).length = buf.length :=
      overlay_length (by rw [List.length_replicate]; omega)
    refine ⟨overlay buf n (List.replicate (aligned - n) 0), ?_, length, ?_⟩
    · rw [if_pos short, zeroPart, if_pos ⟨up, inside⟩]
    · rw [partOf_zero (by omega), overlay, List.take_append_of_le_length front.ge,
        List.take_of_length_le front.le]
  · obtain rfl : aligned = n := by omega
    refine ⟨buf, if_neg short, rfl, ?_⟩
    rw [partOf_zero inside, Nat.sub_self, List.replicate_zero, List.append_nil]

/-- The device after bytes were streamed to it: as after one write of the bytes padded to whole blocks,
made by writes that the device takes. -/
structure Streamed (device : RawDevice) (offset : Nat) (bytes : Bytes) (device' : RawDevice) : Prop where
  image : device'.image = device.image.write offset (padded device.blockSize bytes)
  blockSize : device'.blockSize = device.blockSize
  writes : ∃ issued, device'.writes = device.writes ++ issued ∧ ∀ span ∈ issued, device.Takes span

section Stream

variable {device : RawDevice} {offset : Nat}

/-- Whole blocks that cover bytes inside the device are inside the device. -/
theorem takes_padded {bytes : Bytes} (positive : 0 < device.blockSize)
    (aligned : device.blockSize ∣ offset)
    (room : offset + bytes.length ≤ device.image.size) :
    device.Takes ⟨offset, (padded device.blockSize bytes).length⟩ := by
  have fits := alignUp_le positive room device.whole
  rw [alignUp_add _ positive aligned] at fits
  rw [padded_length positive]
  exact ⟨aligned, alignUp_dvd _ _, fits⟩

theorem streamed_nil (positive : 0 < device.blockSize) : Streamed device offset [] device := by
  refine ⟨?_, rfl, [], (List.append_nil _).symm, fun _ member => by cases member⟩
  rw [padded_nil positive, Image.write_nil]

/-- One write, and what is streamed after it. -/
theorem Streamed.step {front bytes : Bytes} {device' : RawDevice}
    (taken : device.Takes ⟨offset, front.length⟩)
    (rest : Streamed (device.written offset front taken) (offset + front.length) bytes device')
    (positive : 0 < device.blockSize) : Streamed device offset (front ++ bytes) device' := by
  have size : (device.written offset front taken).image.size = device.image.size :=
    Image.write_size_of_le _ _ _ taken.2.2
  refine ⟨?_, rest.blockSize, ?_⟩
  · rw [rest.image, padded_append positive taken.2.1, ← Image.write_write_append]
    rfl
  · obtain ⟨issued, same, takes⟩ := rest.writes
    refine ⟨⟨offset, front.length⟩ :: issued, ?_, ?_⟩
    · rw [same]
      exact List.append_assoc device.writes [_] issued
    · intro span member
      rcases List.mem_cons.mp member with rfl | later
      · exact taken
      · obtain ⟨start, count, stop⟩ := takes span later
        exact ⟨start, count, stop.trans_eq size⟩

/-- **The loop streams the source to the device**, from any buffer of the chunk size. -/
theorem writeIsoFrom_run (source : ByteSource) {buf : Bytes} (length : buf.length = chunkSize)
    (divides : device.blockSize ∣ chunkSize) (aligned : device.blockSize ∣ offset)
    (room : offset + source.rest.length ≤ device.image.size) :
    ∃ device', (writeIsoFrom source buf offset).run device = .ok () device' ∧
      Streamed device offset source.rest device' := by
  have positive : 0 < device.blockSize := Nat.pos_of_dvd_of_pos divides chunkSize_pos
  induction left : source.rest.length using Nat.strong_induction_on generalizing source buf offset device with
  | _ left ih =>
    subst left
    obtain ⟨count, _, after⟩ := readFull_spec source buf
    obtain ⟨kept, front⟩ := readFull_buf source buf
    rw [writeIsoFrom]
    split
    rename_i n buf' source' filled
    simp only [filled] at count after kept front
    rw [length] at count after kept front
    have whole := List.take_append_drop chunkSize source.rest
    rw [← after, ← front] at whole
    have taken : (buf'.take n).length = n := by
      rw [List.length_take]
      omega
    by_cases ended : n = 0
    · rw [if_pos ended]
      have empty : source.rest = [] := List.eq_nil_of_length_eq_zero (by have := chunkSize_pos; omega)
      rw [empty]
      exact ⟨device, rfl, streamed_nil positive⟩
    rw [if_neg ended]
    have up := le_alignUp n positive
    have below : alignUp n device.blockSize ≤ buf'.length :=
      alignUp_le positive (by omega) (kept ▸ divides)
    obtain ⟨zeroed, made, length', part⟩ := zeroTail up below
    have written : buf'.take n ++ List.replicate (alignUp n device.blockSize - n) 0
        = padded device.blockSize (buf'.take n) := by
      rw [padded, taken]
    rw [written] at part
    have takes : device.Takes ⟨offset, (padded device.blockSize (buf'.take n)).length⟩ :=
      takes_padded positive aligned (by omega)
    have lifted : ∀ {α : Type} {call : Fallible α} {value : α}, call = .ok value →
        (Effect.lift call : Effect RawDevice α).run device = .ok value device := fun returns =>
      (Effect.lift_eq_ok _ _ _ _).mpr ⟨returns, rfl⟩
    rw [Effect.query_bind (fun device : RawDevice => .ok device.blockSize) rfl,
      Effect.bind_of_ok (lifted (alignedLen_eq positive)), Effect.bind_of_ok (lifted made),
      Effect.bind_of_ok (lifted part), Effect.bind_of_ok (RawDevice.writeAt_of_takes takes)]
    by_cases last : n < chunkSize
    · -- the source is at its end
      have none : source'.rest = [] := by
        rw [after]
        exact List.drop_of_length_le (by omega)
      rw [if_pos last]
      rw [none, List.append_nil] at whole
      rw [← whole]
      exact ⟨_, rfl, rfl, rfl, [_], rfl, fun span member => List.mem_singleton.mp member ▸ takes⟩
    · obtain rfl : n = chunkSize := by omega
      rw [if_neg last]
      have exact' : padded device.blockSize (buf'.take chunkSize) = buf'.take chunkSize :=
        padded_of_dvd positive (taken.symm ▸ divides)
      have total := congrArg List.length whole
      rw [List.length_append] at total
      have size : (device.written offset _ takes).image.size = device.image.size :=
        Image.write_size_of_le _ _ _ takes.2.2
      have count' : (padded device.blockSize (buf'.take chunkSize)).length = chunkSize := by
        rw [exact', taken]
      have room' : offset + chunkSize + source'.rest.length ≤ (device.written offset _ takes).image.size := by
        omega
      have divides' : (device.written offset _ takes).blockSize ∣ chunkSize := divides
      obtain ⟨device', run, streamed⟩ := ih source'.rest.length (by have := chunkSize_pos; omega) source'
        (length'.trans kept) divides' (Nat.dvd_add aligned divides') room' positive rfl
      refine ⟨device', run, ?_⟩
      rw [← whole, ← exact']
      exact Streamed.step takes (count'.symm ▸ streamed) positive

end Stream

/-! ### The whole ISO -/

/-- What the device holds after a write: the ISO, zeros up to the end of its last block, and behind that
what it held before. -/
structure Written (device : RawDevice) (iso : Bytes) (device' : RawDevice) : Prop where
  size : device'.image.size = device.image.size
  stored : device'.image.slice 0 iso.length = iso
  padded : ∀ index, iso.length ≤ index → index < alignUp iso.length device.blockSize →
    device'.image.get index = 0
  kept : ∀ index, alignUp iso.length device.blockSize ≤ index →
    device'.image.get index = device.image.get index

/-- **One write of the padded ISO.** -/
theorem Streamed.written {device device' : RawDevice} {iso : Bytes} (positive : 0 < device.blockSize)
    (streamed : Streamed device 0 iso device') (room : iso.length ≤ device.image.size) :
    Written device iso device' := by
  have length : (Library.padded device.blockSize iso).length = _ := padded_length positive
  have up := le_alignUp iso.length positive
  have fits := alignUp_le positive room device.whole
  refine ⟨?_, ?_, fun index after before => ?_, fun index after => ?_⟩
  · rw [streamed.image, Image.write_size_of_le _ _ _ (by omega)]
  · have stored := Image.slice_write device.image 0 (Library.padded device.blockSize iso)
    have front := Image.slice_take device'.image 0 (Library.padded device.blockSize iso).length iso.length
      (by omega)
    rw [← front, streamed.image, stored, Library.padded, List.take_left]
  · have here := Image.write_get_inside device.image 0 (Library.padded device.blockSize iso) index (by omega)
    rw [Nat.zero_add] at here
    rw [streamed.image, here]
    simp only [Library.padded]
    rw [List.getElem_append_right after, List.getElem_replicate]
  · rw [streamed.image, Image.write_get_of_outside _ _ _ (by omega)]

/-- **The ISO is written, in whole blocks inside the device**: for every ISO, every way to split it into
short reads, every block size that divides 4 MiB and every device with room for the ISO. -/
theorem writeIsoToDevice_writes (source : ByteSource) (device : RawDevice)
    (divides : device.blockSize ∣ chunkSize) (room : source.rest.length ≤ device.image.size) :
    ∃ device' issued, (writeIsoToDevice source).run device = .ok () device' ∧
      device'.writes = device.writes ++ issued ∧
      (∀ span ∈ issued, device.blockSize ∣ span.start ∧ device.blockSize ∣ span.count ∧
        span.stop ≤ device.image.size) ∧
      Written device source.rest device' := by
  have positive : 0 < device.blockSize := Nat.pos_of_dvd_of_pos divides chunkSize_pos
  obtain ⟨device', run, streamed⟩ := writeIsoFrom_run source (List.length_replicate) divides
    (dvd_zero device.blockSize) (by rwa [Nat.zero_add])
  obtain ⟨issued, same, takes⟩ := streamed.writes
  exact ⟨device', issued, run, same, takes, streamed.written positive room⟩

/-- A device of two blocks of 512 bytes, all ones. -/
def sampleDevice : RawDevice where
  image := ⟨1024, fun index => if index < 1024 then 1 else 0, fun _ past => if_neg (by omega)⟩
  blockSize := 512
  whole := ⟨2, rfl⟩
  writes := []
  refusal _ := "Invalid argument (os error 22)"

/-- Three bytes, read one at a time, on a device of two blocks. -/
theorem writeIsoToDevice_writes_sample :
    ∃ device', (writeIsoToDevice ⟨[10, 20, 30], fun _ => 1, 0⟩).run sampleDevice = .ok () device' ∧
      device'.image.slice 0 3 = [10, 20, 30] ∧ device'.image.get 3 = 0 ∧ device'.image.get 511 = 0 ∧
      device'.image.get 512 = 1 := by
  obtain ⟨device', issued, run, _, _, written⟩ := writeIsoToDevice_writes ⟨[10, 20, 30], fun _ => 1, 0⟩
    sampleDevice (show 512 ∣ chunkSize by decide) (show 3 ≤ 1024 by decide)
  refine ⟨device', run, written.stored, written.padded 3 (by decide) (by decide),
    written.padded 511 (by decide) (by decide), written.kept 512 (by decide)⟩

end Bootsmith.Hybrid
