/-
**A buffer in memory**: indexing and slicing of a mutable byte slice.

An index or a range that is not inside the buffer panics. A write is a copy of bytes into a range; it
never changes the length (`copyInto_eq_ok`), and copies one inside the other are one copy
(`Image.write_write_inside`).
-/

import Bootsmith.Library.Fallible
import Bootsmith.Library.Image

namespace Bootsmith.Library

/-- The byte at an index. -/
def byteAt (image : Image) (index : Nat) : Fallible UInt8 :=
  if index < image.size then .ok (image.get index) else .error .panic

/-- The bytes of a range. -/
def rangeAt (image : Image) (start count : Nat) : Fallible Bytes :=
  if start + count ≤ image.size then .ok (image.slice start count) else .error .panic

/-- Copy bytes into the range from `start` on. -/
def copyInto (start : Nat) (bytes : Bytes) : Effect Image Unit := do
  Effect.query fun image =>
    if start + bytes.length ≤ image.size then .ok () else .error .panic
  Effect.update fun image => image.write start bytes

/-- Set the byte at an index. -/
def setByte (index : Nat) (byte : UInt8) : Effect Image Unit := copyInto index [byte]

/-- Fill a range with one byte. -/
def fillRange (start count : Nat) (byte : UInt8) : Effect Image Unit :=
  copyInto start (List.replicate count byte)

theorem byteAt_of_lt {image : Image} {index : Nat} (inside : index < image.size) :
    byteAt image index = .ok (image.get index) :=
  if_pos inside

theorem rangeAt_of_le {image : Image} {start count : Nat} (inside : start + count ≤ image.size) :
    rangeAt image start count = .ok (image.slice start count) :=
  if_pos inside

@[simp] theorem copyInto_eq_ok (start : Nat) (bytes : Bytes) (image image' : Image) (value : Unit) :
    (copyInto start bytes).run image = .ok value image' ↔
      start + bytes.length ≤ image.size ∧ image.write start bytes = image' := by
  unfold copyInto
  rw [Effect.bind_eq_ok]
  constructor
  · rintro ⟨_, _, asked, updated⟩
    obtain ⟨answer, rfl⟩ := (Effect.query_eq_ok _ _ _ _).mp asked
    split at answer
    · rename_i inside
      exact ⟨inside, (Effect.update_eq_ok _ _ _ _).mp updated⟩
    · cases answer
  · rintro ⟨inside, same⟩
    exact ⟨(), image, (Effect.query_eq_ok _ _ _ _).mpr ⟨if_pos inside, rfl⟩,
      (Effect.update_eq_ok _ _ _ _).mpr same⟩

@[simp] theorem setByte_eq_ok (index : Nat) (byte : UInt8) (image image' : Image) (value : Unit) :
    (setByte index byte).run image = .ok value image' ↔
      index < image.size ∧ image.write index [byte] = image' :=
  copyInto_eq_ok _ _ _ _ _

@[simp] theorem fillRange_eq_ok (start count : Nat) (byte : UInt8) (image image' : Image)
    (value : Unit) :
    (fillRange start count byte).run image = .ok value image' ↔
      start + count ≤ image.size ∧ image.write start (List.replicate count byte) = image' := by
  unfold fillRange
  rw [copyInto_eq_ok, List.length_replicate]

/-- `inner` copied over `outer` from `offset` on. -/
def overlay (outer : Bytes) (offset : Nat) (inner : Bytes) : Bytes :=
  outer.take offset ++ inner ++ outer.drop (offset + inner.length)

theorem overlay_length {outer : Bytes} {offset : Nat} {inner : Bytes}
    (within : offset + inner.length ≤ outer.length) :
    (overlay outer offset inner).length = outer.length := by
  simp only [overlay, List.length_append, List.length_take, List.length_drop]
  omega

theorem overlay_nil (outer : Bytes) (offset : Nat) : overlay outer offset [] = outer := by
  rw [overlay, List.append_nil, List.length_nil, Nat.add_zero, List.take_append_drop]

theorem overlay_zero (outer inner : Bytes) :
    overlay outer 0 inner = inner ++ outer.drop inner.length := by
  rw [overlay, List.take_zero, List.nil_append, Nat.zero_add]

/-- An overlay of the whole length replaces everything. -/
theorem overlay_all {outer inner : Bytes} (whole : inner.length = outer.length) :
    overlay outer 0 inner = inner := by
  rw [overlay_zero, whole, List.drop_length, List.append_nil]

/-- The bytes of an overlay are those of `inner` inside its range and those of `outer` elsewhere. -/
theorem overlay_getElem? {outer : Bytes} {offset : Nat} {inner : Bytes} (index : Nat)
    (within : offset + inner.length ≤ outer.length) :
    (overlay outer offset inner)[index]?
      = if offset ≤ index ∧ index < offset + inner.length then inner[index - offset]?
        else outer[index]? := by
  have start : (outer.take offset).length = offset := by
    rw [List.length_take]
    omega
  rw [overlay, List.append_assoc, List.getElem?_append, start]
  by_cases before : index < offset
  · rw [if_pos before, if_neg (by omega), List.getElem?_take, if_pos before]
  · rw [if_neg before, List.getElem?_append]
    by_cases inside : index - offset < inner.length
    · rw [if_pos inside, if_pos (by omega)]
    · rw [if_neg inside, if_neg (by omega), List.getElem?_drop]
      congr 1
      omega

namespace Image

theorem write_get (image : Image) (start : Nat) (bytes : Bytes) (index : Nat) :
    (image.write start bytes).get index
      = if start ≤ index ∧ index < start + bytes.length then bytes.getD (index - start) 0
        else image.get index := rfl

/-- **A write inside the range just written** is part of that write. -/
theorem write_write_inside (image : Image) (start : Nat) {outer : Bytes} {offset : Nat}
    {inner : Bytes} (within : offset + inner.length ≤ outer.length) :
    (image.write start outer).write (start + offset) inner
      = image.write start (overlay outer offset inner) := by
  by_cases none : inner = []
  · rw [none, overlay_nil, write_nil]
  have filled := List.length_pos_of_ne_nil none
  have length := overlay_length within
  have outerFilled : outer ≠ [] := List.ne_nil_of_length_pos (by omega)
  have overlayFilled : overlay outer offset inner ≠ [] := List.ne_nil_of_length_pos (by omega)
  refine Image.ext ?_ (funext fun index => ?_)
  · rw [write_size_of_ne_nil _ _ none, write_size_of_ne_nil _ _ outerFilled,
      write_size_of_ne_nil _ _ overlayFilled, length]
    omega
  · rw [write_get, write_get, write_get, length, List.getD_eq_getElem?_getD,
      List.getD_eq_getElem?_getD, List.getD_eq_getElem?_getD, overlay_getElem? _ within]
    by_cases inside : start + offset ≤ index ∧ index < start + offset + inner.length
    · rw [if_pos inside, if_pos (by omega), if_pos (by omega), Nat.sub_add_eq]
    · rw [if_neg inside]
      by_cases inOuter : start ≤ index ∧ index < start + outer.length
      · rw [if_pos inOuter, if_pos inOuter, if_neg (by omega)]
      · rw [if_neg inOuter, if_neg inOuter]

end Image

end Bootsmith.Library
