/-
**A source of bytes that is read in pieces.**

A read into a buffer may return fewer bytes than there is room for, and returns none only at the end of
the source. How many it returns is up to the source, so what holds of every source holds of every way to
split it (`ByteSource.read_append`, `ByteSource.read_eq_nil`).
-/

import Bootsmith.Library.Buffer
import Bootsmith.Library.Packing

namespace Bootsmith.Library

/-- The bytes that are left to read, and how many bytes each read offers. -/
structure ByteSource where
  rest : Bytes
  offers : Nat → Nat
  reads : Nat

namespace ByteSource

variable (source : ByteSource) {room : Nat}

/-- Read into a buffer with room for some bytes. -/
def read (room : Nat) : Bytes × ByteSource :=
  let count := min room (max 1 (source.offers source.reads))
  (source.rest.take count,
    { source with rest := source.rest.drop count, reads := source.reads + 1 })

theorem read_append : (source.read room).1 ++ (source.read room).2.rest = source.rest :=
  List.take_append_drop _ _

theorem read_length_le : (source.read room).1.length ≤ room :=
  (List.length_take_le _ _).trans (Nat.min_le_left _ _)

/-- **Only the end of the source reads as nothing.** -/
theorem read_eq_nil (some : 0 < room) : (source.read room).1 = [] ↔ source.rest = [] := by
  have positive : min room (max 1 (source.offers source.reads)) ≠ 0 := by omega
  show source.rest.take _ = [] ↔ _
  rw [List.take_eq_nil_iff]
  exact or_iff_right positive

theorem read_length :
    (source.read room).1.length + (source.read room).2.rest.length = source.rest.length := by
  rw [← List.length_append, read_append]

end ByteSource

/-! ### Whole blocks -/

/-- Bytes followed by zeros up to the end of a block. -/
def padded (block : Nat) (bytes : Bytes) : Bytes :=
  bytes ++ List.replicate (alignUp bytes.length block - bytes.length) 0

section Padded

variable {block : Nat} {bytes : Bytes}

theorem padded_length (positive : 0 < block) :
    (padded block bytes).length = alignUp bytes.length block := by
  have up := le_alignUp bytes.length positive
  rw [padded, List.length_append, List.length_replicate]
  omega

theorem padded_nil (positive : 0 < block) : padded block [] = [] := by
  have length : (padded block []).length = _ := padded_length positive
  rw [List.length_nil, alignUp_of_dvd positive (dvd_zero block)] at length
  exact List.eq_nil_of_length_eq_zero length

/-- Whole blocks need no zeros. -/
theorem padded_of_dvd (positive : 0 < block) (whole : block ∣ bytes.length) :
    padded block bytes = bytes := by
  rw [padded, alignUp_of_dvd positive whole, Nat.sub_self, List.replicate_zero, List.append_nil]

/-- Whole blocks in front stay in front. -/
theorem padded_append {front : Bytes} (positive : 0 < block) (whole : block ∣ front.length) :
    padded block (front ++ bytes) = front ++ padded block bytes := by
  rw [padded, List.length_append, alignUp_add _ positive whole, Nat.add_sub_add_left, List.append_assoc]
  rfl

end Padded

end Bootsmith.Library
