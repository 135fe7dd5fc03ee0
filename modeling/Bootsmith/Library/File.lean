/-
**An open file**: the calls on a byte image that stand for `read_exact`, `write_all`, `set_len` and
`metadata().len()`, each at an explicit offset.

A read past the end fails; a write always succeeds and grows the file where it has to. Several
writes to disjoint ranges are one scattered write (`Image.scatter`).
-/

import Bootsmith.Library.Fallible
import Bootsmith.Library.Image

namespace Bootsmith.Library

/-- Read exactly `count` bytes from `start` on. -/
def readExact (image : Image) (start count : Nat) : Fallible Bytes :=
  if count = 0 ∨ start + count ≤ image.size then .ok (image.slice start count)
  else Fallible.bail "failed to fill whole buffer"

theorem readExact_eq_ok {image : Image} {start count : Nat} {bytes : Bytes} :
    readExact image start count = .ok bytes ↔
      (count = 0 ∨ start + count ≤ image.size) ∧ image.slice start count = bytes := by
  unfold readExact
  split <;> rename_i inside
  · simp [inside]
  · simp [inside]

theorem readExact_of_le {image : Image} {start count : Nat} (inside : start + count ≤ image.size) :
    readExact image start count = .ok (image.slice start count) :=
  if_pos (Or.inr inside)

/-- Write all of `bytes` from `start` on. -/
def writeAll (start : Nat) (bytes : Bytes) : Effect Image Unit :=
  Effect.update fun image => image.write start bytes

/-- The current length of the file. -/
def fileLen : Effect Image Nat := Effect.query fun image => .ok image.size

/-- Write `remaining` zero bytes from `start` on, a buffer of 4096 at a time. -/
def writeZeroes (start remaining : Nat) : Effect Image Unit :=
  if remaining = 0 then pure ()
  else do
    let count := min remaining 4096
    writeAll start (List.replicate count 0)
    writeZeroes (start + count) (remaining - count)
termination_by remaining
decreasing_by omega

@[simp] theorem writeAll_eq_ok (start : Nat) (bytes : Bytes) (image image' : Image) (value : Unit) :
    (writeAll start bytes).run image = .ok value image' ↔ image.write start bytes = image' :=
  Effect.update_eq_ok _ _ _ _

@[simp] theorem fileLen_eq_ok (image image' : Image) (length : Nat) :
    fileLen.run image = .ok length image' ↔ image.size = length ∧ image = image' := by
  simp [fileLen]

theorem fileLen_bind {β : Type} (next : Nat → Effect Image β) (image : Image) :
    (fileLen >>= next).run image = (next image.size).run image := by
  let length := fun image : Image => (.ok image.size : Fallible Nat)
  have answer : length image = .ok image.size := rfl
  exact Effect.query_bind length answer next

/-- **The chunked zero write is one write.** -/
@[simp] theorem writeZeroes_eq_ok (start remaining : Nat) (image image' : Image) (value : Unit) :
    (writeZeroes start remaining).run image = .ok value image' ↔
      image.write start (List.replicate remaining 0) = image' := by
  induction remaining using Nat.strong_induction_on generalizing start image with
  | _ remaining ih =>
    unfold writeZeroes
    by_cases none : remaining = 0
    · simp [none, Image.write_nil]
    · rw [if_neg none]
      simp only [Effect.bind_eq_ok, writeAll_eq_ok, exists_eq_left', exists_const]
      rw [ih (remaining - min remaining 4096) (by omega)]
      have chunk := image.write_write_append start (List.replicate (min remaining 4096) 0)
        (List.replicate (remaining - min remaining 4096) 0)
      rw [List.length_replicate, List.replicate_append_replicate,
        Nat.add_sub_of_le (Nat.min_le_left _ _)] at chunk
      rw [chunk]

namespace Image

/-- Write each entry at its start. -/
def scatter (image : Image) (entries : List (Nat × Bytes)) : Image :=
  entries.foldl (fun image entry => image.write entry.1 entry.2) image

theorem scatter_get_of_outside (image : Image) (entries : List (Nat × Bytes)) {index : Nat}
    (outside : ∀ entry ∈ entries, ¬ (⟨entry.1, entry.2.length⟩ : Span).Holds index) :
    (image.scatter entries).get index = image.get index := by
  induction entries generalizing image with
  | nil => rfl
  | cons entry rest ih =>
    exact (ih _ fun other inside => outside other (List.mem_cons_of_mem _ inside)).trans
      (write_get_of_not_holds _ _ _ (outside entry List.mem_cons_self))

theorem scatter_size (image : Image) (entries : List (Nat × Bytes))
    (fits : ∀ entry ∈ entries, entry.1 + entry.2.length ≤ image.size) :
    (image.scatter entries).size = image.size := by
  induction entries generalizing image with
  | nil => rfl
  | cons entry rest ih =>
    have same := write_size_of_le image entry.1 entry.2 (fits entry List.mem_cons_self)
    refine (ih _ fun other inside => ?_).trans same
    rw [same]
    exact fits other (List.mem_cons_of_mem _ inside)

/-- **Each entry of a scattered write to disjoint ranges reads back.** -/
theorem slice_scatter (image : Image) (entries : List (Nat × Bytes))
    (disjoint : entries.Pairwise fun first second => first.1 + first.2.length ≤ second.1)
    {entry : Nat × Bytes} (member : entry ∈ entries) :
    (image.scatter entries).slice entry.1 entry.2.length = entry.2 := by
  induction entries generalizing image with
  | nil => cases member
  | cons head rest ih =>
    obtain ⟨before, restDisjoint⟩ := List.pairwise_cons.mp disjoint
    rcases List.mem_cons.mp member with rfl | inRest
    · refine Eq.trans (slice_congr fun index _ upper => ?_) (slice_write image entry.1 entry.2)
      show ((image.write entry.1 entry.2).scatter rest).get index = _
      refine scatter_get_of_outside _ _ fun other inside => ?_
      have later := before other inside
      simp only [Span.Holds, Span.stop]
      omega
    · exact ih _ restDisjoint inRest

end Image

end Bootsmith.Library
