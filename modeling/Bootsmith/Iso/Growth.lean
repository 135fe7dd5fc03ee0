/-
**How long calls make an image** (`ntxp_iso.rs`).

`write_file_contents_at_end` puts contents behind the last sector and sets the length, so each call that
succeeds, also a replacement, makes the image longer by its contents rounded up to whole sectors
(`Call.run_size`). The records of the directories play no part in this, so it holds for every image.
-/

import Bootsmith.Iso.Run

namespace Bootsmith.Iso

open Bootsmith.Library

/-! ### Rounding up -/

/-- A length rounded up to whole sectors. -/
def toSectors (length : Nat) : Nat := alignUp length sectorSize

theorem le_toSectors (length : Nat) : length ≤ toSectors length := le_alignUp length sectorSize_pos

@[simp] theorem toSectors_toSectors (length : Nat) : toSectors (toSectors length) = toSectors length :=
  alignUp_of_dvd sectorSize_pos (alignUp_dvd _ _)

theorem toSectors_add (first second : Nat) :
    toSectors (toSectors first + second) = toSectors first + toSectors second :=
  alignUp_add second sectorSize_pos (alignUp_dvd _ _)

/-! ### One call -/

section OneCall

variable {image middle image' : Image} {value : Unit} {fileName contents : Bytes}

/-- Contents written at the end of an image that has not shrunk since its end was asked for. -/
theorem size_of_writeFileContentsAtEnd (large : (pvdLba + 1) * sectorSize ≤ image.size)
    (longer : image.size ≤ middle.size)
    (run : (writeFileContentsAtEnd (alignUp image.size sectorSize / sectorSize) contents).run middle
      = .ok value image') :
    image'.size = toSectors image.size + toSectors contents.length := by
  obtain ⟨past, _, rfl⟩ := writeFileContentsAtEnd_eq_ok.mp run
  rw [endImage_size (large.trans longer) past, finalLen,
    Nat.div_mul_cancel (alignUp_dvd image.size sectorSize)]
  exact toSectors_add _ _

theorem large_of_openIsoRw (opened : openIsoRw image = .ok ()) :
    (pvdLba + 1) * sectorSize ≤ image.size := by
  unfold openIsoRw at opened
  rw [Fallible.guard_eq_ok] at opened
  exact not_lt.mp opened.1

/-- Writes do not make an image shorter. -/
theorem size_le_of_rewrite {dirStart allocated stop : Nat} {records : List DirectoryRecord} {raw : Bytes}
    (run : (rewriteDirectoryWithAddedRecord dirStart allocated records raw).run image = .ok stop middle) :
    image.size ≤ middle.size := by
  obtain ⟨materialized, _, asked, run⟩ := (Effect.bind_eq_ok _ _ _ _ _).mp run
  obtain ⟨_, rfl⟩ := (Effect.query_eq_ok _ _ _ _).mp asked
  obtain ⟨packed, _, run⟩ := (Effect.lift_bind_eq_ok _ _ _ _ _).mp run
  obtain ⟨_, written, wrote, done⟩ := (Effect.bind_eq_ok _ _ _ _ _).mp run
  obtain ⟨_, rfl⟩ := (Effect.pure_eq_ok _ _ _ _).mp done
  obtain rfl := (writeAll_eq_ok _ _ _ _ _).mp wrote
  exact Image.size_le_write _ _ _

theorem appendFileToI386_size (run : (appendFileToI386 fileName contents).run image = .ok value image') :
    image'.size = toSectors image.size + toSectors contents.length := by
  obtain ⟨_, _, asked, run⟩ := (Effect.bind_eq_ok _ _ _ _ _).mp run
  obtain ⟨opened, rfl⟩ := (Effect.query_eq_ok _ _ _ _).mp asked
  unfold appendFileIntoI386 appendFileInto at run
  split at run
  · exact ((Effect.bail_ne_ok _ _ _ _).mp run).elim
  obtain ⟨directory, _, asked, run⟩ := (Effect.bind_eq_ok _ _ _ _ _).mp run
  obtain ⟨_, rfl⟩ := (Effect.query_eq_ok _ _ _ _).mp asked
  obtain ⟨records, _, asked, run⟩ := (Effect.bind_eq_ok _ _ _ _ _).mp run
  obtain ⟨_, rfl⟩ := (Effect.query_eq_ok _ _ _ _).mp asked
  split at run
  · exact ((Effect.bail_ne_ok _ _ _ _).mp run).elim
  simp only [fileLen_bind, Effect.lift_bind_eq_ok, Fallible.context_eq_ok, tryFrom_eq_ok, and_assoc] at run
  obtain ⟨_, _, rfl, _, _, rfl, record, _, run⟩ := run
  obtain ⟨stop, rewritten, rewrote, run⟩ := (Effect.bind_eq_ok _ _ _ _ _).mp run
  simp only [Effect.lift_bind_eq_ok, Fallible.context_eq_ok, tryFrom_eq_ok, and_assoc] at run
  obtain ⟨_, _, rfl, run⟩ := run
  simp only [Effect.bind_eq_ok, write733At, writeAll_eq_ok, exists_eq_left', exists_const] at run
  refine size_of_writeFileContentsAtEnd (large_of_openIsoRw opened) ?_ run
  exact (size_le_of_rewrite rewrote).trans
    ((Image.size_le_write _ _ _).trans (Image.size_le_write _ _ _))

theorem replaceFileInI386_size (run : (replaceFileInI386 fileName contents).run image = .ok value image') :
    image'.size = toSectors image.size + toSectors contents.length := by
  obtain ⟨_, _, asked, run⟩ := (Effect.bind_eq_ok _ _ _ _ _).mp run
  obtain ⟨opened, rfl⟩ := (Effect.query_eq_ok _ _ _ _).mp asked
  unfold replaceFileIntoI386 at run
  split at run
  · exact ((Effect.bail_ne_ok _ _ _ _).mp run).elim
  obtain ⟨directory, _, asked, run⟩ := (Effect.bind_eq_ok _ _ _ _ _).mp run
  obtain ⟨_, rfl⟩ := (Effect.query_eq_ok _ _ _ _).mp asked
  obtain ⟨records, _, asked, run⟩ := (Effect.bind_eq_ok _ _ _ _ _).mp run
  obtain ⟨_, rfl⟩ := (Effect.query_eq_ok _ _ _ _).mp asked
  simp only [fileLen_bind, Effect.lift_bind_eq_ok, Fallible.context_eq_ok, tryFrom_eq_ok, and_assoc] at run
  obtain ⟨existing, _, _, _, rfl, _, _, rfl, run⟩ := run
  simp only [Effect.bind_eq_ok, write733At, writeAll_eq_ok, exists_eq_left', exists_const] at run
  exact size_of_writeFileContentsAtEnd (large_of_openIsoRw opened)
    ((Image.size_le_write _ _ _).trans (Image.size_le_write _ _ _)) run

/-- **A call makes the image longer by its contents**, rounded up to whole sectors. -/
theorem Call.run_size {call : Call} (run : call.run.run image = .ok value image') :
    image'.size = toSectors image.size + toSectors call.contents.length := by
  cases call with
  | append fileName contents => exact appendFileToI386_size run
  | replace fileName contents => exact replaceFileInI386_size run
  | inject contents =>
    change (injectWinntSif contents).run image = _ at run
    unfold injectWinntSif at run
    split at run
    · exact ((Effect.bail_ne_ok _ _ _ _).mp run).elim
    · exact appendFileToI386_size run

end OneCall

/-! ### A run of calls -/

theorem runCalls_append (first second : List Call) (image image' : Image) :
    (runCalls (first ++ second)).run image = .ok () image' ↔
      ∃ middle, (runCalls first).run image = .ok () middle ∧ (runCalls second).run middle = .ok () image' := by
  induction first generalizing image with
  | nil =>
    constructor
    · exact fun run => ⟨image, rfl, run⟩
    · rintro ⟨_, start, run⟩
      obtain ⟨_, rfl⟩ := (Effect.pure_eq_ok _ _ _ _).mp start
      exact run
  | cons call rest ih =>
    rw [List.cons_append, runCalls_cons]
    simp only [ih, runCalls_cons]
    constructor
    · rintro ⟨between, one, middle, others, run⟩
      exact ⟨middle, ⟨between, one, others⟩, run⟩
    · rintro ⟨middle, ⟨between, one, others⟩, run⟩
      exact ⟨between, one, middle, others, run⟩

/-- The bytes that contents take, each rounded up to whole sectors. -/
def sectorsOf (contents : List Bytes) : Nat := (contents.map fun one => toSectors one.length).sum

@[simp] theorem sectorsOf_nil : sectorsOf [] = 0 := rfl

@[simp] theorem sectorsOf_cons (one : Bytes) (contents : List Bytes) :
    sectorsOf (one :: contents) = toSectors one.length + sectorsOf contents := by
  rw [sectorsOf, List.map_cons, List.sum_cons, sectorsOf]

@[simp] theorem sectorsOf_append (first second : List Bytes) :
    sectorsOf (first ++ second) = sectorsOf first + sectorsOf second := by
  rw [sectorsOf, List.map_append, List.sum_append, sectorsOf, sectorsOf]

/-- **The sectors of an image after a run of calls**: what it had, and what each call wrote. -/
theorem runCalls_size {calls : List Call} {image image' : Image}
    (run : (runCalls calls).run image = .ok () image') :
    toSectors image'.size = toSectors image.size + sectorsOf (calls.map Call.contents) := by
  induction calls generalizing image with
  | nil =>
    obtain ⟨_, rfl⟩ := (Effect.pure_eq_ok _ _ _ _).mp run
    rw [List.map_nil, sectorsOf_nil, Nat.add_zero]
  | cons call rest ih =>
    obtain ⟨middle, one, others⟩ := (runCalls_cons _ _ _ _ _).mp run
    rw [ih others, Call.run_size one, toSectors_add, toSectors_toSectors, Nat.add_assoc, List.map_cons,
      sectorsOf_cons]

end Bootsmith.Iso
