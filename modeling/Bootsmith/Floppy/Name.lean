/-
**Names in the root directory** (`ntxp_floppy.rs`).

A name is eleven bytes, the stem and the extension each padded with spaces. `dos83Name` makes one of a
file name; the first byte of such a name is never one of the marks of an unused slot (`Encoded.used`).
-/

import Bootsmith.Library.Ascii
import Bootsmith.Library.Fallible
import Bootsmith.Library.Utf8

namespace Bootsmith.Floppy

open Bootsmith.Library

/-- The eleven bytes of a name. -/
structure DosName where
  bytes : Bytes
  length : bytes.length = 11
  deriving DecidableEq

def validShortByte (byte : UInt8) : Bool :=
  (0x41 ≤ byte && byte ≤ 0x5a) || (0x30 ≤ byte && byte ≤ 0x39) ||
    (ascii "_-!#$%&'()@^`\x7b\x7d~").contains byte

/-- The bytes, padded with spaces to `count`. -/
def padded (count : Nat) (bytes : Bytes) : Bytes := (bytes ++ List.replicate count 0x20).take count

theorem padded_length (count : Nat) (bytes : Bytes) : (padded count bytes).length = count := by
  simp only [padded, List.length_take, List.length_append, List.length_replicate]
  omega

/-- The stem and the extension of a name in upper case. -/
def stemAndExt (upper : Text) : Text × Text := (rsplitOnce '.' upper).getD (upper, [])

def dos83Name (name : Text) : Fallible DosName :=
  let (stem, ext) := stemAndExt (upper name)
  if stem = [] ∨ 8 < (toUtf8 stem).length ∨ 3 < (toUtf8 ext).length then
    Fallible.bail s!"filename {repr (String.ofList name)} does not fit FAT 8.3"
  else if ¬ (toUtf8 stem).all validShortByte ∨ ¬ (toUtf8 ext).all validShortByte then
    Fallible.bail s!"filename {repr (String.ofList name)} contains invalid FAT 8.3 characters"
  else
    .ok ⟨padded 8 (toUtf8 stem) ++ padded 3 (toUtf8 ext), by
      rw [List.length_append, padded_length, padded_length]⟩

/-- The name as it is shown. -/
def formatDosName (name : DosName) : String :=
  let part (bytes : Bytes) (unknown : String) : Text :=
    trimEnd ((fromUtf8 bytes).getD unknown.toList)
  let stem := part (name.bytes.take 8) "????????"
  let ext := part (name.bytes.drop 8) "???"
  if ext = [] then String.ofList stem else s!"{String.ofList stem}.{String.ofList ext}"

def winntSifDosName : DosName := ⟨ascii "WINNT   SIF", by decide⟩

/-- The name is one that `dos83Name` makes. -/
def Encoded (name : DosName) : Prop := ∃ text, dos83Name text = .ok name

/-- The first byte of an encoded name is one of a file name. -/
theorem Encoded.validFirst {name : DosName} (encoded : Encoded name) :
    ∃ first rest, name.bytes = first :: rest ∧ validShortByte first = true := by
  obtain ⟨text, made⟩ := encoded
  unfold dos83Name at made
  split at made
  rename_i stem ext _
  split at made
  · cases made
  rename_i fits
  split at made
  · cases made
  rename_i valid
  have nonempty : toUtf8 stem ≠ [] := toUtf8_ne_nil fun empty => fits (Or.inl empty)
  obtain ⟨first, rest, shape⟩ := List.exists_cons_of_ne_nil nonempty
  have short : validShortByte first = true := by
    have all : (toUtf8 stem).all validShortByte = true := by
      by_contra bad
      exact valid (Or.inl bad)
    rw [shape, List.all_cons, Bool.and_eq_true] at all
    exact all.1
  obtain rfl := Except.ok.inj made
  refine ⟨first, (rest ++ List.replicate 8 0x20).take 7 ++ padded 3 (toUtf8 ext), ?_, short⟩
  show padded 8 (toUtf8 stem) ++ _ = _
  rw [shape]
  rfl

/-- **An encoded name marks a used slot**: its first byte is not `0x00` and not `0xe5`. -/
theorem Encoded.used {name : DosName} (encoded : Encoded name) :
    name.bytes.headD 0 ≠ 0 ∧ name.bytes.headD 0 ≠ 0xe5 := by
  obtain ⟨first, rest, shape, valid⟩ := encoded.validFirst
  rw [shape, List.headD_cons]
  constructor
  · rintro rfl
    exact absurd valid (by decide)
  · rintro rfl
    exact absurd valid (by decide)

end Bootsmith.Floppy
