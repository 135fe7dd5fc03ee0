/-
**The ISO9660 reader of the classifier** (`bootsmith-iso/src/lib.rs`).

`walkDir` reads a directory and visits its records; every index and slice is one that could panic. None
does: a directory's bytes are a list of entries (`entriesFrom`, `walkRecords_eq`), so the reader is a
walk through directories whose bytes can be read (`walkDir_eq`).

`toUppercase` maps ASCII letters to their upper case; what it maps other characters to is a table that
the reader takes as a parameter.
-/

import Bootsmith.Library.Checked
import Bootsmith.Library.File
import Bootsmith.Library.Utf8
import Bootsmith.Library.Walk
import Bootsmith.Core.Plan

namespace Bootsmith.Inspect

open Bootsmith.Library

def sectorSize : Nat := 2048

def pvdSector : Nat := 16

def isoId : Bytes := [67, 68, 48, 48, 49]

def maxDirDepth : Nat := 8

structure DirRef where
  extent : Nat
  len : Nat
  deriving DecidableEq, Repr

structure DirRecord where
  dirRef : DirRef
  isDir : Bool
  name : Text
  deriving DecidableEq, Repr

/-- The names of the records for the directory itself and its parent. -/
def dotName : Text := [Char.ofNat 0]

def dotDotName : Text := [Char.ofNat 1]

/-! ### The functions -/

section Functions

variable (beyond : Char → Text)

/-- The upper case of a text, character by character; `beyond` has the characters beyond ASCII. -/
def toUppercase (s : Text) : Text :=
  s.flatMap fun char => if char.val < 128 then [char.toUpper] else beyond char

def normalizeIsoName (raw : Bytes) : Text :=
  if raw = [0] then dotName
  else if raw = [1] then dotDotName
  else
    let s := toUppercase beyond (lossyChars raw.length raw)
    let s :=
      match splitOnce ';' s with
      | some (base, _) => base
      | none => s
    s.rdropWhile fun char => char = '.'

def parseDirRecord (bytes : Bytes) : Fallible (Option DirRecord) :=
  if bytes.length < 34 then pure none
  else do
    let lenByte ← byteOf bytes 0
    if bytes.length < lenByte.toNat then pure none
    else do
      let nameLen ← byteOf bytes 32
      if bytes.length < 33 + nameLen.toNat then pure none
      else do
        let extent ← leOf bytes 2 6
        let len ← leOf bytes 10 14
        let flags ← byteOf bytes 25
        let rawName ← partOf bytes 33 (33 + nameLen.toNat)
        pure (some ⟨⟨extent, len⟩, flags &&& (0x02 : UInt8) ≠ 0, normalizeIsoName beyond rawName⟩)

/-- An error of the operating system, as the reader reports it. -/
def ioError {α : Type} : Fallible α → Fallible α
  | .error (.error chain) => .error (.error (("I/O: " ++ chain.headD "") :: chain))
  | .error .panic => .error .panic
  | .ok value => .ok value

def readExtent (image : Image) (dir : DirRef) : Fallible Bytes :=
  ioError (readExact image (dir.extent * sectorSize) dir.len)

/-- Visit one record of a directory. -/
def visitRecord (visit : DirRef → Text → Finset Text → Fallible (Finset Text)) (pre : Text)
    (out : Finset Text) : Option DirRecord → Fallible (Finset Text)
  | none => pure out
  | some record =>
    if record.name ≠ dotName ∧ record.name ≠ dotDotName then
      let path := joinPath pre record.name
      let out := insert path out
      if record.isDir then visit record.dirRef path out else pure out
    else pure out

/-- The loop over the bytes of a directory, from `offset` on. -/
def walkRecords (visit : DirRef → Text → Finset Text → Fallible (Finset Text)) (pre : Text)
    (bytes : Bytes) (offset : Nat) (out : Finset Text) : Fallible (Finset Text) :=
  if offset < bytes.length then do
    let len ← byteOf bytes offset
    if zero : len = 0 then
      -- the rest of this sector is filler
      walkRecords visit pre bytes ((offset / sectorSize + 1) * sectorSize) out
    else if bytes.length < offset + len.toNat then pure out
    else do
      let part ← partOf bytes offset (offset + len.toNat)
      let record ← parseDirRecord beyond part
      let out ← visitRecord visit pre out record
      walkRecords visit pre bytes (offset + len.toNat) out
  else pure out
termination_by bytes.length - offset
decreasing_by
  · have next : offset < (offset / sectorSize + 1) * sectorSize := Nat.lt_mul_of_div_lt
      (Nat.lt_succ_self _) (by decide)
    omega
  · have : len.toNat ≠ 0 := fun none => zero (UInt8.toNat_inj.mp none)
    omega

/-- The walk, where `levels` more levels are read. -/
def walkLevels (image : Image) : Nat → DirRef → Text → Finset Text → Fallible (Finset Text)
  | 0, _, _, out => pure out
  | levels + 1, dir, pre, out => do
    let bytes ← readExtent image dir
    walkRecords beyond (walkLevels image levels) pre bytes 0 out

/-- Directories deeper than `maxDirDepth` are not read. -/
def walkDir (image : Image) (dir : DirRef) (pre : Text) (depth : Nat) (out : Finset Text) :
    Fallible (Finset Text) :=
  walkLevels beyond image (maxDirDepth + 1 - depth) dir pre out

/-- The root of a volume that is opened. -/
def openIso (image : Image) : Fallible DirRef := do
  let pvd ← ioError (readExact image (pvdSector * sectorSize) sectorSize)
  let kind ← byteOf pvd 0
  let id ← partOf pvd 1 6
  if kind ≠ 1 ∨ id ≠ isoId then
    Fallible.bail "not a valid ISO9660 image: missing primary volume descriptor"
  else do
    let rest ← partOf pvd 156 pvd.length
    let record ← parseDirRecord beyond rest
    let root ← Fallible.okOr "not a valid ISO9660 image: missing root directory record" record
    pure root.dirRef

/-- The paths of a volume that is opened: `IsoReader::open` and `collect_paths`. -/
def collectPaths (image : Image) : Fallible (Finset Text) := do
  let root ← openIso beyond image
  walkDir beyond image root [] 0 ∅

end Functions

/-! ### The entries of a directory -/

/-- The bytes of a record that is read: its name fits. -/
structure DirBytes (raw : Bytes) : Prop where
  minimum : 34 ≤ raw.length
  lenFits : (raw.getD 0 0).toNat ≤ raw.length
  nameFits : 33 + (raw.getD 32 0).toNat ≤ raw.length

instance (raw : Bytes) : Decidable (DirBytes raw) :=
  decidable_of_iff (34 ≤ raw.length ∧ (raw.getD 0 0).toNat ≤ raw.length ∧
      33 + (raw.getD 32 0).toNat ≤ raw.length)
    ⟨fun ⟨minimum, lenFits, nameFits⟩ => ⟨minimum, lenFits, nameFits⟩,
      fun ⟨minimum, lenFits, nameFits⟩ => ⟨minimum, lenFits, nameFits⟩⟩

/-- The name of a record as it is stored. -/
def rawName (raw : Bytes) : Bytes := subrange raw 33 (33 + (raw.getD 32 0).toNat)

def isDirectory (raw : Bytes) : Bool := raw.getD 25 0 &&& (0x02 : UInt8) ≠ 0

/-- Where a record's directory lies. -/
def dirRefOf (raw : Bytes) : DirRef := ⟨leNat (subrange raw 2 6), leNat (subrange raw 10 14)⟩

section Entries

variable (beyond : Char → Text)

/-- The entry of a record; the records of the directory itself and of its parent are none. -/
def entryOf (raw : Bytes) : Option (Text × Option DirRef) :=
  if DirBytes raw ∧ normalizeIsoName beyond (rawName raw) ≠ dotName ∧
      normalizeIsoName beyond (rawName raw) ≠ dotDotName then
    some (normalizeIsoName beyond (rawName raw),
      if isDirectory raw then some (dirRefOf raw) else none)
  else none

/-- The entries of a directory from `offset` on. -/
def entriesFrom (bytes : Bytes) (offset : Nat) : List (Text × Option DirRef) :=
  if offset < bytes.length then
    if zero : bytes.getD offset 0 = 0 then
      entriesFrom bytes ((offset / sectorSize + 1) * sectorSize)
    else if bytes.length < offset + (bytes.getD offset 0).toNat then []
    else
      (entryOf beyond (subrange bytes offset (offset + (bytes.getD offset 0).toNat))).toList
        ++ entriesFrom bytes (offset + (bytes.getD offset 0).toNat)
  else []
termination_by bytes.length - offset
decreasing_by
  · have next : offset < (offset / sectorSize + 1) * sectorSize := Nat.lt_mul_of_div_lt
      (Nat.lt_succ_self _) (by decide)
    omega
  · have : (bytes.getD offset 0).toNat ≠ 0 := fun none => zero (UInt8.toNat_inj.mp none)
    omega

/-- The entries of a directory of an image. -/
def isoEntries (image : Image) (dir : DirRef) : Fallible (List (Text × Option DirRef)) := do
  let bytes ← readExtent image dir
  pure (entriesFrom beyond bytes 0)

variable {beyond}

theorem parseDirRecord_eq (raw : Bytes) : parseDirRecord beyond raw
    = .ok (if DirBytes raw then
        some ⟨dirRefOf raw, isDirectory raw, normalizeIsoName beyond (rawName raw)⟩
      else none) := by
  unfold parseDirRecord
  split
  · rename_i short
    rw [if_neg fun valid => absurd valid.minimum (by omega)]
    rfl
  rename_i long
  rw [byteOf_of_lt (by omega)]
  show (if _ then _ else _) = _
  split
  · rename_i short
    rw [if_neg fun valid => absurd valid.lenFits (by omega)]
    rfl
  rename_i lenFits
  rw [byteOf_of_lt (by omega)]
  show (if _ then _ else _) = _
  split
  · rename_i short
    rw [if_neg fun valid => absurd valid.nameFits (by omega)]
    rfl
  rename_i nameFits
  rw [leOf_of_le (by decide) (by omega), leOf_of_le (by decide) (by omega), byteOf_of_lt (by omega),
    partOf_of_le (by omega) (by omega), if_pos ⟨by omega, by omega, by omega⟩]
  rfl

theorem visitRecord_eq (visit : DirRef → Text → Finset Text → Fallible (Finset Text)) (pre : Text)
    (out : Finset Text) (raw : Bytes) :
    (parseDirRecord beyond raw >>= visitRecord visit pre out)
      = visitEntries visit pre (entryOf beyond raw).toList out := by
  rw [parseDirRecord_eq]
  show visitRecord visit pre out _ = _
  unfold entryOf
  by_cases valid : DirBytes raw
  · rw [if_pos valid]
    show (if normalizeIsoName beyond (rawName raw) ≠ dotName ∧
      normalizeIsoName beyond (rawName raw) ≠ dotDotName then _ else _) = _
    by_cases visible : normalizeIsoName beyond (rawName raw) ≠ dotName ∧
        normalizeIsoName beyond (rawName raw) ≠ dotDotName
    · have listed := And.intro valid visible
      rw [if_pos visible, if_pos listed]
      cases directory : isDirectory raw with
      | false => rfl
      | true => exact (bind_pure _).symm
    · rw [if_neg visible, if_neg fun both => visible both.2]
      rfl
  · rw [if_neg valid, if_neg fun both => valid both.1]
    rfl

/-- **The loop over the bytes of a directory visits its entries.** -/
theorem walkRecords_eq (visit : DirRef → Text → Finset Text → Fallible (Finset Text)) (pre : Text)
    (bytes : Bytes) (offset : Nat) (out : Finset Text) :
    walkRecords beyond visit pre bytes offset out
      = visitEntries visit pre (entriesFrom beyond bytes offset) out := by
  induction remaining : bytes.length - offset using Nat.strong_induction_on generalizing offset out with
  | _ remaining ih =>
    subst remaining
    have next : offset < (offset / sectorSize + 1) * sectorSize := Nat.lt_mul_of_div_lt
      (Nat.lt_succ_self _) (by decide)
    rw [walkRecords, entriesFrom]
    by_cases inside : offset < bytes.length
    · rw [if_pos inside, if_pos inside, byteOf_of_lt inside]
      show (if zero : bytes.getD offset 0 = 0 then _ else _) = _
      by_cases zero : bytes.getD offset 0 = 0
      · rw [dif_pos zero, dif_pos zero]
        exact ih _ (by omega) _ _ rfl
      · have positive : (bytes.getD offset 0).toNat ≠ 0 := fun none => zero (UInt8.toNat_inj.mp none)
        rw [dif_neg zero, dif_neg zero]
        by_cases past : bytes.length < offset + (bytes.getD offset 0).toNat
        · rw [if_pos past, if_pos past]
          rfl
        · rw [if_neg past, if_neg past, partOf_of_le (by omega) (by omega), visitEntries_append,
            ← visitRecord_eq, bind_assoc]
          show (parseDirRecord beyond _ >>= fun record => _) = _
          refine bind_congr fun record => bind_congr fun out => ?_
          exact ih _ (by omega) _ _ rfl
    · rw [if_neg inside, if_neg inside]
      rfl

theorem walkLevels_eq (image : Image) (levels : Nat) (dir : DirRef) (pre : Text) (out : Finset Text) :
    walkLevels beyond image levels dir pre out
      = walk (isoEntries beyond image) levels dir pre out := by
  induction levels generalizing dir pre out with
  | zero => rfl
  | succ levels ih =>
    have visit : walkLevels beyond image levels = walk (isoEntries beyond image) levels := by
      funext dir pre out
      exact ih dir pre out
    rw [walkLevels, walk, isoEntries, bind_assoc, visit]
    exact bind_congr fun bytes => walkRecords_eq _ _ _ _ _

/-- **The reader is a walk through the directories of the image.** -/
theorem walkDir_eq (image : Image) (dir : DirRef) (pre : Text) (depth : Nat) (out : Finset Text) :
    walkDir beyond image dir pre depth out
      = walk (isoEntries beyond image) (maxDirDepth + 1 - depth) dir pre out :=
  walkLevels_eq image _ dir pre out

end Entries

end Bootsmith.Inspect
