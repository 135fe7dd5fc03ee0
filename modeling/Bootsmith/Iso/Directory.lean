/-
**Reading the directories of an ISO image** (`ntxp_iso.rs`): the directory reader, the lookups of
the root and `\I386` records, and the file reader.

The reader is a loop over the directory's bytes; `Scan` is the same walk as a relation, with one
constructor for each branch that succeeds (`readDirectoryRecordsFrom_eq_ok`). Every fact about a
directory that was read comes from an induction on its scan: where its records lie
(`Scan.bounds`, `Scan.pairwise`), that it depends on its own bytes only (`Scan.congr`), and what
overwriting one record with another of the same length does to it (`Scan.overwrite`).
-/

import Bootsmith.Iso.Record
import Bootsmith.Library.File

namespace Bootsmith.Iso

open Bootsmith.Library

def readSector (image : Image) (lba : Nat) : Fallible Bytes :=
  readExact image (lba * sectorSize) sectorSize

/-- The loop of `read_directory_records`, from `pos` to the end of the directory. -/
def readDirectoryRecordsFrom (image : Image) (stop pos : Nat) :
    Fallible (List DirectoryRecord) :=
  if pos < stop then do
    let len ← readExact image pos 1
    if zero : len.getD 0 0 = 0 then
      -- the rest of this sector is padding
      readDirectoryRecordsFrom image stop (alignUp (pos + 1) sectorSize)
    else
      let lenUsize := (len.getD 0 0).toNat
      let remaining := stop - pos
      if lenUsize > remaining then
        Fallible.bail s!"ISO9660 directory record at byte {pos} exceeds directory extent"
      else do
        let rest ← readExact image (pos + 1) (lenUsize - 1)
        let record ← parseDirectoryRecord (len ++ rest) 0 pos
        let records ← readDirectoryRecordsFrom image stop (pos + lenUsize)
        pure (record :: records)
  else pure []
termination_by stop - pos
decreasing_by
  · have := le_alignUp (pos + 1) sectorSize_pos
    omega
  · have : (len.getD 0 0).toNat ≠ 0 := fun none => zero (UInt8.toNat_inj.mp none)
    omega

namespace DirectoryRecord

/-- The first byte of the record's extent. -/
def start (directory : DirectoryRecord) : Nat := directory.extentLba * sectorSize

/-- The bytes of the record's extent. -/
def extent (directory : DirectoryRecord) : Span := ⟨directory.start, directory.dataLen⟩

/-- The whole sectors the record's extent occupies. -/
def sectors (directory : DirectoryRecord) : Span :=
  ⟨directory.start, alignUp directory.dataLen sectorSize⟩

theorem extent_within_sectors (directory : DirectoryRecord) :
    directory.extent.Within directory.sectors :=
  ⟨le_rfl, Nat.add_le_add_left (le_alignUp _ sectorSize_pos) _⟩

end DirectoryRecord

def readDirectoryRecords (image : Image) (directory : DirectoryRecord) :
    Fallible (List DirectoryRecord) :=
  readDirectoryRecordsFrom image (directory.start + directory.dataLen) directory.start

def findChildRecord (image : Image) (directory : DirectoryRecord) (name : Bytes) :
    Fallible (Option DirectoryRecord) := do
  let records ← readDirectoryRecords image directory
  pure (records.find? fun record => isoNameEq record.name name)

def findRootRecord (image : Image) : Fallible DirectoryRecord := do
  let pvd ← Fallible.context "read ISO9660 primary volume descriptor" (readSector image pvdLba)
  validatePvd pvd
  let root ← Fallible.context "parse ISO9660 root directory record"
    (parseDirectoryRecord pvd rootRecordOffsetInPvd pvdOffset)
  if ¬ root.IsDirectory then Fallible.bail "ISO9660 root record is not a directory"
  else pure root

def findI386Record (image : Image) : Fallible DirectoryRecord := do
  let pvd ← Fallible.context "read ISO9660 primary volume descriptor" (readSector image pvdLba)
  validatePvd pvd
  let root ← Fallible.context "parse ISO9660 root directory record"
    (parseDirectoryRecord pvd rootRecordOffsetInPvd pvdOffset)
  if ¬ root.IsDirectory then Fallible.bail "ISO9660 root record is not a directory"
  else do
    let found ← Fallible.context "locate ISO9660 /I386 directory"
      (findChildRecord image root (ascii "I386"))
    let i386 ← Fallible.okOr "ISO9660 /I386 directory not found" found
    if ¬ i386.IsDirectory then Fallible.bail "ISO9660 /I386 is not a directory"
    else pure i386

/-- The size check of `open_iso_rw`. -/
def openIsoRw (image : Image) : Fallible Unit :=
  if image.size < (pvdLba + 1) * sectorSize then
    Fallible.bail "the image is too small to be an ISO9660 image"
  else .ok ()

def readFileFromI386 (image : Image) (fileName : Bytes) : Fallible (Option Bytes) := do
  openIsoRw image
  let i386 ← findI386Record image
  let records ← readDirectoryRecords image i386
  match records.find? fun record => isoNameEq record.name fileName with
  | none => pure none
  | some record => do
    let buf ← readExact image (record.extentLba * sectorSize) record.dataLen
    pure (some buf)

/-! ### The directory walk as a relation -/

/-- The walk over a directory's bytes: the records with the offsets they lie at. -/
inductive Scan (image : Image) (stop : Nat) : Nat → List (Nat × Bytes) → Prop
  | done {pos : Nat} (past : stop ≤ pos) : Scan image stop pos []
  | skip {pos : Nat} {placed : List (Nat × Bytes)} (before : pos < stop) (inside : pos < image.size)
      (zero : image.get pos = 0) (rest : Scan image stop (alignUp (pos + 1) sectorSize) placed) :
      Scan image stop pos placed
  | record {pos : Nat} {raw : Bytes} {placed : List (Nat × Bytes)} (valid : RawRecord raw)
      (fits : pos + raw.length ≤ stop) (inside : pos + raw.length ≤ image.size)
      (here : image.slice pos raw.length = raw) (rest : Scan image stop (pos + raw.length) placed) :
      Scan image stop pos ((pos, raw) :: placed)

/-- The records of a scan. -/
def parsed (placed : List (Nat × Bytes)) : List DirectoryRecord :=
  placed.map fun entry => recordOf entry.1 entry.2

/-- The first byte of a record is its length. -/
theorem RawRecord.get_first {image : Image} {pos : Nat} {raw : Bytes} (valid : RawRecord raw)
    (here : image.slice pos raw.length = raw) : (image.get pos).toNat = raw.length := by
  have minimum := valid.minimum
  have first := (image.slice_eq_iff pos raw).mp here 0 (by omega)
  have byte := valid.lenByte
  rw [List.getD_eq_getElem _ _ (by omega), ← first] at byte
  exact byte

theorem Scan.of_read {image : Image} {stop pos : Nat} {records : List DirectoryRecord}
    (read : readDirectoryRecordsFrom image stop pos = .ok records) :
    ∃ placed, Scan image stop pos placed ∧ records = parsed placed := by
  induction remaining : stop - pos using Nat.strong_induction_on generalizing pos records with
  | _ remaining ih =>
    subst remaining
    rw [readDirectoryRecordsFrom] at read
    split at read
    · rename_i before
      obtain ⟨len, readLen, read⟩ := (Fallible.bind_eq_ok _ _ _).mp read
      obtain ⟨inside, rfl⟩ := readExact_eq_ok.mp readLen
      have first : (image.slice pos 1).getD 0 0 = image.get pos := rfl
      simp only [first] at read
      split at read
      · rename_i zero
        have up := le_alignUp (pos + 1) sectorSize_pos
        obtain ⟨placed, scan, same⟩ := ih _ (by omega) read rfl
        exact ⟨placed, .skip before (by omega) zero scan, same⟩
      · rename_i nonzero
        have positive : (image.get pos).toNat ≠ 0 := fun none => nonzero (UInt8.toNat_inj.mp none)
        split at read
        · simp at read
        rename_i fits
        obtain ⟨tail, readTail, read⟩ := (Fallible.bind_eq_ok _ _ _).mp read
        obtain ⟨inside', rfl⟩ := readExact_eq_ok.mp readTail
        obtain ⟨record, readRecord, read⟩ := (Fallible.bind_eq_ok _ _ _).mp read
        obtain ⟨others, readOthers, read⟩ := (Fallible.bind_eq_ok _ _ _).mp read
        rw [← Image.slice_append, Nat.add_sub_of_le (by omega)] at readRecord
        have whole : ((image.slice pos (image.get pos).toNat).getD 0 0).toNat
            = (image.slice pos (image.get pos).toNat).length := by
          rw [Image.slice_length, List.getD_eq_getElem _ _ (by simpa using by omega),
            Image.getElem_slice, Nat.add_zero]
        obtain ⟨valid, rfl⟩ := (parseDirectoryRecord_ok whole).mp readRecord
        obtain ⟨placed, scan, rfl⟩ := ih _ (by omega) readOthers rfl
        refine ⟨(pos, image.slice pos (image.get pos).toNat) :: placed, .record valid ?_ ?_ ?_ ?_, ?_⟩
        · rw [Image.slice_length]
          omega
        · rw [Image.slice_length]
          omega
        · rw [Image.slice_length]
        · rwa [Image.slice_length]
        · exact ((Fallible.pure_eq_ok _ _).mp read).symm
    · rename_i past
      rw [Fallible.pure_eq_ok] at read
      exact ⟨[], .done (by omega), read.symm⟩

theorem Scan.read {image : Image} {stop pos : Nat} {placed : List (Nat × Bytes)}
    (scan : Scan image stop pos placed) :
    readDirectoryRecordsFrom image stop pos = .ok (parsed placed) := by
  induction scan with
  | done past =>
    rw [readDirectoryRecordsFrom, if_neg (by omega)]
    rfl
  | @skip pos placed before inside zero rest ih =>
    rw [readDirectoryRecordsFrom, if_pos before, readExact_of_le (by omega)]
    have first : (image.slice pos 1).getD 0 0 = image.get pos := rfl
    show (if zero : (image.slice pos 1).getD 0 0 = 0 then _ else _) = _
    rw [dif_pos (first.trans zero)]
    exact ih
  | @record pos raw placed valid fits inside here rest ih =>
    have minimum := valid.minimum
    have length := valid.get_first here
    rw [readDirectoryRecordsFrom, if_pos (by omega), readExact_of_le (by omega)]
    have first : (image.slice pos 1).getD 0 0 = image.get pos := rfl
    have nonzero : (image.slice pos 1).getD 0 0 ≠ 0 := by
      intro zero
      rw [first] at zero
      have none : (image.get pos).toNat = 0 := by rw [zero]; rfl
      omega
    show (if zero : (image.slice pos 1).getD 0 0 = 0 then _ else _) = _
    rw [dif_neg nonzero]
    simp only [first, length]
    rw [if_neg (by omega), readExact_of_le (by omega), Fallible.bind_eq_ok]
    refine ⟨_, rfl, ?_⟩
    rw [← Image.slice_append, Nat.add_sub_of_le (by omega), here, Fallible.bind_eq_ok]
    refine ⟨_, (parseDirectoryRecord_ok valid.lenByte).mpr ⟨valid, rfl⟩, ?_⟩
    rw [ih]
    rfl

/-- **The directory reader succeeds exactly along a scan.** -/
theorem readDirectoryRecordsFrom_eq_ok {image : Image} {stop pos : Nat}
    {records : List DirectoryRecord} :
    readDirectoryRecordsFrom image stop pos = .ok records ↔
      ∃ placed, Scan image stop pos placed ∧ records = parsed placed :=
  ⟨Scan.of_read, fun ⟨_, scan, same⟩ => same ▸ scan.read⟩

namespace Scan

variable {image : Image} {stop pos : Nat} {placed : List (Nat × Bytes)}

/-- **Where the records of a directory lie, and what their bytes are.** -/
theorem bounds (scan : Scan image stop pos placed) {entry : Nat × Bytes}
    (member : entry ∈ placed) :
    pos ≤ entry.1 ∧ entry.1 + entry.2.length ≤ stop ∧
      entry.1 + entry.2.length ≤ image.size ∧ RawRecord entry.2 ∧
      image.slice entry.1 entry.2.length = entry.2 := by
  induction scan with
  | done past => cases member
  | @skip pos placed before inside zero rest ih =>
    have up := le_alignUp (pos + 1) sectorSize_pos
    obtain ⟨after, others⟩ := ih member
    exact ⟨by omega, others⟩
  | @record pos raw placed valid fits inside here rest ih =>
    rcases List.mem_cons.mp member with rfl | inRest
    · exact ⟨le_rfl, fits, inside, valid, here⟩
    · obtain ⟨after, others⟩ := ih inRest
      exact ⟨by omega, others⟩

theorem bounds_at (scan : Scan image stop pos placed) {offset : Nat} {raw : Bytes}
    (member : (offset, raw) ∈ placed) :
    pos ≤ offset ∧ offset + raw.length ≤ stop ∧ offset + raw.length ≤ image.size ∧
      RawRecord raw ∧ image.slice offset raw.length = raw :=
  scan.bounds member

/-- The records of a directory are told apart by their offsets. -/
theorem eq_of_offset (scan : Scan image stop pos placed) {first second : Nat × Bytes}
    (inFirst : first ∈ placed) (inSecond : second ∈ placed) (same : first.1 = second.1) :
    first = second := by
  induction scan with
  | done past => cases inFirst
  | skip before inside zero rest ih => exact ih inFirst inSecond
  | record valid fits inside here rest ih =>
    have minimum := valid.minimum
    rcases List.mem_cons.mp inFirst with rfl | inFirst <;>
      rcases List.mem_cons.mp inSecond with rfl | inSecond
    · rfl
    · have after := (rest.bounds inSecond).1
      exact absurd same (by simp only; omega)
    · have after := (rest.bounds inFirst).1
      exact absurd same (by simp only; omega)
    · exact ih inFirst inSecond

/-- **A directory depends on its own bytes only.** -/
theorem congr {image' : Image} (scan : Scan image stop pos placed)
    (same : ∀ index, pos ≤ index → index < stop → image'.get index = image.get index)
    (size : image.size ≤ image'.size) : Scan image' stop pos placed := by
  induction scan with
  | done past => exact .done past
  | @skip pos placed before inside zero rest ih =>
    have up := le_alignUp (pos + 1) sectorSize_pos
    exact .skip before (by omega) ((same pos le_rfl before).trans zero)
      (ih fun index after before => same index (by omega) before)
  | @record pos raw placed valid fits inside here rest ih =>
    refine .record valid fits (by omega) ?_ (ih fun index after before => same index (by omega) before)
    rw [← here]
    rw [Image.slice_length]
    exact Image.slice_congr fun index after before => same index after (by omega)

/-- A directory has one scan. -/
theorem unique {placed' : List (Nat × Bytes)} (scan : Scan image stop pos placed)
    (scan' : Scan image stop pos placed') : placed = placed' := by
  induction scan generalizing placed' with
  | done past =>
    cases scan' with
    | done => rfl
    | skip before => omega
    | record valid fits =>
      have minimum := valid.minimum
      omega
  | skip before inside zero rest ih =>
    cases scan' with
    | done past => omega
    | skip _ _ _ rest' => exact ih rest'
    | record valid _ _ here _ =>
      have minimum := valid.minimum
      have length := valid.get_first here
      rw [zero] at length
      exact absurd length (by simp only [UInt8.toNat_zero]; omega)
  | record valid fits inside here rest ih =>
    have minimum := valid.minimum
    have length := valid.get_first here
    cases scan' with
    | done past => omega
    | skip _ _ zero _ =>
      rw [zero] at length
      exact absurd length (by simp only [UInt8.toNat_zero]; omega)
    | record valid' _ _ here' rest' =>
      have same := length.symm.trans (valid'.get_first here')
      rw [same] at here rest ih
      obtain rfl := here.symm.trans here'
      rw [ih rest']

/-- Replace the record at `offset` in a list of placed records. -/
def replaced (offset : Nat) (new : Bytes) (placed : List (Nat × Bytes)) : List (Nat × Bytes) :=
  placed.map fun entry => if entry.1 = offset then (offset, new) else entry

theorem replaced_of_ne {offset : Nat} {new : Bytes} {placed : List (Nat × Bytes)}
    (other : ∀ entry ∈ placed, entry.1 ≠ offset) : replaced offset new placed = placed := by
  have same : ∀ entry ∈ placed, (if entry.1 = offset then (offset, new) else entry) = id entry :=
    fun entry member => if_neg (other entry member)
  rw [replaced, List.map_congr_left same, List.map_id]

/-- **Overwriting one record with another of the same length** changes that record only. -/
theorem overwrite {image' : Image} (scan : Scan image stop pos placed) {offset : Nat}
    {old new : Bytes} (member : (offset, old) ∈ placed) (valid' : RawRecord new)
    (length : new.length = old.length) (here' : image'.slice offset new.length = new)
    (same : ∀ index, pos ≤ index → index < stop → ¬ (⟨offset, old.length⟩ : Span).Holds index →
      image'.get index = image.get index)
    (size : image.size ≤ image'.size) : Scan image' stop pos (replaced offset new placed) := by
  induction scan with
  | done past => cases member
  | @skip pos placed before inside zero rest ih =>
    have up := le_alignUp (pos + 1) sectorSize_pos
    have after := (rest.bounds member).1
    refine .skip before (by omega) ?_ (ih member fun index after before => same index (by omega) before)
    rw [same pos le_rfl before (by simp only [Span.Holds]; omega), zero]
  | @record pos raw placed valid fits inside here rest ih =>
    have minimum := valid.minimum
    by_cases first : pos = offset
    · subst first
      have head : old = raw := by
        rcases List.mem_cons.mp member with equal | inRest
        · exact (Prod.mk.inj equal).2
        · have after := (rest.bounds inRest).1
          exact absurd after (by simp only; omega)
      subst head
      have others : replaced pos new placed = placed :=
        replaced_of_ne fun entry inRest => by
          have after := (rest.bounds inRest).1
          omega
      show Scan image' stop pos ((if pos = pos then (pos, new) else (pos, old)) :: _)
      rw [if_pos rfl, show placed.map _ = replaced pos new placed from rfl, others]
      refine .record valid' (by omega) (by omega) here' ?_
      rw [length]
      refine rest.congr (fun index after before => same index (by omega) before ?_) size
      simp only [Span.Holds, Span.stop]
      omega
    · have inRest : (offset, old) ∈ placed := by
        rcases List.mem_cons.mp member with equal | inRest
        · exact absurd (Prod.mk.inj equal).1.symm first
        · exact inRest
      have after := (rest.bounds inRest).1
      show Scan image' stop pos ((if pos = offset then (offset, new) else (pos, raw)) :: _)
      rw [if_neg first]
      refine .record valid fits (by omega) ?_
        (ih inRest fun index after before => same index (by omega) before)
      rw [← here, Image.slice_length]
      refine Image.slice_congr fun index after' before => same index after' (by omega) ?_
      simp only [Span.Holds, Span.stop]
      omega

end Scan

end Bootsmith.Iso
