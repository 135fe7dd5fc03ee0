/-
**The two directories the calls work on**: the volume root, named by the primary volume descriptor,
and `\I386`, named by a record of the root.

`RootRecord` says where the root record lies and `findRootRecord_eq_ok` that the lookup finds exactly
it; both lookups depend on few bytes (`RootRecord.congr`). `Staged` collects what the calls rely on
in an image: both directories read, `\I386` lies clear of everything that names it, and so do the
extents of its files.
-/

import Bootsmith.Iso.Append

namespace Bootsmith.Iso

open Bootsmith.Library

/-! ### The root record -/

/-- The bytes every valid primary volume descriptor starts with. -/
def pvdHeader : Bytes := [1, 67, 68, 48, 48, 49, 1]

theorem validatePvd_eq_ok {sector : Bytes} (length : sector.length = sectorSize) (value : Unit) :
    validatePvd sector = .ok value ↔ sector.take 7 = pvdHeader := by
  unfold validatePvd
  rw [if_neg (by simp [length])]
  have long : 7 ≤ sector.length := by
    rw [length]
    decide
  match sector, long with
  | a :: b :: c :: d :: e :: f :: g :: rest, _ =>
    have name : ascii "CD001" = [67, 68, 48, 48, 49] := by decide
    simp only [List.getD_cons_zero, subrange, List.drop_succ_cons, List.drop_zero,
      List.take_succ_cons, List.take_zero, name, List.getD_cons_succ, pvdHeader, List.cons.injEq]
    by_cases same : a = 1 ∧ (b = 67 ∧ c = 68 ∧ d = 48 ∧ e = 48 ∧ f = 49) ∧ g = 1
    · simp [same]
    · rw [if_pos (by simp; tauto)]
      simp
      tauto

/-- Where the root record lies in the image. -/
def rootOffset : Nat := pvdOffset + rootRecordOffsetInPvd

/-- A valid volume descriptor with `raw` as its root record. -/
structure RootRecord (image : Image) (raw : Bytes) : Prop where
  large : (pvdLba + 1) * sectorSize ≤ image.size
  header : image.slice pvdOffset 7 = pvdHeader
  fits : rootRecordOffsetInPvd + raw.length ≤ sectorSize
  here : image.slice rootOffset raw.length = raw
  valid : RawRecord raw
  isDirectory : (recordOf rootOffset raw).IsDirectory

/-- **The root lookup finds exactly the root record of a valid volume descriptor.** -/
theorem findRootRecord_eq_ok {image : Image} {root : DirectoryRecord} :
    findRootRecord image = .ok root ↔ ∃ raw, RootRecord image raw ∧ root = recordOf rootOffset raw := by
  have last : pvdLba * sectorSize + sectorSize = (pvdLba + 1) * sectorSize := by decide
  unfold findRootRecord readSector
  simp only [Fallible.bind_eq_ok, Fallible.context_eq_ok, readExact_eq_ok,
    parseDirectoryRecord_eq_ok]
  constructor
  · rintro ⟨sector, ⟨inside, rfl⟩, value, header, root', ⟨raw, fits, here, valid, rfl⟩, found⟩
    split at found
    · simp at found
    rename_i isDirectory
    rw [Fallible.pure_eq_ok] at found
    rw [Image.slice_length] at fits
    rw [Image.subrange_slice _ _ fits, Nat.add_sub_cancel_left] at here
    rw [validatePvd_eq_ok (Image.slice_length _ _ _), Image.slice_take _ _ _ _ (by decide)] at header
    refine ⟨raw, ⟨?_, header, fits, here, valid, not_not.mp isDirectory⟩, found.symm⟩
    rw [← last]
    exact inside.resolve_left (by decide)
  · rintro ⟨raw, ⟨large, header, fits, here, valid, isDirectory⟩, rfl⟩
    refine ⟨_, ⟨Or.inr (last ▸ large), rfl⟩, (), ?_, recordOf rootOffset raw, ⟨raw, ?_, ?_, valid, rfl⟩,
      ?_⟩
    · rw [validatePvd_eq_ok (Image.slice_length _ _ _), Image.slice_take _ _ _ _ (by decide)]
      exact header
    · rwa [Image.slice_length]
    · rw [Image.subrange_slice _ _ fits, Nat.add_sub_cancel_left]
      exact here
    · rw [if_neg (not_not.mpr isDirectory)]
      rfl

namespace RootRecord

variable {image image' : Image} {raw : Bytes}

theorem within_pvdSector (record : RootRecord image raw) :
    (⟨rootOffset, raw.length⟩ : Span).Within pvdSector := by
  have fits := record.fits
  simp only [Span.Within, Span.stop, pvdSector, rootOffset]
  omega

theorem apart_volumeField (raw : Bytes) : (⟨rootOffset, raw.length⟩ : Span).Apart volumeField :=
  Or.inr (show volumeField.stop ≤ rootOffset by decide)

/-- **A change outside of the descriptor's header and root record** keeps the root. -/
theorem congr (record : RootRecord image raw) {spans : List Span}
    (same : Image.SameOutside spans image image')
    (header : ∀ span ∈ spans, (⟨pvdOffset, 7⟩ : Span).Apart span)
    (clear : ∀ span ∈ spans, (⟨rootOffset, raw.length⟩ : Span).Apart span) :
    RootRecord image' raw := by
  have large := record.large
  have fits := record.fits
  have below : pvdOffset + 7 ≤ (pvdLba + 1) * sectorSize := by decide
  have split : rootOffset + (sectorSize - rootRecordOffsetInPvd) = (pvdLba + 1) * sectorSize := by
    decide
  refine ⟨large.trans same.size, ?_, fits, ?_, record.valid, record.isDirectory⟩
  · rw [same.slice (by omega) header, record.header]
  · rw [same.slice (by omega) clear, record.here]

/-- **Setting the size field of the root record.** -/
theorem resize (record : RootRecord image raw) {value : Nat} (valueFits : value < 2 ^ 32)
    {spans : List Span} (same : Image.SameOutside spans image image')
    (header : ∀ span ∈ spans, (⟨pvdOffset, 7⟩ : Span).Apart span)
    (field : image'.slice (rootOffset + 10) 8 = write733 value)
    (clear : ∀ span ∈ spans, span = ⟨rootOffset + 10, 8⟩ ∨
      (⟨rootOffset, raw.length⟩ : Span).Apart span) :
    RootRecord image' (withField 10 value raw) := by
  have large := record.large
  have fits := record.fits
  have minimum := record.valid.minimum
  have below : pvdOffset + 7 ≤ (pvdLba + 1) * sectorSize := by decide
  have split : rootOffset + (sectorSize - rootRecordOffsetInPvd) = (pvdLba + 1) * sectorSize := by
    decide
  obtain ⟨valid, parsed⟩ := withField_dataLen record.valid valueFits
  have length : (withField 10 value raw).length = raw.length := withField_length (by omega)
  refine ⟨large.trans same.size, ?_, by omega, ?_, valid, ?_⟩
  · rw [same.slice (by omega) header, record.header]
  · rw [length, slice_withField (by omega) field fun index after before outside => ?_, record.here]
    refine same.get index (by omega) fun span member held => ?_
    rcases clear span member with rfl | apart
    · exact outside held
    · exact apart.not_holds ⟨after, before⟩ held
  · rw [parsed]
    exact record.isDirectory

end RootRecord

/-- **The lookup of `\I386` is the lookup of the root, then a search of its records.** -/
theorem findI386Record_eq_ok {image : Image} {i386 : DirectoryRecord} :
    findI386Record image = .ok i386 ↔
      ∃ root records, findRootRecord image = .ok root ∧ readDirectoryRecords image root = .ok records ∧
        records.find? (fun record => isoNameEq record.name (ascii "I386")) = some i386 ∧
        i386.IsDirectory := by
  have lookup : findI386Record image = (do
      let root ← findRootRecord image
      let found ← Fallible.context "locate ISO9660 /I386 directory"
        (findChildRecord image root (ascii "I386"))
      let i386 ← Fallible.okOr "ISO9660 /I386 directory not found" found
      if ¬ i386.IsDirectory then Fallible.bail "ISO9660 /I386 is not a directory"
      else pure i386) := by
    unfold findI386Record findRootRecord
    simp only [bind_assoc]
    congr 1
    funext pvd
    congr 1
    funext _
    congr 1
    funext root
    split <;> rfl
  rw [lookup]
  simp only [Fallible.bind_eq_ok, Fallible.context_eq_ok, Fallible.okOr_eq_ok, findChildRecord,
    Fallible.pure_eq_ok]
  constructor
  · rintro ⟨root, found, _, ⟨records, read, rfl⟩, i386', named, checked⟩
    split at checked
    · simp at checked
    rename_i isDirectory
    rw [Fallible.pure_eq_ok] at checked
    exact ⟨root, records, found, read, checked ▸ named, checked ▸ not_not.mp isDirectory⟩
  · rintro ⟨root, records, found, read, named, isDirectory⟩
    refine ⟨root, found, _, ⟨records, read, rfl⟩, i386, named, ?_⟩
    rw [if_neg (not_not.mpr isDirectory)]
    rfl

/-! ### The staged image -/

/-- The records of a directory start with `.` and `..`. -/
def StartsWithDots (records : List DirectoryRecord) : Prop :=
  ∃ dot dotdot rest, records = dot :: dotdot :: rest ∧ dot.name = [0] ∧ dotdot.name = [1]

/-- The extent of a file is empty, or it lies in the image and clear of all bytes the calls on
`\I386` write in place. -/
def Clear (image : Image) (i386 record : DirectoryRecord) : Prop :=
  record.dataLen = 0 ∨
    (record.start + record.dataLen ≤ image.size ∧ record.extent.Apart i386.sectors ∧
      record.extent.Apart ⟨i386.offset + 10, 8⟩ ∧ record.extent.Apart volumeField)

/-- What the calls on `\I386` rely on: the root and `\I386` read, and `\I386` lies clear of the
volume descriptor, of the root and of its own files. -/
structure Staged (image : Image) (root i386 : DirectoryRecord)
    (rootPlaced placed : List (Nat × Bytes)) : Prop where
  rootRecord : ∃ raw, RootRecord image raw ∧ root = recordOf rootOffset raw
  rootScan : Scan image (root.start + root.dataLen) root.start rootPlaced
  rootInside : root.start + root.dataLen ≤ image.size
  rootClear : root.extent.Apart pvdSector
  named : (parsed rootPlaced).find? (fun record => isoNameEq record.name (ascii "I386")) = some i386
  isDirectory : i386.IsDirectory
  scan : Scan image (i386.start + i386.dataLen) i386.start placed
  dots : StartsWithDots (parsed placed)
  inside : i386.start + i386.dataLen ≤ image.size
  clear : i386.sectors.Apart pvdSector
  clearRoot : i386.sectors.Apart root.extent
  files : ∀ record ∈ (parsed placed).drop 2, Clear image i386 record

namespace Staged

variable {image : Image} {root i386 : DirectoryRecord} {rootPlaced placed : List (Nat × Bytes)}
  (staged : Staged image root i386 rootPlaced placed)

include staged

theorem large : (pvdLba + 1) * sectorSize ≤ image.size := by
  obtain ⟨raw, record, _⟩ := staged.rootRecord
  exact record.large

theorem findRoot : findRootRecord image = .ok root := findRootRecord_eq_ok.mpr staged.rootRecord

theorem findI386 : findI386Record image = .ok i386 :=
  findI386Record_eq_ok.mpr ⟨root, parsed rootPlaced, staged.findRoot, staged.rootScan.read,
    staged.named, staged.isDirectory⟩

/-- The record that names `\I386`, with its bytes. -/
theorem entry : ∃ raw, (i386.offset, raw) ∈ rootPlaced ∧ i386 = recordOf i386.offset raw ∧
    (⟨i386.offset, raw.length⟩ : Span).Within root.extent := by
  obtain ⟨entry, member, same⟩ := List.mem_map.mp (List.mem_of_find?_eq_some staged.named)
  obtain ⟨after, before, _⟩ := staged.rootScan.bounds member
  have offset : entry.1 = i386.offset := by rw [← same, recordOf]
  rw [← offset]
  exact ⟨entry.2, member, same.symm, after, before⟩

theorem field_within : (⟨i386.offset + 10, 8⟩ : Span).Within root.extent := by
  obtain ⟨raw, member, _, within⟩ := staged.entry
  have minimum := (staged.rootScan.bounds_at member).2.2.2.1.minimum
  refine Span.Within.trans ?_ within
  simp only [Span.Within, Span.stop]
  omega

theorem site : Site image i386 (i386.offset + 10) := by
  have field := staged.field_within
  have inside := staged.rootInside
  have within := field.2
  simp only [Span.stop, DirectoryRecord.extent] at within
  exact {
    large := staged.large
    inside := staged.inside
    fieldInside := by omega
    clearVolume := staged.clear.mono (Span.Within.refl _) volumeField_within
    clearField := staged.clearRoot.mono (Span.Within.refl _) field
    fieldVolume := staged.rootClear.mono field volumeField_within }

end Staged

/-! ### Files by name -/

/-- The extent of the first record with a sort key: its sector and its length. -/
def fileExtent (raws : List Bytes) (key : Bytes) : Option (Nat × Nat) :=
  (raws.find? fun raw => isoSortKey (recordName raw) = key).map fun raw =>
    (leNat (subrange raw 2 6), leNat (subrange raw 10 14))

/-- The bytes of an extent. -/
def extentBytes (image : Image) (extent : Nat × Nat) : Bytes :=
  image.slice (extent.1 * sectorSize) extent.2

/-- A search of the parsed records is a search of their bytes. -/
theorem find?_parsed {placed : List (Nat × Bytes)} (valid : ∀ entry ∈ placed, RawRecord entry.2)
    (name : Bytes) :
    ((parsed placed).find? fun record => isoNameEq record.name name).map
        (fun record => (record.extentLba, record.dataLen))
      = fileExtent (placed.map Prod.snd) (isoSortKey name) := by
  induction placed with
  | nil => rfl
  | cons entry rest ih =>
    have ih := ih fun other inside => valid other (List.mem_cons_of_mem _ inside)
    have head := recordName_eq (valid entry List.mem_cons_self) entry.1
    have test : isoNameEq (recordOf entry.1 entry.2).name name
        = decide (isoSortKey (recordName entry.2) = isoSortKey name) := by
      rw [Bool.eq_iff_iff, isoNameEq_iff, head, decide_eq_true_iff]
    unfold fileExtent at *
    simp only [parsed, List.map_cons, List.find?_cons, test] at *
    split
    · rfl
    · exact ih

/-- **Reading a file is reading the extent of the first record with its name.** -/
theorem Staged.readFile {image : Image} {root i386 : DirectoryRecord}
    {rootPlaced placed : List (Nat × Bytes)} (staged : Staged image root i386 rootPlaced placed)
    {name : Bytes} {result : Option Bytes} :
    readFileFromI386 image name = .ok result ↔
      (∀ extent, fileExtent (placed.map Prod.snd) (isoSortKey name) = some extent →
        extent.2 = 0 ∨ extent.1 * sectorSize + extent.2 ≤ image.size) ∧
      result = (fileExtent (placed.map Prod.snd) (isoSortKey name)).map (extentBytes image) := by
  have opened : openIsoRw image = .ok () := if_neg (not_lt.mpr staged.large)
  have read : readDirectoryRecords image i386 = .ok (parsed placed) := staged.scan.read
  rw [← find?_parsed fun entry member => (staged.scan.bounds member).2.2.2.1]
  unfold readFileFromI386
  simp only [opened, staged.findI386, read, Fallible.bind_eq_ok, Except.ok.injEq,
    exists_eq_left']
  cases found : (parsed placed).find? fun record => isoNameEq record.name name with
  | none =>
    rw [Fallible.pure_eq_ok]
    simp [eq_comm]
  | some record =>
    simp only [Fallible.bind_eq_ok, readExact_eq_ok, Fallible.pure_eq_ok, and_assoc, exists_and_left,
      exists_eq_left', exists_const, true_and, Option.map_some, Option.some.injEq, forall_eq', extentBytes]
    exact and_congr_right fun _ => eq_comm

end Bootsmith.Iso
