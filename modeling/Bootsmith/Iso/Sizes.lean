/-
**The recorded sizes of a directory after an append.**

The size of a directory stands in the record that names it, in its own `.` record and in the `..`
record of each directory below it. An append updates the first two and leaves the others alone.
So the records that point at the directory agree afterwards exactly when there is nothing to update
beside those two: the size stays the same, or the directory is `\I386` and has no directory below it
(`append_sizes_agree_iff`). The root's own `..` record is never updated.

The volume before and after the append are related directory by directory (`Moved`), forward and
backward by induction on the way down from the root.
-/

import Bootsmith.Iso.Readback
import Bootsmith.Iso.Shape

namespace Bootsmith.Iso

open Bootsmith.Library

/-! ### Records that name directories -/

/-- The records of the volume that name a directory: the root record, the dot records, and the
records with the directory flag. -/
inductive Pointer (image : Image) : DirectoryRecord → Prop
  | root {root : DirectoryRecord} (found : findRootRecord image = .ok root) : Pointer image root
  | dots {directory record : DirectoryRecord} {records : List DirectoryRecord}
      (inVolume : Directory image directory)
      (read : readDirectoryRecords image directory = .ok records) (member : record ∈ records.take 2) :
      Pointer image record
  | child {directory record : DirectoryRecord} {records : List DirectoryRecord}
      (inVolume : Directory image directory)
      (read : readDirectoryRecords image directory = .ok records) (member : record ∈ records.drop 2)
      (isDirectory : record.IsDirectory) : Pointer image record

/-- Two records carry the same extent and size. -/
def SameExtent (first second : DirectoryRecord) : Prop :=
  first.extentLba = second.extentLba ∧ first.dataLen = second.dataLen

/-- The dot records of a directory carry its extent and that of its parent. -/
def DotSizes (image : Image) (directory parent : DirectoryRecord) : Prop :=
  ∃ dot dotdot rest, readDirectoryRecords image directory = .ok (dot :: dotdot :: rest) ∧
    SameExtent dot directory ∧ SameExtent dotdot parent

/-- The dot records of all directories carry the recorded sizes. -/
structure SizesConsistent (image : Image) : Prop where
  root : ∀ root, findRootRecord image = .ok root → DotSizes image root root
  child : ∀ directory records child, Directory image directory →
    readDirectoryRecords image directory = .ok records → child ∈ records.drop 2 →
    child.IsDirectory → DotSizes image child directory

namespace WellFormed

variable {image : Image} (wellFormed : WellFormed image)

include wellFormed

/-- Directories of the volume with a common byte are the same. -/
theorem eq_of_holds {first second : DirectoryRecord} (inFirst : Directory image first)
    (inSecond : Directory image second) {index : Nat} (holds : first.sectors.Holds index)
    (holds' : second.sectors.Holds index) : first = second := by
  by_contra different
  have apart := (wellFormed.directory_apart inSecond inFirst.entry different).resolve_left
    (wellFormed.dataLen_pos inFirst)
  exact apart.not_holds holds holds'

theorem holds_start {directory : DirectoryRecord} (inVolume : Directory image directory) :
    directory.sectors.Holds directory.start := by
  have positive := wellFormed.dataLen_pos inVolume
  have up := le_alignUp directory.dataLen sectorSize_pos
  refine ⟨le_rfl, ?_⟩
  simp only [Span.stop, DirectoryRecord.sectors]
  omega

/-- A directory is told by its extent. -/
theorem eq_of_extentLba {first second : DirectoryRecord} (inFirst : Directory image first)
    (inSecond : Directory image second) (same : first.extentLba = second.extentLba) :
    first = second := by
  refine wellFormed.eq_of_holds inFirst inSecond (wellFormed.holds_start inFirst) ?_
  rw [DirectoryRecord.start, same]
  exact wellFormed.holds_start inSecond

/-- A place in the image belongs to one directory only. -/
theorem directory_eq_of_offset {directory directory' record record' : DirectoryRecord}
    {records records' : List DirectoryRecord} (inVolume : Directory image directory)
    (inVolume' : Directory image directory')
    (read : readDirectoryRecords image directory = .ok records)
    (read' : readDirectoryRecords image directory' = .ok records') (member : record ∈ records)
    (member' : record' ∈ records') (same : record.offset = record'.offset) :
    directory = directory' := by
  obtain ⟨placed, scan, shape, _⟩ := wellFormed.scan inVolume
  obtain ⟨placed', scan', shape', _⟩ := wellFormed.scan inVolume'
  obtain rfl := Except.ok.inj (read.symm.trans shape)
  obtain rfl := Except.ok.inj (read'.symm.trans shape')
  have here := offset_within scan member
  have here' := offset_within scan' member'
  have extent := directory.extent_within_sectors
  have extent' := directory'.extent_within_sectors
  have holds : directory.sectors.Holds record.offset ∧ directory'.sectors.Holds record.offset := by
    simp only [Span.Holds, Span.Within, Span.stop, DirectoryRecord.sectors,
      DirectoryRecord.extent] at *
    omega
  exact wellFormed.eq_of_holds inVolume inVolume' holds.1 holds.2

/-- A listed record is told by its place in the image. -/
theorem record_eq_of_offset {directory directory' record record' : DirectoryRecord}
    {records records' : List DirectoryRecord} (inVolume : Directory image directory)
    (inVolume' : Directory image directory')
    (read : readDirectoryRecords image directory = .ok records)
    (read' : readDirectoryRecords image directory' = .ok records') (member : record ∈ records)
    (member' : record' ∈ records') (same : record.offset = record'.offset) : record = record' := by
  obtain rfl := wellFormed.directory_eq_of_offset inVolume inVolume' read read' member member' same
  obtain ⟨placed, scan, shape, _⟩ := wellFormed.scan inVolume
  obtain rfl := Except.ok.inj (read.symm.trans shape)
  obtain rfl := Except.ok.inj (read'.symm.trans shape)
  obtain ⟨entry, inPlaced, rfl⟩ := List.mem_map.mp member
  obtain ⟨entry', inPlaced', rfl⟩ := List.mem_map.mp member'
  rw [scan.eq_of_offset inPlaced inPlaced' same]

/-- A listed record does not lie where the root record does. -/
theorem listed_ne_root {directory record root : DirectoryRecord} {records : List DirectoryRecord}
    (inVolume : Directory image directory)
    (read : readDirectoryRecords image directory = .ok records) (member : record ∈ records)
    (found : findRootRecord image = .ok root) : record ≠ root := by
  rintro rfl
  obtain ⟨placed, scan, shape, _⟩ := wellFormed.scan inVolume
  obtain rfl := Except.ok.inj (read.symm.trans shape)
  have here := offset_within scan member
  have atRoot := root_offset found
  have descriptor := rootOffset_inside
  have extent := directory.extent_within_sectors
  have clear := (wellFormed.directory_inside inVolume).2
  simp only [Span.Apart, Span.Within, Span.stop, pvdSector, DirectoryRecord.sectors,
    DirectoryRecord.extent] at *
  omega

/-- A directory does not list itself. -/
theorem not_listed_self {directory : DirectoryRecord} (inVolume : Directory image directory)
    {records : List DirectoryRecord}
    (read : readDirectoryRecords image directory = .ok records) : directory ∉ records := by
  induction inVolume generalizing records with
  | root found => exact fun member => wellFormed.listed_ne_root (.root found) read member found rfl
  | @child parent directory listed inParent readParent inListed isDirectory ih =>
    intro member
    have inVolume : Directory image directory := .child inParent readParent inListed isDirectory
    -- the record lies in both extents, so the directory is its own parent
    have same := wellFormed.directory_eq_of_offset inParent inVolume readParent read
      (List.mem_of_mem_drop inListed) member rfl
    subst same
    exact ih readParent (List.mem_of_mem_drop inListed)

end WellFormed

/-! ### The volume after an append -/

/-- A record with the new size, when it is the record that names the grown directory. -/
def afterAppend (grown : DirectoryRecord) (size : Nat) (record : DirectoryRecord) : DirectoryRecord :=
  if record = grown then { record with dataLen := size } else record

/-- The volume after a directory grew: its own records are repacked with one new file among them,
all other directories keep their records up to the size of the grown one. -/
structure VolumeGrown (image : Image) (grown : DirectoryRecord) (placed : List (Nat × Bytes))
    (new : Bytes) (size : Nat) (image' : Image) : Prop where
  inVolume : Directory image grown
  read : readDirectoryRecords image grown = .ok (parsed placed)
  root : ∀ root, findRootRecord image = .ok root →
    findRootRecord image' = .ok (afterAppend grown size root)
  own : ∃ dot dotdot rest tail, placed = dot :: dotdot :: rest ∧
    tail.Perm (rest.map Prod.snd ++ [new]) ∧ RawRecord dot.2 ∧ size < 2 ^ 32 ∧
    readDirectoryRecords image' { grown with dataLen := size }
      = .ok (parsed (placements grown.start (withField 10 size dot.2 :: dotdot.2 :: tail)))
  others : ∀ directory records, Directory image directory → directory ≠ grown →
    readDirectoryRecords image directory = .ok records →
    readDirectoryRecords image' directory = .ok (records.map (afterAppend grown size))
  new : ∀ offset, ¬ (recordOf offset new).IsDirectory

theorem newRecord_not_directory {image : Image} {fileName contents : Bytes} (offset : Nat) :
    ¬ (recordOf offset (newRecord image fileName contents)).IsDirectory := by
  have byte : (newRecord image fileName contents).getD 25 0 = 0 := fileRecord_flags
  have flags : (recordOf offset (newRecord image fileName contents)).flags = 0 := byte
  rw [DirectoryRecord.IsDirectory, flags]
  decide

/-- The root is not `\I386`. -/
theorem beside_i386 {image : Image} {root i386 : DirectoryRecord} (wellFormed : WellFormed image)
    (found : findI386Record image = .ok i386) (foundRoot : findRootRecord image = .ok root) :
    root ≠ i386 := by
  obtain ⟨root', records, foundRoot', readRoot, named, isDirectory⟩ := findI386Record_eq_ok.mp found
  obtain rfl := Except.ok.inj (foundRoot'.symm.trans foundRoot)
  exact (wellFormed.i386_directory foundRoot readRoot named isDirectory).2.1.symm

section Grow

variable {image image' : Image} {directory : DirectoryRecord} {placed : List (Nat × Bytes)}
  {fileName contents : Bytes}

/-- **The volume after a successful append.** -/
theorem TargetAppended.volumeGrown {target : Target} (wellFormed : WellFormed image)
    (append : TargetAppended target image directory placed fileName contents image') :
    VolumeGrown image directory placed (newRecord image fileName contents)
      (newEnd image placed fileName contents) image' := by
  obtain ⟨found, inVolume, scan, dots, site, fits, appended, found'⟩ := append
  obtain ⟨dot, dotdot, rest, shape, _, _⟩ := StartsWithDots.placed dots
  have written := withSize_sortedRecords image dot dotdot rest fileName contents
    (newEnd image placed fileName contents)
  rw [← shape] at written
  have scan' := appended.scan
  rw [written] at scan'
  have own := scan'.read
  have valid : RawRecord dot.2 := (scan.bounds (by simp [shape])).2.2.2.1
  refine ⟨inVolume, scan.read, ?_, ⟨dot, dotdot, rest, _, shape, sortBy_perm _ _, valid,
    fits.sizeFits, own⟩, ?_, newRecord_not_directory⟩
  · intro root foundRoot
    cases target with
    | root =>
      obtain rfl := Except.ok.inj (found.symm.trans foundRoot)
      rw [afterAppend, if_pos rfl]
      exact found'
    | i386 =>
      obtain ⟨root', _, _, staged, _⟩ := wellFormed.staged found
      obtain rfl := Except.ok.inj (staged.findRoot.symm.trans foundRoot)
      rw [afterAppend, if_neg (beside_i386 wellFormed found foundRoot)]
      refine findRootRecord_eq_ok.mpr (staged.rootRecord_keep appended.same ?_)
      simp only [List.mem_cons, List.not_mem_nil, or_false, forall_eq_or_imp, forall_eq]
      exact ⟨Or.inl staged.clear, Or.inl (staged.rootClear.mono staged.field_within
        (Span.Within.refl _)), Or.inr (Span.Within.refl _)⟩
  · intro other records inOther beside read
    cases target with
    | root =>
      -- another directory lies clear of the root, and does not list it
      have unchanged : records.map (afterAppend directory (newEnd image placed fileName contents))
          = records := by
        refine (List.map_congr_left fun record listed => if_neg ?_).trans (List.map_id _)
        exact wellFormed.listed_ne_root inOther read listed found
      obtain ⟨otherPlaced, otherScan, shape', _⟩ := wellFormed.scan inOther
      obtain rfl := Except.ok.inj (read.symm.trans shape')
      have apart := (wellFormed.directory_apart inVolume inOther.entry beside).resolve_left
        (wellFormed.dataLen_pos inOther)
      obtain ⟨inside, clear⟩ := wellFormed.directory_inside inOther
      have field : (⟨rootOffset + 10, 8⟩ : Span).Within pvdSector := by constructor <;> decide
      rw [unchanged]
      refine (otherScan.congr (fun index after before => ?_) appended.same.size).read
      have here : other.sectors.Holds index := other.extent_within_sectors.holds ⟨after, before⟩
      refine appended.same.get index (by omega) fun span member held => ?_
      simp only [List.mem_cons, List.not_mem_nil, or_false] at member
      rcases member with rfl | rfl | rfl
      · exact apart.not_holds here held
      · exact clear.not_holds here (field.holds held)
      · exact clear.not_holds here (volumeField_within.holds held)
    | i386 =>
      obtain ⟨root, rootPlaced, placed', staged, _⟩ := wellFormed.staged found
      obtain rfl := staged.scan.unique scan
      obtain ⟨rootPlaced', rootScan', rootRecords⟩ :=
        staged.rootScan_resize fits.sizeFits appended.same appended.field
      have offset : ({ directory with dataLen := newEnd image placed' fileName contents } :
          DirectoryRecord).offset = directory.offset := rfl
      obtain ⟨records', read', keep⟩ := wellFormed.records_keep staged inVolume appended.same
        offset rootScan' rootRecords inOther beside
      obtain rfl := Except.ok.inj (read.symm.trans read')
      rw [keep]
      refine congrArg _ (List.map_congr_left fun record listed => ?_)
      have inRoot := List.mem_of_find?_eq_some staged.named
      rw [resized, afterAppend]
      by_cases same : record.offset = directory.offset
      · rw [if_pos same, if_pos (wellFormed.record_eq_of_offset inOther (.root staged.findRoot) read
          staged.rootScan.read listed inRoot same)]
      · rw [if_neg same, if_neg fun equal => same (by rw [equal])]

end Grow

/-! ### Directory by directory -/

/-- The same record before and after, perhaps at another place, with the new size when it names the
grown directory. -/
def Moved (grown : DirectoryRecord) (size : Nat) (old new : DirectoryRecord) : Prop :=
  new = { afterAppend grown size old with offset := new.offset }

section Moved

variable {grown old new : DirectoryRecord} {size : Nat}

theorem moved_afterAppend (grown : DirectoryRecord) (size : Nat) (record : DirectoryRecord) :
    Moved grown size record (afterAppend grown size record) := rfl

theorem Moved.extentLba (moved : Moved grown size old new) : new.extentLba = old.extentLba := by
  rw [moved, afterAppend]
  split <;> rfl

theorem Moved.isDirectory (moved : Moved grown size old new) :
    new.IsDirectory ↔ old.IsDirectory := by
  rw [moved, afterAppend]
  split <;> rfl

theorem Moved.dataLen_of_ne (moved : Moved grown size old new) (beside : old ≠ grown) :
    new.dataLen = old.dataLen := by
  rw [moved, afterAppend, if_neg beside]

theorem Moved.dataLen_of_eq (moved : Moved grown size grown new) : new.dataLen = size := by
  rw [moved, afterAppend, if_pos rfl]

/-- Reading a directory depends on its extent only. -/
theorem readDirectoryRecords_congr (image : Image) {first second : DirectoryRecord}
    (same : SameExtent first second) :
    readDirectoryRecords image first = readDirectoryRecords image second := by
  rw [readDirectoryRecords, readDirectoryRecords, DirectoryRecord.start, DirectoryRecord.start,
    same.1, same.2]

/-- Behind the dot records of a moved directory stand the moved records, and files. -/
def MovedRecords (grown : DirectoryRecord) (size : Nat) (records records' : List DirectoryRecord) :
    Prop :=
  (∀ record ∈ records.drop 2, ∃ record' ∈ records'.drop 2, Moved grown size record record') ∧
    ∀ record' ∈ records'.drop 2,
      (∃ record ∈ records.drop 2, Moved grown size record record') ∨ ¬ record'.IsDirectory

end Moved

namespace VolumeGrown

variable {image image' : Image} {grown : DirectoryRecord} {placed : List (Nat × Bytes)} {new : Bytes}
  {size : Nat} (wellFormed : WellFormed image)
  (volumeGrown : VolumeGrown image grown placed new size image')

include wellFormed volumeGrown

/-- **What a moved directory reads as.** -/
theorem reads {directory directory' : DirectoryRecord} {records : List DirectoryRecord}
    (inVolume : Directory image directory) (moved : Moved grown size directory directory')
    (read : readDirectoryRecords image directory = .ok records) :
    ∃ records', readDirectoryRecords image' directory' = .ok records' ∧
      MovedRecords grown size records records' := by
  by_cases own : directory = grown
  · subst own
    obtain ⟨dot, dotdot, rest, tail, shape, perm, _, _, read'⟩ := volumeGrown.own
    obtain rfl := Except.ok.inj (read.symm.trans volumeGrown.read)
    have same : SameExtent directory' { directory with dataLen := size } :=
      ⟨moved.extentLba, moved.dataLen_of_eq⟩
    -- a listed record does not name the directory itself, so it keeps its size
    have keep : ∀ entry ∈ rest, ∀ offset, Moved directory size (recordOf entry.1 entry.2)
        (recordOf offset entry.2) := by
      intro entry inRest offset
      have listed : recordOf entry.1 entry.2 ∈ parsed placed := by
        rw [shape]
        exact List.mem_map_of_mem (List.mem_cons_of_mem _ (List.mem_cons_of_mem _ inRest))
      rw [Moved, afterAppend, if_neg]
      · rfl
      · exact fun equal => wellFormed.not_listed_self inVolume read (equal ▸ listed)
    refine ⟨_, (readDirectoryRecords_congr image' same).trans read', fun record member => ?_,
      fun record' member => ?_⟩
    · rw [shape] at member
      obtain ⟨entry, inRest, rfl⟩ := List.mem_map.mp (show record ∈ parsed rest from member)
      have inTail : entry.2 ∈ tail :=
        perm.mem_iff.mpr (List.mem_append_left _ (List.mem_map_of_mem inRest))
      obtain ⟨entry', inPlaced, same'⟩ : ∃ entry' ∈ placements _ tail, entry'.2 = entry.2 :=
        exists_mem_layout _ inTail
      refine ⟨recordOf entry'.1 entry'.2, List.mem_map_of_mem inPlaced, ?_⟩
      rw [same']
      exact keep entry inRest _
    · obtain ⟨raw, inTail, same'⟩ := mem_drop_placements member
      rcases List.mem_append.mp (perm.mem_iff.mp inTail) with old | added
      · obtain ⟨entry, inRest, rfl⟩ := List.mem_map.mp old
        refine Or.inl ⟨recordOf entry.1 entry.2, ?_, same' ▸ keep entry inRest _⟩
        rw [shape]
        exact List.mem_map_of_mem inRest
      · rw [List.mem_singleton.mp added] at same'
        exact Or.inr (same' ▸ volumeGrown.new _)
  · have same : SameExtent directory' directory := ⟨moved.extentLba, moved.dataLen_of_ne own⟩
    refine ⟨_, (readDirectoryRecords_congr image' same).trans
      (volumeGrown.others directory records inVolume own read), fun record member => ?_,
      fun record' member => ?_⟩
    · rw [← List.map_drop]
      exact ⟨_, List.mem_map_of_mem member, moved_afterAppend grown size record⟩
    · rw [← List.map_drop] at member
      obtain ⟨record, listed, rfl⟩ := List.mem_map.mp member
      exact Or.inl ⟨record, listed, moved_afterAppend grown size record⟩

/-- Every directory is still there. -/
theorem forward {directory : DirectoryRecord} (inVolume : Directory image directory) :
    ∃ directory', Directory image' directory' ∧ Moved grown size directory directory' := by
  induction inVolume with
  | root found => exact ⟨_, .root (volumeGrown.root _ found), moved_afterAppend _ _ _⟩
  | child parent read member isDirectory ih =>
    obtain ⟨parent', inVolume', moved⟩ := ih
    obtain ⟨records', read', there, _⟩ := volumeGrown.reads wellFormed parent moved read
    obtain ⟨child', member', moved'⟩ := there _ member
    exact ⟨child', .child inVolume' read' member' (moved'.isDirectory.mpr isDirectory), moved'⟩

/-- No directory is new. -/
theorem backward {directory' : DirectoryRecord} (inVolume' : Directory image' directory') :
    ∃ directory, Directory image directory ∧ Moved grown size directory directory' := by
  induction inVolume' with
  | root found' =>
    obtain ⟨root, found⟩ := wellFormed.root
    obtain rfl := Except.ok.inj ((volumeGrown.root _ found).symm.trans found')
    exact ⟨root, .root found, moved_afterAppend _ _ _⟩
  | child parent' read' member' isDirectory' ih =>
    obtain ⟨parent, inVolume, moved⟩ := ih
    obtain ⟨records, read, _⟩ := wellFormed.directories parent inVolume
    obtain ⟨records', readAgain, _, back⟩ := volumeGrown.reads wellFormed inVolume moved read
    obtain rfl := Except.ok.inj (read'.symm.trans readAgain)
    rcases back _ member' with ⟨child, member, moved'⟩ | notDirectory
    · exact ⟨child, .child inVolume read member (moved'.isDirectory.mp isDirectory'), moved'⟩
    · exact absurd isDirectory' notDirectory

omit wellFormed in
/-- The dot records of a moved directory. -/
theorem readsDots {directory directory' dot dotdot : DirectoryRecord} {rest : List DirectoryRecord}
    (inVolume : Directory image directory) (moved : Moved grown size directory directory')
    (read : readDirectoryRecords image directory = .ok (dot :: dotdot :: rest)) :
    ∃ dot' dotdot' rest', readDirectoryRecords image' directory' = .ok (dot' :: dotdot' :: rest') ∧
      dot'.extentLba = dot.extentLba ∧ dotdot'.extentLba = dotdot.extentLba ∧
      (directory = grown → dot'.dataLen = size ∧ dotdot'.dataLen = dotdot.dataLen) ∧
      (directory ≠ grown → dot' = afterAppend grown size dot ∧
        dotdot' = afterAppend grown size dotdot) := by
  by_cases own : directory = grown
  · subst own
    obtain ⟨first, second, others, tail, shape, _, valid, fits, read'⟩ := volumeGrown.own
    have same : SameExtent directory' { directory with dataLen := size } :=
      ⟨moved.extentLba, moved.dataLen_of_eq⟩
    obtain ⟨_, resizedRecord⟩ := withField_dataLen valid fits
    have listed := Except.ok.inj (read.symm.trans volumeGrown.read)
    rw [shape] at listed
    simp only [parsed, List.map_cons, List.cons.injEq] at listed
    obtain ⟨rfl, rfl, _⟩ := listed
    refine ⟨_, _, _, (readDirectoryRecords_congr image' same).trans read', ?_, rfl, fun _ => ⟨?_, rfl⟩,
      fun beside => absurd rfl beside⟩
    · show (recordOf _ (withField 10 size first.2)).extentLba = (recordOf first.1 first.2).extentLba
      rw [resizedRecord]
      rfl
    · show (recordOf _ (withField 10 size first.2)).dataLen = size
      rw [resizedRecord]
  · have same : SameExtent directory' directory := ⟨moved.extentLba, moved.dataLen_of_ne own⟩
    refine ⟨_, _, _, (readDirectoryRecords_congr image' same).trans
      (volumeGrown.others directory _ inVolume own read), ?_, ?_, fun equal => absurd equal own,
      fun _ => ⟨rfl, rfl⟩⟩
    · exact (moved_afterAppend grown size dot).extentLba
    · exact (moved_afterAppend grown size dotdot).extentLba

end VolumeGrown

/-! ### Who points at the grown directory -/

/-- The directory is the root and its own parent, or its parent lists it. -/
def ParentOf (image : Image) (parent directory : DirectoryRecord) : Prop :=
  (findRootRecord image = .ok directory ∧ parent = directory) ∨
    ∃ records, readDirectoryRecords image parent = .ok records ∧ directory ∈ records.drop 2 ∧
      directory.IsDirectory

theorem SizesConsistent.dots {image : Image} (consistent : SizesConsistent image)
    {directory : DirectoryRecord} (inVolume : Directory image directory) :
    ∃ parent, Directory image parent ∧ ParentOf image parent directory ∧
      DotSizes image directory parent := by
  cases inVolume with
  | root found => exact ⟨directory, .root found, Or.inl ⟨found, rfl⟩, consistent.root _ found⟩
  | child parent read member isDirectory =>
    exact ⟨_, parent, Or.inr ⟨_, read, member, isDirectory⟩,
      consistent.child _ _ _ parent read member isDirectory⟩

theorem afterAppend_dataLen (grown : DirectoryRecord) (size : Nat) (record : DirectoryRecord) :
    (afterAppend grown size record).dataLen = record.dataLen ∨
      (afterAppend grown size record).dataLen = size := by
  rw [afterAppend]
  split
  · exact Or.inr rfl
  · exact Or.inl rfl

/-- **Every record that names a directory afterwards** names one of before, as its own record or as
the `..` record of a directory below it. -/
theorem VolumeGrown.pointer {image image' : Image} {grown : DirectoryRecord}
    {placed : List (Nat × Bytes)} {new : Bytes} {size : Nat} (wellFormed : WellFormed image)
    (volumeGrown : VolumeGrown image grown placed new size image')
    (consistent : SizesConsistent image) {record' : DirectoryRecord}
    (pointer : Pointer image' record') :
    (∃ directory, Directory image directory ∧ record'.extentLba = directory.extentLba ∧
      (directory = grown → record'.dataLen = size)) ∨
    ∃ directory parent, Directory image directory ∧ Directory image parent ∧
      ParentOf image parent directory ∧ record'.extentLba = parent.extentLba ∧
      (record'.dataLen = parent.dataLen ∨ record'.dataLen = size) := by
  have named : ∀ directory', Directory image' directory' → ∃ directory, Directory image directory ∧
      directory'.extentLba = directory.extentLba ∧
      (directory = grown → directory'.dataLen = size) := by
    intro directory' inVolume'
    obtain ⟨directory, inVolume, moved⟩ := volumeGrown.backward wellFormed inVolume'
    exact ⟨directory, inVolume, moved.extentLba, fun equal => (equal ▸ moved).dataLen_of_eq⟩
  cases pointer with
  | root found' => exact Or.inl (named _ (.root found'))
  | child inVolume' read' member' isDirectory' =>
    exact Or.inl (named _ (.child inVolume' read' member' isDirectory'))
  | dots inVolume' read' member' =>
    obtain ⟨directory, inVolume, moved⟩ := volumeGrown.backward wellFormed inVolume'
    obtain ⟨parent, inParent, parentOf, dot, dotdot, rest, read, dotSize, dotdotSize⟩ :=
      consistent.dots inVolume
    obtain ⟨dot', dotdot', rest', readAgain, dotLba, dotdotLba, own, beside⟩ :=
      volumeGrown.readsDots inVolume moved read
    obtain rfl := Except.ok.inj (read'.symm.trans readAgain)
    simp only [List.take_succ_cons, List.take_zero, List.mem_cons, List.not_mem_nil, or_false]
      at member'
    rcases member' with rfl | rfl
    · exact Or.inl ⟨directory, inVolume, dotLba.trans dotSize.1, fun equal => (own equal).1⟩
    · refine Or.inr ⟨directory, parent, inVolume, inParent, parentOf, dotdotLba.trans dotdotSize.1, ?_⟩
      by_cases equal : directory = grown
      · exact Or.inl ((own equal).2.trans dotdotSize.2)
      · rw [(beside equal).2, ← dotdotSize.2]
        exact afterAppend_dataLen grown size dotdot

/-! ### Records that keep the old size -/

section Stale

variable {image image' : Image} {grown : DirectoryRecord} {placed : List (Nat × Bytes)}
  {fileName contents : Bytes} (wellFormed : WellFormed image) (consistent : SizesConsistent image)

include wellFormed consistent

/-- An append into the root leaves the root's own `..` record with the old size. -/
theorem root_keeps_parent_size
    (append : TargetAppended .root image grown placed fileName contents image') :
    ∃ record, Pointer image' record ∧ record.extentLba = grown.extentLba ∧
      record.dataLen = grown.dataLen := by
  have volumeGrown := append.volumeGrown wellFormed
  obtain ⟨dot, dotdot, rest, readRoot, _, dotdotSize⟩ := consistent.root grown append.found
  obtain ⟨dot', dotdot', rest', read', _, dotdotLba, own, _⟩ :=
    volumeGrown.readsDots append.inVolume (moved_afterAppend _ _ _) readRoot
  exact ⟨dotdot', .dots (.root (volumeGrown.root grown append.found)) read' (by simp),
    dotdotLba.trans dotdotSize.1, (own rfl).2.trans dotdotSize.2⟩

/-- An append into `\I386` leaves the `..` records of the directories below it with the old size. -/
theorem child_keeps_parent_size
    (append : TargetAppended .i386 image grown placed fileName contents image')
    {child : DirectoryRecord} (member : child ∈ (parsed placed).drop 2)
    (isDirectory : child.IsDirectory) :
    ∃ record, Pointer image' record ∧ record.extentLba = grown.extentLba ∧
      record.dataLen = grown.dataLen := by
  have volumeGrown := append.volumeGrown wellFormed
  have read := append.scan.read
  have inChild : Directory image child := .child append.inVolume read member isDirectory
  obtain ⟨dot, dotdot, rest, readChild, _, dotdotSize⟩ :=
    consistent.child grown _ child append.inVolume read member isDirectory
  obtain ⟨child', inChild', moved⟩ := volumeGrown.forward wellFormed inChild
  obtain ⟨dot', dotdot', rest', read', _, dotdotLba, _, beside⟩ :=
    volumeGrown.readsDots inChild moved readChild
  have notGrown : child ≠ grown := fun equal =>
    wellFormed.not_listed_self append.inVolume read (equal ▸ List.mem_of_mem_drop member)
  refine ⟨dotdot', .dots inChild' read' (by simp), dotdotLba.trans dotdotSize.1, ?_⟩
  rw [(beside notGrown).2, afterAppend, if_neg ?_, dotdotSize.2]
  -- the record of `\I386` lies in the root, not in a directory below `\I386`
  rintro rfl
  obtain ⟨root, rootRecords, foundRoot, readRoot, named, _⟩ := findI386Record_eq_ok.mp append.found
  have again := wellFormed.directory_eq_of_offset inChild (.root foundRoot) readChild readRoot
    (by simp) (List.mem_of_find?_eq_some named) rfl
  exact wellFormed.listed_ne_root append.inVolume read (List.mem_of_mem_drop member)
    (again ▸ foundRoot) rfl

end Stale

/-- **When all records that point at the grown directory agree.** The condition: the size stays, or
the directory is `\I386` and no directory lies below it. -/
theorem append_sizes_agree_iff {image image' : Image} {target : Target} {fileName contents : Bytes}
    {value : Unit} {directory directory' : DirectoryRecord} {records : List DirectoryRecord}
    (wellFormed : WellFormed image) (consistent : SizesConsistent image)
    (found : target.find image = .ok directory)
    (read : readDirectoryRecords image directory = .ok records)
    (run : (target.appendFile fileName contents).run image = .ok value image')
    (found' : target.find image' = .ok directory') :
    (∀ record, Pointer image' record → record.extentLba = directory.extentLba →
        record.dataLen = directory'.dataLen) ↔
      sizeAfter (recordBytes image records) fileName = directory.dataLen ∨
        (target = .i386 ∧ ∀ record ∈ records.drop 2, ¬ record.IsDirectory) := by
  obtain ⟨grown, placed, append⟩ := wellFormed.append run
  obtain rfl := Except.ok.inj (append.found.symm.trans found)
  obtain rfl := Except.ok.inj (read.symm.trans append.scan.read)
  obtain rfl := Except.ok.inj (append.found'.symm.trans found')
  have volumeGrown := append.volumeGrown wellFormed
  rw [append.scan.recordBytes,
    ← newEnd_eq_sizeAfter placed append.fits.short append.fits.lbaFits append.fits.lenFits]
  show (∀ record, Pointer image' record → record.extentLba = grown.extentLba →
    record.dataLen = newEnd image placed fileName contents) ↔ _
  generalize newEnd image placed fileName contents = size at *
  constructor
  · intro agree
    by_cases same : size = grown.dataLen
    · exact Or.inl same
    refine Or.inr ?_
    cases target with
    | root =>
      obtain ⟨record, pointer, points, stale⟩ :=
        root_keeps_parent_size wellFormed consistent append
      exact absurd ((agree record pointer points).symm.trans stale) same
    | i386 =>
      refine ⟨rfl, fun child member isDirectory => same ?_⟩
      obtain ⟨record, pointer, points, stale⟩ :=
        child_keeps_parent_size wellFormed consistent append member isDirectory
      exact (agree record pointer points).symm.trans stale
  · intro condition record pointer points
    rcases volumeGrown.pointer wellFormed consistent pointer with
      ⟨named, inVolume, extentLba, whenGrown⟩ |
      ⟨below, parent, inBelow, inParent, parentOf, extentLba, either⟩
    · exact whenGrown (wellFormed.eq_of_extentLba inVolume append.inVolume (extentLba.symm.trans points))
    · obtain rfl := wellFormed.eq_of_extentLba inParent append.inVolume (extentLba.symm.trans points)
      rcases condition with same | ⟨rfl, noneBelow⟩
      · exact either.elim (fun old => old.trans same.symm) id
      · rcases parentOf with ⟨root, equal⟩ | ⟨listed, readAgain, member, isDirectory⟩
        · exact absurd equal.symm (beside_i386 wellFormed append.found root)
        · obtain rfl := Except.ok.inj (readAgain.symm.trans read)
          exact absurd isDirectory (noneBelow below member)

/-! ### The sample volume, and one with a directory below `\I386` -/

/-- A volume of a root, `\I386` and leaf directories records its sizes consistently. -/
theorem sizesConsistent_of_leaves {image : Image} {root i386 : DirectoryRecord}
    {rootRecords i386Records : List DirectoryRecord} (foundRoot : findRootRecord image = .ok root)
    (readRoot : readDirectoryRecords image root = .ok rootRecords)
    (rootChildren : rootRecords.drop 2 = [i386])
    (readI386 : readDirectoryRecords image i386 = .ok i386Records)
    (leaves : Leaves image i386Records) (rootDots : DotSizes image root root)
    (i386Dots : DotSizes image i386 root)
    (leafDots : ∀ leaf ∈ i386Records.drop 2, leaf.IsDirectory → DotSizes image leaf i386) :
    SizesConsistent image := by
  refine ⟨fun other found => ?_, fun directory records child inVolume read member isDirectory => ?_⟩
  · obtain rfl := Except.ok.inj (found.symm.trans foundRoot)
    exact rootDots
  · rcases directories_of_leaves foundRoot readRoot rootChildren readI386 leaves inVolume with
      rfl | rfl | ⟨leaf, leafDirectory⟩
    · obtain rfl := Except.ok.inj (read.symm.trans readRoot)
      rw [rootChildren, List.mem_singleton] at member
      rwa [member]
    · obtain rfl := Except.ok.inj (read.symm.trans readI386)
      exact leafDots child member isDirectory
    · obtain ⟨leafRecords, readLeaf, _, _, none⟩ := leaves _ leaf leafDirectory
      obtain rfl := Except.ok.inj (read.symm.trans readLeaf)
      rw [none] at member
      cases member

theorem bareIso_sizesConsistent : SizesConsistent bareIso := by
  obtain ⟨foundRoot, readRoot⟩ := sampleIso_root bareIso_fits
  obtain ⟨_, scan⟩ := sampleIso_i386 bareIso_fits bareIso_shape
  have none : ∀ leaf ∈ (sampleRecords bareRecords).drop 2, ¬ leaf.IsDirectory := by decide
  refine sizesConsistent_of_leaves foundRoot readRoot bareIso_shape.root.2.2 scan.read
    (fun leaf member isDirectory => absurd isDirectory (none leaf member))
    ⟨_, _, _, readRoot, by constructor <;> decide, by constructor <;> decide⟩
    ⟨_, _, _, scan.read, by constructor <;> decide, by constructor <;> decide⟩
    fun leaf member isDirectory => absurd isDirectory (none leaf member)

/-- After an append to the sample volume without files all records agree. -/
theorem append_sizes_agree_bareIso : ∃ image' i386',
    (Target.appendFile .i386 [65] [1]).run bareIso = .ok () image' ∧
      findI386Record image' = .ok i386' ∧
      ∀ record, Pointer image' record → record.extentLba = (sampleI386 68).extentLba →
        record.dataLen = i386'.dataLen := by
  obtain ⟨found, scan⟩ := sampleIso_i386 bareIso_fits bareIso_shape
  have run : (Target.appendFile .i386 [65] [1]).run bareIso = .ok () _ := bareIso_append
  have foundTarget : Target.find .i386 bareIso = .ok (sampleI386 68) := found
  obtain ⟨i386, placed, append⟩ := bareIso_wellFormed.append run
  refine ⟨_, _, run, append.found', ?_⟩
  have agree := append_sizes_agree_iff bareIso_wellFormed bareIso_sizesConsistent foundTarget
    scan.read run append.found'
  exact agree.mpr (Or.inr ⟨rfl, by decide⟩)

/-- An `\I386` with one directory below it. -/
def asmsRecords : List Bytes :=
  [directoryRecord [0] 19 106, directoryRecord [1] 18 106, directoryRecord (ascii "ASMS") 20 68]

/-- The directory below `\I386`. -/
def asmsLeaf : List Bytes := [directoryRecord [0] 20 68, directoryRecord [1] 19 106]

/-- The sample volume with one directory below `\I386`. -/
def asmsIso : Image := sampleIso 21 106 asmsRecords (placements (20 * sectorSize) asmsLeaf)

theorem asmsIso_fits : SampleFits 21 106 asmsRecords (placements (20 * sectorSize) asmsLeaf) := by
  constructor <;> decide

theorem asmsIso_shape : SampleShape 21 106 asmsRecords := by
  constructor <;> decide

/-- The directory below `\I386` reads back. -/
theorem asmsIso_leaf : readDirectoryRecords asmsIso
      (recordOf (19 * sectorSize + 68) (directoryRecord (ascii "ASMS") 20 68))
    = .ok (parsed (placements (20 * sectorSize) asmsLeaf)) := by
  have start : (recordOf (19 * sectorSize + 68) (directoryRecord (ascii "ASMS") 20 68)).start
      = 20 * sectorSize := by decide
  have length : (recordOf (19 * sectorSize + 68) (directoryRecord (ascii "ASMS") 20 68)).dataLen
      = 68 := by decide
  rw [readDirectoryRecords, start, length]
  exact (scan_plant asmsIso_fits.planted (by decide)
    (fun entry member => by simp [sampleEntries, member]) (by decide) (by decide) (by decide)).read

theorem asmsIso_children : (sampleRecords asmsRecords).drop 2
    = [recordOf (19 * sectorSize + 68) (directoryRecord (ascii "ASMS") 20 68)] := by
  decide

theorem asmsIso_leaves : Leaves asmsIso (sampleRecords asmsRecords) := by
  intro leaf member _
  rw [asmsIso_children, List.mem_singleton] at member
  subst member
  exact ⟨_, asmsIso_leaf, by decide, by decide, by decide⟩

theorem asmsIso_wellFormed : WellFormed asmsIso :=
  sampleIso_wellFormed asmsIso_fits asmsIso_shape asmsIso_leaves

theorem asmsIso_sizesConsistent : SizesConsistent asmsIso := by
  obtain ⟨foundRoot, readRoot⟩ := sampleIso_root asmsIso_fits
  obtain ⟨_, scan⟩ := sampleIso_i386 asmsIso_fits asmsIso_shape
  refine sizesConsistent_of_leaves foundRoot readRoot asmsIso_shape.root.2.2 scan.read asmsIso_leaves
    ⟨_, _, _, readRoot, by constructor <;> decide, by constructor <;> decide⟩
    ⟨_, _, _, scan.read, by constructor <;> decide, by constructor <;> decide⟩
    fun leaf member isDirectory => ?_
  obtain rfl := List.mem_singleton.mp (asmsIso_children ▸ member)
  exact ⟨_, _, _, asmsIso_leaf, by constructor <;> decide, by constructor <;> decide⟩

theorem asmsIso_nextLba : nextLba asmsIso = 21 := sampleIso_nextLba asmsIso_fits

theorem asmsIso_newEnd :
    newEnd asmsIso (placements (19 * sectorSize) asmsRecords) [65] [1] = 140 := by
  rw [newEnd, sortedRecords, newRecord, asmsIso_nextLba]
  rfl

theorem asmsIso_appendFits :
    AppendFits asmsIso (sampleI386 106) (placements (19 * sectorSize) asmsRecords) [65] [1] := by
  refine ⟨by decide, by decide, ?_, by decide, by decide, ?_, ?_, ?_⟩
  · rw [asmsIso_nextLba]
    decide
  · rw [asmsIso_newEnd]
    decide
  · rw [asmsIso_newEnd]
    decide
  · rw [asmsIso_nextLba]
    decide

/-- **The `..` record of a directory below `\I386` keeps the old size**: not all records that point at
`\I386` agree after an append. -/
theorem append_sizes_disagree : ¬ ∀ (image image' : Image) (target : Target)
    (fileName contents : Bytes) (directory directory' : DirectoryRecord),
    WellFormed image → SizesConsistent image → target.find image = .ok directory →
    (target.appendFile fileName contents).run image = .ok () image' →
    target.find image' = .ok directory' →
    ∀ record, Pointer image' record → record.extentLba = directory.extentLba →
      record.dataLen = directory'.dataLen := by
  intro claimed
  obtain ⟨found, scan⟩ := sampleIso_i386 asmsIso_fits asmsIso_shape
  obtain ⟨root, rootPlaced, staged⟩ := sampleIso_staged asmsIso_fits asmsIso_shape asmsIso_leaves
  have run : (Target.appendFile .i386 [65] [1]).run asmsIso = .ok () _ :=
    (appendFileToI386_run staged).mpr ⟨asmsIso_appendFits, rfl⟩
  obtain ⟨grown, placed, append⟩ := asmsIso_wellFormed.append run
  obtain rfl := Except.ok.inj (append.found.symm.trans found)
  obtain rfl := append.scan.unique scan
  obtain ⟨record, pointer, points, stale⟩ := child_keeps_parent_size asmsIso_wellFormed
    asmsIso_sizesConsistent append (asmsIso_children ▸ List.mem_singleton_self _) (by decide)
  have agree := claimed asmsIso _ .i386 [65] [1] _ _ asmsIso_wellFormed asmsIso_sizesConsistent found
    run append.found' record pointer points
  rw [stale] at agree
  -- 106 bytes cannot be 140 bytes
  have same : (106 : Nat) = newEnd asmsIso (placements (19 * sectorSize) asmsRecords) [65] [1] := agree
  rw [asmsIso_newEnd] at same
  omega

end Bootsmith.Iso
