/-
**The classifier's reader and the calls on `\I386` agree.**

The reader sees the records of a directory as the mutator does (`isoEntries_of_scan`). After a call on
a well-formed image it reads every directory beside `\I386` as before, up to the new size of `\I386`,
and in `\I386` it lists what it listed before and the files that were added.

* `collectPaths_of_wrote`: the paths after a call are the old ones and those of the added files;
* `collectPaths_call`: an append adds the path of its file, and a replacement of a file no path.
-/

import Bootsmith.Inspect.Tree
import Bootsmith.Iso.Frame

namespace Bootsmith.Inspect

open Bootsmith.Library
open Bootsmith.Iso (DirectoryRecord RawRecord Scan Staged WellFormed Wrote Directory recordOf parsed resized
  readDirectoryRecords findRootRecord findI386Record isoNameEq)

/-! ### Records -/

/-- Where a record's directory lies. -/
def refOf (record : DirectoryRecord) : DirRef := ⟨record.extentLba, record.dataLen⟩

/-- The entry of a record. -/
def listed (beyond : Char → Text) (record : DirectoryRecord) : Option (Text × Option DirRef) :=
  if normalizeIsoName beyond record.name ≠ dotName ∧ normalizeIsoName beyond record.name ≠ dotDotName then
    some (normalizeIsoName beyond record.name, if record.IsDirectory then some (refOf record) else none)
  else none

section Records

variable {beyond : Char → Text}

theorem listed_of_visible {record : DirectoryRecord} (visible : Visible beyond record.name) :
    listed beyond record
      = some (normalizeIsoName beyond record.name, if record.IsDirectory then some (refOf record) else none) :=
  if_pos visible

theorem listed_file {record : DirectoryRecord} (visible : Visible beyond record.name)
    (file : ¬ record.IsDirectory) : listed beyond record = some (normalizeIsoName beyond record.name, none) := by
  rw [listed_of_visible visible, if_neg file]

/-- What the entry of a record says about it. -/
theorem listed_eq_some {record : DirectoryRecord} {entry : Text × Option DirRef}
    (shown : listed beyond record = some entry) :
    Visible beyond record.name ∧ entry.1 = normalizeIsoName beyond record.name ∧
      ∀ child, entry.2 = some child → record.IsDirectory ∧ child = refOf record := by
  unfold listed at shown
  split at shown
  · rename_i visible
    obtain rfl := Option.some.inj shown
    refine ⟨visible, rfl, fun child isDirectory => ?_⟩
    by_cases directory : record.IsDirectory
    · rw [if_pos directory] at isDirectory
      exact ⟨directory, (Option.some.inj isDirectory).symm⟩
    · rw [if_neg directory] at isDirectory
      cases isDirectory
  · cases shown

/-- A name that is listed is not that of a dot record. -/
theorem Visible.not_dot {name : Bytes} (visible : Visible beyond name) : name ≠ [0] ∧ name ≠ [1] := by
  constructor <;> rintro rfl
  · exact visible.1 rfl
  · exact visible.2 rfl

/-- The two readers see one record. -/
theorem entryOf_eq_listed {raw : Bytes} (valid : RawRecord raw) (pos : Nat) :
    entryOf beyond raw = listed beyond (recordOf pos raw) := by
  have dirBytes : DirBytes raw := ⟨valid.minimum, valid.lenByte.le, valid.nameFits⟩
  have directory : isDirectory raw = decide (recordOf pos raw).IsDirectory := rfl
  unfold entryOf listed
  by_cases visible : Visible beyond (rawName raw)
  · have both := And.intro dirBytes visible
    unfold Visible at both visible
    rw [if_pos both, directory]
    refine Eq.trans ?_ (if_pos visible).symm
    by_cases isDirectory : (recordOf pos raw).IsDirectory
    · rw [if_pos isDirectory, decide_eq_true isDirectory]
      rfl
    · rw [if_neg isDirectory, decide_eq_false isDirectory]
      rfl
  · have hidden := fun both : DirBytes raw ∧ Visible beyond (rawName raw) => visible both.2
    unfold Visible at hidden visible
    exact (if_neg hidden).trans (if_neg visible).symm

variable {image : Image} {directory : DirectoryRecord}

/-- **The two readers see the same records in a directory.** -/
theorem isoEntries_of_scan {placed : List (Nat × Bytes)}
    (scan : Scan image (directory.start + directory.dataLen) directory.start placed)
    (inside : directory.start + directory.dataLen ≤ image.size) :
    isoEntries beyond image (refOf directory) = .ok ((parsed placed).filterMap (listed beyond)) := by
  have read : readExtent image (refOf directory) = .ok (image.slice directory.start directory.dataLen) := by
    show ioError (readExact image directory.start directory.dataLen) = _
    rw [readExact_of_le inside]
    rfl
  have laid := Laid.of_scan (Dvd.intro_left _ rfl) scan (Nat.add_zero _).symm
  have same : (placed.map Prod.snd).filterMap (entryOf beyond) = (parsed placed).filterMap (listed beyond) := by
    rw [parsed, List.filterMap_map, List.filterMap_map]
    refine List.filterMap_congr fun entry member => ?_
    exact entryOf_eq_listed (scan.bounds member).2.2.2.1 entry.1
  rw [isoEntries, read, ← same, ← laid.entries]
  rfl

theorem isoEntries_of_read {records : List DirectoryRecord}
    (read : readDirectoryRecords image directory = .ok records)
    (inside : directory.start + directory.dataLen ≤ image.size) :
    isoEntries beyond image (refOf directory) = .ok (records.filterMap (listed beyond)) := by
  obtain ⟨placed, scan, rfl⟩ := Iso.readDirectoryRecordsFrom_eq_ok.mp read
  exact isoEntries_of_scan scan inside

end Records

/-! ### The name of `\I386` -/

theorem toAsciiLower_eq_self {byte lowered : UInt8} (same : toAsciiLower byte = lowered)
    (notLetter : lowered < 97) : byte = lowered := by
  unfold toAsciiLower at same
  grind

/-- The record that the mutator takes for `\I386` has that name in the reader, too. -/
theorem normalize_I386 {beyond : Char → Text} {name : Bytes} (named : isoNameEq name (ascii "I386")) :
    normalizeIsoName beyond name = "I386".toList := by
  have lowered : (Iso.stripVersion name).map toAsciiLower = [105, 51, 56, 54] := beq_iff_eq.mp named
  obtain ⟨first, second, third, fourth, stripped⟩ : ∃ first second third fourth,
      Iso.stripVersion name = [first, second, third, fourth] :=
    List.length_eq_four.mp ((List.length_map _).symm.trans (congrArg List.length lowered))
  rw [stripped] at lowered
  simp only [List.map_cons, List.map_nil, List.cons.injEq, and_true] at lowered
  obtain ⟨letter, two, three, four⟩ := lowered
  obtain rfl := toAsciiLower_eq_self two (by decide)
  obtain rfl := toAsciiLower_eq_self three (by decide)
  obtain rfl := toAsciiLower_eq_self four (by decide)
  have case : first = 73 ∨ first = 105 := by
    unfold toAsciiLower at letter
    grind
  have versioned : name = [first, 51, 56, 54] ∨ name = [first, 51, 56, 54, 59, 49] := by
    unfold Iso.stripVersion at stripped
    split at stripped
    · rename_i suffix
      obtain ⟨base, rfl⟩ := List.isSuffixOf_iff_suffix.mp suffix
      have length : (base ++ ascii ";1").length - 2 = base.length := by
        rw [List.length_append]
        exact Nat.add_sub_cancel _ 2
      rw [length, List.take_left] at stripped
      exact Or.inr (by rw [stripped]; rfl)
    · exact Or.inl stripped
  rcases case with rfl | rfl <;> rcases versioned with rfl | rfl <;> rfl

/-! ### The directories of a well-formed image -/

section Directories

variable {beyond : Char → Text} {image : Image} {root i386 : DirectoryRecord}
  {rootPlaced placed : List (Nat × Bytes)} (wellFormed : WellFormed image)
  (staged : Staged image root i386 rootPlaced placed)

/-- A directory beside the root and `\I386`. -/
def Beside (image : Image) (root i386 : DirectoryRecord) (node : DirRef) : Prop :=
  ∃ directory, Directory image directory ∧ directory ≠ root ∧ directory ≠ i386 ∧ node = refOf directory

include wellFormed

variable (beyond) in
theorem isoEntries_of_directory {directory : DirectoryRecord} (inVolume : Directory image directory) :
    ∃ records, readDirectoryRecords image directory = .ok records ∧
      isoEntries beyond image (refOf directory) = .ok (records.filterMap (listed beyond)) ∧
      ∀ record ∈ records, Visible beyond record.name → record.IsDirectory → Directory image record := by
  obtain ⟨placed, scan, read, dots, _⟩ := wellFormed.scan inVolume
  refine ⟨_, read, isoEntries_of_scan scan (wellFormed.directory_inside inVolume).1,
    fun record member visible isDirectory => ?_⟩
  exact .child inVolume read (dots.mem_drop member visible.not_dot) isDirectory

include staged

theorem i386_inVolume : Directory image i386 := by
  obtain ⟨records, read, named⟩ : ∃ records, readDirectoryRecords image root = .ok records ∧
      records.find? (fun record => isoNameEq record.name (ascii "I386")) = some i386 :=
    ⟨_, staged.rootScan.read, staged.named⟩
  exact (wellFormed.i386_directory staged.findRoot read named staged.isDirectory).1

/-- The record of `\I386` lies in the root only. -/
theorem offset_ne_of_beside {directory record : DirectoryRecord} {records : List DirectoryRecord}
    (inVolume : Directory image directory) (notRoot : directory ≠ root)
    (read : readDirectoryRecords image directory = .ok records) (member : record ∈ records) :
    record.offset ≠ i386.offset := by
  intro same
  obtain ⟨dirPlaced, scan, read', _⟩ := wellFormed.scan inVolume
  obtain rfl := Except.ok.inj (read.symm.trans read')
  have here := Iso.offset_within scan member
  have extent := directory.extent_within_sectors
  have apart := (wellFormed.directory_apart (.root staged.findRoot) inVolume.entry notRoot).resolve_left
    (wellFormed.dataLen_pos inVolume)
  have field := staged.field_within
  have rootExtent := root.extent_within_sectors
  simp only [Span.Apart, Span.Within, Span.stop, DirectoryRecord.sectors, DirectoryRecord.extent] at *
  omega

/-- A directory that is listed in another one is not the root, and it is `\I386` only in the root. -/
theorem beside_of_child {directory child : DirectoryRecord} {records : List DirectoryRecord}
    (inVolume : Directory image directory) (read : readDirectoryRecords image directory = .ok records)
    (member : child ∈ records) (isDirectory : Directory image child)
    (other : directory = root → child ≠ i386) : Beside image root i386 (refOf child) := by
  refine ⟨child, isDirectory, ?_, ?_, rfl⟩
  · rintro rfl
    obtain ⟨dirPlaced, scan, read', _⟩ := wellFormed.scan inVolume
    obtain rfl := Except.ok.inj (read.symm.trans read')
    have here := Iso.offset_within scan member
    have extent := directory.extent_within_sectors
    have clear := (wellFormed.directory_inside inVolume).2
    have atRoot := Iso.root_offset staged.findRoot
    have descriptor := Iso.rootOffset_inside
    simp only [Span.Apart, Span.Within, Span.stop, Iso.pvdSector, DirectoryRecord.sectors,
      DirectoryRecord.extent] at *
    omega
  · rintro rfl
    by_cases isRoot : directory = root
    · exact other isRoot rfl
    · exact offset_ne_of_beside wellFormed staged inVolume isRoot read member rfl

/-- What is reached from a directory beside the root and `\I386` is one, too. -/
theorem Beside.child {node : DirRef} (beside : Beside image root i386 node)
    {entries : List (Text × Option DirRef)} (read : isoEntries beyond image node = .ok entries)
    {entry : Text × Option DirRef} (member : entry ∈ entries) {child : DirRef}
    (isDirectory : entry.2 = some child) : Beside image root i386 child := by
  obtain ⟨directory, inVolume, notRoot, _, rfl⟩ := beside
  obtain ⟨records, readRecords, read', below⟩ := isoEntries_of_directory beyond wellFormed inVolume
  obtain rfl := Except.ok.inj (read.symm.trans read')
  obtain ⟨record, inRecords, shown⟩ := List.mem_filterMap.mp member
  obtain ⟨visible, _, directory'⟩ := listed_eq_some shown
  obtain ⟨flagged, rfl⟩ := directory' child isDirectory
  exact beside_of_child wellFormed staged inVolume readRecords inRecords
    (below record inRecords visible flagged) fun isRoot => absurd isRoot notRoot

/-- A directory in `\I386` is neither the root nor `\I386`. -/
theorem beside_of_i386 {entry : Text × Option DirRef}
    (member : entry ∈ (parsed placed).filterMap (listed beyond)) {child : DirRef}
    (isDirectory : entry.2 = some child) : Beside image root i386 child := by
  have i386In := i386_inVolume wellFormed staged
  obtain ⟨records, read, _, below⟩ := isoEntries_of_directory beyond wellFormed i386In
  obtain rfl : parsed placed = records := Except.ok.inj (staged.scan.read.symm.trans read)
  obtain ⟨record, inRecords, shown⟩ := List.mem_filterMap.mp member
  obtain ⟨visible, _, directory⟩ := listed_eq_some shown
  obtain ⟨flagged, rfl⟩ := directory child isDirectory
  refine beside_of_child wellFormed staged i386In read inRecords (below record inRecords visible flagged)
    fun isRoot => ?_
  exact absurd isRoot (wellFormed.i386_directory staged.findRoot staged.rootScan.read staged.named
    staged.isDirectory).2.1

/-- A directory in the root is `\I386`, or it is neither the root nor `\I386`. -/
theorem beside_of_root {record : DirectoryRecord} (member : record ∈ parsed rootPlaced)
    (other : record.offset ≠ i386.offset) {entry : Text × Option DirRef}
    (shown : listed beyond record = some entry) {child : DirRef} (isDirectory : entry.2 = some child) :
    Beside image root i386 child := by
  have rootIn : Directory image root := .root staged.findRoot
  obtain ⟨records, read, _, below⟩ := isoEntries_of_directory beyond wellFormed rootIn
  obtain rfl : parsed rootPlaced = records := Except.ok.inj (staged.rootScan.read.symm.trans read)
  obtain ⟨visible, _, directory⟩ := listed_eq_some shown
  obtain ⟨flagged, rfl⟩ := directory child isDirectory
  refine beside_of_child wellFormed staged rootIn read member (below record member visible flagged)
    fun _ same => ?_
  exact other (congrArg DirectoryRecord.offset same)

omit wellFormed in
theorem eq_i386_of_offset {record : DirectoryRecord} (member : record ∈ parsed rootPlaced)
    (same : record.offset = i386.offset) : record = i386 := by
  obtain ⟨raw, inPlaced, shape, _⟩ := staged.entry
  obtain ⟨entry, listedEntry, rfl⟩ := List.mem_map.mp member
  obtain rfl := staged.rootScan.eq_of_offset listedEntry inPlaced same
  exact shape.symm

omit wellFormed in
/-- The reader opens the root that the mutator finds. -/
theorem openIso_of_staged : openIso beyond image = .ok (refOf root) := by
  obtain ⟨raw, record, rfl⟩ := staged.rootRecord
  have minimum := record.valid.minimum
  have header : image.slice (pvdSector * sectorSize) 6 = 1 :: isoId := by
    have six := congrArg (List.take 6) record.header
    rwa [Image.slice_take _ _ _ _ (by decide)] at six
  have here : image.slice (pvdSector * sectorSize + 156) 34 = raw.take 34 := by
    rw [← Image.slice_take _ _ raw.length _ minimum]
    exact congrArg (List.take 34) record.here
  rw [openIso_of_header record.large header, here, dirRefOf, refOf]
  have part : ∀ start stop, stop ≤ 34 → subrange (raw.take 34) start stop = subrange raw start stop := by
    intro start stop inside
    have first : raw.take 34 = subrange raw 0 34 := by rw [subrange, List.drop_zero, Nat.sub_zero]
    rw [first, Iso.subrange_subrange (by omega), Nat.zero_add, Nat.zero_add]
  rw [part 2 6 (by decide), part 10 14 (by decide)]
  rfl

/-- Everything the reader reaches can be read. -/
theorem readable_of_wellFormed {levels : Nat} {target : DirRef}
    (reached : Reaches (isoEntries beyond image) levels (refOf root) target) :
    ∃ entries, isoEntries beyond image target = .ok entries := by
  obtain ⟨directory, inVolume, rfl⟩ : ∃ directory, Directory image directory ∧ target = refOf directory := by
    refine reached.invariant (fun node => ∃ directory, Directory image directory ∧ node = refOf directory)
      ?_ ⟨root, .root staged.findRoot, rfl⟩
    rintro _ entries ⟨directory, inVolume, rfl⟩ read entry member child isDirectory
    obtain ⟨records, _, read', below⟩ := isoEntries_of_directory beyond wellFormed inVolume
    obtain rfl := Except.ok.inj (read.symm.trans read')
    obtain ⟨record, inRecords, shown⟩ := List.mem_filterMap.mp member
    obtain ⟨visible, _, directory'⟩ := listed_eq_some shown
    obtain ⟨flagged, rfl⟩ := directory' child isDirectory
    exact ⟨record, below record inRecords visible flagged, rfl⟩
  obtain ⟨records, _, read, _⟩ := isoEntries_of_directory beyond wellFormed inVolume
  exact ⟨_, read⟩

end Directories

/-! ### After a call -/

section Call

variable {beyond : Char → Text} {image image' : Image} {root i386 i386' : DirectoryRecord}
  {rootPlaced placed rootPlaced' placed' : List (Nat × Bytes)} {name contents : Bytes}
  (wellFormed : WellFormed image) (staged : Staged image root i386 rootPlaced placed)
  (wrote : Wrote image root i386 rootPlaced placed name contents image' i386' rootPlaced' placed')

include wellFormed staged wrote

/-- A directory beside the root and `\I386` is read as before. -/
theorem isoEntries_beside {node : DirRef} (beside : Beside image root i386 node) :
    isoEntries beyond image' node = isoEntries beyond image node := by
  obtain ⟨directory, inVolume, notRoot, notI386, rfl⟩ := beside
  obtain ⟨records, read, read'⟩ := wellFormed.records_keep staged (i386_inVolume wellFormed staged)
    wrote.same wrote.offset wrote.staged.rootScan wrote.rootRecords inVolume notI386
  have unchanged : records.map (resized i386') = records := by
    refine (List.map_congr_left fun record member => if_neg ?_).trans (List.map_id _)
    rw [wrote.offset]
    exact offset_ne_of_beside wellFormed staged inVolume notRoot read member
  have inside := (wellFormed.directory_inside inVolume).1
  rw [unchanged] at read'
  rw [isoEntries_of_read read inside, isoEntries_of_read read' (inside.trans wrote.same.size)]

theorem lists_beside {node : DirRef} (beside : Beside image root i386 node) {levels : Nat}
    {pre path : Text} :
    Yields (isoEntries beyond image') levels node pre path
      ↔ Yields (isoEntries beyond image) levels node pre path := by
  refine lists_congr (fun target reached => ?_) path
  exact isoEntries_beside wellFormed staged wrote (reached.invariant (Beside image root i386)
    (fun _ _ beside read _ member _ isDirectory => beside.child wellFormed staged read member isDirectory) beside)

section Added

variable {added : Finset Text}
  (lists : ∀ entry, entry ∈ (parsed placed').filterMap (listed beyond) ↔
    entry ∈ (parsed placed).filterMap (listed beyond) ∨ ∃ name ∈ added, entry = (name, none))

include lists

/-- `\I386` lists its old paths and those of the added files. -/
theorem lists_i386 {levels : Nat} {pre path : Text} :
    Yields (isoEntries beyond image') (levels + 1) (refOf i386') pre path
      ↔ Yields (isoEntries beyond image) (levels + 1) (refOf i386) pre path ∨
        ∃ name ∈ added, path = joinPath pre name := by
  rw [Yields, Yields, isoEntries_of_scan wrote.staged.scan wrote.staged.inside,
    isoEntries_of_scan staged.scan staged.inside]
  simp only [Except.ok.injEq, exists_eq_left']
  constructor
  · rintro ⟨entry, member, found⟩
    rcases (lists entry).mp member with old | ⟨name, new, rfl⟩
    · refine Or.inl ⟨entry, old, found.imp_right fun deeper => ?_⟩
      obtain ⟨child, isDirectory, below⟩ := deeper
      exact ⟨child, isDirectory, (lists_beside wellFormed staged wrote
        (beside_of_i386 wellFormed staged old isDirectory)).mp below⟩
    · rcases found with here | ⟨child, isDirectory, _⟩
      · exact Or.inr ⟨name, new, here⟩
      · cases isDirectory
  · rintro (⟨entry, old, found⟩ | ⟨name, new, here⟩)
    · refine ⟨entry, (lists entry).mpr (Or.inl old), found.imp_right fun deeper => ?_⟩
      obtain ⟨child, isDirectory, below⟩ := deeper
      exact ⟨child, isDirectory, (lists_beside wellFormed staged wrote
        (beside_of_i386 wellFormed staged old isDirectory)).mpr below⟩
    · exact ⟨(name, none), (lists _).mpr (Or.inr ⟨name, new, rfl⟩), Or.inl here⟩

/-- The root lists its old paths and those of the added files. -/
theorem lists_root {levels : Nat} {path : Text} :
    Yields (isoEntries beyond image') (levels + 2) (refOf root) [] path
      ↔ Yields (isoEntries beyond image) (levels + 2) (refOf root) [] path ∨
        ∃ name ∈ added, path = joinPath "I386".toList name := by
  have inRoot := List.mem_of_find?_eq_some staged.named
  have named : normalizeIsoName beyond i386.name = "I386".toList :=
    normalize_I386 (by simpa using List.find?_some staged.named)
  have visible : Visible beyond i386.name := by
    rw [Visible, named]
    decide
  have shown : listed beyond i386 = some ("I386".toList, some (refOf i386)) := by
    rw [listed_of_visible visible, named, if_pos staged.isDirectory]
  have renamed : resized i386' i386 = { i386 with dataLen := i386'.dataLen } := if_pos wrote.offset.symm
  have shown' : listed beyond (resized i386' i386) = some ("I386".toList, some (refOf i386')) := by
    have directory : (resized i386' i386).IsDirectory := by
      rw [renamed]
      exact staged.isDirectory
    have called : (resized i386' i386).name = i386.name := by rw [renamed]
    rw [listed_of_visible (called.symm ▸ visible), called, named, if_pos directory, renamed, refOf, refOf,
      wrote.extentLba]
  have joined : joinPath [] "I386".toList = "I386".toList := if_pos rfl
  rw [Yields, Yields, isoEntries_of_scan wrote.staged.rootScan wrote.staged.rootInside,
    isoEntries_of_scan staged.rootScan staged.rootInside, wrote.rootRecords, List.filterMap_map]
  simp only [Except.ok.injEq, exists_eq_left', List.mem_filterMap, Function.comp_apply]
  constructor
  · rintro ⟨entry, ⟨record, member, here⟩, found⟩
    by_cases isI386 : record.offset = i386.offset
    · obtain rfl := eq_i386_of_offset staged member isI386
      obtain rfl := Option.some.inj (shown'.symm.trans here)
      rcases found with rfl | ⟨child, isDirectory, below⟩
      · exact Or.inl ⟨_, ⟨_, member, shown⟩, Or.inl rfl⟩
      · obtain rfl := Option.some.inj isDirectory
        rw [joined, lists_i386 wellFormed staged wrote lists] at below
        refine below.imp_left fun below => ⟨_, ⟨_, member, shown⟩, Or.inr ⟨_, rfl, ?_⟩⟩
        rwa [joined]
    · have same : resized i386' record = record := if_neg (by rwa [wrote.offset])
      rw [same] at here
      refine Or.inl ⟨entry, ⟨record, member, here⟩, found.imp_right fun deeper => ?_⟩
      obtain ⟨child, isDirectory, below⟩ := deeper
      exact ⟨child, isDirectory, (lists_beside wellFormed staged wrote
        (beside_of_root wellFormed staged member isI386 here isDirectory)).mp below⟩
  · rintro (⟨entry, ⟨record, member, here⟩, found⟩ | new)
    · by_cases isI386 : record.offset = i386.offset
      · obtain rfl := eq_i386_of_offset staged member isI386
        obtain rfl := Option.some.inj (shown.symm.trans here)
        refine ⟨_, ⟨_, member, shown'⟩, found.imp_right fun deeper => ?_⟩
        obtain ⟨child, isDirectory, below⟩ := deeper
        obtain rfl := Option.some.inj isDirectory
        exact ⟨_, rfl, (lists_i386 wellFormed staged wrote lists).mpr (Or.inl below)⟩
      · have same : resized i386' record = record := if_neg (by rwa [wrote.offset])
        refine ⟨entry, ⟨record, member, same.symm ▸ here⟩,
          found.imp_right fun deeper => ?_⟩
        obtain ⟨child, isDirectory, below⟩ := deeper
        exact ⟨child, isDirectory, (lists_beside wellFormed staged wrote
          (beside_of_root wellFormed staged member isI386 here isDirectory)).mpr below⟩
    · refine ⟨_, ⟨_, inRoot, shown'⟩, Or.inr ⟨_, rfl, ?_⟩⟩
      rw [joined, lists_i386 wellFormed staged wrote lists]
      exact Or.inr new

/-- Everything the reader reaches can still be read. -/
theorem readable_of_wrote {levels : Nat} {target : DirRef}
    (reached : Reaches (isoEntries beyond image') levels (refOf root) target) :
    ∃ entries, isoEntries beyond image' target = .ok entries := by
  have readRoot : isoEntries beyond image' (refOf root) = .ok ((parsed rootPlaced').filterMap (listed beyond)) :=
    isoEntries_of_scan wrote.staged.rootScan wrote.staged.rootInside
  have readI386 : isoEntries beyond image' (refOf i386') = .ok ((parsed placed').filterMap (listed beyond)) :=
    isoEntries_of_scan wrote.staged.scan wrote.staged.inside
  have known : target = refOf root ∨ target = refOf i386' ∨ Beside image root i386 target := by
    refine reached.invariant (fun node =>
      node = refOf root ∨ node = refOf i386' ∨ Beside image root i386 node) ?_ (Or.inl rfl)
    rintro node entries (rfl | rfl | beside) read entry member child isDirectory
    · obtain rfl := Except.ok.inj (readRoot.symm.trans read)
      rw [wrote.rootRecords, List.filterMap_map] at member
      obtain ⟨record, inRoot, shown⟩ := List.mem_filterMap.mp member
      refine Or.inr ?_
      by_cases isI386 : record.offset = i386.offset
      · obtain rfl := eq_i386_of_offset staged inRoot isI386
        have renamed : resized i386' record = { record with dataLen := i386'.dataLen } := if_pos wrote.offset.symm
        obtain ⟨_, rfl⟩ := (listed_eq_some shown).2.2 child isDirectory
        exact Or.inl (by rw [renamed, refOf, refOf, wrote.extentLba])
      · have same : resized i386' record = record := if_neg (by rwa [wrote.offset])
        rw [Function.comp_apply, same] at shown
        exact Or.inr (beside_of_root wellFormed staged inRoot isI386 shown isDirectory)
    · obtain rfl := Except.ok.inj (readI386.symm.trans read)
      rcases (lists entry).mp member with old | ⟨name, _, rfl⟩
      · exact Or.inr (Or.inr (beside_of_i386 wellFormed staged old isDirectory))
      · cases isDirectory
    · rw [isoEntries_beside wellFormed staged wrote beside] at read
      exact Or.inr (Or.inr (beside.child wellFormed staged read member isDirectory))
  rcases known with rfl | rfl | beside
  · exact ⟨_, readRoot⟩
  · exact ⟨_, readI386⟩
  · obtain ⟨directory, inVolume, _, _, shape⟩ := id beside
    rw [isoEntries_beside wellFormed staged wrote beside, shape]
    obtain ⟨records, _, read, _⟩ := isoEntries_of_directory beyond wellFormed inVolume
    exact ⟨_, read⟩

/-- **The paths after a call** are the old ones and those of the added files of `\I386`. -/
theorem collectPaths_of_wrote : ∃ paths, collectPaths beyond image = .ok paths ∧
    collectPaths beyond image' = .ok (paths ∪ added.image (joinPath "I386".toList)) := by
  obtain ⟨paths, walked⟩ : ∃ paths, walk (isoEntries beyond image) (maxDirDepth + 1) (refOf root) [] ∅
      = .ok paths := walk_isOk_iff.mpr fun _ reached => readable_of_wellFormed wellFormed staged reached
  obtain ⟨paths', walked'⟩ : ∃ paths, walk (isoEntries beyond image') (maxDirDepth + 1) (refOf root) [] ∅
      = .ok paths := walk_isOk_iff.mpr fun _ reached => readable_of_wrote wellFormed staged wrote lists reached
  have same : paths' = paths ∪ added.image (joinPath "I386".toList) := by
    ext path
    have inside := mem_walk walked path
    have inside' := mem_walk walked' path
    rw [maxDirDepth, lists_root wellFormed staged wrote lists] at inside'
    rw [inside', Finset.mem_union, inside, Finset.mem_image, or_assoc]
    exact or_congr Iff.rfl (or_congr Iff.rfl (exists_congr fun name => and_congr_right fun _ => eq_comm))
  refine ⟨paths, ?_, ?_⟩
  · rw [collectPaths, openIso_of_staged staged]
    exact (walkDir_eq image _ [] 0 ∅).trans walked
  · rw [collectPaths, openIso_of_staged wrote.staged, ← same]
    exact (walkDir_eq image' _ [] 0 ∅).trans walked'

end Added

end Call

/-! ### The two calls -/

section Calls

variable {beyond : Char → Text} {image : Image} {root i386 : DirectoryRecord}
  {rootPlaced placed : List (Nat × Bytes)} (staged : Staged image root i386 rootPlaced placed)
  {fileName contents : Bytes}

include staged

omit staged in
/-- The records of a directory are listed by their bytes. -/
theorem mem_listed (placed : List (Nat × Bytes)) (entry : Text × Option DirRef) :
    entry ∈ (parsed placed).filterMap (listed beyond)
      ↔ ∃ raw ∈ placed.map Prod.snd, listed beyond (recordOf 0 raw) = some entry := by
  rw [parsed, List.filterMap_map, List.mem_filterMap]
  constructor
  · rintro ⟨raw, member, shown⟩
    exact ⟨raw.2, List.mem_map_of_mem member, shown⟩
  · rintro ⟨_, member, shown⟩
    obtain ⟨raw, inPlaced, rfl⟩ := List.mem_map.mp member
    exact ⟨raw, inPlaced, shown⟩

omit staged in
theorem listed_dot {record : DirectoryRecord} (dot : record.name = [0] ∨ record.name = [1]) :
    listed beyond record = none := by
  refine if_neg fun visible => ?_
  rcases dot with dot | dot <;> rw [dot] at visible
  · exact visible.1 rfl
  · exact visible.2 rfl

/-- An append adds one file to what `\I386` lists. -/
theorem lists_append (fits : Iso.AppendFits image i386 placed fileName contents)
    (visible : Visible beyond fileName) (entry : Text × Option DirRef) :
    entry ∈ (parsed (Iso.placements i386.start (Iso.withSize (Iso.newEnd image placed fileName contents)
        (Iso.sortedRecords image placed fileName contents)))).filterMap (listed beyond) ↔
      entry ∈ (parsed placed).filterMap (listed beyond) ∨
        ∃ name ∈ ({normalizeIsoName beyond fileName} : Finset Text), entry = (name, none) := by
  obtain ⟨dot, dotdot, rest, shape, dotName, dotdotName⟩ := Iso.StartsWithDots.placed staged.dots
  have dotValid : RawRecord dot.2 := (staged.scan.bounds (show dot ∈ placed by simp [shape])).2.2.2.1
  have written := Iso.withSize_sortedRecords image dot dotdot rest fileName contents
    (Iso.newEnd image placed fileName contents)
  have hiddenDot : listed beyond (recordOf 0 dot.2) = none := listed_dot (Or.inl dotName)
  have hiddenDotdot : listed beyond (recordOf 0 dotdot.2) = none := listed_dot (Or.inr dotdotName)
  have resizedDot : listed beyond (recordOf 0
      (Iso.withField 10 (Iso.newEnd image placed fileName contents) dot.2)) = none := by
    rw [(Iso.withField_dataLen dotValid fits.sizeFits).2]
    exact listed_dot (Or.inl dotName)
  have new : listed beyond (recordOf 0 (Iso.newRecord image fileName contents))
      = some (normalizeIsoName beyond fileName, none) := by
    rw [Iso.newRecord, Iso.recordOf_fileRecord fits.short fits.lbaFits fits.lenFits]
    have file : ¬ ((0 : UInt8) &&& Iso.directoryFlag ≠ 0) := by decide
    exact listed_file visible file
  have raws : placed.map Prod.snd = dot.2 :: dotdot.2 :: rest.map Prod.snd := by rw [shape]; rfl
  rw [← shape] at written
  rw [mem_listed, mem_listed, layout_map_snd, written, raws]
  simp only [List.exists_mem_cons_iff, resizedDot, hiddenDot, hiddenDotdot, reduceCtorEq, false_or,
    (sortBy_perm _ _).mem_iff, List.mem_append, List.mem_singleton, or_and_right, exists_or, exists_eq_left,
    new, Option.some.injEq, Finset.mem_singleton, eq_comm]

/-- A replacement of a file changes nothing in what `\I386` lists. -/
theorem listed_replace {existing record : DirectoryRecord} (file : ¬ existing.IsDirectory)
    (member : record ∈ parsed placed) (inPlaced : existing ∈ parsed placed) :
    listed beyond (if record.offset = existing.offset then
      { record with extentLba := Iso.nextLba image, dataLen := contents.length } else record)
      = listed beyond record := by
  split
  · rename_i same
    obtain ⟨first, inFirst, rfl⟩ := List.mem_map.mp member
    obtain ⟨second, inSecond, rfl⟩ := List.mem_map.mp inPlaced
    obtain rfl := staged.scan.eq_of_offset inFirst inSecond same
    have file' : ¬ ({ recordOf first.1 first.2 with extentLba := Iso.nextLba image, dataLen := contents.length } :
        DirectoryRecord).IsDirectory := file
    unfold listed
    rw [if_neg file, if_neg file']
  · rfl

end Calls

/-- **The two readers never disagree**: an append of a file adds its path in `I386` to the paths that are
read, and a replacement of a file changes none. -/
theorem collectPaths_call {beyond : Char → Text} {image image' : Image} {fileName contents : Bytes}
    {value : Unit} (wellFormed : WellFormed image) :
    ((Iso.appendFileToI386 fileName contents).run image = .ok value image' → Visible beyond fileName →
      ∃ paths, collectPaths beyond image = .ok paths ∧ collectPaths beyond image'
        = .ok (insert ("I386/".toList ++ normalizeIsoName beyond fileName) paths)) ∧
    ((Iso.replaceFileInI386 fileName contents).run image = .ok value image' →
      (∀ i386 records existing, findI386Record image = .ok i386 →
        readDirectoryRecords image i386 = .ok records →
        records.find? (fun record => isoNameEq record.name fileName) = some existing →
        ¬ existing.IsDirectory) →
      ∃ paths, collectPaths beyond image = .ok paths ∧ collectPaths beyond image' = .ok paths) := by
  constructor
  · intro run visible
    obtain ⟨i386, found⟩ := Iso.findI386_of_append run
    obtain ⟨root, rootPlaced, placed, staged, _⟩ := wellFormed.staged found
    obtain ⟨fits, rfl⟩ := (Iso.appendFileToI386_run staged).mp run
    obtain ⟨rootPlaced', wrote⟩ := staged.append fits
    obtain ⟨paths, before, after⟩ := collectPaths_of_wrote wellFormed staged wrote
      (lists_append staged fits visible)
    refine ⟨paths, before, after.trans ?_⟩
    rw [Finset.image_singleton, Finset.union_comm, ← Finset.insert_eq]
    rfl
  · intro run file
    obtain ⟨i386, found⟩ := @Iso.findI386_of_call (.replace fileName contents) _ _ _ run
    obtain ⟨root, rootPlaced, placed, staged, _⟩ := wellFormed.staged found
    obtain ⟨fits, existing, named, rfl⟩ := (Iso.replaceFileInI386_run staged).mp run
    obtain ⟨placed', wrote, records⟩ := staged.replace fits named
    have notDirectory := file i386 (parsed placed) existing found staged.scan.read named
    have same : (parsed placed').filterMap (listed beyond) = (parsed placed).filterMap (listed beyond) := by
      rw [records, List.filterMap_map]
      exact List.filterMap_congr fun record member => listed_replace staged notDirectory member
        (List.mem_of_find?_eq_some named)
    have lists : ∀ entry, entry ∈ (parsed placed').filterMap (listed beyond) ↔
        entry ∈ (parsed placed).filterMap (listed beyond) ∨ ∃ name ∈ (∅ : Finset Text), entry = (name, none) := by
      intro entry
      rw [same]
      simp
    obtain ⟨paths, before, after⟩ := collectPaths_of_wrote wellFormed staged wrote lists
    refine ⟨paths, before, after.trans ?_⟩
    rw [Finset.image_empty, Finset.union_empty]

/-! ### A volume with one file -/

/-- The records of an `\I386` with one file. -/
def fileRecords : List Bytes :=
  [Iso.directoryRecord [0] 19 102, Iso.directoryRecord [1] 18 106, Iso.fileRecord (ascii "A") 20 1]

/-- The sample volume with one file. -/
def fileIso : Image := Iso.sampleIso 21 102 fileRecords [(20 * Iso.sectorSize, [7])]

theorem fileIso_fits : Iso.SampleFits 21 102 fileRecords [(20 * Iso.sectorSize, [7])] := by
  constructor <;> decide

theorem fileIso_shape : Iso.SampleShape 21 102 fileRecords := by
  constructor <;> decide

theorem fileIso_leaves : Iso.Leaves fileIso (Iso.sampleRecords fileRecords) := by
  intro leaf member isDirectory
  have files : ∀ record ∈ (Iso.sampleRecords fileRecords).drop 2, ¬ record.IsDirectory := by decide
  exact absurd isDirectory (files leaf member)

theorem fileIso_wellFormed : WellFormed fileIso :=
  Iso.sampleIso_wellFormed fileIso_fits fileIso_shape fileIso_leaves

theorem fileIso_nextLba : Iso.nextLba fileIso = 21 := Iso.sampleIso_nextLba fileIso_fits

theorem fileIso_append : ∃ image', (Iso.appendFileToI386 (ascii "B") [1]).run fileIso = .ok () image' := by
  obtain ⟨root, rootPlaced, staged⟩ := Iso.sampleIso_staged fileIso_fits fileIso_shape fileIso_leaves
  refine ⟨_, (Iso.appendFileToI386_run staged).mpr ⟨?_, rfl⟩⟩
  have size : Iso.newEnd fileIso (Iso.placements (19 * Iso.sectorSize) fileRecords) (ascii "B") [1] = 136 := by
    rw [Iso.newEnd, Iso.sortedRecords, Iso.newRecord, fileIso_nextLba]
    rfl
  refine ⟨by decide, by decide, ?_, by decide, by decide, ?_, ?_, ?_⟩
  · show Iso.nextLba fileIso < _
    rw [fileIso_nextLba]
    decide
  · exact size.trans_le (by decide)
  · exact size.trans_lt (by decide)
  · show Iso.finalLen (Iso.nextLba fileIso) _ / _ < _
    rw [fileIso_nextLba]
    decide

theorem fileIso_replace : ∃ image', (Iso.replaceFileInI386 (ascii "A") [2]).run fileIso = .ok () image' := by
  obtain ⟨root, rootPlaced, staged⟩ := Iso.sampleIso_staged fileIso_fits fileIso_shape fileIso_leaves
  refine ⟨_, (Iso.replaceFileInI386_run staged).mpr ⟨⟨by decide, ?_, by decide, ?_⟩,
    recordOf (19 * Iso.sectorSize + 68) (Iso.fileRecord (ascii "A") 20 1), by decide, rfl⟩⟩
  · show Iso.nextLba fileIso < _
    rw [fileIso_nextLba]
    decide
  · show Iso.finalLen (Iso.nextLba fileIso) _ / _ < _
    rw [fileIso_nextLba]
    decide

/-- The paths of the sample volume with one file after an append, and after a replacement. -/
theorem collectPaths_call_fileIso :
    (∃ image' paths, (Iso.appendFileToI386 (ascii "B") [1]).run fileIso = .ok () image' ∧
      collectPaths (fun char => [char]) fileIso = .ok paths ∧
      collectPaths (fun char => [char]) image' = .ok (insert "I386/B".toList paths)) ∧
    ∃ image' paths, (Iso.replaceFileInI386 (ascii "A") [2]).run fileIso = .ok () image' ∧
      collectPaths (fun char => [char]) fileIso = .ok paths ∧
      collectPaths (fun char => [char]) image' = .ok paths := by
  constructor
  · obtain ⟨image', run⟩ := fileIso_append
    have visible : Visible (fun char => [char]) (ascii "B") := by
      unfold Visible
      decide
    obtain ⟨paths, before, after⟩ := (collectPaths_call fileIso_wellFormed).1 run visible
    exact ⟨image', paths, run, before, after⟩
  · obtain ⟨image', run⟩ := fileIso_replace
    refine ⟨image', ?_⟩
    have file : ∀ i386 records existing, findI386Record fileIso = .ok i386 →
        readDirectoryRecords fileIso i386 = .ok records →
        records.find? (fun record => isoNameEq record.name (ascii "A")) = some existing →
        ¬ existing.IsDirectory := by
      intro i386 records existing found read named
      obtain ⟨found', scan⟩ := Iso.sampleIso_i386 fileIso_fits fileIso_shape
      obtain rfl := Except.ok.inj (found'.symm.trans found)
      obtain rfl := Except.ok.inj (scan.read.symm.trans read)
      have here : existing = recordOf (19 * Iso.sectorSize + 68) (Iso.fileRecord (ascii "A") 20 1) :=
        Option.some.inj (named.symm.trans (by decide))
      rw [here]
      decide
    obtain ⟨paths, before, after⟩ := (collectPaths_call fileIso_wellFormed).2 run file
    exact ⟨paths, run, before, after⟩

end Bootsmith.Inspect
