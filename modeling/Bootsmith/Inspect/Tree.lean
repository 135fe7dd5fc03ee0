/-
**The reader finds exactly the tree an image holds.**

A `Folder` is a tree of names. `Holds image dir folder` says that the image has its records at `dir`:
first those of the directory and of its parent, then one of the encoded length for every entry, with
zeros up to the next sector where a sector is not full, and the same below every folder.

* `mem_walk_holds`: the walk through a folder collects the joined names of its entries;
* `collectPaths_tree`: the reader returns exactly the paths of the tree, whose names are normalized and
  joined by slashes, where names that are empty at the front of a path leave no slash behind;
* `empty_name_joined`: with a slash behind an empty first name, that is false.
-/

import Bootsmith.Inspect.Reader
import Bootsmith.Iso.Plant

namespace Bootsmith.Inspect

open Bootsmith.Library

/-! ### The bytes of a directory -/

/-- The records in a directory's bytes from an offset on: a zero byte where a record would start fills
the sector. -/
inductive Laid (bytes : Bytes) : Nat → List Bytes → Prop
  | done {offset : Nat} (past : bytes.length ≤ offset) : Laid bytes offset []
  | filler {offset : Nat} {raws : List Bytes} (inside : offset < bytes.length)
      (zero : bytes.getD offset 0 = 0)
      (rest : Laid bytes ((offset / sectorSize + 1) * sectorSize) raws) : Laid bytes offset raws
  | record {offset : Nat} {raw : Bytes} {raws : List Bytes} (nonempty : raw ≠ [])
      (lenByte : (raw.getD 0 0).toNat = raw.length) (fits : offset + raw.length ≤ bytes.length)
      (here : subrange bytes offset (offset + raw.length) = raw)
      (rest : Laid bytes (offset + raw.length) raws) : Laid bytes offset (raw :: raws)

/-- **The entries of a directory** are those of its records. -/
theorem Laid.entries {beyond : Char → Text} {bytes : Bytes} {offset : Nat} {raws : List Bytes}
    (laid : Laid bytes offset raws) :
    entriesFrom beyond bytes offset = raws.filterMap (entryOf beyond) := by
  induction laid with
  | done past => rw [entriesFrom, if_neg (by omega), List.filterMap_nil]
  | filler inside zero rest ih => rw [entriesFrom, if_pos inside, dif_pos zero, ih]
  | @record offset raw raws nonempty lenByte fits here rest ih =>
    have positive := List.length_pos_of_ne_nil nonempty
    have first : bytes.getD offset 0 = raw.getD 0 0 := by
      rw [← here, Iso.getD_subrange (by omega), Nat.add_zero]
    have nonzero : bytes.getD offset 0 ≠ 0 := by
      intro zero
      rw [← first, zero] at lenByte
      exact absurd lenByte positive.ne
    rw [entriesFrom, if_pos (by omega), dif_neg nonzero, first, lenByte, if_neg (by omega), here, ih,
      List.filterMap_cons]
    cases entryOf beyond raw <;> rfl

/-- What the other reader walks over is laid out so. -/
theorem Laid.of_scan {image : Image} {start count pos : Nat} {placed : List (Nat × Bytes)}
    (aligned : sectorSize ∣ start) (scan : Iso.Scan image (start + count) pos placed) {offset : Nat}
    (here : pos = start + offset) : Laid (image.slice start count) offset (placed.map Prod.snd) := by
  induction scan generalizing offset with
  | done past => exact .done (by rw [Image.slice_length]; omega)
  | @skip pos placed before inside zero rest ih =>
    subst here
    refine .filler (by rw [Image.slice_length]; omega) ?_ (ih ?_)
    · rw [Image.getD_slice _ _ (by omega)]
      exact zero
    · have next : Iso.sectorSize = sectorSize := rfl
      rw [Nat.add_assoc, next, alignUp_add _ (by decide) aligned,
        alignUp_succ offset (by decide)]
  | @record pos raw placed valid fits inside found rest ih =>
    subst here
    have minimum := valid.minimum
    show Laid _ offset (raw :: placed.map Prod.snd)
    refine .record ?_ valid.lenByte (by rw [Image.slice_length]; omega) ?_ (ih (by omega))
    · rintro rfl
      exact absurd minimum (by decide)
    · rw [Image.subrange_slice _ _ (by omega), Nat.add_sub_cancel_left]
      exact found

/-- The record of a name and a kind: the record of a directory says where it lies. -/
structure Encodes (raw name : Bytes) (place : DirRef) (directory : Bool) : Prop where
  length : raw.length = 33 + name.length + (33 + name.length) % 2
  lenByte : (raw.getD 0 0).toNat = raw.length
  place : dirRefOf raw = place
  directory : isDirectory raw = directory
  nameLen : (raw.getD 32 0).toNat = name.length
  name : subrange raw 33 (33 + name.length) = name

instance (raw name : Bytes) (place : DirRef) (directory : Bool) :
    Decidable (Encodes raw name place directory) :=
  decidable_of_iff (raw.length = 33 + name.length + (33 + name.length) % 2 ∧
      (raw.getD 0 0).toNat = raw.length ∧ dirRefOf raw = place ∧ isDirectory raw = directory ∧
      (raw.getD 32 0).toNat = name.length ∧ subrange raw 33 (33 + name.length) = name)
    ⟨fun ⟨length, lenByte, place, directory, nameLen, name⟩ =>
      ⟨length, lenByte, place, directory, nameLen, name⟩,
    fun ⟨length, lenByte, place, directory, nameLen, name⟩ =>
      ⟨length, lenByte, place, directory, nameLen, name⟩⟩

/-- A name the reader lists: it is not read as the name of a directory itself or of its parent. -/
def Visible (beyond : Char → Text) (name : Bytes) : Prop :=
  normalizeIsoName beyond name ≠ dotName ∧ normalizeIsoName beyond name ≠ dotDotName

namespace Encodes

variable {beyond : Char → Text} {raw name : Bytes} {place : DirRef} {directory : Bool}
  (encodes : Encodes raw name place directory)

include encodes

theorem dirBytes : DirBytes raw := by
  have length := encodes.length
  have nameLen := encodes.nameLen
  exact ⟨by omega, encodes.lenByte.le, by omega⟩

theorem rawName_eq : rawName raw = name := by rw [rawName, encodes.nameLen, encodes.name]

theorem entryOf_eq (visible : Visible beyond name) : entryOf beyond raw
    = some (normalizeIsoName beyond name, if directory then some place else none) := by
  have listed := And.intro encodes.dirBytes visible
  unfold Visible at listed
  rw [entryOf, encodes.rawName_eq, if_pos listed, encodes.directory, encodes.place]

end Encodes

/-- The records of a directory itself and of its parent have no entry. -/
theorem entryOf_dot {beyond : Char → Text} {raw : Bytes} {place : DirRef} {directory : Bool}
    (encodes : Encodes raw [0] place directory ∨ Encodes raw [1] place directory) :
    entryOf beyond raw = none := by
  unfold entryOf
  rcases encodes with dot | dotdot
  · rw [dot.rawName_eq]
    exact if_neg fun listed => listed.2.1 rfl
  · rw [dotdot.rawName_eq]
    exact if_neg fun listed => listed.2.2 rfl

/-! ### Trees -/

/-- The entries of a directory: files and folders with their own entries. -/
inductive Folder
  | nil
  | file (name : Bytes) (rest : Folder)
  | folder (name : Bytes) (children rest : Folder)

namespace Folder

/-- The levels of folders below a directory. -/
def depth : Folder → Nat
  | nil => 0
  | file _ rest => rest.depth
  | folder _ children rest => max (children.depth + 1) rest.depth

/-- All names of a tree. -/
def names : Folder → List Bytes
  | nil => []
  | file name rest => name :: rest.names
  | folder name children rest => name :: (children.names ++ rest.names)

/-- The files and folders of a tree, each by the names that lead to it. -/
def entries : Folder → List (List Bytes)
  | nil => []
  | file name rest => [name] :: rest.entries
  | folder name children rest => [name] :: (children.entries.map (name :: ·) ++ rest.entries)

end Folder

/-- The image has a directory at `dir`: the records of the directory and of its parent, then others. -/
def DirectoryAt (image : Image) (dir : DirRef) (Others : List Bytes → Prop) : Prop :=
  ∃ bytes parent dot dotdot raws, readExtent image dir = .ok bytes ∧
    Laid bytes 0 (dot :: dotdot :: raws) ∧ Encodes dot [0] dir true ∧ Encodes dotdot [1] parent true ∧
    Others raws

/-- The records are those of the entries, and the image has the directories of its folders. -/
def HoldsEntries (image : Image) : Folder → List Bytes → Prop
  | .nil, raws => raws = []
  | .file name rest, raws => ∃ raw place others, raws = raw :: others ∧
      Encodes raw name place false ∧ HoldsEntries image rest others
  | .folder name children rest, raws => ∃ raw place others, raws = raw :: others ∧
      Encodes raw name place true ∧ DirectoryAt image place (HoldsEntries image children) ∧
      HoldsEntries image rest others

/-- **The image holds a tree** at a place. -/
def Holds (image : Image) (dir : DirRef) (folder : Folder) : Prop :=
  DirectoryAt image dir (HoldsEntries image folder)

/-- The volume descriptor is valid and says where the root lies. -/
structure Volume (image : Image) (root : DirRef) : Prop where
  large : (pvdSector + 1) * sectorSize ≤ image.size
  header : image.slice (pvdSector * sectorSize) 6 = 1 :: isoId
  rootRecord : Encodes (image.slice (pvdSector * sectorSize + 156) 34) [0] root true

/-! ### The walk through a tree -/

section Walk

variable {beyond : Char → Text} {image : Image}

variable (beyond) in
/-- A directory's entries are those of the records behind the first two. -/
theorem isoEntries_of_directoryAt {dir : DirRef} {Others : List Bytes → Prop}
    (held : DirectoryAt image dir Others) :
    ∃ raws, Others raws ∧ isoEntries beyond image dir = .ok (raws.filterMap (entryOf beyond)) := by
  obtain ⟨bytes, parent, dot, dotdot, raws, read, laid, first, second, others⟩ := held
  refine ⟨raws, others, ?_⟩
  have listed : entriesFrom beyond bytes 0 = raws.filterMap (entryOf beyond) := by
    rw [laid.entries, List.filterMap_cons_none (entryOf_dot (Or.inl first)),
      List.filterMap_cons_none (entryOf_dot (Or.inr second))]
  rw [isoEntries, read, ← listed]
  rfl

/-- Every directory below the entries of a tree can be read. -/
theorem readable_of_holds {folder : Folder} {raws : List Bytes} (held : HoldsEntries image folder raws)
    (visible : ∀ name ∈ folder.names, Visible beyond name) :
    ∀ entry ∈ raws.filterMap (entryOf beyond), ∀ child, entry.2 = some child → ∀ levels target,
      Reaches (isoEntries beyond image) levels child target →
      ∃ entries, isoEntries beyond image target = .ok entries := by
  induction folder generalizing raws with
  | nil =>
    obtain rfl := held
    intro entry member
    cases member
  | file name rest ih =>
    obtain ⟨raw, place, others, rfl, encodes, held⟩ := held
    have ih := ih held fun other member => visible other (List.mem_cons_of_mem _ member)
    rw [List.filterMap_cons_some (encodes.entryOf_eq (visible name List.mem_cons_self))]
    intro entry member child isDirectory
    rcases List.mem_cons.mp member with rfl | member
    · cases isDirectory
    · exact ih entry member child isDirectory
  | folder name children rest ihChildren ihRest =>
    obtain ⟨raw, place, others, rfl, encodes, below, held⟩ := held
    have ihRest := ihRest held fun other member => visible other (by simp [Folder.names, member])
    rw [List.filterMap_cons_some (encodes.entryOf_eq (visible name List.mem_cons_self))]
    obtain ⟨raws, heldBelow, read⟩ := isoEntries_of_directoryAt beyond below
    have ihChildren := ihChildren heldBelow fun other member => visible other (by simp [Folder.names, member])
    intro entry member child isDirectory levels target reached
    rcases List.mem_cons.mp member with rfl | member
    · obtain rfl : place = child := Option.some.inj isDirectory
      cases levels with
      | zero => exact reached.elim
      | succ levels =>
        rcases reached with rfl | ⟨entries, read', entry, member, child, isDirectory, reached⟩
        · exact ⟨_, read⟩
        · obtain rfl := Except.ok.inj (read.symm.trans read')
          exact ihChildren entry member child isDirectory levels target reached
    · exact ihRest entry member child isDirectory levels target reached

/-- The path to an entry of a tree, from the path of the tree on. -/
def joinNames (beyond : Char → Text) (pre : Text) (names : List Bytes) : Text :=
  (names.map (normalizeIsoName beyond)).foldl joinPath pre

/-- **The walk through a tree** lists the joined names of its entries. -/
theorem lists_of_holds {folder : Folder} {raws : List Bytes} (held : HoldsEntries image folder raws)
    (visible : ∀ name ∈ folder.names, Visible beyond name) {levels : Nat}
    (deep : folder.depth ≤ levels) (pre path : Text) :
    (∃ entry ∈ raws.filterMap (entryOf beyond), path = joinPath pre entry.1 ∨ ∃ child,
        entry.2 = some child ∧ Yields (isoEntries beyond image) levels child (joinPath pre entry.1) path) ↔
      ∃ names ∈ folder.entries, path = joinNames beyond pre names := by
  induction folder generalizing raws levels pre with
  | nil =>
    obtain rfl := held
    simp [Folder.entries]
  | file name rest ih =>
    obtain ⟨raw, place, others, rfl, encodes, held⟩ := held
    have ih := ih held (fun other member => visible other (List.mem_cons_of_mem _ member)) deep pre
    rw [List.filterMap_cons_some (encodes.entryOf_eq (visible name List.mem_cons_self))]
    simp only [List.exists_mem_cons_iff, Folder.entries, ih]
    simp [joinNames]
  | folder name children rest ihChildren ihRest =>
    obtain ⟨raw, place, others, rfl, encodes, below, held⟩ := held
    have deepChildren : children.depth + 1 ≤ levels := (le_max_left _ _).trans deep
    obtain ⟨levels, rfl⟩ := Nat.exists_eq_add_of_le' (Nat.le_of_add_left_le deepChildren)
    have ihRest := ihRest held (fun other member => visible other (by simp [Folder.names, member]))
      ((le_max_right _ _).trans deep) pre
    obtain ⟨raws, heldBelow, read⟩ := isoEntries_of_directoryAt beyond below
    have ihChildren := ihChildren heldBelow (fun other member => visible other (by simp [Folder.names, member]))
      (Nat.le_of_succ_le_succ deepChildren) (joinPath pre (normalizeIsoName beyond name))
    rw [List.filterMap_cons_some (encodes.entryOf_eq (visible name List.mem_cons_self))]
    have deeper : Yields (isoEntries beyond image) (levels + 1) place
        (joinPath pre (normalizeIsoName beyond name)) path ↔
        ∃ names ∈ children.entries, path = joinNames beyond pre (name :: names) := by
      rw [Yields, read]
      simp only [Except.ok.injEq, exists_eq_left', ihChildren]
      rfl
    simp only [List.exists_mem_cons_iff, Folder.entries, ihRest, if_true, Option.some.injEq,
      exists_eq_left', deeper, List.mem_append, List.mem_map, or_and_right, exists_or, or_assoc]
    simp [joinNames]

/-! ### Paths -/

/-- Names joined by slashes. -/
def slashJoined (parts : List Text) : Text := List.intercalate ['/'] parts

theorem foldl_joinPath {pre : Text} (nonempty : pre ≠ []) (parts : List Text) :
    parts.foldl joinPath pre = slashJoined (pre :: parts) := by
  induction parts generalizing pre with
  | nil => simp [slashJoined]
  | cons part rest ih =>
    have joined : joinPath pre part = pre ++ '/' :: part := if_neg nonempty
    have longer : pre ++ '/' :: part ≠ [] := by simp
    rw [List.foldl_cons, joined, ih longer]
    cases rest <;> simp [slashJoined, List.intercalate]

/-- **The path of an entry of the root**: a name that is empty at its front leaves no slash behind. -/
theorem joinNames_root (names : List Bytes) : joinNames beyond [] names
    = slashJoined ((names.map (normalizeIsoName beyond)).dropWhile (· = [])) := by
  unfold joinNames
  generalize names.map (normalizeIsoName beyond) = parts
  induction parts with
  | nil => rfl
  | cons part rest ih =>
    have joined : joinPath [] part = part := if_pos rfl
    rw [List.foldl_cons, joined]
    by_cases empty : part = []
    · rw [List.dropWhile_cons_of_pos (by simpa using empty), ← ih, empty]
    · rw [List.dropWhile_cons_of_neg (by simpa using empty), foldl_joinPath empty]

end Walk

/-! ### The reader -/

section Reader

variable {beyond : Char → Text} {image : Image} {root : DirRef} {folder : Folder}

/-- **What is opened**: behind a valid header, the root is what the root record says. -/
theorem openIso_of_header (large : (pvdSector + 1) * sectorSize ≤ image.size)
    (header : image.slice (pvdSector * sectorSize) 6 = 1 :: isoId) :
    openIso beyond image = .ok (dirRefOf (image.slice (pvdSector * sectorSize + 156) 34)) := by
  have opened : ioError (readExact image (pvdSector * sectorSize) sectorSize)
      = .ok (image.slice (pvdSector * sectorSize) sectorSize) := by
    have within : pvdSector * sectorSize + sectorSize ≤ image.size := large
    rw [readExact_of_le within]
    rfl
  have kind : (image.slice (pvdSector * sectorSize) sectorSize).getD 0 0 = 1 := by
    have first := congrArg (fun bytes => bytes.getD 0 0) header
    rwa [Image.getD_slice _ _ (by decide)] at first ⊢
  have id : subrange (image.slice (pvdSector * sectorSize) sectorSize) 1 6 = isoId := by
    have others := congrArg (List.drop 1) header
    rwa [Image.slice_drop _ _ _ _ (by decide), ← Image.subrange_slice _ _ (by decide : 6 ≤ sectorSize)]
      at others
  have rest : subrange (image.slice (pvdSector * sectorSize) sectorSize) 156 sectorSize
      = image.slice (pvdSector * sectorSize + 156) (sectorSize - 156) :=
    Image.subrange_slice _ _ (by decide)
  generalize pvdSector * sectorSize + 156 = start at *
  -- a record of any length fits into the rest of the descriptor
  have valid : DirBytes (image.slice start (sectorSize - 156)) := by
    have long : 34 + 255 ≤ (image.slice start (sectorSize - 156)).length := by
      rw [Image.slice_length]
      decide
    have lenByte := ((image.slice start (sectorSize - 156)).getD 0 0).toNat_lt
    have nameLen := ((image.slice start (sectorSize - 156)).getD 32 0).toNat_lt
    constructor <;> omega
  have place : dirRefOf (image.slice start (sectorSize - 156)) = dirRefOf (image.slice start 34) := by
    simp only [dirRefOf, Image.subrange_slice image start (by decide : 6 ≤ sectorSize - 156),
      Image.subrange_slice image start (by decide : 14 ≤ sectorSize - 156),
      Image.subrange_slice image start (by decide : 6 ≤ 34),
      Image.subrange_slice image start (by decide : 14 ≤ 34)]
  unfold openIso
  simp only [opened, Fallible.bind_eq_ok, Except.ok.injEq, exists_eq_left']
  refine ⟨_, byteOf_of_lt ?_, _, partOf_of_le (by decide) ?_, ?_⟩
  · rw [Image.slice_length]
    decide
  · rw [Image.slice_length]
    decide
  rw [kind, id, if_neg (by simp), Image.slice_length, partOf_of_le (by decide) (by rw [Image.slice_length]),
    rest]
  simp only [Fallible.bind_eq_ok, Except.ok.injEq, exists_eq_left', parseDirRecord_eq, if_pos valid,
    Fallible.okOr_eq_ok, Option.some.injEq, Fallible.pure_eq_ok]
  exact place

/-- The root of a volume is opened. -/
theorem openIso_of_volume (volume : Volume image root) : openIso beyond image = .ok root := by
  rw [openIso_of_header volume.large volume.header, volume.rootRecord.place]

/-- The reader returns the joined names of the entries. -/
theorem collectPaths_of_holds (volume : Volume image root) (holds : Holds image root folder)
    (visible : ∀ name ∈ folder.names, Visible beyond name) (shallow : folder.depth ≤ maxDirDepth) :
    ∃ paths, collectPaths beyond image = .ok paths ∧ ∀ path, path ∈ paths ↔
      ∃ names ∈ folder.entries, path = joinNames beyond [] names := by
  obtain ⟨raws, held, read⟩ := isoEntries_of_directoryAt beyond holds
  have readable : ∀ target, Reaches (isoEntries beyond image) (maxDirDepth + 1) root target →
      ∃ entries, isoEntries beyond image target = .ok entries := by
    rintro target (rfl | ⟨entries, read', entry, member, child, isDirectory, reached⟩)
    · exact ⟨_, read⟩
    · obtain rfl := Except.ok.inj (read.symm.trans read')
      exact readable_of_holds held visible entry member child isDirectory _ target reached
  obtain ⟨paths, walked⟩ : ∃ paths, walk (isoEntries beyond image) (maxDirDepth + 1) root [] ∅
      = .ok paths := walk_isOk_iff.mpr readable
  refine ⟨paths, ?_, fun path => ?_⟩
  · rw [collectPaths, openIso_of_volume volume]
    exact (walkDir_eq image root [] 0 ∅).trans walked
  · rw [mem_walk walked, Yields, read]
    simp only [Except.ok.injEq, exists_eq_left', lists_of_holds held visible shallow]
    simp

/-- **The reader finds exactly the tree**: it returns the normalized names that lead to each file and
folder, joined by slashes; only names that are empty at the front of a path leave no slash behind. -/
theorem collectPaths_tree (volume : Volume image root) (holds : Holds image root folder)
    (visible : ∀ name ∈ folder.names, Visible beyond name) (shallow : folder.depth ≤ maxDirDepth) :
    ∃ paths, collectPaths beyond image = .ok paths ∧ ∀ path, path ∈ paths ↔
      ∃ names ∈ folder.entries,
        path = slashJoined ((names.map (normalizeIsoName beyond)).dropWhile (· = [])) := by
  obtain ⟨paths, collected, listed⟩ := collectPaths_of_holds volume holds visible shallow
  refine ⟨paths, collected, fun path => ?_⟩
  rw [listed]
  exact exists_congr fun names => by rw [joinNames_root]

end Reader

/-! ### Volumes built from their records -/

section Plant

variable {size : Nat} {entries : List (Nat × Bytes)} (planted : Iso.Planted size entries)

include planted

/-- A planted volume descriptor is valid. -/
theorem volume_of_plant {raw : Bytes} {root : DirRef} (large : (pvdSector + 1) * sectorSize ≤ size)
    (header : (Iso.pvdOffset, Iso.pvdHeader) ∈ entries) (record : (Iso.rootOffset, raw) ∈ entries)
    (encodes : Encodes raw [0] root true) : Volume (Iso.plant size entries) root := by
  refine ⟨by rwa [Iso.plant_size planted], ?_, ?_⟩
  · have here : (Iso.plant size entries).slice Iso.pvdOffset 7 = Iso.pvdHeader :=
      Iso.slice_plant planted header
    have six := congrArg (List.take 6) here
    rwa [Image.slice_take _ _ _ _ (by decide)] at six
  · have here : (Iso.plant size entries).slice Iso.rootOffset raw.length = raw :=
      Iso.slice_plant planted record
    have length : raw.length = 34 := encodes.length
    have place : Iso.rootOffset = pvdSector * sectorSize + 156 := by decide
    rw [length, place] at here
    rwa [here]

/-- A planted directory is read. -/
theorem directory_of_plant (sector len : Nat) (raws : List Bytes)
    (valid : ∀ raw ∈ raws, Iso.RawRecord raw)
    (inEntries : ∀ entry ∈ Iso.placements (sector * Iso.sectorSize) raws, entry ∈ entries)
    (beside : Iso.Beside (sector * Iso.sectorSize) (sector * Iso.sectorSize + len) raws entries)
    (inside : sector * Iso.sectorSize + len ≤ size) :
    ∃ bytes, readExtent (Iso.plant size entries) ⟨sector, len⟩ = .ok bytes ∧ Laid bytes 0 raws := by
  have scan := Iso.scan_plant planted valid inEntries beside.2 beside.1 inside
  have laid := Laid.of_scan (Dvd.intro_left _ rfl) scan (Nat.add_zero _).symm
  rw [layout_map_snd] at laid
  refine ⟨_, ?_, laid⟩
  show ioError (readExact _ (sector * Iso.sectorSize) len) = _
  rw [readExact_of_le (by rwa [Iso.plant_size planted])]
  rfl

end Plant

/-! ### A volume with a folder named `.` -/

/-- The root of the volume, in sector 18: a folder named `.`. -/
def dottedRoot : List Bytes :=
  [Iso.directoryRecord [0] 18 102, Iso.directoryRecord [1] 18 102, Iso.directoryRecord (ascii ".") 19 102]

/-- The folder, in sector 19: a file named `A`. -/
def dottedFolder : List Bytes :=
  [Iso.directoryRecord [0] 19 102, Iso.directoryRecord [1] 18 102, Iso.fileRecord (ascii "A") 20 1]

def dottedEntries : List (Nat × Bytes) :=
  [(Iso.pvdOffset, Iso.pvdHeader), (Iso.rootOffset, Iso.directoryRecord [0] 18 102)]
    ++ Iso.placements (18 * Iso.sectorSize) dottedRoot ++ Iso.placements (19 * Iso.sectorSize) dottedFolder

/-- The volume. -/
def dottedIso : Image := Iso.plant (21 * Iso.sectorSize) dottedEntries

/-- Its tree. -/
def dottedTree : Folder := .folder (ascii ".") (.file (ascii "A") .nil) .nil

theorem dottedIso_planted : Iso.Planted (21 * Iso.sectorSize) dottedEntries := by
  decide

theorem dottedIso_volume : Volume dottedIso ⟨18, 102⟩ :=
  volume_of_plant dottedIso_planted (by decide) (by simp [dottedEntries])
    (show (Iso.rootOffset, Iso.directoryRecord [0] 18 102) ∈ _ by simp [dottedEntries]) (by decide)

theorem dottedIso_holds : Holds dottedIso ⟨18, 102⟩ dottedTree := by
  obtain ⟨root, readRoot, laidRoot⟩ := directory_of_plant dottedIso_planted 18 102 dottedRoot (by decide)
    (by decide) (by decide) (by decide)
  obtain ⟨folder, readFolder, laidFolder⟩ := directory_of_plant dottedIso_planted 19 102 dottedFolder
    (by decide) (by decide) (by decide) (by decide)
  refine ⟨root, ⟨18, 102⟩, _, _, _, readRoot, laidRoot, by decide, by decide, _, ⟨19, 102⟩, [], rfl,
    by decide, ?_, rfl⟩
  exact ⟨folder, ⟨18, 102⟩, _, _, _, readFolder, laidFolder, by decide, by decide, _, ⟨20, 1⟩, [], rfl,
    by decide, rfl⟩

theorem dottedTree_visible : ∀ name ∈ dottedTree.names, Visible (fun char => [char]) name := by
  unfold Visible
  decide

/-- The reader finds the folder and the file of the volume. -/
theorem collectPaths_dotted : ∃ paths, collectPaths (fun char => [char]) dottedIso = .ok paths ∧
    ∀ path, path ∈ paths ↔ path = [] ∨ path = ['A'] := by
  obtain ⟨paths, collected, listed⟩ := collectPaths_tree dottedIso_volume dottedIso_holds
    dottedTree_visible (by decide)
  refine ⟨paths, collected, fun path => (listed path).trans ?_⟩
  have first : slashJoined (([ascii "."].map (normalizeIsoName fun char => [char])).dropWhile (· = [])) = [] := by
    decide
  have second : slashJoined (([ascii ".", ascii "A"].map (normalizeIsoName fun char => [char])).dropWhile
      (· = [])) = ['A'] := by
    decide
  show (∃ names ∈ [[ascii "."], [ascii ".", ascii "A"]], _) ↔ _
  simp only [List.exists_mem_cons_iff, first, second, List.not_mem_nil, false_and, exists_false, or_false]

/-- **An empty name leaves no slash**: the folder `.` has the empty path, and the file `A` in it has the
path `A`, where the names joined by a slash are `/A`. -/
theorem empty_name_joined : Volume dottedIso ⟨18, 102⟩ ∧ Holds dottedIso ⟨18, 102⟩ dottedTree ∧
    (∀ name ∈ dottedTree.names, 1 ≤ name.length ∧ name.length ≤ 221 ∧ Visible (fun char => [char]) name) ∧
    dottedTree.depth ≤ maxDirDepth ∧ [ascii ".", ascii "A"] ∈ dottedTree.entries ∧
    ∃ paths, collectPaths (fun char => [char]) dottedIso = .ok paths ∧
      slashJoined ([ascii ".", ascii "A"].map (normalizeIsoName fun char => [char])) ∉ paths ∧
      ['A'] ∈ paths := by
  have lengths : ∀ name ∈ dottedTree.names, 1 ≤ name.length ∧ name.length ≤ 221 := by decide
  obtain ⟨paths, collected, listed⟩ := collectPaths_of_holds dottedIso_volume dottedIso_holds
    dottedTree_visible (by decide)
  refine ⟨dottedIso_volume, dottedIso_holds, fun name member => ⟨(lengths name member).1,
    (lengths name member).2, dottedTree_visible name member⟩, by decide, by decide, paths, collected, ?_, ?_⟩
  · rw [listed]
    show ¬ ∃ names ∈ [[ascii "."], [ascii ".", ascii "A"]], _
    decide
  · rw [listed]
    exact ⟨[ascii ".", ascii "A"], by decide, by decide⟩

end Bootsmith.Inspect
