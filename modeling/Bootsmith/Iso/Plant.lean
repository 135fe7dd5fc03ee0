/-
**Images built from their records.**

`plant size entries` is the zero image with byte strings planted at disjoint places. A directory whose
packed records are planted reads back as those records, also when its recorded length goes on over
zeros behind them (`scan_plant`). `wellFormed_of_leaves` gathers what makes a volume with an `\I386`
directory and one level of directories below it well-formed; all its conditions are about the lists
of records, so they can be evaluated.

`sampleIso` is a volume of that shape with free `\I386` records and free data.
-/

import Bootsmith.Iso.WellFormed

namespace Bootsmith.Iso

open Bootsmith.Library

/-! ### Planted bytes -/

/-- The zero image with byte strings planted in it. -/
def plant (size : Nat) (entries : List (Nat × Bytes)) : Image := (Image.zeros size).scatter entries

/-- The planted strings lie in the image, one after the other. -/
def Planted (size : Nat) (entries : List (Nat × Bytes)) : Prop :=
  (∀ entry ∈ entries, entry.1 + entry.2.length ≤ size) ∧
    entries.Pairwise fun first second => first.1 + first.2.length ≤ second.1

instance (size : Nat) (entries : List (Nat × Bytes)) : Decidable (Planted size entries) :=
  inferInstanceAs (Decidable (_ ∧ _))

section Plant

variable {size : Nat} {entries : List (Nat × Bytes)} (planted : Planted size entries)

include planted

theorem plant_size : (plant size entries).size = size :=
  Image.scatter_size _ _ planted.1

theorem slice_plant {entry : Nat × Bytes} (member : entry ∈ entries) :
    (plant size entries).slice entry.1 entry.2.length = entry.2 :=
  Image.slice_scatter _ _ planted.2 member

omit planted in
theorem plant_zero {index : Nat}
    (outside : ∀ entry ∈ entries, ¬ (⟨entry.1, entry.2.length⟩ : Span).Holds index) :
    (plant size entries).get index = 0 := by
  rw [plant, Image.scatter_get_of_outside _ _ outside, Image.zeros_get]

end Plant

/-- A directory's length may go on over zeros. -/
theorem Scan.extend {image : Image} {stop pos stop' : Nat} {placed : List (Nat × Bytes)}
    (scan : Scan image stop pos placed) (longer : stop ≤ stop') (inside : stop' ≤ image.size)
    (zeros : ∀ index, stop ≤ index → index < stop' → image.get index = 0) :
    Scan image stop' pos placed := by
  induction scan with
  | @done pos past =>
    induction remaining : stop' - pos using Nat.strong_induction_on generalizing pos with
    | _ remaining ih =>
      by_cases before : pos < stop'
      · have up := le_alignUp (pos + 1) sectorSize_pos
        exact .skip before (by omega) (zeros pos past before) (ih _ (by omega) (by omega) rfl)
      · exact .done (by omega)
  | skip before within zero rest ih => exact .skip (by omega) within zero ih
  | record valid fits within here rest ih => exact .record valid (by omega) within here ih

/-- **A planted directory reads back.** -/
theorem scan_plant {size start stop : Nat} {entries : List (Nat × Bytes)} {raws : List Bytes}
    (planted : Planted size entries) (valid : ∀ raw ∈ raws, RawRecord raw)
    (inEntries : ∀ entry ∈ placements start raws, entry ∈ entries)
    (apart : ∀ entry ∈ entries, entry ∈ placements start raws ∨ entry.1 + entry.2.length ≤ start ∨
      stop ≤ entry.1)
    (ends : packedEnd start raws ≤ stop) (inside : stop ≤ size) :
    Scan (plant size entries) stop start (placements start raws) := by
  have zero : ∀ index, start ≤ index → index < stop →
      (∀ entry ∈ placements start raws, ¬ (⟨entry.1, entry.2.length⟩ : Span).Holds index) →
      (plant size entries).get index = 0 := by
    intro index after before outside
    refine plant_zero fun entry member => ?_
    rcases apart entry member with own | early | late
    · exact outside entry own
    · simp only [Span.Holds, Span.stop]
      omega
    · simp only [Span.Holds]
      omega
  refine (scan_of_layout valid ?_ (fun entry member => slice_plant planted (inEntries entry member))
    fun index after before outside => zero index after (by omega) outside).extend ends ?_
    fun index after before => zero index ?_ before fun entry member => ?_
  · rw [plant_size planted]
    omega
  · rw [plant_size planted]
    exact inside
  · exact (le_layoutEnd start raws).trans after
  · have last : entry.1 + entry.2.length ≤ packedEnd start raws :=
      (layout_mem sectorSize_pos (fun raw listed => (valid raw listed).length_le.trans (by decide))
        member).2.1
    simp only [Span.Holds, Span.stop]
    omega

/-! ### A volume with one level below `\I386` -/

instance (bytes : Bytes) : Decidable (∃ value, read733 bytes = .ok value) :=
  match read733 bytes with
  | .ok value => isTrue ⟨value, rfl⟩
  | .error _ => isFalse fun ⟨_, same⟩ => by cases same

instance (raw : Bytes) : Decidable (RawRecord raw) :=
  decidable_of_iff (34 ≤ raw.length ∧ (raw.getD 0 0).toNat = raw.length ∧
      33 + (raw.getD 32 0).toNat ≤ raw.length ∧ (∃ value, read733 (subrange raw 2 10) = .ok value) ∧
      ∃ value, read733 (subrange raw 10 18) = .ok value)
    ⟨fun ⟨minimum, lenByte, nameFits, extentLba, dataLen⟩ =>
      ⟨minimum, lenByte, nameFits, extentLba, dataLen⟩,
    fun ⟨minimum, lenByte, nameFits, extentLba, dataLen⟩ =>
      ⟨minimum, lenByte, nameFits, extentLba, dataLen⟩⟩

instance (records : List DirectoryRecord) : Decidable (StartsWithDots records) :=
  match records with
  | [] => isFalse fun ⟨_, _, _, shape, _⟩ => by cases shape
  | [_] => isFalse fun ⟨_, _, _, shape, _⟩ => by cases shape
  | dot :: dotdot :: rest =>
    decidable_of_iff (dot.name = [0] ∧ dotdot.name = [1])
      ⟨fun ⟨first, second⟩ => ⟨dot, dotdot, rest, rfl, first, second⟩, by
        rintro ⟨_, _, _, shape, first, second⟩
        simp only [List.cons.injEq] at shape
        exact ⟨shape.1 ▸ first, shape.2.1 ▸ second⟩⟩

instance (records : List DirectoryRecord) : Decidable (InSectors records) :=
  inferInstanceAs (Decidable (∀ _ ∈ _, _))

/-- Two extents share no sector. -/
def ApartOrEmpty (first second : DirectoryRecord) : Prop :=
  first.dataLen = 0 ∨ second.dataLen = 0 ∨ first.sectors.Apart second.sectors

instance (first second : DirectoryRecord) : Decidable (ApartOrEmpty first second) :=
  inferInstanceAs (Decidable (_ ∨ _))

section Leaves

variable {image : Image} {root : DirectoryRecord} {rootRecords i386Records : List DirectoryRecord}
  {i386 : DirectoryRecord}

/-- What the leaf directories below `\I386` read as. -/
def Leaves (image : Image) (records : List DirectoryRecord) : Prop :=
  ∀ leaf ∈ records.drop 2, leaf.IsDirectory → ∃ leafRecords,
    readDirectoryRecords image leaf = .ok leafRecords ∧ StartsWithDots leafRecords ∧
      InSectors leafRecords ∧ leafRecords.drop 2 = []

/-- The directories of a volume of a root, `\I386` and leaf directories. -/
theorem directories_of_leaves (foundRoot : findRootRecord image = .ok root)
    (readRoot : readDirectoryRecords image root = .ok rootRecords)
    (rootChildren : rootRecords.drop 2 = [i386])
    (readI386 : readDirectoryRecords image i386 = .ok i386Records)
    (leaves : Leaves image i386Records) {directory : DirectoryRecord}
    (inVolume : Directory image directory) :
    directory = root ∨ directory = i386 ∨
      (directory ∈ i386Records.drop 2 ∧ directory.IsDirectory) := by
  induction inVolume with
  | root found => exact Or.inl (Except.ok.inj (found.symm.trans foundRoot))
  | child parent read member isDirectory ih =>
    rcases ih with rfl | rfl | ⟨leaf, leafDirectory⟩
    · obtain rfl := Except.ok.inj (read.symm.trans readRoot)
      rw [rootChildren, List.mem_singleton] at member
      exact Or.inr (Or.inl member)
    · obtain rfl := Except.ok.inj (read.symm.trans readI386)
      exact Or.inr (Or.inr ⟨member, isDirectory⟩)
    · obtain ⟨records, readLeaf, _, _, none⟩ := leaves _ leaf leafDirectory
      obtain rfl := Except.ok.inj (read.symm.trans readLeaf)
      rw [none] at member
      cases member

/-- **A volume of a root, `\I386` and leaf directories is well-formed** when its records are. -/
theorem wellFormed_of_leaves (foundRoot : findRootRecord image = .ok root)
    (readRoot : readDirectoryRecords image root = .ok rootRecords)
    (rootShape : StartsWithDots rootRecords ∧ InSectors rootRecords ∧ rootRecords.drop 2 = [i386])
    (readI386 : readDirectoryRecords image i386 = .ok i386Records)
    (i386Shape : StartsWithDots i386Records ∧ InSectors i386Records)
    (leaves : Leaves image i386Records)
    (inside : ∀ entry ∈ root :: i386 :: i386Records.drop 2, entry.dataLen = 0 ∨
      (entry.start + entry.dataLen ≤ image.size ∧ entry.sectors.Apart pvdSector))
    (disjoint : (root :: i386 :: i386Records.drop 2).Pairwise ApartOrEmpty) : WellFormed image := by
  obtain ⟨rootDots, rootInSectors, rootChildren⟩ := rootShape
  have directories : ∀ directory, Directory image directory → directory = root ∨ directory = i386 ∨
      (directory ∈ i386Records.drop 2 ∧ directory.IsDirectory) := fun directory inVolume =>
    directories_of_leaves foundRoot readRoot rootChildren readI386 leaves inVolume
  have entries : ∀ entry, Entry image entry → entry ∈ root :: i386 :: i386Records.drop 2 := by
    intro entry inVolume
    cases inVolume with
    | root found => simp [Except.ok.inj (found.symm.trans foundRoot)]
    | listed parent read member =>
      rcases directories _ parent with rfl | rfl | ⟨leaf, leafDirectory⟩
      · obtain rfl := Except.ok.inj (read.symm.trans readRoot)
        rw [rootChildren, List.mem_singleton] at member
        simp [member]
      · obtain rfl := Except.ok.inj (read.symm.trans readI386)
        simp [member]
      · obtain ⟨records, readLeaf, _, _, none⟩ := leaves _ leaf leafDirectory
        obtain rfl := Except.ok.inj (read.symm.trans readLeaf)
        rw [none] at member
        cases member
  have symmetric : ∀ first second, ApartOrEmpty first second → ApartOrEmpty second first := by
    rintro first second (empty | empty | apart)
    · exact Or.inr (Or.inl empty)
    · exact Or.inl empty
    · exact Or.inr (Or.inr apart.symm)
  refine ⟨⟨root, foundRoot⟩, fun directory inVolume => ?_, fun entry inVolume => ?_,
    fun entry inVolume => ?_, fun first second inFirst inSecond different => ?_⟩
  · rcases directories directory inVolume with rfl | rfl | ⟨leaf, leafDirectory⟩
    · exact ⟨_, readRoot, rootDots, rootInSectors⟩
    · exact ⟨_, readI386, i386Shape⟩
    · obtain ⟨records, readLeaf, dots, inSectors, _⟩ := leaves directory leaf leafDirectory
      exact ⟨records, readLeaf, dots, inSectors⟩
  · exact (inside entry (entries entry inVolume)).imp_right And.left
  · exact (inside entry (entries entry inVolume)).imp_right And.right
  · have : Std.Symm ApartOrEmpty := ⟨symmetric⟩
    exact disjoint.forall (entries first inFirst) (entries second inSecond) different

end Leaves

/-! ### The sample volume -/

/-- A file record with the directory flag. -/
def directoryRecord (name : Bytes) (extentLba dataLen : Nat) : Bytes :=
  (fileRecord name extentLba dataLen).set 25 directoryFlag

/-- The records of the sample root, which lies in sector 18. -/
def sampleRoot (i386Len : Nat) : List Bytes :=
  [directoryRecord [0] 18 106, directoryRecord [1] 18 106,
    directoryRecord (ascii "I386") 19 i386Len]

/-- The bytes of the sample volume: the descriptor, what sector 17 holds, the root, `\I386` from sector 19 on, and
data. -/
def sampleEntries (i386Len : Nat) (i386 : List Bytes) (data : List (Nat × Bytes))
    (boot : List (Nat × Bytes) := []) : List (Nat × Bytes) :=
  [(pvdOffset, pvdHeader), (rootOffset, directoryRecord [0] 18 106)] ++ boot
    ++ placements (18 * sectorSize) (sampleRoot i386Len) ++ placements (19 * sectorSize) i386 ++ data

/-- A volume with a root and `\I386`. -/
def sampleIso (sectors i386Len : Nat) (i386 : List Bytes) (data : List (Nat × Bytes))
    (boot : List (Nat × Bytes) := []) : Image :=
  plant (sectors * sectorSize) (sampleEntries i386Len i386 data boot)

/-- The entries beside a directory's own records lie outside of its bytes. -/
def Beside (start stop : Nat) (raws : List Bytes) (entries : List (Nat × Bytes)) : Prop :=
  packedEnd start raws ≤ stop ∧
    ∀ entry ∈ entries, entry ∈ placements start raws ∨ entry.1 + entry.2.length ≤ start ∨
      stop ≤ entry.1

instance (start stop : Nat) (raws : List Bytes) (entries : List (Nat × Bytes)) :
    Decidable (Beside start stop raws entries) :=
  inferInstanceAs (Decidable (_ ∧ _))

/-- The bytes fit into the volume, and the records are records. -/
structure SampleFits (sectors i386Len : Nat) (i386 : List Bytes) (data : List (Nat × Bytes))
    (boot : List (Nat × Bytes) := []) : Prop where
  planted : Planted (sectors * sectorSize) (sampleEntries i386Len i386 data boot)
  valid : ∀ raw ∈ sampleRoot i386Len ++ i386, RawRecord raw
  root : Beside (18 * sectorSize) (18 * sectorSize + 106) (sampleRoot i386Len)
    (sampleEntries i386Len i386 data boot)
  i386 : Beside (19 * sectorSize) (19 * sectorSize + i386Len) i386 (sampleEntries i386Len i386 data boot)
  inside : 19 * sectorSize + i386Len ≤ sectors * sectorSize

section Sample

variable {sectors i386Len : Nat} {i386 : List Bytes} {data boot : List (Nat × Bytes)}
  (fits : SampleFits sectors i386Len i386 data boot)

include fits

theorem sampleIso_size : (sampleIso sectors i386Len i386 data boot).size = sectors * sectorSize :=
  plant_size fits.planted

theorem sampleIso_nextLba : nextLba (sampleIso sectors i386Len i386 data boot) = sectors := by
  rw [nextLba, sampleIso_size fits, alignUp_of_dvd sectorSize_pos (Dvd.intro_left _ rfl),
    Nat.mul_div_cancel _ sectorSize_pos]

/-- **The sample volume reads back**: its root record, the root and `\I386`. -/
theorem sampleIso_reads :
    findRootRecord (sampleIso sectors i386Len i386 data boot)
        = .ok (recordOf rootOffset (directoryRecord [0] 18 106)) ∧
      Scan (sampleIso sectors i386Len i386 data boot) (18 * sectorSize + 106) (18 * sectorSize)
        (placements (18 * sectorSize) (sampleRoot i386Len)) ∧
      Scan (sampleIso sectors i386Len i386 data boot) (19 * sectorSize + i386Len) (19 * sectorSize)
        (placements (19 * sectorSize) i386) := by
  have inside := fits.inside
  have large : (pvdLba + 1) * sectorSize ≤ 19 * sectorSize := by decide
  have root : 18 * sectorSize + 106 ≤ 19 * sectorSize := by decide
  have planted := fits.planted
  refine ⟨findRootRecord_eq_ok.mpr ⟨directoryRecord [0] 18 106, ⟨?_, ?_, by decide, ?_,
    fits.valid _ (by simp [sampleRoot]), by decide⟩, rfl⟩, ?_, ?_⟩
  · rw [sampleIso_size fits]
    omega
  · have header : (pvdOffset, pvdHeader) ∈ sampleEntries i386Len i386 data boot := by simp [sampleEntries]
    exact slice_plant planted header
  · have record : (rootOffset, directoryRecord [0] 18 106) ∈ sampleEntries i386Len i386 data boot := by
      simp [sampleEntries]
    exact slice_plant planted record
  · exact scan_plant planted (fun raw member => fits.valid raw (by simp [member]))
      (fun entry member => by simp [sampleEntries, member]) fits.root.2 fits.root.1 (by omega)
  · exact scan_plant planted (fun raw member => fits.valid raw (by simp [member]))
      (fun entry member => by simp [sampleEntries, member]) fits.i386.2 fits.i386.1 inside

end Sample

/-- The root record of the sample volume. -/
def sampleRootRecord : DirectoryRecord := recordOf rootOffset (directoryRecord [0] 18 106)

/-- The record that names `\I386` in the sample volume. -/
def sampleI386 (i386Len : Nat) : DirectoryRecord :=
  recordOf (18 * sectorSize + 68) (directoryRecord (ascii "I386") 19 i386Len)

/-- The records of `\I386` in the sample volume. -/
def sampleRecords (i386 : List Bytes) : List DirectoryRecord :=
  parsed (placements (19 * sectorSize) i386)

/-- The records of the root of the sample volume. -/
def sampleRootRecords (i386Len : Nat) : List DirectoryRecord :=
  parsed (placements (18 * sectorSize) (sampleRoot i386Len))

/-- The records of the sample volume are those of a well-formed volume. -/
structure SampleShape (sectors i386Len : Nat) (i386 : List Bytes) : Prop where
  extent : (sampleI386 i386Len).start = 19 * sectorSize ∧ (sampleI386 i386Len).dataLen = i386Len
  found : (sampleRootRecords i386Len).find? (fun record => isoNameEq record.name (ascii "I386"))
      = some (sampleI386 i386Len) ∧ (sampleI386 i386Len).IsDirectory
  root : StartsWithDots (sampleRootRecords i386Len) ∧ InSectors (sampleRootRecords i386Len) ∧
    (sampleRootRecords i386Len).drop 2 = [sampleI386 i386Len]
  records : StartsWithDots (sampleRecords i386) ∧ InSectors (sampleRecords i386)
  inside : ∀ entry ∈ sampleRootRecord :: sampleI386 i386Len :: (sampleRecords i386).drop 2,
    entry.dataLen = 0 ∨
      (entry.start + entry.dataLen ≤ sectors * sectorSize ∧ entry.sectors.Apart pvdSector)
  disjoint : (sampleRootRecord :: sampleI386 i386Len :: (sampleRecords i386).drop 2).Pairwise
    ApartOrEmpty

section SampleWellFormed

variable {sectors i386Len : Nat} {i386 : List Bytes} {data boot : List (Nat × Bytes)}
  (fits : SampleFits sectors i386Len i386 data boot) (shape : SampleShape sectors i386Len i386)

include fits

theorem sampleIso_root : findRootRecord (sampleIso sectors i386Len i386 data boot) = .ok sampleRootRecord ∧
    readDirectoryRecords (sampleIso sectors i386Len i386 data boot) sampleRootRecord
      = .ok (sampleRootRecords i386Len) := by
  obtain ⟨foundRoot, rootScan, _⟩ := sampleIso_reads fits
  have rootStart : sampleRootRecord.start = 18 * sectorSize := by decide
  have rootLen : sampleRootRecord.dataLen = 106 := by decide
  refine ⟨foundRoot, ?_⟩
  rw [readDirectoryRecords, rootStart, rootLen]
  exact rootScan.read

include shape

/-- The sample volume finds `\I386`, and reads its records. -/
theorem sampleIso_i386 :
    findI386Record (sampleIso sectors i386Len i386 data boot) = .ok (sampleI386 i386Len) ∧
      Scan (sampleIso sectors i386Len i386 data boot)
        ((sampleI386 i386Len).start + (sampleI386 i386Len).dataLen) (sampleI386 i386Len).start
        (placements (19 * sectorSize) i386) := by
  obtain ⟨foundRoot, readRoot⟩ := sampleIso_root fits
  refine ⟨findI386Record_eq_ok.mpr ⟨_, _, foundRoot, readRoot, shape.found.1, shape.found.2⟩, ?_⟩
  rw [shape.extent.1, shape.extent.2]
  exact (sampleIso_reads fits).2.2

/-- **The sample volume is well-formed**, when its leaf directories read. -/
theorem sampleIso_wellFormed
    (leaves : Leaves (sampleIso sectors i386Len i386 data boot) (sampleRecords i386)) :
    WellFormed (sampleIso sectors i386Len i386 data boot) := by
  obtain ⟨foundRoot, readRoot⟩ := sampleIso_root fits
  refine wellFormed_of_leaves foundRoot readRoot shape.root (sampleIso_i386 fits shape).2.read
    shape.records leaves ?_ shape.disjoint
  rw [sampleIso_size fits]
  exact shape.inside

/-- The sample volume is what the calls on `\I386` rely on. -/
theorem sampleIso_staged
    (leaves : Leaves (sampleIso sectors i386Len i386 data boot) (sampleRecords i386)) :
    ∃ root rootPlaced, Staged (sampleIso sectors i386Len i386 data boot) root (sampleI386 i386Len)
      rootPlaced (placements (19 * sectorSize) i386) := by
  obtain ⟨found, scan⟩ := sampleIso_i386 fits shape
  obtain ⟨root, rootPlaced, placed, staged, _⟩ := (sampleIso_wellFormed fits shape leaves).staged found
  obtain rfl := staged.scan.unique scan
  exact ⟨root, rootPlaced, staged⟩

end SampleWellFormed

/-! ### The sample volume without files -/

/-- An `\I386` with its dot records only. -/
def bareRecords : List Bytes := [directoryRecord [0] 19 68, directoryRecord [1] 18 106]

/-- The sample volume without files. -/
def bareIso : Image := sampleIso 20 68 bareRecords []

theorem bareIso_fits : SampleFits 20 68 bareRecords [] := by
  constructor <;> decide

theorem bareIso_shape : SampleShape 20 68 bareRecords := by
  constructor <;> decide

theorem bareIso_leaves : Leaves bareIso (sampleRecords bareRecords) := by
  intro leaf member
  have none : (sampleRecords bareRecords).drop 2 = [] := by decide
  rw [none] at member
  cases member

theorem bareIso_wellFormed : WellFormed bareIso :=
  sampleIso_wellFormed bareIso_fits bareIso_shape bareIso_leaves

theorem bareIso_staged : ∃ root rootPlaced, Staged bareIso root (sampleI386 68) rootPlaced
    (placements (19 * sectorSize) bareRecords) :=
  sampleIso_staged bareIso_fits bareIso_shape bareIso_leaves

theorem bareIso_nextLba : nextLba bareIso = 20 := sampleIso_nextLba bareIso_fits

/-- A file of one byte named `A` fits into the sample volume without files. -/
theorem bareIso_appendFits :
    AppendFits bareIso (sampleI386 68) (placements (19 * sectorSize) bareRecords) [65] [1] := by
  have sorted : newEnd bareIso (placements (19 * sectorSize) bareRecords) [65] [1] = 102 := by
    rw [newEnd, sortedRecords, newRecord, bareIso_nextLba]
    rfl
  refine ⟨by decide, by decide, ?_, by decide, by decide, ?_, ?_, ?_⟩
  · rw [bareIso_nextLba]
    decide
  · rw [sorted]
    decide
  · rw [sorted]
    decide
  · rw [bareIso_nextLba]
    decide

/-! ### A sample volume with two files and a boot image -/

/-- The first bytes of a boot record volume descriptor. -/
def bootRecordHeader : Bytes :=
  [0] ++ ascii "CD001" ++ [1] ++ ascii "EL TORITO SPECIFICATION"

/-- An `\I386` with the files `A` and `C`. -/
def bootRecords : List Bytes :=
  [directoryRecord [0] 19 136, directoryRecord [1] 18 106, fileRecord [65] 22 1, fileRecord [67] 23 1]

/-- The boot record, which names the catalog in sector 20. -/
def bootSector : List (Nat × Bytes) :=
  [(17 * sectorSize, bootRecordHeader), (17 * sectorSize + 71, [20, 0, 0, 0])]

/-- The catalog, which names the boot image in sector 21, and the bytes of the boot image and the files. -/
def bootData : List (Nat × Bytes) :=
  [(20 * sectorSize + 32, [0x88]), (20 * sectorSize + 38, [4, 0]), (20 * sectorSize + 40, [21, 0, 0, 0]),
    (21 * sectorSize, [0xeb]), (22 * sectorSize, [7]), (23 * sectorSize, [8])]

/-- The sample volume with two files and a boot image. -/
def bootIso : Image := sampleIso 24 136 bootRecords bootData bootSector

theorem bootIso_fits : SampleFits 24 136 bootRecords bootData bootSector := by
  constructor <;> decide

theorem bootIso_shape : SampleShape 24 136 bootRecords := by
  constructor <;> decide

theorem bootIso_leaves : Leaves bootIso (sampleRecords bootRecords) := by
  have files : ∀ record ∈ (sampleRecords bootRecords).drop 2, ¬ record.IsDirectory := by decide
  exact fun leaf member isDirectory => absurd isDirectory (files leaf member)

theorem bootIso_wellFormed : WellFormed bootIso :=
  sampleIso_wellFormed bootIso_fits bootIso_shape bootIso_leaves

theorem bootIso_staged : ∃ root rootPlaced, Staged bootIso root (sampleI386 136) rootPlaced
    (placements (19 * sectorSize) bootRecords) :=
  sampleIso_staged bootIso_fits bootIso_shape bootIso_leaves

theorem bootIso_nextLba : nextLba bootIso = 24 := sampleIso_nextLba bootIso_fits

end Bootsmith.Iso
