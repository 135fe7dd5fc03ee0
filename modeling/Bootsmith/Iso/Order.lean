/-
**Appends in any order.**

Whether an append to `\I386` succeeds is decided by the shapes of its records, its recorded size and
the length of the image (`Room`). On an image whose `\I386` records fill the sectors it has
(`Room.Tight`), appends of different files commute: the room a directory needs is a matter of which
records it has, not of when they came.

* `Room.append_commutes`: two appends in a row change places;
* `Staged.appendFiles_iff`: a run of appends succeeds exactly when the run of rooms does;
* `appendFiles_order`: all orders of a list of appends succeed alike and leave the same names and the
  same size, and no append gives up a sector.

A directory recorded with more sectors than its records need gives them up at the first append; then
the order matters (`slack_order_matters`).
-/

import Bootsmith.Library.Commute
import Bootsmith.Iso.Readback
import Bootsmith.Iso.Shape

namespace Bootsmith.Iso

open Bootsmith.Library

/-! ### Room in a directory -/

/-- What decides whether appends succeed: the shapes of the dot records and of the other records, the
recorded size, and the first sector behind the image. -/
structure Room where
  dots : List (Bytes × Nat)
  files : List (Bytes × Nat)
  dataLen : Nat
  nextLba : Nat
  deriving DecidableEq

/-- The key a shape is sorted by. -/
def shapeKey (one : Bytes × Nat) : Bytes := isoSortKey one.1

namespace Room

/-- The bytes of the sectors the directory has. -/
def allocated (room : Room) : Nat := alignUp room.dataLen sectorSize

def filesAfter (room : Room) (fileName : Bytes) : List (Bytes × Nat) :=
  sortBy shapeKey (room.files ++ [newShape fileName])

def lenAfter (room : Room) (fileName : Bytes) : Nat :=
  shapesEnd (room.dots ++ room.filesAfter fileName)

def lbaAfter (room : Room) (contents : Bytes) : Nat := finalLen room.nextLba contents / sectorSize

/-- No record has the name. -/
def Fresh (room : Room) (fileName : Bytes) : Prop :=
  ∀ one ∈ room.dots ++ room.files, shapeKey one ≠ isoSortKey fileName

instance (room : Room) (fileName : Bytes) : Decidable (room.Fresh fileName) :=
  inferInstanceAs (Decidable (∀ _ ∈ _, _))

/-- What an append checks. -/
structure Admits (room : Room) (file : Bytes × Bytes) : Prop where
  nonempty : file.2 ≠ []
  absent : room.Fresh file.1
  lbaFits : room.nextLba < 2 ^ 32
  lenFits : file.2.length < 2 ^ 32
  short : file.1.length ≤ 221
  fits : room.lenAfter file.1 ≤ room.allocated
  sizeFits : room.lenAfter file.1 < 2 ^ 32
  volumeFits : room.lbaAfter file.2 < 2 ^ 32

instance (room : Room) (file : Bytes × Bytes) : Decidable (room.Admits file) :=
  decidable_of_iff (file.2 ≠ [] ∧ room.Fresh file.1 ∧ room.nextLba < 2 ^ 32 ∧ file.2.length < 2 ^ 32 ∧
      file.1.length ≤ 221 ∧ room.lenAfter file.1 ≤ room.allocated ∧ room.lenAfter file.1 < 2 ^ 32 ∧
      room.lbaAfter file.2 < 2 ^ 32)
    ⟨fun ⟨nonempty, absent, lbaFits, lenFits, short, fits, sizeFits, volumeFits⟩ =>
      ⟨nonempty, absent, lbaFits, lenFits, short, fits, sizeFits, volumeFits⟩,
    fun ⟨nonempty, absent, lbaFits, lenFits, short, fits, sizeFits, volumeFits⟩ =>
      ⟨nonempty, absent, lbaFits, lenFits, short, fits, sizeFits, volumeFits⟩⟩

/-- The room after an append. -/
def after (room : Room) (file : Bytes × Bytes) : Room :=
  { room with
    files := room.filesAfter file.1
    dataLen := room.lenAfter file.1
    nextLba := room.lbaAfter file.2 }

def append (room : Room) (file : Bytes × Bytes) : Option Room :=
  if room.Admits file then some (room.after file) else none

theorem append_eq_some {room room' : Room} {file : Bytes × Bytes} :
    room.append file = some room' ↔ room.Admits file ∧ room.after file = room' := by
  rw [append]
  split
  · rename_i admits
    simp [admits]
  · rename_i refused
    simp [refused]

/-- The records, packed in the order they are written back, need all the sectors the directory
has. -/
structure Tight (room : Room) : Prop where
  small : ∀ one ∈ room.dots ++ room.files, one.2 ≤ sectorSize
  needed : room.allocated
    ≤ alignUp (shapesEnd (room.dots ++ sortBy shapeKey room.files)) sectorSize

instance (room : Room) : Decidable room.Tight :=
  decidable_of_iff ((∀ one ∈ room.dots ++ room.files, one.2 ≤ sectorSize) ∧ room.allocated
      ≤ alignUp (shapesEnd (room.dots ++ sortBy shapeKey room.files)) sectorSize)
    ⟨fun ⟨small, needed⟩ => ⟨small, needed⟩, fun ⟨small, needed⟩ => ⟨small, needed⟩⟩

variable {room : Room} {first second : Bytes × Bytes}

theorem newShape_small {fileName : Bytes} (short : fileName.length ≤ 221) :
    (newShape fileName).2 ≤ sectorSize := by
  simp only [newShape, sectorSize]
  omega

/-- A new record is one insertion into the sorted records. -/
theorem Fresh.filesAfter {fileName : Bytes} (fresh : room.Fresh fileName) :
    room.filesAfter fileName
      = insertBy shapeKey (newShape fileName) (sortBy shapeKey room.files) :=
  sortBy_concat shapeKey room.files (newShape fileName) fun one inFiles =>
    fresh one (List.mem_append_right _ inFiles)

theorem sortBy_filesAfter (room : Room) (fileName : Bytes) :
    sortBy shapeKey (room.filesAfter fileName) = room.filesAfter fileName :=
  sortBy_of_pairwise (sortBy_pairwise _ _)

theorem mem_filesAfter {one : Bytes × Nat} {fileName : Bytes} :
    one ∈ room.filesAfter fileName ↔ one ∈ room.files ∨ one = newShape fileName := by
  rw [Room.filesAfter, (sortBy_perm _ _).mem_iff, List.mem_append, List.mem_singleton]

theorem after_small (small : ∀ one ∈ room.dots ++ room.files, one.2 ≤ sectorSize)
    (short : first.1.length ≤ 221) :
    ∀ one ∈ (room.after first).dots ++ (room.after first).files, one.2 ≤ sectorSize := by
  intro one member
  rcases List.mem_append.mp member with dot | file
  · exact small one (List.mem_append_left _ dot)
  · rcases mem_filesAfter.mp file with old | rfl
    · exact small one (List.mem_append_right _ old)
    · exact newShape_small short

/-- More records need no less room. -/
theorem shapesEnd_le_lenAfter (small : ∀ one ∈ room.dots ++ room.files, one.2 ≤ sectorSize)
    (fresh : room.Fresh first.1) (short : first.1.length ≤ 221) :
    shapesEnd (room.dots ++ sortBy shapeKey room.files) ≤ room.lenAfter first.1 := by
  refine layoutEnd_sublist sectorSize_pos ?_ (after_small small short) 0
  show (room.dots ++ _).Sublist (room.dots ++ room.filesAfter first.1)
  rw [fresh.filesAfter]
  exact (List.Sublist.refl _).append (List.sublist_orderedInsert _ _)

/-- **An append to a tight directory keeps its sectors.** -/
theorem Tight.allocated_after (tight : room.Tight) (admits : room.Admits first) :
    (room.after first).allocated = room.allocated := by
  refine le_antisymm (alignUp_le sectorSize_pos admits.fits (alignUp_dvd _ _))
    (tight.needed.trans (alignUp_mono sectorSize_pos ?_))
  exact shapesEnd_le_lenAfter tight.small admits.absent admits.short

theorem tight_preserved : Preserves Room.append Tight := by
  intro room file room' tight run
  obtain ⟨admits, rfl⟩ := append_eq_some.mp run
  refine ⟨after_small tight.small admits.short, ?_⟩
  show alignUp (room.lenAfter file.1) sectorSize ≤ _
  refine alignUp_mono sectorSize_pos ?_
  show room.lenAfter file.1 ≤ shapesEnd (room.dots ++ sortBy shapeKey (room.filesAfter file.1))
  rw [sortBy_filesAfter, lenAfter]

/-- A run of appends to a tight directory keeps its sectors. -/
theorem Tight.run_allocated {files : List (Bytes × Bytes)} {room' : Room} (tight : room.Tight)
    (run : files.foldlM Room.append room = some room') : room'.allocated = room.allocated := by
  induction files generalizing room with
  | nil =>
    obtain rfl : room = room' := Option.some.inj run
    rfl
  | cons file files ih =>
    obtain ⟨middle, one, rest⟩ := foldlM_cons_eq_some.mp run
    have kept := tight_preserved room file middle tight one
    obtain ⟨admits, rfl⟩ := append_eq_some.mp one
    exact (ih kept rest).trans (tight.allocated_after admits)

theorem lbaAfter_eq (room : Room) (contents : Bytes) :
    room.lbaAfter contents = room.nextLba + alignUp contents.length sectorSize / sectorSize := by
  rw [lbaAfter, finalLen, alignUp_add _ sectorSize_pos (Dvd.intro_left _ rfl), Nat.mul_comm,
    Nat.mul_add_div sectorSize_pos]

/-- Names that are new one after the other are new in the other order. -/
theorem Fresh.swap (fresh : room.Fresh first.1) (fresh' : (room.after first).Fresh second.1) :
    room.Fresh second.1 ∧ (room.after second).Fresh first.1 := by
  have inAfter : ∀ one ∈ room.dots ++ room.files,
      one ∈ (room.after first).dots ++ (room.after first).files := by
    intro one member
    rcases List.mem_append.mp member with dot | file
    · exact List.mem_append_left _ dot
    · exact List.mem_append_right _ (mem_filesAfter.mpr (Or.inl file))
  refine ⟨fun one member => fresh' one (inAfter one member), fun one member => ?_⟩
  rcases List.mem_append.mp member with dot | file
  · exact fresh one (List.mem_append_left _ dot)
  · rcases mem_filesAfter.mp file with old | rfl
    · exact fresh one (List.mem_append_right _ old)
    · exact fun same =>
        fresh' _ (List.mem_append_right _ (mem_filesAfter.mpr (Or.inr rfl))) same.symm

/-- The rooms after two appends in either order are the same. -/
theorem after_comm (fresh : room.Fresh first.1) (fresh' : (room.after first).Fresh second.1) :
    (room.after first).after second = (room.after second).after first := by
  obtain ⟨other, other'⟩ := fresh.swap fresh'
  have different : shapeKey (newShape second.1) ≠ shapeKey (newShape first.1) := fun same =>
    fresh' _ (List.mem_append_right _ (mem_filesAfter.mpr (Or.inr rfl))) same.symm
  have files : (room.after first).filesAfter second.1 = (room.after second).filesAfter first.1 := by
    rw [fresh'.filesAfter, other'.filesAfter]
    show insertBy _ _ (sortBy _ (room.filesAfter first.1))
      = insertBy _ _ (sortBy _ (room.filesAfter second.1))
    rw [sortBy_filesAfter, sortBy_filesAfter, fresh.filesAfter, other.filesAfter,
      insertBy_comm shapeKey different]
  have lens : (room.after first).lenAfter second.1 = (room.after second).lenAfter first.1 := by
    rw [lenAfter, lenAfter, files]
    rfl
  have lbas : (room.after first).lbaAfter second.2 = (room.after second).lbaAfter first.2 := by
    rw [lbaAfter_eq, lbaAfter_eq]
    show room.lbaAfter first.2 + _ = room.lbaAfter second.2 + _
    rw [lbaAfter_eq, lbaAfter_eq]
    omega
  rw [after, files, lens, lbas]
  rfl

/-- **Appends to a tight directory commute.** -/
theorem append_commutes : Commutes Room.append Tight := by
  intro room first second middle last tight one two
  obtain ⟨admits, rfl⟩ := append_eq_some.mp one
  obtain ⟨admits', rfl⟩ := append_eq_some.mp two
  obtain ⟨other, other'⟩ := admits.absent.swap admits'.absent
  have same := after_comm admits.absent admits'.absent
  -- the directory ends where it ends in the other order, and no later than that after one append
  have ends : (room.after second).lenAfter first.1 = (room.after first).lenAfter second.1 :=
    congrArg Room.dataLen same.symm
  have grows : room.lenAfter second.1 ≤ (room.after second).lenAfter first.1 := by
    have more := shapesEnd_le_lenAfter (after_small tight.small admits'.short) other' admits.short
    rwa [show (room.after second).files = room.filesAfter second.1 from rfl, sortBy_filesAfter]
      at more
  have lbas : (room.after second).lbaAfter first.2 = (room.after first).lbaAfter second.2 :=
    congrArg Room.nextLba same.symm
  have later : (room.after second).nextLba ≤ (room.after second).lbaAfter first.2 := by
    rw [lbaAfter_eq]
    exact Nat.le_add_right _ _
  have fits := admits'.fits
  have sizeFits := admits'.sizeFits
  have volumeFits := admits'.volumeFits
  have keeps := tight.allocated_after admits
  have admitsOther : room.Admits second :=
    ⟨admits'.nonempty, other, admits.lbaFits, admits'.lenFits, admits'.short, by omega, by omega,
      by show (room.after second).nextLba < _; omega⟩
  have keepsOther := tight.allocated_after admitsOther
  exact ⟨_, append_eq_some.mpr ⟨admitsOther, rfl⟩, append_eq_some.mpr ⟨⟨admits.nonempty, other',
    by omega, admits.lenFits, admits.short, by omega, by omega, by omega⟩, same.symm⟩⟩

end Room

/-! ### The room of `\I386` -/

/-- The room of a directory with these records. -/
def roomOf (image : Image) (directory : DirectoryRecord) (raws : List Bytes) : Room :=
  ⟨(raws.take 2).map shape, (raws.drop 2).map shape, directory.dataLen, nextLba image⟩

/-- The appends of a list of files, up to the first failure. -/
def appendFiles (files : List (Bytes × Bytes)) : Effect Image Unit :=
  runCalls (files.map fun file => .append file.1 file.2)

section Append

variable {image image' : Image} {root i386 : DirectoryRecord} {rootPlaced placed : List (Nat × Bytes)}
  {file : Bytes × Bytes}

theorem roomOf_lenAfter (staged : Staged image root i386 rootPlaced placed)
    (short : file.1.length ≤ 221) (lbaFits : nextLba image < 2 ^ 32) (lenFits : file.2.length < 2 ^ 32) :
    newEnd image placed file.1 file.2
      = (roomOf image i386 (placed.map Prod.snd)).lenAfter file.1 := by
  obtain ⟨dot, dotdot, rest, rfl, _, _⟩ := StartsWithDots.placed staged.dots
  rw [newEnd_eq_sizeAfter _ short lbaFits lenFits, sizeAfter, sortShapes, if_pos (by simp)]
  rfl

/-- **The checks of an append are those of its room.** -/
theorem appendFits_iff (staged : Staged image root i386 rootPlaced placed) :
    AppendFits image i386 placed file.1 file.2
      ↔ (roomOf image i386 (placed.map Prod.snd)).Admits file := by
  have keys : (∀ record ∈ parsed placed, isoSortKey record.name ≠ isoSortKey file.1) ↔
      (roomOf image i386 (placed.map Prod.snd)).Fresh file.1 := by
    have names : ∀ entry ∈ placed, shapeKey (shape entry.2)
        = isoSortKey (recordOf entry.1 entry.2).name := fun entry member =>
      congrArg isoSortKey (recordName_eq (staged.scan.bounds member).2.2.2.1 entry.1)
    rw [Room.Fresh, roomOf, ← List.map_append, List.take_append_drop, parsed]
    simp only [List.forall_mem_map]
    exact ⟨fun absent entry member => names entry member ▸ absent entry member,
      fun absent entry member => names entry member ▸ absent entry member⟩
  constructor
  · intro fits
    have len := roomOf_lenAfter staged fits.short fits.lbaFits fits.lenFits
    exact ⟨fits.nonempty, keys.mp fits.absent, fits.lbaFits, fits.lenFits, fits.short,
      len ▸ fits.room, len ▸ fits.sizeFits, fits.volumeFits⟩
  · intro admits
    have len := roomOf_lenAfter staged admits.short admits.lbaFits admits.lenFits
    exact ⟨admits.nonempty, keys.mpr admits.absent, admits.lbaFits, admits.lenFits, admits.short,
      len ▸ admits.fits, len ▸ admits.sizeFits, admits.volumeFits⟩

/-- **One append, and the room it leaves.** -/
theorem Staged.append_room {value : Unit} (staged : Staged image root i386 rootPlaced placed) :
    (appendFileToI386 file.1 file.2).run image = .ok value image' →
      ∃ i386' rootPlaced' placed', Staged image' root i386' rootPlaced' placed' ∧
        (roomOf image i386 (placed.map Prod.snd)).append file
          = some (roomOf image' i386' (placed'.map Prod.snd)) := by
  intro run
  obtain ⟨fits, rfl⟩ := (appendFileToI386_run staged).mp run
  obtain ⟨rootPlaced', wrote⟩ := staged.append fits
  refine ⟨_, rootPlaced', _, wrote.staged, Room.append_eq_some.mpr ⟨(appendFits_iff staged).mp fits, ?_⟩⟩
  have len := roomOf_lenAfter staged fits.short fits.lbaFits fits.lenFits
  generalize appendedImage image i386 (i386.offset + 10) placed file.1 file.2 = image' at *
  obtain ⟨dot, dotdot, rest, rfl, _, _⟩ := StartsWithDots.placed staged.dots
  have valid : RawRecord dot.2 := (staged.scan.bounds (by simp)).2.2.2.1
  obtain ⟨valid', resized⟩ := withField_dataLen valid fits.sizeFits
  have minimum := valid.minimum
  have dotShape : shape (withField 10 (newEnd image (dot :: dotdot :: rest) file.1 file.2) dot.2)
      = shape dot.2 := by
    rw [shape, shape, recordName_eq valid' 0, resized, recordName_eq valid 0,
      withField_length (by omega)]
  have files : (sortBy (fun raw => isoSortKey (recordName raw))
      (rest.map Prod.snd ++ [newRecord image file.1 file.2])).map shape
        = sortBy shapeKey ((rest.map Prod.snd).map shape ++ [newShape file.1]) := by
    rw [map_sortBy (fun raw => isoSortKey (recordName raw)) shapeKey shape _ fun _ _ => rfl,
      List.map_append, List.map_singleton, shape_newRecord fits.short fits.lbaFits fits.lenFits]
  have lba := wrote.atEnd.nextLba
  rw [layout_map_snd, withSize_sortedRecords]
  have dots : (roomOf image i386 ((dot :: dotdot :: rest).map Prod.snd)).dots
      = [shape (withField 10 (newEnd image (dot :: dotdot :: rest) file.1 file.2) dot.2),
        shape dotdot.2] := by
    rw [dotShape]
    rfl
  exact (Room.mk.injEq ..).mpr ⟨dots, files.symm, len.symm, lba.symm⟩

/-- An append the room admits succeeds. -/
theorem Staged.append_of_room {room : Room} (staged : Staged image root i386 rootPlaced placed)
    (admitted : (roomOf image i386 (placed.map Prod.snd)).append file = some room) :
    ∃ image', (appendFileToI386 file.1 file.2).run image = .ok () image' := by
  obtain ⟨admits, _⟩ := Room.append_eq_some.mp admitted
  exact ⟨_, (appendFileToI386_run staged).mpr ⟨(appendFits_iff staged).mpr admits, rfl⟩⟩

end Append

section Run

variable {image image' : Image} {root i386 : DirectoryRecord} {rootPlaced placed : List (Nat × Bytes)}
  {files : List (Bytes × Bytes)}

/-- **A run of appends is the run of its rooms.** -/
theorem Staged.appendFiles_room {value : Unit} (staged : Staged image root i386 rootPlaced placed)
    (run : (appendFiles files).run image = .ok value image') :
    ∃ i386' rootPlaced' placed', Staged image' root i386' rootPlaced' placed' ∧
      files.foldlM Room.append (roomOf image i386 (placed.map Prod.snd))
        = some (roomOf image' i386' (placed'.map Prod.snd)) := by
  induction files generalizing image i386 rootPlaced placed with
  | nil =>
    obtain ⟨_, rfl⟩ := (Effect.pure_eq_ok _ _ _ _).mp run
    exact ⟨i386, rootPlaced, placed, staged, rfl⟩
  | cons file files ih =>
    obtain ⟨middle, one, rest⟩ := (runCalls_cons _ _ _ _ _).mp run
    obtain ⟨i386', rootPlaced', placed', staged', first⟩ := staged.append_room one
    obtain ⟨i386'', rootPlaced'', placed'', staged'', others⟩ := ih staged' rest
    exact ⟨i386'', rootPlaced'', placed'', staged'', foldlM_cons_eq_some.mpr ⟨_, first, others⟩⟩

/-- A run of appends succeeds when the run of its rooms does. -/
theorem Staged.appendFiles_of_room {room : Room} (staged : Staged image root i386 rootPlaced placed)
    (admitted : files.foldlM Room.append (roomOf image i386 (placed.map Prod.snd)) = some room) :
    ∃ image', (appendFiles files).run image = .ok () image' := by
  induction files generalizing image i386 rootPlaced placed with
  | nil => exact ⟨image, (Effect.pure_eq_ok _ _ _ _).mpr ⟨rfl, rfl⟩⟩
  | cons file files ih =>
    obtain ⟨between, first, others⟩ := foldlM_cons_eq_some.mp admitted
    obtain ⟨middle, one⟩ := staged.append_of_room first
    obtain ⟨i386', rootPlaced', placed', staged', same⟩ := staged.append_room one
    obtain rfl := Option.some.inj (first.symm.trans same)
    obtain ⟨image', rest⟩ := ih staged' others
    exact ⟨image', (runCalls_cons _ _ _ _ _).mpr ⟨middle, one, rest⟩⟩

/-- The names of the records are those of the room. -/
theorem Staged.names (staged : Staged image root i386 rootPlaced placed) :
    (parsed placed).map DirectoryRecord.name
      = ((roomOf image i386 (placed.map Prod.snd)).dots
        ++ (roomOf image i386 (placed.map Prod.snd)).files).map Prod.fst := by
  rw [roomOf, ← List.map_append, List.take_append_drop, parsed, List.map_map, List.map_map,
    List.map_map]
  exact List.map_congr_left fun entry member =>
    (recordName_eq (staged.scan.bounds member).2.2.2.1 entry.1).symm

end Run

/-! ### All orders -/

/-- The records of a directory, packed in the order they are written back, need all the sectors the
directory has. -/
def FillsSectors (image : Image) (directory : DirectoryRecord) (records : List DirectoryRecord) : Prop :=
  alignUp directory.dataLen sectorSize
    ≤ alignUp (packedEnd 0 (sortAfterDots (recordBytes image records))) sectorSize

theorem FillsSectors.tight {image : Image} {root i386 : DirectoryRecord}
    {rootPlaced placed : List (Nat × Bytes)} (staged : Staged image root i386 rootPlaced placed)
    (fills : FillsSectors image i386 (parsed placed)) :
    (roomOf image i386 (placed.map Prod.snd)).Tight := by
  rw [FillsSectors, staged.scan.recordBytes, packedEnd_eq_shapesEnd, map_sortAfterDots] at fills
  have small : ∀ one ∈ (placed.map Prod.snd).map shape, one.2 ≤ sectorSize := by
    simp only [List.forall_mem_map]
    exact fun entry member =>
      (staged.scan.bounds member).2.2.2.1.length_le.trans (by decide)
  obtain ⟨dot, dotdot, rest, rfl, _, _⟩ := StartsWithDots.placed staged.dots
  refine ⟨?_, fills.trans (le_of_eq (congrArg (alignUp · sectorSize) (congrArg shapesEnd ?_)))⟩
  · rw [roomOf, ← List.map_append, List.take_append_drop]
    exact small
  · rw [sortShapes]
    split
    · rfl
    · rename_i only
      cases rest with
      | nil => rfl
      | cons head tail => simp at only

/-- **The order of appends does not matter** when the records of `\I386` fill its sectors: every
other order succeeds too and leaves the same names and the same size, and the directory keeps its
sectors on the way. -/
theorem appendFiles_order {image image' : Image} {i386 : DirectoryRecord}
    {records : List DirectoryRecord} {files files' : List (Bytes × Bytes)} {value : Unit}
    (wellFormed : WellFormed image) (found : findI386Record image = .ok i386)
    (read : readDirectoryRecords image i386 = .ok records) (fills : FillsSectors image i386 records)
    (run : (appendFiles files).run image = .ok value image') (perm : files.Perm files') :
    ∃ image'', (appendFiles files').run image = .ok () image'' ∧
      (∃ one other records' records'', findI386Record image' = .ok one ∧
        findI386Record image'' = .ok other ∧ readDirectoryRecords image' one = .ok records' ∧
        readDirectoryRecords image'' other = .ok records'' ∧
        records'.map DirectoryRecord.name = records''.map DirectoryRecord.name ∧
        one.dataLen = other.dataLen) ∧
      ∀ done rest middle, files' = done ++ rest → (appendFiles done).run image = .ok () middle →
        ∃ grown, findI386Record middle = .ok grown ∧
          alignUp grown.dataLen sectorSize = alignUp i386.dataLen sectorSize := by
  obtain ⟨root, rootPlaced, placed, staged, _⟩ := wellFormed.staged found
  obtain rfl := Except.ok.inj (read.symm.trans staged.scan.read)
  have tight := fills.tight staged
  obtain ⟨one, rootPlaced', placed', staged', rooms⟩ := staged.appendFiles_room run
  have rooms' := Room.append_commutes.run_perm Room.tight_preserved perm tight rooms
  obtain ⟨image'', run'⟩ := staged.appendFiles_of_room rooms'
  obtain ⟨other, rootPlaced'', placed'', staged'', again⟩ := staged.appendFiles_room run'
  have same := Option.some.inj (rooms'.symm.trans again)
  refine ⟨image'', run', ⟨one, other, _, _, staged'.findI386, staged''.findI386, staged'.scan.read,
    staged''.scan.read, ?_, congrArg Room.dataLen same⟩, fun done rest middle _ part => ?_⟩
  · rw [staged'.names, staged''.names, same]
  · obtain ⟨grown, _, _, stagedMiddle, between⟩ := staged.appendFiles_room part
    have kept := tight.run_allocated between
    exact ⟨grown, stagedMiddle.findI386, kept⟩

/-! ### The sample volume, and one with a sector to spare -/

/-- The room of the sample volume. -/
theorem sampleIso_room {sectors i386Len : Nat} {i386 : List Bytes} {data : List (Nat × Bytes)}
    (fits : SampleFits sectors i386Len i386 data) (shaped : SampleShape sectors i386Len i386) :
    roomOf (sampleIso sectors i386Len i386 data) (sampleI386 i386Len)
        ((placements (19 * sectorSize) i386).map Prod.snd)
      = ⟨(i386.take 2).map shape, (i386.drop 2).map shape, i386Len, sectors⟩ := by
  rw [layout_map_snd, roomOf, shaped.extent.2, sampleIso_nextLba fits]

/-- Two files fit into the sample volume without files, in both orders. -/
theorem appendFiles_order_bareIso : ∃ image' image'',
    (appendFiles [([65], [1]), ([66], [2])]).run bareIso = .ok () image' ∧
      (appendFiles [([66], [2]), ([65], [1])]).run bareIso = .ok () image'' := by
  obtain ⟨root, rootPlaced, staged⟩ := bareIso_staged
  have admitted : [([65], [1]), ([66], [2])].foldlM Room.append
      (roomOf bareIso (sampleI386 68) ((placements (19 * sectorSize) bareRecords).map Prod.snd))
        = some ⟨[([0], 34), ([1], 34)], [([65], 34), ([66], 34)], 136, 22⟩ := by
    rw [bareIso, sampleIso_room bareIso_fits bareIso_shape]
    decide
  obtain ⟨image', run⟩ := staged.appendFiles_of_room admitted
  have fills : FillsSectors bareIso (sampleI386 68)
      (parsed (placements (19 * sectorSize) bareRecords)) := by
    rw [FillsSectors, staged.scan.recordBytes, layout_map_snd]
    decide
  obtain ⟨image'', run', _⟩ := appendFiles_order bareIso_wellFormed staged.findI386 staged.scan.read
    fills run (List.Perm.swap _ _ _)
  exact ⟨image', image'', run, run'⟩

/-- Ten records of together 2014 bytes in two sectors. -/
def slackRecords : List Bytes :=
  [directoryRecord [0] 19 4096, directoryRecord [1] 18 106]
    ++ (List.range 7).map (fun index => fileRecord (List.replicate 217 (UInt8.ofNat (67 + index))) 0 0)
    ++ [fileRecord (List.replicate 163 74) 0 0]

/-- The sample volume with a sector to spare in `\I386`. -/
def slackIso : Image := sampleIso 21 4096 slackRecords []

set_option maxRecDepth 20000 in
theorem slackIso_fits : SampleFits 21 4096 slackRecords [] := by
  constructor <;> decide

set_option maxRecDepth 20000 in
theorem slackIso_shape : SampleShape 21 4096 slackRecords := by
  constructor <;> decide

theorem slackIso_leaves : Leaves slackIso (sampleRecords slackRecords) := by
  have none : ∀ leaf ∈ (sampleRecords slackRecords).drop 2, ¬ leaf.IsDirectory := by decide
  exact fun leaf member isDirectory => absurd isDirectory (none leaf member)

set_option maxRecDepth 20000 in
/-- **With a sector to spare the order matters**: after `A` the directory has one sector left, which
`BBB` does not fit into; after `BBB` it has two, which `A` fits into. -/
theorem slack_order_matters : ¬ ∀ (image image' : Image) (i386 : DirectoryRecord)
    (records : List DirectoryRecord) (files files' : List (Bytes × Bytes)), WellFormed image →
    findI386Record image = .ok i386 → readDirectoryRecords image i386 = .ok records →
    (files.Pairwise fun first second => isoSortKey first.1 ≠ isoSortKey second.1) →
    (∀ file ∈ files, ∀ record ∈ records, isoSortKey record.name ≠ isoSortKey file.1) →
    (appendFiles files).run image = .ok () image' → files.Perm files' →
    ∃ image'', (appendFiles files').run image = .ok () image'' := by
  intro claimed
  obtain ⟨root, rootPlaced, staged⟩ := sampleIso_staged slackIso_fits slackIso_shape slackIso_leaves
  have admitted : [([66, 66, 66], [1]), ([65], [1])].foldlM Room.append
      (roomOf (sampleIso 21 4096 slackRecords []) (sampleI386 4096)
        ((placements (19 * sectorSize) slackRecords).map Prod.snd)) ≠ none := by
    rw [sampleIso_room slackIso_fits slackIso_shape]
    decide
  have refused : [([65], [1]), ([66, 66, 66], [1])].foldlM Room.append
      (roomOf (sampleIso 21 4096 slackRecords []) (sampleI386 4096)
        ((placements (19 * sectorSize) slackRecords).map Prod.snd)) = none := by
    rw [sampleIso_room slackIso_fits slackIso_shape]
    decide
  obtain ⟨room, admitted⟩ := Option.ne_none_iff_exists'.mp admitted
  obtain ⟨image', run⟩ := staged.appendFiles_of_room admitted
  obtain ⟨image'', run'⟩ := claimed _ image' _ _ _ [([65], [1]), ([66, 66, 66], [1])]
    (sampleIso_wellFormed slackIso_fits slackIso_shape slackIso_leaves) staged.findI386
    staged.scan.read (by decide) (by decide) run (List.Perm.swap _ _ _)
  obtain ⟨_, _, _, _, rooms⟩ := staged.appendFiles_room run'
  rw [refused] at rooms
  cases rooms

end Bootsmith.Iso
