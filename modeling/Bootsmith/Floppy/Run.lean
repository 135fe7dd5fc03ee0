/-
**Runs of calls on a consistent FAT12 image.**

Replacing a file is removing it and adding it, so every call is a step, and a run of calls is one
(`runOps_step`).

* `runOps_files`: a run of successful calls is a run of the map of files;
* `runOps_accounting`: no cluster is leaked or used twice, and the copies of the table stay equal.

Both need the first 512 bytes in front of the tables: in `tinyImage`, with sectors of 64 bytes, a file
that is added overwrites the signature of the boot sector (`tiny_file_lost`, `tiny_boot_overwritten`).
-/

import Bootsmith.Floppy.Step

namespace Bootsmith.Floppy

open Bootsmith.Library

/-! ### Calls -/

inductive Op
  | add (name : DosName) (contents : Bytes)
  | remove (name : DosName)
  | replace (name : DosName) (contents : Bytes)
  deriving DecidableEq

namespace Op

def name : Op → DosName
  | add name _ => name
  | remove name => name
  | replace name _ => name

/-- The call on the image. -/
def run : Op → Effect Image Unit
  | add name contents => addFile name contents
  | remove name => do
    let _ ← removeFile name
  | replace name contents => replaceFile name contents

end Op

/-- The calls one after the other, up to the first failure. -/
def runOps : List Op → Effect Image Unit
  | [] => pure ()
  | op :: ops => do
    op.run
    runOps ops

theorem runOps_cons (op : Op) (ops : List Op) (image image' : Image) (value : Unit) :
    (runOps (op :: ops)).run image = .ok value image' ↔
      ∃ middle, op.run.run image = .ok () middle ∧ (runOps ops).run middle = .ok value image' := by
  rw [runOps, Effect.bind_eq_ok]
  exact ⟨fun ⟨_, middle, one, rest⟩ => ⟨middle, one, rest⟩,
    fun ⟨middle, one, rest⟩ => ⟨(), middle, one, rest⟩⟩

/-- What a call does to the map. -/
def Op.act : Op → Files → Files
  | add name contents, files => Function.update files name (some contents)
  | remove name, files => Function.update files name none
  | replace name contents, files => Function.update files name (some contents)

def actAll : List Op → Files → Files
  | [], files => files
  | op :: ops, files => actAll ops (op.act files)

/-- The clusters that the call takes. -/
def Op.added (layout : Fat12Layout) : Op → Nat
  | add _ contents => layout.clustersFor contents.length
  | remove _ => 0
  | replace _ contents => layout.clustersFor contents.length

/-- The clusters that the call gives back: those of the file under the name. -/
def Op.freed (layout : Fat12Layout) (image : Image) : Op → Nat
  | add _ _ => 0
  | remove name => fileClusters layout image name
  | replace name _ => fileClusters layout image name

/-- The clusters that the calls take. -/
def addedClusters (layout : Fat12Layout) : List Op → Nat
  | [] => 0
  | op :: ops => op.added layout + addedClusters layout ops

/-- The clusters that the calls give back, each on the image the calls before it leave. -/
def freedClusters (layout : Fat12Layout) : List Op → Image → Nat
  | [], _ => 0
  | op :: ops, image =>
    op.freed layout image + match op.run.run image with
      | .ok _ middle => freedClusters layout ops middle
      | .error _ _ => 0

/-! ### Empty images -/

/-- An empty image with clusters of one sector. -/
def emptyImage (sector fatCount rootEntries totalSectors sectorsPerFat : Nat) : Image :=
  (Image.zeros (totalSectors * sector)).scatter
    [(11, leBytes 2 sector ++ [1] ++ leBytes 2 1 ++ [UInt8.ofNat fatCount] ++ leBytes 2 rootEntries
        ++ leBytes 2 totalSectors ++ [0xf0] ++ leBytes 2 sectorsPerFat),
      (510, [0x55, 0xaa])]

section Empty

variable {layout : Fat12Layout} {image : Image}
  (empty : ∀ slot < layout.rootEntries, slotMark (image.slice (layout.slotOffset slot) 32) = 0x00)

include empty

theorem not_used_of_empty {slot : Nat} (inside : slot < layout.rootEntries) :
    ¬ Used ((volumeOf layout image).slots slot) := by
  rw [volumeOf_slot inside]
  exact fun used => used.1 (empty slot inside)

/-- An image without entries and with equal copies of the table is consistent. -/
theorem consistent_of_empty (parsed : parseLayout image = .ok layout) (fit : layout.EntriesFit)
    (copies : ∀ copy < layout.fatCount, ∀ count < 2 * layout.fatLen,
      image.nibble (layout.fatOffset copy) count = image.nibble (layout.fatOffset 0) count) :
    Consistent layout image := by
  have unused : ∀ slot, slot < layout.rootEntries → ¬ Used ((volumeOf layout image).slots slot) :=
    fun _ inside => not_used_of_empty empty inside
  have geometry := parseLayout_geometry parsed
  refine ⟨parsed, fit, fun _ => [], fun copy inside => funext fun count => ?_,
    fun first second order inside _ => ?_, fun slot inside entry => absurd entry.1 (unused slot inside),
    fun first inFirst second _ _ entry => absurd entry.1 (unused first inFirst),
    fun slot inside used => absurd used (unused slot inside)⟩
  · by_cases short : count < 2 * layout.fatLen
    · rw [volumeOf_fat inside short, volumeOf_fat geometry.copies short, copies copy inside count short]
    · exact (if_neg fun both => short both.2).trans (if_neg fun both => short both.2).symm
  · rw [volumeOf_slot inside]
    exact empty second inside

theorem unique_of_empty : (volumeOf layout image).UniqueNames layout :=
  fun _ inside _ _ entry => absurd entry.1 (not_used_of_empty empty inside)

end Empty

/-! ### Two sample images -/

/-- Two sectors of 64 bytes, with the table and the root directory behind them in the first 512 bytes. -/
def tinyImage : Image := emptyImage 64 1 2 8 1

def tinyLayout : Fat12Layout := ⟨64, 1, 1, 2, 1, 128, 192, 64, 5⟩

def sampleName : DosName := ⟨ascii "A          ", by decide⟩

theorem sampleName_encoded : Encoded sampleName := ⟨"a".toList, by decide⟩

theorem tiny_empty : ∀ slot < tinyLayout.rootEntries,
    slotMark (tinyImage.slice (tinyLayout.slotOffset slot) 32) = 0x00 := by
  decide

theorem tiny_consistent : Consistent tinyLayout tinyImage :=
  consistent_of_empty tiny_empty (by decide) (by decide) (by decide)

/-- A file that fills the data area of the tiny image. -/
def tinyContents : Bytes := List.replicate 320 0

/-- A sample image with two copies of the table. -/
def sampleImage : Image := emptyImage 512 2 16 12 1

def sampleLayout : Fat12Layout := ⟨512, 1, 2, 16, 1, 1536, 2048, 512, 8⟩

def sampleOps : List Op :=
  [.add sampleName (List.replicate 600 1), .replace sampleName [7, 8], .remove winntSifDosName]

theorem sample_empty : ∀ slot < sampleLayout.rootEntries,
    slotMark (sampleImage.slice (sampleLayout.slotOffset slot) 32) = 0x00 := by
  decide

set_option maxRecDepth 20000 in
theorem sample_consistent : Consistent sampleLayout sampleImage :=
  consistent_of_empty sample_empty (by decide) (by decide) (by decide)

theorem winntSif_encoded : Encoded winntSifDosName := ⟨"winnt.sif".toList, by decide⟩

theorem sampleOps_encoded : ∀ op ∈ sampleOps, Encoded op.name := by
  intro op member
  simp only [sampleOps, List.mem_cons, List.not_mem_nil, or_false] at member
  rcases member with rfl | rfl | rfl
  · exact sampleName_encoded
  · exact sampleName_encoded
  · exact winntSif_encoded

theorem sampleOps_run : ∃ image', (runOps sampleOps).run sampleImage = .ok () image' := by
  have passed : (runOps sampleOps).passes (fun _ _ => true) sampleImage = true := by
    decide +kernel
  obtain ⟨_, image', run, _⟩ := Effect.exists_of_passes passed
  exact ⟨image', run⟩

/-! ### A run is a step -/

section Runs

variable {layout : Fat12Layout} {image image' : Image} {ops : List Op}

/-- **A call is a step.** -/
theorem Op.step (op : Op) (consistent : Consistent layout image) (boot : BootReserved layout)
    (encoded : Encoded op.name) {value : Unit} (run : op.run.run image = .ok value image') :
    Step layout image image' op.act (op.added layout) (op.freed layout image) := by
  cases op with
  | add name contents => exact addFile_step consistent boot encoded run
  | remove name =>
    obtain ⟨_, _, removed, done⟩ := (Effect.bind_eq_ok _ _ _ _ _).mp run
    obtain ⟨_, rfl⟩ := (Effect.pure_eq_ok _ _ _ _).mp done
    exact removeFile_step consistent boot encoded removed
  | replace name contents =>
    obtain ⟨_, middle, removed, added⟩ := (Effect.bind_eq_ok _ _ _ _ _).mp run
    have named : Encoded name := encoded
    have one := removeFile_step consistent boot named removed
    have two := one.trans (addFile_step one.consistent boot named added)
    have act : (fun files => Function.update files name (some contents)) ∘
        (fun files : Files => Function.update files name none)
        = (Op.replace name contents).act := by
      funext files
      exact Function.update_idem _ _ _
    rwa [act, Nat.zero_add, Nat.add_zero] at two

/-- **A run of calls is a step.** -/
theorem runOps_step (consistent : Consistent layout image) (boot : BootReserved layout)
    (encoded : ∀ op ∈ ops, Encoded op.name) {value : Unit}
    (run : (runOps ops).run image = .ok value image') :
    Step layout image image' (actAll ops) (addedClusters layout ops) (freedClusters layout ops image) := by
  induction ops generalizing image with
  | nil =>
    obtain ⟨_, rfl⟩ := (Effect.pure_eq_ok _ _ _ _).mp run
    exact Step.refl consistent
  | cons op rest ih =>
    obtain ⟨middle, first, run⟩ := (runOps_cons _ _ _ _ _).mp run
    have one := op.step consistent boot (encoded op List.mem_cons_self) first
    have two := one.trans (ih one.consistent (fun other member =>
      encoded other (List.mem_cons_of_mem _ member)) run)
    rw [freedClusters, first]
    exact two

/-- A consistent image reads as some map of files. -/
theorem Consistent.reads (consistent : Consistent layout image) : ∃ files, Reads layout image files := by
  obtain ⟨chains, sound⟩ := consistent.sound
  exact ⟨(volumeOf layout image).fileOf layout chains, fun name plain =>
    readFile_eq_fileOf consistent sound plain⟩

/-- **A run of successful calls is a run of the map of files**: on a consistent image without duplicate
names, reading gives what was written last under a name, nothing after a removal, and what was there
before under every other name. -/
theorem runOps_files (consistent : Consistent layout image)
    (unique : (volumeOf layout image).UniqueNames layout) (boot : BootReserved layout)
    (encoded : ∀ op ∈ ops, Encoded op.name) (run : (runOps ops).run image = .ok () image') :
    ∃ files : Files, ∀ name, Encoded name ∨ (volumeOf layout image).Plain layout name →
      readFile image name = .ok (files name) ∧ readFile image' name = .ok (actAll ops files name) := by
  obtain ⟨files, reads⟩ := consistent.reads
  obtain ⟨chains, sound⟩ := consistent.sound
  have step := runOps_step consistent boot encoded run
  refine ⟨files, fun name known => ?_⟩
  have plain : (volumeOf layout image).Plain layout name := known.elim sound.plain id
  exact ⟨reads name plain, step.reads unique files reads name ((step.plain name).mpr plain)⟩

end Runs

theorem runOps_files_sample : ∃ image', (runOps sampleOps).run sampleImage = .ok () image' ∧
    ∃ files : Files, ∀ name, Encoded name ∨ (volumeOf sampleLayout sampleImage).Plain sampleLayout name →
      readFile sampleImage name = .ok (files name) ∧
        readFile image' name = .ok (actAll sampleOps files name) := by
  obtain ⟨image', run⟩ := sampleOps_run
  exact ⟨image', run, runOps_files sample_consistent (unique_of_empty sample_empty) (by decide)
    sampleOps_encoded run⟩

set_option maxRecDepth 20000 in
/-- **A file is lost** where the data area begins in the first 512 bytes. -/
theorem tiny_file_lost : Consistent tinyLayout tinyImage ∧
    (volumeOf tinyLayout tinyImage).UniqueNames tinyLayout ∧ Encoded sampleName ∧
    ∃ image', (runOps [.add sampleName tinyContents]).run tinyImage = .ok () image' ∧
      readFile image' sampleName ≠ .ok (some tinyContents) := by
  have passed : (runOps [.add sampleName tinyContents]).passes (fun _ image' =>
      decide (readFile image' sampleName ≠ .ok (some tinyContents))) tinyImage = true := by
    decide
  obtain ⟨_, image', run, lost⟩ := Effect.exists_of_passes passed
  exact ⟨tiny_consistent, unique_of_empty tiny_empty, sampleName_encoded, image', run,
    of_decide_eq_true lost⟩

/-! ### Accounting -/

section Accounting

variable {layout : Fat12Layout} {image image' : Image} {ops : List Op}

/-- Copies with the same nibbles have the same bytes. -/
theorem slice_of_fats {copy copy' count : Nat}
    (inside : copy < layout.fatCount) (inside' : copy' < layout.fatCount) (short : count ≤ layout.fatLen)
    (same : ∀ place < 2 * count,
      (volumeOf layout image').fats copy place = (volumeOf layout image).fats copy' place) :
    image'.slice (layout.fatOffset copy) count = image.slice (layout.fatOffset copy') count := by
  have nibbles : ∀ place < 2 * count, image'.nibble (layout.fatOffset copy) place
      = image.nibble (layout.fatOffset copy') place := by
    intro place early
    rw [← volumeOf_fat inside (by omega), ← volumeOf_fat inside' (by omega)]
    exact same place early
  refine List.ext_getElem (by simp) fun index early _ => ?_
  rw [Image.slice_length] at early
  rw [Image.getElem_slice, Image.getElem_slice]
  exact Image.get_of_nibbles (nibbles _ (by omega)) (nibbles _ (by omega))

/-- The name of an added file is found, whatever the other names are. -/
theorem Volume.find_added {volume : Volume} {chains : Nat → List Nat} {name : DosName} {contents : Bytes}
    {slot first size : Nat} {chain : List Nat} (geometry : layout.Geometry size)
    (sound : volume.Sound layout chains) (encoded : Encoded name)
    (adds : volume.Adds layout name contents slot chain first) :
    (volume.added layout name contents slot chain first).find layout name = some slot := by
  obtain ⟨mark, named, _⟩ := Adds.fields geometry adds
  refine find_of_unique (sound.add geometry encoded adds).clear (freeSlot_eq_some adds.freeSlot).1 ?_ ?_
    fun other inside used same => ?_
  · rw [added_slots, Function.update_self, Used, mark]
    exact encoded.used
  · rw [added_slots, Function.update_self, named]
  · by_contra different
    rw [added_slots, Function.update_of_ne different] at used same
    exact find_eq_none sound.clear adds.absent inside used same

/-- **Freeing what was linked** restores the nibbles of each copy. -/
theorem restore_fats {volume : Volume} {chains : Nat → List Nat} {chain : List Nat}
    (sound : volume.Sound layout chains) (small : ∀ copy count, volume.fats copy count < 16)
    (distinct : chain.Nodup) (free : ∀ cluster ∈ chain, volume.table 0 cluster = 0) {copy : Nat}
    (inside : copy < layout.fatCount) :
    setTwelves (allTo 0 chain) (setTwelves (linksOf fat12Eoc chain) (volume.fats copy))
      = volume.fats copy := by
  have old : (linksOf fat12Eoc chain).map (fun entry => (entry.1, twelve (volume.fats copy) entry.1))
      = allTo 0 chain := by
    have fst := linksOf_map_fst fat12Eoc chain
    have values : ∀ entry ∈ linksOf fat12Eoc chain,
        (entry.1, twelve (volume.fats copy) entry.1) = (entry.1, 0) := by
      intro entry member
      have inChain : entry.1 ∈ chain := fst ▸ List.mem_map_of_mem member
      rw [sound.copies copy inside]
      exact congrArg (Prod.mk entry.1) (free entry.1 inChain)
    rw [List.map_congr_left values]
    conv_rhs => rw [← fst]
    rw [allTo, List.map_map]
    rfl
  rw [← old]
  exact setTwelves_restore (by rwa [linksOf_map_fst]) (small copy)

/-- **Adding a file and removing it** restores every copy of the table. -/
theorem add_remove_fats (consistent : Consistent layout image) (boot : BootReserved layout)
    {name : DosName} {contents : Bytes} (encoded : Encoded name) {middle : Image} {value : Unit}
    (run : (addFile name contents).run image = .ok value middle) :
    ∃ after, (removeFile name).run middle = .ok true after ∧ ∀ copy < layout.fatCount,
      after.slice (layout.fatOffset copy) layout.fatLen
        = image.slice (layout.fatOffset copy) layout.fatLen := by
  have geometry := consistent.geometry
  obtain ⟨chains, sound⟩ := consistent.sound
  obtain ⟨slot, chain, first, adds, volume⟩ := addFile_volume consistent.parsed consistent.fit run
  have step := addFile_step consistent boot encoded run
  have found := Volume.find_added geometry sound encoded adds
  have owns : Owns layout ((volumeOf layout middle).table 0) ((volumeOf layout middle).slots slot) chain := by
    rw [volume, Volume.added_slots, Function.update_self]
    exact Volume.Adds.owns geometry adds
  rw [← volume] at found
  obtain ⟨after, removed, volume'⟩ :=
    removeFile_present step.consistent.parsed step.consistent.fit found owns
  obtain ⟨distinct, free⟩ := Volume.Adds.free adds
  refine ⟨after, removed, fun copy inside => slice_of_fats inside inside le_rfl fun place _ => ?_⟩
  have restored := restore_fats sound volumeOf_fats_lt distinct (fun cluster member => (free cluster member).2)
    inside
  have fats : (volumeOf layout after).fats copy = (volumeOf layout image).fats copy := by
    rw [volume']
    show (if copy < layout.fatCount then setTwelves (allTo 0 chain) ((volumeOf layout middle).fats copy)
      else _) = _
    rw [if_pos inside, volume, Volume.added_fats]
    show setTwelves (allTo 0 chain) (if copy < layout.fatCount then _ else _) = _
    rw [if_pos inside, restored]
  rw [fats]

/-- **No cluster is leaked or used twice** by a run of successful calls on a consistent image: it stays
consistent, the copies of the table stay equal, their first two entries and all that is in front of them
stay, and the free clusters are those at the start without the ones of files added and with the ones of
files removed. Adding a file and removing it afterwards restores the tables. -/
theorem runOps_accounting (consistent : Consistent layout image) (boot : BootReserved layout)
    (encoded : ∀ op ∈ ops, Encoded op.name) (run : (runOps ops).run image = .ok () image') :
    Consistent layout image' ∧
      (∀ copy < layout.fatCount, image'.slice (layout.fatOffset copy) layout.fatLen
        = image'.slice (layout.fatOffset 0) layout.fatLen) ∧
      (∀ copy < layout.fatCount, image'.slice (layout.fatOffset copy) 3
        = image.slice (layout.fatOffset copy) 3) ∧
      image'.slice 0 (layout.fatOffset 0) = image.slice 0 (layout.fatOffset 0) ∧
      (countFreeClusters image' layout : Int) = countFreeClusters image layout
        - addedClusters layout ops + freedClusters layout ops image ∧
      ∀ name contents middle, Encoded name → (addFile name contents).run image' = .ok () middle →
        ∃ after, (removeFile name).run middle = .ok true after ∧ ∀ copy < layout.fatCount,
          after.slice (layout.fatOffset copy) layout.fatLen
            = image'.slice (layout.fatOffset copy) layout.fatLen := by
  have step := runOps_step consistent boot encoded run
  have geometry' := step.consistent.geometry
  obtain ⟨chains, sound⟩ := step.consistent.sound
  have fit := consistent.fit
  unfold Fat12Layout.EntriesFit at fit
  refine ⟨step.consistent, fun copy inside => ?_, fun copy inside => ?_, step.reserved, ?_,
    fun name contents middle encoded added => add_remove_fats step.consistent boot encoded added⟩
  · exact slice_of_fats inside geometry'.copies le_rfl fun place _ =>
      congrFun (sound.copies copy inside) place
  · exact slice_of_fats inside inside (by omega) fun place early =>
      step.head copy place early
  · have free := step.free
    omega

end Accounting

theorem runOps_accounting_sample : ∃ image', (runOps sampleOps).run sampleImage = .ok () image' ∧
    (countFreeClusters image' sampleLayout : Int) = countFreeClusters sampleImage sampleLayout
      - addedClusters sampleLayout sampleOps + freedClusters sampleLayout sampleOps sampleImage := by
  obtain ⟨image', run⟩ := sampleOps_run
  obtain ⟨_, _, _, _, free, _⟩ :=
    runOps_accounting sample_consistent (by decide) sampleOps_encoded run
  exact ⟨image', run, free⟩

set_option maxRecDepth 20000 in
/-- **The boot sector is overwritten** where the data area begins in the first 512 bytes: the image is
not consistent any more. -/
theorem tiny_boot_overwritten : Consistent tinyLayout tinyImage ∧ Encoded sampleName ∧
    ∃ image', (runOps [.add sampleName tinyContents]).run tinyImage = .ok () image' ∧
      image'.slice 510 2 ≠ tinyImage.slice 510 2 ∧ ∀ layout, ¬ Consistent layout image' := by
  have passed : (runOps [.add sampleName tinyContents]).passes (fun _ image' =>
      decide (image'.slice 510 2 ≠ tinyImage.slice 510 2 ∧ (parseLayout image').toOption = none))
      tinyImage = true := by
    decide
  obtain ⟨_, image', run, checked⟩ := Effect.exists_of_passes passed
  obtain ⟨changed, refused⟩ := of_decide_eq_true checked
  refine ⟨tiny_consistent, sampleName_encoded, image', run, changed, fun layout consistent => ?_⟩
  rw [consistent.parsed] at refused
  cases refused

end Bootsmith.Floppy
