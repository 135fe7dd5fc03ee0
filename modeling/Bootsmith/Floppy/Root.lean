/-
**The root directory of a FAT12 image** (`ntxp_floppy.rs`).

A slot is 32 bytes; its first byte tells whether it ends the directory, is deleted or is used. The search
for a name stops at the end mark (`find_eq_some`, `find_eq_none`), the search for a free slot takes the
first one that is not used, and an entry is written piece by piece into one slot
(`writeRootEntry_volume`).
-/

import Bootsmith.Floppy.Name
import Bootsmith.Floppy.Volume

namespace Bootsmith.Floppy

open Bootsmith.Library

/-! ### Slots -/

/-- The byte that marks a slot. -/
def slotMark (slot : Bytes) : UInt8 := slot.headD 0

def slotName (slot : Bytes) : Bytes := slot.take 11

def slotAttr (slot : Bytes) : UInt8 := slot.getD 11 0

def slotCluster (slot : Bytes) : Nat := leNat (subrange slot 26 28)

def slotSize (slot : Bytes) : Nat := leNat (subrange slot 28 32)

/-- The slot is used: it neither ends the directory nor is deleted. -/
def Used (slot : Bytes) : Prop := slotMark slot ≠ 0x00 ∧ slotMark slot ≠ 0xe5

instance (slot : Bytes) : Decidable (Used slot) := inferInstanceAs (Decidable (_ ∧ _))

/-- The slot holds a part of a long name. -/
def LongName (slot : Bytes) : Prop := slotAttr slot = 0x0f

instance (slot : Bytes) : Decidable (LongName slot) := inferInstanceAs (Decidable (_ = _))

/-! ### The functions -/

def attrArchive : UInt8 := 0x20

def fatTime (hour minute second : Nat) : Nat := hour <<< 11 ||| minute <<< 5 ||| second / 2

def fatDate (year month day : Nat) : Nat := (year - 1980) <<< 9 ||| month <<< 5 ||| day

/-- The search for a name in the listed slots. -/
def findRootEntryIn (image : Image) (layout : Fat12Layout) (name : DosName) :
    List Nat → Fallible (Option Nat)
  | [] => pure none
  | slot :: rest => do
    let offset := layout.slotOffset slot
    let first ← byteAt image offset
    if first = 0x00 then pure none
    else if first = 0xe5 then findRootEntryIn image layout name rest
    else do
      let raw ← rangeAt image offset 11
      if raw = name.bytes then pure (some slot) else findRootEntryIn image layout name rest

def findRootEntry (image : Image) (layout : Fat12Layout) (name : DosName) : Fallible (Option Nat) :=
  findRootEntryIn image layout name (List.range layout.rootEntries)

/-- The search for a free slot among the listed ones. -/
def findFreeRootSlotIn (image : Image) (layout : Fat12Layout) : List Nat → Fallible (Option Nat)
  | [] => pure none
  | slot :: rest => do
    let first ← byteAt image (layout.slotOffset slot)
    if first = 0x00 ∨ first = 0xe5 then pure (some slot) else findFreeRootSlotIn image layout rest

def findFreeRootSlot (image : Image) (layout : Fat12Layout) : Fallible (Option Nat) :=
  findFreeRootSlotIn image layout (List.range layout.rootEntries)

def writeRootEntry (layout : Fat12Layout) (slot : Nat) (dosName : DosName)
    (firstCluster fileSize : Nat) : Effect Image Unit := do
  let offset := layout.slotOffset slot
  fillRange offset 32 0
  copyInto offset dosName.bytes
  setByte (offset + 11) attrArchive
  copyInto (offset + 22) (leBytes 2 (fatTime 20 0 0))
  copyInto (offset + 24) (leBytes 2 (fatDate 2026 5 21))
  copyInto (offset + 26) (leBytes 2 firstCluster)
  let size ← Effect.lift (Fallible.context "file is too large for FAT12 directory entry"
    (tryFrom (2 ^ 32) fileSize))
  copyInto (offset + 28) (leBytes 4 size)

/-! ### The directory of a volume -/

namespace Volume

/-- The search for a name in the listed slots of a volume. -/
def findIn (volume : Volume) (name : DosName) : List Nat → Option Nat
  | [] => none
  | slot :: rest =>
    if slotMark (volume.slots slot) = 0x00 then none
    else if slotMark (volume.slots slot) = 0xe5 then findIn volume name rest
    else if slotName (volume.slots slot) = name.bytes then some slot else findIn volume name rest

/-- The slot a name is found in. -/
def find (layout : Fat12Layout) (volume : Volume) (name : DosName) : Option Nat :=
  volume.findIn name (List.range layout.rootEntries)

/-- The first slot that is not used. -/
def freeSlot (layout : Fat12Layout) (volume : Volume) : Option Nat :=
  (List.range layout.rootEntries).find? fun slot =>
    slotMark (volume.slots slot) = 0x00 ∨ slotMark (volume.slots slot) = 0xe5

/-- Behind the first end mark there are only end marks. -/
def TailClear (layout : Fat12Layout) (volume : Volume) : Prop :=
  ∀ first second, first < second → second < layout.rootEntries →
    slotMark (volume.slots first) = 0x00 → slotMark (volume.slots second) = 0x00

variable {layout : Fat12Layout} {volume : Volume} {name : DosName} {slot : Nat}

theorem findIn_eq_some {slots : List Nat} (found : volume.findIn name slots = some slot) :
    slot ∈ slots ∧ Used (volume.slots slot) ∧ slotName (volume.slots slot) = name.bytes := by
  induction slots with
  | nil => cases found
  | cons other rest ih =>
    rw [findIn] at found
    split at found
    · cases found
    rename_i notEnd
    split at found
    · obtain ⟨member, facts⟩ := ih found
      exact ⟨List.mem_cons_of_mem _ member, facts⟩
    rename_i notDeleted
    split at found
    · rename_i named
      obtain rfl := Option.some.inj found
      exact ⟨List.mem_cons_self, ⟨notEnd, notDeleted⟩, named⟩
    · obtain ⟨member, facts⟩ := ih found
      exact ⟨List.mem_cons_of_mem _ member, facts⟩

/-- **A slot that is found** is used and has the name. -/
theorem find_eq_some (found : volume.find layout name = some slot) :
    slot < layout.rootEntries ∧ Used (volume.slots slot) ∧
      slotName (volume.slots slot) = name.bytes := by
  obtain ⟨member, facts⟩ := findIn_eq_some found
  exact ⟨List.mem_range.mp member, facts⟩

theorem findIn_eq_none {slots : List Nat} (sorted : slots.Pairwise (· < ·))
    (clear : ∀ first ∈ slots, ∀ second ∈ slots, first < second →
      slotMark (volume.slots first) = 0x00 → slotMark (volume.slots second) = 0x00)
    (missing : volume.findIn name slots = none) (member : slot ∈ slots)
    (used : Used (volume.slots slot)) : slotName (volume.slots slot) ≠ name.bytes := by
  induction slots with
  | nil => cases member
  | cons other rest ih =>
    obtain ⟨before, sorted⟩ := List.pairwise_cons.mp sorted
    have restClear : ∀ first ∈ rest, ∀ second ∈ rest, first < second →
        slotMark (volume.slots first) = 0x00 → slotMark (volume.slots second) = 0x00 :=
      fun first inFirst second inSecond =>
        clear first (List.mem_cons_of_mem _ inFirst) second (List.mem_cons_of_mem _ inSecond)
    rw [findIn] at missing
    rcases List.mem_cons.mp member with rfl | inRest
    · rw [if_neg used.1, if_neg used.2] at missing
      intro named
      rw [if_pos named] at missing
      cases missing
    · split at missing
      · rename_i ended
        exact absurd (clear other List.mem_cons_self slot member (before slot inRest) ended) used.1
      · split at missing
        · exact ih sorted restClear missing inRest
        · split at missing
          · cases missing
          · exact ih sorted restClear missing inRest

/-- **A name that is not found** is the name of no used slot. -/
theorem find_eq_none (clear : volume.TailClear layout) (missing : volume.find layout name = none)
    (inside : slot < layout.rootEntries) (used : Used (volume.slots slot)) :
    slotName (volume.slots slot) ≠ name.bytes :=
  findIn_eq_none List.pairwise_lt_range
    (fun first _ second inSecond order => clear first second order (List.mem_range.mp inSecond)) missing
    (List.mem_range.mpr inside) used

/-- A used slot is found under its name when no other used slot has it. -/
theorem find_of_unique (clear : volume.TailClear layout) (inside : slot < layout.rootEntries)
    (used : Used (volume.slots slot)) (named : slotName (volume.slots slot) = name.bytes)
    (unique : ∀ other < layout.rootEntries, Used (volume.slots other) →
      slotName (volume.slots other) = name.bytes → other = slot) :
    volume.find layout name = some slot := by
  cases found : volume.find layout name with
  | none => exact absurd named (find_eq_none clear found inside used)
  | some other =>
    obtain ⟨otherInside, otherUsed, otherNamed⟩ := find_eq_some found
    rw [unique other otherInside otherUsed otherNamed]

/-- **The free slot** is not used, and every slot before it is. -/
theorem freeSlot_eq_some (found : volume.freeSlot layout = some slot) :
    slot < layout.rootEntries ∧ ¬ Used (volume.slots slot) ∧
      ∀ other < slot, Used (volume.slots other) := by
  obtain ⟨free, index, inside, here, before⟩ := List.find?_eq_some_iff_getElem.mp found
  rw [List.getElem_range] at here
  subst here
  rw [List.length_range] at inside
  refine ⟨inside, ?_, fun other earlier => ?_⟩
  · rintro ⟨notEnd, notDeleted⟩
    rcases of_decide_eq_true free with ended | deleted
    · exact notEnd ended
    · exact notDeleted deleted
  · have used := before other earlier
    rw [List.getElem_range, Bool.not_eq_true', decide_eq_false_iff_not, not_or] at used
    exact used

end Volume

/-! ### Reading the directory -/

section Read

variable {layout : Fat12Layout} {image : Image} (geometry : layout.Geometry image.size)

include geometry

theorem slotMark_eq {slot : Nat} (inside : slot < layout.rootEntries) :
    byteAt image (layout.slotOffset slot) = .ok (slotMark ((volumeOf layout image).slots slot)) := by
  have bounds := geometry.slot_end inside
  have dataEnd := geometry.dataOffset_le
  rw [byteAt_of_lt (by omega), volumeOf_slot inside]
  rfl

theorem slotName_eq {slot : Nat} (inside : slot < layout.rootEntries) :
    rangeAt image (layout.slotOffset slot) 11
      = .ok (slotName ((volumeOf layout image).slots slot)) := by
  have bounds := geometry.slot_end inside
  have dataEnd := geometry.dataOffset_le
  rw [rangeAt_of_le (by omega), volumeOf_slot inside, slotName, Image.slice_take _ _ _ _ (by decide)]

theorem slotCluster_eq {slot : Nat} (inside : slot < layout.rootEntries) :
    u16At image (layout.slotOffset slot + 26)
      = .ok (slotCluster ((volumeOf layout image).slots slot)) := by
  have bounds := geometry.slot_end inside
  have dataEnd := geometry.dataOffset_le
  rw [u16At, if_pos (by omega), volumeOf_slot inside, slotCluster,
    Image.subrange_slice _ _ (by decide)]

theorem slotSize_eq {slot : Nat} (inside : slot < layout.rootEntries) :
    u32At image (layout.slotOffset slot + 28)
      = .ok (slotSize ((volumeOf layout image).slots slot)) := by
  have bounds := geometry.slot_end inside
  have dataEnd := geometry.dataOffset_le
  rw [u32At, if_pos (by omega), volumeOf_slot inside, slotSize, Image.subrange_slice _ _ (by decide)]

theorem findRootEntryIn_eq (name : DosName) {slots : List Nat}
    (inside : ∀ slot ∈ slots, slot < layout.rootEntries) :
    findRootEntryIn image layout name slots = .ok ((volumeOf layout image).findIn name slots) := by
  induction slots with
  | nil => rfl
  | cons slot rest ih =>
    have restInside : ∀ other ∈ rest, other < layout.rootEntries := fun other member =>
      inside other (List.mem_cons_of_mem _ member)
    have here := inside slot List.mem_cons_self
    rw [findRootEntryIn, slotMark_eq geometry here, Volume.findIn]
    show (if _ then _ else _) = _
    split
    · rfl
    · split
      · exact ih restInside
      · rw [slotName_eq geometry here]
        show (if _ then _ else _) = _
        split
        · rfl
        · exact ih restInside

/-- **The search for a name** is that of the volume. -/
theorem findRootEntry_eq (name : DosName) :
    findRootEntry image layout name = .ok ((volumeOf layout image).find layout name) :=
  findRootEntryIn_eq geometry name fun _ member => List.mem_range.mp member

/-- **The search for a free slot** is that of the volume. -/
theorem findFreeRootSlot_eq :
    findFreeRootSlot image layout = .ok ((volumeOf layout image).freeSlot layout) := by
  have search : ∀ slots : List Nat, (∀ slot ∈ slots, slot < layout.rootEntries) →
      findFreeRootSlotIn image layout slots = .ok (slots.find? fun slot =>
        slotMark ((volumeOf layout image).slots slot) = 0x00 ∨
          slotMark ((volumeOf layout image).slots slot) = 0xe5) := by
    intro slots inside
    induction slots with
    | nil => rfl
    | cons slot rest ih =>
      rw [findFreeRootSlotIn, slotMark_eq geometry (inside slot List.mem_cons_self)]
      show (if _ then _ else _) = _
      split
      · rename_i free
        rw [List.find?_cons_of_pos (by simpa using free)]
        rfl
      · rename_i used
        rw [List.find?_cons_of_neg (by simpa using used)]
        exact ih fun other member => inside other (List.mem_cons_of_mem _ member)
  exact search _ fun _ member => List.mem_range.mp member

end Read

/-! ### Writing an entry -/

/-- The bytes of an entry as they are written. -/
def rootEntryBytes (name : DosName) (firstCluster fileSize : Nat) : Bytes :=
  name.bytes ++ [attrArchive] ++ List.replicate 10 0 ++ leBytes 2 (fatTime 20 0 0)
    ++ leBytes 2 (fatDate 2026 5 21) ++ leBytes 2 firstCluster ++ leBytes 4 fileSize

theorem DosName.exists_bytes (name : DosName) : ∃ b0 b1 b2 b3 b4 b5 b6 b7 b8 b9 b10,
    name.bytes = [b0, b1, b2, b3, b4, b5, b6, b7, b8, b9, b10] := by
  obtain ⟨bytes, length⟩ := name
  match bytes, length with
  | [b0, b1, b2, b3, b4, b5, b6, b7, b8, b9, b10], _ =>
    exact ⟨b0, b1, b2, b3, b4, b5, b6, b7, b8, b9, b10, rfl⟩

/-- The fields of an entry that is written. -/
theorem rootEntryBytes_fields (name : DosName) {firstCluster fileSize : Nat}
    (small : firstCluster < 2 ^ 16) (sizeFits : fileSize < 2 ^ 32) :
    slotMark (rootEntryBytes name firstCluster fileSize) = name.bytes.headD 0 ∧
      slotName (rootEntryBytes name firstCluster fileSize) = name.bytes ∧
      slotAttr (rootEntryBytes name firstCluster fileSize) = attrArchive ∧
      slotCluster (rootEntryBytes name firstCluster fileSize) = firstCluster ∧
      slotSize (rootEntryBytes name firstCluster fileSize) = fileSize := by
  have cluster : leNat (leBytes 2 firstCluster) = firstCluster := leNat_leBytes small
  have size : leNat (leBytes 4 fileSize) = fileSize := leNat_leBytes sizeFits
  obtain ⟨b0, b1, b2, b3, b4, b5, b6, b7, b8, b9, b10, shape⟩ := name.exists_bytes
  unfold rootEntryBytes
  rw [shape]
  exact ⟨rfl, rfl, rfl, cluster, size⟩

section Write

variable {layout : Fat12Layout} {image image' : Image} {slot : Nat}

/-- One piece of a slot is written. -/
theorem copyInto_slot (offset : Nat) {volume : Volume} {entry bytes : Bytes} {value : Unit}
    (geometry : layout.Geometry image.size) (inside : slot < layout.rootEntries)
    (within : offset + bytes.length ≤ 32) (same : volumeOf layout image = volume.setSlot slot entry)
    (run : (copyInto (layout.slotOffset slot + offset) bytes).run image = .ok value image') :
    layout.Geometry image'.size ∧
      volumeOf layout image' = volume.setSlot slot (overlay entry offset bytes) := by
  obtain ⟨fits, rfl⟩ := (copyInto_eq_ok _ _ _ _ _).mp run
  refine ⟨by rwa [Image.write_size_of_le _ _ _ fits], ?_⟩
  rw [volumeOf_write_slot geometry inside within, same, Volume.setSlot_slots_self,
    Volume.setSlot_setSlot]

/-- **The entry of a file** is written into its slot. -/
theorem writeRootEntry_volume {name : DosName} {firstCluster fileSize : Nat} {value : Unit}
    (geometry : layout.Geometry image.size) (inside : slot < layout.rootEntries)
    (run : (writeRootEntry layout slot name firstCluster fileSize).run image = .ok value image') :
    fileSize < 2 ^ 32 ∧ volumeOf layout image'
      = (volumeOf layout image).setSlot slot (rootEntryBytes name firstCluster fileSize) := by
  have start : volumeOf layout image
      = (volumeOf layout image).setSlot slot ((volumeOf layout image).slots slot) :=
    Volume.ext rfl rfl rfl (Function.update_eq_self _ _).symm rfl
  have long : ((volumeOf layout image).slots slot).length = 32 := by
    rw [volumeOf_slot inside, Image.slice_length]
  obtain ⟨b0, b1, b2, b3, b4, b5, b6, b7, b8, b9, b10, shape⟩ := name.exists_bytes
  unfold writeRootEntry at run
  obtain ⟨_, _, cleared, run⟩ := (Effect.bind_eq_ok _ _ _ _ _).mp run
  obtain ⟨_, _, named, run⟩ := (Effect.bind_eq_ok _ _ _ _ _).mp run
  obtain ⟨_, _, attr, run⟩ := (Effect.bind_eq_ok _ _ _ _ _).mp run
  obtain ⟨_, _, time, run⟩ := (Effect.bind_eq_ok _ _ _ _ _).mp run
  obtain ⟨_, _, date, run⟩ := (Effect.bind_eq_ok _ _ _ _ _).mp run
  obtain ⟨_, _, first, run⟩ := (Effect.bind_eq_ok _ _ _ _ _).mp run
  obtain ⟨size, fits, run⟩ := (Effect.lift_bind_eq_ok _ _ _ _ _).mp run
  rw [Fallible.context_eq_ok, tryFrom_eq_ok] at fits
  obtain ⟨fits, rfl⟩ := fits
  refine ⟨fits, ?_⟩
  obtain ⟨geometry, same⟩ := copyInto_slot 0 geometry inside (by simp) start cleared
  have blank : overlay ((volumeOf layout image).slots slot) 0 (List.replicate 32 0)
      = List.replicate 32 0 := by
    rw [overlay, List.take_zero, List.nil_append, List.drop_of_length_le (by simp [long]),
      List.append_nil]
  rw [blank] at same
  obtain ⟨geometry, same⟩ := copyInto_slot 0 geometry inside (by rw [shape]; simp) same named
  obtain ⟨geometry, same⟩ := copyInto_slot 11 geometry inside (by simp) same attr
  obtain ⟨geometry, same⟩ := copyInto_slot 22 geometry inside (by simp) same time
  obtain ⟨geometry, same⟩ := copyInto_slot 24 geometry inside (by simp) same date
  obtain ⟨geometry, same⟩ := copyInto_slot 26 geometry inside (by simp) same first
  obtain ⟨_, same⟩ := copyInto_slot 28 geometry inside (by simp) same run
  rw [same, shape, rootEntryBytes, shape]
  rfl

end Write

end Bootsmith.Floppy
