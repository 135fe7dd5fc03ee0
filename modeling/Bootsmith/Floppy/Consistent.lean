/-
**Consistent FAT12 volumes.**

`Sound` is the invariant of the table and the root directory: the copies agree, every entry owns a chain
of its size, different entries own disjoint chains, and behind the end mark there are only end marks. A
change of one slot together with table entries of no other chain keeps it (`Sound.write`); adding and
removing a file are two such changes (`Sound.add`, `Sound.remove`).

The free clusters are the data clusters of no chain that was linked: adding a file takes the clusters of
its size, removing one gives them back.
-/

import Bootsmith.Floppy.File

namespace Bootsmith.Floppy

open Bootsmith.Library

/-- The slot is used by an entry of its own, not by a part of a long name. -/
def IsEntry (slot : Bytes) : Prop := Used slot ∧ ¬ LongName slot

namespace Volume

/-- **The invariant of the table and the root directory**; `chains` gives each entry its clusters. -/
structure Sound (layout : Fat12Layout) (volume : Volume) (chains : Nat → List Nat) : Prop where
  copies : ∀ copy < layout.fatCount, volume.fats copy = volume.fats 0
  clear : volume.TailClear layout
  owned : ∀ slot < layout.rootEntries, IsEntry (volume.slots slot) →
    Owns layout (volume.table 0) (volume.slots slot) (chains slot)
  disjoint : ∀ first < layout.rootEntries, ∀ second < layout.rootEntries, first ≠ second →
    IsEntry (volume.slots first) → IsEntry (volume.slots second) →
    (chains first).Disjoint (chains second)
  longNames : ∀ slot < layout.rootEntries, Used (volume.slots slot) → LongName (volume.slots slot) →
    ∀ name, Encoded name → slotName (volume.slots slot) ≠ name.bytes

/-- No two entries have the same name. -/
def UniqueNames (layout : Fat12Layout) (volume : Volume) : Prop :=
  ∀ first < layout.rootEntries, ∀ second < layout.rootEntries, IsEntry (volume.slots first) →
    IsEntry (volume.slots second) → slotName (volume.slots first) = slotName (volume.slots second) →
    first = second

/-- The name is not the first part of a long name slot. -/
def Plain (layout : Fat12Layout) (volume : Volume) (name : DosName) : Prop :=
  ∀ slot < layout.rootEntries, Used (volume.slots slot) → LongName (volume.slots slot) →
    slotName (volume.slots slot) ≠ name.bytes

section Change

variable {layout : Fat12Layout} {volume volume' : Volume} {chains : Nat → List Nat}
  {entries : List (Nat × Nat)} {slot : Nat} {bytes : Bytes} {chain : List Nat}

/-- A slot that is marked, with marked slots before it, keeps the end of the directory clear. -/
theorem TailClear.write (clear : volume.TailClear layout)
    (slots : volume'.slots = Function.update volume.slots slot bytes) (marked : slotMark bytes ≠ 0x00)
    (before : ∀ other < slot, slotMark (volume.slots other) ≠ 0x00) : volume'.TailClear layout := by
  intro first second order inside ended
  rw [slots] at ended ⊢
  by_cases here : first = slot
  · rw [here, Function.update_self] at ended
    exact absurd ended marked
  · rw [Function.update_of_ne here] at ended
    by_cases there : second = slot
    · exact absurd ended (before first (there ▸ order))
    · rw [Function.update_of_ne there]
      exact clear first second order inside ended

/-- **A change of one slot and of table entries of no other chain** keeps the volume sound. -/
theorem Sound.write (copies : 0 < layout.fatCount) (sound : volume.Sound layout chains)
    (fats : volume'.fats = (volume.mapFats layout (setTwelves entries)).fats)
    (slots : volume'.slots = Function.update volume.slots slot bytes)
    (small : ∀ entry ∈ entries, entry.2 < 4096) (clear : volume'.TailClear layout)
    (apart : ∀ other < layout.rootEntries, other ≠ slot → IsEntry (volume.slots other) →
      ∀ cluster ∈ chains other, cluster ∉ entries.map Prod.fst)
    (owns : IsEntry bytes → Owns layout (volume'.table 0) bytes chain ∧
      ∀ other < layout.rootEntries, other ≠ slot → IsEntry (volume.slots other) →
        (chains other).Disjoint chain)
    (longNames : Used bytes → LongName bytes → ∀ name, Encoded name → slotName bytes ≠ name.bytes) :
    volume'.Sound layout (Function.update chains slot chain) := by
  have table : volume'.table 0 = updateAll entries (volume.table 0) := by
    rw [← mapFats_table_zero copies small, Volume.table, fats, Volume.table]
  refine ⟨fun copy inside => ?_, clear, fun other inside entry => ?_,
    fun first inFirst second inSecond different entry entry' => ?_, fun other inside => ?_⟩
  · rw [fats]
    show (if _ then _ else _) = if _ then _ else _
    rw [if_pos inside, if_pos copies, sound.copies copy inside]
  · by_cases here : other = slot
    · rw [slots, here, Function.update_self] at entry ⊢
      rw [Function.update_self]
      exact (owns entry).1
    · rw [slots, Function.update_of_ne here] at entry ⊢
      rw [Function.update_of_ne here, table]
      have old := sound.owned other inside entry
      exact ⟨old.length, old.data, old.distinct, old.follows.congr fun cluster member =>
        updateAll_of_not_mem (apart other inside here entry cluster member)⟩
  · rw [slots] at entry entry'
    by_cases here : first = slot
    · rw [here, Function.update_self] at entry
      rw [Function.update_of_ne fun there => different (here.trans there.symm)] at entry'
      rw [here, Function.update_self, Function.update_of_ne fun there => different (here.trans there.symm)]
      exact ((owns entry).2 second inSecond (fun there => different (here.trans there.symm)) entry').symm
    · rw [Function.update_of_ne here] at entry ⊢
      by_cases there : second = slot
      · rw [there, Function.update_self] at entry' ⊢
        exact (owns entry').2 first inFirst here entry
      · rw [Function.update_of_ne there] at entry' ⊢
        exact sound.disjoint first inFirst second inSecond different entry entry'
  · rw [slots]
    by_cases here : other = slot
    · rw [here, Function.update_self]
      exact longNames
    · rw [Function.update_of_ne here]
      exact sound.longNames other inside

end Change

/-! ### Adding and removing a file -/

section Steps

variable {layout : Fat12Layout} {volume : Volume} {chains : Nat → List Nat} {name : DosName}
  {contents : Bytes} {slot first : Nat} {chain : List Nat} {size : Nat}

theorem mem_freeList {cluster : Nat} : cluster ∈ volume.freeList layout ↔
    layout.IsData cluster ∧ volume.table 0 cluster = 0 := by
  rw [freeList, List.mem_filter, List.mem_range'_1, decide_eq_true_iff, Fat12Layout.IsData]
  omega

/-- No cluster of a chain is free. -/
theorem owns_taken {table : Nat → Nat} {bytes : Bytes} (owns : Owns layout table bytes chain)
    {cluster : Nat} (member : cluster ∈ chain) : table cluster ≠ 0 := by
  have notNode : 0 ∉ chain := fun zero => absurd (owns.data 0 zero).1 (by decide)
  have follows := owns.follows
  rw [ChainOf, if_neg (List.ne_nil_of_mem member)] at follows
  exact follows.ne_free (by decide) notNode cluster member

/-- The clusters that are taken are distinct free data clusters. -/
theorem Adds.free (adds : volume.Adds layout name contents slot chain first) :
    chain.Nodup ∧ ∀ cluster ∈ chain, layout.IsData cluster ∧ volume.table 0 cluster = 0 := by
  rw [adds.taken]
  refine ⟨((List.nodup_range' (s := 2)).filter _).sublist (List.take_sublist _ _), ?_⟩
  exact fun cluster member => mem_freeList.mp (List.mem_of_mem_take member)

/-- The links of the new chain have twelve bits. -/
theorem Adds.small (geometry : layout.Geometry size)
    (adds : volume.Adds layout name contents slot chain first) :
    ∀ entry ∈ linksOf fat12Eoc chain, entry.2 < 4096 := by
  intro entry member
  rcases snd_of_mem_linksOf member with mark | node
  · rw [mark]
    decide
  · have data := ((Adds.free adds).2 _ node).1
    have bound := geometry.small
    obtain ⟨_, last⟩ := data
    omega

/-- The copies of the table after a file is added. -/
theorem added_fats : (volume.added layout name contents slot chain first).fats
    = (volume.mapFats layout (setTwelves (linksOf fat12Eoc chain))).fats :=
  store_frame.2.2.1

/-- The slots after a file is added. -/
theorem added_slots : (volume.added layout name contents slot chain first).slots
    = Function.update volume.slots slot (rootEntryBytes name first contents.length) := by
  show Function.update (store layout contents 0 chain _).slots _ _ = _
  rw [store_frame.2.2.2]
  rfl

theorem added_table (geometry : layout.Geometry size)
    (adds : volume.Adds layout name contents slot chain first) :
    (volume.added layout name contents slot chain first).table 0
      = updateAll (linksOf fat12Eoc chain) (volume.table 0) := by
  rw [← mapFats_table_zero geometry.copies (Adds.small geometry adds), table, added_fats, table]

/-- The fields of the new entry. -/
theorem Adds.fields (geometry : layout.Geometry size)
    (adds : volume.Adds layout name contents slot chain first) :
    slotMark (rootEntryBytes name first contents.length) = name.bytes.headD 0 ∧
      slotName (rootEntryBytes name first contents.length) = name.bytes ∧
      slotAttr (rootEntryBytes name first contents.length) = attrArchive ∧
      slotCluster (rootEntryBytes name first contents.length) = first ∧
      slotSize (rootEntryBytes name first contents.length) = contents.length := by
  have member : first ∈ chain := List.mem_of_mem_head? adds.head
  have bound := geometry.small
  obtain ⟨_, last⟩ := ((Adds.free adds).2 first member).1
  exact rootEntryBytes_fields name (by omega) adds.sizeFits

/-- The new entry owns the new chain. -/
theorem Adds.owns (geometry : layout.Geometry size)
    (adds : volume.Adds layout name contents slot chain first) :
    Owns layout ((volume.added layout name contents slot chain first).table 0)
      (rootEntryBytes name first contents.length) chain := by
  obtain ⟨_, _, _, cluster, length⟩ := Adds.fields geometry adds
  obtain ⟨distinct, free⟩ := Adds.free adds
  refine ⟨by rw [length]; exact adds.length, fun other member => (free other member).1, distinct, ?_⟩
  have member : first ∈ chain := List.mem_of_mem_head? adds.head
  have start : pointerTo fat12Eoc chain = first := by
    rw [pointerTo, adds.head]
    rfl
  rw [ChainOf, if_neg (List.ne_nil_of_mem member), cluster, added_table geometry adds, ← start]
  exact follows_linksOf distinct (by decide)

/-- **Adding a file keeps the volume sound.** -/
theorem Sound.add (geometry : layout.Geometry size) (sound : volume.Sound layout chains)
    (encoded : Encoded name) (adds : volume.Adds layout name contents slot chain first) :
    (volume.added layout name contents slot chain first).Sound layout
      (Function.update chains slot chain) := by
  obtain ⟨mark, _, attr, _⟩ := Adds.fields geometry adds
  obtain ⟨_, _, before⟩ := freeSlot_eq_some adds.freeSlot
  obtain ⟨_, free⟩ := Adds.free adds
  have marked : slotMark (rootEntryBytes name first contents.length) ≠ 0x00 := by
    rw [mark]
    exact encoded.used.1
  -- a cluster of another chain is not free
  have apart : ∀ other < layout.rootEntries, IsEntry (volume.slots other) →
      ∀ cluster ∈ chains other, cluster ∉ chain := fun other inside entry cluster member taken =>
    owns_taken (sound.owned other inside entry) member (free cluster taken).2
  refine sound.write geometry.copies added_fats added_slots (Adds.small geometry adds)
    (sound.clear.write added_slots marked fun other earlier => (before other earlier).1)
    (fun other inside _ entry cluster member => ?_) (fun _ => ⟨Adds.owns geometry adds,
      fun other inside _ entry cluster member taken => ?_⟩) fun _ long => ?_
  · rw [linksOf_map_fst]
    exact apart other inside entry cluster member
  · exact apart other inside entry cluster member taken
  · rw [LongName, attr] at long
    exact absurd long (by decide)

/-- A removed slot is not used. -/
theorem removed_mark (bytes : Bytes) : slotMark (overlay bytes 0 [0xe5]) = 0xe5 := by
  rw [overlay_zero]
  rfl

theorem allTo_small : ∀ entry ∈ allTo 0 chain, entry.2 < 4096 := by
  intro entry member
  obtain ⟨node, _, rfl⟩ := List.mem_map.mp member
  exact Nat.zero_lt_succ _

theorem removed_table (geometry : layout.Geometry size) :
    (volume.removed layout slot chain).table 0 = updateAll (allTo 0 chain) (volume.table 0) :=
  mapFats_table_zero geometry.copies allTo_small

/-- **Removing a file keeps the volume sound.** -/
theorem Sound.remove (geometry : layout.Geometry size) (sound : volume.Sound layout chains)
    (inside : slot < layout.rootEntries) (entry : IsEntry (volume.slots slot)) :
    (volume.removed layout slot (chains slot)).Sound layout (Function.update chains slot []) := by
  have mark := removed_mark (volume.slots slot)
  have unused : ¬ Used (overlay (volume.slots slot) 0 [0xe5]) := fun used => used.2 mark
  refine sound.write geometry.copies rfl rfl allTo_small
    (sound.clear.write rfl (by rw [mark]; decide) fun other earlier ended => ?_)
    (fun other inOther different entry' cluster member => ?_)
    (fun entry' => absurd entry'.1 unused) fun used => absurd used unused
  · exact entry.1.1 (sound.clear other slot earlier inside ended)
  · rw [allTo_map_fst]
    exact sound.disjoint other inOther slot inside different entry' entry member

/-! ### The free clusters -/

/-- The free data clusters. -/
def freeSet (layout : Fat12Layout) (volume : Volume) : Finset Nat :=
  freeNodes 0 (Finset.Ico 2 (layout.clusterCount + 2)) (volume.table 0)

theorem freeList_length : (volume.freeList layout).length = (volume.freeSet layout).card := by
  have distinct : (volume.freeList layout).Nodup := (List.nodup_range' (s := 2)).filter _
  rw [← List.toFinset_card_of_nodup distinct]
  congr 1
  ext cluster
  rw [List.mem_toFinset, mem_freeList, freeSet, freeNodes, Finset.mem_filter, Finset.mem_Ico]
  rfl

/-- **Adding a file takes the clusters of its size.** -/
theorem card_freeSet_added (geometry : layout.Geometry size)
    (adds : volume.Adds layout name contents slot chain first) :
    ((volume.added layout name contents slot chain first).freeSet layout).card
        + layout.clustersFor contents.length
      = (volume.freeSet layout).card := by
  obtain ⟨distinct, free⟩ := Adds.free adds
  have owns := Adds.owns geometry adds
  rw [← adds.length]
  refine card_freeNodes_link distinct (fun cluster member => ?_)
    (fun cluster member => owns_taken owns member) fun cluster outside => ?_
  · obtain ⟨data, isFree⟩ := free cluster member
    exact Finset.mem_filter.mpr ⟨Finset.mem_Ico.mpr data, isFree⟩
  · rw [added_table geometry adds, updateAll_of_not_mem (by rwa [linksOf_map_fst])]

/-- **Removing a file gives the clusters of its size back.** -/
theorem card_freeSet_removed (geometry : layout.Geometry size)
    (owns : Owns layout (volume.table 0) (volume.slots slot) chain) :
    ((volume.removed layout slot chain).freeSet layout).card
      = (volume.freeSet layout).card + layout.clustersFor (slotSize (volume.slots slot)) := by
  rw [freeSet, removed_table geometry, ← owns.length]
  exact card_freeNodes_clear owns.distinct (fun cluster member => Finset.mem_Ico.mpr (owns.data cluster member))
    fun cluster member => owns_taken owns member

end Steps

end Volume

end Bootsmith.Floppy
