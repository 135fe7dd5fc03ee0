/-
**One call on a consistent FAT12 image.**

`Step` is what a call preserves and what it changes: the image stays consistent, the reserved sectors and
the first two entries of each copy stay, the free clusters are counted exactly, and reading a file goes
on as lookup in a map on which the call acts. Adding a file and removing one are steps (`addFile_step`,
`removeFile_step`), and steps compose (`Step.trans`).

The layout is read from the boot sector, so the first 512 bytes have to lie in front of the tables
(`BootReserved`).
-/

import Bootsmith.Floppy.Consistent

namespace Bootsmith.Floppy

open Bootsmith.Library

/-! ### The map of files -/

/-- The contents under every name. -/
abbrev Files := DosName → Option Bytes

/-! ### Consistent images -/

/-- **A consistent image**: it has this layout, the tables are large enough, and the table and the root
directory are sound. -/
structure Consistent (layout : Fat12Layout) (image : Image) : Prop where
  parsed : parseLayout image = .ok layout
  fit : layout.EntriesFit
  sound : ∃ chains, (volumeOf layout image).Sound layout chains

/-- The first 512 bytes lie in front of the tables. -/
def BootReserved (layout : Fat12Layout) : Prop := 512 ≤ layout.fatOffset 0

instance (layout : Fat12Layout) : Decidable (BootReserved layout) := inferInstanceAs (Decidable (_ ≤ _))

/-- Reading is lookup in the map, for every name that is not the first part of a long name slot. -/
def Reads (layout : Fat12Layout) (image : Image) (files : Files) : Prop :=
  ∀ name, (volumeOf layout image).Plain layout name → readFile image name = .ok (files name)

/-! ### Names -/

namespace Volume

section Names

variable {layout : Fat12Layout} {volume volume' : Volume} {chains : Nat → List Nat} {name other : DosName}
  {contents bytes : Bytes} {slot first : Nat} {chain : List Nat} {size : Nat}

theorem DosName_ext {first second : DosName} (same : first.bytes = second.bytes) : first = second := by
  obtain ⟨bytes, _⟩ := first
  obtain ⟨bytes', _⟩ := second
  obtain rfl : bytes = bytes' := same
  rfl

/-- **What is found** when no two entries share a name. -/
theorem find_eq_some_iff (clear : volume.TailClear layout) (unique : volume.UniqueNames layout)
    (plain : volume.Plain layout name) : volume.find layout name = some slot ↔
      slot < layout.rootEntries ∧ Used (volume.slots slot) ∧
        slotName (volume.slots slot) = name.bytes := by
  constructor
  · exact find_eq_some
  · rintro ⟨inside, used, named⟩
    have entry : ∀ slot < layout.rootEntries, Used (volume.slots slot) →
        slotName (volume.slots slot) = name.bytes → IsEntry (volume.slots slot) :=
      fun slot inside used named => ⟨used, fun long => plain slot inside used long named⟩
    exact find_of_unique clear inside used named fun other inOther usedOther namedOther =>
      unique other inOther slot inside (entry other inOther usedOther namedOther)
        (entry slot inside used named) (namedOther.trans named.symm)

/-- A change of a slot that is no long name before or after keeps the plain names. -/
theorem plain_write (slots : volume'.slots = Function.update volume.slots slot bytes)
    (before : Used (volume.slots slot) → ¬ LongName (volume.slots slot))
    (after : Used bytes → ¬ LongName bytes) :
    volume'.Plain layout name ↔ volume.Plain layout name := by
  refine forall₂_congr fun other _ => ?_
  rw [slots]
  by_cases here : other = slot
  · rw [here, Function.update_self]
    exact ⟨fun _ used long => absurd long (before used), fun _ used long => absurd long (after used)⟩
  · rw [Function.update_of_ne here]

/-- The contents under a name. -/
def fileOf (layout : Fat12Layout) (volume : Volume) (chains : Nat → List Nat) (name : DosName) :
    Option Bytes :=
  (volume.find layout name).map fun slot =>
    volume.fileBytes (chains slot) (slotSize (volume.slots slot))

/-- The files of other names are not changed. -/
theorem fileOf_write (clear : volume.TailClear layout) (clear' : volume'.TailClear layout)
    (unique : volume.UniqueNames layout) (unique' : volume'.UniqueNames layout)
    (plain : volume.Plain layout other) (plain' : volume'.Plain layout other)
    (slots : volume'.slots = Function.update volume.slots slot bytes)
    (before : Used (volume.slots slot) → slotName (volume.slots slot) ≠ other.bytes)
    (after : Used bytes → slotName bytes ≠ other.bytes)
    (kept : ∀ found, found ≠ slot → volume.find layout other = some found →
      ∀ cluster ∈ chains found, volume'.clusters cluster = volume.clusters cluster) :
    volume'.fileOf layout (Function.update chains slot chain) other = volume.fileOf layout chains other := by
  have apart : ∀ found, found < layout.rootEntries → Used (volume.slots found) →
      slotName (volume.slots found) = other.bytes → found ≠ slot := by
    rintro found _ used named rfl
    exact before used named
  have same : volume'.find layout other = volume.find layout other := by
    refine Option.ext fun found => ?_
    rw [find_eq_some_iff clear' unique' plain', find_eq_some_iff clear unique plain, slots]
    by_cases here : found = slot
    · rw [here, Function.update_self]
      exact ⟨fun ⟨_, used, named⟩ => absurd named (after used),
        fun ⟨_, used, named⟩ => absurd named (before used)⟩
    · rw [Function.update_of_ne here]
  unfold fileOf
  rw [same]
  cases found : volume.find layout other with
  | none => rfl
  | some place =>
    obtain ⟨inside, used, named⟩ := find_eq_some found
    have different := apart place inside used named
    rw [Option.map_some, Option.map_some, slots, Function.update_of_ne different,
      Function.update_of_ne different, fileBytes, fileBytes,
      List.flatMap_congr fun cluster member => kept place different found cluster member]

/-- A used slot of an added file is the new one or an old one. -/
theorem UniqueNames.added (geometry : layout.Geometry size) (clear : volume.TailClear layout)
    (unique : volume.UniqueNames layout)
    (adds : volume.Adds layout name contents slot chain first) :
    (volume.added layout name contents slot chain first).UniqueNames layout := by
  obtain ⟨_, named, _⟩ := Adds.fields geometry adds
  -- no entry that was there has the name of the file
  have fresh : ∀ other < layout.rootEntries, IsEntry (volume.slots other) →
      slotName (volume.slots other) ≠ slotName (rootEntryBytes name first contents.length) := by
    intro other inside entry
    rw [named]
    exact find_eq_none clear adds.absent inside entry.1
  intro one inOne two inTwo entry entry' same
  rw [added_slots] at entry entry' same
  by_cases here : one = slot
  · by_cases there : two = slot
    · exact here.trans there.symm
    · rw [here, Function.update_self, Function.update_of_ne there] at same
      rw [Function.update_of_ne there] at entry'
      exact absurd same.symm (fresh two inTwo entry')
  · rw [Function.update_of_ne here] at entry same
    by_cases there : two = slot
    · rw [there, Function.update_self] at same
      exact absurd same (fresh one inOne entry)
    · rw [Function.update_of_ne there] at entry' same
      exact unique one inOne two inTwo entry entry' same

theorem UniqueNames.removed (unique : volume.UniqueNames layout) :
    (volume.removed layout slot chain).UniqueNames layout := by
  have unused : ¬ Used (overlay (volume.slots slot) 0 [0xe5]) := fun used =>
    used.2 (removed_mark _)
  -- an entry that is left is an old one
  have old : ∀ other, IsEntry ((volume.removed layout slot chain).slots other) →
      (volume.removed layout slot chain).slots other = volume.slots other := by
    intro other entry
    by_cases here : other = slot
    · obtain rfl := here
      refine absurd entry.1 ?_
      rwa [removed, setSlot_slots_self]
    · exact setSlot_slots_of_ne _ _ here
  intro one inOne two inTwo entry entry' same
  have stays := old one entry
  have stays' := old two entry'
  rw [stays] at entry same
  rw [stays'] at entry' same
  exact unique one inOne two inTwo entry entry' same

end Names

end Volume

/-! ### Reading a consistent image -/

section Calls

variable {layout : Fat12Layout} {image image' : Image} {name : DosName} {contents : Bytes}
  {chains : Nat → List Nat}

theorem Consistent.geometry (consistent : Consistent layout image) : layout.Geometry image.size :=
  parseLayout_geometry consistent.parsed

/-- A name that is encoded is not the first part of a long name. -/
theorem Volume.Sound.plain {volume : Volume} (sound : volume.Sound layout chains)
    (encoded : Encoded name) : volume.Plain layout name :=
  fun slot inside used long => sound.longNames slot inside used long name encoded

/-- The entry that is found under a plain name. -/
theorem Volume.isEntry_of_find {volume : Volume} {slot : Nat} (plain : volume.Plain layout name)
    (found : volume.find layout name = some slot) :
    slot < layout.rootEntries ∧ IsEntry (volume.slots slot) := by
  obtain ⟨inside, used, named⟩ := find_eq_some found
  exact ⟨inside, used, fun long => plain slot inside used long named⟩

/-- **Reading a consistent image** gives the contents under the name. -/
theorem readFile_eq_fileOf (consistent : Consistent layout image)
    (sound : (volumeOf layout image).Sound layout chains)
    (plain : (volumeOf layout image).Plain layout name) :
    readFile image name = .ok ((volumeOf layout image).fileOf layout chains name) := by
  unfold Volume.fileOf
  cases found : (volumeOf layout image).find layout name with
  | none => exact readFile_absent consistent.parsed found
  | some slot =>
    obtain ⟨inside, entry⟩ := Volume.isEntry_of_find plain found
    exact readFile_present consistent.parsed consistent.fit found (sound.owned slot inside entry)

/-- The clusters of the file that is read under the name. -/
def fileClusters (layout : Fat12Layout) (image : Image) (name : DosName) : Nat :=
  match readFile image name with
  | .ok (some contents) => layout.clustersFor contents.length
  | _ => 0

/-- The bytes of a chain are as many as the size of its entry. -/
theorem fileBytes_length (geometry : layout.Geometry image.size) {bytes : Bytes} {chain : List Nat}
    {table : Nat → Nat} (owns : Owns layout table bytes chain) :
    ((volumeOf layout image).fileBytes chain (slotSize bytes)).length = slotSize bytes := by
  have whole : (chain.map fun cluster => ((volumeOf layout image).clusters cluster).length)
      = List.replicate chain.length layout.clusterSize := by
    refine List.eq_replicate_iff.mpr ⟨List.length_map _, fun count member => ?_⟩
    obtain ⟨cluster, inChain, rfl⟩ := List.mem_map.mp member
    rw [volumeOf_cluster (owns.data cluster inChain), Image.slice_length]
  have enough := (clustersFor_spec geometry.cluster (slotSize bytes)).1
  rw [Volume.fileBytes, List.length_take, List.length_flatMap, whole, List.sum_replicate, smul_eq_mul,
    owns.length]
  exact Nat.min_eq_left enough

/-! ### Steps -/

/-- **What a call does to a consistent image**: `act` to the map of files, `added` clusters are taken and
`freed` ones given back; the reserved sectors and the first two entries of each copy stay. -/
structure Step (layout : Fat12Layout) (image image' : Image) (act : Files → Files) (added freed : Nat) :
    Prop where
  consistent : Consistent layout image'
  reserved : (volumeOf layout image').reserved = (volumeOf layout image).reserved
  head : ∀ copy count, count < 6 →
    (volumeOf layout image').fats copy count = (volumeOf layout image).fats copy count
  free : countFreeClusters image' layout + added = countFreeClusters image layout + freed
  plain : ∀ name, (volumeOf layout image').Plain layout name ↔ (volumeOf layout image).Plain layout name
  unique : (volumeOf layout image).UniqueNames layout → (volumeOf layout image').UniqueNames layout
  reads : (volumeOf layout image).UniqueNames layout → ∀ files, Reads layout image files →
    Reads layout image' (act files)

theorem Step.refl (consistent : Consistent layout image) : Step layout image image id 0 0 :=
  ⟨consistent, rfl, fun _ _ _ => rfl, rfl, fun _ => Iff.rfl, id, fun _ _ reads => reads⟩

/-- Steps compose. -/
theorem Step.trans {image'' : Image} {act act' : Files → Files} {added added' freed freed' : Nat}
    (one : Step layout image image' act added freed)
    (two : Step layout image' image'' act' added' freed') :
    Step layout image image'' (act' ∘ act) (added + added') (freed + freed') where
  consistent := two.consistent
  reserved := two.reserved.trans one.reserved
  head copy count small := (two.head copy count small).trans (one.head copy count small)
  free := by
    have first := one.free
    have second := two.free
    omega
  plain name := (two.plain name).trans (one.plain name)
  unique := two.unique ∘ one.unique
  reads unique files reads := two.reads (one.unique unique) _ (one.reads unique files reads)

/-- The layout is read from the reserved sectors. -/
theorem parseLayout_of_reserved (boot : BootReserved layout) (parsed : parseLayout image = .ok layout)
    (size : image'.size = image.size)
    (same : (volumeOf layout image').reserved = (volumeOf layout image).reserved) :
    parseLayout image' = .ok layout := by
  have bytes : ∀ index < 512, image'.get index = image.get index := by
    intro index early
    have inside : index < layout.fatOffset 0 := Nat.lt_of_lt_of_le early boot
    have slices := congrArg (fun bytes : Bytes => bytes[index]?) same
    simp only [volumeOf, Image.getElem?_slice _ _ _ _ inside, Nat.zero_add] at slices
    exact Option.some.inj slices
  exact (parseLayout_congr size bytes).trans parsed

/-- The first two entries are those of no data cluster. -/
theorem setTwelves_head {entries : List (Nat × Nat)} (nibbles : Nat → Nat)
    (data : ∀ cluster ∈ entries.map Prod.fst, layout.IsData cluster) {count : Nat} (small : count < 6) :
    setTwelves entries nibbles count = nibbles count := by
  refine setTwelves_of_not_mem nibbles fun member => ?_
  have first := (data _ member).1
  omega

theorem mapFats_head {volume : Volume} {entries : List (Nat × Nat)}
    (data : ∀ cluster ∈ entries.map Prod.fst, layout.IsData cluster) (copy : Nat) {count : Nat}
    (small : count < 6) :
    (volume.mapFats layout (setTwelves entries)).fats copy count = volume.fats copy count := by
  show (if copy < layout.fatCount then _ else _ : Nat → Nat) count = _
  split
  · exact setTwelves_head _ data small
  · rfl

/-- The free clusters that are counted are those of the volume. -/
theorem Consistent.count (consistent : Consistent layout image) :
    countFreeClusters image layout = ((volumeOf layout image).freeSet layout).card := by
  rw [countFreeClusters_eq consistent.geometry consistent.fit, Volume.freeList_length]

/-! ### One call -/

namespace Volume

variable {volume : Volume} {slot first : Nat} {chain : List Nat} {size : Nat} {other : DosName}

/-- **The contents of an added file** are those it was given. -/
theorem fileOf_added_self (geometry : layout.Geometry size) (sound : volume.Sound layout chains)
    (encoded : Encoded name) (unique : volume.UniqueNames layout)
    (adds : volume.Adds layout name contents slot chain first) :
    (volume.added layout name contents slot chain first).fileOf layout (Function.update chains slot chain)
      name = some contents := by
  obtain ⟨mark, named, _, _, length⟩ := Adds.fields geometry adds
  have sound' := sound.add geometry encoded adds
  have found : (volume.added layout name contents slot chain first).find layout name = some slot := by
    rw [find_eq_some_iff sound'.clear (unique.added geometry sound.clear adds) (sound'.plain encoded),
      added_slots, Function.update_self]
    refine ⟨(freeSlot_eq_some adds.freeSlot).1, ?_, named⟩
    rw [Used, mark]
    exact encoded.used
  have enough := (clustersFor_spec geometry.cluster contents.length).1
  rw [← adds.length] at enough
  have stored : ((volume.mapFats layout (setTwelves (linksOf fat12Eoc chain))).store layout contents 0
      chain).fileBytes chain (contents.length - 0) = contents.drop 0 :=
    fileBytes_store (Adds.free adds).1 enough
  rw [fileOf, found, Option.map_some, Function.update_self, added_slots, Function.update_self, length]
  exact congrArg some stored

/-- Adding a file keeps the other ones. -/
theorem fileOf_added_other (geometry : layout.Geometry size) (sound : volume.Sound layout chains)
    (encoded : Encoded name) (unique : volume.UniqueNames layout)
    (adds : volume.Adds layout name contents slot chain first) (plain : volume.Plain layout other)
    (plain' : (volume.added layout name contents slot chain first).Plain layout other)
    (different : other ≠ name) :
    (volume.added layout name contents slot chain first).fileOf layout (Function.update chains slot chain)
      other = volume.fileOf layout chains other := by
  obtain ⟨_, named, _⟩ := Adds.fields geometry adds
  have unused := (freeSlot_eq_some adds.freeSlot).2.1
  refine fileOf_write sound.clear (sound.add geometry encoded adds).clear unique
    (unique.added geometry sound.clear adds) plain plain' added_slots (fun used => absurd used unused)
    (fun _ same => different (DosName_ext (same.symm.trans named))) fun found _ at' cluster member => ?_
  obtain ⟨inside, entry⟩ := isEntry_of_find plain at'
  refine store_clusters_of_not_mem fun taken => ?_
  exact owns_taken (sound.owned found inside entry) member ((Adds.free adds).2 cluster taken).2

/-- A removed file is not found. -/
theorem find_removed_self (clear : volume.TailClear layout) (unique : volume.UniqueNames layout)
    (plain : volume.Plain layout name) (found : volume.find layout name = some slot)
    (clear' : (volume.removed layout slot chain).TailClear layout)
    (plain' : (volume.removed layout slot chain).Plain layout name) :
    (volume.removed layout slot chain).find layout name = none := by
  cases left : (volume.removed layout slot chain).find layout name with
  | none => rfl
  | some other =>
    obtain ⟨inside, used, named⟩ := (find_eq_some_iff clear' unique.removed plain').mp left
    by_cases here : other = slot
    · rw [here, removed, setSlot_slots_self] at used
      exact absurd (removed_mark _) used.2
    · rw [removed, setSlot_slots_of_ne _ _ here] at used named
      have again : volume.find layout name = some other :=
        (find_eq_some_iff clear unique plain).mpr ⟨inside, used, named⟩
      exact absurd (Option.some.inj (again.symm.trans found)) here

/-- Removing a file keeps the other ones. -/
theorem fileOf_removed_other (clear : volume.TailClear layout) (unique : volume.UniqueNames layout)
    (clear' : (volume.removed layout slot chain).TailClear layout) (plain : volume.Plain layout other)
    (plain' : (volume.removed layout slot chain).Plain layout other)
    (found : volume.find layout name = some slot) (different : other ≠ name) :
    (volume.removed layout slot chain).fileOf layout (Function.update chains slot []) other
      = volume.fileOf layout chains other := by
  obtain ⟨_, _, named⟩ := find_eq_some found
  exact fileOf_write clear clear' unique unique.removed plain plain' rfl
    (fun _ same => different (DosName_ext (same.symm.trans named)))
    (fun used => absurd (removed_mark _) used.2) fun _ _ _ _ _ => rfl

end Volume

/-- **Adding a file is a step.** -/
theorem addFile_step (consistent : Consistent layout image) (boot : BootReserved layout)
    (encoded : Encoded name) {value : Unit}
    (run : (addFile name contents).run image = .ok value image') :
    Step layout image image' (fun files => Function.update files name (some contents))
      (layout.clustersFor contents.length) 0 := by
  have geometry := consistent.geometry
  obtain ⟨chains, sound⟩ := consistent.sound
  obtain ⟨slot, chain, first, adds, volume⟩ := addFile_volume consistent.parsed consistent.fit run
  obtain ⟨mark, _, attr, _⟩ := Volume.Adds.fields geometry adds
  have sound' := sound.add geometry encoded adds
  have size : image'.size = image.size := (congrArg Volume.size volume).trans Volume.store_frame.1
  have reserved : (volumeOf layout image').reserved = (volumeOf layout image).reserved :=
    (congrArg Volume.reserved volume).trans Volume.store_frame.2.1
  have plain : ∀ other, (volumeOf layout image').Plain layout other ↔
      (volumeOf layout image).Plain layout other := by
    intro other
    rw [volume]
    refine Volume.plain_write Volume.added_slots
      (fun used => absurd used (Volume.freeSlot_eq_some adds.freeSlot).2.1) fun _ long => ?_
    rw [LongName, attr] at long
    exact absurd long (by decide)
  have consistent' : Consistent layout image' :=
    ⟨parseLayout_of_reserved boot consistent.parsed size reserved, consistent.fit, _, volume ▸ sound'⟩
  refine ⟨consistent', reserved, fun copy count small => ?_, ?_, plain, fun unique => ?_,
    fun unique files reads other plain' => ?_⟩
  · rw [volume, Volume.added_fats]
    refine mapFats_head (fun cluster member => ?_) copy small
    rw [linksOf_map_fst] at member
    exact ((Volume.Adds.free adds).2 cluster member).1
  · rw [consistent'.count, consistent.count, volume]
    exact Volume.card_freeSet_added geometry adds
  · rw [volume]
    exact unique.added geometry sound.clear adds
  · have old := (plain other).mp plain'
    rw [readFile_eq_fileOf consistent' (volume ▸ sound') plain', volume]
    by_cases same : other = name
    · rw [same, Function.update_self, Volume.fileOf_added_self geometry sound encoded unique adds]
    · rw [Function.update_of_ne same, Volume.fileOf_added_other geometry sound encoded unique adds old
        (volume ▸ plain') same, ← reads other old, readFile_eq_fileOf consistent sound old]

/-- **Removing a file is a step.** -/
theorem removeFile_step (consistent : Consistent layout image) (boot : BootReserved layout)
    (encoded : Encoded name) {value : Bool}
    (run : (removeFile name).run image = .ok value image') :
    Step layout image image' (fun files => Function.update files name none) 0
      (fileClusters layout image name) := by
  have geometry := consistent.geometry
  obtain ⟨chains, sound⟩ := consistent.sound
  have namePlain := sound.plain encoded
  have read := readFile_eq_fileOf consistent sound namePlain
  unfold Volume.fileOf at read
  cases found : (volumeOf layout image).find layout name with
  | none =>
    obtain ⟨_, rfl⟩ := (EStateM.Result.ok.injEq _ _ _ _).mp
      ((removeFile_absent consistent.parsed found).symm.trans run)
    rw [found, Option.map_none] at read
    have stays := Step.refl consistent
    refine ⟨consistent, rfl, stays.head, ?_, stays.plain, id, fun unique files reads other plain => ?_⟩
    · rw [fileClusters, read]
    · by_cases same : other = name
      · rw [same, Function.update_self, read]
      · rw [Function.update_of_ne same, reads other plain]
  | some slot =>
    obtain ⟨inside, entry⟩ := Volume.isEntry_of_find namePlain found
    have owns := sound.owned slot inside entry
    obtain ⟨after, run', volume⟩ := removeFile_present consistent.parsed consistent.fit found owns
    obtain rfl : image' = after := ((EStateM.Result.ok.injEq _ _ _ _).mp (run.symm.trans run')).2
    rw [found, Option.map_some] at read
    have sound' := sound.remove geometry inside entry
    have size : image'.size = image.size := congrArg Volume.size volume
    have reserved : (volumeOf layout image').reserved = (volumeOf layout image).reserved := by
      rw [volume]
      rfl
    have plain : ∀ other, (volumeOf layout image').Plain layout other ↔
        (volumeOf layout image).Plain layout other := by
      intro other
      rw [volume]
      exact Volume.plain_write rfl (fun _ => entry.2) fun used => absurd (Volume.removed_mark _) used.2
    have consistent' : Consistent layout image' :=
      ⟨parseLayout_of_reserved boot consistent.parsed size reserved, consistent.fit, _, volume ▸ sound'⟩
    refine ⟨consistent', reserved, fun copy count small => ?_, ?_, plain, fun unique => ?_,
      fun unique files reads other plain' => ?_⟩
    · rw [volume]
      refine mapFats_head (fun cluster member => ?_) copy small
      rw [allTo_map_fst] at member
      exact owns.data cluster member
    · rw [consistent'.count, consistent.count, volume, fileClusters, read,
        Volume.card_freeSet_removed geometry owns]
      show _ + layout.clustersFor _ = _ + layout.clustersFor _
      rw [fileBytes_length geometry owns]
    · rw [volume]
      exact unique.removed
    · have old := (plain other).mp plain'
      rw [readFile_eq_fileOf consistent' (volume ▸ sound') plain', volume]
      by_cases same : other = name
      · rw [same, Function.update_self, Volume.fileOf, Volume.find_removed_self sound.clear unique
          namePlain found sound'.clear (volume ▸ (plain name).mpr namePlain)]
        rfl
      · rw [Function.update_of_ne same, Volume.fileOf_removed_other sound.clear unique sound'.clear old
          (volume ▸ plain') found same, ← reads other old, readFile_eq_fileOf consistent sound old]

end Calls

end Bootsmith.Floppy
