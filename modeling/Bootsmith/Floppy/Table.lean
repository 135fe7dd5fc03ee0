/-
**The file allocation table** (`ntxp_floppy.rs`).

An entry is read from the first copy of the table and written to all copies. On the volume a write is an
update of that entry in each copy (`writeFat12All_run`), so allocation links the first free clusters
(`allocateClusters_run`) and freeing clears the clusters of a chain (`freeClusterChain_run`).

A loop over a chain stops at an end mark, at a free entry and outside of the data area; it gives up
after `clusterCount` steps, which the budget counts down.
-/

import Bootsmith.Floppy.Volume
import Bootsmith.Library.Chain
import Bootsmith.Library.File

namespace Bootsmith.Floppy

open Bootsmith.Library

/-! ### The functions -/

def fat12Eoc : Nat := 0x0fff

def readFat12 (image : Image) (layout : Fat12Layout) (cluster : Nat) : Fallible Nat :=
  let fatOffset := layout.reservedSectors * layout.bytesPerSector
  let offset := fatOffset + cluster * 3 / 2
  if image.size ≤ offset + 1 then
    Fallible.bail s!"FAT12 entry for cluster {cluster} is outside the image"
  else
    let pair := leNat [image.get offset, image.get (offset + 1)]
    if cluster &&& 1 = 0 then .ok (pair &&& 0x0fff) else .ok (pair >>> 4)

def writeFat12One (fatOffset cluster value : Nat) : Effect Image Unit := do
  let offset := fatOffset + cluster * 3 / 2
  let size ← fileLen
  if size ≤ offset + 1 then
    Effect.bail s!"FAT12 entry for cluster {cluster} is outside the image"
  else
    let value := value &&& 0x0fff
    if cluster &&& 1 = 0 then do
      setByte offset (UInt8.ofNat (value &&& 0x00ff))
      let old : UInt8 ← Effect.query fun image => byteAt image (offset + 1)
      setByte (offset + 1) ((old &&& (0xf0 : UInt8)) ||| (UInt8.ofNat (value >>> 8) &&& 0x0f))
    else do
      let old : UInt8 ← Effect.query fun image => byteAt image offset
      setByte offset ((old &&& (0x0f : UInt8)) ||| (UInt8.ofNat (value <<< 4) &&& 0xf0))
      setByte (offset + 1) (UInt8.ofNat (value >>> 4))

/-- Write an entry to the listed copies. -/
def writeCopies (layout : Fat12Layout) (cluster value : Nat) : List Nat → Effect Image Unit
  | [] => pure ()
  | fatIdx :: rest => do
    writeFat12One (layout.fatOffset fatIdx) cluster value
    writeCopies layout cluster value rest

def writeFat12All (layout : Fat12Layout) (cluster value : Nat) : Effect Image Unit :=
  writeCopies layout cluster value (List.range layout.fatCount)

/-- The free ones of the listed clusters, up to the number needed. -/
def collectClusters (image : Image) (layout : Fat12Layout) (needed : Nat) :
    List Nat → List Nat → Fallible (List Nat)
  | clusters, [] => pure clusters
  | clusters, cluster :: rest => do
    let entry ← readFat12 image layout cluster
    if entry = 0 then
      let clusters := clusters ++ [cluster]
      if clusters.length = needed then pure clusters
      else collectClusters image layout needed clusters rest
    else collectClusters image layout needed clusters rest

/-- Link each cluster to the next one and the last one to the end mark. -/
def linkClusters (layout : Fat12Layout) : List Nat → Effect Image Unit
  | [] => pure ()
  | cluster :: rest => do
    writeFat12All layout cluster (rest.head?.getD fat12Eoc)
    linkClusters layout rest

def allocateClusters (layout : Fat12Layout) (needed : Nat) : Effect Image (List Nat) := do
  let clusters ← Effect.query fun image =>
    collectClusters image layout needed [] (List.range' 2 layout.clusterCount)
  if clusters.length ≠ needed then
    Effect.bail "FiraDisk floppy image does not have enough free clusters for WINNT.SIF"
  else do
    linkClusters layout clusters
    pure clusters

/-- The loop that frees a chain. -/
def freeFrom (layout : Fat12Layout) (first : Nat) : Nat → Nat → Effect Image Unit
  | budget, cluster =>
    if cluster < layout.clusterCount + 2 then do
      let next ← Effect.query fun image => readFat12 image layout cluster
      writeFat12All layout cluster 0
      if next = 0 ∨ fat12Eoc - 8 ≤ next then pure ()
      else
        match budget with
        | 0 => Effect.bail s!"FAT12 cluster chain loop detected starting at cluster {first}"
        | budget + 1 => freeFrom layout first budget next
    else pure ()

def freeClusterChain (layout : Fat12Layout) (first : Nat) : Effect Image Unit :=
  if first < 2 then pure () else freeFrom layout first layout.clusterCount first

/-- The free clusters of the data area. -/
def countFreeClusters (image : Image) (layout : Fat12Layout) : Nat :=
  ((List.range' 2 layout.clusterCount).filter fun cluster =>
    (readFat12 image layout cluster).toOption.getD 0xfff = 0).length

/-! ### The table of a volume -/

/-- An end-of-chain value. -/
def EndOfChain (value : Nat) : Prop := fat12Eoc - 8 ≤ value

instance (value : Nat) : Decidable (EndOfChain value) := inferInstanceAs (Decidable (_ ≤ _))

/-- The pointer leads through the chain; an empty chain has the pointer 0. -/
def ChainOf (table : Nat → Nat) (pointer : Nat) (chain : List Nat) : Prop :=
  if chain = [] then pointer = 0 else Follows table EndOfChain pointer chain

theorem ChainOf.congr {table table' : Nat → Nat} {pointer : Nat} {chain : List Nat}
    (chained : ChainOf table pointer chain) (same : ∀ cluster ∈ chain, table' cluster = table cluster) :
    ChainOf table' pointer chain := by
  unfold ChainOf at chained ⊢
  split
  · rename_i empty
    rwa [if_pos empty] at chained
  · rename_i nonempty
    rw [if_neg nonempty] at chained
    exact chained.congr same

namespace Volume

/-- Change the nibbles of every copy. -/
def mapFats (layout : Fat12Layout) (change : (Nat → Nat) → Nat → Nat) (volume : Volume) : Volume :=
  { volume with
    fats := fun copy =>
      if copy < layout.fatCount then change (volume.fats copy) else volume.fats copy }

variable {layout : Fat12Layout} {volume : Volume}

theorem mapFats_mapFats (first second : (Nat → Nat) → Nat → Nat) :
    (volume.mapFats layout first).mapFats layout second
      = volume.mapFats layout fun nibbles => second (first nibbles) := by
  refine Volume.ext rfl rfl ?_ rfl rfl
  funext copy
  show (if _ then second (if _ then _ else _) else if _ then _ else _) = if _ then _ else _
  split <;> rfl

theorem mapFats_table {change : (Nat → Nat) → Nat → Nat} {copy : Nat} (inside : copy < layout.fatCount) :
    (volume.mapFats layout change).table copy = twelve (change (volume.fats copy)) :=
  congrArg twelve (if_pos inside)

end Volume

/-- Entries of twelve bits are set as in any table. -/
theorem twelve_setTwelves {entries : List (Nat × Nat)} (nibbles : Nat → Nat)
    (small : ∀ entry ∈ entries, entry.2 < 4096) :
    twelve (setTwelves entries nibbles) = updateAll entries (twelve nibbles) := by
  induction entries generalizing nibbles with
  | nil => rfl
  | cons entry rest ih =>
    have one : twelve (setTwelve nibbles entry.1 entry.2)
        = Function.update (twelve nibbles) entry.1 entry.2 := by
      funext other
      rw [twelve_setTwelve, Function.update_apply, Nat.mod_eq_of_lt (small entry List.mem_cons_self)]
    rw [setTwelves, ih _ fun other member => small other (List.mem_cons_of_mem _ member), one, updateAll]

/-- The table of a volume is that of the first copy, changed with the others. -/
theorem Volume.mapFats_table_zero {layout : Fat12Layout} {volume : Volume} {entries : List (Nat × Nat)}
    (copies : 0 < layout.fatCount) (small : ∀ entry ∈ entries, entry.2 < 4096) :
    (volume.mapFats layout (setTwelves entries)).table 0 = updateAll entries (volume.table 0) := by
  rw [Volume.mapFats_table copies, twelve_setTwelves _ small]
  rfl

/-! ### Reading an entry -/

section Run

variable {layout : Fat12Layout} {image : Image}

theorem twelve_eq_pair (image : Image) (fatOffset cluster : Nat) :
    twelve (image.nibble fatOffset) cluster
      = if cluster &&& 1 = 0 then
          leNat [image.get (fatOffset + cluster * 3 / 2), image.get (fatOffset + cluster * 3 / 2 + 1)]
            &&& 0x0fff
        else
          leNat [image.get (fatOffset + cluster * 3 / 2), image.get (fatOffset + cluster * 3 / 2 + 1)]
            >>> 4 := by
  have parity : cluster &&& 1 = cluster % 2 := Nat.and_one_is_mod cluster
  have pair : leNat [image.get (fatOffset + cluster * 3 / 2), image.get (fatOffset + cluster * 3 / 2 + 1)]
      = image.pair (fatOffset + cluster * 3 / 2) := rfl
  rw [Image.twelve_nibble, parity, pair, Nat.shiftRight_eq_div_pow]
  show _ = if _ then (_ &&& 2 ^ 12 - 1) else _
  rw [Nat.and_two_pow_sub_one_eq_mod]

/-- **Reading the entry of a cluster** gives the entry of the first copy. -/
theorem readFat12_eq (geometry : layout.Geometry image.size) (fit : layout.EntriesFit) {cluster : Nat}
    (small : cluster < layout.clusterCount + 2) :
    readFat12 image layout cluster = .ok ((volumeOf layout image).table 0 cluster) := by
  have within := fit.inside small
  have fatEnd := geometry.fat_end geometry.copies
  have rootEnd := geometry.root_le_data
  have dataEnd := geometry.dataOffset_le
  have start : layout.reservedSectors * layout.bytesPerSector = layout.fatOffset 0 := by
    rw [Fat12Layout.fatOffset, Nat.zero_mul, Nat.add_zero]
  rw [volumeOf_table fit geometry.copies small, twelve_eq_pair, readFat12, start, if_neg (by omega)]
  split <;> rfl

/-! ### Writing an entry -/

/-- The first byte of an entry that is written. -/
theorem evenByte (value : Nat) :
    UInt8.ofNat ((value &&& 0x0fff) &&& 0x00ff) = UInt8.ofNat (value % 256) := by
  show UInt8.ofNat ((value &&& 2 ^ 12 - 1) &&& 2 ^ 8 - 1) = _
  rw [Nat.and_two_pow_sub_one_eq_mod, Nat.and_two_pow_sub_one_eq_mod]
  congr 1
  omega

theorem writeFat12One_even {fatOffset cluster : Nat} (even : cluster % 2 = 0) (value : Nat) :
    image.twelveBytes (fatOffset + cluster * 3 / 2) cluster value
      = [UInt8.ofNat ((value &&& 0x0fff) &&& 0x00ff)]
        ++ [(image.get (fatOffset + cluster * 3 / 2 + 1) &&& (0xf0 : UInt8))
            ||| (UInt8.ofNat ((value &&& 0x0fff) >>> 8) &&& 0x0f)] := by
  have low : value &&& 0x0fff = value % 4096 := Nat.and_two_pow_sub_one_eq_mod value 12
  rw [evenByte, high_or_low, Image.twelveBytes, if_pos even, low, Nat.shiftRight_eq_div_pow,
    UInt8.toNat_ofNat']
  have same : value % 4096 / 2 ^ 8 % 2 ^ 8 % 16 = value / 256 % 16 := by omega
  rw [same]
  rfl

theorem writeFat12One_odd {fatOffset cluster : Nat} (odd : ¬ cluster % 2 = 0) (value : Nat) :
    image.twelveBytes (fatOffset + cluster * 3 / 2) cluster value
      = [(image.get (fatOffset + cluster * 3 / 2) &&& (0x0f : UInt8))
            ||| (UInt8.ofNat ((value &&& 0x0fff) <<< 4) &&& 0xf0)]
        ++ [UInt8.ofNat ((value &&& 0x0fff) >>> 4)] := by
  have low : value &&& 0x0fff = value % 4096 := Nat.and_two_pow_sub_one_eq_mod value 12
  rw [UInt8.or_comm, high_or_low, Image.twelveBytes, if_neg odd, low, Nat.shiftRight_eq_div_pow,
    Nat.shiftLeft_eq, UInt8.toNat_ofNat']
  have first : value % 4096 * 2 ^ 4 % 2 ^ 8 / 16 * 16
      + (image.get (fatOffset + cluster * 3 / 2)).toNat % 16
        = (image.get (fatOffset + cluster * 3 / 2)).toNat % 16 + value % 16 * 16 := by omega
  have second : value % 4096 / 2 ^ 4 = value / 16 % 256 := by omega
  rw [first, second]
  rfl

/-- **A write of an entry to one copy.** -/
theorem writeFat12One_eq_ok (fatOffset cluster value : Nat) (image' : Image) (result : Unit) :
    (writeFat12One fatOffset cluster value).run image = .ok result image' ↔
      fatOffset + cluster * 3 / 2 + 1 < image.size ∧
        image.setTwelve fatOffset cluster value = image' := by
  have parity : cluster &&& 1 = cluster % 2 := Nat.and_one_is_mod cluster
  unfold writeFat12One
  rw [fileLen_bind]
  split
  · rename_i outside
    simp only [Effect.bail_ne_ok, false_iff, not_and]
    omega
  rename_i inside
  simp only [not_le] at inside
  simp only [inside, true_and]
  by_cases even : cluster % 2 = 0
  · rw [if_pos (parity.trans even), Image.setTwelve, writeFat12One_even even, ← Image.write_write_append]
    generalize UInt8.ofNat ((value &&& 0x0fff) &&& 0x00ff) = first
    have size : (image.write (fatOffset + cluster * 3 / 2) [first]).size = image.size :=
      Image.write_size_of_le _ _ _ (by rw [List.length_singleton]; omega)
    have later : byteAt (image.write (fatOffset + cluster * 3 / 2) [first])
        (fatOffset + cluster * 3 / 2 + 1) = .ok (image.get (fatOffset + cluster * 3 / 2 + 1)) := by
      rw [byteAt_of_lt (by rw [size]; exact inside)]
      congr 1
      exact Image.write_get_of_outside _ _ _ (Or.inr le_rfl)
    constructor
    · intro run
      obtain ⟨_, middle, one, run⟩ := (Effect.bind_eq_ok _ _ _ _ _).mp run
      obtain ⟨_, rfl⟩ := (setByte_eq_ok _ _ _ _ _).mp one
      rw [Effect.query_bind (fun image => byteAt image (fatOffset + cluster * 3 / 2 + 1)) later] at run
      exact ((setByte_eq_ok _ _ _ _ _).mp run).2
    · intro same
      refine (Effect.bind_eq_ok _ _ _ _ _).mpr
        ⟨(), _, (setByte_eq_ok _ _ _ _ _).mpr ⟨by omega, rfl⟩, ?_⟩
      rw [Effect.query_bind (fun image => byteAt image (fatOffset + cluster * 3 / 2 + 1)) later]
      exact (setByte_eq_ok _ _ _ _ _).mpr ⟨by rw [size]; exact inside, same⟩
  · have first : byteAt image (fatOffset + cluster * 3 / 2)
        = .ok (image.get (fatOffset + cluster * 3 / 2)) := byteAt_of_lt (by omega)
    rw [if_neg fun one => even (parity.symm.trans one), Image.setTwelve, writeFat12One_odd even,
      ← Image.write_write_append,
      Effect.query_bind (fun image => byteAt image (fatOffset + cluster * 3 / 2)) first]
    simp only [Effect.bind_eq_ok, setByte_eq_ok]
    constructor
    · rintro ⟨_, _, ⟨_, rfl⟩, _, rfl⟩
      rfl
    · rintro rfl
      refine ⟨(), _, ⟨by omega, rfl⟩, ?_, rfl⟩
      rw [Image.write_size_of_le _ _ _ (by rw [List.length_singleton]; omega)]
      exact inside

/-! ### Writing all copies -/

/-- The geometry is that of every image of the same volume size. -/
theorem Fat12Layout.Geometry.of_volume {image' : Image} {volume : Volume}
    (geometry : layout.Geometry image.size)
    (same : volumeOf layout image' = volume) (size : volume.size = image.size) :
    layout.Geometry image'.size := by
  have size' : image'.size = image.size := (congrArg Volume.size same).trans size
  rw [size']
  exact geometry

/-- A write of an entry to some copies. -/
theorem writeCopies_run (geometry : layout.Geometry image.size) (fit : layout.EntriesFit)
    {cluster : Nat} (small : cluster < layout.clusterCount + 2) (value : Nat) {copies : List Nat}
    (inside : ∀ copy ∈ copies, copy < layout.fatCount) :
    ∃ image', (writeCopies layout cluster value copies).run image = .ok () image' ∧
      volumeOf layout image' = { volumeOf layout image with
        fats := fun copy =>
          if copy ∈ copies then setTwelve ((volumeOf layout image).fats copy) cluster value
          else (volumeOf layout image).fats copy } := by
  induction copies generalizing image with
  | nil => exact ⟨image, (Effect.pure_eq_ok _ _ _ _).mpr ⟨rfl, rfl⟩, rfl⟩
  | cons copy rest ih =>
    have here := inside copy List.mem_cons_self
    have within := fit.inside small
    have fatEnd := geometry.fat_end here
    have rootEnd := geometry.root_le_data
    have dataEnd := geometry.dataOffset_le
    have one : (writeFat12One (layout.fatOffset copy) cluster value).run image = .ok () _ :=
      (writeFat12One_eq_ok _ _ _ _ _).mpr ⟨by omega, rfl⟩
    have wrote := volumeOf_setTwelve geometry fit value here small
    obtain ⟨image', run, volume⟩ := ih (geometry.of_volume wrote rfl) fun other member =>
      inside other (List.mem_cons_of_mem _ member)
    refine ⟨image', (Effect.bind_eq_ok _ _ _ _ _).mpr ⟨(), _, one, run⟩, ?_⟩
    rw [volume, wrote]
    refine Volume.ext rfl rfl ?_ rfl rfl
    funext other
    show (if other ∈ rest then setTwelve (Function.update (volumeOf layout image).fats copy _ other) _ _
      else Function.update (volumeOf layout image).fats copy _ other) = if other ∈ copy :: rest then _ else _
    by_cases same : other = copy
    · rw [same, if_pos List.mem_cons_self, Function.update_self, setTwelve_setTwelve, ite_self]
    · rw [Function.update_of_ne same]
      by_cases inRest : other ∈ rest
      · rw [if_pos inRest, if_pos (List.mem_cons_of_mem _ inRest)]
      · rw [if_neg inRest, if_neg (List.not_mem_cons_of_ne_of_not_mem same inRest)]

/-- **A write of an entry** sets it in every copy. -/
theorem writeFat12All_run (geometry : layout.Geometry image.size) (fit : layout.EntriesFit)
    {cluster : Nat} (small : cluster < layout.clusterCount + 2) (value : Nat) :
    ∃ image', (writeFat12All layout cluster value).run image = .ok () image' ∧
      volumeOf layout image' = (volumeOf layout image).mapFats layout fun nibbles =>
        setTwelve nibbles cluster value := by
  have inside : ∀ copy ∈ List.range layout.fatCount, copy < layout.fatCount := fun copy member =>
    List.mem_range.mp member
  obtain ⟨image', run, volume⟩ := writeCopies_run geometry fit small value inside
  refine ⟨image', run, volume.trans (Volume.ext rfl rfl ?_ rfl rfl)⟩
  funext copy
  show (if copy ∈ List.range layout.fatCount then _ else _) = if copy < layout.fatCount then _ else _
  simp only [List.mem_range]

/-- **Linking clusters** sets their entries in every copy. -/
theorem linkClusters_run (geometry : layout.Geometry image.size) (fit : layout.EntriesFit)
    {clusters : List Nat} (small : ∀ cluster ∈ clusters, cluster < layout.clusterCount + 2) :
    ∃ image', (linkClusters layout clusters).run image = .ok () image' ∧
      volumeOf layout image'
        = (volumeOf layout image).mapFats layout (setTwelves (linksOf fat12Eoc clusters)) := by
  induction clusters generalizing image with
  | nil =>
    refine ⟨image, (Effect.pure_eq_ok _ _ _ _).mpr ⟨rfl, rfl⟩, Volume.ext rfl rfl ?_ rfl rfl⟩
    funext copy
    exact (ite_self _).symm
  | cons cluster rest ih =>
    obtain ⟨middle, one, wrote⟩ := writeFat12All_run geometry fit (small cluster List.mem_cons_self)
      (pointerTo fat12Eoc rest)
    obtain ⟨image', run, volume⟩ := ih (geometry.of_volume wrote rfl) fun other member =>
      small other (List.mem_cons_of_mem _ member)
    refine ⟨image', (Effect.bind_eq_ok _ _ _ _ _).mpr ⟨(), middle, one, run⟩, ?_⟩
    rw [volume, wrote, Volume.mapFats_mapFats]
    rfl

/-! ### Allocation -/

/-- The free clusters of a volume, in order. -/
def Volume.freeList (layout : Fat12Layout) (volume : Volume) : List Nat :=
  (List.range' 2 layout.clusterCount).filter fun cluster => volume.table 0 cluster = 0

theorem collectClusters_eq (geometry : layout.Geometry image.size) (fit : layout.EntriesFit)
    {needed : Nat} {clusters found : List Nat}
    (small : ∀ cluster ∈ clusters, cluster < layout.clusterCount + 2) (short : found.length < needed) :
    collectClusters image layout needed found clusters
      = .ok (found ++ (clusters.filter fun cluster =>
          (volumeOf layout image).table 0 cluster = 0).take (needed - found.length)) := by
  induction clusters generalizing found with
  | nil =>
    rw [List.filter_nil, List.take_nil, List.append_nil]
    rfl
  | cons cluster rest ih =>
    have restSmall : ∀ other ∈ rest, other < layout.clusterCount + 2 := fun other member =>
      small other (List.mem_cons_of_mem _ member)
    rw [collectClusters, readFat12_eq geometry fit (small cluster List.mem_cons_self)]
    show (if _ then _ else _) = _
    by_cases isFree : (volumeOf layout image).table 0 cluster = 0
    · have taken : needed - found.length = needed - found.length - 1 + 1 := by omega
      rw [if_pos isFree, List.filter_cons_of_pos (by simpa using isFree), taken, List.take_succ_cons]
      by_cases last : (found ++ [cluster]).length = needed
      · rw [List.length_append, List.length_singleton] at last
        have none : needed - found.length - 1 = 0 := by omega
        rw [if_pos (by simpa using last), none, List.take_zero]
        rfl
      · have more : (found ++ [cluster]).length < needed := by
          rw [List.length_append, List.length_singleton] at last ⊢
          omega
        rw [if_neg last, ih restSmall more, List.length_append, List.length_singleton, Nat.sub_sub,
          List.append_assoc]
        rfl
    · rw [if_neg isFree, List.filter_cons_of_neg (by simpa using isFree), ih restSmall short]

/-- The collected clusters are among those that were looked at. -/
theorem mem_of_collectClusters {needed : Nat} {found clusters collected : List Nat}
    (run : collectClusters image layout needed found clusters = .ok collected) {cluster : Nat}
    (member : cluster ∈ collected) : cluster ∈ found ∨ cluster ∈ clusters := by
  induction clusters generalizing found with
  | nil =>
    obtain rfl := (Fallible.pure_eq_ok _ _).mp run
    exact Or.inl member
  | cons first rest ih =>
    obtain ⟨entry, _, run⟩ := (Fallible.bind_eq_ok _ _ _).mp run
    have grown : cluster ∈ found ++ [first] → cluster ∈ found ∨ cluster ∈ first :: rest := by
      intro inGrown
      rcases List.mem_append.mp inGrown with old | new
      · exact Or.inl old
      · exact Or.inr (List.mem_cons.mpr (Or.inl (List.mem_singleton.mp new)))
    split at run
    · dsimp only at run
      split at run
      · obtain rfl := (Fallible.pure_eq_ok _ _).mp run
        exact grown member
      · rcases ih run with inGrown | inRest
        · exact grown inGrown
        · exact Or.inr (List.mem_cons_of_mem _ inRest)
    · exact (ih run).imp id (List.mem_cons_of_mem _)

/-- **Allocation** links the first free clusters. -/
theorem allocateClusters_run (geometry : layout.Geometry image.size) (fit : layout.EntriesFit)
    {needed : Nat} (positive : 0 < needed) {clusters : List Nat} {image' : Image}
    (run : (allocateClusters layout needed).run image = .ok clusters image') :
    clusters = ((volumeOf layout image).freeList layout).take needed ∧ clusters.length = needed ∧
      volumeOf layout image'
        = (volumeOf layout image).mapFats layout (setTwelves (linksOf fat12Eoc clusters)) := by
  have small : ∀ cluster ∈ List.range' 2 layout.clusterCount, cluster < layout.clusterCount + 2 := by
    intro cluster member
    rw [List.mem_range'_1] at member
    omega
  have collected : collectClusters image layout needed [] _ = .ok _ :=
    collectClusters_eq geometry fit small positive
  unfold allocateClusters at run
  rw [Effect.query_bind (fun image => collectClusters image layout needed []
    (List.range' 2 layout.clusterCount)) collected, List.nil_append, List.length_nil, Nat.sub_zero] at run
  split at run
  · simp at run
  rename_i enough
  obtain ⟨_, middle, linked, done⟩ := (Effect.bind_eq_ok _ _ _ _ _).mp run
  obtain ⟨rfl, rfl⟩ := (Effect.pure_eq_ok _ _ _ _).mp done
  have taken : ∀ cluster ∈ ((volumeOf layout image).freeList layout).take needed,
      cluster < layout.clusterCount + 2 := fun cluster member =>
    small cluster (List.mem_of_mem_filter (List.mem_of_mem_take member))
  obtain ⟨image', run', volume⟩ := linkClusters_run geometry fit taken
  obtain ⟨_, rfl⟩ := (EStateM.Result.ok.injEq _ _ _ _).mp (run'.symm.trans linked)
  exact ⟨rfl, not_not.mp enough, volume⟩

/-! ### Freeing a chain -/

/-- A cluster of the data area is no end mark. -/
theorem Fat12Layout.Geometry.not_end {size cluster : Nat} (geometry : layout.Geometry size)
    (data : layout.IsData cluster) : ¬ EndOfChain cluster := by
  have small := geometry.small
  obtain ⟨_, last⟩ := data
  unfold EndOfChain fat12Eoc
  omega

/-- A loop over a chain goes on at a data cluster. -/
theorem Fat12Layout.Geometry.not_mark {size cluster : Nat} (geometry : layout.Geometry size)
    (data : layout.IsData cluster) : ¬ (cluster = 0 ∨ fat12Eoc - 8 ≤ cluster) := by
  rintro (zero | last)
  · have low := data.1
    omega
  · exact geometry.not_end data last

/-- Distinct data clusters are at most as many as there are. -/
theorem chain_length_le {chain : List Nat} (data : ∀ cluster ∈ chain, layout.IsData cluster)
    (distinct : chain.Nodup) : chain.length ≤ layout.clusterCount := by
  have below : chain ⊆ List.range' 2 layout.clusterCount := by
    intro cluster member
    obtain ⟨low, high⟩ := data cluster member
    rw [List.mem_range'_1]
    omega
  have counted := (distinct.subperm below).length_le
  rwa [List.length_range'] at counted

/-- **The loop frees the chain** it starts in. -/
theorem freeFrom_run (geometry : layout.Geometry image.size) (fit : layout.EntriesFit)
    {first budget cluster : Nat} {rest : List Nat}
    (follows : Follows ((volumeOf layout image).table 0) EndOfChain cluster (cluster :: rest))
    (data : ∀ other ∈ cluster :: rest, layout.IsData other) (distinct : (cluster :: rest).Nodup)
    (short : rest.length ≤ budget) :
    ∃ image', (freeFrom layout first budget cluster).run image = .ok () image' ∧
      volumeOf layout image'
        = (volumeOf layout image).mapFats layout (setTwelves (allTo 0 (cluster :: rest))) := by
  induction rest generalizing image budget cluster with
  | nil =>
    have small := (data cluster List.mem_cons_self).2
    obtain ⟨image', wrote, volume⟩ := writeFat12All_run geometry fit small 0
    refine ⟨image', ?_, volume⟩
    unfold freeFrom
    rw [if_pos small, Effect.query_bind (fun image => readFat12 image layout cluster)
      (readFat12_eq geometry fit small)]
    refine (Effect.bind_eq_ok _ _ _ _ _).mpr ⟨(), image', wrote, ?_⟩
    have last : fat12Eoc - 8 ≤ (volumeOf layout image).table 0 cluster := follows.2
    rw [if_pos (Or.inr last)]
    exact (Effect.pure_eq_ok _ _ _ _).mpr ⟨rfl, rfl⟩
  | cons next rest ih =>
    obtain ⟨_, linked, follows⟩ := follows
    have small := (data cluster List.mem_cons_self).2
    have nextData := data next (List.mem_cons_of_mem _ List.mem_cons_self)
    obtain ⟨notRest, restDistinct⟩ := List.nodup_cons.mp distinct
    obtain ⟨middle, wrote, volume⟩ := writeFat12All_run geometry fit small 0
    obtain ⟨budget, rfl⟩ : ∃ less, budget = less + 1 :=
      Nat.exists_eq_succ_of_ne_zero (by rw [List.length_cons] at short; omega)
    -- the rest of the chain is still there after its first cluster is freed
    have table : (volumeOf layout middle).table 0
        = updateAll [(cluster, 0)] ((volumeOf layout image).table 0) := by
      rw [volume]
      exact Volume.mapFats_table_zero geometry.copies (by simp : ∀ entry ∈ [(cluster, 0)], entry.2 < 4096)
    have follows' : Follows ((volumeOf layout middle).table 0) EndOfChain next (next :: rest) := by
      have after : Follows ((volumeOf layout image).table 0) EndOfChain next (next :: rest) :=
        ⟨rfl, follows⟩
      refine after.congr fun other member => ?_
      rw [table]
      exact Function.update_of_ne (ne_of_mem_of_not_mem member notRest) _ _
    obtain ⟨image', run, volume'⟩ := ih (geometry.of_volume volume rfl) follows'
      (fun other member => data other (List.mem_cons_of_mem _ member)) restDistinct
      (Nat.le_of_succ_le_succ short)
    refine ⟨image', ?_, ?_⟩
    · unfold freeFrom
      rw [if_pos small, Effect.query_bind (fun image => readFat12 image layout cluster)
        (readFat12_eq geometry fit small), linked]
      refine (Effect.bind_eq_ok _ _ _ _ _).mpr ⟨(), middle, wrote, ?_⟩
      rw [if_neg (geometry.not_mark nextData)]
      exact run
    · rw [volume', volume, Volume.mapFats_mapFats]
      rfl

/-- **Freeing a chain** clears its entries in every copy; an empty chain is left alone. -/
theorem freeClusterChain_run (geometry : layout.Geometry image.size) (fit : layout.EntriesFit)
    {first : Nat} {chain : List Nat} (data : ∀ cluster ∈ chain, layout.IsData cluster)
    (distinct : chain.Nodup) (follows : ChainOf ((volumeOf layout image).table 0) first chain) :
    ∃ image', (freeClusterChain layout first).run image = .ok () image' ∧
      volumeOf layout image' = (volumeOf layout image).mapFats layout (setTwelves (allTo 0 chain)) := by
  unfold freeClusterChain
  cases chain with
  | nil =>
    obtain rfl : first = 0 := follows
    refine ⟨image, (Effect.pure_eq_ok _ _ _ _).mpr ⟨rfl, rfl⟩, Volume.ext rfl rfl ?_ rfl rfl⟩
    funext copy
    exact (ite_self _).symm
  | cons cluster rest =>
    obtain ⟨rfl, link⟩ : Follows _ _ first (cluster :: rest) := follows
    have start := (data first List.mem_cons_self).1
    have bound := chain_length_le data distinct
    rw [if_neg (by omega)]
    refine freeFrom_run geometry fit ⟨rfl, link⟩ data distinct ?_
    rw [List.length_cons] at bound
    omega

/-- The free clusters are counted on the first copy. -/
theorem countFreeClusters_eq (geometry : layout.Geometry image.size) (fit : layout.EntriesFit) :
    countFreeClusters image layout = ((volumeOf layout image).freeList layout).length := by
  unfold countFreeClusters Volume.freeList
  congr 1
  refine List.filter_congr fun cluster member => ?_
  rw [List.mem_range'_1] at member
  rw [readFat12_eq geometry fit (by omega)]
  rfl

end Run

/-! ### One entry of one copy -/

/-- The entry of a cluster in the copy at an offset, decoded as `readFat12` decodes the first copy. -/
def readFat12At (image : Image) (fatOffset cluster : Nat) : Fallible Nat :=
  let offset := fatOffset + cluster * 3 / 2
  if image.size ≤ offset + 1 then
    Fallible.bail s!"FAT12 entry for cluster {cluster} is outside the image"
  else
    let pair := leNat [image.get offset, image.get (offset + 1)]
    if cluster &&& 1 = 0 then .ok (pair &&& 0x0fff) else .ok (pair >>> 4)

theorem readFat12_eq_at (image : Image) (layout : Fat12Layout) (cluster : Nat) :
    readFat12 image layout cluster
      = readFat12At image (layout.reservedSectors * layout.bytesPerSector) cluster := rfl

theorem readFat12At_of_lt {image : Image} {fatOffset cluster : Nat}
    (inside : fatOffset + cluster * 3 / 2 + 1 < image.size) :
    readFat12At image fatOffset cluster = .ok (twelve (image.nibble fatOffset) cluster) := by
  rw [twelve_eq_pair, readFat12At, if_neg (by omega)]
  split <;> rfl

/-- **A write of an entry**: the entry reads as the low twelve bits of the value, every other entry of
the copy reads as before, and no byte changes but the two that hold the entry. -/
theorem writeFat12One_readFat12At {image : Image} {fatOffset cluster : Nat} (value : Nat)
    (inside : fatOffset + cluster * 3 / 2 + 1 < image.size) :
    ∃ image', (writeFat12One fatOffset cluster value).run image = .ok () image' ∧
      image'.size = image.size ∧
      readFat12At image' fatOffset cluster = .ok (value % 4096) ∧
      (∀ other, other ≠ cluster → fatOffset + other * 3 / 2 + 1 < image.size →
        ∃ entry, readFat12At image fatOffset other = .ok entry ∧
          readFat12At image' fatOffset other = .ok entry) ∧
      ∀ place, place ≠ fatOffset + cluster * 3 / 2 → place ≠ fatOffset + cluster * 3 / 2 + 1 →
        image'.get place = image.get place := by
  have size := image.setTwelve_size value inside
  refine ⟨_, (writeFat12One_eq_ok _ _ _ _ _).mpr ⟨inside, rfl⟩, size, ?_, ?_, ?_⟩
  · rw [readFat12At_of_lt (by rwa [size]), Image.nibble_setTwelve, twelve_setTwelve, if_pos rfl]
  · intro other apart within
    refine ⟨_, readFat12At_of_lt within, ?_⟩
    rw [readFat12At_of_lt (by rwa [size]), Image.nibble_setTwelve, twelve_setTwelve, if_neg apart]
  · intro place first second
    apply Image.setTwelve_get_of_outside
    omega

/-- The second entry of a blank table shares its first byte with the entry before. -/
theorem writeFat12One_readFat12At_sample :
    ∃ image', (writeFat12One 0 1 0xabc).run ⟨3, fun _ => 0, fun _ _ => rfl⟩ = .ok () image' ∧
      readFat12At image' 0 1 = .ok 0xabc ∧ readFat12At image' 0 0 = .ok 0 := by
  obtain ⟨image', run, _, here, others, _⟩ :=
    @writeFat12One_readFat12At ⟨3, fun _ => 0, fun _ _ => rfl⟩ 0 1 0xabc (by decide)
  obtain ⟨entry, before, after⟩ := others 0 (by decide) (by decide)
  have blank : entry = 0 := (Except.ok.inj before).symm.trans (by decide)
  exact ⟨image', run, here, blank ▸ after⟩

end Bootsmith.Floppy
