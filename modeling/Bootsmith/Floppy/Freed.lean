/-
**What removing a file frees** (`ntxp_floppy.rs`).

The walk frees each cluster before it goes on, so a chain that comes back finds a free entry there and
stops. The chain leads through distinct data clusters to a last pointer; only the first cluster is compared
with 2, and a last pointer of 1 is walked on, which frees the entry of the cluster 1.

* `freeFrom_to`: the walk frees the clusters of the chain and goes on at the last pointer;
* `removeFile_only_iff`: removing a file changes the entries of the data clusters its first cluster leads
  to, and its slot, and nothing else, exactly when no entry 1 is lost that way.
-/

import Bootsmith.Floppy.Separated

namespace Bootsmith.Floppy

open Bootsmith.Library Effect

/-! ### The clusters of a chain -/

/-- The clusters of the data area. -/
def Fat12Layout.dataClusters (layout : Fat12Layout) :
    Finset Nat := Finset.Ico 2 (layout.clusterCount + 2)

theorem Fat12Layout.mem_dataClusters {layout : Fat12Layout} {cluster : Nat} :
    cluster ∈ layout.dataClusters ↔ layout.IsData cluster := Finset.mem_Ico

namespace Volume

variable {layout : Fat12Layout} {volume : Volume}

/-- The first cluster leads to the data cluster. -/
def Owned (layout : Fat12Layout) (volume : Volume) (first cluster : Nat) : Prop :=
  layout.IsData cluster ∧ LeadsTo (volume.table 0) layout.dataClusters first cluster

/-- Clearing entries clears them in the tables of all copies. -/
theorem mapFats_cleared {copy : Nat} (inside : copy < layout.fatCount) (clusters : List Nat) :
    (volume.mapFats layout (setTwelves (allTo 0 clusters))).table copy
      = updateAll (allTo 0 clusters) (volume.table copy) := by
  have small : ∀ entry ∈ allTo 0 clusters, entry.2 < 4096 := by
    intro entry member
    obtain ⟨cluster, _, rfl⟩ := List.mem_map.mp member
    exact Nat.succ_pos _
  rw [mapFats_table inside, twelve_setTwelves _ small]
  rfl

theorem mapFats_cleared_append (first second : List Nat) :
    (volume.mapFats layout (setTwelves (allTo 0 first))).mapFats layout (setTwelves (allTo 0 second))
      = volume.mapFats layout (setTwelves (allTo 0 (first ++ second))) := by
  rw [mapFats_mapFats]
  congr 1
  funext nibbles
  induction first generalizing nibbles with
  | nil => rfl
  | cons cluster rest ih => exact ih _

theorem mapFats_cleared_nil : volume.mapFats layout (setTwelves (allTo 0 [])) = volume := by
  refine Volume.ext rfl rfl ?_ rfl rfl
  funext copy
  exact ite_self _

end Volume

/-! ### The walk -/

section Walk

variable {layout : Fat12Layout} {image : Image}

/-- One turn of the walk. -/
theorem freeFrom_turn (geometry : layout.Geometry image.size) (fit : layout.EntriesFit) {cluster : Nat}
    (small : cluster < layout.clusterCount + 2) (first budget : Nat) :
    ∃ image', volumeOf layout image' = (volumeOf layout image).mapFats layout (setTwelves (allTo 0 [cluster])) ∧
      (freeFrom layout first budget cluster).run image
        = if (volumeOf layout image).table 0 cluster = 0 ∨
            fat12Eoc - 8 ≤ (volumeOf layout image).table 0 cluster then .ok () image'
          else
            match budget with
            | 0 => .error (.error [s!"FAT12 cluster chain loop detected starting at cluster {first}"]) image'
            | budget + 1 => (freeFrom layout first budget ((volumeOf layout image).table 0 cluster)).run image' := by
  obtain ⟨image', wrote, volume⟩ := writeFat12All_run geometry fit small 0
  refine ⟨image', volume, ?_⟩
  conv_lhs => unfold freeFrom
  rw [if_pos small, Effect.query_bind (fun image => readFat12 image layout cluster)
    (readFat12_eq geometry fit small), EStateM.run_bind, wrote]
  dsimp only
  split
  · rfl
  · cases budget <;> rfl

/-- **The walk frees the clusters of a chain** and goes on at its last pointer, unless that is a mark. -/
theorem freeFrom_to (geometry : layout.Geometry image.size) (fit : layout.EntriesFit)
    {first budget cluster last : Nat} {chain : List Nat}
    (follows : Follows ((volumeOf layout image).table 0) (· = last) cluster chain)
    (data : ∀ other ∈ chain, layout.IsData other) (distinct : chain.Nodup) (short : chain.length ≤ budget) :
    ∃ image', volumeOf layout image' = (volumeOf layout image).mapFats layout (setTwelves (allTo 0 chain)) ∧
      (chain ≠ [] ∧ (last = 0 ∨ fat12Eoc - 8 ≤ last) ∧
          (freeFrom layout first budget cluster).run image = .ok () image' ∨
        (chain = [] ∨ ¬ (last = 0 ∨ fat12Eoc - 8 ≤ last)) ∧ (freeFrom layout first budget cluster).run image
          = (freeFrom layout first (budget - chain.length) last).run image') := by
  induction chain generalizing image budget cluster with
  | nil =>
    obtain rfl : cluster = last := follows
    exact ⟨image, Volume.mapFats_cleared_nil.symm, Or.inr ⟨Or.inl rfl, rfl⟩⟩
  | cons node rest ih =>
    obtain ⟨rfl, follows⟩ := follows
    obtain ⟨notRest, restDistinct⟩ := List.nodup_cons.mp distinct
    have restData : ∀ other ∈ rest, layout.IsData other := fun other member =>
      data other (List.mem_cons_of_mem _ member)
    obtain ⟨middle, volume, turn⟩ :=
      freeFrom_turn geometry fit (data cluster List.mem_cons_self).2 first budget
    rw [turn]
    by_cases mark : (volumeOf layout image).table 0 cluster = 0 ∨
        fat12Eoc - 8 ≤ (volumeOf layout image).table 0 cluster
    · cases rest with
      | nil =>
        obtain rfl : (volumeOf layout image).table 0 cluster = last := follows
        exact ⟨middle, volume, Or.inl ⟨List.cons_ne_nil _ _, mark, if_pos mark⟩⟩
      | cons next rest =>
        rw [follows.1] at mark
        exact absurd mark (geometry.not_mark (restData next List.mem_cons_self))
    · rw [if_neg mark]
      obtain ⟨budget, rfl⟩ : ∃ less, budget = less + 1 :=
        Nat.exists_eq_succ_of_ne_zero (by rw [List.length_cons] at short; omega)
      -- the rest of the chain is still there after its first cluster is freed
      have after : Follows ((volumeOf layout middle).table 0) (· = last)
          ((volumeOf layout image).table 0 cluster) rest := by
        refine follows.congr fun other member => ?_
        rw [volume, Volume.mapFats_cleared geometry.copies, updateAll_of_not_mem]
        rw [allTo_map_fst, List.mem_singleton]
        exact ne_of_mem_of_not_mem member notRest
      obtain ⟨image', volume', run⟩ := ih (geometry.of_volume volume rfl) after restData restDistinct
        (Nat.le_of_succ_le_succ short)
      refine ⟨image', ?_, ?_⟩
      · rw [volume', volume, Volume.mapFats_cleared_append]
        rfl
      · rw [List.length_cons, Nat.add_sub_add_right]
        rcases run with ⟨_, ends, run⟩ | ⟨onward, run⟩
        · exact Or.inl ⟨List.cons_ne_nil _ _, ends, run⟩
        · refine Or.inr ⟨Or.inr ?_, run⟩
          rcases onward with none | onward
          · subst none
            obtain rfl : (volumeOf layout image).table 0 cluster = last := follows
            exact mark
          · exact onward

/-- The image has the geometry, and its entries 1 are free. -/
def FirstFree (layout : Fat12Layout) (image : Image) : Prop :=
  layout.Geometry image.size ∧ ∀ copy < layout.fatCount, (volumeOf layout image).table copy 1 = 0

/-- Entries 1 that are free stay free. -/
theorem freeFrom_firstFree (fit : layout.EntriesFit) (free : FirstFree layout image)
    (first budget cluster : Nat) :
    SafeAt (FirstFree layout) (freeFrom layout first budget cluster) image := by
  induction budget using Nat.strong_induction_on generalizing image cluster with
  | _ budget ih =>
    by_cases small : cluster < layout.clusterCount + 2
    · obtain ⟨geometry, zero⟩ := free
      obtain ⟨image', volume, turn⟩ := freeFrom_turn geometry fit small first budget
      have free' : FirstFree layout image' := by
        refine ⟨geometry.of_volume volume rfl, fun copy known => ?_⟩
        rw [volume, Volume.mapFats_cleared known]
        show Function.update _ cluster 0 1 = 0
        rw [Function.update_apply, zero copy known, ite_self]
      by_cases mark : (volumeOf layout image).table 0 cluster = 0 ∨
          fat12Eoc - 8 ≤ (volumeOf layout image).table 0 cluster
      · rw [if_pos mark] at turn
        exact SafeAt.of_ok turn free'
      · rw [if_neg mark] at turn
        cases budget with
        | zero =>
          unfold SafeAt
          rw [turn]
          exact free'
        | succ budget => exact (ih budget (Nat.lt_succ_self budget) free' _).of_run turn
    · unfold freeFrom
      rw [if_neg small]
      exact safeAt_pure () free

/-- A walk that comes to the cluster 1 frees its entry. -/
theorem freeFrom_one (geometry : layout.Geometry image.size) (fit : layout.EntriesFit)
    (first budget : Nat) :
    SafeAt (FirstFree layout) (freeFrom layout first budget 1) image := by
  obtain ⟨image', volume, turn⟩ := freeFrom_turn geometry fit (by omega : 1 < layout.clusterCount + 2) first budget
  have free : FirstFree layout image' := by
    refine ⟨geometry.of_volume volume rfl, fun copy known => ?_⟩
    rw [volume, Volume.mapFats_cleared known]
    show Function.update ((volumeOf layout image).table copy) 1 0 1 = 0
    exact Function.update_self 1 0 _
  by_cases mark : (volumeOf layout image).table 0 1 = 0 ∨ fat12Eoc - 8 ≤ (volumeOf layout image).table 0 1
  · rw [if_pos mark] at turn
    exact SafeAt.of_ok turn free
  · rw [if_neg mark] at turn
    cases budget with
    | zero =>
      unfold SafeAt
      rw [turn]
      exact free
    | succ budget => exact (freeFrom_firstFree fit free first budget _).of_run turn

/-- The walk at a pointer that is free in all copies, or behind the data area, changes no entry. -/
theorem freeFrom_stop (geometry : layout.Geometry image.size) (fit : layout.EntriesFit) {last : Nat}
    (ends : layout.clusterCount + 2 ≤ last ∨ ∀ copy < layout.fatCount, (volumeOf layout image).table copy last = 0)
    (first budget : Nat) :
    ∃ image' cleared, (freeFrom layout first budget last).run image = .ok () image' ∧
      volumeOf layout image' = (volumeOf layout image).mapFats layout (setTwelves (allTo 0 cleared)) ∧
        ∀ cluster ∈ cleared, ∀ copy < layout.fatCount, (volumeOf layout image).table copy cluster = 0 := by
  by_cases small : last < layout.clusterCount + 2
  · have free := ends.resolve_left (Nat.not_le_of_lt small)
    obtain ⟨image', volume, turn⟩ := freeFrom_turn geometry fit small first budget
    rw [if_pos (Or.inl (free 0 geometry.copies))] at turn
    refine ⟨image', [last], turn, volume, fun cluster member => ?_⟩
    rwa [List.mem_singleton.mp member]
  · refine ⟨image, [], ?_, Volume.mapFats_cleared_nil.symm, fun _ member => absurd member List.not_mem_nil⟩
    unfold freeFrom
    rw [if_neg small]
    rfl

end Walk

/-! ### Freeing the chain of a file -/

section Free

variable {layout : Fat12Layout} {image : Image} {first : Nat}

/-- A data cluster of the chain has the link 1. -/
def LeadsToFirst (layout : Fat12Layout) (volume : Volume) (first : Nat) : Prop :=
  ∃ cluster, volume.Owned layout first cluster ∧ volume.table 0 cluster = 1

/-- **Freeing a chain** clears the entries of the clusters it leads to, when no entry 1 is lost. -/
theorem freeClusterChain_owned (geometry : layout.Geometry image.size) (fit : layout.EntriesFit)
    (kept : LeadsToFirst layout (volumeOf layout image) first →
      ∀ copy < layout.fatCount, (volumeOf layout image).table copy 1 = 0) :
    ∃ image' cleared, (freeClusterChain layout first).run image = .ok () image' ∧
      volumeOf layout image' = (volumeOf layout image).mapFats layout (setTwelves (allTo 0 cleared)) ∧
      (∀ cluster, (volumeOf layout image).Owned layout first cluster → cluster ∈ cleared) ∧
      ∀ cluster ∈ cleared, (volumeOf layout image).Owned layout first cluster ∨
        ∀ copy < layout.fatCount, (volumeOf layout image).table copy cluster = 0 := by
  obtain ⟨chain, distinct, inside, follows⟩ :=
    exists_lasso ((volumeOf layout image).table 0) layout.dataClusters first
  have owned : ∀ cluster, (volumeOf layout image).Owned layout first cluster ↔ cluster ∈ chain := by
    intro cluster
    rw [← leadsTo_iff_mem inside follows, Fat12Layout.mem_dataClusters]
    rfl
  have data : ∀ cluster ∈ chain, layout.IsData cluster := fun cluster member =>
    Fat12Layout.mem_dataClusters.mp (inside cluster member)
  obtain ⟨last, ends, link⟩ := follows.exists_end
  unfold freeClusterChain
  by_cases low : first < 2
  · rw [if_pos low]
    -- a file without clusters
    have none : chain = [] := by
      cases chain with
      | nil => rfl
      | cons cluster rest =>
        have start := (data cluster List.mem_cons_self).1
        have same := link.1
        omega
    refine ⟨image, [], rfl, Volume.mapFats_cleared_nil.symm, fun cluster member => ?_,
      fun _ member => absurd member List.not_mem_nil⟩
    rw [← none]
    exact (owned cluster).mp member
  rw [if_neg low]
  obtain ⟨middle, volume, run⟩ := freeFrom_to geometry fit link data distinct (chain_length_le data distinct)
  rcases run with ⟨_, _, run⟩ | ⟨onward, run⟩
  · exact ⟨middle, chain, run, volume, fun cluster => (owned cluster).mp,
      fun cluster member => Or.inl ((owned cluster).mpr member)⟩
  -- what is left of the table at the last pointer
  have table : ∀ copy < layout.fatCount, (volumeOf layout middle).table copy
      = updateAll (allTo 0 chain) ((volumeOf layout image).table copy) := by
    intro copy known
    rw [volume, Volume.mapFats_cleared known]
  have stop : layout.clusterCount + 2 ≤ last ∨
      ∀ copy < layout.fatCount, (volumeOf layout middle).table copy last = 0 := by
    by_cases small : last < layout.clusterCount + 2
    · refine Or.inr fun copy known => ?_
      rw [table copy known]
      by_cases again : last ∈ chain
      · exact updateAll_allTo again
      rw [updateAll_of_not_mem (by rwa [allTo_map_fst])]
      have outside := ends.resolve_left again
      rw [Fat12Layout.mem_dataClusters] at outside
      have nonempty : chain ≠ [] := by
        rintro rfl
        obtain rfl : first = last := link
        exact outside ⟨Nat.le_of_not_lt low, small⟩
      obtain rfl : last = 1 := by
        have notZero := onward.resolve_left nonempty
        unfold Fat12Layout.IsData at outside
        omega
      obtain ⟨cluster, member, one⟩ := link.exists_last nonempty
      exact kept ⟨cluster, (owned cluster).mpr member, one⟩ copy known
    · exact Or.inl (Nat.le_of_not_lt small)
  obtain ⟨image', cleared, stopped, volume', free⟩ := freeFrom_stop (geometry.of_volume volume rfl) fit stop
    first (layout.clusterCount - chain.length)
  refine ⟨image', chain ++ cleared, run.trans stopped, ?_, fun cluster isOwned => ?_, fun cluster member => ?_⟩
  · rw [volume', volume, Volume.mapFats_cleared_append]
  · exact List.mem_append_left _ ((owned cluster).mp isOwned)
  · by_cases inChain : cluster ∈ chain
    · exact Or.inl ((owned cluster).mpr inChain)
    · refine Or.inr fun copy known => ?_
      have zero := free cluster ((List.mem_append.mp member).resolve_left inChain) copy known
      rwa [table copy known, updateAll_of_not_mem (by rwa [allTo_map_fst])] at zero

/-- A chain that leads to the cluster 1 frees its entry. -/
theorem freeClusterChain_first (geometry : layout.Geometry image.size) (fit : layout.EntriesFit)
    (leads : LeadsToFirst layout (volumeOf layout image) first) :
    SafeAt (FirstFree layout) (freeClusterChain layout first) image := by
  obtain ⟨chain, distinct, inside, follows⟩ :=
    exists_lasso ((volumeOf layout image).table 0) layout.dataClusters first
  have data : ∀ cluster ∈ chain, layout.IsData cluster := fun cluster member =>
    Fat12Layout.mem_dataClusters.mp (inside cluster member)
  obtain ⟨cluster, ⟨here, reached⟩, one⟩ := leads
  have member := (leadsTo_iff_mem inside follows).mp ⟨Fat12Layout.mem_dataClusters.mpr here, reached⟩
  have notData : ¬ layout.IsData 1 := fun known => absurd known.1 (by decide)
  have notChain : 1 ∉ chain := fun again => notData (data 1 again)
  obtain ⟨last, ends, link⟩ := follows.exists_end
  obtain rfl : 1 = last := by
    rcases link.link_mem member with again | same
    · exact absurd (one ▸ again) notChain
    · exact one.symm.trans same
  have start : ¬ first < 2 := by
    cases chain with
    | nil => cases member
    | cons node rest =>
      have low := (data node List.mem_cons_self).1
      have same := link.1
      omega
  unfold freeClusterChain
  rw [if_neg start]
  obtain ⟨middle, volume, run⟩ := freeFrom_to geometry fit link data distinct (chain_length_le data distinct)
  rcases run with ⟨_, mark, _⟩ | ⟨_, run⟩
  · exact absurd mark (by decide)
  · exact (freeFrom_one (geometry.of_volume volume rfl) fit first _).of_run run

end Free

/-! ### Removing the file -/

/-- Removing the file of a slot changes its mark, and the entries of the data clusters its first cluster
leads to, which are free then. -/
structure RemovesOnly (layout : Fat12Layout) (volume volume' : Volume) (slot : Nat) : Prop where
  size : volume'.size = volume.size
  reserved : volume'.reserved = volume.reserved
  clusters : volume'.clusters = volume.clusters
  slots : volume'.slots = Function.update volume.slots slot (overlay (volume.slots slot) 0 [0xe5])
  changed : ∀ copy < layout.fatCount, ∀ cluster, volume'.table copy cluster ≠ volume.table copy cluster →
    volume.Owned layout (slotCluster (volume.slots slot)) cluster ∧ volume'.table copy cluster = 0
  freed : ∀ copy < layout.fatCount, ∀ cluster,
    volume.Owned layout (slotCluster (volume.slots slot)) cluster → volume'.table copy cluster = 0

section Remove

variable {layout : Fat12Layout} {image : Image} {name : DosName} {slot : Nat}

/-- The file that is found is freed, and its slot is marked. -/
theorem removeFile_found (parsed : parseLayout image = .ok layout)
    (found : findRootEntry image layout name = .ok (some slot)) :
    slot < layout.rootEntries ∧ (removeFile name).run image
      = (do freeClusterChain layout (slotCluster ((volumeOf layout image).slots slot))
            setByte (layout.slotOffset slot) 0xe5
            pure true : Effect Image Bool).run image := by
  have geometry := parseLayout_geometry parsed
  have inside : slot < layout.rootEntries := by
    rw [findRootEntry_eq geometry] at found
    exact (Volume.find_eq_some (Except.ok.inj found)).1
  refine ⟨inside, ?_⟩
  unfold removeFile
  rw [Effect.query_bind parseLayout parsed,
    Effect.query_bind (fun image => findRootEntry image layout name) found]
  show (EStateM.run (Effect.query (fun image => u16At image (layout.slotOffset slot + 26)) >>= _) image) = _
  rw [Effect.query_bind (fun image => u16At image (layout.slotOffset slot + 26))
    (slotCluster_eq geometry inside)]

/-- The mark of a removed file. -/
theorem volumeOf_mark (geometry : layout.Geometry image.size) (inside : slot < layout.rootEntries) :
    (setByte (layout.slotOffset slot) 0xe5).run image = .ok () (image.write (layout.slotOffset slot) [0xe5]) ∧
      volumeOf layout (image.write (layout.slotOffset slot) [0xe5])
        = (volumeOf layout image).setSlot slot (overlay ((volumeOf layout image).slots slot) 0 [0xe5]) := by
  have bounds := geometry.slot_end inside
  have dataEnd := geometry.dataOffset_le
  have marked : volumeOf layout (image.write (layout.slotOffset slot + 0) [0xe5]) = _ :=
    volumeOf_write_slot geometry inside (by simp)
  exact ⟨(setByte_eq_ok _ _ _ _ _).mpr ⟨by omega, rfl⟩, marked⟩

/-- When no entry 1 is lost, the removal succeeds and changes what belongs to the file. -/
theorem removeFile_owned (parsed : parseLayout image = .ok layout) (fit : layout.EntriesFit)
    (found : findRootEntry image layout name = .ok (some slot))
    (kept : LeadsToFirst layout (volumeOf layout image) (slotCluster ((volumeOf layout image).slots slot)) →
      ∀ copy < layout.fatCount, (volumeOf layout image).table copy 1 = 0) :
    ∃ image', (removeFile name).run image = .ok true image' ∧
      RemovesOnly layout (volumeOf layout image) (volumeOf layout image') slot := by
  have geometry := parseLayout_geometry parsed
  obtain ⟨inside, run⟩ := removeFile_found parsed found
  obtain ⟨middle, cleared, freed, volume, owned, own⟩ := freeClusterChain_owned geometry fit kept
  obtain ⟨marked, volume'⟩ := volumeOf_mark (geometry.of_volume volume rfl) inside
  have whole : volumeOf layout (middle.write (layout.slotOffset slot) [0xe5])
      = ((volumeOf layout image).mapFats layout (setTwelves (allTo 0 cleared))).setSlot slot
        (overlay ((volumeOf layout image).slots slot) 0 [0xe5]) := by
    rw [volume', volume]
    rfl
  have table : ∀ copy < layout.fatCount, (volumeOf layout (middle.write (layout.slotOffset slot) [0xe5])).table copy
      = updateAll (allTo 0 cleared) ((volumeOf layout image).table copy) := by
    intro copy known
    rw [whole]
    exact Volume.mapFats_cleared known cleared
  refine ⟨_, ?_, by rw [whole]; rfl, by rw [whole]; rfl, by rw [whole]; rfl, by rw [whole]; rfl,
    fun copy known cluster changed => ?_, fun copy known cluster isOwned => ?_⟩
  · rw [run, EStateM.run_bind, freed]
    show EStateM.run (setByte (layout.slotOffset slot) 0xe5 >>= _) middle = _
    rw [EStateM.run_bind, marked]
    rfl
  · rw [table copy known] at changed ⊢
    by_cases member : cluster ∈ cleared
    · rw [updateAll_allTo member] at changed ⊢
      exact ⟨(own cluster member).resolve_right fun free => changed (free copy known).symm, rfl⟩
    · rw [updateAll_of_not_mem (by rwa [allTo_map_fst])] at changed
      exact absurd rfl changed
  · rw [table copy known]
    exact updateAll_allTo (owned cluster isOwned)

/-- A chain that leads to the cluster 1 frees the entries 1 of all copies. -/
theorem removeFile_first (parsed : parseLayout image = .ok layout) (fit : layout.EntriesFit)
    (found : findRootEntry image layout name = .ok (some slot))
    (leads : LeadsToFirst layout (volumeOf layout image) (slotCluster ((volumeOf layout image).slots slot))) :
    FirstFree layout ((removeFile name).after image) := by
  have geometry := parseLayout_geometry parsed
  obtain ⟨inside, run⟩ := removeFile_found parsed found
  have frees := freeClusterChain_first geometry fit leads
  refine SafeAt.after ((frees.bind fun _ middle _ free => ?_).of_run run)
  obtain ⟨marked, volume⟩ := volumeOf_mark free.1 inside
  have kept : FirstFree layout (middle.write (layout.slotOffset slot) [0xe5]) := by
    refine ⟨free.1.of_volume volume rfl, fun copy known => ?_⟩
    rw [volume]
    exact free.2 copy known
  exact (SafeAt.of_ok marked kept).bind fun _ _ _ kept => safeAt_pure true kept

/-- **Removing a file changes what belongs to it and nothing else**, exactly when the entries 1 are free or
no data cluster of its chain has the link 1. A name that is not there leaves the image. -/
theorem removeFile_only_iff (parsed : parseLayout image = .ok layout) (fit : layout.EntriesFit)
    (name : DosName) :
    (∀ last, (removeFile name).run image ≠ .error .panic last) ∧
      (findRootEntry image layout name = .ok none → (removeFile name).run image = .ok false image) ∧
      ∀ slot, findRootEntry image layout name = .ok (some slot) →
        (RemovesOnly layout (volumeOf layout image) (volumeOf layout ((removeFile name).after image)) slot ↔
          (LeadsToFirst layout (volumeOf layout image) (slotCluster ((volumeOf layout image).slots slot)) →
            ∀ copy < layout.fatCount, (volumeOf layout image).table copy 1 = 0)) := by
  have geometry := parseLayout_geometry parsed
  refine ⟨?_, fun missing => ?_, fun slot found => ⟨fun only leads copy known => ?_, fun kept => ?_⟩⟩
  · have safe : SafeAt (Frame (fun _ => True) image) (removeFile name) image :=
      removeFile_safe parsed (fun _ _ _ _ _ _ _ => trivial) (fun _ _ _ _ => trivial) name
    exact safe.calm
  · rw [findRootEntry_eq geometry] at missing
    exact removeFile_absent parsed (Except.ok.inj missing)
  · by_contra taken
    have free := (removeFile_first parsed fit found leads).2 copy known
    have changed := only.changed copy known 1 fun same => taken (same.symm.trans free)
    exact absurd changed.1.1.1 (by decide)
  · obtain ⟨image', run, only⟩ := removeFile_owned parsed fit found kept
    rwa [after_of_ok run]

end Remove

set_option maxRecDepth 20000 in
theorem removeFile_only_sample :
    RemovesOnly sampleLayout (volumeOf sampleLayout fileImage)
      (volumeOf sampleLayout ((removeFile sampleName).after fileImage)) 0 := by
  obtain ⟨_, _, only⟩ := removeFile_only_iff fileImage_consistent.1.parsed fileImage_consistent.1.fit sampleName
  refine (only 0 (by decide)).mpr fun _ => ?_
  decide

/-- The sample image with end marks in the entries 1 and a file whose cluster has the link 1. -/
def linkedImage : Image :=
  ((fileImage.setTwelve (sampleLayout.fatOffset 0) 1 0xfff).setTwelve (sampleLayout.fatOffset 1) 1 0xfff).setTwelve
    (sampleLayout.fatOffset 0) 2 1

set_option maxRecDepth 20000 in
/-- **The entries of the cluster 1 are lost** with a file whose cluster has the link 1. -/
theorem removeFile_one : parseLayout linkedImage = .ok sampleLayout ∧ sampleLayout.EntriesFit ∧
    findRootEntry linkedImage sampleLayout sampleName = .ok (some 0) ∧
    (∀ copy < 2, (volumeOf sampleLayout linkedImage).table copy 1 = 0xfff ∧
      (volumeOf sampleLayout ((removeFile sampleName).after linkedImage)).table copy 1 = 0) ∧
    ¬ RemovesOnly sampleLayout (volumeOf sampleLayout linkedImage)
      (volumeOf sampleLayout ((removeFile sampleName).after linkedImage)) 0 := by
  have lost : ∀ copy < 2, (volumeOf sampleLayout linkedImage).table copy 1 = 0xfff ∧
      (volumeOf sampleLayout ((removeFile sampleName).after linkedImage)).table copy 1 = 0 := by
    decide
  refine ⟨by decide, by decide, by decide, lost, fun only => ?_⟩
  obtain ⟨before, after⟩ := lost 0 (by decide)
  have changed := only.changed 0 (by decide) 1 (by rw [before, after]; decide)
  exact absurd changed.1.1.1 (by decide)

end Bootsmith.Floppy
