/-
**Files of a FAT12 image** (`ntxp_floppy.rs`).

`addFile` allocates clusters, writes the contents into them and an entry into a free slot; `removeFile`
frees the chain of an entry and marks its slot; `replaceFile` does one after the other; `readFile`
follows the chain of an entry. Each is described here by what it does to the volume of the image
(`addFile_volume`, `removeFile_present`, `readFile_present`).
-/

import Bootsmith.Floppy.Root
import Bootsmith.Floppy.Table

namespace Bootsmith.Floppy

open Bootsmith.Library

/-! ### The functions -/

def clusterOffset (layout : Fat12Layout) (cluster : Nat) : Fallible Nat :=
  if cluster < 2 ∨ layout.clusterCount + 2 ≤ cluster then
    Fallible.bail s!"FAT12 cluster {cluster} is outside the data area"
  else .ok (layout.dataOffset + (cluster - 2) * layout.clusterSize)

def writeFileData (layout : Fat12Layout) (contents : Bytes) : Nat → List Nat → Effect Image Unit
  | _, [] => pure ()
  | written, cluster :: rest => do
    let offset ← Effect.lift (clusterOffset layout cluster)
    fillRange offset layout.clusterSize 0
    let remaining := contents.length - written
    let n := min remaining layout.clusterSize
    copyInto offset ((contents.drop written).take n)
    writeFileData layout contents (written + n) rest

/-- The first of the allocated clusters. -/
def firstOf : List Nat → Fallible Nat
  | [] => .error .panic
  | cluster :: _ => .ok cluster

def addFile (dosName : DosName) (contents : Bytes) : Effect Image Unit :=
  if contents = [] then Effect.bail "file contents are empty"
  else do
    let layout ← Effect.query parseLayout
    let existing ← Effect.query fun image => findRootEntry image layout dosName
    if existing.isSome then
      Effect.bail s!"floppy image already contains {formatDosName dosName}"
    else do
      let rootSlot ← Effect.query fun image => do
        let found ← findFreeRootSlot image layout
        Fallible.okOr "floppy root directory has no free entries" found
      let neededClusters := max (layout.clustersFor contents.length) 1
      let clusters ← Effect.context s!"allocate FAT12 clusters for {formatDosName dosName}"
        (allocateClusters layout neededClusters)
      writeFileData layout contents 0 clusters
      let first ← Effect.lift (firstOf clusters)
      writeRootEntry layout rootSlot dosName first contents.length

def addWinntSif (contents : Bytes) : Effect Image Unit := addFile winntSifDosName contents

/-- The loop that follows the chain of a file. -/
def readChain (image : Image) (layout : Fat12Layout) (fileSize : Nat) :
    Nat → Nat → Bytes → Fallible Bytes
  | budget, cluster, out =>
    if cluster < layout.clusterCount + 2 then do
      let offset ← clusterOffset layout cluster
      let take := min (fileSize - out.length) layout.clusterSize
      let part ← rangeAt image offset take
      let out := out ++ part
      if out.length = fileSize then pure out
      else do
        let next ← readFat12 image layout cluster
        if next = 0 ∨ fat12Eoc - 8 ≤ next then pure out
        else
          match budget with
          | 0 => Fallible.bail "FAT12 cluster chain loop detected reading file"
          | budget + 1 => readChain image layout fileSize budget next out
    else pure out

def readFile (image : Image) (dosName : DosName) : Fallible (Option Bytes) := do
  let layout ← parseLayout image
  let found ← findRootEntry image layout dosName
  match found with
  | none => pure none
  | some slot => do
    let entryOffset := layout.slotOffset slot
    let firstCluster ← u16At image (entryOffset + 26)
    let fileSize ← u32At image (entryOffset + 28)
    if fileSize = 0 then pure (some [])
    else do
      let out ← readChain image layout fileSize layout.clusterCount firstCluster []
      pure (some out)

def removeFile (dosName : DosName) : Effect Image Bool := do
  let layout ← Effect.query parseLayout
  let found ← Effect.query fun image => findRootEntry image layout dosName
  match found with
  | none => pure false
  | some slot => do
    let entryOffset := layout.slotOffset slot
    let firstCluster ← Effect.query fun image => u16At image (entryOffset + 26)
    freeClusterChain layout firstCluster
    setByte entryOffset 0xe5
    pure true

def replaceFile (dosName : DosName) (contents : Bytes) : Effect Image Unit := do
  let _ ← removeFile dosName
  addFile dosName contents

/-! ### The clusters of a size -/

section Sizes

variable {layout : Fat12Layout} (positive : 0 < layout.clusterSize)

include positive

/-- The clusters of a size hold it, and one cluster less does not. -/
theorem clustersFor_spec (length : Nat) : length ≤ layout.clustersFor length * layout.clusterSize ∧
    layout.clustersFor length * layout.clusterSize < length + layout.clusterSize :=
  ⟨le_alignUp length positive, alignUp_lt length positive⟩

theorem clustersFor_eq_zero {length : Nat} : layout.clustersFor length = 0 ↔ length = 0 := by
  obtain ⟨low, high⟩ := clustersFor_spec positive length
  constructor
  · intro none
    rw [none] at low
    omega
  · rintro rfl
    by_contra some
    have one := Nat.mul_le_mul_right layout.clusterSize (Nat.pos_of_ne_zero some)
    omega

end Sizes

/-! ### The bytes of a file in a volume -/

namespace Volume

/-- Put contents into clusters, from the byte `written` on; the rest of the last one is zero. -/
def store (layout : Fat12Layout) (contents : Bytes) : Nat → List Nat → Volume → Volume
  | _, [], volume => volume
  | written, cluster :: rest, volume =>
    let n := min (contents.length - written) layout.clusterSize
    store layout contents (written + n) rest
      (volume.setCluster cluster
        (overlay (List.replicate layout.clusterSize 0) 0 ((contents.drop written).take n)))

/-- The bytes of a chain of clusters. -/
def fileBytes (volume : Volume) (chain : List Nat) (size : Nat) : Bytes :=
  (chain.flatMap volume.clusters).take size

variable {layout : Fat12Layout} {contents : Bytes} {written : Nat} {chain : List Nat} {volume : Volume}

/-- Storing contents changes the clusters only. -/
theorem store_frame : (volume.store layout contents written chain).size = volume.size ∧
    (volume.store layout contents written chain).reserved = volume.reserved ∧
    (volume.store layout contents written chain).fats = volume.fats ∧
    (volume.store layout contents written chain).slots = volume.slots := by
  induction chain generalizing volume written with
  | nil => exact ⟨rfl, rfl, rfl, rfl⟩
  | cons cluster rest ih => exact ih

theorem store_clusters_of_not_mem {cluster : Nat} (outside : cluster ∉ chain) :
    (volume.store layout contents written chain).clusters cluster = volume.clusters cluster := by
  induction chain generalizing volume written with
  | nil => rfl
  | cons other rest ih =>
    rw [store, ih (List.not_mem_of_not_mem_cons outside)]
    exact Function.update_of_ne (List.ne_of_not_mem_cons outside) _ _

/-- **The contents that were stored** are the bytes of the clusters. -/
theorem fileBytes_store (distinct : chain.Nodup)
    (fits : contents.length - written ≤ chain.length * layout.clusterSize) :
    (volume.store layout contents written chain).fileBytes chain (contents.length - written)
      = contents.drop written := by
  induction chain generalizing volume written with
  | nil =>
    rw [List.length_nil, Nat.zero_mul] at fits
    rw [List.drop_of_length_le (by omega)]
    exact List.take_nil
  | cons cluster rest ih =>
    obtain ⟨notRest, distinct⟩ := List.nodup_cons.mp distinct
    rw [List.length_cons, Nat.add_mul, Nat.one_mul] at fits
    rw [store, fileBytes, List.flatMap_cons, store_clusters_of_not_mem notRest,
      setCluster_clusters_self]
    rcases Nat.le_total (contents.length - written) layout.clusterSize with last | more
    · -- the last cluster takes all that remains
      have all : (contents.drop written).take (contents.length - written) = contents.drop written :=
        List.take_of_length_le (List.length_drop ▸ le_rfl)
      rw [Nat.min_eq_left last, all, overlay_zero, List.append_assoc,
        List.take_append_of_le_length (List.length_drop ▸ le_rfl),
        List.take_of_length_le (List.length_drop ▸ le_rfl)]
    · have chunk : ((contents.drop written).take layout.clusterSize).length = layout.clusterSize := by
        rw [List.length_take, List.length_drop]
        omega
      have others := fun after : Volume => @ih (written + layout.clusterSize) after distinct (by omega)
      simp only [fileBytes, ← Nat.sub_sub] at others
      rw [Nat.min_eq_right more, overlay_all (by rw [chunk, List.length_replicate]), List.take_append,
        chunk, List.take_of_length_le (chunk.le.trans more), others, ← List.drop_drop,
        List.take_append_drop]

end Volume

/-! ### What the calls do to the volume -/

/-- The slot owns the chain: as many distinct data clusters as its size takes, from its first one to an
end mark. -/
structure Owns (layout : Fat12Layout) (table : Nat → Nat) (slot : Bytes) (chain : List Nat) : Prop where
  length : chain.length = layout.clustersFor (slotSize slot)
  data : ∀ cluster ∈ chain, layout.IsData cluster
  distinct : chain.Nodup
  follows : ChainOf table (slotCluster slot) chain

/-- What adding a file relies on: its slot, its clusters and the first of them. -/
structure Volume.Adds (layout : Fat12Layout) (volume : Volume) (name : DosName) (contents : Bytes)
    (slot : Nat) (chain : List Nat) (first : Nat) : Prop where
  nonempty : contents ≠ []
  sizeFits : contents.length < 2 ^ 32
  absent : volume.find layout name = none
  freeSlot : volume.freeSlot layout = some slot
  taken : chain = (volume.freeList layout).take (layout.clustersFor contents.length)
  length : chain.length = layout.clustersFor contents.length
  head : chain.head? = some first

/-- The volume with a file added. -/
def Volume.added (layout : Fat12Layout) (volume : Volume) (name : DosName) (contents : Bytes)
    (slot : Nat) (chain : List Nat) (first : Nat) : Volume :=
  ((volume.mapFats layout (setTwelves (linksOf fat12Eoc chain))).store layout contents 0 chain).setSlot
    slot (rootEntryBytes name first contents.length)

/-- The volume with the file of a slot removed. -/
def Volume.removed (layout : Fat12Layout) (volume : Volume) (slot : Nat) (chain : List Nat) : Volume :=
  (volume.mapFats layout (setTwelves (allTo 0 chain))).setSlot slot
    (overlay (volume.slots slot) 0 [0xe5])

section Calls

variable {layout : Fat12Layout} {image image' : Image} {name : DosName} {contents : Bytes}
  {slot : Nat} {chain : List Nat}

theorem clusterOffset_eq {cluster : Nat} (data : layout.IsData cluster) :
    clusterOffset layout cluster = .ok (layout.clusterStart cluster) := by
  obtain ⟨low, high⟩ := data
  exact if_neg (by omega)

/-- **Writing the data** stores the contents. -/
theorem writeFileData_volume {written : Nat} {value : Unit} (geometry : layout.Geometry image.size)
    (data : ∀ cluster ∈ chain, layout.IsData cluster)
    (run : (writeFileData layout contents written chain).run image = .ok value image') :
    volumeOf layout image' = (volumeOf layout image).store layout contents written chain := by
  induction chain generalizing image written with
  | nil =>
    obtain ⟨_, rfl⟩ := (Effect.pure_eq_ok _ _ _ _).mp run
    rfl
  | cons cluster rest ih =>
    have here := data cluster List.mem_cons_self
    obtain ⟨offset, found, run⟩ := (Effect.lift_bind_eq_ok _ _ _ _ _).mp run
    obtain rfl := Except.ok.inj ((clusterOffset_eq here).symm.trans found)
    obtain ⟨_, _, filled, run⟩ := (Effect.bind_eq_ok _ _ _ _ _).mp run
    obtain ⟨_, rfl⟩ := (fillRange_eq_ok _ _ _ _ _ _).mp filled
    obtain ⟨_, _, copied, run⟩ := (Effect.bind_eq_ok _ _ _ _ _).mp run
    obtain ⟨_, rfl⟩ := (copyInto_eq_ok _ _ _ _ _).mp copied
    have short : 0 + ((contents.drop written).take
        (min (contents.length - written) layout.clusterSize)).length
        ≤ (List.replicate layout.clusterSize (0 : UInt8)).length := by
      rw [List.length_take, List.length_replicate]
      omega
    have one := Image.write_write_inside image (layout.clusterStart cluster) short
    rw [Nat.add_zero] at one
    rw [one] at run
    have wrote := volumeOf_write_cluster geometry here
      ((overlay_length short).trans (List.length_replicate ..))
    rw [ih (geometry.of_volume wrote rfl) (fun other member => data other (List.mem_cons_of_mem _ member))
      run, wrote]
    rfl

/-- **An added file**: its clusters are the first free ones, its entry is in the first free slot. -/
theorem addFile_volume {value : Unit} (parsed : parseLayout image = .ok layout) (fit : layout.EntriesFit)
    (run : (addFile name contents).run image = .ok value image') :
    ∃ slot chain first, (volumeOf layout image).Adds layout name contents slot chain first ∧
      volumeOf layout image' = (volumeOf layout image).added layout name contents slot chain first := by
  have geometry := parseLayout_geometry parsed
  unfold addFile at run
  split at run
  · simp at run
  rename_i nonempty
  rw [Effect.query_bind parseLayout parsed, Effect.query_bind
    (fun image => findRootEntry image layout name) (findRootEntry_eq geometry name)] at run
  split at run
  · simp at run
  rename_i absent
  obtain ⟨slot, _, asked, run⟩ := (Effect.bind_eq_ok _ _ _ _ _).mp run
  obtain ⟨answer, rfl⟩ := (Effect.query_eq_ok _ _ _ _).mp asked
  rw [findFreeRootSlot_eq geometry] at answer
  have freeSlot : (volumeOf layout image).freeSlot layout = some slot :=
    (Fallible.okOr_eq_ok _ _ _).mp answer
  have some : 0 < layout.clustersFor contents.length := by
    rw [Nat.pos_iff_ne_zero, Ne, clustersFor_eq_zero geometry.cluster]
    exact List.length_pos_of_ne_nil nonempty |>.ne'
  rw [Nat.max_eq_left some] at run
  obtain ⟨chain, linked, allocated, run⟩ := (Effect.bind_eq_ok _ _ _ _ _).mp run
  rw [Effect.context_eq_ok] at allocated
  obtain ⟨taken, long, links⟩ := allocateClusters_run geometry fit some allocated
  have data : ∀ cluster ∈ chain, layout.IsData cluster := by
    intro cluster member
    rw [taken] at member
    have inside := List.mem_of_mem_filter (List.mem_of_mem_take member)
    rw [List.mem_range'_1] at inside
    exact ⟨inside.1, by omega⟩
  obtain ⟨_, stored, wrote, run⟩ := (Effect.bind_eq_ok _ _ _ _ _).mp run
  have linkedGeometry := geometry.of_volume links rfl
  have stores := writeFileData_volume linkedGeometry data wrote
  obtain ⟨first, head, run⟩ := (Effect.lift_bind_eq_ok _ _ _ _ _).mp run
  have storedGeometry := linkedGeometry.of_volume stores Volume.store_frame.1
  obtain ⟨fits, entry⟩ := writeRootEntry_volume storedGeometry (Volume.freeSlot_eq_some freeSlot).1 run
  refine ⟨slot, chain, first, ⟨nonempty, fits, by simpa using absent, freeSlot, taken, long, ?_⟩, ?_⟩
  · cases chain with
    | nil => cases head
    | cons cluster rest => exact congrArg Option.some (Except.ok.inj head)
  · rw [entry, stores, links, Volume.added]

/-- **Removing a file that is there** frees its chain and marks its slot. -/
theorem removeFile_present (parsed : parseLayout image = .ok layout) (fit : layout.EntriesFit)
    (found : (volumeOf layout image).find layout name = some slot)
    (owns : Owns layout ((volumeOf layout image).table 0) ((volumeOf layout image).slots slot) chain) :
    ∃ image', (removeFile name).run image = .ok true image' ∧
      volumeOf layout image' = (volumeOf layout image).removed layout slot chain := by
  have geometry := parseLayout_geometry parsed
  obtain ⟨inside, _⟩ := Volume.find_eq_some found
  obtain ⟨freed, frees, volume⟩ := freeClusterChain_run geometry fit owns.data owns.distinct owns.follows
  have freedGeometry := geometry.of_volume volume rfl
  have bounds := freedGeometry.slot_end inside
  have dataEnd := freedGeometry.dataOffset_le
  have marked : volumeOf layout (freed.write (layout.slotOffset slot + 0) [0xe5]) = _ :=
    volumeOf_write_slot freedGeometry inside (by simp)
  rw [Nat.add_zero, volume] at marked
  have answer : findRootEntry image layout name = .ok (some slot) := by
    rw [findRootEntry_eq geometry, found]
  refine ⟨_, ?_, marked⟩
  unfold removeFile
  rw [Effect.query_bind parseLayout parsed,
    Effect.query_bind (fun image => findRootEntry image layout name) answer]
  show (EStateM.run (Effect.query (fun image => u16At image (layout.slotOffset slot + 26)) >>= _) image) = _
  rw [Effect.query_bind (fun image => u16At image (layout.slotOffset slot + 26))
    (slotCluster_eq geometry inside)]
  refine (Effect.bind_eq_ok _ _ _ _ _).mpr ⟨(), freed, frees, ?_⟩
  exact (Effect.bind_eq_ok _ _ _ _ _).mpr ⟨(), _, (setByte_eq_ok _ _ _ _ _).mpr ⟨by omega, rfl⟩,
    (Effect.pure_eq_ok _ _ _ _).mpr ⟨rfl, rfl⟩⟩

/-- Removing a file that is not there does nothing. -/
theorem removeFile_absent (parsed : parseLayout image = .ok layout)
    (missing : (volumeOf layout image).find layout name = none) :
    (removeFile name).run image = .ok false image := by
  have geometry := parseLayout_geometry parsed
  have answer : findRootEntry image layout name = .ok none := by
    rw [findRootEntry_eq geometry, missing]
  unfold removeFile
  rw [Effect.query_bind parseLayout parsed,
    Effect.query_bind (fun image => findRootEntry image layout name) answer]
  rfl

/-! ### Reading a file -/

/-- One turn of the loop. -/
theorem readChain_step (geometry : layout.Geometry image.size) (fit : layout.EntriesFit)
    {cluster : Nat} (here : layout.IsData cluster) (fileSize budget : Nat) (out : Bytes) :
    readChain image layout fileSize budget cluster out
      = if (out ++ ((volumeOf layout image).clusters cluster).take (fileSize - out.length)).length
            = fileSize then
          .ok (out ++ ((volumeOf layout image).clusters cluster).take (fileSize - out.length))
        else if (volumeOf layout image).table 0 cluster = 0 ∨
            fat12Eoc - 8 ≤ (volumeOf layout image).table 0 cluster then
          .ok (out ++ ((volumeOf layout image).clusters cluster).take (fileSize - out.length))
        else
          match budget with
          | 0 => Fallible.bail "FAT12 cluster chain loop detected reading file"
          | budget + 1 => readChain image layout fileSize budget
              ((volumeOf layout image).table 0 cluster)
              (out ++ ((volumeOf layout image).clusters cluster).take (fileSize - out.length)) := by
  have bounds := geometry.cluster_end here
  have part : ((volumeOf layout image).clusters cluster).take (fileSize - out.length)
      = image.slice (layout.clusterStart cluster) (min (fileSize - out.length) layout.clusterSize) := by
    rw [volumeOf_cluster here]
    rcases Nat.le_total (fileSize - out.length) layout.clusterSize with short | long
    · rw [Nat.min_eq_left short, Image.slice_take _ _ _ _ short]
    · rw [Nat.min_eq_right long, List.take_of_length_le (by rwa [Image.slice_length])]
  rw [part]
  conv_lhs => unfold readChain
  rw [if_pos here.2, clusterOffset_eq here]
  show (rangeAt image (layout.clusterStart cluster) _ >>= _) = _
  rw [rangeAt_of_le (by omega)]
  show (if _ then _ else _) = _
  split
  · rfl
  · rw [readFat12_eq geometry fit here.2]
    rfl

/-- **The loop reads the chain** it starts in. -/
theorem readChain_eq (geometry : layout.Geometry image.size) (fit : layout.EntriesFit)
    {fileSize budget cluster : Nat} {rest : List Nat} {out : Bytes}
    (follows : Follows ((volumeOf layout image).table 0) EndOfChain cluster (cluster :: rest))
    (data : ∀ other ∈ cluster :: rest, layout.IsData other) (short : rest.length ≤ budget)
    (enough : fileSize ≤ out.length + (rest.length + 1) * layout.clusterSize)
    (needed : out.length + rest.length * layout.clusterSize < fileSize) :
    readChain image layout fileSize budget cluster out
      = .ok (out ++ (volumeOf layout image).fileBytes (cluster :: rest) (fileSize - out.length)) := by
  have here := data cluster List.mem_cons_self
  have long : ((volumeOf layout image).clusters cluster).length = layout.clusterSize := by
    rw [volumeOf_cluster here, Image.slice_length]
  induction rest generalizing budget cluster out with
  | nil =>
    rw [List.length_nil, Nat.zero_add, Nat.one_mul] at enough
    rw [List.length_nil, Nat.zero_mul] at needed
    rw [readChain_step geometry fit here, Volume.fileBytes, List.flatMap_cons, List.flatMap_nil,
      List.append_nil, if_pos]
    rw [List.length_append, List.length_take, long]
    omega
  | cons next rest ih =>
    obtain ⟨_, linked, follows⟩ := follows
    have nextData := data next (List.mem_cons_of_mem _ List.mem_cons_self)
    have nextLong : ((volumeOf layout image).clusters next).length = layout.clusterSize := by
      rw [volumeOf_cluster nextData, Image.slice_length]
    obtain ⟨budget, rfl⟩ : ∃ less, budget = less + 1 :=
      Nat.exists_eq_succ_of_ne_zero (by rw [List.length_cons] at short; omega)
    rw [List.length_cons, Nat.add_mul, Nat.one_mul] at enough needed
    rw [Nat.add_mul, Nat.one_mul] at enough
    have whole : ((volumeOf layout image).clusters cluster).take (fileSize - out.length)
        = (volumeOf layout image).clusters cluster := List.take_of_length_le (by omega)
    have more := geometry.not_mark nextData
    have out' : (out ++ (volumeOf layout image).clusters cluster).length
        = out.length + layout.clusterSize := by
      rw [List.length_append, long]
    have unread : ¬ (out ++ (volumeOf layout image).clusters cluster).length = fileSize := by
      omega
    rw [readChain_step geometry fit here, whole, linked, if_neg unread, if_neg more]
    show readChain image layout fileSize budget next _ = _
    rw [ih ⟨rfl, follows⟩ (fun other member => data other (List.mem_cons_of_mem _ member))
      (Nat.le_of_succ_le_succ short) (by rw [out', Nat.add_mul, Nat.one_mul]; omega)
      (by rw [out']; omega) nextData nextLong, List.append_assoc, out']
    conv_rhs => rw [Volume.fileBytes, List.flatMap_cons, List.take_append, whole, long, Nat.sub_sub]
    rfl

/-- **Reading a file** gives the bytes of its chain. -/
theorem readFile_present (parsed : parseLayout image = .ok layout) (fit : layout.EntriesFit)
    (found : (volumeOf layout image).find layout name = some slot)
    (owns : Owns layout ((volumeOf layout image).table 0) ((volumeOf layout image).slots slot) chain) :
    readFile image name = .ok (some ((volumeOf layout image).fileBytes chain
      (slotSize ((volumeOf layout image).slots slot)))) := by
  have geometry := parseLayout_geometry parsed
  obtain ⟨inside, _⟩ := Volume.find_eq_some found
  have answer : findRootEntry image layout name = .ok (some slot) := by
    rw [findRootEntry_eq geometry, found]
  have length := owns.length
  have counted := clustersFor_spec geometry.cluster (slotSize ((volumeOf layout image).slots slot))
  unfold readFile
  rw [parsed]
  show (findRootEntry image layout name >>= _) = _
  rw [answer]
  show (u16At image (layout.slotOffset slot + 26) >>= _) = _
  rw [slotCluster_eq geometry inside]
  show (u32At image (layout.slotOffset slot + 28) >>= _) = _
  rw [slotSize_eq geometry inside]
  show (if _ then _ else _) = _
  have follows := owns.follows
  cases chain with
  | nil =>
    rw [if_pos ((clustersFor_eq_zero geometry.cluster).mp length.symm), Volume.fileBytes,
      List.flatMap_nil, List.take_nil]
    rfl
  | cons first rest =>
    obtain ⟨first, link⟩ : Follows _ _ _ (first :: rest) := follows
    rw [List.length_cons] at length
    rw [← length] at counted
    have positive : ¬ slotSize ((volumeOf layout image).slots slot) = 0 := by
      rw [← clustersFor_eq_zero geometry.cluster]
      omega
    have bound := chain_length_le owns.data owns.distinct
    have all : readChain image layout (slotSize ((volumeOf layout image).slots slot)) layout.clusterCount
        _ [] = _ :=
      readChain_eq geometry fit ⟨rfl, link⟩ owns.data (Nat.le_of_succ_le bound)
        (by rw [List.length_nil, Nat.zero_add]; exact counted.1)
        (by rw [List.length_nil, Nat.zero_add]; rw [Nat.add_mul] at counted; omega)
    rw [if_neg positive, first, all]
    rfl

/-- A name that is not found reads as absent. -/
theorem readFile_absent (parsed : parseLayout image = .ok layout)
    (missing : (volumeOf layout image).find layout name = none) : readFile image name = .ok none := by
  have geometry := parseLayout_geometry parsed
  unfold readFile
  rw [parsed]
  show (findRootEntry image layout name >>= _) = _
  rw [findRootEntry_eq geometry, missing]
  rfl

end Calls

end Bootsmith.Floppy
