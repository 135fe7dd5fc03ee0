/-
**The structures of an image, and what the calls touch** (`ntxp_floppy.rs`).

`parseLayout` does not compare the length of a table with the number of clusters, and it starts the data
area right behind the last root entry while it counts the sectors of the root directory rounded up.

* `addFile_safe`, `removeFile_safe`, `readFile_calm`: on an accepted image no call panics, and a call
  changes only bytes of entries, slots and clusters;
* `separated_iff`: the structures are apart and at the places of the format exactly when every entry lies
  in its table and the root directory fills its sectors.
-/

import Bootsmith.Floppy.Replace
import Bootsmith.Library.Frame

namespace Bootsmith.Floppy

open Bootsmith.Library Effect

/-! ### The spans -/

namespace Fat12Layout

variable (layout : Fat12Layout)

/-- A copy of the table. -/
def fatSpan (copy : Nat) : Span := ⟨layout.fatOffset copy, layout.fatLen⟩

/-- The bytes that hold the entry of a cluster in a copy. -/
def entrySpan (copy cluster : Nat) : Span := ⟨layout.fatOffset copy + cluster * 3 / 2, 2⟩

/-- The root directory. -/
def rootSpan : Span := ⟨layout.rootDirOffset, layout.rootEntries * 32⟩

def slotSpan (slot : Nat) : Span := ⟨layout.slotOffset slot, 32⟩

def clusterSpan (cluster : Nat) : Span := ⟨layout.clusterStart cluster, layout.clusterSize⟩

/-- The index is one of a table. -/
def InTables (index : Nat) : Prop := ∃ copy < layout.fatCount, (layout.fatSpan copy).Holds index

/-- The index is one of a cluster. -/
def InClusters (index : Nat) : Prop := ∃ cluster, layout.IsData cluster ∧ (layout.clusterSpan cluster).Holds index

/-- The region has the entries of all clusters. An image without clusters needs none. -/
def EntriesIn (region : Nat → Prop) : Prop :=
  0 < layout.clusterCount → ∀ copy < layout.fatCount, ∀ cluster < layout.clusterCount + 2,
    ∀ index, (layout.entrySpan copy cluster).Holds index → region index

def SlotsIn (region : Nat → Prop) : Prop :=
  ∀ slot < layout.rootEntries, ∀ index, (layout.slotSpan slot).Holds index → region index

def ClustersIn (region : Nat → Prop) : Prop :=
  ∀ cluster, layout.IsData cluster → ∀ index, (layout.clusterSpan cluster).Holds index → region index

variable {layout}

/-- With room for the entries each of them lies in its copy. -/
theorem entrySpan_within (fit : layout.EntriesFit) (copy : Nat) {cluster : Nat}
    (small : cluster < layout.clusterCount + 2) :
    (layout.entrySpan copy cluster).Within (layout.fatSpan copy) := by
  have within := fit.inside small
  simp only [Span.Within, Span.stop, entrySpan, fatSpan]
  omega

/-- A slot lies in the root directory. -/
theorem slotSpan_within {slot : Nat} (inside : slot < layout.rootEntries) :
    (layout.slotSpan slot).Within layout.rootSpan := by
  simp only [Span.Within, Span.stop, slotSpan, rootSpan, slotOffset]
  omega

end Fat12Layout

/-! ### Writes of one structure -/

section Writes

variable {layout : Fat12Layout} {image middle : Image} {region : Nat → Prop}

theorem readFat12_calm (image : Image) (layout : Fat12Layout) (cluster : Nat) :
    Fallible.NoPanic (readFat12 image layout cluster) := by
  unfold readFat12
  dsimp only
  split
  · exact Fallible.noPanic_bail _
  · split <;> exact Fallible.noPanic_ok _

/-- **A write of an entry** changes the bytes of the entry. An entry outside the image is an error. -/
theorem writeFat12One_safe (frame : Frame region image middle) {fatOffset cluster : Nat} (value : Nat)
    (inside : ∀ index, (⟨fatOffset + cluster * 3 / 2, 2⟩ : Span).Holds index → region index) :
    SafeAt (Frame region image) (writeFat12One fatOffset cluster value) middle := by
  have first : region (fatOffset + cluster * 3 / 2) := inside _ (by simp [Span.Holds, Span.stop])
  have second : region (fatOffset + cluster * 3 / 2 + 1) := inside _ (by simp [Span.Holds, Span.stop])
  unfold writeFat12One
  refine SafeAt.query_bind (Fallible.noPanic_ok _) frame fun size answer => ?_
  obtain rfl : middle.size = size := Except.ok.inj answer
  dsimp only
  split
  · exact safeAt_bail _ frame
  rename_i long
  have size := frame.size
  split
  · refine (setByte_safe frame _ (by omega) first).bind fun _ middle _ frame => ?_
    have size := frame.size
    refine SafeAt.query_bind (noPanic_byteAt (by omega)) frame fun old _ => ?_
    exact setByte_safe frame _ (by omega) second
  · refine SafeAt.query_bind (noPanic_byteAt (by omega)) frame fun old _ => ?_
    refine (setByte_safe frame _ (by omega) first).bind fun _ middle _ frame => ?_
    exact setByte_safe frame _ (by omega) second

theorem writeCopies_safe (frame : Frame region image middle) {cluster : Nat} (value : Nat)
    {copies : List Nat}
    (inside : ∀ copy ∈ copies, ∀ index, (layout.entrySpan copy cluster).Holds index → region index) :
    SafeAt (Frame region image) (writeCopies layout cluster value copies) middle := by
  induction copies generalizing middle with
  | nil => exact safeAt_pure () frame
  | cons copy rest ih =>
    refine (writeFat12One_safe frame value (inside copy List.mem_cons_self)).bind fun _ middle _ frame => ?_
    exact ih frame fun other member => inside other (List.mem_cons_of_mem _ member)

theorem writeFat12All_safe (frame : Frame region image middle) {cluster : Nat} (value : Nat)
    (inside : ∀ copy < layout.fatCount, ∀ index, (layout.entrySpan copy cluster).Holds index → region index) :
    SafeAt (Frame region image) (writeFat12All layout cluster value) middle :=
  writeCopies_safe frame value fun copy member => inside copy (List.mem_range.mp member)

theorem clusterOffset_calm (layout : Fat12Layout) (cluster : Nat) :
    Fallible.NoPanic (clusterOffset layout cluster) := by
  unfold clusterOffset
  split
  · exact Fallible.noPanic_bail _
  · exact Fallible.noPanic_ok _

/-- **Writing the data of a file** changes the bytes of its clusters. -/
theorem writeFileData_safe (geometry : layout.Geometry image.size) (frame : Frame region image middle)
    (contents : Bytes) (written : Nat) {clusters : List Nat} (data : ∀ cluster ∈ clusters, layout.IsData cluster)
    (inside : ∀ cluster ∈ clusters, ∀ index, (layout.clusterSpan cluster).Holds index → region index) :
    SafeAt (Frame region image) (writeFileData layout contents written clusters) middle := by
  induction clusters generalizing middle written with
  | nil => exact safeAt_pure () frame
  | cons cluster rest ih =>
    have here := data cluster List.mem_cons_self
    have bounds := geometry.cluster_end here
    refine SafeAt.query_bind (clusterOffset_calm layout cluster) frame fun offset answer => ?_
    obtain rfl : layout.clusterStart cluster = offset :=
      Except.ok.inj ((clusterOffset_eq here).symm.trans answer)
    have filled : SafeAt (Frame region image)
        (fillRange (layout.clusterStart cluster) layout.clusterSize 0) middle := by
      refine copyInto_safe frame (by rw [List.length_replicate]; exact bounds.2) fun index held => ?_
      rw [List.length_replicate] at held
      exact inside cluster List.mem_cons_self index held
    refine filled.bind fun _ middle _ frame => ?_
    have short : ((contents.drop written).take (min (contents.length - written) layout.clusterSize)).length
        ≤ layout.clusterSize := by
      rw [List.length_take]
      omega
    have copied : SafeAt (Frame region image) (copyInto (layout.clusterStart cluster)
        ((contents.drop written).take (min (contents.length - written) layout.clusterSize))) middle := by
      refine copyInto_safe frame (by omega) fun index held => inside cluster List.mem_cons_self index ?_
      simp only [Span.Holds, Span.stop, Fat12Layout.clusterSpan] at held ⊢
      omega
    refine copied.bind fun _ middle _ frame => ?_
    exact ih frame _ (fun other member => data other (List.mem_cons_of_mem _ member))
      fun other member => inside other (List.mem_cons_of_mem _ member)

/-- A copy into a slot. -/
theorem copyInto_slot_safe (geometry : layout.Geometry image.size) (frame : Frame region image middle)
    {slot : Nat} (known : slot < layout.rootEntries) (offset : Nat) {bytes : Bytes}
    (within : offset + bytes.length ≤ 32)
    (inside : ∀ index, (layout.slotSpan slot).Holds index → region index) :
    SafeAt (Frame region image) (copyInto (layout.slotOffset slot + offset) bytes) middle := by
  have bounds := geometry.slot_end known
  have dataEnd := geometry.dataOffset_le
  refine copyInto_safe frame (by omega) fun index held => inside index ?_
  simp only [Span.Holds, Span.stop, Fat12Layout.slotSpan] at held ⊢
  omega

/-- **Writing the entry of a file** changes the bytes of its slot. -/
theorem writeRootEntry_safe (geometry : layout.Geometry image.size) (frame : Frame region image middle)
    {slot : Nat} (known : slot < layout.rootEntries) (name : DosName) (first length : Nat)
    (inside : ∀ index, (layout.slotSpan slot).Holds index → region index) :
    SafeAt (Frame region image) (writeRootEntry layout slot name first length) middle := by
  have named := name.length
  have converted : Fallible.NoPanic (Fallible.context "file is too large for FAT12 directory entry"
      (tryFrom (2 ^ 32) length)) := by
    unfold tryFrom
    split
    · exact Fallible.noPanic_ok _
    · intro panics
      cases panics
  have copied : ∀ {middle : Image}, Frame region image middle → ∀ offset {bytes : Bytes},
      offset + bytes.length ≤ 32 →
        SafeAt (Frame region image) (copyInto (layout.slotOffset slot + offset) bytes) middle :=
    fun frame offset _ within => copyInto_slot_safe geometry frame known offset within inside
  unfold writeRootEntry
  refine (copied frame 0 (by simp)).bind fun _ middle _ frame => ?_
  refine (copied frame 0 (by omega)).bind fun _ middle _ frame => ?_
  refine (copied frame 11 (by simp)).bind fun _ middle _ frame => ?_
  refine (copied frame 22 (by simp)).bind fun _ middle _ frame => ?_
  refine (copied frame 24 (by simp)).bind fun _ middle _ frame => ?_
  refine (copied frame 26 (by simp)).bind fun _ middle _ frame => ?_
  refine SafeAt.query_bind converted frame fun size _ => ?_
  exact copied frame 28 (by simp)

end Writes

/-! ### The calls -/

section Calls

variable {layout : Fat12Layout} {image middle : Image} {region : Nat → Prop}

theorem linkClusters_safe (frame : Frame region image middle) {clusters : List Nat}
    (inside : ∀ cluster ∈ clusters, ∀ copy < layout.fatCount, ∀ index,
      (layout.entrySpan copy cluster).Holds index → region index) :
    SafeAt (Frame region image) (linkClusters layout clusters) middle := by
  induction clusters generalizing middle with
  | nil => exact safeAt_pure () frame
  | cons cluster rest ih =>
    refine (writeFat12All_safe frame _ (inside cluster List.mem_cons_self)).bind fun _ middle _ frame => ?_
    exact ih frame fun other member => inside other (List.mem_cons_of_mem _ member)

theorem collectClusters_calm (image : Image) (layout : Fat12Layout) (needed : Nat)
    (found clusters : List Nat) :
    Fallible.NoPanic (collectClusters image layout needed found clusters) := by
  induction clusters generalizing found with
  | nil => exact Fallible.noPanic_ok _
  | cons cluster rest ih =>
    refine (readFat12_calm image layout cluster).bind fun entry => ?_
    split
    · dsimp only
      split
      · exact Fallible.noPanic_ok _
      · exact ih _
    · exact ih _

/-- The collected clusters are data clusters. -/
theorem isData_of_collectClusters {needed : Nat} {clusters : List Nat}
    (run : collectClusters image layout needed [] (List.range' 2 layout.clusterCount) = .ok clusters) :
    ∀ cluster ∈ clusters, layout.IsData cluster := by
  intro cluster member
  have inRange := (mem_of_collectClusters run member).resolve_left List.not_mem_nil
  rw [List.mem_range'_1] at inRange
  exact ⟨inRange.1, by omega⟩

/-- **Allocation** changes entries, and gives the data clusters it was asked for. -/
theorem allocateClusters_safe (frame : Frame region image middle) (entries : layout.EntriesIn region)
    (needed : Nat) :
    SafeAt (Frame region image) (allocateClusters layout needed) middle ∧
      ∀ clusters last, (allocateClusters layout needed).run middle = .ok clusters last →
        clusters.length = needed ∧ ∀ cluster ∈ clusters, layout.IsData cluster := by
  unfold allocateClusters
  constructor
  · refine SafeAt.query_bind (collectClusters_calm _ _ _ _ _) frame fun clusters collected => ?_
    have data := isData_of_collectClusters collected
    split
    · exact safeAt_bail _ frame
    · refine (linkClusters_safe frame fun cluster member copy known => ?_).bind
        fun _ middle _ frame => safeAt_pure clusters frame
      obtain ⟨low, high⟩ := data cluster member
      exact entries (by omega) copy known cluster high
  · intro clusters last run
    obtain ⟨collected, _, asked, run⟩ := (bind_eq_ok _ _ _ _ _).mp run
    obtain ⟨answer, rfl⟩ := (query_eq_ok _ _ _ _).mp asked
    split at run
    · exact ((bail_ne_ok _ _ _ _).mp run).elim
    · rename_i enough
      obtain ⟨_, linked, _, done⟩ := (bind_eq_ok _ _ _ _ _).mp run
      obtain ⟨rfl, rfl⟩ := (pure_eq_ok _ _ _ _).mp done
      exact ⟨not_not.mp enough, isData_of_collectClusters answer⟩

theorem parseLayout_calm (image : Image) : Fallible.NoPanic (parseLayout image) := by
  unfold parseLayout
  have short : ∀ offset, Fallible.NoPanic (u16At image offset) := by
    intro offset
    unfold u16At
    split
    · exact Fallible.noPanic_ok _
    · exact Fallible.noPanic_bail _
  have long : Fallible.NoPanic (u32At image 32) := by
    unfold u32At
    split
    · exact Fallible.noPanic_ok _
    · exact Fallible.noPanic_bail _
  split
  · exact Fallible.noPanic_bail _
  split
  · exact Fallible.noPanic_bail _
  refine (short 11).bind fun _ => (short 14).bind fun _ => (short 17).bind fun _ => (short 19).bind fun _ =>
    long.bind fun _ => (short 22).bind fun _ => ?_
  dsimp only
  repeat' split
  all_goals first | exact Fallible.noPanic_bail _ | exact Fallible.noPanic_ok _

/-- **Adding a file** does not panic, and changes entries, slots and clusters. -/
theorem addFile_safe (parsed : parseLayout image = .ok layout) (entries : layout.EntriesIn region)
    (slots : layout.SlotsIn region) (clusters : layout.ClustersIn region) (name : DosName) (contents : Bytes) :
    SafeAt (Frame region image) (addFile name contents) image := by
  have geometry := parseLayout_geometry parsed
  have frame := Frame.refl region image
  unfold addFile
  split
  · exact safeAt_bail _ frame
  refine SafeAt.query_bind (parseLayout_calm image) frame fun known answer => ?_
  obtain rfl := Except.ok.inj (parsed.symm.trans answer)
  have found : Fallible.NoPanic (findRootEntry image layout name) := by
    rw [findRootEntry_eq geometry]
    exact Fallible.noPanic_ok _
  refine SafeAt.query_bind found frame fun existing _ => ?_
  split
  · exact safeAt_bail _ frame
  have free : Fallible.NoPanic (findFreeRootSlot image layout >>= fun found =>
      Fallible.okOr "floppy root directory has no free entries" found) := by
    rw [findFreeRootSlot_eq geometry]
    exact Fallible.noPanic_okOr _ _
  refine SafeAt.query_bind free frame fun slot answer => ?_
  have slotInside : slot < layout.rootEntries := by
    rw [findFreeRootSlot_eq geometry] at answer
    exact (Volume.freeSlot_eq_some ((Fallible.okOr_eq_ok _ _ _).mp answer)).1
  obtain ⟨allocates, allocated⟩ := allocateClusters_safe frame entries
    (max (layout.clustersFor contents.length) 1)
  refine (allocates.context _).bind fun chain middle run frame => ?_
  obtain ⟨length, data⟩ := allocated chain middle ((context_eq_ok _ _ _ _ _).mp run)
  refine (writeFileData_safe geometry frame contents 0 data fun cluster member =>
    clusters cluster (data cluster member)).bind fun _ middle _ frame => ?_
  -- at least one cluster is allocated, so the first one is there
  have first : Fallible.NoPanic (firstOf chain) := by
    cases chain with
    | nil =>
      rw [List.length_nil] at length
      omega
    | cons cluster rest => exact Fallible.noPanic_ok _
  refine SafeAt.query_bind first frame fun cluster _ => ?_
  exact writeRootEntry_safe geometry frame slotInside name cluster contents.length (slots slot slotInside)

theorem freeFrom_safe (frame : Frame region image middle) (first budget cluster : Nat)
    (inside : ∀ copy < layout.fatCount, ∀ cluster < layout.clusterCount + 2, ∀ index,
      (layout.entrySpan copy cluster).Holds index → region index) :
    SafeAt (Frame region image) (freeFrom layout first budget cluster) middle := by
  induction budget using Nat.strong_induction_on generalizing middle cluster with
  | _ budget ih =>
    unfold freeFrom
    split
    · rename_i small
      refine SafeAt.query_bind (readFat12_calm _ _ _) frame fun next _ => ?_
      refine (writeFat12All_safe frame 0 fun copy known => inside copy known cluster small).bind
        fun _ middle _ frame => ?_
      split
      · exact safeAt_pure () frame
      · cases budget with
        | zero => exact safeAt_bail _ frame
        | succ budget => exact ih budget (Nat.lt_succ_self budget) frame next
    · exact safeAt_pure () frame

theorem freeClusterChain_safe (frame : Frame region image middle) (entries : layout.EntriesIn region)
    (first : Nat) : SafeAt (Frame region image) (freeClusterChain layout first) middle := by
  unfold freeClusterChain
  split
  · exact safeAt_pure () frame
  rename_i start
  by_cases some : 0 < layout.clusterCount
  · exact freeFrom_safe frame _ _ _ (entries some)
  · unfold freeFrom
    rw [if_neg (by omega)]
    exact safeAt_pure () frame

/-- **Removing a file** does not panic, and changes entries and slots. -/
theorem removeFile_safe (parsed : parseLayout image = .ok layout) (entries : layout.EntriesIn region)
    (slots : layout.SlotsIn region) (name : DosName) :
    SafeAt (Frame region image) (removeFile name) image := by
  have geometry := parseLayout_geometry parsed
  have frame := Frame.refl region image
  unfold removeFile
  refine SafeAt.query_bind (parseLayout_calm image) frame fun known answer => ?_
  obtain rfl := Except.ok.inj (parsed.symm.trans answer)
  have found : Fallible.NoPanic (findRootEntry image layout name) := by
    rw [findRootEntry_eq geometry]
    exact Fallible.noPanic_ok _
  refine SafeAt.query_bind found frame fun existing answer => ?_
  rw [findRootEntry_eq geometry] at answer
  cases existing with
  | none => exact safeAt_pure false frame
  | some slot =>
    obtain ⟨inside, _⟩ := Volume.find_eq_some (Except.ok.inj answer)
    have bounds := geometry.slot_end inside
    have dataEnd := geometry.dataOffset_le
    have cluster : Fallible.NoPanic (u16At image (layout.slotOffset slot + 26)) := by
      rw [slotCluster_eq geometry inside]
      exact Fallible.noPanic_ok _
    refine SafeAt.query_bind cluster frame fun first _ => ?_
    refine (freeClusterChain_safe frame entries first).bind fun _ middle _ frame => ?_
    refine (setByte_safe frame 0xe5 (by omega) ?_).bind fun _ middle _ frame => safeAt_pure true frame
    refine slots slot inside _ ?_
    simp [Span.Holds, Span.stop, Fat12Layout.slotSpan]

theorem readChain_calm (geometry : layout.Geometry image.size) (fileSize budget cluster : Nat)
    (out : Bytes) :
    Fallible.NoPanic (readChain image layout fileSize budget cluster out) := by
  induction budget using Nat.strong_induction_on generalizing cluster out with
  | _ budget ih =>
    unfold readChain
    split
    · rename_i small
      by_cases low : cluster < 2
      · rw [clusterOffset, if_pos (Or.inl low)]
        exact Fallible.noPanic_bail _
      have bounds := geometry.cluster_end ⟨Nat.le_of_not_lt low, small⟩
      rw [clusterOffset_eq ⟨Nat.le_of_not_lt low, small⟩]
      refine (noPanic_rangeAt (by omega)).bind fun part => ?_
      dsimp only
      split
      · exact Fallible.noPanic_ok _
      refine (readFat12_calm image layout cluster).bind fun next => ?_
      split
      · exact Fallible.noPanic_ok _
      · cases budget with
        | zero => exact Fallible.noPanic_bail _
        | succ budget => exact ih budget (Nat.lt_succ_self budget) _ _
    · exact Fallible.noPanic_ok _

/-- The file that is found is read along its chain. -/
theorem readFile_found (parsed : parseLayout image = .ok layout) {name : DosName} {slot : Nat}
    (found : findRootEntry image layout name = .ok (some slot)) :
    readFile image name = if slotSize ((volumeOf layout image).slots slot) = 0 then .ok (some [])
      else readChain image layout (slotSize ((volumeOf layout image).slots slot)) layout.clusterCount
        (slotCluster ((volumeOf layout image).slots slot)) [] >>= fun out => .ok (some out) := by
  have geometry := parseLayout_geometry parsed
  have inside : slot < layout.rootEntries := by
    rw [findRootEntry_eq geometry] at found
    exact (Volume.find_eq_some (Except.ok.inj found)).1
  unfold readFile
  rw [parsed]
  show (findRootEntry image layout name >>= _) = _
  rw [found]
  show (u16At image (layout.slotOffset slot + 26) >>= _) = _
  rw [slotCluster_eq geometry inside]
  show (u32At image (layout.slotOffset slot + 28) >>= _) = _
  rw [slotSize_eq geometry inside]
  rfl

/-- **Reading a file** does not panic. -/
theorem readFile_calm (parsed : parseLayout image = .ok layout) (name : DosName) :
    Fallible.NoPanic (readFile image name) := by
  have geometry := parseLayout_geometry parsed
  have answer := findRootEntry_eq geometry name
  cases found : (volumeOf layout image).find layout name with
  | none =>
    rw [readFile_absent parsed found]
    exact Fallible.noPanic_ok _
  | some slot =>
    rw [found] at answer
    rw [readFile_found parsed answer]
    split
    · exact Fallible.noPanic_ok _
    · exact (readChain_calm geometry _ _ _ _).bind fun out => Fallible.noPanic_ok _

end Calls

/-! ### When the structures are apart -/

/-- The structures of an image of `size` bytes are apart and at the places of the format. -/
structure Separated (layout : Fat12Layout) (size : Nat) : Prop where
  entries : ∀ copy < layout.fatCount, ∀ cluster, layout.IsData cluster →
    (layout.entrySpan copy cluster).Within (layout.fatSpan copy)
  tables : ∀ copy < layout.fatCount, (layout.fatSpan copy).stop ≤ layout.rootSpan.start
  root : layout.rootSpan.stop ≤ size
  data : layout.dataOffset = (layout.reservedSectors + layout.fatCount * layout.sectorsPerFat
    + (layout.rootEntries * 32 + layout.bytesPerSector - 1) / layout.bytesPerSector) * layout.bytesPerSector
  apart : ∀ first second, layout.IsData first → layout.IsData second → first ≠ second →
    (layout.clusterSpan first).Apart (layout.clusterSpan second)
  clusters : ∀ cluster, layout.IsData cluster → (layout.clusterSpan cluster).stop ≤ size ∧
    layout.rootSpan.Apart (layout.clusterSpan cluster) ∧
      ∀ copy < layout.fatCount, (layout.fatSpan copy).Apart (layout.clusterSpan cluster)

/-- No call on the image panics, and each write stays in the structure it is for: the write of an entry
in its copy of the table, the write of data in its cluster, the write of a root entry in its slot. -/
structure Contained (layout : Fat12Layout) (image : Image) : Prop where
  entry : 0 < layout.clusterCount → ∀ copy < layout.fatCount, ∀ cluster < layout.clusterCount + 2,
    ∀ value middle, SafeAt (Frame (layout.fatSpan copy).Holds middle)
      (writeFat12One (layout.fatOffset copy) cluster value) middle
  data : ∀ cluster, layout.IsData cluster → ∀ contents written middle, middle.size = image.size →
    SafeAt (Frame (layout.clusterSpan cluster).Holds middle)
      (writeFileData layout contents written [cluster]) middle
  slot : ∀ slot < layout.rootEntries, ∀ name first length middle, middle.size = image.size →
    SafeAt (Frame (layout.slotSpan slot).Holds middle) (writeRootEntry layout slot name first length) middle
  add : ∀ name contents, SafeAt (Frame (fun index => layout.InTables index ∨ layout.rootSpan.Holds index ∨
    layout.InClusters index) image) (addFile name contents) image
  remove : ∀ name, SafeAt (Frame (fun index => layout.InTables index ∨ layout.rootSpan.Holds index) image)
    (removeFile name) image
  read : ∀ name, Fallible.NoPanic (readFile image name)

section Apart

variable {layout : Fat12Layout} {image : Image}

/-- The data area starts at a whole sector exactly when the root directory fills its sectors. -/
theorem dataOffset_whole (geometry : layout.Geometry image.size) :
    layout.dataOffset = (layout.reservedSectors + layout.fatCount * layout.sectorsPerFat
        + (layout.rootEntries * 32 + layout.bytesPerSector - 1) / layout.bytesPerSector)
          * layout.bytesPerSector ↔
      layout.bytesPerSector ∣ layout.rootEntries * 32 := by
  have root : layout.rootDirOffset
      = (layout.reservedSectors + layout.fatCount * layout.sectorsPerFat) * layout.bytesPerSector :=
    geometry.root
  rw [geometry.data, Fat12Layout.slotOffset, root, Nat.add_mul _ (_ / _), Nat.add_left_cancel_iff]
  constructor
  · intro same
    exact ⟨_, same.trans (Nat.mul_comm _ _)⟩
  · rintro ⟨sectors, whole⟩
    have positive := geometry.sector
    rw [whole, Nat.add_sub_assoc positive, Nat.mul_add_div positive,
      Nat.div_eq_of_lt (Nat.sub_lt positive Nat.one_pos), Nat.add_zero, Nat.mul_comm]

/-- The entries lie in their tables exactly when the tables have room for them. -/
theorem entries_within (geometry : layout.Geometry image.size) :
    (∀ copy < layout.fatCount, ∀ cluster, layout.IsData cluster →
        (layout.entrySpan copy cluster).Within (layout.fatSpan copy)) ↔
      layout.clusterCount = 0 ∨ layout.EntriesFit := by
  constructor
  · intro entries
    by_cases none : layout.clusterCount = 0
    · exact Or.inl none
    refine Or.inr ?_
    have last := entries 0 geometry.copies (layout.clusterCount + 1) ⟨by omega, by omega⟩
    simp only [Span.Within, Span.stop, Fat12Layout.entrySpan, Fat12Layout.fatSpan] at last
    unfold Fat12Layout.EntriesFit
    omega
  · rintro (none | fit) copy _ cluster ⟨low, high⟩
    · omega
    · exact Fat12Layout.entrySpan_within fit copy high

/-- The structures of an accepted image are apart; the two conditions are for the entries and the place of
the data area. -/
theorem separated_of (geometry : layout.Geometry image.size)
    (fit : layout.clusterCount = 0 ∨ layout.EntriesFit)
    (whole : layout.bytesPerSector ∣ layout.rootEntries * 32) : Separated layout image.size := by
  have tables : ∀ copy < layout.fatCount, (layout.fatSpan copy).stop ≤ layout.rootSpan.start :=
    fun copy known => geometry.fat_end known
  have rootEnd : layout.rootSpan.stop = layout.dataOffset := geometry.data.symm
  refine ⟨(entries_within geometry).mpr fit, tables, ?_, (dataOffset_whole geometry).mpr whole, ?_, ?_⟩
  · rw [rootEnd]
    exact geometry.dataOffset_le
  · intro first second firstData secondData different
    rcases Nat.lt_or_gt_of_ne different with before | after
    · exact Or.inl (Fat12Layout.clusterStart_apart firstData before)
    · exact Or.inr (Fat12Layout.clusterStart_apart secondData after)
  · intro cluster data
    obtain ⟨behind, inside⟩ := geometry.cluster_end data
    have rootLeData := geometry.root_le_data
    refine ⟨inside, Or.inl (rootEnd.trans_le behind), fun copy known => Or.inl ?_⟩
    exact ((tables copy known).trans rootLeData).trans behind

theorem contained_of (parsed : parseLayout image = .ok layout)
    (fit : layout.clusterCount = 0 ∨ layout.EntriesFit) : Contained layout image := by
  have geometry := parseLayout_geometry parsed
  have within : 0 < layout.clusterCount → ∀ copy, ∀ cluster < layout.clusterCount + 2,
      (layout.entrySpan copy cluster).Within (layout.fatSpan copy) := fun some copy cluster small =>
    Fat12Layout.entrySpan_within (fit.resolve_left some.ne') copy small
  refine ⟨fun some copy known cluster small value middle => ?_, fun cluster data contents written middle size => ?_,
    fun slot known name first length middle size => ?_, fun name contents => ?_, fun name => ?_,
    readFile_calm parsed⟩
  · exact writeFat12One_safe (Frame.refl _ middle) value fun index => (within some copy cluster small).holds
  · refine writeFileData_safe (size ▸ geometry) (Frame.refl _ middle) contents written ?_ ?_
    · intro other member
      rwa [List.mem_singleton.mp member]
    · intro other member index held
      rwa [List.mem_singleton.mp member] at held
  · exact writeRootEntry_safe (size ▸ geometry) (Frame.refl _ middle) known name first length fun _ => id
  · exact addFile_safe parsed
      (fun some copy known cluster small index held =>
        Or.inl ⟨copy, known, (within some copy cluster small).holds held⟩)
      (fun slot known index held => Or.inr (Or.inl ((Fat12Layout.slotSpan_within known).holds held)))
      (fun cluster data index held => Or.inr (Or.inr ⟨cluster, data, held⟩)) name contents
  · exact removeFile_safe parsed
      (fun some copy known cluster small index held =>
        Or.inl ⟨copy, known, (within some copy cluster small).holds held⟩)
      (fun slot known index held => Or.inr ((Fat12Layout.slotSpan_within known).holds held)) name

/-- **The structures of an accepted image are apart, at the places of the format, and every write stays in
its own**, exactly when every entry lies in its table and the root directory fills its sectors. -/
theorem separated_iff (parsed : parseLayout image = .ok layout) :
    Separated layout image.size ∧ Contained layout image ↔
      (layout.clusterCount = 0 ∨ layout.EntriesFit) ∧ layout.bytesPerSector ∣ layout.rootEntries * 32 := by
  have geometry := parseLayout_geometry parsed
  constructor
  · rintro ⟨separated, _⟩
    exact ⟨(entries_within geometry).mp separated.entries, (dataOffset_whole geometry).mp separated.data⟩
  · rintro ⟨fit, whole⟩
    exact ⟨separated_of geometry fit whole, contained_of parsed fit⟩

theorem separated_iff_sample : Separated sampleLayout sampleImage.size ∧ Contained sampleLayout sampleImage :=
  (separated_iff sample_consistent.parsed).mpr ⟨by decide, by decide⟩

/-- **A root directory of one entry** takes a quarter of its sector; the data area starts in that sector. A
table of one sector has no room for the entries of 400 clusters. -/
theorem not_separated : (∃ layout, parseLayout (emptyImage 128 1 1 4 1) = .ok layout ∧
      ¬ Separated layout (emptyImage 128 1 1 4 1).size) ∧
    ∃ layout, parseLayout (emptyImage 512 1 16 403 1) = .ok layout ∧
      ¬ Separated layout (emptyImage 512 1 16 403 1).size := by
  constructor
  · refine ⟨⟨128, 1, 1, 1, 1, 256, 288, 128, 1⟩, by decide, fun separated => ?_⟩
    exact absurd separated.data (by decide)
  · refine ⟨⟨512, 1, 1, 16, 1, 1024, 1536, 512, 400⟩, by decide, fun separated => ?_⟩
    have last := separated.entries 0 (by decide) 401 (by decide)
    exact absurd last.2 (by decide)

end Apart

end Bootsmith.Floppy
