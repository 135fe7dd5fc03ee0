/-
**What a BIOS finds on a GRUB4DOS stick.**

The boot track that is written is the boot code with a table of one partition (`patchPartitionTable_eq_ok`,
`partitions_patched`). What follows in a run works on the partition, so at the end of a successful run the
boot code and the table are on the disk (`grub4dos_boots`).
-/

import Bootsmith.Library.PartitionTable
import Bootsmith.Pipeline.HybridRun

namespace Bootsmith.Pipeline

open Bootsmith.Library Bootsmith.Disk Bootsmith.Core Exchange

/-! ### The boot track -/

/-- An active partition of FAT32 up to the end of the disk. -/
def bootPartition (partitionSectors : Nat) : Partition where
  flag := 0x80
  start := .of 0 32 33
  kind := 0x0c
  last := .of 1023 254 63
  first := 2048
  count := UInt32.ofNat partitionSectors

/-- The old address names the same sector. -/
theorem bootPartition_start (partitionSectors : Nat) :
    (bootPartition partitionSectors).start.lba = partitionStartLba := by
  norm_num [bootPartition, Chs.of, Chs.lba, partitionStartLba]

/-- The last 66 bytes of the first sector. -/
def bootTable (partitionSectors : Nat) : Bytes :=
  ([bootPartition partitionSectors, .free, .free, .free]).flatMap Partition.encode ++ [0x55, 0xaa]

theorem partitionEntry_eq {partitionSectors : Nat} (fits : partitionSectors < 2 ^ 32) :
    partitionEntry partitionSectors = (bootPartition partitionSectors).encode := by
  have count : (UInt32.ofNat partitionSectors).toNat = partitionSectors := by
    rw [UInt32.toNat_ofNat', Nat.mod_eq_of_lt fits]
  simp only [Partition.encode, bootPartition, count]
  rfl

theorem bootTable_length (partitionSectors : Nat) : (bootTable partitionSectors).length = 66 := by
  simp [bootTable]

/-- The entry, the free entries and the signature are written one behind the other. -/
theorem overlay_bootTable {code : Bytes} {partitionSectors : Nat} (sector : 512 ≤ code.length)
    (fits : partitionSectors < 2 ^ 32) :
    overlay (overlay (overlay code 446 (partitionEntry partitionSectors)) 462 (List.replicate 48 0)) 510 [0x55, 0xaa]
      = overlay code 446 (bootTable partitionSectors) := by
  have entry : (partitionEntry partitionSectors).length = 16 := by
    rw [partitionEntry_eq fits, Partition.encode_length]
  have entries : (partitionEntry partitionSectors ++ List.replicate 48 0).length = 64 := by
    rw [List.length_append, entry, List.length_replicate]
  have zeros := @Bootsmith.Hybrid.overlay_overlay code (partitionEntry partitionSectors) (List.replicate 48 0) 446
  have signature := @Bootsmith.Hybrid.overlay_overlay code (partitionEntry partitionSectors ++ List.replicate 48 0)
    [0x55, 0xaa] 446
  rw [entry, List.length_replicate] at zeros
  rw [entries] at signature
  rw [zeros (by omega), signature sector, partitionEntry_eq fits]
  rfl

/-- **The track is the boot code with the table in its first sector.** -/
theorem patchPartitionTable_eq_ok {code track : Bytes} {size : Nat} :
    patchPartitionTable code size = .ok track ↔
      512 ≤ code.length ∧ partitionStartLba < size / sectorSize ∧ size / sectorSize - partitionStartLba < 2 ^ 32 ∧
        overlay code 446 (bootTable (size / sectorSize - partitionStartLba)) = track := by
  unfold patchPartitionTable
  by_cases short : code.length < 512
  · rw [if_pos short]
    exact iff_of_false nofun fun both => absurd both.1 (by omega)
  rw [if_neg short]
  by_cases small : size / sectorSize ≤ partitionStartLba
  · rw [if_pos small]
    exact iff_of_false nofun fun both => absurd both.2.1 (by omega)
  rw [if_neg small]
  generalize size / sectorSize - partitionStartLba = sectors
  have sector : 512 ≤ code.length := by omega
  have room : partitionStartLba < size / sectorSize := by omega
  simp only [Fallible.bind_eq_ok, Fallible.context_eq_ok, tryFrom_eq_ok, Fallible.pure_eq_ok, sector, room, true_and]
  constructor
  · rintro ⟨_, ⟨fits, rfl⟩, patched⟩
    exact ⟨fits, (overlay_bootTable sector fits).symm.trans patched⟩
  · rintro ⟨fits, patched⟩
    exact ⟨sectors, ⟨fits, rfl⟩, (overlay_bootTable sector fits).trans patched⟩

/-- **The table is read as one partition.** -/
theorem partitions_patched {code : Bytes} (sector : 512 ≤ code.length) (partitionSectors : Nat) :
    partitions ((overlay code 446 (bootTable partitionSectors)).take 512) = some [bootPartition partitionSectors] := by
  have room : (code.take 446).length = 446 := by
    rw [List.length_take]
    omega
  have front : (overlay code 446 (bootTable partitionSectors)).take 512
      = code.take 446 ++ bootTable partitionSectors ++ [] := by
    rw [overlay, List.append_nil]
    exact List.take_left' (by rw [List.length_append, room, bootTable_length])
  rw [front, bootTable, partitions_of_table room rfl]
  rfl

/-! ### The disk at the end of a run -/

/-- What lies in front of the partition, and the size of the disk. -/
def front (image : Image) : Nat × Bytes := (image.size, image.slice 0 (partitionStartLba * sectorSize))

/-- **A BIOS finds the boot code and one partition**, which is active, of FAT32, and goes to the end of the disk
from the sector that both of its addresses name. -/
structure Boots (bootCode : Bytes) (before after : Image) : Prop where
  table : ∃ partition, partitions (after.slice 0 512) = some [partition] ∧ partition.Active ∧
    partition.kind = 0x0c ∧ partition.first.toNat = partitionStartLba ∧ partition.start.lba = partitionStartLba ∧
    partition.first.toNat + partition.count.toNat = before.size / sectorSize
  code : ∀ index (inside : index < bootCode.length), index < 446 ∨ 512 ≤ index →
    index < partitionStartLba * sectorSize → after.get index = bootCode[index]
  kept : ∀ index, bootCode.length ≤ index → index < partitionStartLba * sectorSize →
    after.get index = before.get index
  size : after.size = before.size

theorem front_get {first second : Image} (same : front first = front second) {index : Nat}
    (inside : index < partitionStartLba * sectorSize) : first.get index = second.get index := by
  obtain ⟨-, slices⟩ := Prod.mk.inj same
  have bytes := congrArg (·[index]?) slices
  simp only [Image.getElem?_slice _ _ _ _ inside, Nat.zero_add] at bytes
  exact Option.some.inj bytes

/-- A disk whose front is that of a disk with the track. -/
theorem boots_of_front {code track : Bytes} {before after : Image}
    (patched : patchPartitionTable code before.size = .ok track) (fits : track.length ≤ before.size)
    (same : front after = front (before.write 0 track)) : Boots code before after := by
  obtain ⟨sector, room, small, rfl⟩ := patchPartitionTable_eq_ok.mp patched
  have length : (overlay code 446 (bootTable (before.size / sectorSize - partitionStartLba))).length = code.length :=
    overlay_length (by rw [bootTable_length]; exact sector)
  generalize sectorsHere : before.size / sectorSize - partitionStartLba = sectors at *
  have written : ∀ index (inside : index < code.length), index < partitionStartLba * sectorSize →
      some (after.get index) = (overlay code 446 (bootTable sectors))[index]? := by
    intro index inside front
    have byte := Image.write_get_inside before 0 (overlay code 446 (bootTable sectors)) index (by rwa [length])
    rw [Nat.zero_add] at byte
    rw [front_get same front, byte, List.getElem?_eq_getElem]
  refine ⟨⟨bootPartition sectors, ?_, rfl, rfl, rfl, bootPartition_start sectors, ?_⟩,
    fun index inside outside front => ?_, ?_, ?_⟩
  · have first : after.slice 0 512 = (overlay code 446 (bootTable sectors)).take 512 := by
      refine List.ext_getElem? fun index => ?_
      by_cases inside : index < 512
      · rw [Image.getElem?_slice _ _ _ _ inside, Nat.zero_add, List.getElem?_take_of_lt inside]
        exact written index (by omega) (inside.trans (by norm_num [partitionStartLba, sectorSize]))
      · rw [List.getElem?_eq_none (by rw [Image.slice_length]; omega),
          List.getElem?_eq_none (by rw [List.length_take]; omega)]
    rw [first, partitions_patched sector]
  · show partitionStartLba + (UInt32.ofNat sectors).toNat = _
    rw [UInt32.toNat_ofNat', Nat.mod_eq_of_lt small]
    omega
  · have byte := written index inside front
    rw [overlay_getElem? index (by rw [bootTable_length]; exact sector), bootTable_length, if_neg (by omega),
      List.getElem?_eq_getElem inside] at byte
    exact Option.some.inj byte
  · intro index behind inside
    rw [front_get same inside, Image.write_get_of_outside _ _ _ (Or.inr (by omega))]
  · obtain ⟨sizes, -⟩ := Prod.mk.inj same
    rw [sizes, Image.write_size_of_le _ _ _ (by omega)]

/-- The calls that may change what lies in front of the partition. -/
def Call.reachesFront : Call → Bool
  | .writeRaw _ _ _ => true
  | .command (.msSysMbr7 _ _) => true
  | _ => false

theorem Call.behind_of_onFiles {call : Call} (files : call.onFiles = true) : call.reachesFront = false := by
  revert files
  unfold Call.onFiles Call.reachesFront
  split <;> simp

section Run

variable {σ : Type} {machine : Machine Call Answer σ} {disk : σ → RawDevice}

/-- **The other calls work on the partition**: neither the kernel nor the tools change what lies in front. -/
def Spares (machine : Machine Call Answer σ) (disk : σ → RawDevice) : Prop :=
  ∀ call state, call.reachesFront = false → front (disk (machine call state).2).image = front (disk state).image

theorem Spares.keeps {α : Type} (spares : Spares machine disk) {program : Io α}
    (quiet : Program.Asks (fun call => call.reachesFront = false) program) {state last : σ} {result : Fallible α}
    (runs : Program.on machine program state = (result, last)) :
    front (disk last).image = front (disk state).image := by
  have kept := @Program.Asks.on_keeps _ _ _ _ _ machine program _ (fun state => front (disk state).image) quiet
    spares state
  rwa [runs] at kept

/-- A write that the device took. -/
theorem writeRaw_returns {path : Text} (serves : Serves machine path disk) {offset : Nat} {bytes : Bytes}
    {state last : σ} (runs : Program.on machine (writeRaw path offset bytes) state = (.ok (), last)) :
    offset + bytes.length ≤ (disk state).image.size ∧ (disk last).image = (disk state).image.write offset bytes := by
  have same := serves.writes offset bytes state
  have answer : (told ["I/O error"] (machine (.writeRaw path offset bytes) state).1,
      (machine (.writeRaw path offset bytes) state).2) = (.ok (), last) := runs
  obtain ⟨told, rfl⟩ := Prod.mk.inj answer
  rw [told] at same
  by_cases takes : (disk state).Takes ⟨offset, bytes.length⟩
  · rw [RawDevice.writeAt_of_takes takes] at same
    refine ⟨takes.2.2, ?_⟩
    have written : (disk state).written offset bytes takes = disk _ := (EStateM.Result.ok.inj same).2
    rw [← written]
    rfl
  · have refused : (RawDevice.writeAt offset bytes).run (disk state) = .error _ _ := dif_neg takes
    rw [refused] at same
    cases same

/-- **The step that writes the boot track** leaves it at the front of the disk. -/
theorem writeGrub4dosMbrTrack_writes {grldrMbr : Bytes} {info : DeviceInfo} {verify : Bool}
    (serves : Serves machine info.path disk) (spares : Spares machine disk) {state last : σ}
    (runs : Program.on machine (writeGrub4dosMbrTrack grldrMbr info verify) state = (.ok (), last)) :
    ∃ track, patchPartitionTable grldrMbr (disk state).image.size = .ok track ∧
      track.length ≤ (disk state).image.size ∧
      front (disk last).image = front ((disk state).image.write 0 track) := by
  obtain ⟨geometry, opened, opens, body⟩ := on_bind_eq_ok.mp runs
  obtain ⟨sized, answer, -, size⟩ := serves.opens state
  have openedHere : geometry = sized ∧ opened = (machine (.openRaw info.path) state).2 := by
    have returned := on_context_eq_ok.mp opens
    unfold openRaw at returned
    split at returned
    · have both : ((machine (.openRaw info.path) state).1.mapError _, _) = (Except.ok geometry, opened) := returned
      rw [answer] at both
      obtain ⟨same, rfl⟩ := Prod.mk.inj both
      exact ⟨(Except.ok.inj same).symm, rfl⟩
    · cases returned
  obtain ⟨rfl, rfl⟩ := openedHere
  have untouched := serves.leaves (.openRaw info.path) state rfl
  rw [on_dropping] at body
  obtain ⟨returns, closed⟩ := Prod.mk.inj body
  generalize wroteHere : Program.on machine _ (machine (.openRaw info.path) state).2 = outcome at returns closed
  obtain ⟨result, wrote⟩ := outcome
  obtain rfl : result = .ok () := returns
  obtain ⟨track, patchedAt, patches, writes⟩ := on_bind_eq_ok.mp wroteHere
  obtain ⟨patched, rfl⟩ := on_lift_eq_ok.mp patches
  obtain ⟨_, written, stores, syncs⟩ := on_bind_eq_ok.mp writes
  obtain ⟨fits, image⟩ := writeRaw_returns serves stores
  rw [untouched] at fits image
  have after : Program.Asks (fun call => call.reachesFront = false) (do
      syncRaw info.path
      if verify then readBack "GRUB4DOS MBR/boot-track write verify mismatch" info.path track
      else pure () : Io Unit) := by
    refine asks_bind (asks_ask rfl) fun _ => ?_
    split
    · exact asks_bind (asks_ask rfl) fun readback => by split <;> first | exact asks_bail _ | exact asks_pure ()
    · exact asks_pure ()
  have kept := spares.keeps after syncs
  refine ⟨track, size ▸ patched, by omega, ?_⟩
  rw [← closed, spares (.closeRaw info.path) wrote rfl, kept, image]

/-- **After a successful run of either pipeline the stick boots.** -/
theorem runGrub4dos_boots {checks : Fallible Unit} {grldrMbr : Bytes} {stage : Text → Io Unit} {plan : WritePlan}
    {info : DeviceInfo} {verify : Bool} (serves : Serves machine info.path disk) (spares : Spares machine disk)
    (stages : ∀ usbMount, Program.Asks (Stages usbMount) (stage usbMount)) {state last : σ}
    (runs : Program.on machine (runGrub4dos checks grldrMbr stage plan info verify) state = (.ok (), last)) :
    Boots grldrMbr (disk state).image (disk last).image := by
  obtain ⟨_, _, checked, rest⟩ := on_bind_eq_ok.mp runs
  obtain ⟨-, rfl⟩ := on_lift_eq_ok.mp checked
  obtain ⟨_, free, unmounts, rest⟩ := on_bind_eq_ok.mp rest
  obtain ⟨_, written, writes, rest⟩ := on_bind_eq_ok.mp rest
  have quietly : Program.Asks (fun call => call.leavesDisk = true)
      (Exchange.context "unmount before GRUB4DOS MBR write" (unmountDisk (bsdPathOf info.path))) :=
    asks_context (asks_context (runDiskutil_asks rfl))
  have same := quietly.on_keeps serves.leaves state
  rw [unmounts] at same
  obtain ⟨track, patched, fits, wrote⟩ := writeGrub4dosMbrTrack_writes serves spares (on_context_eq_ok.mp writes)
  have after : Program.Asks (fun call => call.reachesFront = false) (do
      rereadPartitionTable (bsdPathOf info.path)
      let usbMount ← formatPartition (bsdPathOf info.path) (partitionOf info.path) plan.label
      stage usbMount
      Exchange.context "unmount after staging files" (unmountDisk (bsdPathOf info.path))
      Exchange.context "eject after write" (eject (bsdPathOf info.path)) : Io Unit) := by
    refine asks_bind (rereadPartitionTable_asks rfl rfl rfl) fun _ => ?_
    refine asks_bind (formatPartition_asks rfl rfl rfl) fun usbMount => ?_
    refine asks_bind ((stages usbMount).mono fun call staged => Call.behind_of_onFiles staged.1) fun _ => ?_
    refine asks_bind (asks_context (asks_context (runDiskutil_asks rfl))) fun _ => ?_
    exact asks_context (asks_context (runDiskutil_asks rfl))
  have kept := spares.keeps after rest
  simp only at same
  rw [same] at patched fits wrote
  exact boots_of_front patched fits (kept.trans wrote)

end Run

/-- **After a successful run of either GRUB4DOS pipeline the stick boots**: on every machine that serves the
disk, and whose other calls leave what lies in front of the partition, the disk has the boot code and a table
of one active partition, as large as the disk allows, and what is neither is as before. -/
theorem grub4dos_boots {σ : Type} {machine : Machine Call Answer σ} {parts : Parts} {plan : WritePlan}
    {info : DeviceInfo} {config : RunConfig} {disk : σ → RawDevice}
    (mode : plan.mode = .windowsNtXp ∨ plan.mode = .windows2000) (serves : Serves machine info.path disk)
    (spares : Spares machine disk) {state last : σ}
    (runs : Program.on machine (startPipeline parts plan info config) state = (.ok (), last)) :
    Boots parts.grldrMbr (disk state).image (disk last).image := by
  unfold startPipeline at runs
  rcases mode with ntXp | win2000
  · rw [ntXp] at runs
    exact runGrub4dos_boots serves spares (fun _ => asks_context (NtXp.stageFiles_stages _ _ _ _ _))
      (on_context_eq_ok.mp runs)
  · rw [win2000] at runs
    exact runGrub4dos_boots serves spares (fun _ => asks_context (Win2000.stageFiles_stages _ _ _))
      (on_context_eq_ok.mp runs)

/-- A device of 2 MiB. -/
def sampleStick : RawDevice := ⟨Image.zeros 2097152, 512, ⟨4096, rfl⟩, [], fun _ => "Invalid argument"⟩

theorem diskMachine_spares (iso : Bytes) : Spares (diskMachine iso) fun device => device := by
  intro call device behind
  cases call with
  | writeRaw path offset bytes => cases behind
  | _ => rfl

/-- A stick with so many usable bytes. -/
def sampleUsable (usable : Nat) : DeviceInfo :=
  { sampleInfo with sizeBytes := usable + 2048 * 512 }

theorem sampleUsable_usable (usable : Nat) : Driver.usableBytes (sampleUsable usable) = usable :=
  Nat.add_sub_cancel usable (2048 * 512)

theorem validateAssets_accepts {grldrMbr grldr : Bytes} {floppyBytes : Nat} (length : grldrMbr.length = 8192)
    (filled : grldr ≠ []) (size : floppyBytes = 1474560) (floppy : String) :
    validateAssets grldrMbr grldr floppy floppyBytes = .ok () := by
  unfold validateAssets
  rw [length, size, if_neg (by norm_num [sectorSize]), if_neg filled, if_neg (not_not.mpr rfl)]

/-- The checks accept a stick that has just enough room. -/
theorem checks_accept {grldrMbr : Bytes} {assets : Driver.Assets} {plan : WritePlan} (length : grldrMbr.length = 8192)
    (filled : assets.grldr ≠ []) (size : assets.firadiskIma.size = 1474560) : (do
      validateAssets grldrMbr assets.grldr "FIRADISK.IMA" assets.firadiskIma.size
      Driver.validateCapacity assets plan (sampleUsable (Driver.neededBytes assets plan)) : Fallible Unit)
      = .ok () := by
  rw [Fallible.bind_eq_ok]
  refine ⟨(), validateAssets_accepts length filled size _, ?_⟩
  rw [Driver.validateCapacity_eq_ok, sampleUsable_usable]

/-- A track that the device takes. -/
theorem writeGrub4dosMbrTrack_runs {code track : Bytes} {info : DeviceInfo} {device : RawDevice}
    (raw : rdiskPrefix.isPrefixOf info.path = true) (takes : device.Takes ⟨0, track.length⟩)
    (patched : patchPartitionTable code device.image.size = .ok track) :
    Program.on (diskMachine []) (writeGrub4dosMbrTrack code info false) device
      = (.ok (), device.written 0 track takes) := by
  have opens : Program.on (diskMachine []) (openRaw info.path) device
      = (.ok ⟨device.blockSize, device.image.size / device.blockSize⟩, device) := by
    unfold openRaw
    rw [if_pos raw]
    rfl
  have size : (⟨device.blockSize, device.image.size / device.blockSize⟩ : Geometry).sizeBytes = device.image.size :=
    Nat.mul_div_cancel' device.whole
  have lifted : Program.on (diskMachine []) (Exchange.lift (patchPartitionTable code device.image.size)) device
      = (.ok track, device) := on_lift_eq_ok.mpr ⟨patched, rfl⟩
  have writes : Program.on (diskMachine []) (writeRaw info.path 0 track) device
      = (.ok (), device.written 0 track takes) := by
    show (told _ (answerWrite device 0 track).1, (answerWrite device 0 track).2) = _
    rw [answerWrite, dif_pos takes]
    rfl
  unfold writeGrub4dosMbrTrack withRaw
  rw [on_bind_of_ok (on_context_of_ok opens _), on_dropping]
  beta_reduce
  rw [size, on_bind_of_ok lifted, on_bind_of_ok writes]
  rfl

/-- The steps behind the boot track, around a staging that succeeds. -/
theorem staging_runs {stage : Text → Io Unit} {label : Text} {device : RawDevice}
    (stages : Program.on (diskMachine []) (stage (volumePath label)) device = (.ok (), device))
    (disk partition : Text) :
    Program.on (diskMachine []) (do
      rereadPartitionTable disk
      let usbMount ← formatPartition disk partition label
      stage usbMount
      Exchange.context "unmount after staging files" (unmountDisk disk)
      Exchange.context "eject after write" (eject disk) : Io Unit) device = (.ok (), device) :=
  on_bind_of_ok stages _

/-- A run on the stick of 2 MiB, with a track of zeros. -/
theorem runGrub4dos_runs {checks : Fallible Unit} {stage : Text → Io Unit} {plan : WritePlan} {usable : Nat}
    (accepted : checks = .ok ()) (stages : ∀ device : RawDevice,
      Program.on (diskMachine []) (stage (volumePath plan.label)) device = (.ok (), device)) :
    ∃ final : RawDevice, Program.on (diskMachine [])
      (runGrub4dos checks sampleParts.grldrMbr stage plan (sampleUsable usable) false) sampleStick
      = (.ok (), final) := by
  have length : sampleParts.grldrMbr.length = 8192 := List.length_replicate
  have size : sampleStick.image.size / sectorSize = 4096 := rfl
  obtain ⟨track, patched⟩ : ∃ track, patchPartitionTable sampleParts.grldrMbr sampleStick.image.size = .ok track := by
    refine ⟨_, patchPartitionTable_eq_ok.mpr ⟨?_, ?_, ?_, rfl⟩⟩
    · rw [length]
      norm_num
    · norm_num [size, partitionStartLba]
    · norm_num [size, partitionStartLba]
  have trackLength : track.length = 8192 := by
    obtain ⟨sector, -, -, rfl⟩ := patchPartitionTable_eq_ok.mp patched
    rw [overlay_length (by rw [bootTable_length]; exact sector), length]
  have takes : sampleStick.Takes ⟨0, track.length⟩ := by
    rw [trackLength]
    decide
  have path : (sampleUsable usable).path = "/dev/rdisk3".toList := rfl
  have raw : rdiskPrefix.isPrefixOf (sampleUsable usable).path = true := by
    rw [path]
    decide
  refine ⟨sampleStick.written 0 track takes, ?_⟩
  refine (on_bind_of_ok (on_lift_eq_ok.mpr ⟨accepted, rfl⟩) _).trans ?_
  refine (on_bind_of_ok (on_context_of_ok (unmountDisk_runs (fun _ => ⟨_, rfl, rfl⟩) _) _) _).trans ?_
  exact (on_bind_of_ok (on_context_of_ok (writeGrub4dosMbrTrack_runs raw takes patched) _) _).trans
    (staging_runs (stages _) _ _)

/-- The copy of an empty ISO. -/
theorem copyChunks_runs (reading writing : String) (dest : Text) (device : RawDevice) :
    Program.on (diskMachine []) (copyChunks reading writing dest none ⟨[], fun _ => 1, 0⟩) device
      = (.ok (), device) := by
  rw [copyChunks]
  rfl

/-- A run for Windows NT or XP. -/
theorem sampleStaging_runs : ∃ final : RawDevice,
    Program.on (diskMachine []) (startPipeline sampleParts (samplePlan .windowsNtXp)
      (sampleUsable (Driver.neededBytes sampleParts.ntXp (samplePlan .windowsNtXp)))
      { sampleRunConfig with verify := false }) sampleStick = (.ok (), final) := by
  have accepted := @checks_accept _ _ (samplePlan .windowsNtXp)
    (List.length_replicate : sampleParts.grldrMbr.length = 8192) (nofun : sampleParts.ntXp.grldr ≠ []) rfl
  have stages : ∀ device : RawDevice, Program.on (diskMachine []) (Exchange.context
      "staging GRUB4DOS/FiraDisk XP payload" (NtXp.stageFiles sampleParts.order sampleParts.ntXp sampleParts.folderAt
        (samplePlan .windowsNtXp) (volumePath "BOOTSMITH".toList) sampleRunConfig.toConfig)) device
      = (.ok (), device) :=
    fun device => on_context_of_ok (on_bind_of_ok (copyChunks_runs "read ISO" "write XP.ISO" _ device) _) _
  obtain ⟨final, runs⟩ := @runGrub4dos_runs _ (fun usbMount => Exchange.context "staging GRUB4DOS/FiraDisk XP payload"
    (NtXp.stageFiles sampleParts.order sampleParts.ntXp sampleParts.folderAt (samplePlan .windowsNtXp) usbMount
      sampleRunConfig.toConfig)) (samplePlan .windowsNtXp) _ accepted stages
  exact ⟨final, on_context_of_ok runs _⟩

/-- The stick boots after the sample run. -/
theorem grub4dos_boots_sample : ∃ final : RawDevice,
    Program.on (diskMachine []) (startPipeline sampleParts (samplePlan .windowsNtXp)
      (sampleUsable (Driver.neededBytes sampleParts.ntXp (samplePlan .windowsNtXp)))
      { sampleRunConfig with verify := false }) sampleStick = (.ok (), final) ∧
    Boots sampleParts.grldrMbr sampleStick.image final.image := by
  obtain ⟨final, runs⟩ := sampleStaging_runs
  exact ⟨final, runs, @grub4dos_boots _ (diskMachine []) sampleParts (samplePlan .windowsNtXp)
    (sampleUsable (Driver.neededBytes sampleParts.ntXp (samplePlan .windowsNtXp)))
    { sampleRunConfig with verify := false } (fun device => device) (Or.inl rfl) (diskMachine_serves [] _)
    (diskMachine_spares []) sampleStick final runs⟩

end Bootsmith.Pipeline
