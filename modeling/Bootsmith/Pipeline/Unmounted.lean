/-
**Nothing is written to a disk that is mounted.**

A raw device is opened for writing, a partition is formatted and boot code is written only while no volume of
the disk is mounted: since the last successful unmount nothing happened after which the system may mount one
again (`pipeline_writes_unmounted`). This holds of each pipeline, on every path and whatever the tools answer,
also where the result of an unmount is dropped.
-/

import Bootsmith.Pipeline.Asked

namespace Bootsmith.Pipeline

open Bootsmith.Library Bootsmith.Disk Bootsmith.Core Exchange

/-! ### Unmounted disks -/

/-- The calls that write to the disk beneath its file systems, or open it for that. -/
def Call.writesDisk : Call → Bool
  | .command (.newfsMsdosFat32 _ _) => true
  | .command (.msSysMbr7 _ _) => true
  | .command (.msSysFat32pe _ _) => true
  | .openRaw _ => true
  | .writeRaw _ _ _ => true
  | _ => false

/-- The calls after which a volume of the disk may be mounted: the system mounts what it recognizes when a
partition was formatted, boot code was written or a raw device was closed. -/
def Call.mayMount : Call → Bool
  | .command (.mountDisk _) => true
  | .command (.newfsMsdosFat32 _ _) => true
  | .command (.msSysMbr7 _ _) => true
  | .command (.msSysFat32pe _ _) => true
  | .closeRaw _ => true
  | _ => false

/-- A successful unmount of the disk. -/
def Unmounts (disk : Text) (event : Event Answer) : Prop :=
  ∃ output : Output, output.code = some 0 ∧
    (event = ⟨.command (.unmountDisk disk), .ok output⟩ ∨ event = ⟨.command (.unmountDiskForce disk), .ok output⟩)

/-- **No volume of the disk is mounted**: it was unmounted, and nothing since then may have mounted one. -/
def Unmounted (disk : Text) (past : History) : Prop :=
  ∃ before unmount after, past = before ++ unmount :: after ∧ Unmounts disk unmount ∧
    ∀ event ∈ after, event.call.mayMount = false

/-- The rule of the pipelines. -/
def UnmountedFirst (disk : Text) (past : History) (call : Call) : Prop :=
  call.writesDisk = true → Unmounted disk past

section Rules

variable {disk : Text} {past : History}

theorem unmounted_of_unmount {event : Event Answer} (unmount : Unmounts disk event) :
    Unmounted disk (past ++ [event]) :=
  ⟨past, event, [], rfl, unmount, fun _ member => by cases member⟩

theorem Unmounted.append {event : Event Answer} (unmounted : Unmounted disk past)
    (quiet : event.call.mayMount = false) : Unmounted disk (past ++ [event]) := by
  obtain ⟨before, unmount, after, rfl, success, later⟩ := unmounted
  refine ⟨before, unmount, after ++ [event], by simp, success, fun other member => ?_⟩
  rcases List.mem_append.mp member with earlier | last
  · exact later other earlier
  · rw [List.mem_singleton.mp last]
    exact quiet

/-- The program follows the rule, from a past that satisfies `pre` to one that satisfies `post` when it
returns a value. -/
def Guards (disk : Text) (pre : History → Prop) {α : Type} (program : Io α) (post : History → Prop) : Prop :=
  Triple (UnmountedFirst disk) pre program (fun _ => post) fun _ => True

/-- Nothing is known about the past. -/
def Anything : History → Prop := fun _ => True

variable {pre middle post : History → Prop} {α β : Type}

theorem Guards.bind {program : Io α} {next : α → Io β} (first : Guards disk pre program middle)
    (rest : ∀ value, Guards disk middle (next value) post) : Guards disk pre (program >>= next) post :=
  Triple.bind first rest

theorem Guards.context {program : Io α} {message : String} (guards : Guards disk pre program post) :
    Guards disk pre (Exchange.context message program) post :=
  Triple.context guards

theorem Guards.attempt {program : Io α} (guards : Guards disk pre program post) :
    Guards disk pre (Exchange.attempt program) Anything :=
  (Triple.attempt guards).mono (fun _ holds => holds) (fun _ _ _ => trivial) fun _ _ => trivial

theorem guards_lift (call : Fallible α) : Guards disk pre (Exchange.lift call : Io α) pre :=
  Triple.lift (fun _ _ _ holds => holds) fun _ _ _ _ => trivial

theorem guards_pure (value : α) : Guards disk pre (pure value : Io α) pre :=
  Triple.pure fun _ holds => holds

/-- What only works beneath the file systems keeps the disk unmounted. -/
theorem guards_of_noMounts {program : Io α}
    (asks : Program.Asks (fun call => call.mayMount = false) program) :
    Guards disk (Unmounted disk) program (Unmounted disk) :=
  (triple_of_asks asks fun _ _ quiet unmounted =>
    ⟨fun _ => unmounted, fun _ => unmounted.append quiet⟩).mono (fun _ holds => holds)
    (fun _ _ holds => holds) fun _ _ => trivial

/-- What does not write to the disk may be done at any time. -/
theorem guards_of_noWrites {program : Io α}
    (asks : Program.Asks (fun call => call.writesDisk = false) program) :
    Guards disk Anything program Anything :=
  triple_of_asks asks fun _ _ quiet _ =>
    ⟨fun writes => absurd (quiet.symm.trans writes) (by decide), fun _ => trivial⟩

/-- A command that may be run at any time, after which nothing is known. -/
theorem guards_diskutil {command : Command} (quiet : (Call.command command).writesDisk = false) :
    Guards disk pre (runDiskutil command) Anything :=
  runDiskutil_triple (fun _ _ writes => absurd (quiet.symm.trans writes) (by decide)) (fun _ _ _ _ => trivial)
    fun _ _ _ _ => trivial

/-- An unmount that succeeds. -/
theorem guards_unmount {command : Command} (quiet : (Call.command command).writesDisk = false)
    (unmounts : ∀ output : Output, output.code = some 0 → Unmounts disk ⟨.command command, .ok output⟩) :
    Guards disk pre (runDiskutil command) (Unmounted disk) :=
  runDiskutil_triple (fun _ _ writes => absurd (quiet.symm.trans writes) (by decide))
    (fun _ output _ success => unmounted_of_unmount (unmounts output success)) fun _ _ _ _ => trivial

theorem guards_unmountDisk : Guards disk pre (unmountDisk disk) (Unmounted disk) :=
  Guards.context (guards_unmount rfl fun output success => ⟨output, success, Or.inl rfl⟩)

theorem guards_unmountDiskForce : Guards disk pre (unmountDiskForce disk) (Unmounted disk) :=
  Guards.context (guards_unmount rfl fun output success => ⟨output, success, Or.inr rfl⟩)

/-- A program that writes beneath the file systems. -/
theorem guards_start {command : Command} {spawning failing : String} {detail : Output → Text} :
    Guards disk (Unmounted disk) (start command spawning failing detail) Anything :=
  start_triple (fun _ unmounted _ => unmounted) (fun _ _ _ _ => trivial) fun _ _ _ _ => trivial

/-- A raw device that is opened while the disk is unmounted. -/
theorem guards_withRaw {opening : String} {path : Text} {body : Geometry → Io α}
    (guards : ∀ geometry, Guards disk (Unmounted disk) (body geometry) (Unmounted disk)) :
    Guards disk (Unmounted disk) (withRaw opening path body) Anything := by
  have opens : Guards disk (Unmounted disk) (openRaw path) (Unmounted disk) := by
    refine guards_of_noMounts ?_
    unfold openRaw
    split
    · exact asks_ask rfl
    · exact asks_bail _
  refine Guards.bind opens.context fun geometry => ?_
  refine Triple.dropping (guards geometry) (fun _ past _ => ?_) fun past _ => ?_
  · exact ⟨fun writes => (by cases writes), fun _ => trivial⟩
  · exact ⟨fun writes => (by cases writes), fun _ => trivial⟩

end Rules

/-! ### The pipelines -/

section Steps

variable {disk : Text} {pre : History → Prop}

theorem Call.noWrites_of_onFiles {call : Call} (files : call.onFiles = true) : call.writesDisk = false := by
  revert files
  unfold Call.onFiles Call.writesDisk
  split <;> simp

theorem raw_noMounts {path : Text} (call : Call) (raw : call.raw = some path) : call.mayMount = false := by
  revert raw
  unfold Call.raw Call.mayMount
  split <;> simp

theorem rereadPartitionTable_guards : Guards disk pre (rereadPartitionTable disk) (Unmounted disk) := by
  refine Guards.bind guards_unmountDisk.attempt fun _ => ?_
  exact Guards.bind (Guards.context (Guards.context (guards_diskutil rfl))) fun _ =>
    Guards.context guards_unmountDiskForce

theorem formatPartition_guards (partitionRaw label : Text) :
    Guards disk (Unmounted disk) (formatPartition disk partitionRaw label) Anything := by
  refine Guards.bind (Guards.context (Guards.bind guards_start fun _ => guards_pure ())) fun _ => ?_
  refine Guards.bind (Guards.context (Guards.context (guards_diskutil rfl))) fun _ => ?_
  exact guards_of_noWrites (findMountForLabel_asks rfl)

theorem eject_guards : Guards disk pre (eject disk) Anything := Guards.context (guards_diskutil rfl)

theorem writeGrub4dosMbrTrack_guards (grldrMbr : Bytes) (info : DeviceInfo) (verify : Bool) :
    Guards disk (Unmounted disk) (writeGrub4dosMbrTrack grldrMbr info verify) Anything := by
  refine guards_withRaw fun geometry => guards_of_noMounts ?_
  exact asks_bind (asks_lift _) fun track => writeFront_asks raw_noMounts _ track verify

/-- Both GRUB4DOS pipelines, whatever they stage on files. -/
theorem runGrub4dos_guards {stage : Text → Io Unit}
    (stages : ∀ mount, Program.Asks (Stages mount) (stage mount)) (checks : Fallible Unit) (grldrMbr : Bytes)
    (plan : WritePlan) (info : DeviceInfo) (verify : Bool) :
    Guards (bsdPathOf info.path) pre (runGrub4dos checks grldrMbr stage plan info verify) Anything := by
  refine Guards.bind (guards_lift checks) fun _ => Guards.bind guards_unmountDisk.context fun _ => ?_
  refine Guards.bind (writeGrub4dosMbrTrack_guards grldrMbr info verify).context fun _ => ?_
  refine Guards.bind rereadPartitionTable_guards fun _ => ?_
  refine Guards.bind (formatPartition_guards _ plan.label) fun mount => ?_
  have quiet := (stages mount).mono fun call staged => Call.noWrites_of_onFiles staged.1
  refine Guards.bind (guards_of_noWrites quiet) fun _ => Guards.bind guards_unmountDisk.context fun _ => ?_
  exact eject_guards.context

theorem hybridRun_guards (plan : WritePlan) (info : DeviceInfo) (verify : Bool) :
    Guards (bsdPathOf info.path) pre (Hybrid.run plan info verify) Anything := by
  refine Guards.bind guards_unmountDisk.context fun _ => guards_withRaw fun geometry => guards_of_noMounts ?_
  exact Hybrid.body_asks raw_noMounts (fun _ => rfl) rfl rfl geometry.blockSize verify

theorem writeMbrSector_guards (bootrec : Windows.Bootrec) (info : DeviceInfo) :
    Guards disk (Unmounted disk) (Windows.writeMbrSector bootrec info) Anything := by
  refine Guards.bind (guards_lift _) fun mbr => guards_withRaw fun geometry => guards_of_noMounts ?_
  exact writeFront_asks raw_noMounts _ mbr true

theorem writeBootRecords_guards (bootrec : Windows.Bootrec) (partitionRaw partitionBsd : Text)
    (verify : Bool) (msSys : Option Text) : Guards disk (Unmounted disk)
      (Windows.writeBootRecords bootrec disk partitionRaw partitionBsd verify msSys) Anything := by
  cases msSys with
  | some msSys =>
    refine Guards.bind (Guards.context (Guards.bind guards_start fun _ => guards_pure ())) fun _ => ?_
    refine Guards.bind guards_unmountDiskForce.context fun _ => ?_
    exact Guards.context (Guards.bind guards_start fun _ => guards_pure ())
  | none =>
    refine Guards.bind guards_unmountDiskForce.context fun _ => Guards.context ?_
    refine guards_withRaw fun geometry => guards_of_noMounts ?_
    exact Windows.spliceBody_asks raw_noMounts bootrec verify

theorem windowsRun_guards (bootrec : Windows.Bootrec) (plan : WritePlan) (info : DeviceInfo)
    (config : RunConfig) : Guards (bsdPathOf info.path) Anything (Windows.run bootrec plan info config) Anything := by
  refine Guards.bind (guards_of_noWrites ?resolve) fun msSys => ?_
  case resolve => exact Windows.resolveMsSys_asks (fun _ => rfl) (fun _ => rfl) (by rfl)
  refine Guards.bind guards_unmountDisk.context fun _ => ?_
  refine Guards.bind (writeMbrSector_guards _ _) fun _ => Guards.bind rereadPartitionTable_guards fun _ => ?_
  refine Guards.bind (formatPartition_guards _ plan.label) fun usbMount => ?_
  have copies := @Windows.copyFromIso_asks _ plan.isoPath usbMount (fun _ => Call.noWrites_of_onFiles) rfl fun _ => rfl
  refine Guards.bind (guards_of_noWrites copies) fun _ => ?_
  refine Guards.bind guards_unmountDisk.context fun _ => ?_
  refine Guards.bind (writeBootRecords_guards _ _ _ _ _) fun _ => ?_
  exact Guards.bind guards_unmountDisk.attempt fun _ => eject_guards.context

theorem startPipeline_guards (parts : Parts) (plan : WritePlan) (info : DeviceInfo) (config : RunConfig) :
    Guards (bsdPathOf info.path) Anything (startPipeline parts plan info config) Anything := by
  unfold startPipeline
  split
  · exact (hybridRun_guards _ _ _).context
  · exact (windowsRun_guards _ _ _ _).context
  · exact (runGrub4dos_guards (fun _ => asks_context (NtXp.stageFiles_stages _ _ _ _ _)) _ _ _ _ _).context
  · exact (runGrub4dos_guards (fun _ => asks_context (Win2000.stageFiles_stages _ _ _)) _ _ _ _ _).context
  · exact fun _ _ => trivial
  · exact fun _ _ => trivial

end Steps

/-- **Nothing is written to a mounted disk**: in every run of a pipeline, each call that formats the disk,
writes boot code, or opens or writes a raw device comes after a successful unmount, with no call in between
after which a volume may be mounted. -/
theorem pipeline_writes_unmounted {parts : Parts} {plan : WritePlan} {info : DeviceInfo} {config : RunConfig}
    {trace before after : History} {event : Event Answer} {result : Fallible Unit}
    (traces : Program.Traces (startPipeline parts plan info config) trace result)
    (split : trace = before ++ event :: after) (writes : event.call.writesDisk = true) :
    Unmounted (bsdPathOf info.path) before :=
  (startPipeline_guards parts plan info config [] trivial).permits traces split writes

/-- A successful unmount of the sample stick. -/
def sampleUnmount : Event Answer := ⟨.command (.unmountDisk (bsdPathOf sampleInfo.path)), .ok ⟨some 0, [], []⟩⟩

/-- The sample stick cannot be opened. -/
def sampleBusy : Event Answer := ⟨.openRaw sampleInfo.path, .error ["disk I/O", "Resource busy"]⟩

/-- A stick that is unmounted and then cannot be opened. -/
theorem pipeline_writes_unmounted_sample : Unmounted (bsdPathOf sampleInfo.path) [sampleUnmount] := by
  have traces : Program.Traces (startPipeline sampleParts (samplePlan .hybrid) sampleInfo sampleRunConfig)
      [sampleUnmount, sampleBusy]
      (.error (.error ["hybrid mode pipeline failed", "opening raw device for write", "disk I/O",
        "Resource busy"])) :=
    .ask _ (.ask _ (.done _))
  have split : [sampleUnmount, sampleBusy] = [sampleUnmount] ++ sampleBusy :: [] := rfl
  exact pipeline_writes_unmounted traces split rfl

end Bootsmith.Pipeline
