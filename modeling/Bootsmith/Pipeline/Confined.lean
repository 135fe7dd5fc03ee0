/-
**A run stays on the disk that was checked and confirmed.**

Each call of a run that is given a device is given one that names the disk which the target spells, and each
file that is written lies below the mount point of the volume, as long as the folders that are read name their
entries by names that stay in them. Nothing at all is asked before every check of the run has passed
(`run_confined`).
-/

import Bootsmith.Pipeline.Asked

namespace Bootsmith.Pipeline

open Bootsmith.Library Bootsmith.Disk Bootsmith.Core Exchange

/-- The device or partition that a call is given. -/
def Call.device : Call → Option Text
  | .command (.unmountDisk disk) => some disk
  | .command (.unmountDiskForce disk) => some disk
  | .command (.mountDisk disk) => some disk
  | .command (.eject disk) => some disk
  | .command (.newfsMsdosFat32 partition _) => some partition
  | .command (.msSysMbr7 _ disk) => some disk
  | .command (.msSysFat32pe _ partition) => some partition
  | .openRaw path => some path
  | .readRaw path _ _ => some path
  | .writeRaw path _ _ => some path
  | .syncRaw path => some path
  | .closeRaw path => some path
  | _ => none

/-- The spellings of a disk and of its partition that a pipeline uses. -/
def pathsOf (path : Text) : List Text :=
  [path, bsdPathOf path, partitionOf path, partitionOf (bsdPathOf path)]

/-- **The call keeps to the disk and its volume.** -/
def Confined (path label : Text) (call : Call) : Prop :=
  (∀ device, call.device = some device → device ∈ pathsOf path) ∧
    ∀ file, call.written = some file → Below (volumePath label) file

/-- The call keeps to the disk, and to the volume as long as the folders that were read name their entries by
names that stay in them. -/
def Held (path label : Text) (past : History) (call : Call) : Prop :=
  (∀ device, call.device = some device → device ∈ pathsOf path) ∧
    (Named past → ∀ file, call.written = some file → Below (volumePath label) file)

/-! ### The pipelines -/

section Steps

variable {path label : Text} {α β : Type}

/-- The program keeps to the disk, and what it returns satisfies `post`. -/
def Keeps (path label : Text) (program : Io α) (post : α → Prop) : Prop :=
  Triple (Held path label) (fun _ => True) program (fun value _ => post value) fun _ => True

theorem Keeps.bind {program : Io α} {next : α → Io β} {middle : α → Prop} {post : β → Prop}
    (first : Keeps path label program middle)
    (rest : ∀ value, middle value → Keeps path label (next value) post) :
    Keeps path label (program >>= next) post :=
  Triple.bind first fun value past holds => rest value holds past trivial

/-- A program that keeps to the disk by what it asks. -/
theorem keeps_of_asks {program : Io α} (asks : Program.Asks (Confined path label) program) :
    Keeps path label program fun _ => True :=
  triple_of_asks asks fun _ _ confined _ => ⟨⟨confined.1, fun _ => confined.2⟩, fun _ => trivial⟩

theorem Confined.onDevice {call : Call} {device : Text} (given : call.device = some device)
    (member : device ∈ pathsOf path) (files : call.written = none) : Confined path label call := by
  refine ⟨fun other same => ?_, fun file same => absurd (files.symm.trans same) nofun⟩
  rw [given] at same
  obtain rfl := Option.some.inj same
  exact member

theorem Confined.elsewhere {call : Call} (device : call.device = none) (files : call.written = none) :
    Confined path label call :=
  ⟨fun _ same => absurd (device.symm.trans same) nofun, fun _ same => absurd (files.symm.trans same) nofun⟩

/-- Work on files is given no device. -/
theorem Call.device_of_onFiles {call : Call} (files : call.onFiles = true) : call.device = none := by
  revert files
  unfold Call.onFiles Call.device
  split <;> simp

theorem Stages.confined {call : Call} (stages : Stages (volumePath label) call) : Confined path label call :=
  ⟨fun _ given => absurd ((Call.device_of_onFiles stages.1).symm.trans given) nofun, stages.2⟩

theorem mem_pathsOf : path ∈ pathsOf path ∧ bsdPathOf path ∈ pathsOf path ∧ partitionOf path ∈ pathsOf path ∧
    partitionOf (bsdPathOf path) ∈ pathsOf path := by
  simp [pathsOf]

/-- A command of `diskutil` on the disk. -/
theorem diskutil_confined {command : Command} {message : String}
    (given : (Call.command command).device = some (bsdPathOf path)) (files : (Call.command command).written = none) :
    Program.Asks (Confined path label) (Exchange.context message (runDiskutil command)) :=
  asks_context (runDiskutil_asks (Confined.onDevice given mem_pathsOf.2.1 files))

/-- The calls on a raw device of the disk. -/
theorem raw_confined {device : Text} (member : device ∈ pathsOf path) (call : Call)
    (raw : call.raw = some device) : Confined path label call := by
  cases call <;> first | exact Confined.onDevice raw member rfl | cases raw

theorem rereadPartitionTable_confined :
    Program.Asks (Confined path label) (rereadPartitionTable (bsdPathOf path)) := by
  apply rereadPartitionTable_asks <;> exact Confined.onDevice rfl mem_pathsOf.2.1 rfl

theorem formatPartition_keeps : Keeps path label (formatPartition (bsdPathOf path) (partitionOf path) label)
    (· = volumePath label) := by
  refine (Triple.yields (keeps_of_asks (formatPartition_asks ?_ ?_ ?_)) (formatPartition_yields _ _ label)).mono
    (fun _ holds => holds) (fun _ _ holds => holds.2) fun _ holds => holds
  · exact Confined.onDevice rfl mem_pathsOf.2.2.1 rfl
  · exact Confined.onDevice rfl mem_pathsOf.2.1 rfl
  · exact Confined.elsewhere rfl rfl

/-- A raw device of the disk. -/
theorem withRaw_confined {opening : String} {device : Text} {body : Geometry → Io α}
    (member : device ∈ pathsOf path) (asks : ∀ geometry, Program.Asks (Confined path label) (body geometry)) :
    Program.Asks (Confined path label) (withRaw opening device body) :=
  withRaw_asks (Confined.onDevice rfl member rfl) (Confined.onDevice rfl member rfl) asks

end Steps

section Runs

variable {plan : WritePlan} {info : DeviceInfo}

theorem runGrub4dos_keeps {stage : Text → Io Unit}
    (stages : ∀ mount, Program.Asks (Stages mount) (stage mount)) (checks : Fallible Unit) (grldrMbr : Bytes)
    (verify : Bool) :
    Keeps info.path plan.label (runGrub4dos checks grldrMbr stage plan info verify) fun _ => True := by
  refine Keeps.bind (keeps_of_asks (asks_lift _)) fun _ _ => ?_
  refine Keeps.bind (keeps_of_asks (asks_context (diskutil_confined rfl rfl))) fun _ _ => ?_
  refine Keeps.bind (keeps_of_asks (asks_context ?track)) fun _ _ => ?_
  case track =>
    refine withRaw_confined mem_pathsOf.1 fun geometry => asks_bind (asks_lift _) fun track => ?_
    exact writeFront_asks (raw_confined mem_pathsOf.1) _ track verify
  refine Keeps.bind (keeps_of_asks rereadPartitionTable_confined) fun _ _ => ?_
  refine Keeps.bind formatPartition_keeps fun mount found => ?_
  subst found
  refine Keeps.bind (keeps_of_asks ((stages _).mono fun call => Stages.confined)) fun _ _ => ?_
  refine Keeps.bind (keeps_of_asks (asks_context (diskutil_confined rfl rfl))) fun _ _ => ?_
  exact keeps_of_asks (asks_context (diskutil_confined rfl rfl))

theorem hybridRun_confined (verify : Bool) :
    Program.Asks (Confined info.path plan.label) (Hybrid.run plan info verify) := by
  refine asks_bind (asks_context (diskutil_confined rfl rfl)) fun _ => ?_
  have opens : ∀ file, Confined info.path plan.label (.openFile file) := fun _ => Confined.elsewhere rfl rfl
  refine withRaw_confined mem_pathsOf.1 fun geometry => ?_
  refine Hybrid.body_asks (raw_confined mem_pathsOf.1) opens ?_ ?_ geometry.blockSize verify
  all_goals exact Confined.onDevice rfl mem_pathsOf.2.1 rfl

theorem copyFromIso_keeps (isoPath : Text) :
    Keeps info.path plan.label (Windows.copyFromIso isoPath (volumePath plan.label)) fun _ => True := by
  refine Keeps.bind (keeps_of_asks ?attach) fun isoMount _ => ?_
  case attach => exact asks_context (asks_bind (start_asks (Confined.elsewhere rfl rfl)) fun _ => asks_lift _)
  have copies : Keeps info.path plan.label (Windows.copyIsoContents isoMount (volumePath plan.label))
      fun _ => True := by
    refine fun past start => (Windows.copyIsoContents_stages isoMount past start).weaken fun past call stages => ?_
    exact ⟨fun _ given => absurd ((Call.device_of_onFiles stages.1).symm.trans given) nofun, stages.2⟩
  refine Keeps.bind ((Triple.attempt copies).mono (fun _ => id) (fun _ _ _ => trivial) fun _ => id) fun _ _ => ?_
  refine keeps_of_asks (asks_bind (asks_attempt ?detach) fun _ => asks_context (asks_lift _))
  exact asks_bind (start_asks (Confined.elsewhere rfl rfl)) fun _ => asks_pure ()

theorem writeBootRecords_confined (bootrec : Windows.Bootrec) (verify : Bool) (msSys : Option Text) :
    Program.Asks (Confined info.path plan.label) (Windows.writeBootRecords bootrec (bsdPathOf info.path)
      (partitionOf info.path) (partitionOf (bsdPathOf info.path)) verify msSys) := by
  cases msSys with
  | some msSys =>
    refine asks_bind (asks_context (asks_bind (start_asks ?_) fun _ => asks_pure ())) fun _ => ?_
    · exact Confined.onDevice rfl mem_pathsOf.2.1 rfl
    refine asks_bind (asks_context (diskutil_confined rfl rfl)) fun _ => ?_
    refine asks_context (asks_bind (start_asks ?_) fun _ => asks_pure ())
    exact Confined.onDevice rfl mem_pathsOf.2.2.2 rfl
  | none =>
    refine asks_bind (asks_context (diskutil_confined rfl rfl)) fun _ => asks_context ?_
    have partition : partitionOf info.path ∈ pathsOf info.path := mem_pathsOf.2.2.1
    refine withRaw_confined partition fun geometry => ?_
    exact Windows.spliceBody_asks (raw_confined partition) bootrec verify

theorem windowsRun_keeps (bootrec : Windows.Bootrec) (config : RunConfig) :
    Keeps info.path plan.label (Windows.run bootrec plan info config) fun _ => True := by
  refine Keeps.bind (keeps_of_asks ?resolve) fun msSys _ => ?_
  case resolve =>
    refine Windows.resolveMsSys_asks (fun _ => ?_) (fun _ => ?_) ?_
    all_goals exact Confined.elsewhere rfl rfl
  refine Keeps.bind (keeps_of_asks (asks_context (diskutil_confined rfl rfl))) fun _ _ => ?_
  refine Keeps.bind (keeps_of_asks (asks_bind (asks_lift _) fun mbr => ?mbr)) fun _ _ => ?_
  case mbr =>
    refine withRaw_confined mem_pathsOf.1 fun geometry => ?_
    exact writeFront_asks (raw_confined mem_pathsOf.1) _ mbr true
  refine Keeps.bind (keeps_of_asks rereadPartitionTable_confined) fun _ _ => ?_
  refine Keeps.bind formatPartition_keeps fun mount found => ?_
  subst found
  refine Keeps.bind (copyFromIso_keeps _) fun _ _ => ?_
  refine Keeps.bind (keeps_of_asks (asks_context (diskutil_confined rfl rfl))) fun _ _ => ?_
  refine Keeps.bind (keeps_of_asks (writeBootRecords_confined _ _ _)) fun _ _ => ?_
  refine Keeps.bind (keeps_of_asks (asks_attempt (diskutil_confined rfl rfl))) fun _ _ => ?_
  exact keeps_of_asks (asks_context (diskutil_confined rfl rfl))

theorem startPipeline_keeps (parts : Parts) (config : RunConfig) :
    Keeps info.path plan.label (startPipeline parts plan info config) fun _ => True := by
  unfold startPipeline
  split
  · exact keeps_of_asks (asks_context (hybridRun_confined _))
  · exact Triple.context (windowsRun_keeps _ _)
  · exact Triple.context (runGrub4dos_keeps (fun _ => asks_context (NtXp.stageFiles_stages _ _ _ _ _)) _ _ _)
  · exact Triple.context (runGrub4dos_keeps (fun _ => asks_context (Win2000.stageFiles_stages _ _ _)) _ _ _)
  · exact fun _ _ => trivial
  · exact fun _ _ => trivial

end Runs

/-! ### Names -/

section Names

variable {number : Nat}

theorem slash_not_mem_diskName : '/' ∉ diskName number := by
  intro member
  rcases List.mem_append.mp member with inDisk | inDigits
  · revert inDisk
    decide
  · have digit := List.all_eq_true.mp (repr_digits number) _ inDigits
    revert digit
    decide

/-- A text without the first character of a pattern does not hold the pattern. -/
theorem findText_none {first : Char} {pattern text : Text} (absent : first ∉ text) :
    findText (first :: pattern) text = none := by
  induction text with
  | nil => rfl
  | cons char rest ih =>
    have other : ¬ (first :: pattern).isPrefixOf (char :: rest) = true := by
      intro starts
      have same := (List.cons_prefix_cons.mp (List.isPrefixOf_iff_prefix.mp starts)).1
      exact absent (same ▸ List.mem_cons_self)
    rw [findText, if_neg other, ih fun member => absent (List.mem_cons_of_mem _ member)]
    rfl

theorem findText_self {first : Char} {pattern rest : Text} :
    findText (first :: pattern) (first :: pattern ++ rest) = some ([], rest) := by
  have starts : (first :: pattern).isPrefixOf (first :: pattern ++ rest) = true :=
    List.isPrefixOf_iff_prefix.mpr (List.prefix_append _ _)
  show (if (first :: pattern).isPrefixOf (first :: pattern ++ rest) = true then _ else _) = _
  rw [if_pos starts]
  show some ([], (first :: pattern ++ rest).drop (first :: pattern).length) = _
  rw [List.drop_left]

/-- The buffered device of a whole disk. -/
theorem bsdPathOf_rawPath : bsdPathOf (rawPath (diskName number)) = devPrefix ++ diskName number := by
  have found : findText "/dev/r".toList (rawPath (diskName number)) = some ([], diskName number) := findText_self
  have none : findText "/dev/r".toList (diskName number) = none := findText_none slash_not_mem_diskName
  have shorter : (diskName number).length < (rawPath (diskName number)).length := by
    rw [rawPath, List.length_append]
    exact Nat.lt_add_of_pos_left (by decide)
  unfold bsdPathOf
  rw [replaceText, found]
  show (if _ then _ else _) = _
  rw [if_pos shorter, replaceText, none]
  rfl

/-- Each path that a pipeline uses is a spelling of the disk. -/
theorem spells_of_mem {device : Text} (member : device ∈ pathsOf (rawPath (diskName number))) :
    normalizeBsdName device = diskName number := by
  have shape : ∃ raw rest, device = devPrefix ++ raw ++ diskName number ++ rest ∧ (raw = [] ∨ raw = ['r']) ∧
      (rest = [] ∨ rest = ['s', '1']) := by
    have raw : rawPath (diskName number) = devPrefix ++ ['r'] ++ diskName number := rfl
    rw [pathsOf, bsdPathOf_rawPath, raw] at member
    simp only [List.mem_cons, List.not_mem_nil, or_false] at member
    rcases member with rfl | rfl | rfl | rfl
    · exact ⟨['r'], [], by simp, Or.inr rfl, Or.inl rfl⟩
    · exact ⟨[], [], by simp, Or.inl rfl, Or.inl rfl⟩
    · exact ⟨['r'], ['s', '1'], rfl, Or.inr rfl, Or.inr rfl⟩
    · exact ⟨[], ['s', '1'], by simp [partitionOf], Or.inl rfl, Or.inr rfl⟩
  obtain ⟨raw, rest, rfl, isRaw, isRest⟩ := shape
  rw [normalizeBsdName_eq_diskName]
  refine ⟨1, raw, rest, by simp [diskName], isRaw, repr_digits number, fun char first => ?_⟩
  rcases isRest with rfl | rfl
  · cases first
  · obtain rfl := Option.some.inj first
    decide

end Names

/-! ### Whole runs -/

/-- A run that asks anything has started a pipeline. -/
theorem runPipeline_traces {parts : Parts} {host : Host} {config : RunConfig} {trace : History}
    {result : Fallible Unit} (traces : Program.Traces (runPipeline parts host config) trace result) :
    trace = [] ∨ ∃ plan info, Disk.run host config.toConfig = .ok (.started plan info) ∧
      Program.Traces (startPipeline parts plan info config) trace result := by
  unfold runPipeline at traces
  change Program.Traces (Program.bind (.done (Disk.run host config.toConfig)) _) trace result at traces
  cases outcome : Disk.run host config.toConfig with
  | error failure =>
    rw [outcome] at traces
    cases traces
    exact Or.inl rfl
  | ok outcome' =>
    rw [outcome] at traces
    cases outcome' with
    | dryRun plan =>
      cases traces
      exact Or.inl rfl
    | started plan info => exact Or.inr ⟨plan, info, rfl, traces⟩

/-- **A run keeps to the disk that was checked and confirmed**: when anything is asked, every check of the run
has passed, and the user has confirmed; each device that a call is given is that disk or its partition; and
each file that is written lies below the mount point of the volume, as long as the folders that were read name
their entries by names that stay in them. -/
theorem run_confined {parts : Parts} {host : Host} {config : RunConfig} {bootDisk : Nat} {trace : History}
    {result : Fallible Unit} {event : Event Answer} (reports : host.Reports bootDisk)
    (traces : Program.Traces (runPipeline parts host config) trace result) (member : event ∈ trace) :
    ∃ plan disk number, OtherChecks host config.toConfig plan disk ∧
      Spells config.devicePath (Nat.repr number).toList ∧
      (∀ mounted, host.statfs = .ok mounted → number ≠ bootDisk) ∧
      (∀ device, event.call.device = some device → normalizeBsdName device = diskName number) ∧
      (Named trace → ∀ file, event.call.written = some file → Below (volumePath plan.label) file) := by
  rcases runPipeline_traces traces with rfl | ⟨plan, info, started, traces⟩
  · cases member
  obtain ⟨disk, checks, rfl, notBoot⟩ := run_eq_started.mp started
  obtain ⟨number, name⟩ := reports.canonical _ disk checks.found checks.whole
  obtain ⟨before, after, split⟩ := List.append_of_mem member
  have confined := (startPipeline_keeps parts config [] trivial).permits traces split
  refine ⟨plan, disk, number, checks, normalizeBsdName_eq_diskName.mp name, fun mounted found => ?_,
    fun device given => ?_, fun named => confined.2 (named.before split)⟩
  · rintro rfl
    -- a known boot disk is refused
    rw [reports.bootName found, name] at notBoot
    simp [Disk.deviceOf, Except.toOption] at notBoot
  · have listed := confined.1 device given
    change device ∈ pathsOf (rawPath (normalizeBsdName config.devicePath)) at listed
    rw [name] at listed
    exact spells_of_mem listed

set_option maxRecDepth 20000 in
theorem sampleStopped_named : Named (sampleAttached ++ sampleStopped) := by
  intro path listing read
  have shown : (⟨.readTree path, listing⟩ : Event Answer) ∈ (sampleAttached ++ sampleStopped).filter
      fun event => event.call.shows := List.mem_filter.mpr ⟨read, rfl⟩
  have shows : (sampleAttached ++ sampleStopped).filter (fun event => event.call.shows)
      = [⟨.readTree "/Volumes/ISO".toList, .folder "SETUP".toList .nil .nil⟩] := rfl
  rw [shows] at shown
  cases List.mem_singleton.mp shown
  exact ⟨by decide, trivial, trivial⟩

/-- A Windows run on the third disk, where the system is on the first. -/
def sampleElsewhere : Host := { Disk.sampleHost (.ok "/dev/disk0s1".toList) with classify := fun _ => .ok .windows }

def sampleWindowsConfig : RunConfig :=
  { sampleRunConfig with mode := .windows, label := some "BOOTSMITH".toList }

/-- A folder of the ISO is created on the stick. -/
theorem run_confined_sample : ∃ plan disk number,
    OtherChecks sampleElsewhere sampleWindowsConfig.toConfig plan disk ∧
      Spells sampleWindowsConfig.devicePath (Nat.repr number).toList ∧
      (∀ mounted, sampleElsewhere.statfs = .ok mounted → number ≠ 0) ∧
      Below (volumePath plan.label) (Windows.entryPath (volumePath "BOOTSMITH".toList) ["SETUP".toList]) := by
  have reports : sampleElsewhere.Reports 0 := by
    refine ⟨fun bsd disk found _ => ?_, fun mounted found => ⟨"1".toList, ?_⟩⟩
    · unfold sampleElsewhere sampleHost Host.answer at found
      by_cases here : bsd = diskName 3
      · exact ⟨3, here⟩
      · simp [here] at found
    · rw [← Except.ok.inj found]
      decide
  have started : Disk.run sampleElsewhere sampleWindowsConfig.toConfig
      = .ok (.started (samplePlan .windows) sampleInfo) := by
    decide
  have traces : Program.Traces (runPipeline sampleParts sampleElsewhere sampleWindowsConfig)
      (sampleAttached ++ sampleStopped) (.error (.error sampleStop)) := by
    unfold runPipeline
    rw [started]
    exact sampleStopped_traces
  have member : (⟨.createDirAll (Windows.entryPath (volumePath "BOOTSMITH".toList) ["SETUP".toList]),
      .error "No space left"⟩ : Event Answer) ∈ sampleAttached ++ sampleStopped :=
    List.mem_append_right _ (by simp [sampleStopped])
  obtain ⟨plan, disk, number, checks, spells, notBoot, -, files⟩ := run_confined reports traces member
  exact ⟨plan, disk, number, checks, spells, notBoot, files sampleStopped_named _ rfl⟩

end Bootsmith.Pipeline
