/-
**What a GRUB4DOS run stages.**

`ntXp_stages_stick`: a successful run for Windows NT or XP wrote the files of the stick that `Driver.stageFiles`
describes, and nothing else, so what is proved of that stick holds of what the run wrote.
-/

import Bootsmith.Pipeline.Bootable
import Bootsmith.Pipeline.Files

namespace Bootsmith.Pipeline

open Bootsmith.Library Bootsmith.Disk Bootsmith.Core Exchange

variable {κ : Type}

/-! ### The stick and its files -/

/-- The names of the files. -/
def stickNames : List Text := ["GRLDR".toList, "menu.lst".toList, "XP.ISO".toList, "FIRADISK.IMA".toList]

/-- The file of a name. -/
def fileOf (stick : Driver.Stick) (name : Text) : Option Bytes :=
  if name = "GRLDR".toList then stick.grldr
  else if name = "menu.lst".toList then stick.menuLst
  else if name = "XP.ISO".toList then stick.xpIso.map Image.bytes
  else if name = "FIRADISK.IMA".toList then stick.firadiskIma.map Image.bytes
  else none

/-- The keys of the files. -/
def stickKeys (fold : Text → κ) (mount : Text) : List κ := stickNames.map fun name => fold (join mount name)

/-- **The files of the stick were written**, and nothing else. -/
structure Holds (fold : Text → κ) (mount : Text) (stick : Driver.Stick) (store : Store κ) : Prop where
  files : ∀ name ∈ stickNames, store (fold (join mount name)) = (fileOf stick name).map .file
  nothing : ∀ key, key ∉ stickKeys fold mount → store key = none

/-- The stick before anything is staged. -/
def emptyStick : Driver.Stick := ⟨none, none, none, none⟩

variable {fold : Text → κ} {mount : Text} {stick stick' : Driver.Stick} {store : Store κ}

theorem holds_empty (fold : Text → κ) (mount : Text) : Holds fold mount emptyStick .empty := by
  refine ⟨fun name member => ?_, fun _ _ => rfl⟩
  simp only [fileOf, emptyStick, Option.map_none, ite_self]
  rfl

variable [DecidableEq κ]

/-- A file that is written. -/
theorem Holds.put (holds : Holds fold mount stick store) (apart : (stickKeys fold mount).Nodup) {name : Text}
    (member : name ∈ stickNames) {bytes : Bytes} (here : fileOf stick' name = some bytes)
    (others : ∀ other, other ≠ name → fileOf stick' other = fileOf stick other) :
    Holds fold mount stick' (store.put (fold (join mount name)) (.file bytes)) := by
  refine ⟨fun other otherMember => ?_, fun key outside => ?_⟩
  · by_cases same : other = name
    · rw [same, Store.put_self, here]
      rfl
    · have keys : fold (join mount other) ≠ fold (join mount name) := fun equal =>
        same (List.inj_on_of_nodup_map apart otherMember member equal)
      rw [Store.put_of_ne keys, holds.files other otherMember, others other same]
  · have key : key ≠ fold (join mount name) := fun equal => outside (equal ▸ List.mem_map_of_mem member)
    rw [Store.put_of_ne key, holds.nothing _ outside]

/-! ### The steps -/

section Steps

variable {contents : Text → Bytes}

/-- What is staged, as it is on the stick. -/
abbrev LikeStick {α : Type} (fold : Text → κ) (contents : Text → Bytes) (mount : Text) (program : Io α)
    (effect : Effect Driver.Stick α) : Prop :=
  Simulates fold (.reliable fold contents) (Holds fold mount) program effect

theorem writeFile_likeStick (apart : (stickKeys fold mount).Nodup) {name : Text} (member : name ∈ stickNames)
    {bytes : Bytes} {change : Driver.Stick → Driver.Stick} (here : ∀ stick, fileOf (change stick) name = some bytes)
    (others : ∀ stick other, other ≠ name → fileOf (change stick) other = fileOf stick other) :
    LikeStick fold contents mount (writeFile (join mount name) bytes) (Effect.update change) := by
  refine simulates_change _ (fun good => writeFile_leaves _ _) ?_
  rintro stick before store holds rfl
  exact ⟨change stick, rfl, holds.put apart member (here stick) (others stick)⟩

theorem fileOf_xpIso (stick : Driver.Stick) (image : Image) :
    fileOf { stick with xpIso := some image } "XP.ISO".toList = some image.bytes := rfl

theorem fileOf_others (stick : Driver.Stick) (image : Image) (other : Text) (apart : other ≠ "XP.ISO".toList) :
    fileOf { stick with xpIso := some image } other = fileOf stick other := by
  simp only [fileOf, if_neg apart]

theorem mem_stickNames : "XP.ISO".toList ∈ stickNames := by decide

/-- The copy of the ISO. -/
theorem copyIsoAsXpIso_likeStick (apart : (stickKeys fold mount).Nodup) {isoPath : Text} {iso : ByteSource}
    (rest : iso.rest = contents isoPath) :
    LikeStick fold contents mount (NtXp.copyIsoAsXpIso isoPath (join mount "XP.ISO".toList))
      (Driver.copyIsoAsXpIso iso) := by
  refine simulates_change (fun before store =>
    store = before.put (fold (join mount "XP.ISO".toList)) (.file (contents isoPath))) (fun good => ?_) ?_
  · refine Triple.bind (leaves_of_asks (asks_ask rfl)) fun _ => ?_
    refine Triple.bind (openFile_leaves (fun _ => And.left) _ _) fun opened => ?_
    refine Triple.bind (createFile_leaves _ _) fun _ => (copyChunks_leaves _ _ _ _ _).mono (fun _ => id) ?_ fun _ => id
    refine fun _ past left => left.mono ?_
    rintro store ⟨_, ⟨before, ⟨holds, bytes⟩, rfl⟩, rfl⟩
    exact ⟨before, holds, by rw [Store.put_append, bytes, List.nil_append]⟩
  · rintro stick before store holds rfl
    refine ⟨_, rfl, holds.put apart mem_stickNames ?_ (fileOf_others stick _)⟩
    rw [fileOf_xpIso, Driver.copyFrom_eq, List.nil_append, rest, Image.bytes_ofBytes]

/-- An edit of the staged ISO. -/
theorem editImage_likeStick (apart : (stickKeys fold mount).Nodup) (call : Effect Image Unit) :
    LikeStick fold contents mount (Exchange.ask (.editImage (join mount "XP.ISO".toList) call) id : Io Unit)
      (Driver.onXpIso call) := by
  refine simulates_change (fun before store => ∃ image image',
    before (fold (join mount "XP.ISO".toList)) = some (.file image.bytes) ∧ call.run image = .ok () image' ∧
      store = before.put (fold (join mount "XP.ISO".toList)) (.file image'.bytes)) (fun good => ?_) ?_
  · refine (editImage_leaves (fun _ => And.right) _ call).mono (fun _ => id) ?_ fun _ => id
    refine fun _ past left => left.mono ?_
    rintro store ⟨before, image, image', holds, there, runs, rfl⟩
    exact ⟨before, holds, image, image', there, runs, rfl⟩
  · rintro stick before store holds ⟨image, image', there, runs, rfl⟩
    have same := holds.files _ mem_stickNames
    rw [there] at same
    obtain ⟨bytes, found, equal⟩ := Option.map_eq_some_iff.mp same.symm
    obtain ⟨staged, stagedHere, rfl⟩ := Option.map_eq_some_iff.mp found
    have images : staged = image := by
      rw [← Image.ofBytes_bytes staged, Node.file.inj equal, Image.ofBytes_bytes]
    subst images
    refine ⟨{ stick with xpIso := some image' }, ?_, holds.put apart mem_stickNames rfl (fileOf_others stick _)⟩
    exact Driver.onXpIso_of_ok stagedHere runs

theorem slipstreamStep_likeStick (apart : (stickKeys fold mount).Nodup) (order : Driver.HashOrder)
    (folderAt : Text → Driver.Folder) (dir : Option Text) :
    LikeStick fold contents mount (NtXp.slipstreamStep order folderAt (join mount "XP.ISO".toList) dir)
      (Driver.stageDrivers order folderAt dir) := by
  cases dir with
  | none => exact simulates_pure ()
  | some dir => exact (editImage_likeStick apart _).context

theorem answerStep_likeStick (apart : (stickKeys fold mount).Nodup) (assets : Driver.Assets)
    (unattended : Option UnattendedConfig) :
    LikeStick fold contents mount (NtXp.answerStep assets.firadiskIma (join mount "XP.ISO".toList) unattended)
      (Driver.stageUnattended assets unattended) := by
  cases unattended with
  | none => exact simulates_pure _
  | some unattended =>
    refine Simulates.bind (simulates_lift _) fun firadisk => ?_
    exact Simulates.bind (editImage_likeStick apart _).context fun _ => simulates_pure _

/-- **Staging writes what `Driver.stageFiles` does to the stick.** -/
theorem stageFiles_likeStick (apart : (stickKeys fold mount).Nodup) (order : Driver.HashOrder)
    (assets : Driver.Assets) (folderAt : Text → Driver.Folder) {plan : WritePlan} {iso : ByteSource} (config : Config)
    (rest : iso.rest = contents plan.isoPath) :
    LikeStick fold contents mount (NtXp.stageFiles order assets folderAt plan mount config)
      (Driver.stageFiles order assets folderAt iso config) := by
  refine Simulates.bind (writeFile_likeStick apart (by decide) (fun _ => rfl) fun stick other name => ?_) fun _ => ?_
  · simp only [fileOf, if_neg name]
  refine Simulates.bind (writeFile_likeStick apart (by decide) (fun _ => rfl) fun stick other name => ?_) fun _ => ?_
  · simp only [fileOf, if_neg name]
  refine Simulates.bind (copyIsoAsXpIso_likeStick apart rest) fun _ => ?_
  refine Simulates.bind (slipstreamStep_likeStick apart order folderAt _) fun _ => ?_
  refine Simulates.bind (answerStep_likeStick apart assets _) fun firadisk => Simulates.andThen ?_ (asks_ask rfl)
  refine writeFile_likeStick apart (by decide) (fun _ => rfl) fun stick other name => ?_
  simp only [fileOf, if_neg name]

end Steps

/-! ### The run -/

/-- Both GRUB4DOS pipelines write nothing but what they stage. -/
theorem runGrub4dos_leaves {given : Given} {checks : Fallible Unit} {grldrMbr : Bytes} {stage : Text → Io Unit}
    {plan : WritePlan} {info : DeviceInfo} {verify : Bool} {good : Store κ → Prop}
    (stages : Leaves fold given [] (· = .empty) (stage (volumePath plan.label)) fun _ => good) :
    Leaves fold given [] (· = .empty) (runGrub4dos checks grldrMbr stage plan info verify) fun _ => good := by
  refine Triple.bind (leaves_of_asks (asks_lift _)) fun _ => ?_
  refine Triple.bind (leaves_of_asks (asks_context (asks_context (runDiskutil_asks rfl)))) fun _ => ?_
  refine Triple.bind (leaves_of_asks ?track) fun _ => ?_
  case track => exact asks_context (writeGrub4dosMbrTrack_asks raw_writesNothing rfl rfl rfl)
  refine Triple.bind (leaves_of_asks (rereadPartitionTable_asks rfl rfl rfl)) fun _ => ?_
  refine Triple.bindOnly (leaves_of_asks (formatPartition_asks rfl rfl rfl)) (formatPartition_yields _ _ _) ?_
  refine Triple.bind stages fun _ => ?_
  refine Triple.bind (leaves_of_asks (asks_context (asks_context (runDiskutil_asks rfl)))) fun _ => ?_
  exact leaves_of_asks (asks_context (asks_context (runDiskutil_asks rfl)))

/-- **A run for Windows NT or XP stages the stick**: wherever the paths of the four files have different keys, every
successful run wrote the files of the stick that `Driver.stageFiles` makes of the ISO, below the mount point, and
nothing else, and wrote them after the format. -/
theorem ntXp_stages_stick (fold : Text → κ) (contents : Text → Bytes) {parts : Parts} {plan : WritePlan}
    {info : DeviceInfo} {config : RunConfig} {trace : History} {iso : ByteSource} (mode : plan.mode = .windowsNtXp)
    (traces : Program.Traces (startPipeline parts plan info config) trace (.ok ()))
    (stable : Stable contents trace) (edited : Edited fold trace)
    (apart : (stickKeys fold (volumePath plan.label)).Nodup) (rest : iso.rest = contents plan.isoPath) :
    ∃ stick,
      (Driver.stageFiles parts.order parts.ntXp parts.folderAt iso config.toConfig).run emptyStick = .ok () stick ∧
      Holds fold (volumePath plan.label) stick (wrote fold trace) ∧
      WritesFormatted (partitionOf info.path) plan.label trace := by
  have stages : Leaves fold (.reliable fold contents) [] (· = .empty) (startPipeline parts plan info config)
      fun _ store => ∃ stick, (∃ start, start = emptyStick ∧
        (Driver.stageFiles parts.order parts.ntXp parts.folderAt iso config.toConfig).run start = .ok () stick) ∧
        Holds fold (volumePath plan.label) stick store := by
    unfold startPipeline
    rw [mode]
    refine Triple.context (runGrub4dos_leaves (Triple.context ?_))
    refine (stageFiles_likeStick apart parts.order parts.ntXp parts.folderAt config.toConfig rest (· = emptyStick)).mono
      (fun past left => left.mono ?_) (fun _ _ => id) fun _ => id
    rintro store rfl
    exact ⟨emptyStick, rfl, holds_empty _ _⟩
  have left : Left fold (.reliable fold contents) [] _ ([] ++ trace) :=
    (stages [] ⟨List.nil_subset _, fun _ => rfl⟩).holds traces
  obtain ⟨stick, ⟨_, rfl, runs⟩, holds⟩ := left.holds ⟨stable, edited⟩
  exact ⟨stick, runs, holds, pipeline_writes_formatted traces⟩

/-- A machine whose files are empty, and that edits nothing. -/
theorem reliable_of_diskMachine {trace : History}
    (answers : ∀ event ∈ trace, ∃ state, event.answer = (diskMachine [] event.call state).1) :
    Stable (fun _ => []) trace ∧ Edited (id : Text → Text) trace := by
  constructor
  · intro path opened member
    obtain ⟨state, answer⟩ := answers _ member
    cases answer
    rfl
  · intro before after path call split
    obtain ⟨state, answer⟩ := answers ⟨.editImage path call, .ok ()⟩ (by rw [split]; simp)
    cases answer

/-- A run on a machine whose files are empty stages an empty ISO. -/
theorem ntXp_stages_stick_sample : ∃ trace stick,
    Program.Traces (startPipeline sampleParts (samplePlan .windowsNtXp)
      (sampleUsable (Driver.neededBytes sampleParts.ntXp (samplePlan .windowsNtXp)))
      { sampleRunConfig with verify := false }) trace (.ok ()) ∧
    (Driver.stageFiles sampleParts.order sampleParts.ntXp sampleParts.folderAt ⟨[], fun _ => 1, 0⟩
      sampleRunConfig.toConfig).run emptyStick = .ok () stick ∧
      Holds id (volumePath "BOOTSMITH".toList) stick (wrote id trace) := by
  obtain ⟨final, runs⟩ := sampleStaging_runs
  have traces := Program.on_traces (diskMachine [])
    (startPipeline sampleParts (samplePlan .windowsNtXp)
      (sampleUsable (Driver.neededBytes sampleParts.ntXp (samplePlan .windowsNtXp)))
      { sampleRunConfig with verify := false }) sampleStick
  rw [runs] at traces
  obtain ⟨stable, edited⟩ := reliable_of_diskMachine fun event => Program.asked_answers
  have empty : (⟨[], fun _ => 1, 0⟩ : ByteSource).rest = [] := rfl
  obtain ⟨stick, staged, holds, _⟩ := ntXp_stages_stick id (fun _ => []) rfl traces stable edited (by decide) empty
  exact ⟨_, stick, traces, staged, holds⟩

end Bootsmith.Pipeline
