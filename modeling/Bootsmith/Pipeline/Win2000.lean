/-
**What a Windows 2000 run stages, and what its setup reads.**

* `Win2000.stageFiles_leaves`: staging leaves the boot loader, the menu, the ISO and the floppy, the last two with
  the answer file in them when a setup is unattended;
* `win2000_setup_reads`: a successful run wrote these files and nothing else, and a setup reads the
  answer file from both places and everything else as it came.
-/

import Bootsmith.Driver.Installed
import Bootsmith.Pipeline.Staged

namespace Bootsmith.Pipeline

open Bootsmith.Library Bootsmith.Disk Bootsmith.Core Exchange

variable {κ : Type}

namespace Win2000

/-! ### The files -/

/-- The answer file of a setup. -/
def sifOf (unattended : UnattendedConfig) : Bytes := toUtf8 (Unattended.generateWinntSif2000 unattended)

/-- The files of the stick, with their keys. -/
def entries (fold : Text → κ) (mount : Text) (assets : Assets) (win2kIso svbusIma : Image) : List (κ × Node) :=
  [(fold (join mount "GRLDR".toList), .file assets.grldr),
    (fold (join mount "menu.lst".toList), .file (toUtf8 menuLst)),
    (fold (join mount "WIN2K.ISO".toList), .file win2kIso.bytes),
    (fold (join mount "SVBUS.IMA".toList), .file svbusIma.bytes)]

/-- The paths of the files have different keys. -/
def Apart (fold : Text → κ) (mount : Text) : Prop :=
  (["GRLDR".toList, "menu.lst".toList, "WIN2K.ISO".toList, "SVBUS.IMA".toList].map fun name =>
    fold (join mount name)).Nodup

/-- The ISO and the floppy of a staging: as they came, or with the answer file. -/
def Answered (iso asset : Image) (answers : Option UnattendedConfig) (win2kIso svbusIma : Image) : Prop :=
  answers.elim (win2kIso = iso ∧ svbusIma = asset) fun unattended =>
    (Iso.injectWinntSif (sifOf unattended)).run iso = .ok () win2kIso ∧
      (Floppy.addWinntSif (sifOf unattended)).run asset = .ok () svbusIma

section Steps

variable [DecidableEq κ] {fold : Text → κ} {contents : Text → Bytes} {mount : Text} {good : Store κ → Prop}

/-- The copy of the ISO. -/
theorem copyIsoTo_leaves (src dst : Text) :
    Leaves fold (.reliable fold contents) [] good (copyIsoTo src dst) fun _ store =>
      ∃ before, good before ∧ store = before.put (fold dst) (.file (contents src)) := by
  refine Triple.bind (openFile_leaves (fun _ => And.left) _ _) fun opened => ?_
  refine Triple.bind (createFile_leaves _ _) fun _ => ?_
  refine Triple.bind (leaves_of_asks (asks_ask rfl)) fun _ => ?_
  refine (copyChunks_leaves _ _ _ _ _).mono (fun _ => id) (fun _ past left => left.mono ?_) fun _ => id
  rintro store ⟨_, ⟨before, ⟨holds, bytes⟩, rfl⟩, rfl⟩
  exact ⟨before, holds, by rw [Store.put_append, bytes, List.nil_append]⟩

/-- The ISO is edited behind the floppy, and is not the floppy. -/
theorem floppyStep_leaves (assets : Assets) (apart : Apart fold mount) (iso : Bytes)
    (answers : Option UnattendedConfig) :
    Leaves fold (.reliable fold contents) []
      (fun store => ∃ before, good before ∧ store = before.put (fold (join mount "WIN2K.ISO".toList)) (.file iso))
      (floppyStep assets mount (join mount "WIN2K.ISO".toList) answers) fun _ store =>
        ∃ before win2kIso svbusIma, good before ∧
          Answered (Image.ofBytes iso) assets.svbusIma answers win2kIso svbusIma ∧
          store = (before.put (fold (join mount "WIN2K.ISO".toList)) (.file win2kIso.bytes)).put
            (fold (join mount "SVBUS.IMA".toList)) (.file svbusIma.bytes) := by
  have keys : fold (join mount "WIN2K.ISO".toList) ≠ fold (join mount "SVBUS.IMA".toList) := fun same =>
    absurd (List.inj_on_of_nodup_map apart (by decide) (by decide) same) (by decide)
  cases answers with
  | none =>
    refine (writeFile_leaves _ _).mono (fun _ => id) (fun _ past left => left.mono ?_) fun _ => id
    rintro store ⟨_, ⟨before, holds, rfl⟩, rfl⟩
    exact ⟨before, Image.ofBytes iso, assets.svbusIma, holds, ⟨rfl, rfl⟩, by rw [Image.bytes_ofBytes]⟩
  | some unattended =>
    refine Triple.liftThen (fun svbusIma adds => ?_) fun _ _ => trivial
    rw [Fallible.context_eq_ok, Driver.leaves_eq_ok] at adds
    refine Triple.bind (writeFile_leaves _ _) fun _ => ?_
    refine (editImage_leaves (fun _ => And.right) _ _).context.mono (fun _ => id) (fun _ past left => left.mono ?_)
      fun _ => id
    rintro store ⟨_, image, win2kIso, ⟨_, ⟨before, holds, rfl⟩, rfl⟩, there, injects, rfl⟩
    rw [Store.put_of_ne keys, Store.put_self] at there
    obtain rfl : Image.ofBytes iso = image := by
      rw [Node.file.inj (Option.some.inj there), Image.ofBytes_bytes]
    refine ⟨before, win2kIso, svbusIma, holds, ⟨injects, adds⟩, ?_⟩
    rw [Store.put_comm keys.symm, Store.put_put, Store.put_comm keys]

/-- **What is staged.** -/
theorem stageFiles_leaves (assets : Assets) (plan : WritePlan) (apart : Apart fold mount) (config : Config) :
    Leaves fold (.reliable fold contents) [] (· = .empty) (stageFiles assets plan mount config) fun _ store =>
      ∃ win2kIso svbusIma, Answered (Image.ofBytes (contents plan.isoPath)) assets.svbusIma config.unattended
        win2kIso svbusIma ∧ store = Store.empty.putAll (entries fold mount assets win2kIso svbusIma) := by
  refine Triple.bind (writeFile_leaves _ _) fun _ => ?_
  refine Triple.bind (writeFile_leaves _ _) fun _ => ?_
  refine Triple.bind (copyIsoTo_leaves _ _) fun _ => ?_
  refine Triple.bind (floppyStep_leaves assets apart _ _) fun _ => ?_
  refine (leaves_of_asks (asks_ask rfl)).mono (fun _ => id) (fun _ past left => left.mono ?_) fun _ => id
  rintro store ⟨_, win2kIso, svbusIma, ⟨_, ⟨_, rfl, rfl⟩, rfl⟩, answered, rfl⟩
  exact ⟨win2kIso, svbusIma, answered, rfl⟩

end Steps

/-! ### What is read -/

section Read

variable {iso asset win2kIso svbusIma : Image} {answers : Option UnattendedConfig}

/-- The ISO after the answer file. -/
theorem Answered.readsIso (answered : Answered iso asset answers win2kIso svbusIma) {unattended : UnattendedConfig}
    (asked : answers = some unattended) (wellFormed : Iso.WellFormed iso) {fileName : Bytes}
    (notDot : Iso.NotDot fileName) : Iso.readFileFromI386 win2kIso fileName
      = if Iso.isoSortKey fileName = Iso.isoSortKey Iso.winntSifName then .ok (some (sifOf unattended))
        else Iso.readFileFromI386 iso fileName := by
  subst asked
  have calls : (Iso.runCalls [.inject (sifOf unattended)]).run iso = .ok () win2kIso :=
    (Iso.runCalls_cons _ _ _ _ _).mpr ⟨win2kIso, answered.1, rfl⟩
  have last : Driver.written [.inject (sifOf unattended)] fileName
      = if Iso.isoSortKey fileName = Iso.isoSortKey Iso.winntSifName then some (sifOf unattended) else none :=
    Option.none_or
  rw [Driver.readFile_of_calls wellFormed calls notDot, last]
  split
  · rw [Option.elim_some]
  · rw [Option.elim_none]

end Read

end Win2000

/-! ### The run -/

/-- **What a Windows 2000 setup reads after a run**: wherever the paths of the four files have different keys, every
successful run wrote the four files below the mount point and nothing else, and wrote them after the format. Without
answers the ISO and the floppy are as they came. With answers both have the answer file, and every other file reads
as before. -/
theorem win2000_setup_reads [DecidableEq κ] (fold : Text → κ) (contents : Text → Bytes) {parts : Parts}
    {plan : WritePlan} {info : DeviceInfo} {config : RunConfig} {trace : History} (mode : plan.mode = .windows2000)
    (traces : Program.Traces (startPipeline parts plan info config) trace (.ok ()))
    (stable : Stable contents trace) (edited : Edited fold trace)
    (apart : Win2000.Apart fold (volumePath plan.label)) :
    ∃ win2kIso svbusIma,
      (∀ key node, wrote fold trace key = some node ↔
        (key, node) ∈ Win2000.entries fold (volumePath plan.label) parts.win2000 win2kIso svbusIma) ∧
      WritesFormatted (partitionOf info.path) plan.label trace ∧
      (config.unattended = none →
        win2kIso = Image.ofBytes (contents plan.isoPath) ∧ svbusIma = parts.win2000.svbusIma) ∧
      ∀ unattended, config.unattended = some unattended →
        (Iso.WellFormed (Image.ofBytes (contents plan.isoPath)) → ∀ fileName, Iso.NotDot fileName →
          Iso.readFileFromI386 win2kIso fileName
            = if Iso.isoSortKey fileName = Iso.isoSortKey Iso.winntSifName then .ok (some (Win2000.sifOf unattended))
              else Iso.readFileFromI386 (Image.ofBytes (contents plan.isoPath)) fileName) ∧
        ∀ layout, Floppy.Consistent layout parts.win2000.svbusIma → Floppy.BootReserved layout →
          (Floppy.volumeOf layout parts.win2000.svbusIma).UniqueNames layout →
          ∀ name, (Floppy.volumeOf layout parts.win2000.svbusIma).Plain layout name → Floppy.readFile svbusIma name
            = if name = Floppy.winntSifDosName then .ok (some (Win2000.sifOf unattended))
              else Floppy.readFile parts.win2000.svbusIma name := by
  have stages : Leaves fold (.reliable fold contents) [] (· = .empty) (startPipeline parts plan info config)
      fun _ store => ∃ win2kIso svbusIma, Win2000.Answered (Image.ofBytes (contents plan.isoPath))
        parts.win2000.svbusIma config.unattended win2kIso svbusIma ∧ store = Store.empty.putAll
          (Win2000.entries fold (volumePath plan.label) parts.win2000 win2kIso svbusIma) := by
    unfold startPipeline
    rw [mode]
    exact Triple.context (runGrub4dos_leaves (Triple.context (Win2000.stageFiles_leaves _ plan apart config.toConfig)))
  have left : Left fold (.reliable fold contents) [] _ ([] ++ trace) :=
    (stages [] ⟨List.nil_subset _, fun _ => rfl⟩).holds traces
  obtain ⟨win2kIso, svbusIma, answered, staged⟩ := left.holds ⟨stable, edited⟩
  rw [List.nil_append] at staged
  refine ⟨win2kIso, svbusIma, fun key node => ?files, pipeline_writes_formatted traces, fun none => ?_,
    fun unattended asked => ⟨?_, ?_⟩⟩
  case files =>
    rw [staged]
    exact Store.putAll_empty apart
  · rw [Win2000.Answered, none] at answered
    exact answered
  · exact fun wellFormed fileName notDot => answered.readsIso asked wellFormed notDot
  · rw [Win2000.Answered, asked] at answered
    exact fun layout consistent boot unique name plain =>
      Driver.readFile_of_addWinntSif answered.2 consistent boot unique plain

/-- The checks accept a stick that has just enough room. -/
theorem Win2000.checks_accept {grldrMbr : Bytes} {assets : Win2000.Assets} {plan : WritePlan}
    (length : grldrMbr.length = 8192) (filled : assets.grldr ≠ []) (size : assets.svbusIma.size = 1474560) : (do
      validateAssets grldrMbr assets.grldr "SVBUS.IMA" assets.svbusIma.size
      Win2000.validateCapacity assets plan (sampleUsable (Win2000.neededBytes assets plan)) : Fallible Unit)
      = .ok () := by
  rw [Fallible.bind_eq_ok]
  refine ⟨(), validateAssets_accepts length filled size _, ?_⟩
  unfold Win2000.validateCapacity
  rw [Fallible.guard_eq_ok]
  exact ⟨not_lt.mpr (sampleUsable_usable _).ge, rfl⟩

/-- A run for Windows 2000. -/
theorem sampleWin2000_runs : ∃ final : RawDevice,
    Program.on (diskMachine []) (startPipeline sampleParts (samplePlan .windows2000)
      (sampleUsable (Win2000.neededBytes sampleParts.win2000 (samplePlan .windows2000)))
      { sampleRunConfig with verify := false }) sampleStick = (.ok (), final) := by
  have filled : sampleParts.win2000.grldr ≠ [] := List.ne_nil_of_length_pos (by
    rw [show sampleParts.win2000.grldr.length = 283887 from List.length_replicate]
    norm_num)
  have accepted := @Win2000.checks_accept _ _ (samplePlan .windows2000)
    (List.length_replicate : sampleParts.grldrMbr.length = 8192) filled rfl
  have stages : ∀ device : RawDevice, Program.on (diskMachine []) (Exchange.context
      "staging GRUB4DOS/SVBus Win2k payload" (Win2000.stageFiles sampleParts.win2000 (samplePlan .windows2000)
        (volumePath "BOOTSMITH".toList) sampleRunConfig.toConfig)) device = (.ok (), device) :=
    fun device => on_context_of_ok (on_bind_of_ok (copyChunks_runs "read ISO" "write WIN2K.ISO" _ device) _) _
  obtain ⟨final, runs⟩ := @runGrub4dos_runs _ (fun usbMount => Exchange.context "staging GRUB4DOS/SVBus Win2k payload"
    (Win2000.stageFiles sampleParts.win2000 (samplePlan .windows2000) usbMount sampleRunConfig.toConfig))
    (samplePlan .windows2000) _ accepted stages
  exact ⟨final, on_context_of_ok runs _⟩

/-- A run on a machine whose files are empty, without answers. -/
theorem win2000_setup_reads_sample : ∃ trace,
    Program.Traces (startPipeline sampleParts (samplePlan .windows2000)
      (sampleUsable (Win2000.neededBytes sampleParts.win2000 (samplePlan .windows2000)))
      { sampleRunConfig with verify := false }) trace (.ok ()) ∧
    ∀ key node, wrote id trace key = some node ↔ (key, node) ∈ Win2000.entries id (volumePath "BOOTSMITH".toList)
      sampleParts.win2000 (Image.ofBytes []) sampleParts.win2000.svbusIma := by
  obtain ⟨final, runs⟩ := sampleWin2000_runs
  have traces := Program.on_traces (diskMachine [])
    (startPipeline sampleParts (samplePlan .windows2000)
      (sampleUsable (Win2000.neededBytes sampleParts.win2000 (samplePlan .windows2000)))
      { sampleRunConfig with verify := false }) sampleStick
  rw [runs] at traces
  obtain ⟨stable, edited⟩ := reliable_of_diskMachine fun event => Program.asked_answers
  have apart : Win2000.Apart id (volumePath "BOOTSMITH".toList) := by
    unfold Win2000.Apart
    decide
  obtain ⟨win2kIso, svbusIma, files, -, plain, _⟩ := win2000_setup_reads id (fun _ => []) rfl traces stable edited apart
  obtain ⟨rfl, rfl⟩ := plain rfl
  exact ⟨_, traces, files⟩

end Bootsmith.Pipeline
