/-
**What a setup reads from the staged stick.**

The ISO on the stick is the ISO that was copied, after a run of calls (`stageFiles_calls`). So a file of
`\I386` is what was written last under its name, or else what the ISO has there, and the answer file stands
on the floppy as well, beside the files the floppy came with (`stageFiles_reads`).
-/

import Bootsmith.Driver.Stage
import Bootsmith.Floppy.Run

namespace Bootsmith.Driver

open Bootsmith.Library Bootsmith.Iso Bootsmith.Core

/-! ### What was written last -/

/-- What the calls wrote last under a name. -/
def written : List Call → Bytes → Option Bytes
  | [], _ => none
  | call :: calls, fileName =>
    (written calls fileName).or
      (if isoSortKey fileName = isoSortKey call.fileName then some call.contents else none)

theorem written_append (calls others : List Call) (fileName : Bytes) :
    written (calls ++ others) fileName = (written others fileName).or (written calls fileName) := by
  induction calls with
  | nil => rw [List.nil_append, written, Option.or_none]
  | cons call calls ih => rw [List.cons_append, written, written, ih, Option.or_assoc]

theorem act_eq {call : Call} {files files' : FileMap} (acts : call.act files = some files') :
    files' = files.insert (isoSortKey call.fileName) call.contents := by
  cases call with
  | append name contents => exact (Option.some.inj (Option.ite_none_right_eq_some.mp acts).2).symm
  | replace name contents => exact (Option.some.inj (Option.ite_none_right_eq_some.mp acts).2).symm
  | inject contents => exact (Option.some.inj (Option.ite_none_right_eq_some.mp acts).2).symm

theorem actAll_eq {calls : List Call} {files files' : FileMap} (acts : actAll calls files = some files')
    (fileName : Bytes) :
    files' (isoSortKey fileName) = (written calls fileName).or (files (isoSortKey fileName)) := by
  induction calls generalizing files with
  | nil =>
    obtain rfl := Option.some.inj acts
    rw [written, Option.none_or]
  | cons call calls ih =>
    obtain ⟨middle, one, rest⟩ := Option.bind_eq_some_iff.mp acts
    rw [ih rest, act_eq one, FileMap.insert, written, Option.or_assoc]
    split
    · rw [Option.some_or]
    · rw [Option.none_or]

/-- **A name reads as it was written last**, and as before when it was not written. -/
theorem readFile_of_calls {calls : List Call} {image image' : Image} {value : Unit} (wellFormed : WellFormed image)
    (run : (runCalls calls).run image = .ok value image') {fileName : Bytes} (notDot : NotDot fileName) :
    readFileFromI386 image' fileName
      = (written calls fileName).elim (readFileFromI386 image fileName) fun contents => .ok (some contents) := by
  cases calls with
  | nil =>
    obtain ⟨_, rfl⟩ := (Effect.pure_eq_ok _ _ _ _).mp run
    rfl
  | cons call calls =>
    obtain ⟨middle, one, _⟩ := (runCalls_cons _ _ _ _ _).mp run
    obtain ⟨i386, found⟩ := findI386_of_call one
    obtain ⟨root, rootPlaced, placed, staged, _⟩ := wellFormed.staged found
    have before := staged.represents
    obtain ⟨files, acts, after, _⟩ := staged.runCalls run before
    rw [after.reads fileName notDot, before.reads fileName notDot, actAll_eq acts]
    cases written (call :: calls) fileName with
    | none => rw [Option.none_or, Option.elim_none]
    | some contents => rw [Option.some_or, Option.elim_some]

/-- A floppy with an answer file keeps its other files. -/
theorem readFile_of_addWinntSif {sif : Bytes} {asset floppy : Image} {value : Unit}
    (added : (Floppy.addWinntSif sif).run asset = .ok value floppy) {layout : Floppy.Fat12Layout}
    (consistent : Floppy.Consistent layout asset) (boot : Floppy.BootReserved layout)
    (unique : (Floppy.volumeOf layout asset).UniqueNames layout) {name : Floppy.DosName}
    (plain : (Floppy.volumeOf layout asset).Plain layout name) :
    Floppy.readFile floppy name
      = if name = Floppy.winntSifDosName then .ok (some sif) else Floppy.readFile asset name := by
  have step := Floppy.addFile_step consistent boot Floppy.winntSif_encoded added
  obtain ⟨files, before⟩ := consistent.reads
  rw [step.reads unique files before name ((step.plain name).mpr plain), Function.update_apply, before name plain]
  split <;> rfl

/-! ### The calls of a staging -/

/-- The calls that put the answer file on the ISO. -/
def sifCalls (config : Config) : List Call :=
  config.unattended.elim [] fun unattended => [.inject (toUtf8 (Unattended.generateWinntSifNtXp unattended))]

/-- The calls that put the drivers on the ISO: none without a folder. -/
def DriverCalls (order : HashOrder) (folderAt : Text → Folder) (config : Config) (image : Image)
    (calls : List Call) : Prop :=
  match config.ahciDriverDir with
  | none => calls = []
  | some dir => ∃ slipstream : Slipstream order (folderAt dir) image, slipstream.calls = calls

/-- The floppy with the answer file when there is one, and else the asset. -/
def AnswerFloppy (asset : Image) (config : Config) (floppy : Image) : Prop :=
  config.unattended.elim (floppy = asset) fun unattended =>
    (Floppy.addWinntSif (toUtf8 (Unattended.generateWinntSifNtXp unattended))).run asset = .ok () floppy

section Run

variable {order : HashOrder} {assets : Assets} {folderAt : Text → Folder} {stick stick' : Stick} {image : Image}

theorem stageDrivers_calls (config : Config) (there : stick.xpIso = some image)
    (run : (stageDrivers order folderAt config.ahciDriverDir).run stick = .ok () stick') :
    ∃ image' calls, DriverCalls order folderAt config image calls ∧
      (runCalls calls).run image = .ok () image' ∧ stick' = { stick with xpIso := some image' } := by
  unfold DriverCalls
  cases named : config.ahciDriverDir with
  | none =>
    rw [named] at run
    obtain ⟨_, rfl⟩ := (Effect.pure_eq_ok _ _ _ _).mp run
    refine ⟨image, [], rfl, rfl, ?_⟩
    rw [← there]
  | some dir =>
    rw [named] at run
    obtain ⟨image', slipstreams, rfl⟩ := onXpIso_eq_ok there ((Effect.context_eq_ok _ _ _ _ _).mp run)
    obtain ⟨slipstream, calls⟩ := slipstream_calls slipstreams
    exact ⟨image', slipstream.calls, ⟨slipstream, rfl⟩, calls, rfl⟩

theorem stageUnattended_calls (config : Config) (there : stick.xpIso = some image) {floppy : Image}
    (run : (stageUnattended assets config.unattended).run stick = .ok floppy stick') :
    ∃ image', (runCalls (sifCalls config)).run image = .ok () image' ∧
      AnswerFloppy assets.firadiskIma config floppy ∧ stick' = { stick with xpIso := some image' } := by
  unfold sifCalls AnswerFloppy
  cases asked : config.unattended with
  | none =>
    rw [asked] at run
    obtain ⟨rfl, rfl⟩ := (Effect.pure_eq_ok _ _ _ _).mp run
    refine ⟨image, rfl, rfl, ?_⟩
    rw [← there]
  | some unattended =>
    rw [asked] at run
    obtain ⟨floppy', adds, run⟩ := (Effect.lift_bind_eq_ok _ _ _ _ _).mp run
    rw [Fallible.context_eq_ok, leaves_eq_ok] at adds
    obtain ⟨_, middle, injects, done⟩ := (Effect.bind_eq_ok _ _ _ _ _).mp run
    rw [Effect.context_eq_ok] at injects
    obtain ⟨rfl, rfl⟩ := (Effect.pure_eq_ok _ _ _ _).mp done
    obtain ⟨image', call, rfl⟩ := onXpIso_eq_ok there injects
    exact ⟨image', (runCalls_cons _ _ _ _ _).mpr ⟨image', call, rfl⟩, adds, rfl⟩

/-- **The ISO on the stick is the copied one after a run of calls.** -/
theorem stageFiles_calls {iso : ByteSource} {config : Config}
    (run : (stageFiles order assets folderAt iso config).run stick = .ok () stick') :
    ∃ image floppy drivers, stick'.xpIso = some image ∧ stick'.firadiskIma = some floppy ∧
      DriverCalls order folderAt config (Image.ofBytes iso.rest) drivers ∧
      (runCalls (drivers ++ sifCalls config)).run (Image.ofBytes iso.rest) = .ok () image ∧
      AnswerFloppy assets.firadiskIma config floppy := by
  unfold stageFiles copyIsoAsXpIso at run
  simp only [Effect.bind_eq_ok, Effect.update_eq_ok, exists_eq_left', exists_const] at run
  obtain ⟨_, middle, drivers, floppy, last, answers, rfl⟩ := run
  obtain ⟨image, calls, describes, slipstreams, rfl⟩ := stageDrivers_calls config rfl drivers
  obtain ⟨image', injects, added, rfl⟩ := stageUnattended_calls config rfl answers
  have copied : copyFrom iso [] = iso.rest := copyFrom_eq iso []
  rw [copied] at describes slipstreams
  exact ⟨image', floppy, calls, rfl, rfl, describes,
    (runCalls_append _ _ _ _).mpr ⟨image, slipstreams, injects⟩, added⟩

/-- **What a setup reads from the stick**: a file of `\I386` is what the staging wrote last under its name, and
else what the copied ISO has there. The answer file is on the ISO and on the floppy, which keeps its other files;
without an answer file the floppy is the asset. -/
theorem stageFiles_reads {iso : ByteSource} {config : Config} (wellFormed : WellFormed (Image.ofBytes iso.rest))
    (run : (stageFiles order assets folderAt iso config).run stick = .ok () stick') :
    ∃ image floppy drivers, stick'.xpIso = some image ∧ stick'.firadiskIma = some floppy ∧
      DriverCalls order folderAt config (Image.ofBytes iso.rest) drivers ∧
      (∀ fileName, NotDot fileName → readFileFromI386 image fileName
        = (written (drivers ++ sifCalls config) fileName).elim
          (readFileFromI386 (Image.ofBytes iso.rest) fileName) fun contents => .ok (some contents)) ∧
      (config.unattended = none → floppy = assets.firadiskIma) ∧
      ∀ unattended, config.unattended = some unattended →
        readFileFromI386 image winntSifName = .ok (some (toUtf8 (Unattended.generateWinntSifNtXp unattended))) ∧
        ∀ layout, Floppy.Consistent layout assets.firadiskIma → Floppy.BootReserved layout →
          (Floppy.volumeOf layout assets.firadiskIma).UniqueNames layout →
          ∀ name, (Floppy.volumeOf layout assets.firadiskIma).Plain layout name → Floppy.readFile floppy name
            = if name = Floppy.winntSifDosName then
                .ok (some (toUtf8 (Unattended.generateWinntSifNtXp unattended)))
              else Floppy.readFile assets.firadiskIma name := by
  obtain ⟨image, floppy, drivers, isoThere, floppyThere, describes, calls, answers⟩ := stageFiles_calls run
  have reads := fun fileName (notDot : NotDot fileName) => readFile_of_calls wellFormed calls notDot
  refine ⟨image, floppy, drivers, isoThere, floppyThere, describes, reads, fun none => ?_, fun unattended asked => ?_⟩
  · rw [AnswerFloppy, none] at answers
    exact answers
  rw [AnswerFloppy, asked] at answers
  constructor
  · rw [reads winntSifName ⟨by decide, by decide⟩, written_append, sifCalls, asked]
    rfl
  · intro layout consistent boot unique name plain
    exact readFile_of_addWinntSif answers consistent boot unique plain

end Run

/-! ### A stick with an answer file -/

def sampleAnswers : UnattendedConfig := ⟨none, "User".toList, [], "*".toList, none, none⟩

def answeredConfig : Config := { ahciConfig with unattended := some sampleAnswers, ahciDriverDir := none }

def answeredSif : Bytes := toUtf8 (Unattended.generateWinntSifNtXp sampleAnswers)

theorem answeredSif_length : answeredSif.length = 489 := by
  decide +kernel

/-- The answer file fits into the sample volume without files. -/
theorem answeredSif_fits : AppendFits bareIso (sampleI386 68) (placements (19 * sectorSize) bareRecords)
    winntSifName answeredSif := by
  have sorted : newEnd bareIso (placements (19 * sectorSize) bareRecords) winntSifName answeredSif = 112 := by
    rw [newEnd, sortedRecords, newRecord, bareIso_nextLba]
    rfl
  have length := answeredSif_length
  refine ⟨List.ne_nil_of_length_pos (by omega), by decide, ?_, by omega, by decide, ?_, ?_, ?_⟩
  · rw [bareIso_nextLba]
    decide
  · rw [sorted]
    decide
  · rw [sorted]
    decide
  · rw [bareIso_nextLba, finalLen, length]
    decide

theorem answeredSif_inject : ∃ image, (injectWinntSif answeredSif).run bareIso = .ok () image := by
  obtain ⟨root, rootPlaced, staged⟩ := bareIso_staged
  have length := answeredSif_length
  have nonempty : answeredSif ≠ [] := List.ne_nil_of_length_pos (by omega)
  rw [injectWinntSif, if_neg (by simpa using nonempty)]
  exact ⟨_, (appendFileToI386_run staged).mpr ⟨answeredSif_fits, rfl⟩⟩

theorem answeredSif_add : ∃ floppy, (Floppy.addWinntSif answeredSif).run Floppy.sampleImage = .ok () floppy := by
  have passed : (Floppy.addWinntSif answeredSif).passes (fun _ _ => true) Floppy.sampleImage = true := by
    decide +kernel
  obtain ⟨_, floppy, run, _⟩ := Effect.exists_of_passes passed
  exact ⟨floppy, run⟩

/-- An answer file that goes onto the ISO and onto the floppy completes the staging. -/
theorem answered_completes {image image' floppy : Image}
    (injects : (injectWinntSif answeredSif).run image = .ok () image')
    (adds : (Floppy.addWinntSif answeredSif).run Floppy.sampleImage = .ok () floppy) :
    ∃ stick, (stageFiles .plain ⟨[], Floppy.sampleImage⟩ (fun _ => []) (sourceOf image) answeredConfig).run
      emptyStick = .ok () stick := by
  have copied : copyFrom (sourceOf image) [] = image.bytes := copyFrom_eq (sourceOf image) []
  have same := Image.ofBytes_bytes image
  have answers : (stageUnattended ⟨[], Floppy.sampleImage⟩ (some sampleAnswers)).run
      ⟨some [], some (toUtf8 menuLst), some image, none⟩
      = .ok floppy ⟨some [], some (toUtf8 menuLst), some image', none⟩ := by
    refine (Effect.lift_bind_eq_ok _ _ _ _ _).mpr ⟨floppy, ?_, ?_⟩
    · rw [Fallible.context_eq_ok, leaves_eq_ok]
      exact adds
    · exact (Effect.bind_eq_ok _ _ _ _ _).mpr ⟨(), _, (Effect.context_eq_ok _ _ _ _ _).mpr
        (onXpIso_of_ok rfl injects), (Effect.pure_eq_ok _ _ _ _).mpr ⟨rfl, rfl⟩⟩
  unfold stageFiles copyIsoAsXpIso
  simp only [Effect.bind_eq_ok, Effect.update_eq_ok, exists_eq_left', exists_const]
  rw [copied, same]
  exact ⟨_, (), _, (Effect.pure_eq_ok _ _ _ _).mpr ⟨rfl, rfl⟩, floppy, _, answers, rfl⟩

/-- A setup reads the answers from the ISO and from the floppy. -/
theorem stageFiles_reads_sample : ∃ stick image floppy,
    (stageFiles .plain ⟨[], Floppy.sampleImage⟩ (fun _ => []) (sourceOf bareIso) answeredConfig).run
      emptyStick = .ok () stick ∧
    stick.xpIso = some image ∧ stick.firadiskIma = some floppy ∧
    readFileFromI386 image winntSifName = .ok (some answeredSif) ∧
    Floppy.readFile floppy Floppy.winntSifDosName = .ok (some answeredSif) := by
  obtain ⟨_, injects⟩ := answeredSif_inject
  obtain ⟨_, adds⟩ := answeredSif_add
  obtain ⟨stick, completed⟩ := answered_completes injects adds
  have wellFormed : WellFormed (Image.ofBytes (sourceOf bareIso).rest) := by
    rw [ofBytes_sourceOf]
    exact bareIso_wellFormed
  obtain ⟨image, floppy, drivers, isoThere, floppyThere, _, _, _, answers⟩ := stageFiles_reads wellFormed completed
  obtain ⟨onIso, onFloppy⟩ := answers sampleAnswers rfl
  have reads := onFloppy Floppy.sampleLayout Floppy.sample_consistent (by decide)
    (Floppy.unique_of_empty Floppy.sample_empty) Floppy.winntSifDosName
    (fun slot inside used => absurd used (Floppy.not_used_of_empty Floppy.sample_empty inside))
  rw [if_pos rfl] at reads
  exact ⟨stick, image, floppy, completed, isoThere, floppyThere, onIso, reads⟩

end Bootsmith.Driver
