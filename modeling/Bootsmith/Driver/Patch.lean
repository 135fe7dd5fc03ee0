/-
**What a patch of `TXTSETUP.SIF` leaves.**

The lines of the patched text are the lines of the old one with the groups spliced in
(`SifPatched.lines`): the new lines hold no line feed, so they are read back as they were put in.
-/

import Bootsmith.Driver.Anchors
import Bootsmith.Driver.Txtsetup

namespace Bootsmith.Driver

open Bootsmith.Library

/-! ### `TXTSETUP.SIF` -/

/-- The line a file gets in `[SourceDisksFiles]`. -/
def sourceDisksFilesLine (file : Text) : Text :=
  file ++ " = ".toList ++ ((sourceDisksFilesFormat file).getD "").toList

theorem mapM_formatSourceDisksFilesLine {files rows : List Text}
    (run : files.mapM formatSourceDisksFilesLine = .ok rows) :
    (∀ file ∈ files, (sourceDisksFilesFormat file).isSome) ∧ rows = files.map sourceDisksFilesLine := by
  induction files generalizing rows with
  | nil =>
    obtain rfl := (Fallible.pure_eq_ok _ _).mp run
    exact ⟨fun file member => absurd member List.not_mem_nil, rfl⟩
  | cons file rest ih =>
    rw [List.mapM_cons] at run
    obtain ⟨row, one, run⟩ := (Fallible.bind_eq_ok _ _ _).mp run
    obtain ⟨others, more, run⟩ := (Fallible.bind_eq_ok _ _ _).mp run
    obtain rfl := (Fallible.pure_eq_ok _ _).mp run
    obtain ⟨known, rfl⟩ := ih more
    unfold formatSourceDisksFilesLine at one
    split at one
    · rename_i format found
      obtain rfl := Except.ok.inj one
      refine ⟨fun other member => ?_, by rw [List.map_cons, sourceDisksFilesLine, found]; rfl⟩
      rcases List.mem_cons.mp member with rfl | inRest
      · rw [found]
        rfl
      · exact known other inRest
    · simp at one

/-- The new lines of the four sections. -/
def additionsFor (service driverSys displayName : Text) (files : List Text)
    (hardwareIds : List (Text × Text)) : SectionAdditions :=
  ⟨[scsiLoadLine service driverSys], [scsiLine service displayName],
    (pciHardwareIds hardwareIds).map hardwareIdLineOf, files.map sourceDisksFilesLine⟩

/-- What a successful patch of `TXTSETUP.SIF` checked and did. -/
structure SifPatched (sif service displayName : Text) (files : List Text)
    (hardwareIds : List (Text × Text)) (patched : Text) (driverSys : Text) (groups : Nat → List Text) :
    Prop where
  driver : files.find? (fun file => endsWith (lower file) ".sys") = some driverSys
  formats : ∀ file ∈ files, (sourceDisksFilesFormat file).isSome
  pci : pciHardwareIds hardwareIds ≠ []
  text : patched = joinCrlf (splice groups 0 (splitCrlf sif))
  inserted : Inserted (splitCrlf sif)
    (additionsFor service driverSys displayName files hardwareIds) groups

/-- The calls that a successful patch of `TXTSETUP.SIF` makes. -/
theorem patchTxtsetupSif_applied {order : HashOrder} {sif service displayName : Text} {files : List Text}
    {hardwareIds : List (Text × Text)} {patched : Patched}
    (run : patchTxtsetupSif order sif service displayName files hardwareIds = .ok patched) :
    ∃ driverSys, files.find? (fun file => endsWith (lower file) ".sys") = some driverSys ∧
      (∀ file ∈ files, (sourceDisksFilesFormat file).isSome) ∧ pciHardwareIds hardwareIds ≠ [] ∧
      applyAdditions order sif (additionsFor service driverSys displayName files hardwareIds) = .ok patched.text := by
  unfold patchTxtsetupSif at run
  split at run
  · simp at run
  · split at run
    · simp at run
    · obtain ⟨driverSys, driver, run⟩ := (Fallible.bind_eq_ok _ _ _).mp run
      rw [Fallible.okOr_eq_ok] at driver
      dsimp only at run
      split at run
      · simp at run
      · rename_i pci
        obtain ⟨rows, formatted, run⟩ := (Fallible.bind_eq_ok _ _ _).mp run
        obtain ⟨text, applied, run⟩ := (Fallible.bind_eq_ok _ _ _).mp run
        obtain rfl := (Fallible.pure_eq_ok _ _).mp run
        obtain ⟨formats, rfl⟩ := mapM_formatSourceDisksFilesLine formatted
        exact ⟨driverSys, driver, formats, pci, applied⟩

theorem patchTxtsetupSif_eq_ok {order : HashOrder} {sif service displayName : Text} {files : List Text}
    {hardwareIds : List (Text × Text)} {patched : Patched}
    (run : patchTxtsetupSif order sif service displayName files hardwareIds = .ok patched) :
    ∃ driverSys groups,
      SifPatched sif service displayName files hardwareIds patched.text driverSys groups := by
  obtain ⟨driverSys, driver, formats, pci, applied⟩ := patchTxtsetupSif_applied run
  exact ⟨driverSys, _, driver, formats, pci, applyAdditions_text applied, applyAdditions_inserted applied⟩

/-- The names put into the lines hold no line feed. -/
structure CleanNames (service displayName : Text) (files : List Text)
    (hardwareIds : List (Text × Text)) : Prop where
  service : '\n' ∉ service
  displayName : '\n' ∉ displayName
  files : ∀ file ∈ files, '\n' ∉ file
  hardwareIds : ∀ entry ∈ hardwareIds, '\n' ∉ entry.1 ∧ '\n' ∉ entry.2

theorem sourceDisksFilesFormat_newline (file : Text) :
    '\n' ∉ ((sourceDisksFilesFormat file).getD "").toList := by
  unfold sourceDisksFilesFormat
  split_ifs <;> decide

section Sif

variable {sif service displayName patched driverSys : Text} {files : List Text}
  {hardwareIds : List (Text × Text)} {groups : Nat → List Text}

/-- No new line holds a line feed. -/
theorem additionsFor_newline (clean : CleanNames service displayName files hardwareIds)
    (driver : driverSys ∈ files) {key : Text} {adds : List Text}
    (adding : (additionsFor service driverSys displayName files hardwareIds).forSection key = some adds) :
    ∀ line ∈ adds, '\n' ∉ line := by
  have noService := clean.service
  have noDisplay := clean.displayName
  have noDriver := clean.files driverSys driver
  unfold SectionAdditions.forSection additionsFor at adding
  intro line member
  split_ifs at adding <;> obtain rfl := Option.some.inj adding
  · obtain rfl := List.mem_singleton.mp member
    simp [scsiLoadLine, noService, noDriver]
  · obtain rfl := List.mem_singleton.mp member
    simp [scsiLine, noService, noDisplay]
  · obtain ⟨entry, inIds, rfl⟩ := List.mem_map.mp member
    have noEntry := clean.hardwareIds entry (List.mem_of_mem_filter inIds)
    simp [hardwareIdLineOf, noEntry]
  · obtain ⟨file, inFiles, rfl⟩ := List.mem_map.mp member
    have noFile := clean.files file inFiles
    have noFormat := sourceDisksFilesFormat_newline file
    simp only [sourceDisksFilesLine, List.mem_append, not_or]
    exact ⟨⟨noFile, by decide⟩, noFormat⟩

/-- **The lines of the patched text** are the old ones with the groups spliced in. -/
theorem SifPatched.lines
    (patching : SifPatched sif service displayName files hardwareIds patched driverSys groups)
    (clean : CleanNames service displayName files hardwareIds) :
    splitCrlf patched = splice groups 0 (splitCrlf sif) := by
  rw [patching.text]
  refine splitCrlf_joinCrlf (splice_ne_nil _ _ (splitCrlf_ne_nil _)) fun line member => ?_
  rcases mem_splice member with old | ⟨idx, new⟩
  · exact crlfFree_of_mem old
  · obtain ⟨key, adds, adding, _, same⟩ := patching.inserted.only idx (List.ne_nil_of_mem new)
    rw [same] at new
    have driver := List.mem_of_find?_eq_some patching.driver
    exact crlfFree_of_newline (additionsFor_newline clean driver adding line new)

/-- **Each file has its line in `[SourceDisksFiles]`**: the group of these lines goes behind one line
of the section, and nothing else is put into the section. -/
theorem SifPatched.sourceDisksFiles
    (patching : SifPatched sif service displayName files hardwareIds patched driverSys groups) :
    ∃ anchor, anchor < (splitCrlf sif).length ∧
      sectionAt (splitCrlf sif) anchor = some "sourcedisksfiles".toList ∧
      groups anchor = files.map sourceDisksFilesLine ∧
      ∀ idx, idx ≠ anchor → sectionAt (splitCrlf sif) idx = some "sourcedisksfiles".toList →
        groups idx = [] := by
  have nonempty : files.map sourceDisksFilesLine ≠ [] :=
    List.ne_nil_of_mem (List.mem_map_of_mem (List.mem_of_find?_eq_some patching.driver))
  obtain ⟨anchor, inside, here, group⟩ :=
    patching.inserted.placed "sourcedisksfiles".toList _ rfl nonempty
  refine ⟨anchor, inside, here, group, fun idx other inSection => ?_⟩
  by_contra filled
  exact other (patching.inserted.once idx anchor filled (by rw [group]; exact nonempty)
    (inSection.trans here.symm))

end Sif

end Bootsmith.Driver
