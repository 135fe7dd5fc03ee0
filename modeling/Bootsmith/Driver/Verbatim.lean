/-
**Patching `TXTSETUP.SIF` is an insertion.**

Deleting the inserted lines gives the old text back byte for byte; what is inserted is one group for each of
the four sections, whole and once, under a header of its section (`Verbatim`). The order in which the hash
map of headers is visited makes no difference, and a text without one of the sections is refused
(`patchTxtsetupSif_verbatim`).
-/

import Bootsmith.Driver.Services

namespace Bootsmith.Driver

open Bootsmith.Library

/-! ### The inserted groups -/

/-- A group that goes whole behind one line of a section. -/
structure Group (all : List Text) (groups : Nat → List Text) (key : String) (adds : List Text) (anchor : Nat) :
    Prop where
  inside : anchor < all.length
  under : sectionAt all anchor = some key.toList
  whole : groups anchor = adds

/-- **The groups of a patch**: one for each of the four sections, and no other line is put in. -/
structure FourGroups (all : List Text) (additions : SectionAdditions) (groups : Nat → List Text) : Prop where
  placed : ∃ load scsi ids disks,
    Group all groups "scsi.load" additions.scsiLoad load ∧
    Group all groups "scsi" additions.scsi scsi ∧
    Group all groups "hardwareidsdatabase" additions.hardwareIdsDatabase ids ∧
    Group all groups "sourcedisksfiles" additions.sourceDisksFiles disks ∧
    ∀ idx, groups idx ≠ [] → idx = load ∨ idx = scsi ∨ idx = ids ∨ idx = disks

/-- A patched text is the old one with four groups put in, and deleting them gives the old one back. -/
structure Verbatim (sif patched : Text) (additions : SectionAdditions) (groups : Nat → List Text) : Prop
    extends FourGroups (splitCrlf sif) additions groups where
  inserted : patched = joinCrlf ((spliceMarked groups 0 (splitCrlf sif)).map Prod.fst)
  deleted : joinCrlf (((spliceMarked groups 0 (splitCrlf sif)).filter fun line => !line.2).map Prod.fst) = sif

section Groups

variable {all : List Text} {additions : SectionAdditions} {groups : Nat → List Text}

/-- The group of one section. -/
theorem Inserted.group (inserted : Inserted all additions groups) (key : String) {adds : List Text}
    (adding : additions.forSection key.toList = some adds) (nonempty : adds ≠ []) :
    ∃ anchor, Group all groups key adds anchor := by
  obtain ⟨anchor, inside, under, whole⟩ := inserted.placed key.toList adds adding nonempty
  exact ⟨anchor, inside, under, whole⟩

/-- A filled place in a section is the anchor of its group. -/
theorem Group.unique {key : String} {adds : List Text} {anchor idx : Nat}
    (group : Group all groups key adds anchor)
    (nonempty : adds ≠ []) (inserted : Inserted all additions groups) (filled : groups idx ≠ [])
    (under : sectionAt all idx = some key.toList) : idx = anchor := by
  refine inserted.once idx anchor filled ?_ (under.trans group.under.symm)
  rw [group.whole]
  exact nonempty

/-- The sections that get lines are the four. -/
theorem forSection_cases {key : Text} {lines : List Text}
    (adding : additions.forSection key = some lines) :
    key = "scsi.load".toList ∨ key = "scsi".toList ∨ key = "hardwareidsdatabase".toList ∨
      key = "sourcedisksfiles".toList := by
  unfold SectionAdditions.forSection at adding
  split_ifs at adding with load scsi ids disks
  · exact Or.inl load
  · exact Or.inr (Or.inl scsi)
  · exact Or.inr (Or.inr (Or.inl ids))
  · exact Or.inr (Or.inr (Or.inr disks))

/-- Groups that are inserted as they should be are four, when none is empty. -/
theorem Inserted.fourGroups (inserted : Inserted all additions groups) (load : additions.scsiLoad ≠ [])
    (scsi : additions.scsi ≠ []) (ids : additions.hardwareIdsDatabase ≠ [])
    (disks : additions.sourceDisksFiles ≠ []) : FourGroups all additions groups := by
  obtain ⟨first, loadGroup⟩ := inserted.group "scsi.load" rfl load
  obtain ⟨second, scsiGroup⟩ := inserted.group "scsi" rfl scsi
  obtain ⟨third, idsGroup⟩ := inserted.group "hardwareidsdatabase" rfl ids
  obtain ⟨fourth, disksGroup⟩ := inserted.group "sourcedisksfiles" rfl disks
  refine ⟨first, second, third, fourth, loadGroup, scsiGroup, idsGroup, disksGroup, fun idx filled => ?_⟩
  obtain ⟨key, adds, adding, under, -⟩ := inserted.only idx filled
  rcases forSection_cases adding with rfl | rfl | rfl | rfl
  · exact Or.inl (loadGroup.unique load inserted filled under)
  · exact Or.inr (Or.inl (scsiGroup.unique scsi inserted filled under))
  · exact Or.inr (Or.inr (Or.inl (idsGroup.unique ids inserted filled under)))
  · exact Or.inr (Or.inr (Or.inr (disksGroup.unique disks inserted filled under)))

end Groups

/-- The section of a line has a header in the text. -/
theorem exists_header_of_sectionAt {all : List Text} {idx : Nat} {key : Text}
    (under : sectionAt all idx = some key) :
    ∃ raw ∈ all, headerKey raw = some key := by
  have member := List.mem_of_getLast? under
  obtain ⟨raw, inside, header⟩ := List.mem_filterMap.mp member
  exact ⟨raw, List.mem_of_mem_take inside, header⟩

/-! ### The patch -/

/-- The sections that `patch_txtsetup_sif` adds lines to. -/
def targetSections : List String := ["SCSI.Load", "SCSI", "HardwareIdsDatabase", "SourceDisksFiles"]

theorem applyAdditions_order (order order' : HashOrder) (sif : Text) (additions : SectionAdditions) :
    applyAdditions order sif additions = applyAdditions order' sif additions := by
  unfold applyAdditions
  dsimp only
  rw [(scanned_scanLines (splitCrlf sif)).group_order order order' additions]

theorem noPanic_applyAdditions (order : HashOrder) (sif : Text) (additions : SectionAdditions) :
    Fallible.NoPanic (applyAdditions order sif additions) := by
  unfold applyAdditions
  dsimp only
  split
  · exact Fallible.noPanic_bail _
  · exact Fallible.noPanic_ok _

theorem noPanic_formatSourceDisksFilesLine (file : Text) :
    Fallible.NoPanic (formatSourceDisksFilesLine file) := by
  unfold formatSourceDisksFilesLine
  split
  · exact Fallible.noPanic_ok _
  · exact Fallible.noPanic_bail _

section Patch

variable (order : HashOrder) (sif service displayName : Text) (files : List Text) (hardwareIds : List (Text × Text))

theorem noPanic_patchTxtsetupSif :
    Fallible.NoPanic (patchTxtsetupSif order sif service displayName files hardwareIds) := by
  unfold patchTxtsetupSif
  split
  · exact Fallible.noPanic_bail _
  · split
    · exact Fallible.noPanic_bail _
    · refine (Fallible.noPanic_okOr _ _).bind fun driverSys => ?_
      dsimp only
      split
      · exact Fallible.noPanic_bail _
      · refine (Fallible.noPanic_mapM noPanic_formatSourceDisksFilesLine files).bind fun rows => ?_
        exact (noPanic_applyAdditions order sif _).bind fun text => Fallible.noPanic_ok _

variable {order sif service displayName files hardwareIds}

/-- What a successful patch did. -/
theorem SifPatched.verbatim {patched driverSys : Text} {groups : Nat → List Text}
    (patching : SifPatched sif service displayName files hardwareIds patched driverSys groups) :
    Verbatim sif patched (additionsFor service driverSys displayName files hardwareIds) groups := by
  have listed : files.map sourceDisksFilesLine ≠ [] :=
    List.ne_nil_of_mem (List.mem_map_of_mem (List.mem_of_find?_eq_some patching.driver))
  have ids : (pciHardwareIds hardwareIds).map hardwareIdLineOf ≠ [] :=
    fun none => patching.pci (List.map_eq_nil_iff.mp none)
  refine ⟨patching.inserted.fourGroups ?_ ?_ ids listed, ?_, ?_⟩
  · exact List.cons_ne_nil _ _
  · exact List.cons_ne_nil _ _
  · rw [spliceMarked_map_fst]
    exact patching.text
  · rw [spliceMarked_filter, joinCrlf_splitCrlf]

/-- A patch of a text without one of the sections does not succeed. -/
theorem SifPatched.section_present {patched driverSys : Text} {groups : Nat → List Text}
    (patching : SifPatched sif service displayName files hardwareIds patched driverSys groups) {sec : String}
    (target : sec ∈ targetSections) : ∃ raw ∈ splitCrlf sif, headerKey raw = some (lower sec.toList) := by
  obtain ⟨load, scsi, ids, disks, loadGroup, scsiGroup, idsGroup, disksGroup, -⟩ := patching.verbatim.placed
  simp only [targetSections, List.mem_cons, List.not_mem_nil, or_false] at target
  rcases target with rfl | rfl | rfl | rfl
  · exact exists_header_of_sectionAt loadGroup.under
  · exact exists_header_of_sectionAt scsiGroup.under
  · exact exists_header_of_sectionAt idsGroup.under
  · exact exists_header_of_sectionAt disksGroup.under

end Patch

/-- **Patching `TXTSETUP.SIF`** puts in one group for each of the four sections and keeps the rest byte for
byte, in whatever order the hash map is visited; a text without one of the sections is refused. -/
theorem patchTxtsetupSif_verbatim (order : HashOrder) (sif service displayName : Text)
    (files : List Text)
    (hardwareIds : List (Text × Text)) :
    (∀ patched, patchTxtsetupSif order sif service displayName files hardwareIds = .ok patched →
      ∃ driverSys groups, files.find? (fun file => endsWith (lower file) ".sys") = some driverSys ∧
        Verbatim sif patched.text (additionsFor service driverSys displayName files hardwareIds) groups ∧
        (CleanNames service displayName files hardwareIds →
          splitCrlf patched.text = (spliceMarked groups 0 (splitCrlf sif)).map Prod.fst)) ∧
    (∀ order', patchTxtsetupSif order' sif service displayName files hardwareIds =
      patchTxtsetupSif order sif service displayName files hardwareIds) ∧
    ∀ sec ∈ targetSections, (∀ raw ∈ splitCrlf sif, headerKey raw ≠ some (lower sec.toList)) →
      ∃ chain, patchTxtsetupSif order sif service displayName files hardwareIds = .error (.error chain) := by
  refine ⟨fun patched run => ?_, fun order' => ?_, fun sec target missing => ?_⟩
  · obtain ⟨driverSys, groups, patching⟩ := patchTxtsetupSif_eq_ok run
    refine ⟨driverSys, groups, patching.driver, patching.verbatim, fun clean => ?_⟩
    rw [patching.lines clean, spliceMarked_map_fst]
  · unfold patchTxtsetupSif
    simp only [applyAdditions_order order' order]
  · refine (noPanic_patchTxtsetupSif order sif service displayName files hardwareIds).exists_error fun patched run => ?_
    obtain ⟨driverSys, groups, patching⟩ := patchTxtsetupSif_eq_ok run
    obtain ⟨raw, member, header⟩ := patching.section_present target
    exact missing raw member header

/-- The sample text is patched, and the empty text is refused. -/
theorem patchTxtsetupSif_verbatim_sample :
    (∃ patched driverSys groups,
      patchTxtsetupSif .plain sampleSif "ahci".toList "AHCI".toList ["ahci.sys".toList]
        [("PCI\\A".toList, "ahci".toList)] = .ok patched ∧
      Verbatim sampleSif patched.text (additionsFor "ahci".toList driverSys "AHCI".toList ["ahci.sys".toList]
        [("PCI\\A".toList, "ahci".toList)]) groups) ∧
    ∃ chain, patchTxtsetupSif .plain [] "ahci".toList "AHCI".toList ["ahci.sys".toList]
      [("PCI\\A".toList, "ahci".toList)] = .error (.error chain) := by
  have patches : (patchTxtsetupSif .plain sampleSif "ahci".toList "AHCI".toList ["ahci.sys".toList]
      [("PCI\\A".toList, "ahci".toList)]).toOption.isSome := by decide
  obtain ⟨patched, run⟩ := Fallible.exists_ok patches
  obtain ⟨driverSys, groups, -, verbatim, -⟩ := (patchTxtsetupSif_verbatim .plain sampleSif "ahci".toList
    "AHCI".toList ["ahci.sys".toList] [("PCI\\A".toList, "ahci".toList)]).1 patched run
  refine ⟨⟨patched, driverSys, groups, run, verbatim⟩, ?_⟩
  exact (patchTxtsetupSif_verbatim .plain [] "ahci".toList "AHCI".toList ["ahci.sys".toList]
    [("PCI\\A".toList, "ahci".toList)]).2.2 "SCSI.Load" (by decide) (by decide)

end Bootsmith.Driver
