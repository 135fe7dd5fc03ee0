/-
**The block a group goes to.**

`apply_additions` means to add to the first block of a section. It finds the end of the first run: a header
of the same name does not end it, so the group goes to the first block exactly when no line with text stands
in the rest of the run (`FirstRunEnds`, `patchTxtsetupSif_firstBlock_iff`; `repeated_header` is a text where
it does not).
-/

import Bootsmith.Driver.Blocks
import Bootsmith.Driver.Services

namespace Bootsmith.Driver

open Bootsmith.Library

/-! ### Blocks and sections -/

section Blocks

variable {all : List Text} {key : Text} {header idx : Nat}

/-- A line is in the section that the header in front of it opens. -/
theorem sectionAt_of_behind (opens : headerAt all header = some key) (behind : header ≤ idx)
    (inside : ∀ between, header < between → between ≤ idx → headerAt all between = none) :
    sectionAt all idx = some key := by
  have early : ∀ line, line ≤ idx → headerAt (all.take (idx + 1)) line = headerAt all line := by
    intro line before
    rw [headerAt, headerAt, List.getElem?_take_of_lt (Nat.lt_succ_of_le before)]
  have late : ∀ line, headerAt (all.take (idx + 1)) line ≠ none → line ≤ idx := by
    intro line some
    by_contra past
    refine some ?_
    rw [headerAt, List.getElem?_eq_none]
    · rfl
    · exact (List.length_take_le _ _).trans (Nat.succ_le_of_lt (Nat.lt_of_not_le past))
  have here := (early header behind).trans opens
  cases current : lastHeader (all.take (idx + 1)) with
  | none => cases (headerAt_eq_none_of_lastHeader current header).symm.trans here
  | some sec =>
    obtain ⟨last, opened, nothing⟩ := exists_of_lastHeader current
    have reached : last ≤ idx := late last fun none => by cases none.symm.trans opened
    rcases Nat.lt_trichotomy last header with before | same | after
    · cases (nothing header before).symm.trans here
    · rw [same, here] at opened
      exact current.trans opened.symm
    · cases (inside last after reached).symm.trans ((early last reached).symm.trans opened)

theorem InBlock.sectionAt (inBlock : InBlock all header idx) (opens : headerAt all header = some key) :
    sectionAt all idx = some key :=
  sectionAt_of_behind opens inBlock.1.le inBlock.2.2

theorem InBlock.body (inBlock : InBlock all header idx) : headerAt all idx = none :=
  inBlock.2.2 idx inBlock.1 le_rfl

theorem InBlock.inRun (inBlock : InBlock all header idx) (key : Text) : InRun all key header idx :=
  ⟨inBlock.1, inBlock.2.1, fun between after early other opens => by
    cases (inBlock.2.2 between after early).symm.trans opens⟩

theorem InBlock.mono {earlier : Nat} (inBlock : InBlock all header idx) (behind : header < earlier)
    (early : earlier ≤ idx) : InBlock all header earlier :=
  ⟨behind, early.trans_lt inBlock.2.1, fun between after before => inBlock.2.2 between after (before.trans early)⟩

/-- The anchor of a block is in the section of its header. -/
theorem Anchors.sectionAt {anchor : Nat} (anchors : Anchors all (InBlock all header) header anchor)
    (opens : headerAt all header = some key) : Driver.sectionAt all anchor = some key := by
  rcases anchors.here with rfl | ⟨inBlock, -, -⟩
  · exact sectionAt_of_behind opens le_rfl fun between after before => absurd after (Nat.not_lt_of_le before)
  · exact inBlock.sectionAt opens

end Blocks

/-! ### `TXTSETUP.SIF` -/

/-- The group is put into the first block of its section: behind the last line with text of the block, or
behind the header. -/
def InFirstBlock (all : List Text) (groups : Nat → List Text) (key : Text) (adds : List Text) : Prop :=
  ∃ header anchor, FirstHeader all key header ∧ Anchors all (InBlock all header) header anchor ∧ groups anchor = adds

/-- No line with text stands under a repeated header in the first run of the section. -/
def FirstRunEnds (all : List Text) (key : Text) : Prop :=
  ∀ header idx, FirstHeader all key header → InRun all key header idx → headerAt all idx = none →
    HasText all idx → InBlock all header idx

section Run

variable {all : List Text} {key : Text} {header anchor : Nat}

/-- When the first run ends with the first block, so do the anchors. -/
theorem Anchors.block_of_run (anchors : Anchors all (InRun all key header) header anchor)
    (first : FirstHeader all key header) (ends : FirstRunEnds all key) :
    Anchors all (InBlock all header) header anchor := by
  refine ⟨anchors.here.imp_right fun line => ?_, fun later after inBlock => ?_⟩
  · obtain ⟨inRun, body, text⟩ := line
    exact ⟨ends header anchor first inRun body text, body, text⟩
  · exact anchors.last later after (inBlock.inRun key)

/-- When the anchor of the run is the one of the block, no line with text stands behind the block. -/
theorem Anchors.ends_of_block (anchors : Anchors all (InRun all key header) header anchor)
    (first : FirstHeader all key header) (block : Anchors all (InBlock all header) header anchor) :
    FirstRunEnds all key := by
  intro header' idx first' inRun body text
  rw [← first.unique first'] at inRun ⊢
  have reached : idx ≤ anchor := by
    by_contra past
    exact anchors.last idx (Nat.lt_of_not_le past) inRun body text
  rcases block.here with rfl | ⟨inBlock, -, -⟩
  · exact absurd inRun.1 (Nat.not_lt_of_le reached)
  · exact inBlock.mono inRun.1 reached

end Run

section Patch

variable {order : HashOrder} {sif patched : Text} {additions : SectionAdditions} {key : Text} {adds : List Text}

/-- **A group goes to the first block exactly when the first run ends with it.** -/
theorem inFirstBlock_iff (run : applyAdditions order sif additions = .ok patched)
    (adding : additions.forSection key = some adds) (nonempty : adds ≠ []) :
    InFirstBlock (splitCrlf sif) (spliceGroups order (splitCrlf sif) additions) key adds ↔
      FirstRunEnds (splitCrlf sif) key := by
  have scanned := scanned_scanLines (splitCrlf sif)
  have traced := traced_scanLines (splitCrlf sif)
  obtain ⟨header, found⟩ := Option.isSome_iff_exists.mp (applyAdditions_present run adding nonempty)
  have first := traced.firstSeen key header found
  have anchors := traced.anchorOf found
  have member := mem_of_lookup found
  have group : spliceGroups order (splitCrlf sif) additions
      (anchorOf (scanLines (splitCrlf sif)).lastBodyIdx (key, header)) = adds := by
    refine (scanned.group order additions member).trans ?_
    rw [addsFor, adding, Option.getD_some]
  constructor
  · rintro ⟨header', anchor, first', block, placed⟩
    rw [← first.unique first'] at block
    -- the group is put in once, so it is where the scan puts it
    have same : anchor = anchorOf (scanLines (splitCrlf sif)).lastBodyIdx (key, header) := by
      refine (applyAdditions_inserted run).once _ _ ?_ ?_ ?_
      · rw [placed]
        exact nonempty
      · rw [group]
        exact nonempty
      · rw [block.sectionAt first.opens, (scanned.anchorOf member).2]
    exact anchors.ends_of_block first (same ▸ block)
  · exact fun ends => ⟨header, _, first, anchors.block_of_run first ends, group⟩

end Patch

/-- No group of a patch is empty. -/
theorem additionsFor_nonempty {service driverSys displayName key : Text} {files adds : List Text}
    {hardwareIds : List (Text × Text)} (pci : pciHardwareIds hardwareIds ≠ []) (driver : driverSys ∈ files)
    (adding : (additionsFor service driverSys displayName files hardwareIds).forSection key = some adds) :
    adds ≠ [] := by
  unfold SectionAdditions.forSection additionsFor at adding
  split_ifs at adding <;> obtain rfl := Option.some.inj adding
  · exact List.cons_ne_nil _ _
  · exact List.cons_ne_nil _ _
  · exact fun none => pci (List.map_eq_nil_iff.mp none)
  · exact List.ne_nil_of_mem (List.mem_map_of_mem driver)

/-- **When the groups go to the first blocks**: exactly when in none of the four sections a line with text
stands under a header that repeats the one of the first block. -/
theorem patchTxtsetupSif_firstBlock_iff {order : HashOrder} {sif service displayName : Text}
    {files : List Text}
    {hardwareIds : List (Text × Text)} {patched : Patched}
    (run : patchTxtsetupSif order sif service displayName files hardwareIds = .ok patched) :
    ∃ driverSys, files.find? (fun file => endsWith (lower file) ".sys") = some driverSys ∧
      let additions := additionsFor service driverSys displayName files hardwareIds
      let groups := spliceGroups order (splitCrlf sif) additions
      patched.text = joinCrlf (splice groups 0 (splitCrlf sif)) ∧
      ((∀ key adds, additions.forSection key = some adds → InFirstBlock (splitCrlf sif) groups key adds) ↔
        ∀ key adds, additions.forSection key = some adds → FirstRunEnds (splitCrlf sif) key) := by
  obtain ⟨driverSys, driver, -, pci, applied⟩ := patchTxtsetupSif_applied run
  refine ⟨driverSys, driver, applyAdditions_text applied, ?_⟩
  refine forall_congr' fun key => forall_congr' fun adds => forall_congr' fun adding => ?_
  exact inFirstBlock_iff applied adding (additionsFor_nonempty pci (List.mem_of_find?_eq_some driver) adding)

/-- A section with one header ends its first run with its first block. -/
theorem firstRunEnds_of_once {all : List Text} {key : Text}
    (once : ∀ first second, headerAt all first = some key → headerAt all second = some key → first = second) :
    FirstRunEnds all key := by
  intro header idx first inRun _ _
  refine ⟨inRun.1, inRun.2.1, fun between after early => ?_⟩
  cases opened : headerAt all between with
  | none => rfl
  | some other =>
    obtain rfl := inRun.2.2 between after early other opened
    exact absurd (once _ _ first.opens opened) (Nat.ne_of_lt after)

/-- No header of the sample text is repeated. -/
theorem sampleSif_once {key : Text} (first second : Nat) (opens : headerAt (splitCrlf sampleSif) first = some key)
    (again : headerAt (splitCrlf sampleSif) second = some key) : first = second := by
  have apart : ∀ first < (splitCrlf sampleSif).length, ∀ second < (splitCrlf sampleSif).length,
      headerAt (splitCrlf sampleSif) first = headerAt (splitCrlf sampleSif) second →
        (headerAt (splitCrlf sampleSif) first).isSome → first = second := by decide
  have inside : ∀ {idx}, headerAt (splitCrlf sampleSif) idx = some key → idx < (splitCrlf sampleSif).length := by
    intro idx opens
    by_contra past
    rw [headerAt, List.getElem?_eq_none (Nat.le_of_not_lt past)] at opens
    cases opens
  exact apart first (inside opens) second (inside again) (opens.trans again.symm) (by rw [opens]; rfl)

/-- The sample text is patched in the first blocks. -/
theorem patchTxtsetupSif_firstBlock_sample : ∃ patched driverSys,
    patchTxtsetupSif .plain sampleSif "ahci".toList "AHCI".toList ["ahci.sys".toList]
        [("PCI\\A".toList, "ahci".toList)] = .ok patched ∧
      let additions := additionsFor "ahci".toList driverSys "AHCI".toList ["ahci.sys".toList]
        [("PCI\\A".toList, "ahci".toList)]
      let groups := spliceGroups .plain (splitCrlf sampleSif) additions
      patched.text = joinCrlf (splice groups 0 (splitCrlf sampleSif)) ∧
      ∀ key adds, additions.forSection key = some adds → InFirstBlock (splitCrlf sampleSif) groups key adds := by
  have patches : (patchTxtsetupSif .plain sampleSif "ahci".toList "AHCI".toList ["ahci.sys".toList]
      [("PCI\\A".toList, "ahci".toList)]).toOption.isSome := by decide
  obtain ⟨patched, run⟩ := Fallible.exists_ok patches
  obtain ⟨driverSys, -, text, first⟩ := patchTxtsetupSif_firstBlock_iff run
  exact ⟨patched, driverSys, run, text, first.mpr fun _ _ _ => firstRunEnds_of_once sampleSif_once⟩

/-- A `TXTSETUP.SIF` whose `[SCSI.Load]` header is repeated. -/
def repeatedSif : Text :=
  "[SCSI.Load]\r\n[SCSI.Load]\r\na = a.sys,4\r\n[SourceDisksFiles]\r\n[HardwareIdsDatabase]\r\n[SCSI]\r\n".toList

/-- **A group may go to a later block**: behind `[SCSI.Load]`, `[SCSI.Load]`, `a = a.sys,4` the first block
stays empty. -/
theorem repeated_header : ¬ ∀ (order : HashOrder) (sif service displayName : Text) (files : List Text)
    (hardwareIds : List (Text × Text)) (patched : Patched),
    patchTxtsetupSif order sif service displayName files hardwareIds = .ok patched →
    ∃ driverSys, files.find? (fun file => endsWith (lower file) ".sys") = some driverSys ∧
      ∀ key adds, (additionsFor service driverSys displayName files hardwareIds).forSection key = some adds →
        InFirstBlock (splitCrlf sif)
          (spliceGroups order (splitCrlf sif) (additionsFor service driverSys displayName files hardwareIds))
          key adds := by
  intro claimed
  have patches : (patchTxtsetupSif .plain repeatedSif "ahci".toList "AHCI".toList ["ahci.sys".toList]
      [("PCI\\A".toList, "ahci".toList)]).toOption.isSome := by decide
  obtain ⟨patched, run⟩ := Fallible.exists_ok patches
  obtain ⟨driverSys, driver, first⟩ := claimed _ _ _ _ _ _ patched run
  obtain ⟨driverSys', driver', -, -, applied⟩ := patchTxtsetupSif_applied run
  obtain rfl := Option.some.inj (driver.symm.trans driver')
  have ends := (inFirstBlock_iff applied rfl (List.cons_ne_nil _ _)).mp (first "scsi.load".toList _ rfl)
  have header : FirstHeader (splitCrlf repeatedSif) "scsi.load".toList 0 :=
    ⟨by decide, fun idx before => absurd before (Nat.not_lt_zero _)⟩
  have inRun : InRun (splitCrlf repeatedSif) "scsi.load".toList 0 2 := by
    refine ⟨by decide, by decide, fun between after early other opens => ?_⟩
    have opened : headerAt (splitCrlf repeatedSif) 1 = some "scsi.load".toList := by decide
    have body : headerAt (splitCrlf repeatedSif) 2 = none := by decide
    interval_cases between
    · exact Option.some.inj (opens.symm.trans opened)
    · cases body.symm.trans opens
  have text : HasText (splitCrlf repeatedSif) 2 := ⟨"a = a.sys,4".toList, by decide, by decide⟩
  have block := ends 0 2 header inRun (by decide) text
  have quiet := block.2.2 1 (by decide) (by decide)
  exact absurd quiet (by decide)

end Bootsmith.Driver
