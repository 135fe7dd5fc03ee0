/-
**What the readers of `txtsetup.oem` return** (`ntxp_txtsetup.rs`).

* `hardwareIds_eq`: the first pair of each hardware id, unless an id stands with two services;
* `scsiControllers_eq`: the first entry of each id, with the last file of each kind that its
  `[Files.scsi.<id>]` sections name;
* `referencedFilenames_covers`: the files of the controllers are among the referenced files.
-/

import Bootsmith.Driver.Txtsetup
import Bootsmith.Library.Keyed
import Mathlib.Data.List.ReduceOption

namespace Bootsmith.Driver

open Bootsmith.Library

/-! ### Hardware ids -/

/-- The pairs of the usable lines, in the order of the text. -/
def usableIds (sections : List Section) : List (Text × Text) :=
  (linesOf "hardwareids.scsi." sections).filterMap hardwareIdLine

/-- The key of an entry: its first field, up to case. -/
def idKey (entry : Text × Text) : Text := lower entry.1

/-- The entries of one hardware id name one service, up to case. -/
def Consistent (entries : List (Text × Text)) : Prop :=
  ∀ first ∈ entries, ∀ second ∈ entries, idKey first = idKey second → lower first.2 = lower second.2

/-- An entry behind others is consistent with them when it is so with the first one of its id. -/
theorem consistent_concat {seen : List (Text × Text)} {entry : Text × Text}
    (consistent : Consistent seen)
    (agrees : ∀ known ∈ seen, idKey known = idKey entry → lower known.2 = lower entry.2) :
    Consistent (seen ++ [entry]) := by
  intro first inFirst second inSecond same
  rcases List.mem_append.mp inFirst with old | new <;> rcases List.mem_append.mp inSecond with old' | new'
  · exact consistent first old second old' same
  · obtain rfl := List.mem_singleton.mp new'
    exact agrees first old same
  · obtain rfl := List.mem_singleton.mp new
    exact (agrees second old' same.symm).symm
  · rw [List.mem_singleton.mp new, List.mem_singleton.mp new']

/-- The loop has read the listed entries: it holds the first one of each id, or it has failed. -/
def ReadsIds (result : Fallible (List (Text × Text))) (entries : List (Text × Text)) : Prop :=
  (Consistent entries ∧ result = .ok (firsts idKey entries)) ∨
    (¬ Consistent entries ∧ ∃ failure, result = .error failure)

/-- **One line of the loop** reads one more entry. -/
theorem addHardwareId_reads {seen : List (Text × Text)} (consistent : Consistent seen) {line : Text}
    {entry : Text × Text} (reads : hardwareIdLine line = some entry) :
    ReadsIds (addHardwareId (firsts idKey seen) line) (seen ++ [entry]) := by
  unfold addHardwareId ReadsIds
  rw [reads]
  dsimp only
  have search : (firsts idKey seen).find? (fun known => eqIgnoreCase known.1 entry.1)
      = seen.find? fun known => eqIgnoreCase known.1 entry.1 := find?_firsts idKey seen (idKey entry)
  rw [search]
  cases found : seen.find? fun known => eqIgnoreCase known.1 entry.1 with
  | none =>
    have fresh : ∀ known ∈ seen, idKey known ≠ idKey entry := fun known member same =>
      List.find?_eq_none.mp found known member (eqIgnoreCase_iff.mpr same)
    refine Or.inl ⟨consistent_concat consistent fun known member same =>
      absurd same (fresh known member), ?_⟩
    rw [firsts_concat, if_neg]
    intro known
    obtain ⟨other, member, same⟩ := List.any_eq_true.mp known
    exact fresh other ((firsts_sublist idKey seen).mem member) (eq_of_beq same)
  | some known =>
    have member := List.mem_of_find?_eq_some found
    have same : idKey known = idKey entry :=
      eqIgnoreCase_iff.mp (List.find?_some (p := fun known : Text × Text => eqIgnoreCase known.1 entry.1) found)
    dsimp only
    split
    · rename_i agrees
      refine Or.inl ⟨consistent_concat consistent fun other inSeen equal =>
        (consistent other inSeen known member (equal.trans same.symm)).trans (eqIgnoreCase_iff.mp agrees), ?_⟩
      obtain ⟨first, inFirsts, equal⟩ := exists_mem_firsts idKey member
      rw [firsts_concat, if_pos]
      exact List.any_eq_true.mpr ⟨first, inFirsts, beq_iff_eq.mpr (equal.trans same)⟩
    · rename_i differs
      refine Or.inr ⟨fun both => differs (eqIgnoreCase_iff.mpr ?_), _, rfl⟩
      exact both known (List.mem_append_left _ member) entry
        (List.mem_append_right _ (List.mem_singleton_self _)) same

/-- **The whole loop**, by induction on the lines that are left. -/
theorem foldlM_addHardwareId_reads (raws : List Text) {seen : List (Text × Text)}
    (consistent : Consistent seen) :
    ReadsIds (raws.foldlM addHardwareId (firsts idKey seen)) (seen ++ raws.filterMap hardwareIdLine) := by
  induction raws generalizing seen with
  | nil =>
    rw [List.filterMap_nil, List.append_nil]
    exact Or.inl ⟨consistent, rfl⟩
  | cons line rest ih =>
    rw [List.foldlM_cons]
    cases reads : hardwareIdLine line with
    | none =>
      have skips : addHardwareId (firsts idKey seen) line = .ok (firsts idKey seen) := by
        rw [addHardwareId, reads]
      rw [skips, List.filterMap_cons_none reads]
      exact ih consistent
    | some entry =>
      rw [List.filterMap_cons_some reads, ← List.singleton_append, ← List.append_assoc]
      rcases addHardwareId_reads consistent reads with ⟨more, goesOn⟩ | ⟨conflict, failure, stops⟩
      · rw [goesOn]
        exact ih more
      · -- a conflict is not undone by later lines
        rw [stops]
        refine Or.inr ⟨fun all => conflict fun first inFirst second inSecond => ?_, failure, rfl⟩
        exact all first (List.mem_append_left _ inFirst) second (List.mem_append_left _ inSecond)

theorem hardwareIds_eq {text : Text} {sections : List Section} (parsed : parse text = .ok sections) :
    ReadsIds (hardwareIds text) (usableIds sections) := by
  have reads := @foldlM_addHardwareId_reads (linesOf "hardwareids.scsi." sections) []
    fun first member => absurd member List.not_mem_nil
  rw [hardwareIds, parsed]
  exact reads

/-- **The hardware ids of a text.** Reading them fails exactly when two usable lines give one id two
services. Otherwise it returns the usable pairs in the order of their first appearance: different ids,
and each usable line is represented. -/
theorem hardwareIds_spec {text : Text} {sections : List Section} (parsed : parse text = .ok sections) :
    ((∃ failure, hardwareIds text = .error failure) ↔
      ∃ first ∈ usableIds sections, ∃ second ∈ usableIds sections,
        lower first.1 = lower second.1 ∧ lower first.2 ≠ lower second.2) ∧
    ∀ ids, hardwareIds text = .ok ids →
      ids.Sublist (usableIds sections) ∧
      (∀ entry ∈ ids, (usableIds sections).find? (fun other => eqIgnoreCase other.1 entry.1) = some entry) ∧
      DistinctNames (ids.map Prod.fst) ∧
      ∀ pair ∈ usableIds sections, ∃ entry ∈ ids,
        lower entry.1 = lower pair.1 ∧ lower entry.2 = lower pair.2 := by
  rcases hardwareIds_eq parsed with ⟨consistent, result⟩ | ⟨conflict, failure, result⟩
  · refine ⟨⟨?_, ?_⟩, ?_⟩
    · rintro ⟨failure, fails⟩
      rw [result] at fails
      cases fails
    · rintro ⟨first, inFirst, second, inSecond, same, differs⟩
      exact absurd (consistent first inFirst second inSecond same) differs
    · intro ids read
      obtain rfl := Except.ok.inj (result.symm.trans read)
      refine ⟨firsts_sublist _ _, fun entry member => (mem_firsts_iff idKey).mp member, ?_, ?_⟩
      · exact List.pairwise_map.mpr (firsts_distinct idKey _)
      · intro pair member
        obtain ⟨entry, kept, same⟩ := exists_mem_firsts idKey member
        exact ⟨entry, kept, same, consistent entry ((firsts_sublist _ _).mem kept) pair member same⟩
  · refine ⟨⟨fun _ => ?_, fun _ => ⟨failure, result⟩⟩, ?_⟩
    · by_contra none
      push Not at none
      exact conflict none
    · intro ids read
      rw [result] at read
      cases read

/-- Two sections that give one hardware id two services. -/
def twoServices : Text :=
  ("[HardwareIds.scsi.a]\nid = \"PCI\\A\",\"ahci\"\n[HardwareIds.scsi.b]\n"
    ++ "id = \"pci\\a\",\"raid\"\n").toList

set_option maxRecDepth 20000 in
/-- The ids of the two sections are not read. -/
theorem hardwareIds_spec_sample : ∃ failure, hardwareIds twoServices = .error failure := by
  obtain ⟨sections, parsed⟩ := Fallible.exists_ok (show (parse twoServices).toOption.isSome by decide)
  have same : sections = [⟨"HardwareIds.scsi.a".toList, ["id = \"PCI\\A\",\"ahci\"".toList]⟩,
      ⟨"HardwareIds.scsi.b".toList, ["id = \"pci\\a\",\"raid\"".toList]⟩] :=
    Except.ok.inj (parsed.symm.trans (by decide))
  subst same
  exact (hardwareIds_spec parsed).1.mpr ⟨("PCI\\A".toList, "ahci".toList), by decide,
    ("pci\\a".toList, "raid".toList), by decide, by decide, by decide⟩

/-! ### Controllers -/

/-- The lines of the sections with certain names. -/
def bodyOf (named : Text → Bool) (sections : List Section) : List Text :=
  (sections.filter fun sec => named sec.name).flatMap Section.lines

theorem bodyOf_nil (named : Text → Bool) : bodyOf named [] = [] := rfl

theorem bodyOf_cons (named : Text → Bool) (sec : Section) (rest : List Section) :
    bodyOf named (sec :: rest) = (if named sec.name then sec.lines else []) ++ bodyOf named rest := by
  unfold bodyOf
  rw [List.filter_cons]
  split
  · rw [List.flatMap_cons]
  · rw [List.nil_append]

theorem bodyOf_append (named : Text → Bool) (before after : List Section) :
    bodyOf named (before ++ after) = bodyOf named before ++ bodyOf named after := by
  rw [bodyOf, List.filter_append, List.flatMap_append]
  rfl

/-- The name of a `[scsi]` section, up to case. -/
def isScsi (name : Text) : Bool := eqIgnoreCase name "SCSI".toList

/-- The name of the sections with the files of a controller, up to case. -/
def isFilesOf (id name : Text) : Bool := stripPrefix "files.scsi.".toList (lower name) == some (lower id)

/-- The entries of the `[scsi]` sections. -/
def scsiEntries (sections : List Section) : List (Text × Text) :=
  (bodyOf isScsi sections).filterMap controllerLine

/-- The keys and files of the `[Files.scsi.<id>]` sections. -/
def filesOf (sections : List Section) (id : Text) : List (Text × Text) :=
  (bodyOf (isFilesOf id) sections).filterMap fileLine

/-- The last file of a kind that the sections of a controller name. -/
def fileOf (sections : List Section) (id : Text) (kind : String) : Option Text :=
  lastOf (filesOf sections id) kind.toList

/-- An entry with its files. -/
def controllerOf (sections : List Section) (entry : Text × Text) : ScsiController :=
  ⟨entry.1, entry.2, fileOf sections entry.1 "driver", fileOf sections entry.1 "inf",
    fileOf sections entry.1 "catalog"⟩

/-- An entry without files. -/
def bareController (entry : Text × Text) : ScsiController := ⟨entry.1, entry.2, none, none, none⟩

/-- **The first pass** collects the first entry of each id. -/
theorem foldl_addController_eq (entries : List (Text × Text)) :
    entries.foldl addController [] = (firsts idKey entries).map bareController := by
  refine foldl_firsts idKey (List.map bareController) (fun seen entry => ?_) [] entries
  have known : ((firsts idKey seen).map bareController).any (fun known => eqIgnoreCase known.id entry.1)
      = (firsts idKey seen).any fun known => idKey known == idKey entry := List.any_map
  rw [addController, known, firsts_concat]
  split
  · rfl
  · rw [List.map_append]
    rfl

/-- **The files of a controller** after some lines: the last one of each kind. -/
theorem foldl_setFile (entries : List (Text × Text)) (controller : ScsiController) :
    entries.foldl setFile controller = { controller with
      driver := (lastOf entries "driver".toList).or controller.driver
      inf := (lastOf entries "inf".toList).or controller.inf
      catalog := (lastOf entries "catalog".toList).or controller.catalog } := by
  induction entries generalizing controller with
  | nil => rfl
  | cons entry rest ih =>
    rw [List.foldl_cons, ih, lastOf_cons, lastOf_cons, lastOf_cons, Option.or_assoc, Option.or_assoc,
      Option.or_assoc]
    obtain ⟨kind, file⟩ := entry
    simp only [setFile, beq_iff_eq]
    split_ifs <;> simp_all

/-- Changing the first controller with an id changes the controllers with that id: there is one. -/
theorem changeFirst_eq_map {id : Text} {change : ScsiController → ScsiController}
    {controllers : List ScsiController}
    (distinct : controllers.Pairwise fun first second => lower first.id ≠ lower second.id) :
    changeFirst id change controllers
      = controllers.map fun controller => if eqIgnoreCase controller.id id then change controller else controller := by
  induction controllers with
  | nil => rfl
  | cons controller rest ih =>
    obtain ⟨apart, distinct⟩ := List.pairwise_cons.mp distinct
    rw [changeFirst, List.map_cons]
    split
    · rename_i here
      rw [List.cons.injEq]
      refine ⟨rfl, (List.map_id' rest).symm.trans (List.map_congr_left fun other member => ?_)⟩
      refine (if_neg fun same => apart other member ?_).symm
      exact (eqIgnoreCase_iff.mp here).trans (eqIgnoreCase_iff.mp same).symm
    · rw [ih distinct]

/-- One section changes the controller whose files it holds. -/
theorem addFiles_eq_map {controllers : List ScsiController} (sec : Section)
    (distinct : controllers.Pairwise fun first second => lower first.id ≠ lower second.id) :
    addFiles controllers sec = controllers.map fun controller =>
      if isFilesOf controller.id sec.name then (sec.lines.filterMap fileLine).foldl setFile controller
      else controller := by
  rw [addFiles]
  cases found : stripPrefix "files.scsi.".toList (lower sec.name) with
  | none =>
    refine (List.map_id' controllers).symm.trans (List.map_congr_left fun controller _ => ?_)
    rw [isFilesOf, found]
    rfl
  | some id =>
    -- the id comes from a name in lower case
    have lowered : lower id = id := by
      rw [stripPrefix] at found
      split at found
      · obtain rfl := Option.some.inj found
        rw [lower_drop, lower_lower]
      · cases found
    dsimp only
    rw [changeFirst_eq_map distinct]
    refine List.map_congr_left fun controller _ => ?_
    have same : eqIgnoreCase controller.id id = isFilesOf controller.id sec.name := by
      rw [isFilesOf, found, eqIgnoreCase, lowered, Bool.eq_iff_iff, beq_iff_eq, beq_iff_eq,
        Option.some.injEq, eq_comm]
    rw [same]

theorem filesOf_cons (sec : Section) (rest : List Section) (id : Text) :
    filesOf (sec :: rest) id
      = (if isFilesOf id sec.name then sec.lines.filterMap fileLine else []) ++ filesOf rest id := by
  rw [filesOf, bodyOf_cons, List.filterMap_append]
  split <;> rfl

theorem filesOf_append (before after : List Section) (id : Text) :
    filesOf (before ++ after) id = filesOf before id ++ filesOf after id := by
  rw [filesOf, bodyOf_append, List.filterMap_append]
  rfl

/-- **The second pass** gives each controller the files of its sections. -/
theorem foldl_addFiles_eq (sections : List Section) {controllers : List ScsiController}
    (distinct : controllers.Pairwise fun first second => lower first.id ≠ lower second.id) :
    sections.foldl addFiles controllers
      = controllers.map fun controller => (filesOf sections controller.id).foldl setFile controller := by
  induction sections generalizing controllers with
  | nil => exact (List.map_id' controllers).symm
  | cons sec rest ih =>
    rw [List.foldl_cons, addFiles_eq_map sec distinct]
    have kept : ∀ controller : ScsiController, ScsiController.id
        (if isFilesOf controller.id sec.name then (sec.lines.filterMap fileLine).foldl setFile controller
          else controller) = controller.id := by
      intro controller
      split
      · rw [foldl_setFile]
      · rfl
    rw [ih]
    · rw [List.map_map]
      refine List.map_congr_left fun controller _ => ?_
      rw [Function.comp_apply, kept, filesOf_cons, List.foldl_append]
      split <;> rfl
    · refine List.pairwise_map.mpr (distinct.imp fun {first second} apart => ?_)
      rwa [kept, kept]

/-- **The controllers of a text**: the first entry of each id with its files. -/
theorem scsiControllers_eq {text : Text} {sections : List Section} (parsed : parse text = .ok sections) :
    scsiControllers text = .ok ((firsts idKey (scsiEntries sections)).map (controllerOf sections)) := by
  have passes : scsiControllers text
      = .ok (sections.foldl addFiles ((scsiEntries sections).foldl addController [])) := by
    rw [scsiControllers, parsed]
    rfl
  rw [passes, foldl_addController_eq, foldl_addFiles_eq]
  · rw [List.map_map]
    congr 1
    refine List.map_congr_left fun entry _ => ?_
    rw [Function.comp_apply, foldl_setFile, bareController]
    simp only [Option.or_none]
    rfl
  · exact List.pairwise_map.mpr (firsts_distinct idKey _)

/-! ### Referenced files -/

/-- The files of a controller. -/
def ScsiController.referencedFiles (controller : ScsiController) : List Text :=
  [controller.driver, controller.inf, controller.catalog].reduceOption

/-- The file of a line with a key is the file the line refers to. -/
theorem referencedName_of_fileLine {line kind name : Text} (read : fileLine line = some (kind, name)) :
    referencedName line = some name := by
  simp only [fileLine, referencedName, Option.bind_eq_bind, Option.bind_eq_some_iff, Prod.exists] at read ⊢
  obtain ⟨key, rhs, split, file, field, result⟩ := read
  refine ⟨key, rhs, split, file, field, ?_⟩
  split at result
  · cases result
  · rename_i nonempty
    rw [if_neg nonempty, (Prod.mk.inj (Option.some.inj result)).2]

/-- A file of a controller stands on a line of a `[Files.scsi.*]` section. -/
theorem fileOf_referenced {sections : List Section} {id name : Text} {kind : String}
    (found : fileOf sections id kind = some name) :
    name ∈ (linesOf "files.scsi." sections).filterMap referencedName := by
  obtain ⟨line, inLines, read⟩ := List.mem_filterMap.mp (exists_of_lastOf found)
  obtain ⟨sec, inFiltered, inSec⟩ := List.mem_flatMap.mp inLines
  obtain ⟨inSections, holds⟩ := List.mem_filter.mp inFiltered
  refine List.mem_filterMap.mpr ⟨line, List.mem_flatMap.mpr ⟨sec, ?_, inSec⟩, referencedName_of_fileLine read⟩
  refine List.mem_filter.mpr ⟨inSections, ?_⟩
  rw [isFilesOf, stripPrefix] at holds
  split at holds
  · assumption
  · cases holds

theorem foldl_addName_eq (names : List Text) : names.foldl addName [] = firsts lower names := by
  refine foldl_firsts lower (fun names => names) (fun seen name => ?_) [] names
  rw [addName, firsts_concat]
  rfl

theorem referencedFilenames_eq {text : Text} {sections : List Section}
    (parsed : parse text = .ok sections) :
    referencedFilenames text
      = .ok (firsts lower ((linesOf "files.scsi." sections).filterMap referencedName)) := by
  rw [← foldl_addName_eq, referencedFilenames, parsed]
  rfl

/-- **The referenced files cover the controllers.** Every driver, inf and catalog file of a controller is
one of the referenced files, up to case, and no two of these are the same. -/
theorem referencedFilenames_covers {text : Text} {sections : List Section}
    (parsed : parse text = .ok sections) :
    ∃ controllers names, scsiControllers text = .ok controllers ∧ referencedFilenames text = .ok names ∧
      DistinctNames names ∧
      ∀ controller ∈ controllers, ∀ file ∈ controller.referencedFiles,
        ∃ name ∈ names, lower name = lower file := by
  refine ⟨_, _, scsiControllers_eq parsed, referencedFilenames_eq parsed, firsts_distinct lower _,
    fun controller member file inFiles => ?_⟩
  obtain ⟨entry, _, rfl⟩ := List.mem_map.mp member
  have named : file ∈ (linesOf "files.scsi." sections).filterMap referencedName := by
    simp only [ScsiController.referencedFiles, controllerOf, List.reduceOption_mem_iff, List.mem_cons,
      List.not_mem_nil, or_false] at inFiles
    rcases inFiles with driver | inf | catalog
    · exact fileOf_referenced driver.symm
    · exact fileOf_referenced inf.symm
    · exact fileOf_referenced catalog.symm
  obtain ⟨name, kept, same⟩ := exists_mem_firsts lower named
  exact ⟨name, kept, same⟩

/-- A pack with one controller and its driver. -/
def onePack : Text := "[scsi]\nahci = \"AHCI\"\n[Files.scsi.AHCI]\ndriver = d1, ahci.sys, ahci\n".toList

set_option maxRecDepth 20000 in
/-- The driver of the pack is referenced. -/
theorem referencedFilenames_covers_sample :
    ∃ names, referencedFilenames onePack = .ok names ∧ ∃ name ∈ names, lower name = "ahci.sys".toList := by
  obtain ⟨sections, parsed⟩ := Fallible.exists_ok (show (parse onePack).toOption.isSome by decide)
  obtain ⟨controllers, names, read, names_read, _, covers⟩ := referencedFilenames_covers parsed
  have same : controllers = [⟨"ahci".toList, "AHCI".toList, some "ahci.sys".toList, none, none⟩] :=
    Except.ok.inj (read.symm.trans (by decide))
  subst same
  obtain ⟨name, kept, equal⟩ := covers _ (List.mem_singleton_self _) "ahci.sys".toList (by decide)
  exact ⟨names, names_read, name, kept, equal.trans (by decide)⟩

/-! ### No line feeds -/

/-- **The referenced files are different up to case and hold no line feed.** -/
theorem referencedFilenames_newline {text : Text} {names : List Text}
    (read : referencedFilenames text = .ok names) :
    DistinctNames names ∧ ∀ name ∈ names, '\n' ∉ name := by
  obtain ⟨sections, parsed, _⟩ := (Fallible.bind_eq_ok _ _ _).mp read
  rw [Fallible.context_eq_ok] at parsed
  obtain rfl := Except.ok.inj ((referencedFilenames_eq parsed).symm.trans read)
  refine ⟨firsts_distinct lower _, fun name member inName => ?_⟩
  obtain ⟨line, inLines, reads⟩ := List.mem_filterMap.mp ((firsts_sublist lower _).mem member)
  exact linesOf_newline parsed inLines (mem_of_referencedName reads inName)

/-- **No hardware id and no service of one holds a line feed.** -/
theorem hardwareIds_newline {text : Text} {ids : List (Text × Text)}
    (read : hardwareIds text = .ok ids) :
    ∀ entry ∈ ids, '\n' ∉ entry.1 ∧ '\n' ∉ entry.2 := by
  obtain ⟨sections, parsed, _⟩ := (Fallible.bind_eq_ok _ _ _).mp read
  rw [Fallible.context_eq_ok] at parsed
  intro entry member
  rcases hardwareIds_eq parsed with ⟨_, result⟩ | ⟨_, failure, result⟩
  · obtain rfl := Except.ok.inj (result.symm.trans read)
    obtain ⟨line, inLines, reads⟩ := List.mem_filterMap.mp ((firsts_sublist idKey _).mem member)
    have clean := linesOf_newline parsed inLines
    exact ⟨fun inId => clean (mem_of_hardwareIdLine reads (Or.inl inId)),
      fun inService => clean (mem_of_hardwareIdLine reads (Or.inr inService))⟩
  · cases result.symm.trans read

theorem scsiEntries_newline {text : Text} {sections : List Section}
    (parsed : parse text = .ok sections) :
    ∀ entry ∈ scsiEntries sections, '\n' ∉ entry.1 ∧ '\n' ∉ entry.2 := by
  intro entry member
  obtain ⟨line, inLines, reads⟩ := List.mem_filterMap.mp member
  obtain ⟨sec, inFiltered, inSec⟩ := List.mem_flatMap.mp inLines
  have clean := parse_newline parsed sec (List.mem_of_mem_filter inFiltered) line inSec
  exact ⟨fun inId => clean (mem_of_controllerLine reads (Or.inl inId)),
    fun inDisplay => clean (mem_of_controllerLine reads (Or.inr inDisplay))⟩

/-- **No display name holds a line feed.** -/
theorem scsiControllers_newline {text : Text} {controllers : List ScsiController}
    (read : scsiControllers text = .ok controllers) :
    ∀ controller ∈ controllers, '\n' ∉ controller.displayName := by
  obtain ⟨sections, parsed, _⟩ := (Fallible.bind_eq_ok _ _ _).mp read
  rw [Fallible.context_eq_ok] at parsed
  obtain rfl := Except.ok.inj ((scsiControllers_eq parsed).symm.trans read)
  intro controller member
  obtain ⟨entry, inFirsts, rfl⟩ := List.mem_map.mp member
  exact (scsiEntries_newline parsed entry ((firsts_sublist idKey _).mem inFirsts)).2

end Bootsmith.Driver
