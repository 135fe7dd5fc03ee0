/-
**Taking controllers out of `txtsetup.oem`** (`ntxp_txtsetup.rs`): `strip_controllers`.

The filter leaves out sections and lines, and what it writes is parsed again. Reading the controllers
commutes with it: an entry and the files of a controller are left out or kept together
(`scsiEntries_stripSections`, `filesOf_stripSections`).
-/

import Bootsmith.Driver.Controllers
import Bootsmith.Driver.Emit

namespace Bootsmith.Driver

open Bootsmith.Library

/-! ### The function -/

/-- The id is one of those to drop, up to case. -/
def dropId (idsToDrop : List Text) (id : Text) : Bool := idsToDrop.any fun d => eqIgnoreCase d id

/-- The id in the name of a section of one controller, in lower case. -/
def sectionId (sec : Section) : Option Text :=
  (stripPrefix "files.scsi.".toList (lower sec.name)).or
    (stripPrefix "hardwareids.scsi.".toList (lower sec.name))

/-- The section is retained. -/
def keepsSection (idsToDrop : List Text) (sec : Section) : Bool :=
  match sectionId sec with
  | some id => !dropId idsToDrop id
  | none => true

/-- The line of a `[scsi]` section is retained. -/
def keepsLine (idsToDrop : List Text) (line : Text) : Bool :=
  match splitOnce '=' (stripComment line) with
  | some (key, _) => !dropId idsToDrop (trim key)
  | none => true

def stripSection (idsToDrop : List Text) (sec : Section) : Section :=
  if isScsi sec.name then { sec with lines := sec.lines.filter (keepsLine idsToDrop) }
  else sec

def stripSections (idsToDrop : List Text) (sections : List Section) : List Section :=
  (sections.filter (keepsSection idsToDrop)).map (stripSection idsToDrop)

def stripControllers (text : Text) (idsToDrop : List Text) : Fallible Text :=
  if idsToDrop = [] then .ok text
  else do
    let sections ← Fallible.context "parse txtsetup.oem for filter" (parse text)
    pure (emit (stripSections idsToDrop sections))

/-! ### What is left is read back -/

section Strip

variable {idsToDrop : List Text}

@[simp] theorem stripSection_name (sec : Section) : (stripSection idsToDrop sec).name = sec.name := by
  unfold stripSection
  split <;> rfl

theorem stripSection_wellFormed {sec : Section} (wellFormed : sec.WellFormed) :
    (stripSection idsToDrop sec).WellFormed := by
  unfold stripSection
  split
  · exact ⟨wellFormed.nonempty, wellFormed.trimmed, wellFormed.closed, wellFormed.oneLine,
      fun line member => wellFormed.body line (List.mem_of_mem_filter member)⟩
  · exact wellFormed

/-- The preamble has no lines of the filter. -/
theorem stripSection_preamble {sec : Section} (reserved : sec.name = preamble) :
    stripSection idsToDrop sec = sec := by
  rw [stripSection, reserved, if_neg (by decide)]

theorem stripSections_cons (sec : Section) (rest : List Section) :
    stripSections idsToDrop (sec :: rest)
      = (if keepsSection idsToDrop sec then [stripSection idsToDrop sec] else []) ++ stripSections idsToDrop rest := by
  rw [stripSections, List.filter_cons]
  split <;> rfl

theorem stripSections_named {sections : List Section} (named : ∀ sec ∈ sections, sec.name ≠ preamble) :
    ∀ sec ∈ stripSections idsToDrop sections, sec.name ≠ preamble := by
  intro sec member
  obtain ⟨old, inFiltered, rfl⟩ := List.mem_map.mp member
  rw [stripSection_name]
  exact named old (List.mem_of_mem_filter inFiltered)

/-- Sections that are written with their headers are so when some are left out. -/
theorem stripSections_kept {sections : List Section} (kept : KeptByEmit sections) :
    KeptByEmit (stripSections idsToDrop sections) := by
  cases sections with
  | nil => exact kept
  | cons first rest =>
    have named := @stripSections_named idsToDrop rest kept.later
    rw [stripSections_cons]
    split
    · refine ⟨named, fun sec isFirst reserved => ?_⟩
      obtain rfl := Option.some.inj isFirst
      rw [stripSection_name] at reserved
      rw [stripSection_preamble reserved]
      exact kept.first first rfl reserved
    · refine ⟨fun sec member => named sec (List.mem_of_mem_tail member), fun sec isFirst reserved => ?_⟩
      exact absurd reserved (named sec (List.mem_of_mem_head? isFirst))

theorem parse_emit_stripSections {text : Text} {sections : List Section}
    (parsed : parse text = .ok sections)
    (keeps : KeepsHeaders text) :
    parse (emit (stripSections idsToDrop sections)) = .ok (stripSections idsToDrop sections) := by
  rw [parse_emit]
  · rw [(rejoin_eq_self_iff _).mpr (stripSections_kept ((keptByEmit_iff parsed).mpr keeps))]
  · intro sec member
    obtain ⟨old, inFiltered, rfl⟩ := List.mem_map.mp member
    exact stripSection_wellFormed (parse_wellFormed parsed old (List.mem_of_mem_filter inFiltered))

/-! ### The controllers that are left -/

/-- A line that holds an entry is kept exactly when the id of the entry is. -/
theorem filter_keepsLine (body : List Text) :
    (body.filter (keepsLine idsToDrop)).filterMap controllerLine
      = (body.filterMap controllerLine).filter fun entry => !dropId idsToDrop entry.1 := by
  induction body with
  | nil => rfl
  | cons line rest ih =>
    cases reads : controllerLine line with
    | none =>
      rw [List.filterMap_cons_none reads, List.filter_cons]
      split
      · rw [List.filterMap_cons_none reads, ih]
      · exact ih
    | some entry =>
      have same : keepsLine idsToDrop line = !dropId idsToDrop entry.1 := by
        simp only [controllerLine, Option.bind_eq_bind, Option.bind_eq_some_iff, Prod.exists] at reads
        obtain ⟨key, rhs, split, result⟩ := reads
        split at result
        · cases result
        · obtain rfl := Option.some.inj result
          rw [keepsLine, split]
      rw [List.filterMap_cons_some reads, List.filter_cons, List.filter_cons, same]
      split
      · rw [List.filterMap_cons_some reads, ih]
      · exact ih

/-- A `[scsi]` section is not a section of one controller. -/
theorem sectionId_scsi {sec : Section} (scsi : isScsi sec.name = true) :
    sectionId sec = none := by
  have name : lower sec.name = "scsi".toList := (eqIgnoreCase_iff.mp scsi).trans (by decide)
  rw [sectionId, name]
  rfl

theorem keepsSection_scsi {sec : Section} (scsi : isScsi sec.name = true) :
    keepsSection idsToDrop sec = true := by
  rw [keepsSection, sectionId_scsi scsi]

/-- A section of one controller is kept, as it is, unless the controller is dropped. -/
theorem keepsSection_of_sectionId {id : Text} {sec : Section} (found : sectionId sec = some id) :
    keepsSection idsToDrop sec = !dropId idsToDrop id ∧ stripSection idsToDrop sec = sec := by
  constructor
  · rw [keepsSection, found]
  · refine if_neg fun scsi => ?_
    rw [sectionId_scsi scsi] at found
    cases found

/-- **The entries that are left.** -/
theorem scsiEntries_stripSections (sections : List Section) :
    scsiEntries (stripSections idsToDrop sections)
      = (scsiEntries sections).filter fun entry => !dropId idsToDrop entry.1 := by
  induction sections with
  | nil => rfl
  | cons sec rest ih =>
    unfold scsiEntries at ih ⊢
    rw [stripSections_cons, bodyOf_append, List.filterMap_append, ih, bodyOf_cons isScsi sec,
      List.filterMap_append, List.filter_append]
    congr 1
    cases scsi : isScsi sec.name with
    | true =>
      have body : (stripSection idsToDrop sec).lines = sec.lines.filter (keepsLine idsToDrop) := by
        rw [stripSection, if_pos scsi]
      rw [keepsSection_scsi scsi, if_pos rfl, if_pos rfl, bodyOf_cons, stripSection_name, scsi, if_pos rfl, body,
        List.filterMap_append, filter_keepsLine]
      exact List.append_nil _
    | false =>
      rw [if_neg Bool.false_ne_true]
      split
      · rw [bodyOf_cons, stripSection_name, scsi]
        rfl
      · rfl

theorem dropId_lower (id : Text) : dropId idsToDrop (lower id) = dropId idsToDrop id := by
  unfold dropId eqIgnoreCase
  rw [lower_lower]

theorem sectionId_of_isFilesOf {id : Text} {sec : Section} (holds : isFilesOf id sec.name = true) :
    sectionId sec = some (lower id) := by
  have found : stripPrefix "files.scsi.".toList (lower sec.name) = some (lower id) := eq_of_beq holds
  rw [sectionId, found, Option.some_or]

/-- **The files of a controller that is left.** -/
theorem filesOf_stripSections {id : Text} (kept : dropId idsToDrop id = false)
    (sections : List Section) :
    filesOf (stripSections idsToDrop sections) id = filesOf sections id := by
  induction sections with
  | nil => rfl
  | cons sec rest ih =>
    rw [stripSections_cons, filesOf_append, ih, filesOf_cons sec]
    congr 1
    cases holds : isFilesOf id sec.name with
    | true =>
      obtain ⟨keeps, same⟩ := @keepsSection_of_sectionId idsToDrop _ _ (sectionId_of_isFilesOf holds)
      rw [keeps, dropId_lower, kept, same, Bool.not_false, if_pos rfl, if_pos rfl, filesOf_cons, holds, if_pos rfl]
      exact List.append_nil _
    | false =>
      have name : isFilesOf id (stripSection idsToDrop sec).name = false := by
        rw [isFilesOf, stripSection_name]
        exact holds
      rw [if_neg Bool.false_ne_true]
      split
      · rw [filesOf_cons, name]
        rfl
      · rfl

/-- **The controllers that are left** are those that are not dropped, as they were. -/
theorem controllers_stripSections (sections : List Section) :
    (firsts idKey (scsiEntries (stripSections idsToDrop sections))).map
        (controllerOf (stripSections idsToDrop sections))
      = ((firsts idKey (scsiEntries sections)).map (controllerOf sections)).filter fun controller =>
          !dropId idsToDrop controller.id := by
  have commutes := firsts_filter idKey (fun id => !idsToDrop.any fun d => lower d == id) (scsiEntries sections)
  rw [scsiEntries_stripSections, List.filter_map]
  refine (congrArg (List.map _) commutes).trans (List.map_congr_left fun entry member => ?_)
  have kept := (List.mem_filter.mp member).2
  rw [Bool.not_eq_true'] at kept
  simp only [controllerOf, fileOf, @filesOf_stripSections idsToDrop entry.1 kept]

/-- **The sections of controllers that are left**: those of the others, as they were. -/
theorem controllerSections_stripSections (sections : List Section) :
    (stripSections idsToDrop sections).filter (fun sec => (sectionId sec).isSome)
      = sections.filter fun sec => (sectionId sec).any fun id => !dropId idsToDrop id := by
  induction sections with
  | nil => rfl
  | cons sec rest ih =>
    have name : sectionId (stripSection idsToDrop sec) = sectionId sec := by
      rw [sectionId, stripSection_name]
      rfl
    rw [stripSections_cons, List.filter_append, ih, List.filter_cons]
    cases found : sectionId sec with
    | none =>
      rw [Option.any_none, if_neg Bool.false_ne_true]
      split
      · rw [List.filter_singleton, name, found]
        rfl
      · rfl
    | some id =>
      obtain ⟨keeps, same⟩ := @keepsSection_of_sectionId idsToDrop _ _ found
      rw [keeps, Option.any_some, same]
      split
      · rw [List.filter_singleton, found]
        rfl
      · rfl

theorem stripSections_nil (sections : List Section) : stripSections [] sections = sections := by
  have keepsAll : keepsLine [] = fun _ => true := by
    funext line
    unfold keepsLine
    split <;> rfl
  have sections_kept : keepsSection [] = fun _ => true := by
    funext sec
    unfold keepsSection
    split <;> rfl
  have same : stripSection [] = fun sec => sec := by
    funext sec
    rw [stripSection, keepsAll, List.filter_true]
    exact ite_self sec
  rw [stripSections, sections_kept, List.filter_true, same, List.map_id']

end Strip

/-! ### The filter on texts -/

/-- A text without headers with the reserved name keeps its headers. -/
theorem keepsHeaders_of_unreserved {text : Text}
    (unreserved : ∀ raw ∈ lines text, headerName raw ≠ some preamble) : KeepsHeaders text := by
  have inText : ∀ raw ∈ (lines text).dropWhile isSkipped, headerName raw ≠ some preamble := fun raw member =>
    unreserved raw ((List.dropWhile_sublist _).mem member)
  unfold KeepsHeaders
  cases shape : (lines text).dropWhile isSkipped with
  | nil => exact trivial
  | cons first rest =>
    rw [shape] at inText
    exact ⟨fun raw member => inText raw (List.mem_cons_of_mem _ member),
      fun reserved => absurd reserved (inText first List.mem_cons_self)⟩

/-- What is left of a text: the sections without those of a dropped controller, each with its lines. -/
theorem stripControllers_eq_ok {text : Text} {sections : List Section}
    (parsed : parse text = .ok sections)
    (keeps : KeepsHeaders text) (idsToDrop : List Text) :
    ∃ stripped, stripControllers text idsToDrop = .ok stripped ∧
      parse stripped = .ok (stripSections idsToDrop sections) := by
  by_cases empty : idsToDrop = []
  · subst empty
    exact ⟨text, if_pos rfl, parsed.trans (congrArg Except.ok (stripSections_nil sections).symm)⟩
  · refine ⟨emit (stripSections idsToDrop sections), ?_, parse_emit_stripSections parsed keeps⟩
    rw [stripControllers, if_neg empty, parsed]
    rfl

/-- **The controllers that are dropped** are gone with their sections, and the others stay as they were. -/
theorem stripControllers_spec {text : Text} {sections : List Section}
    (parsed : parse text = .ok sections)
    (unreserved : ∀ raw ∈ lines text, headerName raw ≠ some preamble) (idsToDrop : List Text) :
    ∃ controllers stripped sections', scsiControllers text = .ok controllers ∧
      stripControllers text idsToDrop = .ok stripped ∧ parse stripped = .ok sections' ∧
      scsiControllers stripped = .ok (controllers.filter fun controller => !dropId idsToDrop controller.id) ∧
      (∀ sec ∈ sections', ∀ id ∈ sectionId sec, dropId idsToDrop id = false) ∧
      sections'.filter (fun sec => (sectionId sec).isSome)
        = sections.filter fun sec => (sectionId sec).any fun id => !dropId idsToDrop id := by
  obtain ⟨stripped, strips, reads⟩ :=
    stripControllers_eq_ok parsed (keepsHeaders_of_unreserved unreserved) idsToDrop
  refine ⟨_, stripped, _, scsiControllers_eq parsed, strips, reads, ?_, fun sec member id found => ?_,
    controllerSections_stripSections sections⟩
  · rw [scsiControllers_eq reads, controllers_stripSections]
  · obtain ⟨old, inFiltered, rfl⟩ := List.mem_map.mp member
    have keeps := List.of_mem_filter inFiltered
    rw [sectionId, stripSection_name] at found
    have oldId : sectionId old = some id := found
    rw [keepsSection, oldId, Bool.not_eq_true'] at keeps
    exact keeps

/-- A pack with two controllers. -/
def twoPacks : Text :=
  ("[scsi]\nahci = \"AHCI\"\nraid = \"RAID\"\n[Files.scsi.ahci]\ndriver = d1, ahci.sys, ahci\n"
    ++ "[Files.scsi.raid]\ndriver = d1, raid.sys, raid\n").toList

set_option maxRecDepth 20000 in
/-- One of the two controllers is taken out. -/
theorem stripControllers_spec_sample : ∃ stripped, stripControllers twoPacks ["RAID".toList] = .ok stripped ∧
    scsiControllers stripped = .ok [⟨"ahci".toList, "AHCI".toList, some "ahci.sys".toList, none, none⟩] := by
  obtain ⟨sections, parsed⟩ := Fallible.exists_ok (show (parse twoPacks).toOption.isSome by decide)
  obtain ⟨controllers, stripped, _, read, strips, _, left, _⟩ :=
    stripControllers_spec parsed (by decide) ["RAID".toList]
  have both : controllers = [⟨"ahci".toList, "AHCI".toList, some "ahci.sys".toList, none, none⟩,
      ⟨"raid".toList, "RAID".toList, some "raid.sys".toList, none, none⟩] :=
    Except.ok.inj (read.symm.trans (by decide))
  subst both
  exact ⟨stripped, strips, left.trans (by decide)⟩

end Bootsmith.Driver
