/-
**The controllers of a merged `txtsetup.oem`** (`ntxp_txtsetup.rs`).

The entries of the second text come behind those of the first `[SCSI]` section of the first one, where the
first entry of an id counts; its `[Files.scsi.<id>]` sections come at the end, where the last file of a kind
counts (`scsiEntries_combine`, `fileOf_combine`). So a controller that both texts list keeps the name of the
first text and gets the files of the second one (`merge_mixes_controllers`).

`merge_controllers_iff` says when the controllers of both texts are kept.
-/

import Bootsmith.Driver.Merge

namespace Bootsmith.Driver

open Bootsmith.Library

/-! ### The lines of the merged text -/

theorem isScsi_eq : isScsi = isNamed "scsi".toList := rfl

theorem isFilesOf_eq (id : Text) : isFilesOf id = isNamed ("files.scsi.".toList ++ lower id) := by
  funext name
  rw [isFilesOf, isNamed, Bool.eq_iff_iff, beq_iff_eq, beq_iff_eq, stripPrefix_eq_some]

/-- The entries of the first `[SCSI]` section. -/
def frontEntries (sections : List Section) : List (Text × Text) :=
  (firstBody isScsi sections).filterMap controllerLine

/-- The other entries, as they are read back. -/
def backEntries (sections : List Section) : List (Text × Text) :=
  (behindFirst isScsi sections).filterMap controllerLine

/-- The last file of a kind for a controller, as the sections are read back. -/
def rereadFileOf (sections : List Section) (id : Text) (kind : String) : Option Text :=
  lastOf ((heldBody (isFilesOf id) false sections).filterMap fileLine) kind.toList

/-- **The entries of the merged text.** -/
theorem scsiEntries_combine (base oem : List Section) :
    scsiEntries (rejoin (combine base oem)) = frontEntries base ++ (scsiEntries oem ++ backEntries base) := by
  obtain ⟨first, behind⟩ := @combine_firstBody "scsi".toList (Or.inr rfl) base oem
  have appended : ∀ (sections : List Section) (body : List Text),
      (sections.filter fun sec => isScsi sec.name).foldl (fun body sec => appendBody sec body) body
        = body ++ bodyOf isScsi sections := by
    intro sections
    induction sections with
    | nil => exact fun body => (List.append_nil body).symm
    | cons sec rest ih =>
      intro body
      rw [List.filter_cons, bodyOf_cons]
      split
      · rename_i scsi
        have other : ¬ eqIgnoreCase sec.name "Disks".toList = true := by
          rw [eqIgnoreCase_iff, isNamed_iff.mp scsi]
          decide
        rw [List.foldl_cons, ih, appendBody, if_neg other, List.append_assoc]
      · exact ih body
  rw [scsiEntries, bodyOf_rejoin (by decide), isScsi_eq, first, behind, ← isScsi_eq, appended, List.append_assoc,
    List.filterMap_append, List.filterMap_append]
  rfl

theorem stripPrefix_name_ne (id : Text) : ¬ Coalesced ("files.scsi.".toList ++ lower id) ∧
    "files.scsi.".toList ++ lower id ≠ "defaults".toList ∧
    "files.scsi.".toList ++ lower id ≠ lower preamble := by
  have apart : ∀ other : Text, other.head? ≠ some 'f' → "files.scsi.".toList ++ lower id ≠ other := by
    rintro _ differs rfl
    exact differs rfl
  refine ⟨?_, apart _ (by decide), apart _ (by decide)⟩
  rintro (same | same)
  · exact apart _ (by decide) same
  · exact apart _ (by decide) same

/-- **The files of the merged text.** -/
theorem fileOf_combine (base oem : List Section) (id : Text) (kind : String) :
    fileOf (rejoin (combine base oem)) id kind = (fileOf oem id kind).or (rereadFileOf base id kind) := by
  obtain ⟨plain, notDefaults, unreserved⟩ := stripPrefix_name_ne id
  have reserved : isFilesOf id preamble = false := by
    rw [isFilesOf_eq]
    exact isNamed_eq_false.mpr unreserved.symm
  have body : bodyOf (isFilesOf id) (rejoin (combine base oem))
      = heldBody (isFilesOf id) false base ++ bodyOf (isFilesOf id) oem := by
    refine (bodyOf_rejoinFrom reserved none _).trans ?_
    rw [isFilesOf_eq]
    exact combine_heldBody plain notDefaults unreserved base oem false
  rw [fileOf, filesOf, body, List.filterMap_append, lastOf_append]
  rfl

/-! ### The controllers of the merged text -/

/-- The kinds of files of a controller. -/
def fileKinds : List String := ["driver", "inf", "catalog"]

/-- A controller with the same id, up to case, has the same display name and files. -/
def Lists (controllers : List ScsiController) (wanted : ScsiController) : Prop :=
  ∃ known ∈ controllers, lower known.id = lower wanted.id ∧ known.displayName = wanted.displayName ∧
    known.driver = wanted.driver ∧ known.inf = wanted.inf ∧ known.catalog = wanted.catalog

theorem fileOf_congr (sections : List Section) {id other : Text} (same : lower id = lower other)
    (kind : String) :
    fileOf sections id kind = fileOf sections other kind := by
  rw [fileOf, fileOf, filesOf, filesOf, isFilesOf_eq, isFilesOf_eq, same]

/-- A controller is listed with its files: its name is the first one of its id, and its files are the last
ones. -/
theorem lists_iff (sections own : List Section) (entry : Text × Text) :
    Lists ((firsts idKey (scsiEntries sections)).map (controllerOf sections)) (controllerOf own entry) ↔
      (∃ shown ∈ (scsiEntries sections).find? fun other => idKey other == idKey entry, shown.2 = entry.2) ∧
        ∀ kind ∈ fileKinds, fileOf sections entry.1 kind = fileOf own entry.1 kind := by
  have kinds : ∀ other : Text × Text, lower other.1 = lower entry.1 →
      ((fileOf sections other.1 "driver" = fileOf own entry.1 "driver" ∧
          fileOf sections other.1 "inf" = fileOf own entry.1 "inf" ∧
          fileOf sections other.1 "catalog" = fileOf own entry.1 "catalog") ↔
        ∀ kind ∈ fileKinds, fileOf sections entry.1 kind = fileOf own entry.1 kind) := by
    intro other same
    rw [fileOf_congr sections same, fileOf_congr sections same, fileOf_congr sections same]
    simp only [fileKinds, List.forall_mem_cons, List.not_mem_nil, false_implies, implies_true, and_true]
  constructor
  · rintro ⟨_, member, same, name, files⟩
    obtain ⟨shown, first, rfl⟩ := List.mem_map.mp member
    have found := (mem_firsts_iff idKey).mp first
    have key : idKey shown = idKey entry := same
    rw [key] at found
    exact ⟨⟨shown, found, name⟩, (kinds shown same).mp files⟩
  · rintro ⟨⟨shown, found, name⟩, files⟩
    have same : idKey shown = idKey entry :=
      eq_of_beq (List.find?_some (p := fun other => idKey other == idKey entry) found)
    refine ⟨controllerOf sections shown, List.mem_map_of_mem ((mem_firsts_iff idKey).mpr ?_), same, name,
      (kinds shown same).mpr files⟩
    rw [same]
    exact found

/-- The lines of the first section of a name come first. -/
theorem firstBody_isPrefix (named : Text → Bool) (sections : List Section) :
    firstBody named sections <+: bodyOf named sections := by
  induction sections with
  | nil => exact List.prefix_rfl
  | cons sec rest ih =>
    rw [firstBody, List.find?_cons, bodyOf_cons]
    split
    · rename_i here
      rw [if_pos here]
      exact List.prefix_append _ _
    · rename_i other
      rw [if_neg (by rw [other]; exact Bool.false_ne_true)]
      exact ih

/-- No line is lost when the sections are read back. -/
theorem bodyOf_sublist_heldBody {named : Text → Bool} (unreserved : named preamble = false)
    (inside : Bool)
    (sections : List Section) : (bodyOf named sections).Sublist (heldBody named inside sections) := by
  induction sections generalizing inside with
  | nil => exact List.Sublist.refl []
  | cons sec rest ih =>
    rw [heldBody, bodyOf_cons]
    by_cases reserved : sec.name = preamble
    · rw [if_pos reserved, reserved, unreserved]
      exact (ih inside).trans (List.sublist_append_right _ _)
    · rw [if_neg reserved]
      exact (List.Sublist.refl _).append (ih _)

theorem frontEntries_isPrefix (sections : List Section) :
    frontEntries sections <+: scsiEntries sections :=
  (firstBody_isPrefix isScsi sections).filterMap controllerLine

theorem scsiEntries_sublist (sections : List Section) :
    (scsiEntries sections).Sublist (frontEntries sections ++ backEntries sections) := by
  have reads := @bodyOf_sublist_heldBody isScsi (by decide) false sections
  rw [heldBody_eq (by decide)] at reads
  have entries := reads.filterMap controllerLine
  rwa [List.filterMap_append] at entries

/-- **When merging keeps the controllers.** `base` and `oem` are the sections of the two texts.

* `names`: a controller that `base` names only behind its first `[SCSI]` section is not named otherwise by
  `oem`, or by what a lost header leaves in front of it;
* `files`: for a controller of `base`, `oem` names no other file of a kind than `base` does;
* `reread`: nor does what a lost header leaves in the sections of the controller;
* `others`: for another controller of `oem`, `base` names no file of a kind that `oem` leaves out. -/
structure KeepsControllers (base oem : List Section) : Prop where
  names : ∀ entry ∈ firsts idKey (scsiEntries base), (∀ other ∈ frontEntries base, idKey other ≠ idKey entry) →
    ∀ shown ∈ (scsiEntries oem ++ backEntries base).find? fun other => idKey other == idKey entry,
      shown.2 = entry.2
  files : ∀ entry ∈ firsts idKey (scsiEntries base), ∀ kind ∈ fileKinds, ∀ file ∈ fileOf oem entry.1 kind,
    fileOf base entry.1 kind = some file
  reread : ∀ entry ∈ firsts idKey (scsiEntries base), ∀ kind ∈ fileKinds, fileOf oem entry.1 kind = none →
    rereadFileOf base entry.1 kind = fileOf base entry.1 kind
  others : ∀ entry ∈ firsts idKey (scsiEntries oem), (∀ known ∈ scsiEntries base, idKey known ≠ idKey entry) →
    ∀ kind ∈ fileKinds, fileOf oem entry.1 kind = none → rereadFileOf base entry.1 kind = none

section Keeps

variable {base oem : List Section} {entry : Text × Text}

/-- The name of a controller of the first text. -/
theorem base_name_iff (first : entry ∈ firsts idKey (scsiEntries base)) :
    (∃ shown ∈ (scsiEntries (rejoin (combine base oem))).find? fun other => idKey other == idKey entry,
        shown.2 = entry.2) ↔
      ((∀ other ∈ frontEntries base, idKey other ≠ idKey entry) →
        ∀ shown ∈ (scsiEntries oem ++ backEntries base).find? fun other => idKey other == idKey entry,
          shown.2 = entry.2) := by
  have found := (mem_firsts_iff idKey).mp first
  rw [scsiEntries_combine, List.find?_append]
  cases inFront : (frontEntries base).find? fun other => idKey other == idKey entry with
  | some front =>
    -- the first entry of the id stands in the first section
    obtain ⟨rest, split⟩ := frontEntries_isPrefix base
    rw [← split, List.find?_append, inFront, Option.some_or, Option.some.injEq] at found
    subst found
    refine ⟨fun _ absent => ?_, fun _ => ⟨front, rfl, rfl⟩⟩
    exact absurd rfl (absent front (List.mem_of_find?_eq_some inFront))
  | none =>
    have absent : ∀ other ∈ frontEntries base, idKey other ≠ idKey entry := fun other member same =>
      List.find?_eq_none.mp inFront other member (beq_iff_eq.mpr same)
    rw [Option.none_or]
    refine ⟨fun ⟨shown, isShown, name⟩ _ other isOther => ?_, fun names => ?_⟩
    · obtain rfl := Option.some.inj (isShown.symm.trans isOther)
      exact name
    · -- the entry is read back behind the first section
      have member := (scsiEntries_sublist base).mem ((firsts_sublist idKey _).mem first)
      have inBack : entry ∈ backEntries base := by
        rcases List.mem_append.mp member with front | back
        · exact absurd rfl (absent entry front)
        · exact back
      cases shows : (scsiEntries oem ++ backEntries base).find? fun other => idKey other == idKey entry with
      | none => exact absurd BEq.rfl (List.find?_eq_none.mp shows entry (List.mem_append_right _ inBack))
      | some shown => exact ⟨shown, rfl, names absent shown shows⟩

/-- The name of another controller of the second text. -/
theorem oem_name (first : entry ∈ firsts idKey (scsiEntries oem))
    (own : ∀ known ∈ scsiEntries base, idKey known ≠ idKey entry) :
    entry ∈ (scsiEntries (rejoin (combine base oem))).find? fun other => idKey other == idKey entry := by
  have found := (mem_firsts_iff idKey).mp first
  have absent : (frontEntries base).find? (fun other => idKey other == idKey entry) = none := by
    refine List.find?_eq_none.mpr fun other member same => ?_
    exact own other ((frontEntries_isPrefix base).subset member) (eq_of_beq same)
  rw [scsiEntries_combine, List.find?_append, absent, Option.none_or, List.find?_append, found]
  rfl

/-- The last files that are named, when those that are named must be the wanted ones. -/
theorem or_eq_iff {α : Type} {later earlier wanted : Option α} :
    later.or earlier = wanted ↔ (∀ value ∈ later, wanted = some value) ∧ (later = none → earlier = wanted) := by
  cases later with
  | none => simp
  | some value => simp [eq_comm]

/-- **A controller of the first text is kept.** -/
theorem base_listed_iff (first : entry ∈ firsts idKey (scsiEntries base)) :
    Lists ((firsts idKey (scsiEntries (rejoin (combine base oem)))).map
        (controllerOf (rejoin (combine base oem)))) (controllerOf base entry) ↔
      ((∀ other ∈ frontEntries base, idKey other ≠ idKey entry) →
        ∀ shown ∈ (scsiEntries oem ++ backEntries base).find? fun other => idKey other == idKey entry,
          shown.2 = entry.2) ∧
      (∀ kind ∈ fileKinds, ∀ file ∈ fileOf oem entry.1 kind, fileOf base entry.1 kind = some file) ∧
      ∀ kind ∈ fileKinds, fileOf oem entry.1 kind = none →
        rereadFileOf base entry.1 kind = fileOf base entry.1 kind := by
  rw [lists_iff, base_name_iff first, ← forall₂_and]
  refine and_congr_right fun _ => forall₂_congr fun kind _ => ?_
  rw [fileOf_combine, or_eq_iff]

/-- **Another controller of the second text is kept.** -/
theorem oem_listed_iff (first : entry ∈ firsts idKey (scsiEntries oem))
    (own : ∀ known ∈ scsiEntries base, idKey known ≠ idKey entry) :
    Lists ((firsts idKey (scsiEntries (rejoin (combine base oem)))).map
        (controllerOf (rejoin (combine base oem)))) (controllerOf oem entry) ↔
      ∀ kind ∈ fileKinds, fileOf oem entry.1 kind = none → rereadFileOf base entry.1 kind = none := by
  rw [lists_iff, and_iff_right ⟨entry, oem_name first own, rfl⟩]
  refine forall₂_congr fun kind _ => ?_
  rw [fileOf_combine]
  cases fileOf oem entry.1 kind <;> simp

end Keeps

/-- The controllers of the first text, and those of the second one that the first one does not have. -/
def KeptControllers (all fromBase fromOem : List ScsiController) : Prop :=
  (∀ controller ∈ fromBase, Lists all controller) ∧
    ∀ controller ∈ fromOem, (∀ known ∈ fromBase, lower known.id ≠ lower controller.id) → Lists all controller

theorem keptControllers_iff (base oem : List Section) :
    KeptControllers
        ((firsts idKey (scsiEntries (rejoin (combine base oem)))).map (controllerOf (rejoin (combine base oem))))
        ((firsts idKey (scsiEntries base)).map (controllerOf base))
        ((firsts idKey (scsiEntries oem)).map (controllerOf oem)) ↔ KeepsControllers base oem := by
  have own : ∀ entry : Text × Text,
      (∀ known ∈ (firsts idKey (scsiEntries base)).map (controllerOf base), lower known.id ≠ lower entry.1) ↔
        ∀ known ∈ scsiEntries base, idKey known ≠ idKey entry := by
    intro entry
    rw [List.forall_mem_map]
    refine ⟨fun fresh known member same => ?_, fun fresh known member => fresh known ((firsts_sublist _ _).mem member)⟩
    obtain ⟨first, isFirst, equal⟩ := exists_mem_firsts idKey member
    exact fresh first isFirst (equal.trans same)
  rw [KeptControllers, List.forall_mem_map, List.forall_mem_map]
  constructor
  · rintro ⟨fromBase, fromOem⟩
    have kept := fun entry first => (@base_listed_iff base oem entry first).mp (fromBase entry first)
    refine ⟨fun entry first => (kept entry first).1, fun entry first => (kept entry first).2.1,
      fun entry first => (kept entry first).2.2, fun entry first fresh => ?_⟩
    exact (oem_listed_iff first fresh).mp (fromOem entry first ((own entry).mpr fresh))
  · rintro ⟨names, files, reread, others⟩
    refine ⟨fun entry first => (base_listed_iff first).mpr ⟨names entry first, files entry first, reread entry first⟩,
      fun entry first fresh => ?_⟩
    have absent := (own entry).mp fresh
    exact (oem_listed_iff first absent).mpr (others entry first absent)

/-- **The controllers of two merged texts** are kept exactly when the two texts do not name one controller
or its files in two ways. -/
theorem merge_controllers_iff {base oem : Text} {baseSections oemSections : List Section}
    (readBase : parse base = .ok baseSections) (readOem : parse oem = .ok oemSections) :
    ∃ merged all fromBase fromOem, merge base oem = .ok merged ∧ scsiControllers merged = .ok all ∧
      scsiControllers base = .ok fromBase ∧ scsiControllers oem = .ok fromOem ∧
      (KeptControllers all fromBase fromOem ↔ KeepsControllers baseSections oemSections) := by
  obtain ⟨merged, merges, reads⟩ := merge_eq_ok readBase readOem
  exact ⟨merged, _, _, _, merges, scsiControllers_eq reads, scsiControllers_eq readBase,
    scsiControllers_eq readOem, keptControllers_iff baseSections oemSections⟩

/-- A text with one controller and its driver. -/
def oneController (id name driver : String) : Text :=
  ("[SCSI]\n" ++ id ++ " = " ++ name ++ "\n[Files.scsi." ++ id ++ "]\ndriver = d1, " ++ driver ++ "\n").toList

/-- The sections of that text. -/
def oneControllerSections (id name driver : String) : List Section :=
  [⟨"SCSI".toList, [(id ++ " = " ++ name).toList]⟩,
    ⟨("Files.scsi." ++ id).toList, [("driver = d1, " ++ driver).toList]⟩]

set_option maxRecDepth 20000 in
/-- Two controllers with different ids are both kept. -/
theorem merge_controllers_sample :
    ∃ merged all, merge (oneController "a" "A" "a.sys") (oneController "b" "B" "b.sys") = .ok merged ∧
      scsiControllers merged = .ok all ∧
      KeptControllers all [⟨"a".toList, "A".toList, some "a.sys".toList, none, none⟩]
        [⟨"b".toList, "B".toList, some "b.sys".toList, none, none⟩] := by
  have readBase : parse (oneController "a" "A" "a.sys") = .ok (oneControllerSections "a" "A" "a.sys") := by decide
  have readOem : parse (oneController "b" "B" "b.sys") = .ok (oneControllerSections "b" "B" "b.sys") := by decide
  obtain ⟨merged, all, fromBase, fromOem, merges, reads, base, oem, same⟩ := merge_controllers_iff readBase readOem
  have baseRow : fromBase = [⟨"a".toList, "A".toList, some "a.sys".toList, none, none⟩] :=
    Except.ok.inj (base.symm.trans (by decide))
  have oemRow : fromOem = [⟨"b".toList, "B".toList, some "b.sys".toList, none, none⟩] :=
    Except.ok.inj (oem.symm.trans (by decide))
  subst baseRow oemRow
  exact ⟨merged, all, merges, reads, same.mpr ⟨by decide, by decide, by decide, by decide⟩⟩

set_option maxRecDepth 20000 in
/-- **A controller that both texts list is mixed**: it keeps the name of the first text and gets the driver
of the second one. -/
theorem merge_mixes_controllers : ¬ ∀ (base oem merged : Text) (all fromBase fromOem : List ScsiController),
    merge base oem = .ok merged → scsiControllers merged = .ok all → scsiControllers base = .ok fromBase →
    scsiControllers oem = .ok fromOem → KeptControllers all fromBase fromOem := by
  intro claimed
  have readBase : parse (oneController "a" "A" "a.sys") = .ok (oneControllerSections "a" "A" "a.sys") := by decide
  have readOem : parse (oneController "a" "B" "b.sys") = .ok (oneControllerSections "a" "B" "b.sys") := by decide
  obtain ⟨merged, merges, reads⟩ := merge_eq_ok readBase readOem
  have kept := claimed _ _ _ _ _ _ merges (scsiControllers_eq reads) (scsiControllers_eq readBase)
    (scsiControllers_eq readOem)
  exact absurd ((keptControllers_iff _ _).mp kept).files (by decide)

end Bootsmith.Driver
