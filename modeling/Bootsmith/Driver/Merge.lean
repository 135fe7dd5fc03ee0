/-
**Merging two `txtsetup.oem`** (`ntxp_txtsetup.rs`): `combine` and `merge`.

A merged text is written and parsed again. `combine` appends the lines of the second text to the first
`[Disks]` and `[SCSI]` sections of the first one, and its other sections at the end, so the lines of the
sections with one name follow from those of the two texts (`combine_firstBody`, `combine_heldBody`).

A header with the reserved name is not written, so the lines below it join the section in front of it
(`heldBody`).
-/

import Bootsmith.Driver.Controllers
import Bootsmith.Driver.Emit

namespace Bootsmith.Driver

open Bootsmith.Library

/-! ### The functions -/

def parseKey (line : Text) : Option Text := do
  let (before, _) ← splitOnce '=' (stripComment line)
  let key := trim before
  if key = [] then none else some key

/-- The id that a disk line declares, in lower case. -/
def diskId (line : Text) : Option Text := (parseKey line).map lower

def diskIds (body : List Text) : List Text := body.filterMap diskId

/-- The line declares none of the ids. -/
def isNewDisk (existingIds : List Text) (line : Text) : Bool :=
  match diskId line with
  | some id => !existingIds.contains id
  | none => true

/-- Append the disk lines but those whose id is declared already. -/
def appendDisks (existing body : List Text) : List Text :=
  let existingIds := diskIds existing
  existing ++ body.filter (isNewDisk existingIds)

/-- Change the lines of the first section with a name, up to case. -/
def changeSection (name : Text) (change : List Text → List Text) : List Section → List Section
  | [] => []
  | sec :: rest =>
    if eqIgnoreCase sec.name name then { sec with lines := change sec.lines } :: rest
    else sec :: changeSection name change rest

def coalesce : List Text := ["Disks".toList, "SCSI".toList]

/-- Append the lines of a section to those of the section it is coalesced with. -/
def appendBody (sec : Section) (existing : List Text) : List Text :=
  if eqIgnoreCase sec.name "Disks".toList then appendDisks existing sec.lines else existing ++ sec.lines

/-- One section of the second text. -/
def combineOne (out : List Section) (sec : Section) : List Section :=
  if eqIgnoreCase sec.name "Defaults".toList ∨ sec.name = preamble then out
  else if (coalesce.any fun c => eqIgnoreCase c sec.name) ∧ out.any fun s => eqIgnoreCase s.name sec.name then
    changeSection sec.name (appendBody sec) out
  else out ++ [sec]

def combine (base oem : List Section) : List Section := oem.foldl combineOne base

def merge (base oem : Text) : Fallible Text := do
  let baseSections ← Fallible.context "parse base txtsetup.oem (FiraDisk)" (parse base)
  let oemSections ← Fallible.context "parse user txtsetup.oem" (parse oem)
  pure (emit (combine baseSections oemSections))

/-! ### Lines below a header with the reserved name -/

/-- The lines of the sections with certain names when they are read back; `inside` says that the section
in front has one of the names. -/
def heldBody (named : Text → Bool) : Bool → List Section → List Text
  | _, [] => []
  | inside, sec :: rest =>
    if sec.name = preamble then (if inside then sec.lines else []) ++ heldBody named inside rest
    else (if named sec.name then sec.lines else []) ++ heldBody named (named sec.name) rest

/-- The lines of the first section with certain names. -/
def firstBody (named : Text → Bool) (sections : List Section) : List Text :=
  ((sections.find? fun sec => named sec.name).map Section.lines).getD []

/-- The lines of the sections with certain names when they are read back, but those of the first one. -/
def behindFirst (named : Text → Bool) : List Section → List Text
  | [] => []
  | sec :: rest => if named sec.name then heldBody named true rest else behindFirst named rest

section Held

variable {named : Text → Bool} (unreserved : named preamble = false)

include unreserved

theorem bodyOf_absorb (body : List Text) (current : Option Section) :
    bodyOf named (absorb current body).toList
        = bodyOf named current.toList ++ (if current.any fun sec => named sec.name then body else []) ∧
      ((absorb current body).any fun sec => named sec.name) = current.any fun sec => named sec.name := by
  cases current with
  | some before =>
    refine ⟨?_, rfl⟩
    simp only [absorb, Option.toList_some, bodyOf_cons, bodyOf_nil, Option.any_some, List.append_nil]
    split
    · rfl
    · rfl
  | none =>
    unfold absorb
    cases body.dropWhile isSkipped with
    | nil => exact ⟨rfl, rfl⟩
    | cons stray more =>
      refine ⟨?_, unreserved⟩
      simp only [Option.toList_some, bodyOf_cons, unreserved]
      rfl

/-- **The lines that are read back.** -/
theorem bodyOf_rejoinFrom (current : Option Section) (sections : List Section) :
    bodyOf named (rejoinFrom current sections)
      = bodyOf named current.toList ++ heldBody named (current.any fun sec => named sec.name) sections := by
  induction sections generalizing current with
  | nil => exact (List.append_nil _).symm
  | cons sec rest ih =>
    rw [rejoinFrom, heldBody]
    split
    · obtain ⟨body, inside⟩ := bodyOf_absorb unreserved sec.lines current
      rw [ih, body, inside, List.append_assoc]
    · rw [bodyOf_append, ih, Option.toList_some, bodyOf_cons, bodyOf_nil, List.append_nil]
      rfl

theorem heldBody_eq (sections : List Section) :
    heldBody named false sections = firstBody named sections ++ behindFirst named sections := by
  induction sections with
  | nil => rfl
  | cons sec rest ih =>
    rw [heldBody, behindFirst, firstBody, List.find?_cons]
    split
    · rename_i reserved
      rw [reserved, unreserved, ih]
      rfl
    · cases here : named sec.name with
      | true => rfl
      | false => exact ih

theorem bodyOf_rejoin (sections : List Section) :
    bodyOf named (rejoin sections) = firstBody named sections ++ behindFirst named sections :=
  (bodyOf_rejoinFrom unreserved none sections).trans (heldBody_eq unreserved sections)

/-- The names that are read back. -/
theorem names_rejoinFrom (current : Option Section) (sections : List Section) :
    ((rejoinFrom current sections).map Section.name).filter named
      = (current.toList.map Section.name).filter named ++ (sections.map Section.name).filter named := by
  induction sections generalizing current with
  | nil => exact (List.append_nil _).symm
  | cons sec rest ih =>
    rw [rejoinFrom]
    split
    · rename_i reserved
      have same : ((absorb current sec.lines).toList.map Section.name).filter named
          = (current.toList.map Section.name).filter named := by
        cases current with
        | some before => rfl
        | none =>
          unfold absorb
          cases sec.lines.dropWhile isSkipped with
          | nil => rfl
          | cons stray more => exact List.filter_cons_of_neg (by rw [unreserved]; exact Bool.false_ne_true)
      rw [ih, same, List.map_cons, List.filter_cons, reserved, unreserved, if_neg Bool.false_ne_true]
    · rw [List.map_append, List.filter_append, ih, List.map_cons]
      exact congrArg (_ ++ ·) (List.filter_append [sec.name] _).symm

end Held

/-! ### One section of the second text -/

/-- The name is the listed one, given in lower case. -/
def isNamed (key name : Text) : Bool := lower name == key

theorem isNamed_iff {key name : Text} : isNamed key name = true ↔ lower name = key := beq_iff_eq

theorem isNamed_eq_false {key name : Text} :
    isNamed key name = false ↔ lower name ≠ key := beq_eq_false_iff_ne

/-- The section is left out. -/
def Skipped (sec : Section) : Prop := lower sec.name = "defaults".toList ∨ sec.name = preamble

/-- The sections that are coalesced. -/
def Coalesced (key : Text) : Prop := key = "disks".toList ∨ key = "scsi".toList

theorem Coalesced.ne {key : Text} (coalesced : Coalesced key) :
    key ≠ "defaults".toList ∧ key ≠ lower preamble := by
  rcases coalesced with rfl | rfl <;> exact ⟨by decide, by decide⟩

/-- **What one section does**: nothing, or it is appended to the first section of its name, or it is put at
the end. -/
theorem combineOne_cases (out : List Section) (sec : Section) :
    (Skipped sec ∧ combineOne out sec = out) ∨
    (Coalesced (lower sec.name) ∧ (∃ known ∈ out, lower known.name = lower sec.name) ∧
      combineOne out sec = changeSection sec.name (appendBody sec) out) ∨
    (¬ Skipped sec ∧ (Coalesced (lower sec.name) → ∀ known ∈ out, lower known.name ≠ lower sec.name) ∧
      combineOne out sec = out ++ [sec]) := by
  have defaults : lower "Defaults".toList = "defaults".toList := by decide
  have disks : lower "Disks".toList = "disks".toList := by decide
  have scsi : lower "SCSI".toList = "scsi".toList := by decide
  have listed : (coalesce.any fun c => eqIgnoreCase c sec.name) = true ↔ Coalesced (lower sec.name) := by
    simp only [coalesce, List.any_cons, List.any_nil, Bool.or_false, Bool.or_eq_true, eqIgnoreCase_iff, disks, scsi,
      Coalesced]
    exact or_congr eq_comm eq_comm
  have known : (out.any fun s => eqIgnoreCase s.name sec.name) = true ↔
      ∃ known ∈ out, lower known.name = lower sec.name := by
    simp only [List.any_eq_true, eqIgnoreCase_iff]
  have skipped : (eqIgnoreCase sec.name "Defaults".toList = true ∨ sec.name = preamble) ↔ Skipped sec := by
    rw [eqIgnoreCase_iff, defaults, Skipped]
  unfold combineOne
  by_cases skips : Skipped sec
  · exact Or.inl ⟨skips, if_pos (skipped.mpr skips)⟩
  · rw [if_neg (mt skipped.mp skips)]
    by_cases both : Coalesced (lower sec.name) ∧ ∃ known ∈ out, lower known.name = lower sec.name
    · exact Or.inr (Or.inl ⟨both.1, both.2, if_pos ⟨listed.mpr both.1, known.mpr both.2⟩⟩)
    · refine Or.inr (Or.inr ⟨skips, fun coalesced other member same => both ⟨coalesced, other, member, same⟩, ?_⟩)
      exact if_neg fun holds => both ⟨listed.mp holds.1, known.mp holds.2⟩

section Change

variable {key name : Text} (change : List Text → List Text) (sections : List Section)

/-- A change of a section with another name. -/
theorem heldBody_changeSection (apart : lower name ≠ key) (unreserved : lower name ≠ lower preamble)
    (inside : Bool) :
    heldBody (isNamed key) inside (changeSection name change sections) = heldBody (isNamed key) inside sections := by
  induction sections generalizing inside with
  | nil => rfl
  | cons sec rest ih =>
    rw [changeSection]
    split
    · rename_i here
      rw [eqIgnoreCase_iff] at here
      have named : sec.name ≠ preamble := fun reserved => unreserved (here ▸ congrArg lower reserved)
      have other : isNamed key sec.name = false := isNamed_eq_false.mpr (here ▸ apart)
      rw [heldBody, heldBody, if_neg named, if_neg named, other]
      rfl
    · rw [heldBody, heldBody, ih, ih]

theorem firstBody_changeSection_of_ne (apart : lower name ≠ key) :
    firstBody (isNamed key) (changeSection name change sections) = firstBody (isNamed key) sections := by
  unfold firstBody
  induction sections with
  | nil => rfl
  | cons sec rest ih =>
    rw [changeSection]
    split
    · rename_i here
      rw [eqIgnoreCase_iff] at here
      have other : isNamed key sec.name = false := isNamed_eq_false.mpr (here ▸ apart)
      rw [List.find?_cons, List.find?_cons, other]
    · rw [List.find?_cons, List.find?_cons]
      split
      · rfl
      · exact ih

theorem behindFirst_changeSection_of_ne (apart : lower name ≠ key)
    (unreserved : lower name ≠ lower preamble) :
    behindFirst (isNamed key) (changeSection name change sections) = behindFirst (isNamed key) sections := by
  induction sections with
  | nil => rfl
  | cons sec rest ih =>
    rw [changeSection]
    split
    · rename_i here
      rw [eqIgnoreCase_iff] at here
      have other : isNamed key sec.name = false := isNamed_eq_false.mpr (here ▸ apart)
      rw [behindFirst, behindFirst, other]
    · rw [behindFirst, behindFirst, heldBody_changeSection change rest apart unreserved, ih]

/-- A change of the first section of a name. -/
theorem firstBody_changeSection (same : lower name = key)
    (known : ∃ sec ∈ sections, lower sec.name = key) :
    firstBody (isNamed key) (changeSection name change sections) = change (firstBody (isNamed key) sections) ∧
      behindFirst (isNamed key) (changeSection name change sections) = behindFirst (isNamed key) sections := by
  induction sections with
  | nil =>
    obtain ⟨_, member, _⟩ := known
    exact absurd member List.not_mem_nil
  | cons sec rest ih =>
    rw [changeSection]
    split
    · rename_i here
      rw [eqIgnoreCase_iff, same] at here
      have found : isNamed key sec.name = true := isNamed_iff.mpr here
      rw [firstBody, firstBody, List.find?_cons, List.find?_cons, behindFirst, behindFirst, found]
      exact ⟨rfl, rfl⟩
    · rename_i apart
      rw [eqIgnoreCase_iff, same] at apart
      have other : isNamed key sec.name = false := isNamed_eq_false.mpr apart
      have later : ∃ sec ∈ rest, lower sec.name = key := by
        obtain ⟨found, member, equal⟩ := known
        rcases List.mem_cons.mp member with rfl | inRest
        · exact absurd equal apart
        · exact ⟨found, inRest, equal⟩
      rw [firstBody, firstBody, List.find?_cons, List.find?_cons, behindFirst, behindFirst, other]
      exact ih later

theorem changeSection_names :
    (changeSection name change sections).map Section.name = sections.map Section.name := by
  induction sections with
  | nil => rfl
  | cons sec rest ih =>
    rw [changeSection]
    split
    · rfl
    · rw [List.map_cons, List.map_cons, ih]

end Change

section Concat

variable {named : Text → Bool} {sec : Section} (unreserved : sec.name ≠ preamble)

include unreserved

theorem heldBody_concat (sections : List Section) (inside : Bool) :
    heldBody named inside (sections ++ [sec])
      = heldBody named inside sections ++ if named sec.name then sec.lines else [] := by
  induction sections generalizing inside with
  | nil =>
    refine (if_neg unreserved).trans ?_
    rw [heldBody, heldBody, List.append_nil, List.nil_append]
  | cons first rest ih =>
    rw [List.cons_append, heldBody, heldBody, ih, ih]
    split
    · rw [List.append_assoc]
    · rw [List.append_assoc]

theorem behindFirst_concat {sections : List Section}
    (fresh : named sec.name = true → ∀ known ∈ sections, named known.name = false) :
    behindFirst named (sections ++ [sec]) = behindFirst named sections := by
  induction sections with
  | nil => exact ite_self []
  | cons first rest ih =>
    rw [List.cons_append, behindFirst, behindFirst]
    split
    · rename_i found
      have other : named sec.name = false := by
        by_contra same
        have absent := fresh (Bool.not_eq_false _ ▸ same) first List.mem_cons_self
        rw [found] at absent
        cases absent
      rw [heldBody_concat unreserved, other]
      exact List.append_nil _
    · exact ih fun same known member => fresh same known (List.mem_cons_of_mem _ member)

end Concat

section Combine

variable {key : Text} {out : List Section} {sec : Section}

theorem firstBody_concat_of_ne (apart : isNamed key sec.name = false) :
    firstBody (isNamed key) (out ++ [sec]) = firstBody (isNamed key) out := by
  rw [firstBody, List.find?_append, List.find?_singleton, apart, if_neg Bool.false_ne_true, Option.or_none]
  rfl

/-- Sections with other names are left alone. -/
theorem combineOne_of_ne (apart : lower sec.name ≠ key) :
    firstBody (isNamed key) (combineOne out sec) = firstBody (isNamed key) out ∧
      behindFirst (isNamed key) (combineOne out sec) = behindFirst (isNamed key) out ∧
      ∀ inside, heldBody (isNamed key) inside (combineOne out sec) = heldBody (isNamed key) inside out := by
  have other : isNamed key sec.name = false := isNamed_eq_false.mpr apart
  rcases combineOne_cases out sec with ⟨_, same⟩ | ⟨coalesced, _, same⟩ | ⟨skips, _, same⟩
  · rw [same]
    exact ⟨rfl, rfl, fun _ => rfl⟩
  · rw [same]
    have unreserved := coalesced.ne.2
    exact ⟨firstBody_changeSection_of_ne _ _ apart, behindFirst_changeSection_of_ne _ _ apart unreserved,
      heldBody_changeSection _ _ apart unreserved⟩
  · rw [same]
    have unreserved : sec.name ≠ preamble := fun reserved => skips (Or.inr reserved)
    refine ⟨firstBody_concat_of_ne other, behindFirst_concat unreserved fun named => ?_, fun inside => ?_⟩
    · rw [other] at named
      cases named
    · rw [heldBody_concat unreserved, other]
      exact List.append_nil _

theorem appendBody_nil (sec : Section) : appendBody sec [] = sec.lines := by
  have all : sec.lines.filter (isNewDisk (diskIds [])) = sec.lines := by
    refine List.filter_eq_self.mpr fun line _ => ?_
    unfold isNewDisk
    split <;> rfl
  unfold appendBody appendDisks
  split
  · exact all
  · rfl

/-- **A coalesced section** appends its lines to the first section of its name. -/
theorem combineOne_coalesced (same : lower sec.name = key) (coalesced : Coalesced key) :
    firstBody (isNamed key) (combineOne out sec) = appendBody sec (firstBody (isNamed key) out) ∧
      behindFirst (isNamed key) (combineOne out sec) = behindFirst (isNamed key) out := by
  rcases combineOne_cases out sec with ⟨skips | skips, _⟩ | ⟨_, known, result⟩ | ⟨skips, fresh, result⟩
  · exact absurd (same.symm.trans skips) coalesced.ne.1
  · exact absurd (same.symm.trans (congrArg lower skips)) coalesced.ne.2
  · rw [result]
    rw [same] at known
    exact firstBody_changeSection _ _ same known
  · rw [result]
    have absent : ∀ known ∈ out, isNamed key known.name = false := fun known member =>
      isNamed_eq_false.mpr (same ▸ fresh (same ▸ coalesced) known member)
    have none : out.find? (fun sec => isNamed key sec.name) = none := by
      refine List.find?_eq_none.mpr fun known member found => ?_
      rw [absent known member] at found
      cases found
    refine ⟨?_, behindFirst_concat (fun reserved => skips (Or.inr reserved)) fun _ => absent⟩
    rw [firstBody, firstBody, List.find?_append, none, List.find?_singleton, isNamed_iff.mpr same, if_pos rfl]
    exact (appendBody_nil sec).symm

/-- **Another section** is put at the end. -/
theorem combineOne_pushed (same : lower sec.name = key) (plain : ¬ Coalesced key) (kept : ¬ Skipped sec)
    (inside : Bool) :
    heldBody (isNamed key) inside (combineOne out sec) = heldBody (isNamed key) inside out ++ sec.lines := by
  rcases combineOne_cases out sec with ⟨skips, _⟩ | ⟨coalesced, _, _⟩ | ⟨_, _, result⟩
  · exact absurd skips kept
  · exact absurd (same ▸ coalesced) plain
  · rw [result, heldBody_concat fun reserved => kept (Or.inr reserved), isNamed_iff.mpr same, if_pos rfl]

/-! ### All sections of the second text -/

/-- The lines of the first section of a coalesced name. -/
theorem combine_firstBody (coalesced : Coalesced key) (base oem : List Section) :
    firstBody (isNamed key) (combine base oem)
        = (oem.filter fun sec => isNamed key sec.name).foldl (fun body sec => appendBody sec body)
            (firstBody (isNamed key) base) ∧
      behindFirst (isNamed key) (combine base oem) = behindFirst (isNamed key) base := by
  unfold combine
  induction oem generalizing base with
  | nil => exact ⟨rfl, rfl⟩
  | cons sec rest ih =>
    obtain ⟨first, behind⟩ := ih (combineOne base sec)
    rw [List.foldl_cons, first, behind, List.filter_cons]
    split
    · rename_i named
      obtain ⟨one, others⟩ := combineOne_coalesced (isNamed_iff.mp named) coalesced
      rw [one, others]
      exact ⟨rfl, rfl⟩
    · rename_i apart
      obtain ⟨one, others, _⟩ := @combineOne_of_ne key base sec (mt isNamed_iff.mpr apart)
      rw [one, others]
      exact ⟨rfl, rfl⟩

/-- The lines of the sections of another name. -/
theorem combine_heldBody (plain : ¬ Coalesced key) (notDefaults : key ≠ "defaults".toList)
    (unreserved : key ≠ lower preamble) (base oem : List Section) (inside : Bool) :
    heldBody (isNamed key) inside (combine base oem)
      = heldBody (isNamed key) inside base ++ bodyOf (isNamed key) oem := by
  unfold combine
  induction oem generalizing base with
  | nil => exact (List.append_nil _).symm
  | cons sec rest ih =>
    rw [List.foldl_cons, ih, bodyOf_cons]
    split
    · rename_i named
      rw [isNamed_iff] at named
      rw [combineOne_pushed named plain, List.append_assoc]
      rintro (skips | skips)
      · exact notDefaults (named.symm.trans skips)
      · exact unreserved (named.symm.trans (congrArg lower skips))
    · rename_i apart
      rw [(combineOne_of_ne (mt isNamed_iff.mpr apart)).2.2 inside, List.nil_append]

/-- The names of the sections of a coalesced name stay when there is one. -/
theorem combine_names (coalesced : Coalesced key) {base : List Section} (oem : List Section)
    (known : ∃ sec ∈ base, lower sec.name = key) :
    ((combine base oem).map Section.name).filter (isNamed key)
      = (base.map Section.name).filter (isNamed key) := by
  unfold combine
  induction oem generalizing base with
  | nil => rfl
  | cons sec rest ih =>
    have names : ((combineOne base sec).map Section.name).filter (isNamed key)
        = (base.map Section.name).filter (isNamed key) := by
      rcases combineOne_cases base sec with ⟨_, same⟩ | ⟨_, _, same⟩ | ⟨_, fresh, same⟩
      · rw [same]
      · rw [same, changeSection_names]
      · have apart : isNamed key sec.name = false := by
          refine isNamed_eq_false.mpr fun equal => ?_
          obtain ⟨found, member, here⟩ := known
          exact fresh (equal ▸ coalesced) found member (here.trans equal.symm)
        rw [same, List.map_append, List.filter_append, List.map_singleton, List.filter_singleton, apart]
        exact List.append_nil _
    refine (ih ?_).trans names
    obtain ⟨found, member, here⟩ := known
    have inNames : found.name ∈ (base.map Section.name).filter (isNamed key) :=
      List.mem_filter.mpr ⟨List.mem_map_of_mem member, isNamed_iff.mpr here⟩
    rw [← names] at inNames
    obtain ⟨still, inOut, equal⟩ := List.mem_map.mp (List.mem_of_mem_filter inNames)
    exact ⟨still, inOut, equal ▸ here⟩

end Combine

/-! ### The merged text is read back -/

theorem mem_appendBody {sec : Section} {existing : List Text} {line : Text}
    (member : line ∈ appendBody sec existing) : line ∈ existing ∨ line ∈ sec.lines := by
  unfold appendBody appendDisks at member
  split at member
  · exact (List.mem_append.mp member).imp_right List.mem_of_mem_filter
  · exact List.mem_append.mp member

theorem changeSection_wellFormed {sec : Section} (wellFormed : sec.WellFormed) {name : Text}
    {sections : List Section} (all : ∀ sec ∈ sections, sec.WellFormed) :
    ∀ changed ∈ changeSection name (appendBody sec) sections, changed.WellFormed := by
  induction sections with
  | nil => exact fun _ member => absurd member List.not_mem_nil
  | cons first rest ih =>
    have here := all first List.mem_cons_self
    have later : ∀ other ∈ rest, other.WellFormed := fun other member => all other (List.mem_cons_of_mem _ member)
    rw [changeSection]
    split
    · intro changed member
      rcases List.mem_cons.mp member with rfl | inRest
      · refine ⟨here.nonempty, here.trimmed, here.closed, here.oneLine, fun line inBody => ?_⟩
        rcases mem_appendBody inBody with old | new
        · exact here.body line old
        · exact wellFormed.body line new
      · exact later changed inRest
    · intro changed member
      rcases List.mem_cons.mp member with rfl | inRest
      · exact here
      · exact ih later changed inRest

theorem combine_wellFormed {base oem : List Section} (inBase : ∀ sec ∈ base, sec.WellFormed)
    (inOem : ∀ sec ∈ oem, sec.WellFormed) : ∀ sec ∈ combine base oem, sec.WellFormed := by
  unfold combine
  induction oem generalizing base with
  | nil => exact inBase
  | cons sec rest ih =>
    have here := inOem sec List.mem_cons_self
    refine ih ?_ fun other member => inOem other (List.mem_cons_of_mem _ member)
    rcases combineOne_cases base sec with ⟨_, same⟩ | ⟨_, _, same⟩ | ⟨_, _, same⟩
    · rw [same]
      exact inBase
    · rw [same]
      exact changeSection_wellFormed here inBase
    · rw [same]
      intro other member
      rcases List.mem_append.mp member with old | new
      · exact inBase other old
      · exact List.mem_singleton.mp new ▸ here

/-- **The sections of the merged text.** -/
theorem merge_eq_ok {base oem : Text} {baseSections oemSections : List Section}
    (readBase : parse base = .ok baseSections) (readOem : parse oem = .ok oemSections) :
    ∃ merged, merge base oem = .ok merged ∧ parse merged = .ok (rejoin (combine baseSections oemSections)) := by
  refine ⟨emit (combine baseSections oemSections), ?_,
    parse_emit (combine_wellFormed (parse_wellFormed readBase) (parse_wellFormed readOem))⟩
  rw [merge, readBase, readOem]
  rfl

end Bootsmith.Driver
