/-
**The disks of a merged `txtsetup.oem`** (`ntxp_txtsetup.rs`).

Merging drops a disk line of the second text when its id stood in the first `[Disks]` section before the
second text's section was read. So an id that is new stays twice when one section declares it twice
(`merge_declares_twice`).

* `nodup_foldl_appendDisks`: the ids are different exactly when no section declares a new one twice;
* `merge_disks_iff`: when the merged text declares each disk once.
-/

import Bootsmith.Driver.Merge

namespace Bootsmith.Driver

open Bootsmith.Library

/-! ### Appending disk lines -/

theorem diskIds_filter (existingIds body : List Text) :
    diskIds (body.filter (isNewDisk existingIds))
      = (diskIds body).filter fun id => !existingIds.contains id := by
  unfold diskIds
  induction body with
  | nil => rfl
  | cons line rest ih =>
    rw [List.filter_cons]
    cases declares : diskId line with
    | none =>
      rw [isNewDisk, declares, if_pos rfl, List.filterMap_cons_none declares, List.filterMap_cons_none declares,
        ih]
    | some id =>
      have new : isNewDisk existingIds line = !existingIds.contains id := by rw [isNewDisk, declares]
      rw [new, List.filterMap_cons_some declares, List.filter_cons]
      split
      · rw [List.filterMap_cons_some declares, ih]
      · exact ih

/-- Appending adds the ids that are not declared. -/
theorem diskIds_appendDisks (existing body : List Text) :
    diskIds (appendDisks existing body)
      = diskIds existing ++ (diskIds body).filter fun id => !(diskIds existing).contains id := by
  rw [← diskIds_filter, diskIds, appendDisks, List.filterMap_append]
  rfl

theorem mem_diskIds_appendDisks {existing body : List Text} {id : Text} :
    id ∈ diskIds (appendDisks existing body) ↔ id ∈ diskIds existing ∨ id ∈ diskIds body := by
  rw [diskIds_appendDisks, List.mem_append, List.mem_filter, Bool.not_eq_true', List.contains_eq_mem,
    decide_eq_false_iff_not]
  by_cases known : id ∈ diskIds existing
  · simp only [known, true_or]
  · simp only [known, false_or, not_false_eq_true, and_true]

/-- The ids of the whole loop. -/
theorem mem_diskIds_foldl {bodies : List (List Text)} {existing : List Text} {id : Text} :
    id ∈ diskIds (bodies.foldl appendDisks existing) ↔
      id ∈ diskIds existing ∨ ∃ body ∈ bodies, id ∈ diskIds body := by
  induction bodies generalizing existing with
  | nil => simp
  | cons body rest ih => rw [List.foldl_cons, ih, mem_diskIds_appendDisks, List.exists_mem_cons_iff, or_assoc]

theorem prefix_foldl_appendDisks (bodies : List (List Text)) (existing : List Text) :
    existing <+: bodies.foldl appendDisks existing := by
  induction bodies generalizing existing with
  | nil => exact List.prefix_rfl
  | cons body rest ih => exact (List.prefix_append existing _).trans (ih (appendDisks existing body))

/-- **No section declares an id twice that is new when the section is read.** -/
def FreshOnce (known : List Text) : List (List Text) → Prop
  | [] => True
  | body :: rest =>
    ((diskIds body).filter fun id => !known.contains id).Nodup ∧ FreshOnce (known ++ diskIds body) rest

instance : (known : List Text) → (bodies : List (List Text)) → Decidable (FreshOnce known bodies)
  | _, [] => inferInstanceAs (Decidable True)
  | known, body :: rest =>
    have : Decidable (FreshOnce (known ++ diskIds body) rest) := instDecidableFreshOnce _ rest
    inferInstanceAs (Decidable (_ ∧ _))

theorem freshOnce_congr {first second : List Text} (same : ∀ id, id ∈ first ↔ id ∈ second)
    (bodies : List (List Text)) : FreshOnce first bodies ↔ FreshOnce second bodies := by
  induction bodies generalizing first second with
  | nil => exact Iff.rfl
  | cons body rest ih =>
    have filters : (diskIds body).filter (fun id => !first.contains id)
        = (diskIds body).filter fun id => !second.contains id := by
      refine List.filter_congr fun id _ => ?_
      rw [List.contains_eq_mem, List.contains_eq_mem, decide_eq_decide.mpr (same id)]
    refine and_congr (by rw [filters]) (ih fun id => ?_)
    rw [List.mem_append, List.mem_append, same id]

/-- **The ids after the whole loop are different** exactly when they were and no section declares a new one
twice. -/
theorem nodup_foldl_appendDisks (bodies : List (List Text)) (existing : List Text) :
    (diskIds (bodies.foldl appendDisks existing)).Nodup ↔
      (diskIds existing).Nodup ∧ FreshOnce (diskIds existing) bodies := by
  induction bodies generalizing existing with
  | nil => exact (and_iff_left trivial).symm
  | cons body rest ih =>
    have one : (diskIds (appendDisks existing body)).Nodup ↔ (diskIds existing).Nodup ∧
        ((diskIds body).filter fun id => !(diskIds existing).contains id).Nodup := by
      rw [diskIds_appendDisks, List.nodup_append, ← and_assoc, and_iff_left]
      rintro id known _ fresh rfl
      have absent := (List.mem_filter.mp fresh).2
      rw [List.contains_eq_mem, decide_eq_true known] at absent
      cases absent
    have later := @freshOnce_congr (diskIds (appendDisks existing body)) (diskIds existing ++ diskIds body)
      (fun id => by rw [mem_diskIds_appendDisks, List.mem_append]) rest
    rw [List.foldl_cons, ih, one, later, and_assoc]
    exact Iff.rfl

/-! ### The disks of the merged text -/

/-- The name of a `[Disks]` section, up to case. -/
def isDisks (name : Text) : Bool := eqIgnoreCase name "Disks".toList

theorem isDisks_eq : isDisks = isNamed "disks".toList := rfl

/-- The lines of each `[Disks]` section. -/
def diskBodies (sections : List Section) : List (List Text) :=
  (sections.filter fun sec => isDisks sec.name).map Section.lines

/-- **The `[Disks]` section of the merged text**: the base lines, the lines of the second text that are not
dropped, and the lines below a header with the reserved name behind the section. -/
theorem merge_disks {base : List Section} (oem : List Section) {disks : Section}
    (one : base.filter (fun sec => isDisks sec.name) = [disks]) :
    ∃ all, (rejoin (combine base oem)).filter (fun sec => isDisks sec.name) = [all] ∧
      all.lines = (diskBodies oem).foldl appendDisks disks.lines ++ behindFirst isDisks base := by
  have coalesced : Coalesced "disks".toList := Or.inl rfl
  have member : disks ∈ base.filter fun sec => isDisks sec.name := by rw [one]; exact List.mem_singleton_self _
  obtain ⟨inBase, named⟩ := List.mem_filter.mp member
  -- there is one section of the name in the base text, so there is one in the merged text
  have baseNames : (base.map Section.name).filter isDisks = [disks.name] := by
    rw [List.filter_map]
    exact congrArg (List.map Section.name) one
  have names : ((rejoin (combine base oem)).map Section.name).filter isDisks = [disks.name] := by
    refine (names_rejoinFrom (by decide) none _).trans ?_
    rw [isDisks_eq, combine_names coalesced oem ⟨disks, inBase, isNamed_iff.mp named⟩, ← isDisks_eq, baseNames]
    rfl
  rw [List.filter_map] at names
  obtain ⟨all, single, _⟩ := List.map_eq_singleton_iff.mp names
  refine ⟨all, single, ?_⟩
  have body : bodyOf isDisks (rejoin (combine base oem)) = all.lines := by
    have found : (rejoin (combine base oem)).filter (fun sec => isDisks sec.name) = [all] := single
    rw [bodyOf, found, List.flatMap_singleton]
  have start : firstBody isDisks base = disks.lines := by
    rw [firstBody, ← List.head?_filter, one]
    rfl
  obtain ⟨first, behind⟩ := combine_firstBody coalesced base oem
  have appended : (oem.filter fun sec => isDisks sec.name).foldl (fun body sec => appendBody sec body) disks.lines
      = (diskBodies oem).foldl appendDisks disks.lines := by
    rw [diskBodies, List.foldl_map]
    refine List.foldl_ext _ _ _ fun body sec inOem => ?_
    exact if_pos (List.of_mem_filter inOem)
  rw [← body, bodyOf_rejoin (by decide), isDisks_eq, first, behind, ← isDisks_eq, start, appended]

/-- **When the merged text declares each disk once**: no section of the second text declares a new id twice,
and the lines that a lost header leaves behind the base disks declare each id once, and no other one's. -/
structure NewDisksOnce (base oem : List Section) : Prop where
  fresh : FreshOnce (diskIds (bodyOf isDisks base)) (diskBodies oem)
  once : (diskIds (behindFirst isDisks base)).Nodup
  apart : ∀ id ∈ diskIds (behindFirst isDisks base), id ∉ diskIds (bodyOf isDisks base) ∧
    ∀ body ∈ diskBodies oem, id ∉ diskIds body

/-- The merged text has one `[Disks]` section, which keeps the base lines, declares the ids of the second
text, and declares no id twice. -/
def DisksMerged (merged : List Section) (disks : Section) (oem : List Section) : Prop :=
  ∃ all, merged.filter (fun sec => isDisks sec.name) = [all] ∧ disks.lines <+: all.lines ∧
    (∀ body ∈ diskBodies oem, ∀ id ∈ diskIds body, id ∈ diskIds all.lines) ∧ (diskIds all.lines).Nodup

theorem disksMerged_iff {base oem : List Section} {disks : Section}
    (one : base.filter (fun sec => isDisks sec.name) = [disks]) (distinct : (diskIds disks.lines).Nodup) :
    DisksMerged (rejoin (combine base oem)) disks oem ↔ NewDisksOnce base oem := by
  obtain ⟨all, single, body⟩ := merge_disks oem one
  have start : bodyOf isDisks base = disks.lines := by rw [bodyOf, one, List.flatMap_singleton]
  have ids : diskIds all.lines = diskIds ((diskBodies oem).foldl appendDisks disks.lines)
      ++ diskIds (behindFirst isDisks base) := by rw [body, diskIds, List.filterMap_append]; rfl
  have different : (diskIds all.lines).Nodup ↔ NewDisksOnce base oem := by
    rw [ids, List.nodup_append', nodup_foldl_appendDisks, and_iff_right distinct, List.disjoint_right]
    constructor
    · rintro ⟨fresh, once, apart⟩
      refine ⟨by rwa [start], once, fun id behind => ?_⟩
      have absent := apart behind
      rw [mem_diskIds_foldl, not_or] at absent
      rw [start]
      exact ⟨absent.1, fun body member declares => absent.2 ⟨body, member, declares⟩⟩
    · rintro ⟨fresh, once, apart⟩
      rw [start] at fresh apart
      refine ⟨fresh, once, fun id behind known => ?_⟩
      rcases mem_diskIds_foldl.mp known with inBase | ⟨body, member, declares⟩
      · exact (apart id behind).1 inBase
      · exact (apart id behind).2 body member declares
  constructor
  · rintro ⟨all', single', _, _, nodup⟩
    obtain rfl := List.singleton_inj.mp (single'.symm.trans single)
    exact different.mp nodup
  · intro merges
    refine ⟨all, single, ?_, fun body member id declares => ?_, different.mpr merges⟩
    · rw [body]
      exact (prefix_foldl_appendDisks _ _).trans (List.prefix_append _ _)
    · rw [ids]
      exact List.mem_append_left _ (mem_diskIds_foldl.mpr (Or.inr ⟨body, member, declares⟩))

/-- **The disks of two merged texts**: exactly when each new id is declared once, the merged text has one
`[Disks]` section that keeps the base lines and declares every id once. -/
theorem merge_disks_iff {base oem : Text} {baseSections oemSections : List Section} {disks : Section}
    (readBase : parse base = .ok baseSections) (readOem : parse oem = .ok oemSections)
    (one : baseSections.filter (fun sec => isDisks sec.name) = [disks])
    (distinct : (diskIds disks.lines).Nodup) :
    ∃ merged sections, merge base oem = .ok merged ∧ parse merged = .ok sections ∧
      (DisksMerged sections disks oemSections ↔ NewDisksOnce baseSections oemSections) := by
  obtain ⟨merged, merges, reads⟩ := merge_eq_ok readBase readOem
  exact ⟨merged, _, merges, reads, disksMerged_iff one distinct⟩

/-- A text with one disk. -/
def oneDisk : Text := "[Disks]\nd1 = A\n".toList

/-- A text with some disks. -/
def someDisks (lines : String) : Text := ("[DISKS]\n" ++ lines).toList

set_option maxRecDepth 20000 in
/-- A new disk and a known one are merged. -/
theorem merge_disks_sample : ∃ merged sections, merge oneDisk (someDisks "D1 = B\nd2 = C\n") = .ok merged ∧
    parse merged = .ok sections ∧
    DisksMerged sections ⟨"Disks".toList, ["d1 = A".toList]⟩
      [⟨"DISKS".toList, ["D1 = B".toList, "d2 = C".toList]⟩] := by
  have readBase : parse oneDisk = .ok [⟨"Disks".toList, ["d1 = A".toList]⟩] := by decide
  have readOem : parse (someDisks "D1 = B\nd2 = C\n")
      = .ok [⟨"DISKS".toList, ["D1 = B".toList, "d2 = C".toList]⟩] := by decide
  obtain ⟨merged, sections, merges, reads, same⟩ := merge_disks_iff readBase readOem
    (show _ = [⟨"Disks".toList, ["d1 = A".toList]⟩] by decide) (by decide)
  exact ⟨merged, sections, merges, reads, same.mpr ⟨by decide, by decide, by decide⟩⟩

set_option maxRecDepth 20000 in
/-- **A new disk that one section declares twice stays twice.** -/
theorem merge_declares_twice : ¬ ∀ (base oem : Text) (baseSections oemSections : List Section) (disks : Section),
    parse base = .ok baseSections → parse oem = .ok oemSections →
    baseSections.filter (fun sec => isDisks sec.name) = [disks] → (diskIds disks.lines).Nodup →
    ∃ merged sections, merge base oem = .ok merged ∧ parse merged = .ok sections ∧
      DisksMerged sections disks oemSections := by
  intro claimed
  have readBase : parse oneDisk = .ok [⟨"Disks".toList, ["d1 = A".toList]⟩] := by decide
  have readOem : parse (someDisks "d2 = B\nD2 = C\n")
      = .ok [⟨"DISKS".toList, ["d2 = B".toList, "D2 = C".toList]⟩] := by decide
  have one : [(⟨"Disks".toList, ["d1 = A".toList]⟩ : Section)].filter (fun sec => isDisks sec.name)
      = [⟨"Disks".toList, ["d1 = A".toList]⟩] := by decide
  have distinct : (diskIds ["d1 = A".toList]).Nodup := by decide
  obtain ⟨merged, sections, merges, reads, once⟩ := claimed _ _ _ _ _ readBase readOem one distinct
  obtain ⟨merged', merges', reads'⟩ := merge_eq_ok readBase readOem
  obtain rfl := Except.ok.inj (merges.symm.trans merges')
  obtain rfl := Except.ok.inj (reads.symm.trans reads')
  exact absurd ((disksMerged_iff one distinct).mp once).fresh (by decide)

end Bootsmith.Driver
