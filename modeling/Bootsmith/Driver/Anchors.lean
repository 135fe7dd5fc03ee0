/-
**Where the groups of new lines go.**

The section of a line is named by the last header at or above it (`sectionAt`). The scan finds for each
section a header of it and, perhaps, a body line of it (`Scanned`), so its anchor lies in the section
and different sections have different anchors. Hence each group is put into its own section, whole and
once, whatever the order in which the map of headers is visited (`applyAdditions_inserted`).
-/

import Bootsmith.Driver.Slipstream

namespace Bootsmith.Driver

open Bootsmith.Library

/-! ### The section of a line -/

/-- The section the last header opens. -/
def lastHeader (all : List Text) : Option Text := (all.filterMap headerKey).getLast?

/-- The section a line is in: a header opens its section. -/
def sectionAt (all : List Text) (idx : Nat) : Option Text := lastHeader (all.take (idx + 1))

theorem lastHeader_concat_header (seen : List Text) {raw key : Text}
    (header : headerKey raw = some key) :
    lastHeader (seen ++ [raw]) = some key := by
  rw [lastHeader, List.filterMap_append, List.filterMap_cons_some header, List.filterMap_nil,
    List.getLast?_concat]

theorem lastHeader_concat_body (seen : List Text) {raw : Text} (body : headerKey raw = none) :
    lastHeader (seen ++ [raw]) = lastHeader seen := by
  rw [lastHeader, List.filterMap_append, List.filterMap_cons_none body, List.filterMap_nil,
    List.append_nil, lastHeader]

theorem sectionAt_concat {seen : List Text} {idx : Nat} (before : idx < seen.length) (raw : Text) :
    sectionAt (seen ++ [raw]) idx = sectionAt seen idx := by
  rw [sectionAt, sectionAt, List.take_append_of_le_length (by omega)]

theorem sectionAt_last (seen : List Text) (raw : Text) :
    sectionAt (seen ++ [raw]) seen.length = lastHeader (seen ++ [raw]) := by
  rw [sectionAt, List.take_of_length_le (by simp)]

/-! ### The maps of the scan -/

theorem mem_of_lookup {map : List (Text × Nat)} {key : Text} {idx : Nat}
    (found : map.lookup key = some idx) : (key, idx) ∈ map := by
  induction map with
  | nil => cases found
  | cons entry rest ih =>
    obtain ⟨other, value⟩ := entry
    rw [List.lookup_cons] at found
    split at found
    · rename_i same
      rw [beq_iff_eq] at same
      obtain rfl := Option.some.inj found
      rw [same]
      exact List.mem_cons_self
    · exact List.mem_cons_of_mem _ (ih found)

theorem lookup_eq_none {map : List (Text × Nat)} {key : Text} (absent : map.lookup key = none) :
    key ∉ map.map Prod.fst := by
  induction map with
  | nil => exact List.not_mem_nil
  | cons entry rest ih =>
    obtain ⟨other, value⟩ := entry
    rw [List.lookup_cons] at absent
    split at absent
    · cases absent
    · rename_i different
      rw [beq_eq_false_iff_ne] at different
      rw [List.map_cons, List.mem_cons, not_or]
      exact ⟨different, ih absent⟩

theorem mem_insertKey {map : List (Text × Nat)} {key : Text} {idx : Nat} {entry : Text × Nat}
    (member : entry ∈ insertKey key idx map) : entry = (key, idx) ∨ entry ∈ map :=
  (List.mem_cons.mp member).imp_right List.mem_of_mem_filter

/-- The entries of a map name lines in their sections. -/
def Located (all : List Text) (map : List (Text × Nat)) : Prop :=
  ∀ entry ∈ map, entry.2 < all.length ∧ sectionAt all entry.2 = some entry.1

theorem Located.concat {seen : List Text} {map : List (Text × Nat)} (located : Located seen map)
    (raw : Text) : Located (seen ++ [raw]) map := by
  intro entry member
  obtain ⟨before, here⟩ := located entry member
  exact ⟨by rw [List.length_append]; omega, (sectionAt_concat before raw).trans here⟩

/-- The last line may be added to a map under its section. -/
theorem Located.cons_last {seen : List Text} {map : List (Text × Nat)} {raw key : Text}
    (located : Located (seen ++ [raw]) map) (here : lastHeader (seen ++ [raw]) = some key) :
    Located (seen ++ [raw]) ((key, seen.length) :: map) := by
  intro entry member
  rcases List.mem_cons.mp member with rfl | old
  · exact ⟨by simp, (sectionAt_last seen raw).trans here⟩
  · exact located entry old

/-- **What the scan knows** of the lines it has seen. -/
structure Scanned (seen : List Text) (state : ScanState) : Prop where
  current : state.currentSection = lastHeader seen
  firstSeen : Located seen state.sectionFirstSeen
  keys : (state.sectionFirstSeen.map Prod.fst).Nodup
  lastBody : Located seen state.lastBodyIdx

/-- One line of the scan. -/
theorem Scanned.scanLine {seen : List Text} {state : ScanState} (scanned : Scanned seen state)
    (raw : Text) : Scanned (seen ++ [raw]) (scanLine state (raw, seen.length)) := by
  obtain ⟨current, firstSeen, keys, lastBody⟩ := scanned
  unfold Driver.scanLine
  cases header : headerKey raw with
  | some key =>
    have here := lastHeader_concat_header seen header
    refine ⟨here.symm, ?_, ?_, lastBody.concat raw⟩
    · show Located _ (orInsert key seen.length state.sectionFirstSeen)
      unfold orInsert
      split
      · exact firstSeen.concat raw
      · exact (firstSeen.concat raw).cons_last here
    · show ((orInsert key seen.length state.sectionFirstSeen).map Prod.fst).Nodup
      unfold orInsert
      split
      · exact keys
      · rename_i absent
        exact List.nodup_cons.mpr ⟨lookup_eq_none (Option.not_isSome_iff_eq_none.mp absent), keys⟩
  | none =>
    have here := lastHeader_concat_body seen header
    have same : Scanned (seen ++ [raw]) state :=
      ⟨current.trans here.symm, firstSeen.concat raw, keys, lastBody.concat raw⟩
    dsimp only
    split
    · exact same
    · rename_i sec entered
      split
      · exact same
      · split
        · exact same
        · split
          · refine ⟨same.current, same.firstSeen, keys, fun entry member => ?_⟩
            refine ((lastBody.concat raw).cons_last ?_) entry
              (List.mem_cons.mpr (mem_insertKey member))
            rw [here, ← current, entered]
          · exact same

theorem scanned_scanLines (all : List Text) : Scanned all (scanLines all) := by
  have start : Scanned [] ⟨none, [], [], []⟩ :=
    ⟨rfl, fun _ member => absurd member List.not_mem_nil, List.nodup_nil,
      fun _ member => absurd member List.not_mem_nil⟩
  exact foldl_zipIdx Scanned start (fun seen raw state scanned => scanned.scanLine raw) all

/-! ### Anchors and groups -/

/-- An anchor lies in its section. -/
theorem Scanned.anchorOf {all : List Text} {state : ScanState} (scanned : Scanned all state)
    {entry : Text × Nat} (member : entry ∈ state.sectionFirstSeen) :
    anchorOf state.lastBodyIdx entry < all.length ∧
      sectionAt all (anchorOf state.lastBodyIdx entry) = some entry.1 := by
  unfold Driver.anchorOf
  cases found : state.lastBodyIdx.lookup entry.1 with
  | none => exact scanned.firstSeen entry member
  | some idx => exact scanned.lastBody _ (mem_of_lookup found)

/-- The new lines of a section. -/
def addsFor (additions : SectionAdditions) (key : Text) : List Text :=
  (additions.forSection key).getD []

theorem addGroup_apply (additions : SectionAdditions) (lastBodyIdx : List (Text × Nat))
    (spliceAt : Nat → List Text) (entry : Text × Nat) (idx : Nat) :
    addGroup additions lastBodyIdx spliceAt entry idx
      = if idx = anchorOf lastBodyIdx entry then spliceAt idx ++ addsFor additions entry.1
        else spliceAt idx := by
  unfold addGroup addsFor
  cases additions.forSection entry.1 with
  | none => simp
  | some adds =>
    by_cases empty : adds = []
    · simp [empty]
    · by_cases here : idx = anchorOf lastBodyIdx entry
      · subst here
        simp [empty]
      · simp [empty, here]

/-- A line that is no anchor gets no group. -/
theorem foldl_addGroup_of_ne {additions : SectionAdditions} {lastBodyIdx entries : List (Text × Nat)}
    {idx : Nat} (other : ∀ entry ∈ entries, idx ≠ anchorOf lastBodyIdx entry)
    (spliceAt : Nat → List Text) :
    entries.foldl (addGroup additions lastBodyIdx) spliceAt idx = spliceAt idx := by
  induction entries generalizing spliceAt with
  | nil => rfl
  | cons entry rest ih =>
    rw [List.foldl_cons, ih fun later member => other later (List.mem_cons_of_mem _ member),
      addGroup_apply, if_neg (other entry List.mem_cons_self)]

/-- **Each anchor gets the group of its section.** -/
theorem foldl_addGroup_anchor {additions : SectionAdditions} {lastBodyIdx entries : List (Text × Nat)}
    (apart : entries.Pairwise fun first second =>
      anchorOf lastBodyIdx first ≠ anchorOf lastBodyIdx second)
    {entry : Text × Nat} (member : entry ∈ entries) (spliceAt : Nat → List Text)
    (empty : ∀ other ∈ entries, spliceAt (anchorOf lastBodyIdx other) = []) :
    entries.foldl (addGroup additions lastBodyIdx) spliceAt (anchorOf lastBodyIdx entry)
      = addsFor additions entry.1 := by
  induction entries generalizing spliceAt with
  | nil => cases member
  | cons first rest ih =>
    obtain ⟨apartFirst, apartRest⟩ := List.pairwise_cons.mp apart
    rw [List.foldl_cons]
    rcases List.mem_cons.mp member with rfl | inRest
    · rw [foldl_addGroup_of_ne (fun later inLater => apartFirst later inLater), addGroup_apply,
        if_pos rfl, empty _ List.mem_cons_self, List.nil_append]
    · -- the first group goes elsewhere
      refine ih apartRest inRest _ fun later inLater => ?_
      rw [addGroup_apply, if_neg (apartFirst later inLater).symm,
        empty later (List.mem_cons_of_mem _ inLater)]

/-- The groups of new lines: each goes whole behind one line of its own section, and nothing else is
put in. -/
structure Inserted (all : List Text) (additions : SectionAdditions) (groups : Nat → List Text) :
    Prop where
  placed : ∀ key adds, additions.forSection key = some adds → adds ≠ [] →
    ∃ anchor, anchor < all.length ∧ sectionAt all anchor = some key ∧ groups anchor = adds
  only : ∀ idx, groups idx ≠ [] → ∃ key adds, additions.forSection key = some adds ∧
    sectionAt all idx = some key ∧ groups idx = adds
  once : ∀ first second, groups first ≠ [] → groups second ≠ [] →
    sectionAt all first = sectionAt all second → first = second

section Insert

variable {all : List Text} {state : ScanState} (scanned : Scanned all state) (order : HashOrder)

include scanned

/-- Different entries of the map of headers have different anchors. -/
theorem Scanned.anchors_apart : (order.visit state.sectionFirstSeen).Pairwise fun first second =>
    Driver.anchorOf state.lastBodyIdx first ≠ Driver.anchorOf state.lastBodyIdx second := by
  have keys : ((order.visit state.sectionFirstSeen).map Prod.fst).Nodup :=
    ((order.perm _).map Prod.fst).nodup_iff.mpr scanned.keys
  rw [List.Nodup, List.pairwise_map] at keys
  refine keys.imp_of_mem fun {first second} inFirst inSecond different same => different ?_
  have one := (scanned.anchorOf ((order.perm _).mem_iff.mp inFirst)).2
  have other := (scanned.anchorOf ((order.perm _).mem_iff.mp inSecond)).2
  rw [same, other] at one
  exact (Option.some.inj one).symm

/-- An anchor gets the group of its section. -/
theorem Scanned.group (additions : SectionAdditions) {entry : Text × Nat}
    (member : entry ∈ state.sectionFirstSeen) :
    (order.visit state.sectionFirstSeen).foldl (addGroup additions state.lastBodyIdx) (fun _ => [])
      (Driver.anchorOf state.lastBodyIdx entry) = addsFor additions entry.1 :=
  foldl_addGroup_anchor (scanned.anchors_apart order) ((order.perm _).mem_iff.mpr member) _ fun _ _ => rfl

omit scanned in
/-- Other lines get none. -/
theorem group_of_ne (additions : SectionAdditions) {idx : Nat}
    (other : ∀ entry ∈ state.sectionFirstSeen, idx ≠ Driver.anchorOf state.lastBodyIdx entry) :
    (order.visit state.sectionFirstSeen).foldl (addGroup additions state.lastBodyIdx) (fun _ => []) idx = [] :=
  foldl_addGroup_of_ne (fun entry member => other entry ((order.perm _).mem_iff.mp member)) _

/-- The order in which the map is visited makes no difference. -/
theorem Scanned.group_order (order' : HashOrder) (additions : SectionAdditions) :
    (order.visit state.sectionFirstSeen).foldl (addGroup additions state.lastBodyIdx) (fun _ => []) =
      (order'.visit state.sectionFirstSeen).foldl (addGroup additions state.lastBodyIdx) (fun _ => []) := by
  funext idx
  by_cases anchored : ∃ entry ∈ state.sectionFirstSeen, idx = Driver.anchorOf state.lastBodyIdx entry
  · obtain ⟨entry, member, rfl⟩ := anchored
    rw [scanned.group order additions member, scanned.group order' additions member]
  · push Not at anchored
    rw [group_of_ne order additions anchored, group_of_ne order' additions anchored]

/-- The groups of the scan are inserted as they should be. -/
theorem Scanned.inserted {additions : SectionAdditions}
    (present : ∀ key adds, additions.forSection key = some adds → adds ≠ [] →
      (state.sectionFirstSeen.lookup key).isSome) :
    Inserted all additions ((order.visit state.sectionFirstSeen).foldl
      (addGroup additions state.lastBodyIdx) fun _ => []) := by
  have anchored : ∀ idx, (order.visit state.sectionFirstSeen).foldl
      (addGroup additions state.lastBodyIdx) (fun _ => []) idx ≠ [] →
      ∃ entry ∈ state.sectionFirstSeen, idx = Driver.anchorOf state.lastBodyIdx entry := by
    intro idx nonempty
    by_contra none
    push Not at none
    exact nonempty (group_of_ne order additions none)
  refine ⟨fun key adds adding nonempty => ?_, fun idx nonempty => ?_,
    fun first second inFirst inSecond same => ?_⟩
  · obtain ⟨idx, found⟩ := Option.isSome_iff_exists.mp (present key adds adding nonempty)
    have member := mem_of_lookup found
    obtain ⟨inside, here⟩ := scanned.anchorOf member
    exact ⟨_, inside, here, (scanned.group order additions member).trans (by rw [addsFor, adding]; rfl)⟩
  · obtain ⟨entry, member, rfl⟩ := anchored idx nonempty
    rw [scanned.group order additions member] at nonempty ⊢
    unfold addsFor at nonempty ⊢
    cases adding : additions.forSection entry.1 with
    | none => simp [adding] at nonempty
    | some adds => exact ⟨entry.1, adds, adding, (scanned.anchorOf member).2, rfl⟩
  · obtain ⟨entry, member, rfl⟩ := anchored first inFirst
    obtain ⟨other, inMap, rfl⟩ := anchored second inSecond
    rw [(scanned.anchorOf member).2, (scanned.anchorOf inMap).2] at same
    have keys := scanned.keys
    obtain rfl : entry = other := List.inj_on_of_nodup_map keys member inMap (Option.some.inj same)
    rfl

end Insert

/-- The sections that get lines are the required ones, in lower case. -/
theorem lower_required {additions : SectionAdditions} {key : Text} {adds : List Text}
    (adding : additions.forSection key = some adds) (nonempty : adds ≠ []) :
    ∃ sec ∈ additions.required, lower sec.toList = key := by
  unfold SectionAdditions.forSection at adding
  unfold SectionAdditions.required
  split at adding
  · rename_i same
    obtain rfl := Option.some.inj adding
    exact ⟨"SCSI.Load", by simp [nonempty], by rw [same]; decide⟩
  · split at adding
    · rename_i same
      obtain rfl := Option.some.inj adding
      exact ⟨"SCSI", by simp [nonempty], by rw [same]; decide⟩
    · split at adding
      · rename_i same
        obtain rfl := Option.some.inj adding
        exact ⟨"HardwareIdsDatabase", by simp [nonempty], by rw [same]; decide⟩
      · split at adding
        · rename_i same
          obtain rfl := Option.some.inj adding
          exact ⟨"SourceDisksFiles", by simp [nonempty], by rw [same]; decide⟩
        · cases adding

/-- The groups that `apply_additions` puts in, by line number. -/
def spliceGroups (order : HashOrder) (all : List Text) (additions : SectionAdditions) :
    Nat → List Text :=
  (order.visit (scanLines all).sectionFirstSeen).foldl (addGroup additions (scanLines all).lastBodyIdx) fun _ => []

section Apply

variable {order : HashOrder} {sif patched : Text} {additions : SectionAdditions}

/-- Every section that gets lines has a header. -/
theorem applyAdditions_present (run : applyAdditions order sif additions = .ok patched) {key : Text}
    {adds : List Text} (adding : additions.forSection key = some adds) (nonempty : adds ≠ []) :
    ((scanLines (splitCrlf sif)).sectionFirstSeen.lookup key).isSome := by
  unfold applyAdditions at run
  dsimp only at run
  split at run
  · simp at run
  · rename_i present
    obtain ⟨sec, inRequired, rfl⟩ := lower_required adding nonempty
    have known := List.find?_eq_none.mp present sec inRequired
    rwa [Bool.not_eq_true, Option.isNone_eq_false_iff] at known

theorem applyAdditions_text (run : applyAdditions order sif additions = .ok patched) :
    patched = joinCrlf (splice (spliceGroups order (splitCrlf sif) additions) 0 (splitCrlf sif)) := by
  unfold applyAdditions at run
  dsimp only at run
  split at run
  · simp at run
  · exact (Except.ok.inj run).symm

/-- **What `apply_additions` does**: every group goes whole behind one line of its own section. -/
theorem applyAdditions_inserted (run : applyAdditions order sif additions = .ok patched) :
    Inserted (splitCrlf sif) additions (spliceGroups order (splitCrlf sif) additions) :=
  (scanned_scanLines _).inserted order fun _ _ adding nonempty => applyAdditions_present run adding nonempty

end Apply

end Bootsmith.Driver
