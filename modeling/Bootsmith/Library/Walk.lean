/-
**Walks through directories, up to a depth.**

`expand` reads a directory: its entries by name, each with the directory it is, if it is one. `walk`
collects the paths of all entries and goes down a given number of levels; directories may refer to each
other in any way, cycles included.

* `Reaches` says which directories the walk reads, and the walk succeeds exactly when all of them can be
  read (`walk_isOk_iff`); a failure is that of one of them (`walk_error`);
* `Yields` says which paths the walk collects (`mem_walk`), and it depends on the directories that are
  reached only (`lists_congr`).
-/

import Bootsmith.Library.Fallible
import Bootsmith.Library.Text

namespace Bootsmith.Library

/-- The path of a name below another path; an empty path is left out. -/
def joinPath (pre name : Text) : Text := if pre = [] then name else pre ++ '/' :: name

section Walk

variable {Node : Type}

/-- Visit the listed entries: each one is collected, and one that is a directory is walked. -/
def visitEntries (visit : Node → Text → Finset Text → Fallible (Finset Text)) (pre : Text) :
    List (Text × Option Node) → Finset Text → Fallible (Finset Text)
  | [], out => pure out
  | (name, none) :: rest, out => visitEntries visit pre rest (insert (joinPath pre name) out)
  | (name, some child) :: rest, out => do
    let out ← visit child (joinPath pre name) (insert (joinPath pre name) out)
    visitEntries visit pre rest out

/-- The walk over `levels` levels of directories. -/
def walk (expand : Node → Fallible (List (Text × Option Node))) :
    Nat → Node → Text → Finset Text → Fallible (Finset Text)
  | 0, _, _, out => pure out
  | levels + 1, node, pre, out => do
    let entries ← expand node
    visitEntries (walk expand levels) pre entries out

/-- The walk from `node` over `levels` levels reads the directory `target`. -/
def Reaches (expand : Node → Fallible (List (Text × Option Node))) : Nat → Node → Node → Prop
  | 0, _, _ => False
  | levels + 1, node, target => target = node ∨ ∃ entries, expand node = .ok entries ∧
      ∃ entry ∈ entries, ∃ child, entry.2 = some child ∧ Reaches expand levels child target

/-- The walk from `node` over `levels` levels collects the path. -/
def Yields (expand : Node → Fallible (List (Text × Option Node))) : Nat → Node → Text → Text → Prop
  | 0, _, _, _ => False
  | levels + 1, node, pre, path => ∃ entries, expand node = .ok entries ∧
      ∃ entry ∈ entries, path = joinPath pre entry.1 ∨
        ∃ child, entry.2 = some child ∧ Yields expand levels child (joinPath pre entry.1) path

/-! ### One directory -/

section Visit

variable {visit : Node → Text → Finset Text → Fallible (Finset Text)} {pre : Text}
  {entries : List (Text × Option Node)} {out result : Finset Text}

theorem visitEntries_append (others after : List (Text × Option Node)) :
    visitEntries visit pre (others ++ after) out
      = visitEntries visit pre others out >>= visitEntries visit pre after := by
  induction others generalizing out with
  | nil => rfl
  | cons entry rest ih =>
    obtain ⟨name, child⟩ := entry
    cases child with
    | none => exact ih
    | some child =>
      rw [List.cons_append, visitEntries, visitEntries, bind_assoc]
      exact bind_congr fun _ => ih

/-- What the visits of the entries collect. -/
theorem mem_visitEntries {Listed : Node → Text → Text → Prop}
    (collects : ∀ node pre out result, visit node pre out = .ok result →
      ∀ path, path ∈ result ↔ path ∈ out ∨ Listed node pre path)
    (visited : visitEntries visit pre entries out = .ok result) (path : Text) :
    path ∈ result ↔ path ∈ out ∨ ∃ entry ∈ entries, path = joinPath pre entry.1 ∨
      ∃ child, entry.2 = some child ∧ Listed child (joinPath pre entry.1) path := by
  induction entries generalizing out with
  | nil =>
    obtain rfl := (Fallible.pure_eq_ok _ _).mp visited
    simp
  | cons entry rest ih =>
    obtain ⟨name, child⟩ := entry
    cases child with
    | none =>
      rw [ih visited]
      simp [or_assoc, or_left_comm]
    | some child =>
      obtain ⟨between, below, visited⟩ := (Fallible.bind_eq_ok _ _ _).mp visited
      rw [ih visited, collects _ _ _ _ below]
      simp [or_assoc, or_left_comm]

theorem visitEntries_isOk (below : ∀ entry ∈ entries, ∀ child, entry.2 = some child →
    ∀ pre out, ∃ result, visit child pre out = .ok result) :
    ∃ result, visitEntries visit pre entries out = .ok result := by
  induction entries generalizing out with
  | nil => exact ⟨out, rfl⟩
  | cons entry rest ih =>
    have belowRest := fun other member => below other (List.mem_cons_of_mem _ member)
    obtain ⟨name, child⟩ := entry
    cases child with
    | none => exact ih belowRest
    | some child =>
      obtain ⟨between, visited⟩ := below _ List.mem_cons_self child rfl (joinPath pre name)
        (insert (joinPath pre name) out)
      obtain ⟨result, visitedRest⟩ := @ih between belowRest
      exact ⟨result, (Fallible.bind_eq_ok _ _ _).mpr ⟨between, visited, visitedRest⟩⟩

/-- When the visits of all entries succeed, so does each of them. -/
theorem visit_of_visitEntries (visited : visitEntries visit pre entries out = .ok result)
    {entry : Text × Option Node} (member : entry ∈ entries) {child : Node} (isDirectory : entry.2 = some child) :
    ∃ pre out result, visit child pre out = .ok result := by
  induction entries generalizing out with
  | nil => cases member
  | cons other rest ih =>
    obtain ⟨name, below⟩ := other
    cases below with
    | none =>
      rcases List.mem_cons.mp member with rfl | inRest
      · cases isDirectory
      · exact ih visited inRest
    | some below =>
      obtain ⟨between, first, visited⟩ := (Fallible.bind_eq_ok _ _ _).mp visited
      rcases List.mem_cons.mp member with rfl | inRest
      · obtain rfl := Option.some.inj isDirectory
        exact ⟨_, _, between, first⟩
      · exact ih visited inRest

/-- A failure is that of one of the visits. -/
theorem visitEntries_error {failure : Failure}
    (failed : visitEntries visit pre entries out = .error failure) :
    ∃ entry ∈ entries, ∃ child, entry.2 = some child ∧
      ∃ pre out, visit child pre out = .error failure := by
  induction entries generalizing out with
  | nil => cases failed
  | cons entry rest ih =>
    obtain ⟨name, child⟩ := entry
    cases child with
    | none =>
      obtain ⟨other, member, found⟩ := ih failed
      exact ⟨other, List.mem_cons_of_mem _ member, found⟩
    | some child =>
      cases below : visit child (joinPath pre name) (insert (joinPath pre name) out) with
      | error failure' =>
        have same : visitEntries visit pre ((name, some child) :: rest) out = .error failure' := by
          rw [visitEntries, below]
          rfl
        rw [same] at failed
        obtain rfl := Except.error.inj failed
        exact ⟨_, List.mem_cons_self, child, rfl, _, _, below⟩
      | ok between =>
        have same : visitEntries visit pre ((name, some child) :: rest) out
            = visitEntries visit pre rest between := by
          rw [visitEntries, below]
          rfl
        rw [same] at failed
        obtain ⟨other, member, found⟩ := ih failed
        exact ⟨other, List.mem_cons_of_mem _ member, found⟩

end Visit

/-! ### The whole walk -/

variable {expand expand' : Node → Fallible (List (Text × Option Node))} {levels : Nat} {node : Node}
  {pre : Text} {out result : Finset Text}

/-- **The paths a walk collects** are those it lists. -/
theorem mem_walk (walked : walk expand levels node pre out = .ok result) (path : Text) :
    path ∈ result ↔ path ∈ out ∨ Yields expand levels node pre path := by
  induction levels generalizing node pre out result path with
  | zero =>
    obtain rfl := (Fallible.pure_eq_ok _ _).mp walked
    simp [Yields]
  | succ levels ih =>
    obtain ⟨entries, read, visited⟩ := (Fallible.bind_eq_ok _ _ _).mp walked
    have below : ∀ child pre out result, walk expand levels child pre out = .ok result →
        ∀ path, path ∈ result ↔ path ∈ out ∨ Yields expand levels child pre path :=
      fun _ _ _ _ walked path => ih walked path
    rw [mem_visitEntries below visited, Yields, read]
    simp

/-- **A walk succeeds** exactly when every directory it reaches can be read. -/
theorem walk_isOk_iff : (∃ result, walk expand levels node pre out = .ok result) ↔
    ∀ target, Reaches expand levels node target → ∃ entries, expand target = .ok entries := by
  induction levels generalizing node pre out with
  | zero => exact ⟨fun _ _ reached => reached.elim, fun _ => ⟨out, rfl⟩⟩
  | succ levels ih =>
    constructor
    · rintro ⟨result, walked⟩ target reached
      obtain ⟨entries, read, visited⟩ := (Fallible.bind_eq_ok _ _ _).mp walked
      rcases reached with rfl | ⟨entries', read', entry, member, child, isDirectory, reached⟩
      · exact ⟨entries, read⟩
      · obtain rfl : entries = entries' := Except.ok.inj (read.symm.trans read')
        obtain ⟨_, _, below⟩ := visit_of_visitEntries visited member isDirectory
        exact ih.mp below target reached
    · intro readable
      obtain ⟨entries, read⟩ := readable node (Or.inl rfl)
      obtain ⟨result, visited⟩ : ∃ result, visitEntries (walk expand levels) pre entries out = .ok result :=
        visitEntries_isOk fun entry member child isDirectory pre out => ih.mpr fun target reached =>
          readable target (Or.inr ⟨entries, read, entry, member, child, isDirectory, reached⟩)
      exact ⟨result, (Fallible.bind_eq_ok _ _ _).mpr ⟨entries, read, visited⟩⟩

/-- **A failure of a walk** is that of a directory it reaches. -/
theorem walk_error {failure : Failure} (failed : walk expand levels node pre out = .error failure) :
    ∃ target, Reaches expand levels node target ∧ expand target = .error failure := by
  induction levels generalizing node pre out with
  | zero => cases failed
  | succ levels ih =>
    cases read : expand node with
    | error failure' =>
      have same : walk expand (levels + 1) node pre out = .error failure' := by
        rw [walk, read]
        rfl
      rw [same] at failed
      obtain rfl := Except.error.inj failed
      exact ⟨node, Or.inl rfl, read⟩
    | ok entries =>
      have same : walk expand (levels + 1) node pre out
          = visitEntries (walk expand levels) pre entries out := by
        rw [walk, read]
        rfl
      rw [same] at failed
      obtain ⟨entry, member, child, isDirectory, _, _, below⟩ := visitEntries_error failed
      obtain ⟨target, reached, found⟩ := ih below
      exact ⟨target, Or.inr ⟨entries, read, entry, member, child, isDirectory, reached⟩, found⟩

/-- **The paths depend on the directories that are reached.** -/
theorem lists_congr (same : ∀ target, Reaches expand levels node target → expand' target = expand target)
    (path : Text) : Yields expand' levels node pre path ↔ Yields expand levels node pre path := by
  induction levels generalizing node pre with
  | zero => rfl
  | succ levels ih =>
    rw [Yields, Yields, same node (Or.inl rfl)]
    refine exists_congr fun entries => and_congr_right fun read => exists_congr fun entry =>
      and_congr_right fun member => or_congr Iff.rfl (exists_congr fun child =>
        and_congr_right fun isDirectory => ih fun target reached => same target ?_)
    exact Or.inr ⟨entries, read, entry, member, child, isDirectory, reached⟩

/-- A property that every directory hands down to its entries holds of all that is reached. -/
theorem Reaches.invariant (Invariant : Node → Prop)
    (step : ∀ node entries, Invariant node → expand node = .ok entries →
      ∀ entry ∈ entries, ∀ child, entry.2 = some child → Invariant child)
    (start : Invariant node) {target : Node} (reached : Reaches expand levels node target) :
    Invariant target := by
  induction levels generalizing node with
  | zero => exact reached.elim
  | succ levels ih =>
    rcases reached with rfl | ⟨entries, read, entry, member, child, isDirectory, reached⟩
    · exact start
    · exact ih (step node entries start read entry member child isDirectory) reached

end Walk

end Bootsmith.Library
