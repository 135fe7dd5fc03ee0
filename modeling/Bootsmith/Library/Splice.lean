/-
**Groups put into a list.**

`splice groups start items` puts the group `groups index` behind the item at each index, counted from
`start`. The items keep their order, and what is new is in one of the groups (`mem_splice`);
`spliceMarked` tells new from old, and deleting the new gives the items back (`spliceMarked_filter`). A
fold over numbered items has its invariant over the items seen so far (`foldl_zipIdx`).
-/

import Mathlib.Data.List.Basic
import Mathlib.Tactic

namespace Bootsmith.Library

variable {α : Type}

/-- Put a group behind every item. -/
def splice (groups : Nat → List α) (start : Nat) : List α → List α
  | [] => []
  | item :: rest => item :: (groups start ++ splice groups (start + 1) rest)

theorem splice_ne_nil (groups : Nat → List α) (start : Nat) {items : List α} (nonempty : items ≠ []) :
    splice groups start items ≠ [] := by
  obtain ⟨item, rest, rfl⟩ := List.exists_cons_of_ne_nil nonempty
  exact List.cons_ne_nil _ _

/-- **What is in the spliced list** is an old item or a member of a group. -/
theorem mem_splice {groups : Nat → List α} {start : Nat} {items : List α} {item : α}
    (member : item ∈ splice groups start items) : item ∈ items ∨ ∃ index, item ∈ groups index := by
  induction items generalizing start with
  | nil => exact Or.inl member
  | cons head rest ih =>
    rcases List.mem_cons.mp member with rfl | later
    · exact Or.inl List.mem_cons_self
    · rcases List.mem_append.mp later with here | inRest
      · exact Or.inr ⟨start, here⟩
      · exact (ih inRest).imp_left (List.mem_cons_of_mem _)

/-- One group in all is one more occurrence of each of its members. -/
theorem count_splice [BEq α] {groups : Nat → List α} {start anchor : Nat} {items : List α}
    (here : start ≤ anchor) (inside : anchor < start + items.length)
    (only : ∀ index, index ≠ anchor → groups index = []) (item : α) :
    (splice groups start items).count item = items.count item + (groups anchor).count item := by
  have behind : ∀ (rest : List α) (next : Nat), anchor < next → splice groups next rest = rest := by
    intro rest
    induction rest with
    | nil => exact fun _ _ => rfl
    | cons head rest ih =>
      intro next later
      rw [splice, only next (by omega), List.nil_append, ih (next + 1) (by omega)]
  induction items generalizing start with
  | nil => simp at inside; omega
  | cons head rest ih =>
    rw [splice]
    by_cases reached : start = anchor
    · subst reached
      rw [behind rest (start + 1) (by omega)]
      simp only [List.count_cons, List.count_append]
      omega
    · rw [only start reached, List.nil_append]
      have step := ih (show start + 1 ≤ anchor by omega) (by simp at inside; omega)
      simp only [List.count_cons, step]
      omega

/-- The spliced list with a mark on what is new. -/
def spliceMarked (groups : Nat → List α) (start : Nat) : List α → List (α × Bool)
  | [] => []
  | item :: rest =>
    (item, false) :: ((groups start).map (fun new => (new, true)) ++ spliceMarked groups (start + 1) rest)

theorem spliceMarked_map_fst (groups : Nat → List α) (start : Nat) (items : List α) :
    (spliceMarked groups start items).map Prod.fst = splice groups start items := by
  induction items generalizing start with
  | nil => rfl
  | cons head rest ih =>
    rw [spliceMarked, splice, List.map_cons, List.map_append, ih, List.map_map]
    congr 2
    exact List.map_id _

/-- **Deleting what is new** gives the items back. -/
theorem spliceMarked_filter (groups : Nat → List α) (start : Nat) (items : List α) :
    ((spliceMarked groups start items).filter fun item => !item.2).map Prod.fst = items := by
  induction items generalizing start with
  | nil => rfl
  | cons head rest ih =>
    have gone : ((groups start).map fun new => (new, true)).filter (fun item => !item.2) = [] := by
      rw [List.filter_eq_nil_iff]
      intro item member
      obtain ⟨new, -, rfl⟩ := List.mem_map.mp member
      exact Bool.false_ne_true
    rw [spliceMarked, List.filter_cons_of_pos rfl, List.filter_append, gone, List.nil_append, List.map_cons, ih]

/-- **A fold over numbered items** keeps what holds of the items it has seen. -/
theorem foldl_zipIdx {σ : Type} {step : σ → α × Nat → σ} (inv : List α → σ → Prop) {init : σ}
    (start : inv [] init)
    (keeps : ∀ seen item state, inv seen state → inv (seen ++ [item]) (step state (item, seen.length)))
    (items : List α) : inv items (items.zipIdx.foldl step init) := by
  induction items using List.reverseRecOn with
  | nil => exact start
  | append_singleton seen item ih =>
    rw [List.zipIdx_append, List.foldl_append]
    simpa using keeps seen item _ ih

end Bootsmith.Library
