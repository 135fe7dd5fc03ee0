/-
**Stable sorting by a key.**

`sortBy key` orders a list by a key and keeps equal keys in their old order. Insertion sort is the
stable sort Mathlib has; every stable sort gives the same list.

* `find?_sortBy`: a search for one key finds the same item before and after;
* `sortBy_concat`: a new key at the end of the list is one insertion into the sorted list;
* `insertBy_comm`: insertions of different keys commute, so their order does not matter.
-/

import Mathlib.Data.List.Sort
import Mathlib.Tactic

namespace Bootsmith.Library

variable {α κ : Type} [LE κ] [DecidableLE κ]

/-- The order by key, as a relation on items. -/
def KeyLe (key : α → κ) (first second : α) : Prop := key first ≤ key second

instance (key : α → κ) : DecidableRel (KeyLe key) := fun first second =>
  inferInstanceAs (Decidable (key first ≤ key second))

/-- Put an item in front of the first one whose key is not smaller. -/
def insertBy (key : α → κ) (item : α) (items : List α) : List α :=
  items.orderedInsert (KeyLe key) item

/-- Sort by key, equal keys in their old order. -/
def sortBy (key : α → κ) (items : List α) : List α := items.insertionSort (KeyLe key)

theorem insertBy_nil (key : α → κ) (item : α) : insertBy key item [] = [item] := rfl

theorem insertBy_cons_of_le {key : α → κ} {item head : α} (le : key item ≤ key head)
    (rest : List α) : insertBy key item (head :: rest) = item :: head :: rest :=
  if_pos le

theorem insertBy_cons_of_not_le {key : α → κ} {item head : α} (le : ¬ key item ≤ key head)
    (rest : List α) : insertBy key item (head :: rest) = head :: insertBy key item rest :=
  if_neg le

theorem sortBy_cons (key : α → κ) (item : α) (items : List α) :
    sortBy key (item :: items) = insertBy key item (sortBy key items) := rfl

theorem sortBy_perm (key : α → κ) (items : List α) : (sortBy key items).Perm items :=
  List.perm_insertionSort _ _

/-- Items that satisfy `found` have keys that are not larger than each other's, so insertion never
moves one behind another. -/
theorem find?_insertBy (key : α → κ) (found : α → Bool)
    (alike : ∀ first second, found first → found second → key first ≤ key second)
    (item : α) (items : List α) :
    (insertBy key item items).find? found = (item :: items).find? found := by
  induction items with
  | nil => rfl
  | cons head rest ih =>
    by_cases le : key item ≤ key head
    · rw [insertBy_cons_of_le le]
    · rw [insertBy_cons_of_not_le le, List.find?_cons, ih, List.find?_cons, List.find?_cons,
        List.find?_cons]
      cases foundHead : found head with
      | false => rfl
      | true =>
        cases foundItem : found item with
        | false => rfl
        | true => exact absurd (alike item head foundItem foundHead) le

/-- **A search for one key finds the same item in the sorted list.** -/
theorem find?_sortBy (key : α → κ) (found : α → Bool)
    (alike : ∀ first second, found first → found second → key first ≤ key second)
    (items : List α) : (sortBy key items).find? found = items.find? found := by
  induction items with
  | nil => rfl
  | cons item rest ih =>
    rw [sortBy_cons, find?_insertBy key found alike, List.find?_cons, List.find?_cons, ih]

/-- The key order of a mapped list is the key order of the list. -/
theorem map_sortBy {β : Type} (key : α → κ) (key' : β → κ) (change : α → β) (items : List α)
    (same : ∀ item ∈ items, key' (change item) = key item) :
    (sortBy key items).map change = sortBy key' (items.map change) := by
  refine List.map_insertionSort _ _ _ _ fun first inFirst second inSecond => ?_
  show key first ≤ key second ↔ key' (change first) ≤ key' (change second)
  rw [same first inFirst, same second inSecond]

/-- A sorted list is its own sort. -/
theorem sortBy_of_pairwise {key : α → κ} {items : List α} (sorted : items.Pairwise (KeyLe key)) :
    sortBy key items = items :=
  List.Pairwise.insertionSort_eq sorted

section Linear

variable [Std.IsLinearOrder κ]

instance (key : α → κ) : Std.Total (KeyLe key) :=
  ⟨fun first second => Std.Total.total (r := (· ≤ ·)) (key first) (key second)⟩

instance (key : α → κ) : IsTrans α (KeyLe key) := ⟨fun _ _ _ => Std.IsPreorder.le_trans _ _ _⟩

theorem sortBy_pairwise (key : α → κ) (items : List α) :
    (sortBy key items).Pairwise (KeyLe key) :=
  List.pairwise_insertionSort _ _

/-- **Insertions of different keys commute.** -/
theorem insertBy_comm (key : α → κ) {first second : α} (different : key first ≠ key second)
    (items : List α) :
    insertBy key first (insertBy key second items)
      = insertBy key second (insertBy key first items) := by
  wlog le : key first ≤ key second generalizing first second with swap
  · have other : key second ≤ key first :=
      (Std.Total.total (r := (· ≤ ·)) (key first) (key second)).resolve_left le
    exact (swap different.symm other).symm
  have notLe : ¬ key second ≤ key first := fun ge => different (Std.le_antisymm le ge)
  induction items with
  | nil =>
    rw [insertBy_nil, insertBy_nil, insertBy_cons_of_le le, insertBy_cons_of_not_le notLe,
      insertBy_nil]
  | cons head rest ih =>
    by_cases secondLe : key second ≤ key head
    · have firstLe : key first ≤ key head := Std.IsPreorder.le_trans _ _ _ le secondLe
      rw [insertBy_cons_of_le secondLe, insertBy_cons_of_le firstLe, insertBy_cons_of_le le,
        insertBy_cons_of_not_le notLe, insertBy_cons_of_le secondLe]
    · by_cases firstLe : key first ≤ key head
      · rw [insertBy_cons_of_not_le secondLe, insertBy_cons_of_le firstLe,
          insertBy_cons_of_le firstLe, insertBy_cons_of_not_le notLe,
          insertBy_cons_of_not_le secondLe]
      · rw [insertBy_cons_of_not_le secondLe, insertBy_cons_of_not_le firstLe,
          insertBy_cons_of_not_le firstLe, insertBy_cons_of_not_le secondLe, ih]

/-- **A new key at the end is one insertion into the sorted list.** -/
theorem sortBy_concat (key : α → κ) (items : List α) (item : α)
    (fresh : ∀ other ∈ items, key other ≠ key item) :
    sortBy key (items ++ [item]) = insertBy key item (sortBy key items) := by
  induction items with
  | nil => rfl
  | cons head rest ih =>
    rw [List.cons_append, sortBy_cons, ih fun other inside =>
      fresh other (List.mem_cons_of_mem _ inside), sortBy_cons,
      insertBy_comm key (fresh head List.mem_cons_self)]

end Linear

end Bootsmith.Library
