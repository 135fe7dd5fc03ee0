/-
**Lists read by key.**

A list of entries may hold a key several times. `firsts` keeps the first entry of each key, in the order
of the list; `lastOf` is the value of the last entry of a key.

* `find?_firsts`: a search for a key finds the same entry before and after;
* `foldl_firsts`: a loop that adds the entries whose key is new builds `firsts`;
* `firsts_filter`: leaving out keys and keeping the first entries commute;
* `lastOf_append`: in a longer list the later part counts.
-/

import Mathlib.Data.List.Basic
import Mathlib.Tactic

namespace Bootsmith.Library

/-! ### The first entry of a key -/

section Firsts

variable {α κ : Type} [BEq κ] (key : α → κ)

/-- The entries whose key is not in front of them. -/
def firsts : List α → List α
  | [] => []
  | entry :: rest => entry :: (firsts rest).filter fun other => !(key other == key entry)

theorem firsts_sublist (entries : List α) : (firsts key entries).Sublist entries := by
  induction entries with
  | nil => exact .slnil
  | cons entry rest ih => exact (List.filter_sublist.trans ih).cons_cons entry

/-- **A loop that adds what is new**: when one step takes the first entries seen so far to those seen
after it, the loop ends with the first entries of everything. -/
theorem foldl_firsts {σ : Type} {add : σ → α → σ} (view : List α → σ)
    (step : ∀ seen entry, add (view (firsts key seen)) entry = view (firsts key (seen ++ [entry])))
    (seen entries : List α) :
    entries.foldl add (view (firsts key seen)) = view (firsts key (seen ++ entries)) := by
  induction entries generalizing seen with
  | nil => rw [List.foldl_nil, List.append_nil]
  | cons entry rest ih => rw [List.foldl_cons, step, ih, List.append_assoc, List.singleton_append]

variable [LawfulBEq κ]

theorem firsts_distinct (entries : List α) :
    (firsts key entries).Pairwise fun first second => key first ≠ key second := by
  induction entries with
  | nil => exact .nil
  | cons entry rest ih =>
    refine .cons (fun other member => ?_) (ih.sublist List.filter_sublist)
    have apart := (List.mem_filter.mp member).2
    rw [Bool.not_eq_true', beq_eq_false_iff_ne] at apart
    exact apart.symm

/-- **The first entry of a key is kept.** -/
theorem find?_firsts (entries : List α) (wanted : κ) :
    (firsts key entries).find? (fun entry => key entry == wanted)
      = entries.find? fun entry => key entry == wanted := by
  induction entries with
  | nil => rfl
  | cons entry rest ih =>
    rw [firsts, List.find?_cons, List.find?_cons]
    cases here : key entry == wanted with
    | true => rfl
    | false =>
      -- an entry with the wanted key is not left out with this one
      rw [← ih, List.find?_filter]
      refine List.find?_congr fun other _ => ?_
      cases found : key other == wanted with
      | false => exact decide_eq_false fun both => Bool.false_ne_true both.2
      | true =>
        refine decide_eq_true ⟨?_, rfl⟩
        rw [eq_of_beq found, Bool.not_eq_true', beq_eq_false_iff_ne]
        exact fun same => ne_of_beq_false here same.symm

theorem mem_firsts_iff {entries : List α} {entry : α} :
    entry ∈ firsts key entries ↔ entries.find? (fun other => key other == key entry) = some entry := by
  rw [← find?_firsts]
  refine ⟨fun member => ?_, List.mem_of_find?_eq_some⟩
  obtain ⟨before, after, split⟩ := List.append_of_mem member
  have distinct := firsts_distinct key entries
  rw [split] at distinct ⊢
  rw [List.find?_append, List.find?_eq_none.mpr, Option.none_or, List.find?_cons, BEq.rfl]
  intro other inBefore same
  exact (List.pairwise_append.mp distinct).2.2 other inBefore entry List.mem_cons_self (eq_of_beq same)

/-- Every key has its first entry. -/
theorem exists_mem_firsts {entries : List α} {entry : α} (member : entry ∈ entries) :
    ∃ first ∈ firsts key entries, key first = key entry := by
  cases found : entries.find? fun other => key other == key entry with
  | none => exact absurd BEq.rfl (List.find?_eq_none.mp found entry member)
  | some first =>
    have same : key first = key entry := eq_of_beq (List.find?_some (p := fun other => key other == key entry) found)
    exact ⟨first, (mem_firsts_iff key).mpr (by rw [same]; exact found), same⟩

/-- **Leaving out keys** leaves out their first entries. -/
theorem firsts_filter (keep : κ → Bool) (entries : List α) :
    firsts key (entries.filter fun entry => keep (key entry))
      = (firsts key entries).filter fun entry => keep (key entry) := by
  induction entries with
  | nil => rfl
  | cons entry rest ih =>
    rw [firsts, List.filter_cons, List.filter_cons, List.filter_filter]
    split
    · rw [firsts, ih, List.filter_filter]
      congr 2
      funext other
      exact Bool.and_comm _ _
    · rename_i dropped
      rw [ih]
      refine List.filter_congr fun other _ => ?_
      -- the entries of a key that is left out need no second look
      cases same : key other == key entry with
      | false => rw [Bool.not_false, Bool.and_true]
      | true => rw [eq_of_beq same, Bool.not_true, Bool.and_false, Bool.eq_false_iff.mpr dropped]

/-- An entry behind the others is kept when its key is new. -/
theorem firsts_concat (entries : List α) (entry : α) :
    firsts key (entries ++ [entry])
      = if (firsts key entries).any fun known => key known == key entry then firsts key entries
        else firsts key entries ++ [entry] := by
  induction entries with
  | nil => rfl
  | cons head rest ih =>
    rw [List.cons_append, firsts, firsts, ih, List.any_cons, List.any_filter]
    cases same : key head == key entry with
    | true =>
      rw [Bool.true_or, if_pos rfl]
      split
      · rfl
      · rw [List.filter_append, List.filter_singleton, eq_of_beq same, BEq.rfl, Bool.not_true,
          cond_false, List.append_nil]
    | false =>
      have others : ((firsts key rest).any fun known => !(key known == key head) && key known == key entry)
          = (firsts key rest).any fun known => key known == key entry := by
        congr 1
        funext known
        cases found : key known == key entry with
        | false => rw [Bool.and_false]
        | true =>
          rw [eq_of_beq found, Bool.and_true, Bool.not_eq_true', beq_eq_false_iff_ne]
          exact fun equal => ne_of_beq_false same equal.symm
      rw [Bool.false_or, others]
      split
      · rfl
      · rw [List.filter_append, List.filter_singleton, beq_eq_false_iff_ne.mpr
          (fun equal => ne_of_beq_false same equal.symm), Bool.not_false, cond_true, List.cons_append]

end Firsts

/-! ### The last entry of a key -/

section LastOf

variable {κ β : Type} [BEq κ]

/-- The value of the last entry of a key. -/
def lastOf (entries : List (κ × β)) (wanted : κ) : Option β :=
  ((entries.filter fun entry => entry.1 == wanted).getLast?).map Prod.snd

theorem lastOf_append (before after : List (κ × β)) (wanted : κ) :
    lastOf (before ++ after) wanted = (lastOf after wanted).or (lastOf before wanted) := by
  rw [lastOf, List.filter_append, List.getLast?_append, Option.map_or]
  rfl

theorem lastOf_cons (entry : κ × β) (rest : List (κ × β)) (wanted : κ) :
    lastOf (entry :: rest) wanted
      = (lastOf rest wanted).or (if entry.1 == wanted then some entry.2 else none) := by
  have split := lastOf_append [entry] rest wanted
  rw [List.singleton_append] at split
  rw [split, lastOf, lastOf, List.filter_singleton]
  cases entry.1 == wanted <;> rfl

/-- The last value of a key is the value of an entry. -/
theorem exists_of_lastOf [LawfulBEq κ] {entries : List (κ × β)} {wanted : κ} {value : β}
    (found : lastOf entries wanted = some value) : (wanted, value) ∈ entries := by
  obtain ⟨entry, last, rfl⟩ := Option.map_eq_some_iff.mp found
  obtain ⟨member, same⟩ := List.mem_filter.mp (List.mem_of_getLast? last)
  rw [← eq_of_beq same]
  exact member

end LastOf

end Bootsmith.Library
