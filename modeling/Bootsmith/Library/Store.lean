/-
**Stores of files and folders.**

What a volume holds at each key. The volume decides which paths have one key: one that ignores case gives all
spellings of a name the same.

* `putAll_eq_some`: entries with different keys are what the store holds;
* `put_append`, `append_append`: a file that is written in parts.
-/

import Bootsmith.Library.Fallible
import Bootsmith.Library.Image

namespace Bootsmith.Library

inductive Node
  | folder
  | file (bytes : Bytes)
  deriving DecidableEq

/-- More bytes at the end of a file. -/
def Node.append (bytes : Bytes) : Node → Node
  | folder => folder
  | file before => file (before ++ bytes)

/-- What a call on the bytes of a file leaves. -/
def Node.edit (call : Effect Image Unit) : Node → Node
  | folder => folder
  | file before => file (Effect.left (call.run (Image.ofBytes before))).bytes

abbrev Store (κ : Type) := κ → Option Node

namespace Store

variable {κ : Type} [DecidableEq κ]

def empty : Store κ := fun _ => none

def put (store : Store κ) (key : κ) (node : Node) : Store κ := Function.update store key (some node)

def append (store : Store κ) (key : κ) (bytes : Bytes) : Store κ :=
  Function.update store key ((store key).map (Node.append bytes))

def edit (store : Store κ) (key : κ) (call : Effect Image Unit) : Store κ :=
  Function.update store key ((store key).map (Node.edit call))

/-- One entry after the other. -/
def putAll (store : Store κ) (entries : List (κ × Node)) : Store κ :=
  entries.foldl (fun store entry => store.put entry.1 entry.2) store

section Store

variable {store : Store κ} {key other : κ} {node : Node}

theorem put_self (store : Store κ) (key : κ) (node : Node) : store.put key node key = some node :=
  Function.update_self ..

theorem put_of_ne (apart : other ≠ key) : store.put key node other = store other := Function.update_of_ne apart ..

theorem append_nil : store.append key [] = store := by
  have same : Node.append [] = id := by
    funext node
    cases node with
    | folder => rfl
    | file bytes => exact congrArg Node.file (List.append_nil bytes)
  rw [append, same, Option.map_id, id, Function.update_eq_self]

theorem append_append (first second : Bytes) :
    (store.append key first).append key second = store.append key (first ++ second) := by
  have same : Node.append second ∘ Node.append first = Node.append (first ++ second) := by
    funext node
    cases node with
    | folder => rfl
    | file bytes => exact congrArg Node.file (List.append_assoc bytes first second)
  rw [append, append, Function.update_self, Option.map_map, same, Function.update_idem, append]

theorem put_append (first second : Bytes) :
    (store.put key (.file first)).append key second = store.put key (.file (first ++ second)) := by
  rw [append, put_self, put, Function.update_idem]
  rfl

theorem put_put (first second : Node) : (store.put key first).put key second = store.put key second :=
  Function.update_idem ..

theorem put_comm (apart : other ≠ key) (first second : Node) :
    (store.put key first).put other second = (store.put other second).put key first :=
  Function.update_comm apart.symm ..

/-- **What entries with different keys leave.** -/
theorem putAll_eq_some {entries : List (κ × Node)} (distinct : (entries.map Prod.fst).Nodup) :
    store.putAll entries key = some node ↔
      (key, node) ∈ entries ∨ key ∉ entries.map Prod.fst ∧ store key = some node := by
  induction entries generalizing store with
  | nil => simp [putAll]
  | cons entry entries ih =>
    obtain ⟨first, bytes⟩ := entry
    obtain ⟨fresh, distinct⟩ := List.nodup_cons.mp distinct
    have step : store.putAll ((first, bytes) :: entries) = (store.put first bytes).putAll entries := rfl
    rw [step, ih distinct]
    by_cases same : key = first
    · subst same
      have absent : (key, node) ∉ entries := fun member =>
        fresh (List.mem_map.mpr ⟨_, member, rfl⟩)
      simp only [put_self, List.map_cons, List.mem_cons, absent, fresh, Prod.mk.injEq, Option.some.injEq]
      tauto
    · simp only [put_of_ne same, List.map_cons, List.mem_cons, Prod.mk.injEq, same]
      tauto

/-- In an empty store. -/
theorem putAll_empty {entries : List (κ × Node)} (distinct : (entries.map Prod.fst).Nodup) :
    empty.putAll entries key = some node ↔ (key, node) ∈ entries := by
  rw [putAll_eq_some distinct]
  simp [empty]

end Store

end Store

end Bootsmith.Library
