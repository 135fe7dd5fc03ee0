/-
**Chains in a table of links.**

A table gives each node a value: the next node of its chain, an end mark, or the mark of a free node.
`Follows table Ends pointer chain` says that from `pointer` on the table leads through `chain` to an end
mark. Linking a list of nodes makes it a chain (`follows_linksOf`), clearing a list of nodes frees
them, and both leave the other chains alone (`Follows.congr`).

Following a table from any pointer leads through distinct places until it leaves the places or comes back
(`exists_lasso`), so these places are the ones that are reached (`leadsTo_iff_mem`).

`freeNodes` counts what is left: linking free nodes takes them out of it, clearing the nodes of a chain
puts them back.
-/

import Mathlib.Data.Finset.Card
import Mathlib.Data.List.Iterate
import Mathlib.Data.List.Nodup
import Mathlib.Tactic

namespace Bootsmith.Library

section Follows

variable {α : Type} {table table' : α → α} {Ends : α → Prop} {pointer : α} {chain : List α}

/-- From `pointer` on the table leads through the nodes of `chain` to an end mark. -/
def Follows (table : α → α) (Ends : α → Prop) : α → List α → Prop
  | pointer, [] => Ends pointer
  | pointer, node :: rest => pointer = node ∧ Follows table Ends (table node) rest

/-- **A chain depends only on the links of its own nodes.** -/
theorem Follows.congr (follows : Follows table Ends pointer chain)
    (same : ∀ node ∈ chain, table' node = table node) : Follows table' Ends pointer chain := by
  induction chain generalizing pointer with
  | nil => exact follows
  | cons node rest ih =>
    obtain ⟨rfl, follows⟩ := follows
    refine ⟨rfl, ?_⟩
    rw [same _ List.mem_cons_self]
    exact ih follows fun other member => same other (List.mem_cons_of_mem _ member)

theorem Follows.mono {Ends' : α → Prop} (follows : Follows table Ends pointer chain)
    (weaker : ∀ last, Ends last → Ends' last) : Follows table Ends' pointer chain := by
  induction chain generalizing pointer with
  | nil => exact weaker pointer follows
  | cons node rest ih => exact ⟨follows.1, ih follows.2⟩

/-- No node of a chain has the mark of a free node. -/
theorem Follows.ne_free {free : α} (follows : Follows table Ends pointer chain) (notEnd : ¬ Ends free)
    (notNode : free ∉ chain) : ∀ node ∈ chain, table node ≠ free := by
  induction chain generalizing pointer with
  | nil => exact fun node member => absurd member List.not_mem_nil
  | cons node rest ih =>
    obtain ⟨rfl, follows⟩ := follows
    have notRest := List.not_mem_of_not_mem_cons notNode
    intro other member
    rcases List.mem_cons.mp member with rfl | inRest
    · cases rest with
      | nil => exact fun isFree => notEnd (isFree ▸ follows)
      | cons next rest =>
        intro isFree
        apply notRest
        rw [← isFree, follows.1]
        exact List.mem_cons_self
    · exact ih follows notRest other inRest

/-- From one pointer there is one chain, when no node of it is an end mark. -/
theorem Follows.unique {other : List α} (follows : Follows table Ends pointer chain)
    (inner : ∀ node ∈ chain, ¬ Ends node) (second : Follows table Ends pointer other)
    (secondInner : ∀ node ∈ other, ¬ Ends node) : chain = other := by
  induction chain generalizing pointer other with
  | nil =>
    cases other with
    | nil => rfl
    | cons node rest => exact absurd (second.1 ▸ follows) (secondInner node List.mem_cons_self)
  | cons node rest ih =>
    obtain ⟨rfl, follows⟩ := follows
    cases other with
    | nil => exact absurd second (inner pointer List.mem_cons_self)
    | cons node' rest' =>
      obtain ⟨rfl, second⟩ := second
      rw [ih follows (fun node member => inner node (List.mem_cons_of_mem _ member)) second
        fun node member => secondInner node (List.mem_cons_of_mem _ member)]

/-- A chain leads on from each of its nodes. -/
theorem Follows.of_mem {node : α} (follows : Follows table Ends pointer chain) (member : node ∈ chain) :
    ∃ before after, chain = before ++ node :: after ∧ Follows table Ends node (node :: after) := by
  induction chain generalizing pointer with
  | nil => cases member
  | cons first rest ih =>
    obtain ⟨rfl, follows⟩ := follows
    rcases List.mem_cons.mp member with rfl | inRest
    · exact ⟨[], rest, rfl, rfl, follows⟩
    · obtain ⟨before, after, rfl, later⟩ := ih follows inRest
      exact ⟨pointer :: before, after, rfl, later⟩

/-- **A chain that comes to its end** has no node twice. -/
theorem Follows.nodup (follows : Follows table Ends pointer chain)
    (inner : ∀ node ∈ chain, ¬ Ends node) :
    chain.Nodup := by
  induction chain generalizing pointer with
  | nil => exact List.nodup_nil
  | cons node rest ih =>
    obtain ⟨rfl, link⟩ := follows
    have restInner : ∀ node ∈ rest, ¬ Ends node := fun node member => inner node (List.mem_cons_of_mem _ member)
    refine List.nodup_cons.mpr ⟨fun again => ?_, ih link restInner⟩
    -- the chain from the second place on would be the whole chain
    obtain ⟨before, after, rfl, later⟩ := link.of_mem again
    have laterInner : ∀ node ∈ pointer :: after, ¬ Ends node := fun node member =>
      restInner node (List.mem_append_right _ member)
    have whole : Follows table Ends pointer (pointer :: (before ++ pointer :: after)) := ⟨rfl, link⟩
    have same := whole.unique inner later laterInner
    have length := congrArg List.length same
    simp only [List.length_cons, List.length_append] at length
    omega

/-- The end mark is reached after as many links as the chain has nodes. -/
theorem Follows.end_mem_iterate {count : Nat} (follows : Follows table Ends pointer chain)
    (short : chain.length < count) : ∃ node ∈ List.iterate table pointer count, Ends node := by
  induction chain generalizing pointer count with
  | nil =>
    obtain ⟨count, rfl⟩ := Nat.exists_eq_succ_of_ne_zero short.ne'
    exact ⟨pointer, List.mem_cons_self, follows⟩
  | cons node rest ih =>
    obtain ⟨rfl, follows⟩ := follows
    obtain ⟨count, rfl⟩ := Nat.exists_eq_succ_of_ne_zero (Nat.zero_lt_of_lt short).ne'
    obtain ⟨last, member, ends⟩ := ih follows (Nat.lt_of_succ_lt_succ short)
    exact ⟨last, List.mem_cons_of_mem _ member, ends⟩

/-- What ends a chain is one pointer. -/
theorem Follows.exists_end (follows : Follows table Ends pointer chain) :
    ∃ last, Ends last ∧ Follows table (· = last) pointer chain := by
  induction chain generalizing pointer with
  | nil => exact ⟨pointer, follows, rfl⟩
  | cons node rest ih =>
    obtain ⟨rfl, follows⟩ := follows
    obtain ⟨last, ends, link⟩ := ih follows
    exact ⟨last, ends, rfl, link⟩

/-- The link of a node leads to a node or to the end. -/
theorem Follows.link_mem {node : α} (follows : Follows table Ends pointer chain)
    (member : node ∈ chain) :
    table node ∈ chain ∨ Ends (table node) := by
  obtain ⟨before, after, rfl, _, link⟩ := follows.of_mem member
  cases after with
  | nil => exact Or.inr link
  | cons next after =>
    rw [link.1]
    exact Or.inl (List.mem_append_right _ (List.mem_cons_of_mem _ List.mem_cons_self))

/-- A chain with nodes has one that leads to its end. -/
theorem Follows.exists_last {last : α} (follows : Follows table (· = last) pointer chain)
    (nonempty : chain ≠ []) : ∃ node ∈ chain, table node = last := by
  induction chain generalizing pointer with
  | nil => exact absurd rfl nonempty
  | cons node rest ih =>
    obtain ⟨rfl, follows⟩ := follows
    by_cases none : rest = []
    · subst none
      exact ⟨pointer, List.mem_cons_self, follows⟩
    · obtain ⟨node, member, link⟩ := ih follows none
      exact ⟨node, List.mem_cons_of_mem _ member, link⟩

/-! ### What a pointer reaches -/

/-- The table leads from one node to another through the places. -/
def LeadsTo (table : α → α) (places : Finset α) : α → α → Prop :=
  Relation.ReflTransGen fun node next => node ∈ places ∧ table node = next

variable {places : Finset α}

theorem Follows.leadsTo (follows : Follows table Ends pointer chain)
    (inside : ∀ node ∈ chain, node ∈ places) :
    ∀ node ∈ chain, LeadsTo table places pointer node := by
  induction chain generalizing pointer with
  | nil => exact fun _ member => absurd member List.not_mem_nil
  | cons first rest ih =>
    obtain ⟨rfl, follows⟩ := follows
    intro node member
    rcases List.mem_cons.mp member with rfl | inRest
    · exact Relation.ReflTransGen.refl
    · exact Relation.ReflTransGen.head ⟨inside pointer List.mem_cons_self, rfl⟩
        (ih follows (fun node member => inside node (List.mem_cons_of_mem _ member)) node inRest)

/-- **A pointer leads through distinct places** until it leaves them or comes back. -/
theorem exists_lasso [DecidableEq α] (table : α → α) (places : Finset α) (pointer : α) :
    ∃ chain, chain.Nodup ∧ (∀ node ∈ chain, node ∈ places) ∧
      Follows table (fun last => last ∈ chain ∨ last ∉ places) pointer chain := by
  induction places using Finset.strongInduction generalizing pointer with
  | _ places ih =>
    by_cases inside : pointer ∈ places
    · obtain ⟨chain, distinct, within, follows⟩ :=
        ih (places.erase pointer) (Finset.erase_ssubset inside) (table pointer)
      obtain ⟨last, ends, link⟩ := follows.exists_end
      refine ⟨pointer :: chain, ?_, ?_, rfl, ?_⟩
      · exact List.nodup_cons.mpr ⟨fun again => Finset.notMem_erase _ _ (within pointer again), distinct⟩
      · intro node member
        rcases List.mem_cons.mp member with rfl | inChain
        · exact inside
        · exact Finset.mem_of_mem_erase (within node inChain)
      · refine link.mono fun node same => ?_
        obtain rfl := same
        rcases ends with again | outside
        · exact Or.inl (List.mem_cons_of_mem _ again)
        · by_cases first : node = pointer
          · exact Or.inl (first ▸ List.mem_cons_self)
          · exact Or.inr fun place => outside (Finset.mem_erase.mpr ⟨first, place⟩)
    · exact ⟨[], List.nodup_nil, fun _ member => absurd member List.not_mem_nil, Or.inr inside⟩

/-- **The nodes of such a chain** are the places that are reached. -/
theorem leadsTo_iff_mem (inside : ∀ node ∈ chain, node ∈ places)
    (follows : Follows table (fun last => last ∈ chain ∨ last ∉ places) pointer chain) {node : α} :
    (node ∈ places ∧ LeadsTo table places pointer node) ↔ node ∈ chain := by
  constructor
  · rintro ⟨place, reached⟩
    have closed : node ∈ chain ∨ node ∉ places := by
      induction reached with
      | refl =>
        cases chain with
        | nil => exact follows
        | cons first rest => exact Or.inl (follows.1 ▸ List.mem_cons_self)
      | tail _ step ih =>
        obtain ⟨inPlaces, rfl⟩ := step
        rcases ih inPlaces with member | outside
        · exact (follows.link_mem member).elim Or.inl id
        · exact absurd inPlaces outside
    exact closed.resolve_right fun outside => outside place
  · exact fun member => ⟨inside node member, follows.leadsTo inside node member⟩

end Follows

section Links

variable {α : Type} {mark free value : α} {table : α → α} {nodes : List α} {entries : List (α × α)}

/-- What points to a list of nodes: the first one, or the mark when there is none. -/
def pointerTo (mark : α) (nodes : List α) : α := nodes.head?.getD mark

/-- The entries that link each node to the next one and the last one to the mark. -/
def linksOf (mark : α) : List α → List (α × α)
  | [] => []
  | node :: rest => (node, pointerTo mark rest) :: linksOf mark rest

/-- The entries that give all the nodes one value. -/
def allTo (value : α) (nodes : List α) : List (α × α) := nodes.map fun node => (node, value)

theorem linksOf_map_fst (mark : α) (nodes : List α) : (linksOf mark nodes).map Prod.fst = nodes := by
  induction nodes with
  | nil => rfl
  | cons node rest ih => rw [linksOf, List.map_cons, ih]

/-- A link leads to a node or to the mark. -/
theorem snd_of_mem_linksOf {entry : α × α} (member : entry ∈ linksOf mark nodes) :
    entry.2 = mark ∨ entry.2 ∈ nodes := by
  induction nodes with
  | nil => cases member
  | cons node rest ih =>
    rcases List.mem_cons.mp member with rfl | inRest
    · cases rest with
      | nil => exact Or.inl rfl
      | cons next rest => exact Or.inr (List.mem_cons_of_mem _ List.mem_cons_self)
    · exact (ih inRest).imp_right (List.mem_cons_of_mem _)

theorem allTo_map_fst (value : α) (nodes : List α) : (allTo value nodes).map Prod.fst = nodes := by
  rw [allTo, List.map_map]
  exact List.map_id nodes

variable [DecidableEq α]

/-- Set the listed entries, one after the other. -/
def updateAll : List (α × α) → (α → α) → α → α
  | [], table => table
  | entry :: rest, table => updateAll rest (Function.update table entry.1 entry.2)

theorem updateAll_of_not_mem {other : α} (outside : other ∉ entries.map Prod.fst) :
    updateAll entries table other = table other := by
  induction entries generalizing table with
  | nil => rfl
  | cons entry rest ih =>
    rw [List.map_cons] at outside
    rw [updateAll, ih (List.not_mem_of_not_mem_cons outside),
      Function.update_of_ne (List.ne_of_not_mem_cons outside)]

/-- **Linked nodes are a chain.** -/
theorem follows_linksOf {Ends : α → Prop} (distinct : nodes.Nodup) (ends : Ends mark) :
    Follows (updateAll (linksOf mark nodes) table) Ends (pointerTo mark nodes) nodes := by
  induction nodes generalizing table with
  | nil => exact ends
  | cons node rest ih =>
    obtain ⟨notRest, distinct⟩ := List.nodup_cons.mp distinct
    refine ⟨rfl, ?_⟩
    rw [linksOf, updateAll, updateAll_of_not_mem (by rwa [linksOf_map_fst]), Function.update_self]
    exact ih distinct

theorem updateAll_allTo {other : α} (member : other ∈ nodes) :
    updateAll (allTo value nodes) table other = value := by
  induction nodes generalizing table with
  | nil => cases member
  | cons node rest ih =>
    by_cases inRest : other ∈ rest
    · exact ih inRest
    · obtain rfl : other = node := (List.mem_cons.mp member).resolve_right inRest
      show updateAll (allTo value rest) _ other = value
      rw [updateAll_of_not_mem (by rwa [allTo_map_fst]), Function.update_self]

/-! ### Free nodes -/

variable {places : Finset α}

/-- The nodes with the mark of a free node. -/
def freeNodes (free : α) (places : Finset α) (table : α → α) : Finset α :=
  places.filter fun node => table node = free

/-- **Linking free nodes takes them out of the free ones.** -/
theorem card_freeNodes_link {table' : α → α} (distinct : nodes.Nodup)
    (wereFree : ∀ node ∈ nodes, node ∈ freeNodes free places table)
    (taken : ∀ node ∈ nodes, table' node ≠ free)
    (same : ∀ node, node ∉ nodes → table' node = table node) :
    (freeNodes free places table').card + nodes.length = (freeNodes free places table).card := by
  have split : freeNodes free places table' = freeNodes free places table \ nodes.toFinset := by
    ext node
    simp only [freeNodes, Finset.mem_filter, Finset.mem_sdiff, List.mem_toFinset]
    by_cases inNodes : node ∈ nodes
    · simp [inNodes, taken node inNodes]
    · simp [inNodes, same node inNodes]
  have below : nodes.toFinset ⊆ freeNodes free places table := fun node member =>
    wereFree node (List.mem_toFinset.mp member)
  rw [split, ← List.toFinset_card_of_nodup distinct]
  exact Finset.card_sdiff_add_card_eq_card below

/-- **Clearing taken nodes puts them back.** -/
theorem card_freeNodes_clear (distinct : nodes.Nodup) (inside : ∀ node ∈ nodes, node ∈ places)
    (taken : ∀ node ∈ nodes, table node ≠ free) :
    (freeNodes free places (updateAll (allTo free nodes) table)).card
      = (freeNodes free places table).card + nodes.length := by
  symm
  apply card_freeNodes_link distinct
  · intro node member
    rw [freeNodes, Finset.mem_filter, updateAll_allTo member]
    exact ⟨inside node member, rfl⟩
  · exact taken
  · intro node outside
    rw [updateAll_of_not_mem (by rwa [allTo_map_fst])]

end Links

end Bootsmith.Library
