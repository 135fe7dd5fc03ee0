/-
**Packing sized items into blocks, in order.**

Items are laid one after the other from a cursor; an item that would cross the end of its block
starts at the next block instead (`place`). `layout` lists the item starts and `layoutEnd` is the
cursor after the last item.

* `layout_mem`: every item lies between the first cursor and the end, inside one block;
* `layoutEnd_mono`, `layoutEnd_sublist`: the end grows with the cursor and with every item put in
  anywhere, so packing more never ends earlier;
* `layout_shift`: moving the cursor by whole blocks moves the layout with it.
-/

import Mathlib.Data.List.Basic
import Mathlib.Tactic

namespace Bootsmith.Library

/-- The next multiple of `block` at or after `value`. -/
def alignUp (value block : Nat) : Nat := (value + block - 1) / block * block

/-- Where an item of `count` bytes starts when the cursor stands at `pos`. -/
def place (block pos count : Nat) : Nat :=
  if pos % block + count > block then pos + (block - pos % block) else pos

/-! ### Alignment -/

section Align

variable {block : Nat}

theorem alignUp_dvd (value block : Nat) : block ∣ alignUp value block := Dvd.intro_left _ rfl

theorem le_alignUp (value : Nat) (positive : 0 < block) : value ≤ alignUp value block := by
  have split := Nat.div_add_mod (value + block - 1) block
  have small := Nat.mod_lt (value + block - 1) positive
  rw [Nat.mul_comm] at split
  unfold alignUp
  omega

theorem alignUp_lt (value : Nat) (positive : 0 < block) : alignUp value block < value + block := by
  have below := Nat.div_mul_le_self (value + block - 1) block
  unfold alignUp
  omega

/-- The aligned value is the least multiple of the block that is large enough. -/
theorem alignUp_le {value bound : Nat} (positive : 0 < block) (above : value ≤ bound)
    (aligned : block ∣ bound) : alignUp value block ≤ bound := by
  obtain ⟨quotient, rfl⟩ := aligned
  rw [alignUp, Nat.mul_comm block]
  refine Nat.mul_le_mul_right _ (Nat.lt_succ_iff.mp ?_)
  rw [Nat.div_lt_iff_lt_mul positive, Nat.succ_mul, Nat.mul_comm quotient]
  omega

theorem alignUp_of_dvd {value : Nat} (positive : 0 < block) (aligned : block ∣ value) :
    alignUp value block = value :=
  le_antisymm (alignUp_le positive le_rfl aligned) (le_alignUp value positive)

theorem alignUp_mono {first second : Nat} (positive : 0 < block) (le : first ≤ second) :
    alignUp first block ≤ alignUp second block :=
  alignUp_le positive (le.trans (le_alignUp second positive)) (alignUp_dvd second block)

theorem alignUp_add {base : Nat} (value : Nat) (positive : 0 < block) (aligned : block ∣ base) :
    alignUp (base + value) block = base + alignUp value block := by
  obtain ⟨quotient, rfl⟩ := aligned
  rw [alignUp, alignUp, Nat.add_assoc, Nat.add_sub_assoc (by omega), Nat.mul_add_div positive,
    Nat.add_mul, Nat.mul_comm quotient]

theorem alignUp_succ (value : Nat) (positive : 0 < block) :
    alignUp (value + 1) block = (value / block + 1) * block := by
  rw [alignUp, ← Nat.add_div_right value positive]
  congr 2
  omega

end Align

/-! ### One item -/

section Place

variable {block : Nat}

theorem le_place (block pos count : Nat) : pos ≤ place block pos count := by
  unfold place
  split <;> omega

/-- At the start of a block there is nothing to move. -/
theorem place_of_dvd {pos count : Nat} (aligned : block ∣ pos) (fits : count ≤ block) :
    place block pos count = pos := by
  have start := Nat.mod_eq_zero_of_dvd aligned
  exact if_neg (by omega)

/-- A placed item does not cross the end of its block. -/
theorem place_mod_add_le (positive : 0 < block) (pos : Nat) {count : Nat} (fits : count ≤ block) :
    place block pos count % block + count ≤ block := by
  unfold place
  split
  · have small := Nat.mod_lt pos positive
    have split := Nat.div_add_mod pos block
    have next : pos + (block - pos % block) = block * (pos / block + 1) := by
      rw [Nat.mul_add, Nat.mul_one]
      omega
    rw [next, Nat.mul_mod_right]
    omega
  · omega

/-- An item that does not start at the cursor starts at the next block. -/
theorem place_of_lt (positive : 0 < block) {pos count : Nat} (fits : count ≤ block)
    (moved : pos < place block pos count) : place block pos count = alignUp (pos + 1) block := by
  have small := Nat.mod_lt pos positive
  have split := Nat.div_add_mod pos block
  unfold place at *
  split at moved
  · rename_i crosses
    rw [if_pos crosses]
    have next : pos + (block - pos % block) = block * (pos / block + 1) := by
      rw [Nat.mul_add, Nat.mul_one]
      omega
    refine le_antisymm ?_ (alignUp_le positive (by omega) ⟨_, next⟩)
    by_contra less
    obtain ⟨quotient, aligned⟩ := alignUp_dvd (pos + 1) block
    have above := le_alignUp (pos + 1) positive
    rw [aligned] at less above
    rw [next, not_le] at less
    have lower : quotient < pos / block + 1 := Nat.lt_of_mul_lt_mul_left less
    have upper : block * quotient ≤ block * (pos / block) := Nat.mul_le_mul_left _ (by omega)
    omega
  · omega

theorem place_add {base : Nat} (pos count : Nat) (aligned : block ∣ base) :
    place block (base + pos) count = base + place block pos count := by
  obtain ⟨quotient, rfl⟩ := aligned
  unfold place
  rw [Nat.mul_add_mod]
  split <;> omega

/-- A later cursor places the item no earlier. -/
theorem place_mono (positive : 0 < block) {pos pos' count : Nat} (le : pos ≤ pos')
    (fits : count ≤ block) : place block pos count ≤ place block pos' count := by
  rcases (le_place block pos count).lt_or_eq with moved | stays
  · rw [place_of_lt positive fits moved]
    rcases (le_place block pos' count).lt_or_eq with moved' | stays'
    · rw [place_of_lt positive fits moved']
      exact alignUp_mono positive (by omega)
    · rw [← stays']
      by_contra earlier
      rw [not_le] at earlier
      -- both cursors lie in one block, where a later cursor leaves less room
      have crosses : pos % block + count > block := by
        by_contra room
        rw [place, if_neg room] at moved
        omega
      have room : pos' % block + count ≤ block := by
        by_contra crosses'
        have next : place block pos' count = pos' + (block - pos' % block) :=
          if_pos (not_le.mp crosses')
        have small := Nat.mod_lt pos' positive
        omega
      have next : place block pos count = pos + (block - pos % block) := if_pos crosses
      rw [place_of_lt positive fits moved] at next
      have split := Nat.div_add_mod pos block
      have split' := Nat.div_add_mod pos' block
      have below : pos' < block * (pos / block + 1) := by
        rw [Nat.mul_add, Nat.mul_one]
        have small := Nat.mod_lt pos positive
        omega
      have same : pos' / block = pos / block := by
        refine le_antisymm (Nat.lt_succ_iff.mp ?_) (Nat.div_le_div_right le)
        exact Nat.div_lt_of_lt_mul below
      rw [same] at split'
      omega
  · rw [← stays]
    exact le.trans (le_place block pos' count)

end Place

/-! ### A list of items -/

section Layout

variable {α β : Type} {block : Nat} {size : α → Nat}

/-- The items with their starts. -/
def layout (block : Nat) (size : α → Nat) : Nat → List α → List (Nat × α)
  | _, [] => []
  | pos, item :: rest =>
    (place block pos (size item), item)
      :: layout block size (place block pos (size item) + size item) rest

/-- The cursor after the last item. -/
def layoutEnd (block : Nat) (size : α → Nat) : Nat → List α → Nat
  | pos, [] => pos
  | pos, item :: rest => layoutEnd block size (place block pos (size item) + size item) rest

@[simp] theorem layout_map_snd (pos : Nat) (items : List α) :
    (layout block size pos items).map Prod.snd = items := by
  induction items generalizing pos with
  | nil => rfl
  | cons item rest ih => simp [layout, ih]

theorem exists_mem_layout (pos : Nat) {items : List α} {item : α} (member : item ∈ items) :
    ∃ entry ∈ layout block size pos items, entry.2 = item := by
  have same : (layout block size pos items).map Prod.snd = items := layout_map_snd pos items
  have placed : item ∈ (layout block size pos items).map Prod.snd := by rwa [same]
  exact List.mem_map.mp placed

theorem layoutEnd_map (pos : Nat) (change : β → α) (items : List β) :
    layoutEnd block size pos (items.map change)
      = layoutEnd block (size ∘ change) pos items := by
  induction items generalizing pos with
  | nil => rfl
  | cons item rest ih => exact ih _

theorem le_layoutEnd (pos : Nat) (items : List α) : pos ≤ layoutEnd block size pos items := by
  induction items generalizing pos with
  | nil => exact le_rfl
  | cons item rest ih =>
    exact ((le_place block pos (size item)).trans (Nat.le_add_right _ _)).trans (ih _)

/-- **Every item lies between the cursor and the end, inside one block.** -/
theorem layout_mem (positive : 0 < block) {pos : Nat} {items : List α}
    (fits : ∀ item ∈ items, size item ≤ block) {entry : Nat × α}
    (member : entry ∈ layout block size pos items) :
    pos ≤ entry.1 ∧ entry.1 + size entry.2 ≤ layoutEnd block size pos items ∧
      entry.1 % block + size entry.2 ≤ block := by
  induction items generalizing pos with
  | nil => cases member
  | cons item rest ih =>
    have head := le_place block pos (size item)
    rcases List.mem_cons.mp member with rfl | inRest
    · exact ⟨head, le_layoutEnd _ rest,
        place_mod_add_le positive pos (fits item List.mem_cons_self)⟩
    · obtain ⟨after, before, inside⟩ := ih (fun other inside =>
        fits other (List.mem_cons_of_mem _ inside)) inRest
      exact ⟨by omega, before, inside⟩

/-- **The cursor ends behind the last item.** -/
theorem layoutEnd_eq_last {pos : Nat} {items : List α} (nonempty : items ≠ []) :
    ∃ last, (layout block size pos items).getLast? = some last ∧
      layoutEnd block size pos items = last.1 + size last.2 := by
  induction items generalizing pos with
  | nil => exact absurd rfl nonempty
  | cons item rest ih =>
    cases rest with
    | nil => exact ⟨_, rfl, rfl⟩
    | cons next others =>
      obtain ⟨last, isLast, ends⟩ := ih (List.cons_ne_nil next others)
      refine ⟨last, ?_, ends⟩
      rw [layout, layout, List.getLast?_cons_cons, ← layout]
      exact isLast

/-- The items follow one another without overlap. -/
theorem layout_pairwise (pos : Nat) (items : List α) :
    (layout block size pos items).Pairwise fun first second =>
      first.1 + size first.2 ≤ second.1 := by
  have after : ∀ (items : List α) (pos : Nat) (entry : Nat × α),
      entry ∈ layout block size pos items → pos ≤ entry.1 := by
    intro items
    induction items with
    | nil => exact fun _ _ member => by cases member
    | cons item rest ih =>
      intro pos entry member
      have head := le_place block pos (size item)
      rcases List.mem_cons.mp member with rfl | inRest
      · exact head
      · exact (head.trans (Nat.le_add_right _ _)).trans (ih _ entry inRest)
  induction items generalizing pos with
  | nil => exact List.Pairwise.nil
  | cons item rest ih => exact List.Pairwise.cons (fun entry member => after rest _ entry member) (ih _)

/-- **Moving the cursor by whole blocks moves the layout.** -/
theorem layout_shift {base : Nat} (aligned : block ∣ base) (pos : Nat) (items : List α) :
    layout block size (base + pos) items
      = (layout block size pos items).map fun entry => (base + entry.1, entry.2) := by
  induction items generalizing pos with
  | nil => rfl
  | cons item rest ih => simp only [layout, List.map_cons, place_add _ _ aligned, Nat.add_assoc, ih]

theorem layoutEnd_shift {base : Nat} (aligned : block ∣ base) (pos : Nat) (items : List α) :
    layoutEnd block size (base + pos) items = base + layoutEnd block size pos items := by
  induction items generalizing pos with
  | nil => rfl
  | cons item rest ih => simp only [layoutEnd, place_add _ _ aligned, Nat.add_assoc, ih]

/-- **A later cursor ends no earlier.** -/
theorem layoutEnd_mono (positive : 0 < block) {pos pos' : Nat} (le : pos ≤ pos') {items : List α}
    (fits : ∀ item ∈ items, size item ≤ block) :
    layoutEnd block size pos items ≤ layoutEnd block size pos' items := by
  induction items generalizing pos pos' with
  | nil => exact le
  | cons item rest ih =>
    exact ih (Nat.add_le_add_right (place_mono positive le (fits item List.mem_cons_self)) _)
      fun other inside => fits other (List.mem_cons_of_mem _ inside)

/-- **Packing more items ends no earlier.** -/
theorem layoutEnd_sublist (positive : 0 < block) {fewer more : List α} (sub : fewer.Sublist more)
    (fits : ∀ item ∈ more, size item ≤ block) (pos : Nat) :
    layoutEnd block size pos fewer ≤ layoutEnd block size pos more := by
  induction sub generalizing pos with
  | slnil => exact le_rfl
  | cons item sub ih =>
    have restFits := fun other inside => fits other (List.mem_cons_of_mem _ inside)
    refine (ih restFits pos).trans (layoutEnd_mono positive ?_ restFits)
    exact (le_place block pos (size item)).trans (Nat.le_add_right _ _)
  | cons_cons item sub ih =>
    exact ih (fun other inside => fits other (List.mem_cons_of_mem _ inside)) _

end Layout

end Bootsmith.Library
