/-
**Names of disks** (`bootsmith-disk/src/macos.rs`).

`normalizeBsdName` reduces the many spellings of a disk (`/dev/` in front any number of times, the raw
device `rdisk`, a suffix for a slice) to the name of the whole disk. `Spells` says which texts spell the
disk with given digits, and `normalizeBsdName_eq_disk` that the function finds just these digits.
-/

import Bootsmith.Library.Text

namespace Bootsmith.Disk

open Bootsmith.Library

/-! ### The function -/

def devPrefix : Text := "/dev/".toList

def diskPrefix : Text := "disk".toList

/-- Remove a pattern from the front, at most `count` times. -/
def stripTimes (pattern : Text) : Nat → Text → Text
  | 0, text => text
  | count + 1, text =>
    match stripPrefix pattern text with
    | some rest => stripTimes pattern count rest
    | none => text

/-- Remove a pattern from the front as often as it is there. -/
def trimStartMatches (pattern text : Text) : Text := stripTimes pattern text.length text

/-- The loop over the characters: behind `disk` only digits are taken. -/
def takeDisk (out : Text) : Text → Text
  | [] => out
  | char :: chars =>
    let out := out ++ [char]
    if out = diskPrefix then out ++ chars.takeWhile Char.isDigit else takeDisk out chars

def normalizeBsdName (pathOrName : Text) : Text :=
  let s := trimStartMatches devPrefix pathOrName
  let s := (stripPrefix ['r'] s).getD s
  takeDisk [] s

/-- The name of a whole disk. -/
def diskName (number : Nat) : Text := diskPrefix ++ (Nat.repr number).toList

/-! ### Spellings -/

/-- **The text spells the disk with these digits.** -/
def Spells (target digits : Text) : Prop :=
  ∃ count raw rest, target = (List.replicate count devPrefix).flatten ++ raw ++ diskPrefix ++ digits ++ rest ∧
    (raw = [] ∨ raw = ['r']) ∧ digits.all Char.isDigit ∧ ∀ char ∈ rest.head?, ¬ char.isDigit

theorem stripPrefix_eq_some {pattern text rest : Text} :
    stripPrefix pattern text = some rest ↔ text = pattern ++ rest := by
  unfold stripPrefix
  by_cases starts : pattern.isPrefixOf text
  · obtain ⟨behind, rfl⟩ := List.isPrefixOf_iff_prefix.mp starts
    rw [if_pos starts, List.drop_left, Option.some.injEq, List.append_cancel_left_eq]
  · rw [if_neg starts]
    constructor
    · exact nofun
    · rintro rfl
      exact absurd (List.isPrefixOf_iff_prefix.mpr (List.prefix_append _ _)) starts

theorem stripPrefix_eq_none {pattern text : Text} :
    stripPrefix pattern text = none ↔ ¬ pattern <+: text := by
  unfold stripPrefix
  rw [← List.isPrefixOf_iff_prefix]
  split <;> simp [*]

/-- What is left when a pattern is removed from the front. -/
theorem stripTimes_spec (pattern : Text) (times : Nat) (text : Text) :
    ∃ count, text = (List.replicate count pattern).flatten ++ stripTimes pattern times text := by
  induction times generalizing text with
  | zero => exact ⟨0, rfl⟩
  | succ times ih =>
    unfold stripTimes
    cases found : stripPrefix pattern text with
    | none => exact ⟨0, rfl⟩
    | some rest =>
      obtain ⟨count, same⟩ := ih rest
      refine ⟨count + 1, ?_⟩
      rw [List.replicate_succ, List.flatten_cons, List.append_assoc, ← same]
      exact stripPrefix_eq_some.mp found

/-- Copies of the pattern in front of a text without it are removed. -/
theorem stripTimes_replicate {pattern rest : Text} (ends : ¬ pattern <+: rest) {count times : Nat}
    (enough : count ≤ times) :
    stripTimes pattern times ((List.replicate count pattern).flatten ++ rest) = rest := by
  induction count generalizing times with
  | zero =>
    cases times with
    | zero => rfl
    | succ times =>
      unfold stripTimes
      rw [List.replicate_zero, List.flatten_nil, List.nil_append, stripPrefix_eq_none.mpr ends]
  | succ count ih =>
    obtain ⟨times, rfl⟩ : ∃ less, times = less + 1 := Nat.exists_eq_succ_of_ne_zero (by omega)
    have found : stripPrefix pattern ((List.replicate (count + 1) pattern).flatten ++ rest)
        = some ((List.replicate count pattern).flatten ++ rest) := by
      rw [stripPrefix_eq_some, List.replicate_succ, List.flatten_cons, List.append_assoc]
    unfold stripTimes
    rw [found]
    exact ih (Nat.le_of_succ_le_succ enough)

/-- The loop, once enough characters are taken that they are not `disk` any more. -/
theorem takeDisk_long {out : Text} (long : diskPrefix.length ≤ out.length) (chars : Text) :
    takeDisk out chars = out ++ chars := by
  induction chars generalizing out with
  | nil => exact (List.append_nil out).symm
  | cons char chars ih =>
    have longer : (out ++ [char]).length = out.length + 1 := by simp
    have other : out ++ [char] ≠ diskPrefix := by
      intro same
      rw [same] at longer
      omega
    show (if out ++ [char] = diskPrefix then _ else _) = _
    rw [if_neg other, ih (by omega), List.append_assoc]
    rfl

/-- **What the loop takes**: the digits behind `disk`, or everything. -/
theorem takeDisk_spec (out chars : Text) (short : out.length < diskPrefix.length) :
    takeDisk out chars = match stripPrefix diskPrefix (out ++ chars) with
      | some rest => diskPrefix ++ rest.takeWhile Char.isDigit
      | none => out ++ chars := by
  induction chars generalizing out with
  | nil =>
    have none : stripPrefix diskPrefix (out ++ []) = none := by
      rw [stripPrefix_eq_none, List.append_nil]
      exact fun starts => absurd starts.length_le (by omega)
    rw [none, List.append_nil, takeDisk]
  | cons char chars ih =>
    have longer : (out ++ [char]).length = out.length + 1 := by simp
    have same : out ++ char :: chars = (out ++ [char]) ++ chars := by simp
    show (if out ++ [char] = diskPrefix then _ else _) = _
    rw [same]
    by_cases here : out ++ [char] = diskPrefix
    · rw [if_pos here, here, stripPrefix_eq_some.mpr rfl]
    · rw [if_neg here]
      rcases Nat.lt_or_ge (out ++ [char]).length diskPrefix.length with again | long
      · exact ih _ again
      · have none : stripPrefix diskPrefix (out ++ [char] ++ chars) = none := by
          rw [stripPrefix_eq_none]
          rintro ⟨rest, split⟩
          have sameLength : diskPrefix.length = (out ++ [char]).length := by omega
          exact here (List.append_inj_left split sameLength).symm
        rw [none, takeDisk_long long]

theorem takeDisk_disk (rest : Text) :
    takeDisk [] (diskPrefix ++ rest) = diskPrefix ++ rest.takeWhile Char.isDigit := by
  rw [takeDisk_spec _ _ (by decide), List.nil_append, stripPrefix_eq_some.mpr rfl]

/-- Digits behind which there is no digit are all that is taken. -/
theorem takeWhile_digits {digits rest : Text} (all : digits.all Char.isDigit)
    (ends : ∀ char ∈ rest.head?, ¬ char.isDigit) :
    (digits ++ rest).takeWhile Char.isDigit = digits := by
  have every : ∀ char ∈ digits, Char.isDigit char := fun char member => List.all_eq_true.mp all char member
  rw [List.takeWhile_append_of_pos every]
  cases rest with
  | nil => rw [List.takeWhile_nil, List.append_nil]
  | cons char rest => rw [List.takeWhile_cons_of_neg (ends char rfl), List.append_nil]

/-- **The digits that are found** are the ones the target spells. -/
theorem normalizeBsdName_eq_disk {target digits : Text} (all : digits.all Char.isDigit) :
    normalizeBsdName target = diskPrefix ++ digits ↔ Spells target digits := by
  unfold normalizeBsdName
  constructor
  · intro found
    obtain ⟨count, trimmed⟩ := stripTimes_spec devPrefix target.length target
    change takeDisk [] ((stripPrefix ['r'] (stripTimes devPrefix target.length target)).getD
      (stripTimes devPrefix target.length target)) = _ at found
    generalize stripTimes devPrefix target.length target = left at found trimmed
    -- with or without `r`, the loop takes what starts with `disk`
    have body : ∀ text : Text, takeDisk [] text = diskPrefix ++ digits →
        ∃ rest, text = diskPrefix ++ digits ++ rest ∧ ∀ char ∈ rest.head?, ¬ char.isDigit := by
      intro text taken
      rw [takeDisk_spec _ _ (by decide), List.nil_append] at taken
      cases starts : stripPrefix diskPrefix text with
      | none =>
        rw [starts] at taken
        exact absurd ⟨digits, taken.symm⟩ (stripPrefix_eq_none.mp starts)
      | some behind =>
        rw [starts] at taken
        have digitsOf : behind.takeWhile Char.isDigit = digits := List.append_cancel_left taken
        refine ⟨behind.dropWhile Char.isDigit, ?_, fun char member => ?_⟩
        · rw [stripPrefix_eq_some.mp starts, ← digitsOf, List.append_assoc,
            List.takeWhile_append_dropWhile]
        · have first := List.head?_dropWhile_not Char.isDigit behind
          rw [Option.mem_def] at member
          rw [member] at first
          simpa using first
    cases raw : stripPrefix ['r'] left with
    | none =>
      rw [raw] at found
      obtain ⟨rest, shape, ends⟩ := body left found
      exact ⟨count, [], rest, by rw [trimmed, shape]; simp, Or.inl rfl, all, ends⟩
    | some behind =>
      rw [raw] at found
      obtain ⟨rest, shape, ends⟩ := body behind found
      exact ⟨count, ['r'], rest, by rw [trimmed, stripPrefix_eq_some.mp raw, shape]; simp, Or.inr rfl,
        all, ends⟩
  · rintro ⟨count, raw, rest, rfl, spelled, _, ends⟩
    have taken := takeDisk_disk (digits ++ rest)
    rw [takeWhile_digits all ends] at taken
    have clear : ¬ devPrefix <+: raw ++ diskPrefix ++ digits ++ rest := by
      rcases spelled with rfl | rfl
      · rintro ⟨behind, same⟩
        exact absurd (List.cons.inj same).1 (by decide)
      · rintro ⟨behind, same⟩
        exact absurd (List.cons.inj same).1 (by decide)
    have trimmed : trimStartMatches devPrefix ((List.replicate count devPrefix).flatten ++ raw ++ diskPrefix
        ++ digits ++ rest) = raw ++ diskPrefix ++ digits ++ rest := by
      have enough : count ≤ ((List.replicate count devPrefix).flatten
          ++ (raw ++ diskPrefix ++ digits ++ rest)).length := by
        rw [List.length_append, List.length_flatten, List.map_replicate, List.sum_replicate, smul_eq_mul]
        exact Nat.le_add_right_of_le (Nat.le_mul_of_pos_right _ (by decide))
      have stripped := stripTimes_replicate clear enough
      simp only [← List.append_assoc] at stripped
      exact stripped
    rw [trimmed]
    show takeDisk [] ((stripPrefix ['r'] (raw ++ diskPrefix ++ digits ++ rest)).getD
      (raw ++ diskPrefix ++ digits ++ rest)) = _
    rcases spelled with rfl | rfl
    · have plain : stripPrefix ['r'] ([] ++ diskPrefix ++ digits ++ rest) = none := by
        rw [stripPrefix_eq_none]
        rintro ⟨behind, same⟩
        exact absurd (List.cons.inj same).1 (by decide)
      rw [plain, Option.getD_none, List.nil_append, List.append_assoc]
      exact taken
    · have rawName : stripPrefix ['r'] (['r'] ++ diskPrefix ++ digits ++ rest)
          = some (diskPrefix ++ digits ++ rest) := stripPrefix_eq_some.mpr (by simp)
      rw [rawName, Option.getD_some, List.append_assoc]
      exact taken

/-! ### Numbers -/

theorem repr_digits (number : Nat) : (Nat.repr number).toList.all Char.isDigit := by
  rw [Nat.toList_repr, List.all_eq_true]
  exact fun char member => Nat.isDigit_of_mem_toDigits (by decide) le_rfl member

theorem diskName_injective : Function.Injective diskName := by
  intro first second same
  have digits : (Nat.repr first).toList = (Nat.repr second).toList := List.append_cancel_left same
  rw [Nat.toList_repr, Nat.toList_repr] at digits
  rw [← Nat.ofDigitChars_ten_toDigits (n := first), digits, Nat.ofDigitChars_ten_toDigits]

/-- A spelling of the disk with a number is reduced to its name. -/
theorem normalizeBsdName_eq_diskName {target : Text} {number : Nat} :
    normalizeBsdName target = diskName number ↔ Spells target (Nat.repr number).toList :=
  normalizeBsdName_eq_disk (repr_digits number)

end Bootsmith.Disk
