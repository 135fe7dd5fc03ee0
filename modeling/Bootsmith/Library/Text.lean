/-
**Text as a list of characters**: trimming, searching, splitting and joining as the string functions of
the source do them.

`lines` ends a line at a line feed and drops one carriage return before it. `splitCrlf` ends a line only
at the pair, so a text is the join of its parts (`joinCrlf_splitCrlf`) and parts free of the pair are
the split of their join (`splitCrlf_joinCrlf`).
-/

import Mathlib.Data.List.DropRight
import Mathlib.Tactic

namespace Bootsmith.Library

/-- A text, character by character. -/
abbrev Text := List Char

/-! ### Case -/

/-- ASCII letters in lower case. -/
def lower (text : Text) : Text := text.map Char.toLower

/-- ASCII letters in upper case. -/
def upper (text : Text) : Text := text.map Char.toUpper

/-- Equality of texts up to ASCII case. -/
def eqIgnoreCase (first second : Text) : Bool := lower first == lower second

theorem eqIgnoreCase_iff {first second : Text} :
    eqIgnoreCase first second = true ↔ lower first = lower second := beq_iff_eq

theorem toLower_val (char : Char) :
    char.toLower.val = if 65 ≤ char.val ∧ char.val ≤ 90 then char.val + 32 else char.val := by
  unfold Char.toLower
  by_cases isUpper : char.val ≥ 'A'.val ∧ char.val ≤ 'Z'.val
  · rw [dif_pos isUpper]
    exact (if_pos isUpper).symm
  · rw [dif_neg isUpper]
    exact (if_neg isUpper).symm

theorem toUpper_val (char : Char) :
    char.toUpper.val = if 97 ≤ char.val ∧ char.val ≤ 122 then char.val - 32 else char.val := by
  unfold Char.toUpper
  by_cases isLower : 'a'.val ≤ char.val ∧ char.val ≤ 'z'.val
  · rw [dif_pos isLower]
    have step : char.val + ('A'.val - 'a'.val) = char.val - 32 := by
      have offset : 'A'.val - 'a'.val = (0 : UInt32) - 32 := by decide
      rw [offset]
      grind
    exact step.trans (if_pos isLower).symm
  · rw [dif_neg isLower]
    exact (if_neg isLower).symm

theorem upper_lower (text : Text) : upper (lower text) = upper text := by
  rw [upper, lower, List.map_map]
  refine List.map_congr_left fun char _ => ?_
  apply Char.ext
  rw [Function.comp_apply, toUpper_val, toUpper_val, toLower_val]
  grind

theorem lower_lower (text : Text) : lower (lower text) = lower text := by
  rw [lower, lower, List.map_map]
  refine List.map_congr_left fun char _ => ?_
  apply Char.ext
  rw [Function.comp_apply, toLower_val, toLower_val]
  grind

theorem lower_drop (text : Text) (count : Nat) : lower (text.drop count) = (lower text).drop count :=
  List.map_drop

/-- No letter is lowered to a line feed. -/
theorem newline_not_mem_lower {text : Text} (absent : '\n' ∉ text) : '\n' ∉ lower text := by
  intro member
  obtain ⟨char, inText, lowered⟩ := List.mem_map.mp member
  have same : char = '\n' := by
    apply Char.ext
    have value := congrArg Char.val lowered
    have feed : '\n'.val = 10 := rfl
    rw [toLower_val] at value
    grind
  exact absent (same ▸ inText)

/-! ### Trimming -/

/-- The characters with the Unicode property `White_Space`. -/
def isWhitespace (char : Char) : Bool :=
  let code := char.toNat
  (9 ≤ code && code ≤ 13) || code == 0x20 || code == 0x85 || code == 0xA0 || code == 0x1680 ||
    (0x2000 ≤ code && code ≤ 0x200A) || code == 0x2028 || code == 0x2029 || code == 0x202F ||
    code == 0x205F || code == 0x3000

def trimStart (text : Text) : Text := text.dropWhile isWhitespace

def trimEnd (text : Text) : Text := text.rdropWhile isWhitespace

def trim (text : Text) : Text := trimEnd (trimStart text)

theorem mem_trimStart {char : Char} {text : Text} (member : char ∈ trimStart text) : char ∈ text :=
  (List.dropWhile_sublist _).mem member

theorem mem_trim {char : Char} {text : Text} (member : char ∈ trim text) : char ∈ text :=
  mem_trimStart ((List.rdropWhile_prefix _ _).sublist.mem member)

/-- A trimmed text has nothing left to trim. -/
theorem trim_trim (text : Text) : trim (trim text) = trim text := by
  have start : trimStart (trim text) = trim text := by
    unfold trim trimEnd trimStart
    cases shape : (text.dropWhile isWhitespace).rdropWhile isWhitespace with
    | nil => rfl
    | cons char rest =>
      -- the first character is the one that stopped the trimming of the start
      obtain ⟨stop, split⟩ : char :: rest <+: text.dropWhile isWhitespace :=
        shape ▸ List.rdropWhile_prefix isWhitespace _
      have again := List.dropWhile_idempotent isWhitespace text
      rw [← split, List.cons_append, List.dropWhile_cons] at again
      split at again
      · have shorter := congrArg List.length again
        have dropped := (List.dropWhile_suffix (l := rest ++ stop) isWhitespace).length_le
        rw [List.length_cons] at shorter
        omega
      · rename_i stays
        rw [List.dropWhile_cons, if_neg stays]
  rw [trim, start]
  exact List.rdropWhile_idempotent isWhitespace _

/-! ### Searching -/

/-- The text in front of and behind the first occurrence of a character. -/
def splitOnce (separator : Char) : Text → Option (Text × Text)
  | [] => none
  | char :: rest =>
    if char = separator then some ([], rest)
    else (splitOnce separator rest).map fun (before, after) => (char :: before, after)

/-- The text in front of and behind the last occurrence of a character. -/
def rsplitOnce (separator : Char) (text : Text) : Option (Text × Text) :=
  (splitOnce separator text.reverse).map fun (after, before) => (before.reverse, after.reverse)

/-- The text in front of and behind the first occurrence of a pattern. -/
def findText (pattern : Text) : Text → Option (Text × Text)
  | [] => if pattern = [] then some ([], []) else none
  | char :: rest =>
    if pattern.isPrefixOf (char :: rest) then some ([], (char :: rest).drop pattern.length)
    else (findText pattern rest).map fun (before, after) => (char :: before, after)

/-- The text behind a pattern it starts with. -/
def stripPrefix (pattern text : Text) : Option Text :=
  if pattern.isPrefixOf text then some (text.drop pattern.length) else none

theorem stripPrefix_eq_some {pattern text rest : Text} :
    stripPrefix pattern text = some rest ↔ text = pattern ++ rest := by
  unfold stripPrefix
  split
  · rename_i start
    rw [List.isPrefixOf_iff_prefix, List.prefix_iff_eq_append] at start
    rw [Option.some.injEq]
    constructor
    · rintro rfl
      exact start.symm
    · rintro rfl
      exact List.drop_left
  · rename_i other
    refine ⟨fun none => absurd none.symm (Option.some_ne_none rest), ?_⟩
    rintro rfl
    exact absurd (List.isPrefixOf_iff_prefix.mpr (List.prefix_append _ _)) other

theorem splitOnce_eq_some {separator : Char} {text before after : Text}
    (found : splitOnce separator text = some (before, after)) :
    text = before ++ separator :: after ∧ separator ∉ before := by
  induction text generalizing before with
  | nil => cases found
  | cons char rest ih =>
    rw [splitOnce] at found
    split at found
    · rename_i here
      simp only [Option.some.injEq, Prod.mk.injEq] at found
      obtain ⟨rfl, rfl⟩ := found
      exact ⟨by rw [here, List.nil_append], List.not_mem_nil⟩
    · rename_i other
      obtain ⟨⟨start, stop⟩, inRest, same⟩ := Option.map_eq_some_iff.mp found
      simp only [Prod.mk.injEq] at same
      obtain ⟨rfl, rfl⟩ := same
      obtain ⟨rfl, absent⟩ := ih inRest
      exact ⟨rfl, by simp [absent, Ne.symm other]⟩

theorem splitOnce_append {separator : Char} {before : Text} (absent : separator ∉ before)
    (after : Text) :
    splitOnce separator (before ++ separator :: after) = some (before, after) := by
  induction before with
  | nil => exact if_pos rfl
  | cons char rest ih =>
    have other : char ≠ separator := fun same => absent (same ▸ List.mem_cons_self)
    rw [List.cons_append, splitOnce, if_neg other, ih fun member => absent (List.mem_cons_of_mem _ member)]
    rfl

/-- The characters of a part are characters of the text. -/
theorem mem_of_mem_splitOn {separator char : Char} {text part : Text}
    (member : part ∈ text.splitOn separator) (inPart : char ∈ part) : char ∈ text := by
  rw [List.splitOn_eq_splitOnP] at member
  induction text generalizing part with
  | nil =>
    rw [List.splitOnP_nil, List.mem_singleton] at member
    rwa [member] at inPart
  | cons head rest ih =>
    rw [List.splitOnP_cons_eq_if_modifyHead] at member
    split at member
    · rcases List.mem_cons.mp member with rfl | inRest
      · cases inPart
      · exact List.mem_cons_of_mem _ (ih inRest inPart)
    · obtain ⟨first, others, shape⟩ := List.exists_cons_of_ne_nil (List.splitOnP_ne_nil _ rest)
      rw [shape, List.modifyHead_cons] at member
      rcases List.mem_cons.mp member with rfl | inRest
      · rcases List.mem_cons.mp inPart with rfl | inFirst
        · exact List.mem_cons_self
        · exact List.mem_cons_of_mem _ (ih (by rw [shape]; exact List.mem_cons_self) inFirst)
      · exact List.mem_cons_of_mem _
          (ih (by rw [shape]; exact List.mem_cons_of_mem _ inRest) inPart)

/-! ### Lines -/

/-- Put a character in front of the first part. -/
def consHead (char : Char) : List Text → List Text
  | [] => [[char]]
  | first :: rest => (char :: first) :: rest

/-- The lines of a text: a line feed ends a line and takes one carriage return with it. -/
def lines : Text → List Text
  | [] => []
  | '\r' :: '\n' :: rest => [] :: lines rest
  | '\n' :: rest => [] :: lines rest
  | char :: rest => consHead char (lines rest)

theorem consHead_ne_nil (char : Char) (parts : List Text) : consHead char parts ≠ [] := by
  cases parts <;> exact List.cons_ne_nil _ _

theorem mem_consHead {char : Char} {parts : List Text} {line : Text}
    (member : line ∈ consHead char parts) :
    line ∈ parts ∨ ∃ rest, line = char :: rest ∧ (rest = [] ∨ rest ∈ parts) := by
  cases parts with
  | nil => exact Or.inr ⟨[], List.mem_singleton.mp member, Or.inl rfl⟩
  | cons first rest =>
    rcases List.mem_cons.mp member with rfl | inRest
    · exact Or.inr ⟨first, rfl, Or.inr List.mem_cons_self⟩
    · exact Or.inl (List.mem_cons_of_mem _ inRest)

theorem lines_pair (rest : Text) : lines ('\r' :: '\n' :: rest) = [] :: lines rest := rfl

theorem lines_newline (rest : Text) : lines ('\n' :: rest) = [] :: lines rest := rfl

theorem lines_char {char : Char} {text : Text} (notFeed : char ≠ '\n')
    (notPair : char = '\r' → text.head? ≠ some '\n') : lines (char :: text) = consHead char (lines text) := by
  rw [lines]
  · rintro rest isReturn rfl
    exact notPair isReturn rfl
  · exact notFeed

/-- **Induction on the lines of a text**: a pair, a line feed or another character is in front. -/
theorem lines_induction {P : Text → Prop} (nil : P []) (pair : ∀ rest, P rest → P ('\r' :: '\n' :: rest))
    (feed : ∀ rest, P rest → P ('\n' :: rest))
    (other : ∀ char rest, char ≠ '\n' → (char = '\r' → rest.head? ≠ some '\n') → P rest → P (char :: rest))
    (text : Text) : P text := by
  induction text using lines.induct with
  | case1 => exact nil
  | case2 rest ih => exact pair rest ih
  | case3 rest ih => exact feed rest ih
  | case4 char rest notPair notFeed ih =>
    refine other char rest notFeed (fun isReturn here => ?_) ih
    obtain ⟨after, rfl⟩ := List.head?_eq_some_iff.mp here
    exact notPair after isReturn rfl

/-- No line holds a line feed. -/
theorem newline_not_mem_lines {text line : Text} (member : line ∈ lines text) : '\n' ∉ line := by
  induction text using lines_induction generalizing line with
  | nil => cases member
  | pair rest ih =>
    rw [lines_pair] at member
    rcases List.mem_cons.mp member with rfl | inRest
    · exact List.not_mem_nil
    · exact ih inRest
  | feed rest ih =>
    rw [lines_newline] at member
    rcases List.mem_cons.mp member with rfl | inRest
    · exact List.not_mem_nil
    · exact ih inRest
  | other char rest notFeed notPair ih =>
    rw [lines_char notFeed notPair] at member
    rcases mem_consHead member with inRest | ⟨start, rfl, rfl | inRest⟩
    · exact ih inRest
    · simpa using Ne.symm notFeed
    · simpa [Ne.symm notFeed] using ih inRest

theorem lines_ne_nil {text : Text} (nonempty : text ≠ []) : lines text ≠ [] := by
  induction text using lines_induction with
  | nil => exact absurd rfl nonempty
  | pair rest _ => exact List.cons_ne_nil _ _
  | feed rest _ => exact List.cons_ne_nil _ _
  | other char rest notFeed notPair _ =>
    rw [lines_char notFeed notPair]
    exact consHead_ne_nil _ _

/-- A text that ends in a line feed, and what follows it, have lines of their own. -/
theorem lines_append (before after : Text) :
    lines (before ++ '\n' :: after) = lines (before ++ ['\n']) ++ lines after := by
  induction before using lines_induction with
  | nil => rfl
  | pair rest ih => simp only [List.cons_append, lines_pair, ih]
  | feed rest ih => simp only [List.cons_append, lines_newline, ih]
  | other char rest notFeed notPair ih =>
    by_cases pair : char = '\r' ∧ rest = []
    · -- the carriage return goes with the line feed behind it
      obtain ⟨rfl, rfl⟩ := pair
      rfl
    · have apart : ∀ tail, char = '\r' → (rest ++ '\n' :: tail).head? ≠ some '\n' := by
        intro tail isReturn
        cases rest with
        | nil => exact absurd ⟨isReturn, rfl⟩ pair
        | cons next rest => exact notPair isReturn
      obtain ⟨first, others, shape⟩ :=
        List.exists_cons_of_ne_nil (lines_ne_nil (List.append_ne_nil_of_right_ne_nil rest (List.cons_ne_nil '\n' [])))
      rw [List.cons_append, List.cons_append, lines_char notFeed (apart after), lines_char notFeed (apart []),
        ih, shape]
      rfl

/-- A line that is ended by a pair. -/
theorem lines_crlf {line : Text} (clean : '\n' ∉ line) (rest : Text) :
    lines (line ++ '\r' :: '\n' :: rest) = line :: lines rest := by
  induction line with
  | nil => rfl
  | cons char line ih =>
    simp only [List.mem_cons, not_or] at clean
    rw [List.cons_append, lines_char (Ne.symm clean.1), ih clean.2]
    · rfl
    · intro _ feed
      cases line with
      | nil => simp at feed
      | cons next line => exact clean.2 (Option.some.inj feed ▸ List.mem_cons_self)

/-- **Lines without line feeds** are the lines of the text they make. -/
theorem lines_flatMap_crlf {parts : List Text} (clean : ∀ line ∈ parts, '\n' ∉ line) :
    lines (parts.flatMap fun line => line ++ ['\r', '\n']) = parts := by
  induction parts with
  | nil => rfl
  | cons line rest ih =>
    rw [List.flatMap_cons, List.append_assoc]
    refine (lines_crlf (clean line List.mem_cons_self) _).trans (congrArg (line :: ·) ?_)
    exact ih fun other member => clean other (List.mem_cons_of_mem _ member)

/-- A line in front of the first line feed. -/
theorem lines_cons {start : Text} (plain : ∀ char ∈ start, char ≠ '\n' ∧ char ≠ '\r') {text first : Text}
    {rest : List Text} (shape : lines text = first :: rest) :
    lines (start ++ text) = (start ++ first) :: rest := by
  induction start with
  | nil => exact shape
  | cons char start ih =>
    have split := ih fun other member => plain other (List.mem_cons_of_mem _ member)
    obtain ⟨notFeed, notReturn⟩ := plain char List.mem_cons_self
    rw [List.cons_append, lines_char notFeed fun isReturn => absurd isReturn notReturn, split]
    rfl

/-! ### Parts between line ends -/

/-- The parts of a text between the pairs of carriage return and line feed. -/
def splitCrlf : Text → List Text
  | [] => [[]]
  | '\r' :: '\n' :: rest => [] :: splitCrlf rest
  | char :: rest => consHead char (splitCrlf rest)

/-- The parts with the pair between them. -/
def joinCrlf : List Text → Text
  | [] => []
  | [line] => line
  | line :: rest => line ++ '\r' :: '\n' :: joinCrlf rest

theorem splitCrlf_pair (rest : Text) : splitCrlf ('\r' :: '\n' :: rest) = [] :: splitCrlf rest := rfl

theorem splitCrlf_cons {char : Char} {rest : Text} (notPair : ¬ (char = '\r' ∧ rest.head? = some '\n')) :
    splitCrlf (char :: rest) = consHead char (splitCrlf rest) := by
  rw [splitCrlf]
  rintro after rfl rfl
  exact notPair ⟨rfl, rfl⟩

/-- **Induction on the parts of a text**: a pair or another character is in front. -/
theorem splitCrlf_induction {P : Text → Prop} (nil : P [])
    (pair : ∀ rest, P rest → P ('\r' :: '\n' :: rest))
    (other : ∀ char rest, ¬ (char = '\r' ∧ rest.head? = some '\n') → P rest → P (char :: rest))
    (text : Text) : P text := by
  induction text using splitCrlf.induct with
  | case1 => exact nil
  | case2 rest ih => exact pair rest ih
  | case3 char rest notPair ih =>
    refine other char rest (fun both => ?_) ih
    obtain ⟨after, rfl⟩ := List.head?_eq_some_iff.mp both.2
    exact notPair after both.1 rfl

theorem splitCrlf_ne_nil (text : Text) : splitCrlf text ≠ [] := by
  induction text using splitCrlf_induction with
  | nil => exact List.cons_ne_nil _ _
  | pair rest _ => exact List.cons_ne_nil _ _
  | other char rest notPair _ =>
    rw [splitCrlf_cons notPair]
    exact consHead_ne_nil _ _

theorem joinCrlf_cons (line : Text) {parts : List Text} (nonempty : parts ≠ []) :
    joinCrlf (line :: parts) = line ++ '\r' :: '\n' :: joinCrlf parts := by
  obtain ⟨first, rest, rfl⟩ := List.exists_cons_of_ne_nil nonempty
  rfl

theorem joinCrlf_consHead (char : Char) {parts : List Text} (nonempty : parts ≠ []) :
    joinCrlf (consHead char parts) = char :: joinCrlf parts := by
  obtain ⟨first, rest, rfl⟩ := List.exists_cons_of_ne_nil nonempty
  cases rest <;> rfl

/-- **A text is the join of its parts.** -/
theorem joinCrlf_splitCrlf (text : Text) : joinCrlf (splitCrlf text) = text := by
  induction text using splitCrlf_induction with
  | nil => rfl
  | pair rest ih =>
    rw [splitCrlf_pair, joinCrlf_cons [] (splitCrlf_ne_nil rest), ih]
    rfl
  | other char rest notPair ih =>
    rw [splitCrlf_cons notPair, joinCrlf_consHead char (splitCrlf_ne_nil rest), ih]

/-- The text has no pair in it: it is its own only part. -/
def CrlfFree (line : Text) : Prop := splitCrlf line = [line]

theorem consHead_eq_singleton {char : Char} {parts : List Text} {line : Text} (nonempty : parts ≠ []) :
    consHead char parts = [char :: line] ↔ parts = [line] := by
  obtain ⟨first, rest, rfl⟩ := List.exists_cons_of_ne_nil nonempty
  simp [consHead]

/-- A part ends at the first pair. -/
theorem splitCrlf_append {line : Text} (free : CrlfFree line) (rest : Text) :
    splitCrlf (line ++ '\r' :: '\n' :: rest) = line :: splitCrlf rest := by
  induction line with
  | nil => rfl
  | cons char line ih =>
    have notPair : ¬ (char = '\r' ∧ line.head? = some '\n') := by
      rintro ⟨rfl, here⟩
      obtain ⟨after, rfl⟩ := List.head?_eq_some_iff.mp here
      rw [CrlfFree, splitCrlf_pair] at free
      simp at free
    rw [CrlfFree, splitCrlf_cons notPair, consHead_eq_singleton (splitCrlf_ne_nil _)] at free
    rw [List.cons_append, splitCrlf_cons, ih free]
    · rfl
    · rintro ⟨rfl, here⟩
      cases line with
      | nil => simp at here
      | cons next others => exact notPair ⟨rfl, here⟩

/-- **Parts without the pair are the split of their join.** -/
theorem splitCrlf_joinCrlf {parts : List Text} (nonempty : parts ≠ [])
    (free : ∀ line ∈ parts, CrlfFree line) : splitCrlf (joinCrlf parts) = parts := by
  induction parts with
  | nil => exact absurd rfl nonempty
  | cons line rest ih =>
    cases rest with
    | nil => exact free line List.mem_cons_self
    | cons next others =>
      rw [joinCrlf_cons line (List.cons_ne_nil next others), splitCrlf_append (free line List.mem_cons_self),
        ih (List.cons_ne_nil _ _) fun part member => free part (List.mem_cons_of_mem _ member)]

/-- Every part of a split is free of the pair. -/
theorem crlfFree_of_mem {text line : Text} (member : line ∈ splitCrlf text) : CrlfFree line := by
  induction text using splitCrlf_induction generalizing line with
  | nil =>
    obtain rfl := List.mem_singleton.mp member
    rfl
  | pair rest ih =>
    rw [splitCrlf_pair] at member
    rcases List.mem_cons.mp member with rfl | inRest
    · rfl
    · exact ih inRest
  | other char rest notPair ih =>
    rw [splitCrlf_cons notPair] at member
    obtain ⟨first, others, shape⟩ := List.exists_cons_of_ne_nil (splitCrlf_ne_nil rest)
    rw [shape] at member
    rcases List.mem_cons.mp member with rfl | inRest
    · have free : CrlfFree first := ih (by rw [shape]; exact List.mem_cons_self)
      rw [CrlfFree, splitCrlf_cons, free]
      · rfl
      · rintro ⟨isReturn, here⟩
        -- the first part of the rest starts as the rest does
        obtain ⟨after, rfl⟩ := List.head?_eq_some_iff.mp here
        have joined := joinCrlf_splitCrlf rest
        rw [shape] at joined
        refine notPair ⟨isReturn, ?_⟩
        rw [← joined]
        cases others <;> rfl
    · exact ih (by rw [shape]; exact List.mem_cons_of_mem _ inRest)

/-- A text without line feeds is free of the pair. -/
theorem crlfFree_of_newline {line : Text} (absent : '\n' ∉ line) : CrlfFree line := by
  induction line with
  | nil => rfl
  | cons char rest ih =>
    simp only [List.mem_cons, not_or] at absent
    rw [CrlfFree, splitCrlf_cons, ih absent.2]
    · rfl
    · rintro ⟨_, here⟩
      exact absent.2 (List.mem_of_mem_head? here)

end Bootsmith.Library
