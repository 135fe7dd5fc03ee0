/-
**Writing `txtsetup.oem` back** (`ntxp_txtsetup.rs`): `emit`, and what `parse` makes of its output.

`emit` leaves out the header of a section with the reserved name, so the lines of such a section are read
as a part of the section in front of it, or as stray lines when there is none.

* `parse_wellFormed`: the sections of a text have the shape of sections;
* `parse_emit`: the sections that are written are read back up to `rejoin`;
* `parse_emit_iff`: when the sections of a text are read back as they were.

An error names the line it was found at, so the theorems about the loop hold for every line number.
-/

import Bootsmith.Driver.Txtsetup

namespace Bootsmith.Driver

open Bootsmith.Library

/-! ### The function -/

def emitLine (line : Text) : Text := line ++ ['\r', '\n']

def emitSection (sec : Section) : Text :=
  if sec.name = preamble then sec.lines.flatMap emitLine
  else emitLine ('[' :: sec.name ++ [']']) ++ sec.lines.flatMap emitLine

def emit (sections : List Section) : Text := sections.flatMap emitSection

/-- The lines that `emit` writes for a section. -/
def emitted (sec : Section) : List Text :=
  if sec.name = preamble then sec.lines else ('[' :: sec.name ++ [']']) :: sec.lines

theorem emit_eq (sections : List Section) :
    emit sections = (sections.flatMap emitted).flatMap emitLine := by
  rw [List.flatMap_assoc, emit]
  congr 1
  funext sec
  rw [emitSection, emitted]
  split <;> rfl

/-! ### The shape of sections -/

/-- A line that opens a section. -/
def isHeader (raw : Text) : Bool := (trimStart raw).head? == some '['

/-- A line that is left out in front of the first section: it is blank or a comment. -/
def isSkipped (raw : Text) : Bool := trimStart raw == [] || (trimStart raw).head? == some ';'

/-- The name in a header line. -/
def headerName (raw : Text) : Option Text :=
  if isHeader raw then (splitOnce ']' (trimStart raw)).map fun (before, _) => trim (before.drop 1) else none

/-- The name is one that a header can hold, and no line is a header. -/
structure Section.WellFormed (sec : Section) : Prop where
  nonempty : sec.name ≠ []
  trimmed : trim sec.name = sec.name
  closed : ']' ∉ sec.name
  oneLine : '\n' ∉ sec.name
  body : ∀ line ∈ sec.lines, isHeader line = false ∧ '\n' ∉ line

theorem isHeader_eq_false {raw : Text} : isHeader raw = false ↔ (trimStart raw).head? ≠ some '[' := by
  rw [isHeader, beq_eq_false_iff_ne]

/-- **One line of the parser**: a header opens a section, another line goes to the open section or is
stray. -/
theorem parseFrom_cons {lineno : Nat} {current : Option Section} {raw : Text} {rest : List Text}
    {sections : List Section} (read : parseFrom lineno current (raw :: rest) = .ok sections) :
    (∃ name others, headerName raw = some name ∧ name ≠ [] ∧
      parseFrom (lineno + 1) (some ⟨name, []⟩) rest = .ok others ∧ sections = current.toList ++ others) ∨
    (headerName raw = none ∧ isHeader raw = false ∧
      ((∃ sec, current = some sec ∧
        parseFrom (lineno + 1) (some { sec with lines := sec.lines ++ [raw] }) rest = .ok sections) ∨
      (current = none ∧ isSkipped raw = false ∧
        parseFrom (lineno + 1) (some ⟨preamble, [raw]⟩) rest = .ok sections) ∨
      (current = none ∧ isSkipped raw = true ∧ parseFrom (lineno + 1) none rest = .ok sections))) := by
  unfold parseFrom at read
  simp only at read
  split at read
  · rename_i header
    have opens : isHeader raw = true := beq_iff_eq.mpr header
    split at read
    · simp at read
    · rename_i before _ closing
      split at read
      · simp at read
      · rename_i nonempty
        obtain ⟨others, readRest, same⟩ := (Fallible.bind_eq_ok _ _ _).mp read
        refine Or.inl ⟨_, others, ?_, nonempty, readRest, ((Fallible.pure_eq_ok _ _).mp same).symm⟩
        rw [headerName, if_pos opens, closing]
        rfl
  · rename_i plain
    have stays := isHeader_eq_false.mpr plain
    refine Or.inr ⟨by rw [headerName, stays]; rfl, stays, ?_⟩
    cases current with
    | some sec => exact Or.inl ⟨sec, rfl, read⟩
    | none =>
      simp only at read
      split at read
      · rename_i stray
        refine Or.inr (Or.inl ⟨rfl, ?_, read⟩)
        rw [isSkipped, Bool.or_eq_false_iff, beq_eq_false_iff_ne, beq_eq_false_iff_ne]
        exact stray
      · rename_i skipped
        refine Or.inr (Or.inr ⟨rfl, ?_, read⟩)
        rw [isSkipped, Bool.or_eq_true, beq_iff_eq, beq_iff_eq]
        by_contra neither
        push Not at neither
        exact skipped neither

/-- The name in a header line can stand in a header. -/
theorem headerName_wellFormed {raw name : Text} (found : headerName raw = some name)
    (nonempty : name ≠ [])
    (clean : '\n' ∉ raw) : Section.WellFormed ⟨name, []⟩ := by
  rw [headerName] at found
  split at found
  · obtain ⟨⟨before, after⟩, split, rfl⟩ := Option.map_eq_some_iff.mp found
    obtain ⟨shape, absent⟩ := splitOnce_eq_some split
    refine ⟨nonempty, trim_trim _, fun inName => absent (List.mem_of_mem_drop (mem_trim inName)),
      fun inName => clean (mem_trimStart ?_), fun line member => absurd member List.not_mem_nil⟩
    rw [shape]
    exact List.mem_append_left _ (List.mem_of_mem_drop (mem_trim inName))
  · cases found

theorem Section.WellFormed.concat {sec : Section} (wellFormed : sec.WellFormed) {raw : Text}
    (plain : isHeader raw = false) (clean : '\n' ∉ raw) :
    Section.WellFormed { sec with lines := sec.lines ++ [raw] } := by
  refine ⟨wellFormed.nonempty, wellFormed.trimmed, wellFormed.closed, wellFormed.oneLine, fun line member => ?_⟩
  rcases List.mem_append.mp member with old | new
  · exact wellFormed.body line old
  · rw [List.mem_singleton.mp new]
    exact ⟨plain, clean⟩

theorem preamble_wellFormed : Section.WellFormed ⟨preamble, []⟩ :=
  ⟨by decide, by decide, by decide, by decide, fun _ member => absurd member List.not_mem_nil⟩

theorem parseFrom_wellFormed {lineno : Nat} {current : Option Section} {raws : List Text}
    {sections : List Section} (read : parseFrom lineno current raws = .ok sections)
    (inCurrent : ∀ sec ∈ current, sec.WellFormed) (clean : ∀ raw ∈ raws, '\n' ∉ raw) :
    ∀ sec ∈ sections, sec.WellFormed := by
  induction raws generalizing lineno current sections with
  | nil =>
    obtain rfl := Except.ok.inj read
    exact fun sec member => inCurrent sec (Option.mem_toList.mp member)
  | cons raw rest ih =>
    have here := clean raw List.mem_cons_self
    have later : ∀ other ∈ rest, '\n' ∉ other := fun other member => clean other (List.mem_cons_of_mem _ member)
    rcases parseFrom_cons read with ⟨name, others, header, nonempty, readRest, rfl⟩ | ⟨_, plain, step⟩
    · intro sec member
      rcases List.mem_append.mp member with first | inOthers
      · exact inCurrent sec (Option.mem_toList.mp first)
      · refine ih readRest ?_ later sec inOthers
        rintro _ ⟨⟩
        exact headerName_wellFormed header nonempty here
    · rcases step with ⟨sec, rfl, readRest⟩ | ⟨rfl, _, readRest⟩ | ⟨rfl, _, readRest⟩
      · refine ih readRest ?_ later
        rintro _ ⟨⟩
        exact (inCurrent sec rfl).concat plain here
      · refine ih readRest ?_ later
        rintro _ ⟨⟩
        exact preamble_wellFormed.concat plain here
      · exact ih readRest (by simp) later

theorem parse_wellFormed {text : Text} {sections : List Section} (parsed : parse text = .ok sections) :
    ∀ sec ∈ sections, sec.WellFormed :=
  parseFrom_wellFormed parsed (by simp) fun _ member => newline_not_mem_lines member

/-! ### Reading the output -/

/-- The open section after some lines that are not headers. -/
def absorb (current : Option Section) (body : List Text) : Option Section :=
  match current with
  | some before => some { before with lines := before.lines ++ body }
  | none =>
    match body.dropWhile isSkipped with
    | [] => none
    | stray => some ⟨preamble, stray⟩

/-- The sections that are read from what is written for the listed ones, in the section `current`. -/
def rejoinFrom : Option Section → List Section → List Section
  | current, [] => current.toList
  | current, sec :: rest =>
    -- no header is written for the reserved name
    if sec.name = preamble then rejoinFrom (absorb current sec.lines) rest
    else current.toList ++ rejoinFrom (some sec) rest

/-- The sections that are read from what `emit` writes. -/
def rejoin (sections : List Section) : List Section := rejoinFrom none sections

theorem absorb_cons (current : Option Section) (line : Text) (body : List Text) :
    absorb current (line :: body) = absorb (absorb current [line]) body := by
  cases current with
  | some before =>
    rw [absorb, absorb, absorb, List.append_assoc]
    rfl
  | none =>
    unfold absorb
    rw [List.dropWhile_cons, List.dropWhile_cons]
    cases isSkipped line <;> rfl

theorem absorb_nil (current : Option Section) : absorb current [] = current := by
  cases current with
  | some before => rw [absorb, List.append_nil]
  | none => rfl

/-- Lines that are not headers go to the open section. -/
theorem parseFrom_body {body : List Text} (plain : ∀ line ∈ body, isHeader line = false) (lineno : Nat)
    (current : Option Section) (rest : List Text) :
    parseFrom lineno current (body ++ rest) = parseFrom (lineno + body.length) (absorb current body) rest := by
  induction body generalizing lineno current with
  | nil => rw [absorb_nil]; rfl
  | cons line body ih =>
    have stays := isHeader_eq_false.mp (plain line List.mem_cons_self)
    have one : parseFrom lineno current (line :: (body ++ rest))
        = parseFrom (lineno + 1) (absorb current [line]) (body ++ rest) := by
      conv_lhs => unfold parseFrom
      simp only
      rw [if_neg stays]
      cases current with
      | some before => rfl
      | none =>
        rw [absorb, List.dropWhile_cons]
        simp only
        cases skips : isSkipped line with
        | true =>
          rw [isSkipped, Bool.or_eq_true, beq_iff_eq, beq_iff_eq] at skips
          exact if_neg fun stray => skips.elim stray.1 stray.2
        | false =>
          rw [isSkipped, Bool.or_eq_false_iff, beq_eq_false_iff_ne, beq_eq_false_iff_ne] at skips
          exact if_pos skips
    rw [List.cons_append, one, ih fun other member => plain other (List.mem_cons_of_mem _ member),
      absorb_cons current line body, List.length_cons, Nat.add_right_comm, Nat.add_assoc]

/-- A written header is read back. -/
theorem parseFrom_header {sec : Section} (wellFormed : sec.WellFormed) (lineno : Nat)
    (current : Option Section)
    (rest : List Text) :
    parseFrom lineno current (('[' :: sec.name ++ [']']) :: rest)
      = (parseFrom (lineno + 1) (some ⟨sec.name, []⟩) rest >>= fun sections =>
          pure (current.toList ++ sections)) := by
  have untrimmed : trimStart ('[' :: sec.name ++ [']']) = '[' :: sec.name ++ [']'] := rfl
  have closing : splitOnce ']' ('[' :: sec.name ++ [']']) = some ('[' :: sec.name, []) := by
    refine splitOnce_append (fun member => ?_) []
    rcases List.mem_cons.mp member with bracket | inName
    · exact absurd bracket (by decide)
    · exact wellFormed.closed inName
  conv_lhs => unfold parseFrom
  rw [untrimmed]
  simp only
  have bracket : ('[' :: sec.name ++ [']']).head? = some '[' := rfl
  rw [if_pos bracket, closing]
  simp only [List.drop_one, List.tail_cons]
  rw [if_neg (by rw [wellFormed.trimmed]; exact wellFormed.nonempty), wellFormed.trimmed]

/-- **What is written is read back up to `rejoin`**, by induction on the sections that are left. -/
theorem parseFrom_emitted {sections : List Section} (wellFormed : ∀ sec ∈ sections, sec.WellFormed)
    (lineno : Nat) (current : Option Section) :
    parseFrom lineno current (sections.flatMap emitted) = .ok (rejoinFrom current sections) := by
  induction sections generalizing lineno current with
  | nil => rfl
  | cons sec rest ih =>
    have here := wellFormed sec List.mem_cons_self
    have plain : ∀ line ∈ sec.lines, isHeader line = false := fun line member => (here.body line member).1
    have later := ih fun other member => wellFormed other (List.mem_cons_of_mem _ member)
    rw [List.flatMap_cons, emitted, rejoinFrom]
    split
    · rw [parseFrom_body plain, later]
    · rw [List.cons_append, parseFrom_header here, parseFrom_body plain, later]
      rfl

theorem parse_emit {sections : List Section} (wellFormed : ∀ sec ∈ sections, sec.WellFormed) :
    parse (emit sections) = .ok (rejoin sections) := by
  have clean : ∀ line ∈ sections.flatMap emitted, '\n' ∉ line := by
    intro line member
    obtain ⟨sec, inSections, inSec⟩ := List.mem_flatMap.mp member
    have here := wellFormed sec inSections
    have body : line ∈ sec.lines → '\n' ∉ line := fun inLines => (here.body line inLines).2
    rw [emitted] at inSec
    split at inSec
    · exact body inSec
    · rcases List.mem_cons.mp inSec with rfl | inLines
      · simpa using here.oneLine
      · exact body inLines
  have split : lines (emit sections) = sections.flatMap emitted :=
    (congrArg lines (emit_eq sections)).trans (lines_flatMap_crlf clean)
  rw [parse, split]
  exact parseFrom_emitted wellFormed 0 none

/-! ### Sections that are read back as they were -/

/-- The sections that keep their headers are read back. -/
theorem rejoinFrom_of_named {sections : List Section} (named : ∀ sec ∈ sections, sec.name ≠ preamble)
    (before : Section) : rejoinFrom (some before) sections = before :: sections := by
  induction sections generalizing before with
  | nil => rfl
  | cons sec rest ih =>
    rw [rejoinFrom, if_neg (named sec List.mem_cons_self),
      ih fun other member => named other (List.mem_cons_of_mem _ member)]
    rfl

/-- A section stays for each header that is written. -/
theorem rejoinFrom_length (before : Section) (sections : List Section) :
    (rejoinFrom (some before) sections).length
      = (sections.filter fun sec => sec.name ≠ preamble).length + 1 := by
  induction sections generalizing before with
  | nil => rfl
  | cons sec rest ih =>
    rw [rejoinFrom, List.filter_cons]
    split
    · rename_i reserved
      rw [absorb, ih, if_neg (by simpa using reserved)]
    · rename_i named
      rw [List.length_append, ih, if_pos (by simpa using named), List.length_cons, Option.toList_some,
        List.length_singleton, Nat.add_comm]

/-- The sections behind an open one are kept exactly when their headers are. -/
theorem rejoinFrom_some_iff {before first : Section} {sections : List Section} :
    rejoinFrom (some before) sections = first :: sections ↔
      before = first ∧ ∀ sec ∈ sections, sec.name ≠ preamble := by
  constructor
  · intro same
    have count := congrArg List.length same
    rw [rejoinFrom_length, List.length_cons, Nat.add_right_cancel_iff, List.length_filter_eq_length_iff] at count
    have named : ∀ sec ∈ sections, sec.name ≠ preamble := fun sec member => of_decide_eq_true (count sec member)
    rw [rejoinFrom_of_named named] at same
    exact ⟨(List.cons.inj same).1, named⟩
  · rintro ⟨rfl, named⟩
    exact rejoinFrom_of_named named before

theorem rejoinFrom_length_le (current : Option Section) (sections : List Section) :
    (rejoinFrom current sections).length ≤ current.toList.length + sections.length := by
  induction sections generalizing current with
  | nil => exact le_rfl
  | cons sec rest ih =>
    rw [rejoinFrom, List.length_cons]
    split
    · refine (ih _).trans ?_
      cases current with
      | some before => exact Nat.add_le_add_left (Nat.le_succ _) _
      | none =>
        have small : (absorb none sec.lines).toList.length ≤ 1 := by cases absorb none sec.lines <;> simp
        rw [Option.toList_none, List.length_nil]
        omega
    · rw [List.length_append]
      have later := ih (some sec)
      rw [Option.toList_some, List.length_singleton] at later
      omega

/-- Only the first section may have the reserved name, and it starts with a line that is not skipped. -/
structure KeptByEmit (sections : List Section) : Prop where
  later : ∀ sec ∈ sections.tail, sec.name ≠ preamble
  first : ∀ sec ∈ sections.head?, sec.name = preamble → ∃ line ∈ sec.lines.head?, isSkipped line = false

/-- The lines of a section with the reserved name are read as that section when the first is stray. -/
theorem absorb_none_eq_some_iff {sec : Section} (reserved : sec.name = preamble) :
    absorb none sec.lines = some sec ↔ ∃ line ∈ sec.lines.head?, isSkipped line = false := by
  obtain ⟨name, body⟩ := sec
  obtain rfl : name = preamble := reserved
  unfold absorb
  cases body with
  | nil => simp
  | cons line body =>
    rw [List.dropWhile_cons]
    cases skips : isSkipped line with
    | false => simp [skips]
    | true =>
      have shorter : ∀ stray, body.dropWhile isSkipped = stray → stray ≠ line :: body := by
        rintro _ rfl same
        have dropped := (List.dropWhile_suffix (l := body) isSkipped).length_le
        rw [same, List.length_cons] at dropped
        omega
      simp only [List.head?_cons, Option.mem_def, Option.some.injEq, exists_eq_left', skips, reduceCtorEq,
        iff_false, if_true]
      split
      · exact Option.some_ne_none _ ∘ Eq.symm
      · rename_i shape
        intro same
        exact shorter _ rfl (congrArg Section.lines (Option.some.inj same))

/-- **When writing keeps the sections.** -/
theorem rejoin_eq_self_iff (sections : List Section) :
    rejoin sections = sections ↔ KeptByEmit sections := by
  cases sections with
  | nil => exact ⟨fun _ => ⟨fun _ member => absurd member List.not_mem_nil, by simp⟩, fun _ => rfl⟩
  | cons sec rest =>
    rw [rejoin, rejoinFrom]
    split
    · rename_i reserved
      constructor
      · intro same
        cases reads : absorb none sec.lines with
        | none =>
          -- the section has vanished
          have short := rejoinFrom_length_le none rest
          rw [reads] at same
          rw [same] at short
          simp at short
        | some first =>
          rw [reads] at same
          obtain ⟨rfl, named⟩ := rejoinFrom_some_iff.mp same
          refine ⟨named, fun other isFirst _ => ?_⟩
          obtain rfl := Option.some.inj isFirst
          exact (absorb_none_eq_some_iff reserved).mp reads
      · intro kept
        rw [(absorb_none_eq_some_iff reserved).mpr (kept.first sec rfl reserved)]
        exact rejoinFrom_of_named kept.later sec
    · rename_i named
      refine rejoinFrom_some_iff.trans ⟨fun later => ⟨later.2, fun first isFirst reserved => ?_⟩,
        fun kept => ⟨rfl, kept.later⟩⟩
      obtain rfl := Option.some.inj isFirst
      exact absurd reserved named

/-! ### Texts whose sections are read back -/

/-- What stands behind an open section: the rest of its lines, and the sections of the other headers. -/
theorem parseFrom_some {raws : List Text} {lineno : Nat} {sec : Section} {sections : List Section}
    (read : parseFrom lineno (some sec) raws = .ok sections) :
    ∃ others, sections = ⟨sec.name, sec.lines ++ raws.takeWhile fun raw => !isHeader raw⟩ :: others ∧
      others.map Section.name = raws.filterMap headerName := by
  induction raws generalizing lineno sec sections with
  | nil =>
    obtain rfl := Except.ok.inj read
    exact ⟨[], by rw [List.takeWhile_nil, List.append_nil]; rfl, rfl⟩
  | cons raw rest ih =>
    rcases parseFrom_cons read with ⟨name, sections', header, _, readRest, rfl⟩ | ⟨noName, plain, step⟩
    · have opens : isHeader raw = true := by
        by_contra stays
        rw [headerName, if_neg stays] at header
        cases header
      obtain ⟨others, rfl, names⟩ := ih readRest
      refine ⟨⟨name, [] ++ rest.takeWhile fun raw => !isHeader raw⟩ :: others, ?_, ?_⟩
      · rw [List.takeWhile_cons, opens, Bool.not_true, if_neg Bool.false_ne_true, List.append_nil]
        rfl
      · rw [List.map_cons, names, List.filterMap_cons_some header]
    · rcases step with ⟨_, ⟨⟩, readRest⟩ | ⟨⟨⟩, _⟩ | ⟨⟨⟩, _⟩
      obtain ⟨others, rfl, names⟩ := ih readRest
      refine ⟨others, ?_, by rw [names, List.filterMap_cons_none noName]⟩
      rw [List.takeWhile_cons, plain, Bool.not_false, if_pos rfl, List.append_assoc, List.singleton_append]

/-- The headers of the lines of a text, from its first section on, are written and read back: none but the
first line is a header with the reserved name, and when the first one is, then the next line is neither a
header nor blank nor a comment. -/
def KeepsHeadersFrom : List Text → Prop
  | [] => True
  | first :: rest =>
    (∀ raw ∈ rest, headerName raw ≠ some preamble) ∧
      (headerName first = some preamble →
        ∃ next ∈ rest.head?, isHeader next = false ∧ isSkipped next = false)

instance : (raws : List Text) → Decidable (KeepsHeadersFrom raws)
  | [] => inferInstanceAs (Decidable True)
  | _ :: _ => inferInstanceAs (Decidable (_ ∧ _))

/-- The headers behind the blank lines and comments at the start of a text are written and read back. -/
def KeepsHeaders (text : Text) : Prop := KeepsHeadersFrom ((lines text).dropWhile isSkipped)

instance (text : Text) : Decidable (KeepsHeaders text) := inferInstanceAs (Decidable (KeepsHeadersFrom _))

/-- A text is skipped up to its first section. -/
theorem parseFrom_dropWhile (raws : List Text) {lineno : Nat} {sections : List Section}
    (read : parseFrom lineno none raws = .ok sections) :
    ∃ lineno', parseFrom lineno' none (raws.dropWhile isSkipped) = .ok sections := by
  induction raws generalizing lineno with
  | nil => exact ⟨lineno, read⟩
  | cons raw rest ih =>
    rw [List.dropWhile_cons]
    split
    · rename_i skips
      rcases parseFrom_cons read with ⟨_, _, header, _⟩ | ⟨_, _, step⟩
      · -- a header is neither blank nor a comment
        rw [headerName] at header
        split at header
        · rename_i opens
          rw [isHeader, beq_iff_eq] at opens
          rw [isSkipped, Bool.or_eq_true, beq_iff_eq, beq_iff_eq, opens] at skips
          rcases skips with blank | comment
          · rw [blank] at opens
            cases opens
          · cases comment
        · cases header
      · rcases step with ⟨_, ⟨⟩, _⟩ | ⟨_, stays, _⟩ | ⟨_, _, readRest⟩
        · rw [stays] at skips
          cases skips
        · exact ih readRest
    · exact ⟨lineno, read⟩

/-- The headers of a text and the names of its sections. -/
theorem keptByEmit_iff {text : Text} {sections : List Section} (parsed : parse text = .ok sections) :
    KeptByEmit sections ↔ KeepsHeaders text := by
  obtain ⟨lineno, read⟩ := parseFrom_dropWhile _ parsed
  unfold KeepsHeaders
  cases shape : (lines text).dropWhile isSkipped with
  | nil =>
    rw [shape] at read
    obtain rfl := Except.ok.inj read
    exact ⟨fun _ => trivial, fun _ => ⟨fun _ member => absurd member List.not_mem_nil, by simp⟩⟩
  | cons first rest =>
    rw [shape] at read
    have later : ∀ others : List Section, others.map Section.name = rest.filterMap headerName →
        ((∀ sec ∈ others, sec.name ≠ preamble) ↔ ∀ raw ∈ rest, headerName raw ≠ some preamble) := by
      intro others names
      have listed := List.forall_mem_map (l := others) (f := Section.name) (P := fun name => name ≠ preamble)
      rw [← listed, names]
      simp only [List.mem_filterMap, forall_exists_index, and_imp]
      exact ⟨fun all raw member found => all _ raw member found rfl,
        fun all name raw member found same => all raw member (same ▸ found)⟩
    rcases parseFrom_cons read with ⟨name, sections', header, _, readRest, rfl⟩ | ⟨noName, plain, step⟩
    · obtain ⟨others, rfl, names⟩ := parseFrom_some readRest
      have body : (∃ line ∈ (rest.takeWhile fun raw => !isHeader raw).head?, isSkipped line = false) ↔
          ∃ next ∈ rest.head?, isHeader next = false ∧ isSkipped next = false := by
        rw [List.head?_takeWhile]
        simp only [Option.mem_def, Option.filter_eq_some_iff, Bool.not_eq_true', and_assoc]
      constructor
      · rintro ⟨named, start⟩
        refine ⟨(later others names).mp named, fun reserved => body.mp (start _ rfl ?_)⟩
        exact Option.some.inj (header.symm.trans reserved)
      · rintro ⟨named, start⟩
        refine ⟨(later others names).mpr named, fun sec isFirst reserved => ?_⟩
        obtain rfl := Option.some.inj isFirst
        exact body.mpr (start (header.trans (congrArg some reserved)))
    · have stays : isSkipped first = false := by
        have stop := List.head?_dropWhile_not isSkipped (lines text)
        rw [shape] at stop
        exact stop
      rcases step with ⟨_, ⟨⟩, _⟩ | ⟨_, _, readRest⟩ | ⟨_, skips, _⟩
      · obtain ⟨others, rfl, names⟩ := parseFrom_some readRest
        constructor
        · rintro ⟨named, _⟩
          refine ⟨(later others names).mp named, fun reserved => ?_⟩
          rw [noName] at reserved
          cases reserved
        · rintro ⟨named, _⟩
          refine ⟨(later others names).mpr named, fun sec isFirst _ => ?_⟩
          obtain rfl := Option.some.inj isFirst
          exact ⟨first, rfl, stays⟩
      · rw [stays] at skips
        cases skips

theorem rejoin_eq_self_iff_keepsHeaders {text : Text} {sections : List Section}
    (parsed : parse text = .ok sections) : rejoin sections = sections ↔ KeepsHeaders text :=
  (rejoin_eq_self_iff sections).trans (keptByEmit_iff parsed)

/-- **When a text is read back as it was read**: exactly when its headers are kept. -/
theorem parse_emit_iff {text : Text} {sections : List Section} (parsed : parse text = .ok sections) :
    parse (emit sections) = .ok sections ↔ KeepsHeaders text := by
  rw [parse_emit (parse_wellFormed parsed), Except.ok.injEq]
  exact rejoin_eq_self_iff_keepsHeaders parsed

set_option maxRecDepth 20000 in
/-- A text with a stray line, a comment and a header with blanks is read back. -/
theorem parse_emit_sample : ∃ sections, parse "; a pack\nstray\n [ Disks ]\nd1 = A".toList = .ok sections ∧
    parse (emit sections) = .ok sections := by
  obtain ⟨sections, parsed⟩ := Fallible.exists_ok
    (show (parse "; a pack\nstray\n [ Disks ]\nd1 = A".toList).toOption.isSome by decide)
  exact ⟨sections, parsed, (parse_emit_iff parsed).mpr (by decide)⟩

set_option maxRecDepth 20000 in
/-- **A header with the reserved name is lost**: its line is read as a line of the disks. -/
theorem parse_emit_reserved : ¬ ∀ (text : Text) (sections : List Section), parse text = .ok sections →
    parse (emit sections) = .ok sections := by
  intro claimed
  obtain ⟨sections, parsed⟩ := Fallible.exists_ok
    (show (parse "[Disks]\n[__preamble]\nx = 1\n".toList).toOption.isSome by decide)
  have kept := claimed _ _ parsed
  rw [parse_emit (parse_wellFormed parsed), Except.ok.injEq, rejoin_eq_self_iff_keepsHeaders parsed] at kept
  exact absurd kept (by decide)

end Bootsmith.Driver
