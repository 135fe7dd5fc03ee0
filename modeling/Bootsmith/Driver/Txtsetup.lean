/-
**The parser for `txtsetup.oem`** (`ntxp_txtsetup.rs`): sections, the hardware ids, the referenced
files and the controllers of a driver pack.

A loop that skips a line in several places is written with the line's own reader (`hardwareIdLine`,
`referencedName`, ...), which is `none` for a line the loop skips.

All names read here are parts of lines (`mem_of_hardwareIdLine`, `mem_of_referencedName`,
`mem_of_controllerLine`), and no line holds a line feed (`parse_newline`).
-/

import Bootsmith.Library.Fallible
import Bootsmith.Library.Text

namespace Bootsmith.Driver

open Bootsmith.Library

/-! ### Sections -/

/-- One section: the name in its header and its body, line by line. -/
structure Section where
  name : Text
  lines : List Text
  deriving DecidableEq, Repr

/-- The name of the section that holds what stands before the first header. -/
def preamble : Text := "__preamble".toList

/-- The loop of `parse` from line `lineno` on, in the section `current`. -/
def parseFrom (lineno : Nat) (current : Option Section) : List Text → Fallible (List Section)
  | [] => .ok current.toList
  | raw :: rest =>
    let trimmed := trimStart raw
    if trimmed.head? = some '[' then
      match splitOnce ']' trimmed with
      | none => Fallible.bail s!"unterminated section header at line {lineno}"
      | some (before, _) =>
        let name := trim (before.drop 1)
        if name = [] then Fallible.bail s!"empty section header at line {lineno}"
        else do
          let sections ← parseFrom (lineno + 1) (some ⟨name, []⟩) rest
          pure (current.toList ++ sections)
    else
      match current with
      | some sec => parseFrom (lineno + 1) (some { sec with lines := sec.lines ++ [raw] }) rest
      | none =>
        -- what is neither blank nor a comment is kept in a section of its own
        if trimmed ≠ [] ∧ trimmed.head? ≠ some ';' then
          parseFrom (lineno + 1) (some ⟨preamble, [raw]⟩) rest
        else parseFrom (lineno + 1) none rest

def parse (text : Text) : Fallible (List Section) := parseFrom 0 none (lines text)

def stripComment (line : Text) : Text := line.takeWhile (· != ';')

def stripQuotes (value : Text) : Text :=
  if 2 ≤ value.length ∧ value.head? = some '"' ∧ value.getLast? = some '"' then
    (value.drop 1).dropLast
  else value

/-- The lines of the sections whose name starts with a prefix, up to case. -/
def linesOf (start : String) (sections : List Section) : List Text :=
  (sections.filter fun sec => start.toList.isPrefixOf (lower sec.name)).flatMap Section.lines

/-! ### Hardware ids -/

/-- The text in front of and behind the first comma outside of quotes. -/
def splitComma (quoted : Bool) : Text → Option (Text × Text)
  | [] => none
  | char :: rest =>
    if char = ',' ∧ quoted = false then some ([], rest)
    else
      (splitComma (if char = '"' then !quoted else quoted) rest).map fun (before, after) =>
        (char :: before, after)

/-- The hardware id and the service of a line. -/
def hardwareIdLine (line : Text) : Option (Text × Text) := do
  let (_, rhs) ← splitOnce '=' (stripComment line)
  let (hwidRaw, serviceRaw) ← splitComma false (trim rhs)
  let hwid := stripQuotes (trim hwidRaw)
  let service := stripQuotes (trim serviceRaw)
  if hwid = [] ∨ service = [] then none else some (hwid, service)

/-- One line of the loop: a new id is added, a known one must have the same service. -/
def addHardwareId (out : List (Text × Text)) (line : Text) : Fallible (List (Text × Text)) :=
  match hardwareIdLine line with
  | none => .ok out
  | some (hwid, service) =>
    match out.find? fun entry => eqIgnoreCase entry.1 hwid with
    | some (_, existing) =>
      if eqIgnoreCase existing service then .ok out
      else
        Fallible.bail s!"TXTSETUP.OEM declares hardware id {String.ofList hwid} for two services ({String.ofList existing} vs {String.ofList service})"
    | none => .ok (out ++ [(hwid, service)])

def hardwareIds (text : Text) : Fallible (List (Text × Text)) := do
  let sections ← Fallible.context "parse txtsetup.oem for hardware ids" (parse text)
  (linesOf "hardwareids.scsi." sections).foldlM addHardwareId []

/-! ### Referenced files -/

/-- The file a line refers to: `diskN, filename, [optional service]`. -/
def referencedName (line : Text) : Option Text := do
  let (_, rhs) ← splitOnce '=' (stripComment line)
  let file ← (rhs.splitOn ',')[1]?
  let name := trim file
  if name = [] then none else some name

/-- Add a name that is not in the list up to case. -/
def addName (out : List Text) (name : Text) : List Text :=
  if out.any fun known => eqIgnoreCase known name then out else out ++ [name]

def referencedFilenames (text : Text) : Fallible (List Text) := do
  let sections ← Fallible.context "parse txtsetup.oem for file references" (parse text)
  pure (((linesOf "files.scsi." sections).filterMap referencedName).foldl addName [])

/-! ### Controllers -/

/-- An entry of `[scsi]` with the files of its `[Files.scsi.<id>]` section. -/
structure ScsiController where
  id : Text
  displayName : Text
  driver : Option Text
  inf : Option Text
  catalog : Option Text
  deriving DecidableEq, Repr

/-- The id and the display name of a line. -/
def controllerLine (line : Text) : Option (Text × Text) := do
  let (key, rhs) ← splitOnce '=' (stripComment line)
  let id := trim key
  let display := stripQuotes (trim rhs)
  if id = [] ∨ display = [] then none else some (id, display)

/-- Add a controller whose id is not in the list up to case. -/
def addController (controllers : List ScsiController) (entry : Text × Text) : List ScsiController :=
  if controllers.any fun known => eqIgnoreCase known.id entry.1 then controllers
  else controllers ++ [⟨entry.1, entry.2, none, none, none⟩]

/-- The key and the file name of a line. -/
def fileLine (line : Text) : Option (Text × Text) := do
  let (key, rhs) ← splitOnce '=' (stripComment line)
  let file ← (rhs.splitOn ',')[1]?
  let name := trim file
  if name = [] then none else some (lower (trim key), name)

def setFile (controller : ScsiController) (entry : Text × Text) : ScsiController :=
  if entry.1 = "driver".toList then { controller with driver := some entry.2 }
  else if entry.1 = "inf".toList then { controller with inf := some entry.2 }
  else if entry.1 = "catalog".toList then { controller with catalog := some entry.2 }
  else controller

/-- Change the first controller with an id, up to case. -/
def changeFirst (id : Text) (change : ScsiController → ScsiController) :
    List ScsiController → List ScsiController
  | [] => []
  | controller :: rest =>
    if eqIgnoreCase controller.id id then change controller :: rest
    else controller :: changeFirst id change rest

/-- Pick up the files of one `[Files.scsi.<id>]` section. -/
def addFiles (controllers : List ScsiController) (sec : Section) : List ScsiController :=
  match stripPrefix "files.scsi.".toList (lower sec.name) with
  | none => controllers
  | some id =>
    changeFirst id (fun controller => (sec.lines.filterMap fileLine).foldl setFile controller)
      controllers

def scsiControllers (text : Text) : Fallible (List ScsiController) := do
  let sections ← Fallible.context "parse txtsetup.oem for scsi controllers" (parse text)
  let entries := (sections.filter fun sec => eqIgnoreCase sec.name "SCSI".toList).flatMap Section.lines
  let controllers := (entries.filterMap controllerLine).foldl addController []
  pure (sections.foldl addFiles controllers)

/-! ### Names are parts of lines -/

/-- A property of all lines of the text holds of all lines of the sections. -/
theorem parseFrom_lines {P : Text → Prop} {lineno : Nat} {current : Option Section} {raws : List Text}
    {sections : List Section} (read : parseFrom lineno current raws = .ok sections)
    (inCurrent : ∀ sec ∈ current, ∀ line ∈ sec.lines, P line) (inRaws : ∀ raw ∈ raws, P raw) :
    ∀ sec ∈ sections, ∀ line ∈ sec.lines, P line := by
  induction raws generalizing lineno current sections with
  | nil =>
    obtain rfl := Except.ok.inj read
    exact fun sec member => inCurrent sec (Option.mem_toList.mp member)
  | cons raw rest ih =>
    have here := inRaws raw List.mem_cons_self
    have inRest : ∀ line ∈ rest, P line := fun line member => inRaws line (List.mem_cons_of_mem _ member)
    unfold parseFrom at read
    simp only at read
    split at read
    · split at read
      · simp at read
      · split at read
        · simp at read
        · obtain ⟨others, readRest, same⟩ := (Fallible.bind_eq_ok _ _ _).mp read
          obtain rfl := (Fallible.pure_eq_ok _ _).mp same
          intro sec member
          rcases List.mem_append.mp member with first | later
          · exact inCurrent sec (Option.mem_toList.mp first)
          · refine ih readRest ?_ inRest sec later
            simp
    · cases current with
      | some sec =>
        refine ih read ?_ inRest
        rintro _ ⟨⟩ line member
        rcases List.mem_append.mp member with old | new
        · exact inCurrent sec rfl line old
        · exact List.mem_singleton.mp new ▸ here
      | none =>
        simp only at read
        split at read
        · refine ih read ?_ inRest
          rintro _ ⟨⟩ line member
          exact List.mem_singleton.mp member ▸ here
        · exact ih read (by simp) inRest

/-- No line of a section holds a line feed. -/
theorem parse_newline {text : Text} {sections : List Section} (read : parse text = .ok sections) :
    ∀ sec ∈ sections, ∀ line ∈ sec.lines, '\n' ∉ line :=
  parseFrom_lines read (by simp) fun _ member => newline_not_mem_lines member

theorem linesOf_newline {text : Text} {sections : List Section} (read : parse text = .ok sections)
    {start : String} {line : Text} (member : line ∈ linesOf start sections) : '\n' ∉ line := by
  obtain ⟨sec, inSections, inLines⟩ := List.mem_flatMap.mp member
  exact parse_newline read sec (List.mem_of_mem_filter inSections) line inLines

section Parts

variable {char : Char} {line : Text}

theorem mem_stripComment (member : char ∈ stripComment line) : char ∈ line :=
  (List.takeWhile_prefix _).sublist.mem member

theorem mem_stripQuotes {value : Text} (member : char ∈ stripQuotes value) : char ∈ value := by
  rw [stripQuotes] at member
  split at member
  · exact List.mem_of_mem_drop (List.mem_of_mem_dropLast member)
  · exact member

/-- The two sides of the first `=` in front of a comment are parts of the line. -/
theorem mem_of_splitOnce_stripComment {key rhs : Text}
    (found : splitOnce '=' (stripComment line) = some (key, rhs)) (member : char ∈ key ∨ char ∈ rhs) :
    char ∈ line := by
  refine mem_stripComment ?_
  rw [(splitOnce_eq_some found).1, List.mem_append, List.mem_cons]
  exact member.imp_right Or.inr

theorem splitComma_eq_some {quoted : Bool} {text before after : Text}
    (found : splitComma quoted text = some (before, after)) : text = before ++ ',' :: after := by
  induction text generalizing quoted before with
  | nil => cases found
  | cons head rest ih =>
    rw [splitComma] at found
    split at found
    · rename_i here
      simp only [Option.some.injEq, Prod.mk.injEq] at found
      obtain ⟨rfl, rfl⟩ := found
      rw [here.1, List.nil_append]
    · obtain ⟨⟨start, stop⟩, inRest, same⟩ := Option.map_eq_some_iff.mp found
      simp only [Prod.mk.injEq] at same
      obtain ⟨rfl, rfl⟩ := same
      rw [ih inRest, List.cons_append]

theorem mem_of_hardwareIdLine {hwid service : Text}
    (read : hardwareIdLine line = some (hwid, service)) (member : char ∈ hwid ∨ char ∈ service) :
    char ∈ line := by
  simp only [hardwareIdLine, Option.bind_eq_bind, Option.bind_eq_some_iff, Prod.exists] at read
  obtain ⟨key, rhs, split, hwidRaw, serviceRaw, comma, result⟩ := read
  split at result
  · cases result
  · simp only [Option.some.injEq, Prod.mk.injEq] at result
    obtain ⟨rfl, rfl⟩ := result
    refine mem_of_splitOnce_stripComment split (Or.inr (mem_trim ?_))
    rw [splitComma_eq_some comma, List.mem_append, List.mem_cons]
    exact (member.imp (fun inId => mem_trim (mem_stripQuotes inId))
      fun inService => Or.inr (mem_trim (mem_stripQuotes inService)))

theorem mem_of_referencedName {name : Text} (read : referencedName line = some name)
    (member : char ∈ name) : char ∈ line := by
  simp only [referencedName, Option.bind_eq_bind, Option.bind_eq_some_iff, Prod.exists] at read
  obtain ⟨key, rhs, split, file, field, result⟩ := read
  split at result
  · cases result
  · obtain rfl := Option.some.inj result
    exact mem_of_splitOnce_stripComment split
      (Or.inr (mem_of_mem_splitOn (List.mem_of_getElem? field) (mem_trim member)))

theorem mem_of_controllerLine {id display : Text} (read : controllerLine line = some (id, display))
    (member : char ∈ id ∨ char ∈ display) : char ∈ line := by
  simp only [controllerLine, Option.bind_eq_bind, Option.bind_eq_some_iff, Prod.exists] at read
  obtain ⟨key, rhs, split, result⟩ := read
  split at result
  · cases result
  · simp only [Option.some.injEq, Prod.mk.injEq] at result
    obtain ⟨rfl, rfl⟩ := result
    exact mem_of_splitOnce_stripComment split
      (member.imp mem_trim fun inDisplay => mem_trim (mem_stripQuotes inDisplay))

end Parts

/-- The names are pairwise different up to case. -/
def DistinctNames (names : List Text) : Prop :=
  names.Pairwise fun first second => lower first ≠ lower second

end Bootsmith.Driver
