/-
**The answer file of an unattended setup** (`generate_winnt_sif` of `windows_ntxp.rs` and
`windows_2000.rs`).

The file is lines of settings in sections, and `readSif` reads it back so. A quoted value gives the
configured text back (`unquote_quotedSifValue`), but quotes do not keep a line break inside a line.

* `reads_iff`: the file has exactly the intended sections and settings exactly when the texts of the user
  hold no line feed, and the product key none with anything behind it (`OneLine`);
* `injected_line`: a name with a line feed adds a setting.
-/

import Bootsmith.Core.Plan
import Bootsmith.Library.Text
import Mathlib.Data.List.ReduceOption

namespace Bootsmith.Unattended

open Bootsmith.Library Bootsmith.Core

/-! ### The generator -/

/-- The text with every occurrence of a character replaced. -/
def replaceChar (old : Char) (new text : Text) : Text :=
  text.flatMap fun char => if char = old then new else [char]

def quotedSifValue (value : Text) : Text :=
  "\"".toList ++ replaceChar '\"' "\\\"".toList (replaceChar '\\' "\\\\".toList value) ++ "\"".toList

/-- The value of the setting for the administrator's password. -/
def adminPasswordValue (config : UnattendedConfig) : Text :=
  match config.adminPassword with
  | some password => quotedSifValue password
  | none => "*".toList

/-- The value of the setting for the name of the computer. -/
def computerNameValue (config : UnattendedConfig) : Text :=
  if config.computerName = "*".toList then "*".toList else quotedSifValue config.computerName

/-- What is pushed to the file, in order, with the path setup installs to. -/
def pushes (targetPath : String) (config : UnattendedConfig) : List Text :=
  ["[Data]\r\n".toList, "AutoPartition=0\r\n".toList, "MsDosInitiated=\"0\"\r\n".toList,
    "UnattendedInstall=\"Yes\"\r\n".toList, "\r\n[Unattended]\r\n".toList,
    "UnattendMode=DefaultHide\r\n".toList, "OemSkipEula=Yes\r\n".toList, "TargetPath=".toList,
    targetPath.toList, "\r\n".toList, "Repartition=No\r\n".toList, "FileSystem=*\r\n".toList,
    "DriverSigningPolicy=Ignore\r\n".toList, "NonDriverSigningPolicy=Ignore\r\n".toList,
    "\r\n[GuiUnattended]\r\n".toList, "AdminPassword=".toList, adminPasswordValue config, "\r\n".toList,
    "EncryptedAdminPassword=NO\r\n".toList, "OEMSkipRegional=1\r\n".toList, "OemSkipWelcome=1\r\n".toList]
    ++ (match config.timezone with
      | some timezone => ["TimeZone=".toList, (Nat.repr timezone).toList, "\r\n".toList]
      | none => [])
    ++ ["\r\n[UserData]\r\n".toList]
    ++ (match config.productKey with
      | some productKey => ["ProductKey=".toList, productKey, "\r\n".toList]
      | none => [])
    ++ ["FullName=".toList, quotedSifValue config.fullName, "\r\nOrgName=".toList,
      quotedSifValue config.organization, "\r\nComputerName=".toList, computerNameValue config,
      "\r\n\r\n[Identification]\r\n".toList, "JoinWorkgroup=WORKGROUP\r\n".toList,
      "\r\n[Networking]\r\n".toList, "InstallDefaultComponents=Yes\r\n".toList]

/-- The common body of both generators. -/
def generateWinntSifFor (targetPath : String) (config : UnattendedConfig) : Text :=
  (pushes targetPath config).flatten

/-- The generator for XP. -/
def generateWinntSifNtXp (config : UnattendedConfig) : Text := generateWinntSifFor "\\WINDOWS" config

/-- The generator for Windows 2000. -/
def generateWinntSif2000 (config : UnattendedConfig) : Text := generateWinntSifFor "\\WINNT" config

/-! ### Reading the file -/

/-- A line that is not blank: the header of a section, or a setting. -/
inductive SifItem
  | header (name : Text)
  | setting (key value : Text)
  deriving DecidableEq, Repr

def readItem (line : Text) : Option SifItem :=
  match trimStart line with
  | [] => none
  | '[' :: rest => some (.header (rest.takeWhile fun char => char ≠ ']'))
  | _ =>
    match splitOnce '=' line with
    | some (key, value) => some (.setting key value)
    | none => some (.setting line [])

/-- The settings up to the next header. -/
def leadingSettings : List SifItem → List (Text × Text)
  | .setting key value :: rest => (key, value) :: leadingSettings rest
  | _ => []

/-- The sections with their settings. -/
def sectionsOf : List SifItem → List (Text × List (Text × Text))
  | [] => []
  | .header name :: rest => (name, leadingSettings rest) :: sectionsOf rest
  | .setting _ _ :: rest => sectionsOf rest

/-- The lines of the file that are not blank. -/
def items (sif : Text) : List SifItem := (lines sif).filterMap readItem

def readSif (sif : Text) : List (Text × List (Text × Text)) := sectionsOf (items sif)

/-- Undo the escapes. -/
def unescape : Text → Text
  | [] => []
  | ['\\'] => ['\\']
  | '\\' :: char :: rest => char :: unescape rest
  | char :: rest => char :: unescape rest

/-- The text between the quotes of a value, without its escapes. -/
def unquote (value : Text) : Option Text :=
  match value with
  | '\"' :: rest => if rest.getLast? = some '\"' then some (unescape rest.dropLast) else none
  | _ => none

/-- The key of a line, up to case and blanks around it. -/
def Named (key : String) (line : Text) : Bool :=
  eqIgnoreCase (trim (line.takeWhile fun char => char ≠ '=')) key.toList

/-- The sections and keys that are meant. -/
def intended (config : UnattendedConfig) : List (Text × List Text) :=
  [("Data".toList, ["AutoPartition".toList, "MsDosInitiated".toList, "UnattendedInstall".toList]),
    ("Unattended".toList, ["UnattendMode".toList, "OemSkipEula".toList, "TargetPath".toList,
      "Repartition".toList, "FileSystem".toList, "DriverSigningPolicy".toList,
      "NonDriverSigningPolicy".toList]),
    ("GuiUnattended".toList, ["AdminPassword".toList, "EncryptedAdminPassword".toList,
      "OEMSkipRegional".toList, "OemSkipWelcome".toList]
      ++ (if config.timezone.isSome then ["TimeZone".toList] else [])),
    ("UserData".toList, (if config.productKey.isSome then ["ProductKey".toList] else [])
      ++ ["FullName".toList, "OrgName".toList, "ComputerName".toList]),
    ("Identification".toList, ["JoinWorkgroup".toList]),
    ("Networking".toList, ["InstallDefaultComponents".toList])]

/-- The file has a setting in a section. -/
def Has (sif : Text) (section' key : String) (value : Text) : Prop :=
  ∃ settings, (section'.toList, settings) ∈ readSif sif ∧ (key.toList, value) ∈ settings

/-- The file says what is configured. -/
structure Reads (config : UnattendedConfig) (sif : Text) : Prop where
  outline : (readSif sif).map (fun part => (part.1, part.2.map Prod.fst)) = intended config
  fullName : ∃ value, Has sif "UserData" "FullName" value ∧ unquote value = some config.fullName
  organization : ∃ value, Has sif "UserData" "OrgName" value ∧ unquote value = some config.organization
  computerName : ∃ value, Has sif "UserData" "ComputerName" value ∧
    if config.computerName = "*".toList then value = "*".toList
    else unquote value = some config.computerName
  adminPassword : ∃ value, Has sif "GuiUnattended" "AdminPassword" value ∧
    match config.adminPassword with
    | some password => unquote value = some password
    | none => value = "*".toList
  autoPartition : (lines sif).filter (Named "AutoPartition") = ["AutoPartition=0".toList]
  repartition : (lines sif).filter (Named "Repartition") = ["Repartition=No".toList]

/-! ### A quoted value -/

/-- A character as it stands between quotes. -/
def escapeChar (char : Char) : Text :=
  if char = '\\' then ['\\', '\\'] else if char = '\"' then ['\\', '\"'] else [char]

theorem quotedSifValue_eq (value : Text) :
    quotedSifValue value = '\"' :: (value.flatMap escapeChar ++ ['\"']) := by
  have escaped : replaceChar '\"' "\\\"".toList (replaceChar '\\' "\\\\".toList value) = value.flatMap escapeChar := by
    unfold replaceChar
    rw [List.flatMap_assoc]
    apply List.flatMap_congr
    intro char _
    unfold escapeChar
    by_cases isSlash : char = '\\'
    · rw [if_pos isSlash, if_pos isSlash]
      rfl
    · rw [if_neg isSlash, if_neg isSlash]
      by_cases isQuote : char = '\"'
      · rw [if_pos isQuote, isQuote]
        rfl
      · rw [if_neg isQuote, List.flatMap_singleton, if_neg isQuote]
  unfold quotedSifValue
  rw [escaped]
  rfl

theorem unescape_flatMap (value : Text) : unescape (value.flatMap escapeChar) = value := by
  induction value with
  | nil => rfl
  | cons char rest ih =>
    rw [List.flatMap_cons]
    by_cases isSlash : char = '\\'
    · rw [escapeChar, if_pos isSlash, isSlash]
      exact congrArg (List.cons '\\') ih
    · by_cases isQuote : char = '\"'
      · rw [escapeChar, if_neg isSlash, if_pos isQuote, isQuote]
        exact congrArg (List.cons '\"') ih
      · rw [escapeChar, if_neg isSlash, if_neg isQuote, List.singleton_append, unescape]
        · rw [ih]
        · exact fun same _ => isSlash same
        · exact fun _ _ same _ => isSlash same

/-- **Undoing the quotes and escapes of a value gives the text back.** -/
theorem unquote_quotedSifValue (value : Text) : unquote (quotedSifValue value) = some value := by
  rw [quotedSifValue_eq, unquote, if_pos List.getLast?_concat, List.dropLast_concat, unescape_flatMap]

theorem mem_unescape {char : Char} {text : Text} (member : char ∈ unescape text) : char ∈ text := by
  induction text using unescape.induct with
  | case1 => exact member
  | case2 => exact member
  | case3 first rest ih =>
    rw [unescape] at member
    rcases List.mem_cons.mp member with rfl | inRest
    · exact List.mem_cons_of_mem _ List.mem_cons_self
    · exact List.mem_cons_of_mem _ (List.mem_cons_of_mem _ (ih inRest))
  | case4 first rest single escape ih =>
    rw [unescape] at member
    · rcases List.mem_cons.mp member with rfl | inRest
      · exact List.mem_cons_self
      · exact List.mem_cons_of_mem _ (ih inRest)
    · exact single
    · exact escape

theorem mem_of_unquote {char : Char} {value text : Text} (read : unquote value = some text)
    (member : char ∈ text) :
    char ∈ value := by
  unfold unquote at read
  split at read
  · rename_i rest
    split at read
    · rw [← Option.some.inj read] at member
      exact List.mem_cons_of_mem _ (List.mem_of_mem_dropLast (mem_unescape member))
    · cases read
  · cases read

theorem newline_not_mem_quotedSifValue {value : Text} (absent : '\n' ∉ value) :
    '\n' ∉ quotedSifValue value := by
  have escaped : '\n' ∉ value.flatMap escapeChar := by
    intro member
    obtain ⟨char, inValue, inEscape⟩ := List.mem_flatMap.mp member
    unfold escapeChar at inEscape
    split at inEscape
    · simp at inEscape
    · split at inEscape
      · simp at inEscape
      · exact absent (List.mem_singleton.mp inEscape ▸ inValue)
  rw [quotedSifValue_eq]
  simp [escaped]

/-! ### The file, line by line -/

/-- The end of a line. -/
def lineEnd : Text := ['\r', '\n']

/-- A blank line, or the line of an item. -/
def renderItem : Option SifItem → Text
  | none => []
  | some (.header name) => '[' :: (name ++ [']'])
  | some (.setting key value) => key ++ '=' :: value

def headed (name : String) : Option SifItem := some (.header name.toList)

def entry (key : String) (value : Text) : Option SifItem := some (.setting key.toList value)

/-- The lines in front of the product key. -/
def linesBefore (targetPath : String) (config : UnattendedConfig) : List (Option SifItem) :=
  [headed "Data", entry "AutoPartition" "0".toList, entry "MsDosInitiated" "\"0\"".toList,
    entry "UnattendedInstall" "\"Yes\"".toList, none, headed "Unattended",
    entry "UnattendMode" "DefaultHide".toList, entry "OemSkipEula" "Yes".toList,
    entry "TargetPath" targetPath.toList, entry "Repartition" "No".toList, entry "FileSystem" "*".toList,
    entry "DriverSigningPolicy" "Ignore".toList, entry "NonDriverSigningPolicy" "Ignore".toList, none,
    headed "GuiUnattended", entry "AdminPassword" (adminPasswordValue config),
    entry "EncryptedAdminPassword" "NO".toList, entry "OEMSkipRegional" "1".toList,
    entry "OemSkipWelcome" "1".toList]
    ++ (match config.timezone with
      | some timezone => [entry "TimeZone" (Nat.repr timezone).toList]
      | none => [])
    ++ [none, headed "UserData"]

/-- The lines behind the product key. -/
def linesAfter (config : UnattendedConfig) : List (Option SifItem) :=
  [entry "FullName" (quotedSifValue config.fullName), entry "OrgName" (quotedSifValue config.organization),
    entry "ComputerName" (computerNameValue config), none, headed "Identification",
    entry "JoinWorkgroup" "WORKGROUP".toList, none, headed "Networking",
    entry "InstallDefaultComponents" "Yes".toList]

/-- The line of the product key. -/
def linesOfKey (config : UnattendedConfig) : List (Option SifItem) :=
  (config.productKey.map (entry "ProductKey")).toList

def render (layout : List (Option SifItem)) :
    Text := layout.flatMap fun line => renderItem line ++ lineEnd

theorem generateWinntSifFor_eq (targetPath : String) (config : UnattendedConfig) :
    generateWinntSifFor targetPath config =
      render (linesBefore targetPath config ++ linesOfKey config ++ linesAfter config) := by
  unfold generateWinntSifFor pushes render linesBefore linesAfter linesOfKey
  cases config.timezone <;> cases config.productKey <;>
    simp [headed, entry, renderItem, lineEnd]

/-! ### Reading it line by line -/

theorem lines_render (layout : List (Option SifItem)) :
    lines (render layout) = layout.flatMap fun line => lines (renderItem line ++ lineEnd) := by
  induction layout with
  | nil => rfl
  | cons line rest ih =>
    have split : render (line :: rest) = (renderItem line ++ ['\r']) ++ '\n' :: render rest := by
      simp [render, lineEnd]
    have close : renderItem line ++ lineEnd = renderItem line ++ ['\r'] ++ ['\n'] := by
      rw [List.append_assoc]
      rfl
    rw [split, lines_append, ih, ← close, List.flatMap_cons]

theorem lines_lineEnd {line : Text} (absent : '\n' ∉ line) : lines (line ++ lineEnd) = [line] := by
  induction line with
  | nil => rfl
  | cons char rest ih =>
    have absentRest : '\n' ∉ rest := fun member => absent (List.mem_cons_of_mem _ member)
    have notFeed : char ≠ '\n' := fun same => absent (same ▸ List.mem_cons_self)
    have notPair : char = '\r' → (rest ++ lineEnd).head? ≠ some '\n' := by
      intro _
      cases rest with
      | nil => decide
      | cons next rest => exact fun same => absentRest (Option.some.inj same ▸ List.mem_cons_self)
    rw [List.cons_append, lines_char notFeed notPair, ih absentRest]
    rfl

/-- A key that reads as one. -/
def PlainKey (key : Text) : Prop :=
  (∃ char rest, key = char :: rest ∧ isWhitespace char = false ∧ char ≠ '[') ∧
    ∀ char ∈ key, char ≠ '=' ∧ char ≠ '\n' ∧ char ≠ '\r'

/-- A line that reads as what it is the line of. -/
def Placed : Option SifItem → Prop
  | none => True
  | some (.header name) => ']' ∉ name ∧ '\n' ∉ name
  | some (.setting key value) => PlainKey key ∧ '\n' ∉ value

theorem readItem_setting {key : Text} (plain : PlainKey key) (value : Text) :
    readItem (key ++ '=' :: value) = some (.setting key value) := by
  obtain ⟨⟨char, rest, rfl, notBlank, notBracket⟩, chars⟩ := plain
  have absent : '=' ∉ char :: rest := fun member => (chars '=' member).1 rfl
  have start : trimStart (char :: rest ++ '=' :: value) = char :: (rest ++ '=' :: value) :=
    List.dropWhile_cons_of_neg (by rw [notBlank]; exact Bool.false_ne_true)
  unfold readItem
  rw [start]
  split
  · contradiction
  · rename_i shape
    exact absurd (List.cons.inj shape).1 notBracket
  · rw [splitOnce_append absent]

theorem readItem_renderItem {line : Option SifItem} (placed : Placed line) :
    readItem (renderItem line) = line := by
  match line, placed with
  | none, _ => rfl
  | some (.header name), placed =>
    have name : (name ++ [']']).takeWhile (fun char => decide (char ≠ ']')) = name := by
      rw [List.takeWhile_append_of_pos]
      · exact List.append_nil name
      · exact fun char member => decide_eq_true fun same => placed.1 (same ▸ member)
    exact congrArg (fun name => some (SifItem.header name)) name
  | some (.setting key value), placed => exact readItem_setting placed.1 value

theorem newline_not_mem_renderItem {line : Option SifItem} (placed : Placed line) :
    '\n' ∉ renderItem line := by
  match line, placed with
  | none, _ => exact List.not_mem_nil
  | some (.header name), placed => simpa [renderItem] using placed.2
  | some (.setting key value), placed =>
    have absent : '\n' ∉ key := fun member => (placed.1.2 '\n' member).2.1 rfl
    simpa [renderItem, absent] using placed.2

theorem lines_render_placed {layout : List (Option SifItem)} (placed : ∀ line ∈ layout, Placed line) :
    lines (render layout) = layout.map renderItem := by
  rw [lines_render]
  induction layout with
  | nil => rfl
  | cons line rest ih =>
    rw [List.flatMap_cons, ih fun other member => placed other (List.mem_cons_of_mem _ member),
      lines_lineEnd (newline_not_mem_renderItem (placed line List.mem_cons_self))]
    rfl

theorem items_render_placed {layout : List (Option SifItem)} (placed : ∀ line ∈ layout, Placed line) :
    items (render layout) = layout.reduceOption := by
  unfold items List.reduceOption
  rw [lines_render_placed placed, List.filterMap_map]
  exact List.filterMap_congr fun line member => readItem_renderItem (placed line member)

theorem readItem_eq_none {line : Text} :
    readItem line = none ↔ ∀ char ∈ line, isWhitespace char = true := by
  rw [← List.dropWhile_eq_nil_iff]
  unfold readItem
  change _ ↔ trimStart line = []
  split
  · rename_i blank
    exact ⟨fun _ => blank, fun _ => rfl⟩
  · rename_i shape
    exact ⟨fun none => (by cases none), fun blank => absurd (shape.symm.trans blank) (List.cons_ne_nil _ _)⟩
  · rename_i notBlank _
    refine ⟨fun none => ?_, fun blank => absurd blank notBlank⟩
    split at none <;> cases none

/-! ### The product key -/

/-- The lines of the product key. -/
def keyLines (config : UnattendedConfig) : List Text :=
  match config.productKey with
  | some productKey => lines (productKey ++ lineEnd)
  | none => []

/-- The setting of the product key. -/
def keyItems (config : UnattendedConfig) : List SifItem :=
  match config.productKey with
  | some productKey => [.setting "ProductKey".toList ((lines (productKey ++ lineEnd)).headD [])]
  | none => []

/-- **What stands on lines of its own behind the product key.** -/
def injected (config : UnattendedConfig) : List SifItem := (keyLines config).tail.filterMap readItem

theorem plainKey_productKey : PlainKey "ProductKey".toList :=
  ⟨⟨'P', _, rfl, rfl, by decide⟩, by simp⟩

theorem lines_linesOfKey {config : UnattendedConfig} {productKey : Text}
    (given : config.productKey = some productKey) :
    lines (render (linesOfKey config)) =
      ("ProductKey".toList ++ '=' :: (lines (productKey ++ lineEnd)).headD []) ::
        (lines (productKey ++ lineEnd)).tail := by
  have nonempty : productKey ++ lineEnd ≠ [] := List.append_ne_nil_of_right_ne_nil _ (List.cons_ne_nil _ _)
  obtain ⟨first, rest, shape⟩ := List.exists_cons_of_ne_nil (lines_ne_nil nonempty)
  have text : render (linesOfKey config) = ("ProductKey".toList ++ ['=']) ++ (productKey ++ lineEnd) := by
    simp [render, linesOfKey, given, entry, renderItem]
  have plain : ∀ char ∈ "ProductKey".toList ++ ['='], char ≠ '\n' ∧ char ≠ '\r' := by simp
  rw [text, lines_cons plain shape, shape, List.append_assoc]
  rfl

theorem items_linesOfKey (config : UnattendedConfig) :
    items (render (linesOfKey config)) = keyItems config ++ injected config := by
  unfold items keyItems injected keyLines
  cases given : config.productKey with
  | none =>
    have blank : linesOfKey config = [] := by rw [linesOfKey, given]; rfl
    rw [blank]
    rfl
  | some productKey =>
    rw [lines_linesOfKey given, List.filterMap_cons, readItem_setting plainKey_productKey]
    rfl

theorem lines_append_render (first second : List (Option SifItem)) :
    lines (render (first ++ second)) = lines (render first) ++ lines (render second) := by
  rw [lines_render, lines_render, lines_render, List.flatMap_append]

/-- The items of the file when nothing is injected. -/
def expected (targetPath : String) (config : UnattendedConfig) : List SifItem :=
  (linesBefore targetPath config).reduceOption ++ keyItems config ++ (linesAfter config).reduceOption

/-- **The texts the user gives between quotes are single lines.** -/
structure QuotedOneLine (config : UnattendedConfig) : Prop where
  fullName : '\n' ∉ config.fullName
  organization : '\n' ∉ config.organization
  computerName : '\n' ∉ config.computerName
  adminPassword : ∀ password, config.adminPassword = some password → '\n' ∉ password

/-- **The texts of the user are single lines**, and only blank lines follow the product key's. -/
structure OneLine (config : UnattendedConfig) : Prop extends QuotedOneLine config where
  productKey : ∀ line ∈ (keyLines config).tail, ∀ char ∈ line, isWhitespace char = true

theorem injected_eq_nil {config : UnattendedConfig} :
    injected config = [] ↔ ∀ line ∈ (keyLines config).tail, ∀ char ∈ line, isWhitespace char = true := by
  unfold injected
  rw [List.filterMap_eq_nil_iff]
  exact forall₂_congr fun line _ => readItem_eq_none

theorem newline_not_mem_toDigits (number : Nat) : '\n' ∉ Nat.toDigits 10 number := by
  intro member
  have digit := Nat.isDigit_of_mem_toDigits (by decide) (by decide) member
  exact absurd digit (by decide)

theorem newline_not_mem_computerNameValue {config : UnattendedConfig} (single : QuotedOneLine config) :
    '\n' ∉ computerNameValue config := by
  unfold computerNameValue
  split
  · decide
  · exact newline_not_mem_quotedSifValue single.computerName

theorem newline_not_mem_adminPasswordValue {config : UnattendedConfig} (single : QuotedOneLine config) :
    '\n' ∉ adminPasswordValue config := by
  unfold adminPasswordValue
  cases given : config.adminPassword with
  | none => decide
  | some password => exact newline_not_mem_quotedSifValue (single.adminPassword password given)

theorem plainKey_iff (key : Text) :
    PlainKey key ↔ (key.head?.any fun char => !isWhitespace char && char != '[') = true ∧
      (key.all fun char => char != '=' && char != '\n' && char != '\r') = true := by
  cases key with
  | nil => simp [PlainKey]
  | cons char rest => simp [PlainKey, and_assoc]

theorem placed_linesBefore {targetPath : String} (plain : '\n' ∉ targetPath.toList)
    {config : UnattendedConfig}
    (single : QuotedOneLine config) : ∀ line ∈ linesBefore targetPath config, Placed line := by
  have password := newline_not_mem_adminPasswordValue single
  unfold linesBefore
  cases config.timezone with
  | none => simp [headed, entry, Placed, plainKey_iff, isWhitespace, plain, password]
  | some timezone =>
    have number := newline_not_mem_toDigits timezone
    simp [headed, entry, Placed, plainKey_iff, isWhitespace, plain, password, number]

theorem placed_linesAfter {config : UnattendedConfig} (single : QuotedOneLine config) :
    ∀ line ∈ linesAfter config, Placed line := by
  have name := newline_not_mem_computerNameValue single
  have fullName := newline_not_mem_quotedSifValue single.fullName
  have organization := newline_not_mem_quotedSifValue single.organization
  simp [linesAfter, headed, entry, Placed, plainKey_iff, isWhitespace, name, fullName, organization]

/-- **What the file reads as**: the items that are meant, and what the product key injects. -/
theorem items_generate {targetPath : String} (plain : '\n' ∉ targetPath.toList)
    {config : UnattendedConfig}
    (single : QuotedOneLine config) :
    items (generateWinntSifFor targetPath config) =
      (linesBefore targetPath config).reduceOption ++ (keyItems config ++ injected config)
        ++ (linesAfter config).reduceOption := by
  rw [generateWinntSifFor_eq, ← items_linesOfKey, ← items_render_placed (placed_linesBefore plain single),
    ← items_render_placed (placed_linesAfter single)]
  unfold items
  rw [lines_append_render, lines_append_render, List.filterMap_append, List.filterMap_append]

theorem outline_expected (targetPath : String) (config : UnattendedConfig) :
    (sectionsOf (expected targetPath config)).map (fun part => (part.1, part.2.map Prod.fst)) = intended config := by
  unfold expected linesBefore keyItems intended
  cases config.timezone <;> cases config.productKey <;> rfl

/-! ### What single lines give -/

/-- The item has the key of a line. -/
def keyed (key : String) : Option SifItem → Bool
  | some (.setting name _) => eqIgnoreCase (trim name) key.toList
  | line => Named key (renderItem line)

theorem named_setting (key : String) {name : Text} (plain : PlainKey name) (value : Text) :
    Named key (name ++ '=' :: value) = eqIgnoreCase (trim name) key.toList := by
  have start : (name ++ '=' :: value).takeWhile (fun char => decide (char ≠ '=')) = name := by
    rw [List.takeWhile_append_of_pos fun char member => decide_eq_true (plain.2 char member).1]
    exact List.append_nil name
  unfold Named
  rw [start]

theorem named_renderItem (key : String) {line : Option SifItem} (placed : Placed line) :
    Named key (renderItem line) = keyed key line := by
  match line, placed with
  | none, _ => rfl
  | some (.header name), _ => rfl
  | some (.setting name value), placed => exact named_setting key placed.1 value

theorem filter_lines_placed (key : String) {layout : List (Option SifItem)}
    (placed : ∀ line ∈ layout, Placed line) :
    (lines (render layout)).filter (Named key) = (layout.filter (keyed key)).map renderItem := by
  rw [lines_render_placed placed, List.filter_map]
  congr 1
  exact List.filter_congr fun line member => named_renderItem key (placed line member)

theorem not_named_blank {key : String} (nonempty : lower key.toList ≠ []) {line : Text}
    (blank : ∀ char ∈ line, isWhitespace char = true) : Named key line = false := by
  have empty : trim (line.takeWhile fun char => decide (char ≠ '=')) = [] := by
    unfold trim trimStart
    rw [List.dropWhile_eq_nil_iff.mpr fun char member => blank char ((List.takeWhile_sublist _).mem member)]
    rfl
  unfold Named eqIgnoreCase
  rw [empty]
  exact beq_eq_false_iff_ne.mpr (Ne.symm nonempty)

/-- The line of the product key has no other key. -/
theorem filter_linesOfKey {config : UnattendedConfig} (single : OneLine config) {key : String}
    (nonempty : lower key.toList ≠ []) (other : eqIgnoreCase (trim "ProductKey".toList) key.toList = false) :
    (lines (render (linesOfKey config))).filter (Named key) = [] := by
  have blanks := single.productKey
  unfold keyLines at blanks
  cases given : config.productKey with
  | none =>
    have blank : linesOfKey config = [] := by rw [linesOfKey, given]; rfl
    rw [blank]
    rfl
  | some productKey =>
    rw [given] at blanks
    rw [lines_linesOfKey given, List.filter_cons_of_neg (by rw [named_setting key plainKey_productKey, other]; decide)]
    refine List.filter_eq_nil_iff.mpr fun line member => ?_
    rw [not_named_blank nonempty (blanks line member)]
    exact Bool.false_ne_true

theorem filter_generate {targetPath : String} (plain : '\n' ∉ targetPath.toList)
    {config : UnattendedConfig}
    (single : OneLine config) {key : String} (nonempty : lower key.toList ≠ [])
    (other : eqIgnoreCase (trim "ProductKey".toList) key.toList = false) :
    (lines (generateWinntSifFor targetPath config)).filter (Named key) =
      ((linesBefore targetPath config ++ linesAfter config).filter (keyed key)).map renderItem := by
  have before := placed_linesBefore plain single.toQuotedOneLine
  have after := placed_linesAfter single.toQuotedOneLine
  rw [generateWinntSifFor_eq, lines_append_render, lines_append_render, List.filter_append, List.filter_append,
    filter_linesOfKey single nonempty other, filter_lines_placed key before, filter_lines_placed key after,
    List.append_nil, List.filter_append, List.map_append]

theorem items_generate_oneLine {targetPath : String} (plain : '\n' ∉ targetPath.toList)
    {config : UnattendedConfig}
    (single : OneLine config) : items (generateWinntSifFor targetPath config) = expected targetPath config := by
  rw [items_generate plain single.toQuotedOneLine, injected_eq_nil.mpr single.productKey, List.append_nil]
  rfl

/-- **Single lines are read as what is configured.** -/
theorem reads_of_oneLine {targetPath : String} (plain : '\n' ∉ targetPath.toList)
    {config : UnattendedConfig}
    (single : OneLine config) : Reads config (generateWinntSifFor targetPath config) := by
  have read : readSif (generateWinntSifFor targetPath config) = sectionsOf (expected targetPath config) :=
    congrArg sectionsOf (items_generate_oneLine plain single)
  have user : ∃ settings, ("UserData".toList, settings) ∈ readSif (generateWinntSifFor targetPath config) ∧
      ("FullName".toList, quotedSifValue config.fullName) ∈ settings ∧
      ("OrgName".toList, quotedSifValue config.organization) ∈ settings ∧
      ("ComputerName".toList, computerNameValue config) ∈ settings := by
    rw [read]
    unfold expected linesBefore keyItems linesAfter
    cases config.timezone <;> cases config.productKey <;>
      exact ⟨_, List.mem_of_getElem? (i := 3) rfl, by simp [leadingSettings, List.reduceOption, headed, entry]⟩
  have password : Has (generateWinntSifFor targetPath config) "GuiUnattended" "AdminPassword"
      (adminPasswordValue config) := by
    unfold Has
    rw [read]
    unfold expected linesBefore keyItems linesAfter
    cases config.timezone <;> cases config.productKey <;>
      exact ⟨_, List.mem_of_getElem? (i := 2) rfl, List.mem_cons_self⟩
  obtain ⟨settings, inFile, fullName, organization, computerName⟩ := user
  refine ⟨?_, ?_, ?_, ?_, ?_, ?_, ?_⟩
  · rw [read]
    exact outline_expected targetPath config
  · exact ⟨_, ⟨settings, inFile, fullName⟩, unquote_quotedSifValue _⟩
  · exact ⟨_, ⟨settings, inFile, organization⟩, unquote_quotedSifValue _⟩
  · refine ⟨_, ⟨settings, inFile, computerName⟩, ?_⟩
    unfold computerNameValue
    split
    · rfl
    · exact unquote_quotedSifValue _
  · refine ⟨_, password, ?_⟩
    unfold adminPasswordValue
    cases config.adminPassword with
    | none => rfl
    | some password => exact unquote_quotedSifValue password
  · rw [filter_generate plain single (by decide) (by decide)]
    unfold linesBefore linesAfter
    cases config.timezone <;> rfl
  · rw [filter_generate plain single (by decide) (by decide)]
    unfold linesBefore linesAfter
    cases config.timezone <;> rfl

/-! ### What the reading needs -/

theorem mem_of_leadingSettings {key value : Text} {parts : List SifItem}
    (member : (key, value) ∈ leadingSettings parts) : .setting key value ∈ parts := by
  induction parts with
  | nil => cases member
  | cons item rest ih =>
    cases item with
    | header name => cases member
    | setting first second =>
      rcases List.mem_cons.mp member with same | inRest
      · obtain ⟨rfl, rfl⟩ := Prod.mk.inj same
        exact List.mem_cons_self
      · exact List.mem_cons_of_mem _ (ih inRest)

theorem mem_of_sectionsOf {key value name : Text} {settings : List (Text × Text)} {parts : List SifItem}
    (inFile : (name, settings) ∈ sectionsOf parts) (member : (key, value) ∈ settings) :
    .setting key value ∈ parts := by
  induction parts with
  | nil => cases inFile
  | cons item rest ih =>
    cases item with
    | header other =>
      rcases List.mem_cons.mp inFile with same | inRest
      · obtain ⟨rfl, rfl⟩ := Prod.mk.inj same
        exact List.mem_cons_of_mem _ (mem_of_leadingSettings member)
      · exact List.mem_cons_of_mem _ (ih inRest)
    | setting first second => exact List.mem_cons_of_mem _ (ih inFile)

theorem mem_of_readItem {line key value : Text} (read : readItem line = some (.setting key value))
    {char : Char}
    (member : char ∈ value) : char ∈ line := by
  unfold readItem at read
  split at read
  · cases read
  · cases read
  · split at read
    · rename_i split
      obtain ⟨rfl, rfl⟩ := SifItem.setting.inj (Option.some.inj read)
      rw [(splitOnce_eq_some split).1]
      exact List.mem_append_right _ (List.mem_cons_of_mem _ member)
    · obtain ⟨rfl, rfl⟩ := SifItem.setting.inj (Option.some.inj read)
      cases member

/-- **No value that is read holds a line feed.** -/
theorem newline_not_mem_value {sif value : Text} {part key : String} (has : Has sif part key value) :
    '\n' ∉ value := by
  obtain ⟨settings, inFile, member⟩ := has
  obtain ⟨line, inLines, read⟩ := List.mem_filterMap.mp (mem_of_sectionsOf inFile member)
  exact fun feed => newline_not_mem_lines inLines (mem_of_readItem read feed)

theorem quotedOneLine_of_reads {config : UnattendedConfig} {sif : Text} (reads : Reads config sif) :
    QuotedOneLine config := by
  have through : ∀ {part key : String} {text : Text},
      (∃ value, Has sif part key value ∧ unquote value = some text) → '\n' ∉ text := by
    rintro part key text ⟨value, has, read⟩ feed
    exact newline_not_mem_value has (mem_of_unquote read feed)
  refine ⟨through reads.fullName, through reads.organization, ?_, ?_⟩
  · obtain ⟨value, has, read⟩ := reads.computerName
    split at read
    · rename_i star
      rw [star]
      decide
    · exact through ⟨value, has, read⟩
  · intro password given
    obtain ⟨value, has, read⟩ := reads.adminPassword
    rw [given] at read
    exact through ⟨value, has, read⟩

/-- Every item is a header, a setting in a section, or a setting in front of all sections. -/
theorem length_sectionsOf (parts : List SifItem) :
    (leadingSettings parts).length + ((sectionsOf parts).map fun part => 1 + part.2.length).sum = parts.length := by
  induction parts with
  | nil => rfl
  | cons item rest ih =>
    cases item with
    | header name =>
      simp only [leadingSettings, sectionsOf, List.map_cons, List.sum_cons, List.length_nil, List.length_cons]
      omega
    | setting key value =>
      simp only [leadingSettings, sectionsOf, List.length_cons]
      omega

theorem length_outline (sections : List (Text × List (Text × Text))) :
    ((sections.map fun part => (part.1, part.2.map Prod.fst)).map fun part => 1 + part.2.length).sum =
      (sections.map fun part => 1 + part.2.length).sum := by
  rw [List.map_map]
  congr 1
  apply List.map_congr_left
  intro part _
  simp

/-- The items of two files with the same outline are as many. -/
theorem length_eq_of_outline {first second : List SifItem} (noneFirst : leadingSettings first = [])
    (noneSecond : leadingSettings second = [])
    (outline : (sectionsOf first).map (fun part => (part.1, part.2.map Prod.fst)) =
      (sectionsOf second).map fun part => (part.1, part.2.map Prod.fst)) : first.length = second.length := by
  have counts := congrArg (fun parts => (parts.map fun part : Text × List Text => 1 + part.2.length).sum) outline
  simp only [length_outline] at counts
  have lengthFirst := length_sectionsOf first
  have lengthSecond := length_sectionsOf second
  rw [noneFirst, counts] at lengthFirst
  rw [noneSecond] at lengthSecond
  exact lengthFirst.symm.trans lengthSecond

theorem oneLine_of_reads {targetPath : String} (plain : '\n' ∉ targetPath.toList)
    {config : UnattendedConfig}
    (reads : Reads config (generateWinntSifFor targetPath config)) : OneLine config := by
  have quoted := quotedOneLine_of_reads reads
  have read := items_generate plain quoted
  have same := reads.outline.trans (outline_expected targetPath config).symm
  unfold readSif at same
  have count := length_eq_of_outline (by rw [read]; rfl) rfl same
  have nothing : (injected config).length = 0 := by
    rw [read, expected] at count
    simp only [List.length_append] at count
    omega
  exact ⟨quoted, injected_eq_nil.mp (List.eq_nil_of_length_eq_zero nothing)⟩

/-- **The answer file says what is configured exactly when the texts of the user are single lines.** -/
theorem reads_iff (config : UnattendedConfig) :
    (Reads config (generateWinntSifNtXp config) ↔ OneLine config) ∧
      (Reads config (generateWinntSif2000 config) ↔ OneLine config) :=
  ⟨⟨oneLine_of_reads (by decide), reads_of_oneLine (by decide)⟩,
    ⟨oneLine_of_reads (by decide), reads_of_oneLine (by decide)⟩⟩

/-- **A line break in a name turns on the partitioning of the disk.** -/
theorem injected_line :
    let config : UnattendedConfig :=
      { productKey := none, fullName := "A\r\n[Data]\r\nAutoPartition=1\r\n".toList, organization := [],
        computerName := "*".toList, adminPassword := none, timezone := none }
    "AutoPartition=1".toList ∈ lines (generateWinntSifNtXp config) ∧
      "AutoPartition=1".toList ∈ lines (generateWinntSif2000 config) ∧
      ¬ Reads config (generateWinntSifNtXp config) ∧ ¬ Reads config (generateWinntSif2000 config) := by
  refine ⟨by decide, by decide, fun reads => ?_, fun reads => ?_⟩
  · exact (quotedOneLine_of_reads reads).fullName (by decide)
  · exact (quotedOneLine_of_reads reads).fullName (by decide)

end Bootsmith.Unattended
