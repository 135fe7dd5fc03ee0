/-
**Slipstreaming a driver pack into the staged image** (`windows_ntxp.rs`).

`slipstreamAhciIntoIso` appends the referenced files to `\I386`, then patches `TXTSETUP.SIF` and
`DOSNET.INF` in place. On the map of the files of `\I386` these are insertions and two overwrites
(`Slipstreamed`).

The folder is the list of its files with their contents, in the order it is read. Paths in messages and
errors of the host are left out.
-/

import Bootsmith.Driver.Services
import Bootsmith.Iso.Run

namespace Bootsmith.Driver

open Bootsmith.Library Bootsmith.Iso

/-! ### The pipeline step -/

/-- A folder: names and contents, in the order it is read. -/
abbrev Folder := List (Text × Bytes)

def findCaseInsensitive (dir : Folder) (name : Text) : Option (Text × Bytes) :=
  dir.find? fun entry => eqIgnoreCase entry.1 name

def isoLongName (name : Text) : Text := upper name

/-- The text of the pack's `TXTSETUP.OEM`. -/
def readOem (dir : Folder) : Fallible Text := do
  let oem ← Fallible.okOr "the driver folder has no TXTSETUP.OEM"
    (findCaseInsensitive dir "txtsetup.oem".toList)
  Fallible.okOr "read TXTSETUP.OEM" (fromUtf8 oem.2)

/-- The loop that appends the referenced files. -/
def appendDriverFiles (dir : Folder) : List Text → Effect Image Unit
  | [] => pure ()
  | name :: rest => do
    let file ← Effect.lift (Fallible.okOr s!"the driver folder is missing {String.ofList name}"
      (findCaseInsensitive dir name))
    Effect.context s!"append {String.ofList name} into I386"
      (appendFileToI386 (toUtf8 (isoLongName name)) file.2)
    appendDriverFiles dir rest

/-- The text of a file of `\I386`. -/
def readI386Text (name : String) (image : Image) : Fallible Text := do
  let found ← Fallible.context s!"read existing I386/{name} from staged XP.ISO"
    (readFileFromI386 image (ascii name))
  let bytes ← Fallible.okOr s!"staged XP.ISO has no I386/{name}" found
  Fallible.okOr s!"I386/{name} is not valid ASCII/UTF-8" (fromUtf8 bytes)

/-- Read a file of `\I386`, patch its text and write it back. -/
def patchI386File (name : String) (patch : Text → Fallible Text) : Effect Image Unit := do
  let text ← Effect.query (readI386Text name)
  let patched ← Effect.lift
    (Fallible.context s!"patch I386/{name} for AHCI slipstream" (patch text))
  Effect.context s!"write patched I386/{name} back to staged XP.ISO"
    (replaceFileInI386 (ascii name) (toUtf8 patched))

def slipstreamAhciIntoIso (order : HashOrder) (dir : Folder) : Effect Image Unit := do
  let userOem ← Effect.lift (readOem dir)
  let referenced ← Effect.lift
    (Fallible.context "parse file list from user TXTSETUP.OEM" (referencedFilenames userOem))
  if referenced = [] then Effect.bail "user TXTSETUP.OEM declares no driver files"
  else do
    let ids ← Effect.lift
      (Fallible.context "parse hardware IDs from user TXTSETUP.OEM" (hardwareIds userOem))
    let services ← Effect.lift (collectServices userOem)
    match services with
    | [service] => do
      let displayName ← Effect.lift (displayNameOf userOem service)
      appendDriverFiles dir referenced
      patchI386File "TXTSETUP.SIF" fun sif => do
        let patched ← patchTxtsetupSif order sif service displayName referenced ids
        pure patched.text
      patchI386File "DOSNET.INF" fun text => patchDosnetInf text referenced
    | services =>
      Effect.bail s!"user TXTSETUP.OEM declares multiple driver services ({services.map String.ofList}); slipstream currently supports one service per pack"

/-! ### The appended files -/

/-- The key of a driver file in `\I386`. -/
def driverKey (name : Text) : Bytes := isoSortKey (toUtf8 (isoLongName name))

/-- **The loop inserts the files of the folder** under keys that were absent. -/
theorem appendDriverFiles_stores {dir : Folder} {names : List Text} {image image' : Image}
    {files : FileMap} {value : Unit} (stores : StoresFiles image files)
    (run : (appendDriverFiles dir names).run image = .ok value image') :
    ∃ files', StoresFiles image' files' ∧
      (∀ name ∈ names, files (driverKey name) = none ∧
        ∃ file, findCaseInsensitive dir name = some file ∧ files' (driverKey name) = some file.2) ∧
      ∀ key, (∀ name ∈ names, key ≠ driverKey name) → files' key = files key := by
  induction names generalizing image files with
  | nil =>
    obtain ⟨_, rfl⟩ := (Effect.pure_eq_ok _ _ _ _).mp run
    exact ⟨files, stores, fun name member => absurd member List.not_mem_nil, fun key _ => rfl⟩
  | cons name rest ih =>
    obtain ⟨file, found, run⟩ := (Effect.lift_bind_eq_ok _ _ _ _ _).mp run
    rw [Fallible.okOr_eq_ok] at found
    obtain ⟨_, middle, one, run⟩ := (Effect.bind_eq_ok _ _ _ _ _).mp run
    rw [Effect.context_eq_ok] at one
    have call : (Call.append (toUtf8 (isoLongName name)) file.2).run.run image = .ok _ middle := one
    obtain ⟨between, acts, storesMiddle⟩ := stores.call call
    unfold Call.act at acts
    by_cases absent : (files (driverKey name)).isNone
    · obtain rfl := Option.some.inj ((if_pos absent).symm.trans acts)
      obtain ⟨files', stores', inserted, kept⟩ := ih storesMiddle run
      have here : (files.insert (driverKey name) file.2) (driverKey name) = some file.2 := if_pos rfl
      -- the later names are absent when `name` is there, so they have other keys
      have others : ∀ other ∈ rest, driverKey name ≠ driverKey other := by
        intro other member same
        have missing := (inserted other member).1
        rw [← same] at missing
        exact absurd (here.symm.trans missing) (Option.some_ne_none _)
      refine ⟨files', stores', fun other member => ?_, fun key apart => ?_⟩
      · rcases List.mem_cons.mp member with rfl | inRest
        · refine ⟨Option.isNone_iff_eq_none.mp absent, file, found, ?_⟩
          exact (kept _ others).trans here
        · obtain ⟨missing, file', found', stored⟩ := inserted other inRest
          refine ⟨?_, file', found', stored⟩
          rw [← missing]
          exact (if_neg (others other inRest).symm).symm
      · refine (kept key fun other member => apart other (List.mem_cons_of_mem _ member)).trans ?_
        exact if_neg (apart name List.mem_cons_self)
    · cases (if_neg absent).symm.trans acts

/-! ### The patched files -/

/-- A file of `\I386` reads as a text. -/
def ReadsText (image : Image) (name : String) (text : Text) : Prop :=
  readFileFromI386 image (ascii name) = .ok (some (toUtf8 text))

theorem readI386Text_eq_ok {name : String} {image : Image} {text : Text} :
    readI386Text name image = .ok text ↔ ReadsText image name text := by
  unfold readI386Text ReadsText
  simp only [Fallible.bind_eq_ok, Fallible.context_eq_ok, Fallible.okOr_eq_ok]
  constructor
  · rintro ⟨_, read, bytes, rfl, decoded⟩
    rw [read, fromUtf8_eq_some.mp decoded]
  · exact fun read => ⟨_, read, _, rfl, fromUtf8_toUtf8 text⟩

/-- A text that reads is the one of the map. -/
theorem StoresFiles.text {name : String} {image : Image} {files : FileMap} {text : Text}
    (stores : StoresFiles image files) (notDot : NotDot (ascii name)) (reads : ReadsText image name text) :
    files (isoSortKey (ascii name)) = some (toUtf8 text) := by
  obtain ⟨_, _, _, _, _, represents⟩ := stores
  exact Except.ok.inj ((represents.reads _ notDot).symm.trans reads)

/-- **A patched file** holds the patched text; the other files stay. -/
theorem patchI386File_stores {name : String} {patch : Text → Fallible Text} {image image' : Image}
    {files : FileMap} {value : Unit} (notDot : NotDot (ascii name)) (stores : StoresFiles image files)
    (run : (patchI386File name patch).run image = .ok value image') :
    ∃ text patched, files (isoSortKey (ascii name)) = some (toUtf8 text) ∧ patch text = .ok patched ∧
      StoresFiles image' (files.insert (isoSortKey (ascii name)) (toUtf8 patched)) := by
  obtain ⟨text, middle, asked, run⟩ := (Effect.bind_eq_ok _ _ _ _ _).mp run
  obtain ⟨readText, rfl⟩ := (Effect.query_eq_ok _ _ _ _).mp asked
  obtain ⟨patched, patches, run⟩ := (Effect.lift_bind_eq_ok _ _ _ _ _).mp run
  rw [Fallible.context_eq_ok] at patches
  rw [Effect.context_eq_ok] at run
  have call : (Call.replace (ascii name) (toUtf8 patched)).run.run image = .ok _ image' := run
  obtain ⟨files', acts, stores'⟩ := stores.call call
  have known := StoresFiles.text stores notDot (readI386Text_eq_ok.mp readText)
  simp only [Call.act, Call.fileName, known] at acts
  obtain rfl := Option.some.inj acts
  exact ⟨text, patched, known, patches, stores'⟩

/-! ### Names of driver files -/

/-- The extensions of driver files, as they stand in `\I386`. -/
def driverExtensions : List String := [".SYS", ".INF", ".CAT"]

/-- The key of a name with an extension ends with that extension. -/
theorem driverKey_append (start : Text) {extension : String} (known : extension ∈ driverExtensions) :
    isoSortKey (toUtf8 (upper start ++ extension.toList))
      = (toUtf8 (upper start)).map toAsciiUpper ++ ascii extension := by
  have facts : ∀ extension ∈ driverExtensions, toUtf8 extension.toList = ascii extension ∧
      (ascii extension).map toAsciiUpper = ascii extension ∧ ¬ ascii ";1" <:+ ascii extension ∧
      (ascii ";1").length ≤ (ascii extension).length := by decide
  obtain ⟨encoded, raised, noVersion, long⟩ := facts extension known
  have unversioned : ¬ ascii ";1" <:+ toUtf8 (upper start) ++ ascii extension := fun version =>
    noVersion (List.suffix_of_suffix_length_le version (List.suffix_append _ _) long)
  rw [isoSortKey, toUtf8_append, encoded, stripVersion, if_neg, List.map_append, raised]
  rwa [List.isSuffixOf_iff_suffix]

/-- **The key of a driver file ends with one of the extensions.** -/
theorem driverKey_ends {name : Text} (format : (sourceDisksFilesFormat name).isSome) :
    ∃ extension ∈ driverExtensions, ascii extension <:+ driverKey name := by
  have ends : ∀ small : String, endsWith (lower name) small = true → ∀ extension ∈ driverExtensions,
      upper small.toList = extension.toList → ascii extension <:+ driverKey name := by
    intro small found extension known raised
    obtain ⟨start, split⟩ := List.isSuffixOf_iff_suffix.mp found
    have name' : isoLongName name = upper start ++ extension.toList := by
      rw [isoLongName, ← upper_lower, ← split, upper, List.map_append, ← raised]
      rfl
    rw [driverKey, name', driverKey_append start known]
    exact List.suffix_append _ _
  unfold sourceDisksFilesFormat at format
  split_ifs at format with sys infCat
  · exact ⟨".SYS", by decide, ends ".sys" sys ".SYS" (by decide) (by decide)⟩
  · rcases Bool.or_eq_true_iff.mp infCat with inf | cat
    · exact ⟨".INF", by decide, ends ".inf" inf ".INF" (by decide) (by decide)⟩
    · exact ⟨".CAT", by decide, ends ".cat" cat ".CAT" (by decide) (by decide)⟩
  · cases format

theorem driverKey_ne {name : Text} {key : Bytes} (format : (sourceDisksFilesFormat name).isSome)
    (other : ∀ extension ∈ driverExtensions, ¬ ascii extension <:+ key) : driverKey name ≠ key := by
  rintro rfl
  obtain ⟨extension, known, ends⟩ := driverKey_ends format
  exact other extension known ends

/-- The two values of `[SourceDisksFiles]` lines end differently, so a line tells its file. -/
theorem sourceDisksFilesLine_inj {first second : Text} (known : (sourceDisksFilesFormat first).isSome)
    (known' : (sourceDisksFilesFormat second).isSome)
    (same : sourceDisksFilesLine first = sourceDisksFilesLine second) : first = second := by
  have values : ∀ file, (sourceDisksFilesFormat file).isSome →
      sourceDisksFilesFormat file = some "1,,,,,,_x,4,1,,,1,4" ∨
      sourceDisksFilesFormat file = some "1,,,,,,_x,20,0,0" := by
    intro file format
    unfold sourceDisksFilesFormat at format ⊢
    split_ifs at format ⊢
    · exact Or.inl rfl
    · exact Or.inr rfl
    · cases format
  unfold sourceDisksFilesLine at same
  have lasts := congrArg List.getLast? same
  rcases values first known with one | one <;> rcases values second known' with two | two <;>
    rw [one, two] at same lasts
  · exact List.append_cancel_right (List.append_cancel_right same)
  · simp [List.getLast?_append] at lasts
  · simp [List.getLast?_append] at lasts
  · exact List.append_cancel_right (List.append_cancel_right same)

/-! ### All three places -/

theorem isoSortKey_patched : isoSortKey (ascii "TXTSETUP.SIF") = ascii "TXTSETUP.SIF" ∧
    isoSortKey (ascii "DOSNET.INF") = ascii "DOSNET.INF" := by decide

theorem notDot_patched : NotDot (ascii "TXTSETUP.SIF") ∧ NotDot (ascii "DOSNET.INF") :=
  ⟨by constructor <;> decide, by constructor <;> decide⟩

/-- What the step read and did, up to the map of the files of `\I386`. -/
structure Slipstreamed (dir : Folder) (files files' : FileMap) (iso' : Image)
    (oem : Text) (names : List Text) (sif sif' dosnet dosnet' : Text) : Prop where
  readsOem : readOem dir = .ok oem
  readsNames : referencedFilenames oem = .ok names
  nonempty : names ≠ []
  inserted : ∀ name ∈ names, files (driverKey name) = none ∧
    ∃ file, findCaseInsensitive dir name = some file ∧ files' (driverKey name) = some file.2
  kept : ∀ key, (∀ name ∈ names, key ≠ driverKey name) → files' key = files key
  hadSif : files' (ascii "TXTSETUP.SIF") = some (toUtf8 sif)
  sifPatch : ∃ service display ids driverSys groups, CleanNames service display names ids ∧
    SifPatched sif service display names ids sif' driverSys groups
  hadDosnet : (files'.insert (ascii "TXTSETUP.SIF") (toUtf8 sif')) (ascii "DOSNET.INF")
    = some (toUtf8 dosnet)
  dosnetPatch : patchDosnetInf dosnet names = .ok dosnet'
  stores : StoresFiles iso' ((files'.insert (ascii "TXTSETUP.SIF") (toUtf8 sif')).insert
    (ascii "DOSNET.INF") (toUtf8 dosnet'))

/-- **A successful step**, call by call. -/
theorem slipstreamAhciIntoIso_eq_ok {order : HashOrder} {dir : Folder} {iso iso' : Image}
    {files : FileMap} {value : Unit} (start : StoresFiles iso files)
    (run : (slipstreamAhciIntoIso order dir).run iso = .ok value iso') :
    ∃ files' oem names sif sif' dosnet dosnet',
      Slipstreamed dir files files' iso' oem names sif sif' dosnet dosnet' := by
  obtain ⟨oem, readsOem, run⟩ := (Effect.lift_bind_eq_ok _ _ _ _ _).mp run
  obtain ⟨names, readsFiles, run⟩ := (Effect.lift_bind_eq_ok _ _ _ _ _).mp run
  rw [Fallible.context_eq_ok] at readsFiles
  split at run
  · simp at run
  rename_i nonempty
  obtain ⟨ids, readsIds, run⟩ := (Effect.lift_bind_eq_ok _ _ _ _ _).mp run
  rw [Fallible.context_eq_ok] at readsIds
  obtain ⟨services, readsServices, run⟩ := (Effect.lift_bind_eq_ok _ _ _ _ _).mp run
  split at run
  · rename_i service
    obtain ⟨display, readsDisplay, run⟩ := (Effect.lift_bind_eq_ok _ _ _ _ _).mp run
    have clean := cleanNames readsServices (List.mem_singleton_self _) readsDisplay readsFiles readsIds
    obtain ⟨_, appended, appends, run⟩ := (Effect.bind_eq_ok _ _ _ _ _).mp run
    obtain ⟨_, between, patchesSif, patchesDosnet⟩ := (Effect.bind_eq_ok _ _ _ _ _).mp run
    obtain ⟨files', stores, inserted, kept⟩ := appendDriverFiles_stores start appends
    obtain ⟨sif, sif', hadSif, sifPatch, stores⟩ :=
      patchI386File_stores notDot_patched.1 stores patchesSif
    obtain ⟨dosnet, dosnet', hadDosnet, dosnetPatch, stores⟩ :=
      patchI386File_stores notDot_patched.2 stores patchesDosnet
    rw [isoSortKey_patched.1] at hadSif hadDosnet stores
    rw [isoSortKey_patched.2] at hadDosnet stores
    obtain ⟨patched, patches, same⟩ := (Fallible.bind_eq_ok _ _ _).mp sifPatch
    obtain rfl := (Fallible.pure_eq_ok _ _).mp same
    obtain ⟨driverSys, groups, patching⟩ := patchTxtsetupSif_eq_ok patches
    exact ⟨files', oem, names, sif, _, dosnet, dosnet', readsOem, readsFiles, nonempty, inserted, kept,
      hadSif, ⟨service, display, ids, driverSys, groups, clean, patching⟩, hadDosnet, dosnetPatch,
      stores⟩
  · simp at run

/-- `TXTSETUP.SIF` gained one line for each file in `[SourceDisksFiles]`, and no other line there: the
groups of new lines are put behind old lines, and the only group of that section holds the files'
lines. -/
structure SifGained (sif sif' : Text) (files : List Text) : Prop where
  lines : ∃ groups anchor, splitCrlf sif' = splice groups 0 (splitCrlf sif) ∧
    anchor < (splitCrlf sif).length ∧
    sectionAt (splitCrlf sif) anchor = some "sourcedisksfiles".toList ∧
    groups anchor = files.map sourceDisksFilesLine ∧
    ∀ idx, idx ≠ anchor → sectionAt (splitCrlf sif) idx = some "sourcedisksfiles".toList →
      groups idx = []
  once : (files.map sourceDisksFilesLine).Nodup

theorem SifPatched.gained {sif service displayName patched driverSys : Text} {files : List Text}
    {ids : List (Text × Text)} {groups : Nat → List Text}
    (patching : SifPatched sif service displayName files ids patched driverSys groups)
    (clean : CleanNames service displayName files ids) (distinct : DistinctNames files) :
    SifGained sif patched files := by
  obtain ⟨anchor, inside, here, group, only⟩ := patching.sourceDisksFiles
  refine ⟨⟨groups, anchor, patching.lines clean, inside, here, group, only⟩, ?_⟩
  rw [List.Nodup, List.pairwise_map]
  refine distinct.imp_of_mem fun {first second} inFirst inSecond different same => different ?_
  rw [sourceDisksFilesLine_inj (patching.formats first inFirst) (patching.formats second inSecond) same]

end Bootsmith.Driver
