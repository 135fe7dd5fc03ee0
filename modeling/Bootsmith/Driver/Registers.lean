/-
**The three places that name a driver file.**

After a successful step the files of `\I386`, the lines of `[SourceDisksFiles]` and the lines of
`DOSNET.INF` name the same files (`slipstream_registers`), when the staged image has its own
`DOSNET.INF`; a pack may bring one for an image without it (`slipstream_replaces_dosnet`).

The step is a run of calls on a staged image, so it succeeds when the pack parses to one service, the
files are found and fit into `\I386` (`Room`), and the two texts are there and can be patched
(`slipstream_succeeds`).
-/

import Bootsmith.Driver.Dosnet
import Bootsmith.Driver.Pack
import Bootsmith.Iso.Order

namespace Bootsmith.Driver

open Bootsmith.Library Bootsmith.Iso

/-- **The three places name the same files**, when the staged image has its own `DOSNET.INF`. -/
theorem slipstream_registers {order : HashOrder} {dir : Folder} {iso iso' : Image} {value : Unit}
    {known : Bytes} (wellFormed : WellFormed iso)
    (staged : readFileFromI386 iso (ascii "DOSNET.INF") = .ok (some known))
    (run : (slipstreamAhciIntoIso order dir).run iso = .ok value iso') :
    ∃ oem files sif sif' dosnet dosnet', readOem dir = .ok oem ∧ referencedFilenames oem = .ok files ∧
      (∀ name ∈ files, ∃ file, findCaseInsensitive dir name = some file ∧
        readFileFromI386 iso' (toUtf8 (isoLongName name)) = .ok (some file.2)) ∧
      (ReadsText iso "TXTSETUP.SIF" sif ∧ ReadsText iso' "TXTSETUP.SIF" sif' ∧
        SifGained sif sif' files) ∧
      (ReadsText iso "DOSNET.INF" dosnet ∧ ReadsText iso' "DOSNET.INF" dosnet' ∧
        ∀ line, (splitCrlf dosnet').count line = (splitCrlf dosnet).count line +
          if line ∈ files.map dosnetLine then 1 else 0) ∧
      ∀ other, NotDot other → isoSortKey other ≠ ascii "TXTSETUP.SIF" →
        isoSortKey other ≠ ascii "DOSNET.INF" → (∀ name ∈ files, isoSortKey other ≠ driverKey name) →
        readFileFromI386 iso' other = readFileFromI386 iso other := by
  -- the image stores the files of `\I386` from the start
  obtain ⟨i386, found⟩ := findI386_of_readFile staged
  obtain ⟨root, rootPlaced, placed, stagedIso, _⟩ := wellFormed.staged found
  have start : StoresFiles iso (stagedFiles iso placed) :=
    ⟨root, i386, rootPlaced, placed, stagedIso, stagedIso.represents⟩
  have known := Except.ok.inj ((stagedIso.represents.reads _ notDot_patched.2).symm.trans staged)
  have reads := stagedIso.represents.reads
  generalize stagedFiles iso placed = files at start known reads
  obtain ⟨files', oem, names, sif, sif', dosnet, dosnet', step⟩ := slipstreamAhciIntoIso_eq_ok start run
  obtain ⟨distinct, clean⟩ := referencedFilenames_newline step.readsNames
  obtain ⟨service, display, ids, driverSys, groups, cleanSif, patching⟩ := step.sifPatch
  obtain ⟨_, _, _, _, _, reads'⟩ := step.stores
  have reads' := reads'.reads
  -- the driver files have keys of their own
  have notSif : ∀ name ∈ names, ascii "TXTSETUP.SIF" ≠ driverKey name := fun name member =>
    (driverKey_ne (patching.formats name member) (by decide)).symm
  have notDosnet : ∀ name ∈ names, ascii "DOSNET.INF" ≠ driverKey name := by
    intro name member same
    rw [isoSortKey_patched.2, same, (step.inserted name member).1] at known
    cases known
  have sifKey := isoSortKey_patched.1
  have dosnetKey := isoSortKey_patched.2
  have apart : ascii "DOSNET.INF" ≠ ascii "TXTSETUP.SIF" := by decide
  refine ⟨oem, names, sif, sif', dosnet, dosnet', step.readsOem, step.readsNames, fun name member => ?_,
    ⟨?_, ?_, patching.gained cleanSif distinct⟩, ⟨?_, ?_, fun line => ?_⟩,
    fun other notDot notTxt notInf notDriver => ?_⟩
  · obtain ⟨_, file, found, stored⟩ := step.inserted name member
    have format := patching.formats name member
    have notDot : NotDot (toUtf8 (isoLongName name)) :=
      ⟨driverKey_ne format (by decide), driverKey_ne format (by decide)⟩
    refine ⟨file, found, (reads' _ notDot).trans (congrArg _ ?_)⟩
    show FileMap.insert _ _ _ (driverKey name) = _
    rw [FileMap.insert, if_neg (notDosnet name member).symm, FileMap.insert,
      if_neg (notSif name member).symm, stored]
  · rw [ReadsText, reads _ notDot_patched.1, sifKey, ← step.kept _ notSif, step.hadSif]
  · rw [ReadsText, reads' _ notDot_patched.1, sifKey, FileMap.insert, if_neg apart.symm,
      FileMap.insert, if_pos rfl]
  · have had := step.hadDosnet
    rw [FileMap.insert, if_neg apart, step.kept _ notDosnet] at had
    rw [ReadsText, reads _ notDot_patched.2, dosnetKey, had]
  · rw [ReadsText, reads' _ notDot_patched.2, dosnetKey, FileMap.insert, if_pos rfl]
  · exact patchDosnetInf_count step.dosnetPatch step.nonempty clean distinct line
  · rw [reads' _ notDot, reads _ notDot, FileMap.insert, if_neg notInf, FileMap.insert, if_neg notTxt,
      step.kept _ notDriver]

/-! ### When the step succeeds -/

section Calls

variable {image image' : Image} {files : FileMap} {name contents : Bytes}

/-- The image is staged, its files are those of the map, and it has this room. -/
def StoresWithRoom (image : Image) (files : FileMap) (room : Room) : Prop :=
  ∃ root i386 rootPlaced placed, Staged image root i386 rootPlaced placed ∧ Represents image files ∧
    roomOf image i386 (placed.map Prod.snd) = room

theorem StoresWithRoom.stores {room : Room} (stores : StoresWithRoom image files room) :
    StoresFiles image files ∧ nextLba image = room.nextLba := by
  obtain ⟨root, i386, rootPlaced, placed, staged, represents, rfl⟩ := stores
  exact ⟨⟨root, i386, rootPlaced, placed, staged, represents⟩, rfl⟩

/-- An append the room admits succeeds and inserts the file. -/
theorem StoresWithRoom.append {room room' : Room} (stores : StoresWithRoom image files room)
    (admitted : room.append (name, contents) = some room') :
    ∃ image', (appendFileToI386 name contents).run image = .ok () image' ∧
      StoresWithRoom image' (files.insert (isoSortKey name) contents) room' := by
  obtain ⟨root, i386, rootPlaced, placed, staged, represents, rfl⟩ := stores
  obtain ⟨image', run⟩ := staged.append_of_room admitted
  obtain ⟨i386', rootPlaced', placed', staged', same⟩ := staged.append_room run
  obtain rfl := Option.some.inj (admitted.symm.trans same)
  have before : StoresFiles image files := ⟨root, i386, rootPlaced, placed, staged, represents⟩
  have call : (Call.append name contents).run.run image = .ok () image' := run
  obtain ⟨files', acts, _, _, _, _, _, represents'⟩ := before.call call
  unfold Call.act at acts
  by_cases absent : (files (isoSortKey name)).isNone
  · obtain rfl := Option.some.inj ((if_pos absent).symm.trans acts)
    exact ⟨image', run, root, i386', rootPlaced', placed', staged', represents', rfl⟩
  · cases (if_neg absent).symm.trans acts

/-- A replacement of a known file succeeds and overwrites it. -/
theorem replace_succeeds {known : Bytes} (stores : StoresFiles image files) (notDot : NotDot name)
    (had : files (isoSortKey name) = some known) (fits : ReplaceFits image contents) :
    ∃ image', (replaceFileInI386 name contents).run image = .ok () image' ∧
      StoresFiles image' (files.insert (isoSortKey name) contents) ∧
      nextLba image' = finalLen (nextLba image) contents / sectorSize := by
  have before := stores
  obtain ⟨root, i386, rootPlaced, placed, staged, represents⟩ := stores
  have read := staged.readFile_of_notDot notDot
  rw [represents.reads _ notDot, had] at read
  obtain ⟨extent, found, _⟩ := Option.map_eq_some_iff.mp (Except.ok.inj read).symm
  rw [← find?_parsed fun entry member => (staged.scan.bounds member).2.2.2.1] at found
  obtain ⟨existing, named, _⟩ := Option.map_eq_some_iff.mp found
  have run : (replaceFileInI386 name contents).run image = .ok () _ :=
    (replaceFileInI386_run staged).mpr ⟨fits, existing, named, rfl⟩
  obtain ⟨placed', wrote, _⟩ := staged.replace fits named
  have call : (Call.replace name contents).run.run image = .ok () _ := run
  obtain ⟨files', acts, stores'⟩ := before.call call
  simp only [Call.act, Call.fileName, had] at acts
  obtain rfl := Option.some.inj acts
  exact ⟨_, run, stores', wrote.atEnd.nextLba⟩

end Calls

/-- The names and contents of the referenced files, as they are appended. -/
def driverFiles (dir : Folder) (names : List Text) : Option (List (Bytes × Bytes)) :=
  names.mapM fun name => (findCaseInsensitive dir name).map fun file =>
    (toUtf8 (isoLongName name), file.2)

/-- The map with files inserted one after the other. -/
def insertAll (files : FileMap) (entries : List (Bytes × Bytes)) : FileMap :=
  entries.foldl (fun files entry => files.insert (isoSortKey entry.1) entry.2) files

theorem appendDriverFiles_succeeds {dir : Folder} {names : List Text} {entries : List (Bytes × Bytes)}
    {image : Image} {files : FileMap} {room room' : Room} (stores : StoresWithRoom image files room)
    (found : driverFiles dir names = some entries)
    (admitted : entries.foldlM Room.append room = some room') :
    ∃ image', (appendDriverFiles dir names).run image = .ok () image' ∧
      StoresWithRoom image' (insertAll files entries) room' := by
  induction names generalizing entries image files room with
  | nil =>
    obtain rfl : [] = entries := Option.some.inj found
    obtain rfl : room = room' := Option.some.inj admitted
    exact ⟨image, (Effect.pure_eq_ok _ _ _ _).mpr ⟨rfl, rfl⟩, stores⟩
  | cons name rest ih =>
    rw [driverFiles, List.mapM_cons] at found
    obtain ⟨entry, first, found⟩ := Option.bind_eq_some_iff.mp found
    obtain ⟨others, later, same⟩ := Option.bind_eq_some_iff.mp found
    obtain rfl := Option.some.inj same
    obtain ⟨file, inDir, rfl⟩ := Option.map_eq_some_iff.mp first
    obtain ⟨between, one, admitted⟩ := foldlM_cons_eq_some.mp admitted
    obtain ⟨middle, appends, storesMiddle⟩ := stores.append one
    obtain ⟨image', run, stores'⟩ := ih storesMiddle later admitted
    refine ⟨image', (Effect.lift_bind_eq_ok _ _ _ _ _).mpr
      ⟨file, (Fallible.okOr_eq_ok _ _ _).mpr inDir, (Effect.bind_eq_ok _ _ _ _ _).mpr
        ⟨(), middle, (Effect.context_eq_ok _ _ _ _ _).mpr appends, run⟩⟩, stores'⟩

theorem patchI386File_succeeds {name : String} (patch : Text → Fallible Text) {text patched : Text}
    {image : Image} {files : FileMap} (stores : StoresFiles image files) (notDot : NotDot (ascii name))
    (had : files (isoSortKey (ascii name)) = some (toUtf8 text)) (patches : patch text = .ok patched)
    (fits : ReplaceFits image (toUtf8 patched)) :
    ∃ image', (patchI386File name patch).run image = .ok () image' ∧
      StoresFiles image' (files.insert (isoSortKey (ascii name)) (toUtf8 patched)) ∧
      nextLba image' = finalLen (nextLba image) (toUtf8 patched) / sectorSize := by
  obtain ⟨image', run, after⟩ := replace_succeeds stores notDot had fits
  obtain ⟨_, _, _, _, _, represents⟩ := stores
  have read : readI386Text name image = .ok text := by
    rw [readI386Text_eq_ok, ReadsText, represents.reads _ notDot, had]
  refine ⟨image', ?_, after⟩
  rw [patchI386File, Effect.query_bind _ read]
  exact (Effect.lift_bind_eq_ok _ _ _ _ _).mpr ⟨patched, (Fallible.context_eq_ok _ _ _).mpr patches,
    (Effect.context_eq_ok _ _ _ _ _).mpr run⟩

/-- What the step reads from the folder: the service, the names of its files and their contents. -/
structure Packs (dir : Folder) (oem service display : Text) (names : List Text)
    (ids : List (Text × Text)) (entries : List (Bytes × Bytes)) : Prop where
  readsOem : readOem dir = .ok oem
  readsNames : referencedFilenames oem = .ok names
  nonempty : names ≠ []
  readsIds : hardwareIds oem = .ok ids
  readsServices : collectServices oem = .ok [service]
  readsDisplay : displayNameOf oem service = .ok display
  found : driverFiles dir names = some entries

/-- A file of `length` bytes takes at most `length` sectors. -/
theorem finalLen_div_le (lba : Nat) (contents : Bytes) :
    finalLen lba contents / sectorSize ≤ lba + contents.length := by
  have below : finalLen lba contents ≤ (lba + contents.length) * sectorSize := by
    refine alignUp_le sectorSize_pos ?_ (Dvd.intro_left _ rfl)
    rw [Nat.add_mul]
    exact Nat.add_le_add_left (Nat.le_mul_of_pos_right _ sectorSize_pos) _
  exact (Nat.div_le_div_right below).trans_eq (Nat.mul_div_cancel _ sectorSize_pos)

theorem replaceFits_of_small {image : Image} {text : Text} {bound : Nat} (nonempty : text ≠ [])
    (early : nextLba image ≤ bound) (small : bound + (toUtf8 text).length < 2 ^ 32) :
    ReplaceFits image (toUtf8 text) := by
  have volume := finalLen_div_le (nextLba image) (toUtf8 text)
  exact ⟨toUtf8_ne_nil nonempty, by omega, by omega, by omega⟩

/-- **The step succeeds** when the folder holds a pack whose files fit and the two texts can be
patched. -/
theorem slipstream_succeeds {order : HashOrder} {dir : Folder} {iso : Image} {files : FileMap}
    {oem service display sif dosnet dosnet' : Text} {names : List Text} {ids : List (Text × Text)}
    {entries : List (Bytes × Bytes)} {room room' : Room} {patched : Patched}
    (pack : Packs dir oem service display names ids entries) (stores : StoresWithRoom iso files room)
    (admitted : entries.foldlM Room.append room = some room')
    (hadSif : insertAll files entries (ascii "TXTSETUP.SIF") = some (toUtf8 sif))
    (patchesSif : patchTxtsetupSif order sif service display names ids = .ok patched)
    (hadDosnet : insertAll files entries (ascii "DOSNET.INF") = some (toUtf8 dosnet))
    (patchesDosnet : patchDosnetInf dosnet names = .ok dosnet')
    (nonempty : patched.text ≠ [] ∧ dosnet' ≠ [])
    (small : room'.nextLba + (toUtf8 patched.text).length + (toUtf8 dosnet').length < 2 ^ 32) :
    ∃ iso', (slipstreamAhciIntoIso order dir).run iso = .ok () iso' := by
  obtain ⟨sifKey, dosnetKey⟩ := isoSortKey_patched
  obtain ⟨appended, appends, withRoom⟩ := appendDriverFiles_succeeds stores pack.found admitted
  obtain ⟨stores, lba⟩ := withRoom.stores
  obtain ⟨between, patchSif, stores, lba'⟩ := patchI386File_succeeds
      (fun sif => do
        let patched ← patchTxtsetupSif order sif service display names ids
        pure patched.text)
      stores notDot_patched.1 (sifKey ▸ hadSif)
      ((Fallible.bind_eq_ok _ _ _).mpr ⟨patched, patchesSif, rfl⟩)
      (replaceFits_of_small nonempty.1 lba.le (by omega))
  have hadDosnet' : (FileMap.insert (insertAll files entries) (isoSortKey (ascii "TXTSETUP.SIF"))
      (toUtf8 patched.text)) (isoSortKey (ascii "DOSNET.INF")) = some (toUtf8 dosnet) := by
    rw [FileMap.insert, if_neg (by decide), dosnetKey, hadDosnet]
  have early : nextLba between ≤ room'.nextLba + (toUtf8 patched.text).length := by
    rw [lba', lba]
    exact finalLen_div_le _ _
  obtain ⟨iso', patchDosnet, _⟩ := patchI386File_succeeds (fun text => patchDosnetInf text names)
    stores notDot_patched.2 hadDosnet' patchesDosnet
    (replaceFits_of_small nonempty.2 early small)
  refine ⟨iso', (Effect.lift_bind_eq_ok _ _ _ _ _).mpr ⟨oem, pack.readsOem, ?_⟩⟩
  refine (Effect.lift_bind_eq_ok _ _ _ _ _).mpr
    ⟨names, (Fallible.context_eq_ok _ _ _).mpr pack.readsNames, ?_⟩
  rw [if_neg pack.nonempty]
  refine (Effect.lift_bind_eq_ok _ _ _ _ _).mpr
    ⟨ids, (Fallible.context_eq_ok _ _ _).mpr pack.readsIds, ?_⟩
  refine (Effect.lift_bind_eq_ok _ _ _ _ _).mpr ⟨[service], pack.readsServices, ?_⟩
  refine (Effect.lift_bind_eq_ok _ _ _ _ _).mpr ⟨display, pack.readsDisplay, ?_⟩
  refine (Effect.bind_eq_ok _ _ _ _ _).mpr ⟨(), appended, appends, ?_⟩
  exact (Effect.bind_eq_ok _ _ _ _ _).mpr ⟨(), between, patchSif, patchDosnet⟩

/-! ### A sample volume with texts -/

/-- An `\I386` whose files are texts, one a sector from sector 20 on. -/
def textRecords (len : Nat) (texts : List (String × Text)) : List Bytes :=
  [directoryRecord [0] 19 len, directoryRecord [1] 18 106]
    ++ texts.zipIdx.map fun entry =>
      fileRecord (ascii entry.1.1) (20 + entry.2) (toUtf8 entry.1.2).length

def textData (texts : List (String × Text)) : List (Nat × Bytes) :=
  texts.zipIdx.map fun entry => ((20 + entry.2) * sectorSize, toUtf8 entry.1.2)

def textIso (len : Nat) (texts : List (String × Text)) : Image :=
  sampleIso (20 + texts.length) len (textRecords len texts) (textData texts)

def textRoom (len : Nat) (texts : List (String × Text)) : Room :=
  ⟨((textRecords len texts).take 2).map shape, ((textRecords len texts).drop 2).map shape, len,
    20 + texts.length⟩

/-- The texts fit into the volume, and no file is a directory. -/
structure TextsFit (len : Nat) (texts : List (String × Text)) : Prop where
  fits : SampleFits (20 + texts.length) len (textRecords len texts) (textData texts)
  shaped : SampleShape (20 + texts.length) len (textRecords len texts)
  files : ∀ leaf ∈ (sampleRecords (textRecords len texts)).drop 2, ¬ leaf.IsDirectory

section TextIso

variable {len : Nat} {texts : List (String × Text)} (fit : TextsFit len texts)

include fit

theorem TextsFit.leaves : Leaves (textIso len texts) (sampleRecords (textRecords len texts)) :=
  fun leaf member isDirectory => absurd isDirectory (fit.files leaf member)

theorem TextsFit.wellFormed : WellFormed (textIso len texts) :=
  sampleIso_wellFormed fit.fits fit.shaped fit.leaves

/-- The files of the volume, and the room it has. -/
theorem TextsFit.stores : StoresWithRoom (textIso len texts)
    (stagedFiles (textIso len texts) (placements (19 * sectorSize) (textRecords len texts)))
    (textRoom len texts) := by
  obtain ⟨root, rootPlaced, staged⟩ := sampleIso_staged fit.fits fit.shaped fit.leaves
  exact ⟨root, _, rootPlaced, _, staged, staged.represents, sampleIso_room fit.fits fit.shaped⟩

theorem TextsFit.stored {key : Bytes} {lba : Nat} {text : Text}
    (member : (lba * sectorSize, toUtf8 text) ∈ textData texts)
    (found : fileExtent (textRecords len texts) key = some (lba, (toUtf8 text).length)) :
    stagedFiles (textIso len texts) (placements (19 * sectorSize) (textRecords len texts)) key
      = some (toUtf8 text) := by
  have inside : (lba * sectorSize, toUtf8 text)
      ∈ sampleEntries len (textRecords len texts) (textData texts) :=
    List.mem_append_right _ member
  rw [stagedFiles, layout_map_snd, found]
  exact congrArg some (slice_plant fit.fits.planted inside)

theorem TextsFit.reads {name : Bytes} (notDot : NotDot name) :
    readFileFromI386 (textIso len texts) name = .ok (stagedFiles (textIso len texts)
      (placements (19 * sectorSize) (textRecords len texts)) (isoSortKey name)) := by
  obtain ⟨_, _, _, _, _, represents, _⟩ := fit.stores
  exact represents.reads _ notDot

end TextIso

/-- A `DOSNET.INF` with its section of files. -/
def sampleDosnet : Text := "[Files]\r\nd1,a.sys".toList

def bothTexts : List (String × Text) := [("DOSNET.INF", sampleDosnet), ("TXTSETUP.SIF", sampleSif)]

set_option maxRecDepth 20000 in
theorem bothTexts_fit : TextsFit 158 bothTexts := by
  refine ⟨?_, ?_, by decide⟩ <;> constructor <;> decide

def sifOnly : List (String × Text) := [("TXTSETUP.SIF", sampleSif)]

set_option maxRecDepth 20000 in
theorem sifOnly_fit : TextsFit 114 sifOnly := by
  refine ⟨?_, ?_, by decide⟩ <;> constructor <;> decide

/-! ### A sample pack -/

/-- A folder with a description and the named files, each with its own byte. -/
def sampleFolder (oem : Text) (files : List (String × Bytes)) : Folder :=
  ("txtsetup.oem".toList, toUtf8 oem) :: files.map fun file => (file.1.toList, file.2)

theorem readOem_sampleFolder (oem : Text) (files : List (String × Bytes)) :
    readOem (sampleFolder oem files) = .ok oem := by
  have named : findCaseInsensitive (sampleFolder oem files) "txtsetup.oem".toList
      = some ("txtsetup.oem".toList, toUtf8 oem) :=
    List.find?_cons_of_pos (show eqIgnoreCase "txtsetup.oem".toList "txtsetup.oem".toList = true by decide)
  unfold readOem
  rw [named]
  exact (Fallible.okOr_eq_ok _ _ _).mpr (fromUtf8_toUtf8 _)

def sampleIds : List (Text × Text) := [("PCI\\A".toList, "ahci".toList)]

set_option maxRecDepth 20000 in
/-- The sample pack, whatever its driver file holds. -/
theorem samplePack (driver : Bytes) : Packs (sampleFolder (sampleOem "ahci") [("ahci.sys", driver)])
    (sampleOem "ahci") "ahci".toList "AHCI".toList ["ahci.sys".toList] sampleIds
    [(ascii "AHCI.SYS", driver)] where
  readsOem := readOem_sampleFolder _ _
  readsNames := by decide
  nonempty := by decide
  readsIds := by decide
  readsServices := by decide
  readsDisplay := by decide
  found := by
    have other : ¬ eqIgnoreCase "txtsetup.oem".toList "ahci.sys".toList = true := by decide
    have named : eqIgnoreCase "ahci.sys".toList "ahci.sys".toList = true := by decide
    have found : findCaseInsensitive (sampleFolder (sampleOem "ahci") [("ahci.sys", driver)])
        "ahci.sys".toList = some ("ahci.sys".toList, driver) := by
      show List.find? _ [("txtsetup.oem".toList, toUtf8 (sampleOem "ahci")), ("ahci.sys".toList, driver)] = _
      rw [List.find?_cons_of_neg (by exact other), List.find?_cons_of_pos (by exact named)]
    have key : toUtf8 (isoLongName "ahci.sys".toList) = ascii "AHCI.SYS" := by decide
    rw [driverFiles, List.mapM_cons, found, Option.map_some, key]
    rfl

/-- The sample text with the lines of a pack's files. -/
def patchedSif (lines : String) : Text :=
  ("[SourceDisksFiles]\r\n" ++ lines ++ "[HardwareIdsDatabase]\r\nPCI\\A = \"ahci\"\r\n"
    ++ "[SCSI.Load]\r\nahci = ahci.sys,4\r\n[SCSI]\r\na = b\r\nahci = \"AHCI\"\r\n").toList

set_option maxRecDepth 20000 in
theorem bothTexts_sif : stagedFiles (textIso 158 bothTexts)
    (placements (19 * sectorSize) (textRecords 158 bothTexts)) (ascii "TXTSETUP.SIF")
      = some (toUtf8 sampleSif) :=
  bothTexts_fit.stored (List.mem_cons_of_mem _ List.mem_cons_self)
    (show fileExtent _ (ascii "TXTSETUP.SIF") = some (21, (toUtf8 sampleSif).length) by decide)

set_option maxRecDepth 20000 in
theorem bothTexts_dosnet : stagedFiles (textIso 158 bothTexts)
    (placements (19 * sectorSize) (textRecords 158 bothTexts)) (ascii "DOSNET.INF")
      = some (toUtf8 sampleDosnet) :=
  bothTexts_fit.stored List.mem_cons_self
    (show fileExtent _ (ascii "DOSNET.INF") = some (20, (toUtf8 sampleDosnet).length) by decide)

set_option maxRecDepth 20000 in
/-- The volume with both texts takes a file of up to half of what an ISO can name. -/
theorem bothTexts_admits {driver : Bytes} (nonempty : driver ≠ []) (short : driver.length ≤ 2 ^ 31) :
    (textRoom 158 bothTexts).Admits (ascii "AHCI.SYS", driver) := by
  have one : (textRoom 158 bothTexts).Admits (ascii "AHCI.SYS", [1]) := by decide
  have volume := finalLen_div_le (textRoom 158 bothTexts).nextLba driver
  have start : (textRoom 158 bothTexts).nextLba = 22 := rfl
  refine ⟨nonempty, one.absent, one.lbaFits, ?_, one.short, one.fits, one.sizeFits, ?_⟩
  · exact lt_of_le_of_lt short (by decide)
  · have below : 22 + 2 ^ 31 < 2 ^ 32 := by decide
    rw [start] at volume
    show finalLen (textRoom 158 bothTexts).nextLba driver / sectorSize < _
    rw [start]
    omega

set_option maxRecDepth 20000 in
theorem sampleSif_patches : patchTxtsetupSif .plain sampleSif "ahci".toList "AHCI".toList ["ahci.sys".toList]
    sampleIds = .ok ⟨patchedSif "ahci.sys = 1,,,,,,_x,4,1,,,1,4\r\n",
      ⟨"ahci".toList, "AHCI".toList, ["ahci.sys".toList], 1⟩⟩ := by decide

set_option maxRecDepth 20000 in
theorem sampleDosnet_patches :
    patchDosnetInf sampleDosnet ["ahci.sys".toList] = .ok (sampleDosnet ++ "\r\nd1,ahci.sys".toList) := by decide

set_option maxRecDepth 20000 in
/-- The sample pack is slipstreamed into the volume with both texts. -/
theorem slipstream_sample {driver : Bytes} (nonempty : driver ≠ []) (short : driver.length ≤ 2 ^ 31) :
    ∃ iso', (slipstreamAhciIntoIso .plain (sampleFolder (sampleOem "ahci") [("ahci.sys", driver)])).run
      (textIso 158 bothTexts) = .ok () iso' := by
  have admitted : [(ascii "AHCI.SYS", driver)].foldlM Room.append (textRoom 158 bothTexts)
      = some ((textRoom 158 bothTexts).after (ascii "AHCI.SYS", driver)) := by
    have one := Room.append_eq_some.mpr ⟨bothTexts_admits nonempty short, rfl⟩
    rw [List.foldlM_cons, one]
    rfl
  have texts : (toUtf8 (patchedSif "ahci.sys = 1,,,,,,_x,4,1,,,1,4\r\n")).length
      + (toUtf8 (sampleDosnet ++ "\r\nd1,ahci.sys".toList)).length ≤ 2 ^ 10 := by decide
  have early := finalLen_div_le 22 driver
  refine slipstream_succeeds (samplePack driver) bothTexts_fit.stores admitted bothTexts_sif
    sampleSif_patches bothTexts_dosnet sampleDosnet_patches (by decide) ?_
  have start : (textRoom 158 bothTexts).nextLba = 22 := rfl
  have lba : ((textRoom 158 bothTexts).after (ascii "AHCI.SYS", driver)).nextLba
      = finalLen 22 driver / sectorSize := congrArg (fun lba => finalLen lba driver / sectorSize) start
  rw [lba]
  dsimp only
  have below : 22 + 2 ^ 31 + 2 ^ 10 < 2 ^ 32 := by decide
  omega

/-- The three places after the sample run. -/
theorem slipstream_registers_sample : ∃ iso' oem files sif',
    readOem (sampleFolder (sampleOem "ahci") [("ahci.sys", [1])]) = .ok oem ∧
      referencedFilenames oem = .ok files ∧ ReadsText iso' "TXTSETUP.SIF" sif' ∧
      ∃ sif, SifGained sif sif' files := by
  have hadDosnet := bothTexts_dosnet
  obtain ⟨iso', run⟩ := slipstream_sample (show [1] ≠ [] by decide) (by decide)
  have staged := bothTexts_fit.reads notDot_patched.2
  rw [isoSortKey_patched.2, hadDosnet] at staged
  obtain ⟨oem, files, sif, sif', _, _, readsOem, readsNames, _, ⟨_, reads, gained⟩, _⟩ :=
    slipstream_registers bothTexts_fit.wellFormed staged run
  exact ⟨iso', oem, files, sif', readsOem, readsNames, reads, sif, gained⟩

/-! ### A pack with a `DOSNET.INF` of its own -/

def ownDosnetOem : Text := sampleOem "ahci" ++ "[Files.scsi.ahci]\r\ninf = d1, dosnet.inf\r\n".toList

def ownDosnetFolder : Folder :=
  sampleFolder ownDosnetOem [("ahci.sys", [1]), ("dosnet.inf", toUtf8 sampleDosnet)]

def ownDosnetNames : List Text := ["ahci.sys".toList, "dosnet.inf".toList]

def ownDosnetEntries : List (Bytes × Bytes) :=
  [(ascii "AHCI.SYS", [1]), (ascii "DOSNET.INF", toUtf8 sampleDosnet)]

set_option maxRecDepth 20000 in
theorem ownDosnetPack : Packs ownDosnetFolder ownDosnetOem "ahci".toList "AHCI".toList ownDosnetNames
    sampleIds ownDosnetEntries where
  readsOem := readOem_sampleFolder _ _
  readsNames := by decide
  nonempty := by decide
  readsIds := by decide
  readsServices := by decide
  readsDisplay := by decide
  found := by decide

set_option maxRecDepth 20000 in
/-- The volume has no `DOSNET.INF`, so the pack's own is appended and then patched. -/
theorem ownDosnet_run : ∃ iso',
    (slipstreamAhciIntoIso .plain ownDosnetFolder).run (textIso 114 sifOnly) = .ok () iso' := by
  have patches : patchTxtsetupSif .plain sampleSif "ahci".toList "AHCI".toList ownDosnetNames
      sampleIds = .ok ⟨patchedSif
          "ahci.sys = 1,,,,,,_x,4,1,,,1,4\r\ndosnet.inf = 1,,,,,,_x,20,0,0\r\n",
        ⟨"ahci".toList, "AHCI".toList, ownDosnetNames, 1⟩⟩ := by decide
  have dosnet : patchDosnetInf sampleDosnet ownDosnetNames
      = .ok (sampleDosnet ++ "\r\nd1,ahci.sys\r\nd1,dosnet.inf".toList) := by decide
  have hadSif := sifOnly_fit.stored
    (show (20 * sectorSize, toUtf8 sampleSif) ∈ textData sifOnly by decide)
    (show fileExtent _ (ascii "TXTSETUP.SIF") = _ by decide)
  obtain ⟨room', admitted, lba⟩ := Option.map_eq_some_iff.mp
    (show (ownDosnetEntries.foldlM Room.append (textRoom 114 sifOnly)).map Room.nextLba
      = some 23 by decide)
  exact slipstream_succeeds ownDosnetPack sifOnly_fit.stores admitted hadSif patches rfl dosnet
    (by decide) (by rw [lba]; decide)

/-- **A pack's own `DOSNET.INF` does not keep its bytes** in an image that had none: the step patches
the file it has just appended. -/
theorem slipstream_replaces_dosnet : ¬ ∀ (order : HashOrder) (dir : Folder) (iso iso' : Image),
    WellFormed iso → (slipstreamAhciIntoIso order dir).run iso = .ok () iso' →
    ∃ oem files, readOem dir = .ok oem ∧ referencedFilenames oem = .ok files ∧
      ∀ name ∈ files, ∃ file, findCaseInsensitive dir name = some file ∧
        readFileFromI386 iso' (toUtf8 (isoLongName name)) = .ok (some file.2) := by
  intro claimed
  obtain ⟨iso', run⟩ := ownDosnet_run
  obtain ⟨oem, names, readsOem, readsNames, holds⟩ := claimed _ _ _ iso' sifOnly_fit.wellFormed run
  obtain rfl := Except.ok.inj (ownDosnetPack.readsOem.symm.trans readsOem)
  obtain rfl := Except.ok.inj (ownDosnetPack.readsNames.symm.trans readsNames)
  obtain ⟨stores, _⟩ := sifOnly_fit.stores.stores
  obtain ⟨files', oem', names', sif, sif', dosnet, dosnet', step⟩ :=
    slipstreamAhciIntoIso_eq_ok stores run
  obtain rfl := Except.ok.inj (readsOem.symm.trans step.readsOem)
  obtain rfl := Except.ok.inj (readsNames.symm.trans step.readsNames)
  have inPack : "dosnet.inf".toList ∈ ownDosnetNames := by decide
  -- the file of the folder, the file the step patches and the file that is claimed are one text
  have inFolder : findCaseInsensitive ownDosnetFolder "dosnet.inf".toList
      = some ("dosnet.inf".toList, toUtf8 sampleDosnet) := by decide
  obtain ⟨_, file, found, stored⟩ := step.inserted _ inPack
  obtain rfl := Option.some.inj (inFolder.symm.trans found)
  obtain ⟨file, found, reads⟩ := holds _ inPack
  obtain rfl := Option.some.inj (inFolder.symm.trans found)
  have had := step.hadDosnet
  rw [FileMap.insert, if_neg (by decide)] at had
  have same : toUtf8 sampleDosnet = toUtf8 dosnet := Option.some.inj (stored.symm.trans had)
  obtain ⟨_, _, _, _, _, represents⟩ := step.stores
  have known := (represents.reads _ notDot_patched.2).symm.trans reads
  rw [isoSortKey_patched.2, FileMap.insert, if_pos rfl] at known
  have same' : toUtf8 dosnet' = toUtf8 sampleDosnet := Option.some.inj (Except.ok.inj known)
  obtain rfl := toUtf8_injective same
  obtain rfl := toUtf8_injective same'
  exact absurd step.dosnetPatch (by decide)

end Bootsmith.Driver
