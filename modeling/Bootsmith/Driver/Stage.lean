/-
**Staging the files of the stick** (`windows_ntxp.rs`).

`validateCapacity` runs before the disk is erased. It reserves 16 MiB beside the ISO and the assets, while
the staged ISO grows by the driver files, by new copies of two texts and by the answer file.

* `copyFrom_eq`: the copy of the ISO is the ISO, however its bytes are read;
* `stageFiles_eq_ok`: what a run that completes leaves on the stick;
* `stageFiles_fits_iff`: the staged files fit exactly when what the run writes into the ISO, with what
  rounding up adds, is within the reserve and what the device has to spare;
* `stageFiles_too_large`: a pack that is admitted and does not fit.
-/

import Bootsmith.Disk.Guard
import Bootsmith.Driver.Registers
import Bootsmith.Floppy.Separated
import Bootsmith.Iso.Growth
import Bootsmith.Library.ByteSource
import Bootsmith.Unattended.WinntSif

namespace Bootsmith.Driver

open Bootsmith.Library Bootsmith.Iso Bootsmith.Core Bootsmith.Disk

/-! ### The check of the capacity -/

/-- The embedded files. -/
structure Assets where
  grldr : Bytes
  firadiskIma : Image

def menuLst : Text :=
  ("timeout 10\ndefault 0\n\n"
    ++ "title 1. XP text-mode setup from RAM ISO (FiraDisk)\n"
    ++ "map (hd0) (hd1)\nmap (hd1) (hd0)\nmap --mem /FIRADISK.IMA (fd0)\n"
    ++ "# (fd1) duplicate disabled 2026-05-22 to test the Win2k 0x7B/0xC0000035\n"
    ++ "# name-collision hypothesis (FiraDisk loading twice). Restore if XP\n"
    ++ "# regresses or if Win2k still BSODs with the same code.\n"
    ++ "#map --mem /FIRADISK.IMA (fd1)\nmap --mem /XP.ISO (0xff)\nmap --hook\n"
    ++ "root (0xff)\nchainloader (0xff)/I386/SETUPLDR.BIN\n\n"
    ++ "title 2. Continue XP GUI-mode setup from internal HDD\n"
    ++ "map (hd0) (hd1)\nmap (hd1) (hd0)\nmap --mem /FIRADISK.IMA (fd0)\n"
    ++ "# (fd1) duplicate disabled 2026-05-22 to test the Win2k 0x7B/0xC0000035\n"
    ++ "# name-collision hypothesis (FiraDisk loading twice). Restore if XP\n"
    ++ "# regresses or if Win2k still BSODs with the same code.\n"
    ++ "#map --mem /FIRADISK.IMA (fd1)\nmap --mem /XP.ISO (0xff)\nmap --hook\n"
    ++ "root (hd0,0)\nchainloader (hd0)+1\n\n"
    ++ "title 3. XP text-mode setup via ISO boot image\n"
    ++ "map (hd0) (hd1)\nmap (hd1) (hd0)\nmap --mem /FIRADISK.IMA (fd0)\n"
    ++ "# (fd1) duplicate disabled 2026-05-22 to test the Win2k 0x7B/0xC0000035\n"
    ++ "# name-collision hypothesis (FiraDisk loading twice). Restore if XP\n"
    ++ "# regresses or if Win2k still BSODs with the same code.\n"
    ++ "#map --mem /FIRADISK.IMA (fd1)\nmap --mem /XP.ISO (0xff)\nmap --hook\n"
    ++ "chainloader (0xff)\n").toList

/-- The bytes that are kept for what the check does not know. -/
def reserve : Nat := 16 * 1024 * 1024

/-- The bytes that the check asks for. The length of a file is below `2 ^ 63`, so the sum does not
overflow. -/
def neededBytes (assets : Assets) (plan : WritePlan) : Nat :=
  plan.isoBytes + assets.grldr.length + assets.firadiskIma.size + (toUtf8 menuLst).length + reserve

/-- The bytes behind the start of the partition, at sector 2048 of 512 bytes. -/
def usableBytes (info : DeviceInfo) : Nat := info.sizeBytes - 2048 * 512

def validateCapacity (assets : Assets) (plan : WritePlan) (info : DeviceInfo) : Fallible Unit :=
  let needed := neededBytes assets plan
  let usable := usableBytes info
  if needed > usable then
    Fallible.bail s!"NT/XP FiraDisk payload needs {needed} bytes; device has about {usable} usable bytes"
  else .ok ()

theorem validateCapacity_eq_ok {assets : Assets} {plan : WritePlan} {info : DeviceInfo} :
    validateCapacity assets plan info = .ok () ↔ neededBytes assets plan ≤ usableBytes info := by
  unfold validateCapacity
  rw [Fallible.guard_eq_ok, not_lt]
  exact and_iff_left rfl

/-! ### The stick -/

/-- The files of the formatted stick. -/
structure Stick where
  grldr : Option Bytes
  menuLst : Option Bytes
  xpIso : Option Image
  firadiskIma : Option Image

/-- The bytes of the files, each rounded up to whole sectors of an ISO. -/
def Stick.total (stick : Stick) : Nat :=
  stick.grldr.elim 0 (fun bytes => toSectors bytes.length)
    + stick.menuLst.elim 0 (fun bytes => toSectors bytes.length)
    + stick.xpIso.elim 0 (fun image => toSectors image.size)
    + stick.firadiskIma.elim 0 (fun image => toSectors image.size)

theorem Stick.total_of_files (grldr menuLst : Bytes) (xpIso firadiskIma : Image) :
    Stick.total ⟨some grldr, some menuLst, some xpIso, some firadiskIma⟩ = toSectors grldr.length
      + toSectors menuLst.length + toSectors xpIso.size + toSectors firadiskIma.size := rfl

/-- The loop that copies the ISO, with what has been written so far. -/
def copyFrom (source : ByteSource) (output : Bytes) : Bytes :=
  match _taken : source.read (4 * 1024 * 1024) with
  | (bytes, next) => if bytes = [] then output else copyFrom next (output ++ bytes)
termination_by source.rest.length
decreasing_by
  rename_i something
  have split : (source.read (4 * 1024 * 1024)).1.length + _ = _ := source.read_length
  have some := List.length_pos_of_ne_nil something
  simp only [_taken] at split
  omega

def copyIsoAsXpIso (source : ByteSource) : Effect Stick Unit :=
  Effect.update fun stick => { stick with xpIso := some (Image.ofBytes (copyFrom source [])) }

/-- A call on the staged ISO. -/
def onXpIso (call : Effect Image Unit) : Effect Stick Unit := fun stick =>
  match stick.xpIso with
  | none => .error (.error ["open XP.ISO"]) stick
  | some iso =>
    match call.run iso with
    | .ok value iso' => .ok value { stick with xpIso := some iso' }
    | .error failure iso' => .error failure { stick with xpIso := some iso' }

/-- What a call leaves of a buffer of its own. -/
def leaves (call : Effect Image Unit) (buffer : Image) : Fallible Image :=
  match call.run buffer with
  | .ok _ buffer' => .ok buffer'
  | .error failure _ => .error failure

/-- The floppy, and the answer file in both places when a setup is unattended. -/
def stageUnattended (assets : Assets) : Option UnattendedConfig → Effect Stick Image
  | none => pure assets.firadiskIma
  | some unattended => do
    let sif := toUtf8 (Unattended.generateWinntSifNtXp unattended)
    let firadisk ← Effect.lift (Fallible.context "injecting A:\\WINNT.SIF into FiraDisk floppy image"
      (leaves (Floppy.addWinntSif sif) assets.firadiskIma))
    Effect.context "injecting I386/WINNT.SIF into XP.ISO" (onXpIso (injectWinntSif sif))
    pure firadisk

/-- The slipstream of the folder that the user names. -/
def stageDrivers (order : HashOrder) (folderAt : Text → Folder) : Option Text → Effect Stick Unit
  | none => pure ()
  | some dir => Effect.context s!"slipstreaming AHCI drivers from {String.ofList dir}"
      (onXpIso (slipstreamAhciIntoIso order (folderAt dir)))

def stageFiles (order : HashOrder) (assets : Assets) (folderAt : Text → Folder) (iso : ByteSource)
    (config : Config) : Effect Stick Unit := do
  Effect.update fun stick => { stick with grldr := some assets.grldr }
  Effect.update fun stick => { stick with menuLst := some (toUtf8 menuLst) }
  copyIsoAsXpIso iso
  stageDrivers order folderAt config.ahciDriverDir
  let firadisk ← stageUnattended assets config.unattended
  Effect.update fun stick => { stick with firadiskIma := some firadisk }

/-- **The copy is the source**, in whatever pieces it is read. -/
theorem copyFrom_eq (source : ByteSource) (output : Bytes) :
    copyFrom source output = output ++ source.rest := by
  induction left : source.rest.length using Nat.strong_induction_on generalizing source output with
  | _ left ih =>
    subst left
    rw [copyFrom]
    have shorter : (source.read (4 * 1024 * 1024)).1.length + _ = _ := source.read_length
    have whole : (source.read (4 * 1024 * 1024)).1 ++ _ = _ := source.read_append
    split
    rename_i bytes next taken
    simp only [taken] at shorter whole
    split
    · rename_i nothing
      have ended := (source.read_eq_nil (show 0 < 4 * 1024 * 1024 by decide)).mp
        ((congrArg Prod.fst taken).trans nothing)
      rw [ended, List.append_nil]
    · rename_i something
      have some := List.length_pos_of_ne_nil something
      rw [ih _ (by omega) next (output ++ bytes) rfl, List.append_assoc, whole]

/-! ### What a slipstream writes -/

/-- The appends of the driver files. -/
def appendCalls (entries : List (Bytes × Bytes)) : List Call :=
  entries.map fun entry => .append entry.1 entry.2

/-- A slipstream of a folder into an image: what it reads, and the two texts it finds and patches. -/
structure Slipstream (order : HashOrder) (dir : Folder) (image : Image) where
  oem : Text
  service : Text
  display : Text
  names : List Text
  ids : List (Text × Text)
  entries : List (Bytes × Bytes)
  pack : Packs dir oem service display names ids entries
  /-- The image with the driver files. -/
  appended : Image
  appends : (appendDriverFiles dir names).run image = .ok () appended
  sif : Text
  readsSif : readI386Text "TXTSETUP.SIF" appended = .ok sif
  patched : Patched
  patches : patchTxtsetupSif order sif service display names ids = .ok patched
  /-- The image with the patched `TXTSETUP.SIF`. -/
  between : Image
  replaces : (replaceFileInI386 (ascii "TXTSETUP.SIF") (toUtf8 patched.text)).run appended = .ok () between
  dosnet : Text
  readsDosnet : readI386Text "DOSNET.INF" between = .ok dosnet
  dosnet' : Text
  patchesDosnet : patchDosnetInf dosnet names = .ok dosnet'

namespace Slipstream

variable {order : HashOrder} {dir : Folder} {image image' : Image}

/-- The contents that are written: the driver files, and the two patched texts. -/
def contents (slipstream : Slipstream order dir image) : List Bytes :=
  slipstream.entries.map Prod.snd ++ [toUtf8 slipstream.patched.text, toUtf8 slipstream.dosnet']

def calls (slipstream : Slipstream order dir image) : List Call :=
  appendCalls slipstream.entries ++ [.replace (ascii "TXTSETUP.SIF") (toUtf8 slipstream.patched.text),
    .replace (ascii "DOSNET.INF") (toUtf8 slipstream.dosnet')]

theorem calls_contents (slipstream : Slipstream order dir image) :
    slipstream.calls.map Call.contents = slipstream.contents := by
  rw [calls, contents, List.map_append, appendCalls, List.map_map]
  rfl

/-- What is written is told by the folder and the image. -/
theorem contents_unique (first second : Slipstream order dir image) :
    first.contents = second.contents := by
  obtain ⟨oem, service, display, names, ids, entries, pack, appended, appends, sif, readsSif, patched, patches,
    between, replaces, dosnet, readsDosnet, dosnet', patchesDosnet⟩ := first
  obtain ⟨_, _, _, _, _, _, pack', _, appends', _, readsSif', _, patches', _, replaces', _, readsDosnet', _,
    patchesDosnet'⟩ := second
  -- each part is the result of a call on the parts before it
  obtain rfl := Except.ok.inj (pack.readsOem.symm.trans pack'.readsOem)
  obtain rfl := Except.ok.inj (pack.readsNames.symm.trans pack'.readsNames)
  obtain rfl := Except.ok.inj (pack.readsIds.symm.trans pack'.readsIds)
  obtain rfl := List.singleton_inj.mp (Except.ok.inj (pack.readsServices.symm.trans pack'.readsServices))
  obtain rfl := Except.ok.inj (pack.readsDisplay.symm.trans pack'.readsDisplay)
  obtain rfl := Option.some.inj (pack.found.symm.trans pack'.found)
  obtain ⟨-, rfl⟩ := EStateM.Result.ok.inj (appends.symm.trans appends')
  obtain rfl := Except.ok.inj (readsSif.symm.trans readsSif')
  obtain rfl := Except.ok.inj (patches.symm.trans patches')
  obtain ⟨-, rfl⟩ := EStateM.Result.ok.inj (replaces.symm.trans replaces')
  obtain rfl := Except.ok.inj (readsDosnet.symm.trans readsDosnet')
  obtain rfl := Except.ok.inj (patchesDosnet.symm.trans patchesDosnet')
  rfl

/-- **On a well-formed image the texts are its own**, except a `DOSNET.INF` that comes with the pack. -/
theorem reads_of_wellFormed (slipstream : Slipstream order dir image) (wellFormed : WellFormed image) :
    ReadsText image "TXTSETUP.SIF" slipstream.sif ∧
      ∀ known, readFileFromI386 image (ascii "DOSNET.INF") = .ok (some known) →
        ReadsText image "DOSNET.INF" slipstream.dosnet := by
  obtain ⟨i386, found⟩ : ∃ i386, findI386Record image = .ok i386 := by
    have appends := slipstream.appends
    cases named : slipstream.names with
    | nil => exact absurd named slipstream.pack.nonempty
    | cons name rest =>
      rw [named] at appends
      obtain ⟨file, _, appends⟩ := (Effect.lift_bind_eq_ok _ _ _ _ _).mp appends
      obtain ⟨_, _, one, _⟩ := (Effect.bind_eq_ok _ _ _ _ _).mp appends
      exact findI386_of_append ((Effect.context_eq_ok _ _ _ _ _).mp one)
  obtain ⟨root, rootPlaced, placed, staged, _⟩ := wellFormed.staged found
  have reads := staged.represents.reads
  have start : StoresFiles image (stagedFiles image placed) :=
    ⟨root, i386, rootPlaced, placed, staged, staged.represents⟩
  generalize stagedFiles image placed = files at start reads
  obtain ⟨files', stores, inserted, kept⟩ := appendDriverFiles_stores start slipstream.appends
  have hadSif := StoresFiles.text stores notDot_patched.1 (readI386Text_eq_ok.mp slipstream.readsSif)
  obtain ⟨driverSys, groups, patching⟩ := patchTxtsetupSif_eq_ok slipstream.patches
  have replace : (Call.replace (ascii "TXTSETUP.SIF") (toUtf8 slipstream.patched.text)).run.run
      slipstream.appended = .ok () slipstream.between := slipstream.replaces
  obtain ⟨between, acts, stores⟩ := stores.call replace
  have hadDosnet := StoresFiles.text stores notDot_patched.2 (readI386Text_eq_ok.mp slipstream.readsDosnet)
  rw [isoSortKey_patched.1] at hadSif
  simp only [Call.act, Call.fileName, isoSortKey_patched.1, hadSif] at acts
  obtain rfl := Option.some.inj acts
  rw [isoSortKey_patched.2, FileMap.insert, if_neg (by decide)] at hadDosnet
  refine ⟨?_, fun known own => ?_⟩
  · rw [ReadsText, reads _ notDot_patched.1, isoSortKey_patched.1, ← hadSif, kept _ fun name member =>
      (driverKey_ne (patching.formats name member) (by decide)).symm]
  · rw [reads _ notDot_patched.2, isoSortKey_patched.2] at own
    -- the image has the file, so no driver file has its key
    have notDriver : ∀ name ∈ slipstream.names, ascii "DOSNET.INF" ≠ driverKey name := by
      intro name member same
      have absent := (inserted name member).1
      rw [← same, Except.ok.inj own] at absent
      cases absent
    rw [ReadsText, reads _ notDot_patched.2, isoSortKey_patched.2, ← hadDosnet, kept _ notDriver]

end Slipstream

/-- The loop is a run of appends of the files it finds. -/
theorem appendDriverFiles_calls {dir : Folder} {names : List Text} {image image' : Image}
    (run : (appendDriverFiles dir names).run image = .ok () image') :
    ∃ entries, driverFiles dir names = some entries ∧
      (runCalls (appendCalls entries)).run image = .ok () image' := by
  induction names generalizing image with
  | nil => exact ⟨[], rfl, run⟩
  | cons name rest ih =>
    obtain ⟨file, found, run⟩ := (Effect.lift_bind_eq_ok _ _ _ _ _).mp run
    rw [Fallible.okOr_eq_ok] at found
    obtain ⟨_, middle, one, run⟩ := (Effect.bind_eq_ok _ _ _ _ _).mp run
    rw [Effect.context_eq_ok] at one
    obtain ⟨entries, others, calls⟩ := ih run
    refine ⟨(toUtf8 (isoLongName name), file.2) :: entries, ?_,
      (runCalls_cons _ _ _ _ _).mpr ⟨middle, one, calls⟩⟩
    rw [driverFiles, List.mapM_cons, found]
    exact Option.bind_eq_some_iff.mpr ⟨_, rfl, Option.bind_eq_some_iff.mpr ⟨entries, others, rfl⟩⟩

/-- A patched file is a replacement by the patched text. -/
theorem patchI386File_call {name : String} {patch : Text → Fallible Text} {image image' : Image}
    {value : Unit}
    (run : (patchI386File name patch).run image = .ok value image') :
    ∃ text patched, readI386Text name image = .ok text ∧ patch text = .ok patched ∧
      (replaceFileInI386 (ascii name) (toUtf8 patched)).run image = .ok value image' := by
  obtain ⟨text, _, asked, run⟩ := (Effect.bind_eq_ok _ _ _ _ _).mp run
  obtain ⟨reads, rfl⟩ := (Effect.query_eq_ok _ _ _ _).mp asked
  obtain ⟨patched, patches, run⟩ := (Effect.lift_bind_eq_ok _ _ _ _ _).mp run
  rw [Fallible.context_eq_ok] at patches
  rw [Effect.context_eq_ok] at run
  exact ⟨text, patched, reads, patches, run⟩

/-- **A successful slipstream** is a run of its calls. -/
theorem slipstream_calls {order : HashOrder} {dir : Folder} {image image' : Image}
    (run : (slipstreamAhciIntoIso order dir).run image = .ok () image') :
    ∃ slipstream : Slipstream order dir image, (runCalls slipstream.calls).run image = .ok () image' := by
  obtain ⟨oem, readsOem, run⟩ := (Effect.lift_bind_eq_ok _ _ _ _ _).mp run
  obtain ⟨names, readsNames, run⟩ := (Effect.lift_bind_eq_ok _ _ _ _ _).mp run
  rw [Fallible.context_eq_ok] at readsNames
  split at run
  · exact ((Effect.bail_ne_ok _ _ _ _).mp run).elim
  rename_i nonempty
  obtain ⟨ids, readsIds, run⟩ := (Effect.lift_bind_eq_ok _ _ _ _ _).mp run
  rw [Fallible.context_eq_ok] at readsIds
  obtain ⟨services, readsServices, run⟩ := (Effect.lift_bind_eq_ok _ _ _ _ _).mp run
  split at run
  swap
  · exact ((Effect.bail_ne_ok _ _ _ _).mp run).elim
  rename_i service
  obtain ⟨display, readsDisplay, run⟩ := (Effect.lift_bind_eq_ok _ _ _ _ _).mp run
  obtain ⟨_, appended, appends, run⟩ := (Effect.bind_eq_ok _ _ _ _ _).mp run
  obtain ⟨_, between, patchesSif, run⟩ := (Effect.bind_eq_ok _ _ _ _ _).mp run
  obtain ⟨entries, found, calls⟩ := appendDriverFiles_calls appends
  obtain ⟨sif, _, readsSif, patching, replaces⟩ := patchI386File_call patchesSif
  obtain ⟨patched, patches, same⟩ := (Fallible.bind_eq_ok _ _ _).mp patching
  obtain rfl := (Fallible.pure_eq_ok _ _).mp same
  obtain ⟨dosnet, dosnet', readsDosnet, patchesDosnet, replacesDosnet⟩ := patchI386File_call run
  refine ⟨⟨oem, service, display, names, ids, entries,
    ⟨readsOem, readsNames, nonempty, readsIds, readsServices, readsDisplay, found⟩, appended, appends, sif,
    readsSif, patched, patches, between, replaces, dosnet, readsDosnet, dosnet', patchesDosnet⟩, ?_⟩
  refine (runCalls_append _ _ _ _).mpr ⟨appended, calls, ?_⟩
  exact (runCalls_cons _ _ _ _ _).mpr ⟨between, replaces,
    (runCalls_cons _ _ _ _ _).mpr ⟨image', replacesDosnet, rfl⟩⟩

/-! ### What a run leaves -/

/-- The contents that the answer file adds to the ISO. -/
def sifContents (config : Config) : List Bytes :=
  config.unattended.elim [] fun unattended => [toUtf8 (Unattended.generateWinntSifNtXp unattended)]

/-- The contents that the drivers add to the ISO: none without a folder. -/
def DriverContents (order : HashOrder) (folderAt : Text → Folder) (config : Config) (image : Image)
    (contents : List Bytes) : Prop :=
  match config.ahciDriverDir with
  | none => contents = []
  | some dir => ∃ slipstream : Slipstream order (folderAt dir) image, slipstream.contents = contents

theorem DriverContents.unique {order : HashOrder} {folderAt : Text → Folder} {config : Config}
    {image : Image}
    {first second : List Bytes} (described : DriverContents order folderAt config image first)
    (described' : DriverContents order folderAt config image second) : first = second := by
  unfold DriverContents at described described'
  cases named : config.ahciDriverDir with
  | none =>
    rw [named] at described described'
    exact described.trans described'.symm
  | some dir =>
    rw [named] at described described'
    obtain ⟨slipstream, rfl⟩ := described
    obtain ⟨slipstream', rfl⟩ := described'
    exact slipstream.contents_unique slipstream'

section Run

variable {order : HashOrder} {assets : Assets} {folderAt : Text → Folder} {stick stick' : Stick}
  {image : Image}

theorem onXpIso_eq_ok {call : Effect Image Unit} (there : stick.xpIso = some image)
    (run : (onXpIso call).run stick = .ok () stick') :
    ∃ image', call.run image = .ok () image' ∧ stick' = { stick with xpIso := some image' } := by
  change onXpIso call stick = _ at run
  unfold onXpIso at run
  rw [there] at run
  cases result : call.run image with
  | ok value image' =>
    simp only [result] at run
    cases run
    exact ⟨image', rfl, rfl⟩
  | error failure image' =>
    simp only [result] at run
    cases run

theorem leaves_eq_ok {call : Effect Image Unit} {buffer buffer' : Image} :
    leaves call buffer = .ok buffer' ↔ call.run buffer = .ok () buffer' := by
  unfold leaves
  cases call.run buffer with
  | ok value last => simp
  | error failure last => simp

/-- A file added to a floppy does not change its length. -/
theorem addWinntSif_size {contents : Bytes} {floppy floppy' : Image}
    (run : (Floppy.addWinntSif contents).run floppy = .ok () floppy') : floppy'.size = floppy.size := by
  obtain ⟨layout, parsed⟩ : ∃ layout, Floppy.parseLayout floppy = .ok layout := by
    unfold Floppy.addWinntSif Floppy.addFile at run
    split at run
    · exact ((Effect.bail_ne_ok _ _ _ _).mp run).elim
    obtain ⟨layout, _, asked, _⟩ := (Effect.bind_eq_ok _ _ _ _ _).mp run
    exact ⟨layout, ((Effect.query_eq_ok _ _ _ _).mp asked).1⟩
  have safe : Effect.SafeAt (Frame (fun _ => True) floppy) (Floppy.addWinntSif contents) floppy :=
    Floppy.addFile_safe parsed (fun _ _ _ _ _ _ _ => trivial) (fun _ _ _ _ => trivial)
      (fun _ _ _ _ => trivial) Floppy.winntSifDosName contents
  exact (safe.holds run).size

/-- **The drivers on the stick**: the ISO grows by their contents, all else stays. -/
theorem stageDrivers_eq_ok (config : Config) (there : stick.xpIso = some image)
    (run : (stageDrivers order folderAt config.ahciDriverDir).run stick = .ok () stick') :
    ∃ image' contents, DriverContents order folderAt config image contents ∧
      stick' = { stick with xpIso := some image' } ∧
      toSectors image'.size = toSectors image.size + sectorsOf contents := by
  unfold DriverContents
  cases named : config.ahciDriverDir with
  | none =>
    rw [named] at run
    obtain ⟨_, rfl⟩ := (Effect.pure_eq_ok _ _ _ _).mp run
    refine ⟨image, [], rfl, ?_, by rw [sectorsOf_nil, Nat.add_zero]⟩
    rw [← there]
  | some dir =>
    rw [named] at run
    obtain ⟨image', slipstreams, rfl⟩ := onXpIso_eq_ok there ((Effect.context_eq_ok _ _ _ _ _).mp run)
    obtain ⟨slipstream, calls⟩ := slipstream_calls slipstreams
    refine ⟨image', slipstream.contents, ⟨slipstream, rfl⟩, rfl, ?_⟩
    rw [← slipstream.calls_contents]
    exact runCalls_size calls

/-- **The answer file on the stick**: the ISO grows by it, the floppy keeps its length. -/
theorem stageUnattended_eq_ok (config : Config) (there : stick.xpIso = some image) {floppy : Image}
    (run : (stageUnattended assets config.unattended).run stick = .ok floppy stick') :
    ∃ image', stick' = { stick with xpIso := some image' } ∧ floppy.size = assets.firadiskIma.size ∧
      toSectors image'.size = toSectors image.size + sectorsOf (sifContents config) := by
  unfold sifContents
  cases asked : config.unattended with
  | none =>
    rw [asked] at run
    obtain ⟨rfl, rfl⟩ := (Effect.pure_eq_ok _ _ _ _).mp run
    refine ⟨image, ?_, rfl, by rw [Option.elim_none, sectorsOf_nil, Nat.add_zero]⟩
    rw [← there]
  | some unattended =>
    rw [asked] at run
    obtain ⟨floppy', adds, run⟩ := (Effect.lift_bind_eq_ok _ _ _ _ _).mp run
    rw [Fallible.context_eq_ok, leaves_eq_ok] at adds
    obtain ⟨_, middle, injects, done⟩ := (Effect.bind_eq_ok _ _ _ _ _).mp run
    rw [Effect.context_eq_ok] at injects
    obtain ⟨rfl, rfl⟩ := (Effect.pure_eq_ok _ _ _ _).mp done
    obtain ⟨image', call, rfl⟩ := onXpIso_eq_ok there injects
    have inject : (Call.inject (toUtf8 (Unattended.generateWinntSifNtXp unattended))).run.run image
        = .ok () image' := call
    refine ⟨image', rfl, addWinntSif_size adds, ?_⟩
    rw [Call.run_size inject, toSectors_add, toSectors_toSectors, Option.elim_some, sectorsOf_cons,
      sectorsOf_nil, Nat.add_zero, Call.contents]

/-- **What a run leaves on the stick**: the assets, and an ISO that grew by what was written into it. -/
theorem stageFiles_eq_ok {iso : ByteSource} {config : Config}
    (run : (stageFiles order assets folderAt iso config).run stick = .ok () stick') :
    ∃ contents, DriverContents order folderAt config (Image.ofBytes iso.rest) contents ∧
      stick'.total = toSectors assets.grldr.length + toSectors (toUtf8 menuLst).length
        + (toSectors iso.rest.length + sectorsOf contents + sectorsOf (sifContents config))
        + toSectors assets.firadiskIma.size := by
  unfold stageFiles copyIsoAsXpIso at run
  simp only [Effect.bind_eq_ok, Effect.update_eq_ok, exists_eq_left', exists_const] at run
  obtain ⟨_, middle, drivers, floppy, last, answers, rfl⟩ := run
  obtain ⟨image, contents, describes, rfl, grown⟩ := stageDrivers_eq_ok config rfl drivers
  obtain ⟨image', rfl, kept, grown'⟩ := stageUnattended_eq_ok config rfl answers
  have copied : copyFrom iso [] = iso.rest := copyFrom_eq iso []
  have size : (Image.ofBytes iso.rest).size = iso.rest.length := rfl
  rw [copied] at describes grown
  refine ⟨contents, describes, ?_⟩
  refine (Stick.total_of_files assets.grldr (toUtf8 menuLst) image' floppy).trans ?_
  rw [kept, grown', grown, size]

end Run

/-! ### When the staged files fit -/

/-- The bytes from a length up to the next whole sector. -/
def toNextSector (length : Nat) : Nat := toSectors length - length

/-- What is staged beyond the bytes that the check adds up: what is written into the ISO, and the bytes up
to the next sector behind each file. -/
def growth (assets : Assets) (isoBytes : Nat) (contents : List Bytes) : Nat :=
  sectorsOf contents + toNextSector isoBytes + toNextSector assets.grldr.length
    + toNextSector (toUtf8 menuLst).length + toNextSector assets.firadiskIma.size

theorem add_toNextSector (length : Nat) : length + toNextSector length = toSectors length :=
  Nat.add_sub_of_le (le_toSectors length)

/-- **When the staged files fit** the device that was checked: what the run adds is within the reserve and
what the device has beyond the bytes that were asked for. -/
theorem stageFiles_fits_iff {order : HashOrder} {assets : Assets} {folderAt : Text → Folder}
    {iso : ByteSource} {config : Config} {plan : WritePlan} {info : DeviceInfo} {stick stick' : Stick}
    (planned : plan.isoBytes = iso.rest.length) (accepted : validateCapacity assets plan info = .ok ())
    (completed : (stageFiles order assets folderAt iso config).run stick = .ok () stick') :
    ∃ contents, (∀ described, DriverContents order folderAt config (Image.ofBytes iso.rest) described ↔
        described = contents) ∧
      (stick'.total ≤ usableBytes info ↔
        growth assets iso.rest.length (contents ++ sifContents config)
          ≤ reserve + (usableBytes info - neededBytes assets plan)) := by
  obtain ⟨contents, describes, total⟩ := stageFiles_eq_ok completed
  refine ⟨contents, fun described => ⟨fun other => other.unique describes, fun same => same ▸ describes⟩, ?_⟩
  rw [validateCapacity_eq_ok] at accepted
  have isoEnd := add_toNextSector iso.rest.length
  have grldrEnd := add_toNextSector assets.grldr.length
  have menuEnd := add_toNextSector (toUtf8 menuLst).length
  have floppyEnd := add_toNextSector assets.firadiskIma.size
  rw [total, growth, sectorsOf_append]
  unfold neededBytes at accepted ⊢
  omega

theorem toNextSector_lt (length : Nat) : toNextSector length < sectorSize := by
  have positive := sectorSize_pos
  have up : toSectors length < length + sectorSize := alignUp_lt length positive
  unfold toNextSector
  omega

/-- The rounding takes less than four sectors. -/
theorem growth_lt (assets : Assets) (isoBytes : Nat) (contents : List Bytes) :
    growth assets isoBytes contents < sectorsOf contents + 4 * sectorSize := by
  have isoEnd := toNextSector_lt isoBytes
  have grldrEnd := toNextSector_lt assets.grldr.length
  have menuEnd := toNextSector_lt (toUtf8 menuLst).length
  have floppyEnd := toNextSector_lt assets.firadiskIma.size
  rw [growth]
  omega

/-- **Without drivers and an answer file the staged files fit**: the reserve covers the rounding. -/
theorem growth_nil_le (assets : Assets) (isoBytes : Nat) : growth assets isoBytes [] ≤ reserve := by
  have rounding := growth_lt assets isoBytes []
  have covered : 4 * sectorSize ≤ reserve := by decide
  rw [sectorsOf_nil] at rounding
  omega

/-! ### A pack that does not fit -/

/-- The sample pack with this driver. -/
def driverFolder (driver : Bytes) : Folder := sampleFolder (sampleOem "ahci") [("ahci.sys", driver)]

/-- A file that is read a sector at a time. -/
def sourceOf (image : Image) : ByteSource := ⟨image.bytes, fun _ => sectorSize, 0⟩

def ahciConfig : Config where
  isoPath := "sample.iso".toList
  devicePath := "/dev/disk3".toList
  mode := .windowsNtXp
  label := none
  dryRun := false
  force := false
  unattended := none
  ahciDriverDir := some "drivers".toList

def planOf (iso : ByteSource) : WritePlan :=
  ⟨"sample.iso".toList, iso.rest.length, .windowsNtXp, "BOOTSMITHXP".toList⟩

theorem planOf_isoBytes (iso : ByteSource) : (planOf iso).isoBytes = iso.rest.length := rfl

/-- The smallest device with these usable bytes. -/
def deviceOf (usable : Nat) : DeviceInfo where
  path := "/dev/rdisk3".toList
  sizeBytes := usable + 2048 * 512
  model := "stick".toList
  internal := false
  isBootDisk := false
  removable := true

def emptyStick : Stick := ⟨none, none, none, none⟩

/-- Assets of the lengths the embedded ones have. -/
def blankAssets : Assets := ⟨List.replicate 332181 0, Image.zeros 1474560⟩

theorem deviceOf_usable (usable : Nat) : usableBytes (deviceOf usable) = usable :=
  Nat.add_sub_cancel usable (2048 * 512)

/-- The smallest device that is accepted. -/
theorem deviceOf_accepted (assets : Assets) (plan : WritePlan) :
    validateCapacity assets plan (deviceOf (neededBytes assets plan)) = .ok () := by
  rw [validateCapacity_eq_ok, deviceOf_usable]

theorem onXpIso_of_ok {call : Effect Image Unit} {stick : Stick} {image image' : Image}
    (there : stick.xpIso = some image) (run : call.run image = .ok () image') :
    (onXpIso call).run stick = .ok () { stick with xpIso := some image' } := by
  show onXpIso call stick = _
  unfold onXpIso
  rw [there]
  simp only [run]

section Sample

variable {assets : Assets} {driver : Bytes} {image image' : Image}
  (run : (slipstreamAhciIntoIso .plain (driverFolder driver)).run image = .ok () image')

include run

/-- A slipstream that succeeds on the copied ISO completes the staging. -/
theorem driverFolder_completes (assets : Assets) :
    ∃ stick, (stageFiles .plain assets (fun _ => driverFolder driver) (sourceOf image) ahciConfig).run
      emptyStick = .ok () stick := by
  have copied : copyFrom (sourceOf image) [] = image.bytes := copyFrom_eq (sourceOf image) []
  have same := Image.ofBytes_bytes image
  unfold stageFiles copyIsoAsXpIso
  simp only [Effect.bind_eq_ok, Effect.update_eq_ok, exists_eq_left', exists_const]
  rw [copied, same]
  have drivers : (onXpIso (slipstreamAhciIntoIso .plain (driverFolder driver))).run
      (⟨some assets.grldr, some (toUtf8 menuLst), some image, none⟩ : Stick) = .ok () _ := onXpIso_of_ok rfl run
  exact ⟨_, _, _, (Effect.context_eq_ok _ _ _ _ _).mpr drivers, assets.firadiskIma, _,
    (Effect.pure_eq_ok _ _ _ _).mpr ⟨rfl, rfl⟩, rfl⟩

omit run in
/-- A slipstream of the sample pack writes its driver. -/
theorem driver_le_sectorsOf {order : HashOrder}
    (slipstream : Slipstream order (driverFolder driver) image) :
    driver.length ≤ sectorsOf slipstream.contents := by
  have packed : Packs (driverFolder driver) _ _ _ _ _ _ := samplePack driver
  have oem := Except.ok.inj (slipstream.pack.readsOem.symm.trans packed.readsOem)
  have readsNames := slipstream.pack.readsNames
  rw [oem, packed.readsNames] at readsNames
  have found := slipstream.pack.found
  rw [← Except.ok.inj readsNames, packed.found] at found
  have up := le_toSectors driver.length
  rw [Slipstream.contents, ← Option.some.inj found, List.map_cons, List.cons_append, sectorsOf_cons]
  exact up.trans (Nat.le_add_right _ _)

/-- **A driver larger than the reserve is admitted and does not fit.** -/
theorem driver_too_large (assets : Assets) (large : reserve < driver.length) :
    ∃ stick, (stageFiles .plain assets (fun _ => driverFolder driver) (sourceOf image) ahciConfig).run
        emptyStick = .ok () stick ∧
      neededBytes assets (planOf (sourceOf image)) < stick.total := by
  obtain ⟨stick, completed⟩ := driverFolder_completes run assets
  obtain ⟨contents, describes, total⟩ := stageFiles_eq_ok completed
  obtain ⟨slipstream, rfl⟩ : ∃ slipstream : Slipstream .plain (driverFolder driver)
    (Image.ofBytes (sourceOf image).rest), slipstream.contents = contents := describes
  have written := driver_le_sectorsOf slipstream
  have isoEnd := le_toSectors (sourceOf image).rest.length
  have grldrEnd := le_toSectors assets.grldr.length
  have menuEnd := le_toSectors (toUtf8 menuLst).length
  have floppyEnd := le_toSectors assets.firadiskIma.size
  refine ⟨stick, completed, ?_⟩
  rw [total, neededBytes, planOf_isoBytes]
  omega

end Sample

theorem ofBytes_sourceOf (image : Image) : Image.ofBytes (sourceOf image).rest = image := Image.ofBytes_bytes image

set_option maxRecDepth 20000 in
/-- What a slipstream of the sample pack writes into the volume with both texts. -/
theorem sampleSlipstream_contents (slipstream : Slipstream .plain (driverFolder [1]) (textIso 158 bothTexts)) :
    slipstream.contents = [[1], toUtf8 (patchedSif "ahci.sys = 1,,,,,,_x,4,1,,,1,4\r\n"),
      toUtf8 (sampleDosnet ++ "\r\nd1,ahci.sys".toList)] := by
  have fits := bothTexts_fit
  obtain ⟨readsSif, readsDosnet⟩ := slipstream.reads_of_wellFormed fits.wellFormed
  have hadSif := fits.reads notDot_patched.1
  have hadDosnet := fits.reads notDot_patched.2
  rw [isoSortKey_patched.1, bothTexts_sif] at hadSif
  rw [isoSortKey_patched.2, bothTexts_dosnet] at hadDosnet
  have sif : slipstream.sif = sampleSif :=
    toUtf8_injective (Option.some.inj (Except.ok.inj (readsSif.symm.trans hadSif)))
  have dosnet : slipstream.dosnet = sampleDosnet :=
    toUtf8_injective (Option.some.inj (Except.ok.inj ((readsDosnet _ hadDosnet).symm.trans hadDosnet)))
  have packed : Packs (driverFolder [1]) _ _ _ _ _ _ := samplePack [1]
  obtain ⟨oem, service, display, names, ids, entries, pack, _, _, _, _, patched, patches, _, _, _, _, _,
    patchesDosnet⟩ := slipstream
  dsimp only at sif dosnet
  subst sif dosnet
  obtain rfl := Except.ok.inj (pack.readsOem.symm.trans packed.readsOem)
  obtain rfl := Except.ok.inj (pack.readsNames.symm.trans packed.readsNames)
  obtain rfl := Except.ok.inj (pack.readsIds.symm.trans packed.readsIds)
  obtain rfl := List.singleton_inj.mp (Except.ok.inj (pack.readsServices.symm.trans packed.readsServices))
  obtain rfl := Except.ok.inj (pack.readsDisplay.symm.trans packed.readsDisplay)
  obtain rfl := Option.some.inj (pack.found.symm.trans packed.found)
  obtain rfl := Except.ok.inj (patches.symm.trans sampleSif_patches)
  obtain rfl := Except.ok.inj (patchesDosnet.symm.trans sampleDosnet_patches)
  rfl

set_option maxRecDepth 20000 in
/-- The sample pack with a driver of one byte fits on the smallest device. -/
theorem stageFiles_fits_sample : ∃ stick : Stick,
    (stageFiles .plain blankAssets (fun _ => driverFolder [1]) (sourceOf (textIso 158 bothTexts)) ahciConfig).run
      emptyStick = .ok () stick ∧
      stick.total ≤ usableBytes (deviceOf (neededBytes blankAssets (planOf (sourceOf (textIso 158 bothTexts))))) := by
  obtain ⟨iso', run⟩ := slipstream_sample (show [1] ≠ [] by decide) (by decide)
  obtain ⟨stick, completed⟩ := driverFolder_completes run blankAssets
  obtain ⟨contents, describes, fits⟩ := stageFiles_fits_iff (planOf_isoBytes _) (deviceOf_accepted _ _) completed
  refine ⟨stick, completed, fits.mpr ?_⟩
  have described := (describes contents).mpr rfl
  rw [ofBytes_sourceOf] at described
  obtain ⟨slipstream, rfl⟩ : ∃ slipstream : Slipstream .plain (driverFolder [1]) (textIso 158 bothTexts),
    slipstream.contents = contents := described
  rw [sampleSlipstream_contents slipstream]
  have rounding := growth_lt blankAssets (sourceOf (textIso 158 bothTexts)).rest.length ([[1],
    toUtf8 (patchedSif "ahci.sys = 1,,,,,,_x,4,1,,,1,4\r\n"), toUtf8 (sampleDosnet ++ "\r\nd1,ahci.sys".toList)]
      ++ sifContents ahciConfig)
  have small : sectorsOf ([[1], toUtf8 (patchedSif "ahci.sys = 1,,,,,,_x,4,1,,,1,4\r\n"),
    toUtf8 (sampleDosnet ++ "\r\nd1,ahci.sys".toList)] ++ sifContents ahciConfig) + 4 * sectorSize ≤ reserve := by
    decide
  exact (rounding.le.trans small).trans (Nat.le_add_right _ _)

/-- **The staged files may not fit**: a pack with a driver of 17 MiB, on the smallest device. -/
theorem stageFiles_too_large : ¬ ∀ (order : HashOrder) (assets : Assets) (folderAt : Text → Folder)
    (iso : ByteSource) (config : Config) (plan : WritePlan) (info : DeviceInfo) (stick stick' : Stick),
    plan.isoBytes = iso.rest.length → validateCapacity assets plan info = .ok () →
    (stageFiles order assets folderAt iso config).run stick = .ok () stick' →
    stick'.total ≤ usableBytes info := by
  intro claimed
  obtain ⟨driver, length⟩ : ∃ driver : Bytes, driver.length = 17 * 1024 * 1024 :=
    ⟨List.replicate (17 * 1024 * 1024) 0, List.length_replicate⟩
  have nonempty : driver ≠ [] := by
    rintro rfl
    rw [List.length_nil] at length
    omega
  obtain ⟨iso', run⟩ := slipstream_sample nonempty (by omega)
  obtain ⟨stick, completed, exceeds⟩ := driver_too_large run blankAssets (by rw [length, reserve]; omega)
  have fits := claimed _ _ _ _ _ _ _ _ _ (planOf_isoBytes _) (deviceOf_accepted _ _) completed
  rw [deviceOf_usable] at fits
  exact absurd fits (not_le.mpr exceeds)

end Bootsmith.Driver
