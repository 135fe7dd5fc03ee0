/-
**What the parts of the pipelines ask.**

Staging works on files only, and what it writes lies below the mount point of the formatted volume
(`Stages`): of both GRUB4DOS pipelines, and of the copy of an ISO, as long as the folders of the ISO name
their entries by names that stay in them (`copyIsoContents_stages`). The loops over a raw device ask nothing
but its reads and writes.
-/

import Bootsmith.Pipeline.Start

namespace Bootsmith.Pipeline

open Bootsmith.Library Bootsmith.Disk Bootsmith.Core Exchange

/-- The calls that work on files. -/
def Call.onFiles : Call → Bool
  | .readTree _ => true
  | .fileSize _ => true
  | .openFile _ => true
  | .createDirAll _ => true
  | .createFile _ => true
  | .writeAll _ _ => true
  | .writeFile _ _ => true
  | .editImage _ _ => true
  | .command .sync => true
  | _ => false

/-- The calls that write to a raw device. -/
def Call.stores : Call → Bool
  | .writeRaw _ _ _ => true
  | _ => false

/-- The file or folder that a call writes. -/
def Call.written : Call → Option Text
  | .createDirAll path => some path
  | .createFile path => some path
  | .writeAll path _ => some path
  | .writeFile path _ => some path
  | .editImage path _ => some path
  | _ => none

/-- A name that stays in its folder. -/
def ProperName (name : Text) : Prop :=
  name ≠ [] ∧ '/' ∉ name ∧ name ≠ ".".toList ∧ name ≠ "..".toList

instance (name : Text) : Decidable (ProperName name) := inferInstanceAs (Decidable (_ ∧ _ ∧ _ ∧ _))

/-- The path of an entry below a mount point: one name after the other, each of which stays in its folder. -/
def Below (mount path : Text) : Prop :=
  ∃ rel, rel ≠ [] ∧ (∀ name ∈ rel, ProperName name) ∧ path = Windows.entryPath mount rel

/-- **A call on files** that writes below the mount point only. -/
def Stages (mount : Text) (call : Call) : Prop :=
  call.onFiles = true ∧ ∀ path, call.written = some path → Below mount path

/-- A folder and the folders in it name their entries by names that stay in their folder. -/
def Listing.Proper : Listing → Prop
  | .nil => True
  | .file name _ rest => ProperName name ∧ rest.Proper
  | .folder name children rest => ProperName name ∧ children.Proper ∧ rest.Proper
  | .special _ rest => rest.Proper
  | .denied _ => True

/-- **The folders that were read name their entries** by names that stay in them. -/
def Named (past : History) : Prop :=
  ∀ path (listing : Listing), ⟨.readTree path, listing⟩ ∈ past → listing.Proper

theorem Named.before {trace before after : History} {event : Event Answer} (named : Named trace)
    (split : trace = before ++ event :: after) : Named ([] ++ before) :=
  fun path listing read => named path listing (split ▸ List.mem_append_left _ read)

section Stages

variable {mount path : Text}

theorem below_join {name : Text} (proper : ProperName name) : Below mount (join mount name) :=
  ⟨[name], List.cons_ne_nil _ _, List.forall_mem_singleton.mpr proper, rfl⟩

theorem Stages.writes {call : Call} (files : call.onFiles = true) (written : call.written = some path)
    (below : Below mount path) : Stages mount call := by
  refine ⟨files, fun other same => ?_⟩
  rw [written] at same
  obtain rfl := Option.some.inj same
  exact below

theorem Stages.reads {call : Call} (files : call.onFiles = true) (written : call.written = none) :
    Stages mount call :=
  ⟨files, fun path same => by rw [written] at same; cases same⟩

/-- Work on files does not write to raw devices. -/
theorem Call.quiet_of_onFiles {call : Call} (files : call.onFiles = true) : call.stores = false := by
  revert files
  unfold Call.onFiles Call.stores
  split <;> simp

theorem writeFile_stages (below : Below mount path) (bytes : Bytes) :
    Program.Asks (Stages mount) (writeFile path bytes) :=
  asks_ask (Stages.writes rfl rfl below)

theorem openFile_stages (opening : String) (src : Text) :
    Program.Asks (Stages mount) (openFile opening src) :=
  asks_ask (Stages.reads rfl rfl)

theorem createFile_stages (creating : String) (below : Below mount path) :
    Program.Asks (Stages mount) (createFile creating path) :=
  asks_ask (Stages.writes rfl rfl below)

theorem fileSize_stages (src : Text) : Program.Asks (Stages mount) (fileSize src) :=
  asks_ask (Stages.reads rfl rfl)

theorem syncAll_stages : Program.Asks (Stages mount) syncAll := asks_ask (Stages.reads rfl rfl)

theorem editImage_stages (below : Below mount path) (call : Effect Image Unit) :
    Program.Asks (Stages mount) (Exchange.ask (.editImage path call) id : Io Unit) :=
  asks_ask (Stages.writes rfl rfl below)

/-- The copy loop asks nothing but writes to its destination. -/
theorem copyChunks_asks {among : Call → Prop} (reading writing : String) {broken : Option String}
    {source : ByteSource} (member : ∀ bytes, among (.writeAll path bytes)) :
    Program.Asks among (copyChunks reading writing path broken source) := by
  induction left : source.rest.length using Nat.strong_induction_on generalizing source with
  | _ left ih =>
    subst left
    rw [copyChunks]
    have shorter : (source.read (4 * 1024 * 1024)).1.length + _ = _ := source.read_length
    split
    rename_i bytes next taken
    simp only [taken] at shorter
    split
    · cases broken with
      | none => exact asks_pure ()
      | some text => exact asks_lift _
    · rename_i something
      have some := List.length_pos_of_ne_nil something
      exact asks_bind (asks_ask (member bytes)) fun _ => ih _ (by omega) rfl

theorem copyChunks_stages (reading writing : String) (below : Below mount path) {broken : Option String}
    {source : ByteSource} : Program.Asks (Stages mount) (copyChunks reading writing path broken source) :=
  copyChunks_asks reading writing fun _ => Stages.writes rfl rfl below

/-- What is staged for Windows NT and XP. -/
theorem NtXp.stageFiles_stages (order : Driver.HashOrder) (assets : Driver.Assets)
    (folderAt : Text → Driver.Folder) (plan : WritePlan) (config : Config) :
    Program.Asks (Stages mount) (NtXp.stageFiles order assets folderAt plan mount config) := by
  have iso : Below mount (join mount "XP.ISO".toList) := below_join (by decide)
  refine asks_bind (writeFile_stages (below_join (by decide)) _) fun _ => ?_
  refine asks_bind (writeFile_stages (below_join (by decide)) _) fun _ => ?_
  refine asks_bind ?copy fun _ => asks_bind ?drivers fun _ => asks_bind ?answers fun _ => ?_
  case copy =>
    refine asks_bind (fileSize_stages _) fun _ => asks_bind (openFile_stages _ _) fun _ => ?_
    exact asks_bind (createFile_stages _ iso) fun _ => copyChunks_stages _ _ iso
  case drivers =>
    cases config.ahciDriverDir with
    | none => exact asks_pure ()
    | some dir => exact asks_context (editImage_stages iso _)
  case answers =>
    cases config.unattended with
    | none => exact asks_pure _
    | some unattended =>
      refine asks_bind (asks_lift _) fun _ => ?_
      exact asks_bind (asks_context (editImage_stages iso _)) fun _ => asks_pure _
  exact asks_bind (writeFile_stages (below_join (by decide)) _) fun _ => syncAll_stages

/-- What is staged for Windows 2000. -/
theorem Win2000.stageFiles_stages (assets : Win2000.Assets) (plan : WritePlan) (config : Config) :
    Program.Asks (Stages mount) (Win2000.stageFiles assets plan mount config) := by
  have iso : Below mount (join mount "WIN2K.ISO".toList) := below_join (by decide)
  refine asks_bind (writeFile_stages (below_join (by decide)) _) fun _ => ?_
  refine asks_bind (writeFile_stages (below_join (by decide)) _) fun _ => ?_
  refine asks_bind ?copy fun _ => asks_bind ?floppy fun _ => syncAll_stages
  case copy =>
    refine asks_bind (openFile_stages _ _) fun _ => asks_bind (createFile_stages _ iso) fun _ => ?_
    exact asks_bind (fileSize_stages _) fun _ => copyChunks_stages _ _ iso
  case floppy =>
    cases config.unattended with
    | none => exact writeFile_stages (below_join (by decide)) _
    | some unattended =>
      refine asks_bind (asks_lift _) fun _ => asks_bind (writeFile_stages (below_join (by decide)) _) fun _ => ?_
      exact asks_context (editImage_stages iso _)

theorem Windows.forEach_asks {among : Call → Prop} {call : CopyEntry → Io Unit} {entries : List CopyEntry}
    (each : ∀ entry ∈ entries, Program.Asks among (call entry)) : Program.Asks among (forEach call entries) := by
  induction entries with
  | nil => exact asks_pure ()
  | cons entry entries ih =>
    exact asks_bind (each entry List.mem_cons_self) fun _ => ih fun other member =>
      each other (List.mem_cons_of_mem _ member)

/-- The loops over the folders and files of a walk, and the `sync` behind them. -/
theorem Windows.copyEntries_asks {among : Call → Prop} {isoMount : Text} {entries : List CopyEntry}
    (opens : ∀ path, among (.openFile path)) (sync : among (.command .sync))
    (writes : ∀ entry ∈ entries, ∀ call : Call, call.onFiles = true →
      call.written = some (entryPath mount entry.rel) → among call) :
    Program.Asks among (do
      forEach (createFolder mount) (entries.filter (·.isDir))
      forEach (copyFile isoMount mount) (entries.filter (!·.isDir))
      syncAll : Io Unit) := by
  refine asks_bind (Windows.forEach_asks fun entry folder => ?_) fun _ =>
    asks_bind (Windows.forEach_asks fun entry file => ?_) fun _ => asks_ask sync
  · exact asks_ask (writes entry (List.mem_filter.mp folder).1 _ rfl rfl)
  · have dest := writes entry (List.mem_filter.mp file).1
    refine asks_context (asks_bind (asks_ask (opens _)) fun _ => ?_)
    exact asks_bind (asks_ask (dest _ rfl rfl)) fun _ => copyChunks_asks _ _ fun _ => dest _ rfl rfl

/-- The copy of an ISO works on files. -/
theorem Windows.copyIsoContents_onFiles (isoMount : Text) :
    Program.Asks (fun call => call.onFiles = true) (Windows.copyIsoContents isoMount mount) := by
  refine asks_bind (asks_ask rfl) fun _ => asks_bind (asks_lift _) fun _ => ?_
  exact Windows.copyEntries_asks (fun _ => rfl) rfl fun _ _ _ files _ => files

/-- The entries of a walk through folders with proper names are named by them. -/
theorem Windows.walkRecursive_proper {listing : Listing} (proper : listing.Proper) {rel : List Text}
    (above : ∀ name ∈ rel, ProperName name) {entries : List CopyEntry}
    (walked : walkRecursive rel listing = .ok entries) :
    ∀ entry ∈ entries, entry.rel ≠ [] ∧ ∀ name ∈ entry.rel, ProperName name := by
  have named : ∀ {name : Text}, ProperName name → ∀ other ∈ rel ++ [name], ProperName other := by
    intro name here other member
    rcases List.mem_append.mp member with earlier | last
    · exact above other earlier
    · rw [List.mem_singleton.mp last]
      exact here
  induction listing generalizing rel entries with
  | nil =>
    obtain rfl := Except.ok.inj walked
    exact nofun
  | file name size rest ih =>
    obtain ⟨others, walkedRest, same⟩ := (Fallible.bind_eq_ok _ _ _).mp walked
    obtain rfl := (Fallible.pure_eq_ok _ _).mp same
    rintro entry (_ | ⟨_, member⟩)
    · exact ⟨by simp, named proper.1⟩
    · exact ih proper.2 above walkedRest named entry member
  | folder name children rest below ih =>
    obtain ⟨inside, walkedBelow, walked⟩ := (Fallible.bind_eq_ok _ _ _).mp walked
    obtain ⟨others, walkedRest, same⟩ := (Fallible.bind_eq_ok _ _ _).mp walked
    obtain rfl := (Fallible.pure_eq_ok _ _).mp same
    have deeper : ∀ {other : Text}, ProperName other → ∀ last ∈ (rel ++ [name]) ++ [other], ProperName last := by
      intro other here last member
      rcases List.mem_append.mp member with earlier | final
      · exact named proper.1 last earlier
      · rw [List.mem_singleton.mp final]
        exact here
    rintro entry (_ | ⟨_, member⟩)
    · exact ⟨by simp, named proper.1⟩
    · rcases List.mem_append.mp member with inFolder | behind
      · exact below proper.2.1 (named proper.1) walkedBelow deeper entry inFolder
      · exact ih proper.2.2 above walkedRest named entry behind
  | special name rest ih => exact ih proper above walked named
  | denied chain => cases walked

/-- **The copy of an ISO writes below the mount point**, as long as the folders of the ISO name their entries
by names that stay in them. -/
theorem Windows.copyIsoContents_stages (isoMount : Text) :
    Triple (fun past call => call.onFiles = true ∧
        (Named past → ∀ path, call.written = some path → Below mount path))
      (fun _ => True) (Windows.copyIsoContents isoMount mount) (fun _ _ => True) fun _ => True := by
  refine Triple.through (fun listing past => (⟨.readTree isoMount, listing⟩ : Event Answer) ∈ past) ?_ fun listing =>
    Triple.liftThen (fun entries walked => ?_) fun _ _ => trivial
  · refine Triple.ask (fun past _ => ⟨rfl, fun _ path written => ?_⟩) fun past listing _ => ?_
    · cases written
    · exact List.mem_append_right _ (List.mem_singleton.mpr rfl)
  have later : ∀ {past : History} {event : Event Answer}, (⟨.readTree isoMount, listing⟩ : Event Answer) ∈ past →
      (⟨.readTree isoMount, listing⟩ : Event Answer) ∈ past ++ [event] := List.mem_append_left _
  by_cases proper : listing.Proper
  · obtain ⟨found, walk, sorted⟩ := (Fallible.bind_eq_ok _ _ _).mp walked
    obtain rfl := (Fallible.pure_eq_ok _ _).mp sorted
    have names := Windows.walkRecursive_proper proper (List.forall_mem_nil ProperName) walk
    have asks := @Windows.copyEntries_asks mount (Stages mount) isoMount (sortBy Windows.CopyEntry.key found)
      (fun _ => Stages.reads rfl rfl) (Stages.reads rfl rfl) fun entry member call files written =>
        Stages.writes files written
          ⟨entry.rel, (names entry ((sortBy_perm _ _).mem_iff.mp member)).1,
            (names entry ((sortBy_perm _ _).mem_iff.mp member)).2, rfl⟩
    refine Triple.mono (triple_of_asks asks fun past call stages read => ?_) (fun _ => id) (fun _ _ _ => trivial)
      fun _ _ => trivial
    exact ⟨⟨stages.1, fun _ => stages.2⟩, fun _ => later read⟩
  · -- a folder with other names was read
    have asks := @Windows.copyEntries_asks mount (fun call => call.onFiles = true) isoMount entries
      (fun _ => rfl) rfl fun _ _ _ files _ => files
    refine Triple.mono (triple_of_asks asks fun past call files read => ?_) (fun _ => id) (fun _ _ _ => trivial)
      fun _ _ => trivial
    exact ⟨⟨files, fun named => absurd (named isoMount listing read) proper⟩, fun _ => later read⟩

end Stages

/-! ### Commands -/

section Asks

variable {among : Call → Prop} {path : Text}

theorem start_asks {command : Command} {spawning failing : String} {detail : Output → Text}
    (member : among (.command command)) : Program.Asks among (start command spawning failing detail) :=
  asks_ask member

theorem runDiskutil_asks {command : Command} (member : among (.command command)) :
    Program.Asks among (runDiskutil command) :=
  asks_bind (start_asks member) fun _ => asks_pure ()

theorem rereadPartitionTable_asks {disk : Text} (unmount : among (.command (.unmountDisk disk)))
    (mount : among (.command (.mountDisk disk))) (force : among (.command (.unmountDiskForce disk))) :
    Program.Asks among (rereadPartitionTable disk) := by
  refine asks_bind (asks_attempt (asks_context (runDiskutil_asks unmount))) fun _ => ?_
  refine asks_bind (asks_context (asks_context (runDiskutil_asks mount))) fun _ => ?_
  exact asks_context (asks_context (runDiskutil_asks force))

/-- Attaching an ISO, its copy and detaching it. -/
theorem Windows.copyFromIso_asks {isoPath mount : Text} (files : ∀ call : Call, call.onFiles = true → among call)
    (attach : among (.command (.hdiutilAttach isoPath)))
    (detach : ∀ isoMount, among (.command (.hdiutilDetach isoMount))) :
    Program.Asks among (Windows.copyFromIso isoPath mount) := by
  refine asks_bind (asks_context (asks_bind (start_asks attach) fun _ => asks_lift _)) fun isoMount => ?_
  refine asks_bind (asks_attempt ((Windows.copyIsoContents_onFiles isoMount).mono files)) fun _ => ?_
  refine asks_bind (asks_attempt (asks_bind (start_asks (detach isoMount)) fun _ => asks_pure ())) fun _ => ?_
  exact asks_context (asks_lift _)

/-! ### Mount points -/

theorem waitFor_asks (member : among (.pathExists path)) (times : Nat) :
    Program.Asks among (waitFor path times) := by
  induction times with
  | zero => exact asks_pure false
  | succ times ih =>
    refine asks_bind (asks_ask member) fun there => ?_
    split
    · exact asks_pure true
    · exact ih

theorem findMountForLabel_asks {label : Text}
    (member : among (.pathExists (volumePath label))) : Program.Asks among (findMountForLabel label) := by
  refine asks_bind (waitFor_asks member 20) fun there => ?_
  split
  · exact asks_pure _
  · exact asks_bail _

theorem formatPartition_asks {disk partition label : Text}
    (format : among (.command (.newfsMsdosFat32 partition label))) (mount : among (.command (.mountDisk disk)))
    (look : among (.pathExists (volumePath label))) :
    Program.Asks among (formatPartition disk partition label) := by
  refine asks_bind (asks_context (asks_bind (start_asks format) fun _ => asks_pure ())) fun _ => ?_
  refine asks_bind (asks_context (asks_context (runDiskutil_asks mount))) fun _ => ?_
  exact findMountForLabel_asks look

/-- The volume is looked for at its mount point. -/
theorem findMountForLabel_yields (label : Text) : Yields (findMountForLabel label) (· = volumePath label) := by
  refine Yields.bind fun there => ?_
  split
  · exact fun _ _ => rfl
  · exact fun _ _ => trivial

theorem formatPartition_yields (disk partition label : Text) :
    Yields (formatPartition disk partition label) (· = volumePath label) :=
  Yields.bind fun _ => Yields.bind fun _ => findMountForLabel_yields label

/-! ### Raw devices -/

theorem openRaw_asks (member : among (.openRaw path)) : Program.Asks among (openRaw path) := by
  unfold openRaw
  split
  · exact asks_ask member
  · exact asks_bail _

theorem withRaw_asks {α : Type} {opening : String} {body : Geometry → Io α} (opens : among (.openRaw path))
    (closes : among (.closeRaw path)) (asks : ∀ geometry, Program.Asks among (body geometry)) :
    Program.Asks among (withRaw opening path body) :=
  asks_bind (asks_context (openRaw_asks opens)) fun geometry => asks_dropping closes (asks geometry)

/-- The open device that a call reads, writes or flushes. -/
def Call.raw : Call → Option Text
  | .readRaw path _ _ => some path
  | .writeRaw path _ _ => some path
  | .syncRaw path => some path
  | _ => none

section Raw

variable (raw : ∀ call : Call, call.raw = some path → among call)
include raw

theorem readRaw_asks (offset count : Nat) : Program.Asks among (readRaw path offset count) :=
  asks_ask (raw _ rfl)

theorem writeRaw_asks (offset : Nat) (bytes : Bytes) : Program.Asks among (writeRaw path offset bytes) :=
  asks_ask (raw _ rfl)

/-- Reading back what was written. -/
theorem readBack_asks (message : String) (bytes : Bytes) : Program.Asks among (readBack message path bytes) := by
  refine asks_bind (readRaw_asks raw 0 bytes.length) fun readback => ?_
  split
  · exact asks_bail _
  · exact asks_pure ()

/-- Bytes that are written to the front of the device, and read back when the run verifies. -/
theorem writeFront_asks (message : String) (bytes : Bytes) (verify : Bool) :
    Program.Asks among (do
      writeRaw path 0 bytes
      syncRaw path
      if verify then readBack message path bytes else pure () : Io Unit) := by
  refine asks_bind (writeRaw_asks raw 0 bytes) fun _ => asks_bind (asks_ask (raw _ rfl)) fun _ => ?_
  split
  · exact readBack_asks raw message bytes
  · exact asks_pure ()

/-- The loop that writes an ISO. -/
theorem Hybrid.writeIsoFrom_asks (blockSize : Nat) (broken : Option String) (source : ByteSource) (buf : Bytes)
    (offset : Nat) : Program.Asks among (Hybrid.writeIsoFrom path blockSize broken source buf offset) := by
  induction left : source.rest.length using Nat.strong_induction_on generalizing source buf offset with
  | _ left ih =>
    subst left
    obtain ⟨count, _, rest⟩ := Bootsmith.Hybrid.readFull_spec source buf
    rw [Hybrid.writeIsoFrom]
    split
    rename_i n buf' source' filled
    simp only [filled] at count rest
    split
    · exact asks_lift _
    split
    · exact asks_pure ()
    rename_i some
    refine asks_bind (asks_lift _) fun _ => asks_bind (asks_lift _) fun _ => asks_bind (asks_lift _) fun _ => ?_
    refine asks_bind (writeRaw_asks raw _ _) fun _ => ?_
    split
    · exact asks_pure ()
    · refine ih _ ?_ source' _ _ rfl
      rw [rest, List.length_drop]
      omega

/-- The loop that reads the device back. -/
theorem Hybrid.verifyIsoFrom_asks (blockSize : Nat) (broken : Option String) (source : ByteSource)
    (isoBuf devBuf : Bytes) (offset : Nat) :
    Program.Asks among (Hybrid.verifyIsoFrom path blockSize broken source isoBuf devBuf offset) := by
  induction left : source.rest.length using Nat.strong_induction_on
    generalizing source isoBuf devBuf offset with
  | _ left ih =>
    subst left
    obtain ⟨count, _, rest⟩ := Bootsmith.Hybrid.readFull_spec source isoBuf
    rw [Hybrid.verifyIsoFrom]
    split
    rename_i n isoBuf' source' filled
    simp only [filled] at count rest
    split
    · exact asks_lift _
    split
    · exact asks_pure ()
    rename_i some
    refine asks_bind (asks_lift _) fun _ => asks_bind (asks_lift _) fun _ => ?_
    refine asks_bind (readRaw_asks raw _ _) fun bytes => ?_
    refine asks_bind (asks_lift _) fun _ => asks_bind (asks_lift _) fun _ => ?_
    split
    · exact asks_bail _
    split
    · exact asks_pure ()
    · refine ih _ ?_ source' isoBuf' _ _ rfl
      rw [rest, List.length_drop]
      omega

theorem Hybrid.verifyPass_asks (opens : ∀ path, among (.openFile path)) (blockSize : Nat) (isoPath : Text)
    (verify : Bool) : Program.Asks among (Hybrid.verifyPass path blockSize isoPath verify) := by
  cases verify with
  | false => exact asks_pure ()
  | true =>
    refine asks_bind (asks_ask (opens _)) fun iso => asks_context ?_
    exact Hybrid.verifyIsoFrom_asks raw blockSize _ _ _ _ _

/-- What happens while the device is open. -/
theorem Hybrid.body_asks {plan : WritePlan} {bsdPath : Text} (opens : ∀ path, among (.openFile path))
    (unmount : among (.command (.unmountDisk bsdPath))) (ejects : among (.command (.eject bsdPath)))
    (blockSize : Nat) (verify : Bool) :
    Program.Asks among (do
      let iso ← openFile "opening ISO" plan.isoPath
      Exchange.context "writing ISO bytes" (Hybrid.writeIsoToDevice path blockSize iso)
      syncRaw path
      Hybrid.verifyPass path blockSize plan.isoPath verify
      let _ ← Exchange.attempt (unmountDisk bsdPath)
      Exchange.context "eject after write" (eject bsdPath) : Io Unit) := by
  refine asks_bind (asks_ask (opens _)) fun iso => ?_
  refine asks_bind (asks_context (Hybrid.writeIsoFrom_asks raw _ _ _ _ _)) fun _ => ?_
  refine asks_bind (asks_ask (raw _ rfl)) fun _ => ?_
  refine asks_bind (Hybrid.verifyPass_asks raw opens blockSize plan.isoPath verify) fun _ => ?_
  refine asks_bind (asks_attempt (asks_context (runDiskutil_asks unmount))) fun _ => ?_
  exact asks_context (asks_context (runDiskutil_asks ejects))

/-- The boot track of a GRUB4DOS stick. -/
theorem writeGrub4dosMbrTrack_asks {info : DeviceInfo} (device : info.path = path) (opens : among (.openRaw path))
    (closes : among (.closeRaw path)) {grldrMbr : Bytes} {verify : Bool} :
    Program.Asks among (writeGrub4dosMbrTrack grldrMbr info verify) := by
  subst device
  refine withRaw_asks opens closes fun geometry => asks_bind (asks_lift _) fun track => ?_
  exact writeFront_asks raw _ track verify

/-- The first sector of a Windows stick. -/
theorem Windows.writeMbrSector_asks {info : DeviceInfo} (device : info.path = path) (opens : among (.openRaw path))
    (closes : among (.closeRaw path)) {bootrec : Windows.Bootrec} :
    Program.Asks among (Windows.writeMbrSector bootrec info) := by
  subst device
  exact asks_bind (asks_lift _) fun mbr => withRaw_asks opens closes fun _ => writeFront_asks raw _ mbr true

/-- The boot sectors of the partition. -/
theorem Windows.spliceBody_asks (bootrec : Windows.Bootrec) (verify : Bool) :
    Program.Asks among (do
      let existing ← readRaw path 0 1024
      let spliced ← Exchange.lift (Windows.splicePbrBootmgr bootrec existing)
      writeRaw path 0 spliced
      syncRaw path
      if verify then readBack "PBR splice verify mismatch" path spliced else pure () : Io Unit) :=
  asks_bind (readRaw_asks raw 0 1024) fun _ => asks_bind (asks_lift _) fun spliced =>
    writeFront_asks raw _ spliced verify

end Raw

/-! ### Boot records -/

theorem firstExisting_asks (member : ∀ path, among (.pathExists path)) (paths : List Text) :
    Program.Asks among (firstExisting paths) := by
  induction paths with
  | nil => exact asks_pure none
  | cons path rest ih =>
    refine asks_bind (asks_ask (member path)) fun there => ?_
    split
    · exact asks_pure _
    · exact ih

theorem findMsSys_asks (exist : ∀ path, among (.pathExists path)) (env : ∀ name, among (.envVar name))
    (finds : among (.command .whichMsSys)) : Program.Asks among findMsSys := by
  refine asks_bind (asks_ask (env _)) fun named => asks_bind (firstExisting_asks exist _) fun found => ?_
  split
  · exact asks_pure _
  · refine asks_bind (asks_ask finds) fun line => ?_
    split
    · exact asks_pure line
    · exact asks_bail _

theorem Windows.resolveMsSys_asks (exist : ∀ path, among (.pathExists path)) (env : ∀ name, among (.envVar name))
    (finds : among (.command .whichMsSys)) {bootrec : Windows.Bootrec} {impl : BootRecordImpl} :
    Program.Asks among (Windows.resolveMsSys bootrec impl) := by
  cases impl with
  | msSys => exact asks_bind (findMsSys_asks exist env finds) fun _ => asks_pure _
  | bootrec => exact asks_bind (asks_lift _) fun _ => asks_pure _

/-- The boot records, by either way. -/
theorem Windows.writeBootRecords_asks {disk partitionRaw partitionBsd : Text}
    (raw : ∀ call : Call, call.raw = some partitionRaw → among call) (opens : among (.openRaw partitionRaw))
    (closes : among (.closeRaw partitionRaw)) (force : among (.command (.unmountDiskForce disk)))
    (mbr : ∀ msSys, among (.command (.msSysMbr7 msSys disk)))
    (pbr : ∀ msSys, among (.command (.msSysFat32pe msSys partitionBsd))) {bootrec : Windows.Bootrec} {verify : Bool}
    {msSys : Option Text} :
    Program.Asks among (Windows.writeBootRecords bootrec disk partitionRaw partitionBsd verify msSys) := by
  cases msSys with
  | some msSys =>
    refine asks_bind (asks_context (asks_bind (start_asks (mbr msSys)) fun _ => asks_pure ())) fun _ => ?_
    refine asks_bind (asks_context (asks_context (runDiskutil_asks force))) fun _ => ?_
    exact asks_context (asks_bind (start_asks (pbr msSys)) fun _ => asks_pure ())
  | none =>
    refine asks_bind (asks_context (asks_context (runDiskutil_asks force))) fun _ => asks_context ?_
    exact withRaw_asks opens closes fun _ => Windows.spliceBody_asks raw bootrec verify

end Asks

end Bootsmith.Pipeline
