/-
**The service of a driver pack** (`windows_ntxp.rs`): `collect_services`, the display name, and what a
patch of `TXTSETUP.SIF` does with them.

The patch loads the one collected service, but writes to each hardware id the service the id's own line
names. So every id gets a service that is loaded exactly when the two agree
(`patch_services_loaded_iff`).
-/

import Bootsmith.Driver.Controllers
import Bootsmith.Driver.Patch

namespace Bootsmith.Driver

open Bootsmith.Library

/-! ### Reading the service -/

/-- The service of a `driver = diskN, file.sys, ServiceName` line. -/
def serviceLine (line : Text) : Option Text := do
  let rest ← stripPrefix "driver".toList (trimStart line)
  let rest := trimStart rest
  if rest.head? = some '=' then
    let field ← ((trim (rest.drop 1)).splitOn ',')[2]?
    let svc := trim field
    if svc = [] then none else some svc
  else none

/-- The text from behind the header of a controller's files up to the next line with a bracket. -/
def filesBody (oem id : Text) : Option Text := do
  let (_, after) ← findText ("[Files.scsi.".toList ++ id ++ "]".toList) oem
  match findText "\n[".toList after with
  | some (body, _) => some body
  | none => some after

/-- The services of the lines of one controller's files. -/
def servicesOf (oem : Text) (controller : ScsiController) : List Text :=
  match filesBody oem controller.id with
  | none => []
  | some body => (lines body).filterMap serviceLine

def collectServices (oem : Text) : Fallible (List Text) := do
  let controllers ← Fallible.context "parse [scsi] controllers from user TXTSETUP.OEM"
    (scsiControllers oem)
  let services := controllers.foldl (fun services c => (servicesOf oem c).foldl addName services) []
  if services = [] then
    Fallible.bail "no driver service names found in [Files.scsi.X] sections"
  else pure services

/-- The display name of the first controller whose driver is named after the service. -/
def displayNameOf (oem service : Text) : Fallible Text := do
  let controllers ← Fallible.context "parse [scsi] controllers from user TXTSETUP.OEM"
    (scsiControllers oem)
  let named := controllers.find? fun c =>
    match c.driver with
    | some file => (lower service ++ ".sys".toList).isSuffixOf (lower file)
    | none => false
  pure ((named.map ScsiController.displayName).getD service)

/-! ### Names without line feeds -/

theorem mem_of_serviceLine {line svc : Text} (read : serviceLine line = some svc) {char : Char}
    (member : char ∈ svc) : char ∈ line := by
  simp only [serviceLine, Option.bind_eq_bind, Option.bind_eq_some_iff] at read
  obtain ⟨rest, stripped, result⟩ := read
  split at result
  · simp only [Option.bind_eq_some_iff] at result
    obtain ⟨field, inFields, result⟩ := result
    split at result
    · cases result
    · obtain rfl := Option.some.inj result
      have inRest := List.mem_of_mem_drop
        (mem_trim (mem_of_mem_splitOn (List.mem_of_getElem? inFields) (mem_trim member)))
      rw [stripPrefix] at stripped
      split at stripped
      · obtain rfl := Option.some.inj stripped
        exact mem_trimStart (List.mem_of_mem_drop (mem_trimStart inRest))
      · cases stripped
  · cases result

theorem servicesOf_newline {oem svc : Text} {controller : ScsiController}
    (member : svc ∈ servicesOf oem controller) : '\n' ∉ svc := by
  unfold servicesOf at member
  split at member
  · cases member
  · obtain ⟨line, inLines, read⟩ := List.mem_filterMap.mp member
    exact fun inName => newline_not_mem_lines inLines (mem_of_serviceLine read inName)

/-- The services of all controllers, without repetitions. -/
theorem foldl_servicesOf_eq (oem : Text) (controllers : List ScsiController) :
    controllers.foldl (fun services c => (servicesOf oem c).foldl addName services) []
      = firsts lower (controllers.flatMap (servicesOf oem)) := by
  rw [← foldl_addName_eq, List.foldl_flatMap]

theorem collectServices_newline {oem : Text} {services : List Text}
    (read : collectServices oem = .ok services) : ∀ svc ∈ services, '\n' ∉ svc := by
  obtain ⟨controllers, _, result⟩ := (Fallible.bind_eq_ok _ _ _).mp read
  dsimp only at result
  split at result
  · simp at result
  · obtain rfl := (Fallible.pure_eq_ok _ _).mp result
    intro svc member
    rw [foldl_servicesOf_eq] at member
    obtain ⟨controller, _, inServices⟩ := List.mem_flatMap.mp ((firsts_sublist lower _).mem member)
    exact servicesOf_newline inServices

theorem displayNameOf_newline {oem service display : Text} (clean : '\n' ∉ service)
    (read : displayNameOf oem service = .ok display) : '\n' ∉ display := by
  obtain ⟨controllers, parsed, result⟩ := (Fallible.bind_eq_ok _ _ _).mp read
  rw [Fallible.context_eq_ok] at parsed
  obtain rfl := (Fallible.pure_eq_ok _ _).mp result
  cases found : controllers.find? _ with
  | none => exact clean
  | some controller =>
    exact scsiControllers_newline parsed controller (List.mem_of_find?_eq_some found)

/-- The names read from a pack hold no line feed. -/
theorem cleanNames {oem service display : Text} {services files : List Text}
    {ids : List (Text × Text)} (readServices : collectServices oem = .ok services)
    (member : service ∈ services) (readDisplay : displayNameOf oem service = .ok display)
    (readFiles : referencedFilenames oem = .ok files) (readIds : hardwareIds oem = .ok ids) :
    CleanNames service display files ids := by
  have clean := collectServices_newline readServices service member
  exact ⟨clean, displayNameOf_newline clean readDisplay, (referencedFilenames_newline readFiles).2,
    hardwareIds_newline readIds⟩

/-! ### The services of the added lines -/

/-- A line that was put into a section. -/
def AddedTo (all : List Text) (groups : Nat → List Text) (key : String) (line : Text) : Prop :=
  ∃ idx, sectionAt all idx = some key.toList ∧ line ∈ groups idx

/-- Every service an added hardware id is mapped to has its own added lines in `[SCSI.Load]` and
`[SCSI]`. -/
def ServicesLoaded (all : List Text) (groups : Nat → List Text) (driverSys displayName : Text)
    (hardwareIds : List (Text × Text)) : Prop :=
  ∀ entry ∈ hardwareIds, AddedTo all groups "hardwareidsdatabase" (hardwareIdLineOf entry) →
    ∃ name, eqIgnoreCase name entry.2 = true ∧
      AddedTo all groups "scsi.load" (scsiLoadLine name driverSys) ∧
      AddedTo all groups "scsi" (scsiLine name displayName)

theorem scsiLoadLine_inj {first second driverSys : Text} :
    scsiLoadLine first driverSys = scsiLoadLine second driverSys ↔ first = second := by
  simp only [scsiLoadLine, List.append_assoc]
  exact List.append_left_inj _

section Loaded

variable {sif service displayName patched driverSys : Text} {files : List Text}
  {hardwareIds : List (Text × Text)} {groups : Nat → List Text}
  (patching : SifPatched sif service displayName files hardwareIds patched driverSys groups)

include patching

/-- What was put into a section is its group. -/
theorem SifPatched.addedTo (key : String) {adds : List Text}
    (adding : (additionsFor service driverSys displayName files hardwareIds).forSection key.toList
      = some adds) (line : Text) : AddedTo (splitCrlf sif) groups key line ↔ line ∈ adds := by
  constructor
  · rintro ⟨idx, here, member⟩
    obtain ⟨key', adds', adding', there, same⟩ :=
      patching.inserted.only idx (List.ne_nil_of_mem member)
    obtain rfl := Option.some.inj (here.symm.trans there)
    obtain rfl := Option.some.inj (adding.symm.trans adding')
    exact same ▸ member
  · intro member
    obtain ⟨anchor, _, here, same⟩ :=
      patching.inserted.placed key.toList adds adding (List.ne_nil_of_mem member)
    exact ⟨anchor, here, same ▸ member⟩

/-- **The services are loaded exactly when each id names the service of the patch.** -/
theorem SifPatched.servicesLoaded_iff :
    ServicesLoaded (splitCrlf sif) groups driverSys displayName (pciHardwareIds hardwareIds) ↔
      ∀ entry ∈ pciHardwareIds hardwareIds, eqIgnoreCase service entry.2 = true := by
  have ids := patching.addedTo "hardwareidsdatabase" rfl
  have loads := patching.addedTo "scsi.load" rfl
  have scsi := patching.addedTo "scsi" rfl
  constructor
  · intro loaded entry member
    obtain ⟨name, same, load, _⟩ :=
      loaded entry member ((ids _).mpr (List.mem_map_of_mem member))
    have line := List.mem_singleton.mp ((loads _).mp load)
    rwa [scsiLoadLine_inj.mp line] at same
  · intro agree entry member _
    exact ⟨service, agree entry member, (loads _).mpr (List.mem_singleton_self _),
      (scsi _).mpr (List.mem_singleton_self _)⟩

end Loaded

/-- **When the ids of a patched text are mapped to loaded services**: exactly when every PCI hardware
id of the pack names the collected service. -/
theorem patch_services_loaded_iff {order : HashOrder} {oem sif service display : Text}
    {files : List Text} {ids : List (Text × Text)} {patched : Patched}
    (readServices : collectServices oem = .ok [service])
    (readDisplay : displayNameOf oem service = .ok display) (readIds : hardwareIds oem = .ok ids)
    (readFiles : referencedFilenames oem = .ok files)
    (run : patchTxtsetupSif order sif service display files ids = .ok patched) :
    ∃ driverSys groups, files.find? (fun file => endsWith (lower file) ".sys") = some driverSys ∧
      splitCrlf patched.text = splice groups 0 (splitCrlf sif) ∧
      Inserted (splitCrlf sif) (additionsFor service driverSys display files ids) groups ∧
      (ServicesLoaded (splitCrlf sif) groups driverSys display (pciHardwareIds ids) ↔
        ∀ entry ∈ pciHardwareIds ids, eqIgnoreCase service entry.2 = true) := by
  obtain ⟨driverSys, groups, patching⟩ := patchTxtsetupSif_eq_ok run
  have clean := cleanNames readServices (List.mem_singleton_self _) readDisplay readFiles readIds
  exact ⟨driverSys, groups, patching.driver, patching.lines clean, patching.inserted,
    patching.servicesLoaded_iff⟩

/-! ### A sample pack -/

/-- A map visited in its own order. -/
def HashOrder.plain : HashOrder := ⟨id, fun _ => .refl _⟩

/-- A pack with one controller, whose hardware id is mapped to a service. -/
def sampleOem (service : String) : Text :=
  ("[scsi]\r\nahci = \"AHCI\"\r\n[Files.scsi.ahci]\r\ndriver = d1, ahci.sys, ahci\r\n"
    ++ "[HardwareIds.scsi.ahci]\r\nid = \"PCI\\A\", \"" ++ service ++ "\"\r\n").toList

/-- A `TXTSETUP.SIF` with the four sections. -/
def sampleSif : Text :=
  "[SourceDisksFiles]\r\n[HardwareIdsDatabase]\r\n[SCSI.Load]\r\n[SCSI]\r\na = b\r\n".toList

set_option maxRecDepth 20000 in
/-- The pack with one service throughout is patched so that its ids are loaded. -/
theorem patch_services_loaded_sample : ∃ patched driverSys groups,
    patchTxtsetupSif .plain sampleSif "ahci".toList "AHCI".toList ["ahci.sys".toList]
        [("PCI\\A".toList, "ahci".toList)] = .ok patched ∧
      splitCrlf patched.text = splice groups 0 (splitCrlf sampleSif) ∧
      ServicesLoaded (splitCrlf sampleSif) groups driverSys "AHCI".toList
        (pciHardwareIds [("PCI\\A".toList, "ahci".toList)]) := by
  have patches : (patchTxtsetupSif .plain sampleSif "ahci".toList "AHCI".toList ["ahci.sys".toList]
      [("PCI\\A".toList, "ahci".toList)]).toOption.isSome := by decide
  obtain ⟨patched, run⟩ := Fallible.exists_ok patches
  obtain ⟨driverSys, groups, _, spliced, _, agree⟩ := patch_services_loaded_iff
    (show collectServices (sampleOem "ahci") = .ok ["ahci".toList] by decide)
    (show displayNameOf (sampleOem "ahci") "ahci".toList = .ok "AHCI".toList by decide)
    (show hardwareIds (sampleOem "ahci") = .ok [("PCI\\A".toList, "ahci".toList)] by decide)
    (show referencedFilenames (sampleOem "ahci") = .ok ["ahci.sys".toList] by decide) run
  exact ⟨patched, driverSys, groups, run, spliced, agree.mpr (by decide)⟩

set_option maxRecDepth 20000 in
/-- **An id may be mapped to a service that is not loaded**: the pack collects the service `ahci`, and
its only id names `raid`. -/
theorem patch_services_not_loaded : ¬ ∀ (order : HashOrder) (oem sif service display : Text)
    (files : List Text) (ids : List (Text × Text)) (patched : Patched),
    collectServices oem = .ok [service] → displayNameOf oem service = .ok display →
    hardwareIds oem = .ok ids → referencedFilenames oem = .ok files →
    patchTxtsetupSif order sif service display files ids = .ok patched →
    ∃ driverSys groups, SifPatched sif service display files ids patched.text driverSys groups ∧
      ServicesLoaded (splitCrlf sif) groups driverSys display (pciHardwareIds ids) := by
  intro claimed
  have patches : (patchTxtsetupSif .plain sampleSif "ahci".toList "AHCI".toList ["ahci.sys".toList]
      [("PCI\\A".toList, "raid".toList)]).toOption.isSome := by decide
  obtain ⟨patched, run⟩ := Fallible.exists_ok patches
  obtain ⟨driverSys, groups, patching, loaded⟩ := claimed .plain (sampleOem "raid") sampleSif
    "ahci".toList "AHCI".toList _ _ patched (by decide) (by decide)
    (by decide) (by decide) run
  have agree := patching.servicesLoaded_iff.mp loaded
  exact absurd (agree ("PCI\\A".toList, "raid".toList) (by decide)) (by decide)

end Bootsmith.Driver
