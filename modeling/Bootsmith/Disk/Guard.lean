/-
**The guard of the boot disk** (`bootsmith-disk`, `pipeline.rs`).

`run` looks the target up, applies the safety policy, asks for a confirmation and starts the pipeline of
a mode. What the operating system and the user answer is a `Host`; `Host.Reports` states what it says
about whole disks and about the disk behind `/`.

The lookup of the boot volume may fail, and `infoFor` then goes on without it. `run_guarded_iff`: the disk
that a pipeline gets is never the boot disk exactly where the lookup succeeds, the target spells another
disk, or one of the other checks stops the run; `boot_disk_started` is a run that starts on the boot disk.
-/

import Bootsmith.Core.Plan
import Bootsmith.Disk.Name
import Bootsmith.Library.Fallible
import Bootsmith.Library.Image

namespace Bootsmith.Disk

open Bootsmith.Library Bootsmith.Core

/-! ### The operating system and the user -/

inductive DiskError
  | io (text : String)
  | refusedBootDisk (path : Text)
  | refusedInternal (path : Text)
  | refusedTooLarge (device : Text) (sizeGb : Nat)
  | daError (text : String)
  | external (cmd stderr : String)
  deriving DecidableEq, Repr

/-- The messages of an error, outermost first. -/
def DiskError.chain : DiskError → List String
  | io text => ["disk I/O", text]
  | refusedBootDisk path =>
    [s!"refusing to write to {String.ofList path}: this looks like the boot disk"]
  | refusedInternal path => [s!"refusing to write to {String.ofList path}: marked as internal storage"]
  | refusedTooLarge device sizeGb =>
    [s!"refusing to write to {String.ofList device} ({sizeGb} GB): exceeds 256 GiB safety threshold. Pass --force if you really mean it."]
  | daError text => [s!"DiskArbitration query failed: {text}"]
  | external cmd stderr => [s!"external command failed: {cmd}: {stderr}"]

/-- What `diskutil info` reports about a disk. -/
structure DiskutilInfo where
  wholeDisk : Bool
  size : Nat
  internal : Bool
  removableMedia : Bool
  ioRegistryEntryName : Option Text
  mediaName : Option Text

/-- The answers of the operating system and of the user. -/
structure Host where
  /-- The output of `diskutil info -plist`. -/
  runDiskutilInfo : Text → Except DiskError Bytes
  fromPlist : Bytes → Except String DiskutilInfo
  /-- The device that `/` is mounted from. -/
  statfs : Except String Text
  /-- Whether a path is a regular file, and its length. -/
  metadata : Text → Except String (Bool × Nat)
  classify : Text → Except String BootMode
  /-- The line that answers the prompt. -/
  readLine : Except String Text

/-! ### The functions -/

structure DeviceInfo where
  path : Text
  sizeBytes : Nat
  model : Text
  internal : Bool
  isBootDisk : Bool
  removable : Bool
  deriving DecidableEq, Repr

def bootDiskWhole (host : Host) : Except DiskError Text :=
  match host.statfs with
  | .error text => .error (.daError s!"statfs(\"/\") failed: {text}")
  | .ok mounted => .ok (normalizeBsdName mounted)

/-- The name of a disk that is shown. -/
def modelOf (info : DiskutilInfo) : Text :=
  let named (name : Option Text) : Option Text := name.filter fun s => trim s ≠ []
  (((named info.ioRegistryEntryName).or (named info.mediaName)).map trim).getD "(unknown model)".toList

/-- The path of the raw device. -/
def rawPath (bsd : Text) : Text := "/dev/r".toList ++ bsd

def infoForInternal (host : Host) (bsd : Text) (bootDiskBsd : Option Text) :
    Except DiskError (Option DeviceInfo) :=
  match host.runDiskutilInfo bsd with
  -- the disk does not exist
  | .error (.external _ _) => .ok none
  | .error error => .error error
  | .ok plist =>
    match host.fromPlist plist with
    | .error text =>
      .error (.daError s!"parsing diskutil info plist for {String.ofList bsd}: {text}")
    | .ok info =>
      if info.wholeDisk = false then .ok none
      else
        .ok (some
          { path := rawPath bsd
            sizeBytes := info.size
            model := modelOf info
            internal := info.internal
            isBootDisk := bootDiskBsd.elim false fun boot => boot = bsd
            removable := info.removableMedia })

def infoFor (host : Host) (pathOrName : Text) : Except DiskError (Option DeviceInfo) :=
  let bsd := normalizeBsdName pathOrName
  -- a failure of the lookup is dropped
  let bootDiskBsd := (bootDiskWhole host).toOption
  infoForInternal host bsd bootDiskBsd

def sizeCap : Nat := 256 * 1024 * 1024 * 1024

def DeviceInfo.checkWritable (info : DeviceInfo) (force : Bool) : Except DiskError Unit :=
  if info.isBootDisk then .error (.refusedBootDisk info.path)
  else if info.internal ∧ ¬ force then .error (.refusedInternal info.path)
  else if sizeCap < info.sizeBytes ∧ ¬ force then
    .error (.refusedTooLarge info.path (info.sizeBytes / 1000000000))
  else .ok ()

def resolveMode (host : Host) (config : Config) : Fallible BootMode :=
  match config.mode with
  | .auto =>
    match host.classify config.isoPath with
    | .ok detected => .ok detected
    | .error text => Fallible.bail s!"could not auto-classify ISO ({text}); pass --type=windows|windows-ntxp|windows-2000|hybrid|linux|uefi explicitly"
  | .windows => .ok .windows
  | .windowsNtXp => .ok .windowsNtXp
  | .windows2000 => .ok .windows2000
  | .hybrid => .ok .hybrid
  | .isolinuxLinux => .ok .isolinuxLinux
  | .uefiOnly => .ok .uefiOnly

/-- The label of a stick when the user gives none. -/
def defaultLabel : BootMode → Text
  | .windows => "WIN7".toList
  | .windowsNtXp => "BOOTSMITHXP".toList
  | .windows2000 => "BOOTSMITH2K".toList
  | .hybrid => "BOOTSMITH".toList
  | .isolinuxLinux => "BOOTSMITH".toList
  | .uefiOnly => "BOOTSMITH".toList

def buildPlan (host : Host) (config : Config) : Fallible WritePlan :=
  match host.metadata config.isoPath with
  | .error text => .error (.error [s!"opening ISO {String.ofList config.isoPath}", text])
  | .ok (isFile, isoBytes) =>
    if isFile = false then Fallible.bail s!"{String.ofList config.isoPath} is not a regular file"
    else do
      let mode ← resolveMode host config
      pure ⟨config.isoPath, isoBytes, mode, config.label.getD (defaultLabel mode)⟩

def prompt (host : Host) : Fallible Unit :=
  match host.readLine with
  | .error text => Fallible.bail s!"reading confirmation: {text}"
  | .ok line => if trim line ≠ "yes".toList then Fallible.bail "aborted by user" else .ok ()

/-- How a run goes on: it stops after a dry run, or the pipeline of the mode is called. -/
inductive Outcome
  | dryRun (plan : WritePlan)
  | started (plan : WritePlan) (info : DeviceInfo)
  deriving DecidableEq

/-- An error of this crate as the error of a run. -/
def ofDisk {α : Type} : Except DiskError α → Fallible α
  | .ok value => .ok value
  | .error error => .error (.error error.chain)

/-- The question to the user, which `--force` leaves out. -/
def confirm (host : Host) (force : Bool) : Fallible Unit :=
  if force then pure () else Fallible.context "confirmation prompt" (prompt host)

/-- The call of the pipeline of the mode. -/
def startMode (plan : WritePlan) (info : DeviceInfo) : Fallible Outcome :=
  match plan.mode with
  | .hybrid => pure (.started plan info)
  | .windows => pure (.started plan info)
  | .windowsNtXp => pure (.started plan info)
  | .windows2000 => pure (.started plan info)
  | .isolinuxLinux => Fallible.bail "isolinux Linux mode lands in v0.4"
  | .uefiOnly => Fallible.bail "UEFI-only mode lands in v0.4"

/-- What a run does with its plan when it is no dry run. -/
def runPlan (host : Host) (config : Config) (plan : WritePlan) : Fallible Outcome := do
  let target := config.devicePath
  let found ← Fallible.context s!"device lookup for {String.ofList target}"
    (ofDisk (infoFor host target))
  let info ← Fallible.okOr s!"no such device: {String.ofList target}" found
  let _ ← Fallible.context "safety check" (ofDisk (info.checkWritable config.force))
  if info.sizeBytes < plan.isoBytes then
    Fallible.bail s!"ISO is {plan.isoBytes} bytes; device {String.ofList info.path} is only {info.sizeBytes} bytes"
  else do
    let _ ← confirm host config.force
    startMode plan info

/-- The run up to the call of the pipeline of its mode. -/
def run (host : Host) (config : Config) : Fallible Outcome := do
  let plan ← buildPlan host config
  if config.unattended.isSome ∧ ¬ (plan.mode = .windowsNtXp ∨ plan.mode = .windows2000) then
    Fallible.bail "--unattended is currently supported only with --type=windows-ntxp or --type=windows-2000"
  else if config.ahciDriverDir.isSome ∧ ¬ plan.mode = .windowsNtXp then
    Fallible.bail "--ahci-driver-dir is currently supported only with --type=windows-ntxp"
  else if config.dryRun then pure (.dryRun plan)
  else runPlan host config plan

/-! ### When a pipeline starts -/

section Started

variable {host : Host} {config : Config}

/-- What `diskutil` reports about a disk, where it answers. -/
def Host.answer (host : Host) (bsd : Text) : Option DiskutilInfo :=
  match host.runDiskutilInfo bsd with
  | .error _ => none
  | .ok plist =>
    match host.fromPlist plist with
    | .error _ => none
    | .ok info => some info

/-- The device that is made of an answer. -/
def deviceOf (bsd : Text) (bootDiskBsd : Option Text) (info : DiskutilInfo) : DeviceInfo where
  path := rawPath bsd
  sizeBytes := info.size
  model := modelOf info
  internal := info.internal
  isBootDisk := bootDiskBsd.elim false fun boot => boot = bsd
  removable := info.removableMedia

theorem infoForInternal_eq_some {bsd : Text} {bootDiskBsd : Option Text} {info : DeviceInfo} :
    infoForInternal host bsd bootDiskBsd = .ok (some info) ↔
      ∃ disk, host.answer bsd = some disk ∧ disk.wholeDisk = true ∧ deviceOf bsd bootDiskBsd disk = info := by
  unfold infoForInternal Host.answer
  cases host.runDiskutilInfo bsd with
  | error error => cases error <;> simp
  | ok plist =>
    cases parsed : host.fromPlist plist with
    | error text => simp [parsed]
    | ok disk =>
      cases whole : disk.wholeDisk with
      | false => simp [parsed, whole]
      | true => simp [parsed, whole, deviceOf]

theorem ofDisk_eq_ok {α : Type} {call : Except DiskError α} {value : α} :
    ofDisk call = .ok value ↔ call = .ok value := by
  cases call <;> simp [ofDisk]

theorem checkWritable_eq_ok {info : DeviceInfo} {force : Bool} : info.checkWritable force = .ok () ↔
    info.isBootDisk = false ∧ (info.internal = true → force = true) ∧
      (sizeCap < info.sizeBytes → force = true) := by
  unfold DeviceInfo.checkWritable
  cases info.isBootDisk with
  | true => simp
  | false => cases info.internal <;> cases force <;> by_cases large : sizeCap < info.sizeBytes <;> simp [large]

/-- **What the run checks apart from the boot disk**: of the plan, of the disk that the target names and
of the answer of the user. -/
structure OtherChecks (host : Host) (config : Config) (plan : WritePlan) (disk : DiskutilInfo) : Prop where
  planned : buildPlan host config = .ok plan
  unattended : config.unattended.isSome → plan.mode = .windowsNtXp ∨ plan.mode = .windows2000
  drivers : config.ahciDriverDir.isSome → plan.mode = .windowsNtXp
  real : config.dryRun = false
  found : host.answer (normalizeBsdName config.devicePath) = some disk
  whole : disk.wholeDisk = true
  external : disk.internal = true → config.force = true
  small : sizeCap < disk.size → config.force = true
  fits : plan.isoBytes ≤ disk.size
  confirmed : config.force = false → prompt host = .ok ()
  mode : plan.mode ≠ .isolinuxLinux ∧ plan.mode ≠ .uefiOnly

theorem confirm_eq_ok {force : Bool} {value : Unit} :
    confirm host force = .ok value ↔ (force = false → prompt host = .ok ()) := by
  cases force with
  | true => simp [confirm]
  | false => simp [confirm]

theorem startMode_eq_ok {plan : WritePlan} {info : DeviceInfo} {outcome : Outcome} :
    startMode plan info = .ok outcome ↔
      (plan.mode ≠ .isolinuxLinux ∧ plan.mode ≠ .uefiOnly) ∧ .started plan info = outcome := by
  unfold startMode
  cases plan.mode <;> simp

/-- The checks of the disk and of the answer. -/
theorem runPlan_eq_ok {plan : WritePlan} {outcome : Outcome} : runPlan host config plan = .ok outcome ↔
    ∃ info, infoFor host config.devicePath = .ok (some info) ∧ info.checkWritable config.force = .ok () ∧
      plan.isoBytes ≤ info.sizeBytes ∧ (config.force = false → prompt host = .ok ()) ∧
      (plan.mode ≠ .isolinuxLinux ∧ plan.mode ≠ .uefiOnly) ∧ .started plan info = outcome := by
  unfold runPlan
  simp only [Fallible.bind_eq_ok, Fallible.guard_eq_ok, Fallible.context_eq_ok, Fallible.okOr_eq_ok,
    ofDisk_eq_ok, confirm_eq_ok, startMode_eq_ok, not_lt]
  constructor
  · rintro ⟨_, lookup, info, rfl, _, writable, fits, _, confirmed, started⟩
    exact ⟨info, lookup, writable, fits, confirmed, started⟩
  · rintro ⟨info, lookup, writable, fits, confirmed, started⟩
    exact ⟨some info, lookup, info, rfl, (), writable, fits, (), confirmed, started⟩

/-- **When a pipeline starts**: every other check passes, and the disk is not known as the boot disk. -/
theorem run_eq_started {plan : WritePlan} {info : DeviceInfo} :
    run host config = .ok (.started plan info) ↔ ∃ disk, OtherChecks host config plan disk ∧
      deviceOf (normalizeBsdName config.devicePath) (bootDiskWhole host).toOption disk = info ∧
      info.isBootDisk = false := by
  unfold run
  simp only [Fallible.bind_eq_ok, Fallible.guard_eq_ok]
  constructor
  · rintro ⟨_, planned, unattended, drivers, started⟩
    split at started
    · cases (Fallible.pure_eq_ok _ _).mp started
    rename_i real
    obtain ⟨_, lookup, writable, fits, confirmed, mode, outcome⟩ := runPlan_eq_ok.mp started
    injection outcome with samePlan sameInfo
    subst samePlan sameInfo
    obtain ⟨disk, answer, whole, rfl⟩ := infoForInternal_eq_some.mp lookup
    obtain ⟨notBoot, external, small⟩ := checkWritable_eq_ok.mp writable
    refine ⟨disk, ⟨planned, fun given => ?_, fun given => ?_, by simpa using real, answer, whole, external,
      small, fits, confirmed, mode⟩, rfl, notBoot⟩
    · by_contra other
      exact unattended ⟨given, other⟩
    · by_contra other
      exact drivers ⟨given, other⟩
  · rintro ⟨disk, checks, rfl, notBoot⟩
    refine ⟨plan, checks.planned, fun bad => bad.2 (checks.unattended bad.1),
      fun bad => bad.2 (checks.drivers bad.1), ?_⟩
    rw [checks.real]
    show runPlan host config plan = _
    refine runPlan_eq_ok.mpr ⟨_, infoForInternal_eq_some.mpr ⟨disk, checks.found, checks.whole, rfl⟩, ?_,
      checks.fits, checks.confirmed, checks.mode, rfl⟩
    exact checkWritable_eq_ok.mpr ⟨notBoot, checks.external, checks.small⟩

end Started

/-! ### The boot disk -/

section Boot

variable {host : Host} {config : Config} {bootDisk : Nat}

/-- **What is relied on about the operating system**, whose `/` is on the disk `bootDisk`: `diskutil`
reports whole disks under their canonical names only, and a lookup of the boot volume that succeeds gives
a slice of that disk. -/
structure Host.Reports (host : Host) (bootDisk : Nat) : Prop where
  canonical : ∀ bsd disk, host.answer bsd = some disk → disk.wholeDisk = true →
    ∃ number, bsd = diskName number
  mounted : ∀ mounted, host.statfs = .ok mounted →
    ∃ rest, mounted = devPrefix ++ diskName bootDisk ++ 's' :: rest

/-- **The boot disk is safe**: the disk that a pipeline gets is the one whose digits the target spells,
and it is not the boot disk. -/
def Guarded (host : Host) (config : Config) (bootDisk : Nat) : Prop :=
  ∀ plan info, run host config = .ok (.started plan info) →
    info.path = rawPath (normalizeBsdName config.devicePath) ∧
    ∃ number, Spells config.devicePath (Nat.repr number).toList ∧ info.path = rawPath (diskName number) ∧
      number ≠ bootDisk

/-- A slice of the boot disk is reduced to its name. -/
theorem Host.Reports.bootName (reports : host.Reports bootDisk) {mounted : Text}
    (found : host.statfs = .ok mounted) : bootDiskWhole host = .ok (diskName bootDisk) := by
  obtain ⟨rest, rfl⟩ := reports.mounted mounted found
  unfold bootDiskWhole
  rw [found]
  show Except.ok _ = Except.ok _
  congr 1
  rw [normalizeBsdName_eq_diskName]
  refine ⟨1, [], 's' :: rest, ?_, Or.inl rfl, repr_digits bootDisk, ?_⟩
  · simp [diskName]
  · rintro _ ⟨⟩
    decide

/-- **Where the boot disk is safe**: the lookup of the boot volume succeeds, the target spells another
disk, or another check stops the run. -/
theorem run_guarded_iff (reports : host.Reports bootDisk) : Guarded host config bootDisk ↔
    (∃ mounted, host.statfs = .ok mounted) ∨ ¬ Spells config.devicePath (Nat.repr bootDisk).toList ∨
      ∀ plan disk, ¬ OtherChecks host config plan disk := by
  constructor
  · intro guarded
    by_contra danger
    obtain ⟨unknown, spelled, checks⟩ := by simpa only [not_or, not_not, not_forall] using danger
    obtain ⟨plan, disk, checks⟩ := checks
    -- without the name of the boot disk no disk is known as it
    have lookup : (bootDiskWhole host).toOption = none := by
      unfold bootDiskWhole
      cases found : host.statfs with
      | ok mounted => exact absurd ⟨mounted, found⟩ unknown
      | error text => rfl
    have started : run host config = .ok (.started plan (deviceOf _ none disk)) :=
      run_eq_started.mpr ⟨disk, checks, by rw [lookup], rfl⟩
    obtain ⟨_, number, _, path, other⟩ := guarded _ _ started
    have same : rawPath (normalizeBsdName config.devicePath) = rawPath (diskName number) := path
    rw [normalizeBsdName_eq_diskName.mpr spelled] at same
    exact other (diskName_injective (List.append_cancel_left same)).symm
  · intro safe plan info started
    obtain ⟨disk, checks, rfl, notBoot⟩ := run_eq_started.mp started
    obtain ⟨number, name⟩ := reports.canonical _ disk checks.found checks.whole
    refine ⟨rfl, number, normalizeBsdName_eq_diskName.mp name, by rw [← name]; rfl, ?_⟩
    rintro rfl
    rcases safe with ⟨mounted, found⟩ | other | stopped
    · -- a known boot disk is refused
      rw [reports.bootName found, name] at notBoot
      simp [deviceOf, Except.toOption] at notBoot
    · exact other (normalizeBsdName_eq_diskName.mp name)
    · exact stopped plan disk checks

end Boot

/-! ### A run on the boot disk -/

/-- A system with one external disk of 64 GB, which `/` is on, where the boot volume is not found. -/
def sampleHost (statfs : Except String Text) : Host where
  runDiskutilInfo bsd := if bsd = diskName 3 then .ok [] else .error (.external "diskutil info" "")
  fromPlist _ := .ok ⟨true, 64000000000, false, true, some "Sample Media".toList, none⟩
  statfs := statfs
  metadata _ := .ok (true, 700000000)
  classify _ := .ok .hybrid
  readLine := .ok "yes\n".toList

theorem sampleHost_reports {statfs : Except String Text}
    (mounted : ∀ mounted, statfs = .ok mounted →
      ∃ rest, mounted = devPrefix ++ diskName 3 ++ 's' :: rest) : (sampleHost statfs).Reports 3 := by
  refine ⟨fun bsd disk found _ => ?_, mounted⟩
  unfold sampleHost Host.answer at found
  by_cases here : bsd = diskName 3
  · exact ⟨3, here⟩
  · simp [here] at found

/-- The configuration of a run on `/dev/disk3s1`. -/
def sampleConfig : Config where
  isoPath := "sample.iso".toList
  devicePath := "/dev/disk3s1".toList
  mode := .hybrid
  label := none
  dryRun := false
  force := false
  unattended := none
  ahciDriverDir := none

theorem run_guarded_sample : Guarded (sampleHost (.ok "/dev/disk3s1s1".toList)) sampleConfig 3 := by
  have reports : (sampleHost (.ok "/dev/disk3s1s1".toList)).Reports 3 := by
    refine sampleHost_reports fun mounted found => ⟨"1s1".toList, ?_⟩
    rw [← Except.ok.inj found]
    decide
  exact (run_guarded_iff reports).mpr (Or.inl ⟨_, rfl⟩)

/-- **A pipeline starts on the boot disk** when the boot volume is not found. -/
theorem boot_disk_started : (sampleHost (.error "Operation not permitted")).Reports 3 ∧
    Spells sampleConfig.devicePath (Nat.repr 3).toList ∧
    run (sampleHost (.error "Operation not permitted")) sampleConfig = .ok (.started
      ⟨"sample.iso".toList, 700000000, .hybrid, "BOOTSMITH".toList⟩
      ⟨"/dev/rdisk3".toList, 64000000000, "Sample Media".toList, false, false, true⟩) ∧
    ¬ Guarded (sampleHost (.error "Operation not permitted")) sampleConfig 3 := by
  have reports : (sampleHost (.error "Operation not permitted")).Reports 3 :=
    sampleHost_reports fun mounted found => nomatch found
  have spelled : Spells sampleConfig.devicePath (Nat.repr 3).toList :=
    normalizeBsdName_eq_diskName.mp (by decide)
  have started : run (sampleHost (.error "Operation not permitted")) sampleConfig = .ok (.started
      ⟨"sample.iso".toList, 700000000, .hybrid, "BOOTSMITH".toList⟩
      ⟨"/dev/rdisk3".toList, 64000000000, "Sample Media".toList, false, false, true⟩) := by
    decide
  refine ⟨reports, spelled, started, fun guarded => ?_⟩
  obtain ⟨_, number, _, path, other⟩ := guarded _ _ started
  have same : rawPath (diskName 3) = rawPath (diskName number) :=
    (by decide : rawPath (diskName 3) = "/dev/rdisk3".toList).trans path
  exact other (diskName_injective (List.append_cancel_left same)).symm

end Bootsmith.Disk
