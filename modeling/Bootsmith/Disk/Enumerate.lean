/-
**The listing of the disks** (`macos.rs`).

* `isWholeDiskName_iff`: the names that are kept are `disk` and at least one digit;
* `enumerate_lookups`: the listing has exactly the disks that a lookup by name finds, in their order, and the path of
  each is looked up as the same disk again.
-/

import Bootsmith.Disk.Guard

namespace Bootsmith.Disk

open Bootsmith.Library Bootsmith.Core

/-! ### The functions -/

/-- The answers to `diskutil list -plist`. -/
structure Lister where
  runDiskutilList : Except DiskError Bytes
  fromPlist : Bytes → Except String (List Text)

def isWholeDiskName (s : Text) : Bool :=
  match stripPrefix diskPrefix s with
  | none => false
  | some rest => !rest.isEmpty && rest.all Char.isDigit

def listAllDisks (lister : Lister) : Except DiskError (List Text) :=
  match lister.runDiskutilList with
  | .error error => .error error
  | .ok plist =>
    match lister.fromPlist plist with
    | .error text => .error (.daError s!"parsing diskutil list plist: {text}")
    | .ok allDisks => .ok (allDisks.filter isWholeDiskName)

/-- The loop over the names. -/
def infosOf (host : Host) (bootDiskBsd : Text) : List Text → List DeviceInfo
  | [] => []
  | name :: names =>
    match infoForInternal host name (some bootDiskBsd) with
    | .ok (some info) => info :: infosOf host bootDiskBsd names
    | .ok none => infosOf host bootDiskBsd names
    -- the disk is skipped with a warning
    | .error _ => infosOf host bootDiskBsd names

def enumerate (host : Host) (lister : Lister) : Except DiskError (List DeviceInfo) := do
  let bsdNames ← listAllDisks lister
  let bootDiskBsd ← bootDiskWhole host
  pure (infosOf host bootDiskBsd bsdNames)

/-! ### Names of whole disks -/

theorem isWholeDiskName_iff {s : Text} :
    isWholeDiskName s = true ↔ ∃ digits, s = diskPrefix ++ digits ∧ digits ≠ [] ∧ digits.all Char.isDigit := by
  unfold isWholeDiskName
  cases stripped : stripPrefix diskPrefix s with
  | none =>
    refine ⟨fun whole => absurd whole Bool.false_ne_true, ?_⟩
    rintro ⟨digits, same, -, -⟩
    rw [stripPrefix_eq_some.mpr same] at stripped
    cases stripped
  | some rest =>
    rw [stripPrefix_eq_some] at stripped
    subst stripped
    constructor
    · intro whole
      obtain ⟨some, all⟩ := Bool.and_eq_true_iff.mp whole
      exact ⟨rest, rfl, by simpa using some, all⟩
    · rintro ⟨digits, same, some, all⟩
      obtain rfl := List.append_cancel_left same
      exact Bool.and_eq_true_iff.mpr ⟨by simpa using some, all⟩

/-- The name of a whole disk is reduced to itself. -/
theorem normalizeBsdName_of_whole {name : Text} (whole : isWholeDiskName name = true) :
    normalizeBsdName name = name := by
  obtain ⟨digits, rfl, -, all⟩ := isWholeDiskName_iff.mp whole
  exact (normalizeBsdName_eq_disk all).mpr ⟨0, [], [], by simp, Or.inl rfl, all, by simp⟩

/-- So is the path of its raw device. -/
theorem normalizeBsdName_rawPath {name : Text} (whole : isWholeDiskName name = true) :
    normalizeBsdName (rawPath name) = name := by
  obtain ⟨digits, rfl, -, all⟩ := isWholeDiskName_iff.mp whole
  exact (normalizeBsdName_eq_disk all).mpr ⟨1, ['r'], [], by simp [rawPath, devPrefix], Or.inr rfl, all, by simp⟩

/-! ### The listing -/

section Listing

variable {host : Host} {lister : Lister} {boot : Text} {names : List Text} {info : DeviceInfo}

theorem mem_infosOf :
    info ∈ infosOf host boot names ↔ ∃ name ∈ names, infoForInternal host name (some boot) = .ok (some info) := by
  induction names with
  | nil => simp [infosOf]
  | cons name names ih =>
    rw [infosOf, List.exists_mem_cons_iff]
    split
    · rename_i found answer
      rw [List.mem_cons, ih, answer, Except.ok.injEq, Option.some.injEq, eq_comm]
    · rename_i answer
      simp [ih, answer]
    · rename_i error answer
      simp [ih, answer]

theorem infosOf_paths : ((infosOf host boot names).map DeviceInfo.path).Sublist (names.map rawPath) := by
  induction names with
  | nil => exact List.Sublist.refl _
  | cons name names ih =>
    rw [infosOf]
    split
    · rename_i found answer
      obtain ⟨disk, -, -, rfl⟩ := infoForInternal_eq_some.mp answer
      exact ih.cons_cons _
    · exact ih.cons _
    · exact ih.cons _

theorem listAllDisks_whole (listed : listAllDisks lister = .ok names) :
    ∀ name ∈ names, isWholeDiskName name = true := by
  unfold listAllDisks at listed
  split at listed
  · cases listed
  · split at listed
    · cases listed
    · obtain rfl := Except.ok.inj listed
      exact fun name member => (List.mem_filter.mp member).2

theorem enumerate_eq_ok {devices : List DeviceInfo} : enumerate host lister = .ok devices ↔
    ∃ names boot, listAllDisks lister = .ok names ∧ bootDiskWhole host = .ok boot ∧
      infosOf host boot names = devices := by
  unfold enumerate
  constructor
  · intro listed
    cases kept : listAllDisks lister with
    | error error =>
      rw [kept] at listed
      cases listed
    | ok names =>
      cases known : bootDiskWhole host with
      | error error =>
        rw [kept, known] at listed
        cases listed
      | ok boot =>
        rw [kept, known] at listed
        exact ⟨names, boot, rfl, rfl, Except.ok.inj listed⟩
  · rintro ⟨names, boot, kept, known, rfl⟩
    rw [kept, known]
    rfl

/-- The lookup of a disk by its name, when the boot disk is known. -/
theorem infoFor_of_whole (known : bootDiskWhole host = .ok boot) {target name : Text}
    (normal : normalizeBsdName target = name) : infoFor host target = infoForInternal host name (some boot) := by
  unfold infoFor
  rw [normal, known]
  rfl

/-- **What the listing shows**: the disks that a lookup by a listed name finds, in the order of the names. A lookup of
the path of a disk gives the same disk again, and the boot disk is the one that is marked. -/
theorem enumerate_lookups {devices : List DeviceInfo} (listed : enumerate host lister = .ok devices) :
    ∃ names boot, listAllDisks lister = .ok names ∧ bootDiskWhole host = .ok boot ∧
      (devices.map DeviceInfo.path).Sublist (names.map rawPath) ∧
      (∀ info, info ∈ devices ↔ ∃ name ∈ names, infoFor host name = .ok (some info)) ∧
      ∀ info ∈ devices, infoFor host info.path = .ok (some info) ∧
        (info.isBootDisk = true ↔ info.path = rawPath boot) := by
  obtain ⟨names, boot, kept, known, rfl⟩ := enumerate_eq_ok.mp listed
  have whole := listAllDisks_whole kept
  have byName : ∀ name ∈ names, infoFor host name = infoForInternal host name (some boot) := fun name member =>
    infoFor_of_whole known (normalizeBsdName_of_whole (whole name member))
  refine ⟨names, boot, kept, known, infosOf_paths, fun info => ?_, fun info member => ?_⟩
  · rw [mem_infosOf]
    exact exists_congr fun name => and_congr_right fun member => by rw [byName name member]
  · obtain ⟨name, here, answer⟩ := mem_infosOf.mp member
    obtain ⟨disk, -, -, rfl⟩ := infoForInternal_eq_some.mp answer
    refine ⟨(infoFor_of_whole known (normalizeBsdName_rawPath (whole name here))).trans answer, ?_⟩
    show decide (boot = name) = true ↔ rawPath name = rawPath boot
    rw [decide_eq_true_iff, rawPath, rawPath, List.append_cancel_left_eq, eq_comm]

/-- A system with the boot disk and one of its slices. -/
theorem enumerate_lookups_sample : ∃ device,
    enumerate (sampleHost (.ok "/dev/disk3s1s1".toList))
      ⟨.ok [], fun _ => .ok ["disk3".toList, "disk3s1".toList, "disk4".toList]⟩ = .ok [device] ∧
    infoFor (sampleHost (.ok "/dev/disk3s1s1".toList)) device.path = .ok (some device) := by
  have listed : enumerate (sampleHost (.ok "/dev/disk3s1s1".toList))
      ⟨.ok [], fun _ => .ok ["disk3".toList, "disk3s1".toList, "disk4".toList]⟩
      = .ok [⟨"/dev/rdisk3".toList, 64000000000, "Sample Media".toList, false, true, true⟩] := by decide +kernel
  obtain ⟨_, _, _, _, _, _, again⟩ := enumerate_lookups listed
  exact ⟨_, listed, (again _ (List.mem_singleton_self _)).1⟩

end Listing

end Bootsmith.Disk
