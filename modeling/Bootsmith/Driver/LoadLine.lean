/-
**The driver that the service loads.**

The added line of `[SCSI.Load]` names the first `.sys` file of the referenced files, whatever key and service
its line has. So the service loads a file of its own `driver` lines exactly when no other `.sys` file comes
first (`OwnFirst`, `patch_loads_own_iff`); `helper_loaded` is a pack where one does.
-/

import Bootsmith.Driver.Services

namespace Bootsmith.Driver

open Bootsmith.Library

/-! ### The first driver file -/

/-- The file is a driver. -/
def isSys (file : Text) : Bool := endsWith (lower file) ".sys"

section Names

variable {same : Text → Bool}

/-- Leaving out names that are known up to case does not change which is found first. -/
theorem find?_foldl_addName (upToCase : ∀ first second, lower first = lower second → same first = same second)
    (names out : List Text) : (names.foldl addName out).find? same = (out ++ names).find? same := by
  induction names generalizing out with
  | nil => rw [List.foldl_nil, List.append_nil]
  | cons name rest ih =>
    rw [List.foldl_cons, ih, addName]
    split
    · rename_i known
      obtain ⟨old, member, alike⟩ := List.any_eq_true.mp known
      have agree := upToCase old name (eqIgnoreCase_iff.mp alike)
      rw [List.find?_append, List.find?_append, List.find?_cons]
      cases here : same name with
      | false => rfl
      | true =>
        -- the known name is found before
        have found : (out.find? same).isSome := List.find?_isSome.mpr ⟨old, member, agree.trans here⟩
        rw [Option.or_of_isSome found, Option.or_of_isSome found]
    · rw [List.append_assoc, List.singleton_append]

end Names

theorem isSys_upToCase {first second : Text} (alike : lower first = lower second) :
    isSys first = isSys second := by
  unfold isSys
  rw [alike]

/-- A line that refers to a driver. -/
def refersToSys (line : Text) : Bool := (referencedName line).any isSys

/-- **The first driver** of the referenced files is the one of the first line that refers to a driver. -/
theorem find?_referencedFilenames {oem : Text} {files : List Text}
    (read : referencedFilenames oem = .ok files) :
    ∃ sections, parse oem = .ok sections ∧
      files.find? isSys = ((linesOf "files.scsi." sections).find? refersToSys).bind referencedName := by
  obtain ⟨sections, parsed, result⟩ := (Fallible.bind_eq_ok _ _ _).mp read
  rw [Fallible.context_eq_ok] at parsed
  obtain rfl := (Fallible.pure_eq_ok _ _).mp result
  refine ⟨sections, parsed, ?_⟩
  rw [find?_foldl_addName (fun _ _ alike => isSys_upToCase alike), List.nil_append, List.find?_filterMap]
  rfl

/-! ### The files of a service -/

/-- The file and the service of a `driver = disk, file, service` line. -/
def driverFields (line : Text) : Option (Text × Text) := do
  let (key, rhs) ← splitOnce '=' line
  if lower (trim key) = "driver".toList then
    let file ← (rhs.splitOn ',')[1]?
    let svc ← (rhs.splitOn ',')[2]?
    some (trim file, trim svc)
  else none

/-- The line is a `driver` line of the service with the file, read with what stands behind a `;` or without. -/
def isDriverLine (service file line : Text) : Bool :=
  [line, stripComment line].any fun text => (driverFields text).any fun entry =>
    eqIgnoreCase entry.2 service && eqIgnoreCase entry.1 file

/-- The file is one that a `driver` line of the service names. -/
def ownFile (lines : List Text) (service file : Text) : Bool := lines.any (isDriverLine service file)

/-- Every line that refers to a driver which is not the service's own has one in front that refers to an own. -/
def OwnFirst (lines : List Text) (service : Text) : Prop :=
  ∀ before line after file, lines = before ++ line :: after → referencedName line = some file → isSys file →
    ¬ ownFile lines service file →
    ∃ other ∈ before, ∃ own, referencedName other = some own ∧ isSys own ∧ ownFile lines service own

/-- **The first driver is the service's own exactly when no other comes first.** -/
theorem ownFile_iff {lines : List Text} {service driverSys : Text}
    (first : (lines.find? refersToSys).bind referencedName = some driverSys) :
    ownFile lines service driverSys ↔ OwnFirst lines service := by
  obtain ⟨line, found, reads⟩ := Option.bind_eq_some_iff.mp first
  constructor
  · intro own before stray after file shape readsStray sys notOwn
    rw [shape, List.find?_append] at found
    cases earlier : before.find? refersToSys with
    | some other =>
      rw [earlier, Option.some_or] at found
      obtain rfl := Option.some.inj found
      have driver := List.find?_some earlier
      rw [refersToSys, reads, Option.any_some] at driver
      exact ⟨other, List.mem_of_find?_eq_some earlier, driverSys, reads, driver, own⟩
    | none =>
      -- the stray line is the first
      have driver : refersToSys stray = true := by rw [refersToSys, readsStray, Option.any_some, sys]
      rw [earlier, Option.none_or, List.find?_cons_of_pos driver] at found
      obtain rfl := Option.some.inj found
      obtain rfl := Option.some.inj (reads.symm.trans readsStray)
      exact absurd own notOwn
  · intro ownFirst
    by_contra notOwn
    obtain ⟨driver, before, after, shape, none⟩ := List.find?_eq_some_iff_append.mp found
    rw [refersToSys, reads, Option.any_some] at driver
    obtain ⟨other, member, own, readsOwn, sys, -⟩ := ownFirst before line after driverSys shape reads driver notOwn
    have quiet := none other member
    rw [refersToSys, readsOwn, Option.any_some, sys] at quiet
    cases quiet

/-! ### The patch -/

/-- **When the service loads a file of its own**: exactly when no other driver comes first in the sections of
the controllers' files. -/
theorem patch_loads_own_iff {order : HashOrder} {oem sif service display : Text} {files : List Text}
    {ids : List (Text × Text)} {patched : Patched} (readFiles : referencedFilenames oem = .ok files)
    (run : patchTxtsetupSif order sif service display files ids = .ok patched) :
    ∃ sections driverSys groups, parse oem = .ok sections ∧
      SifPatched sif service display files ids patched.text driverSys groups ∧
      (∀ line, AddedTo (splitCrlf sif) groups "scsi.load" line ↔ line = scsiLoadLine service driverSys) ∧
      (ownFile (linesOf "files.scsi." sections) service driverSys ↔
        OwnFirst (linesOf "files.scsi." sections) service) := by
  obtain ⟨driverSys, groups, patching⟩ := patchTxtsetupSif_eq_ok run
  obtain ⟨sections, parsed, first⟩ := find?_referencedFilenames readFiles
  refine ⟨sections, driverSys, groups, parsed, patching, fun line => ?_, ownFile_iff ?_⟩
  · rw [patching.addedTo "scsi.load" rfl]
    exact List.mem_singleton
  · exact first.symm.trans patching.driver

set_option maxRecDepth 20000 in
/-- The pack with one driver loads it, and has it first. -/
theorem patch_loads_own_sample : ∃ patched sections groups,
    patchTxtsetupSif .plain sampleSif "ahci".toList "AHCI".toList ["ahci.sys".toList]
        [("PCI\\A".toList, "ahci".toList)] = .ok patched ∧
      parse (sampleOem "ahci") = .ok sections ∧
      (∀ line, AddedTo (splitCrlf sampleSif) groups "scsi.load" line ↔
        line = scsiLoadLine "ahci".toList "ahci.sys".toList) ∧
      ownFile (linesOf "files.scsi." sections) "ahci".toList "ahci.sys".toList ∧
      OwnFirst (linesOf "files.scsi." sections) "ahci".toList := by
  have patches : (patchTxtsetupSif .plain sampleSif "ahci".toList "AHCI".toList ["ahci.sys".toList]
      [("PCI\\A".toList, "ahci".toList)]).toOption.isSome := by decide
  obtain ⟨patched, run⟩ := Fallible.exists_ok patches
  obtain ⟨sections, driverSys, groups, parsed, patching, line, own⟩ := patch_loads_own_iff
    (show referencedFilenames (sampleOem "ahci") = .ok ["ahci.sys".toList] by decide) run
  obtain rfl : driverSys = "ahci.sys".toList := Option.some.inj (patching.driver.symm.trans (by decide))
  have reads : ((parse (sampleOem "ahci")).toOption.any fun sections =>
      ownFile (linesOf "files.scsi." sections) "ahci".toList "ahci.sys".toList) = true := by decide
  rw [parsed] at reads
  exact ⟨patched, sections, groups, run, parsed, line, reads, own.mp reads⟩

/-- A pack whose controller has a second driver under another key. -/
def helperOem : Text :=
  ("[scsi]\r\nahci = \"AHCI\"\r\n[Files.scsi.ahci]\r\nport = d1, helper.sys\r\ndriver = d1, ahci.sys, ahci\r\n"
    ++ "[HardwareIds.scsi.ahci]\r\nid = \"PCI\\A\", \"ahci\"\r\n").toList

set_option maxRecDepth 20000 in
/-- **The service may load another file**: the line `port = d1, helper.sys` stands in front of the line
`driver = d1, ahci.sys, ahci`. -/
theorem helper_loaded : ¬ ∀ (order : HashOrder) (oem sif service display : Text) (files : List Text)
    (ids : List (Text × Text)) (patched : Patched), collectServices oem = .ok [service] →
    displayNameOf oem service = .ok display → hardwareIds oem = .ok ids → referencedFilenames oem = .ok files →
    patchTxtsetupSif order sif service display files ids = .ok patched →
    ∃ sections driverSys groups, parse oem = .ok sections ∧
      SifPatched sif service display files ids patched.text driverSys groups ∧
      ownFile (linesOf "files.scsi." sections) service driverSys := by
  intro claimed
  have patches : (patchTxtsetupSif .plain sampleSif "ahci".toList "AHCI".toList
      ["helper.sys".toList, "ahci.sys".toList] [("PCI\\A".toList, "ahci".toList)]).toOption.isSome := by
    decide
  obtain ⟨patched, run⟩ := Fallible.exists_ok patches
  obtain ⟨sections, driverSys, groups, parsed, patching, own⟩ := claimed .plain helperOem sampleSif
    "ahci".toList "AHCI".toList _ _ patched (by decide) (by decide) (by decide)
    (by decide) run
  have driver : driverSys = "helper.sys".toList := Option.some.inj (patching.driver.symm.trans (by decide))
  have strays : ((parse helperOem).toOption.any fun sections =>
      !ownFile (linesOf "files.scsi." sections) "ahci".toList "helper.sys".toList) = true := by decide
  rw [parsed] at strays
  rw [driver] at own
  have notOwn : (!ownFile (linesOf "files.scsi." sections) "ahci".toList "helper.sys".toList) = true := strays
  rw [own] at notOwn
  cases notOwn

end Bootsmith.Driver
