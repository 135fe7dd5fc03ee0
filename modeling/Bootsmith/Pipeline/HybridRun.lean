/-
**A hybrid run on a machine whose disk works.**

A machine serves a raw device when its answers to the raw calls are those of the device (`Serves`). Seen
through the device, the loops of the pipeline are then the loops over a raw device (`writeIsoFrom_refines`,
`verifyIsoFrom_refines`), and a whole run leaves the ISO on the disk, passes its verify pass and ends as the
eject does (`hybridRun_writes`).
-/

import Bootsmith.Library.Machine
import Bootsmith.Pipeline.Asked

namespace Bootsmith.Pipeline

open Bootsmith.Library Bootsmith.Disk Bootsmith.Core Exchange

/-! ### Machines with a disk -/

/-- The calls that leave a disk as it is, whichever device they name. -/
def Call.leavesDisk : Call → Bool
  | .command (.unmountDisk _) => true
  | .command (.eject _) => true
  | .openRaw _ => true
  | .readRaw _ _ _ => true
  | .syncRaw _ => true
  | .closeRaw _ => true
  | .openFile _ => true
  | _ => false

/-- **The raw calls are answered as the device answers them.** -/
structure Serves {σ : Type} (machine : Machine Call Answer σ) (path : Text) (disk : σ → RawDevice) : Prop where
  opens : ∀ state, ∃ geometry, (machine (.openRaw path) state).1 = .ok geometry ∧
    geometry.blockSize = (disk state).blockSize ∧ geometry.sizeBytes = (disk state).image.size
  reads : ∀ offset count state,
    (told ["I/O error"] (machine (.readRaw path offset count) state).1).map Subtype.val
      = (disk state).readAt offset count
  writes : ∀ offset bytes state, (RawDevice.writeAt offset bytes).run (disk state)
    = settle (told ["I/O error"] (machine (.writeRaw path offset bytes) state).1,
        disk (machine (.writeRaw path offset bytes) state).2)
  syncs : ∀ state, (machine (.syncRaw path) state).1 = .ok ()
  leaves : ∀ call state, call.leavesDisk = true → disk (machine call state).2 = disk state

section Serves

variable {σ : Type} {machine : Machine Call Answer σ} {path : Text} {disk : σ → RawDevice}

theorem seen_settle {α : Type} (outcome : Fallible α × σ) :
    Effect.seen disk (settle outcome) = settle (outcome.1, disk outcome.2) := by
  obtain ⟨result, last⟩ := outcome
  cases result <;> rfl

theorem left_settle {σ α : Type} (outcome : Fallible α × σ) : Effect.left (settle outcome) = outcome.2 := by
  obtain ⟨result, last⟩ := outcome
  cases result <;> rfl

/-- A write does not change the block size. -/
theorem writeAt_blockSize (device : RawDevice) (offset : Nat) (bytes : Bytes) :
    (Effect.left ((RawDevice.writeAt offset bytes).run device)).blockSize = device.blockSize := by
  show (Effect.left (RawDevice.writeAt offset bytes device)).blockSize = _
  unfold RawDevice.writeAt
  split <;> rfl

theorem Serves.writeRaw_refines (serves : Serves machine path disk) (blockSize offset : Nat) (bytes : Bytes) :
    Effect.Refines disk (fun device => device.blockSize = blockSize) ((writeRaw path offset bytes).on machine)
      (RawDevice.writeAt offset bytes) := by
  intro state holds
  have same := serves.writes offset bytes state
  have kept := writeAt_blockSize (disk state) offset bytes
  have run : ((writeRaw path offset bytes).on machine).run state
      = settle (told ["I/O error"] (machine (.writeRaw path offset bytes) state).1,
          (machine (.writeRaw path offset bytes) state).2) := rfl
  rw [same, left_settle] at kept
  rw [run, seen_settle, left_settle]
  exact ⟨same, kept.trans holds⟩

theorem Serves.readRaw_refines (serves : Serves machine path disk) (device : RawDevice) (offset count : Nat) :
    Effect.Refines disk (· = device) ((readRaw path offset count).on machine)
      (Effect.lift (device.readAt offset count)) := by
  intro state holds
  have same := serves.reads offset count state
  have kept := serves.leaves (.readRaw path offset count) state rfl
  rw [holds] at same kept
  have run : ((readRaw path offset count).on machine).run state
      = settle (device.readAt offset count, (machine (.readRaw path offset count) state).2) :=
    congrArg (fun result => settle (result, _)) same
  rw [run, seen_settle, left_settle, kept, holds]
  cases device.readAt offset count <;> exact ⟨rfl, rfl⟩

theorem brokenRead_none (count : Nat) : Hybrid.brokenRead count none = none := by
  unfold Hybrid.brokenRead
  split <;> rfl

/-- **The write loop is the loop over the device.** -/
theorem writeIsoFrom_refines (serves : Serves machine path disk) (blockSize : Nat) (source : ByteSource)
    (buf : Bytes) (offset : Nat) :
    Effect.Refines disk (fun device => device.blockSize = blockSize)
      ((Hybrid.writeIsoFrom path blockSize none source buf offset).on machine)
      (Bootsmith.Hybrid.writeIsoFrom source buf offset) := by
  induction left : source.rest.length using Nat.strong_induction_on generalizing source buf offset with
  | _ left ih =>
    subst left
    obtain ⟨count, _, rest⟩ := Bootsmith.Hybrid.readFull_spec source buf
    rw [Hybrid.writeIsoFrom, Bootsmith.Hybrid.writeIsoFrom]
    split
    rename_i n buf' source' filled
    simp only [filled] at count rest ⊢
    simp only [brokenRead_none]
    split
    · exact Effect.refines_pure ()
    rename_i some
    rw [on_bind, on_lift]
    have known : ∀ device : RawDevice, device.blockSize = blockSize →
        (.ok device.blockSize : Fallible Nat) = .ok blockSize := fun device same => congrArg Except.ok same
    refine Effect.Refines.query known ?_
    refine Effect.Refines.bind (Effect.refines_lift _) fun aligned => ?_
    rw [on_bind, on_lift]
    refine Effect.Refines.bind (Effect.refines_lift _) fun zeroed => ?_
    rw [on_bind, on_lift]
    refine Effect.Refines.bind (Effect.refines_lift _) fun part => ?_
    rw [on_bind]
    refine Effect.Refines.bind (serves.writeRaw_refines blockSize offset part) fun _ => ?_
    split
    · exact Effect.refines_pure ()
    · refine ih _ ?_ source' zeroed _ rfl
      rw [rest, List.length_drop]
      omega

/-- **The verify loop is the loop over the device.** -/
theorem verifyIsoFrom_refines (serves : Serves machine path disk) (device : RawDevice) (source : ByteSource)
    (isoBuf devBuf : Bytes) (offset : Nat) :
    Effect.Refines disk (· = device)
      ((Hybrid.verifyIsoFrom path device.blockSize none source isoBuf devBuf offset).on machine)
      (Effect.lift (Bootsmith.Hybrid.verifyIsoFrom device source isoBuf devBuf offset)) := by
  induction left : source.rest.length using Nat.strong_induction_on
    generalizing source isoBuf devBuf offset with
  | _ left ih =>
    subst left
    obtain ⟨count, _, rest⟩ := Bootsmith.Hybrid.readFull_spec source isoBuf
    rw [Hybrid.verifyIsoFrom, Bootsmith.Hybrid.verifyIsoFrom]
    split
    rename_i n isoBuf' source' filled
    simp only [filled] at count rest ⊢
    simp only [brokenRead_none]
    by_cases ended : n = 0
    · rw [if_pos ended, if_pos ended]
      exact Effect.refines_pure ()
    rw [if_neg ended, if_neg ended]
    simp only [on_bind, on_lift, Effect.lift_bind]
    refine Effect.Refines.bind (Effect.refines_lift _) fun aligned => ?_
    refine Effect.Refines.bind (Effect.refines_lift _) fun target => ?_
    refine Effect.Refines.bind (serves.readRaw_refines device offset target.length) fun bytes => ?_
    refine Effect.Refines.bind (Effect.refines_lift _) fun devPart => ?_
    refine Effect.Refines.bind (Effect.refines_lift _) fun isoPart => ?_
    by_cases differs : devPart ≠ isoPart
    · rw [if_pos differs, if_pos differs]
      rw [Exchange.bail, on_lift]
      exact Effect.refines_lift _
    rw [if_neg differs, if_neg differs]
    by_cases last : n < Bootsmith.Hybrid.chunkSize
    · rw [if_pos last, if_pos last]
      exact Effect.refines_pure ()
    · rw [if_neg last, if_neg last]
      refine ih _ ?_ source' isoBuf' _ _ rfl
      rw [rest, List.length_drop]
      omega

end Serves

/-! ### The run -/

section Run

variable {σ : Type} {machine : Machine Call Answer σ}

/-- The command always succeeds. -/
def Succeeds (machine : Machine Call Answer σ) (command : Command) : Prop :=
  ∀ state, ∃ output, (machine (.command command) state).1 = .ok output ∧ output.code = some 0

theorem start_runs {command : Command} {spawning failing : String} {detail : Output → Text}
    (succeeds : Succeeds machine command) (state : σ) :
    ∃ output, Program.on machine (start command spawning failing detail) state
      = (.ok output, (machine (.command command) state).2) := by
  obtain ⟨output, answer, zero⟩ := succeeds state
  refine ⟨output, ?_⟩
  show (finished spawning failing detail (machine (.command command) state).1, _) = _
  rw [answer]
  have returned : finished spawning failing detail (.ok output) = .ok output := if_pos zero
  rw [returned]

theorem runDiskutil_runs {command : Command} (succeeds : Succeeds machine command) (state : σ) :
    Program.on machine (runDiskutil command) state = (.ok (), (machine (.command command) state).2) := by
  obtain ⟨output, started⟩ := start_runs succeeds state
  exact on_bind_of_ok started _

theorem unmountDisk_runs {bsdPath : Text} (succeeds : Succeeds machine (.unmountDisk bsdPath)) (state : σ) :
    Program.on machine (unmountDisk bsdPath) state
      = (.ok (), (machine (.command (.unmountDisk bsdPath)) state).2) :=
  on_context_of_ok (runDiskutil_runs succeeds state) _

theorem eject_runs {bsdPath : Text} (succeeds : Succeeds machine (.eject bsdPath)) (state : σ) :
    Program.on machine (eject bsdPath) state = (.ok (), (machine (.command (.eject bsdPath)) state).2) :=
  on_context_of_ok (runDiskutil_runs succeeds state) _

/-- **The disk works, the ISO can be read, and nothing keeps the disk mounted.** -/
structure Healthy (machine : Machine Call Answer σ) (plan : WritePlan) (info : DeviceInfo) (disk : σ → RawDevice)
    (iso : Bytes) : Prop extends Serves machine info.path disk where
  raw : rdiskPrefix.isPrefixOf info.path = true
  isoOpens : ∀ state, ∃ source, (machine (.openFile plan.isoPath) state).1 = .ok ⟨source, none⟩ ∧ source.rest = iso
  unmounts : Succeeds machine (.unmountDisk (bsdPathOf info.path))

variable {plan : WritePlan} {info : DeviceInfo} {disk : σ → RawDevice} {iso : Bytes}

theorem openFile_runs (healthy : Healthy machine plan info disk iso) (opening : String) (state : σ) :
    ∃ source last, Program.on machine (openFile opening plan.isoPath) state = (.ok ⟨source, none⟩, last) ∧
      source.rest = iso ∧ disk last = disk state := by
  obtain ⟨source, answer, rest⟩ := healthy.isoOpens state
  refine ⟨source, (machine (.openFile plan.isoPath) state).2, ?_, rest, healthy.leaves _ state rfl⟩
  show (told [s!"{opening} {String.ofList plan.isoPath}"] (machine (.openFile plan.isoPath) state).1, _) = _
  rw [answer]
  rfl

theorem writeIsoToDevice_runs (healthy : Healthy machine plan info disk iso) {source : ByteSource}
    (rest : source.rest = iso) {state : σ} (divides : (disk state).blockSize ∣ Bootsmith.Hybrid.chunkSize)
    (room : iso.length ≤ (disk state).image.size) :
    ∃ last, Program.on machine (Hybrid.writeIsoToDevice info.path (disk state).blockSize ⟨source, none⟩) state
        = (.ok (), last) ∧
      (disk last).blockSize = (disk state).blockSize ∧ Bootsmith.Hybrid.Written (disk state) iso (disk last) := by
  subst rest
  have positive := Nat.pos_of_dvd_of_pos divides Bootsmith.Hybrid.chunkSize_pos
  obtain ⟨device, run, streamed⟩ := Bootsmith.Hybrid.writeIsoFrom_run source List.length_replicate divides
    (dvd_zero (disk state).blockSize) (by rwa [Nat.zero_add])
  obtain ⟨last, runs, same⟩ := Effect.Refines.run_eq_ok (writeIsoFrom_refines healthy.toServes _ source _ 0) rfl run
  refine ⟨last, on_run_eq_ok.mp runs, ?_, ?_⟩
  · rw [same, streamed.blockSize]
  · rw [same]
    exact streamed.written positive room

/-- A verify pass on a disk that holds the ISO. -/
theorem verifyPass_runs (healthy : Healthy machine plan info disk iso) {state : σ}
    (divides : (disk state).blockSize ∣ Bootsmith.Hybrid.chunkSize) (room : iso.length ≤ (disk state).image.size)
    (stored : (disk state).image.slice 0 iso.length = iso) (verify : Bool) :
    ∃ last, Program.on machine (Hybrid.verifyPass info.path (disk state).blockSize plan.isoPath verify) state
        = (.ok (), last) ∧ disk last = disk state := by
  cases verify with
  | false => exact ⟨state, rfl, rfl⟩
  | true =>
    obtain ⟨source, opened, reads, rfl, same⟩ := openFile_runs healthy "re-opening ISO for verify" state
    have passes : Bootsmith.Hybrid.verifyDeviceMatchesIso (disk state) source = .ok () := by
      rw [Bootsmith.Hybrid.verifyDeviceMatchesIso_eq _ source divides room]
      exact Bootsmith.Hybrid.compareFrom_eq_ok.mpr stored
    have lifted : (Effect.lift (Bootsmith.Hybrid.verifyDeviceMatchesIso (disk state) source)).run (disk opened)
        = .ok () (disk opened) := (Effect.lift_eq_ok _ _ _ _).mpr ⟨passes, rfl⟩
    obtain ⟨last, runs, kept⟩ := Effect.Refines.run_eq_ok
      (verifyIsoFrom_refines healthy.toServes (disk state) source _ _ 0) same lifted
    refine ⟨last, ?_, kept.trans same⟩
    exact (on_bind_of_ok reads _).trans (on_context_of_ok (on_run_eq_ok.mp runs) _)

/-- What is done on the open device, up to the eject. -/
theorem hybridBody_runs (healthy : Healthy machine plan info disk iso) (verify : Bool) {state : σ}
    (divides : (disk state).blockSize ∣ Bootsmith.Hybrid.chunkSize) (room : iso.length ≤ (disk state).image.size) :
    ∃ last, Bootsmith.Hybrid.Written (disk state) iso (disk last) ∧
      Program.on machine (do
        let opened ← openFile "opening ISO" plan.isoPath
        Exchange.context "writing ISO bytes" (Hybrid.writeIsoToDevice info.path (disk state).blockSize opened)
        syncRaw info.path
        Hybrid.verifyPass info.path (disk state).blockSize plan.isoPath verify
        let _ ← Exchange.attempt (unmountDisk (bsdPathOf info.path))
        Exchange.context "eject after write" (eject (bsdPathOf info.path)) : Io Unit) state
      = Program.on machine (Exchange.context "eject after write" (eject (bsdPathOf info.path))) last := by
  obtain ⟨source, opened, opens, rest, same⟩ := openFile_runs healthy "opening ISO" state
  rw [← same] at divides room
  obtain ⟨wrote, writes, blockSize, written⟩ := writeIsoToDevice_runs healthy rest divides room
  have syncs : Program.on machine (syncRaw info.path) wrote = (.ok (), (machine (.syncRaw info.path) wrote).2) := by
    show (told _ (machine (.syncRaw info.path) wrote).1, _) = _
    rw [healthy.syncs wrote]
    rfl
  have flushed := healthy.leaves (.syncRaw info.path) wrote rfl
  generalize (machine (.syncRaw info.path) wrote).2 = synced at syncs flushed
  have size : (disk synced).image.size = (disk opened).image.size := flushed ▸ written.size
  rw [← flushed] at blockSize written
  have divides' : (disk synced).blockSize ∣ Bootsmith.Hybrid.chunkSize := blockSize ▸ divides
  obtain ⟨verified, passes, kept⟩ := verifyPass_runs healthy divides' (by rwa [size]) written.stored verify
  rw [← kept] at written
  have unmounts := unmountDisk_runs healthy.unmounts verified
  have unmounted := healthy.leaves (.command (.unmountDisk (bsdPathOf info.path))) verified rfl
  rw [← unmounted] at written
  rw [← same, on_bind_of_ok opens, on_bind_of_ok (on_context_of_ok writes _), on_bind_of_ok syncs]
  rw [blockSize] at passes
  rw [on_bind_of_ok passes, on_bind_of_ok (on_attempt_of_ok unmounts)]
  exact ⟨_, written, rfl⟩

/-- **A hybrid run writes the ISO.** -/
theorem hybridRun_writes (healthy : Healthy machine plan info disk iso) (verify : Bool) (state : σ)
    (divides : (disk state).blockSize ∣ Bootsmith.Hybrid.chunkSize) (room : iso.length ≤ (disk state).image.size) :
    Bootsmith.Hybrid.Written (disk state) iso (disk (Program.on machine (Hybrid.run plan info verify) state).2) ∧
      (Succeeds machine (.eject (bsdPathOf info.path)) →
        ∃ last, Program.on machine (Hybrid.run plan info verify) state = (.ok (), last)) := by
  have unmounts := unmountDisk_runs healthy.unmounts state
  have unmounted := healthy.leaves (.command (.unmountDisk (bsdPathOf info.path))) state rfl
  generalize (machine (.command (.unmountDisk (bsdPathOf info.path))) state).2 = free at unmounts unmounted
  obtain ⟨geometry, answer, blockSize, -⟩ := healthy.opens free
  have opens : Program.on machine (openRaw info.path) free = (.ok geometry, (machine (.openRaw info.path) free).2) := by
    unfold openRaw
    rw [if_pos healthy.raw]
    show ((machine (.openRaw info.path) free).1.mapError _, _) = _
    rw [answer]
    rfl
  have opened := healthy.leaves (.openRaw info.path) free rfl
  generalize (machine (.openRaw info.path) free).2 = ready at opens opened
  rw [← opened] at blockSize unmounted
  rw [← unmounted] at divides room
  obtain ⟨last, written, runs⟩ := hybridBody_runs healthy verify divides room
  rw [unmounted] at written
  have whole : Program.on machine (Hybrid.run plan info verify) state
      = ((Program.on machine (Exchange.context "eject after write" (eject (bsdPathOf info.path))) last).1,
        (machine (.closeRaw info.path)
          (Program.on machine (Exchange.context "eject after write" (eject (bsdPathOf info.path))) last).2).2) := by
    rw [Hybrid.run, on_bind_of_ok (on_context_of_ok unmounts _), withRaw,
      on_bind_of_ok (on_context_of_ok opens _), on_dropping, blockSize, runs]
  have ejecting : Program.Asks (fun call => call.leavesDisk = true)
      (Exchange.context "eject after write" (eject (bsdPathOf info.path))) :=
    asks_context (asks_context (runDiskutil_asks rfl))
  have ejected := ejecting.on_keeps healthy.leaves last
  rw [whole]
  refine ⟨?_, fun ejects => ?_⟩
  · rw [healthy.leaves _ _ rfl, ejected]
    exact written
  · rw [on_context_of_ok (eject_runs ejects last) _]
    exact ⟨_, rfl⟩

end Run

/-- **A hybrid run writes the ISO**: on every machine whose disk works, for every ISO that fits and every way
to split its reads, the disk holds the ISO at the end, zeros up to the end of its last block, and behind that
what it held before; the verify pass agrees, so the run succeeds when the eject does. -/
theorem hybrid_writes_iso {σ : Type} {machine : Machine Call Answer σ} {parts : Parts} {plan : WritePlan}
    {info : DeviceInfo} {config : RunConfig} {disk : σ → RawDevice} {iso : Bytes} (hybrid : plan.mode = .hybrid)
    (healthy : Healthy machine plan info disk iso) (state : σ)
    (divides : (disk state).blockSize ∣ Bootsmith.Hybrid.chunkSize) (room : iso.length ≤ (disk state).image.size) :
    Bootsmith.Hybrid.Written (disk state) iso
        (disk (Program.on machine (startPipeline parts plan info config) state).2) ∧
      (Succeeds machine (.eject (bsdPathOf info.path)) →
        (Program.on machine (startPipeline parts plan info config) state).1 = .ok ()) := by
  obtain ⟨written, succeeds⟩ := hybridRun_writes healthy config.verify state divides room
  unfold startPipeline
  rw [hybrid]
  refine ⟨?_, fun ejects => ?_⟩
  · rw [on_context_left]
    exact written
  · obtain ⟨last, runs⟩ := succeeds ejects
    rw [on_context_of_ok runs]

/-- What a device says to a read, and to a write. -/
def answerRead (device : RawDevice) (offset count : Nat) : Except String { bytes : Bytes // bytes.length = count } :=
  if device.Takes ⟨offset, count⟩ then .ok ⟨device.image.slice offset count, Image.slice_length _ _ _⟩
  else .error (device.refusal ⟨offset, count⟩)

def answerWrite (device : RawDevice) (offset : Nat) (bytes : Bytes) : Except String Unit × RawDevice :=
  if taken : device.Takes ⟨offset, bytes.length⟩ then (.ok (), device.written offset bytes taken)
  else (.error (device.refusal ⟨offset, bytes.length⟩), device.asked ⟨offset, bytes.length⟩)

/-- A machine whose disk works, where every file holds the same bytes, read one at a time, and none is an image that
can be edited. -/
def diskMachine (iso : Bytes) : Machine Call Answer RawDevice
  | .openRaw _, device => (.ok ⟨device.blockSize, device.image.size / device.blockSize⟩, device)
  | .readRaw _ offset count, device => (answerRead device offset count, device)
  | .writeRaw _ offset bytes, device => answerWrite device offset bytes
  | .openFile _, device => (.ok ⟨⟨iso, fun _ => 1, 0⟩, none⟩, device)
  | .command _, device => (.ok ⟨some 0, [], []⟩, device)
  | .envVar _, device => (none, device)
  | .pathExists _, device => (true, device)
  | .syncRaw _, device => (.ok (), device)
  | .closeRaw _, device => ((), device)
  | .readTree _, device => (.nil, device)
  | .fileSize _, device => (.ok iso.length, device)
  | .createDirAll _, device => (.ok (), device)
  | .createFile _, device => (.ok (), device)
  | .writeAll _ _, device => (.ok (), device)
  | .writeFile _ _, device => (.ok (), device)
  | .editImage _ _, device => (.error (.error ["not an ISO"]), device)

theorem diskMachine_serves (iso : Bytes) (path : Text) : Serves (diskMachine iso) path fun device => device where
  opens device := ⟨_, rfl, rfl, Nat.mul_div_cancel' device.whole⟩
  reads offset count device := by
    show (told _ (answerRead device offset count)).map _ = _
    unfold answerRead RawDevice.readAt
    split <;> rfl
  writes offset bytes device := by
    show RawDevice.writeAt offset bytes device
      = settle (told _ (answerWrite device offset bytes).1, (answerWrite device offset bytes).2)
    unfold answerWrite RawDevice.writeAt
    split <;> rfl
  syncs _ := rfl
  leaves call device leaves := by
    cases call <;> first | rfl | cases leaves

theorem diskMachine_healthy (iso : Bytes) :
    Healthy (diskMachine iso) (samplePlan .hybrid) sampleInfo (fun device => device) iso :=
  ⟨diskMachine_serves _ _, by decide, fun _ => ⟨_, rfl, rfl⟩, fun _ => ⟨_, rfl, rfl⟩⟩

/-- Three bytes on a device of two blocks. -/
theorem hybrid_writes_iso_sample : ∃ final,
    Program.on (diskMachine [10, 20, 30])
        (startPipeline sampleParts (samplePlan .hybrid) sampleInfo sampleRunConfig) Bootsmith.Hybrid.sampleDevice
      = final ∧
    final.1 = .ok () ∧ final.2.image.slice 0 3 = [10, 20, 30] ∧ final.2.image.get 3 = 0 ∧
      final.2.image.get 512 = 1 := by
  have divides : Bootsmith.Hybrid.sampleDevice.blockSize ∣ Bootsmith.Hybrid.chunkSize :=
    show 512 ∣ Bootsmith.Hybrid.chunkSize by decide
  have room : [10, 20, 30].length ≤ Bootsmith.Hybrid.sampleDevice.image.size := show 3 ≤ 1024 by decide
  have writes := @hybrid_writes_iso _ _ sampleParts _ _ sampleRunConfig _ _ rfl (diskMachine_healthy [10, 20, 30])
    Bootsmith.Hybrid.sampleDevice divides room
  generalize Program.on (diskMachine [10, 20, 30])
    (startPipeline sampleParts (samplePlan .hybrid) sampleInfo sampleRunConfig) Bootsmith.Hybrid.sampleDevice
      = final at writes ⊢
  obtain ⟨written, succeeds⟩ := writes
  exact ⟨final, rfl, succeeds fun _ => ⟨_, rfl, rfl⟩, written.stored, written.padded 3 (by decide) (by decide),
    written.kept 512 (by decide)⟩

end Bootsmith.Pipeline
