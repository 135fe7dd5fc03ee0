/-
**What a run that verifies has read back.**

Nothing is assumed about the device, which may lose or change what is written to it.

* `boot_writes_read_back`: each boot track and boot sector that a successful run wrote was flushed, and then
  read back as it was written;
* `hybrid_iso_read_back`: each byte of the ISO was read back from its place after the last write.
-/

import Bootsmith.Pipeline.Finished
import Bootsmith.Pipeline.HybridRun

namespace Bootsmith.Pipeline

open Bootsmith.Library Bootsmith.Disk Bootsmith.Core Exchange

/-! ### The verify pass of the hybrid pipeline -/

/-- The event read a byte at an offset of the device. -/
def ReadAt (path : Text) (offset : Nat) (byte : UInt8) (event : Event Answer) : Prop :=
  ∃ start count, ∃ bytes : { bytes : Bytes // bytes.length = count },
    event = ⟨.readRaw path start count, .ok bytes⟩ ∧ start ≤ offset ∧ bytes.val[offset - start]? = some byte

/-- **The bytes from an offset on were read**, and nothing was written. -/
structure ReadsBack (path : Text) (offset : Nat) (bytes : Bytes) (events : History) : Prop where
  read : ∀ index (inside : index < bytes.length), ∃ event ∈ events, ReadAt path (offset + index) bytes[index] event
  quiet : ∀ event ∈ events, event.call.stores = false

section ReadsBack

variable {path : Text} {offset : Nat} {bytes : Bytes} {events more : History} {event : Event Answer}

theorem readsBack_nil (quiet : ∀ event ∈ events, event.call.stores = false) : ReadsBack path offset [] events :=
  ⟨fun _ inside => absurd inside (Nat.not_lt_zero _), quiet⟩

/-- One read, and the reads of what comes behind it. -/
theorem ReadsBack.step {count : Nat} {read : { bytes : Bytes // bytes.length = count }} {n : Nat}
    (front : read.val.take n = bytes.take n)
    (rest : ReadsBack path (offset + n) (bytes.drop n) events) :
    ReadsBack path offset bytes (⟨.readRaw path offset count, .ok read⟩ :: events) := by
  refine ⟨fun index inside => ?_, fun event member => ?_⟩
  · by_cases now : index < n
    · refine ⟨_, List.mem_cons_self, offset, count, read, rfl, Nat.le_add_right _ _, ?_⟩
      have same := congrArg (·[index]?) front
      simp only [List.getElem?_take_of_lt now] at same
      rw [Nat.add_sub_cancel_left, same, List.getElem?_eq_getElem inside]
    · obtain ⟨event, member, found⟩ := rest.read (index - n) (by rw [List.length_drop]; omega)
      have place : offset + n + (index - n) = offset + index := by omega
      have here : n + (index - n) = index := by omega
      simp only [List.getElem_drop, place, here] at found
      exact ⟨event, List.mem_cons_of_mem _ member, found⟩
  · rcases List.mem_cons.mp member with rfl | later
    · rfl
    · exact rest.quiet event later

theorem ReadsBack.append (back : ReadsBack path offset bytes events)
    (quiet : ∀ event ∈ more, event.call.stores = false) : ReadsBack path offset bytes (events ++ more) := by
  refine ⟨fun index inside => ?_, fun event member => ?_⟩
  · obtain ⟨event, member, found⟩ := back.read index inside
    exact ⟨event, List.mem_append_left _ member, found⟩
  · rcases List.mem_append.mp member with earlier | later
    · exact back.quiet event earlier
    · exact quiet event later

end ReadsBack

/-- The count is rounded up. -/
theorem le_of_alignedLen {count blockSize aligned : Nat}
    (rounded : Bootsmith.Hybrid.alignedLen count blockSize = .ok aligned) : count ≤ aligned := by
  rcases Nat.eq_zero_or_pos blockSize with rfl | positive
  · cases rounded
  · rw [Bootsmith.Hybrid.alignedLen_eq positive] at rounded
    exact Except.ok.inj rounded ▸ le_alignUp count positive

theorem partOf_eq_ok {bytes part : Bytes} {stop : Nat} (taken : partOf bytes 0 stop = .ok part) :
    stop ≤ bytes.length ∧ part = bytes.take stop := by
  by_cases inside : stop ≤ bytes.length
  · rw [partOf_zero inside] at taken
    exact ⟨inside, (Except.ok.inj taken).symm⟩
  · rw [partOf, if_neg fun both => inside both.2] at taken
    cases taken

/-- What the verify loop has read when it succeeds. -/
def Verified (path : Text) (offset : Nat) (source : ByteSource) (broken : Option String) (past later : History) :
    Prop :=
  broken = none ∧ ∃ events, later = past ++ events ∧ ReadsBack path offset source.rest events

/-- **The loop reads back the rest of the source**, from its offset on. -/
theorem verifyIsoFrom_verifies {path : Text} {blockSize : Nat} {broken : Option String} (source : ByteSource)
    {isoBuf devBuf : Bytes} {offset : Nat} (length : isoBuf.length = Bootsmith.Hybrid.chunkSize) (past : History) :
    Triple (fun _ _ => True) (· = past)
      (Hybrid.verifyIsoFrom path blockSize broken source isoBuf devBuf offset)
      (fun _ => Verified path offset source broken past) fun _ => True := by
  induction left : source.rest.length using Nat.strong_induction_on
    generalizing source isoBuf devBuf offset past with
  | _ left ih =>
    subst left
    obtain ⟨count, _, after⟩ := Bootsmith.Hybrid.readFull_spec source isoBuf
    obtain ⟨kept, front⟩ := Bootsmith.Hybrid.readFull_buf source isoBuf
    rw [Hybrid.verifyIsoFrom]
    split
    rename_i n isoBuf' source' filled
    simp only [filled] at count after kept front
    rw [length] at count after kept front
    split
    · exact Triple.lift (fun _ returns => by cases returns) fun _ _ _ _ => trivial
    rename_i whole
    -- a short chunk is the last one, and the file ended there
    have ended : n < Bootsmith.Hybrid.chunkSize → broken = none ∧ source'.rest = [] := by
      intro short
      refine ⟨?_, ?_⟩
      · rwa [Hybrid.brokenRead, if_pos short] at whole
      · rw [after]
        exact List.drop_of_length_le (by omega)
    split
    · rename_i nothing
      have empty : source.rest = [] := List.eq_nil_of_length_eq_zero (by
        have := Bootsmith.Hybrid.chunkSize_pos
        omega)
      have short : n < Bootsmith.Hybrid.chunkSize := nothing ▸ Bootsmith.Hybrid.chunkSize_pos
      rintro _ rfl
      refine ⟨(ended short).1, [], (List.append_nil _).symm, ?_⟩
      rw [empty]
      exact readsBack_nil (List.forall_mem_nil _)
    rename_i some
    refine Triple.liftThen (fun aligned rounded => ?_) fun _ _ => trivial
    refine Triple.liftThen (fun target inside => ?_) fun _ _ => trivial
    obtain ⟨room, rfl⟩ := partOf_eq_ok inside
    have targetLength : (devBuf.take aligned).length = aligned := by
      rw [List.length_take]
      omega
    have up := le_of_alignedLen rounded
    refine Triple.through (fun bytes later => ∃ same : bytes.length = (devBuf.take aligned).length,
      later = past ++ [⟨.readRaw path offset (devBuf.take aligned).length, .ok ⟨bytes, same⟩⟩]) ?_ fun bytes => ?_
    · refine Triple.ask (fun _ _ => trivial) fun later answer here => ?_
      subst here
      cases answer with
      | error text => trivial
      | ok bytes => exact ⟨bytes.property, rfl⟩
    refine Triple.liftThen (fun devPart devTaken => ?_) fun _ _ => trivial
    refine Triple.liftThen (fun isoPart isoTaken => ?_) fun _ _ => trivial
    obtain ⟨-, rfl⟩ := partOf_eq_ok devTaken
    obtain ⟨-, rfl⟩ := partOf_eq_ok isoTaken
    rintro later ⟨same, rfl⟩
    split
    · trivial
    rename_i equal
    have devFront : (overlay devBuf 0 bytes).take n = bytes.take n := by
      rw [overlay_zero, List.take_append_of_le_length (by omega)]
    have read : bytes.take n = source.rest.take n := by
      rw [← devFront, not_not.mp equal, front, List.take_eq_take_iff]
      omega
    have behind : source.rest.drop n = source'.rest := by
      rw [after]
      by_cases short : n < Bootsmith.Hybrid.chunkSize
      · rw [List.drop_of_length_le (by omega), List.drop_of_length_le (by omega)]
      · rw [show n = Bootsmith.Hybrid.chunkSize by omega]
    have step : ∀ events, ReadsBack path (offset + n) source'.rest events →
        ReadsBack path offset source.rest
          (⟨.readRaw path offset (devBuf.take aligned).length, .ok ⟨bytes, same⟩⟩ :: events) := by
      intro events rest
      rw [← behind] at rest
      exact ReadsBack.step read rest
    split
    · rename_i short
      obtain ⟨healthy, empty⟩ := ended short
      refine ⟨healthy, _, rfl, step [] ?_⟩
      rw [empty]
      exact readsBack_nil (List.forall_mem_nil _)
    · refine (ih _ ?_ source' kept _ rfl _ rfl).mono fun result later ends => ?_
      · rw [after, List.length_drop]
        omega
      cases result with
      | error failure => trivial
      | ok value =>
        obtain ⟨healthy, events, rfl, rest⟩ := ends
        exact ⟨healthy, _, List.append_assoc _ _ _, step events rest⟩

/-- **The ISO was opened again and read back**: each of its bytes was read from its place on the device, and
the device was not written since the ISO was opened. -/
def IsoReadBack (path isoPath : Text) (past : History) : Prop :=
  ∃ before iso after, past = before ++ ⟨.openFile isoPath, .ok iso⟩ :: after ∧ iso.broken = none ∧
    ReadsBack path 0 iso.source.rest after

theorem IsoReadBack.append {path isoPath : Text} {past : History} {event : Event Answer}
    (back : IsoReadBack path isoPath past) (quiet : event.call.stores = false) :
    IsoReadBack path isoPath (past ++ [event]) := by
  obtain ⟨before, iso, after, rfl, healthy, reads⟩ := back
  refine ⟨before, iso, after ++ [event], by simp, healthy, reads.append fun other member => ?_⟩
  rw [List.mem_singleton.mp member]
  exact quiet

/-- What only reads keeps the ISO read back. -/
theorem isoReadBack_keeps {α : Type} {path isoPath : Text} {program : Io α}
    (asks : Program.Asks (fun call => call.stores = false) program) :
    Triple (fun _ _ => True) (IsoReadBack path isoPath) program (fun _ => IsoReadBack path isoPath) fun _ => True :=
  (triple_of_asks asks fun _ _ quiet back => ⟨trivial, fun _ => back.append quiet⟩).mono (fun _ holds => holds)
    (fun _ _ holds => holds) fun _ _ => trivial

theorem verifyPass_verifies (path : Text) (blockSize : Nat) (isoPath : Text) :
    Triple (fun _ _ => True) (fun _ => True) (Hybrid.verifyPass path blockSize isoPath true)
      (fun _ => IsoReadBack path isoPath) fun _ => True := by
  refine Triple.through (fun iso past => ∃ before, past = before ++ [⟨.openFile isoPath, .ok iso⟩]) ?_ fun iso => ?_
  · refine Triple.ask (fun _ _ => trivial) fun past answer _ => ?_
    cases answer with
    | error text => trivial
    | ok iso => exact ⟨past, rfl⟩
  refine Triple.context fun past found => ?_
  obtain ⟨before, rfl⟩ := found
  refine (verifyIsoFrom_verifies iso.source List.length_replicate _ _ rfl).mono fun result later ends => ?_
  cases result with
  | error failure => trivial
  | ok value =>
    obtain ⟨healthy, events, rfl, reads⟩ := ends
    exact ⟨before, iso, events, List.append_assoc _ _ _, healthy, reads⟩

theorem hybridRun_verifies (plan : WritePlan) (info : DeviceInfo) :
    Triple (fun _ _ => True) (fun _ => True) (Hybrid.run plan info true)
      (fun _ => IsoReadBack info.path plan.isoPath) fun _ => True := by
  have any : ∀ {α : Type} (program : Io α),
      Triple (fun _ _ => True) (fun _ => True) program (fun _ _ => True) fun _ => True :=
    fun program past _ => Program.upholds_trivial.mono fun result _ _ => by cases result <;> trivial
  have unmounts : Triple (fun _ _ => True) (IsoReadBack info.path plan.isoPath)
      (Exchange.attempt (unmountDisk (bsdPathOf info.path))) (fun _ => IsoReadBack info.path plan.isoPath)
      fun _ => True :=
    isoReadBack_keeps (asks_attempt (asks_context (runDiskutil_asks rfl)))
  have ejects : Triple (fun _ _ => True) (IsoReadBack info.path plan.isoPath)
      (Exchange.context "eject after write" (eject (bsdPathOf info.path)))
      (fun _ => IsoReadBack info.path plan.isoPath) fun _ => True :=
    isoReadBack_keeps (asks_context (asks_context (runDiskutil_asks rfl)))
  refine Triple.bind (any _) fun _ => Triple.bind (any _) fun geometry => ?_
  have body := Triple.bind (any (openFile "opening ISO" plan.isoPath)) fun iso =>
    Triple.bind (any (Exchange.context "writing ISO bytes"
      (Hybrid.writeIsoToDevice info.path geometry.blockSize iso))) fun _ =>
    Triple.bind (any (syncRaw info.path)) fun _ =>
    Triple.bind (verifyPass_verifies info.path geometry.blockSize plan.isoPath) fun _ =>
    Triple.bind unmounts fun _ => ejects
  exact Triple.dropping body (fun _ past back => ⟨trivial, fun _ => back.append rfl⟩)
    fun _ _ => ⟨trivial, fun _ => trivial⟩

/-- **A hybrid run that verifies has read the ISO back**: when it succeeds, whatever the device does with what
is written to it, the ISO was opened a second time, each byte of it was read from its place on the device, and
nothing was written to a device since. -/
theorem hybrid_iso_read_back {parts : Parts} {plan : WritePlan} {info : DeviceInfo} {config : RunConfig}
    {trace : History} (hybrid : plan.mode = .hybrid) (verifies : config.verify = true)
    (traces : Program.Traces (startPipeline parts plan info config) trace (.ok ())) :
    IsoReadBack info.path plan.isoPath trace := by
  unfold startPipeline at traces
  rw [hybrid, verifies] at traces
  exact (Triple.context (hybridRun_verifies plan info) [] trivial).holds traces

/-- Three bytes on a disk that works. -/
theorem hybrid_iso_read_back_sample : ∃ trace,
    Program.Traces (startPipeline sampleParts (samplePlan .hybrid) sampleInfo sampleRunConfig) trace (.ok ()) ∧
      IsoReadBack sampleInfo.path (samplePlan .hybrid).isoPath trace := by
  obtain ⟨last, runs⟩ := (hybridRun_writes (diskMachine_healthy [10, 20, 30]) true Bootsmith.Hybrid.sampleDevice
    (show 512 ∣ Bootsmith.Hybrid.chunkSize by decide) (show 3 ≤ 1024 by decide)).2 fun _ => ⟨_, rfl, rfl⟩
  have traces := Program.on_traces (diskMachine [10, 20, 30])
    (startPipeline sampleParts (samplePlan .hybrid) sampleInfo sampleRunConfig) Bootsmith.Hybrid.sampleDevice
  have succeeds : Program.on (diskMachine [10, 20, 30])
      (startPipeline sampleParts (samplePlan .hybrid) sampleInfo sampleRunConfig) Bootsmith.Hybrid.sampleDevice
        = (.ok (), last) := on_context_of_ok runs _
  rw [succeeds] at traces
  exact ⟨_, traces, hybrid_iso_read_back rfl rfl traces⟩

/-! ### Boot tracks and boot sectors -/

/-- The bytes were flushed and read back. -/
def ReadBackNext (path : Text) (bytes : Bytes) (after : History) : Prop :=
  ∃ later, after = ⟨.syncRaw path, .ok ()⟩ :: ⟨.readRaw path 0 bytes.length, .ok ⟨bytes, rfl⟩⟩ :: later

/-- **Each write to a raw device was to its front, and was read back.** -/
def Checked : History → Prop :=
  Followed fun event after => ∀ path offset bytes, event.call = .writeRaw path offset bytes →
    offset = 0 ∧ ReadBackNext path bytes after

theorem Checked.append {past more : History} (checked : Checked past) (rest : Checked more) :
    Checked (past ++ more) := by
  refine Followed.append (fun event after more demand path offset bytes writes => ?_) checked rest
  obtain ⟨front, later, rfl⟩ := demand path offset bytes writes
  exact ⟨front, later ++ more, rfl⟩

theorem checked_of_quiet {more : History} (quiet : ∀ event ∈ more, event.call.stores = false) : Checked more := by
  refine followed_of_free fun event member after path offset bytes writes => ?_
  have silent := quiet event member
  rw [writes] at silent
  cases silent

section Steps

variable {α β : Type}

/-- The program reads back what it writes. -/
def Checks (program : Io α) : Prop := Triple (fun _ _ => True) Checked program (fun _ => Checked) fun _ => True

theorem Checks.bind {program : Io α} {next : α → Io β} (first : Checks program)
    (rest : ∀ value, Checks (next value)) : Checks (program >>= next) :=
  Triple.bind first rest

theorem Checks.context {program : Io α} {message : String} (checks : Checks program) :
    Checks (Exchange.context message program) :=
  Triple.context checks

theorem checks_of_quiet {program : Io α} (asks : Program.Asks (fun call => call.stores = false) program) :
    Checks program :=
  (triple_of_asks asks fun _ _ quiet checked => ⟨trivial, fun _ => checked.append (checked_of_quiet fun _ member =>
    List.mem_singleton.mp member ▸ quiet)⟩).mono (fun _ holds => holds) (fun _ _ holds => holds) fun _ _ => trivial

/-- What was written and flushed. -/
def written (path : Text) (bytes : Bytes) : History :=
  [⟨.writeRaw path 0 bytes, .ok ()⟩, ⟨.syncRaw path, .ok ()⟩]

theorem checked_front (path : Text) (bytes : Bytes) :
    Checked (written path bytes ++ [⟨.readRaw path 0 bytes.length, .ok ⟨bytes, rfl⟩⟩]) := by
  refine Followed.cons (fun path' offset bytes' writes => ?_) (checked_of_quiet fun event member => ?_)
  · cases writes
    exact ⟨rfl, [], rfl⟩
  · rcases List.mem_cons.mp member with rfl | last
    · rfl
    · rw [List.mem_singleton.mp last]
      rfl

/-- **A write to the front of a device that is read back.** -/
theorem writeFront_checks (message : String) (path : Text) (bytes : Bytes) :
    Checks (do
      writeRaw path 0 bytes
      syncRaw path
      readBack message path bytes : Io Unit) := by
  refine Triple.through (fun _ past => ∃ before, Checked before ∧
    past = before ++ [⟨.writeRaw path 0 bytes, .ok ()⟩]) (Triple.ask (fun _ _ => trivial) ?_) fun _ => ?_
  · intro past answer checked
    cases answer with
    | error text => trivial
    | ok _ => exact ⟨past, checked, rfl⟩
  refine Triple.through (fun _ past => ∃ before, Checked before ∧ past = before ++ written path bytes)
    (Triple.ask (fun _ _ => trivial) ?_) fun _ => ?_
  · rintro past answer ⟨before, checked, rfl⟩
    cases answer with
    | error text => trivial
    | ok _ => exact ⟨before, checked, List.append_assoc _ _ _⟩
  refine Triple.through (fun readback past => ∃ before, Checked before ∧
    ∃ same : readback.length = bytes.length,
      past = before ++ written path bytes ++ [⟨.readRaw path 0 bytes.length, .ok ⟨readback, same⟩⟩])
    (Triple.ask (fun _ _ => trivial) ?_) fun readback => ?_
  · rintro past answer ⟨before, checked, rfl⟩
    cases answer with
    | error text => trivial
    | ok read => exact ⟨before, checked, read.property, rfl⟩
  split
  · exact fun _ _ => trivial
  rename_i equal
  obtain rfl := not_not.mp equal
  refine Triple.pure fun past found => ?_
  obtain ⟨before, checked, same, rfl⟩ := found
  rw [List.append_assoc]
  exact checked.append (checked_front path readback)

/-- A raw device whose writes are read back while it is open. -/
theorem withRaw_checks {opening : String} {path : Text} {body : Geometry → Io α}
    (checks : ∀ geometry, Checks (body geometry)) : Checks (withRaw opening path body) := by
  refine Checks.bind (checks_of_quiet (asks_context (openRaw_asks rfl))) fun geometry => ?_
  refine Triple.dropping (checks geometry) (fun _ past checked => ?_) fun _ _ => ⟨trivial, fun _ => trivial⟩
  exact ⟨trivial, fun _ => checked.append (checked_of_quiet fun event member => List.mem_singleton.mp member ▸ rfl)⟩

theorem unmount_checks (disk : Text) (message : String) :
    Checks (Exchange.context message (unmountDisk disk)) :=
  checks_of_quiet (asks_context (asks_context (runDiskutil_asks rfl)))

theorem eject_checks (disk : Text) (message : String) : Checks (Exchange.context message (eject disk)) :=
  checks_of_quiet (asks_context (asks_context (runDiskutil_asks rfl)))

theorem prepare_checks (disk partition label : Text) {next : Text → Io α}
    (rest : ∀ usbMount, Checks (next usbMount)) :
    Checks (rereadPartitionTable disk >>= fun _ => formatPartition disk partition label >>= next) := by
  refine Checks.bind (checks_of_quiet (rereadPartitionTable_asks rfl rfl rfl)) fun _ => ?_
  exact Checks.bind (checks_of_quiet (formatPartition_asks rfl rfl rfl)) rest

end Steps

section Runs

variable {plan : WritePlan} {info : DeviceInfo}

theorem runGrub4dos_checks {stage : Text → Io Unit}
    (stages : ∀ mount, Program.Asks (Stages mount) (stage mount)) {verify : Bool} (verifies : verify = true)
    (checks : Fallible Unit) (grldrMbr : Bytes) :
    Checks (runGrub4dos checks grldrMbr stage plan info verify) := by
  subst verifies
  refine Checks.bind (checks_of_quiet (asks_lift _)) fun _ => Checks.bind (unmount_checks _ _) fun _ => ?_
  refine Checks.bind (Checks.context (withRaw_checks fun geometry => ?_)) fun _ => ?_
  · exact Checks.bind (checks_of_quiet (asks_lift _)) fun track => writeFront_checks _ _ track
  refine prepare_checks _ _ _ fun usbMount => ?_
  have quiet := (stages usbMount).mono fun call staged => Call.quiet_of_onFiles staged.1
  refine Checks.bind (checks_of_quiet quiet) fun _ => ?_
  exact Checks.bind (unmount_checks _ _) fun _ => eject_checks _ _

theorem copyFromIso_checks (isoPath usbMount : Text) : Checks (Windows.copyFromIso isoPath usbMount) :=
  checks_of_quiet (Windows.copyFromIso_asks (fun _ => Call.quiet_of_onFiles) rfl fun _ => rfl)

theorem windowsRun_checks (bootrec : Windows.Bootrec) {config : RunConfig} (verifies : config.verify = true) :
    Checks (Windows.run bootrec plan info config) := by
  refine Checks.bind (checks_of_quiet ?resolve) fun msSys => ?_
  case resolve => exact Windows.resolveMsSys_asks (fun _ => rfl) (fun _ => rfl) (by rfl)
  refine Checks.bind (unmount_checks _ _) fun _ => Checks.bind ?mbr fun _ => prepare_checks _ _ _ fun usbMount => ?_
  case mbr =>
    refine Checks.bind (checks_of_quiet (asks_lift _)) fun mbr => withRaw_checks fun _ => ?_
    exact writeFront_checks _ _ mbr
  refine Checks.bind (copyFromIso_checks _ _) fun _ => Checks.bind (unmount_checks _ _) fun _ => ?_
  refine Checks.bind ?records fun _ => ?_
  case records =>
    rw [verifies]
    cases msSys with
    | some msSys =>
      refine checks_of_quiet (asks_bind (asks_context (asks_bind (start_asks rfl) fun _ => asks_pure ())) fun _ => ?_)
      refine asks_bind (asks_context (asks_context (runDiskutil_asks rfl))) fun _ => ?_
      exact asks_context (asks_bind (start_asks rfl) fun _ => asks_pure ())
    | none =>
      refine Checks.bind (checks_of_quiet (asks_context (asks_context (runDiskutil_asks rfl)))) fun _ => ?_
      refine Checks.context (withRaw_checks fun _ => Checks.bind (checks_of_quiet (asks_ask rfl)) fun existing => ?_)
      exact Checks.bind (checks_of_quiet (asks_lift _)) fun spliced => writeFront_checks _ _ spliced
  refine Checks.bind (checks_of_quiet (asks_attempt (asks_context (runDiskutil_asks rfl)))) fun _ => ?_
  exact eject_checks _ _

end Runs

/-- **What a run that verifies wrote at the front of a device was read back**: in every successful run of a
pipeline other than the hybrid one, each raw write is to the front of its device, and the next events flush
it and read the same bytes. -/
theorem boot_writes_read_back {parts : Parts} {plan : WritePlan} {info : DeviceInfo} {config : RunConfig}
    {trace before after : History} {path : Text} {offset : Nat} {bytes : Bytes}
    {answer : Answer (.writeRaw path offset bytes)} (boots : plan.mode ≠ .hybrid) (verifies : config.verify = true)
    (traces : Program.Traces (startPipeline parts plan info config) trace (.ok ()))
    (split : trace = before ++ ⟨.writeRaw path offset bytes, answer⟩ :: after) :
    offset = 0 ∧ ReadBackNext path bytes after := by
  have checks : Checks (startPipeline parts plan info config) := by
    unfold startPipeline
    split
    · rename_i mode
      exact absurd mode boots
    · exact (windowsRun_checks _ verifies).context
    · exact (runGrub4dos_checks (fun _ => asks_context (NtXp.stageFiles_stages _ _ _ _ _)) verifies _ _).context
    · exact (runGrub4dos_checks (fun _ => asks_context (Win2000.stageFiles_stages _ _ _)) verifies _ _).context
    · exact fun _ _ => trivial
    · exact fun _ _ => trivial
  have checked : Checked trace := (checks [] (checked_of_quiet (List.forall_mem_nil _))).holds traces
  exact checked before _ after split path offset bytes rfl

set_option maxRecDepth 20000 in
/-- The boot sectors of the sample stick are read back. -/
theorem boot_writes_read_back_sample :
    ReadBackNext (partitionOf sampleInfo.path) (List.replicate 1024 0) (sampleBooted.drop 8) := by
  have split : sampleAttached ++ sampleBooted = (sampleAttached ++ sampleBooted.take 7)
      ++ ⟨.writeRaw (partitionOf sampleInfo.path) 0 (List.replicate 1024 0), .ok ()⟩ :: sampleBooted.drop 8 := rfl
  have boots : (samplePlan .windows).mode ≠ .hybrid := fun same => by cases same
  exact (boot_writes_read_back boots rfl sampleBooted_traces split).2

end Bootsmith.Pipeline
