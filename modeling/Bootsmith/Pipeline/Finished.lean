/-
**How a run ends.**

* `pipeline_detaches`: an ISO that was attached is detached, whatever came of the copy, and nothing but the
  copy happens in between;
* `pipeline_ok_iff_ejected`: a run succeeds exactly when the disk was ejected, and nothing but closing the
  device happens after that.
-/

import Bootsmith.Pipeline.Confined

namespace Bootsmith.Pipeline

open Bootsmith.Library Bootsmith.Disk Bootsmith.Core Exchange

/-! ### Attached images and ejected disks -/

/-- The calls that neither attach nor detach an image nor eject a disk. -/
def Call.plain : Call → Bool
  | .command (.hdiutilAttach _) => false
  | .command (.hdiutilDetach _) => false
  | .command (.eject _) => false
  | _ => true

/-- An image was attached, and the program named its mount point. -/
def Attaches (mountPoint : Text) (event : Event Answer) : Prop :=
  ∃ iso output, event = ⟨.command (.hdiutilAttach iso), .ok output⟩ ∧ output.code = some 0 ∧
    mountPointOf output.stdout = some mountPoint

/-- What follows an attach: work on files, and then the detach. -/
def DetachedNext (mountPoint : Text) (after : History) : Prop :=
  ∃ copies answer later, after = copies ++ ⟨.command (.hdiutilDetach mountPoint), answer⟩ :: later ∧
    ∀ event ∈ copies, event.call.onFiles = true

/-- **Each image that was attached is detached.** -/
def Detached : History → Prop :=
  Followed fun event after => ∀ mountPoint, Attaches mountPoint event → DetachedNext mountPoint after

/-- An image is attached, and only files were worked on since. -/
def Attached (mountPoint : Text) (past : History) : Prop :=
  ∃ before event copies, past = before ++ event :: copies ∧ Detached before ∧
    Attaches mountPoint event ∧ ∀ event ∈ copies, event.call.onFiles = true

/-- A successful eject. -/
def Ejects (disk : Text) (event : Event Answer) : Prop :=
  ∃ output, event = ⟨.command (.eject disk), .ok output⟩ ∧ output.code = some 0

/-- No disk was ejected. -/
def Present (past : History) : Prop := ∀ event ∈ past, ∀ disk, ¬ Ejects disk event

/-- The disk was ejected, and since then devices were closed at most. -/
def Ejected (disk : Text) (past : History) : Prop :=
  ∃ before event after, past = before ++ event :: after ∧ Present before ∧ Ejects disk event ∧
    ∀ event ∈ after, ∃ path, event.call = .closeRaw path

/-- An image is attached, and no disk was ejected. -/
def OnHand (mountPoint : Text) (past : History) : Prop := Attached mountPoint past ∧ Present past

section Histories

variable {mountPoint : Text} {past more : History} {event : Event Answer}

theorem DetachedNext.append (next : DetachedNext mountPoint past) :
    DetachedNext mountPoint (past ++ more) := by
  obtain ⟨copies, answer, later, rfl, files⟩ := next
  exact ⟨copies, answer, later ++ more, by simp, files⟩

/-- Events behind, of which none attaches an image without its detach. -/
theorem Detached.append (detached : Detached past) (rest : Detached more) :
    Detached (past ++ more) :=
  Followed.append (fun _ _ _ next mountPoint attaches => (next mountPoint attaches).append) detached rest

theorem detached_of_none (none : ∀ event ∈ more, ∀ mountPoint, ¬ Attaches mountPoint event) :
    Detached more :=
  followed_of_free fun event member _ mountPoint attaches => absurd attaches (none event member mountPoint)

/-- An image that is detached behind the copy. -/
theorem detached_of_next (attaches : Attaches mountPoint event) (next : DetachedNext mountPoint past)
    (rest : Detached past) : Detached (event :: past) := by
  refine Followed.cons (fun other attached => ?_) rest
  obtain ⟨iso, output, rfl, -, named⟩ := attaches
  obtain ⟨iso', output', same, -, named'⟩ := attached
  cases same
  obtain rfl := Option.some.inj (named.symm.trans named')
  exact next

theorem Call.plain.not_attaches (plain : event.call.plain = true) : ¬ Attaches mountPoint event := by
  rintro ⟨iso, output, rfl, -⟩
  cases plain

theorem Call.plain.not_ejects (plain : event.call.plain = true) (disk : Text) : ¬ Ejects disk event := by
  rintro ⟨output, rfl, -⟩
  cases plain

theorem Call.plain_of_onFiles {call : Call} (files : call.onFiles = true) : call.plain = true := by
  revert files
  unfold Call.onFiles Call.plain
  split <;> simp

theorem raw_plain {path : Text} (call : Call) (raw : call.raw = some path) : call.plain = true := by
  revert raw
  unfold Call.raw Call.plain
  split <;> simp

theorem Detached.plain (detached : Detached past) (plain : event.call.plain = true) :
    Detached (past ++ [event]) :=
  detached.append (detached_of_none fun other member => by
    rw [List.mem_singleton.mp member]
    exact fun _ => Call.plain.not_attaches plain)

theorem Attached.append (attached : Attached mountPoint past) (worked : event.call.onFiles = true) :
    Attached mountPoint (past ++ [event]) := by
  obtain ⟨before, attach, copies, rfl, detached, attaches, files⟩ := attached
  refine ⟨before, attach, copies ++ [event], by simp, detached, attaches, fun other member => ?_⟩
  rcases List.mem_append.mp member with earlier | last
  · exact files other earlier
  · rw [List.mem_singleton.mp last]
    exact worked

/-- The detach behind the copy. -/
theorem Attached.detach (attached : Attached mountPoint past)
    (answer : Answer (.command (.hdiutilDetach mountPoint))) :
    Detached (past ++ [⟨.command (.hdiutilDetach mountPoint), answer⟩]) := by
  obtain ⟨before, attach, copies, rfl, detached, attaches, files⟩ := attached
  rw [List.append_assoc]
  refine detached.append (detached_of_next attaches ⟨copies, answer, [], rfl, files⟩ ?_)
  refine detached_of_none fun event member point => ?_
  rcases List.mem_append.mp member with copied | last
  · exact Call.plain.not_attaches (Call.plain_of_onFiles (files event copied))
  · rw [List.mem_singleton.mp last]
    rintro ⟨iso, output, same, -⟩
    cases same

theorem Present.append (present : Present past) (kept : ∀ disk, ¬ Ejects disk event) : Present (past ++ [event]) := by
  intro other member
  rcases List.mem_append.mp member with earlier | last
  · exact present other earlier
  · rw [List.mem_singleton.mp last]
    exact kept

end Histories

/-! ### The copy does not panic -/

section Calm

variable {α : Type}

theorem noPanic_told (messages : List String) (answer : Except String α) :
    Fallible.NoPanic (told messages answer) := by
  cases answer <;> exact fun panics => by cases panics

theorem copyChunks_calm (reading writing : String) (dest : Text) (broken : Option String)
    (source : ByteSource) : Calm (copyChunks reading writing dest broken source) := by
  induction left : source.rest.length using Nat.strong_induction_on generalizing source with
  | _ left ih =>
    subst left
    rw [copyChunks]
    have shorter : (source.read (4 * 1024 * 1024)).1.length + _ = _ := source.read_length
    split
    rename_i bytes next taken
    simp only [taken] at shorter
    split
    · cases broken with
      | none => exact calm_pure ()
      | some text => exact fun panics => by cases panics
    · rename_i something
      have some := List.length_pos_of_ne_nil something
      refine calm_bind (calm_ask fun _ => noPanic_told _ _) fun _ => ?_
      exact ih _ (by omega) next rfl

theorem Windows.noPanic_walkRecursive (rel : List Text) (listing : Listing) :
    Fallible.NoPanic (Windows.walkRecursive rel listing) := by
  induction listing generalizing rel with
  | nil => exact Fallible.noPanic_ok _
  | file name size rest ih => exact (ih rel).bind fun _ => Fallible.noPanic_ok _
  | folder name children rest below ih =>
    exact (below _).bind fun _ => (ih rel).bind fun _ => Fallible.noPanic_ok _
  | special name rest ih => exact ih rel
  | denied chain => exact fun panics => by cases panics

theorem Windows.forEach_calm {call : CopyEntry → Io Unit} (each : ∀ entry, Calm (call entry))
    (entries : List CopyEntry) : Calm (forEach call entries) := by
  induction entries with
  | nil => exact calm_pure ()
  | cons entry entries ih => exact calm_bind (each entry) fun _ => ih

theorem Windows.copyIsoContents_calm (isoMount usbMount : Text) :
    Calm (Windows.copyIsoContents isoMount usbMount) := by
  refine calm_bind (calm_ask fun _ => Fallible.noPanic_ok _) fun listing => ?_
  refine calm_bind (calm_lift ((noPanic_walkRecursive [] listing).bind fun _ => Fallible.noPanic_ok _))
    fun entries => ?_
  refine calm_bind (Windows.forEach_calm (fun entry => calm_ask fun _ => noPanic_told _ _) _) fun _ => ?_
  refine calm_bind (Windows.forEach_calm (fun entry => calm_context ?_) _) fun _ =>
    calm_ask fun _ => Fallible.noPanic_ok _
  refine calm_bind (calm_ask fun _ => noPanic_told _ _) fun input => ?_
  exact calm_bind (calm_ask fun _ => noPanic_told _ _) fun _ => copyChunks_calm _ _ _ _ _

end Calm

/-! ### The pipelines -/

/-- Each attached image was detached, and no disk was ejected yet. -/
structure Ongoing (past : History) : Prop where
  detached : Detached past
  present : Present past

/-- Each attached image was detached, and the disk was ejected at last. -/
structure Finished (disk : Text) (past : History) : Prop where
  detached : Detached past
  ejected : Ejected disk past

section Steps

variable {α β : Type}

theorem Ongoing.plain {past : History} {event : Event Answer} (ongoing : Ongoing past)
    (plain : event.call.plain = true) : Ongoing (past ++ [event]) :=
  ⟨ongoing.detached.plain plain, ongoing.present.append (Call.plain.not_ejects plain)⟩

/-- The program goes on from an ongoing run, and leaves one when it fails. -/
def Leads (program : Io α) (post : α → History → Prop) : Prop :=
  Triple (fun _ _ => True) (Ongoing) program post (Ongoing)

theorem Leads.bind {program : Io α} {next : α → Io β} {post : β → History → Prop}
    (first : Leads program fun _ => Ongoing) (rest : ∀ value, Leads (next value) post) :
    Leads (program >>= next) post :=
  Triple.bind first rest

/-- A program that returns one value only. -/
theorem Leads.bindOnly {program : Io α} {next : α → Io β} {post : β → History → Prop} {value : α}
    (first : Leads program fun _ => Ongoing) (yields : Yields program (· = value))
    (rest : Leads (next value) post) : Leads (program >>= next) post :=
  Triple.bindOnly first yields rest

theorem leads_of_plain {program : Io α} (asks : Program.Asks (fun call => call.plain = true) program) :
    Leads program fun _ => Ongoing :=
  triple_of_asks asks fun _ _ plain ongoing => ⟨trivial, fun _ => ongoing.plain plain⟩

theorem Finished.close {past : History} {event : Event Answer} {path : Text} {disk : Text}
    (finished : Finished disk past) (closes : event.call = .closeRaw path) : Finished disk (past ++ [event]) := by
  obtain ⟨detached, before, eject, after, rfl, present, ejects, closed⟩ := finished
  refine ⟨detached.plain (by rw [closes]; rfl), before, eject, after ++ [event], by simp, present, ejects, ?_⟩
  intro other member
  rcases List.mem_append.mp member with earlier | last
  · exact closed other earlier
  · rw [List.mem_singleton.mp last]
    exact ⟨path, closes⟩

/-- A command that attaches no image keeps the images detached. -/
theorem Detached.command {past : History} {command : Command} {answer : Answer (.command command)}
    (detached : Detached past) (other : ∀ iso, command ≠ .hdiutilAttach iso) :
    Detached (past ++ [⟨.command command, answer⟩]) := by
  refine detached.append (detached_of_none fun event member point => ?_)
  rw [List.mem_singleton.mp member]
  rintro ⟨iso, output, same, -⟩
  exact other iso (Call.command.inj (congrArg Event.call same))

theorem Present.command {past : History} {command : Command} {answer : Answer (.command command)}
    (present : Present past) (other : ∀ disk, command ≠ .eject disk) :
    Present (past ++ [⟨.command command, answer⟩]) := by
  refine present.append fun disk => ?_
  rintro ⟨output, same, -⟩
  exact other disk (Call.command.inj (congrArg Event.call same))

/-- The last step of every pipeline. -/
theorem eject_leads (disk : Text) (message : String) :
    Leads (Exchange.context message (eject disk)) fun _ => Finished disk := by
  refine Triple.context (Triple.context (runDiskutil_triple (fun _ _ => trivial) ?_ ?_))
  · intro past output ongoing success
    exact ⟨ongoing.detached.command nofun, past, _, [], rfl, ongoing.present, ⟨output, rfl, success⟩, nofun⟩
  · intro past answer ongoing failed
    refine ⟨ongoing.detached.command nofun, ongoing.present.append fun other => ?_⟩
    rintro ⟨output, same, success⟩
    cases same
    exact failed output rfl success

/-- An image that was attached is on hand until it is detached. -/
theorem hdiutilAttachIso_leads (iso : Text) :
    Leads (hdiutilAttachIso iso) (OnHand) := by
  have starts : Leads (start (.hdiutilAttach iso) s!"hdiutil attach {String.ofList iso}"
      "hdiutil attach failed: " Output.stderr) fun output past =>
        ∃ before, past = before ++ [⟨.command (.hdiutilAttach iso), .ok output⟩] ∧ output.code = some 0 ∧
          Ongoing before := by
    refine start_triple (fun _ _ => trivial) (fun past output ongoing success => ?_) ?_
    · exact ⟨past, rfl, success, ongoing⟩
    · intro past answer ongoing failed
      refine ⟨ongoing.detached.append (detached_of_none fun event member point => ?_),
        ongoing.present.command nofun⟩
      rw [List.mem_singleton.mp member]
      rintro ⟨_, output, same, success, -⟩
      cases same
      exact failed output rfl success
  refine Triple.bind starts fun output => Triple.lift ?_ ?_
  · rintro mountPoint named past ⟨before, rfl, success, ongoing⟩
    have named := (Fallible.okOr_eq_ok _ _ _).mp named
    have attaches : Attaches mountPoint ⟨.command (.hdiutilAttach iso), .ok output⟩ :=
      ⟨iso, output, rfl, success, named⟩
    exact ⟨⟨before, _, [], rfl, ongoing.detached, attaches, nofun⟩, ongoing.present.command nofun⟩
  · rintro failure unnamed past ⟨before, rfl, success, ongoing⟩
    refine ⟨ongoing.detached.append (detached_of_none fun event member point => ?_),
      ongoing.present.command nofun⟩
    rw [List.mem_singleton.mp member]
    rintro ⟨_, _, same, _, named⟩
    cases same
    rw [(Fallible.okOr_eq_ok _ _ _).mpr named] at unnamed
    cases unnamed

/-- **The copy of an ISO leaves no image attached**, also when it fails. -/
theorem copyFromIso_leads (isoPath mount : Text) :
    Leads (Windows.copyFromIso isoPath mount) fun _ => Ongoing := by
  refine Triple.bind (Triple.context (hdiutilAttachIso_leads isoPath)) fun mountPoint => ?_
  have copies : Triple (fun _ _ => True) (OnHand mountPoint) (Windows.copyIsoContents mountPoint mount)
      (fun _ => OnHand mountPoint) (OnHand mountPoint) := by
    refine triple_of_asks (Windows.copyIsoContents_onFiles mountPoint) fun past call files held => ?_
    have plain := Call.plain_of_onFiles files
    exact ⟨trivial, fun answer => ⟨held.1.append files, held.2.append (Call.plain.not_ejects plain)⟩⟩
  have kept : Triple (fun _ _ => True) (OnHand mountPoint)
      (Exchange.attempt (Windows.copyIsoContents mountPoint mount))
      (Ends (fun _ => OnHand mountPoint) (OnHand mountPoint)) (Ongoing) :=
    Triple.attempt_calm copies (Windows.copyIsoContents_calm mountPoint mount)
  refine Triple.bind kept fun copyResult => ?_
  have detach : ∀ past answer, OnHand mountPoint past →
      Ongoing (past ++ [⟨.command (.hdiutilDetach mountPoint), answer⟩]) :=
    fun past answer held => ⟨held.1.detach answer, held.2.command nofun⟩
  have detaches : Triple (fun _ _ => True) (OnHand mountPoint) (hdiutilDetach mountPoint)
      (fun _ => Ongoing) (Ongoing) :=
    Triple.bind (start_triple (fun _ _ => trivial) (fun past output held _ => detach past _ held)
      fun past answer held _ => detach past answer held) fun _ => Triple.pure fun _ holds => holds
  refine Triple.through (fun _ => Ongoing) ?_ fun _ => Triple.context (Triple.lift ?_ ?_)
  · exact (Triple.attempt detaches).mono (fun _ held => Ends.both held) (fun _ _ held => Ends.both held)
      fun _ held => held
  · exact fun _ _ _ held => held
  · exact fun _ _ _ held => held

theorem writeBootRecords_leads (bootrec : Windows.Bootrec) (disk partitionRaw partitionBsd : Text) (verify : Bool)
    (msSys : Option Text) : Leads
      (Windows.writeBootRecords bootrec disk partitionRaw partitionBsd verify msSys) fun _ => Ongoing := by
  refine leads_of_plain ?_
  exact Windows.writeBootRecords_asks raw_plain rfl rfl rfl (fun _ => rfl) fun _ => rfl

theorem tryUnmount_leads (disk : Text) : Leads (Exchange.attempt (unmountDisk disk)) fun _ => Ongoing :=
  leads_of_plain (asks_attempt (asks_context (runDiskutil_asks rfl)))

theorem unmount_leads (disk : Text) (message : String) :
    Leads (Exchange.context message (unmountDisk disk)) fun _ => Ongoing :=
  leads_of_plain (asks_context (asks_context (runDiskutil_asks rfl)))

end Steps

section Runs

variable {plan : WritePlan} {info : DeviceInfo}

theorem windowsRun_leads (bootrec : Windows.Bootrec) (config : RunConfig) :
    Leads (Windows.run bootrec plan info config) fun _ => Finished (bsdPathOf info.path) := by
  refine Leads.bind (leads_of_plain ?resolve) fun msSys => ?_
  case resolve => exact Windows.resolveMsSys_asks (fun _ => rfl) (fun _ => rfl) (by rfl)
  refine Leads.bind (unmount_leads _ _) fun _ => ?_
  refine Leads.bind (leads_of_plain ?sector) fun _ => ?_
  case sector => exact Windows.writeMbrSector_asks raw_plain rfl rfl rfl
  refine Leads.bind (leads_of_plain (rereadPartitionTable_asks rfl rfl rfl)) fun _ => ?_
  have formats := formatPartition_yields (bsdPathOf info.path) (partitionOf info.path) plan.label
  refine Leads.bindOnly (leads_of_plain (formatPartition_asks rfl rfl rfl)) formats ?_
  refine Leads.bind (copyFromIso_leads _ _) fun _ => Leads.bind (unmount_leads _ _) fun _ => ?_
  refine Leads.bind (writeBootRecords_leads _ _ _ _ _ _) fun _ => ?_
  exact Leads.bind (tryUnmount_leads _) fun _ => eject_leads _ _

theorem hybridRun_leads (verify : Bool) :
    Leads (Hybrid.run plan info verify) fun _ => Finished (bsdPathOf info.path) := by
  refine Leads.bind (unmount_leads _ _) fun _ => ?_
  refine Leads.bind (leads_of_plain (asks_context (openRaw_asks rfl))) fun geometry => ?_
  have body : Leads (do
      let iso ← openFile "opening ISO" plan.isoPath
      Exchange.context "writing ISO bytes" (Hybrid.writeIsoToDevice info.path geometry.blockSize iso)
      syncRaw info.path
      Hybrid.verifyPass info.path geometry.blockSize plan.isoPath verify
      let _ ← Exchange.attempt (unmountDisk (bsdPathOf info.path))
      Exchange.context "eject after write" (eject (bsdPathOf info.path)) : Io Unit)
      fun _ => Finished (bsdPathOf info.path) := by
    refine Leads.bind (leads_of_plain (asks_ask rfl)) fun iso => ?_
    refine Leads.bind (leads_of_plain (asks_context (Hybrid.writeIsoFrom_asks raw_plain _ _ _ _ _))) fun _ => ?_
    refine Leads.bind (leads_of_plain (asks_ask rfl)) fun _ => ?_
    refine Leads.bind (leads_of_plain (Hybrid.verifyPass_asks raw_plain (fun _ => rfl) _ _ _)) fun _ => ?_
    exact Leads.bind (tryUnmount_leads _) fun _ => eject_leads _ _
  exact Triple.dropping body (fun _ past finished => ⟨trivial, fun _ => finished.close rfl⟩)
    fun past ongoing => ⟨trivial, fun _ => ongoing.plain rfl⟩

theorem runGrub4dos_leads {stage : Text → Io Unit}
    (stages : ∀ mount, Program.Asks (Stages mount) (stage mount)) (checks : Fallible Unit) (grldrMbr : Bytes)
    (verify : Bool) : Leads (runGrub4dos checks grldrMbr stage plan info verify)
      fun _ => Finished (bsdPathOf info.path) := by
  refine Leads.bind (leads_of_plain (asks_lift _)) fun _ => Leads.bind (unmount_leads _ _) fun _ => ?_
  refine Leads.bind (leads_of_plain ?track) fun _ => ?_
  case track => exact asks_context (writeGrub4dosMbrTrack_asks raw_plain rfl rfl rfl)
  refine Leads.bind (leads_of_plain (rereadPartitionTable_asks rfl rfl rfl)) fun _ => ?_
  refine Leads.bind (leads_of_plain (formatPartition_asks rfl rfl rfl)) fun usbMount => ?_
  have plain := (stages usbMount).mono fun call staged => Call.plain_of_onFiles staged.1
  refine Leads.bind (leads_of_plain plain) fun _ => ?_
  exact Leads.bind (unmount_leads _ _) fun _ => eject_leads _ _

theorem startPipeline_leads (parts : Parts) (config : RunConfig) :
    Leads (startPipeline parts plan info config) fun _ => Finished (bsdPathOf info.path) := by
  unfold startPipeline
  split
  · exact Triple.context (hybridRun_leads _)
  · exact Triple.context (windowsRun_leads _ _)
  · exact Triple.context (runGrub4dos_leads (fun _ => asks_context (NtXp.stageFiles_stages _ _ _ _ _)) _ _ _)
  · exact Triple.context (runGrub4dos_leads (fun _ => asks_context (Win2000.stageFiles_stages _ _ _)) _ _ _)
  · exact fun _ ongoing => ongoing
  · exact fun _ ongoing => ongoing

theorem ongoing_nil : Ongoing [] :=
  ⟨detached_of_none nofun, nofun⟩

end Runs

/-- **A run succeeds exactly when the disk was ejected**, and nothing but closing the device happens after
that. -/
theorem pipeline_ok_iff_ejected {parts : Parts} {plan : WritePlan} {info : DeviceInfo} {config : RunConfig}
    {trace : History} {result : Fallible Unit}
    (traces : Program.Traces (startPipeline parts plan info config) trace result) :
    (result = .ok () ↔ ∃ event ∈ trace, Ejects (bsdPathOf info.path) event) ∧
      (result = .ok () → Ejected (bsdPathOf info.path) trace) := by
  have ends := (startPipeline_leads parts config [] ongoing_nil).holds traces
  cases result with
  | ok value =>
    have ejected : Ejected (bsdPathOf info.path) trace := Finished.ejected ends
    refine ⟨⟨fun _ => ?_, fun _ => rfl⟩, fun _ => ejected⟩
    obtain ⟨before, event, after, rfl, -, ejects, -⟩ := ejected
    exact ⟨event, by simp, ejects⟩
  | error failure =>
    have present : Present trace := Ongoing.present ends
    refine ⟨⟨nofun, fun found => ?_⟩, nofun⟩
    obtain ⟨event, member, ejects⟩ := found
    exact absurd ejects (present event member _)

/-- The stick of a run that succeeds is ejected. -/
theorem pipeline_ok_iff_ejected_sample :
    (∃ event ∈ sampleAttached ++ sampleBooted, Ejects (bsdPathOf sampleInfo.path) event) ∧
      Ejected (bsdPathOf sampleInfo.path) (sampleAttached ++ sampleBooted) :=
  have both := pipeline_ok_iff_ejected sampleBooted_traces
  ⟨both.1.mp rfl, both.2 rfl⟩

end Bootsmith.Pipeline
