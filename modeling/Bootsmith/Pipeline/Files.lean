/-
**What a run writes.**

The events of a run write files and folders (`wrote`), and they do so after the partition was formatted
(`pipeline_writes_formatted`). Where a path leads is up to the system, so this says what was written at a path, and
not which volume is mounted there. What the files of the user hold is read off the answers, so a fact about what was
written supposes something of the events (`Given`): that each file reads the same whenever it is opened (`Stable`),
and that an edit of an image succeeds only where the call does on what was written (`Edited`).

* `copyChunks_leaves`: a copy loop appends what was left of the open file, whatever the reads return;
* `Simulates`: a part of a run does to what was written what an effect does to a state that describes it.
-/

import Bootsmith.Library.Store
import Bootsmith.Pipeline.Asked

namespace Bootsmith.Pipeline

open Bootsmith.Library Bootsmith.Disk Bootsmith.Core Exchange

/-! ### The format -/

/-- The partition was formatted. -/
def Formatted (partition label : Text) (past : History) : Prop :=
  ∃ output, ⟨.command (.newfsMsdosFat32 partition label), .ok output⟩ ∈ past ∧ output.code = some 0

/-- **Files and folders are written after the format.** -/
def WritesFormatted (partition label : Text) (trace : History) : Prop :=
  ∀ before event after, trace = before ++ event :: after → event.call.written ≠ none →
    Formatted partition label before

/-- The calls on an open device write no files. -/
theorem raw_writesNothing {path : Text} (call : Call) (raw : call.raw = some path) : call.written = none := by
  revert raw
  unfold Call.raw Call.written
  split <;> simp

section Formats

variable {α : Type} {partition label : Text}

/-- A part of a run that writes files and folders after the format only. -/
abbrev Formats (partition label : Text) (pre : History → Prop) (program : Io α) (good : History → Prop) : Prop :=
  Triple (fun past call => call.written ≠ none → Formatted partition label past) pre program (fun _ => good)
    fun _ => True

theorem formats_of_asks {program : Io α} (asks : Program.Asks (fun call => call.written = none) program) :
    Formats partition label (fun _ => True) program fun _ => True :=
  triple_of_asks asks fun _ _ nothing _ => ⟨fun written => absurd nothing written, fun _ => trivial⟩

/-- Everything is allowed behind the format. -/
theorem formats_behind {program : Io α} :
    Formats partition label (Formatted partition label) program (Formatted partition label) := by
  refine (triple_of_asks Program.asks_any fun past call _ formatted => ?_).mono (fun _ => id) (fun _ _ => id)
    fun _ _ => trivial
  refine ⟨fun _ => formatted, fun answer => ?_⟩
  obtain ⟨output, member, success⟩ := formatted
  exact ⟨output, List.mem_append_left _ member, success⟩

/-- The format, and whatever comes behind it. -/
theorem formats_format {disk : Text} {next : Text → Io α} :
    Formats partition label (fun _ => True) (formatPartition disk partition label >>= next) fun _ => True := by
  have format : Formats partition label (fun _ => True) (newfsMsdosFat32 partition label)
      (Formatted partition label) := by
    refine Triple.bind (start_triple (fun _ _ written => absurd rfl written) (fun past output _ success => ?_)
      fun _ _ _ _ => trivial) fun _ => Triple.pure fun _ formatted => formatted
    exact ⟨output, List.mem_append_right _ (List.mem_singleton.mpr rfl), success⟩
  refine Triple.bind (Triple.bind format.context fun _ => formats_behind) fun mount => ?_
  exact formats_behind.mono (fun _ => id) (fun _ _ _ => trivial) fun _ => id

theorem windowsRun_formats (bootrec : Windows.Bootrec) (plan : WritePlan) (info : DeviceInfo) (config : RunConfig) :
    Formats (partitionOf info.path) plan.label (fun _ => True) (Windows.run bootrec plan info config)
      fun _ => True := by
  refine Triple.bind (formats_of_asks ?resolve) fun msSys => ?_
  case resolve => exact Windows.resolveMsSys_asks (fun _ => rfl) (fun _ => rfl) (by rfl)
  refine Triple.bind (formats_of_asks (asks_context (asks_context (runDiskutil_asks rfl)))) fun _ => ?_
  refine Triple.bind (formats_of_asks ?sector) fun _ => ?_
  case sector => exact Windows.writeMbrSector_asks raw_writesNothing rfl rfl rfl
  exact Triple.bind (formats_of_asks (rereadPartitionTable_asks rfl rfl rfl)) fun _ => formats_format

theorem runGrub4dos_formats (checks : Fallible Unit) (grldrMbr : Bytes) (stage : Text → Io Unit) (plan : WritePlan)
    (info : DeviceInfo) (verify : Bool) : Formats (partitionOf info.path) plan.label (fun _ => True)
      (runGrub4dos checks grldrMbr stage plan info verify) fun _ => True := by
  refine Triple.bind (formats_of_asks (asks_lift _)) fun _ => ?_
  refine Triple.bind (formats_of_asks (asks_context (asks_context (runDiskutil_asks rfl)))) fun _ => ?_
  refine Triple.bind (formats_of_asks ?track) fun _ => ?_
  case track => exact asks_context (writeGrub4dosMbrTrack_asks raw_writesNothing rfl rfl rfl)
  exact Triple.bind (formats_of_asks (rereadPartitionTable_asks rfl rfl rfl)) fun _ => formats_format

theorem hybridRun_formats {partition label : Text} (plan : WritePlan) (info : DeviceInfo) (verify : Bool) :
    Formats partition label (fun _ => True) (Hybrid.run plan info verify) fun _ => True := by
  refine formats_of_asks (asks_bind (asks_context (asks_context (runDiskutil_asks rfl))) fun _ => ?_)
  refine withRaw_asks rfl rfl fun geometry => ?_
  exact Hybrid.body_asks raw_writesNothing (fun _ => rfl) rfl rfl geometry.blockSize verify

/-- **A pipeline writes files and folders after the format only**, whether it succeeds or not. -/
theorem pipeline_writes_formatted {parts : Parts} {plan : WritePlan} {info : DeviceInfo} {config : RunConfig}
    {trace : History} {result : Fallible Unit}
    (traces : Program.Traces (startPipeline parts plan info config) trace result) :
    WritesFormatted (partitionOf info.path) plan.label trace := by
  have formats : Formats (partitionOf info.path) plan.label (fun _ => True) (startPipeline parts plan info config)
      fun _ => True := by
    unfold startPipeline
    split
    · exact Triple.context (hybridRun_formats _ _ _)
    · exact Triple.context (windowsRun_formats _ _ _ _)
    · exact Triple.context (runGrub4dos_formats _ _ _ _ _ _)
    · exact Triple.context (runGrub4dos_formats _ _ _ _ _ _)
    · exact fun _ _ => trivial
    · exact fun _ _ => trivial
  exact fun before event after split => (formats [] trivial).permits traces split

end Formats

/-! ### What was written -/

variable {κ : Type} [DecidableEq κ]

/-- What a call that was answered makes of what was written; `fold` is the key of a path. -/
def Call.leave (fold : Text → κ) (store : Store κ) : (call : Call) → Answer call → Store κ
  | .createDirAll path, .ok () => store.put (fold path) .folder
  | .createFile path, .ok () => store.put (fold path) (.file [])
  | .writeAll path bytes, .ok () => store.append (fold path) bytes
  | .writeFile path bytes, .ok () => store.put (fold path) (.file bytes)
  | .editImage path call, .ok () => store.edit (fold path) call
  | _, _ => store

/-- **What the events wrote**, by the keys of the paths. -/
def wrote (fold : Text → κ) (past : History) : Store κ :=
  past.foldl (fun store event => event.call.leave fold store event.answer) .empty

/-- **Each file reads the same whenever it is opened.** -/
def Stable (contents : Text → Bytes) (past : History) : Prop :=
  ∀ path (opened : Opened), ⟨.openFile path, .ok opened⟩ ∈ past → opened.source.rest = contents path

/-- **An edit succeeds only where there is an image and the call succeeds on it.** -/
def Edited (fold : Text → κ) (past : History) : Prop :=
  ∀ before after path (call : Effect Image Unit), past = before ++ ⟨.editImage path call, .ok ()⟩ :: after →
    ∃ image image', wrote fold before (fold path) = some (.file image.bytes) ∧ call.run image = .ok () image'

/-- What is supposed of the events of a run, and then of each part of them. -/
structure Given where
  holds : History → Prop
  before : ∀ past event, holds (past ++ [event]) → holds past

def Given.stable (contents : Text → Bytes) : Given where
  holds := Stable contents
  before _ _ stable := fun path opened member => stable path opened (List.mem_append_left _ member)

def Given.reliable (fold : Text → κ) (contents : Text → Bytes) : Given where
  holds past := Stable contents past ∧ Edited fold past
  before past event both := by
    refine ⟨(Given.stable contents).before past event both.1, fun before after path call split => ?_⟩
    exact both.2 before (after ++ [event]) path call (by rw [split]; simp)

/-- What holds of what was written, and some events that are remembered. -/
structure Left (fold : Text → κ) (given : Given) (known : History) (good : Store κ → Prop) (past : History) :
    Prop where
  recalls : known ⊆ past
  holds : given.holds past → good (wrote fold past)

section Left

variable {fold : Text → κ} {given : Given} {contents : Text → Bytes} {known past : History} {good : Store κ → Prop}
  {event : Event Answer}

theorem wrote_append (past : History) (event : Event Answer) :
    wrote fold (past ++ [event]) = event.call.leave fold (wrote fold past) event.answer :=
  List.foldl_append ..

theorem Call.leave_eq_self {call : Call} (nothing : call.written = none) (store : Store κ)
    (answer : Answer call) : call.leave fold store answer = store := by
  cases call <;> first | rfl | cases nothing

/-- One event. -/
theorem Left.step (left : Left fold given known good past) {good' : Store κ → Prop}
    (changes : ∀ store, good store → good' (event.call.leave fold store event.answer)) :
    Left fold given known good' (past ++ [event]) := by
  refine ⟨fun other member => List.mem_append_left _ (left.recalls member), fun stable => ?_⟩
  rw [wrote_append]
  exact changes _ (left.holds (given.before _ _ stable))

theorem Left.keep (left : Left fold given known good past) (nothing : event.call.written = none) :
    Left fold given known good (past ++ [event]) :=
  left.step fun store holds => by rwa [Call.leave_eq_self nothing]

theorem Left.mono {good' : Store κ → Prop} (left : Left fold given known good past)
    (implies : ∀ store, good store → good' store) : Left fold given known good' past :=
  ⟨left.recalls, fun stable => implies _ (left.holds stable)⟩

/-! ### The parts of a copy -/

/-- A program that leaves something written. -/
abbrev Leaves {α : Type} (fold : Text → κ) (given : Given) (known : History) (good : Store κ → Prop)
    (program : Io α) (good' : α → Store κ → Prop) : Prop :=
  Triple (fun _ _ => True) (Left fold given known good) program
    (fun value => Left fold given known (good' value)) fun _ => True

/-- Calls that write no files. -/
theorem leaves_of_asks {α : Type} {program : Io α}
    (asks : Program.Asks (fun call => call.written = none) program) :
    Leaves fold given known good program fun _ => good :=
  (triple_of_asks asks fun _ _ nothing left => ⟨trivial, fun _ => left.keep nothing⟩).mono (fun _ => id)
    (fun _ _ => id) fun _ _ => trivial

/-- A call that is answered with nothing, or fails. -/
theorem writes_leaves {call : Call} {reading : Answer call → Fallible Unit} {good' : Store κ → Prop}
    (changes : ∀ store answer, good store → reading answer = .ok () → good' (call.leave fold store answer)) :
    Leaves fold given known good (Exchange.ask call reading : Io Unit) fun _ => good' := by
  refine Triple.ask (fun _ _ => trivial) fun past answer left => ?_
  cases result : reading answer with
  | error failure => trivial
  | ok value => exact left.step fun store holds => changes store answer holds result

theorem told_eq_ok {α : Type} {messages : List String} {answer : Except String α} {value : α} :
    told messages answer = .ok value ↔ answer = .ok value := by
  cases answer <;> simp [told]

theorem writeFile_leaves (path : Text) (bytes : Bytes) :
    Leaves fold given known good (writeFile path bytes) fun _ store =>
      ∃ before, good before ∧ store = before.put (fold path) (.file bytes) :=
  writes_leaves fun before answer holds returned => by
    obtain rfl := told_eq_ok.mp returned
    exact ⟨before, holds, rfl⟩

theorem createFile_leaves (creating : String) (path : Text) :
    Leaves fold given known good (createFile creating path) fun _ store =>
      ∃ before, good before ∧ store = before.put (fold path) (.file []) :=
  writes_leaves fun before answer holds returned => by
    obtain rfl := told_eq_ok.mp returned
    exact ⟨before, holds, rfl⟩

/-- An open file, with its bytes. -/
theorem openFile_leaves (stable : ∀ past, given.holds past → Stable contents past) (opening : String) (path : Text) :
    Leaves fold given known good (openFile opening path) fun opened store =>
      good store ∧ opened.source.rest = contents path := by
  refine Triple.ask (fun _ _ => trivial) fun past answer left => ?_
  cases answer with
  | error text => trivial
  | ok opened =>
    have kept : Left fold given known good (past ++ [⟨.openFile path, .ok opened⟩]) := left.keep rfl
    exact ⟨kept.recalls, fun holds => ⟨kept.holds holds, stable _ holds path opened (by simp)⟩⟩

/-- **A copy loop appends what is left of the open file.** -/
theorem copyChunks_leaves (reading writing : String) (dest : Text) (broken : Option String) (source : ByteSource) :
    Leaves fold given known good (copyChunks reading writing dest broken source) fun _ store =>
      ∃ before, good before ∧ store = before.append (fold dest) source.rest := by
  induction left : source.rest.length using Nat.strong_induction_on generalizing source good with
  | _ left ih =>
    subst left
    rw [copyChunks]
    have shorter : (source.read (4 * 1024 * 1024)).1.length + _ = _ := source.read_length
    have joined : (source.read (4 * 1024 * 1024)).1 ++ _ = _ := source.read_append
    have ends := source.read_eq_nil (show 0 < 4 * 1024 * 1024 by norm_num)
    split
    rename_i bytes next taken
    simp only [taken] at shorter joined ends
    split
    · rename_i nothing
      cases broken with
      | some text => exact Triple.lift (fun _ returns => by cases returns) fun _ _ _ _ => trivial
      | none =>
        refine Triple.pure fun past start => start.mono fun store holds => ⟨store, holds, ?_⟩
        rw [ends.mp nothing, Store.append_nil]
    · rename_i something
      have some := List.length_pos_of_ne_nil something
      have writes : Leaves fold given known good
          (Exchange.ask (.writeAll dest bytes) (told [writing]) : Io Unit) fun _ store =>
            ∃ before, good before ∧ store = before.append (fold dest) bytes :=
        writes_leaves fun before answer holds returned => by
          obtain rfl := told_eq_ok.mp returned
          exact ⟨before, holds, rfl⟩
      refine Triple.bind writes fun _ => (ih _ (by omega) next rfl).mono (fun _ => id) (fun _ past start => ?_)
        fun _ => id
      refine start.mono ?_
      rintro store ⟨_, ⟨before, holds, rfl⟩, rfl⟩
      exact ⟨before, holds, by rw [Store.append_append, joined]⟩

/-- An image that is edited in its place. -/
theorem editImage_leaves (edited : ∀ past, given.holds past → Edited fold past) (path : Text)
    (call : Effect Image Unit) :
    Leaves fold given known good (Exchange.ask (.editImage path call) id : Io Unit) fun _ store =>
      ∃ before image image', good before ∧ before (fold path) = some (.file image.bytes) ∧
        call.run image = .ok () image' ∧ store = before.put (fold path) (.file image'.bytes) := by
  refine Triple.ask (fun _ _ => trivial) fun past answer left => ?_
  cases answer with
  | error failure => trivial
  | ok value =>
    refine ⟨fun event member => List.mem_append_left _ (left.recalls member), fun holds => ?_⟩
    obtain ⟨image, image', there, runs⟩ := edited _ holds past [] path call rfl
    refine ⟨wrote fold past, image, image', left.holds (given.before _ _ holds), there, runs, ?_⟩
    have edit : Node.edit call (.file image.bytes) = .file image'.bytes := by
      rw [Node.edit, Image.ofBytes_bytes, runs]
      rfl
    rw [wrote_append]
    show (wrote fold past).edit (fold path) call = _
    rw [Store.edit, there, Option.map_some, edit, Store.put]

end Left

/-! ### States that describe what was written -/

/-- **A part of a run does to what was written what an effect does to a state**, when it succeeds; `like` relates a
state to the stores that it describes. -/
def Simulates {σ α : Type} (fold : Text → κ) (given : Given) (like : σ → Store κ → Prop) (program : Io α)
    (effect : Effect σ α) : Prop :=
  ∀ start : σ → Prop, Leaves fold given [] (fun store => ∃ state, start state ∧ like state store) program
    fun value store => ∃ state', (∃ state, start state ∧ effect.run state = .ok value state') ∧ like state' store

section Simulates

variable {σ α β : Type} {fold : Text → κ} {given : Given} {like : σ → Store κ → Prop} {program : Io α}
  {effect : Effect σ α}

theorem Simulates.bind {next : α → Io β} {next' : α → Effect σ β} (first : Simulates fold given like program effect)
    (rest : ∀ value, Simulates fold given like (next value) (next' value)) :
    Simulates fold given like (program >>= next) (effect >>= next') := by
  intro start
  refine Triple.bind (first start) fun value => ?_
  refine (rest value fun state' => ∃ state, start state ∧ effect.run state = .ok value state').mono (fun _ => id) ?_
    fun _ => id
  refine fun result past left => left.mono ?_
  rintro store ⟨last, ⟨state', ⟨state, started, runs⟩, runs'⟩, alike⟩
  exact ⟨last, ⟨state, started, (Effect.bind_eq_ok _ _ _ _ _).mpr ⟨value, state', runs, runs'⟩⟩, alike⟩

theorem Simulates.context {message message' : String} (simulates : Simulates fold given like program effect) :
    Simulates fold given like (Exchange.context message program) (Effect.context message' effect) := by
  refine fun start => (Triple.context (simulates start)).mono (fun _ => id) ?_ fun _ => id
  refine fun value past left => left.mono ?_
  rintro store ⟨state', ⟨state, started, runs⟩, alike⟩
  exact ⟨state', ⟨state, started, (Effect.context_eq_ok _ _ _ _ _).mpr runs⟩, alike⟩

theorem simulates_lift (call : Fallible α) : Simulates fold given like (Exchange.lift call) (Effect.lift call) := by
  refine fun start => Triple.lift (fun value returns past left => left.mono ?_) fun _ _ _ _ => trivial
  rintro store ⟨state, started, alike⟩
  exact ⟨state, ⟨state, started, (Effect.lift_eq_ok _ _ _ _).mpr ⟨returns, rfl⟩⟩, alike⟩

theorem simulates_pure (value : α) : Simulates fold given like (pure value) (pure value) := by
  refine fun start => Triple.pure fun past left => left.mono ?_
  rintro store ⟨state, started, alike⟩
  exact ⟨state, ⟨state, started, rfl⟩, alike⟩

/-- Calls behind that write no files. -/
theorem Simulates.andThen {program behind : Io Unit} {effect : Effect σ Unit}
    (simulates : Simulates fold given like program effect)
    (asks : Program.Asks (fun call => call.written = none) behind) :
    Simulates fold given like (program >>= fun _ => behind) effect :=
  fun start => Triple.bind (simulates start) fun _ => leaves_of_asks asks

/-- A call that changes the store as it changes the state. -/
theorem simulates_change (change : Store κ → Store κ → Prop) {program : Io Unit} {effect : Effect σ Unit}
    (leaves : ∀ good, Leaves fold given [] good program fun _ store => ∃ before, good before ∧ change before store)
    (same : ∀ state before store, like state before → change before store →
      ∃ state', effect.run state = .ok () state' ∧ like state' store) :
    Simulates fold given like program effect := by
  refine fun start => (leaves _).mono (fun _ => id) ?_ fun _ => id
  refine fun value past left => left.mono ?_
  rintro store ⟨before, ⟨state, started, alike⟩, changed⟩
  obtain ⟨state', runs, alike'⟩ := same state before store alike changed
  exact ⟨state', ⟨state, started, runs⟩, alike'⟩

end Simulates

end Bootsmith.Pipeline
