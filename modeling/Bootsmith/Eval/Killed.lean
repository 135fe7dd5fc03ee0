/-
**QEMU does not outlive the evaluation.**

Whatever the tools, the monitor and the clock answer: QEMU is started at most once, and a run that started it
ends with killing it and waiting for it, also when it fails or panics, unless it is to be kept
(`qemu_ended`).
-/

import Bootsmith.Eval.Harness

namespace Bootsmith.Eval.Harness

open Bootsmith.Library Exchange
open Bootsmith.Pipeline (join)

/-! ### Where QEMU runs -/

/-- The call neither starts nor ends QEMU. -/
def Call.quiet : Call → Bool
  | .spawnQemu _ => false
  | .killQemu => false
  | .waitQemu => false
  | _ => true

/-- The event neither started nor ended QEMU. -/
def Plain (event : Event Answer) : Prop :=
  event.call.quiet = true ∨ ∃ args text, event = ⟨.spawnQemu args, .error text⟩

/-- QEMU was not started. -/
def Idle (past : History) : Prop := ∀ event ∈ past, Plain event

/-- QEMU was started once, and not ended. -/
def Running (past : History) : Prop :=
  ∃ before args session, past = before ++ ⟨.spawnQemu args, .ok ()⟩ :: session ∧ Idle before ∧ Idle session

/-- **QEMU was started once, and the run ended with it**: it was killed and waited for at the end, unless it is
kept. -/
def Ended (keep : Bool) (past : History) : Prop :=
  ∃ before args session tail, past = before ++ ⟨.spawnQemu args, .ok ()⟩ :: (session ++ tail) ∧
    Idle before ∧ Idle session ∧
    if keep then tail = [] else ∃ killed waited, tail = [⟨.killQemu, killed⟩, ⟨.waitQemu, waited⟩]

/-- After a verdict QEMU has ended; when the rounds are used up it runs. -/
def Left (keep : Bool) : Option Verdict → History → Prop
  | none => Running
  | some _ => Ended keep

theorem Idle.append {past : History} {event : Event Answer} (idle : Idle past) (plain : Plain event) :
    Idle (past ++ [event]) := by
  intro other member
  rcases List.mem_append.mp member with earlier | last
  · exact idle other earlier
  · rw [List.mem_singleton.mp last]
    exact plain

theorem Running.append {past : History} {event : Event Answer} (running : Running past) (plain : Plain event) :
    Running (past ++ [event]) := by
  obtain ⟨before, args, session, rfl, idle, quiet⟩ := running
  exact ⟨before, args, session ++ [event], by simp, idle, quiet.append plain⟩

/-! ### The calls of the parts -/

section Asks

variable {α : Type} {program : Io α}

theorem idle_keeps (asks : Program.Asks (fun call => call.quiet = true) program) :
    Triple (fun _ _ => True) Idle program (fun _ => Idle) Idle :=
  triple_of_asks asks fun _ _ quiet idle => ⟨trivial, fun _ => idle.append (Or.inl quiet)⟩

theorem running_keeps (asks : Program.Asks (fun call => call.quiet = true) program) :
    Triple (fun _ _ => True) Running program (fun _ => Running) Running :=
  triple_of_asks asks fun _ _ quiet running => ⟨trivial, fun _ => running.append (Or.inl quiet)⟩

theorem waitFrom_asks {among : Call → Prop} (connects : ∀ socket, among (.connect socket))
    (limits : ∀ reading writing, among (.setTimeouts reading writing)) (reads : among .now)
    (sleeps : ∀ millis, among (.sleep millis)) (path : Text) (start timeout rounds : Nat) :
    Program.Asks among (waitFrom path start timeout rounds) := by
  induction rounds with
  | zero => exact asks_pure _
  | succ rounds ih =>
    refine asks_bind (asks_ask (connects path)) fun connected => ?_
    split
    · exact asks_bind (asks_ask (limits 15 5)) fun _ => asks_pure _
    · refine asks_bind (asks_ask reads) fun instant => ?_
      split
      · exact asks_bail _
      · exact asks_bind (asks_ask (sleeps 200)) fun _ => ih

theorem waitForMonitor_asks {among : Call → Prop} (connects : ∀ socket, among (.connect socket))
    (limits : ∀ reading writing, among (.setTimeouts reading writing)) (reads : among .now)
    (sleeps : ∀ millis, among (.sleep millis)) (rounds : Nat) (path : Text) (timeout : Nat) :
    Program.Asks among (waitForMonitor rounds path timeout) :=
  asks_bind (asks_ask reads) fun start => waitFrom_asks connects limits reads sleeps path start timeout rounds

theorem workDir_asks {among : Call → Prop} (temporary : among .tempDir)
    (creates : ∀ path, among (.createDirAll path)) (cli : Cli) : Program.Asks among (workDir cli) := by
  unfold workDir
  split
  · exact asks_bind (asks_ask (creates _)) fun _ => asks_pure _
  · exact asks_bind (asks_ask temporary) fun _ => asks_bind (asks_ask (creates _)) fun _ => asks_pure _

theorem createTarget_asks {among : Call → Prop} (looks : ∀ path, among (.pathExists path))
    (creates : ∀ target size, among (.qemuImg target size)) (cli : Cli) (targetImg : Text) :
    Program.Asks among (createTarget cli targetImg) := by
  refine asks_bind (asks_ask (looks _)) fun there => ?_
  split
  · exact asks_pure _
  refine asks_bind (asks_ask (creates _ _)) fun status => ?_
  split
  · exact asks_pure _
  · exact asks_bail _

end Asks

/-- The start of QEMU is the last call in front of the session. -/
theorem spawn_runs (cli : Cli) :
    Triple (fun _ _ => True) Idle (spawn cli) (fun _ => Running) Idle := by
  have tool : ∀ name, Triple (fun _ _ => True) Idle (requireTool name) (fun _ => Idle) Idle :=
    fun _ => idle_keeps (asks_ask rfl)
  refine Triple.bind (idle_keeps (asks_ask rfl)) fun there => ?_
  split
  · exact Triple.bail fun _ => id
  refine Triple.bind (tool _) fun _ => Triple.bind (tool _) fun _ => Triple.bind (tool _) fun _ => ?_
  refine Triple.bind (idle_keeps (workDir_asks (by rfl) (fun _ => rfl) cli)) fun work => ?_
  refine Triple.bind (idle_keeps (createTarget_asks (fun _ => rfl) (fun _ _ => rfl) cli _)) fun _ => ?_
  refine Triple.bind (idle_keeps (asks_ask rfl)) fun _ => ?_
  refine Triple.bind (idle_keeps (asks_ask rfl)) fun _ => Triple.bind (idle_keeps (asks_ask rfl)) fun _ => ?_
  refine Triple.bind (Triple.ask (fun _ _ => trivial) fun past answer idle => ?_) fun _ =>
    Triple.pure fun _ running => running
  cases answer with
  | ok value => exact ⟨past, _, [], rfl, idle, List.forall_mem_nil _⟩
  | error text => exact idle.append (Or.inr ⟨_, text, rfl⟩)

/-! ### The end of QEMU -/

theorem shutdown_ends (keep : Bool) :
    Triple (fun _ _ => True) Running (shutdown keep) (fun _ => Ended keep) fun _ => False := by
  unfold shutdown
  split
  · rename_i kept
    refine Triple.pure fun past running => ?_
    obtain ⟨before, args, session, rfl, idle, quiet⟩ := running
    exact ⟨before, args, session, [], by rw [List.append_nil], idle, quiet, by rw [if_pos kept]⟩
  · rename_i kills
    rintro _ ⟨before, args, session, rfl, idle, quiet⟩
    refine ⟨trivial, fun killed => ⟨trivial, fun waited => ⟨before, args, session,
      [⟨.killQemu, killed⟩, ⟨.waitQemu, waited⟩], by simp, idle, quiet, ?_⟩⟩⟩
    rw [if_neg kills]
    exact ⟨killed, waited, rfl⟩

/-- A shutdown, and a verdict behind it. -/
theorem shutdown_verdict (keep : Bool) (verdict : Verdict) :
    Triple (fun _ _ => True) Running (shutdown keep >>= fun _ => pure (some verdict)) (Left keep) Running :=
  Triple.bind ((shutdown_ends keep).mono (fun _ => id) (fun _ _ => id) fun _ => False.elim) fun _ =>
    Triple.pure fun _ ended => ended

theorem watch_ends (platform : Platform) (cli : Cli) (work : Text) (deadline rounds shotIdx : Nat)
    (lastScreenshot : Option Text) :
    Triple (fun _ _ => True) Running (watch platform cli work deadline rounds shotIdx lastScreenshot)
      (Left cli.keepRunning) Running := by
  induction rounds generalizing shotIdx lastScreenshot with
  | zero => exact Triple.pure fun _ running => running
  | succ rounds ih =>
    refine Triple.bind (running_keeps (asks_ask rfl)) fun instant => ?_
    split
    · refine Triple.bind (running_keeps (asks_ask rfl)) fun _ => ?_
      refine Triple.bind (running_keeps (asks_attempt (asks_ask rfl))) fun dumped => ?_
      split
      · exact ih _ _
      refine Triple.bind (running_keeps (asks_attempt (asks_ask rfl))) fun read => ?_
      split
      · exact ih _ _
      refine Triple.bind (running_keeps (asks_ask rfl)) fun _ => ?_
      split
      · exact shutdown_verdict _ _
      · exact ih _ _
    · exact shutdown_verdict _ _

theorem session_ends (platform : Platform) (rounds : Nat) (cli : Cli) (work : Text) :
    Triple (fun _ _ => True) Running (session platform rounds cli work) (Left cli.keepRunning) Running := by
  have waits : Program.Asks (fun call => call.quiet = true)
      (waitForMonitor rounds (join work "monitor.sock".toList) 15000) :=
    waitForMonitor_asks (fun _ => rfl) (fun _ _ => rfl) (by rfl) (fun _ => rfl) _ _ _
  refine Triple.bind (running_keeps (asks_context waits)) fun monitor => ?_
  split
  · exact Triple.pure fun _ running => running
  refine Triple.bind (running_keeps (asks_context (asks_ask rfl))) fun _ => ?_
  refine Triple.bind (running_keeps (asks_ask rfl)) fun instant => ?_
  exact Triple.bind (running_keeps (asks_lift _)) fun deadline => watch_ends _ _ _ _ _ _ _

/-- The guard ends QEMU behind a failure. -/
theorem guarded_ends {keep : Bool} {body : Io (Option Verdict)}
    (ends : Triple (fun _ _ => True) Running body (Left keep) Running) :
    Triple (fun _ _ => True) Running (guarded keep body) (Left keep) (Ended keep) := by
  refine fun past running => Program.Upholds.bind ((ends past running).mono fun result past left => ?_)
  cases result with
  | ok value => exact left
  | error failure =>
    refine Program.Upholds.bind ((shutdown_ends keep past left).mono fun dropped later ended => ?_)
    cases dropped with
    | ok value => exact ended
    | error failure => exact ended.elim

/-- **QEMU does not outlive the run**: after a verdict it was started once and ended, unless it is kept; a run
that fails or panics did not start it, or ended it as well. -/
theorem qemu_ended {platform : Platform} {rounds : Nat} {cli : Cli} {trace : History}
    {result : Fallible (Option Verdict)} (traces : Program.Traces (run platform rounds cli) trace result) :
    (∀ verdict, result = .ok (some verdict) → Ended cli.keepRunning trace) ∧
      ∀ failure, result = .error failure → Idle trace ∨ Ended cli.keepRunning trace := by
  have ends : Triple (fun _ _ => True) Idle (run platform rounds cli) (Left cli.keepRunning)
      fun past => Idle past ∨ Ended cli.keepRunning past := by
    refine Triple.bind ((spawn_runs cli).mono (fun _ => id) (fun _ _ => id) fun _ => Or.inl) fun work => ?_
    exact (guarded_ends (session_ends platform rounds cli work)).mono (fun _ => id) (fun _ _ => id) fun _ => Or.inr
  have left := (ends [] (List.forall_mem_nil _)).holds traces
  constructor
  · rintro verdict rfl
    exact left
  · rintro failure rfl
    exact left

end Bootsmith.Eval.Harness
