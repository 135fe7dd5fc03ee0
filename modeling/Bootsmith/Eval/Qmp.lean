/-
**The monitor session of the evaluation tool** (`eval.rs`).

The tool talks to QEMU over a socket, one line a message, and takes the first line that mentions a return
or an error for the reply to what it asked. Nothing is kept across a call, so a reply that comes after its
call gave up meets the next call.

* `readQmpUntil_find`: a call acts on the first pending line that looks like a reply;
* `runSession_own_iff`: in every run, that is the reply to its own command exactly when the call was made
  with nothing of an earlier command outstanding and no event in front that looks like a reply;
* `stale_reply`: an event and a late reply that a call takes for its own.
-/

import Bootsmith.Library.Fallible
import Bootsmith.Library.Peer
import Bootsmith.Library.Text
import Bootsmith.Library.Utf8

namespace Bootsmith.Eval

open Bootsmith.Library

/-! ### The client -/

def contains (pattern : String) (text : Text) : Bool := (findText pattern.toList text).isSome

/-- The text of the bytes of a line. -/
def lineText (line : Bytes) : Text := lossyChars line.length line

/-- The test of `qmp_handshake` and `screendump` for a reply. -/
def isReply (line : Text) : Bool := contains "\"return\"" line || contains "\"error\"" line

/-- A reply of QEMU is an object with a key `return` or `error`, so its line passes the test. -/
abbrev Replies (line : Bytes) : Bool := isReply (lineText line)

/-- The connection, and what will happen on it. -/
structure Session where
  link : Link Replies
  turns : List (Turn Replies)

/-- The loop of `read_qmp_line`. What is read of a line is lost when a read fails. -/
def readLineFrom (line : Bytes) (link : Link Replies) :
    List (Turn Replies) → EStateM.Result Failure Session (Received Replies)
  | [] => .error (.error ["read timed out"]) ⟨link, []⟩
  | turn :: turns =>
    match link.takeTurn turn with
    | (link, none) => readLineFrom line link turns
    | (link, some .timedOut) => .error (.error ["read timed out"]) ⟨link, turns⟩
    | (link, some .closed) => .error (.error ["qmp socket closed"]) ⟨link, turns⟩
    | (link, some (.byte value message)) =>
      if value = 10 then .ok ⟨message, line⟩ ⟨link, turns⟩ else readLineFrom (line ++ [value]) link turns

def readQmpLine : Effect Session (Received Replies) := fun session =>
  readLineFrom [] session.link session.turns

/-- Read at most so many lines. -/
def readQmpUntil (pred : Text → Bool) : Nat → Effect Session (Received Replies)
  | 0 => Effect.bail "qmp: no matching reply in 32 messages"
  | messages + 1 => do
    let received ← readQmpLine
    if pred (lineText received.line) then pure received else readQmpUntil pred messages

/-- Write a command and wait for what looks like its reply. -/
def request (command : Text) : Effect Session (Received Replies) := do
  Effect.update fun session => { session with link := session.link.ask (toUtf8 command) }
  readQmpUntil isReply 32

def qmpHandshake : Effect Session Unit := do
  let greeting ← readQmpLine
  if contains "QMP" (lineText greeting.line) then
    let _ ← request "\x7b\"execute\":\"qmp_capabilities\"\x7d\n".toList
    pure ()
  else Effect.bail ("expected QMP greeting, got: " ++ String.ofList (lineText greeting.line))

def jsonString (text : Text) : Text :=
  let escaped := text.flatMap fun char =>
    if char = '\"' then "\\\"".toList else if char = '\\' then "\\\\".toList else [char]
  "\"".toList ++ escaped ++ "\"".toList

def screendumpCommand (out : Text) : Text :=
  "\x7b\"execute\":\"screendump\",\"arguments\":\x7b\"filename\":".toList ++ jsonString out ++
    ",\"format\":\"png\"\x7d\x7d\n".toList

/-- One call; `written` tells whether the file is there afterwards. -/
def screendump (out : Text) (written : Bool) : Effect Session Unit := do
  let reply ← request (screendumpCommand out)
  if contains "\"error\"" (lineText reply.line) then
    Effect.bail ("qmp screendump error: " ++ String.ofList (lineText reply.line))
  else if !written then
    Effect.bail ("screendump returned ok but no file at " ++ String.ofList out)
  else pure ()

/-! ### Runs -/

/-- A call of `screendump` with the session it meets. -/
structure Call where
  session : Session
  out : Text
  written : Bool

/-- The loop of `run`: it goes on with the next shot after a call that failed. -/
def calls : List (Text × Bool) → Session → List Call
  | [], _ => []
  | (out, written) :: shots, session =>
    ⟨session, out, written⟩ :: calls shots ((screendump out written).after session)

/-- QEMU has sent its greeting, perhaps after some events. -/
def connect (events : List Line) (greeting : Line) : Link Replies :=
  ⟨(events ++ [greeting]).map fun line => .whole (.notice line), [], []⟩

/-- The calls of a run: the handshake, and a call for each shot. -/
def runSession (events : List Line) (greeting : Line) (turns : List (Turn Replies))
    (shots : List (Text × Bool)) : List Call :=
  match qmpHandshake.run ⟨connect events greeting, turns⟩ with
  | .ok _ session => calls shots session
  | .error _ _ => []

/-- The reply that a call acts on, if it gets one. -/
def Call.actsOn (call : Call) : Option (Received Replies) :=
  match (request (screendumpCommand call.out)).run call.session with
  | .ok reply _ => some reply
  | .error _ _ => none

/-- The number of the call's command. -/
def Call.command (call : Call) : Nat := call.session.link.requests.length

/-- The whole reply to the call's own command. -/
def Call.Own (call : Call) (reply : Received Replies) : Prop :=
  ∃ line, reply = ⟨.answer call.command line, line.bytes⟩

/-- **Nothing stands in front of the reply to come**: every earlier command is answered, no unread line, or
rest of a line that was cut off, looks like a reply, and no event does that QEMU sends before its next
reply. -/
structure Call.Undisturbed (call : Call) : Prop where
  answered : call.session.link.owed = []
  unread : ∀ packet ∈ call.session.link.wire, Replies packet.unread.bytes = false
  events : ∀ line ∈ Link.notices call.session.turns, Replies line.bytes = false

/-! ### What a call reads -/

/-- The lines the session has not read. -/
def Session.pending (session : Session) : List (Received Replies) := session.link.pending session.turns

theorem readLineFrom_pending {line : Bytes} {link : Link Replies} {turns : List (Turn Replies)}
    {received : Received Replies} {session : Session}
    (read : readLineFrom line link turns = .ok received session) :
    putBack line (link.pending turns) = received :: session.pending := by
  induction turns generalizing line link with
  | nil => cases read
  | cons turn turns ih =>
    rw [readLineFrom] at read
    split at read
    · rename_i taken
      rw [Link.pending_takeTurn taken]
      exact ih read
    · cases read
    · cases read
    · rename_i value message taken
      rcases Link.pending_cons_takeTurn taken line with ⟨feed, shape⟩ | ⟨notFeed, shape⟩
      · rw [if_pos feed] at read
        cases read
        exact shape
      · rw [if_neg notFeed] at read
        rw [shape]
        exact ih read

theorem readQmpLine_pending {session next : Session} {received : Received Replies}
    (read : readQmpLine.run session = .ok received next) : session.pending = received :: next.pending := by
  have shape := readLineFrom_pending read
  rwa [putBack_nil] at shape

/-- **A wait ends at the first line that passes the test.** -/
theorem readQmpUntil_find {pred : Text → Bool} {messages : Nat} {session next : Session}
    {received : Received Replies} (read : (readQmpUntil pred messages).run session = .ok received next) :
    session.pending.find? (fun other => pred (lineText other.line)) = some received := by
  induction messages generalizing session with
  | zero => exact ((Effect.bail_ne_ok _ _ _ _).mp read).elim
  | succ messages ih =>
    obtain ⟨first, middle, line, rest⟩ := (Effect.bind_eq_ok _ _ _ _ _).mp read
    rw [readQmpLine_pending line, List.find?_cons]
    split at rest
    · rename_i passes
      obtain ⟨rfl, -⟩ := (Effect.pure_eq_ok _ _ _ _).mp rest
      rw [passes]
    · rename_i fails
      rw [Bool.eq_false_iff.mpr fails]
      exact ih rest

/-! ### Own replies -/

theorem Call.pending_ask (call : Call) (command : Text) :
    Session.pending { call.session with link := call.session.link.ask (toUtf8 command) } =
      call.session.link.wire.map Packet.received ++
        Link.emitted (call.session.link.owed ++ [call.command]) call.session.turns := rfl

/-- What a call acts on is the first line that looks like a reply, among the unread and those to come. -/
theorem Call.actsOn_find {call : Call} {reply : Received Replies} (acts : call.actsOn = some reply) :
    (call.session.link.wire.map Packet.received ++
      Link.emitted (call.session.link.owed ++ [call.command]) call.session.turns).find?
        (fun received => Replies received.line) = some reply := by
  unfold Call.actsOn at acts
  split at acts
  · rename_i got session run
    obtain ⟨_, middle, asked, read⟩ := (Effect.bind_eq_ok _ _ _ _ _).mp run
    have sent := (Effect.update_eq_ok _ _ _ _).mp asked
    rw [← call.pending_ask (screendumpCommand call.out), sent, ← Option.some.inj acts]
    exact readQmpUntil_find read
  · cases acts

/-- A packet on the wire is of an earlier command. -/
theorem Call.not_own_of_wire {call : Call} (dated : call.session.link.Dated) {packet : Packet Replies}
    (member : packet ∈ call.session.link.wire) : ¬ call.Own packet.received := by
  rintro ⟨line, same⟩
  have message : packet.message = .answer call.command line := congrArg Received.message same
  exact Nat.lt_irrefl _ (dated.wire packet member call.command line message)

/-- **A call gets its own reply exactly when it is undisturbed.** -/
theorem Call.own_iff {call : Call} (dated : call.session.link.Dated) {reply : Received Replies}
    (acts : call.actsOn = some reply) : call.Own reply ↔ call.Undisturbed := by
  have found := call.actsOn_find acts
  rw [List.find?_append] at found
  constructor
  · intro own
    cases first : (call.session.link.wire.map Packet.received).find? fun received => Replies received.line with
    | some received =>
      -- the call acts on a line that was on the wire before its command
      rw [first] at found
      obtain ⟨packet, onWire, same⟩ := List.mem_map.mp (List.mem_of_find?_eq_some first)
      have acted : packet.received = reply := same.trans (Option.some.inj found)
      exact absurd (acted ▸ own) (call.not_own_of_wire dated onWire)
    | none =>
      rw [first, Option.none_or] at found
      obtain ⟨line, rfl⟩ := own
      cases owed : call.session.link.owed with
      | nil =>
        rw [owed] at found
        exact ⟨owed, Link.find_wire_eq_none.mp first, (Link.answer_of_find_emitted found).2⟩
      | cons request rest =>
        -- the first answer to come is the one to an earlier command
        rw [owed, List.cons_append] at found
        have earlier : request < call.command := dated.owed request (owed ▸ List.mem_cons_self)
        exact absurd (Link.answer_of_find_emitted found).1 (Nat.ne_of_gt earlier)
  · intro undisturbed
    rw [Link.find_wire_eq_none.mpr undisturbed.unread, Option.none_or, undisturbed.answered] at found
    exact Link.find_emitted_of_quiet undisturbed.events found

/-! ### What a run keeps -/

/-- The messages on the connection belong to commands that were sent. -/
def Session.Dated (session : Session) : Prop := session.link.Dated

theorem readLineFrom_dated {line : Bytes} {link : Link Replies} {turns : List (Turn Replies)}
    (dated : link.Dated) : (Effect.left (readLineFrom line link turns)).Dated := by
  induction turns generalizing line link with
  | nil => exact dated
  | cons turn turns ih =>
    have next := dated.takeTurn turn
    rw [readLineFrom]
    cases taken : link.takeTurn turn with
    | mk after arrival =>
      rw [taken] at next
      match arrival with
      | none => exact ih next
      | some .timedOut => exact next
      | some .closed => exact next
      | some (.byte value message) =>
        dsimp only
        split
        · exact next
        · exact ih next

theorem readQmpLine_keeps : Effect.Keeps Session.Dated readQmpLine := fun _ dated => readLineFrom_dated dated

theorem readQmpUntil_keeps (pred : Text → Bool) (messages : Nat) :
    Effect.Keeps Session.Dated (readQmpUntil pred messages) := by
  induction messages with
  | zero => exact Effect.keeps_bail _
  | succ messages ih =>
    refine readQmpLine_keeps.bind fun received => ?_
    split
    · exact Effect.keeps_pure _
    · exact ih

theorem request_keeps (command : Text) : Effect.Keeps Session.Dated (request command) :=
  (Effect.keeps_update fun _ dated => Link.Dated.ask dated _).bind fun _ => readQmpUntil_keeps _ _

theorem qmpHandshake_keeps : Effect.Keeps Session.Dated qmpHandshake := by
  refine readQmpLine_keeps.bind fun greeting => ?_
  split
  · exact (request_keeps _).bind fun _ => Effect.keeps_pure ()
  · exact Effect.keeps_bail _

theorem screendump_keeps (out : Text) (written : Bool) :
    Effect.Keeps Session.Dated (screendump out written) := by
  refine (request_keeps _).bind fun reply => ?_
  split
  · exact Effect.keeps_bail _
  · split
    · exact Effect.keeps_bail _
    · exact Effect.keeps_pure ()

theorem calls_dated {shots : List (Text × Bool)} {session : Session} (dated : session.Dated) :
    ∀ call ∈ calls shots session, call.session.Dated := by
  induction shots generalizing session with
  | nil => exact fun call member => absurd member List.not_mem_nil
  | cons shot shots ih =>
    intro call member
    rcases List.mem_cons.mp member with rfl | later
    · exact dated
    · exact ih (screendump_keeps shot.1 shot.2 session dated) call later

theorem connect_dated (events : List Line) (greeting : Line) : (connect events greeting).Dated := by
  refine ⟨fun request member => absurd member List.not_mem_nil, fun packet member request line same => ?_⟩
  obtain ⟨sent, -, rfl⟩ := List.mem_map.mp member
  cases same

theorem runSession_dated (events : List Line) (greeting : Line) (turns : List (Turn Replies))
    (shots : List (Text × Bool)) : ∀ call ∈ runSession events greeting turns shots, call.session.Dated := by
  have start := qmpHandshake_keeps ⟨connect events greeting, turns⟩ (connect_dated events greeting)
  unfold Effect.after at start
  unfold runSession
  cases result : qmpHandshake.run ⟨connect events greeting, turns⟩ with
  | ok value session =>
    rw [result] at start
    exact calls_dated start
  | error failure session => exact fun call member => absurd member List.not_mem_nil

/-- **In every run, whatever QEMU sends and whichever reads time out, a call that gets a reply gets its own
exactly when it is undisturbed.** -/
theorem runSession_own_iff (events : List Line) (greeting : Line) (turns : List (Turn Replies))
    (shots : List (Text × Bool)) (call : Call) (made : call ∈ runSession events greeting turns shots)
    (reply : Received Replies) (acts : call.actsOn = some reply) : call.Own reply ↔ call.Undisturbed :=
  call.own_iff (runSession_dated events greeting turns shots call made) acts

/-! ### Three runs -/

/-- What the calls of a run act on, with the numbers of their commands. -/
def actions (calls : List Call) : List (Nat × Option (Received Replies)) :=
  calls.map fun call => (call.command, call.actsOn)

theorem exists_of_actions {calls : List Call} {command : Nat} {reply : Received Replies}
    (action : (command, some reply) ∈ actions calls) :
    ∃ call ∈ calls, call.command = command ∧ call.actsOn = some reply := by
  obtain ⟨call, member, same⟩ := List.mem_map.mp action
  exact ⟨call, member, congrArg Prod.fst same, congrArg Prod.snd same⟩

def greetingLine : Line :=
  ⟨toUtf8 "\x7b\"QMP\": \x7b\"version\": \x7b\x7d, \"capabilities\": []\x7d\x7d".toList, by decide⟩

def returnLine : Answer Replies := ⟨⟨toUtf8 "\x7b\"return\": \x7b\x7d\x7d".toList, by decide⟩, by decide⟩

/-- An event whose data have an error. -/
def failedJob : Line :=
  ⟨toUtf8 "\x7b\"event\": \"BLOCK_JOB_COMPLETED\", \"data\": \x7b\"device\": \"d\", \"error\": \"no space\"\x7d\x7d".toList,
    by decide⟩

/-- A line and its line feed arrive. -/
def deliverLine (line : Line) : List (Turn Replies) := List.replicate (line.bytes.length + 1) .deliver

/-- The greeting arrives, and the handshake gets its reply. -/
def greeted : List (Turn Replies) := deliverLine greetingLine ++ .answer returnLine :: deliverLine returnLine.toLine

def shot : Text × Bool := ("/tmp/shot-0001.png".toList, true)

/-- The first call of a run in which QEMU answers is undisturbed, and gets its own reply. -/
theorem runSession_own_first :
    ∃ call ∈ runSession [] greetingLine (greeted ++ .answer returnLine :: deliverLine returnLine.toLine) [shot],
      call.actsOn = some ⟨.answer 1 returnLine, returnLine.bytes⟩ ∧
        call.Own ⟨.answer 1 returnLine, returnLine.bytes⟩ ∧ call.Undisturbed := by
  have action : (1, some ⟨.answer 1 returnLine, returnLine.bytes⟩) ∈
      actions (runSession [] greetingLine (greeted ++ .answer returnLine :: deliverLine returnLine.toLine) [shot]) := by
    decide +kernel
  obtain ⟨call, made, command, acts⟩ := exists_of_actions action
  have own : call.Own ⟨.answer 1 returnLine, returnLine.bytes⟩ := ⟨returnLine, by rw [command]⟩
  exact ⟨call, made, acts, own, (runSession_own_iff _ _ _ _ call made _ acts).mp own⟩

/-- **A call takes an event for its reply, and a call takes the late reply of the call before.** -/
theorem stale_reply :
    (∃ call ∈ runSession [] greetingLine (greeted ++ .notify failedJob :: deliverLine failedJob) [shot],
      call.actsOn = some ⟨.notice failedJob, failedJob.bytes⟩ ∧ ¬ call.Own ⟨.notice failedJob, failedJob.bytes⟩) ∧
    ∃ call ∈ runSession [] greetingLine
        (greeted ++ .timeout :: .answer returnLine :: deliverLine returnLine.toLine) [shot, shot],
      call.command = 2 ∧ call.actsOn = some ⟨.answer 1 returnLine, returnLine.bytes⟩ ∧
        ¬ call.Own ⟨.answer 1 returnLine, returnLine.bytes⟩ := by
  constructor
  · have action : (1, some ⟨.notice failedJob, failedJob.bytes⟩) ∈
        actions (runSession [] greetingLine (greeted ++ .notify failedJob :: deliverLine failedJob) [shot]) := by
      decide +kernel
    obtain ⟨call, made, -, acts⟩ := exists_of_actions action
    refine ⟨call, made, acts, ?_⟩
    rintro ⟨line, same⟩
    cases congrArg Received.message same
  · have action : (2, some ⟨.answer 1 returnLine, returnLine.bytes⟩) ∈ actions (runSession [] greetingLine
        (greeted ++ .timeout :: .answer returnLine :: deliverLine returnLine.toLine) [shot, shot]) := by
      decide +kernel
    obtain ⟨call, made, second, acts⟩ := exists_of_actions action
    refine ⟨call, made, second, acts, ?_⟩
    rintro ⟨line, same⟩
    have number := (Message.answer.inj (congrArg Received.message same)).1
    rw [second] at number
    exact absurd number (by decide)

end Bootsmith.Eval
