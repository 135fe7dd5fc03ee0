/-
**A peer that answers requests in order over a line protocol.**

The peer sends notices when it likes, and one answer for each request, oldest first. The schedule of a
run is a list of turns: the peer sends something, a byte arrives at the reader, or a read ends without
one. What is `pending` are the lines that a reader gets to see if nothing cuts it off: those on the wire,
then those the schedule still brings.

* `pending_takeTurn`, `pending_cons_takeTurn`: what a turn does to the pending lines;
* `find_emitted`: the first answer still to come answers the oldest request.
-/

import Bootsmith.Library.Image

namespace Bootsmith.Library

/-- A line without its line feed. -/
structure Line where
  bytes : Bytes
  single : (10 : UInt8) ∉ bytes
  deriving DecidableEq

/-- A line that answers a request. -/
structure Answer (Answers : Bytes → Bool) extends Line where
  answers : Answers bytes = true
  deriving DecidableEq

/-- A message of the peer; an answer comes with the number of its request. -/
inductive Message (Answers : Bytes → Bool)
  | notice (line : Line)
  | answer (request : Nat) (line : Answer Answers)
  deriving DecidableEq

variable {Answers : Bytes → Bool}

def Message.line : Message Answers → Line
  | .notice line => line
  | .answer _ line => line.toLine

/-- A message on the wire, and the bytes of it that are not read yet. -/
structure Packet (Answers : Bytes → Bool) where
  message : Message Answers
  unread : Line

/-- A line as a reader sees it: what it read, and the message whose end it is. -/
structure Received (Answers : Bytes → Bool) where
  message : Message Answers
  line : Bytes
  deriving DecidableEq

def Packet.whole (message : Message Answers) : Packet Answers := ⟨message, message.line⟩

def Packet.received (packet : Packet Answers) : Received Answers := ⟨packet.message, packet.unread.bytes⟩

/-- What happens next. -/
inductive Turn (Answers : Bytes → Bool)
  | notify (line : Line)
  | answer (line : Answer Answers)
  | deliver
  | timeout
  | hangUp

/-- What a read gives. -/
inductive Arrival (Answers : Bytes → Bool)
  | byte (value : UInt8) (message : Message Answers)
  | timedOut
  | closed

/-- The messages on the wire, the requests that are not answered yet, and the requests so far. -/
structure Link (Answers : Bytes → Bool) where
  wire : List (Packet Answers)
  owed : List Nat
  requests : List Bytes

namespace Link

/-- A request goes to the peer. -/
def ask (link : Link Answers) (request : Bytes) : Link Answers :=
  { link with owed := link.owed ++ [link.requests.length], requests := link.requests ++ [request] }

/-- The peer answers the oldest request, if there is one. -/
def answerOldest (link : Link Answers) (line : Answer Answers) : Link Answers :=
  match link.owed with
  | [] => link
  | request :: owed => { link with wire := link.wire ++ [.whole (.answer request line)], owed := owed }

/-- The next byte on the wire arrives, if there is one. -/
def deliver (link : Link Answers) : Link Answers × Option (Arrival Answers) :=
  match link.wire with
  | [] => (link, none)
  | ⟨message, ⟨[], _⟩⟩ :: wire => ({ link with wire := wire }, some (.byte 10 message))
  | ⟨message, ⟨value :: rest, single⟩⟩ :: wire =>
    ({ link with wire := ⟨message, ⟨rest, fun member => single (List.mem_cons_of_mem _ member)⟩⟩ :: wire },
      some (.byte value message))

/-- One turn. -/
def takeTurn (link : Link Answers) : Turn Answers → Link Answers × Option (Arrival Answers)
  | .notify line => ({ link with wire := link.wire ++ [.whole (.notice line)] }, none)
  | .answer line => (link.answerOldest line, none)
  | .deliver => link.deliver
  | .timeout => (link, some .timedOut)
  | .hangUp => (link, some .closed)

/-- What the schedule still brings. -/
def emitted : List Nat → List (Turn Answers) → List (Received Answers)
  | _, [] => []
  | owed, .notify line :: turns => ⟨.notice line, line.bytes⟩ :: emitted owed turns
  | request :: owed, .answer line :: turns => ⟨.answer request line, line.bytes⟩ :: emitted owed turns
  | owed, _ :: turns => emitted owed turns

/-- The lines that are not read yet, in order. -/
def pending (link : Link Answers) (turns : List (Turn Answers)) : List (Received Answers) :=
  link.wire.map Packet.received ++ emitted link.owed turns

end Link

/-- The lines with what is already read of the first put back in front of it. -/
def putBack (line : Bytes) : List (Received Answers) → List (Received Answers)
  | [] => []
  | first :: rest => ⟨first.message, line ++ first.line⟩ :: rest

theorem putBack_nil (lines : List (Received Answers)) : putBack [] lines = lines := by
  cases lines <;> rfl

namespace Link

variable {link next : Link Answers} {turn : Turn Answers} {turns : List (Turn Answers)}

theorem pending_takeTurn (taken : link.takeTurn turn = (next, none)) :
    link.pending (turn :: turns) = next.pending turns := by
  cases turn with
  | notify line =>
    cases taken
    simp [pending, emitted, Packet.received, Packet.whole, Message.line]
  | answer line =>
    have same : link.answerOldest line = next := congrArg Prod.fst taken
    rw [← same]
    unfold pending answerOldest
    cases shape : link.owed with
    | nil =>
      simp only [shape]
      rfl
    | cons request owed => simp [emitted, Packet.received, Packet.whole, Message.line]
  | deliver =>
    change link.deliver = _ at taken
    unfold deliver at taken
    split at taken
    · cases taken
      unfold pending
      cases link.owed <;> rfl
    · cases taken
    · cases taken
  | timeout => cases taken
  | hangUp => cases taken

/-- A byte that arrives is the next of the first pending line, or its line feed. -/
theorem pending_cons_takeTurn {value : UInt8} {message : Message Answers}
    (taken : link.takeTurn turn = (next, some (.byte value message))) (line : Bytes) :
    (value = 10 ∧ putBack line (link.pending (turn :: turns)) = ⟨message, line⟩ :: next.pending turns) ∨
      (value ≠ 10 ∧ putBack line (link.pending (turn :: turns)) = putBack (line ++ [value]) (next.pending turns)) := by
  cases turn with
  | notify line => cases taken
  | answer line => cases taken
  | deliver =>
    have same : ∀ owed, emitted owed (Turn.deliver :: turns) = emitted owed turns := by
      intro owed
      cases owed <;> rfl
    change link.deliver = _ at taken
    unfold deliver at taken
    split at taken
    · cases taken
    · rename_i shape
      cases taken
      refine Or.inl ⟨rfl, ?_⟩
      simp [pending, shape, putBack, Packet.received, same]
    · rename_i single wire shape
      cases taken
      refine Or.inr ⟨fun feed => single (feed ▸ List.mem_cons_self), ?_⟩
      simp [pending, shape, putBack, Packet.received, same]
  | timeout => cases taken
  | hangUp => cases taken

/-! ### Requests and their numbers -/

/-- What is owed or on the wire belongs to requests that were made. -/
structure Dated (link : Link Answers) : Prop where
  owed : ∀ request ∈ link.owed, request < link.requests.length
  wire : ∀ packet ∈ link.wire, ∀ request line, packet.message = .answer request line →
    request < link.requests.length

theorem Dated.ask (dated : Dated link) (request : Bytes) : Dated (link.ask request) := by
  refine ⟨fun number member => ?_, fun packet member number line shape => ?_⟩
  · change number < (link.requests ++ [request]).length
    rw [List.length_append]
    rcases List.mem_append.mp member with before | last
    · exact Nat.lt_succ_of_lt (dated.owed number before)
    · rw [List.mem_singleton.mp last]
      exact Nat.lt_succ_self _
  · change number < (link.requests ++ [request]).length
    rw [List.length_append]
    exact Nat.lt_succ_of_lt (dated.wire packet member number line shape)

theorem Dated.answerOldest (dated : Dated link) (line : Answer Answers) :
    Dated (link.answerOldest line) := by
  unfold Link.answerOldest
  split
  · exact dated
  · rename_i request owed shape
    have known : request < link.requests.length := dated.owed request (shape ▸ List.mem_cons_self)
    refine ⟨fun number member => dated.owed number (shape ▸ List.mem_cons_of_mem _ member), ?_⟩
    intro packet member number answer same
    rcases List.mem_append.mp member with before | last
    · exact dated.wire packet before number answer same
    · rw [List.mem_singleton.mp last] at same
      obtain ⟨rfl, -⟩ := Message.answer.inj same
      exact known

theorem Dated.deliver (dated : Dated link) : Dated link.deliver.1 := by
  unfold Link.deliver
  split
  · exact dated
  · rename_i shape
    exact ⟨dated.owed, fun packet member => dated.wire packet (shape ▸ List.mem_cons_of_mem _ member)⟩
  · rename_i message value rest single wire shape
    refine ⟨dated.owed, fun packet member number answer same => ?_⟩
    rcases List.mem_cons.mp member with first | inRest
    · rw [first] at same
      have onWire : ⟨message, ⟨value :: rest, single⟩⟩ ∈ link.wire := by
        rw [shape]
        exact List.mem_cons_self
      exact dated.wire _ onWire number answer same
    · exact dated.wire packet (shape ▸ List.mem_cons_of_mem _ inRest) number answer same

theorem Dated.takeTurn (dated : Dated link) (turn : Turn Answers) : Dated (link.takeTurn turn).1 := by
  cases turn with
  | notify line =>
    refine ⟨dated.owed, fun packet member number answer shape => ?_⟩
    rcases List.mem_append.mp member with before | last
    · exact dated.wire packet before number answer shape
    · rw [List.mem_singleton.mp last] at shape
      cases shape
  | answer line => exact dated.answerOldest line
  | deliver => exact dated.deliver
  | timeout => exact dated
  | hangUp => exact dated

/-! ### The first answer to come -/

/-- The notices that come before the next answer. -/
def notices : List (Turn Answers) → List Line
  | [] => []
  | .notify line :: turns => line :: notices turns
  | .answer _ :: _ => []
  | _ :: turns => notices turns

/-- The next answer. -/
def nextAnswer : List (Turn Answers) → Option (Answer Answers)
  | [] => none
  | .answer line :: _ => some line
  | _ :: turns => nextAnswer turns

/-- **The first line that looks like an answer** is a notice that comes before the next answer, or the
answer to the oldest request. -/
theorem find_emitted (request : Nat) (owed : List Nat) (turns : List (Turn Answers)) :
    (emitted (request :: owed) turns).find? (fun received => Answers received.line) =
      (((notices turns).find? fun line => Answers line.bytes).map fun line => ⟨.notice line, line.bytes⟩).or
        ((nextAnswer turns).map fun line => ⟨.answer request line, line.bytes⟩) := by
  induction turns with
  | nil => rfl
  | cons turn turns ih =>
    cases turn with
    | notify line =>
      rw [emitted, notices, nextAnswer, List.find?_cons, List.find?_cons]
      · cases matched : Answers line.bytes with
        | true => rfl
        | false => exact ih
      · exact fun _ shape => by cases shape
    | answer line =>
      rw [emitted, List.find?_cons, line.answers]
      rfl
    | deliver => exact ih
    | timeout => exact ih
    | hangUp => exact ih

/-- If it is an answer, no notice in front looks like one, and it is the oldest request's. -/
theorem answer_of_find_emitted {request number : Nat} {owed : List Nat} {line : Answer Answers}
    {bytes : Bytes}
    (found : (emitted (request :: owed) turns).find? (fun received => Answers received.line) =
      some ⟨.answer number line, bytes⟩) :
    number = request ∧ ∀ notice ∈ notices turns, Answers notice.bytes = false := by
  rw [find_emitted] at found
  cases first : (notices turns).find? fun notice => Answers notice.bytes with
  | some notice =>
    rw [first] at found
    cases found
  | none =>
    rw [first, Option.map_none, Option.none_or] at found
    obtain ⟨answer, -, same⟩ := Option.map_eq_some_iff.mp found
    cases same
    exact ⟨rfl, fun notice member => Bool.eq_false_iff.mpr (List.find?_eq_none.mp first notice member)⟩

/-- If no notice in front of the next answer looks like one, it is the answer to the oldest request. -/
theorem find_emitted_of_quiet {request : Nat} {owed : List Nat} {received : Received Answers}
    (quiet : ∀ notice ∈ notices turns, Answers notice.bytes = false)
    (found : (emitted (request :: owed) turns).find? (fun other => Answers other.line) = some received) :
    ∃ line, received = ⟨.answer request line, line.bytes⟩ := by
  have none : ((notices turns).find? fun notice => Answers notice.bytes) = none :=
    List.find?_eq_none.mpr fun notice member => by rw [quiet notice member]; exact Bool.false_ne_true
  rw [find_emitted, none, Option.map_none, Option.none_or] at found
  obtain ⟨line, -, same⟩ := Option.map_eq_some_iff.mp found
  exact ⟨line, same.symm⟩

/-- No line on the wire looks like an answer. -/
theorem find_wire_eq_none {wire : List (Packet Answers)} :
    (wire.map Packet.received).find? (fun received => Answers received.line) = none ↔
      ∀ packet ∈ wire, Answers packet.unread.bytes = false := by
  rw [List.find?_map, Option.map_eq_none_iff, List.find?_eq_none]
  exact forall₂_congr fun packet _ => Bool.eq_false_iff.symm

end Link

end Bootsmith.Library
