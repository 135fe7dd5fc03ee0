/-
**Programs that talk to their environment.**

A program asks calls and goes on with the answers, so what it asks depends on what it was told. Nothing is
assumed about the environment: a trace is a run with any answers at all.

* `Traces`: the runs of a program, and what it returns;
* `Upholds`: a rule about each call and the events before it, and a postcondition; `Upholds.permits` and
  `Upholds.holds` say what it means for a trace;
* `Triple`: the rules for an `Exchange`, a program that may fail, with what holds when it returns a value
  and when it fails;
* `Asks`: the calls a program can ask at all, and what they keep (`Asks.triple`).
-/

import Bootsmith.Library.Fallible

namespace Bootsmith.Library

/-- A program that asks its environment and goes on with the answer. -/
inductive Program (Call : Type) (Answer : Call → Type) (α : Type)
  | done (value : α)
  | ask (call : Call) (next : Answer call → Program Call Answer α)

/-- A call and its answer. -/
structure Event {Call : Type} (Answer : Call → Type) where
  call : Call
  answer : Answer call

/-- What has been asked so far, and what was answered. -/
abbrev Past {Call : Type} (Answer : Call → Type) := List (Event Answer)

/-! ### Events that demand something later -/

section Followed

variable {Call : Type} {Answer : Call → Type} {demand : Event Answer → Past Answer → Prop} {past more : Past Answer}
  {event : Event Answer}

/-- **What each event demands of the events after it came.** -/
def Followed (demand : Event Answer → Past Answer → Prop) (past : Past Answer) : Prop :=
  ∀ before event after, past = before ++ event :: after → demand event after

/-- Events behind, of which each is followed by what it demands. -/
theorem Followed.append (grows : ∀ event after more, demand event after → demand event (after ++ more))
    (followed : Followed demand past) (rest : Followed demand more) : Followed demand (past ++ more) := by
  intro before event after split
  rcases List.append_eq_append_iff.mp split with ⟨front, rfl, behind⟩ | ⟨front, rfl, behind⟩
  · exact rest front event after behind
  · cases front with
    | nil =>
      rw [List.nil_append] at behind
      exact rest [] event after behind.symm
    | cons first front =>
      obtain ⟨rfl, rfl⟩ := List.cons.inj behind
      exact grows event front more (followed before event front rfl)

theorem Followed.cons (now : demand event past) (rest : Followed demand past) :
    Followed demand (event :: past) := by
  intro before other after split
  cases before with
  | nil =>
    obtain ⟨rfl, rfl⟩ := List.cons.inj split
    exact now
  | cons first before => exact rest before other after (List.cons.inj split).2

/-- Events that demand nothing. -/
theorem followed_of_free (free : ∀ event ∈ past, ∀ after, demand event after) : Followed demand past := by
  rintro before event after rfl
  exact free event (by simp) after

end Followed

namespace Program

variable {Call : Type} {Answer : Call → Type} {α β : Type}

def bind : Program Call Answer α → (α → Program Call Answer β) → Program Call Answer β
  | done value, next => next value
  | ask call rest, next => ask call fun answer => (rest answer).bind next

/-- **The runs of a program**: what it asked, what it was told, and what it returned. -/
inductive Traces : Program Call Answer α → Past Answer → α → Prop
  | done (value : α) : Traces (.done value) [] value
  | ask {call : Call} {next : Answer call → Program Call Answer α} {trace : Past Answer} {value : α}
      (answer : Answer call) (rest : Traces (next answer) trace value) :
      Traces (.ask call next) (⟨call, answer⟩ :: trace) value

theorem Traces.bind {program : Program Call Answer α} {next : α → Program Call Answer β}
    {first rest : Past Answer} {value : α} {result : β} (traces : Traces program first value)
    (goesOn : Traces (next value) rest result) : Traces (program.bind next) (first ++ rest) result := by
  induction traces with
  | done value => exact goesOn
  | ask answer traces ih => exact .ask answer (ih goesOn)

/-! ### Rules about the events before a call -/

/-- **The program follows a rule**: each call is allowed after the events before it, and what it returns
satisfies the postcondition. -/
def Upholds (allowed : Past Answer → Call → Prop) (post : α → Past Answer → Prop) :
    Program Call Answer α → Past Answer → Prop
  | done value, past => post value past
  | ask call next, past =>
    allowed past call ∧ ∀ answer, Upholds allowed post (next answer) (past ++ [⟨call, answer⟩])

section Upholds

variable {allowed : Past Answer → Call → Prop} {post : α → Past Answer → Prop}
  {program : Program Call Answer α} {past trace : Past Answer} {value : α}

theorem Upholds.mono {post' : α → Past Answer → Prop} (upholds : Upholds allowed post program past)
    (implies : ∀ value past, post value past → post' value past) : Upholds allowed post' program past := by
  induction program generalizing past with
  | done value => exact implies value past upholds
  | ask call next ih => exact ⟨upholds.1, fun answer => ih answer (upholds.2 answer)⟩

theorem Upholds.weaken {allowed' : Past Answer → Call → Prop} (upholds : Upholds allowed post program past)
    (implies : ∀ past call, allowed past call → allowed' past call) : Upholds allowed' post program past := by
  induction program generalizing past with
  | done value => exact upholds
  | ask call next ih => exact ⟨implies past call upholds.1, fun answer => ih answer (upholds.2 answer)⟩

theorem upholds_trivial : Upholds (fun _ _ => True) (fun _ _ => True) program past := by
  induction program generalizing past with
  | done value => trivial
  | ask call next ih => exact ⟨trivial, fun answer => ih answer⟩

/-- Two rules, and two postconditions. -/
theorem Upholds.and {allowed' : Past Answer → Call → Prop} {post' : α → Past Answer → Prop}
    (first : Upholds allowed post program past) (second : Upholds allowed' post' program past) :
    Upholds (fun past call => allowed past call ∧ allowed' past call)
      (fun value past => post value past ∧ post' value past) program past := by
  induction program generalizing past with
  | done value => exact ⟨first, second⟩
  | ask call next ih => exact ⟨⟨first.1, second.1⟩, fun answer => ih answer (first.2 answer) (second.2 answer)⟩

/-- A program followed by another. -/
theorem Upholds.bind {next : α → Program Call Answer β} {post : β → Past Answer → Prop}
    (upholds : Upholds allowed (fun value => Upholds allowed post (next value)) program past) :
    Upholds allowed post (program.bind next) past := by
  induction program generalizing past with
  | done value => exact upholds
  | ask call rest ih => exact ⟨upholds.1, fun answer => ih answer (upholds.2 answer)⟩

/-- **What is returned satisfies the postcondition** after all events. -/
theorem Upholds.holds (upholds : Upholds allowed post program past) (traces : Traces program trace value) :
    post value (past ++ trace) := by
  induction traces generalizing past with
  | done value => rwa [List.append_nil]
  | ask answer rest ih =>
    have later := ih (upholds.2 answer)
    rwa [List.append_assoc] at later

/-- **Each call of a trace is allowed** after the events before it. -/
theorem Upholds.permits (upholds : Upholds allowed post program past) (traces : Traces program trace value)
    {before after : Past Answer} {event : Event Answer} (split : trace = before ++ event :: after) :
    allowed (past ++ before) event.call := by
  induction traces generalizing past before with
  | done value => exact absurd split.symm (by simp)
  | ask answer rest ih =>
    cases before with
    | nil =>
      obtain ⟨rfl, -⟩ := List.cons.inj split
      rw [List.append_nil]
      exact upholds.1
    | cons first before =>
      obtain ⟨rfl, same⟩ := List.cons.inj split
      have later := ih (upholds.2 answer) same
      rwa [List.append_assoc] at later

end Upholds

/-! ### The calls of a program -/

/-- The program asks only calls of a kind. -/
def Asks (among : Call → Prop) : Program Call Answer α → Prop
  | done _ => True
  | ask call next => among call ∧ ∀ answer, Asks among (next answer)

theorem Asks.bind {among : Call → Prop} {program : Program Call Answer α}
    {next : α → Program Call Answer β} (asks : Asks among program) (rest : ∀ value, Asks among (next value)) :
    Asks among (program.bind next) := by
  induction program with
  | done value => exact rest value
  | ask call next ih => exact ⟨asks.1, fun answer => ih answer (asks.2 answer)⟩

/-- Every program asks calls of some kind. -/
theorem asks_any {program : Program Call Answer α} : Asks (fun _ => True) program := by
  induction program with
  | done value => trivial
  | ask call next ih => exact ⟨trivial, ih⟩

theorem Asks.mono {among among' : Call → Prop} {program : Program Call Answer α} (asks : Asks among program)
    (implies : ∀ call, among call → among' call) : Asks among' program := by
  induction program with
  | done value => trivial
  | ask call next ih => exact ⟨implies call asks.1, fun answer => ih answer (asks.2 answer)⟩

/-- Calls that are allowed and keep a fact about the past. -/
theorem Asks.upholds {among : Call → Prop} {program : Program Call Answer α} (asks : Asks among program)
    {allowed : Past Answer → Call → Prop} {inv : Past Answer → Prop}
    (quiet : ∀ past call, among call → inv past →
      allowed past call ∧ ∀ answer, inv (past ++ [⟨call, answer⟩]))
    {past : Past Answer} (holds : inv past) :
    Upholds allowed (fun _ past => inv past) program past := by
  induction program generalizing past with
  | done value => exact holds
  | ask call next ih =>
    obtain ⟨permitted, keeps⟩ := quiet past call asks.1 holds
    exact ⟨permitted, fun answer => ih answer (asks.2 answer) (keeps answer)⟩

end Program

/-! ### Programs that may fail -/

/-- A program that may fail. -/
def Exchange (Call : Type) (Answer : Call → Type) (α : Type) := Program Call Answer (Fallible α)

namespace Exchange

variable {Call : Type} {Answer : Call → Type} {α β : Type}

/-- Go on with a value, or stop with the failure. -/
def follow (next : α → Exchange Call Answer β) : Fallible α → Program Call Answer (Fallible β)
  | .ok value => next value
  | .error failure => .done (.error failure)

instance : Monad (Exchange Call Answer) where
  pure value := Program.done (.ok value)
  bind first next := Program.bind first (follow next)

/-- A fallible call that asks nothing. -/
def lift (call : Fallible α) : Exchange Call Answer α := Program.done call

/-- Fail with one message. -/
def bail (message : String) : Exchange Call Answer α := lift (Fallible.bail message)

/-- Ask one call, and read its answer. -/
def ask (call : Call) (reading : Answer call → Fallible α) : Exchange Call Answer α :=
  Program.ask call fun answer => .done (reading answer)

/-- Put a message in front of the chain of an error. -/
def context (message : String) (program : Exchange Call Answer α) : Exchange Call Answer α :=
  Program.bind program fun result => .done (Fallible.context message result)

/-- The result as a value. A panic goes on. -/
def caught : Fallible α → Fallible (Fallible α)
  | .error .panic => .error .panic
  | .error (.error chain) => .ok (.error (.error chain))
  | .ok value => .ok (.ok value)

/-- Keep the result of a program and go on. -/
def attempt (program : Exchange Call Answer α) : Exchange Call Answer (Fallible α) :=
  Program.bind program fun result => .done (caught result)

/-- Ask a call at the end, whatever the program returned: what is dropped there. -/
def dropping (call : Call) (program : Exchange Call Answer α) : Exchange Call Answer α :=
  Program.bind program fun result => .ask call fun _ => .done result

/-- What holds at the end, of a value that was returned or after a failure. -/
def Ends (good : α → Past Answer → Prop) (bad : Past Answer → Prop) :
    Fallible α → Past Answer → Prop
  | .ok value, past => good value past
  | .error _, past => bad past

/-- What holds of both ends. -/
theorem Ends.both {inv : Past Answer → Prop} {result : Fallible α} {past : Past Answer}
    (ends : Ends (fun _ => inv) inv result past) : inv past := by
  cases result <;> exact ends

/-- **From a past that satisfies the precondition** the program follows the rule, and ends well or badly. -/
def Triple (allowed : Past Answer → Call → Prop) (pre : Past Answer → Prop)
    (program : Exchange Call Answer α) (good : α → Past Answer → Prop) (bad : Past Answer → Prop) : Prop :=
  ∀ past, pre past → Program.Upholds allowed (Ends good bad) program past

section Triple

variable {allowed : Past Answer → Call → Prop} {pre bad : Past Answer → Prop}
  {good : α → Past Answer → Prop} {program : Exchange Call Answer α}

theorem Triple.bind {middle : α → Past Answer → Prop} {next : α → Exchange Call Answer β}
    {good : β → Past Answer → Prop} (first : Triple allowed pre program middle bad)
    (rest : ∀ value, Triple allowed (middle value) (next value) good bad) :
    Triple allowed pre (program >>= next) good bad := by
  refine fun past holds => Program.Upholds.bind ((first past holds).mono fun result past ends => ?_)
  cases result with
  | ok value => exact rest value past ends
  | error failure => exact ends

/-- The same, by what holds in between. -/
theorem Triple.through (middle : α → Past Answer → Prop) {next : α → Exchange Call Answer β}
    {good : β → Past Answer → Prop} (first : Triple allowed pre program middle bad)
    (rest : ∀ value, Triple allowed (middle value) (next value) good bad) :
    Triple allowed pre (program >>= next) good bad :=
  first.bind rest

theorem Triple.pure {value : α} (holds : ∀ past, pre past → good value past) :
    Triple allowed pre (pure value : Exchange Call Answer α) good bad :=
  fun past start => holds past start

theorem Triple.lift {call : Fallible α} (returns : ∀ value, call = .ok value → ∀ past, pre past → good value past)
    (fails : ∀ failure, call = .error failure → ∀ past, pre past → bad past) :
    Triple allowed pre (Exchange.lift call : Exchange Call Answer α) good bad := by
  intro past holds
  cases call with
  | ok value => exact returns value rfl past holds
  | error failure => exact fails failure rfl past holds

/-- A call that asks nothing, followed by a program. -/
theorem Triple.liftThen {call : Fallible α} {next : α → Exchange Call Answer β} {good : β → Past Answer → Prop}
    (rest : ∀ value, call = .ok value → Triple allowed pre (next value) good bad)
    (fails : ∀ past, pre past → bad past) : Triple allowed pre (Exchange.lift call >>= next) good bad := by
  intro past holds
  cases call with
  | ok value => exact rest value rfl past holds
  | error failure => exact fails past holds

theorem Triple.bail {message : String} (fails : ∀ past, pre past → bad past) :
    Triple allowed pre (bail message : Exchange Call Answer α) good bad :=
  fun past holds => fails past holds

/-- One call: what it may be asked after, and what holds after each answer. -/
theorem Triple.ask {call : Call} {reading : Answer call → Fallible α}
    (permitted : ∀ past, pre past → allowed past call)
    (ends : ∀ past answer, pre past → Ends good bad (reading answer) (past ++ [⟨call, answer⟩])) :
    Triple allowed pre (Exchange.ask call reading) good bad :=
  fun past holds => ⟨permitted past holds, fun answer => ends past answer holds⟩

/-- One call, followed by a program, from a past that is known. -/
theorem Triple.askThen {call : Call} {reading : Answer call → Fallible β} {next : β → Exchange Call Answer α}
    {past : Past Answer} (permitted : allowed past call)
    (rest : ∀ answer value, reading answer = .ok value →
      Triple allowed (· = past ++ [⟨call, answer⟩]) (next value) good bad)
    (fails : ∀ answer failure, reading answer = .error failure → bad (past ++ [⟨call, answer⟩])) :
    Triple allowed (· = past) (Exchange.ask call reading >>= next) good bad := by
  rintro _ rfl
  refine ⟨permitted, fun answer => ?_⟩
  show Program.Upholds allowed (Ends good bad) (follow next (reading answer)) _
  cases returned : reading answer with
  | ok value => exact rest answer value returned _ rfl
  | error failure => exact fails answer failure returned

theorem Triple.mono {pre' bad' : Past Answer → Prop} {good' : α → Past Answer → Prop}
    (triple : Triple allowed pre program good bad) (before : ∀ past, pre' past → pre past)
    (returns : ∀ value past, good value past → good' value past) (fails : ∀ past, bad past → bad' past) :
    Triple allowed pre' program good' bad' := by
  refine fun past holds => (triple past (before past holds)).mono fun result past ends => ?_
  cases result with
  | ok value => exact returns value past ends
  | error failure => exact fails past ends

/-- What is known of every value that a program returns. -/
def Yields (program : Exchange Call Answer α) (post : α → Prop) : Prop :=
  Triple (fun _ _ => True) (fun _ => True) program (fun value _ => post value) fun _ => True

/-- A triple with what is known of the value. -/
theorem Triple.yields {post : α → Prop} (triple : Triple allowed pre program good bad)
    (yields : Yields program post) :
    Triple allowed pre program (fun value past => good value past ∧ post value) bad := by
  refine fun past holds => (((triple past holds).and (yields past trivial)).weaken fun _ _ => And.left).mono
    fun result past ends => ?_
  cases result with
  | ok value => exact ends
  | error failure => exact ends.1

/-- A program that returns one value only. -/
theorem Triple.bindOnly {middle : α → Past Answer → Prop} {next : α → Exchange Call Answer β}
    {good : β → Past Answer → Prop} {value : α} (first : Triple allowed pre program middle bad)
    (yields : Yields program (· = value)) (rest : Triple allowed (middle value) (next value) good bad) :
    Triple allowed pre (program >>= next) good bad := by
  refine Triple.bind (Triple.yields first yields) fun other past found => ?_
  rw [found.2]
  exact rest past (found.2 ▸ found.1)

theorem Yields.bind {next : α → Exchange Call Answer β} {post : β → Prop}
    (rest : ∀ value, Yields (next value) post) : Yields (program >>= next) post := by
  refine fun past _ => Program.Upholds.bind (Program.upholds_trivial.mono fun result past _ => ?_)
  cases result with
  | ok value => exact rest value past trivial
  | error failure => trivial

theorem Triple.context {message : String} (triple : Triple allowed pre program good bad) :
    Triple allowed pre (context message program) good bad := by
  refine fun past holds => Program.Upholds.bind ((triple past holds).mono fun result past ends => ?_)
  cases result with
  | ok value => exact ends
  | error failure => cases failure <;> exact ends

/-- A result that is kept: what held after the failure holds of the result. -/
theorem Triple.attempt (triple : Triple allowed pre program good bad) :
    Triple allowed pre (attempt program) (Ends good bad) bad := by
  refine fun past holds => Program.Upholds.bind ((triple past holds).mono fun result past ends => ?_)
  cases result with
  | ok value => exact ends
  | error failure => cases failure <;> exact ends

theorem Triple.dropping {call : Call} {good' : α → Past Answer → Prop} {bad' : Past Answer → Prop}
    (triple : Triple allowed pre program good bad)
    (returned : ∀ value past, good value past →
      allowed past call ∧ ∀ answer, good' value (past ++ [⟨call, answer⟩]))
    (failed : ∀ past, bad past → allowed past call ∧ ∀ answer, bad' (past ++ [⟨call, answer⟩])) :
    Triple allowed pre (dropping call program) good' bad' := by
  refine fun past holds => Program.Upholds.bind ((triple past holds).mono fun result past ends => ?_)
  cases result with
  | ok value => exact returned value past ends
  | error failure => exact failed past ends

end Triple

/-! ### The calls of a program that may fail -/

section Asks

variable {among : Call → Prop} {program : Exchange Call Answer α}

theorem asks_pure (value : α) : Program.Asks among (pure value : Exchange Call Answer α) := trivial

theorem asks_lift (call : Fallible α) : Program.Asks among (lift call : Exchange Call Answer α) := trivial

theorem asks_bail (message : String) : Program.Asks among (bail message : Exchange Call Answer α) := trivial

theorem asks_ask {call : Call} {reading : Answer call → Fallible α} (member : among call) :
    Program.Asks among (ask call reading) :=
  ⟨member, fun _ => trivial⟩

theorem asks_bind {next : α → Exchange Call Answer β} (first : Program.Asks among program)
    (rest : ∀ value, Program.Asks among (next value)) :
    Program.Asks among (program >>= next : Exchange Call Answer β) := by
  refine Program.Asks.bind first fun result => ?_
  cases result with
  | ok value => exact rest value
  | error failure => trivial

theorem asks_context {message : String} (asks : Program.Asks among program) :
    Program.Asks among (context message program) :=
  Program.Asks.bind asks fun _ => trivial

theorem asks_attempt (asks : Program.Asks among program) : Program.Asks among (attempt program) :=
  Program.Asks.bind asks fun _ => trivial

theorem asks_dropping {call : Call} (member : among call) (asks : Program.Asks among program) :
    Program.Asks among (dropping call program) :=
  Program.Asks.bind asks fun _ => ⟨member, fun _ => trivial⟩

/-- **Calls that are allowed and keep a fact about the past** keep it to the end. -/
theorem triple_of_asks {allowed : Past Answer → Call → Prop} {inv : Past Answer → Prop}
    (asks : Program.Asks among program)
    (quiet : ∀ past call, among call → inv past →
      allowed past call ∧ ∀ answer, inv (past ++ [⟨call, answer⟩])) :
    Triple allowed inv program (fun _ => inv) inv := by
  refine fun past holds => (asks.upholds quiet holds).mono fun result past kept => ?_
  cases result <;> exact kept

end Asks

/-! ### Programs that do not panic -/

/-- The program never panics, whatever it is told. -/
def Calm : Program Call Answer (Fallible α) → Prop
  | .done result => Fallible.NoPanic result
  | .ask _ next => ∀ answer, Calm (next answer)

section Calm

variable {program : Exchange Call Answer α}

theorem calm_pure (value : α) : Calm (pure value : Exchange Call Answer α) := Fallible.noPanic_ok value

theorem calm_lift {call : Fallible α} (calm : Fallible.NoPanic call) :
    Calm (lift call : Exchange Call Answer α) := calm

theorem calm_ask {call : Call} {reading : Answer call → Fallible α}
    (calm : ∀ answer, Fallible.NoPanic (reading answer)) : Calm (ask call reading) := calm

theorem calm_andThen {next : Fallible α → Program Call Answer (Fallible β)} (first : Calm program)
    (rest : ∀ result, Fallible.NoPanic result → Calm (next result)) : Calm (Program.bind program next) := by
  induction program with
  | done result => exact rest result first
  | ask call more ih => exact fun answer => ih answer (first answer)

theorem calm_bind {next : α → Exchange Call Answer β} (first : Calm program)
    (rest : ∀ value, Calm (next value)) : Calm (program >>= next : Exchange Call Answer β) := by
  refine calm_andThen first fun result calm => ?_
  cases result with
  | ok value => exact rest value
  | error failure => exact fun panics => calm (congrArg Except.error (Except.error.inj panics))

theorem calm_context {message : String} (calm : Calm program) : Calm (context message program) := by
  refine calm_andThen calm fun result quiet => ?_
  cases result with
  | ok value => exact Fallible.noPanic_ok value
  | error failure =>
    cases failure with
    | error chain => exact fun panics => by cases panics
    | panic => exact absurd rfl quiet

/-- A program that never panics always hands its result on. -/
theorem Triple.attempt_calm {allowed : Past Answer → Call → Prop} {pre bad bad' : Past Answer → Prop}
    {good : α → Past Answer → Prop} (triple : Triple allowed pre program good bad) (calm : Calm program) :
    Triple allowed pre (Exchange.attempt program) (Ends good bad) bad' := by
  refine fun past holds => ?_
  have ends := triple past holds
  clear triple holds
  unfold Exchange.attempt
  induction program generalizing past with
  | done result =>
    cases result with
    | ok value => exact ends
    | error failure =>
      cases failure with
      | error chain => exact ends
      | panic => exact absurd rfl calm
  | ask call next ih => exact ⟨ends.1, fun answer => ih answer (calm answer) _ (ends.2 answer)⟩

end Calm

end Exchange

end Bootsmith.Library
