/-
**Programs on a machine.**

A machine answers each call from its state. On a machine a program that may fail is an `Effect`.

* `Program.on_traces`: what a program does on a machine is one of its runs, so that rules about all runs
  apply to it;
* `on_bind`, `on_lift`, `on_context`: a program on a machine, part by part;
* `Asks.on_keeps`: calls that leave a part of the state alone;
* `Refines`: seen through a view of the state, the program on the machine is another effect.
-/

import Bootsmith.Library.Program

namespace Bootsmith.Library

variable {Call : Type} {Answer : Call → Type} {σ τ α β : Type}

/-- Answers to calls, and the next state. -/
abbrev Machine (Call : Type) (Answer : Call → Type) (σ : Type) := (call : Call) → σ → Answer call × σ

namespace Program

/-- What a program returns on a machine, and the last state. -/
def on (machine : Machine Call Answer σ) : Program Call Answer α → σ → α × σ
  | done value, state => (value, state)
  | ask call next, state => (next (machine call state).1).on machine (machine call state).2

variable {machine : Machine Call Answer σ} {program : Program Call Answer α} {state : σ}

theorem on_bind (next : α → Program Call Answer β) :
    (program.bind next).on machine state
      = (next (program.on machine state).1).on machine (program.on machine state).2 := by
  induction program generalizing state with
  | done value => rfl
  | ask call rest ih => exact ih _

/-- What a program asks on a machine, and what it is told. -/
def asked (machine : Machine Call Answer σ) : Program Call Answer α → σ → Past Answer
  | done _, _ => []
  | ask call next, state =>
    ⟨call, (machine call state).1⟩ :: (next (machine call state).1).asked machine (machine call state).2

/-- **A run on a machine is a run.** -/
theorem on_traces (machine : Machine Call Answer σ) (program : Program Call Answer α) (state : σ) :
    Traces program (program.asked machine state) (program.on machine state).1 := by
  induction program generalizing state with
  | done value => exact .done value
  | ask call next ih => exact .ask _ (ih _ _)

/-- The answers are those of the machine. -/
theorem asked_answers {event : Event Answer} (member : event ∈ program.asked machine state) :
    ∃ state, event.answer = (machine event.call state).1 := by
  induction program generalizing state with
  | done value => cases member
  | ask call next ih =>
    rcases List.mem_cons.mp member with rfl | later
    · exact ⟨state, rfl⟩
    · exact ih _ later

/-- Calls that leave a part of the state alone. -/
theorem Asks.on_keeps {among : Call → Prop} {view : σ → τ} (asks : Asks among program)
    (keeps : ∀ call state, among call → view (machine call state).2 = view state) (state : σ) :
    view (program.on machine state).2 = view state := by
  induction program generalizing state with
  | done value => rfl
  | ask call next ih => exact (ih _ (asks.2 _) _).trans (keeps call state asks.1)

end Program

namespace Exchange

/-- A result and a last state, as an effect leaves them. -/
def settle : Fallible α × σ → EStateM.Result Failure σ α
  | (.ok value, last) => .ok value last
  | (.error failure, last) => .error failure last

/-- A program that may fail, on a machine. -/
def on (machine : Machine Call Answer σ) (program : Exchange Call Answer α) : Effect σ α := fun state =>
  settle (Program.on machine program state)

variable {machine : Machine Call Answer σ}

theorem on_lift (call : Fallible α) :
    (lift call : Exchange Call Answer α).on machine = Effect.lift call := by
  funext state
  cases call <;> rfl

theorem on_bind (program : Exchange Call Answer α) (next : α → Exchange Call Answer β) :
    (program >>= next : Exchange Call Answer β).on machine
      = (program.on machine >>= fun value => (next value).on machine) := by
  funext state
  refine (congrArg settle (Program.on_bind (follow next))).trans ?_
  show _ = EStateM.bind (fun state => settle (Program.on machine program state)) _ state
  unfold EStateM.bind
  beta_reduce
  generalize Program.on machine program state = outcome
  obtain ⟨result, last⟩ := outcome
  cases result <;> rfl

theorem on_context (message : String) (program : Exchange Call Answer α) :
    (context message program).on machine = Effect.context message (program.on machine) := by
  funext state
  refine (congrArg settle (Program.on_bind _)).trans ?_
  show _ = Effect.context message (fun state => settle (Program.on machine program state)) state
  unfold Effect.context
  beta_reduce
  generalize Program.on machine program state = outcome
  obtain ⟨result, last⟩ := outcome
  cases result with
  | ok value => rfl
  | error failure => cases failure <;> rfl

/-- What the program returns is what it returns as an effect. -/
theorem on_run_eq_ok {program : Exchange Call Answer α} {state last : σ} {value : α} :
    (program.on machine).run state = .ok value last ↔ Program.on machine program state = (.ok value, last) := by
  show settle (Program.on machine program state) = _ ↔ _
  generalize Program.on machine program state = outcome
  obtain ⟨result, last⟩ := outcome
  cases result <;> simp [settle]

section Returns

variable {program : Exchange Call Answer α} {state middle : σ} {value : α}
  (returns : Program.on machine program state = (.ok value, middle))
include returns

theorem on_bind_of_ok (next : α → Exchange Call Answer β) :
    Program.on machine (program >>= next : Exchange Call Answer β) state = Program.on machine (next value) middle := by
  refine (Program.on_bind (follow next)).trans ?_
  rw [returns]
  rfl

theorem on_context_of_ok (message : String) :
    Program.on machine (context message program) state = (.ok value, middle) := by
  refine (Program.on_bind _).trans ?_
  rw [returns]
  rfl

theorem on_attempt_of_ok : Program.on machine (attempt program) state = (.ok (.ok value), middle) := by
  refine (Program.on_bind _).trans ?_
  rw [returns]
  rfl

end Returns

section Returned

variable {state last : σ} {value : α}

theorem on_lift_eq_ok {call : Fallible α} :
    Program.on machine (lift call : Exchange Call Answer α) state = (.ok value, last) ↔
      call = .ok value ∧ state = last := by
  rw [← on_run_eq_ok, on_lift, Effect.lift_eq_ok]

/-- The parts of a program that returned. -/
theorem on_bind_eq_ok {program : Exchange Call Answer β} {next : β → Exchange Call Answer α} :
    Program.on machine (program >>= next : Exchange Call Answer α) state = (.ok value, last) ↔
      ∃ first middle, Program.on machine program state = (.ok first, middle) ∧
        Program.on machine (next first) middle = (.ok value, last) := by
  simp only [← on_run_eq_ok, on_bind, Effect.bind_eq_ok]

theorem on_context_eq_ok {message : String} {program : Exchange Call Answer α} :
    Program.on machine (context message program) state = (.ok value, last) ↔
      Program.on machine program state = (.ok value, last) := by
  simp only [← on_run_eq_ok, on_context, Effect.context_eq_ok]

end Returned

/-- The last state does not depend on the context. -/
theorem on_context_left (message : String) (program : Exchange Call Answer α) (state : σ) :
    (Program.on machine (context message program) state).2 = (Program.on machine program state).2 := by
  have settled := congrArg Prod.snd (@Program.on_bind _ _ _ _ _ machine program state
    fun result => .done (Fallible.context message result))
  exact settled

/-- A call at the end. -/
theorem on_dropping (call : Call) (program : Exchange Call Answer α) (state : σ) :
    Program.on machine (dropping call program) state
      = ((Program.on machine program state).1, (machine call (Program.on machine program state).2).2) :=
  Program.on_bind _

end Exchange

/-! ### Views of the state -/

namespace Effect

/-- A result with its state seen through the view. -/
def seen (view : σ → τ) : EStateM.Result Failure σ α → EStateM.Result Failure τ α
  | .ok value last => .ok value (view last)
  | .error failure last => .error failure (view last)

/-- **From each state that satisfies the invariant, what is seen of the call is what the other call does**,
and the invariant holds after it. -/
def Refines (view : σ → τ) (inv : τ → Prop) (call : Effect σ α) (other : Effect τ α) : Prop :=
  ∀ state, inv (view state) →
    other.run (view state) = seen view (call.run state) ∧ inv (view (left (call.run state)))

section Refines

variable {view : σ → τ} {inv : τ → Prop} {call : Effect σ α} {other : Effect τ α}

theorem refines_lift (result : Fallible α) : Refines view inv (lift result) (lift result) := by
  intro state holds
  cases result <;> exact ⟨rfl, holds⟩

theorem lift_bind (result : Fallible α) (next : α → Fallible β) :
    (lift (result >>= next) : Effect τ β) = lift result >>= fun value => lift (next value) := by
  funext state
  cases result <;> rfl

theorem refines_pure (value : α) : Refines view inv (pure value : Effect σ α) (pure value) :=
  fun _ holds => ⟨rfl, holds⟩

theorem Refines.bind {next : α → Effect σ β} {next' : α → Effect τ β} (first : Refines view inv call other)
    (rest : ∀ value, Refines view inv (next value) (next' value)) :
    Refines view inv (call >>= next) (other >>= next') := by
  intro state holds
  obtain ⟨same, kept⟩ := first state holds
  rw [EStateM.run_bind, EStateM.run_bind, same]
  cases result : call.run state with
  | ok value last =>
    rw [result] at kept
    exact rest value last kept
  | error failure last =>
    rw [result] at kept
    exact ⟨rfl, kept⟩

/-- A reading of the other state whose value is known. -/
theorem Refines.query {reading : τ → Fallible β} {value : β} {next : β → Effect τ α}
    (known : ∀ state, inv state → reading state = .ok value) (rest : Refines view inv call (next value)) :
    Refines view inv call (Effect.query reading >>= next) := by
  intro state holds
  rw [query_bind _ (known _ holds)]
  exact rest state holds

/-- A call that succeeds on the other state succeeds. -/
theorem Refines.run_eq_ok (refines : Refines view inv call other) {state : σ} {last : τ} {value : α}
    (holds : inv (view state)) (runs : other.run (view state) = .ok value last) :
    ∃ state', call.run state = .ok value state' ∧ view state' = last := by
  obtain ⟨same, -⟩ := refines state holds
  rw [runs] at same
  cases result : call.run state with
  | ok value' last' =>
    rw [result] at same
    cases same
    exact ⟨last', rfl, rfl⟩
  | error failure last' =>
    rw [result] at same
    cases same

end Refines

end Effect

end Bootsmith.Library
