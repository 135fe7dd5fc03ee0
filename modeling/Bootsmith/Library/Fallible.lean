/-
**Fallible calls and calls that change a state.**

A fallible call returns a value, or an error with its chain of messages (outermost first), or it
panics. A call on a mutable state also returns the state it leaves behind, whether it succeeds or
not: what was written before the failure stays written.

The rules below read a successful run apart: a bind succeeds exactly when both parts do
(`Fallible.bind_eq_ok`, `Effect.bind_eq_ok`), so a spec lemma peels a call off with `obtain`.
-/

import Mathlib.Tactic

namespace Bootsmith.Library

/-- Why a call did not return a value. -/
inductive Failure
  | error (chain : List String)
  | panic
  deriving DecidableEq, Repr

/-- A call that reads its arguments and returns a value or fails. -/
abbrev Fallible (α : Type) := Except Failure α

/-- A call on a mutable state `σ`. -/
abbrev Effect (σ α : Type) := EStateM Failure σ α

namespace Fallible

variable {α β : Type}

/-- Fail with one message. -/
def bail (message : String) : Fallible α := .error (.error [message])

/-- Put a message in front of the chain of an error. -/
def context (message : String) : Fallible α → Fallible α
  | .error (.error chain) => .error (.error (message :: chain))
  | .error .panic => .error .panic
  | .ok value => .ok value

/-- The value of an option, or an error. -/
def okOr (message : String) : Option α → Fallible α
  | some value => .ok value
  | none => bail message

@[simp] theorem context_eq_ok (message : String) (call : Fallible α) (value : α) :
    context message call = .ok value ↔ call = .ok value := by
  cases call with
  | ok _ => rfl
  | error failure => cases failure <;> simp [context]

@[simp] theorem bail_ne_ok (message : String) (value : α) : bail message = .ok value ↔ False := by
  simp [bail]

/-- A guard that fails stops the call. -/
theorem guard_eq_ok (message : String) (bad : Prop) [Decidable bad] (call : Fallible α) (value : α) :
    (if bad then bail message else call) = .ok value ↔ ¬ bad ∧ call = .ok value := by
  split <;> simp [*]

@[simp] theorem okOr_eq_ok (message : String) (found : Option α) (value : α) :
    okOr message found = .ok value ↔ found = some value := by
  cases found <;> simp [okOr]

@[simp] theorem bind_eq_ok (call : Fallible α) (next : α → Fallible β) (result : β) :
    (call >>= next) = .ok result ↔ ∃ value, call = .ok value ∧ next value = .ok result := by
  cases call with
  | ok value => simp [bind, Except.bind]
  | error failure => simp [bind, Except.bind]

@[simp] theorem pure_eq_ok (value result : α) :
    (pure value : Fallible α) = .ok result ↔ value = result := by
  simp [pure, Except.pure]

/-- A call that is seen to succeed has a value. -/
theorem exists_ok {call : Fallible α} (succeeds : call.toOption.isSome) : ∃ value, call = .ok value := by
  cases call with
  | ok value => exact ⟨value, rfl⟩
  | error failure => cases succeeds

/-! ### Calls that do not panic -/

/-- The call returns a value or an error. -/
def NoPanic (call : Fallible α) : Prop := call ≠ .error .panic

theorem noPanic_ok (value : α) : NoPanic (.ok value : Fallible α) := fun panics => by cases panics

theorem noPanic_bail (message : String) :
    NoPanic (bail message : Fallible α) := fun panics => by cases panics

theorem noPanic_okOr (message : String) (found : Option α) : NoPanic (okOr message found) := by
  cases found with
  | some value => exact noPanic_ok value
  | none => exact noPanic_bail message

theorem NoPanic.bind {call : Fallible α} {next : α → Fallible β} (first : NoPanic call)
    (rest : ∀ value, NoPanic (next value)) : NoPanic (call >>= next) := by
  cases call with
  | ok value => exact rest value
  | error failure => exact fun panics => first (congrArg Except.error (Except.error.inj panics))

theorem noPanic_mapM {call : α → Fallible β} (each : ∀ value, NoPanic (call value)) (values : List α) :
    NoPanic (values.mapM call) := by
  induction values with
  | nil => exact noPanic_ok []
  | cons value rest ih =>
    rw [List.mapM_cons]
    exact (each value).bind fun one => ih.bind fun others => noPanic_ok (one :: others)

/-- A call that neither panics nor returns a value returns an error. -/
theorem NoPanic.exists_error {call : Fallible α} (calm : NoPanic call)
    (fails : ∀ value, call ≠ .ok value) :
    ∃ chain, call = .error (.error chain) := by
  cases call with
  | ok value => exact absurd rfl (fails value)
  | error failure =>
    cases failure with
    | error chain => exact ⟨chain, rfl⟩
    | panic => exact absurd rfl calm

end Fallible

/-- An integer conversion that fails when the value does not fit. -/
def tryFrom (bound value : Nat) : Fallible Nat :=
  if value < bound then .ok value
  else Fallible.bail "out of range integral type conversion attempted"

@[simp] theorem tryFrom_eq_ok (bound value result : Nat) :
    tryFrom bound value = .ok result ↔ value < bound ∧ value = result := by
  unfold tryFrom
  split <;> simp_all

namespace Effect

variable {σ α β : Type}

/-- Run a fallible reader on the state. -/
def query (call : σ → Fallible α) : Effect σ α := fun state =>
  match call state with
  | .ok value => .ok value state
  | .error failure => .error failure state

/-- Run a fallible call that does not look at the state. -/
def lift (call : Fallible α) : Effect σ α := query fun _ => call

/-- Fail with one message. -/
def bail (message : String) : Effect σ α := lift (Fallible.bail message)

/-- Put a message in front of the chain of an error. -/
def context (message : String) (call : Effect σ α) : Effect σ α := fun state =>
  match call state with
  | .ok value state => .ok value state
  | .error (.error chain) state => .error (.error (message :: chain)) state
  | .error .panic state => .error .panic state

/-- Change the state. -/
def update (change : σ → σ) : Effect σ Unit := fun state => .ok () (change state)

@[simp] theorem bind_eq_ok (call : Effect σ α) (next : α → Effect σ β) (state state' : σ)
    (result : β) :
    (call >>= next).run state = .ok result state' ↔
      ∃ value middle, call.run state = .ok value middle ∧
        (next value).run middle = .ok result state' := by
  rw [EStateM.run_bind]
  cases call.run state with
  | ok value middle => simp
  | error failure middle => simp

@[simp] theorem pure_eq_ok (value result : α) (state state' : σ) :
    (pure value : Effect σ α).run state = .ok result state' ↔ value = result ∧ state = state' := by
  simp

@[simp] theorem query_eq_ok (call : σ → Fallible α) (state state' : σ) (value : α) :
    (query call).run state = .ok value state' ↔ call state = .ok value ∧ state = state' := by
  show query call state = _ ↔ _
  unfold query
  cases call state <;> simp

@[simp] theorem lift_eq_ok (call : Fallible α) (state state' : σ) (value : α) :
    (lift call : Effect σ α).run state = .ok value state' ↔ call = .ok value ∧ state = state' :=
  query_eq_ok _ _ _ _

@[simp] theorem context_eq_ok (message : String) (call : Effect σ α) (state state' : σ) (value : α) :
    (context message call).run state = .ok value state' ↔ call.run state = .ok value state' := by
  show context message call state = _ ↔ call state = _
  unfold context
  cases call state with
  | ok _ _ => rfl
  | error failure _ => cases failure <;> simp

@[simp] theorem bail_ne_ok (message : String) (state state' : σ) (value : α) :
    (bail message : Effect σ α).run state = .ok value state' ↔ False := by
  simp [bail]

/-- A call that returned hands its value on with the state it left. -/
theorem bind_of_ok {call : Effect σ α} {state middle : σ} {value : α}
    (returns : call.run state = .ok value middle) (next : α → Effect σ β) :
    (call >>= next).run state = (next value).run middle := by
  rw [EStateM.run_bind, returns]

/-- A query that succeeds hands its value on and leaves the state. -/
theorem query_bind (call : σ → Fallible α) {state : σ} {value : α}
    (answer : call state = .ok value) (next : α → Effect σ β) :
    (query call >>= next).run state = (next value).run state :=
  bind_of_ok ((query_eq_ok _ _ _ _).mpr ⟨answer, rfl⟩) next

theorem lift_bind_eq_ok (call : Fallible α) (next : α → Effect σ β) (state state' : σ)
    (result : β) :
    (lift call >>= next).run state = .ok result state' ↔
      ∃ value, call = .ok value ∧ (next value).run state = .ok result state' := by
  rw [bind_eq_ok]
  constructor
  · rintro ⟨value, _, step, rest⟩
    obtain ⟨answer, rfl⟩ := (lift_eq_ok _ _ _ _).mp step
    exact ⟨value, answer, rest⟩
  · rintro ⟨value, answer, rest⟩
    exact ⟨value, state, (lift_eq_ok _ _ _ _).mpr ⟨answer, rfl⟩, rest⟩

@[simp] theorem update_eq_ok (change : σ → σ) (state state' : σ) (value : Unit) :
    (update change).run state = .ok value state' ↔ change state = state' := by
  show EStateM.Result.ok () (change state) = _ ↔ _
  simp

/-- The run succeeds with a result that passes the check. -/
def passes (call : Effect σ α) (check : α → σ → Bool) (state : σ) : Bool :=
  match call.run state with
  | .ok value state' => check value state'
  | .error _ _ => false

theorem exists_of_passes {call : Effect σ α} {check : α → σ → Bool} {state : σ}
    (passed : call.passes check state = true) :
    ∃ value state', call.run state = .ok value state' ∧ check value state' = true := by
  unfold passes at passed
  cases result : call.run state with
  | ok value state' =>
    rw [result] at passed
    exact ⟨value, state', rfl, passed⟩
  | error _ _ =>
    rw [result] at passed
    cases passed

/-- The run returns an error and leaves a state that passes the check. -/
def fails (call : Effect σ α) (check : σ → Bool) (state : σ) : Bool :=
  match call.run state with
  | .error (.error _) last => check last
  | _ => false

theorem exists_of_fails {call : Effect σ α} {check : σ → Bool} {state : σ}
    (failed : call.fails check state = true) :
    ∃ chain last, call.run state = .error (.error chain) last ∧ check last = true := by
  unfold fails at failed
  split at failed
  · rename_i chain last run
    exact ⟨chain, last, run, failed⟩
  · cases failed

/-! ### What a call leaves behind -/

/-- The state in a result. -/
def left : EStateM.Result Failure σ α → σ
  | .ok _ last => last
  | .error _ last => last

/-- The state a call leaves, whether it succeeds or not. -/
def after (call : Effect σ α) (state : σ) : σ := left (call.run state)

/-- The call keeps an invariant, whether it succeeds or not. -/
def Keeps (inv : σ → Prop) (call : Effect σ α) : Prop := ∀ state, inv state → inv (call.after state)

theorem after_of_ok {call : Effect σ α} {state last : σ} {value : α}
    (run : call.run state = .ok value last) :
    call.after state = last := by
  rw [after, run]
  rfl

variable {inv : σ → Prop}

theorem Keeps.bind {call : Effect σ α} {next : α → Effect σ β} (first : Keeps inv call)
    (rest : ∀ value, Keeps inv (next value)) : Keeps inv (call >>= next) := by
  intro state holds
  have middle := first state holds
  unfold after at middle ⊢
  rw [EStateM.run_bind]
  cases result : call.run state with
  | ok value last =>
    rw [result] at middle
    exact rest value last middle
  | error failure last =>
    rw [result] at middle
    exact middle

theorem keeps_pure (value : α) : Keeps inv (pure value : Effect σ α) := fun _ holds => holds

theorem keeps_bail (message : String) : Keeps inv (bail message : Effect σ α) := fun _ holds => holds

theorem keeps_update {change : σ → σ} (step : ∀ state, inv state → inv (change state)) :
    Keeps inv (update change) := step

/-! ### Errors and the state -/

/-- The call returns no error from the state, and what it leaves satisfies the invariant. -/
def SureAt (inv : σ → Prop) (call : Effect σ α) (state : σ) : Prop :=
  match call.run state with
  | .ok _ last => inv last
  | .error (.error _) _ => False
  | .error .panic _ => True

/-- An error of the call leaves the state as it was. -/
def CleanAt (call : Effect σ α) (state : σ) : Prop :=
  ∀ chain last, call.run state = .error (.error chain) last → last = state

section

variable {state : σ} {call : Effect σ α} {next : α → Effect σ β}

theorem SureAt.of_ok {value : α} {last : σ} (sure : SureAt inv call state)
    (run : call.run state = .ok value last) : inv last := by
  unfold SureAt at sure
  rwa [run] at sure

theorem SureAt.bind (first : SureAt inv call state)
    (rest : ∀ value middle, call.run state = .ok value middle → inv middle → SureAt inv (next value) middle) :
    SureAt inv (call >>= next) state := by
  unfold SureAt
  rw [EStateM.run_bind]
  cases result : call.run state with
  | ok value middle => exact rest value middle result (first.of_ok result)
  | error failure last =>
    unfold SureAt at first
    rw [result] at first
    cases failure <;> exact first

theorem sureAt_pure (value : α) (holds : inv state) : SureAt inv (pure value : Effect σ α) state := holds

theorem sureAt_query (call : σ → Fallible α) (quiet : ∀ chain, call state ≠ .error (.error chain))
    (holds : inv state) : SureAt inv (query call) state := by
  unfold SureAt
  change match query call state with
    | .ok _ last => inv last
    | .error (.error _) _ => False
    | .error .panic _ => True
  unfold query
  cases answer : call state with
  | ok value => exact holds
  | error failure =>
    cases failure with
    | panic => trivial
    | error chain => exact absurd answer (quiet chain)

theorem SureAt.clean (sure : SureAt inv call state) : CleanAt call state := by
  intro chain last run
  unfold SureAt at sure
  rw [run] at sure
  exact sure.elim

theorem cleanAt_of_ok {value : α} {last : σ} (returns : call.run state = .ok value last) :
    CleanAt call state := by
  intro chain left fails
  rw [returns] at fails
  cases fails

/-- A call that returns an error is clean exactly when it left the state. -/
theorem cleanAt_iff_of_error {chain : List String} {last : σ}
    (fails : call.run state = .error (.error chain) last) : CleanAt call state ↔ last = state := by
  constructor
  · exact fun clean => clean chain last fails
  · rintro rfl chain' left fails'
    rw [fails] at fails'
    cases fails'
    rfl

theorem cleanAt_query (call : σ → Fallible α) (state : σ) : CleanAt (query call) state := by
  intro chain last run
  change query call state = _ at run
  unfold query at run
  cases answer : call state <;> rw [answer] at run <;> cases run
  rfl

theorem cleanAt_bail (message : String) (state : σ) : CleanAt (bail message : Effect σ α) state :=
  cleanAt_query (fun _ => Fallible.bail message) state

theorem CleanAt.context (clean : CleanAt call state) (message : String) :
    CleanAt (Effect.context message call) state := by
  intro chain last run
  change Effect.context message call state = _ at run
  unfold Effect.context at run
  cases result : call state with
  | ok value middle =>
    rw [result] at run
    cases run
  | error failure middle =>
    rw [result] at run
    cases failure with
    | panic => cases run
    | error chain =>
      cases run
      exact clean chain _ result

/-- A call that leaves the state on every path, and a clean one after it. -/
theorem CleanAt.query_bind (call : σ → Fallible α)
    (rest : ∀ value, call state = .ok value → CleanAt (next value) state) : CleanAt (query call >>= next) state := by
  cases answer : call state with
  | ok value =>
    intro chain last run
    rw [Effect.query_bind call answer] at run
    exact rest value answer chain last run
  | error failure =>
    intro chain last run
    have stopped : (query call).run state = .error failure state := by
      change query call state = _
      unfold query
      rw [answer]
    rw [EStateM.run_bind, stopped] at run
    cases run
    rfl

/-- Nothing runs after a clean call that does not return. -/
theorem CleanAt.bind_of_stop (clean : CleanAt call state)
    (stops : ∀ value middle, call.run state ≠ .ok value middle) : CleanAt (call >>= next) state := by
  intro chain last run
  rw [EStateM.run_bind] at run
  cases result : call.run state with
  | ok value middle => exact absurd result (stops value middle)
  | error failure middle =>
    rw [result] at run
    cases run
    exact clean chain last result

/-- A clean call, and one that cannot fail after it. -/
theorem CleanAt.bind (inv : σ → Prop) (first : CleanAt call state)
    (rest : ∀ value middle, call.run state = .ok value middle → SureAt inv (next value) middle) :
    CleanAt (call >>= next) state := by
  intro chain last run
  rw [EStateM.run_bind] at run
  cases result : call.run state with
  | ok value middle =>
    rw [result] at run
    have sure := rest value middle result
    unfold SureAt at sure
    change (next value).run middle = _ at run
    rw [run] at sure
    exact sure.elim
  | error failure middle =>
    rw [result] at run
    cases run
    exact first chain last result

end

end Effect

end Bootsmith.Library
