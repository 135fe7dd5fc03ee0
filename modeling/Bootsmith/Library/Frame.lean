/-
**What a call on an image touches.**

`SafeAt inv call state`: the call does not panic, and whatever it leaves, also after an error, satisfies
the invariant. With `Frame region image` as the invariant this says that the call keeps the length of the
image and changes bytes of the region only. The rules follow the calls of a function one by one, each
from the state the ones before it left.
-/

import Bootsmith.Library.Buffer
import Bootsmith.Library.File

namespace Bootsmith.Library

namespace Effect

variable {σ α β : Type} {inv : σ → Prop} {state : σ}

/-- The call does not panic, and the state it leaves satisfies the invariant. -/
def SafeAt (inv : σ → Prop) (call : Effect σ α) (state : σ) : Prop :=
  match call.run state with
  | .ok _ last => inv last
  | .error (.error _) last => inv last
  | .error .panic _ => False

theorem SafeAt.after {call : Effect σ α} (safe : SafeAt inv call state) : inv (call.after state) := by
  unfold SafeAt at safe
  unfold Effect.after left
  cases result : call.run state with
  | ok value last => rwa [result] at safe
  | error failure last =>
    rw [result] at safe
    cases failure with
    | error chain => exact safe
    | panic => exact safe.elim

theorem SafeAt.of_ok {call : Effect σ α} {value : α} {last : σ} (run : call.run state = .ok value last)
    (holds : inv last) : SafeAt inv call state := by
  unfold SafeAt
  rwa [run]

theorem SafeAt.holds {call : Effect σ α} {value : α} {last : σ} (safe : SafeAt inv call state)
    (run : call.run state = .ok value last) : inv last := by
  unfold SafeAt at safe
  rwa [run] at safe

/-- Calls that run alike are safe alike. -/
theorem SafeAt.of_run {call call' : Effect σ α} {state' : σ} (safe : SafeAt inv call' state')
    (same : call.run state = call'.run state') : SafeAt inv call state := by
  unfold SafeAt at safe ⊢
  rwa [same]

theorem SafeAt.calm {call : Effect σ α} (safe : SafeAt inv call state) (last : σ) :
    call.run state ≠ .error .panic last := by
  intro panics
  unfold SafeAt at safe
  rwa [panics] at safe

theorem SafeAt.bind {call : Effect σ α} {next : α → Effect σ β} (first : SafeAt inv call state)
    (rest : ∀ value middle, call.run state = .ok value middle → inv middle → SafeAt inv (next value) middle) :
    SafeAt inv (call >>= next) state := by
  unfold SafeAt at first ⊢
  rw [EStateM.run_bind]
  cases result : call.run state with
  | ok value middle =>
    rw [result] at first
    exact rest value middle result first
  | error failure last =>
    rw [result] at first
    cases failure <;> exact first

theorem safeAt_pure (value : α) (holds : inv state) : SafeAt inv (pure value : Effect σ α) state := holds

theorem safeAt_bail (message : String) (holds : inv state) :
    SafeAt inv (bail message : Effect σ α) state := holds

/-- A query that does not panic is safe. -/
theorem safeAt_query {call : σ → Fallible α} (calm : Fallible.NoPanic (call state)) (holds : inv state) :
    SafeAt inv (query call) state := by
  unfold SafeAt
  change match query call state with
    | .ok _ last => inv last
    | .error (.error _) last => inv last
    | .error .panic _ => False
  unfold query
  cases answer : call state with
  | ok value => exact holds
  | error failure =>
    cases failure with
    | error chain => exact holds
    | panic => exact calm answer

/-- A query, and a call that is safe for its answer. -/
theorem SafeAt.query_bind {call : σ → Fallible α} {next : α → Effect σ β}
    (calm : Fallible.NoPanic (call state)) (holds : inv state)
    (rest : ∀ value, call state = .ok value → SafeAt inv (next value) state) :
    SafeAt inv (query call >>= next) state :=
  (safeAt_query calm holds).bind fun value middle run _ => by
    obtain ⟨answer, rfl⟩ := (query_eq_ok _ _ _ _).mp run
    exact rest value answer

theorem SafeAt.context {call : Effect σ α} (safe : SafeAt inv call state) (message : String) :
    SafeAt inv (Effect.context message call) state := by
  unfold SafeAt at safe ⊢
  change match Effect.context message call state with
    | .ok _ last => inv last
    | .error (.error _) last => inv last
    | .error .panic _ => False
  unfold Effect.context
  change match call state with
    | .ok _ last => inv last
    | .error (.error _) last => inv last
    | .error .panic _ => False at safe
  cases result : call state with
  | ok value last => rwa [result] at safe
  | error failure last =>
    rw [result] at safe
    cases failure <;> exact safe

end Effect

/-! ### Images that agree outside a region -/

/-- `image'` is as long as `image`, and only bytes of the region differ. -/
structure Frame (region : Nat → Prop) (image image' : Image) : Prop where
  size : image'.size = image.size
  get : ∀ index, ¬ region index → image'.get index = image.get index

namespace Frame

variable {region : Nat → Prop} {image image' : Image}

theorem refl (region : Nat → Prop) (image : Image) : Frame region image image :=
  ⟨rfl, fun _ _ => rfl⟩

theorem write {start : Nat} {bytes : Bytes} (frame : Frame region image image')
    (fits : start + bytes.length ≤ image.size)
    (inside : ∀ index, (⟨start, bytes.length⟩ : Span).Holds index → region index) :
    Frame region image (image'.write start bytes) := by
  refine ⟨(Image.write_size_of_le _ _ _ (by rwa [frame.size])).trans frame.size, fun index outside => ?_⟩
  rw [Image.write_get_of_not_holds _ _ _ fun held => outside (inside index held)]
  exact frame.get index outside

end Frame

section Calls

variable {region : Nat → Prop} {image middle : Image}

theorem noPanic_byteAt {index : Nat} (inside : index < image.size) :
    Fallible.NoPanic (byteAt image index) := by
  rw [byteAt_of_lt inside]
  exact Fallible.noPanic_ok _

theorem noPanic_rangeAt {start count : Nat} (inside : start + count ≤ image.size) :
    Fallible.NoPanic (rangeAt image start count) := by
  rw [rangeAt_of_le inside]
  exact Fallible.noPanic_ok _

/-- **A copy into the region** is safe. -/
theorem copyInto_safe (frame : Frame region image middle) {start : Nat} {bytes : Bytes}
    (fits : start + bytes.length ≤ image.size)
    (inside : ∀ index, (⟨start, bytes.length⟩ : Span).Holds index → region index) :
    Effect.SafeAt (Frame region image) (copyInto start bytes) middle := by
  have run : (copyInto start bytes).run middle = .ok () (middle.write start bytes) :=
    (copyInto_eq_ok _ _ _ _ _).mpr ⟨by rwa [frame.size], rfl⟩
  exact Effect.SafeAt.of_ok run (frame.write fits inside)

theorem setByte_safe (frame : Frame region image middle) {index : Nat} (byte : UInt8)
    (fits : index < image.size) (inside : region index) :
    Effect.SafeAt (Frame region image) (setByte index byte) middle := by
  refine copyInto_safe frame fits fun other held => ?_
  obtain rfl : other = index := by
    simp only [Span.Holds, Span.stop, List.length_singleton] at held
    omega
  exact inside

end Calls

end Bootsmith.Library
