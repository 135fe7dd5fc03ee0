/-
**Indexing that may panic**: a byte and a part of a byte string, as `bytes[index]` and
`bytes[start..stop]` have them, and numbers read from a part.
-/

import Bootsmith.Library.Endian
import Bootsmith.Library.Fallible

namespace Bootsmith.Library

/-- The byte at an index; an index past the end panics. -/
def byteOf (bytes : Bytes) (index : Nat) : Fallible UInt8 :=
  if index < bytes.length then .ok (bytes.getD index 0) else .error .panic

/-- The bytes `start .. stop`; a range that is reversed or ends past the end panics. -/
def partOf (bytes : Bytes) (start stop : Nat) : Fallible Bytes :=
  if start ≤ stop ∧ stop ≤ bytes.length then .ok (subrange bytes start stop) else .error .panic

/-- The little-endian number in the bytes `start .. stop`. -/
def leOf (bytes : Bytes) (start stop : Nat) : Fallible Nat := do
  let part ← partOf bytes start stop
  pure (leNat part)

section

variable {bytes : Bytes} {index start stop : Nat}

@[simp] theorem byteOf_of_lt (inside : index < bytes.length) : byteOf bytes index = .ok (bytes.getD index 0) :=
  if_pos inside

@[simp] theorem partOf_of_le (order : start ≤ stop) (inside : stop ≤ bytes.length) :
    partOf bytes start stop = .ok (subrange bytes start stop) :=
  if_pos ⟨order, inside⟩

theorem partOf_zero (inside : stop ≤ bytes.length) : partOf bytes 0 stop = .ok (bytes.take stop) := by
  rw [partOf_of_le (Nat.zero_le _) inside, subrange, List.drop_zero, Nat.sub_zero]

@[simp] theorem leOf_of_le (order : start ≤ stop) (inside : stop ≤ bytes.length) :
    leOf bytes start stop = .ok (leNat (subrange bytes start stop)) := by
  rw [leOf, partOf_of_le order inside]
  rfl

end

/-! ### Calls that return a value -/

namespace Fallible

variable {α β : Type}

/-- The call returns a value: it neither fails nor panics. -/
def IsOk (call : Fallible α) : Prop := ∃ value, call = .ok value

theorem isOk_pure (value : α) : IsOk (pure value : Fallible α) := ⟨value, rfl⟩

theorem bind_of_ok {call : Fallible α} {value : α} {next : α → Fallible β} (returns : call = .ok value) :
    call >>= next = next value := by
  rw [returns]
  rfl

theorem isOk_bind {call : Fallible α} {value : α} {next : α → Fallible β} (returns : call = .ok value)
    (rest : IsOk (next value)) : IsOk (call >>= next) := by
  rwa [bind_of_ok returns]

end Fallible

end Bootsmith.Library
