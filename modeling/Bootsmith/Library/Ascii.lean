/-
**ASCII case on bytes and characters.**

`toAsciiUpper`, `toAsciiLower` and the comparison that ignores ASCII case, for bytes and for
characters. Two lists agree up to case exactly when their upper-case forms are equal
(`eqIgnoreAsciiCase_iff_upper`), so an upper-cased name is a key for such a comparison.
-/

import Bootsmith.Library.Image

namespace Bootsmith.Library

/-- The bytes of an ASCII literal. -/
def ascii (text : String) : Bytes := text.toList.map fun char => UInt8.ofNat char.toNat

def toAsciiUpper (byte : UInt8) : UInt8 := if 97 ≤ byte ∧ byte ≤ 122 then byte - 32 else byte

def toAsciiLower (byte : UInt8) : UInt8 := if 65 ≤ byte ∧ byte ≤ 90 then byte + 32 else byte

/-- Equality of byte strings up to ASCII case. -/
def eqIgnoreAsciiCase (first second : Bytes) : Bool :=
  first.map toAsciiLower == second.map toAsciiLower

theorem toAsciiUpper_toAsciiLower (byte : UInt8) :
    toAsciiUpper (toAsciiLower byte) = toAsciiUpper byte := by
  unfold toAsciiUpper toAsciiLower
  grind

theorem toAsciiLower_toAsciiUpper (byte : UInt8) :
    toAsciiLower (toAsciiUpper byte) = toAsciiLower byte := by
  unfold toAsciiUpper toAsciiLower
  grind

/-- **Two byte strings agree up to case exactly when their upper-case forms are equal.** -/
theorem eqIgnoreAsciiCase_iff_upper (first second : Bytes) :
    eqIgnoreAsciiCase first second = true ↔
      first.map toAsciiUpper = second.map toAsciiUpper := by
  have lowered : ∀ bytes : Bytes,
      (bytes.map toAsciiLower).map toAsciiUpper = bytes.map toAsciiUpper := fun bytes => by
    rw [List.map_map]
    exact List.map_congr_left fun byte _ => toAsciiUpper_toAsciiLower byte
  have raised : ∀ bytes : Bytes,
      (bytes.map toAsciiUpper).map toAsciiLower = bytes.map toAsciiLower := fun bytes => by
    rw [List.map_map]
    exact List.map_congr_left fun byte _ => toAsciiLower_toAsciiUpper byte
  rw [eqIgnoreAsciiCase, beq_iff_eq]
  constructor
  · intro same
    rw [← lowered first, same, lowered]
  · intro same
    rw [← raised first, same, raised]

end Bootsmith.Library
