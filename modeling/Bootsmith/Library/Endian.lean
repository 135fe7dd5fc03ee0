/-
**Fixed-width numbers as bytes.**

`leBytes width value` is the little-endian encoding of `value` in `width` bytes, `beBytes` the same
bytes in the other order, and `leNat`, `beNat` read them back: the round trip is exact below
`256 ^ width` (`leNat_leBytes`, `beNat_beBytes`).
-/

import Bootsmith.Library.Image

namespace Bootsmith.Library

/-- The number a little-endian byte list spells. -/
def leNat : Bytes → Nat
  | [] => 0
  | byte :: rest => byte.toNat + 256 * leNat rest

/-- The number a big-endian byte list spells. -/
def beNat (bytes : Bytes) : Nat := leNat bytes.reverse

/-- The low `width` bytes of a number, least significant first. -/
def leBytes : Nat → Nat → Bytes
  | 0, _ => []
  | width + 1, value => UInt8.ofNat (value % 256) :: leBytes width (value / 256)

/-- The low `width` bytes of a number, most significant first. -/
def beBytes (width value : Nat) : Bytes := (leBytes width value).reverse

@[simp] theorem leBytes_length (width value : Nat) : (leBytes width value).length = width := by
  induction width generalizing value with
  | zero => rfl
  | succ width ih => simp [leBytes, ih]

@[simp] theorem beBytes_length (width value : Nat) : (beBytes width value).length = width := by
  simp [beBytes]

theorem leBytes_leNat (bytes : Bytes) : leBytes bytes.length (leNat bytes) = bytes := by
  induction bytes with
  | nil => rfl
  | cons byte rest ih =>
    have small := byte.toNat_lt
    have low : (byte.toNat + 256 * leNat rest) % 256 = byte.toNat := by omega
    have high : (byte.toNat + 256 * leNat rest) / 256 = leNat rest := by omega
    rw [leNat, List.length_cons, leBytes, low, high, ih, UInt8.ofNat_toNat]

theorem leNat_leBytes {width value : Nat} (fits : value < 256 ^ width) :
    leNat (leBytes width value) = value := by
  induction width generalizing value with
  | zero =>
    rw [Nat.pow_zero] at fits
    simp only [leBytes, leNat]
    omega
  | succ width ih =>
    have high : value / 256 < 256 ^ width := by
      rw [Nat.div_lt_iff_lt_mul (by norm_num), ← Nat.pow_succ]
      exact fits
    have low : (UInt8.ofNat (value % 256)).toNat = value % 256 := by
      rw [UInt8.toNat_ofNat', Nat.mod_mod_of_dvd _ (by norm_num)]
    rw [leBytes, leNat, ih high, low]
    omega

theorem beNat_beBytes {width value : Nat} (fits : value < 256 ^ width) :
    beNat (beBytes width value) = value := by
  rw [beNat, beBytes, List.reverse_reverse, leNat_leBytes fits]

end Bootsmith.Library
