/-
**Tables of twelve-bit numbers.**

The nibbles of a byte string are counted from the low half of its first byte. Entry `index` of a table
is the nibbles `3 * index`, `3 * index + 1` and `3 * index + 2`, least significant first: an even entry
is a byte and the low half of the next one, an odd entry the high half of a byte and the next one.

* `twelve` and `setTwelve` are the entry and its update on a sequence of nibbles, where entries do not
  share anything (`twelve_setTwelve`);
* `Image.setTwelve` is the update on the two bytes that hold the entry, and `Image.nibble_setTwelve`
  says that it is the update on the nibbles.
-/

import Bootsmith.Library.Image

namespace Bootsmith.Library

/-! ### On nibbles -/

/-- The entry at `index`. -/
def twelve (nibbles : Nat → Nat) (index : Nat) : Nat :=
  nibbles (3 * index) + 16 * nibbles (3 * index + 1) + 256 * nibbles (3 * index + 2)

/-- The nibbles with the entry at `index` set. -/
def setTwelve (nibbles : Nat → Nat) (index value : Nat) : Nat → Nat := fun count =>
  if count / 3 = index then value / 16 ^ (count % 3) % 16 else nibbles count

theorem setTwelve_of_ne (nibbles : Nat → Nat) {index count : Nat} (value : Nat)
    (other : count / 3 ≠ index) : setTwelve nibbles index value count = nibbles count :=
  if_neg other

theorem setTwelve_at (nibbles : Nat → Nat) (index value : Nat) {place : Nat} (inside : place < 3) :
    setTwelve nibbles index value (3 * index + place) = value / 16 ^ place % 16 := by
  have here : (3 * index + place) / 3 = index := by omega
  have last : (3 * index + place) % 3 = place := by omega
  rw [setTwelve, if_pos here, last]

/-- **An entry after an update**: the low twelve bits at its place, the old entry elsewhere. -/
theorem twelve_setTwelve (nibbles : Nat → Nat) (index value other : Nat) :
    twelve (setTwelve nibbles index value) other
      = if other = index then value % 4096 else twelve nibbles other := by
  unfold twelve
  by_cases same : other = index
  · have start := setTwelve_at nibbles other value (show 0 < 3 by decide)
    rw [Nat.add_zero, Nat.pow_zero, Nat.div_one] at start
    rw [← same, start, setTwelve_at _ _ _ (by decide), setTwelve_at _ _ _ (by decide), if_pos rfl]
    omega
  · rw [setTwelve_of_ne _ _ (by omega), setTwelve_of_ne _ _ (by omega), setTwelve_of_ne _ _ (by omega),
      if_neg same]

/-- Setting an entry to what it already is changes nothing. -/
theorem setTwelve_twelve {nibbles : Nat → Nat} {index : Nat}
    (small : ∀ count, nibbles count < 16) : setTwelve nibbles index (twelve nibbles index) = nibbles := by
  funext count
  by_cases here : count / 3 = index
  · have first := small (3 * index)
    have second := small (3 * index + 1)
    have third := small (3 * index + 2)
    obtain rfl | rfl | rfl : count = 3 * index + 0 ∨ count = 3 * index + 1 ∨ count = 3 * index + 2 := by
      omega
    · rw [setTwelve_at _ _ _ (by decide), twelve, Nat.pow_zero, Nat.div_one, Nat.add_zero (3 * index)]
      omega
    · rw [setTwelve_at _ _ _ (by decide), twelve]
      omega
    · rw [setTwelve_at _ _ _ (by decide), twelve]
      omega
  · exact setTwelve_of_ne _ _ here

theorem setTwelve_setTwelve (nibbles : Nat → Nat) (index first second : Nat) :
    setTwelve (setTwelve nibbles index first) index second = setTwelve nibbles index second := by
  funext count
  unfold setTwelve
  split <;> rfl

theorem setTwelve_comm (nibbles : Nat → Nat) {index other : Nat} (first second : Nat)
    (apart : index ≠ other) :
    setTwelve (setTwelve nibbles index first) other second
      = setTwelve (setTwelve nibbles other second) index first := by
  funext count
  by_cases here : count / 3 = index
  · rw [setTwelve_of_ne _ _ (by omega), setTwelve, if_pos here, setTwelve, if_pos here]
  · rw [setTwelve_of_ne _ first here]
    unfold setTwelve
    rw [if_neg here]

/-- Set the listed entries, one after the other. -/
def setTwelves : List (Nat × Nat) → (Nat → Nat) → Nat → Nat
  | [], nibbles => nibbles
  | entry :: rest, nibbles => setTwelves rest (setTwelve nibbles entry.1 entry.2)

theorem setTwelves_of_not_mem {entries : List (Nat × Nat)} (nibbles : Nat → Nat) {count : Nat}
    (outside : count / 3 ∉ entries.map Prod.fst) : setTwelves entries nibbles count = nibbles count := by
  induction entries generalizing nibbles with
  | nil => rfl
  | cons entry rest ih =>
    rw [List.map_cons] at outside
    rw [setTwelves, ih _ (List.not_mem_of_not_mem_cons outside),
      setTwelve_of_ne _ _ (List.ne_of_not_mem_cons outside)]

/-- An entry that is not listed may be set before or after. -/
theorem setTwelves_setTwelve {entries : List (Nat × Nat)} (nibbles : Nat → Nat) {index : Nat}
    (value : Nat) (outside : index ∉ entries.map Prod.fst) :
    setTwelves entries (setTwelve nibbles index value)
      = setTwelve (setTwelves entries nibbles) index value := by
  induction entries generalizing nibbles with
  | nil => rfl
  | cons entry rest ih =>
    rw [List.map_cons] at outside
    rw [setTwelves, setTwelves, setTwelve_comm _ _ _ (List.ne_of_not_mem_cons outside),
      ih _ (List.not_mem_of_not_mem_cons outside)]

/-- **Setting the entries back** to what they were restores the table. -/
theorem setTwelves_restore {entries : List (Nat × Nat)} {nibbles : Nat → Nat}
    (distinct : (entries.map Prod.fst).Nodup) (small : ∀ count, nibbles count < 16) :
    setTwelves (entries.map fun entry => (entry.1, twelve nibbles entry.1)) (setTwelves entries nibbles)
      = nibbles := by
  induction entries with
  | nil => rfl
  | cons entry rest ih =>
    rw [List.map_cons, List.nodup_cons] at distinct
    have same : (rest.map fun entry => (entry.1, twelve nibbles entry.1)).map Prod.fst
        = rest.map Prod.fst := by
      rw [List.map_map]
      rfl
    rw [List.map_cons, setTwelves, setTwelves, setTwelves_setTwelve _ _ distinct.1,
      setTwelve_setTwelve, setTwelves_setTwelve _ _ (by rw [same]; exact distinct.1), ih distinct.2,
      setTwelve_twelve small]

/-! ### On bytes -/

set_option maxRecDepth 20000 in
/-- The high nibble of one byte with the low nibble of another. -/
theorem high_or_low (high low : UInt8) :
    (high &&& 0xf0) ||| (low &&& 0x0f) = UInt8.ofNat (high.toNat / 16 * 16 + low.toNat % 16) := by
  have masks : ∀ value < 256, value &&& 240 = 2 ^ 4 * (value / 16) := by decide
  have upper := masks _ high.toNat_lt
  have lower := Nat.and_two_pow_sub_one_eq_mod low.toNat 4
  have bound := high.toNat_lt
  apply UInt8.toNat_inj.mp
  rw [UInt8.toNat_ofNat', UInt8.toNat_or, UInt8.toNat_and, UInt8.toNat_and]
  show (high.toNat &&& 240) ||| (low.toNat &&& 2 ^ 4 - 1) = _
  rw [upper, lower, ← Nat.two_pow_add_eq_or_of_lt (by omega)]
  omega

namespace Image

/-- The nibble `count` places behind `base`. -/
def nibble (image : Image) (base count : Nat) : Nat :=
  (image.get (base + count / 2)).toNat / 16 ^ (count % 2) % 16

theorem nibble_lt (image : Image) (base count : Nat) : image.nibble base count < 16 :=
  Nat.mod_lt _ (by decide)

theorem nibble_congr {first second : Image} {base count : Nat}
    (same : second.get (base + count / 2) = first.get (base + count / 2)) :
    second.nibble base count = first.nibble base count := by
  rw [nibble, same, nibble]

/-- A byte is its two nibbles. -/
theorem get_of_nibbles {first second : Image} {base other index : Nat}
    (low : second.nibble other (2 * index) = first.nibble base (2 * index))
    (high : second.nibble other (2 * index + 1) = first.nibble base (2 * index + 1)) :
    second.get (other + index) = first.get (base + index) := by
  have places : 2 * index % 2 = 0 ∧ 2 * index / 2 = index ∧ (2 * index + 1) % 2 = 1 ∧
      (2 * index + 1) / 2 = index := by omega
  rw [nibble, nibble, places.1, places.2.1] at low
  rw [nibble, nibble, places.2.2.1, places.2.2.2] at high
  have bound := (second.get (other + index)).toNat_lt
  have bound' := (first.get (base + index)).toNat_lt
  apply UInt8.toNat_inj.mp
  omega

/-- The two bytes at an entry, as a number. -/
def pair (image : Image) (offset : Nat) : Nat :=
  (image.get offset).toNat + 256 * (image.get (offset + 1)).toNat

/-- **The entry is twelve bits of the two bytes.** -/
theorem twelve_nibble (image : Image) (base index : Nat) :
    twelve (image.nibble base) index
      = if index % 2 = 0 then image.pair (base + index * 3 / 2) % 4096
        else image.pair (base + index * 3 / 2) / 16 := by
  have bound := (image.get (base + index * 3 / 2)).toNat_lt
  have bound' := (image.get (base + index * 3 / 2 + 1)).toNat_lt
  unfold twelve nibble pair
  by_cases even : index % 2 = 0
  · have places : 3 * index / 2 = index * 3 / 2 ∧ (3 * index + 1) / 2 = index * 3 / 2 ∧
        (3 * index + 2) / 2 = index * 3 / 2 + 1 ∧ 3 * index % 2 = 0 ∧ (3 * index + 1) % 2 = 1 ∧
        (3 * index + 2) % 2 = 0 := by omega
    obtain ⟨one, two, three, first, second, third⟩ := places
    rw [if_pos even, one, two, three, first, second, third, ← Nat.add_assoc]
    omega
  · have places : 3 * index / 2 = index * 3 / 2 ∧ (3 * index + 1) / 2 = index * 3 / 2 + 1 ∧
        (3 * index + 2) / 2 = index * 3 / 2 + 1 ∧ 3 * index % 2 = 1 ∧ (3 * index + 1) % 2 = 0 ∧
        (3 * index + 2) % 2 = 1 := by omega
    obtain ⟨one, two, three, first, second, third⟩ := places
    rw [if_neg even, one, two, three, first, second, third, ← Nat.add_assoc]
    omega

/-- The two bytes of the entry `index` after it is set. -/
def twelveBytes (image : Image) (offset index value : Nat) : Bytes :=
  if index % 2 = 0 then
    [UInt8.ofNat (value % 256),
      UInt8.ofNat ((image.get (offset + 1)).toNat / 16 * 16 + value / 256 % 16)]
  else
    [UInt8.ofNat ((image.get offset).toNat % 16 + value % 16 * 16), UInt8.ofNat (value / 16 % 256)]

@[simp] theorem twelveBytes_length (image : Image) (offset index value : Nat) :
    (image.twelveBytes offset index value).length = 2 := by
  unfold twelveBytes
  split <;> rfl

/-- The image with the entry at `index` of the table at `base` set. -/
def setTwelve (image : Image) (base index value : Nat) : Image :=
  image.write (base + index * 3 / 2) (image.twelveBytes (base + index * 3 / 2) index value)

theorem setTwelve_get_of_outside (image : Image) {base index : Nat} (value : Nat) {place : Nat}
    (outside : place < base + index * 3 / 2 ∨ base + index * 3 / 2 + 2 ≤ place) :
    (image.setTwelve base index value).get place = image.get place := by
  apply write_get_of_outside
  rwa [twelveBytes_length]

theorem setTwelve_size (image : Image) {base index : Nat} (value : Nat)
    (inside : base + index * 3 / 2 + 1 < image.size) :
    (image.setTwelve base index value).size = image.size := by
  apply write_size_of_le
  rw [twelveBytes_length]
  omega

theorem setTwelve_get_first (image : Image) (base index value : Nat) :
    (image.setTwelve base index value).get (base + index * 3 / 2)
      = if index % 2 = 0 then UInt8.ofNat (value % 256)
        else UInt8.ofNat ((image.get (base + index * 3 / 2)).toNat % 16 + value % 16 * 16) := by
  have read := write_get_inside image (base + index * 3 / 2)
    (image.twelveBytes (base + index * 3 / 2) index value) 0 (by simp)
  rw [Nat.add_zero] at read
  rw [setTwelve, read]
  unfold twelveBytes
  split <;> rfl

theorem setTwelve_get_second (image : Image) (base index value : Nat) :
    (image.setTwelve base index value).get (base + index * 3 / 2 + 1)
      = if index % 2 = 0 then
          UInt8.ofNat ((image.get (base + index * 3 / 2 + 1)).toNat / 16 * 16 + value / 256 % 16)
        else UInt8.ofNat (value / 16 % 256) := by
  rw [setTwelve, write_get_inside _ _ _ 1 (by simp)]
  unfold twelveBytes
  split <;> rfl

/-- **The update of the two bytes is the update of the nibbles.** -/
theorem nibble_setTwelve (image : Image) (base index value : Nat) :
    (image.setTwelve base index value).nibble base
      = Library.setTwelve (image.nibble base) index value := by
  funext count
  have old := (image.get (base + index * 3 / 2)).toNat_lt
  have old' := (image.get (base + index * 3 / 2 + 1)).toNat_lt
  obtain first | second | outside : count / 2 = index * 3 / 2 ∨ count / 2 = index * 3 / 2 + 1 ∨
      (count / 2 < index * 3 / 2 ∨ index * 3 / 2 + 2 ≤ count / 2) := by omega
  · rw [nibble, first, setTwelve_get_first]
    by_cases even : index % 2 = 0
    · -- the byte is the low two thirds of the entry
      rw [if_pos even, UInt8.toNat_ofNat']
      obtain rfl | rfl : count = 3 * index + 0 ∨ count = 3 * index + 1 := by omega
      · have low : (3 * index + 0) % 2 = 0 := by omega
        rw [setTwelve_at _ _ _ (by decide), low]
        omega
      · have high : (3 * index + 1) % 2 = 1 := by omega
        rw [setTwelve_at _ _ _ (by decide), high]
        omega
    · -- the low half of the byte belongs to the entry before
      rw [if_neg even, UInt8.toNat_ofNat']
      obtain before | rfl : count = 3 * index - 1 ∨ count = 3 * index + 0 := by omega
      · have low : count % 2 = 0 := by omega
        rw [setTwelve_of_ne _ _ (by omega), nibble, first, low]
        omega
      · have high : (3 * index + 0) % 2 = 1 := by omega
        rw [setTwelve_at _ _ _ (by decide), high]
        omega
  · rw [nibble, second, ← Nat.add_assoc, setTwelve_get_second]
    by_cases even : index % 2 = 0
    · -- the high half of the byte belongs to the entry behind
      rw [if_pos even, UInt8.toNat_ofNat']
      obtain rfl | behind : count = 3 * index + 2 ∨ count = 3 * index + 3 := by omega
      · have low : (3 * index + 2) % 2 = 0 := by omega
        rw [setTwelve_at _ _ _ (by decide), low]
        omega
      · have high : count % 2 = 1 := by omega
        rw [setTwelve_of_ne _ _ (by omega), nibble, second, high, ← Nat.add_assoc]
        omega
    · rw [if_neg even, UInt8.toNat_ofNat']
      obtain rfl | rfl : count = 3 * index + 1 ∨ count = 3 * index + 2 := by omega
      · have low : (3 * index + 1) % 2 = 0 := by omega
        rw [setTwelve_at _ _ _ (by decide), low]
        omega
      · have high : (3 * index + 2) % 2 = 1 := by omega
        rw [setTwelve_at _ _ _ (by decide), high]
        omega
  · rw [setTwelve_of_ne _ _ (by omega)]
    exact nibble_congr (setTwelve_get_of_outside _ _ (by omega))

end Image

end Bootsmith.Library
