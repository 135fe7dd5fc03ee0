/-
**Random-access byte images.**

A file or a buffer of bytes as a size and the byte at every index, with `0` past the end. The last
part is a field of the structure, so two images with the same size and the same bytes are equal,
and a write that starts past the end fills the gap with zeros without a case of its own.

* `Image.write` is a seek followed by a `write_all`, `Image.setLen` a `set_len`;
* `Image.slice` is what a `read_exact` of that range gives (`Image.readExact` adds the end check);
* `Span` is a byte range; `Span.Apart` is the disjointness every frame lemma below asks for.
-/

import Mathlib.Data.List.Basic
import Mathlib.Data.List.GetD
import Mathlib.Tactic

namespace Bootsmith.Library

/-- A sequence of bytes. -/
abbrev Bytes := List UInt8

/-- The bytes `start .. stop` of a list. -/
def subrange (bytes : Bytes) (start stop : Nat) : Bytes := (bytes.drop start).take (stop - start)

/-- A byte image: its size and its bytes, with `0` past the end. -/
@[ext] structure Image where
  size : Nat
  get : Nat → UInt8
  zeroPast : ∀ index, size ≤ index → get index = 0

/-- A range of bytes. -/
structure Span where
  start : Nat
  count : Nat
  deriving DecidableEq, Repr

namespace Span

/-- The first index after the span. -/
def stop (span : Span) : Nat := span.start + span.count

/-- `index` lies in the span. -/
def Holds (span : Span) (index : Nat) : Prop := span.start ≤ index ∧ index < span.stop

/-- The two spans have no byte in common because one ends before the other starts. -/
def Apart (first second : Span) : Prop := first.stop ≤ second.start ∨ second.stop ≤ first.start

/-- `inner` lies in `outer`. -/
def Within (inner outer : Span) : Prop := outer.start ≤ inner.start ∧ inner.stop ≤ outer.stop

instance (span : Span) (index : Nat) : Decidable (span.Holds index) :=
  inferInstanceAs (Decidable (_ ∧ _))

instance (first second : Span) : Decidable (first.Apart second) :=
  inferInstanceAs (Decidable (_ ∨ _))

theorem Apart.symm {first second : Span} (apart : first.Apart second) : second.Apart first :=
  apart.elim Or.inr Or.inl

theorem Apart.not_holds {first second : Span} (apart : first.Apart second) {index : Nat}
    (inside : first.Holds index) : ¬ second.Holds index := by
  unfold Holds stop at *
  unfold Apart stop at apart
  omega

theorem Apart.mono {first second first' second' : Span} (apart : first.Apart second)
    (left : first'.Within first) (right : second'.Within second) : first'.Apart second' := by
  unfold Within at left right
  unfold Apart at *
  omega

theorem Within.trans {inner middle outer : Span} (one : inner.Within middle)
    (two : middle.Within outer) : inner.Within outer :=
  ⟨two.1.trans one.1, one.2.trans two.2⟩

theorem Within.refl (span : Span) : span.Within span := ⟨le_rfl, le_rfl⟩

theorem Within.holds {inner outer : Span} (within : inner.Within outer) {index : Nat}
    (inside : inner.Holds index) : outer.Holds index :=
  ⟨within.1.trans inside.1, inside.2.trans_le within.2⟩

end Span

namespace Image

/-! ### Images and byte lists -/

/-- The image of a byte list. -/
def ofBytes (bytes : Bytes) : Image where
  size := bytes.length
  get index := bytes.getD index 0
  zeroPast _ past := List.getD_eq_default _ _ past

/-- The bytes of an image. -/
def bytes (image : Image) : Bytes := (List.range image.size).map image.get

@[simp] theorem bytes_length (image : Image) : image.bytes.length = image.size := by
  simp [bytes]

theorem ofBytes_bytes (image : Image) : ofBytes image.bytes = image := by
  refine Image.ext ?_ (funext fun index => ?_)
  · simp [ofBytes, bytes]
  · by_cases inside : index < image.size
    · simp [ofBytes, bytes, inside]
    · have past : image.size ≤ index := Nat.le_of_not_lt inside
      simp [ofBytes, bytes, past, image.zeroPast index past]

theorem bytes_ofBytes (bytes : Bytes) : (ofBytes bytes).bytes = bytes := by
  refine List.ext_getElem (by simp [ofBytes]) fun index inside inside' => ?_
  simp [Image.bytes, ofBytes, inside']

/-- An image of `count` zero bytes. -/
def zeros (count : Nat) : Image := ⟨count, fun _ => 0, fun _ _ => rfl⟩

@[simp] theorem zeros_size (count : Nat) : (zeros count).size = count := rfl

@[simp] theorem zeros_get (count index : Nat) : (zeros count).get index = 0 := rfl

/-! ### Reading a range -/

/-- The bytes of a range. -/
def slice (image : Image) (start count : Nat) : Bytes :=
  (List.range count).map fun index => image.get (start + index)

@[simp] theorem slice_length (image : Image) (start count : Nat) :
    (image.slice start count).length = count := by
  simp [slice]

@[simp] theorem slice_zero (image : Image) (start : Nat) : image.slice start 0 = [] := rfl

@[simp] theorem getElem_slice (image : Image) (start count index : Nat)
    (inside : index < (image.slice start count).length) :
    (image.slice start count)[index] = image.get (start + index) := by
  simp [slice]

theorem getElem?_slice (image : Image) (start count index : Nat) (inside : index < count) :
    (image.slice start count)[index]? = some (image.get (start + index)) := by
  rw [List.getElem?_eq_getElem (by simpa using inside), getElem_slice]

theorem getD_slice (image : Image) (start : Nat) {count index : Nat} (inside : index < count) :
    (image.slice start count).getD index 0 = image.get (start + index) := by
  rw [List.getD_eq_getElem?_getD, getElem?_slice _ _ _ _ inside, Option.getD_some]

theorem slice_eq_iff (image : Image) (start : Nat) (expected : Bytes) :
    image.slice start expected.length = expected ↔
      ∀ index (inside : index < expected.length), image.get (start + index) = expected[index] := by
  constructor
  · intro equal index inside
    have read := image.getElem_slice start expected.length index (by simpa using inside)
    rw [← read]
    simp only [equal]
  · intro pointwise
    refine List.ext_getElem (by simp) fun index inside inside' => ?_
    rw [getElem_slice, pointwise index inside']

/-- A slice depends only on the bytes of its range. -/
theorem slice_congr {first second : Image} {start count : Nat}
    (same : ∀ index, start ≤ index → index < start + count → first.get index = second.get index) :
    first.slice start count = second.slice start count := by
  refine List.ext_getElem (by simp) fun index inside _ => ?_
  rw [slice_length] at inside
  rw [getElem_slice, getElem_slice, same _ (by omega) (by omega)]

theorem slice_append (image : Image) (start first second : Nat) :
    image.slice start (first + second)
      = image.slice start first ++ image.slice (start + first) second := by
  refine List.ext_getElem (by simp) fun index inside inside' => ?_
  rw [getElem_slice, List.getElem_append]
  split
  · rw [getElem_slice]
  · rename_i past
    rw [getElem_slice]
    simp only [slice_length] at *
    congr 1
    omega

theorem slice_take (image : Image) (start count taken : Nat) (within : taken ≤ count) :
    (image.slice start count).take taken = image.slice start taken := by
  obtain ⟨rest, rfl⟩ := Nat.exists_eq_add_of_le within
  rw [slice_append, List.take_append_of_le_length (by simp), List.take_of_length_le (by simp)]

theorem slice_drop (image : Image) (start count dropped : Nat) (within : dropped ≤ count) :
    (image.slice start count).drop dropped = image.slice (start + dropped) (count - dropped) := by
  obtain ⟨rest, rfl⟩ := Nat.exists_eq_add_of_le within
  rw [slice_append, List.drop_append_of_le_length (by simp), List.drop_of_length_le (by simp),
    List.nil_append, Nat.add_sub_cancel_left]

theorem subrange_slice (image : Image) (start : Nat) {count first last : Nat} (within : last ≤ count) :
    subrange (image.slice start count) first last = image.slice (start + first) (last - first) := by
  by_cases order : first ≤ last
  · rw [subrange, slice_drop _ _ _ _ (by omega), slice_take _ _ _ _ (by omega)]
  · rw [subrange, Nat.sub_eq_zero_of_le (by omega), List.take_zero, slice_zero]

/-! ### Writing a range -/

/-- Write `bytes` from `start` on, growing the image where they reach past its end. -/
def write (image : Image) (start : Nat) (bytes : Bytes) : Image where
  size := if bytes = [] then image.size else max image.size (start + bytes.length)
  get index :=
    if start ≤ index ∧ index < start + bytes.length then bytes.getD (index - start) 0
    else image.get index
  zeroPast index past := by
    by_cases empty : bytes = []
    · subst empty
      rw [if_neg (by simp), image.zeroPast index past]
    · rw [if_neg empty] at past
      rw [if_neg (by omega), image.zeroPast index (by omega)]

theorem write_size (image : Image) (start : Nat) (bytes : Bytes) :
    (image.write start bytes).size
      = if bytes = [] then image.size else max image.size (start + bytes.length) := rfl

theorem write_size_of_le (image : Image) (start : Nat) (bytes : Bytes)
    (fits : start + bytes.length ≤ image.size) : (image.write start bytes).size = image.size := by
  rw [write_size]
  split <;> omega

theorem write_size_of_ne_nil (image : Image) (start : Nat) {bytes : Bytes}
    (nonempty : bytes ≠ []) :
    (image.write start bytes).size = max image.size (start + bytes.length) :=
  if_neg nonempty

theorem size_le_write (image : Image) (start : Nat) (bytes : Bytes) :
    image.size ≤ (image.write start bytes).size := by
  rw [write_size]
  split <;> omega

theorem write_get_of_not_holds (image : Image) (start : Nat) (bytes : Bytes) {index : Nat}
    (outside : ¬ (⟨start, bytes.length⟩ : Span).Holds index) :
    (image.write start bytes).get index = image.get index :=
  if_neg outside

theorem write_get_of_outside (image : Image) (start : Nat) (bytes : Bytes) {index : Nat}
    (outside : index < start ∨ start + bytes.length ≤ index) :
    (image.write start bytes).get index = image.get index :=
  if_neg (by omega)

theorem write_get_inside (image : Image) (start : Nat) (bytes : Bytes) (index : Nat)
    (inside : index < bytes.length) :
    (image.write start bytes).get (start + index) = bytes[index] := by
  show (if _ then _ else _) = _
  rw [if_pos (by omega), Nat.add_sub_cancel_left, List.getD_eq_getElem _ _ inside]

theorem write_bytes_get (image other : Image) (start : Nat) {index : Nat}
    (inside : index < other.size) :
    (image.write start other.bytes).get (start + index) = other.get index := by
  rw [write_get_inside _ _ _ _ (by simpa using inside)]
  simp [bytes]

theorem le_write_size (image : Image) (start : Nat) (bytes : Bytes) (within : start ≤ image.size) :
    start + bytes.length ≤ (image.write start bytes).size := by
  rw [write_size]
  split
  · rename_i empty
    rwa [empty, List.length_nil, Nat.add_zero]
  · exact Nat.le_max_right _ _

/-- **A read of the written range gives the written bytes.** -/
theorem slice_write (image : Image) (start : Nat) (bytes : Bytes) :
    (image.write start bytes).slice start bytes.length = bytes :=
  (slice_eq_iff _ _ _).mpr fun index inside => write_get_inside image start bytes index inside

/-- **A read apart from the written range is unchanged.** -/
theorem slice_write_apart (image : Image) (start : Nat) (bytes : Bytes) (start' count : Nat)
    (apart : start' + count ≤ start ∨ start + bytes.length ≤ start') :
    (image.write start bytes).slice start' count = image.slice start' count :=
  slice_congr fun _ _ _ => write_get_of_outside image start bytes (by omega)

/-- A write inside a read range changes that part of what is read. -/
theorem slice_write_inside (image : Image) (start count offset : Nat) (bytes : Bytes)
    (within : offset + bytes.length ≤ count) :
    (image.write (start + offset) bytes).slice start count
      = (image.slice start count).take offset ++ bytes
        ++ (image.slice start count).drop (offset + bytes.length) := by
  obtain ⟨rest, rfl⟩ := Nat.exists_eq_add_of_le within
  rw [slice_take _ _ _ _ (by omega), slice_drop _ _ _ _ (by omega), Nat.add_sub_cancel_left,
    slice_append, slice_append, slice_write_apart _ _ _ _ _ (by omega), slice_write,
    slice_write_apart _ _ _ _ _ (by omega), ← Nat.add_assoc]

theorem write_nil (image : Image) (start : Nat) : image.write start [] = image :=
  Image.ext rfl <| funext fun index =>
    write_get_of_outside _ _ _ (by simp only [List.length_nil]; omega)

/-- Writing the bytes that are there changes nothing. -/
theorem write_self (image : Image) (start : Nat) {bytes : Bytes}
    (inside : start + bytes.length ≤ image.size) (here : image.slice start bytes.length = bytes) :
    image.write start bytes = image := by
  refine Image.ext (write_size_of_le _ _ _ inside) (funext fun index => ?_)
  by_cases held : start ≤ index ∧ index < start + bytes.length
  · obtain ⟨offset, rfl⟩ := Nat.exists_eq_add_of_le held.1
    have short : offset < bytes.length := by omega
    rw [write_get_inside _ _ _ offset short, (slice_eq_iff _ _ _).mp here offset short]
  · exact if_neg held

/-- Two writes one after the other are one write of the joined bytes. -/
theorem write_write_append (image : Image) (start : Nat) (first second : Bytes) :
    (image.write start first).write (start + first.length) second
      = image.write start (first ++ second) := by
  refine Image.ext ?_ (funext fun index => ?_)
  · by_cases noFirst : first = []
    · subst noFirst
      simp [write_nil]
    · by_cases noSecond : second = []
      · subst noSecond
        simp [write_nil]
      · rw [write_size_of_ne_nil _ _ noSecond, write_size_of_ne_nil _ _ noFirst,
          write_size_of_ne_nil _ _ (by simp [noFirst]), List.length_append]
        omega
  · by_cases inSecond : start + first.length ≤ index ∧
        index < start + first.length + second.length
    · obtain ⟨offset, rfl⟩ := Nat.exists_eq_add_of_le inSecond.1
      rw [write_get_inside _ _ _ offset (by omega), Nat.add_assoc,
        write_get_inside _ _ _ _ (by rw [List.length_append]; omega),
        List.getElem_append_right (by omega)]
      simp
    · rw [write_get_of_outside _ _ _ (by omega)]
      by_cases inFirst : start ≤ index ∧ index < start + first.length
      · obtain ⟨offset, rfl⟩ := Nat.exists_eq_add_of_le inFirst.1
        rw [write_get_inside _ _ _ offset (by omega),
          write_get_inside _ _ _ offset (by rw [List.length_append]; omega),
          List.getElem_append_left (by omega)]
      · rw [write_get_of_outside _ _ _ (by omega),
          write_get_of_outside _ _ _ (by rw [List.length_append]; omega)]

/-- Cut or zero-extend the image to `count` bytes. -/
def setLen (image : Image) (count : Nat) : Image where
  size := count
  get index := if index < count then image.get index else 0
  zeroPast index past := if_neg (by omega)

@[simp] theorem setLen_size (image : Image) (count : Nat) : (image.setLen count).size = count := rfl

theorem setLen_get (image : Image) {count index : Nat} (inside : index < count) :
    (image.setLen count).get index = image.get index := if_pos inside

/-! ### What a change leaves alone -/

/-- `image'` is at least as long as `image`, and inside `image` only the bytes of `spans` differ. -/
structure SameOutside (spans : List Span) (image image' : Image) : Prop where
  size : image.size ≤ image'.size
  get : ∀ index < image.size, (∀ span ∈ spans, ¬ span.Holds index) →
    image'.get index = image.get index

namespace SameOutside

theorem refl (spans : List Span) (image : Image) : SameOutside spans image image :=
  ⟨le_rfl, fun _ _ _ => rfl⟩

/-- The spans may be replaced by spans that cover them. -/
theorem mono {spans spans' : List Span} {image image' : Image}
    (same : SameOutside spans image image')
    (covered : ∀ span ∈ spans, ∃ span' ∈ spans', span.Within span') :
    SameOutside spans' image image' :=
  ⟨same.size, fun index inside outside => same.get index inside fun span member held => by
    obtain ⟨span', member', within⟩ := covered span member
    exact outside span' member' (within.holds held)⟩

theorem trans {spans : List Span} {first second third : Image}
    (one : SameOutside spans first second) (two : SameOutside spans second third) :
    SameOutside spans first third :=
  ⟨one.size.trans two.size, fun index inside outside =>
    (two.get index (inside.trans_le one.size) outside).trans (one.get index inside outside)⟩

theorem write {spans : List Span} (image : Image) (start : Nat) (bytes : Bytes)
    (covered : ∃ span ∈ spans, (⟨start, bytes.length⟩ : Span).Within span) :
    SameOutside spans image (image.write start bytes) :=
  ⟨size_le_write image start bytes, fun index _ outside => by
    obtain ⟨span, member, within⟩ := covered
    exact write_get_of_not_holds _ _ _ fun held => outside span member (within.holds held)⟩

/-- **A range apart from the changed spans reads as before.** -/
theorem slice {spans : List Span} {image image' : Image} (same : SameOutside spans image image')
    {start count : Nat} (inside : start + count ≤ image.size)
    (apart : ∀ span ∈ spans, (⟨start, count⟩ : Span).Apart span) :
    image'.slice start count = image.slice start count :=
  slice_congr fun index after before => same.get index (by omega) fun span member =>
    (apart span member).not_holds ⟨after, before⟩

end SameOutside

end Image

end Bootsmith.Library
