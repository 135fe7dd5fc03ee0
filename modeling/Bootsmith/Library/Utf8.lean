/-
**UTF-8 text and bytes.**

`toUtf8` and `fromUtf8` are inverse to each other on well-formed bytes (`fromUtf8_eq_some`).

`fromUtf8Lossy` is the lossy decoding that error messages use to show a byte name. `decodeFirst`
reads one character and the number of bytes it took. Where the bytes are no character, it takes the
longest start of one (at least one byte), and the text gets one replacement character for it.
-/

import Bootsmith.Library.Image
import Bootsmith.Library.Text

namespace Bootsmith.Library

/-- The UTF-8 bytes of a text. -/
def toUtf8 (text : Text) : Bytes := text.flatMap String.utf8EncodeChar

/-- The text of a byte string, if it is UTF-8. -/
def fromUtf8 (bytes : Bytes) : Option Text := bytes.toByteArray.utf8Decode?.map Array.toList

theorem fromUtf8_toUtf8 (text : Text) : fromUtf8 (toUtf8 text) = some text := by
  have encoded : (toUtf8 text).toByteArray = text.utf8Encode := rfl
  rw [fromUtf8, encoded, List.utf8Decode?_utf8Encode]
  rfl

/-- **A byte string has a text exactly when it is that text's encoding.** -/
theorem fromUtf8_eq_some {bytes : Bytes} {text : Text} :
    fromUtf8 bytes = some text ↔ bytes = toUtf8 text := by
  constructor
  · intro decoded
    obtain ⟨chars, found, rfl⟩ := Option.map_eq_some_iff.mp decoded
    have known : bytes.toByteArray.utf8Decode?.isSome := by rw [found]; rfl
    have back : (bytes.toByteArray.utf8Decode?.get known).toList.utf8Encode = bytes.toByteArray :=
      ByteArray.utf8Encode_get_utf8Decode?
    have same : chars.toList.utf8Encode = bytes.toByteArray := by
      simpa only [found, Option.get_some] using back
    have lists := congrArg (fun array => array.data.toList) same
    rw [List.toList_data_toByteArray] at lists
    rw [← lists]
    exact List.toList_data_toByteArray
  · rintro rfl
    exact fromUtf8_toUtf8 text

theorem toUtf8_injective : Function.Injective toUtf8 := by
  intro first second same
  apply Option.some.inj
  rw [← fromUtf8_toUtf8, same, fromUtf8_toUtf8]

theorem toUtf8_append (first second : Text) : toUtf8 (first ++ second) = toUtf8 first ++ toUtf8 second :=
  List.flatMap_append

theorem toUtf8_ne_nil {text : Text} (nonempty : text ≠ []) : toUtf8 text ≠ [] := by
  obtain ⟨char, rest, rfl⟩ := List.exists_cons_of_ne_nil nonempty
  rw [toUtf8, List.flatMap_cons]
  exact List.append_ne_nil_of_left_ne_nil String.utf8EncodeChar_ne_nil _

/-! ### Lossy decoding -/

/-- A continuation byte. -/
def IsContinuation (byte : UInt8) : Prop := 0x80 ≤ byte ∧ byte ≤ 0xBF

instance (byte : UInt8) : Decidable (IsContinuation byte) := inferInstanceAs (Decidable (_ ∧ _))

/-- The second bytes that may follow a lead byte: overlong forms, surrogates and values past
`U+10FFFF` are excluded here. -/
def SecondByte (lead byte : UInt8) : Prop :=
  IsContinuation byte ∧ (lead = 0xE0 → 0xA0 ≤ byte) ∧ (lead = 0xED → byte ≤ 0x9F) ∧
    (lead = 0xF0 → 0x90 ≤ byte) ∧ (lead = 0xF4 → byte ≤ 0x8F)

instance (lead byte : UInt8) : Decidable (SecondByte lead byte) :=
  inferInstanceAs (Decidable (_ ∧ _))

/-- The payload bits of a continuation byte. -/
def continuation (byte : UInt8) : Nat := byte.toNat % 64

/-- The first character of a byte string and its length in bytes; `none` for a broken one. -/
def decodeFirst : Bytes → Option Char × Nat
  | [] => (none, 0)
  | lead :: rest =>
    if lead < 0x80 then (some (Char.ofNat lead.toNat), 1)
    else if 0xC2 ≤ lead ∧ lead ≤ 0xF4 then
      match rest with
      | [] => (none, 1)
      | second :: rest =>
        if ¬ SecondByte lead second then (none, 1)
        else if lead < 0xE0 then
          (some (Char.ofNat (lead.toNat % 32 * 64 + continuation second)), 2)
        else
          match rest with
          | [] => (none, 2)
          | third :: rest =>
            if ¬ IsContinuation third then (none, 2)
            else if lead < 0xF0 then
              (some (Char.ofNat ((lead.toNat % 16 * 64 + continuation second) * 64
                + continuation third)), 3)
            else
              match rest with
              | [] => (none, 3)
              | fourth :: _ =>
                if ¬ IsContinuation fourth then (none, 3)
                else
                  (some (Char.ofNat (((lead.toNat % 8 * 64 + continuation second) * 64
                    + continuation third) * 64 + continuation fourth)), 4)
    else (none, 1)

/-- The characters of `bytes`, at most `fuel` of them. -/
def lossyChars : Nat → Bytes → List Char
  | 0, _ => []
  | _, [] => []
  | fuel + 1, lead :: rest =>
    let (char, taken) := decodeFirst (lead :: rest)
    char.getD (Char.ofNat 0xFFFD) :: lossyChars fuel ((lead :: rest).drop taken)

/-- The text of a byte string, with a replacement character for what is not UTF-8. Every step takes
a byte, so the length of the string is fuel enough. -/
def fromUtf8Lossy (bytes : Bytes) : String := String.ofList (lossyChars bytes.length bytes)

example : fromUtf8Lossy [0x41, 0xC3, 0xA9, 0xE2, 0x82, 0x42] = "A\u00e9\ufffdB" := by decide

end Bootsmith.Library
