import Vat.Delimited.SelfDelimiting
import Vat.Python.Text

/-!
# UTF-8

A Python `bytes` is a list of bytes. A text is encoded in UTF-8, and bytes are decoded with
`errors="replace"`: every longest start of a character that goes wrong becomes one replacement
character.

## Main definitions

* `Bytes`, `Str.encodeUtf8`.
* `Bytes.decodeReplace`, `Bytes.IsUtf8`.

## Main results

* `encodeUtf8_decodeReplace_eq_iff`: the bytes that survive being decoded and encoded again.
-/

namespace Vat

open Delimited

/-- A Python `bytes`. -/
abbrev Bytes := List UInt8

/-- The characters and their bytes. -/
def utf8 : PrefixCode Char UInt8 where
  word := String.utf8EncodeChar
  read raw := raw.toByteArray.utf8DecodeChar? 0
  word_ne_nil _ := String.utf8EncodeChar_ne_nil
  read_word_append c rest := by
    rw [List.toByteArray_append]
    exact ByteArray.utf8DecodeChar?_utf8EncodeChar_append

/-- `s.encode("utf-8")`. -/
def Str.encodeUtf8 (s : Str) : Bytes := utf8.encode s

namespace Bytes

/-- A byte that goes on with a character. -/
def continues (c : UInt8) : Bool := 0x80 ≤ c && c ≤ 0xbf

/-- The second byte of a character of three or four bytes. -/
def secondFits (b c : UInt8) : Bool :=
  if b = 0xe0 then 0xa0 ≤ c && c ≤ 0xbf
  else if b = 0xed then 0x80 ≤ c && c ≤ 0x9f
  else if b = 0xf0 then 0x90 ≤ c && c ≤ 0xbf
  else if b = 0xf4 then 0x80 ≤ c && c ≤ 0x8f
  else 0xe1 ≤ b && b ≤ 0xf3 && continues c

/-- How many bytes of a character that goes wrong are replaced together. -/
def malformedLength : Bytes → ℕ
  | b :: c :: rest =>
    if secondFits b c then
      match rest with
      | [] => 2
      | d :: _ => if 0xf0 ≤ b ∧ continues d then 3 else 2
    else 1
  | _ => 1

/-- `raw.decode("utf-8", errors="replace")`. -/
def decodeReplace (raw : Bytes) : Str := utf8.decode malformedLength '\uFFFD' raw

/-- The bytes of a text. -/
def IsUtf8 (raw : Bytes) : Prop := raw ∈ Set.range Str.encodeUtf8

/-- The bytes that survive being decoded and encoded again are those of a text. -/
theorem encodeUtf8_decodeReplace_eq_iff {raw : Bytes} :
    raw.decodeReplace.encodeUtf8 = raw ↔ raw.IsUtf8 :=
  PrefixCode.encode_decode_eq_iff _ _

end Bytes

end Vat
