/-
**UUIDs given as text.**

`BLEUuid` reads a C string from its end, two characters a byte, so that the last byte of the text is
the first byte of the UUID.

* `CString` — a zero-terminated string, with the byte in front of it, which an odd number of digits
  makes the constructor read.
* `strtoul16` — `strtoul(temp, NULL, 16)` on the two-character buffer, stored in a byte.
* `BLEUuid.ofString` — the constructor; the bytes past the length stay uninitialised.
-/

import PrimoCore.Lib.Buffer

namespace PrimoCore.Ble

open PrimoCore.Lib

/-- A C string: the characters before its terminating zero, and the byte in front of the first. -/
structure CString where
  before : UInt8
  chars : List UInt8
  terminated : 0 ∉ chars
  deriving DecidableEq

/-- The character at an index; the terminating zero behind the last one. -/
def CString.charAt (text : CString) (index : Nat) : UInt8 := text.chars.getD index 0

/-- `strlen`. -/
def CString.strlen (text : CString) : Nat := text.chars.length

/-- The value of a hexadecimal digit. -/
def hexDigit (char : UInt8) : Option UInt8 :=
  if 48 ≤ char ∧ char ≤ 57 then some (char - 48)
  else if 65 ≤ char ∧ char ≤ 70 then some (char - 55)
  else if 97 ≤ char ∧ char ≤ 102 then some (char - 87)
  else none

/-- `isspace`. -/
def isSpace (char : UInt8) : Bool := char == 32 || (9 ≤ char && char ≤ 13)

/-- `strtoul` in base 16 on two characters and a zero, as a byte: leading white space and a sign are
skipped, and what is not a digit ends the number. -/
def strtoul16 (first second : UInt8) : UInt8 :=
  match hexDigit first, hexDigit second with
  | some high, some low => 16 * high + low
  | some digit, none => digit
  | none, some digit =>
      if isSpace first ∨ first = 43 then digit else if first = 45 then 0 - digit else 0
  | none, none => 0

/-- The most bytes a UUID has, `MAX_UUID_LENGTH`. -/
def maxUuidLength : Nat := 16

/-- `BLEUuid`: the bytes stored in `_data`; `_length` is their number. -/
structure BLEUuid where
  bytes : List UInt8
  short : bytes.length ≤ maxUuidLength
  deriving DecidableEq

namespace BLEUuid

/-- The constructor's loop, with the bytes stored so far and the number of characters not yet read. A
dash is skipped alone, all other characters in pairs. -/
def readFrom (text : CString) (bytes : List UInt8) : Nat → List UInt8
  | 0 => bytes
  | 1 =>
      if bytes.length < maxUuidLength then
        if text.charAt 0 = 45 then bytes
        else bytes ++ [strtoul16 text.before (text.charAt 0)]
      else bytes
  | left + 2 =>
      if bytes.length < maxUuidLength then
        if text.charAt (left + 1) = 45 then readFrom text bytes (left + 1)
        else readFrom text (bytes ++ [strtoul16 (text.charAt left) (text.charAt (left + 1))]) left
      else bytes

theorem readFrom_short (text : CString) (bytes : List UInt8) (left : Nat)
    (short : bytes.length ≤ maxUuidLength) : (readFrom text bytes left).length ≤ maxUuidLength := by
  fun_induction readFrom text bytes left with
  | case1 => exact short
  | case2 => exact short
  | case3 bytes room => rw [List.length_append]; exact room
  | case4 => exact short
  | case5 bytes left room dash ih => exact ih short
  | case6 bytes left room other ih =>
    apply ih
    rw [List.length_append]
    exact room
  | case7 => exact short

/-- `BLEUuid(str)`. -/
def ofString (text : CString) : BLEUuid where
  bytes := readFrom text [] text.strlen
  short := readFrom_short text [] text.strlen (Nat.zero_le _)

/-- `length()`. -/
def length (uuid : BLEUuid) : UInt8 := UInt8.ofNat uuid.bytes.length

/-- `data()`, where `uninit` is what the array held before. -/
def data (uuid : BLEUuid) (uninit : Memory UInt8) : Memory UInt8 := fun index =>
  uuid.bytes.getD index (uninit index)

theorem length_toNat (uuid : BLEUuid) : uuid.length.toNat = uuid.bytes.length := by
  have short := uuid.short
  simp only [maxUuidLength] at short
  rw [length, UInt8.toNat_ofNat']
  omega

theorem length_le (uuid : BLEUuid) : uuid.length.toNat ≤ maxUuidLength := by
  rw [length_toNat]
  exact uuid.short

end BLEUuid

/-- The heart rate service, `"180D"`. -/
example : (BLEUuid.ofString ⟨0, [49, 56, 48, 68], by decide⟩).bytes = [0x0D, 0x18] := by decide

end PrimoCore.Ble
