import Reconnect.Text.Utf8

/-!
# Percent coding

Bytes outside the unreserved letters are written as a percent sign and two upper-case hexadecimal
digits. Decoding reads such triples and keeps every other byte.
-/

namespace Reconnect.Text

/-- The letters, digits and marks that stand for themselves. -/
def isUnreserved (b : UInt8) : Bool :=
  (65 ≤ b && b ≤ 90) || (97 ≤ b && b ≤ 122) || (48 ≤ b && b ≤ 57)
    || b == 45 || b == 46 || b == 95 || b == 126

/-- The upper-case digit of a number below sixteen. -/
def upperHexDigit (n : Nat) : Char :=
  if n < 10 then Char.ofNat (48 + n) else Char.ofNat (55 + n)

/-- How one byte stands in percent coding. -/
def percentByte (b : UInt8) : List Char :=
  if isUnreserved b then [Char.ofNat b.toNat]
  else ['%', upperHexDigit (b.toNat / 16), upperHexDigit (b.toNat % 16)]

/-- The percent coding of a text. -/
def percentEncode (s : String) : String := String.ofList ((utf8 s).flatMap percentByte)

/-- The value of a hexadecimal digit of either case. -/
def hexValue? (c : Char) : Option Nat :=
  if '0' ≤ c && c ≤ '9' then some (c.toNat - 48)
  else if 'a' ≤ c && c ≤ 'f' then some (c.toNat - 87)
  else if 'A' ≤ c && c ≤ 'F' then some (c.toNat - 55)
  else none

/-- The bytes that a percent coded text stands for. A percent sign without two digits after it
stands for itself. -/
def percentBytes : List Char → Bytes
  | [] => []
  | '%' :: h :: l :: more =>
    match hexValue? h, hexValue? l with
    | some x, some y => UInt8.ofNat (x * 16 + y) :: percentBytes more
    | _, _ => 37 :: percentBytes (h :: l :: more)
  | c :: rest => String.utf8EncodeChar c ++ percentBytes rest

/-- The text that a percent coded text stands for, if its bytes are UTF-8. -/
def percentDecode? (s : String) : Option String := ofUtf8? (percentBytes s.toList)

end Reconnect.Text
