/-!
# Decimal numbers in words of a fixed width

A number is read digit by digit. Reading fails at the first character that is no digit, or at the
first digit with which the number exceeds the greatest value of the word, whichever comes first.
One plus sign may stand before the digits.
-/

namespace Reconnect.Text

/-- Why a text is not a number. -/
inductive NumberError where
  | empty
  | invalidDigit
  | tooLarge
  deriving DecidableEq, Repr

/-- The text of an error of reading. -/
def NumberError.message : NumberError → String
  | .empty => "cannot parse integer from empty string"
  | .invalidDigit => "invalid digit found in string"
  | .tooLarge => "number too large to fit in target type"

/-- The value of a decimal digit. -/
def digit? (c : Char) : Option Nat :=
  if '0' ≤ c && c ≤ '9' then some (c.toNat - 48) else none

/-- Reads on from the value `n` of the digits so far. -/
def readDigits (max : Nat) (n : Nat) : List Char → Except NumberError Nat
  | [] => .ok n
  | c :: rest =>
    match digit? c with
    | none => .error .invalidDigit
    | some d => if n * 10 + d ≤ max then readDigits max (n * 10 + d) rest else .error .tooLarge

/-- Reads a number that is at most `max`. -/
def readNat (max : Nat) (s : String) : Except NumberError Nat :=
  match s.toList with
  | [] => .error .empty
  | ['+'] => .error .invalidDigit
  | '+' :: rest => readDigits max 0 rest
  | cs => readDigits max 0 cs

end Reconnect.Text
