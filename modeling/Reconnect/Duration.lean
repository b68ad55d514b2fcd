/-!
# Durations

A duration is a number of units of the clock. The unit is a millisecond, unless a client counts in
parts of one; that matters only where whole milliseconds are taken of a duration. In words, a
duration of at least one second is given in seconds with at most three places, a shorter one in
milliseconds.
-/

namespace Reconnect

/-- A duration, or a moment of the virtual clock. The unit is a millisecond if nothing else is
said. -/
abbrev Millis := Nat

namespace Duration

/-- The whole milliseconds of a duration of which so many units make one, as a number of 64 bits. -/
def wholeMillis (milli : Nat) (d : Millis) : Nat := min (d / milli) 18446744073709551615

/-- The decimal digits of `n` in `width` places, leading zeros included. -/
def padded (width n : Nat) : List Char :=
  let ds := Nat.toDigits 10 n
  List.replicate (width - ds.length) '0' ++ ds

/-- The places of a fraction without its trailing zeros. -/
def fraction (thousandths : Nat) : List Char :=
  ((padded 3 thousandths).reverse.dropWhile (· == '0')).reverse

/-- A duration in words. -/
def text (ms : Millis) : String :=
  if ms = 0 then "0ns"
  else if ms < 1000 then toString ms ++ "ms"
  else
    match fraction (ms % 1000) with
    | [] => toString (ms / 1000) ++ "s"
    | places => toString (ms / 1000) ++ "." ++ String.ofList places ++ "s"

end Duration

end Reconnect
