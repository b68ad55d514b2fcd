/-!
# JSON values

A value keeps what its text says: a number its digits, a string its characters and its numeric
escapes, an object all of its entries, repeated names included. What a string or a number means is
decided where it is used, so a value that nobody uses may hold an escape that stands for no
character.
-/

namespace Reconnect

/-- One unit of a string: a character, or the code unit of a numeric escape. -/
inductive JsonUnit where
  | char (c : Char)
  | code (n : Nat)
  deriving DecidableEq, Repr

/-- A JSON value. -/
inductive Json where
  | null
  | bool (b : Bool)
  | number (digits : List Char)
  | string (units : List JsonUnit)
  | array (items : List Json)
  | object (entries : List (List JsonUnit × Json))
  deriving Repr, Inhabited

namespace Json

/-- The characters of the units of a string. A code unit from `d800` to `dbff` stands for a
character together with one from `dc00` to `dfff` right after it; neither stands alone. -/
def decodeUnits : List JsonUnit → Option (List Char)
  | [] => some []
  | .char c :: rest => (decodeUnits rest).map (c :: ·)
  | .code n :: rest =>
    if 0xd800 ≤ n && n ≤ 0xdbff then
      match rest with
      | .code m :: more =>
        if 0xdc00 ≤ m && m ≤ 0xdfff then
          (decodeUnits more).map
            (Char.ofNat (0x10000 + (n - 0xd800) * 1024 + (m - 0xdc00)) :: ·)
        else none
      | _ => none
    else if 0xdc00 ≤ n && n ≤ 0xdfff then none
    else (decodeUnits rest).map (Char.ofNat n :: ·)

/-- The text of the units of a string. -/
def unitsText? (us : List JsonUnit) : Option String := (decodeUnits us).map String.ofList

/-- The units of a text without escapes. -/
def unitsOf (s : String) : List JsonUnit := s.toList.map .char

/-- A text as a value. -/
def ofText (s : String) : Json := .string (unitsOf s)

/-- A number as a value. -/
def ofNat (n : Nat) : Json := .number (Nat.toDigits 10 n)

/-- An object with the given names, in order. -/
def ofFields (fs : List (String × Json)) : Json := .object (fs.map fun f => (unitsOf f.1, f.2))

/-- The text that a value holds. -/
def text? : Json → Option String
  | .string us => unitsText? us
  | _ => none

/-- The number that a value holds, if it is written as digits only and is at most `max`. -/
def nat? (max : Nat) : Json → Option Nat
  | .number ds =>
    if ds.all fun c => '0' ≤ c && c ≤ '9' then
      let n := ds.foldl (fun n c => n * 10 + (c.toNat - 48)) 0
      if n ≤ max then some n else none
    else none
  | _ => none

theorem decodeUnits_map_char (cs : List Char) : decodeUnits (cs.map .char) = some cs := by
  induction cs with
  | nil => rfl
  | cons c rest ih => simp [decodeUnits, ih]

/-- A text reads back from its value. -/
@[simp] theorem text?_ofText (s : String) : (ofText s).text? = some s := by
  simp [ofText, text?, unitsText?, unitsOf, decodeUnits_map_char]

end Json

end Reconnect
