/-!
# Bytes as text

Bytes are read as UTF-8 in two ways: strictly, where any ill-formed sequence makes the reading
fail, and leniently, where each maximal ill-formed part becomes one replacement character.
-/

namespace Reconnect

/-- A sequence of bytes. -/
abbrev Bytes := List UInt8

namespace Text

/-- The bytes of a text in UTF-8. -/
def utf8 (s : String) : Bytes := s.toList.flatMap String.utf8EncodeChar

/-- Stands for a part of the bytes that is not UTF-8. -/
def replacement : Char := '\ufffd'

/-- Whether a byte continues a character. -/
def isContinuation (b : UInt8) : Bool := 0x80 ≤ b && b ≤ 0xbf

/-- The six low bits of a continuation byte. -/
def payload (b : UInt8) : Nat := b.toNat % 64

/-- The bounds of the second byte of a character that starts with `b`, and how many bytes follow
`b`; absent when no character of several bytes starts with `b`. -/
def leadBounds (b : UInt8) : Option (UInt8 × UInt8 × Nat) :=
  if 0xc2 ≤ b && b ≤ 0xdf then some (0x80, 0xbf, 1)
  else if b == 0xe0 then some (0xa0, 0xbf, 2)
  else if b == 0xed then some (0x80, 0x9f, 2)
  else if 0xe1 ≤ b && b ≤ 0xef then some (0x80, 0xbf, 2)
  else if b == 0xf0 then some (0x90, 0xbf, 3)
  else if 0xf1 ≤ b && b ≤ 0xf3 then some (0x80, 0xbf, 3)
  else if b == 0xf4 then some (0x80, 0x8f, 3)
  else none

/-- One step of reading: a character, or an ill-formed part, and how many bytes after the first
belong to it. -/
def readChar (b : UInt8) (rest : Bytes) : Option Char × Nat :=
  if b < 0x80 then (some (Char.ofNat b.toNat), 0)
  else
    match leadBounds b with
    | none => (none, 0)
    | some (lo, hi, n) =>
      match rest with
      | [] => (none, 0)
      | b1 :: r1 =>
        if !(lo ≤ b1 && b1 ≤ hi) then (none, 0)
        else if n = 1 then (some (Char.ofNat (b.toNat % 32 * 64 + payload b1)), 1)
        else
          match r1 with
          | [] => (none, 1)
          | b2 :: r2 =>
            if !isContinuation b2 then (none, 1)
            else if n = 2 then
              (some (Char.ofNat (b.toNat % 16 * 4096 + payload b1 * 64 + payload b2)), 2)
            else
              match r2 with
              | [] => (none, 2)
              | b3 :: _ =>
                if !isContinuation b3 then (none, 2)
                else
                  (some (Char.ofNat (b.toNat % 8 * 262144 + payload b1 * 4096 + payload b2 * 64
                    + payload b3)), 3)

/-- The characters and ill-formed parts of at most `fuel` steps of reading. -/
def readParts : Nat → Bytes → List (Option Char)
  | 0, _ => []
  | _ + 1, [] => []
  | fuel + 1, b :: rest =>
    let r := readChar b rest
    r.1 :: readParts fuel (rest.drop r.2)

/-- The characters and ill-formed parts of a sequence of bytes. -/
def parts (bs : Bytes) : List (Option Char) := readParts bs.length bs

/-- The text that the bytes encode, if they are UTF-8. -/
def ofUtf8? (bs : Bytes) : Option String :=
  ((parts bs).mapM id).map String.ofList

/-- The text that the bytes encode, with a replacement character for each ill-formed part. -/
def ofUtf8Lossy (bs : Bytes) : String :=
  String.ofList ((parts bs).map fun c => c.getD replacement)

end Text

end Reconnect
