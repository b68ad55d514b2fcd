import Reconnect.Duration

/-!
# Identifiers

Names that no two things share are drawn from a supply. The text of an identifier has the layout of
a version 4 identifier: groups of 8, 4, 4, 4 and 12 digits, the third group starting with 4.
-/

namespace Reconnect

/-- An identifier, by its place in the supply. -/
structure Identifier where
  number : Nat
  deriving DecidableEq, Repr, Inhabited

namespace Identifier

/-- The text of an identifier. -/
def text (i : Identifier) : String :=
  "00000000-0000-4000-8000-" ++ String.ofList (Duration.padded 12 i.number)

end Identifier

end Reconnect
