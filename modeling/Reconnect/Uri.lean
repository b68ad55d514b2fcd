import Reconnect.Text.Percent

/-!
# Addresses with an authority

An address has the form `scheme://[user[:password]@]host[:port][/path][?query][#fragment]`. Spaces
and controls at its ends are dropped, and so are tabs and line ends anywhere. The path, which may
also begin with a backslash after the port, comes without its dot segments; user, password and
query stay in percent coding.
-/

namespace Reconnect

/-- The parts of an address. -/
structure Uri where
  scheme : String
  username : List Char
  password : Option (List Char)
  host : List Char
  port : Option Nat
  /-- The pieces of the path between its slashes. -/
  segments : List (List Char)
  query : Option (List Char)
  deriving DecidableEq, Repr

namespace Uri

/-- The characters of an address without those that do not count. -/
def cleaned (s : String) : List Char :=
  let trimmed := (s.toList.dropWhile (·.toNat ≤ 0x20)).reverse.dropWhile (·.toNat ≤ 0x20)
  trimmed.reverse.filter fun c => c ≠ '\t' && c ≠ '\n' && c ≠ '\r'

/-- Whether a character ends the authority. -/
def endsAuthority (c : Char) : Bool := c == '/' || c == '?' || c == '#'

/-- The characters before and after the first `c`, if there is one. -/
def splitAt? (c : Char) (cs : List Char) : Option (List Char × List Char) :=
  match cs.dropWhile (· ≠ c) with
  | [] => none
  | _ :: rest => some (cs.takeWhile (· ≠ c), rest)

/-- The characters before and after the last `c`, if there is one. -/
def splitAtLast? (c : Char) (cs : List Char) : Option (List Char × List Char) :=
  (splitAt? c cs.reverse).map fun r => (r.2.reverse, r.1.reverse)

/-- The scheme and what follows `://`. -/
def splitScheme? (cs : List Char) : Option (String × List Char) :=
  match splitAt? ':' cs with
  | some (scheme, '/' :: '/' :: rest) => some (String.ofList scheme, rest)
  | _ => none

/-- Whether the characters are the four numbers of an address of version 4, after `seen` of them. -/
def isDottedFrom : Nat → List Char → Nat → Bool
  | 0, _, _ => false
  | fuel + 1, cs, seen =>
    let digits := cs.takeWhile fun c => '0' ≤ c && c ≤ '9'
    let value := digits.foldl (fun n c => n * 10 + (c.toNat - 48)) 0
    let plain := match digits with
      | [] => false
      | '0' :: _ :: _ => false
      | _ => value ≤ 255
    if !plain then false
    else
      match cs.dropWhile fun c => '0' ≤ c && c ≤ '9' with
      | [] => seen = 3
      | '.' :: rest => if seen < 3 then isDottedFrom fuel rest (seen + 1) else false
      | _ => false

/-- Whether the characters are the groups of an address of version 6, after `seen` of them.
`compressed` tells whether a double colon stood before. -/
def isGroupedFrom : Nat → List Char → Nat → Bool → Bool
  | 0, _, _, _ => false
  | _ + 1, [], seen, compressed => compressed || seen = 8
  | fuel + 1, ':' :: rest, seen, compressed =>
    if seen < 8 && !compressed then isGroupedFrom fuel rest (seen + 1) true else false
  | fuel + 1, cs, seen, compressed =>
    if seen < 8 then
      let group := (cs.take 4).takeWhile fun c => (Text.hexValue? c).isSome
      match cs.drop group.length with
      | [] => isGroupedFrom fuel [] (seen + 1) compressed
      | [':'] => false
      | ':' :: rest => isGroupedFrom fuel rest (seen + 1) compressed
      | '.' :: _ =>
        !group.isEmpty && seen ≤ 6 && isDottedFrom (cs.length + 1) cs 0
          && (compressed || seen = 6)
      | _ => false
    else false

/-- Whether the characters are an address of version 6. -/
def isVersion6 (cs : List Char) : Bool :=
  match cs with
  | [] | [_] => false
  | ':' :: ':' :: rest => isGroupedFrom (cs.length + 1) rest 1 true
  | ':' :: _ => false
  | _ => isGroupedFrom (cs.length + 1) cs 0 false

/-- The characters that no host name holds. -/
def forbiddenInHost : List Char :=
  ['\x00', '\t', '\n', '\r', ' ', '#', '/', ':', '<', '>', '?', '@', '[', '\\', ']', '^', '|']

/-- The host, which may be empty, and what follows it. -/
def readHost (cs : List Char) : Option (List Char × List Char) :=
  match cs with
  | '[' :: rest =>
    match splitAt? ']' rest with
    | some (inner, after) =>
      let bare := match after with
        | [] => true
        | c :: _ => c == ':'
      if bare && isVersion6 inner then some (inner, after) else none
    | none => none
  | _ =>
    let host := cs.takeWhile (· ≠ ':')
    if host.any (forbiddenInHost.contains ·) then none else some (host, cs.dropWhile (· ≠ ':'))

/-- The port after a host, absent if there are no digits, and what follows it, which is nothing or
begins with a backslash. -/
def readPort : List Char → Option (Option Nat × List Char)
  | [] => some (none, [])
  | ':' :: cs =>
    let isDigit := fun (c : Char) => '0' ≤ c && c ≤ '9'
    let digits := cs.takeWhile isDigit
    let value := digits.foldl (fun n c => n * 10 + (c.toNat - 48)) 0
    let port := if digits.isEmpty then none else some value
    match cs.dropWhile isDigit with
    | [] => if value ≤ 65535 then some (port, []) else none
    | '\\' :: rest => if value ≤ 65535 then some (port, '\\' :: rest) else none
    | _ => none
  | _ => none

/-- The pieces between slashes. -/
def splitSlashes : List Char → List (List Char)
  | [] => [[]]
  | c :: rest =>
    if c = '/' then [] :: splitSlashes rest
    else
      match splitSlashes rest with
      | [] => [[c]]
      | piece :: pieces => (c :: piece) :: pieces

/-- The number of dots that a piece of a path stands for, if it is one or two. -/
def dots? (piece : List Char) : Option Nat :=
  let plain := (String.ofList (piece.map Char.toLower)).replace "%2e" "."
  if plain = "." then some 1 else if plain = ".." then some 2 else none

/-- Whether a piece of a path looks like the letter of a drive. -/
def isDrive : List Char → Bool
  | [c, d] => (('A' ≤ c && c ≤ 'Z') || ('a' ≤ c && c ≤ 'z')) && (d == ':' || d == '|')
  | _ => false

/-- The reversed pieces once two dots have gone up. The letter of a drive stays. -/
def goUp : List (List Char) → List (List Char)
  | [] => []
  | piece :: before => if isDrive piece then piece :: before else before

/-- The pieces of a path without dots, given the reversed pieces before them. A path that ends in
dots ends in a slash. -/
def withoutDots (before : List (List Char)) : List (List Char) → List (List Char)
  | [] => before.reverse
  | piece :: rest =>
    match dots? piece with
    | none => withoutDots (piece :: before) rest
    | some n =>
      let kept := if n = 2 then goUp before else before
      withoutDots (if rest.isEmpty then [] :: kept else kept) rest

/-- The parts of an address. -/
def parse? (s : String) : Option Uri := do
  let (scheme, rest) ← splitScheme? (cleaned s)
  let authority := rest.takeWhile fun c => !endsAuthority c
  let after := rest.dropWhile fun c => !endsAuthority c
  let (user, place) := (splitAtLast? '@' authority).getD ([], authority)
  let (username, password) := match splitAt? ':' user with
    | some (name, secret) => (name, if secret.isEmpty then none else some secret)
    | none => (user, none)
  let (host, afterHost) ← readHost place
  let (port, afterPort) ← readPort afterHost
  let named := !username.isEmpty || password.isSome
  let markOnly := authority.length = place.length + 1 && !after.isEmpty
  if host.isEmpty && (!afterHost.isEmpty || named || markOnly) then none
  else
    let unfragmented := (afterPort ++ after).takeWhile (· ≠ '#')
    let path := unfragmented.takeWhile (· ≠ '?')
    let segments := match path with
      | [] => []
      | '/' :: pieces | pieces => withoutDots [] (splitSlashes pieces)
    some {
      scheme, username, password, host, port, segments
      query := (splitAt? '?' unfragmented).map Prod.snd }

/-- The pairs of a query. Plus signs are spaces; a missing value is empty. -/
def queryPairs (query : List Char) : List (String × String) :=
  let decode := fun (cs : List Char) =>
    Text.ofUtf8Lossy (Text.percentBytes (cs.map fun c => if c = '+' then ' ' else c))
  ((String.ofList query).splitOn "&").filterMap fun pair =>
    if pair = "" then none
    else
      match splitAt? '=' pair.toList with
      | some (name, value) => some (decode name, decode value)
      | none => some (decode pair.toList, "")

end Uri

end Reconnect
