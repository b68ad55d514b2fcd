import Reconnect.Table
import Reconnect.Text.Alphanumeric
import Reconnect.Text.Blank
import Reconnect.Text.Utf8

/-!
# Files of variables

A line of a file of variables is blank, a comment, or a name, an equals sign and a value, with the
word `export` before it at will. In a value, single quotes keep everything, double quotes keep
spaces, a backslash keeps the next character, and a dollar sign starts the name of a variable whose
value is put in its place. Reading stops at the first line that has none of these forms.
-/

namespace Reconnect

/-- The variables of a process, by name, as bytes. -/
abbrev Variables := Table String Bytes

namespace EnvironmentFile

open Text

/-- The bytes that follow a name and an equals sign in the entries of the form `NAME=value`. A name
that holds an equals sign itself reaches into a value. -/
def bytesOf? (vars : Variables) (name : String) : Option Bytes :=
  match name.toList.dropWhile (· ≠ '=') with
  | [] => vars.get? name
  | _ :: start =>
    let head := utf8 (String.ofList (start ++ ['=']))
    (vars.get? (String.ofList (name.toList.takeWhile (· ≠ '=')))).bind fun value =>
      if head.isPrefixOf value then some (value.drop head.length) else none

/-- The text of a variable, if it has one. -/
def textOf? (vars : Variables) (name : String) : Option String :=
  if name = "" then none else (bytesOf? vars name).bind ofUtf8?

/-- Whether a name may start with a character. -/
def startsName (c : Char) : Bool := ('A' ≤ c && c ≤ 'Z') || ('a' ≤ c && c ≤ 'z') || c == '_'

/-- Whether a name may go on with a character. -/
def continuesName (c : Char) : Bool := startsName c || ('0' ≤ c && c ≤ '9') || c == '.'

/-- The name at the start of the characters and what follows it. -/
def readName (cs : List Char) : Option (String × List Char) :=
  match cs with
  | [] => none
  | c :: _ =>
    if startsName c then some (String.ofList (cs.takeWhile continuesName), cs.dropWhile continuesName)
    else none

/-- What an equals sign leaves. -/
def readEquals : List Char → Option (List Char)
  | '=' :: rest => some rest
  | _ => none

/-- How the characters of a value are being read. -/
inductive Mode where
  | plain
  /-- Between single quotes. -/
  | single
  /-- Between double quotes. -/
  | double
  /-- After the value, where only blanks and a comment may stand. -/
  | ended
  deriving DecidableEq, Repr

/-- The name of a variable that is being read. -/
inductive Reference where
  | none
  /-- After the dollar sign, the name so far in reverse. -/
  | bare (name : List Char)
  /-- Between braces, the name so far in reverse. -/
  | braced (name : List Char)
  deriving DecidableEq, Repr

/-- Puts the value of a variable, whose reversed name is given, before the reversed output. -/
def substitute (lookup : String → Option String) (name : List Char) (out : List Char) :
    List Char :=
  ((lookup (String.ofList name.reverse)).getD "").toList.reverse ++ out

/-- What a character after a backslash stands for. -/
def escaped? : Char → Option Char
  | 'n' => some '\n'
  | c => if c == '\\' || c == '\'' || c == '"' || c == '$' || c == ' ' then some c else none

/-- Reads a value. The output is kept in reverse. -/
def readValue (lookup : String → Option String) :
    Mode → Reference → List Char → List Char → Option (List Char)
  | .single, _, _, [] => Option.none
  | .double, _, _, [] => Option.none
  | _, .braced _, _, [] => Option.none
  | _, .bare name, out, [] => some (substitute lookup name out)
  | _, .none, out, [] => some out
  | .ended, r, out, c :: cs =>
    if c == ' ' || c == '\t' then readValue lookup .ended r out cs
    else if c == '#' then some out
    else Option.none
  | .single, r, out, c :: cs =>
    if c == '\'' then readValue lookup .plain r out cs
    else readValue lookup .single r (c :: out) cs
  | m, .bare name, out, c :: cs =>
    if isAlphanumeric c then readValue lookup m (.bare (c :: name)) out cs
    else if c == '\x7b' && name.isEmpty then readValue lookup m (.braced []) out cs
    else
      -- The character that ends a name belongs to the value, also a quote.
      let out := substitute lookup name out
      if c == '$' then readValue lookup m (.bare []) out cs
      else readValue lookup m .none (c :: out) cs
  | m, .braced name, out, c :: cs =>
    if !isAlphanumeric c && c == '\x7d' then
      readValue lookup m .none (substitute lookup name out) cs
    else readValue lookup m (.braced (c :: name)) out cs
  | m, .none, out, '$' :: cs => readValue lookup m (.bare []) out cs
  | m, .none, out, ['\\'] => if m == .double then Option.none else some out
  | m, .none, out, '\\' :: c :: cs =>
    match escaped? c with
    | some e => readValue lookup m .none (e :: out) cs
    | Option.none => Option.none
  | .double, .none, out, c :: cs =>
    if c == '"' then readValue lookup .plain .none out cs
    else readValue lookup .double .none (c :: out) cs
  | .plain, .none, out, c :: cs =>
    if c == '\'' then readValue lookup .single .none out cs
    else if c == '"' then readValue lookup .double .none out cs
    else if c == ' ' || c == '\t' then readValue lookup .ended .none out cs
    else readValue lookup .plain .none (c :: out) cs

/-- What a line says. -/
inductive Line where
  | nothing
  /-- A name with its value; a name alone has none. -/
  | assignment (name : String) (value : Option String)
  deriving DecidableEq, Repr

/-- The value after an equals sign. -/
def readAssignment (lookup : String → Option String) (name : String) (cs : List Char) :
    Option Line :=
  match cs.dropWhile isBlank with
  | [] => some (.assignment name none)
  | '#' :: _ => some (.assignment name none)
  | rest =>
    (readValue lookup .plain .none [] rest).map fun out =>
      .assignment name (some (String.ofList out.reverse))

/-- Reads a line. -/
def readLine (lookup : String → Option String) (cs : List Char) : Option Line :=
  match trimBlanks cs with
  | [] => some .nothing
  | '#' :: _ => some .nothing
  | line =>
    match readName line with
    | none => none
    | some (name, rest) =>
      let rest := rest.dropWhile isBlank
      match readEquals rest with
      | some rest => readAssignment lookup name rest
      | none =>
        if name = "export" then
          match readName rest with
          | none => none
          | some (name, rest) =>
            (readEquals (rest.dropWhile isBlank)).bind (readAssignment lookup name)
        else none

/-- The lines of a file without their ends. -/
def splitLines : Bytes → List Bytes
  | [] => []
  | b :: rest =>
    if b == 10 then [] :: splitLines rest
    else
      match splitLines rest with
      | [] => [[b]]
      | line :: lines => (b :: line) :: lines

/-- A line without the carriage return before its end. -/
def dropReturn (line : Bytes) : Bytes :=
  match line.reverse with
  | 13 :: rest => rest.reverse
  | _ => line

/-- Adds the variables of the lines to those of the process. A variable that is set stays as it
is; the values seen so far are known to later lines. -/
def loadLines (vars : Variables) (seen : Table String (Option String)) :
    List Bytes → Variables
  | [] => vars
  | bytes :: lines =>
    let lookup := fun name => (textOf? vars name).or ((seen.get? name).getD none)
    match (ofUtf8? (dropReturn bytes)).bind fun s => readLine lookup s.toList with
    | none => vars
    | some .nothing => loadLines vars seen lines
    | some (.assignment name value) =>
      let vars :=
        if (textOf? vars name).isSome then vars
        else vars.insert name (utf8 (value.getD ""))
      loadLines vars (seen.insert name value) lines

/-- The words of a file of variables, among them the names of the variables that its values ask
for. -/
def words (content : Bytes) : List String :=
  let text := ofUtf8Lossy content
  let split := fun (p : Char → Bool) => (text.splitToList fun c => !p c).filter (· ≠ "")
  split isAlphanumeric ++ split continuesName

/-- The variables of a process after reading a file of variables. -/
def load (vars : Variables) (content : Bytes) : Variables :=
  loadLines vars .empty (splitLines content)

end EnvironmentFile

end Reconnect
