import Reconnect.Text.Utf8

/-!
# Folders

A folder is a tree of files and folders below a working place. A path is read piece by piece from
there: empty pieces and single dots stay, two dots go up, any other piece goes down. Paths that
leave the tree lead nowhere, and so do paths that are too long or hold the zero character.

The tree may hold a folder of the name `/`, the root, where a path that starts with a slash begins.
-/

namespace Reconnect

/-- The place of a file or folder: the names on the way to it. -/
abbrev Place := List String

/-- What stands at a place. -/
inductive Entry where
  | file (content : Bytes)
  | folder
  deriving DecidableEq, Repr

/-- A tree of files and folders, its root always being a folder. -/
structure Folder where
  entries : List (Place × Entry) := []
  deriving Repr

namespace Folder

/-- What stands at a place. -/
def entry? (f : Folder) (p : Place) : Option Entry :=
  if p = [] then some .folder else (f.entries.find? fun e => e.1 == p).map Prod.snd

/-- Whether a folder stands at a place. -/
def isFolder (f : Folder) (p : Place) : Bool := f.entry? p == some .folder

/-- The tree with an entry at a place. -/
def put (f : Folder) (p : Place) (e : Entry) : Folder :=
  ⟨(f.entries.filter fun d => d.1 != p) ++ [(p, e)]⟩

/-- The name of the root. -/
def rootName : String := "/"

/-- The pieces of a path that lead somewhere else. -/
def pieces (path : String) : List String :=
  (if path.startsWith "/" then [rootName] else [])
    ++ (path.splitOn "/").filter fun s => s ≠ "" && s ≠ "."

/-- The most bytes of a name. -/
def longestName : Nat := 255

/-- The most bytes of a path. -/
def longestPath : Nat := 4095

/-- Whether a path can lead anywhere. -/
def isPath (path : String) : Bool :=
  path ≠ "" && path.utf8ByteSize ≤ longestPath && !path.toList.contains '\x00'
    && (path.splitOn "/").all fun s => s.utf8ByteSize ≤ longestName

/-- The place above a place, if it is in the tree. -/
def above? (p : Place) : Option Place :=
  if p = [rootName] then some p else if p = [] then none else some p.dropLast

/-- Whether only a folder can stand at the end of a path. -/
def endsInFolder (path : String) : Bool :=
  match (path.splitOn "/").getLast? with
  | some s => s == "" || s == "." || s == ".."
  | none => true

/-- The place reached from `p`. Every piece but the last has to lead to a folder. -/
def follow (f : Folder) (p : Place) : List String → Option Place
  | [] => some p
  | s :: rest =>
    if !f.isFolder p then none
    else if s = ".." then (above? p).bind fun q => f.follow q rest
    else f.follow (p ++ [s]) rest

/-- What a path leads to. -/
def at? (f : Folder) (path : String) : Option Entry :=
  if !isPath path then none
  else
    match (f.follow [] (pieces path)).bind f.entry? with
    | some (.file content) => if endsInFolder path then none else some (.file content)
    | e => e

/-- Whether a path leads to a file or folder. -/
def has (f : Folder) (path : String) : Bool := (f.at? path).isSome

/-- The bytes of the file that a path leads to. -/
def read? (f : Folder) (path : String) : Option Bytes :=
  match f.at? path with
  | some (.file content) => some content
  | _ => none

/-- The tree with `content` in the file that a path leads to. -/
def write? (f : Folder) (path : String) (content : Bytes) : Option Folder :=
  if !isPath path || endsInFolder path then none
  else
    match f.follow [] (pieces path) with
    | some p => if f.isFolder p then none else some (f.put p (.file content))
    | none => none

/-- The tree with a folder at every piece on the way from `p`. -/
def makeFrom (f : Folder) (p : Place) : List String → Option Folder
  | [] => some f
  | s :: rest =>
    if s = ".." then (above? p).bind fun q => f.makeFrom q rest
    else
      let q := p ++ [s]
      match f.entry? q with
      | some .folder => f.makeFrom q rest
      | some (.file _) => none
      | none => if s = rootName then none else (f.put q .folder).makeFrom q rest

/-- The tree with all folders on a path. -/
def makeFolders? (f : Folder) (path : String) : Option Folder :=
  if isPath path then f.makeFrom [] (pieces path) else none

/-- The files of the tree, each under its path. -/
def files (f : Folder) : List (String × Bytes) :=
  f.entries.filterMap fun e =>
    match e.2 with
    | .file content => some (String.intercalate "/" e.1, content)
    | .folder => none

/-- The characters of a reversed path without the slashes and single dots at its end. -/
def trimEnd : List Char → List Char
  | '/' :: rest => trimEnd rest
  | ['.'] => ['.']
  | '.' :: '/' :: rest => trimEnd rest
  | cs => cs

/-- The path of the folder that the last piece of a path stands in, empty for the working place. -/
def parent (path : String) : String :=
  let last := trimEnd path.toList.reverse
  let folder := String.ofList (trimEnd (last.dropWhile (· ≠ '/'))).reverse
  if folder = "" && (pieces path).length = 2 && path.startsWith "/" then rootName else folder

/-- The tree with the folder that the last piece of a path stands in. -/
def prepare? (f : Folder) (path : String) : Option Folder :=
  if parent path = "" || f.has (parent path) then some f else f.makeFolders? (parent path)

/-- The tree with a file and the folders on the way to it, as far as there can be such a file. -/
def withFile (f : Folder) (path : String) (content : Bytes) : Folder :=
  ((f.prepare? path).bind (·.write? path content)).getD f

/-- The tree with all folders on a path, as far as there can be such folders. -/
def withFolder (f : Folder) (path : String) : Folder := (f.makeFolders? path).getD f

end Folder

end Reconnect
