import Blueprint.Text.Blank
import Blueprint.Text.Utf8

/-!
# Paths and files

A path is the names on the way to a file. Empty names and the name `.` are left out, and `..` is
kept, because it is followed only when the file is looked for. Names and paths that are too long
lead nowhere, nor does a path with the character U+0000.
-/

namespace Blueprint

/-- A path. -/
structure Path where
  /-- What the path starts with: nothing, `/` or `//`. -/
  root : String
  /-- The names. -/
  names : List String
  deriving DecidableEq, Repr

namespace Path

/-- The path that a text writes. -/
def ofString (text : String) : Path :=
  let root := match text.toList with
    | '/' :: '/' :: '/' :: _ => "/"
    | '/' :: '/' :: _ => "//"
    | '/' :: _ => "/"
    | _ => ""
  let names := (Text.splitOn '/' text.toList).map String.ofList
  ⟨root, names.filter fun name => name ≠ "" ∧ name ≠ "."⟩

/-- The text of a path. -/
def text (path : Path) : String :=
  let joined := path.root ++ String.intercalate "/" path.names
  if joined = "" then "." else joined

/-- The greatest count of octets of a name. -/
def nameLimit : Nat := 255

/-- The greatest count of octets of a path. -/
def lengthLimit : Nat := 4095

/-- Whether a path holds the character that no path can hold. -/
def holdsNul (path : Path) : Bool := path.text.toList.contains '\x00'

end Path

/-- What can stand at a place among the files. -/
inductive FileEntry where
  /-- A directory. -/
  | directory
  /-- A file with its content. -/
  | file (bytes : ByteArray)

/-- The files that a program sees. A place is the list of names from the root on. -/
structure FileView where
  /-- The working directory. -/
  workingDirectory : List String
  /-- What stands at a place. -/
  entry? : List String → Option FileEntry

/-- What a path leads to. -/
inductive Located where
  /-- Nothing. -/
  | missing
  /-- A name goes on from a file. -/
  | notDirectory
  /-- A name on the way, or the path, is too long. -/
  | tooLong
  /-- The path is none. -/
  | noPath
  /-- A directory at a place. -/
  | directory (place : List String)
  /-- A file at a place. -/
  | file (place : List String) (bytes : ByteArray)

namespace FileView

/-- What stands at a place; the root is a directory. -/
def at? (view : FileView) (place : List String) : Option FileEntry :=
  if place.isEmpty then some .directory else view.entry? place

/-- What some names lead to from a place on. -/
def follow (view : FileView) (place : List String) : List String → Located
  | [] =>
    match view.at? place with
    | some .directory => .directory place
    | some (.file bytes) => .file place bytes
    | none => .missing
  | name :: names =>
    match view.at? place with
    | some .directory =>
      if Path.nameLimit < name.utf8ByteSize then .tooLong
      else view.follow (if name = ".." then place.dropLast else place ++ [name]) names
    | some (.file _) => .notDirectory
    | none => .missing

/-- Where a path starts. -/
def start (view : FileView) (path : Path) : List String :=
  if path.root = "" then view.workingDirectory else []

/-- What a path leads to. -/
def locate (view : FileView) (path : Path) : Located :=
  if path.holdsNul then .noPath
  else if Path.lengthLimit < path.text.utf8ByteSize then .tooLong
  else view.follow (view.start path) path.names

end FileView

/-- The text of a place. -/
def placeText (place : List String) : String := "/" ++ String.intercalate "/" place

/-- The text that the octets of a file write. The line ends of all systems count as U+000A. -/
def fileText (bytes : ByteArray) : Except Text.Utf8.Fault String :=
  (Text.Utf8.decode bytes).map fun characters =>
    String.ofList (Text.Utf8.unifyLineEnds characters)

end Blueprint
