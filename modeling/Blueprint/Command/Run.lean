import Blueprint.Command.Path
import Blueprint.Command.Usage
import Blueprint.Compilation
import Blueprint.Json.Printer
import Blueprint.Resolved.Dump

/-!
# Running a command

What a run prints depends on the arguments, on the files and on the way YAML is loaded alone. The
settings of a compilation come from the file that is named, else from the nearest file with the
usual name in the directory of the source or one above it.
-/

namespace Blueprint.Command

/-- What a run prints, and whether it succeeded. -/
structure Output where
  /-- The exit code. -/
  exit : Nat
  /-- What is printed as a result. -/
  stdout : String := ""
  /-- What is printed as a problem. -/
  stderr : String := ""
  deriving DecidableEq, Repr

/-- Why a run ends without an answer. -/
inductive Crash where
  /-- A number in the source is not read, or one in the settings not written. -/
  | number (fault : Number.Fault)
  /-- Loading the settings breaks off. -/
  | broken (reason : String)
  /-- The settings are no text. -/
  | encoding (fault : Text.Utf8.Fault)
  /-- The path of the source is too long, or a name in it, or the path of the settings to look for
  first. -/
  | longPath (path : Path)
  /-- The path of the settings is none. -/
  | noPath

/-- What is said of a path that cannot be followed. -/
def pathProblem (reason : String) (path : Path) : String :=
  reason ++ ": " ++ Text.Quoted.ofString path.text

/-- The reason for a path that is too long. -/
def longPathReason : String := "[Errno 36] File name too long"

/-- What a crash says. -/
def Crash.message : Crash → String
  | .number fault => fault.message
  | .broken reason => reason
  | .encoding fault => fault.message
  | .longPath path => pathProblem longPathReason path
  | .noPath => "embedded null byte"

/-- Why a run yields no result: a problem to print, or a crash. -/
inductive Failure where
  /-- A problem. -/
  | problem (message : String)
  /-- A crash. -/
  | crash (crash : Crash)

/-- The name of the files with settings. -/
def settingsName : String := ".archdsl.yaml"

/-- The places of the files with settings for a source in a directory, the nearest first. -/
def settingsPlaces (directory : List String) : List (List String) :=
  (List.range (directory.length + 1)).map fun up =>
    directory.take (directory.length - up) ++ [settingsName]

/-- The content of a file at a place, if there is one. -/
def fileAt? (view : FileView) (place : List String) : Option (List String × ByteArray) :=
  match view.at? place with
  | some (.file bytes) => some (place, bytes)
  | _ => none

section Settings

variable (load : Settings.Loader)

/-- The settings that the octets of a file give. -/
def settingsOf (label : String) (bytes : ByteArray) : Except Failure Settings :=
  match fileText bytes with
  | .error fault => .error (.crash (.encoding fault))
  | .ok text =>
    match Settings.ofText load text with
    | .ok settings => .ok settings
    | .error (.refused issue) => .error (.problem (issue.message label))
    | .error (.number fault) => .error (.crash (.number fault))
    | .error (.broken reason) => .error (.crash (.broken reason))

/-- The settings of a file that is named. -/
def namedSettings (view : FileView) (path : Path) : Except Failure Settings :=
  let unreadable := fun reason =>
    .error (.problem ("Cannot read config file: " ++ pathProblem reason path))
  match view.locate path with
  | .missing => .error (.problem ("Config file not found: " ++ path.text))
  | .notDirectory => unreadable "[Errno 20] Not a directory"
  | .directory _ => unreadable "[Errno 21] Is a directory"
  | .tooLong => unreadable longPathReason
  | .noPath => .error (.crash .noPath)
  | .file _ bytes => settingsOf load path.text bytes

/-- The settings for a source in a directory. The place that is looked at first has the longest
path. -/
def nearestSettings (view : FileView) (directory : List String) : Except Failure Settings :=
  if Path.lengthLimit < (placeText (directory ++ [settingsName])).utf8ByteSize then
    .error (.crash (.longPath ⟨"/", directory ++ [settingsName]⟩))
  else
    match (settingsPlaces directory).findSome? (fileAt? view) with
    | some (place, bytes) => settingsOf load (placeText place) bytes
    | none => .ok {}

/-- The settings for a source. -/
def settingsFor (view : FileView) (config : Option String) (directory : List String) :
    Except Failure Settings :=
  match config with
  | some name => namedSettings load view (.ofString name)
  | none => nearestSettings load view directory

end Settings

/-- What a crash or a problem prints. -/
def ofFailure : Failure → Except Crash Output
  | .problem message => .ok { exit := 1, stderr := lines ["Error: " ++ message] }
  | .crash crash => .error crash

/-- Prints the tokens of a source. -/
def printTokens (source : String) : Except Crash Output :=
  match TokenStream.ofString source with
  | .error fault => .error (.number fault)
  | .ok stream =>
    let report :=
      if stream.diagnostics.isEmpty then ""
      else lines [Report.format source.toList stream.diagnostics 2]
    .ok
      { exit := if Report.hasErrors stream.diagnostics then 1 else 0
        stdout := lines (stream.tokens.map Token.listing)
        stderr := report }

/-- Prints the problems of a compilation. -/
def printProblems (path : Path) (source : String) (settings : Settings)
    (compilation : Compilation) : Output :=
  if compilation.diagnostics.isEmpty then { exit := 0, stdout := lines ["No issues found."] }
  else
    let report := compilation.report source settings
    if compilation.hasFailed settings then
      { exit := 1, stdout := lines [report, "Check failed for '" ++ path.text ++ "'."] }
    else { exit := 0, stdout := lines [report, "No errors found."] }

/-- Prints the workspace of a compilation, or its problems if it failed. -/
def printWorkspace (source : String) (settings : Settings) (compilation : Compilation) :
    Output :=
  if compilation.hasFailed settings then
    { exit := 1, stderr := lines [compilation.report source settings] }
  else { exit := 0, stdout := lines [compilation.workspace.toJson.renderIndented] }

/-- Compiles the octets of a file. -/
def compileBytes (path : Path) (bytes : ByteArray) (settings : Settings) :
    Except Failure (String × Compilation) :=
  match fileText bytes with
  | .error fault =>
    .error (.problem ("Cannot read source file " ++ path.text ++ ": " ++ fault.message))
  | .ok source =>
    match Compilation.ofSource source settings with
    | .error fault => .error (.crash (.number fault))
    | .ok compilation => .ok (source, compilation)

section Run

variable (load : Settings.Loader)

/-- Compiles a file with its settings, which are read first. -/
def compileFile (view : FileView) (path : Path) (config : Option String)
    (place : List String) (bytes : ByteArray) :
    Except Failure (Settings × String × Compilation) := do
  let settings ← settingsFor load view config place.dropLast
  let (source, compilation) ← compileBytes path bytes settings
  return (settings, source, compilation)

/-- Runs a command for a file. -/
def runVerb (view : FileView) (verb : Verb) (file : String) (config : Option String) :
    Except Crash Output :=
  let path := Path.ofString file
  match view.locate path with
  | .file place bytes =>
    match verb with
    | .tokens =>
      match fileText bytes with
      | .error fault => ofFailure (.problem fault.message)
      | .ok source => printTokens source
    | .check =>
      match compileFile load view path config place bytes with
      | .error failure => ofFailure failure
      | .ok (settings, source, compilation) =>
        .ok (printProblems path source settings compilation)
    | .dump =>
      match compileFile load view path config place bytes with
      | .error failure => ofFailure failure
      | .ok (settings, source, compilation) => .ok (printWorkspace source settings compilation)
  | .tooLong => .error (.longPath path)
  | _ => ofFailure (.problem ("file '" ++ path.text ++ "' does not exist."))

/-- Does what a request asks for. -/
def answer (view : FileView) : Request → Except Crash Output
  | .help verb => .ok { exit := 0, stdout := help verb }
  | .refused verb misuse => .ok { exit := 2, stderr := complaint verb misuse }
  | .run verb file config => runVerb load view verb file config

/-- Runs the program. -/
def run (view : FileView) (arguments : List String) : Except Crash Output :=
  answer load view (.ofArguments arguments)

end Run

/-! ## What a run looks at -/

/-- The places on the way along some names. -/
def placesAlong (place : List String) : List String → List (List String)
  | [] => [place]
  | name :: names =>
    place :: placesAlong (if name = ".." then place.dropLast else place ++ [name]) names

/-- The places that a run may look at. -/
def placesFor (workingDirectory : List String) (arguments : List String) : List (List String) :=
  let along := fun path : Path =>
    placesAlong (if path.root = "" then workingDirectory else []) path.names
  match Request.ofArguments arguments with
  | .run _ file config =>
    let source := along (.ofString file)
    let named := match config with
      | some name => along (.ofString name)
      | none => settingsPlaces ((source.getLast?.getD []).dropLast)
    source ++ named
  | _ => []

end Blueprint.Command
