import Blueprint.Command.Run
import Blueprint.Yaml.Contents

/-!
# The program

Looks at the files that a run may need, runs, and prints.
-/

namespace Blueprint.Command

/-- The names of a place from its text. -/
def placeOf (text : String) : List String := (Path.ofString text).names

/-- What stands at a place; what cannot be read counts as nothing. -/
def lookAt (place : List String) : IO (Option FileEntry) := do
  try
    let path ← IO.FS.realPath ⟨placeText place⟩
    if ← path.isDir then return some .directory
    else return some (.file (← IO.FS.readBinFile path))
  catch _ => return none

/-- Runs the program on the files there are. -/
def runOnFiles (arguments : List String) : IO UInt32 := do
  let here ← IO.FS.realPath ⟨"."⟩
  let workingDirectory := placeOf here.toString
  let entries ← (placesFor workingDirectory arguments).mapM fun place => do
    return (place, ← lookAt place)
  let view : FileView := ⟨workingDirectory, fun place => (entries.lookup place).join⟩
  match run (Yaml.load Yaml.Fault.message) view arguments with
  | .ok output =>
    IO.print output.stdout
    IO.eprint output.stderr
    return output.exit.toUInt32
  | .error crash =>
    IO.eprintln crash.message
    return 1

end Blueprint.Command

/-- Runs the program. -/
def main (arguments : List String) : IO UInt32 := Blueprint.Command.runOnFiles arguments
