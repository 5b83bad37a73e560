import Blueprint.Command.Arguments

/-!
# Help about the command line
-/

namespace Blueprint.Command

/-- Lines of text, each with its end. -/
def lines (rows : List String) : String := String.join (rows.map (· ++ "\n"))

/-- How the program, or a command, is called. -/
def usage : Option Verb → String
  | none => "usage: archdsl [-h] COMMAND ..."
  | some .tokens => "usage: archdsl tokens [-h] file"
  | some .check => "usage: archdsl check [-h] [--config CONFIG] file"
  | some .dump => "usage: archdsl dump [-h] [--config CONFIG] file"

/-- What the program, or a command, does. -/
def purpose : Option Verb → String
  | none => "ArchDSL: architecture-as-code front end"
  | some .tokens => "Tokenize a DSL file and print one token per line."
  | some .check => "Compile a DSL file and report all diagnostics."
  | some .dump => "Compile a DSL file and print the resulting workspace model as JSON."

/-- The arguments of the program, or of a command. -/
def explanation : Option Verb → List String
  | none => [
      "positional arguments:",
      "  COMMAND",
      "    tokens    Print the token stream of a file",
      "    check     Check a file for errors",
      "    dump      Print the built workspace as JSON",
      "",
      "options:",
      "  -h, --help  show this help message and exit"]
  | some .tokens => [
      "positional arguments:",
      "  file        DSL source file",
      "",
      "options:",
      "  -h, --help  show this help message and exit"]
  | some _ => [
      "positional arguments:",
      "  file             DSL source file",
      "",
      "options:",
      "  -h, --help       show this help message and exit",
      "  --config CONFIG  Configuration file (default: nearest .archdsl.yaml above",
      "                   the source file)"]

/-- The help about the program, or about a command. -/
def help (verb : Option Verb) : String :=
  lines ([usage verb, "", purpose verb, ""] ++ explanation verb)

/-- The name of the program, or of a command. -/
def programName : Option Verb → String
  | none => "archdsl"
  | some verb => "archdsl " ++ verb.label

/-- The message about a misuse. -/
def complaint (verb : Option Verb) (misuse : Misuse) : String :=
  lines [usage verb, programName verb ++ ": error: " ++ misuse.message]

end Blueprint.Command
