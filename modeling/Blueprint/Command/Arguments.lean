import Blueprint.Text.Digit
import Blueprint.Text.Quoted

/-!
# The arguments of the command line

The first plain argument is a command, and everything after it belongs to the command, which takes
one file. Options may stand anywhere and may be shortened as long as they are told apart. After `--`
all arguments are plain.
-/

namespace Blueprint.Command

/-- The options. -/
inductive Flag where
  | help | config
  deriving DecidableEq, Repr

/-- The ways to write an option in full. -/
def Flag.spellings : Flag → List String
  | .help => ["-h", "--help"]
  | .config => ["--config"]

/-- The name of an option in messages. -/
def Flag.label (flag : Flag) : String := String.intercalate "/" flag.spellings

/-- The commands. -/
inductive Verb where
  | tokens | check | dump
  deriving DecidableEq, Repr

namespace Verb

/-- All commands. -/
def all : List Verb := [.tokens, .check, .dump]

/-- The name of a command. -/
def label : Verb → String
  | .tokens => "tokens"
  | .check => "check"
  | .dump => "dump"

/-- The command with a name. -/
def ofLabel? (label : String) : Option Verb := all.find? fun verb => verb.label == label

/-- The options of a command. -/
def flags : Verb → List Flag
  | .tokens => [.help]
  | .check | .dump => [.help, .config]

end Verb

/-- What is wrong with arguments. -/
inductive Misuse where
  /-- A shortened option can be several options. -/
  | ambiguous (text : String) (spellings : List String)
  /-- An option that takes no value has one. -/
  | unexpectedValue (flag : Flag) (value : String)
  /-- An option lacks its value. -/
  | missingValue (flag : Flag)
  /-- The file is missing. -/
  | missingFile
  /-- There is no such command. -/
  | unknownCommand (text : String)
  /-- Some arguments are left over. -/
  | unrecognized (texts : List String)
  deriving DecidableEq, Repr

/-- The wording of a misuse. -/
def Misuse.message : Misuse → String
  | .ambiguous text spellings =>
    "ambiguous option: " ++ text ++ " could match " ++ String.intercalate ", " spellings
  | .unexpectedValue flag value =>
    "argument " ++ flag.label ++ ": ignored explicit argument " ++ Text.Quoted.ofString value
  | .missingValue flag => "argument " ++ flag.label ++ ": expected one argument"
  | .missingFile => "the following arguments are required: file"
  | .unknownCommand text =>
    "argument COMMAND: invalid choice: " ++ Text.Quoted.ofString text ++ " (choose from " ++
      String.intercalate ", " (Verb.all.map fun verb => "'" ++ verb.label ++ "'") ++ ")"
  | .unrecognized texts => "unrecognized arguments: " ++ String.intercalate " " texts

/-! ## Words -/

/-- An argument by its form. -/
inductive Word where
  /-- A plain argument. -/
  | plain (text : String)
  /-- The mark `--`. -/
  | mark
  /-- An option; the value may follow in the next argument. -/
  | flag (flag : Flag)
  /-- An option with a value after `=`. -/
  | flagWith (flag : Flag) (value : String)
  /-- The short option for help, with further letters for short options after it. -/
  | helpWith (letters : List Char)
  /-- An option that is not known. -/
  | unknown (text : String)
  deriving DecidableEq, Repr

/-- Whether a text after a minus sign makes a number; one line end after it does not count. -/
def isNumber (text : List Char) : Bool :=
  let isDigit := fun c => (Text.decimalValue? c).isSome
  let text := if text.getLast? == some '\n' then text.dropLast else text
  let rest := text.dropWhile isDigit
  (!text.isEmpty && rest.isEmpty) ||
    (rest.head? == some '.' && !rest.tail.isEmpty && rest.tail.all isDigit)

/-- The options whose spellings satisfy a condition. -/
def matching (flags : List Flag) (condition : String → Bool) : List (Flag × String) :=
  flags.flatMap fun flag => (flag.spellings.filter condition).map fun spelling => (flag, spelling)

/-- A text up to its first `=`, and what follows. -/
def splitValue (text : String) : String × Option String :=
  let name := text.toList.takeWhile (· ≠ '=')
  match text.toList.drop name.length with
  | _ :: value => (String.ofList name, some (String.ofList value))
  | [] => (text, none)

/-- An option, with its value if it has one. The value of a short option that takes none is read as
further short options. -/
def Word.ofFlag (flag : Flag) (spelling : String) : Option String → Word
  | some value =>
    if spelling = "-h" && value ≠ "" then .helpWith value.toList else .flagWith flag value
  | none => .flag flag

/-- The word that an argument is before the mark. -/
def wordOf (flags : List Flag) (text : String) : Except Misuse Word :=
  let (name, value) := splitValue text
  match text.toList with
  | '-' :: second :: rest =>
    match matching flags (· == text), matching flags (· == name) with
    | (flag, _) :: _, _ => .ok (.flag flag)
    | [], (flag, spelling) :: _ => .ok (.ofFlag flag spelling value)
    | [], [] =>
      let unknown : Word :=
        if isNumber (second :: rest) || (second :: rest).contains ' ' then .plain text
        else .unknown text
      if second = '-' then
        match matching flags (·.startsWith name) with
        | [] => .ok unknown
        | [(flag, spelling)] => .ok (.ofFlag flag spelling value)
        | several => .error (.ambiguous text (several.map Prod.snd))
      else if second = 'h' then .ok (.helpWith rest)
      else .ok unknown
  | _ => .ok (.plain text)

/-- The words that arguments are. -/
def wordsOf (flags : List Flag) : List String → Except Misuse (List Word)
  | [] => .ok []
  | text :: rest =>
    if text = "--" then .ok (.mark :: rest.map .plain)
    else do
      let word ← wordOf flags text
      let words ← wordsOf flags rest
      return word :: words

/-- What the letters after the short option for help do: each asks for help again, and anything else
is a value. -/
def letterMisuse : List Char → Option Misuse
  | [] => none
  | 'h' :: rest => letterMisuse rest
  | rest => some (.unexpectedValue .help (String.ofList rest))

/-! ## Commands -/

/-- What the arguments ask for. -/
inductive Request where
  /-- Help about the program, or about a command. -/
  | help (verb : Option Verb)
  /-- Nothing that can be done. -/
  | refused (verb : Option Verb) (misuse : Misuse)
  /-- A command for a file, with settings from another file if one is named. -/
  | run (verb : Verb) (file : String) (config : Option String)
  deriving DecidableEq, Repr

/-- What a command was given so far. -/
structure Given where
  /-- The file. -/
  file : Option String := none
  /-- The file with settings. -/
  config : Option String := none
  /-- What is left over. -/
  extras : List String := []

/-- What the words after a command give. Reading ends early for help and for misuse. -/
def readWords (verb : Verb) : Given → List Word → Except Request Given
  | given, [] => .ok given
  | given, .unknown text :: rest =>
    readWords verb { given with extras := given.extras ++ [text] } rest
  | _, .helpWith letters :: _ =>
    match letterMisuse letters with
    | some misuse => .error (.refused (some verb) misuse)
    | none => .error (.help (some verb))
  | given, .flagWith flag value :: rest =>
    match flag with
    | .help => .error (.refused (some verb) (.unexpectedValue .help value))
    | .config => readWords verb { given with config := some value } rest
  | given, .flag flag :: rest =>
    match flag, rest with
    | .help, _ => .error (.help (some verb))
    | .config, .plain value :: rest => readWords verb { given with config := some value } rest
    | .config, _ => .error (.refused (some verb) (.missingValue .config))
  | given, .mark :: .plain text :: rest =>
    match given.file with
    | none => readWords verb { given with file := some text } rest
    | some _ => readWords verb { given with extras := given.extras ++ ["--", text] } rest
  | given, .mark :: rest =>
    readWords verb { given with extras := given.extras ++ ["--"] } rest
  | given, .plain text :: rest =>
    match given.file, rest with
    | none, .mark :: rest => readWords verb { given with file := some text } rest
    | none, rest => readWords verb { given with file := some text } rest
    | some _, rest => readWords verb { given with extras := given.extras ++ [text] } rest

/-- What the arguments of a command ask for, given what is left over before the command. -/
def requestOf (verb : Verb) (before : List String) (arguments : List String) : Request :=
  match wordsOf verb.flags arguments with
  | .error misuse => .refused (some verb) misuse
  | .ok words =>
    match readWords verb {} words with
    | .error request => request
    | .ok given =>
      match given.file with
      | none => .refused (some verb) .missingFile
      | some file =>
        let extras := before ++ given.extras
        if extras.isEmpty then .run verb file given.config
        else .refused none (.unrecognized extras)

/-- What the words before a command ask for, given the arguments that they are. -/
def readBefore (extras : List String) : List Word → List String → Request
  | .unknown text :: words, _ :: arguments => readBefore (extras ++ [text]) words arguments
  | .helpWith letters :: _, _ =>
    match letterMisuse letters with
    | some misuse => .refused none misuse
    | none => .help none
  | .flagWith flag value :: _, _ => .refused none (.unexpectedValue flag value)
  | .flag _ :: _, _ => .help none
  | [.mark], _ => .refused none (.unrecognized (extras ++ ["--"]))
  | _, name :: arguments =>
    match Verb.ofLabel? name with
    | some verb => requestOf verb extras arguments
    | none => .refused none (.unknownCommand name)
  | _, [] => if extras.isEmpty then .help none else .refused none (.unrecognized extras)

/-- What the arguments of the program ask for. -/
def Request.ofArguments (arguments : List String) : Request :=
  match wordsOf [.help] arguments with
  | .error misuse => .refused none misuse
  | .ok words => readBefore [] words arguments

end Blueprint.Command
