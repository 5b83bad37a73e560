import Blueprint.Build.Issue
import Blueprint.Grammar.Issue
import Blueprint.Registry.Issue
import Blueprint.Source.Position
import Blueprint.Token.Issue

/-!
# Diagnostics

A diagnostic says what is wrong, how much it matters and where it is. What is wrong is kept as its
cause; the wording is a function of it. Fatal diagnostics and errors make a compilation fail,
warnings only on demand.
-/

namespace Blueprint

/-- How much a problem matters. -/
inductive Severity where
  | fatal | error | warning | info
  deriving DecidableEq, Repr

namespace Severity

/-- The name of a severity. -/
def label : Severity → String
  | .fatal => "fatal"
  | .error => "error"
  | .warning => "warning"
  | .info => "info"

/-- The name of a severity in capitals. -/
def heading (severity : Severity) : String :=
  String.ofList (severity.label.toList.map Char.toUpper)

/-- The severity with a name. -/
def ofLabel? : String → Option Severity
  | "fatal" => some .fatal
  | "error" => some .error
  | "warning" => some .warning
  | "info" => some .info
  | _ => none

/-- Whether a problem of this severity makes a compilation fail. -/
def isError : Severity → Bool
  | .fatal | .error => true
  | .warning | .info => false

end Severity

/-- What is wrong. -/
inductive Issue where
  /-- Something about the characters of the source. -/
  | lexical (issue : LexicalIssue)
  /-- Something about the order of tokens. -/
  | grammar (issue : GrammarIssue)
  /-- A directive that is not known is passed over. -/
  | unknownDirective (lexeme : String)
  /-- The limit of errors is reached, and the rest of the source is not read. -/
  | tooManyErrors (count : Nat)
  /-- Something about a reference. -/
  | reference (issue : ReferenceIssue)
  /-- Something about declarations that do not fit together. -/
  | build (issue : BuildIssue)
  /-- A remark in words. -/
  | note (text : String)
  deriving DecidableEq, Repr

namespace Issue

/-- The wording of a problem. -/
def message : Issue → String
  | .lexical issue => issue.message
  | .grammar issue => issue.message
  | .unknownDirective lexeme => "Unknown directive: " ++ lexeme
  | .tooManyErrors count => "Too many errors (" ++ toString count ++ "); parsing stopped"
  | .reference issue => issue.message
  | .build issue => issue.message
  | .note text => text

/-- How much a problem matters. -/
def severity : Issue → Severity
  | .lexical issue => if issue.isWarning then .warning else .error
  | .grammar _ => .error
  | .unknownDirective _ => .warning
  | .tooManyErrors _ => .fatal
  | .reference _ => .error
  | .build issue => if issue.isWarning then .warning else .error
  | .note _ => .info

end Issue

/-- A problem with its severity and place. -/
structure Diagnostic where
  /-- How much the problem matters. -/
  severity : Severity
  /-- What is wrong. -/
  issue : Issue
  /-- Where it is, if it has a place. -/
  position : Option Position
  deriving DecidableEq, Repr

namespace Diagnostic

/-- A problem of the severity that belongs to it. -/
def of (issue : Issue) (position : Option Position) : Diagnostic :=
  ⟨issue.severity, issue, position⟩

/-- The wording of a diagnostic. -/
def message (diagnostic : Diagnostic) : String := diagnostic.issue.message

/-- Whether a diagnostic makes a compilation fail. -/
def isError (diagnostic : Diagnostic) : Bool := diagnostic.severity.isError

/-- A diagnostic in one row. -/
def describe (diagnostic : Diagnostic) : String :=
  let head := diagnostic.severity.heading ++ ": " ++ diagnostic.message
  match diagnostic.position with
  | none => head
  | some position => head ++ " (" ++ position.describe ++ ")"

end Diagnostic

end Blueprint
