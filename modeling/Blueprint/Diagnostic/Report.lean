import Blueprint.Diagnostic.Basic
import Blueprint.Source.Excerpt

/-!
# Reports

A report numbers the diagnostics of a source and shows each with its place and an excerpt of the
source around it. Diagnostics stand in the order in which they were noticed.
-/

namespace Blueprint.Report

/-- Whether one of the diagnostics makes a compilation fail. -/
def hasErrors (diagnostics : List Diagnostic) : Bool :=
  diagnostics.any Diagnostic.isError

/-- Whether one of the diagnostics is fatal. -/
def hasFatal (diagnostics : List Diagnostic) : Bool :=
  diagnostics.any fun d => d.severity == .fatal

/-- Where nothing is an error, nothing is fatal. -/
theorem hasFatal_eq_false {diagnostics : List Diagnostic}
    (h : ∀ diagnostic ∈ diagnostics, diagnostic.isError = false) :
    hasFatal diagnostics = false := by
  refine List.any_eq_false.mpr fun diagnostic hm hs => ?_
  have he := h diagnostic hm
  rw [Diagnostic.isError, eq_of_beq hs] at he
  cases he

/-- Whether one of the diagnostics is a warning. -/
def hasWarnings (diagnostics : List Diagnostic) : Bool :=
  diagnostics.any fun d => d.severity == .warning

/-- The excerpt around the place of a diagnostic. -/
def excerpt (source : List Char) (position : Position) (context : Int) : String :=
  Excerpt.text source position.line position.column context

/-- The rows for one diagnostic, an empty one at the end. -/
def entry (source : List Char) (context : Int) (number : Nat) (diagnostic : Diagnostic) :
    List String :=
  let head := toString number ++ ". " ++ diagnostic.severity.heading ++ ": " ++ diagnostic.message
  let place := match diagnostic.position with
    | none => []
    | some position =>
      let shown := excerpt source position context
      ("   " ++ position.describe) :: (if shown.isEmpty then [] else [shown])
  head :: place ++ [""]

/-- The rows for diagnostics that are numbered from the given number on. -/
def entries (source : List Char) (context : Int) (number : Nat) :
    List Diagnostic → List String
  | [] => []
  | diagnostic :: rest =>
    entry source context number diagnostic ++ entries source context (number + 1) rest

/-- The report on the diagnostics of a source, with the given count of lines around each place. -/
def format (source : List Char) (diagnostics : List Diagnostic) (context : Int) : String :=
  if diagnostics.isEmpty then "No errors reported."
  else
    String.intercalate "\n"
      ((toString diagnostics.length ++ " error(s) found:") :: "" ::
        entries source context 1 diagnostics)

end Blueprint.Report
