import Blueprint.Build.Workspace
import Blueprint.Diagnostic.Report
import Blueprint.Grammar.Workspace
import Blueprint.Settings.Reader

/-!
# Compilation

A source is read and built. When reading stopped early nothing is built, and the workspace is the
empty one; any other problem leaves a workspace with everything that could be bound.
-/

namespace Blueprint

/-- What a compilation yields. -/
structure Compilation where
  /-- What the source declares. -/
  declared : Declared.Workspace
  /-- The workspace. -/
  workspace : Resolved.Workspace
  /-- The problems, those of the characters first, then those of the statements, then others. -/
  diagnostics : List Diagnostic

namespace Compilation

/-- Compiles a source. -/
def ofSource (source : String) (settings : Settings) : Except Number.Fault Compilation := do
  let outcome ← Grammar.parse source settings.maxErrors
  if Report.hasFatal outcome.diagnostics then
    return ⟨outcome.workspace, {}, outcome.diagnostics⟩
  else
    let built := Build.build outcome.workspace settings.impliedRelationships
    return ⟨outcome.workspace, built.value, outcome.diagnostics ++ built.diagnostics⟩

/-- What is compiled is what was read; and unless reading stopped early, what was built from it,
with what was reported on the way. -/
theorem ofSource_eq_ok_iff {source : String} {settings : Settings} {compilation : Compilation} :
    ofSource source settings = .ok compilation ↔
      ∃ outcome, Grammar.parse source settings.maxErrors = .ok outcome ∧
        compilation =
          if Report.hasFatal outcome.diagnostics then ⟨outcome.workspace, {}, outcome.diagnostics⟩
          else
            let built := Build.build outcome.workspace settings.impliedRelationships
            ⟨outcome.workspace, built.value, outcome.diagnostics ++ built.diagnostics⟩ := by
  unfold ofSource
  cases Grammar.parse source settings.maxErrors with
  | error fault =>
    constructor
    · intro h
      cases h
    · rintro ⟨_, ⟨⟩, _⟩
  | ok outcome =>
    dsimp only [bind, Except.bind]
    constructor
    · intro h
      refine ⟨outcome, rfl, ?_⟩
      split at h <;> cases h
      · rw [if_pos ‹_›]
      · rw [if_neg ‹_›]
    · rintro ⟨_, ⟨⟩, rfl⟩
      split <;> rfl

/-- Whether a compilation failed. -/
def hasFailed (compilation : Compilation) (settings : Settings) : Bool :=
  Report.hasErrors compilation.diagnostics ||
    (settings.warningsAsErrors && Report.hasWarnings compilation.diagnostics)

/-- The report on a compilation. -/
def report (compilation : Compilation) (source : String) (settings : Settings) : String :=
  Report.format source.toList compilation.diagnostics settings.contextLines

end Compilation

end Blueprint
