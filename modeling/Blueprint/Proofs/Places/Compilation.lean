import Blueprint.Compilation
import Blueprint.Proofs.Limit.Source
import Blueprint.Proofs.Places.Build
import Blueprint.Proofs.Places.Statement
import Blueprint.Proofs.Totality

/-!
# Every diagnostic points into the source

A compilation reports what is wrong with the characters, then with the statements, then with the
declarations. Each stage adds to what the stages before it report, and a stage that stops is the
last one. All places, in the diagnostics and in what is declared, are places of the source, and only
the links of decisions are reported without one.
-/

namespace Blueprint

open Blueprint.Grammar

variable {source : String} {settings : Settings} {compilation : Compilation}

/-- A position is that of an offset in a source, with its line and column. -/
def Position.IsAt (source : String) (position : Position) : Prop :=
  Position.ofOffset? source.toList position.offset = .ok position ∧
    0 ≤ position.offset ∧ position.offset ≤ source.toList.length

/-- A place of a source is that of an offset in the source. -/
theorem Position.InSource.isAt {position : Position} (h : position.InSource source.toList) :
    position.IsAt source :=
  ⟨h, h.offset_le⟩

/-- What all compilations of a source have, whatever is wrong with it. -/
structure Compilation.Points (source : String) (settings : Settings)
    (compilation : Compilation) : Prop where
  /-- Each stage adds to the diagnostics of the stage before it. Where reading reports something
  fatal, nothing is added, and the workspace is the empty one. -/
  stages : ∃ stream outcome, TokenStream.ofString source = .ok stream ∧
    parse source settings.maxErrors = .ok outcome ∧
    compilation.declared = outcome.workspace ∧
    stream.diagnostics <+: outcome.diagnostics ∧
    outcome.diagnostics <+: compilation.diagnostics ∧
    ((∃ diagnostic ∈ outcome.diagnostics, diagnostic.severity = .fatal) →
      compilation.diagnostics = outcome.diagnostics ∧ compilation.workspace = {})
  /-- The places of the diagnostics are places of the source. -/
  diagnostics : ∀ diagnostic ∈ compilation.diagnostics, ∀ position,
    diagnostic.position = some position → position.IsAt source
  /-- The places of what is declared are places of the source. -/
  declarations : ∀ node ∈ compilation.declared.nodes, ∀ position,
    node.position = some position → position.IsAt source
  /-- Only the warnings about links of decisions have no place. -/
  unplaced : ∀ diagnostic ∈ compilation.diagnostics, diagnostic.position = none →
    ∃ id target, diagnostic = ⟨.warning, .build (.unknownDecision id target), none⟩
  /-- No reference comes back to itself. -/
  straight : ∀ diagnostic ∈ compilation.diagnostics, ∀ chain,
    diagnostic.issue ≠ .reference (.circular chain)

namespace Compilation

/-- Reading resolves no references. -/
theorem straight_of_parse {limit : Int} {outcome : Outcome}
    (h : parse source limit = .ok outcome) {diagnostic : Diagnostic}
    (hd : diagnostic ∈ outcome.diagnostics) : diagnostic.issue.isCircular = false := by
  obtain ⟨stream, ht, _⟩ := parse_eq_ok_iff.mp h
  obtain ⟨more, he, hm⟩ := diagnostics_of_parse ht h
  rw [he] at hd
  rcases List.mem_append.mp hd with hd | hd
  · obtain ⟨_, _, rfl⟩ := TokenStream.lexical_of_ofChars ht hd
    rfl
  · rcases hm diagnostic hd with ⟨_, _, rfl, ⟨_, rfl⟩ | ⟨_, rfl⟩⟩ | ⟨_, _, rfl⟩ <;> rfl

/-- A compilation has what its source was read to, and perhaps what is reported while it is
built. -/
theorem ofSource_cases (h : ofSource source settings = .ok compilation) :
    ∃ outcome, parse source settings.maxErrors = .ok outcome ∧
      compilation.declared = outcome.workspace ∧
      ((compilation.diagnostics = outcome.diagnostics ∧ compilation.workspace = {}) ∨
        (∀ diagnostic ∈ outcome.diagnostics, diagnostic.severity ≠ .fatal) ∧
          compilation.diagnostics = outcome.diagnostics ++
            (Build.build outcome.workspace settings.impliedRelationships).diagnostics) := by
  obtain ⟨outcome, hp, he⟩ := ofSource_eq_ok_iff.mp h
  refine ⟨outcome, hp, ?_⟩
  split at he
  · subst he
    exact ⟨rfl, .inl ⟨rfl, rfl⟩⟩
  · rename_i hf
    subst he
    refine ⟨rfl, .inr ⟨fun diagnostic hm hs => hf ?_, rfl⟩⟩
    exact List.any_eq_true.mpr ⟨diagnostic, hm, beq_iff_eq.mpr hs⟩

/-- Every diagnostic of a compilation points into the source, or it is the warning about a link of
a decision. -/
theorem points_of_mem (h : ofSource source settings = .ok compilation) {diagnostic : Diagnostic}
    (hd : diagnostic ∈ compilation.diagnostics) :
    diagnostic.Points (Position.InSource source.toList) ∨ ∃ id target,
      diagnostic = .of (.build (.unknownDecision id target)) none := by
  obtain ⟨outcome, hp, _, hc⟩ := ofSource_cases h
  have hread : ∀ report ∈ outcome.diagnostics,
      report.Points (Position.InSource source.toList) := fun report hm =>
    ⟨inSource_of_parse hp hm, straight_of_parse hp hm⟩
  rcases hc with ⟨he, _⟩ | ⟨_, he⟩
  · rw [he] at hd
    exact .inl (hread diagnostic hd)
  · rw [he] at hd
    rcases List.mem_append.mp hd with hd | hd
    · exact .inl (hread diagnostic hd)
    · exact Build.build_points (located_of_parse hp) _ diagnostic hd

/-- Every diagnostic of a compilation points into the source. -/
theorem ofSource_points (h : ofSource source settings = .ok compilation) :
    compilation.Points source settings where
  stages := by
    obtain ⟨outcome, hp, hw, hc⟩ := ofSource_cases h
    obtain ⟨stream, ht, _⟩ := parse_eq_ok_iff.mp hp
    obtain ⟨more, hm, _⟩ := diagnostics_of_parse ht hp
    refine ⟨stream, outcome, ht, hp, hw, ⟨more, hm.symm⟩, ?_⟩
    rcases hc with ⟨he, hempty⟩ | ⟨hf, he⟩
    · exact ⟨he ▸ List.prefix_rfl, fun _ => ⟨he, hempty⟩⟩
    · refine ⟨⟨_, he.symm⟩, ?_⟩
      rintro ⟨diagnostic, hd, hs⟩
      exact absurd hs (hf diagnostic hd)
  diagnostics := by
    intro diagnostic hd position hp
    rcases points_of_mem h hd with ⟨⟨place, he, hi⟩, _⟩ | ⟨id, target, rfl⟩
    · rw [hp] at he
      cases he
      exact hi.isAt
    · cases hp
  declarations := by
    intro node hm position hp
    obtain ⟨outcome, ho, hw, _⟩ := ofSource_cases h
    rw [hw] at hm
    exact (anchored_of_parse ho node hm position hp).isAt
  unplaced := by
    intro diagnostic hd hp
    rcases points_of_mem h hd with ⟨⟨place, he, _⟩, _⟩ | ⟨id, target, rfl⟩
    · rw [hp] at he
      cases he
    · exact ⟨id, target, rfl⟩
  straight := by
    intro diagnostic hd chain he
    rcases points_of_mem h hd with ⟨_, hs⟩ | ⟨id, target, rfl⟩
    · rw [he] at hs
      cases hs
    · cases he

/-- A source with a reference and a link of a decision that lead nowhere. -/
def strayLinks : String :=
  "workspace \x7b\n model \x7b\n a = person \"A\"\n a -> ghost\n \x7d\n decisions \x7b\n" ++
    "decision 1 \x7b\n links \x7b\n 9 supersedes\n \x7d\n \x7d\n \x7d\n \x7d"

/-- The reference is reported at its place, and the link without one. -/
theorem ofSource_points_strayLinks :
    ∃ compilation, ofSource strayLinks {} = .ok compilation ∧
      compilation.Points strayLinks {} ∧
      compilation.diagnostics.map Diagnostic.position = [some ⟨4, 2, 38⟩, none] := by
  have hd : (ofSource strayLinks {}).toOption.map (fun compilation =>
      compilation.diagnostics.map Diagnostic.position) = some [some ⟨4, 2, 38⟩, none] := by
    decide +kernel
  obtain ⟨compilation, hp, he⟩ := exists_ok_of_map hd
  exact ⟨compilation, hp, ofSource_points hp, he⟩

end Compilation

end Blueprint
