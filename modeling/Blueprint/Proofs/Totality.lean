import Blueprint.Compilation
import Blueprint.Proofs.Grammar.Loop

/-!
# Compiling always yields a result

Whatever the source and the settings are, compiling yields a result, but for two exceptions: a whole
number in the source with too many digits, and a section that is given a place by digits that are no
number. On the way no character, token or entry of a table is looked for where there is none, no
failed statement is left over, and every loop takes a token in each of its rounds.
-/

namespace Blueprint

open Blueprint.Grammar

variable {source : String} {limit : Int}

/-- A whole number of a source has more digits than are read. -/
def HasLongNumeral (source : String) : Prop :=
  ∃ digits, .lexeme .integer digits ∈ Segment.ofText source.toList ∧
    Number.digitLimit < digits.length

/-- Reading a source comes to a section that is given a place by digits that are no number. -/
def HasUnreadableOrder (source : String) (limit : Int) : Prop :=
  ∃ stream, TokenStream.ofString source = .ok stream ∧
    ∃ value ∈ (stream.read limit).2.orders, Unreadable value

/-- A source is not read for two reasons only. -/
theorem parse_refused_iff :
    (∃ fault, parse source limit = .error fault) ↔
      HasLongNumeral source ∨ HasUnreadableOrder source limit := by
  have hread : (∃ stream, TokenStream.ofString source = .ok stream ∧
      ∃ fault q, stream.read limit = (.error (.fault fault), q)) ↔
      HasUnreadableOrder source limit := by
    constructor
    · rintro ⟨stream, ht, h⟩
      have hp := TokenStream.placed_of_ofChars ht
      exact ⟨stream, ht, (hp.halts_at_number_iff limit).mp h⟩
    · rintro ⟨stream, ht, h⟩
      have hp := TokenStream.placed_of_ofChars ht
      exact ⟨stream, ht, (hp.halts_at_number_iff limit).mpr h⟩
  have hlex : (∃ fault, TokenStream.ofString source = .error fault) ↔ HasLongNumeral source :=
    TokenStream.ofChars_eq_error_iff source.toList
  rw [parse_eq_error_iff, hlex, hread]

/-- A compilation is refused exactly if its source is not read. -/
theorem Compilation.ofSource_eq_error_iff {settings : Settings} :
    (∃ fault, ofSource source settings = .error fault) ↔
      ∃ fault, parse source settings.maxErrors = .error fault := by
  unfold ofSource
  cases parse source settings.maxErrors with
  | error fault => exact ⟨fun _ => ⟨fault, rfl⟩, fun _ => ⟨fault, rfl⟩⟩
  | ok outcome =>
    constructor
    · rintro ⟨fault, he⟩
      dsimp only [bind, Except.bind] at he
      split at he <;> cases he
    · rintro ⟨fault, he⟩
      cases he

/-- Everything that is reported when a source is read has a place in the source. -/
theorem inSource_of_parse {outcome : Outcome} (h : parse source limit = .ok outcome)
    {diagnostic : Diagnostic} (hd : diagnostic ∈ outcome.diagnostics) :
    Marked (Position.InSource source.toList) diagnostic.position := by
  obtain ⟨stream, ht, hn, rfl⟩ := parse_eq_ok_iff.mp h
  exact ((TokenStream.placed_of_ofChars ht).sound_read hn).diagnostics diagnostic hd

/-- Everything that is reported when a source is read has an offset in the source. -/
theorem offset_le_of_parse {outcome : Outcome} (h : parse source limit = .ok outcome)
    {diagnostic : Diagnostic} (hd : diagnostic ∈ outcome.diagnostics) {position : Position}
    (hp : diagnostic.position = some position) :
    0 ≤ position.offset ∧ position.offset ≤ source.toList.length := by
  obtain ⟨place, he, hs⟩ := inSource_of_parse h hd
  rw [hp] at he
  cases he
  exact hs.offset_le

/-- What holds of compiling a source with some settings, whatever they are. -/
structure Total (source : String) (settings : Settings) : Prop where
  /-- A compilation yields a result unless there is one of two reasons. -/
  refused_iff : (∃ fault, Compilation.ofSource source settings = .error fault) ↔
    HasLongNumeral source ∨ HasUnreadableOrder source settings.maxErrors
  /-- The segments are read one after the other, up to the last character and no further. -/
  characters : (Segment.ofText source.toList).flatMap Segment.text = source.toList
  /-- Reading halts early at the limit of errors or at a number only: no failed statement is left
  over, and no token or entry of a table is missing. -/
  halts : ∀ {stream halt q}, TokenStream.ofString source = .ok stream →
    stream.read settings.maxErrors = (.error halt, q) →
    halt = .stopped ∨ ∃ fault, halt = .fault fault
  /-- Everything that is reported on the characters and statements has an offset in the source,
  and its line and column are those of the offset. -/
  places : ∀ {outcome diagnostic}, parse source settings.maxErrors = .ok outcome →
    diagnostic ∈ outcome.diagnostics →
    Marked (Position.InSource source.toList) diagnostic.position
  /-- No offset that is reported is outside of the source. -/
  offsets : ∀ {outcome diagnostic position},
    parse source settings.maxErrors = .ok outcome → diagnostic ∈ outcome.diagnostics →
    diagnostic.position = some position →
    0 ≤ position.offset ∧ position.offset ≤ source.toList.length
  /-- Every round of the loop over the statements of a block takes a token. -/
  rounds : ∀ {ν : Type} {bound : Nat} {good : ν → Prop} {statement : NodeReader ν Unit},
    BlockLoop (Position.InSource source.toList) bound good statement →
    ∀ {p q : Progress} {node next : ν}, p.Sound (Position.InSource source.toList) →
      p.rest.length ≤ bound → good node →
      p.next.kind ≠ .sign .rightBrace → p.next.kind ≠ .endOfInput →
      ((readStatement statement).fill node).run.run p = (.ok next, q) →
      q.rest.length < p.rest.length
  /-- The loop over the statements of a block ends after its closing brace or at the end of the
  input, for no other reason. -/
  ends : ∀ {ν : Type} {bound : Nat} {good : ν → Prop} {statement : NodeReader ν Unit},
    BlockLoop (Position.InSource source.toList) bound good statement →
    ∀ {p q : Progress} {node next : ν}, p.Sound (Position.InSource source.toList) →
      p.rest.length ≤ bound → good node →
      (readBlock statement node).run.run p = (.ok next, q) →
      (∃ inner token, p.rest = inner ++ token :: q.rest ∧ token.kind = .sign .rightBrace) ∨
        q.next.kind = .endOfInput
  /-- Every round of the loop over the directives before the workspace takes a token. -/
  directives : ∀ {p q : Progress}, p.Sound (Position.InSource source.toList) →
    isDirective p.next = true → (readOrSkip readDirective).run.run p = (.ok (), q) →
    q.rest.length < p.rest.length

/-- Compiling a source is total, but for the two exceptions. -/
theorem Compilation.ofSource_total (source : String) (settings : Settings) :
    Total source settings where
  refused_iff := Compilation.ofSource_eq_error_iff.trans parse_refused_iff
  characters := Segment.flatMap_text_ofText source.toList
  halts := fun ht hr => (TokenStream.placed_of_ofChars ht).halt_cases hr
  places := fun h hd => inSource_of_parse h hd
  offsets := fun h hd hp => offset_le_of_parse h hd hp
  rounds := fun hloop _ _ _ _ hs hb hv hk hn hr => hloop.round_taken hs hb hv hk hn hr
  ends := fun hloop _ _ _ _ hs hb hv hr => (hloop.closes hs hb hv hr).ended
  directives := directive_taken

end Blueprint
