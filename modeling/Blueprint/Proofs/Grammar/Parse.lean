import Blueprint.Proofs.Grammar.Workspace
import Blueprint.Proofs.Token.Stream

/-!
# Reading a source

A source that has tokens is read from a progress at which everything has its place. No failed
statement is left over when the reading ends, and no token is missing on the way: it ends with a
workspace, or with a number that cannot be read.
-/

namespace Blueprint

open Blueprint.Text

namespace Grammar

variable {α β : Type} {p q : Progress}

/-! ## Failed statements -/

/-- The directives before the workspace leave nothing over. -/
theorem catches_readDirectives (count : Nat) : Catches (readDirectives count) := by
  induction count with
  | zero => exact catches_pure ()
  | succ count ih =>
    rw [readDirectives]
    refine catches_current.bind fun token => ?_
    split
    · exact (catches_readOrSkip _).bind fun _ => ih
    · exact catches_pure ()

/-- A whole source leaves no failed statement over. -/
theorem catches_readSource : Catches readSource := by
  unfold readSource
  refine catches_remaining.bind fun tokens => (catches_readDirectives _).bind fun _ => ?_
  refine catches_current.bind fun token => ?_
  split
  · refine (catches_readOrSkip _).bind fun _ => catches_current.bind fun next => ?_
    split
    · exact catches_report _
    · exact catches_pure ()
  · exact catches_report _

end Grammar

/-! ## Sources -/

namespace TokenStream

open Grammar

variable {source : List Char} {stream : TokenStream}

/-- How reading the tokens of a source starts. -/
def start (stream : TokenStream) (limit : Int) : Progress :=
  .start stream.tokens stream.diagnostics limit

/-- How reading the tokens of a source ends, and how far it comes. -/
def read (stream : TokenStream) (limit : Int) : Except Halt Unit × Progress :=
  readSource.run.run (stream.start limit)

/-- At the start everything has its place in the source. -/
theorem Placed.sound_start (h : stream.Placed source) (limit : Int) :
    (stream.start limit).Sound (Position.InSource source) where
  ends := by
    obtain ⟨front, ht, hf⟩ := h.ends
    exact ⟨front, _, ht, rfl, hf⟩
  spelled := h.spelled
  tokens := h.tokens
  missing := nofun
  errors := Nat.zero_le _
  diagnostics := h.diagnostics
  orders := nofun
  workspace := Declared.Workspace.located_empty

/-- Reading ends as it may: with a value everything was passed, or there is an error. -/
theorem Placed.lands_read (h : stream.Placed source) (limit : Int) :
    Lands (Position.InSource source) (stream.start limit)
      (fun _ q => Goes 0 0 (stream.start limit) q ∧ (q.errors = 0 → q.next.kind = .endOfInput))
      (stream.read limit) :=
  runs_readSource (h.sound_start limit)

/-- Reading halts at the limit of errors or at a number only. -/
theorem Placed.halt_cases (h : stream.Placed source) {limit : Int} {halt : Halt} {q : Progress}
    (hr : stream.read limit = (.error halt, q)) :
    halt = .stopped ∨ ∃ fault, halt = .fault fault := by
  have hl := h.lands_read limit
  rw [hr] at hl
  cases halt with
  | failed error => exact absurd hr (catches_readSource _ error q)
  | stopped => exact .inl rfl
  | fault fault => exact .inr ⟨fault, rfl⟩
  | missing => exact hl.elim

/-- Reading halts at a number exactly if a section is given a place by digits that are none. -/
theorem Placed.halts_at_number_iff (h : stream.Placed source) (limit : Int) :
    (∃ fault q, stream.read limit = (.error (.fault fault), q)) ↔
      ∃ value ∈ (stream.read limit).2.orders, Unreadable value := by
  have hl := h.lands_read limit
  generalize hr : stream.read limit = result at hl
  rcases result with ⟨(error | _ | fault | _) | value, q⟩
  · exact absurd hr (catches_readSource _ error q)
  · exact ⟨fun ⟨_, _, he⟩ => (by cases he),
      fun ⟨value, hm, hv⟩ => absurd hv (hl.1.sound.orders value hm)⟩
  · exact ⟨fun _ => hl, fun _ => ⟨fault, q, rfl⟩⟩
  · exact hl.elim
  · exact ⟨fun ⟨_, _, he⟩ => (by cases he),
      fun ⟨value, hm, hv⟩ => absurd hv (hl.1.sound.orders value hm)⟩

/-- Unless reading halts at a number, what holds everywhere holds at its end. -/
theorem Placed.sound_read (h : stream.Placed source) {limit : Int}
    (hn : ∀ fault q, stream.read limit ≠ (.error (.fault fault), q)) :
    (stream.read limit).2.Sound (Position.InSource source) := by
  have hl := h.lands_read limit
  generalize hr : stream.read limit = result at hl hn
  rcases result with ⟨(error | _ | fault | _) | value, q⟩
  · exact hl.1.sound
  · exact hl.1.sound
  · exact absurd rfl (hn fault q)
  · exact hl.elim
  · exact hl.1.sound

end TokenStream

namespace Grammar

/-- What reading a source yields, from how reading its tokens ends. -/
theorem parse_eq {source : String} {stream : TokenStream}
    (h : TokenStream.ofString source = .ok stream) (limit : Int) :
    parse source limit =
      match stream.read limit with
      | (.error (.fault fault), _) => .error fault
      | (_, progress) => .ok ⟨progress.workspace, stream.tokens, progress.diagnostics⟩ := by
  unfold parse
  rw [h]
  rfl

/-- A source is read from its tokens. -/
theorem parse_eq_ok_iff {source : String} {limit : Int} {outcome : Outcome} :
    parse source limit = .ok outcome ↔
      ∃ stream, TokenStream.ofString source = .ok stream ∧
        (∀ fault q, stream.read limit ≠ (.error (.fault fault), q)) ∧
        outcome = ⟨(stream.read limit).2.workspace, stream.tokens,
          (stream.read limit).2.diagnostics⟩ := by
  cases ht : TokenStream.ofString source with
  | error fault =>
    unfold parse
    rw [ht]
    exact ⟨fun he => (by cases he), fun ⟨_, he, _⟩ => (by cases he)⟩
  | ok stream =>
    rw [parse_eq ht]
    constructor
    · intro he
      refine ⟨stream, rfl, ?_⟩
      split at he
      · cases he
      · rename_i result q hn hr
        cases he
        rw [hr]
        refine ⟨fun fault r hf => ?_, rfl⟩
        cases hf
        exact hn fault rfl
    · rintro ⟨_, ⟨⟩, hn, rfl⟩
      split
      · rename_i fault q hr
        exact absurd hr (hn fault q)
      · rename_i result q _ hr
        rw [hr]

/-- A source is not read exactly if it has no tokens, or reading halts at a number. -/
theorem parse_eq_error_iff {source : String} {limit : Int} :
    (∃ fault, parse source limit = .error fault) ↔
      (∃ fault, TokenStream.ofString source = .error fault) ∨
        ∃ stream, TokenStream.ofString source = .ok stream ∧
          ∃ fault q, stream.read limit = (.error (.fault fault), q) := by
  cases ht : TokenStream.ofString source with
  | error fault =>
    unfold parse
    rw [ht]
    exact ⟨fun _ => .inl ⟨fault, rfl⟩, fun _ => ⟨fault, rfl⟩⟩
  | ok stream =>
    rw [parse_eq ht]
    constructor
    · rintro ⟨fault, he⟩
      split at he
      · rename_i other q hr
        exact .inr ⟨stream, rfl, other, q, hr⟩
      · cases he
    · rintro (⟨_, he⟩ | ⟨_, ⟨⟩, fault, q, hr⟩)
      · cases he
      · rw [hr]
        exact ⟨fault, rfl⟩

/-- What a source declares has its places in the source. -/
theorem located_of_parse {source : String} {limit : Int} {outcome : Outcome}
    (h : parse source limit = .ok outcome) :
    outcome.workspace.Located (Position.InSource source.toList) := by
  obtain ⟨stream, ht, hn, rfl⟩ := parse_eq_ok_iff.mp h
  exact ((TokenStream.placed_of_ofChars ht).sound_read hn).workspace

/-- A source in which nothing is wrong is read to the end of its tokens. -/
theorem read_eq_of_parse {source : String} {limit : Int} {outcome : Outcome}
    (h : parse source limit = .ok outcome)
    (hc : ∀ diagnostic ∈ outcome.diagnostics, diagnostic.isError = false) :
    ∃ stream last q, TokenStream.ofString source = .ok stream ∧
      stream.read limit = (.ok (), q) ∧ q.errors = 0 ∧ q.rest = [last] ∧
      last.kind = .endOfInput ∧ outcome = ⟨q.workspace, stream.tokens, q.diagnostics⟩ := by
  obtain ⟨stream, ht, hn, rfl⟩ := parse_eq_ok_iff.mp h
  have hp := TokenStream.placed_of_ofChars ht
  have hs := hp.sound_read hn
  have hl := hp.lands_read limit
  -- Errors are reported, so there are none.
  have he : (stream.read limit).2.errors = 0 := by
    have hle := hs.errors
    have hnone : (stream.read limit).2.diagnostics.filter Diagnostic.isError = [] := by
      rw [List.filter_eq_nil_iff]
      intro diagnostic hm
      rw [hc diagnostic hm]
      exact Bool.false_ne_true
    rw [hnone] at hle
    exact Nat.le_zero.mp hle
  generalize hr : stream.read limit = result at hl hs he hn
  rcases result with ⟨(error | _ | fault | _) | value, q⟩
  · exact absurd hr (catches_readSource _ error q)
  · have hpos := hl.2
    dsimp only at he
    omega
  · exact absurd rfl (hn fault q)
  · exact hl.elim
  · have hend := hl.2.2
    obtain ⟨front, last, hlast, hkind, hfront⟩ := hs.ends
    refine ⟨stream, last, q, ht, hr, he, ?_, hkind, rfl⟩
    -- Nothing comes after the end of the input.
    cases front with
    | nil => exact hlast
    | cons token more =>
      have hnext : q.next = token := by
        unfold Progress.next
        rw [hlast]
        rfl
      have hnone := hfront token List.mem_cons_self
      rw [← hnext] at hnone
      exact absurd (hend he) hnone

end Grammar

end Blueprint
