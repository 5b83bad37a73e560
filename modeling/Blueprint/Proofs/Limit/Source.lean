import Blueprint.Proofs.Grammar.Parse
import Blueprint.Proofs.Built.Statement

/-!
# Sources up to a limit of errors

Without a limit of errors a source is read as with every limit that is large enough. Any limit only
cuts that reading short: if there are fewer failed statements than the limit nothing changes, and
otherwise the diagnostics are those up to the failure that reaches the limit, and then the one that
says so. A limit below one counts as one. What is wrong with the characters never counts.
-/

namespace Blueprint

open Blueprint.Text

/-- What is wrong with characters is no failed statement. -/
theorem TokenStream.lexical_of_ofChars {source : List Char} {stream : TokenStream}
    (h : ofChars source = .ok stream) {diagnostic : Diagnostic}
    (hd : diagnostic ∈ stream.diagnostics) :
    ∃ issue position, diagnostic = .of (.lexical issue) position := by
  obtain ⟨_, _, rfl⟩ := ofChars_eq_ok_iff.mp h
  obtain ⟨⟨place, segment⟩, _, hs⟩ := List.mem_flatMap.mp hd
  obtain ⟨remark, _, rfl⟩ := List.mem_map.mp hs
  exact ⟨_, _, rfl⟩

namespace Grammar

variable {source : String} {stream : TokenStream} {limit : Int}

/-- Reading a whole source is limited. -/
theorem limited_readSource : Limited readSource := built_readSource.limited

/-- What reading a source yields if there is no limit of errors: what it yields with every limit
that is large enough. -/
def Unlimited (source : String) (result : Except Number.Fault Outcome) : Prop :=
  ∃ bound : Int, ∀ limit, bound ≤ limit → parse source limit = result

/-- The count of failed statements at which a limit stops reading; a limit below one is one. -/
def stopCount (limit : Int) : Nat := (max limit 1).toNat

/-- What reading yields with a limit, given the outcome without one. It is the same if fewer
statements fail than the limit says. Otherwise the diagnostics are cut after the failure that
reaches the limit, and then follows, at the same place, that reading stops. -/
def Truncated (outcome : Outcome) (limit : Int) (result : Except Number.Fault Outcome) : Prop :=
  if failures outcome.diagnostics < stopCount limit then result = .ok outcome
  else ∃ workspace front error back,
    outcome.diagnostics = front ++ error :: back ∧ error.isFailure = true ∧
      failures front + 1 = stopCount limit ∧
      result = .ok ⟨workspace, outcome.tokens,
        front ++ [error, ⟨.fatal, .tooManyErrors (stopCount limit), error.position⟩]⟩

/-- There is room for reports from the start on if they have fewer failures than stop reading. -/
theorem admits_start_iff {diagnostics reports : List Diagnostic} :
    Ledger.Admits ⟨diagnostics, 0, limit⟩ reports ↔ failures reports < stopCount limit := by
  unfold Ledger.Admits stopCount
  dsimp only
  omega

/-- A run is cut from the start on after the failure that makes the count full. -/
theorem cuts_start_iff {diagnostics reports : List Diagnostic} {q : Progress} :
    Ledger.Cuts ⟨diagnostics, 0, limit⟩ reports q ↔
      ∃ front error back, reports = front ++ error :: back ∧ error.isFailure = true ∧
        failures front + 1 = stopCount limit ∧
        q.diagnostics = diagnostics ++ front ++
          [error, ⟨.fatal, .tooManyErrors (stopCount limit), error.position⟩] := by
  unfold Ledger.Cuts
  constructor
  · rintro ⟨front, error, back, hr, he, ha, hl, hd⟩
    have hk : failures front + 1 = stopCount limit := by
      have := admits_start_iff.mp ha
      unfold stopCount at *
      dsimp only at hl
      omega
    refine ⟨front, error, back, hr, he, hk, ?_⟩
    rw [hd, ← hk, Nat.zero_add]
    rfl
  · rintro ⟨front, error, back, hr, he, hk, hd⟩
    refine ⟨front, error, back, hr, he, admits_start_iff.mpr (by omega), ?_, ?_⟩
    · unfold stopCount at hk
      dsimp only
      omega
    · rw [hd, ← hk, Nat.zero_add]
      rfl

/-- What is wrong with the characters does not count as failed statements. -/
theorem failures_of_ofString (h : TokenStream.ofString source = .ok stream) :
    failures stream.diagnostics = 0 := by
  refine List.countP_eq_zero.mpr fun diagnostic hd => ?_
  obtain ⟨issue, position, rfl⟩ := TokenStream.lexical_of_ofChars h hd
  exact nofun

/-- What is wrong with the characters is never fatal. -/
theorem harmless_of_ofString (h : TokenStream.ofString source = .ok stream) :
    ∀ diagnostic ∈ stream.diagnostics, diagnostic.severity ≠ .fatal := by
  intro diagnostic hd
  obtain ⟨issue, position, rfl⟩ := TokenStream.lexical_of_ofChars h hd
  show (if issue.isWarning then Severity.warning else .error) ≠ .fatal
  split
  · exact nofun
  · exact nofun

/-- What reading a source yields when it ends in some way, with a workspace and reports. -/
def outcomeOf (stream : TokenStream) (result : Except Halt Unit)
    (workspace : Declared.Workspace) (diagnostics : List Diagnostic) :
    Except Number.Fault Outcome :=
  match result with
  | .error (.fault fault) => .error fault
  | _ => .ok ⟨workspace, stream.tokens, diagnostics⟩

/-- A source is read from its tokens. -/
theorem parse_eq_outcomeOf (h : TokenStream.ofString source = .ok stream) (limit : Int) :
    parse source limit = outcomeOf stream (stream.read limit).1
      (stream.read limit).2.workspace (stream.read limit).2.diagnostics := by
  rw [parse_eq h]
  rcases stream.read limit with ⟨(_ | _ | _ | _) | _, q⟩ <;> rfl

/-- An outcome has the workspace and the reports with which reading ends. -/
theorem eq_of_outcomeOf {result : Except Halt Unit} {workspace : Declared.Workspace}
    {diagnostics : List Diagnostic} {outcome : Outcome}
    (h : outcomeOf stream result workspace diagnostics = .ok outcome) :
    outcome = ⟨workspace, stream.tokens, diagnostics⟩ := by
  rcases result with (_ | _ | _ | _) | _ <;> cases h <;> rfl

/-- How a source is read when there is a free run: as that run, or cut. -/
theorem parse_settles {reports : List Diagnostic} {result : Except Halt Unit} {q : Progress}
    (ht : TokenStream.ofString source = .ok stream)
    (hf : FreeRun readSource (stream.start 0) reports result q) (limit : Int) :
    (failures reports < stopCount limit ∧ parse source limit =
      outcomeOf stream result q.workspace (stream.diagnostics ++ reports)) ∨
    ∃ workspace front error back, reports = front ++ error :: back ∧ error.isFailure = true ∧
      failures front + 1 = stopCount limit ∧ parse source limit =
        .ok ⟨workspace, stream.tokens, stream.diagnostics ++ front ++
          [error, ⟨.fatal, .tooManyErrors (stopCount limit), error.position⟩]⟩ := by
  have hr : stream.read limit =
      readSource.run.run ((stream.start 0).withLedger ⟨stream.diagnostics, 0, limit⟩) := rfl
  rw [parse_eq_outcomeOf ht, hr]
  rcases hf.settles ⟨stream.diagnostics, 0, limit⟩ with ⟨ha, he⟩ | ⟨r, he, hc⟩
  · rw [he]
    exact .inl ⟨admits_start_iff.mp ha, rfl⟩
  · obtain ⟨front, error, back, hs, hi, hk, hd⟩ := cuts_start_iff.mp hc
    refine .inr ⟨r.workspace, front, error, back, hs, hi, hk, ?_⟩
    rw [he, ← hd]
    rfl

/-- Reading adds to what is wrong with the characters: failed statements and directives that are not
known, and perhaps that reading stops. -/
theorem diagnostics_of_parse {outcome : Outcome} (ht : TokenStream.ofString source = .ok stream)
    (h : parse source limit = .ok outcome) :
    ∃ more, outcome.diagnostics = stream.diagnostics ++ more ∧
      ∀ diagnostic ∈ more, diagnostic.Routine ∨
        ∃ count position, diagnostic = ⟨.fatal, .tooManyErrors count, position⟩ := by
  obtain ⟨reports, result, q, hf⟩ := limited_readSource (stream.start 0)
  rcases parse_settles ht hf limit with ⟨_, he⟩ | ⟨_, front, error, back, hs, _, _, he⟩
  · rw [h] at he
    rw [eq_of_outcomeOf he.symm]
    exact ⟨reports, rfl, fun diagnostic hm => .inl (hf.routine diagnostic hm)⟩
  · rw [h] at he
    cases he
    refine ⟨_, List.append_assoc _ _ _, fun diagnostic hm => ?_⟩
    simp only [List.mem_append, List.mem_cons, List.not_mem_nil, or_false] at hm
    rcases hm with hm | rfl | rfl
    · exact .inl (hf.routine diagnostic (by rw [hs]; exact List.mem_append_left _ hm))
    · exact .inl (hf.routine diagnostic (by rw [hs]; simp))
    · exact .inr ⟨_, _, rfl⟩

/-- The error limit only truncates. Every source has a result without a limit; if that is an
outcome, nothing in it is fatal, and with any limit the source is read as the outcome cut at the
limit. -/
theorem parse_truncates (source : String) :
    ∃ result, Unlimited source result ∧ ∀ outcome, result = .ok outcome →
      (∀ diagnostic ∈ outcome.diagnostics, diagnostic.severity ≠ .fatal) ∧
        ∀ limit, Truncated outcome limit (parse source limit) := by
  cases ht : TokenStream.ofString source with
  | error fault =>
    have hp : ∀ limit, parse source limit = .error fault := by
      intro limit
      unfold parse
      rw [ht]
      rfl
    refine ⟨.error fault, ⟨0, fun limit _ => hp limit⟩, fun outcome ho => ?_⟩
    cases ho
  | ok stream =>
    obtain ⟨reports, result, q, hf⟩ := limited_readSource (stream.start 0)
    refine ⟨outcomeOf stream result q.workspace (stream.diagnostics ++ reports),
      ⟨failures reports + 1, fun limit hl => ?_⟩, fun outcome ho => ?_⟩
    · rcases parse_settles ht hf limit with ⟨_, he⟩ | ⟨_, front, error, back, hs, hi, hk, _⟩
      · exact he
      · -- So large a limit is never reached.
        exfalso
        have hc : failures (error :: back) = failures back + 1 := List.countP_cons_of_pos hi
        rw [hs, failures_append, hc] at hl
        unfold stopCount at hk
        omega
    · have hq := eq_of_outcomeOf ho
      rw [hq]
      refine ⟨fun diagnostic hm => ?_, fun limit => ?_⟩
      · rcases List.mem_append.mp hm with hm | hm
        · exact harmless_of_ofString ht diagnostic hm
        · exact (hf.routine diagnostic hm).severity_ne
      · have hz : failures (stream.diagnostics ++ reports) = failures reports := by
          rw [failures_append, failures_of_ofString ht, Nat.zero_add]
        unfold Truncated
        rw [hz]
        rcases parse_settles ht hf limit with ⟨hl, he⟩ | ⟨w, front, error, back, hs, hi, hk, he⟩
        · rw [if_pos hl, he, ho, hq]
        · have hc : failures reports = failures front + (failures back + 1) := by
            rw [hs, failures_append]
            exact congrArg _ (List.countP_cons_of_pos hi)
          rw [if_neg (by omega)]
          refine ⟨w, stream.diagnostics ++ front, error, back, ?_, hi, ?_, he⟩
          · rw [hs, List.append_assoc]
          · rw [failures_append, failures_of_ofString ht, Nat.zero_add, hk]

end Grammar

end Blueprint
