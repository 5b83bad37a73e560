import Blueprint.Proofs.Echo.Statement
import Blueprint.Proofs.Limit.Run

/-!
# Runs without an error

A run that goes through without an error and does not pass the end of the input consists of such
runs. It depends neither on the bounds of loops, if these are large enough, nor on how many
statements have failed before it: with one more of them it is the same run.
-/

namespace Blueprint.Grammar

variable {α β : Type} {p q r p' r' : Progress} {finish : Token} {value : α}
  {reader mate : Reader α} {next : α → Reader β} {taken : α → Prop} {joined : β → Prop}

/-- A run yields one value and leads to one progress. -/
theorem Yields.unique {other : α} (h : Yields p reader value q) (ho : Yields p reader other r) :
    value = other ∧ q = r := by
  unfold Yields at h ho
  rw [h] at ho
  obtain ⟨hv, hq⟩ := Prod.mk.inj ho
  exact ⟨Except.ok.inj hv, hq⟩

/-- From a progress, a reader yields a value and leads to another progress without an error, and
the end of the input is left. -/
structure Flawless (finish : Token) (p : Progress) (reader : Reader α) (value : α)
    (q : Progress) : Prop where
  /-- The reader yields the value. -/
  yields : Yields p reader value q
  /-- No statement fails. -/
  errors : q.errors = p.errors
  /-- The end of the input is left. -/
  ends : [finish] <:+ q.rest

namespace Flawless

/-- A run of one reader after another without an error is one of each. -/
theorem of_bind {last : β} (h : Flawless finish p (reader >>= next) last q)
    (hr : Passes taken reader) (hn : ∀ value, Passes joined (next value)) :
    ∃ value r, Flawless finish p reader value r ∧ Flawless finish r (next value) last q := by
  obtain ⟨value, r, hy, hs⟩ := h.yields.of_bind
  have her := hr.errors hy
  have hes := (hn value).errors hs
  have he := h.errors
  exact ⟨value, r, ⟨hy, by omega, h.ends.trans ((hn value).rest hs)⟩, hs, by omega, h.ends⟩

/-- Without an error a statement that may be given up does not fail. -/
theorem of_attempt {after : GrammarError → Unit → Reader α}
    (h : Flawless finish p (Grammar.attempt reader fun error => report error >>= after error)
      value q) (hr : Passes taken reader)
    (ha : ∀ error, Passes (fun _ => False) (after error ())) :
    Flawless finish p reader value q := by
  refine ⟨?_, h.errors, h.ends⟩
  have hy := h.yields
  have he := h.errors
  unfold Yields at hy ⊢
  rw [run_attempt] at hy
  cases hs : reader.run.run p with
  | mk result r =>
    rw [hs] at hy
    rcases result with (error | _ | fault | _) | value
    · have hlt := errors_lt_of_report (ha error) hy
      have hle := hr.errors hs
      omega
    · cases hy
    · cases hy
    · cases hy
    · exact hy

/-! ## Bounds -/

/-- Some line is not above any of some tokens. -/
theorem exists_line (tokens : List Token) : ∃ line : Int, ∀ token ∈ tokens, token.line ≤ line := by
  induction tokens with
  | nil => exact ⟨0, fun token hm => absurd hm List.not_mem_nil⟩
  | cons token tokens ih =>
    obtain ⟨line, hl⟩ := ih
    refine ⟨max token.line line, fun other hm => ?_⟩
    rcases List.mem_cons.mp hm with rfl | hm
    · exact Int.le_max_left _ _
    · exact Int.le_trans (hl other hm) (Int.le_max_right _ _)

/-- Readers that run in the same way before every fork run in the same way up to the end of the
input; so the bounds of loops do not matter. -/
theorem same (h : Flawless finish p reader value q) (hf : finish.kind = .endOfInput)
    (he : ∀ fork, Echoes fork p.rest.length taken reader mate) :
    Flawless finish p mate value q := by
  obtain ⟨line, hl⟩ := exists_line (finish :: p.rest)
  have hplace : finish.line ≤ line := hl finish List.mem_cons_self
  have hfork := he ⟨line, [finish], [finish], .finish hf hplace⟩
  obtain ⟨last, hq⟩ := h.ends
  obtain ⟨passed, hp⟩ := hfork.rest h.yields
  have hrest : p.rest = passed ++ last ++ [finish] := by
    rw [← hp, ← hq, List.append_assoc]
  have hfront : (passed ++ last).length < p.rest.length := by
    rw [hrest, ← List.concat_eq_append, List.length_concat]
    exact Nat.lt_succ_self _
  have hlines : ∀ token ∈ passed ++ last, token.line ≤ line := by
    intro token hm
    refine hl token (List.mem_cons_of_mem _ ?_)
    rw [hrest]
    exact List.mem_append_left _ hm
  have hy := hfork.echo h.yields h.errors hrest hq.symm hfront hlines
  rw [ahead_eq hrest, ahead_eq hq.symm] at hy
  exact ⟨hy, h.errors, h.ends⟩

end Flawless

/-! ## One more error -/

/-- A progress is another one with one more failed statement among those reported. -/
def Adds (added : Diagnostic) (p p' : Progress) : Prop :=
  ∃ before after, p.diagnostics = before ++ after ∧
    p' = p.withLedger ⟨before ++ added :: after, p.errors + 1, p.limit⟩

/-- A failed statement that is reported is one more. -/
theorem adds_reporting (error : GrammarError) (p : Progress) :
    Adds (.of (.grammar error.issue) (some error.token.position)) p (p.reporting error) :=
  ⟨p.diagnostics, [], (List.append_nil _).symm, rfl⟩

/-- If nothing wrong was reported before, one more error is the only one. -/
theorem Adds.filter_isError {added : Diagnostic} (h : Adds added p p')
    (ha : added.isError = true) (hp : ∀ diagnostic ∈ p.diagnostics, diagnostic.isError = false) :
    p'.diagnostics.filter Diagnostic.isError = [added] := by
  obtain ⟨before, after, hd, rfl⟩ := h
  rw [hd] at hp
  have hbefore : before.filter Diagnostic.isError = [] := List.filter_eq_nil_iff.mpr
    fun diagnostic hm => by simp [hp diagnostic (List.mem_append_left _ hm)]
  have hafter : after.filter Diagnostic.isError = [] := List.filter_eq_nil_iff.mpr
    fun diagnostic hm => by simp [hp diagnostic (List.mem_append_right _ hm)]
  show (before ++ added :: after).filter Diagnostic.isError = [added]
  rw [List.filter_append, List.filter_cons_of_pos ha, hbefore, hafter, List.nil_append]

/-- A free run that yields a value without an error does so with every ledger. -/
theorem FreeRun.flawless {reports : List Diagnostic} {result : Except Halt α}
    (h : FreeRun reader p reports result r) (hy : Flawless finish p reader value q) :
    q = r.withLedger ⟨p.diagnostics ++ reports, p.errors, p.limit⟩ ∧
      ∀ ledger : Ledger, Yields (p.withLedger ledger) reader value
        (r.withLedger ⟨ledger.diagnostics ++ reports, ledger.errors, ledger.limit⟩) := by
  have hrun : reader.run.run (p.withLedger ⟨p.diagnostics, p.errors, p.limit⟩) = (.ok value, q) :=
    hy.yields
  rcases h.settles ⟨p.diagnostics, p.errors, p.limit⟩ with ⟨_, he⟩ | ⟨s, he, _⟩
  · rw [he] at hrun
    obtain ⟨rfl, rfl⟩ := Prod.mk.inj hrun
    have hnone : failures reports = 0 := by
      have hfailures : p.errors + failures reports = p.errors := hy.errors
      omega
    have hadd : ∀ ledger : Ledger, ledger.add reports =
        ⟨ledger.diagnostics ++ reports, ledger.errors, ledger.limit⟩ := by
      intro ledger
      unfold Ledger.add
      rw [hnone, Nat.add_zero]
    refine ⟨by rw [hadd], fun ledger => ?_⟩
    rcases h.settles ledger with ⟨_, hl⟩ | ⟨s, _, hc⟩
    · rw [← hadd]
      exact hl
    · obtain ⟨front, error, back, rfl, hi, _⟩ := hc
      have hone : failures (front ++ error :: back) = failures front + (failures back + 1) := by
        simp [failures, hi]
      omega
  · rw [he] at hrun
    cases hrun

namespace Flawless

/-- Without an error the limit of errors stays. -/
theorem limit (h : Flawless finish p reader value q) (hl : Limited reader) : q.limit = p.limit := by
  obtain ⟨reports, result, r, hr⟩ := hl p
  rw [(hr.flawless h).1]
  rfl

/-- After one more error a run without an error is the same. -/
theorem resume (h : Flawless finish p reader value q) (hl : Limited reader) {added : Diagnostic}
    (ha : Adds added p p') : ∃ q', Yields p' reader value q' ∧ Adds added q q' := by
  obtain ⟨reports, result, r, hr⟩ := hl p
  obtain ⟨before, after, hd, rfl⟩ := ha
  obtain ⟨rfl, hrun⟩ := hr.flawless h
  refine ⟨_, hrun _, before, after ++ reports, ?_, ?_⟩
  · rw [← List.append_assoc, ← hd]
    rfl
  · rw [withLedger_withLedger, List.append_assoc, List.cons_append]
    rfl

end Flawless

end Blueprint.Grammar
