import Blueprint.Proofs.Grammar.Parse

/-!
# Readers that touch nothing but tokens

Most readers only look at tokens and take them. A statement may also change the workspace, and
report what is wrong in blocks inside it; but it does so after its last check, and what follows then
does not fail. So if it fails, nothing but tokens has been touched: the workspace and the reports
are those from before the statement.
-/

namespace Blueprint.Grammar

open Blueprint.Declared

variable {α β : Type} {p q r : Progress}

/-- Nothing differs but the tokens that are left and the notes on those that were taken. -/
structure Progress.Untouched (p q : Progress) : Prop where
  /-- What is read so far. -/
  workspace : q.workspace = p.workspace
  /-- What is wrong so far. -/
  diagnostics : q.diagnostics = p.diagnostics
  /-- The count of statements that failed. -/
  errors : q.errors = p.errors
  /-- Whether a block without an end has been reported. -/
  endReported : q.endReported = p.endReported
  /-- The count of errors at which reading stops. -/
  limit : q.limit = p.limit

/-- Nothing is touched by nothing. -/
theorem Progress.Untouched.refl (p : Progress) : p.Untouched p := ⟨rfl, rfl, rfl, rfl, rfl⟩

/-- What is untouched stays so as long as nothing is touched. -/
theorem Progress.Untouched.trans (h : p.Untouched q) (hr : q.Untouched r) : p.Untouched r where
  workspace := hr.workspace.trans h.workspace
  diagnostics := hr.diagnostics.trans h.diagnostics
  errors := hr.errors.trans h.errors
  endReported := hr.endReported.trans h.endReported
  limit := hr.limit.trans h.limit

/-- However a reader ends, it has touched nothing but tokens. -/
def Looks (reader : Reader α) : Prop :=
  ∀ p result q, reader.run.run p = (result, q) → p.Untouched q

/-- If a statement fails, nothing but tokens has been touched. -/
def Withdraws (reader : Reader α) : Prop :=
  ∀ p error q, reader.run.run p = (.error (.failed error), q) → p.Untouched q

/-! ## Readers that look -/

namespace Looks

variable {reader alternative : Reader α} {next : α → Reader β}

/-- A reader looks if it maintains that nothing has been touched since any time before. -/
theorem iff_maintains :
    Looks reader ↔ ∀ p : Progress, Maintains p.Untouched reader fun _ => True := by
  constructor
  · exact fun h _ r hp _ q hr => ⟨hp.trans (h r _ q hr), fun _ _ => trivial⟩
  · exact fun h p _ q hr => (h p p (.refl p) _ q hr).1

/-- A value alone touches nothing. -/
theorem pure (value : α) : Looks (pure value : Reader α) :=
  iff_maintains.mpr fun _ => .pure trivial

/-- A halt touches nothing. -/
theorem throw (halt : Halt) : Looks (throw halt : Reader α) :=
  iff_maintains.mpr fun _ => .throw halt

/-- A failing statement touches nothing by failing. -/
theorem fail (issue : GrammarIssue) (token : Token) : Looks (fail issue token : Reader α) :=
  .throw _

/-- A failing statement touches nothing by failing. -/
theorem failExpected (wanted : Wanted) (token : Token) :
    Looks (failExpected wanted token : Reader α) :=
  .throw _

/-- A failing statement touches nothing by failing. -/
theorem failUnexpected (place : Place) (token : Token) :
    Looks (failUnexpected place token : Reader α) :=
  .throw _

/-- Readers that look, one after the other. -/
theorem bind (h : Looks reader) (hn : ∀ value, Looks (next value)) : Looks (reader >>= next) :=
  iff_maintains.mpr fun p =>
    (iff_maintains.mp h p).bind fun value _ => iff_maintains.mp (hn value) p

/-- A choice between readers that look. -/
theorem ite {holds : Prop} [Decidable holds] (ht : Looks reader) (hf : Looks alternative) :
    Looks (if holds then reader else alternative) :=
  iff_maintains.mpr fun p => .ite (iff_maintains.mp ht p) (iff_maintains.mp hf p)

/-- What is read after a check. -/
theorem guarded {holds : Prop} [Decidable holds] {check : Reader Unit} {next : Unit → Reader α}
    (hc : Looks check) (hn : ∀ value, Looks (next value)) :
    Looks (if holds then check >>= next else next ()) :=
  .ite (hc.bind hn) (hn ())

end Looks

/-! ## Statements that withdraw -/

/-- A reader that looks has touched nothing if it fails. -/
theorem Looks.withdraws {reader : Reader α} (h : Looks reader) : Withdraws reader :=
  fun p _ q hr => h p _ q hr

/-- A reader that never fails leaves nothing to withdraw. -/
theorem Catches.withdraws {reader : Reader α} (h : Catches reader) : Withdraws reader :=
  fun p error q hr => absurd hr (h p error q)

/-- What withdraws may come after what only looks. -/
theorem Looks.before {reader : Reader α} {next : α → Reader β} (h : Looks reader)
    (hn : ∀ value, Withdraws (next value)) : Withdraws (reader >>= next) := by
  intro p error q hr
  rw [run_bind] at hr
  generalize he : reader.run.run p = outcome at hr
  rcases outcome with ⟨halt | value, r⟩
  · obtain ⟨hf, rfl⟩ := Prod.mk.inj hr
    exact h p _ _ he
  · exact (h p _ _ he).trans (hn value r _ _ hr)

namespace Withdraws

variable {reader alternative : Reader α}

/-- What never fails may come after what withdraws. -/
theorem bind {next : α → Reader β} (h : Withdraws reader) (hn : ∀ value, Catches (next value)) :
    Withdraws (reader >>= next) := by
  intro p error q hr
  rw [run_bind] at hr
  generalize he : reader.run.run p = outcome at hr
  rcases outcome with ⟨halt | value, r⟩
  · cases hr
    exact h p _ _ he
  · exact absurd hr (hn value r _ _)

/-- A choice between statements that withdraw. -/
theorem ite {holds : Prop} [Decidable holds] (ht : Withdraws reader) (hf : Withdraws alternative) :
    Withdraws (if holds then reader else alternative) := by
  split
  · exact ht
  · exact hf

/-- What is read after a check. -/
theorem guarded {holds : Prop} [Decidable holds] {check : Reader Unit} {next : Unit → Reader α}
    (hc : Looks check) (hn : ∀ value, Withdraws (next value)) :
    Withdraws (if holds then check >>= next else next ()) :=
  .ite (hc.before hn) (hn ())

end Withdraws

/-! ## Steps -/

/-- Looking at the tokens that are left touches nothing. -/
theorem looks_remaining : Looks remaining :=
  Looks.iff_maintains.mpr fun _ => .counting

/-- Looking at the next token touches nothing. -/
theorem looks_current : Looks current :=
  Looks.iff_maintains.mpr fun _ => .looking

/-- Going on with other tokens touches nothing else. -/
theorem looks_continueWith (tokens : List Token) : Looks (continueWith tokens) := by
  intro p result q hr
  cases hr
  exact ⟨rfl, rfl, rfl, rfl, rfl⟩

/-- Noting what happens touches nothing else. -/
theorem looks_note (event : Event) : Looks (note event) := by
  intro p result q hr
  cases hr
  exact ⟨rfl, rfl, rfl, rfl, rfl⟩

/-- Looking up an entry of a table touches nothing. -/
theorem looks_lookUp (entry : Option α) : Looks (lookUp entry) := by
  cases entry with
  | none => exact .throw .missing
  | some entry => exact .pure entry

/-- Taking a token touches nothing else. -/
theorem looks_advance : Looks advance :=
  looks_current.bind fun token => looks_remaining.bind fun _ =>
    (looks_continueWith _).bind fun _ => .pure token

/-- Taking a key touches nothing else. -/
theorem looks_takeKey : Looks takeKey :=
  looks_advance.bind fun key => (looks_note (.key key)).bind fun _ => .pure key

/-! ## Lines -/

/-- Looking for a sign touches nothing. -/
theorem looks_isSign (sign : Sign) : Looks (isSign sign) :=
  looks_current.bind fun _ => .pure _

/-- Taking a token of one of some kinds touches nothing else. -/
theorem looks_expect (kinds : List Kind) : Looks (expect kinds) :=
  looks_current.bind fun token => .ite looks_advance (.failExpected _ token)

/-- Taking an opening brace touches nothing else. -/
theorem looks_expectOpening : Looks expectOpening :=
  (looks_expect _).bind fun _ => .pure ()

/-- Taking a string literal touches nothing else. -/
theorem looks_expectString (line : Int) (wanted : Wanted) : Looks (expectString line wanted) :=
  looks_current.bind fun token =>
    .ite (looks_advance.bind fun _ => .pure _) (.failExpected wanted token)

/-- Taking a single value touches nothing else. -/
theorem looks_expectSingle (line : Int) (wanted : Wanted) : Looks (expectSingle line wanted) :=
  looks_current.bind fun token =>
    .ite (looks_advance.bind fun _ => .pure _) (.failExpected wanted token)

/-- Taking the values of a line touches nothing else. -/
theorem looks_takeValues (line : Int) : Looks (takeValues line) :=
  looks_remaining.bind fun _ => (looks_continueWith _).bind fun _ => .pure _

/-- Taking the rest of a line as a value touches nothing else. -/
theorem looks_expectValue (line : Int) (wanted : Wanted) : Looks (expectValue line wanted) := by
  refine (looks_takeValues line).bind fun values => ?_
  split
  · exact looks_current.bind fun token => .failExpected wanted token
  · exact .pure _

/-- Taking arguments touches nothing else. -/
theorem looks_takePositional (line : Int) (limit : Nat) : Looks (takePositional line limit) :=
  looks_remaining.bind fun _ => (looks_continueWith _).bind fun _ => .pure _

/-- Looking for the end of a line touches nothing. -/
theorem looks_expectLineEnd (line : Int) : Looks (expectLineEnd line) :=
  looks_current.bind fun token => .ite (.failUnexpected .line token) (.pure ())

/-- Opening a body touches nothing but its brace. -/
theorem looks_opensBody (line : Int) : Looks (opensBody line) :=
  looks_current.bind fun _ => .ite (looks_advance.bind fun _ => .pure true) (.pure false)

/-- Passing over a statement touches nothing but tokens. -/
theorem looks_recoverFrom (token : Token) : Looks (recoverFrom token) :=
  looks_remaining.bind fun _ => looks_continueWith _

end Blueprint.Grammar
