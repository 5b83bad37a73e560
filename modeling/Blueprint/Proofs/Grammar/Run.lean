import Blueprint.Proofs.Grammar.Step

/-!
# Runs of reading

A run of a reader from a progress ends with a value, with a failed statement, at the limit of
errors, or at a number that cannot be read; a token or an entry of a table is never missing. What
holds afterwards is said by a condition on the value and the progress; it is carried through readers
step by step.
-/

namespace Blueprint.Grammar

open Blueprint.Declared Blueprint.Text

variable {spots : Position → Prop} {p q r : Progress} {α β : Type}

/-- How reading may end: a value meets a condition; a failed statement has a place; at the limit
there is an error; and a number that cannot be read is a value of digits that was noted. -/
def Lands (spots : Position → Prop) (p : Progress) (post : α → Progress → Prop) :
    Except Halt α × Progress → Prop
  | (.ok value, q) => Follows spots p q ∧ post value q
  | (.error (.failed error), q) => Follows spots p q ∧ spots error.token.position
  | (.error .stopped, q) => Follows spots p q ∧ 0 < q.errors
  | (.error (.fault _), q) => ∃ value ∈ q.orders, Unreadable value
  | (.error .missing, _) => False

/-- The run of a reader from a progress ends as it may, and its value meets a condition. -/
def Runs (spots : Position → Prop) (p : Progress) (reader : Reader α)
    (post : α → Progress → Prop) : Prop :=
  Lands spots p post (reader.run.run p)

/-- What ends well from a later progress ends well from an earlier one. -/
theorem Lands.of_follows {post : α → Progress → Prop} {result : Except Halt α × Progress}
    (hf : Follows spots p q) (h : Lands spots q post result) : Lands spots p post result := by
  rcases result with ⟨(error | _ | fault | _) | value, r⟩
  · exact ⟨hf.trans h.1, h.2⟩
  · exact ⟨hf.trans h.1, h.2⟩
  · exact h
  · exact h
  · exact ⟨hf.trans h.1, h.2⟩

/-- A weaker condition holds too. -/
theorem Lands.mono {post weaker : α → Progress → Prop} {result : Except Halt α × Progress}
    (h : Lands spots p post result)
    (hw : ∀ value q, Follows spots p q → post value q → weaker value q) :
    Lands spots p weaker result := by
  rcases result with ⟨(error | _ | fault | _) | value, r⟩
  · exact h
  · exact h
  · exact h
  · exact h
  · exact ⟨h.1, hw _ _ h.1 h.2⟩

/-- A reader that runs as another one has its runs. -/
theorem Runs.of_run_eq {reader other : Reader α} {post : α → Progress → Prop}
    (he : reader.run.run p = other.run.run p) (h : Runs spots p other post) :
    Runs spots p reader post := by
  unfold Runs at h ⊢
  rw [he]
  exact h

/-- A run that ends with a value. -/
theorem Runs.of_ok {reader : Reader α} {post : α → Progress → Prop} {value : α}
    (he : reader.run.run p = (.ok value, q)) (hf : Follows spots p q) (hp : post value q) :
    Runs spots p reader post := by
  unfold Runs
  rw [he]
  exact ⟨hf, hp⟩

/-- A weaker condition holds too. -/
theorem Runs.mono {reader : Reader α} {post weaker : α → Progress → Prop}
    (h : Runs spots p reader post)
    (hw : ∀ value q, Follows spots p q → post value q → weaker value q) :
    Runs spots p reader weaker :=
  Lands.mono h hw

/-- A value alone is read from nothing. -/
theorem Runs.pure {post : α → Progress → Prop} {value : α} (h : p.Sound spots)
    (hp : post value p) : Runs spots p (pure value) post :=
  .of_ok rfl (.refl h) hp

/-- How one reader after another runs. -/
theorem run_bind (reader : Reader α) (next : α → Reader β) (p : Progress) :
    (reader >>= next).run.run p =
      match reader.run.run p with
      | (.ok value, q) => (next value).run.run q
      | (.error halt, q) => (.error halt, q) := by
  rw [ExceptT.run_bind, StateT.run_bind]
  rcases reader.run.run p with ⟨halt | value, q⟩ <;> rfl

/-- After the run of one reader comes the run of the next. -/
theorem Runs.bind {reader : Reader α} {next : α → Reader β} {post : α → Progress → Prop}
    {last : β → Progress → Prop} (h : Runs spots p reader post)
    (hn : ∀ value q, Follows spots p q → post value q → Runs spots q (next value) last) :
    Runs spots p (reader >>= next) last := by
  unfold Runs at h ⊢
  rw [run_bind]
  generalize reader.run.run p = result at h ⊢
  rcases result with ⟨(error | _ | fault | _) | value, q⟩
  · exact h
  · exact h
  · exact h
  · exact h
  · exact (hn value q h.1 h.2).of_follows h.1

/-! ## Looking at what comes next -/

/-- The first token that is left is the next one. -/
theorem run_current_of_cons {token : Token} {tokens : List Token} (hr : p.rest = token :: tokens) :
    current.run.run p = (.ok token, p) := by
  cases p
  cases hr
  rfl

/-- Where no token is left, there is none to look at. -/
theorem run_current_of_nil (hr : p.rest = []) : current.run.run p = (.error .missing, p) := by
  cases p
  cases hr
  rfl

/-- There is a next token to look at. -/
theorem run_current (h : p.Sound spots) : current.run.run p = (.ok p.next, p) := by
  obtain ⟨tokens, hr⟩ := h.rest_eq
  exact run_current_of_cons hr

/-- Looking at the next token takes nothing. -/
theorem Runs.current (h : p.Sound spots) {next : Token → Reader β} {post : β → Progress → Prop}
    (hn : Runs spots p (next p.next) post) : Runs spots p (current >>= next) post := by
  refine hn.of_run_eq ?_
  rw [run_bind, run_current h]

/-- Looking at the tokens that are left takes nothing. -/
theorem Runs.remaining {next : List Token → Reader β} {post : β → Progress → Prop}
    (h : Runs spots p (next p.rest) post) : Runs spots p (remaining >>= next) post :=
  h.of_run_eq rfl

/-- Looking for a sign takes nothing. -/
theorem Runs.isSign (h : p.Sound spots) {sign : Sign} {next : Bool → Reader β}
    {post : β → Progress → Prop}
    (hn : Runs spots p (next (p.next.kind == .sign sign)) post) :
    Runs spots p (isSign sign >>= next) post := by
  refine hn.of_run_eq ?_
  unfold Grammar.isSign isNext
  rw [run_bind, run_bind, run_current h]
  rfl

/-- Looking up an entry that a table has takes nothing. -/
theorem Runs.lookUp {found : Option α} {entry : α} (hf : found = some entry)
    {next : α → Reader β} {post : β → Progress → Prop} (hn : Runs spots p (next entry) post) :
    Runs spots p (lookUp found >>= next) post := by
  rw [hf]
  exact hn.of_run_eq rfl

/-- Looking at the progress takes nothing. -/
theorem Runs.get {next : Progress → Reader β} {post : β → Progress → Prop}
    (h : Runs spots p (next p) post) : Runs spots p (get >>= next) post :=
  h.of_run_eq rfl

/-! ## Failing -/

/-- A statement fails at a token that has a place. -/
theorem Runs.fail {issue : GrammarIssue} {token : Token} {post : α → Progress → Prop}
    (h : p.Sound spots) (ht : spots token.position) : Runs spots p (fail issue token) post :=
  ⟨.refl h, ht⟩

/-- Nothing is read after a statement has failed. -/
theorem Runs.fail_bind {issue : GrammarIssue} {token : Token} {next : α → Reader β}
    {post : β → Progress → Prop} (h : p.Sound spots) (ht : spots token.position) :
    Runs spots p (Grammar.fail issue token >>= next) post := by
  have hf : Runs spots p (Grammar.fail issue token : Reader α) fun _ _ => False := .fail h ht
  exact hf.bind fun _ _ _ hn => hn.elim

/-- A statement fails at the next token. -/
theorem Runs.failExpected {wanted : Wanted} {post : α → Progress → Prop} (h : p.Sound spots) :
    Runs spots p (failExpected wanted p.next) post :=
  .fail h h.next_spot

/-- A statement fails at the next token. -/
theorem Runs.failUnexpected {place : Place} {post : α → Progress → Prop} (h : p.Sound spots) :
    Runs spots p (failUnexpected place p.next) post :=
  .fail h h.next_spot

/-! ## Taking tokens -/

/-- Going on with tokens that are left passes those before them. -/
theorem runs_continueWith (h : p.Sound spots) {tokens : List Token} (hs : tokens <:+ p.rest)
    (hn : tokens ≠ []) :
    Runs spots p (continueWith tokens) fun _ q => q = { p with rest := tokens } :=
  .of_ok rfl ⟨hs, Nat.le_refl _, h.of_suffix hs hn⟩ rfl

/-- Going on behind plain tokens passes them. -/
theorem runs_skip (h : p.Sound spots) {front tokens : List Token} (he : p.rest = front ++ tokens)
    (hf : ∀ token ∈ front, isPlain token.kind = true) :
    Runs spots p (continueWith tokens) fun _ q => Goes 0 front.length p q := by
  have hn : tokens ≠ [] := by
    rintro rfl
    obtain ⟨before, last, hb, hl, _⟩ := h.ends
    rw [he, List.append_nil] at hb
    have hp := hf last (hb ▸ List.mem_append_right _ List.mem_cons_self)
    rw [hl] at hp
    cases hp
  refine (runs_continueWith h ⟨front, he.symm⟩ hn).mono ?_
  rintro _ q _ rfl
  refine ⟨Nat.le_refl _, ?_, fun _ => ⟨[], front, he, (List.append_nil _).symm, .of_plain hf⟩⟩
  rw [he, List.length_append]
  exact Nat.le_of_eq (Nat.add_comm _ _)

/-- Taking the next token leaves those after it, if there are any. -/
theorem run_advance (h : p.Sound spots) :
    advance.run.run p = (.ok p.next, { p with rest := dropToken p.rest }) := by
  unfold advance
  rw [run_bind, run_current h]
  rfl

/-- The next token is taken unless it is the end of the input. -/
theorem runs_advance (h : p.Sound spots) (hk : p.next.kind ≠ .endOfInput) :
    Runs spots p advance fun token q =>
      token = p.next ∧ p.rest = p.next :: q.rest ∧ q.keys = p.keys ∧ q.errors = p.errors := by
  obtain ⟨token, tokens, hr⟩ := h.rest_cons hk
  have hd : dropToken p.rest = token :: tokens := by rw [hr]; rfl
  have hs : token :: tokens <:+ p.rest := by
    rw [hr]
    exact List.suffix_cons _ _
  refine .of_ok (run_advance h) ?_ ⟨rfl, ?_, rfl, rfl⟩
  · rw [hd]
    exact ⟨hs, Nat.le_refl _, h.of_suffix hs (List.cons_ne_nil _ _)⟩
  · dsimp only
    rw [hd]
    exact hr

/-- A token that is taken is passed. -/
theorem length_of_taken (hr : p.rest = p.next :: q.rest) : q.rest.length + 1 ≤ p.rest.length := by
  have hl := congrArg List.length hr
  rw [List.length_cons] at hl
  omega

/-- A plain token that is taken is passed. -/
theorem goes_of_plain (hk : isPlain p.next.kind = true) (hr : p.rest = p.next :: q.rest)
    (hl : q.keys = p.keys) (he : q.errors = p.errors) : Goes 0 1 p q where
  errors := Nat.le_of_eq he.symm
  taken := length_of_taken hr
  walk := by
    intro _
    refine ⟨[], [p.next], hr, ?_, .plain hk .done⟩
    rw [hl, List.append_nil]

/-- A plain token is taken. -/
theorem runs_advance_plain (h : p.Sound spots) (hk : isPlain p.next.kind = true) :
    Runs spots p advance fun token q =>
      token = p.next ∧ p.rest = p.next :: q.rest ∧ Goes 0 1 p q := by
  have hn : p.next.kind ≠ .endOfInput := by
    intro he
    rw [he] at hk
    cases hk
  refine (runs_advance h hn).mono ?_
  rintro token q _ ⟨rfl, hr, hl, he⟩
  exact ⟨rfl, hr, goes_of_plain hk hr hl he⟩

/-- An opening brace is taken. -/
theorem runs_advance_opening (h : p.Sound spots) (hk : p.next.kind = .sign .leftBrace) :
    Runs spots p advance fun _ q => Opens p q := by
  have hn : p.next.kind ≠ .endOfInput := by
    rw [hk]
    decide
  refine (runs_advance h hn).mono ?_
  rintro token q _ ⟨rfl, hr, hk', he⟩
  exact ⟨Nat.le_of_eq he.symm, ⟨p.next, hk, hr⟩, hk'⟩

/-- A token is taken as a key unless it ends the block or the input. -/
theorem runs_takeKey (h : p.Sound spots) (hk : p.next.kind ≠ .sign .rightBrace)
    (hn : p.next.kind ≠ .endOfInput) :
    Runs spots p takeKey fun _ q => Goes 0 1 p q := by
  refine (runs_advance h hn).bind ?_
  rintro _ q hf ⟨rfl, hr, hl, he⟩
  have hs := hf.sound
  refine .of_ok rfl ⟨List.suffix_rfl, Nat.le_refl _, ?_⟩ ?_
  · refine ⟨hs.1, hs.2, hs.3, hs.4, hs.5, hs.6, ?_, hs.8⟩
    rw [q.orders_key]
    exact hs.7
  · refine ⟨Nat.le_of_eq he.symm, length_of_taken hr,
      fun _ => ⟨[p.next], [p.next], hr, ?_, .key hk .done⟩⟩
    rw [q.keys_key, hl]

/-- The workspace changes to one that has places, and nothing else changes. -/
theorem runs_modifyWorkspace (h : p.Sound spots) {change : Workspace → Workspace}
    (hc : p.workspace.Located spots → (change p.workspace).Located spots) :
    Runs spots p (modifyWorkspace change) fun _ q => Goes 0 0 p q :=
  .of_ok rfl ⟨List.suffix_rfl, Nat.le_refl _,
    h.ends, h.spelled, h.tokens, h.missing, h.errors, h.diagnostics, h.orders,
    hc h.workspace⟩ (.of_eq (Nat.le_refl _) rfl rfl)

end Blueprint.Grammar
