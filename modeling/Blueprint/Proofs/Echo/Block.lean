import Blueprint.Grammar.Property
import Blueprint.Proofs.Echo.Run

/-!
# Lines, blocks and properties before a fork

What is read on a line ends before a token on a later line, whatever it is. A statement of a block
takes a token, so the bound of a loop over statements does not matter where it is large enough; and
a statement that fails counts an error.
-/

namespace Blueprint.Grammar

open Blueprint.Declared Blueprint.Text

variable {α β : Type} {p q : Progress} {fork : Fork} {line : Int} {m n : Nat}
variable {taken : α → Prop} {joined : β → Prop}

/-! ## Tokens -/

/-- Taking a token is the same. -/
theorem echoes_advance : Echoes fork n (fun _ => True) advance advance := by
  have h : Echoes fork n (fun _ => True) (advance >>= pure) (advance >>= pure) :=
    .advance fun token _ _ _ => .value token
  rwa [bind_pure] at h

/-- Noting what happens is the same. -/
theorem echoes_note (event : Event) :
    Echoes fork n (fun _ => False) (note event) (note event) :=
  .modify (fun _ => rfl) (fun _ => rfl) fun _ _ => rfl

/-- Taking a key is the same. -/
theorem echoes_takeKey {next follow : Token → Reader β}
    (h : ∀ token m, m ≤ n → fork.Above m token.line →
      Echoes fork m (fun _ => False) (next token) (follow token)) :
    Echoes fork n joined (takeKey >>= next) (takeKey >>= follow) := by
  unfold takeKey
  simp only [bind_assoc, pure_bind]
  exact .advance fun token m hm ha => (echoes_note (.key token)).bind fun _ => h token m hm ha

/-- Changing the workspace is the same. -/
theorem echoes_modifyWorkspace (change : Workspace → Workspace) :
    Echoes fork n (fun _ => False) (modifyWorkspace change) (modifyWorkspace change) :=
  .modify (fun _ => rfl) (fun _ => rfl) fun _ _ => rfl

/-- A remark is the same. -/
theorem echoes_remark (issue : Issue) (position : Position) :
    Echoes fork n (fun _ => False) (remark issue position) (remark issue position) :=
  .modify (fun _ => rfl) (fun _ => rfl) fun _ _ => rfl

/-- Looking up an entry is the same. -/
theorem echoes_lookUp (entry : Option α) :
    Echoes fork n (fun _ => False) (lookUp entry) (lookUp entry) := by
  cases entry with
  | none => exact .throw _
  | some entry => exact .value entry

/-- A statement that fails at the next token yields nothing. -/
theorem echoes_failNext {wanted : Wanted} {mate : Reader α} :
    Echoes fork n taken (current >>= fun token => failExpected wanted token) mate := by
  have hp : Passes taken (current >>= fun token => (failExpected wanted token : Reader α)) :=
    .current fun _ => .throw _
  refine ⟨hp, fun {p q value front last} hy => ?_⟩
  obtain ⟨token, r, _, hr⟩ := hy.of_bind
  cases hr

/-- The tokens that are left are more than those before the fork. -/
theorem Echoes.remaining {next follow : List Token → Reader β}
    (h : ∀ tokens others m, m ≤ n → m ≤ tokens.length → m ≤ others.length →
      Echoes fork m joined (next tokens) (follow others)) :
    Echoes fork n joined (Grammar.remaining >>= next) (Grammar.remaining >>= follow) where
  toPasses := .remaining fun tokens =>
    (h tokens [] 0 (Nat.zero_le _) (Nat.zero_le _) (Nat.zero_le _)).toPasses
  echo := by
    intro p q value front last hy he hp hq hl hb
    have ht := List.length_pos_iff.mpr fork.tokens_ne_nil
    have ho := List.length_pos_iff.mpr fork.others_ne_nil
    have hm := h p.rest (front ++ fork.others) (front.length + 1) hl
      (by rw [hp, List.length_append]; omega) (by rw [List.length_append]; omega)
    exact hm.echo hy he hp hq (Nat.lt_succ_self _) hb

/-- Looking for a sign is looking at the next token. -/
theorem isSign_bind (sign : Sign) (next : Bool → Reader β) :
    (isSign sign >>= next) = current >>= fun token => next (token.kind == .sign sign) := by
  unfold isSign isNext
  rw [bind_assoc]
  rfl

/-- What a sign starts takes a token; without it, readers go on in the same way. -/
theorem Echoes.isSign {sign : Sign} (hs : sign ≠ .rightBrace)
    {reader mate other follow : Reader β}
    (ht : Echoes fork n (fun value => joined value ∨ 0 < n) reader mate)
    (hf : Echoes fork n joined other follow) :
    Echoes fork n joined (Grammar.isSign sign >>= fun found => if found then reader else other)
      (Grammar.isSign sign >>= fun found => if found then mate else follow) := by
  rw [isSign_bind, isSign_bind]
  refine .current (fun token m hm _ => .ite (fun _ => (ht.of_le hm).mono fun _ => .inl)
    fun _ => hf.of_le hm) ?_
  intro head name hn hstarts
  refine EchoesHere.ite (fun _ => ht.toPasses.mono fun _ _ => .inr hn) (fun _ hk => ?_)
    (hf.here hn) hstarts
  exact hstarts.heads.sign_ne sign hs (beq_iff_eq.mp hk)

/-! ## Lines -/

/-- Where the first token of a tail does not count, only tokens before the tail are taken. -/
theorem takeWhile_append_tail {accepts : Token → Bool} {front tail : List Token}
    (h : ∀ token ∈ tail.head?, accepts token = false) :
    (front ++ tail).takeWhile accepts = front.takeWhile accepts := by
  induction front with
  | nil =>
    cases tail with
    | nil => rfl
    | cons token rest => exact List.takeWhile_cons_of_neg (Bool.eq_false_iff.mp (h token rfl))
  | cons token front ih => rw [List.cons_append, List.takeWhile_cons, List.takeWhile_cons, ih]

/-- Where the first token of a tail does not count, the whole tail is left. -/
theorem dropWhile_append_tail {accepts : Token → Bool} {front tail : List Token}
    (h : ∀ token ∈ tail.head?, accepts token = false) :
    (front ++ tail).dropWhile accepts = front.dropWhile accepts ++ tail := by
  induction front with
  | nil =>
    cases tail with
    | nil => rfl
    | cons token rest => exact List.dropWhile_cons_of_neg (Bool.eq_false_iff.mp (h token rfl))
  | cons token front ih =>
    rw [List.cons_append, List.dropWhile_cons, List.dropWhile_cons, ih]
    split
    · rfl
    · rfl

/-- Where the first token of a tail is no argument on a line, only tokens before the tail are
arguments. -/
theorem positional_append_tail {limit : Nat} {front tail : List Token}
    (h : ∀ token ∈ tail.head?, (token.line == line && isPositional token) = false) :
    positional line limit (front ++ tail) = positional line limit front := by
  unfold positional
  rw [List.take_append]
  refine takeWhile_append_tail fun token ht => h token ?_
  cases tail with
  | nil => rw [List.take_nil] at ht; cases ht
  | cons first rest =>
    cases hc : limit - front.length with
    | zero => rw [hc] at ht; cases ht
    | succ count => rw [hc] at ht; exact ht

namespace Fork

/-- The tails start with the end of the input or below the line. -/
theorem head?_tokens (fork : Fork) :
    ∀ token ∈ fork.tokens.head?, token.kind = .endOfInput ∨ fork.line < token.line := by
  rcases fork with ⟨line, tokens, others, parts⟩
  cases parts with
  | finish kind =>
    rintro token ⟨⟩
    exact .inl kind
  | below heads =>
    rintro token ⟨⟩
    exact .inr heads.head_below

/-- The tails start with the end of the input or below the line. -/
theorem head?_others (fork : Fork) :
    ∀ token ∈ fork.others.head?, token.kind = .endOfInput ∨ fork.line < token.line := by
  rcases fork with ⟨line, tokens, others, parts⟩
  cases parts with
  | finish kind =>
    rintro token ⟨⟩
    exact .inl kind
  | below heads =>
    rintro token ⟨⟩
    exact .inr heads.name_below

end Fork

/-- A token below a line is not on it. -/
theorem line_beq_of_lt {token : Token} (h : line < token.line) : (token.line == line) = false :=
  beq_eq_false_iff_ne.mpr (Int.ne_of_gt h)

/-- A token below a line does not continue a statement on it. -/
theorem onLine_of_lt {token : Token} (h : line < token.line) : onLine line token = false := by
  unfold onLine
  rw [line_beq_of_lt h, Bool.false_and]

/-- The end of the input, or a token below a line, does not continue a statement on it. -/
theorem onLine_of_ends {token : Token} (h : token.kind = .endOfInput ∨ line < token.line) :
    onLine line token = false := by
  rcases h with hk | hl
  · unfold onLine
    rw [hk]
    simp
  · exact onLine_of_lt hl

/-- The end of the input, or a token below a line, is no argument on it. -/
theorem positional_of_ends {token : Token} (h : token.kind = .endOfInput ∨ line < token.line) :
    (token.line == line && isPositional token) = false := by
  rcases h with hk | hl
  · unfold isPositional
    rw [hk]
    simp
  · rw [line_beq_of_lt hl, Bool.false_and]

/-- The first tokens of tails that start below the line do not continue a statement on it. -/
theorem EchoesHere.offLine {head name : Token} (hs : fork.Starts head name)
    (hl : line ≤ fork.line) {reader mate other follow : Reader α}
    (h : EchoesHere fork other follow) :
    EchoesHere fork (if onLine line head then reader else other)
      (if onLine line name then mate else follow) :=
  .neither (Bool.eq_false_iff.mp (onLine_of_lt (Int.lt_of_le_of_lt hl hs.heads.head_below)))
    (Bool.eq_false_iff.mp (onLine_of_lt (Int.lt_of_le_of_lt hl hs.heads.name_below))) h

/-- The first tokens of tails that start below the line are no signs on it. -/
theorem EchoesHere.otherLine {head name : Token} (hs : fork.Starts head name)
    (hl : line ≤ fork.line) {first second : Bool} {reader mate other follow : Reader α}
    (h : EchoesHere fork other follow) :
    EchoesHere fork (if first && head.line == line then reader else other)
      (if second && name.line == line then mate else follow) := by
  rw [line_beq_of_lt (Int.lt_of_le_of_lt hl hs.heads.head_below),
    line_beq_of_lt (Int.lt_of_le_of_lt hl hs.heads.name_below), Bool.and_false, Bool.and_false]
  exact EchoesHere.neither Bool.false_ne_true Bool.false_ne_true h

/-- Going on behind tokens that do not depend on the tails is the same. -/
theorem Echoes.skip {left : List Token → List Token} {value : List Token → α}
    (hs : ∀ tokens, left tokens <:+ tokens)
    (h : 0 < n → ∀ front, ∃ last, left (front ++ fork.tokens) = last ++ fork.tokens ∧
      left (front ++ fork.others) = last ++ fork.others ∧
      value (front ++ fork.others) = value (front ++ fork.tokens)) :
    Echoes fork n (fun _ => False)
      (Grammar.remaining >>= fun tokens =>
        continueWith (left tokens) >>= fun _ => Pure.pure (value tokens))
      (Grammar.remaining >>= fun tokens =>
        continueWith (left tokens) >>= fun _ => Pure.pure (value tokens)) where
  rest := by
    rintro p q result ⟨⟩
    exact hs p.rest
  errors := by
    rintro p q result ⟨⟩
    exact Nat.le_refl _
  taken := fun _ _ hf => hf.elim
  echo := by
    rintro p q _ front last ⟨⟩ _ hp hq hl _
    obtain ⟨back, ht, ho, hv⟩ := h (by omega) front
    have hq' : left p.rest = last ++ fork.tokens := hq
    rw [hp, ht] at hq'
    rw [hp, ← hv, ← List.append_cancel_right hq']
    show _ = (_, { p with rest := back ++ fork.others })
    rw [← ho]
    rfl

/-- Taking the values of a line is the same. -/
theorem echoes_takeValues (hl : fork.Above n line) :
    Echoes fork n (fun _ => False) (takeValues line) (takeValues line) := by
  unfold takeValues
  refine .skip (fun tokens => List.dropWhile_suffix _) fun hn front =>
    ⟨afterLine line front, ?_, ?_, ?_⟩
  · exact dropWhile_append_tail fun token ht => onLine_of_ends
      ((fork.head?_tokens token ht).imp_right (Int.lt_of_le_of_lt (hl hn)))
  · exact dropWhile_append_tail fun token ht => onLine_of_ends
      ((fork.head?_others token ht).imp_right (Int.lt_of_le_of_lt (hl hn)))
  · unfold lineValues
    rw [takeWhile_append_tail, takeWhile_append_tail]
    · exact fun token ht => onLine_of_ends
        ((fork.head?_tokens token ht).imp_right (Int.lt_of_le_of_lt (hl hn)))
    · exact fun token ht => onLine_of_ends
        ((fork.head?_others token ht).imp_right (Int.lt_of_le_of_lt (hl hn)))

/-- Taking arguments on a line is the same. -/
theorem echoes_takePositional (hl : fork.Above n line) (limit : Nat) :
    Echoes fork n (fun _ => False) (takePositional line limit) (takePositional line limit) := by
  unfold takePositional
  refine .skip (fun tokens => List.drop_suffix _ _) fun hn front =>
    ⟨front.drop (positional line limit front).length, ?_⟩
  have hle : (positional line limit front).length ≤ front.length := by
    obtain ⟨more, he⟩ := positional_prefix line limit front
    exact Nat.le.intro (by rw [← List.length_append, he])
  have ht : positional line limit (front ++ fork.tokens) = positional line limit front :=
    positional_append_tail fun token ht =>
      positional_of_ends ((fork.head?_tokens token ht).imp_right (Int.lt_of_le_of_lt (hl hn)))
  have ho : positional line limit (front ++ fork.others) = positional line limit front :=
    positional_append_tail fun token ht =>
      positional_of_ends ((fork.head?_others token ht).imp_right (Int.lt_of_le_of_lt (hl hn)))
  rw [ht, ho]
  exact ⟨List.drop_append_of_le_length hle, List.drop_append_of_le_length hle, rfl⟩

/-- Taking a token of one of some kinds is the same. -/
theorem echoes_expect (kinds : List Kind) :
    Echoes fork n (fun _ => True) (expect kinds) (expect kinds) := by
  unfold expect
  exact .look fun token m _ _ => .ite (fun _ => echoes_advance) fun _ => .fail

/-- Taking an opening brace is the same. -/
theorem echoes_expectOpening :
    Echoes fork n (fun _ => True) expectOpening expectOpening := by
  unfold expectOpening
  exact (echoes_expect _).andThen fun _ => .value ()

/-- What follows an opening brace is read before fewer tokens. -/
theorem Echoes.expectOpening {next follow : Unit → Reader β}
    (h : Echoes fork (n - 1) (fun _ => False) (next ()) (follow ())) :
    Echoes fork n joined (Grammar.expectOpening >>= next) (Grammar.expectOpening >>= follow) := by
  have he : ∀ go : Unit → Reader β, (Grammar.expectOpening >>= go) =
      Grammar.current >>= fun token =>
        if [Kind.sign .leftBrace].contains token.kind then Grammar.advance >>= fun _ => go ()
        else failExpected (.oneOf [.sign .leftBrace]) token := by
    intro go
    unfold Grammar.expectOpening expect
    simp only [bind_assoc, pure_bind]
    refine congrArg _ (funext fun token => ?_)
    split
    · rfl
    · rfl
  have hp : ∀ token : Token, Passes (fun _ => True)
      (if [Kind.sign .leftBrace].contains token.kind then Grammar.advance >>= fun _ => next ()
        else failExpected (.oneOf [.sign .leftBrace]) token) := by
    intro token
    split
    · exact .advance fun _ => h.toPasses
    · exact .throw _
  rw [he, he]
  refine .current_ahead (fun token m hm _ => ⟨fun hk => ?_, fun _ => ?_⟩) fun head _ _ hs =>
    EchoesHere.of_taken hs (hp head)
  · rw [if_neg (by rw [hk]; decide), if_neg (by rw [hk]; decide)]
    exact .fail
  · exact .ite (fun _ => EchoesAhead.andThen echoes_advance fun _ => h.of_le (by omega))
      fun _ => Echoes.fail.ahead

/-- Taking a string literal is the same. -/
theorem echoes_expectString (line : Int) (wanted : Wanted) :
    Echoes fork n (fun _ => True) (expectString line wanted) (expectString line wanted) := by
  unfold expectString
  exact .look fun token m _ _ =>
    .ite (fun _ => echoes_advance.andThen fun _ => .value _) fun _ => .fail

/-- Taking a single value is the same. -/
theorem echoes_expectSingle (line : Int) (wanted : Wanted) :
    Echoes fork n (fun _ => True) (expectSingle line wanted) (expectSingle line wanted) := by
  unfold expectSingle
  exact .look fun token m _ _ =>
    .ite (fun _ => echoes_advance.andThen fun _ => .value _) fun _ => .fail

/-- Taking the rest of a line as a value is the same. -/
theorem echoes_expectValue (hl : fork.Above n line) (wanted : Wanted) :
    Echoes fork n (fun _ => False) (expectValue line wanted) (expectValue line wanted) := by
  unfold expectValue
  refine (echoes_takeValues hl).bind fun values => ?_
  split
  · exact echoes_failNext
  · exact .value _

/-- Reaching the end of a line is the same. -/
theorem echoes_expectLineEnd (hl : fork.Above n line) :
    Echoes fork n (fun _ => False) (expectLineEnd line) (expectLineEnd line) := by
  unfold expectLineEnd
  refine .current (fun token m _ _ => .ite (fun _ => .fail) fun _ => .value ()) ?_
  exact fun head name hn hs => EchoesHere.offLine hs (hl hn) ((Echoes.value ()).here hn)

/-- A body opens in the same way, and what it is read by runs in the same way before fewer tokens;
without a body readers go on in the same way. -/
theorem Echoes.opensBody (hl : fork.Above n line) {reader mate other follow : Reader β}
    (ht : Echoes fork (n - 1) (fun _ => False) reader mate)
    (hf : Echoes fork n joined other follow) :
    Echoes fork n joined
      (Grammar.opensBody line >>= fun opened => if opened then reader else other)
      (Grammar.opensBody line >>= fun opened => if opened then mate else follow) := by
  have he : ∀ body rest : Reader β,
      (Grammar.opensBody line >>= fun opened => if opened then body else rest) =
        Grammar.current >>= fun token =>
          if token.kind == .sign .leftBrace && token.line == line then
            Grammar.advance >>= fun _ => body
          else rest := by
    intro body rest
    unfold Grammar.opensBody
    rw [bind_assoc]
    refine congrArg _ (funext fun token => ?_)
    split
    · rw [bind_assoc]
      rfl
    · rfl
  rw [he, he]
  refine .current_ahead (fun token m hm _ => ⟨fun hk => ?_, fun _ => ?_⟩) fun head name hn hs => ?_
  · have hno : (token.kind == .sign .leftBrace && token.line == line) = false := by
      rw [hk]
      rfl
    rw [hno]
    exact hf.of_le hm
  · exact .ite (fun _ => EchoesAhead.andThen echoes_advance fun _ => ht.of_le (by omega))
      fun _ => (hf.of_le hm).ahead
  · exact EchoesHere.otherLine hs (hl hn) (hf.here hn)

/-! ## Failed statements -/

/-- A report takes nothing. -/
theorem passes_report (error : GrammarError) : Passes (fun _ => False) (report error) where
  rest := by
    intro p q result hr
    rw [run_report] at hr
    split at hr
    · cases hr
      exact List.suffix_rfl
    · cases hr
      exact List.suffix_rfl
  errors := by
    intro p q result hr
    rw [run_report] at hr
    split at hr
    · cases hr
      exact Nat.le_succ _
    · cases hr
      exact Nat.le_succ _
  taken := fun _ _ hf => hf.elim

/-- After a report there are more errors. -/
theorem errors_lt_of_report {error : GrammarError} {next : Unit → Reader α} {value : α}
    (hn : Passes taken (next ())) (h : Yields p (report error >>= next) value q) :
    p.errors < q.errors := by
  obtain ⟨_, r, hr, hs⟩ := h.of_bind
  have hle := hn.errors hs
  unfold Yields at hr
  rw [run_report] at hr
  split at hr
  · cases hr
  · cases hr
    exact hle

/-- After a report nothing is claimed. -/
theorem echoes_report {error : GrammarError} {next : Unit → Reader α} {mate : Reader α}
    (hn : Passes (fun _ => False) (next ())) :
    Echoes fork n taken (report error >>= next) mate := by
  have hp : Passes (fun _ => False) (report error >>= next) :=
    (passes_report error).bind fun _ => hn
  refine ⟨⟨hp.rest, hp.errors, fun hy he => ?_⟩, fun hy he => ?_⟩
  · exact absurd he (Nat.ne_of_gt (errors_lt_of_report hn hy))
  · exact absurd he (Nat.ne_of_gt (errors_lt_of_report hn hy))

/-- Passing over a failed statement takes tokens from the front. -/
theorem passes_recoverFrom (token : Token) : Passes (fun _ => False) (recoverFrom token) where
  rest := by
    rintro p q result ⟨⟩
    exact afterStatement_suffix _ _ _
  errors := by
    rintro p q result ⟨⟩
    exact Nat.le_refl _
  taken := fun _ _ hf => hf.elim

/-- A statement that may be given up is the same: without an error it does not fail. -/
theorem Echoes.attempt {statement mate : Reader α} {after : GrammarError → Unit → Reader α}
    {mend : GrammarError → Reader α} (h : Echoes fork n taken statement mate)
    (hr : ∀ error, Passes (fun _ => False) (after error ())) :
    Echoes fork n taken (Grammar.attempt statement fun error => report error >>= after error)
      (Grammar.attempt mate mend) := by
  -- Without an error the run is that of the statement.
  have hrun : ∀ {p q value}, Yields p
      (Grammar.attempt statement fun error => report error >>= after error) value q →
      q.errors = p.errors → Yields p statement value q := by
    intro p q value hy he
    unfold Yields at hy ⊢
    rw [run_attempt] at hy
    cases hs : statement.run.run p with
    | mk result r =>
      rw [hs] at hy
      rcases result with (error | _ | fault | _) | value'
      · have hlt := errors_lt_of_report (hr error) hy
        have hle := h.errors hs
        omega
      · cases hy
      · cases hy
      · cases hy
      · exact hy
  refine ⟨⟨?_, ?_, fun hy he => h.taken (hrun hy he) he⟩, fun hy he hp hq hl hb =>
    (h.echo (hrun hy he) he hp hq hl hb).attempt⟩
  · intro p q result ha
    rw [run_attempt] at ha
    cases hs : statement.run.run p with
    | mk outcome r =>
      rw [hs] at ha
      rcases outcome with (error | _ | fault | _) | value
      · exact (((passes_report error).bind fun _ => hr error).rest ha).trans (h.rest hs)
      all_goals
        cases ha
        exact h.rest hs
  · intro p q result ha
    rw [run_attempt] at ha
    cases hs : statement.run.run p with
    | mk outcome r =>
      rw [hs] at ha
      rcases outcome with (error | _ | fault | _) | value
      · exact Nat.le_trans (h.errors hs) (((passes_report error).bind fun _ => hr error).errors ha)
      all_goals
        cases ha
        exact h.errors hs

/-- A statement outside of blocks is the same. -/
theorem echoes_readOrSkip {statement mate : Reader Unit} {taken : Unit → Prop}
    (h : Echoes fork n taken statement mate) :
    Echoes fork n taken (readOrSkip statement) (readOrSkip mate) := by
  unfold readOrSkip
  exact h.attempt fun error => passes_recoverFrom error.token

/-- A statement of a block is the same, and takes a token. -/
theorem echoes_readStatement {leave quit : Token → α → α} {statement mate : α → Reader α}
    (h : ∀ value, Echoes fork n (fun _ => True) (statement value) (mate value)) (value : α) :
    Echoes fork n (fun _ => True) (readStatementLeaving leave statement value)
      (readStatementLeaving quit mate value) := by
  unfold readStatementLeaving
  refine .look fun first m hm _ => .remaining fun before others k hk _ _ => ?_
  refine ((h value).of_le (by omega)).attempt fun error => (passes_recoverFrom error.token).bind
    fun _ => .remaining fun after => .current fun next => ?_
  split
  · exact .advance fun _ => .pure not_false
  · exact .pure not_false

/-! ## Blocks -/

/-- Looking at what is not a token is the same. -/
theorem echoes_get {next : Progress → Reader α}
    (h : ∀ p, Echoes fork n taken (next p) (next p))
    (ha : ∀ p tokens, next (Progress.ahead p tokens) = next p) :
    Echoes fork n taken (get >>= next) (get >>= next) where
  rest := fun {p _ _} hr => (h p).rest hr
  errors := fun {p _ _} hr => (h p).errors hr
  taken := fun {p _ _} hy => (h p).taken hy
  echo := by
    intro p q value front last hy he hp hq hl hb
    have hr := (h p).echo hy he hp hq hl hb
    rw [← ha p (front ++ fork.others)] at hr
    exact hr

/-- At the end of the input a block is the same: without an error nothing is reported. -/
theorem echoes_unclosed (token : Token) (value : α) :
    Echoes fork n (fun _ => False)
      (get >>= fun progress => if !progress.endReported then
        reportUnclosed token >>= fun _ => pure value else pure value)
      (get >>= fun progress => if !progress.endReported then
        reportUnclosed token >>= fun _ => pure value else pure value) := by
  refine echoes_get (fun p => .ite (fun _ => ?_) fun _ => .value value) fun _ _ => rfl
  unfold reportUnclosed
  rw [bind_assoc]
  exact Echoes.bind (.modify (fun _ => rfl) (fun _ => rfl) fun _ _ => rfl) fun _ =>
    echoes_report (.pure not_false)

/-- The loop over the statements of a block is the same if its bounds are large enough. -/
theorem echoes_readBlockWithin {leave quit : Token → α → α} {statement mate : α → Reader α}
    (h : ∀ value, Echoes fork n (fun _ => True) (statement value) (mate value)) {count other : Nat}
    (hc : n ≤ count) (ho : n ≤ other) (value : α) :
    Echoes fork n (fun _ => False) (readBlockWithin leave statement count value)
      (readBlockWithin quit mate other value) := by
  induction count generalizing n other value with
  | zero =>
    obtain rfl : n = 0 := by omega
    exact .of_passes (.pure not_false)
  | succ count ih =>
    refine .of_succ (readBlockWithin quit mate · value) ho fun other ho => ?_
    have hloop : ∀ last, Echoes fork (n - 1) (fun _ => False)
        (readBlockWithin leave statement count last) (readBlockWithin quit mate other last) :=
      fun last => ih (fun value => (h value).of_le (by omega)) (by omega) (by omega) last
    unfold readBlockWithin
    refine .current_ahead (fun token m hm _ => ⟨fun hk => ?_, fun hk => ?_⟩) ?_
    · have he : (token.kind == .endOfInput) = true := beq_iff_eq.mpr hk
      rw [if_pos he, if_pos he]
      exact echoes_unclosed token value
    · have he : ¬(token.kind == .endOfInput) = true := fun h => hk (beq_iff_eq.mp h)
      rw [if_neg he, if_neg he]
      refine .ite (fun _ => ?_) fun _ => ?_
      · exact (Echoes.advance fun _ _ _ _ => .value value).ahead
      · exact EchoesAhead.andThen
          (echoes_readStatement (fun value => (h value).of_le hm) value)
          fun last => (hloop last).of_le (by omega)
    · -- At the fork a statement or the closing brace is taken.
      intro head name hn hs
      have he : ¬(head.kind == .endOfInput) = true := fun h => hs.heads.end_ne (beq_iff_eq.mp h)
      rw [if_neg he]
      refine EchoesHere.of_taken hs ?_
      split
      · exact .advance fun _ => .pure not_false
      · have hone : Echoes fork n (fun _ => True) (readStatementLeaving leave statement value)
            (readStatementLeaving quit mate value) := echoes_readStatement h value
        exact hone.toPasses.chain (fun last => (hloop last).toPasses) fun _ _ _ => .inl trivial

/-- A block is the same if its statements are. -/
theorem echoes_readBlockLeaving {leave quit : Token → α → α} {statement mate : α → Reader α}
    (h : ∀ value, Echoes fork n (fun _ => True) (statement value) (mate value)) (value : α) :
    Echoes fork n (fun _ => False) (readBlockLeaving leave statement value)
      (readBlockLeaving quit mate value) := by
  unfold readBlockLeaving
  exact .remaining fun _ _ m hm ht ho =>
    echoes_readBlockWithin (fun value => (h value).of_le hm) ht ho value

/-- The body of a node is the same if its statements are. -/
theorem echoes_readBlock {statement mate : NodeReader α Unit} [Spares statement] [Spares mate]
    (h : ∀ node, Echoes fork n (fun _ => True) (statement.fill node) (mate.fill node))
    (node : α) :
    Echoes fork n (fun _ => False) (readBlock statement node) (readBlock mate node) := by
  rw [readBlock_eq_keeping, readBlock_eq_keeping]
  exact echoes_readBlockLeaving h node

/-- A block is the same if its statements are. -/
theorem echoes_readBlockOf {statement mate : Reader Unit}
    (h : Echoes fork n (fun _ => True) statement mate) :
    Echoes fork n (fun _ => False) (readBlockOf statement) (readBlockOf mate) := by
  rw [readBlockOf_eq, readBlockOf_eq]
  exact echoes_readBlockLeaving (fun _ => h) ()

/-! ## Properties -/

/-- An entry is the same if the blocks inside it are. -/
theorem echoes_readEntry {block mate : Reader Properties}
    (h : Echoes fork n (fun _ => 0 < n) block mate) (entries : Properties) :
    Echoes fork n (fun _ => True) ((readEntry block).fill entries)
      ((readEntry mate).fill entries) := by
  rw [fill_readEntry, fill_readEntry]
  refine echoes_takeKey fun key m hm ha => .isSign (by decide) ?_ ?_
  · refine (h.of_le hm).chain (fun _ => .value _) fun _ _ hj => .inl ?_
    exact Nat.lt_of_lt_of_le (hj.resolve_left not_false) hm
  · exact (echoes_takeValues ha).bind fun _ => .value _

/-- Keys and values are the same, however deep, if the bounds are large enough. -/
theorem echoes_readKeyValuesWithin {depth other : Nat} (hd : n ≤ depth) (ho : n ≤ other) :
    Echoes fork n (fun _ => 0 < n) (readKeyValuesWithin depth) (readKeyValuesWithin other) := by
  induction depth generalizing n other with
  | zero =>
    obtain rfl : n = 0 := by omega
    exact .of_passes (.pure (Nat.lt_irrefl 0))
  | succ depth ih =>
    refine .of_succ _ ho fun other ho => ?_
    rw [readKeyValuesWithin, readKeyValuesWithin]
    refine .expectOpening (echoes_readBlock (fun entries => echoes_readEntry ?_ entries) .empty)
    exact ih (by omega) (by omega)

/-- Keys and values are the same. -/
theorem echoes_readKeyValues :
    Echoes fork n (fun _ => False) readKeyValues readKeyValues := by
  unfold readKeyValues
  exact .remaining fun _ _ m _ ht ho => (echoes_readKeyValuesWithin ht ho).idle

/-- A property statement is the same, and takes a token if there is one. -/
theorem echoes_readProperty (accepts : PropertyWord → Bool) :
    EchoesBefore fork n (fun change => change ≠ none) (readProperty accepts)
      (readProperty accepts) := by
  unfold readProperty
  have hnone : ∀ {m : Nat}, Echoes fork m (fun change : Option PropertyEdit => change ≠ none)
      (pure none) (pure none) := .pure fun h => h rfl
  refine .current fun token m hm ha => .of_echoes ?_
  split
  · exact hnone
  · rename_i word _
    refine .ite (fun _ => .advance fun _ k hk _ => ?_) fun _ => hnone
    have hvalue : ∀ make : String → PropertyEdit, Echoes fork k (fun _ => False)
        (do
          let value ← expectValue token.line (.valueFor token.lexeme)
          return some (make value))
        (do
          let value ← expectValue token.line (.valueFor token.lexeme)
          return some (make value)) :=
      fun make => (echoes_expectValue (ha.of_le hk) _).bind fun _ => .value _
    have hblock : ∀ make : Properties → PropertyEdit, Echoes fork k (fun _ => False)
        (do
          let entries ← readKeyValues
          return some (make entries))
        (do
          let entries ← readKeyValues
          return some (make entries)) :=
      fun make => echoes_readKeyValues.bind fun _ => .value _
    cases word with
    | description => exact hvalue .description
    | technology => exact hvalue .technology
    | url => exact hvalue .url
    | location => exact hvalue .location
    | instances => exact hvalue .instances
    | tags =>
      refine (echoes_takeValues (ha.of_le hk)).bind fun values => ?_
      split
      · exact echoes_failNext
      · exact .value _
    | properties => exact hblock .properties
    | perspectives => exact hblock .perspectives

end Blueprint.Grammar
