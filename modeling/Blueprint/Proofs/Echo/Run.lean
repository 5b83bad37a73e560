import Blueprint.Grammar.Body
import Blueprint.Proofs.Grammar.Yields

/-!
# Runs that do not reach what follows

Two lists of tokens begin in the same way and go on with different tails. A run that goes through
without an error and ends before the tail of the one list is compared with a run on the other list:
it is the same run. What it looks at of a tail is only the next token, and that stands on a line of
its own in both. The bounds of loops, which are told from the counts of tokens, may differ in the
two runs if both are large enough.
-/

namespace Blueprint.Grammar

variable {α β : Type} {p q r : Progress} {line : Int} {m n : Nat}

/-- The first tokens of two tails stand below a line, and neither goes on with what is read before.
The one is not the end of the input and no dot; the other is no sign but for a closing brace. -/
structure Heads (line : Int) (head name : Token) : Prop where
  /-- The first token of the one tail is not the end of the input. -/
  end_ne : head.kind ≠ .endOfInput
  /-- It is no dot. -/
  dot_ne : head.kind ≠ .sign .dot
  /-- It stands below the line. -/
  head_below : line < head.line
  /-- The first token of the other tail is no sign, unless it closes a block. -/
  sign_ne : ∀ sign : Sign, sign ≠ .rightBrace → name.kind ≠ .sign sign
  /-- It stands below the line. -/
  name_below : line < name.line

/-- How two tails may start: both with the end of the input, which is all there is, or both below a
line, with at least two tokens each. -/
inductive Parts (line : Int) : List Token → List Token → Prop
  /-- Both tails are the same end of the input. -/
  | finish {token : Token} (kind : token.kind = .endOfInput) (place : token.line ≤ line) :
    Parts line [token] [token]
  /-- Both tails stand below the line. -/
  | below {head next name sign : Token} {rest more : List Token} (heads : Heads line head name)
    (tokens_below : ∀ token ∈ head :: next :: rest, line < token.line)
    (others_below : ∀ token ∈ name :: sign :: more, line < token.line) :
    Parts line (head :: next :: rest) (name :: sign :: more)

/-- A point at which two lists of tokens part: a line that is not passed before it, and the tails
from there on. -/
structure Fork where
  /-- The tokens before the point are not below this line. -/
  line : Int
  /-- The tail of the one list. -/
  tokens : List Token
  /-- The tail of the other list. -/
  others : List Token
  /-- The tails start in one of the two ways. -/
  parts : Parts line tokens others

namespace Fork

variable {fork : Fork}

/-- If anything is claimed of runs before the fork, a line is not below those before it. -/
def Above (fork : Fork) (n : Nat) (line : Int) : Prop := 0 < n → line ≤ fork.line

/-- What is above the fork for many tokens is so for few. -/
theorem Above.of_le (h : fork.Above n line) (hm : m ≤ n) : fork.Above m line :=
  fun hp => h (Nat.lt_of_lt_of_le hp hm)

/-- Nothing is claimed of no tokens. -/
theorem above_zero : fork.Above 0 line := fun h => absurd h (Nat.lt_irrefl 0)

/-- The first tokens of tails that start below the line. -/
structure Starts (fork : Fork) (head name : Token) : Prop where
  /-- They stand below the line. -/
  heads : Heads fork.line head name
  /-- The one tail has another token. -/
  long : 1 < fork.tokens.length
  /-- The other tail starts with its first token. -/
  others : fork.others.head? = some name

/-- The tail of the one list is not empty. -/
theorem tokens_ne_nil (fork : Fork) : fork.tokens ≠ [] := by
  rcases fork with ⟨line, tokens, others, parts⟩
  cases parts with
  | finish => exact List.cons_ne_nil _ _
  | below => exact List.cons_ne_nil _ _

/-- The tail of the other list is not empty. -/
theorem others_ne_nil (fork : Fork) : fork.others ≠ [] := by
  rcases fork with ⟨line, tokens, others, parts⟩
  cases parts with
  | finish => exact List.cons_ne_nil _ _
  | below => exact List.cons_ne_nil _ _

end Fork

/-- A reader takes tokens from the front only and keeps errors. If it yields one of certain values
without an error, it takes a token. -/
structure Passes (taken : α → Prop) (reader : Reader α) : Prop where
  /-- Tokens are taken from the front. -/
  rest : ∀ {p q result}, reader.run.run p = (result, q) → q.rest <:+ p.rest
  /-- Errors stay. -/
  errors : ∀ {p q result}, reader.run.run p = (result, q) → p.errors ≤ q.errors
  /-- A token is taken. -/
  taken : ∀ {p q value}, Yields p reader value q → q.errors = p.errors → taken value →
    1 < p.rest.length → q.rest.length < p.rest.length

/-- Two readers run in the same way before a fork: if the one runs without an error through tokens
before the fork, fewer than a number, and leaves the one tail, then the other one runs through them
and leaves the other tail. -/
structure Echoes (fork : Fork) (n : Nat) (taken : α → Prop) (reader mate : Reader α) : Prop
    extends Passes taken reader where
  /-- The run before the fork is the same. -/
  echo : ∀ {p q value front last}, Yields p reader value q → q.errors = p.errors →
    p.rest = front ++ fork.tokens → q.rest = last ++ fork.tokens → front.length < n →
    (∀ token ∈ front, token.line ≤ fork.line) →
    Yields (p.ahead (front ++ fork.others)) mate value (q.ahead (last ++ fork.others))

/-- Two readers run in the same way before a fork if there is more than one token. -/
structure EchoesAhead (fork : Fork) (n : Nat) (taken : α → Prop) (reader mate : Reader α) : Prop
    extends Passes taken reader where
  /-- The run before the fork is the same. -/
  echo : ∀ {p q value front last}, Yields p reader value q → q.errors = p.errors →
    1 < p.rest.length → p.rest = front ++ fork.tokens → q.rest = last ++ fork.tokens →
    front.length < n → (∀ token ∈ front, token.line ≤ fork.line) →
    Yields (p.ahead (front ++ fork.others)) mate value (q.ahead (last ++ fork.others))

/-- Two readers run in the same way before a fork. Nothing is claimed of runs that start at the
fork, unless all that is left there is the end of the input. -/
structure EchoesBefore (fork : Fork) (n : Nat) (taken : α → Prop) (reader mate : Reader α) : Prop
    extends Passes taken reader where
  /-- The run before the fork is the same. -/
  echo : ∀ {p q value front last}, Yields p reader value q → q.errors = p.errors →
    (front = [] → fork.tokens.length = 1) → p.rest = front ++ fork.tokens →
    q.rest = last ++ fork.tokens → front.length < n → (∀ token ∈ front, token.line ≤ fork.line) →
    Yields (p.ahead (front ++ fork.others)) mate value (q.ahead (last ++ fork.others))

/-- Two readers run in the same way at a fork, where the one takes nothing. -/
def EchoesHere (fork : Fork) (reader mate : Reader α) : Prop :=
  ∀ ⦃p q value⦄, Yields p reader value q → q.errors = p.errors → p.rest = fork.tokens →
    q.rest = fork.tokens → Yields (p.ahead fork.others) mate value (q.ahead fork.others)

variable {fork : Fork} {taken moved : α → Prop} {joined : β → Prop} {reader mate : Reader α}
  {next follow : α → Reader β}

/-- A run of one reader after another is a run of each. -/
theorem Yields.of_bind {value : β} (h : Yields p (reader >>= next) value q) :
    ∃ middle r, Yields p reader middle r ∧ Yields r (next middle) value q := by
  unfold Yields at h
  rw [run_bind] at h
  cases hr : reader.run.run p with
  | mk result r =>
    rw [hr] at h
    cases result with
    | error halt => cases h
    | ok middle => exact ⟨middle, r, hr, h⟩

/-! ## Taking tokens from the front -/

namespace Passes

/-- Tokens are taken for fewer values too. -/
theorem mono (h : Passes taken reader) (hw : ∀ value, moved value → taken value) :
    Passes moved reader :=
  ⟨h.rest, h.errors, fun hy he hv => h.taken hy he (hw _ hv)⟩

/-- A value alone takes nothing. -/
theorem pure {value : α} (h : ¬taken value) : Passes taken (Pure.pure value) where
  rest := by
    rintro p q result ⟨⟩
    exact List.suffix_rfl
  errors := by
    rintro p q result ⟨⟩
    exact Nat.le_refl _
  taken := by
    rintro p q _ ⟨⟩ _ ht
    exact absurd ht h

/-- A halt takes nothing. -/
theorem throw (halt : Halt) : Passes taken (throw halt : Reader α) where
  rest := by
    rintro p q result ⟨⟩
    exact List.suffix_rfl
  errors := by
    rintro p q result ⟨⟩
    exact Nat.le_refl _
  taken := fun hy => nomatch hy

/-- A token is taken by one of two readers. -/
theorem chain {pair : α → β → Prop} (h : Passes taken reader)
    (hn : ∀ value, Passes (pair value) (next value))
    (hj : ∀ value last, joined last → taken value ∨ pair value last) :
    Passes joined (reader >>= next) where
  rest := by
    intro p q result hr
    rw [run_bind] at hr
    cases hm : reader.run.run p with
    | mk middle r =>
      rw [hm] at hr
      have hs := h.rest hm
      cases middle with
      | error halt =>
        cases hr
        exact hs
      | ok value => exact ((hn value).rest hr).trans hs
  errors := by
    intro p q result hr
    rw [run_bind] at hr
    cases hm : reader.run.run p with
    | mk middle r =>
      rw [hm] at hr
      have he := h.errors hm
      cases middle with
      | error halt =>
        cases hr
        exact he
      | ok value => exact Nat.le_trans he ((hn value).errors hr)
  taken := by
    intro p q last hy he ht hl
    obtain ⟨value, r, hr, hs⟩ := hy.of_bind
    have her := h.errors hr
    have hes := (hn value).errors hs
    have hlr := (h.rest hr).length_le
    have hls := ((hn value).rest hs).length_le
    rcases hj value last ht with hf | hp
    · have := h.taken hr (by omega) hf hl
      omega
    · by_cases hlt : r.rest.length < p.rest.length
      · omega
      · have := (hn value).taken hs (by omega) hp (by omega)
        omega

/-- Readers one after the other take tokens from the front. -/
theorem bind (h : Passes taken reader) (hn : ∀ value, Passes joined (next value)) :
    Passes joined (reader >>= next) :=
  h.chain hn fun _ _ hj => .inr hj

/-- Looking at the tokens that are left takes nothing. -/
theorem remaining {next : List Token → Reader β} (h : ∀ tokens, Passes joined (next tokens)) :
    Passes joined (Grammar.remaining >>= next) :=
  ⟨fun {p _ _} hr => (h p.rest).rest hr, fun {p _ _} hr => (h p.rest).errors hr,
    fun {p _ _} hy => (h p.rest).taken hy⟩

/-- A step that leaves tokens and errors takes nothing. -/
theorem modify {change : Progress → Progress} (hr : ∀ p, (change p).rest <:+ p.rest)
    (he : ∀ p, (change p).errors = p.errors) :
    Passes (fun _ => False) (modify change : Reader Unit) where
  rest := by
    rintro p q result ⟨⟩
    exact hr p
  errors := by
    rintro p q result ⟨⟩
    exact Nat.le_of_eq (he p).symm
  taken := fun _ _ hf => hf.elim

end Passes

/-! ## The same runs -/

/-- A progress between two others has tokens before a tail left. -/
theorem exists_middle {front last tail : List Token} (hp : p.rest = front ++ tail)
    (hr : r.rest = last ++ tail) (hq : q.rest <:+ p.rest) (hs : r.rest <:+ q.rest) :
    ∃ middle, q.rest = middle ++ tail ∧ middle <:+ front := by
  obtain ⟨skipped, hs⟩ := hs
  obtain ⟨passed, hq⟩ := hq
  refine ⟨skipped ++ last, ?_, passed, ?_⟩
  · rw [← hs, hr, List.append_assoc]
  · have hall : passed ++ (skipped ++ last) ++ tail = front ++ tail := by
      rw [← hp, ← hq, ← hs, hr]
      simp only [List.append_assoc]
    exact List.append_cancel_right hall

namespace Echoes

/-- What holds for many tokens holds for few. -/
theorem of_le (h : Echoes fork n taken reader mate) (hm : m ≤ n) :
    Echoes fork m taken reader mate :=
  ⟨h.toPasses, fun hy he hp hq hl hb => h.echo hy he hp hq (Nat.lt_of_lt_of_le hl hm) hb⟩

/-- Before no tokens nothing is claimed of the other reader. -/
theorem of_passes (h : Passes taken reader) : Echoes fork 0 taken reader mate :=
  ⟨h, fun _ _ _ _ hl => absurd hl (Nat.not_lt_zero _)⟩

/-- It is enough to compare with bounds above zero: where a bound of zero is large enough, nothing
is claimed of the other reader. -/
theorem of_succ (mate : Nat → Reader α) {other : Nat} (ho : n ≤ other)
    (h : ∀ other, n ≤ other + 1 → Echoes fork n taken reader (mate (other + 1))) :
    Echoes fork n taken reader (mate other) := by
  cases other with
  | zero =>
    obtain rfl : n = 0 := by omega
    exact .of_passes (h 0 (Nat.zero_le _)).toPasses
  | succ other => exact h other ho

/-- Tokens are taken for fewer values too. -/
theorem mono (h : Echoes fork n taken reader mate) (hw : ∀ value, moved value → taken value) :
    Echoes fork n moved reader mate :=
  ⟨h.toPasses.mono hw, h.echo⟩

/-- A reader that takes a token in any case does so for certain values. -/
theorem always (h : Echoes fork n (fun _ => True) reader mate) :
    Echoes fork n taken reader mate :=
  h.mono fun _ _ => trivial

/-- Whether a token is taken may be left open. -/
theorem idle (h : Echoes fork n taken reader mate) :
    Echoes fork n (fun _ => False) reader mate :=
  h.mono fun _ hf => hf.elim

/-- What holds in any case holds if there is more than one token. -/
theorem ahead (h : Echoes fork n taken reader mate) : EchoesAhead fork n taken reader mate :=
  ⟨h.toPasses, fun hy he _ => h.echo hy he⟩

/-- What holds before the fork holds at it. -/
theorem here (h : Echoes fork n taken reader mate) (hn : 0 < n) : EchoesHere fork reader mate :=
  fun p q _ hy he hp hq =>
    @Echoes.echo _ _ _ _ _ _ h p q _ [] [] hy he hp hq hn fun _ hm => absurd hm List.not_mem_nil

/-- A value alone is read from nothing. -/
theorem pure {value : α} (h : ¬taken value) :
    Echoes fork n taken (Pure.pure value) (Pure.pure value) where
  toPasses := .pure h
  echo := by
    rintro p q _ front last ⟨⟩ _ hp hq _ _
    rw [List.append_cancel_right (hq.symm.trans hp)]
    exact yields_pure value

/-- A value alone is read from nothing. -/
theorem value (value : α) :
    Echoes fork n (fun _ => False) (Pure.pure value) (Pure.pure value) :=
  .pure not_false

/-- A halt yields nothing. -/
theorem throw (halt : Halt) : Echoes fork n taken (throw halt : Reader α) mate :=
  ⟨.throw halt, fun hy => nomatch hy⟩

/-- A statement that fails yields nothing. -/
theorem fail {issue : GrammarIssue} {token : Token} :
    Echoes fork n taken (Grammar.fail issue token : Reader α) mate :=
  .throw _

/-- Readers one after the other run in the same way; a token is taken by the one or by the other. -/
theorem chain {pair : α → β → Prop} (h : Echoes fork n taken reader mate)
    (hn : ∀ value, Echoes fork n (pair value) (next value) (follow value))
    (hj : ∀ value last, joined last → taken value ∨ pair value last) :
    Echoes fork n joined (reader >>= next) (mate >>= follow) where
  toPasses := h.toPasses.chain (fun value => (hn value).toPasses) hj
  echo := by
    intro p q last front back hy he hp hq hl hb
    obtain ⟨value, r, hr, hs⟩ := hy.of_bind
    have her := h.errors hr
    have hes := (hn value).errors hs
    obtain ⟨middle, hm, hsub⟩ := exists_middle hp hq (h.rest hr) ((hn value).rest hs)
    have hlen := hsub.length_le
    exact (h.echo hr (by omega) hp hm hl hb).bind
      ((hn value).echo hs (by omega) hm hq (by omega) fun token ht => hb token (hsub.subset ht))

/-- Readers one after the other run in the same way. -/
theorem bind (h : Echoes fork n taken reader mate)
    (hn : ∀ value, Echoes fork n joined (next value) (follow value)) :
    Echoes fork n joined (reader >>= next) (mate >>= follow) :=
  h.chain hn fun _ _ hj => .inr hj

/-- After a reader that takes a token, others run in the same way. -/
theorem andThen (h : Echoes fork n (fun _ => True) reader mate)
    (hn : ∀ value, Echoes fork n (fun _ => False) (next value) (follow value)) :
    Echoes fork n joined (reader >>= next) (mate >>= follow) :=
  h.chain hn fun _ _ _ => .inl trivial

/-- A reader that takes no token for one value only is followed by others that take one then. -/
theorem orTake {nothing : α} (h : Echoes fork n (fun value => value ≠ nothing) reader mate)
    (hn : ∀ value, Echoes fork n (fun _ => value = nothing) (next value) (follow value)) :
    Echoes fork n joined (reader >>= next) (mate >>= follow) :=
  h.chain hn fun value _ _ => (Classical.em (value = nothing)).symm

/-- A choice between readers is made in the same way. -/
theorem ite {holds : Prop} [Decidable holds] {alternative substitute : Reader α}
    (ht : holds → Echoes fork n taken reader mate)
    (hf : ¬holds → Echoes fork n taken alternative substitute) :
    Echoes fork n taken (if holds then reader else alternative)
      (if holds then mate else substitute) := by
  split
  · exact ht ‹_›
  · exact hf ‹_›

/-- After a check that fails nothing is read; otherwise others run in the same way. -/
theorem guarded {holds : Prop} [Decidable holds] {issue : GrammarIssue} {token : Token}
    {go follow : Unit → Reader β} (hn : Echoes fork n joined (go ()) (follow ())) :
    Echoes fork n joined (if holds then Grammar.fail issue token >>= go else go ())
      (if holds then Grammar.fail issue token >>= follow else follow ()) :=
  .ite (fun _ => .throw _) fun _ => hn

/-- A step that leaves tokens and errors runs in the same way if it does not depend on tokens. -/
theorem modify {change : Progress → Progress} (hr : ∀ p, (change p).rest = p.rest)
    (he : ∀ p, (change p).errors = p.errors)
    (ha : ∀ p tokens, change (Progress.ahead p tokens) = (change p).ahead tokens) :
    Echoes fork n (fun _ => False) (modify change : Reader Unit) (modify change) where
  toPasses := .modify (fun p => hr p ▸ List.suffix_rfl) he
  echo := by
    rintro p q _ front last ⟨⟩ _ hp hq _ _
    rw [List.append_cancel_right (hq.symm.trans ((hr p).trans hp)), ← ha]
    rfl

end Echoes

namespace EchoesAhead

/-- After a reader that takes a token, others run in the same way before fewer tokens. -/
theorem andThen (h : Echoes fork n (fun _ => True) reader mate)
    (hn : ∀ value, Echoes fork (n - 1) (fun _ => False) (next value) (follow value)) :
    EchoesAhead fork n joined (reader >>= next) (mate >>= follow) where
  toPasses := h.toPasses.chain (fun value => (hn value).toPasses) fun _ _ _ => .inl trivial
  echo := by
    intro p q last front back hy he hone hp hq hl hb
    obtain ⟨value, r, hr, hs⟩ := hy.of_bind
    have her := h.errors hr
    have hes := (hn value).errors hs
    have hlt := h.taken hr (by omega) trivial hone
    obtain ⟨middle, hm, hsub⟩ := exists_middle hp hq (h.rest hr) ((hn value).rest hs)
    have hless : middle.length < front.length := by
      rw [hm, hp, List.length_append, List.length_append] at hlt
      omega
    exact (h.echo hr (by omega) hp hm hl hb).bind
      ((hn value).echo hs (by omega) hm hq (by omega) fun token ht => hb token (hsub.subset ht))

/-- A choice between readers is made in the same way. -/
theorem ite {holds : Prop} [Decidable holds] {alternative substitute : Reader α}
    (ht : holds → EchoesAhead fork n taken reader mate)
    (hf : ¬holds → EchoesAhead fork n taken alternative substitute) :
    EchoesAhead fork n taken (if holds then reader else alternative)
      (if holds then mate else substitute) := by
  split
  · exact ht ‹_›
  · exact hf ‹_›

end EchoesAhead

namespace EchoesBefore

/-- What holds at the fork too holds before it. -/
theorem of_echoes (h : Echoes fork n taken reader mate) : EchoesBefore fork n taken reader mate :=
  ⟨h.toPasses, fun hy he _ => h.echo hy he⟩

/-- Readers one after the other run in the same way; a token is taken by the one or by the other. -/
theorem chain {pair : α → β → Prop} (h : EchoesBefore fork n taken reader mate)
    (hn : ∀ value, Echoes fork n (pair value) (next value) (follow value))
    (hj : ∀ value last, joined last → taken value ∨ pair value last) :
    EchoesBefore fork n joined (reader >>= next) (mate >>= follow) where
  toPasses := h.toPasses.chain (fun value => (hn value).toPasses) hj
  echo := by
    intro p q last front back hy he hf hp hq hl hb
    obtain ⟨value, r, hr, hs⟩ := hy.of_bind
    have her := h.errors hr
    have hes := (hn value).errors hs
    obtain ⟨middle, hm, hsub⟩ := exists_middle hp hq (h.rest hr) ((hn value).rest hs)
    have hlen := hsub.length_le
    exact (h.echo hr (by omega) hf hp hm hl hb).bind
      ((hn value).echo hs (by omega) hm hq (by omega) fun token ht => hb token (hsub.subset ht))

/-- Readers one after the other run in the same way. -/
theorem bind (h : EchoesBefore fork n taken reader mate)
    (hn : ∀ value, Echoes fork n joined (next value) (follow value)) :
    EchoesBefore fork n joined (reader >>= next) (mate >>= follow) :=
  h.chain hn fun _ _ hj => .inr hj

/-- A reader that takes no token for one value only is followed by others that take one then. -/
theorem orTake {nothing : α} (h : EchoesBefore fork n (fun value => value ≠ nothing) reader mate)
    (hn : ∀ value, Echoes fork n (fun _ => value = nothing) (next value) (follow value)) :
    EchoesBefore fork n joined (reader >>= next) (mate >>= follow) :=
  h.chain hn fun value _ _ => (Classical.em (value = nothing)).symm

/-- A choice between readers is made in the same way. -/
theorem ite {holds : Prop} [Decidable holds] {alternative substitute : Reader α}
    (ht : holds → EchoesBefore fork n taken reader mate)
    (hf : ¬holds → EchoesBefore fork n taken alternative substitute) :
    EchoesBefore fork n taken (if holds then reader else alternative)
      (if holds then mate else substitute) := by
  split
  · exact ht ‹_›
  · exact hf ‹_›

end EchoesBefore

namespace EchoesHere

/-- A reader that takes a token does not run at the fork without taking one. -/
theorem of_taken {head name : Token} (hs : fork.Starts head name)
    (h : Passes (fun _ => True) reader) : EchoesHere fork reader mate := by
  intro p q value hy he hp hq
  have hlt := h.taken hy he trivial (hp ▸ hs.long)
  rw [hp, hq] at hlt
  exact absurd hlt (Nat.lt_irrefl _)

/-- Of two choices neither is made for the first reader. -/
theorem neither {holds agrees : Prop} [Decidable holds] [Decidable agrees]
    {alternative substitute : Reader α} (hh : ¬holds) (ha : ¬agrees)
    (h : EchoesHere fork alternative substitute) :
    EchoesHere fork (if holds then reader else alternative)
      (if agrees then mate else substitute) := by
  rw [if_neg hh, if_neg ha]
  exact h

/-- Of two choices only the first one may be made for a reader, which then takes a token. -/
theorem ite {holds agrees : Prop} [Decidable holds] [Decidable agrees]
    {alternative substitute : Reader α}
    (ht : holds → Passes (fun _ => True) reader) (hf : ¬holds → ¬agrees)
    (h : EchoesHere fork alternative substitute) {head name : Token}
    (hs : fork.Starts head name) :
    EchoesHere fork (if holds then reader else alternative)
      (if agrees then mate else substitute) := by
  by_cases hc : holds
  · rw [if_pos hc]
    exact EchoesHere.of_taken hs (ht hc)
  · exact EchoesHere.neither hc (hf hc) h

end EchoesHere

/-! ## The next token -/

/-- Looking at the next token takes nothing. -/
theorem run_current_bind {token : Token} {tokens : List Token} {next : Token → Reader β}
    (hr : p.rest = token :: tokens) :
    (current >>= next).run.run p = (next token).run.run p := by
  rw [run_bind, run_current_of_cons hr]

/-- Without tokens nothing is read. -/
theorem run_current_bind_nil {next : Token → Reader β} (hr : p.rest = []) :
    (current >>= next).run.run p = (.error .missing, p) := by
  rw [run_bind, run_current_of_nil hr]

/-- Taking the next token leaves those after it. -/
theorem run_advance_bind {token : Token} {tokens : List Token} {next : Token → Reader β}
    (hr : p.rest = token :: tokens) :
    (advance >>= next).run.run p = (next token).run.run (p.ahead (dropToken p.rest)) := by
  unfold advance
  rw [run_bind, run_current_bind hr]
  rfl

/-- Without tokens none is taken. -/
theorem run_advance_bind_nil {next : Token → Reader β} (hr : p.rest = []) :
    (advance >>= next).run.run p = (.error .missing, p) := by
  unfold advance
  rw [run_bind, run_current_bind_nil hr]

/-- What is taken after looking at the next token is taken. -/
theorem Passes.current {next : Token → Reader β} (h : ∀ token, Passes joined (next token)) :
    Passes joined (current >>= next) where
  rest := by
    intro p q result hr
    cases hp : p.rest with
    | nil =>
      rw [run_current_bind_nil hp] at hr
      cases hr
      exact hp ▸ List.suffix_rfl
    | cons token tokens =>
      rw [run_current_bind hp] at hr
      exact hp ▸ (h token).rest hr
  errors := by
    intro p q result hr
    cases hp : p.rest with
    | nil =>
      rw [run_current_bind_nil hp] at hr
      cases hr
      exact Nat.le_refl _
    | cons token tokens =>
      rw [run_current_bind hp] at hr
      exact (h token).errors hr
  taken := by
    intro p q value hy he ht hl
    unfold Yields at hy
    cases hp : p.rest with
    | nil =>
      rw [hp] at hl
      exact absurd hl (Nat.not_lt_zero _)
    | cons token tokens =>
      rw [run_current_bind hp] at hy
      exact hp ▸ (h token).taken hy he ht hl

/-- After taking the next token a token is taken. -/
theorem Passes.advance {next : Token → Reader β}
    (h : ∀ token, Passes (fun _ => False) (next token)) : Passes joined (advance >>= next) where
  rest := by
    intro p q result hr
    cases hp : p.rest with
    | nil =>
      rw [run_advance_bind_nil hp] at hr
      cases hr
      exact hp ▸ List.suffix_rfl
    | cons token tokens =>
      rw [run_advance_bind hp] at hr
      exact hp ▸ ((h token).rest hr).trans (dropToken_suffix _)
  errors := by
    intro p q result hr
    cases hp : p.rest with
    | nil =>
      rw [run_advance_bind_nil hp] at hr
      cases hr
      exact Nat.le_refl _
    | cons token tokens =>
      rw [run_advance_bind hp] at hr
      exact (h token).errors (p := p.ahead (dropToken p.rest)) hr
  taken := by
    intro p q value hy he ht hl
    unfold Yields at hy
    rcases hp : p.rest with _ | ⟨token, _ | ⟨next, rest⟩⟩
    · rw [hp] at hl
      exact absurd hl (Nat.not_lt_zero _)
    · rw [hp] at hl
      exact absurd hl (Nat.lt_irrefl _)
    · rw [run_advance_bind hp] at hy
      have hle := ((h token).rest hy).length_le
      rw [hp] at hle
      exact Nat.lt_succ_of_le hle

/-- Looking at the next token is the same before a fork. At the fork the next tokens are the first
ones of the tails. -/
theorem Echoes.current_ahead {next follow : Token → Reader β}
    (h : ∀ token m, m ≤ n → fork.Above m token.line →
      (token.kind = .endOfInput → Echoes fork m joined (next token) (follow token)) ∧
      (token.kind ≠ .endOfInput → EchoesAhead fork m joined (next token) (follow token)))
    (hf : ∀ head name, 0 < n → fork.Starts head name →
      EchoesHere fork (next head) (follow name)) :
    Echoes fork n joined (Grammar.current >>= next) (Grammar.current >>= follow) where
  toPasses := .current fun token => by
    have hz := h token 0 (Nat.zero_le _) Fork.above_zero
    by_cases hk : token.kind = .endOfInput
    · exact (hz.1 hk).toPasses
    · exact (hz.2 hk).toPasses
  echo := by
    intro p q value front last hy he hp hq hl hb
    unfold Yields at hy ⊢
    cases front with
    | cons token front =>
      have ha : fork.Above n token.line := fun _ => hb token List.mem_cons_self
      have hlong : 1 < p.rest.length := by
        have := List.length_pos_iff.mpr fork.tokens_ne_nil
        rw [hp, List.cons_append, List.length_cons, List.length_append]
        omega
      have hr : (p.ahead (token :: front ++ fork.others)).rest =
          token :: (front ++ fork.others) := rfl
      rw [run_current_bind hr]
      rw [run_current_bind hp] at hy
      by_cases hk : token.kind = .endOfInput
      · exact ((h token n (Nat.le_refl _) ha).1 hk).echo hy he hp hq hl hb
      · exact ((h token n (Nat.le_refl _) ha).2 hk).echo hy he hlong hp hq hl hb
    | nil =>
      have hz : ∃ token tokens, fork.tokens = token :: tokens :=
        List.exists_cons_of_ne_nil fork.tokens_ne_nil
      obtain ⟨token, tokens, ht⟩ := hz
      rw [run_current_bind (hp.trans ht)] at hy
      rcases fork with ⟨line, ones, others, parts⟩
      cases parts with
      | finish hk hline =>
        cases ht
        have hr : (p.ahead [token]).rest = [token] := rfl
        rw [List.nil_append, run_current_bind hr]
        exact ((h token n (Nat.le_refl _) fun _ => hline).1 hk).echo hy he hp hq hl hb
      | @below _ second name sign rest more heads =>
        cases ht
        have hlast : last = [] := by
          have hz := h token 0 (Nat.zero_le _) Fork.above_zero
          have hle := ((hz.2 heads.end_ne).rest hy).length_le
          rw [hp, hq, List.nil_append, List.length_append] at hle
          exact List.eq_nil_of_length_eq_zero (by omega)
        subst hlast
        have hr : (p.ahead (name :: sign :: more)).rest = name :: sign :: more := rfl
        rw [List.nil_append, run_current_bind hr]
        exact hf token name hl ⟨heads, Nat.succ_lt_succ (Nat.succ_pos _), rfl⟩ hy he hp hq

/-- Looking at the next token is the same before a fork. At the fork the next tokens are the first
ones of the tails. -/
theorem Echoes.current {next follow : Token → Reader β}
    (h : ∀ token m, m ≤ n → fork.Above m token.line →
      Echoes fork m joined (next token) (follow token))
    (hf : ∀ head name, 0 < n → fork.Starts head name →
      EchoesHere fork (next head) (follow name)) :
    Echoes fork n joined (Grammar.current >>= next) (Grammar.current >>= follow) :=
  .current_ahead (fun token m hm ha =>
    ⟨fun _ => h token m hm ha, fun _ => (h token m hm ha).ahead⟩) hf

/-- Looking at the next token is the same if a token is taken afterwards. -/
theorem Echoes.look {next follow : Token → Reader β}
    (h : ∀ token m, m ≤ n → fork.Above m token.line →
      Echoes fork m (fun _ => True) (next token) (follow token)) :
    Echoes fork n joined (Grammar.current >>= next) (Grammar.current >>= follow) :=
  (Echoes.current h fun head _ _ hs =>
    EchoesHere.of_taken hs (h head 0 (Nat.zero_le _) Fork.above_zero).toPasses).always

/-- Before a fork the next token is one before it, or the end of the input. -/
theorem EchoesBefore.current {next follow : Token → Reader β}
    (h : ∀ token m, m ≤ n → fork.Above m token.line →
      EchoesBefore fork m joined (next token) (follow token)) :
    EchoesBefore fork n joined (Grammar.current >>= next) (Grammar.current >>= follow) where
  toPasses := .current fun token => (h token 0 (Nat.zero_le _) Fork.above_zero).toPasses
  echo := by
    intro p q value front last hy he hf hp hq hl hb
    unfold Yields at hy ⊢
    cases front with
    | cons token front =>
      have hr : (p.ahead (token :: front ++ fork.others)).rest =
          token :: (front ++ fork.others) := rfl
      rw [run_current_bind hr]
      rw [run_current_bind hp] at hy
      have hnext := h token n (Nat.le_refl _) fun _ => hb token List.mem_cons_self
      exact hnext.echo hy he hf hp hq hl hb
    | nil =>
      rcases fork with ⟨line, ones, others, parts⟩
      cases parts with
      | @finish token hk hline =>
        have hr : (p.ahead [token]).rest = [token] := rfl
        rw [List.nil_append, run_current_bind hr]
        rw [run_current_bind hp] at hy
        exact (h token n (Nat.le_refl _) fun _ => hline).echo hy he hf hp hq hl hb
      | below => exact absurd (hf rfl) (by simp)

/-- Looking at the next token is the same if a token is taken afterwards; so nothing has to be
claimed of what starts at the fork. -/
theorem Echoes.lookBefore {next follow : Token → Reader β}
    (h : ∀ token m, m ≤ n → fork.Above m token.line →
      EchoesBefore fork m (fun _ => True) (next token) (follow token)) :
    Echoes fork n joined (Grammar.current >>= next) (Grammar.current >>= follow) where
  toPasses := Passes.mono (.current fun token =>
    (h token 0 (Nat.zero_le _) Fork.above_zero).toPasses) fun _ _ => trivial
  echo := by
    intro p q value front last hy he hp hq hl hb
    have hbefore := EchoesBefore.current h
    refine hbefore.echo hy he (fun hf => ?_) hp hq hl hb
    -- A token of a longer tail is taken, so the tail is not left.
    have hpos := List.length_pos_iff.mpr fork.tokens_ne_nil
    rcases Nat.lt_or_ge 1 fork.tokens.length with hlong | hone
    · rw [hf, List.nil_append] at hp
      have hlt := hbefore.taken hy he trivial (hp ▸ hlong)
      rw [hq, hp, List.length_append] at hlt
      omega
    · omega

/-- Taking the next token is the same before a fork. -/
theorem Echoes.advance {next follow : Token → Reader β}
    (h : ∀ token m, m ≤ n → fork.Above m token.line →
      Echoes fork m (fun _ => False) (next token) (follow token)) :
    Echoes fork n joined (Grammar.advance >>= next) (Grammar.advance >>= follow) where
  toPasses := .advance fun token => (h token 0 (Nat.zero_le _) Fork.above_zero).toPasses
  echo := by
    intro p q value front last hy he hp hq hl hb
    unfold Yields at hy ⊢
    have hdrop : ∀ (token : Token) (front tail : List Token), tail ≠ [] →
        dropToken (token :: (front ++ tail)) = front ++ tail := by
      intro token front tail ht
      obtain ⟨next, rest, hn⟩ :=
        List.exists_cons_of_ne_nil (List.append_ne_nil_of_right_ne_nil front ht)
      rw [hn]
      rfl
    cases front with
    | cons token front =>
      have ha : fork.Above n token.line := fun _ => hb token List.mem_cons_self
      have hn : (p.ahead (token :: front ++ fork.others)).rest =
          token :: (front ++ fork.others) := rfl
      rw [run_advance_bind hn]
      rw [run_advance_bind hp] at hy
      have hleft : (p.ahead (dropToken p.rest)).rest = front ++ fork.tokens := by
        rw [hp]
        exact hdrop token front _ fork.tokens_ne_nil
      have hr := (h token n (Nat.le_refl _) ha).echo hy he hleft hq
        (Nat.lt_of_succ_lt hl) fun other ho => hb other (List.mem_cons_of_mem _ ho)
      have hright : dropToken (token :: front ++ fork.others) = front ++ fork.others :=
        hdrop token front _ fork.others_ne_nil
      unfold Yields at hr
      dsimp only [Progress.ahead] at hr ⊢
      rw [hright]
      exact hr
    | nil =>
      rcases fork with ⟨line, ones, others, parts⟩
      cases parts with
      | @finish end' hk hline =>
        have hr : p.rest = [end'] := hp
        have hn : (p.ahead [end']).rest = [end'] := rfl
        rw [List.nil_append, run_advance_bind hn]
        rw [run_advance_bind hr] at hy
        have hleft : (p.ahead (dropToken p.rest)).rest = [] ++ [end'] := by
          rw [hr]
          rfl
        exact (h end' n (Nat.le_refl _) fun _ => hline).echo hy he hleft hq hl hb
      | @below head second name sign rest more heads =>
        -- The head of the tail is taken, so the tail is not left.
        have hr : p.rest = head :: second :: rest := hp
        rw [run_advance_bind hr] at hy
        have hle := ((h head 0 (Nat.zero_le _) Fork.above_zero).rest hy).length_le
        rw [hq, hr, List.length_append] at hle
        simp only [Progress.ahead, dropToken, List.length_cons] at hle
        omega

end Blueprint.Grammar
