import Blueprint.Proofs.Recovery.Flawless
import Blueprint.Proofs.Recovery.Malformed

/-!
# A malformed statement on the way

A run without an error that comes to a boundary of statements is compared with a run in which a
malformed statement stands at the boundary. Before the boundary the two are the same. At the
boundary the malformed statement fails and is passed over. Behind it the same tokens are left, and
the two are the same again, but for the one error.
-/

namespace Blueprint.Grammar

variable {α β : Type} {p q r : Progress} {finish name : Token} {line block : List Token}
  {fork : Fork} {added : Diagnostic} {n : Nat} {value : α} {reader mate : Reader α}
  {next follow : α → Reader β} {taken : α → Prop} {joined : β → Prop}

/-- The front of tokens that are more than a tail starts with the first of them. -/
theorem exists_front {token : Token} {tokens front tail : List Token}
    (hr : p.rest = token :: tokens) (hp : p.rest = front ++ tail)
    (hl : tail.length < p.rest.length) : ∃ more, front = token :: more := by
  cases front with
  | nil =>
    rw [hp] at hl
    exact absurd hl (Nat.lt_irrefl _)
  | cons first more =>
    rw [hr] at hp
    exact ⟨more, by rw [(List.cons.inj hp).1]⟩

/-- A progress between tokens and a tail of them has some of the tokens before the tail left. -/
theorem exists_back {front tail : List Token} (hp : p.rest = front ++ tail)
    (hq : q.rest <:+ p.rest) (ht : tail <:+ q.rest) :
    ∃ back, q.rest = back ++ tail ∧ back <:+ front := by
  obtain ⟨back, hback⟩ := ht
  obtain ⟨passed, hpassed⟩ := hq
  refine ⟨back, hback.symm, passed, List.append_cancel_right (?_ : _ ++ tail = front ++ tail)⟩
  rw [← hp, ← hpassed, ← hback, List.append_assoc]

/-- If a reader runs without an error through tokens before a fork and on through the one tail, then
another one runs through them and through the other tail to the same value, with one more error. -/
def Isolates (fork : Fork) (finish : Token) (added : Diagnostic) (p : Progress)
    (reader mate : Reader α) : Prop :=
  ∀ ⦃value q front⦄, Flawless finish p reader value q → p.rest = front ++ fork.tokens →
    (∀ token ∈ front, token.line ≤ fork.line) → ((p.errors + 1 : Nat) : Int) < p.limit →
    ∃ q', Yields (p.ahead (front ++ fork.others)) mate value q' ∧ Adds added q q'

namespace Isolates

/-- Readers that go on as others do where a certain token is next are compared as those are. -/
theorem of_head {other same : Reader α} {token : Token} {tokens : List Token}
    (h : Isolates fork finish added p reader mate) (hr : p.rest = token :: tokens)
    (hlt : ∀ value q, Flawless finish p reader value q → fork.tokens.length < p.rest.length)
    (ho : other.run.run p = reader.run.run p)
    (hs : ∀ tokens, same.run.run (p.ahead (token :: tokens)) =
      mate.run.run (p.ahead (token :: tokens))) :
    Isolates fork finish added p other same := by
  intro value q front hy hp hb hl
  have hyields : Flawless finish p reader value q := ⟨ho.symm.trans hy.yields, hy.errors, hy.ends⟩
  obtain ⟨q', hy', ha⟩ := h hyields hp hb hl
  obtain ⟨more, rfl⟩ := exists_front hr hp (hlt value q hyields)
  exact ⟨q', (hs _).trans hy', ha⟩

/-- What follows after the malformed statement is the same, but for the error. -/
theorem bind (h : Isolates fork finish added p reader mate) (hp : Passes taken reader)
    (hnp : ∀ value, Passes joined (next value)) (hl : ∀ value, Limited (follow value))
    (hn : ∀ {value r last q}, Flawless finish p reader value r →
      Flawless finish r (next value) last q → Flawless finish r (follow value) last q) :
    Isolates fork finish added p (reader >>= next) (mate >>= follow) := by
  intro last q front hy hrest hb hlimit
  obtain ⟨value, r, hr, hs⟩ := hy.of_bind hp hnp
  obtain ⟨r', hr', har⟩ := h hr hrest hb hlimit
  obtain ⟨q', hq', haq⟩ := (hn hr hs).resume (hl value) har
  exact ⟨q', hr'.bind hq', haq⟩

/-- What comes before the malformed statement is the same. -/
theorem after (h : Echoes fork n taken reader mate) (hlimited : Limited reader)
    (hn : p.rest.length ≤ n) (hnp : ∀ value, Passes joined (next value))
    (hi : ∀ value r, Flawless finish p reader value r → fork.tokens <:+ r.rest ∧
      Isolates fork finish added r (next value) (follow value)) :
    Isolates fork finish added p (reader >>= next) (mate >>= follow) := by
  intro last q front hy hrest hb hlimit
  obtain ⟨value, r, hr, hs⟩ := hy.of_bind h.toPasses hnp
  obtain ⟨htail, hnext⟩ := hi value r hr
  obtain ⟨back, hback, hsub⟩ := exists_back hrest (h.rest hr.yields) htail
  have hlength : front.length < n := by
    have hpos := List.length_pos_iff.mpr fork.tokens_ne_nil
    rw [hrest, List.length_append] at hn
    omega
  have hr' := h.echo hr.yields hr.errors hrest hback hlength hb
  have hlimit' : ((r.errors + 1 : Nat) : Int) < r.limit := by
    rw [hr.errors, hr.limit hlimited]
    exact hlimit
  obtain ⟨q', hq', ha⟩ := hnext hs hback (fun token hm => hb token (hsub.subset hm)) hlimit'
  exact ⟨q', hr'.bind hq', ha⟩

/-- A statement that may be given up isolates what it does without that. -/
theorem attempt {after : GrammarError → Unit → Reader α} {mend : GrammarError → Reader α}
    (h : Isolates fork finish added p reader mate) (hp : Passes taken reader)
    (ha : ∀ error, Passes (fun _ => False) (after error ())) :
    Isolates fork finish added p
      (Grammar.attempt reader fun error => report error >>= after error)
      (Grammar.attempt mate mend) := by
  intro value q front hy hrest hb hlimit
  obtain ⟨q', hy', had⟩ := h (hy.of_attempt hp ha) hrest hb hlimit
  exact ⟨q', hy'.attempt, had⟩

end Isolates

/-! ## Statements of a block -/

/-- Without an error a statement of a block does not fail. -/
theorem Flawless.of_readStatement {leave : Token → α → α} {statement : α → Reader α}
    {token : Token} {tokens : List Token} {last : α}
    (h : Flawless finish p (readStatementLeaving leave statement value) last q)
    (hp : Passes taken (statement value)) (hr : p.rest = token :: tokens) :
    Flawless finish p (statement value) last q := by
  have hrun : (readStatementLeaving leave statement value).run.run p =
      (attempt (statement value) fun error => report error >>= fun _ =>
        recoverFrom error.token >>= fun _ => remaining >>= fun after => current >>= fun next =>
          if after.length == p.rest.length && next.kind != .sign .rightBrace &&
              next.kind != .endOfInput then
            advance >>= fun _ => pure (leave token value)
          else pure (leave token value)).run.run p := by
    unfold readStatementLeaving
    rw [run_current_bind hr]
    rfl
  have hy : Flawless finish p _ last q := ⟨hrun.symm.trans h.yields, h.errors, h.ends⟩
  refine hy.of_attempt hp fun error => (passes_recoverFrom error.token).bind fun _ =>
    .remaining fun after => .current fun next => ?_
  split
  · exact .advance fun _ => .pure not_false
  · exact .pure not_false

/-- The fork of an empty source. -/
def Fork.empty : Fork := ⟨1, [.finish .start], [.finish .start], .finish rfl (by decide)⟩

/-- A reader that runs in the same way as another one takes tokens from the front. -/
theorem Passes.of_echoes (h : Echoes .empty 0 taken reader mate) : Passes taken reader :=
  h.toPasses

/-- The readers of the statements of a block take tokens, are limited by errors, and run in the same
way before every fork. -/
structure Mates (n : Nat) (statement other : α → Reader α) : Prop where
  /-- Both run in the same way before every fork. -/
  echoes : ∀ fork value, Echoes fork n (fun _ => True) (statement value) (other value)
  /-- The one is limited. -/
  limited : ∀ value, Limited (statement value)
  /-- The other one is limited. -/
  limited_other : ∀ value, Limited (other value)

/-! ## Loops -/

/-- The loop over the statements of a block. -/
abbrev loop (statement : α → Reader α) (count : Nat) (value : α) : Reader α :=
  readBlockWithin (fun _ value => value) statement count value

/-- Where a statement is next, the loop over the statements of a block reads it and goes on. -/
theorem run_loop {statement : α → Reader α} {token : Token} {tokens : List Token}
    (hr : p.rest = token :: tokens) (he : token.kind ≠ .endOfInput)
    (ho : token.kind ≠ .sign .rightBrace) (count : Nat) (value : α) :
    (loop statement (count + 1) value).run.run p =
      (readStatementLeaving (fun _ value => value) statement value >>=
        loop statement count).run.run p := by
  unfold loop
  rw [readBlockWithin, run_current_bind hr, if_neg (by simpa using he), if_neg (by simpa using ho)]

namespace Mates

variable {statement other : α → Reader α}

/-- Statements are read in the same way. -/
theorem readStatement (h : Mates n statement other) (fork : Fork) (value : α) :
    Echoes fork n (fun _ => True) (readStatementLeaving (fun _ value => value) statement value)
      (readStatementLeaving (fun _ value => value) other value) :=
  echoes_readStatement (h.echoes fork) value

/-- Loops run in the same way if their bounds are large enough. -/
theorem loop (h : Mates n statement other) (fork : Fork) {k count bound : Nat} (hk : k ≤ n)
    (hc : k ≤ count) (hb : k ≤ bound) (value : α) :
    Echoes fork k (fun _ => False) (loop statement count value) (loop other bound value) :=
  echoes_readBlockWithin (fun value => (h.echoes fork value).of_le hk) hc hb value

/-- A loop takes tokens from the front. -/
theorem passes_loop (h : Mates n statement other) (count : Nat) (value : α) :
    Passes (fun _ => False) (Grammar.loop statement count value) :=
  .of_echoes (h.loop .empty (Nat.zero_le _) (Nat.zero_le _) (Nat.zero_le count) value)

end Mates

/-- Statements that are run take tokens from the front. -/
theorem RunsThrough.suffix {statement : α → Reader α} {last : α}
    (h : RunsThrough statement value p last q)
    (hs : ∀ {p q value next}, Yields p (statement value) next q → q.rest <:+ p.rest) :
    q.rest <:+ p.rest := by
  induction h with
  | done => exact List.suffix_rfl
  | step _ _ _ _ here _ ih => exact ih.trans (hs here)

/-- Of two tails the other one starts with a malformed statement and goes on like the one, which
starts below the first line of that statement and not with a dot. -/
structure Fork.Inserts (fork : Fork) (name : Token) (line block : List Token) : Prop where
  /-- The statement is malformed. -/
  malformed : Malformed name line block
  /-- It stands before the same tokens. -/
  others_eq : fork.others = name :: (line ++ block ++ fork.tokens)
  /-- These start below its first line, and not with a dot. -/
  below : ∀ token ∈ fork.tokens.head?, name.line < token.line ∧ token.kind ≠ .sign .dot

/-- The other tail is longer. -/
theorem Fork.Inserts.length_lt (h : fork.Inserts name line block) :
    fork.tokens.length < fork.others.length := by
  rw [h.others_eq, List.length_cons, List.length_append]
  omega

/-- What starts at the fork is no directive. -/
theorem Fork.Inserts.isDirective (h : fork.Inserts name line block) {head first : Token}
    (hs : fork.Starts head first) : isDirective first = false := by
  have hfirst := hs.others
  rw [h.others_eq, List.head?_cons] at hfirst
  exact Option.some.inj hfirst ▸ h.malformed.isDirective

/-- The loop over the statements of a block isolates the malformed statement, if its bounds are
large enough. -/
def LoopIsolates (fork : Fork) (finish : Token) (added : Diagnostic) (p : Progress)
    (statement other : α → Reader α) (value : α) : Prop :=
  ∀ count bound, p.rest.length ≤ count →
    p.rest.length + fork.others.length ≤ bound + fork.tokens.length →
    Isolates fork finish added p (loop statement count value) (loop other bound value)

namespace LoopIsolates

variable {statement other : α → Reader α} {token : Token} {tokens : List Token}

/-- At the boundary the malformed statement fails and is passed over, and the loop goes on. -/
theorem here (hi : fork.Inserts name line block) (hf : finish.kind = .endOfInput)
    (hm : Mates n statement other) (hn : p.rest.length ≤ n) (hp : p.rest = fork.tokens)
    {issue : GrammarIssue}
    (hfail : (other value).run.run (p.ahead fork.others) =
      (.error (.failed ⟨issue, name⟩), p.ahead fork.others)) :
    LoopIsolates fork finish (.of (.grammar issue) (some name.position)) p statement other
      value := by
  intro count bound hc hb last q front hy hfront _ hlimit
  obtain rfl : front = [] := by
    rw [hp] at hfront
    exact List.append_left_eq_self.mp hfront.symm
  have hlt := hi.length_lt
  have hothers : (p.ahead fork.others).rest = name :: (line ++ block ++ fork.tokens) := hi.others_eq
  cases bound with
  | zero => omega
  | succ bound =>
    have hstatement := yields_readStatement_failed hothers hfail hlimit
      (hi.malformed.afterStatement fork.tokens_ne_nil fun token ht => (hi.below token ht).1)
      fork.tokens_ne_nil (by rw [List.length_append]; exact Nat.le_add_left _ _)
    have hsame : Flawless finish p (loop other bound value) last q :=
      hy.same hf fun fork => hm.loop fork hn hc (by omega) value
    obtain ⟨q', hq', ha⟩ := hsame.resume (limited_readBlockWithin hm.limited_other bound value)
      (adds_reporting ⟨issue, name⟩ p)
    refine ⟨q', ?_, ha⟩
    have hkind := hi.malformed.identifier
    have hafter : ((p.ahead fork.others).reporting ⟨issue, name⟩).ahead fork.tokens =
        p.reporting ⟨issue, name⟩ := by
      rw [← hp]
      rfl
    rw [hafter] at hstatement
    unfold Yields
    rw [List.nil_append, run_loop hothers (by simp [hkind]) (by simp [hkind])]
    exact hstatement.bind hq'

/-- Where a statement is next, the loop reads it in front of both tails, and goes on. -/
theorem step (hm : Mates n statement other) (hr : p.rest = token :: tokens)
    (he : token.kind ≠ .endOfInput) (ho : token.kind ≠ .sign .rightBrace)
    (hlt : ∀ next r, Flawless finish p (statement value) next r →
      fork.tokens.length < p.rest.length)
    (h : ∀ count bound, p.rest.length ≤ count + 1 →
      p.rest.length + fork.others.length ≤ bound + 1 + fork.tokens.length →
      Isolates fork finish added p
        (readStatementLeaving (fun _ value => value) statement value >>= loop statement count)
        (readStatementLeaving (fun _ value => value) other value >>= loop other bound))
    (hlonger : fork.tokens.length < fork.others.length) :
    LoopIsolates fork finish added p statement other value := by
  intro count bound hc hb
  have hpos : 0 < p.rest.length := by
    rw [hr]
    exact Nat.zero_lt_succ _
  obtain ⟨count, rfl⟩ : ∃ more, count = more + 1 := ⟨count - 1, by omega⟩
  obtain ⟨bound, rfl⟩ : ∃ more, bound = more + 1 := ⟨bound - 1, by omega⟩
  refine (h count bound hc hb).of_head hr (fun last q hy => ?_) (run_loop hr he ho count value)
    fun more => run_loop rfl he ho bound value
  obtain ⟨next, r, hs, _⟩ := hy.of_bind (hm.readStatement fork value).toPasses
    fun value => hm.passes_loop count value
  exact hlt next r (hs.of_readStatement (hm.echoes fork value).toPasses hr)

/-- In a statement that isolates the malformed statement, the loop does so. -/
theorem inside (hf : finish.kind = .endOfInput) (hm : Mates n statement other)
    (hn : p.rest.length ≤ n) (hr : p.rest = token :: tokens) (he : token.kind ≠ .endOfInput)
    (ho : token.kind ≠ .sign .rightBrace)
    (hlt : ∀ next r, Flawless finish p (statement value) next r →
      fork.tokens.length < p.rest.length)
    (hlonger : fork.tokens.length < fork.others.length)
    (h : Isolates fork finish added p (statement value) (other value)) :
    LoopIsolates fork finish added p statement other value := by
  have hpasses := (hm.readStatement fork value).toPasses
  have hstatement : Isolates fork finish added p
      (readStatementLeaving (fun _ value => value) statement value)
      (readStatementLeaving (fun _ value => value) other value) := by
    intro last q front hy hp hb hl
    have hy' := hy.of_readStatement (hm.echoes fork value).toPasses hr
    obtain ⟨q', hq', ha⟩ := h hy' hp hb hl
    obtain ⟨more, rfl⟩ := exists_front hr hp (hlt last q hy')
    have hrest : (p.ahead (token :: more ++ fork.others)).rest = token :: (more ++ fork.others) :=
      rfl
    exact ⟨q', hq'.readStatement hrest, ha⟩
  have hpos := List.length_pos_iff.mpr fork.tokens_ne_nil
  refine step hm hr he ho hlt (fun count bound hc hb => ?_) hlonger
  refine hstatement.bind hpasses (fun value => hm.passes_loop count value)
    (fun value => limited_readBlockWithin hm.limited_other bound value) fun hy hs => ?_
  have hone := hlt _ _ (hy.of_readStatement (hm.echoes fork value).toPasses hr)
  have htaken := hpasses.taken hy.yields hy.errors trivial (by omega)
  exact hs.same hf fun fork => hm.loop fork (by omega) (by omega) (by omega) _

/-- Before the boundary the loop reads the same statements. -/
theorem through {exact : α → Reader α} {last : α} (h : RunsThrough exact value p last q)
    (hf : finish.kind = .endOfInput) (hm : Mates n statement other)
    (hx : ∀ fork value, Echoes fork n (fun _ => True) (statement value) (exact value))
    (hs : ∀ {p q value next}, Yields p (exact value) next q → q.rest <:+ p.rest)
    (hlonger : fork.tokens.length < fork.others.length) (hq : fork.tokens <:+ q.rest)
    (hn : p.rest.length ≤ n) (hi : LoopIsolates fork finish added q statement other last) :
    LoopIsolates fork finish added p statement other value := by
  induction h with
  | done => exact hi
  | @step value next last p q r token tokens start open_ne end_ne taken here more ih =>
    have hloop := ih hq (by omega) hi
    have htail : fork.tokens <:+ q.rest := hq.trans (more.suffix hs)
    have hlt := htail.length_le
    refine step hm start end_ne open_ne (fun _ _ _ => by omega) (fun count bound hc hb => ?_)
      hlonger
    refine .after (hm.readStatement fork value) (limited_readStatement hm.limited value) hn
      (fun value => hm.passes_loop count value) fun result s hy => ?_
    have hexact := (hy.of_readStatement (hm.echoes fork value).toPasses start).same hf
      fun fork => (hx fork value).of_le hn
    obtain ⟨rfl, rfl⟩ := here.unique hexact.yields
    exact ⟨htail, hloop count bound (by omega) (by omega)⟩

/-- A block isolates the malformed statement if its loop does. -/
theorem readBlockKeeping (h : LoopIsolates fork finish added p statement other value) :
    Isolates fork finish added p (readBlockKeeping statement value)
      (readBlockKeeping other value) := by
  intro last q front hy hp hb hl
  have hbound : p.rest.length + fork.others.length ≤
      (front ++ fork.others).length + fork.tokens.length := by
    rw [hp, List.length_append, List.length_append]
    omega
  have hloop : Flawless finish p (loop statement p.rest.length value) last q :=
    ⟨hy.yields, hy.errors, hy.ends⟩
  exact h p.rest.length (front ++ fork.others).length (Nat.le_refl _) hbound hloop hp hb hl

end LoopIsolates

end Blueprint.Grammar
