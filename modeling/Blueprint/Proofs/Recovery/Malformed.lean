import Blueprint.Proofs.Echo.Body
import Blueprint.Proofs.Grammar.Nesting

/-!
# Malformed statements

A word that nothing is assigned to, that starts no relationship and declares no element is no
statement of a body, whatever stands behind it on its line. It fails at its first token. What is
passed over then is the rest of its line and a block that opens on it, and nothing else.
-/

namespace Blueprint.Grammar

open Blueprint.Declared

variable {α : Type} {p q : Progress} {name : Token} {line block back : List Token}

/-- A malformed statement of a body: a word that starts no directive, further tokens on its line,
which are no braces and of which the first does not let the word be assigned to or start a
relationship, and perhaps a block that opens on the line. -/
structure Malformed (name : Token) (line block : List Token) : Prop where
  /-- The statement starts with a word. -/
  identifier : name.kind = .identifier
  /-- The word starts no directive. -/
  plain : name.lexeme.toList.head? ≠ some '!'
  /-- The tokens behind the word stand on its line and are no braces. -/
  sameLine : ∀ token ∈ line, token.line = name.line ∧ token.kind ≠ .sign .leftBrace ∧
    token.kind ≠ .sign .rightBrace
  /-- The first of them is no equals sign, no arrow and no dot. -/
  first : ∀ token ∈ line.head?, token.kind ≠ .sign .equals ∧ token.kind ≠ .sign .arrow ∧
    token.kind ≠ .sign .dot
  /-- There is no block, or one that opens on the line of the word and is balanced inside. -/
  braced : block = [] ∨ ∃ opening inner closing, block = opening :: (inner ++ [closing]) ∧
    opening.kind = .sign .leftBrace ∧ opening.line = name.line ∧ Balanced inner ∧
    closing.kind = .sign .rightBrace

/-! ## Passing over a statement -/

/-- Tokens on a line are passed over. -/
theorem afterStatement_onLine {number : Int} {tokens rest : List Token}
    (h : ∀ token ∈ tokens, token.line = number ∧ token.kind ≠ .sign .leftBrace ∧
      token.kind ≠ .sign .rightBrace) (hr : rest ≠ []) :
    afterStatement number 0 (tokens ++ rest) = afterStatement number 0 rest := by
  induction tokens with
  | nil => rfl
  | cons token tokens ih =>
    obtain ⟨hl, hn, hc⟩ := h token List.mem_cons_self
    have hmore := ih fun other hm => h other (List.mem_cons_of_mem _ hm)
    cases hs : tokens ++ rest with
    | nil => exact absurd (List.append_eq_nil_iff.mp hs).2 hr
    | cons next more =>
      rw [List.cons_append, hs, afterStatement, ← hs, hmore]
      simp [hl, hn, hc]

/-- Inside a block, tokens that close no block they have not opened are passed over. -/
theorem afterStatement_inside {number : Int} {depth : Nat} {tokens rest : List Token}
    (h : ∀ front, front <+: tokens → closings front < depth + openings front) (hr : rest ≠ []) :
    afterStatement number depth (tokens ++ rest) =
      afterStatement number (depth + openings tokens - closings tokens) rest := by
  induction tokens generalizing depth with
  | nil => simp [openings, closings]
  | cons token tokens ih =>
    have hdepth := h [] List.nil_prefix
    have hone := h [token] (List.prefix_append [token] tokens)
    have hprefixes : ∀ front, front <+: tokens →
        closings (token :: front) < depth + openings (token :: front) :=
      fun front hf => h _ (List.prefix_cons_inj token |>.mpr hf)
    simp only [openings_cons, closings_cons] at hone hprefixes
    rw [openings_cons, closings_cons]
    cases hs : tokens ++ rest with
    | nil => exact absurd (List.append_eq_nil_iff.mp hs).2 hr
    | cons next more =>
      rw [List.cons_append, hs, afterStatement, ← hs]
      have hz : (depth == 0) = false := by
        simp [closings, openings] at hdepth
        exact beq_eq_false_iff_ne.mpr (by omega)
      rw [hz, Bool.false_and, if_neg Bool.false_ne_true]
      by_cases ho : token.kind = .sign .leftBrace
      · have hc : token.kind ≠ .sign .rightBrace := by simp [ho]
        simp only [if_pos ho, if_neg hc] at hprefixes ⊢
        rw [if_pos (by rw [ho]; rfl), ih fun front hf => by have := hprefixes front hf; omega]
        congr 1
        omega
      · rw [if_neg (by simpa using ho)]
        by_cases hc : token.kind = .sign .rightBrace
        · simp only [if_neg ho, if_pos hc] at hone hprefixes ⊢
          simp only [openings, closings, List.countP_nil] at hone
          rw [if_pos (by rw [hc]; rfl), ih fun front hf => by have := hprefixes front hf; omega]
          congr 1
          omega
        · simp only [if_neg ho, if_neg hc] at hprefixes ⊢
          rw [if_neg (by simpa using hc), ih fun front hf => by have := hprefixes front hf; omega]
          rfl

/-- A block is passed over as a whole. -/
theorem afterStatement_block {number : Int} {opening closing : Token} {inner rest : List Token}
    (ho : opening.kind = .sign .leftBrace) (hl : opening.line = number) (hi : Balanced inner)
    (hc : closing.kind = .sign .rightBrace) (hr : rest ≠ []) :
    afterStatement number 0 (opening :: (inner ++ [closing]) ++ rest) =
      afterStatement number 0 rest := by
  have hinner : afterStatement number 1 (inner ++ (closing :: rest)) =
      afterStatement number 1 (closing :: rest) := by
    rw [afterStatement_inside (fun front hf => ?_) (List.cons_ne_nil _ _), hi.totals,
      Nat.add_sub_cancel]
    have := hi.prefixes front hf
    omega
  have hopen : afterStatement number 0 (opening :: (inner ++ [closing]) ++ rest) =
      afterStatement number 1 (inner ++ (closing :: rest)) := by
    rw [List.cons_append, List.append_assoc, List.singleton_append]
    cases hs : inner ++ closing :: rest with
    | nil => exact absurd (List.append_eq_nil_iff.mp hs).2 (List.cons_ne_nil _ _)
    | cons next more =>
      rw [afterStatement]
      simp [ho, hl]
  rw [hopen, hinner]
  cases rest with
  | nil => exact absurd rfl hr
  | cons next more =>
    rw [afterStatement]
    simp [hc]

/-- A token below the line ends a statement. -/
theorem afterStatement_below {number : Int}
    (h : ∀ token ∈ back.head?, number < token.line) : afterStatement number 0 back = back := by
  rcases back with _ | ⟨token, _ | ⟨next, rest⟩⟩
  · rfl
  · rfl
  · have hl : number < token.line := h token rfl
    rw [afterStatement]
    simp [hl]

/-- What is passed over after a malformed statement is the statement. -/
theorem Malformed.afterStatement (h : Malformed name line block) (hb : back ≠ [])
    (hl : ∀ token ∈ back.head?, name.line < token.line) :
    afterStatement name.line 0 (name :: line ++ block ++ back) = back := by
  have hline : ∀ token ∈ name :: line, token.line = name.line ∧
      token.kind ≠ .sign .leftBrace ∧ token.kind ≠ .sign .rightBrace := by
    intro token hm
    rcases List.mem_cons.mp hm with rfl | hm
    · simp [h.identifier]
    · exact h.sameLine token hm
  rw [List.append_assoc, afterStatement_onLine hline (by simp [hb])]
  rcases h.braced with rfl | ⟨opening, inner, closing, rfl, ho, hn, hi, hc⟩
  · exact afterStatement_below hl
  · rw [afterStatement_block ho hn hi hc hb, afterStatement_below hl]

/-! ## Failing -/

/-- Where no equals sign comes on the line behind an identifier, no identifier is assigned. -/
theorem run_readIdentifier_none {token : Token} {tokens : List Token}
    (hr : p.rest = token :: tokens)
    (hi : ∀ sign ∈ tokens.head?, (token.kind == .identifier && sign.kind == .sign .equals &&
      sign.line == token.line) = false) :
    readIdentifier.run.run p = (.ok none, p) := by
  cases tokens with
  | nil =>
    have hm : remaining.run.run p = (.ok [token], p) := by
      rw [← hr]
      rfl
    unfold readIdentifier
    rw [run_bind, hm]
    rfl
  | cons sign rest =>
    rw [run_readIdentifier hr, hi sign rfl]
    rfl

/-- Where nothing of a body starts, its statement fails at the next token. -/
theorem run_readBodyStatement_unexpected {token : Token} {tokens : List Token}
    (body : BodyKind → Reader (List BodyEntry)) (owner : BodyKind) (hr : p.rest = token :: tokens)
    (hd : isDirective token = false) (hp : PropertyWord.ofKind? token.kind = none)
    (hi : ∀ sign ∈ tokens.head?, (token.kind == .identifier && sign.kind == .sign .equals &&
      sign.line == token.line) = false)
    (ha : token.kind ≠ .sign .arrow) (hs : startsRelationship (token :: tokens) = false)
    (he : BodyKind.ofElementKind? token.kind = none) :
    (readBodyStatement body owner).run.run p =
      (.error (.failed ⟨.unexpected token.found (.block owner.keyword), token⟩), p) := by
  have hproperty : (readProperty owner.accepts).run.run p = (.ok none, p) := by
    unfold readProperty
    rw [run_current_bind hr, hp]
    rfl
  have hremaining : remaining.run.run p = (.ok (token :: tokens), p) := by
    rw [← hr]
    rfl
  have hdeclaration : (readDeclaration body owner).run.run p =
      (.error (.failed ⟨.unexpected token.found (.block owner.keyword), token⟩), p) := by
    unfold readDeclaration
    rw [run_current_bind hr, run_bind, run_readIdentifier_none hr hi]
    dsimp only
    rw [run_current_bind hr, run_bind, hremaining]
    dsimp only
    rw [hs, Bool.or_false, if_neg (by simpa using ha), he]
    rfl
  unfold readBodyStatement
  rw [run_current_bind hr, hd, if_neg Bool.false_ne_true, run_bind, hproperty]
  dsimp only
  rw [run_bind, hdeclaration]

/-- A sign that is no arrow, or the end of the input, starts no statement of a body. -/
theorem run_readBodyStatement_sign {token : Token} {tokens : List Token}
    (body : BodyKind → Reader (List BodyEntry)) (owner : BodyKind) (hr : p.rest = token :: tokens)
    (hk : token.kind = .endOfInput ∨ ∃ sign, token.kind = .sign sign ∧ sign ≠ .arrow) :
    (readBodyStatement body owner).run.run p =
      (.error (.failed ⟨.unexpected token.found (.block owner.keyword), token⟩), p) := by
  have hstarts : startsRelationship (token :: tokens) = false := by
    rw [startsRelationship_cons]
    rcases hk with hk | ⟨sign, hk, _⟩ <;> simp [isReferencePart, hk]
  refine run_readBodyStatement_unexpected body owner hr ?_ ?_ ?_ ?_ hstarts ?_
  · rcases hk with hk | ⟨sign, hk, _⟩ <;> simp [isDirective, hk]
  · rcases hk with hk | ⟨sign, hk, _⟩ <;> simp [PropertyWord.ofKind?, hk]
  · rcases hk with hk | ⟨sign, hk, _⟩ <;> simp [hk]
  · rcases hk with hk | ⟨sign, hk, hn⟩ <;> simp_all
  · rcases hk with hk | ⟨sign, hk, _⟩ <;> simp [BodyKind.ofElementKind?, hk]

/-- Where a relationship has to have a source, no statement of a body starts with an arrow. -/
theorem run_readBodyStatement_arrow {token : Token} {tokens : List Token}
    (body : BodyKind → Reader (List BodyEntry)) {owner : BodyKind} (hr : p.rest = token :: tokens)
    (hk : token.kind = .sign .arrow) (ho : owner.isSource = false) :
    (readBodyStatement body owner).run.run p =
      (.error (.failed ⟨.withoutSource, token⟩), p) := by
  have hproperty : (readProperty owner.accepts).run.run p = (.ok none, p) := by
    unfold readProperty
    rw [run_current_bind hr, hk]
    rfl
  have hremaining : remaining.run.run p = (.ok (token :: tokens), p) := by
    rw [← hr]
    rfl
  have hrelationship : (readRelationship none token owner.isSource).run.run p =
      (.error (.failed ⟨.withoutSource, token⟩), p) := by
    unfold readRelationship readOrigin
    rw [run_current_bind hr, run_bind, hk, ho]
    rfl
  have hdeclaration : (readDeclaration body owner).run.run p =
      (.error (.failed ⟨.withoutSource, token⟩), p) := by
    unfold readDeclaration
    rw [run_current_bind hr, run_bind, run_readIdentifier_none hr (by simp [hk])]
    dsimp only
    rw [run_current_bind hr, run_bind, hremaining]
    dsimp only
    rw [hk, if_pos (by rfl), run_bind, hrelationship]
  unfold readBodyStatement
  rw [run_current_bind hr, if_neg (by simp [isDirective, hk]), run_bind, hproperty]
  dsimp only
  rw [run_bind, hdeclaration]

/-- Behind the word of a malformed statement nothing comes that would let it be assigned to or start
a relationship: what comes there is below its line or no equals sign and no arrow, and no dot. -/
theorem Malformed.head? (h : Malformed name line block)
    (hl : ∀ token ∈ back.head?, name.line < token.line ∧ token.kind ≠ .sign .dot) :
    ∀ token ∈ (line ++ block ++ back).head?, token.kind ≠ .sign .dot ∧
      (token.line = name.line → token.kind ≠ .sign .equals ∧ token.kind ≠ .sign .arrow) := by
  intro token hm
  rcases hline : line with _ | ⟨next, rest⟩
  · rw [hline] at hm
    rcases h.braced with rfl | ⟨opening, inner, closing, rfl, ho, _⟩
    · obtain ⟨hbelow, hdot⟩ := hl token hm
      exact ⟨hdot, fun he => absurd he (Int.ne_of_gt hbelow)⟩
    · cases hm
      simp [ho]
  · rw [hline] at hm
    cases hm
    obtain ⟨he, ha, hd⟩ := h.first token (by rw [hline, List.head?_cons, Option.mem_some_iff])
    exact ⟨hd, fun _ => ⟨he, ha⟩⟩

/-- A malformed statement is no directive. -/
theorem Malformed.isDirective (h : Malformed name line block) : isDirective name = false := by
  simpa [Grammar.isDirective, h.identifier] using h.plain

/-- A malformed statement fails at its first token. -/
theorem Malformed.run_readBodyStatement (h : Malformed name line block)
    (body : BodyKind → Reader (List BodyEntry)) (owner : BodyKind)
    (hr : p.rest = name :: (line ++ block ++ back))
    (hl : ∀ token ∈ back.head?, name.line < token.line ∧ token.kind ≠ .sign .dot) :
    (readBodyStatement body owner).run.run p =
      (.error (.failed ⟨.unexpected name.found (.block owner.keyword), name⟩), p) := by
  have hhead := h.head? hl
  have hstarts : startsRelationship (name :: (line ++ block ++ back)) = false := by
    rw [startsRelationship_cons, Bool.and_eq_false_iff]
    right
    generalize line ++ block ++ back = tokens at hhead
    have hpath : afterPath tokens = tokens := by
      rcases tokens with _ | ⟨dot, _ | ⟨part, rest⟩⟩
      · rfl
      · rfl
      · have hd : isDot dot = false := beq_eq_false_iff_ne.mpr (hhead dot rfl).1
        rw [afterPath, hd, Bool.false_and, if_neg Bool.false_ne_true]
    rw [hpath]
    cases tokens with
    | nil => rfl
    | cons arrow rest =>
      have harrow := (hhead arrow rfl).2
      show (arrow.kind == .sign .arrow && arrow.line == name.line) = false
      by_cases he : arrow.line = name.line
      · simp [(harrow he).2]
      · simp [he]
  refine run_readBodyStatement_unexpected body owner hr ?_ ?_ ?_ ?_ hstarts ?_
  · exact h.isDirective
  · simp [PropertyWord.ofKind?, h.identifier]
  · intro sign hs
    have hequals := (hhead sign hs).2
    by_cases he : sign.line = name.line
    · simp [(hequals he).1]
    · simp [he]
  · simp [h.identifier]
  · simp [BodyKind.ofElementKind?, h.identifier]

/-! ## Reporting -/

/-- A statement of a block that fails at a token is reported and passed over; the block keeps its
value. -/
theorem yields_readStatement_failed {issue : GrammarIssue} {token : Token}
    {tokens back : List Token} {statement : α → Reader α} {value : α}
    (hr : p.rest = token :: tokens)
    (hf : (statement value).run.run p = (.error (.failed ⟨issue, token⟩), p))
    (hl : ((p.errors + 1 : Nat) : Int) < p.limit)
    (ha : afterStatement token.line 0 (token :: tokens) = back) (hb : back ≠ [])
    (hn : back.length ≤ tokens.length) :
    Yields p (readStatementLeaving (fun _ value => value) statement value) value
      ((p.reporting ⟨issue, token⟩).ahead back) := by
  have hreport : Yields p (report ⟨issue, token⟩) () (p.reporting ⟨issue, token⟩) := by
    unfold Yields
    rw [run_report, if_neg (Int.not_le.mpr hl)]
  have hrecover : Yields (p.reporting ⟨issue, token⟩) (recoverFrom token) ()
      ((p.reporting ⟨issue, token⟩).ahead back) := by
    have hrest : (p.reporting ⟨issue, token⟩).rest = token :: tokens := hr
    rw [← ha, ← hrest]
    rfl
  obtain ⟨head, rest, rfl⟩ := List.exists_cons_of_ne_nil hb
  have hne : ((head :: rest).length == p.rest.length) = false := by
    have hlength : p.rest.length = tokens.length + 1 := by rw [hr, List.length_cons]
    exact beq_eq_false_iff_ne.mpr (by omega)
  have hrun : (readStatementLeaving (fun _ value => value) statement value).run.run p =
      (report ⟨issue, token⟩ >>= fun _ => recoverFrom token >>= fun _ => remaining >>= fun after =>
        current >>= fun next => if after.length == p.rest.length &&
          next.kind != .sign .rightBrace && next.kind != .endOfInput then
            advance >>= fun _ => pure value else pure value).run.run p := by
    unfold readStatementLeaving
    have hremaining : remaining.run.run p = (.ok p.rest, p) := rfl
    rw [run_current_bind hr, run_bind, hremaining]
    dsimp only
    rw [run_attempt, hf]
  unfold Yields
  rw [hrun]
  refine hreport.bind (hrecover.bind (yields_remaining.bind (yields_current.bind ?_)))
  rw [hne, Bool.false_and, Bool.false_and, if_neg Bool.false_ne_true]
  exact yields_pure value

end Blueprint.Grammar
