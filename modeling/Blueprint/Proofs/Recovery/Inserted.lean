import Blueprint.Proofs.Limit.Source
import Blueprint.Proofs.Recovery.Source
import Blueprint.Proofs.Relaid.Source
import Blueprint.Proofs.Token.Cut
import Mathlib.Data.List.Infix

/-!
# A malformed statement is written into a source

A source is cut at a boundary of statements, between two lines, and a malformed statement is written
there on lines of its own. What stands behind is displaced, and nothing else changes. So what is
read is the same up to places, and one error more is reported, where the statement starts.
-/

namespace Blueprint.Grammar

open Blueprint.Declared Blueprint.Text

variable {before gap behind text : String} {limit : Int} {owner : BodyKind} {name : Token}
  {line block tokens : List Token} {outcome : Outcome}

/-! ## Where the statement is written, and what it is -/

/-- In a source that is cut, the loop over the statements of a body stands at the cut when it is
about to read its next statement or the closing brace. The next token starts a new line. -/
inductive Boundary (before gap behind : String) (limit : Int) (owner : BodyKind) : Prop
  /-- The tokens of the text before the cut are passed, and those behind it are left. -/
  | between {opening stream : TokenStream} {front : List Token} {last : Token} {s : Progress}
    (cut : Segment.Cut before.toList gap.toList behind.toList)
    (opened : TokenStream.ofString before = .ok opening) (passed : opening.tokens = front ++ [last])
    (read : TokenStream.ofString (before ++ gap ++ behind) = .ok stream)
    (left : stream.tokens = front ++ s.rest) (reaches : Reaches (stream.start limit) owner s)
    (goesOn : GoesOn owner s)
    (newLine : ∀ token ∈ front.getLast?, ∀ next ∈ s.rest.head?, token.line < next.line)

/-- A text is that of a malformed statement: without an error in its characters, it has the tokens
of such a statement. -/
inductive Writes (text : String) (name : Token) (line block : List Token) : Prop
  /-- The text is read without an error in its characters. -/
  | tokens {stream : TokenStream} {last : Token} (malformed : Malformed name line block)
    (read : TokenStream.ofString text = .ok stream)
    (faultless : ∀ diagnostic ∈ stream.diagnostics, diagnostic.isError = false)
    (tokens : stream.tokens = name :: (line ++ block) ++ [last])

/-! ## Moving the statement -/

/-- Where tokens stand does not matter for their braces. -/
theorem Balanced.shift (h : Balanced tokens) (lines characters : Int) :
    Balanced (tokens.map (Token.shift lines characters)) := by
  have hopen : ∀ tokens : List Token,
      openings (tokens.map (Token.shift lines characters)) = openings tokens :=
    fun tokens => List.countP_map
  have hclose : ∀ tokens : List Token,
      closings (tokens.map (Token.shift lines characters)) = closings tokens :=
    fun tokens => List.countP_map
  refine ⟨fun front hf => ?_, ?_⟩
  · obtain ⟨same, hs, rfl⟩ := List.prefix_map_iff.mp hf
    rw [hopen, hclose]
    exact h.prefixes same hs
  · rw [hopen, hclose]
    exact h.totals

/-- A malformed statement is one wherever it stands. -/
theorem Malformed.shift (h : Malformed name line block) (lines characters : Int) :
    Malformed (name.shift lines characters) (line.map (Token.shift lines characters))
      (block.map (Token.shift lines characters)) where
  identifier := h.identifier
  plain := h.plain
  sameLine := by
    intro token hm
    obtain ⟨same, hs, rfl⟩ := List.mem_map.mp hm
    obtain ⟨hl, hk⟩ := h.sameLine same hs
    exact ⟨congrArg (· + lines) hl, hk⟩
  first := by
    intro token hm
    rw [List.head?_map] at hm
    obtain ⟨same, hs, rfl⟩ := Option.map_eq_some_iff.mp hm
    exact h.first same hs
  braced := by
    rcases h.braced with rfl | ⟨opening, inner, closing, rfl, ho, hl, hi, hc⟩
    · exact .inl rfl
    · refine .inr ⟨opening.shift lines characters, _, closing.shift lines characters, ?_, ho,
        congrArg (· + lines) hl, hi.shift lines characters, hc⟩
      rw [List.map_cons, List.map_append]
      rfl

/-! ## The source with the statement -/

/-- A source that is read without an error is faultless. -/
theorem faultless_of_parse {source : String} {stream : TokenStream}
    (h : parse source limit = .ok outcome)
    (hc : ∀ diagnostic ∈ outcome.diagnostics, diagnostic.isError = false)
    (hs : TokenStream.ofString source = .ok stream) : Segment.Faultless source.toList := by
  obtain ⟨more, hmore, _⟩ := diagnostics_of_parse hs h
  refine TokenStream.faultless_of_ofChars hs fun diagnostic hm => ?_
  exact Diagnostic.severity_ne_of_isError (hc diagnostic (hmore ▸ List.mem_append_left _ hm))

/-- Recovery isolates a malformed statement. A source is read without an error, and at a boundary of
statements of a body a malformed statement is written into it on lines of its own. Then the source
declares the same up to places, and one error is reported, at the first token of the statement. -/
theorem recovery_isolates (h : parse (before ++ gap ++ behind) limit = .ok outcome)
    (hc : ∀ diagnostic ∈ outcome.diagnostics, diagnostic.isError = false) (hl : 2 ≤ limit)
    (hb : Boundary before gap behind limit owner) (hw : Writes text name line block) :
    ∃ result, parse (before ++ "\n" ++ text ++ "\n" ++ behind) limit = .ok result ∧
      result.workspace.unplaced = outcome.workspace.unplaced ∧
      result.diagnostics.filter Diagnostic.isError = [strayReport owner
        (name.shift (before.toList.count '\n' + 1) (before.length + 1))] := by
  obtain @⟨opening, stream, front, last, s, cut, opened, passed, read, left, reaches, goesOn,
    newLine⟩ := hb
  obtain ⟨malformed, lexed, faultless, tokens⟩ := hw
  have hsource := faultless_of_parse h hc read
  unfold TokenStream.ofString at opened lexed
  have hread := read
  unfold TokenStream.ofString at hread
  rw [String.toList_append, String.toList_append] at hread hsource
  have hbefore := cut.faultless_before hsource
  have hbehind := cut.faultless_behind hsource
  have htext := TokenStream.faultless_of_ofChars lexed fun diagnostic hm =>
    Diagnostic.severity_ne_of_isError (faultless diagnostic hm)
  -- The tokens behind the statement are displaced, and no other token moves.
  obtain ⟨back, hback, twin, others, lines, characters, htwin, hothers, hdisplaced, hlines⟩ :=
    TokenStream.exists_written cut hread hbefore.complete htext.complete
      (TokenStream.tokensOf_of_ofChars opened passed) (TokenStream.tokensOf_of_ofChars lexed tokens)
  obtain rfl : s.rest = back := List.append_cancel_left (left.symm.trans hback)
  have hordered := TokenStream.pairwise_lines_of_ofChars hread
  rw [left] at hordered
  have hname := hlines _ List.mem_cons_self
  have hmatched := matched_of_displaced hdisplaced
    (TokenStream.lines_lt_of_pairwise hordered newLine) fun token hm other ho =>
      Int.lt_trans (hname.1 token hm) (hname.2 other ho)
  have hfaultless := TokenStream.isError_of_faultless htwin <| by
    rw [List.append_assoc, List.append_assoc text.toList]
    exact hbefore.line (htext.line hbehind)
  have hwritten : TokenStream.ofString (before ++ "\n" ++ text ++ "\n" ++ behind) = .ok twin := by
    rw [← htwin, TokenStream.ofString]
    simp only [String.toList_append, List.append_assoc]
    rfl
  rw [List.map_cons, List.map_append] at hothers hlines
  exact parse_apart h hc hl read left reaches rfl goesOn (malformed.shift _ _) hwritten hfaultless
    hothers hdisplaced.length_eq hmatched hlines

/-- The start of the body of a person is a boundary. -/
theorem boundary_person :
    Boundary "workspace \x7b\nmodel \x7b\nperson \"A\" \x7b" "\n" "\x7d\n\x7d\n\x7d" 2 .person := by
  let front : List Token :=
    [⟨.keyword .workspace, "workspace", ⟨1, 1, 0⟩, .absent⟩,
      ⟨.sign .leftBrace, "\x7b", ⟨1, 11, 10⟩, .absent⟩,
      ⟨.keyword .model, "model", ⟨2, 1, 12⟩, .absent⟩,
      ⟨.sign .leftBrace, "\x7b", ⟨2, 7, 18⟩, .absent⟩,
      ⟨.keyword .person, "person", ⟨3, 1, 20⟩, .absent⟩,
      ⟨.string, "\"A\"", ⟨3, 8, 27⟩, .text [.character 'A']⟩,
      ⟨.sign .leftBrace, "\x7b", ⟨3, 12, 31⟩, .absent⟩]
  let back : List Token :=
    [⟨.sign .rightBrace, "\x7d", ⟨4, 1, 33⟩, .absent⟩,
      ⟨.sign .rightBrace, "\x7d", ⟨5, 1, 35⟩, .absent⟩,
      ⟨.sign .rightBrace, "\x7d", ⟨6, 1, 37⟩, .absent⟩, .finish ⟨6, 2, 38⟩]
  let opened : Workspace := { position := some ⟨1, 1, 0⟩ }
  let model : Workspace := { opened with model := some { position := some ⟨2, 1, 12⟩ } }
  let start : Progress := .start (front ++ back) [] 2
  have hworkspace : Yields start openWorkspace ()
      { start with rest := front.drop 2 ++ back, workspace := opened } := rfl
  have hmodel : Yields { start with rest := front.drop 2 ++ back, workspace := opened } openModel ()
      { start with rest := front.drop 4 ++ back, workspace := model } := rfl
  obtain ⟨finish, hperson⟩ : ∃ finish, Enters (fun body => readBodyStatement body .model)
      { start with rest := front.drop 4 ++ back, workspace := model } .person
      { start with rest := back, workspace := model } finish :=
    (uniform_readBodyStatement .model).exists_enters rfl rfl
  have hreaches : Reaches start .person { start with rest := back, workspace := model } :=
    .inside rfl rfl rfl hworkspace .done rfl rfl hmodel (.inside .done hperson (.here .done))
  have hcut : Segment.Cut "workspace \x7b\nmodel \x7b\nperson \"A\" \x7b".toList "\n".toList
      "\x7d\n\x7d\n\x7d".toList :=
    ⟨by decide +kernel, by decide +kernel⟩
  have hopened : TokenStream.ofString "workspace \x7b\nmodel \x7b\nperson \"A\" \x7b" =
      .ok ⟨front ++ [.finish ⟨3, 13, 32⟩], []⟩ := by
    decide +kernel
  have hread : TokenStream.ofString ("workspace \x7b\nmodel \x7b\nperson \"A\" \x7b" ++ "\n" ++
      "\x7d\n\x7d\n\x7d") = .ok ⟨front ++ back, []⟩ := by
    decide +kernel
  refine .between hcut hopened rfl hread rfl hreaches (.inr ⟨_, rfl, rfl⟩) ?_
  rintro _ ⟨⟩ _ ⟨⟩
  decide

/-- A word, a keyword and a block are a malformed statement. -/
theorem writes_oops :
    Writes "  oops model \x7b -> x\n\x7d" ⟨.identifier, "oops", ⟨1, 3, 2⟩, .absent⟩
      [⟨.keyword .model, "model", ⟨1, 8, 7⟩, .absent⟩]
      [⟨.sign .leftBrace, "\x7b", ⟨1, 14, 13⟩, .absent⟩, ⟨.sign .arrow, "->", ⟨1, 16, 15⟩, .absent⟩,
        ⟨.identifier, "x", ⟨1, 19, 18⟩, .absent⟩,
        ⟨.sign .rightBrace, "\x7d", ⟨2, 1, 20⟩, .absent⟩] := by
  let inner : List Token :=
    [⟨.sign .arrow, "->", ⟨1, 16, 15⟩, .absent⟩, ⟨.identifier, "x", ⟨1, 19, 18⟩, .absent⟩]
  have hbalanced : Balanced inner := by
    have hfronts : ∀ front ∈ inner.inits, closings front ≤ openings front := by decide
    exact ⟨fun front hf => hfronts front ((List.mem_inits _ _).mpr hf), rfl⟩
  refine @Writes.tokens _ _ _ _ ⟨_ ++ [.finish ⟨2, 2, 21⟩], []⟩ _
    ⟨rfl, by decide, by decide, by decide, ?_⟩ (by decide +kernel)
    (fun _ hm => absurd hm List.not_mem_nil) rfl
  exact .inr ⟨_, inner, _, rfl, rfl, rfl, hbalanced, rfl⟩

/-- A word, a keyword and a block on lines of their own at the start of the body of a person. -/
theorem recovery_isolates_person :
    ∃ outcome result,
      parse "workspace \x7b\nmodel \x7b\nperson \"A\" \x7b\n\x7d\n\x7d\n\x7d" 2 = .ok outcome ∧
      outcome.diagnostics = [] ∧
      parse ("workspace \x7b\nmodel \x7b\nperson \"A\" \x7b" ++ "\n" ++
        "  oops model \x7b -> x\n\x7d" ++ "\n" ++ "\x7d\n\x7d\n\x7d") 2 = .ok result ∧
      result.workspace.unplaced = outcome.workspace.unplaced ∧
      result.diagnostics.filter Diagnostic.isError =
        [⟨.error, .grammar (.unexpected (.token "oops") (.block .person)), some ⟨4, 3, 35⟩⟩] := by
  have hparse : (parse "workspace \x7b\nmodel \x7b\nperson \"A\" \x7b\n\x7d\n\x7d\n\x7d"
      2).toOption.map Outcome.diagnostics = some [] := by
    decide +kernel
  obtain ⟨outcome, hp, hd⟩ := exists_ok_of_map hparse
  have hnone : ∀ diagnostic ∈ outcome.diagnostics, diagnostic.isError = false := by
    rw [hd]
    exact fun diagnostic hm => absurd hm List.not_mem_nil
  have hsource : "workspace \x7b\nmodel \x7b\nperson \"A\" \x7b\n\x7d\n\x7d\n\x7d" =
      "workspace \x7b\nmodel \x7b\nperson \"A\" \x7b" ++ "\n" ++ "\x7d\n\x7d\n\x7d" := by
    decide +kernel
  have hplace : (⟨1, 3, 2⟩ : Position).shift
      ("workspace \x7b\nmodel \x7b\nperson \"A\" \x7b".toList.count '\n' + 1)
      ("workspace \x7b\nmodel \x7b\nperson \"A\" \x7b".length + 1) = ⟨4, 3, 35⟩ := by
    decide +kernel
  obtain ⟨result, hr, hw, he⟩ :=
    recovery_isolates (hsource ▸ hp) hnone (Int.le_refl 2) boundary_person writes_oops
  rw [strayReport, Token.shift, hplace] at he
  exact ⟨outcome, result, hp, hd, hr, hw, he⟩

end Blueprint.Grammar
