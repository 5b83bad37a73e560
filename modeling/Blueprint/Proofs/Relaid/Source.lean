import Blueprint.Proofs.Relaid.Workspace
import Blueprint.Proofs.Token.Layout

/-!
# Layout does not change what is read

Blanks and comments at the start of a line only displace the tokens behind them. No two tokens come
to stand on one line that did not before, or next to each other. So a source in which lines are
indented anew, or in which blank lines and lines of comments are inserted, is read in the same way.
-/

namespace Blueprint.Grammar

open Blueprint.Declared Blueprint.Text

variable {lines characters : Int} {front back others : List Token}

/-! ## Displaced tokens -/

/-- Tokens with the same index are the same token before the displaced ones, or one is the other one
displaced. -/
theorem getElem_displaced (hd : List.Forall₂ (Token.Displaced lines characters) back others)
    (i : Nat) (h : i < (front ++ back).length) (ho : i < (front ++ others).length) :
    (i < front.length ∧ (front ++ back)[i] ∈ front ∧
      (front ++ others)[i] = (front ++ back)[i]) ∨
    (front.length ≤ i ∧ (front ++ back)[i] ∈ back ∧ (front ++ others)[i] ∈ others ∧
      (front ++ back)[i].Displaced lines characters (front ++ others)[i]) := by
  by_cases hi : i < front.length
  · refine .inl ⟨hi, ?_, ?_⟩
    · rw [List.getElem_append_left hi]
      exact List.getElem_mem hi
    · rw [List.getElem_append_left hi, List.getElem_append_left hi]
  · have hle := Nat.le_of_not_lt hi
    rw [List.length_append] at h ho
    rw [List.getElem_append_right hle, List.getElem_append_right hle]
    exact .inr ⟨hle, List.getElem_mem _, List.getElem_mem _, hd.get (by omega) (by omega)⟩

/-- Tokens are laid out anew if some at the end are displaced, and still stand below all others and
apart from them. -/
theorem relaid_of_displaced (hd : List.Forall₂ (Token.Displaced lines characters) back others)
    (hb : ∀ token ∈ front, ∀ behind ∈ back,
      token.line < behind.line ∧ token.endOffset < behind.position.offset)
    (ho : ∀ token ∈ front, ∀ behind ∈ others,
      token.line < behind.line ∧ token.endOffset < behind.position.offset) :
    Relaid (front ++ back) (front ++ others) where
  length := by rw [List.length_append, List.length_append, hd.length_eq]
  same := by
    intro i h h'
    rcases getElem_displaced hd i h h' with ⟨_, _, he⟩ | ⟨_, _, _, hm⟩
    · rw [he]
      exact ⟨rfl, rfl, rfl⟩
    · exact ⟨hm.kind, hm.lexeme, hm.value⟩
  lines := by
    intro i hi hi' j hj hj'
    rcases getElem_displaced hd i hi hi' with ⟨_, hif, hie⟩ | ⟨_, hib, hio, him⟩ <;>
      rcases getElem_displaced hd j hj hj' with ⟨_, hjf, hje⟩ | ⟨_, hjb, hjo, hjm⟩
    · rw [hie, hje]
    · have hback := (hb _ hif _ hjb).1
      have hother := (ho _ hif _ hjo).1
      rw [hie]
      exact ⟨fun _ => hother, fun _ => hback⟩
    · have hback := (hb _ hjf _ hib).1
      have hother := (ho _ hjf _ hio).1
      rw [hje]
      omega
    · have hli := him.position.line
      have hlj := hjm.position.line
      unfold Token.line
      omega
  adjacent := by
    intro i h h'
    rcases getElem_displaced hd i (Nat.lt_of_succ_lt h) (Nat.lt_of_succ_lt h') with
      ⟨_, hif, hie⟩ | ⟨hle, hib, hio, him⟩ <;>
      rcases getElem_displaced hd (i + 1) h h' with ⟨hlt, hjf, hje⟩ | ⟨_, hjb, hjo, hjm⟩
    · rw [hie, hje]
    · have hback := (hb _ hif _ hjb).2
      have hother := (ho _ hif _ hjo).2
      rw [hie]
      omega
    · omega
    · have hoi := him.position.offset
      have hoj := hjm.position.offset
      unfold Token.endOffset
      rw [him.lexeme]
      omega

/-- Tokens at one place in both lists are the same token before the displaced ones, or one is the
other one displaced. -/
theorem mem_zip_displaced (hd : List.Forall₂ (Token.Displaced lines characters) back others)
    {place : Token × Token} (h : place ∈ (front ++ back).zip (front ++ others)) :
    (place.1 ∈ front ∧ place.2 = place.1) ∨
      (place.1 ∈ back ∧ place.2 ∈ others ∧ place.1.Displaced lines characters place.2) := by
  obtain ⟨i, hi, rfl⟩ := List.mem_iff_getElem.mp h
  have hl := List.length_zip ▸ hi
  rw [List.getElem_zip]
  rcases @getElem_displaced _ _ front _ _ hd i (by omega) (by omega) with
    ⟨_, hm, he⟩ | ⟨_, hb, ho, hm⟩
  · exact .inl ⟨hm, he⟩
  · exact .inr ⟨hb, ho, hm⟩

/-- Tokens match if some at the end are displaced, and still stand below all others. -/
theorem matched_of_displaced (hd : List.Forall₂ (Token.Displaced lines characters) back others)
    (hb : ∀ token ∈ front, ∀ behind ∈ back, token.line < behind.line)
    (ho : ∀ token ∈ front, ∀ behind ∈ others, token.line < behind.line) :
    Matched ((front ++ back).zip (front ++ others)) where
  same := by
    intro place hp
    rcases mem_zip_displaced hd hp with ⟨_, he⟩ | ⟨_, _, hm⟩
    · rw [he]
      exact ⟨rfl, rfl, rfl⟩
    · exact ⟨hm.kind, hm.lexeme, hm.value⟩
  lines := by
    intro first hf second hs
    rcases mem_zip_displaced hd hf with ⟨hff, hfe⟩ | ⟨hfb, hfo, hfm⟩ <;>
      rcases mem_zip_displaced hd hs with ⟨hsf, hse⟩ | ⟨hsb, hso, hsm⟩
    · rw [hfe, hse]
    · rw [hfe]
      exact ⟨fun _ => ho _ hff _ hso, fun _ => hb _ hff _ hsb⟩
    · have hback := hb _ hsf _ hfb
      have hother := ho _ hsf _ hfo
      rw [hse]
      omega
    · have hlf := hfm.position.line
      have hls := hsm.position.line
      unfold Token.line
      omega
  adjacent := by
    -- No two tokens on a line stand one before the displaced ones and the other among them.
    refine List.Pairwise.isChain (List.pairwise_of_forall_mem_list fun first hf second hs hl => ?_)
    rcases mem_zip_displaced hd hf with ⟨hff, hfe⟩ | ⟨hfb, _, hfm⟩ <;>
      rcases mem_zip_displaced hd hs with ⟨hsf, hse⟩ | ⟨hsb, _, hsm⟩
    · rw [hfe, hse]
    · exact absurd hl (Int.ne_of_lt (hb _ hff _ hsb))
    · exact absurd hl (Int.ne_of_gt (hb _ hsf _ hfb))
    · have hof := hfm.position.offset
      have hos := hsm.position.offset
      unfold Token.endOffset
      rw [hfm.lexeme]
      omega

/-! ## Sources -/

/-- The tokens of a source with other layout at the start of a line are laid out anew, or the same
number cannot be read. -/
theorem ofChars_relaid {before gap other behind : List Char} (hb : Fresh before)
    (hg : Layout behind gap) (ho : Layout behind other) :
    (∃ fault,
      (TokenStream.ofChars (before ++ gap ++ behind)).map TokenStream.tokens = .error fault ∧
      (TokenStream.ofChars (before ++ other ++ behind)).map TokenStream.tokens = .error fault) ∨
    ∃ tokens others,
      (TokenStream.ofChars (before ++ gap ++ behind)).map TokenStream.tokens = .ok tokens ∧
      (TokenStream.ofChars (before ++ other ++ behind)).map TokenStream.tokens = .ok others ∧
      Relaid tokens others := by
  rw [TokenStream.ofChars_layout hb hg, TokenStream.ofChars_layout hb ho]
  cases hfront : TokenStream.tokensOf
      (Segment.placed Position.start (Segment.ofText before)) with
  | error fault => exact .inl ⟨fault, rfl, rfl⟩
  | ok front =>
    generalize hp : Position.start.after (before ++ gap) = position
    generalize hq : Position.start.after (before ++ other) = place
    have hd := Position.displaced position place
    rcases TokenStream.tokensOf_displaced hd (Segment.ofText behind) with
      ⟨fault, hl, hr⟩ | ⟨back, _, hl, _, _⟩
    · rw [hl, hr]
      exact .inl ⟨fault, rfl, rfl⟩
    obtain ⟨others, hr, hds⟩ := TokenStream.exists_displaced hd hl
    rw [hl, hr]
    refine .inr ⟨_, _, rfl, rfl, relaid_of_displaced hds ?_ ?_⟩
    · rw [← hp] at hl ⊢
      exact TokenStream.apart_of_fresh hb hfront (TokenStream.within_of_ofText hl)
    · rw [← hq] at hr ⊢
      exact TokenStream.apart_of_fresh hb hfront (TokenStream.within_of_ofText hr)

/-- A source with other layout at the start of a line declares the same up to places. -/
theorem parse_relaid {before gap other behind : String} (hb : Fresh before.toList)
    (hg : Layout behind.toList gap.toList) (ho : Layout behind.toList other.toList) (limit : Int) :
    (parse (before ++ gap ++ behind) limit).map (fun outcome => outcome.workspace.unplaced) =
      (parse (before ++ other ++ behind) limit).map fun outcome => outcome.workspace.unplaced := by
  have hr := ofChars_relaid hb hg ho
  unfold parse TokenStream.ofString
  rw [String.toList_append, String.toList_append, String.toList_append, String.toList_append]
  generalize TokenStream.ofChars (before.toList ++ gap.toList ++ behind.toList) = result at hr ⊢
  generalize TokenStream.ofChars (before.toList ++ other.toList ++ behind.toList) = same at hr ⊢
  rcases hr with ⟨fault, hl, hr⟩ | ⟨tokens, others, hl, hr, ht⟩
  · cases result <;> cases hl
    cases same <;> cases hr
    rfl
  · cases result with
    | error fault => cases hl
    | ok stream =>
      cases same with
      | error fault => cases hr
      | ok twin =>
        cases hl
        cases hr
        have hdeclared : ∀ (read : Except Number.Fault Outcome) (known : Nat),
            read.map (fun outcome => outcome.workspace.unplaced) =
              (read.map (Outcome.unplaced known)).map Prod.fst := by
          intro read known
          cases read <;> rfl
        have hread := readTokens_relaid ht stream.diagnostics twin.diagnostics limit
        show (readTokens stream.tokens stream.diagnostics limit).map _ =
          (readTokens twin.tokens twin.diagnostics limit).map _
        rw [hdeclared _ stream.diagnostics.length, hread, ← hdeclared]

/-! ## Layout -/

/-- A source has other layout at the start of some of its lines than another one. -/
inductive Reformatted (source : String) : String → Prop where
  /-- The layout is the same. -/
  | none : Reformatted source source
  /-- The layout at the start of one more line is another. -/
  | line (before gap other behind : String) (h : Reformatted source (before ++ gap ++ behind))
    (hb : Fresh before.toList) (hg : Layout behind.toList gap.toList)
    (ho : Layout behind.toList other.toList) : Reformatted source (before ++ other ++ behind)

/-- A source with other layout at the start of its lines declares the same up to places. -/
theorem parse_reformatted {source other : String} (h : Reformatted source other) (limit : Int) :
    (parse source limit).map (fun outcome => outcome.workspace.unplaced) =
      (parse other limit).map fun outcome => outcome.workspace.unplaced := by
  induction h with
  | none => rfl
  | line before gap other behind _ hb hg ho ih => exact ih.trans (parse_relaid hb hg ho limit)

/-- Layout does not change what is read, whatever the limit of errors is. From tokens that are laid
out anew the same is declared and reported up to places, whatever was reported before. Sources that
differ in blanks and comments at the start of lines declare the same up to places. -/
theorem layout_unread (limit : Int) :
    (∀ (tokens others : List Token) (before prior : List Diagnostic), Relaid tokens others →
      (readTokens tokens before limit).map (Outcome.unplaced before.length) =
        (readTokens others prior limit).map (Outcome.unplaced prior.length)) ∧
    ∀ source other : String, Reformatted source other →
      (parse source limit).map (fun outcome => outcome.workspace.unplaced) =
        (parse other limit).map fun outcome => outcome.workspace.unplaced :=
  ⟨fun _ _ before prior ht => readTokens_relaid ht before prior limit,
    fun _ _ h => parse_reformatted h limit⟩

/-- A source in which a comment is written above a line, and a line that fails is indented behind a
blank one, and the tokens of a source on another line. -/
theorem layout_unread_comment :
    (∃ outcome,
      parse "workspace \x7b\nname \"A\" \"B\"\nmodel \x7b\noops\n\x7d\n\x7d" 100 = .ok outcome ∧
      outcome.workspace.name = some "A B" ∧ outcome.diagnostics.length = 1 ∧
      (parse "workspace \x7b\n\t// a\n  name \"A\" \"B\"\nmodel \x7b\n\n  oops\n\x7d\n\x7d" 100).map
        (fun other => other.workspace.unplaced) = .ok outcome.workspace.unplaced) ∧
    (readTokens [⟨.keyword .workspace, "workspace", ⟨1, 1, 0⟩, .absent⟩, .finish ⟨1, 10, 9⟩]
        [] 100).map (Outcome.unplaced 0) =
      (readTokens [⟨.keyword .workspace, "workspace", ⟨3, 5, 20⟩, .absent⟩, .finish ⟨3, 14, 29⟩]
        [] 100).map (Outcome.unplaced 0) := by
  have hread : (parse "workspace \x7b\nname \"A\" \"B\"\nmodel \x7b\noops\n\x7d\n\x7d"
      100).toOption.map (fun outcome => (outcome.workspace.name, outcome.diagnostics.length)) =
        some (some "A B", 1) := by
    decide +kernel
  obtain ⟨outcome, ho, hf⟩ := exists_ok_of_map hread
  obtain ⟨hn, hl⟩ := Prod.mk.inj hf
  have hfirst : Fresh "workspace \x7b\n".toList := by
    unfold Fresh
    decide +kernel
  have hcomment : Layout "name \"A\" \"B\"\nmodel \x7b\noops\n\x7d\n\x7d".toList
      "\t// a\n  ".toList :=
    .blank rfl (@Layout.lineComment _ [' ', 'a'] ['\n', ' ', ' '] (by decide) (.inr rfl)
      (.blank rfl (.blank rfl (.blank rfl .none))))
  have hone : Reformatted "workspace \x7b\nname \"A\" \"B\"\nmodel \x7b\noops\n\x7d\n\x7d"
      "workspace \x7b\n\t// a\n  name \"A\" \"B\"\nmodel \x7b\noops\n\x7d\n\x7d" :=
    .line "workspace \x7b\n" "" "\t// a\n  " "name \"A\" \"B\"\nmodel \x7b\noops\n\x7d\n\x7d"
      .none hfirst .none hcomment
  have hsecond : Fresh "workspace \x7b\n\t// a\n  name \"A\" \"B\"\nmodel \x7b\n".toList := by
    unfold Fresh
    decide +kernel
  have hindent : Layout "oops\n\x7d\n\x7d".toList "\n  ".toList :=
    .blank rfl (.blank rfl (.blank rfl .none))
  have htwo : Reformatted "workspace \x7b\nname \"A\" \"B\"\nmodel \x7b\noops\n\x7d\n\x7d"
      "workspace \x7b\n\t// a\n  name \"A\" \"B\"\nmodel \x7b\n\n  oops\n\x7d\n\x7d" :=
    .line "workspace \x7b\n\t// a\n  name \"A\" \"B\"\nmodel \x7b\n" "" "\n  " "oops\n\x7d\n\x7d"
      hone hsecond .none hindent
  refine ⟨⟨outcome, ho, hn, hl, ?_⟩, ?_⟩
  · have hsame := (layout_unread 100).2 _ _ htwo
    rw [ho] at hsame
    exact hsame.symm
  · refine (layout_unread 100).1 _ _ [] [] ⟨rfl, by decide, by decide, ?_⟩
    intro i h h'
    obtain rfl : i = 0 := Nat.lt_one_iff.mp (Nat.lt_of_succ_lt_succ h)
    simp only [Token.finish, Token.endOffset, List.getElem_cons_succ, List.getElem_cons_zero]
    decide

end Blueprint.Grammar
