import Blueprint.Proofs.Stacked.Below
import Blueprint.Proofs.Stacked.Model
import Blueprint.Proofs.Token.Closed

/-!
# Bodies of the model, one below the other

If two bodies of the model are each read without a word, so are the two with a line feed between
them. What the lower body declares is declared then, and what the upper body declares outside of an
enterprise. What the upper body declares in its enterprise is lost if the lower body has one too,
for the model keeps the last enterprise and not what the earlier ones hold.
-/

namespace Blueprint.Grammar

open Blueprint.Declared Blueprint.Text

variable {limit : Int} {body upper lower : String} {stream above below : TokenStream}
  {outcome first second : Outcome}

/-! ## The words of a text -/

/-- The tokens of a text, without the end of the input. -/
def words (stream : TokenStream) : List Token := stream.tokens.filter (·.kind != .endOfInput)

/-- The braces of a text are balanced. -/
def BalancedText (text : String) : Prop :=
  ∃ stream, TokenStream.ofString text = .ok stream ∧ Balanced stream.tokens

/-- Whether the braces of a text are balanced is seen from its tokens. -/
theorem BalancedText.of_map {text : String} (h : (TokenStream.ofString text).toOption.map
    (fun stream => decide (Balanced stream.tokens)) = some true) : BalancedText text := by
  obtain ⟨stream, hs, hb⟩ := exists_ok_of_map h
  exact ⟨stream, hs, of_decide_eq_true hb⟩

/-- Moving a token twice is moving it once. -/
theorem shift_shift (token : Token) (lines characters more others : Int) :
    (token.shift lines characters).shift more others =
      token.shift (lines + more) (characters + others) := by
  simp only [Token.shift, Position.shift, Int.add_assoc]

/-- Tokens can be moved in either order. -/
theorem map_shift_comm (tokens : List Token) (lines characters more others : Int) :
    (tokens.map (Token.shift lines characters)).map (Token.shift more others) =
      (tokens.map (Token.shift more others)).map (Token.shift lines characters) := by
  simp only [List.map_map, Function.comp_def, shift_shift, Int.add_comm]

/-- The tokens of a text stand on its lines. -/
theorem line_of_mem {text : String} (h : TokenStream.ofString text = .ok stream) {token : Token}
    (hm : token ∈ stream.tokens) : 1 ≤ token.line ∧ token.line ≤ text.toList.count '\n' + 1 := by
  obtain ⟨tokens, ht, rfl⟩ := TokenStream.ofChars_eq_ok_iff.mp h
  have hw := TokenStream.within_of_ofText ht token hm
  have habove := hw.above
  have hbelow := hw.below
  rw [Position.start_after] at hbelow
  exact ⟨habove, hbelow⟩

/-- A text has its words and the end of the input as its tokens. -/
theorem exists_words {text : String} (h : TokenStream.ofString text = .ok stream) :
    ∃ last, stream.tokens = words stream ++ [last] ∧ last.kind = .endOfInput := by
  obtain ⟨front, last, ht, hl, hf⟩ := ((TokenStream.placed_of_ofChars h).sound_start 0).ends
  have htokens : stream.tokens = front ++ [last] := ht
  have hfront : front.filter (·.kind != .endOfInput) = front :=
    List.filter_eq_self.mpr fun token hm => bne_iff_ne.mpr (hf token hm)
  refine ⟨last, ?_, hl⟩
  rw [words, htokens, List.filter_append, hfront]
  simp [hl]

/-- Where the braces of a text are balanced, those of its words are. -/
theorem balanced_words {text : String} (h : TokenStream.ofString text = .ok stream)
    (hb : Balanced stream.tokens) : Balanced (words stream) := by
  obtain ⟨last, ht, hl⟩ := exists_words h
  rw [ht] at hb
  refine ⟨fun front hf => hb.prefixes front (hf.trans (List.prefix_append _ _)), ?_⟩
  have htotals := hb.totals
  simp only [openings, closings, List.countP_append, List.countP_singleton, hl] at htotals ⊢
  exact htotals

/-- The words of two texts with a line feed between them are those of the first one and, further
below, those of the second one. -/
theorem words_below (h : TokenStream.ofString upper = .ok above) (hn : above.diagnostics = [])
    (hb : TokenStream.ofString lower = .ok below) (hm : below.diagnostics = []) :
    ∃ stream, TokenStream.ofString (upper ++ "\n" ++ lower) = .ok stream ∧
      stream.diagnostics = [] ∧ words stream = words above ++
        (words below).map (Token.shift (upper.toList.count '\n' + 1) (upper.length + 1)) := by
  have hboth := TokenStream.ofString_seam h (TokenStream.complete_of_eq_nil h hn) lower
  rw [hb] at hboth
  refine ⟨_, hboth, ?_, ?_⟩
  · show above.diagnostics ++ below.diagnostics.map _ = []
    rw [hn, hm]
    rfl
  · show (above.tokens.filter _ ++ below.tokens.map _).filter _ = _
    rw [List.filter_append, List.filter_filter, List.filter_map]
    simp only [Bool.and_self]
    rfl

/-! ## The words of a body -/

/-- The words of a body where it stands in its workspace. -/
def bodyWords (stream : TokenStream) : List Token := (words stream).map (Token.shift 2 20)

/-- What stands behind a body in its workspace. -/
def endingOf (body : String) : List Token :=
  ending.map (Token.shift (body.toList.count '\n' + 3) (body.length + 21))

/-- Tokens where they stand below a text. -/
def lowered (upper : String) (tokens : List Token) : List Token :=
  tokens.map (Token.shift (upper.toList.count '\n' + 1) (upper.length + 1))

/-- The tokens of a workspace with nothing but a model are those before the body, those of the body,
and those behind it. -/
theorem ofString_modelSource (h : TokenStream.ofString body = .ok stream)
    (hn : stream.diagnostics = []) :
    TokenStream.ofString (modelSource body) =
      .ok ⟨heading ++ (bodyWords stream ++ endingOf body), []⟩ := by
  have hbody := TokenStream.ofString_seam h (TokenStream.complete_of_eq_nil h hn) "\x7d\n\x7d"
  have hsource := TokenStream.ofString_seam ofString_heading
    (TokenStream.complete_of_eq_nil ofString_heading rfl) (body ++ "\n" ++ "\x7d\n\x7d")
  rw [hbody, ofString_ending] at hsource
  refine hsource.trans (congrArg Except.ok ?_)
  have hcount : "workspace \x7b\nmodel \x7b".toList.count '\n' = 1 := by decide +kernel
  have hlength : "workspace \x7b\nmodel \x7b".length = 19 := by decide +kernel
  have hheading : (heading ++ [Token.finish ⟨2, 8, 19⟩]).filter (·.kind != .endOfInput) =
      heading := rfl
  have hlines : (body.toList.count '\n' : Int) + 1 + ((1 : Nat) + 1) =
      body.toList.count '\n' + 3 := by omega
  have hcharacters : (body.length : Int) + 1 + ((19 : Nat) + 1) = body.length + 21 := by omega
  rw [hn, hcount, hlength, hheading]
  simp only [bodyWords, endingOf, words, List.map_append, List.map_map, List.map_nil,
    List.append_nil, Function.comp_def, shift_shift, hlines, hcharacters]
  rfl

/-- If nothing is reported about the workspace with a body, nothing is reported about the characters
of the body. -/
theorem diagnostics_of_modelSource (hs : TokenStream.ofString body = .ok stream)
    (h : parse (modelSource body) limit = .ok outcome) (hn : outcome.diagnostics = []) :
    stream.diagnostics = [] := by
  obtain ⟨whole, hwhole, _⟩ := parse_eq_ok_iff.mp h
  obtain ⟨more, hmore, _⟩ := diagnostics_of_parse hwhole h
  obtain ⟨hnothing, _⟩ := List.append_eq_nil_iff.mp (hmore.symm.trans hn)
  have hsource := TokenStream.ofString_seam ofString_heading
    (TokenStream.complete_of_eq_nil ofString_heading rfl) (body ++ "\n" ++ "\x7d\n\x7d")
  have hmap := hsource.symm.trans hwhole
  cases hbehind : TokenStream.ofString (body ++ "\n" ++ "\x7d\n\x7d") with
  | error fault =>
    rw [hbehind] at hmap
    cases hmap
  | ok behind =>
    rw [hbehind] at hmap
    obtain rfl := Except.ok.inj hmap
    have hclosed : Segment.ClosesNothing "\x7d\n\x7d".toList := by
      unfold Segment.ClosesNothing
      decide +kernel
    exact TokenStream.diagnostics_of_line hclosed hs hbehind (List.map_eq_nil_iff.mp hnothing)

/-- A workspace with nothing but a model is read without a word by running the statements of the
model. -/
theorem exists_modelRun_of_parse (hs : TokenStream.ofString body = .ok stream)
    (hb : Balanced stream.tokens) (h : parse (modelSource body) limit = .ok outcome)
    (hn : outcome.diagnostics = []) :
    ∃ m, ModelRun (bodyWords stream) (endingOf body) limit m ∧ outcome.workspace = m.workspace :=
  exists_modelRun (ofString_modelSource hs (diagnostics_of_modelSource hs h hn))
    ((balanced_words hs hb).shift 2 20) rfl rfl rfl h hn

/-- The words of a body stand above what stands behind it. -/
theorem line_of_bodyWords (h : TokenStream.ofString body = .ok stream) {token : Token}
    (hm : token ∈ bodyWords stream) :
    3 ≤ token.line ∧ token.line < body.toList.count '\n' + 4 := by
  obtain ⟨word, hword, rfl⟩ := List.mem_map.mp hm
  obtain ⟨hfirst, hlast⟩ := line_of_mem h (List.mem_filter.mp hword).1
  show 3 ≤ word.line + 2 ∧ word.line + 2 < _
  omega

/-- What stands behind a body stands below it. -/
theorem line_of_endingOf {token : Token} (hm : token ∈ endingOf body) :
    body.toList.count '\n' + 4 ≤ token.line := by
  obtain ⟨word, hword, rfl⟩ := List.mem_map.mp hm
  have hlines : ∀ word ∈ ending, 1 ≤ word.line := by decide
  have hline := hlines word hword
  show _ ≤ word.line + _
  omega

/-! ## One body below the other -/

/-- The words of a body stand above another body below it. -/
theorem line_of_lowered (h : TokenStream.ofString upper = .ok above)
    (hb : TokenStream.ofString lower = .ok below) :
    ∀ token ∈ bodyWords above,
      ∀ other ∈ lowered upper (bodyWords below ++ endingOf lower), token.line < other.line := by
  intro token hm other hother
  have hupper := (line_of_bodyWords h hm).2
  obtain ⟨word, hword, rfl⟩ := List.mem_map.mp hother
  have hline : 3 ≤ word.line := by
    rcases List.mem_append.mp hword with hword | hword
    · exact (line_of_bodyWords hb hword).1
    · have hlower := line_of_endingOf hword
      omega
  show _ < word.line + _
  omega

/-- What stands behind two bodies is what stands behind the lower one, further below. -/
theorem endingOf_below (upper lower : String) :
    endingOf (upper ++ "\n" ++ lower) = lowered upper (endingOf lower) := by
  have hlines : ((upper ++ "\n" ++ lower).toList.count '\n' : Int) + 3 =
      lower.toList.count '\n' + 3 + (upper.toList.count '\n' + 1) := by
    have hline : "\n".toList.count '\n' = 1 := by decide
    rw [String.toList_append, String.toList_append, List.count_append, List.count_append, hline]
    omega
  have hcharacters : ((upper ++ "\n" ++ lower).length : Int) + 21 =
      lower.length + 21 + (upper.length + 1) := by
    have hline : "\n".length = 1 := rfl
    rw [String.length_append, String.length_append, hline]
    omega
  simp only [endingOf, lowered, List.map_map, Function.comp_def, shift_shift, hlines, hcharacters]

/-- The tokens of a workspace with two bodies of the model are those of the upper one and, further
below, those of the lower one. -/
theorem ofString_modelSource_below (h : TokenStream.ofString upper = .ok above)
    (hn : above.diagnostics = []) (hb : TokenStream.ofString lower = .ok below)
    (hm : below.diagnostics = []) :
    TokenStream.ofString (modelSource (upper ++ "\n" ++ lower)) =
      .ok ⟨heading ++ (bodyWords above ++ lowered upper (bodyWords below) ++
        lowered upper (endingOf lower)), []⟩ := by
  obtain ⟨stream, hstream, hnone, hwords⟩ := words_below h hn hb hm
  have hbody : bodyWords stream = bodyWords above ++ lowered upper (bodyWords below) := by
    unfold bodyWords lowered
    rw [hwords, List.map_append, map_shift_comm]
  rw [ofString_modelSource hstream hnone, hbody, endingOf_below]

/-- Two bodies of the model that are read without a word are read without a word where one stands
below the other. The model is put together of the two. -/
theorem exists_joins (hu : BalancedText upper) (hl : BalancedText lower)
    (h : parse (modelSource upper) limit = .ok first) (hn : first.diagnostics = [])
    (ho : parse (modelSource lower) limit = .ok second) (hm : second.diagnostics = []) :
    ∃ outcome above below whole,
      parse (modelSource (upper ++ "\n" ++ lower)) limit = .ok outcome ∧
      outcome.diagnostics = [] ∧ first.workspace.model = some above ∧
      second.workspace.model = some below ∧ outcome.workspace.model = some whole ∧
      Model.Joins above.unplaced below.unplaced whole.unplaced := by
  obtain ⟨above, habove, hbalanced⟩ := hu
  obtain ⟨below, hbelow, hclosed⟩ := hl
  obtain ⟨m, hupper, hfirst⟩ := exists_modelRun_of_parse habove hbalanced h hn
  obtain ⟨t, hlower, hsecond⟩ := exists_modelRun_of_parse hbelow hclosed ho hm
  have hbehind : ∀ token ∈ bodyWords above, ∀ other ∈ endingOf upper, token.line < other.line :=
    fun token hm other hother =>
      Int.lt_of_lt_of_le (line_of_bodyWords habove hm).2 (line_of_endingOf hother)
  obtain ⟨s, first, second, whole, hrun, hmodel, hother, hwhole, hjoins⟩ :=
    hupper.stack hlower rfl (List.cons_ne_nil _ _) rfl hbehind (line_of_lowered habove hbelow)
  have hsource := ofString_modelSource_below habove (diagnostics_of_modelSource habove h hn) hbelow
    (diagnostics_of_modelSource hbelow ho hm)
  refine ⟨_, first, second, whole, hrun.parse_eq hsource rfl rfl rfl, rfl, ?_, ?_, hwhole, hjoins⟩
  · rw [hfirst, hmodel]
  · rw [hsecond, hother]

/-- If two bodies of the model are each read without a word, so are the two with the second one
below the first one. What the second one declares is declared then, and what the first one declares
outside of an enterprise, as often as it is declared and but for places. All that they declare is
declared exactly if the second one has no enterprise or the first declares nothing in its own. -/
theorem stacked_keeps_iff (hu : BalancedText upper) (hl : BalancedText lower)
    (h : parse (modelSource upper) limit = .ok first) (hn : first.diagnostics = [])
    (ho : parse (modelSource lower) limit = .ok second) (hm : second.diagnostics = []) :
    ∃ outcome above below whole,
      parse (modelSource (upper ++ "\n" ++ lower)) limit = .ok outcome ∧
      outcome.diagnostics = [] ∧ first.workspace.model = some above ∧
      second.workspace.model = some below ∧ outcome.workspace.model = some whole ∧
      (above.unplaced.ownParts ++ below.unplaced.parts).Subperm whole.unplaced.parts ∧
      ((above.unplaced.parts ++ below.unplaced.parts).Subperm whole.unplaced.parts ↔
        below.enterprise = none ∨ above.enterpriseParts = []) := by
  obtain ⟨outcome, above, below, whole, hparse, hnone, hfirst, hsecond, hwhole, hjoins⟩ :=
    exists_joins hu hl h hn ho hm
  refine ⟨outcome, above, below, whole, hparse, hnone, hfirst, hsecond, hwhole,
    hjoins.subperm_parts, ?_⟩
  rw [hjoins.subperm_parts_iff, Model.enterprise_unplaced, Model.enterpriseParts_unplaced]

/-- A body with an enterprise. -/
def bankBody : String := "enterprise \"Bank\" \x7b\nclerk = person \"Clerk\"\n\x7d"

/-- A body with a software system and a relationship. -/
def coreBody : String := "core = softwareSystem \"Core\"\ncore -> core"

/-- A body with an enterprise that has two members. -/
def pairBody : String := "enterprise \"A\" \x7b\nx = person \"X\"\nz = person \"Z\"\n\x7d"

/-- A body with the same enterprise and another member. -/
def singleBody : String := "enterprise \"A\" \x7b\ny = person \"Y\"\n\x7d"

/-- An enterprise above a software system and a relationship is kept. -/
theorem stacked_keeps_bank :
    ∃ first second outcome above below whole,
      parse (modelSource bankBody) defaultLimit = .ok first ∧
      parse (modelSource coreBody) defaultLimit = .ok second ∧
      parse (modelSource (bankBody ++ "\n" ++ coreBody)) defaultLimit = .ok outcome ∧
      first.workspace.model = some above ∧ second.workspace.model = some below ∧
      outcome.workspace.model = some whole ∧ above.enterpriseParts.length = 1 ∧
      (above.unplaced.parts ++ below.unplaced.parts).Subperm whole.unplaced.parts := by
  have hu : BalancedText bankBody := .of_map (by decide +kernel)
  have hl : BalancedText coreBody := .of_map (by decide +kernel)
  have hfirst : (parse (modelSource bankBody) defaultLimit).toOption.map (fun outcome =>
      (outcome.diagnostics, outcome.workspace.model.map fun model =>
        model.enterpriseParts.length)) = some ([], some 1) := by decide +kernel
  have hsecond : (parse (modelSource coreBody) defaultLimit).toOption.map (fun outcome =>
      (outcome.diagnostics, outcome.workspace.model.map fun model =>
        model.enterprise.isNone)) = some ([], some true) := by decide +kernel
  obtain ⟨first, h, hone⟩ := exists_ok_of_map hfirst
  obtain ⟨second, ho, hnone⟩ := exists_ok_of_map hsecond
  simp only [Prod.mk.injEq] at hone hnone
  obtain ⟨outcome, m₁, m₂, m, hparse, _, hm₁, hm₂, hm, _, hiff⟩ :=
    stacked_keeps_iff hu hl h hone.1 ho hnone.1
  rw [hm₁] at hone
  rw [hm₂] at hnone
  have hlength := Option.some.inj hone.2
  have henterprise := Option.isNone_iff_eq_none.mp (Option.some.inj hnone.2)
  exact ⟨first, second, outcome, m₁, m₂, m, h, ho, hparse, hm₁, hm₂, hm, hlength,
    hiff.mpr (.inl henterprise)⟩

/-- Of two enterprises, one below the other, the upper one is lost without a word with what is
declared in it. -/
theorem stacked_loses_enterprise :
    BalancedText pairBody ∧ BalancedText singleBody ∧ ∃ first second outcome above below whole,
      parse (modelSource pairBody) defaultLimit = .ok first ∧ first.diagnostics = [] ∧
      parse (modelSource singleBody) defaultLimit = .ok second ∧ second.diagnostics = [] ∧
      parse (modelSource (pairBody ++ "\n" ++ singleBody)) defaultLimit = .ok outcome ∧
      outcome.diagnostics = [] ∧
      first.workspace.model = some above ∧ second.workspace.model = some below ∧
      outcome.workspace.model = some whole ∧
      ¬above.unplaced.parts.Subperm whole.unplaced.parts := by
  have hu : BalancedText pairBody := .of_map (by decide +kernel)
  have hl : BalancedText singleBody := .of_map (by decide +kernel)
  let counts := fun outcome : Outcome => (outcome.diagnostics, outcome.workspace.model.map
    fun model => model.unplaced.parts.length)
  have hfirst : (parse (modelSource pairBody) defaultLimit).toOption.map counts =
      some ([], some 2) := by decide +kernel
  have hsecond : (parse (modelSource singleBody) defaultLimit).toOption.map counts =
      some ([], some 1) := by decide +kernel
  have hboth : (parse (modelSource (pairBody ++ "\n" ++ singleBody))
      defaultLimit).toOption.map counts = some ([], some 1) := by decide +kernel
  obtain ⟨first, h, htwo⟩ := exists_ok_of_map hfirst
  obtain ⟨second, ho, hone⟩ := exists_ok_of_map hsecond
  obtain ⟨outcome, hp, hlost⟩ := exists_ok_of_map hboth
  simp only [counts, Prod.mk.injEq, Option.map_eq_some_iff] at htwo hone hlost
  obtain ⟨hn, m₁, hm₁, hl₁⟩ := htwo
  obtain ⟨hm, m₂, hm₂, _⟩ := hone
  obtain ⟨hb, m, hwhole, hl₂⟩ := hlost
  refine ⟨hu, hl, first, second, outcome, m₁, m₂, m, h, hn, ho, hm, hp, hb, hm₁, hm₂, hwhole,
    fun hs => ?_⟩
  have hle := hs.length_le
  omega

end Blueprint.Grammar
