import Mathlib.Data.List.SplitBy
import Mathlib.Data.List.TakeWhile
import Blueprint.Grammar.Progress
import Blueprint.Proofs.Token.Slice

/-!
# The values of a line

Reading the rest of a line takes its tokens up to a brace and cuts them into values wherever the
source has a character between two neighbours, and around every string literal. So a value is either
the decoded text of one literal or a piece of the source, from the start of its first token to the
end of its last one, with nothing added and nothing left out.
-/

namespace Blueprint

/-! ## Tokens as ranges of offsets -/

/-- A token stands at a range of offsets of a source, and is written with its characters. -/
structure Token.Spans (source : List Char) (token : Token) : Prop where
  /-- The range starts in the source. -/
  offset_ge : 0 ≤ token.position.offset
  /-- The range ends in the source. -/
  end_le : token.endOffset ≤ source.length
  /-- The characters of the range are those of the token. -/
  lexeme_eq : token.lexeme.toList =
    source.extract token.position.offset.toNat token.endOffset.toNat

namespace TokenStream

variable {source : List Char} {tokens : List Token}

/-- The characters of a source between two of its tokens. -/
def between (source : List Char) (first second : Token) : List Char :=
  source.extract first.endOffset.toNat second.position.offset.toNat

/-- The characters of a source from the start of a token to the end of another one. -/
def through (source : List Char) (first last : Token) : List Char :=
  source.extract first.position.offset.toNat last.endOffset.toNat

/-- A token does not end before it starts. -/
theorem offset_le_endOffset (token : Token) : token.position.offset ≤ token.endOffset :=
  Int.le_add_of_nonneg_right (Int.natCast_nonneg _)

/-- Every token of a source stands at a range of its offsets. -/
theorem Sliced.spans (h : Sliced source tokens) {token : Token} (hm : token ∈ tokens) :
    token.Spans source := by
  have hinside : 0 ≤ token.position.offset ∧ token.position.offset ≤ source.length := by
    have hp := h.positions token hm
    unfold Position.ofOffset? at hp
    split at hp
    · cases hp
    · rename_i hout
      simp only [Bool.or_eq_true, decide_eq_true_eq, not_or, Int.not_lt] at hout
      exact hout
  have hl := h.lexemes token hm
  have hlength := congrArg List.length hl
  rw [List.length_take, List.length_drop, String.length_toList] at hlength
  have hend : token.endOffset = token.position.offset + token.lexeme.length := rfl
  refine ⟨hinside.1, by omega, ?_⟩
  rw [hl, List.extract_eq_take_drop]
  congr 1
  omega

/-- Two ranges one behind the other make up the range that they cover. -/
theorem extract_append {start middle stop : Nat} (hs : start ≤ middle) (hm : middle ≤ stop) :
    source.extract start middle ++ source.extract middle stop = source.extract start stop := by
  have hlength : stop - start = middle - start + (stop - middle) := by omega
  rw [List.extract_eq_take_drop, List.extract_eq_take_drop, List.extract_eq_take_drop, hlength,
    List.take_add, List.drop_drop, Nat.add_sub_cancel' hs]

/-- Between two tokens there is no character exactly if the second one starts where the first one
ends. -/
theorem between_eq_nil_iff {first second : Token} (hf : first.Spans source)
    (hs : second.Spans source) (ho : first.endOffset ≤ second.position.offset) :
    between source first second = [] ↔ second.position.offset = first.endOffset := by
  have hstart := hf.offset_ge
  have hfirst := offset_le_endOffset first
  have hsecond := offset_le_endOffset second
  have hend := hs.end_le
  rw [between, List.extract_eq_take_drop, ← List.length_eq_zero_iff, List.length_take,
    List.length_drop]
  omega

/-- Tokens without a character between neighbours are written as the source from the start of the
first to the end of the last one. -/
theorem flatMap_lexeme_eq {first : Token} (hspans : ∀ token ∈ first :: tokens, token.Spans source)
    (hc : (first :: tokens).IsChain fun token next =>
      next.position.offset = token.endOffset) :
    first.position.offset ≤ ((first :: tokens).getLast (List.cons_ne_nil _ _)).endOffset ∧
      (first :: tokens).flatMap (fun token => token.lexeme.toList) =
        through source first ((first :: tokens).getLast (List.cons_ne_nil _ _)) := by
  induction tokens generalizing first with
  | nil =>
    refine ⟨offset_le_endOffset first, ?_⟩
    rw [List.flatMap_singleton]
    exact (hspans first List.mem_cons_self).lexeme_eq
  | cons next tokens ih =>
    obtain ⟨hj, hc⟩ := List.isChain_cons_cons.mp hc
    obtain ⟨hle, he⟩ := ih (fun token hm => hspans token (List.mem_cons_of_mem _ hm)) hc
    have hfirst := offset_le_endOffset first
    rw [List.getLast_cons (List.cons_ne_nil _ _)]
    refine ⟨by omega, ?_⟩
    rw [List.flatMap_cons, he, (hspans first List.mem_cons_self).lexeme_eq, through, through, hj]
    exact extract_append (Int.toNat_le_toNat hfirst) (Int.toNat_le_toNat (by omega))

/-- No lexeme of a source is a string literal. -/
theorem kind_ne_string_of_mem {kind : Kind} {text : List Char}
    (h : .lexeme kind text ∈ Segment.ofText source) : kind ≠ .string := by
  obtain ⟨c, rest, he⟩ := Segment.exists_next_of_mem h
  have hs := Segment.starts_next c rest
  generalize Segment.next c rest = segment at he hs
  cases hs with
  | directive =>
    cases he
    unfold Segment.directiveKind
    split <;> exact nofun
  | number =>
    unfold Segment.number at he
    dsimp only at he
    repeat' split at he
    all_goals
      cases he
      exact nofun
  | word =>
    cases he
    unfold Segment.wordKind
    repeat' split
    all_goals exact nofun
  | sign | arrow | minus | slash | bang =>
    cases he
    exact nofun
  | _ => cases he

/-- A string literal of a source has a decoded text. -/
theorem exists_text_of_ofChars {stream : TokenStream} (h : ofChars source = .ok stream)
    {token : Token} (hm : token ∈ stream.tokens) (hk : token.kind = .string) :
    ∃ points, token.value = .text points := by
  obtain ⟨front, ht, rfl⟩ := ofChars_eq_ok_iff.mp h
  rcases List.mem_append.mp hm with hm | hm
  · obtain ⟨⟨position, segment⟩, hp, he⟩ := tokenAt_of_mem_tokensOf ht hm
    have hs := (Segment.place_of_mem_source hp).1
    cases segment with
    | lexeme kind text =>
      have hne := kind_ne_string_of_mem hs
      cases hv : Segment.valueOf kind text with
      | error fault =>
        simp only [Segment.tokenAt, hv] at he
        cases he
      | ok value =>
        simp only [Segment.tokenAt, hv] at he
        cases he
        exact absurd hk hne
    | literal scanned =>
      cases he
      exact ⟨scanned.content, rfl⟩
    | _ => cases he
  · rw [List.mem_singleton.mp hm] at hk
    cases hk

end TokenStream

namespace Grammar

open Blueprint.Text TokenStream

/-! ## Values -/

/-- Cutting tokens where neighbours are not joined is cutting them into runs of joined ones. -/
theorem groupJoined_eq_splitBy (tokens : List Token) :
    groupJoined tokens = tokens.splitBy joined := by
  fun_induction groupJoined tokens with
  | case1 => rfl
  | case2 token rest next more groups eq h ih =>
    rw [eq, eq_comm, List.splitBy_eq_iff] at ih
    obtain ⟨rfl, hn, hc, ha⟩ := ih
    refine (List.splitBy_eq_iff.mpr ⟨rfl, ?_, ?_, ?_⟩).symm
    · simpa using hn
    · obtain ⟨hf, hc⟩ := List.forall_mem_cons.mp hc
      exact List.forall_mem_cons.mpr ⟨.cons_cons h hf, hc⟩
    · -- The first run has a token more in front, and its last token is the same.
      cases groups with
      | nil => exact .singleton _
      | cons second groups =>
        obtain ⟨⟨_, hs, hl⟩, ha⟩ := List.isChain_cons_cons.mp ha
        refine .cons_cons ⟨List.cons_ne_nil _ _, hs, ?_⟩ ha
        rwa [List.getLast_cons (List.cons_ne_nil _ _)]
  | case3 token rest next more groups eq h ih =>
    rw [eq, eq_comm, List.splitBy_eq_iff] at ih
    obtain ⟨rfl, hn, hc, ha⟩ := ih
    refine (List.splitBy_eq_iff.mpr ⟨rfl, ?_, ?_, ?_⟩).symm
    · simpa using hn
    · exact List.forall_mem_cons.mpr ⟨.singleton _, hc⟩
    · exact .cons_cons ⟨List.cons_ne_nil _ _, List.cons_ne_nil _ _, Bool.eq_false_iff.mpr h⟩ ha
  | case4 token rest hne ih =>
    -- A run is never empty, so there is none behind the token.
    cases hg : rest.splitBy joined with
    | nil =>
      rw [ih, hg, List.splitBy_eq_nil.mp hg]
      rfl
    | cons first groups =>
      cases first with
      | nil => exact absurd (hg ▸ List.mem_cons_self) (List.nil_notMem_splitBy joined rest)
      | cons next more => exact (hne next more groups (ih.trans hg)).elim

/-- Two neighbours belong to one value: the source has no character between them, and neither is a
string literal. -/
def Touches (source : List Char) (first second : Token) : Prop :=
  between source first second = [] ∧ first.kind ≠ .string ∧ second.kind ≠ .string

/-- A token continues a line: it stands on the line and is no brace and not the end of the input. -/
def ContinuesLine (line : Int) (token : Token) : Prop :=
  token.line = line ∧ token.kind ≠ .sign .leftBrace ∧ token.kind ≠ .sign .rightBrace ∧
    token.kind ≠ .endOfInput

/-- What is read for the tokens of one value. -/
inductive IsValue (source : List Char) : List Token → Text → Prop where
  /-- A string literal alone gives its decoded text. -/
  | literal {token : Token} {text : Text} (hk : token.kind = .string)
    (hv : token.value = .text text) : IsValue source [token] text
  /-- Tokens without a string literal give the source from the first to the last of them. -/
  | slice {group : List Token} (hn : group ≠ []) (hk : ∀ token ∈ group, token.kind ≠ .string) :
    IsValue source group
      ((through source (group.head hn) (group.getLast hn)).map .character)

/-- Tokens are cut into the values of a line and what is left. -/
structure Cut (source : List Char) (line : Int) (tokens : List Token)
    (groups : List (List Token)) (values : List Text) (left : List Token) : Prop where
  /-- No token is lost, and their order is kept. -/
  tokens_eq : groups.flatten ++ left = tokens
  /-- The tokens of the values continue the line. -/
  continues : ∀ token ∈ groups.flatten, ContinuesLine line token
  /-- The first token that is left stands on another line, is a brace or the end of the input. -/
  stops : ∃ next more, left = next :: more ∧
    (next.line ≠ line ∨ next.kind = .sign .leftBrace ∨ next.kind = .sign .rightBrace ∨
      next.kind = .endOfInput)
  /-- Every value has tokens. -/
  nonempty : [] ∉ groups
  /-- Neighbours in one value touch. -/
  within : ∀ group ∈ groups, group.IsChain (Touches source)
  /-- The last token of a value and the first one of the next value do not touch. -/
  across : groups.IsChain fun group next =>
    ∃ (hg : group ≠ []) (hn : next ≠ []), ¬Touches source (group.getLast hg) (next.head hn)
  /-- There is a value for each group of tokens, in their order. -/
  values : List.Forall₂ (IsValue source) groups values

/-- Whether a token continues a line. -/
theorem onLine_iff {line : Int} {token : Token} :
    onLine line token = true ↔ ContinuesLine line token := by
  simp [onLine, ContinuesLine, and_assoc]

variable {source : List Char} {tokens : List Token}

/-- Neighbours among the tokens of a source are joined exactly if they touch. -/
theorem joined_iff (h : Sliced source tokens) {first second : Token}
    (hp : [first, second].Sublist tokens) :
    joined first second = true ↔ Touches source first second := by
  have ho : first.endOffset ≤ second.position.offset := by
    simpa using h.ordered.sublist hp
  have hf := h.spans (hp.subset List.mem_cons_self)
  have hs := h.spans (hp.subset (List.mem_cons_of_mem _ List.mem_cons_self))
  rw [Touches, between_eq_nil_iff hf hs ho]
  simp [joined, and_assoc]

/-- Behind a token that is no string literal only such tokens are joined. -/
theorem kind_ne_string_of_isChain {first : Token} {rest : List Token}
    (hk : first.kind ≠ .string)
    (hj : (first :: rest).IsChain fun token next => joined token next = true) :
    ∀ token ∈ first :: rest, token.kind ≠ .string := by
  induction rest generalizing first with
  | nil => exact List.forall_mem_singleton.mpr hk
  | cons second rest ih =>
    obtain ⟨ht, hj⟩ := List.isChain_cons_cons.mp hj
    simp only [joined, Bool.and_eq_true, bne_iff_ne, ne_eq] at ht
    exact List.forall_mem_cons.mpr ⟨hk, ih ht.2 hj⟩

/-- A token that is no string literal contributes what it is written with. -/
theorem text_eq_lexeme {token : Token} (hk : token.kind ≠ .string) :
    token.text = .ofString token.lexeme := by
  unfold Token.text
  split
  · exact absurd ‹_› hk
  · rfl

/-- The text of a value has the characters of its tokens. -/
theorem valueText_eq_map {group : List Token} (hk : ∀ token ∈ group, token.kind ≠ .string) :
    valueText group = (group.flatMap fun token => token.lexeme.toList).map .character := by
  rw [valueText, List.map_flatMap]
  exact List.flatMap_congr fun token hm => text_eq_lexeme (hk token hm)

/-- What is read for joined tokens of a source is their value. -/
theorem isValue_valueText (h : Sliced source tokens)
    (hv : ∀ token ∈ tokens, token.kind = .string → ∃ points, token.value = .text points)
    {group : List Token} (hs : group.Sublist tokens) (hn : group ≠ [])
    (hj : group.IsChain fun first second => joined first second = true) :
    IsValue source group (valueText group) := by
  cases group with
  | nil => exact absurd rfl hn
  | cons first rest =>
    by_cases hk : first.kind = .string
    · -- Nothing is joined to a string literal.
      cases rest with
      | nil =>
        obtain ⟨points, hp⟩ := hv first (hs.subset List.mem_cons_self) hk
        have ht : valueText [first] = points := by
          simp [valueText, Token.text, hk, hp]
        rw [ht]
        exact .literal hk hp
      | cons second rest =>
        have ht := (List.isChain_cons_cons.mp hj).1
        simp [joined, hk] at ht
    · have hall := kind_ne_string_of_isChain hk hj
      have hspans : ∀ token ∈ first :: rest, token.Spans source := fun token hm =>
        h.spans (hs.subset hm)
      have hends := hj.imp fun first second ht => by
        simp only [joined, Bool.and_eq_true, beq_iff_eq] at ht
        exact ht.1.1
      have he := (flatMap_lexeme_eq hspans hends).2
      rw [valueText_eq_map hall, he]
      exact .slice (List.cons_ne_nil _ _) hall

/-- Behind the tokens of a line comes one that does not continue the line. -/
theorem exists_next_afterLine (h : Sliced source tokens) (line : Int) {rest : List Token}
    (hs : rest <:+ tokens) (hn : rest ≠ []) :
    ∃ next more, afterLine line rest = next :: more ∧ ¬ContinuesLine line next := by
  obtain ⟨front, last, rfl, -, hk, -⟩ := h.ends
  have hlast : last ∈ rest := by
    rw [← List.getLast_concat (a := last) (l := front), ← hs.getLast hn]
    exact List.getLast_mem hn
  have hne : afterLine line rest ≠ [] := by
    intro he
    have hl := onLine_iff.mp (List.dropWhile_eq_nil_iff.mp he last hlast)
    exact hl.2.2.2 hk
  obtain ⟨next, more, he⟩ := List.exists_cons_of_ne_nil hne
  refine ⟨next, more, he, fun hc => ?_⟩
  have hstop := List.head_dropWhile_not (onLine line) (l := rest) hne
  simp only [afterLine] at he
  simp only [he, List.head_cons, onLine_iff.mpr hc] at hstop
  cases hstop

/-- Joined tokens of a source touch. -/
theorem isChain_touches (h : Sliced source tokens) {group : List Token}
    (hs : group.Sublist tokens)
    (hj : group.IsChain fun first second => joined first second = true) :
    group.IsChain (Touches source) := by
  rw [List.isChain_iff_forall_rel_of_append_cons_cons] at hj ⊢
  intro first second front back he
  have hpair : [first, second].Sublist group := by
    rw [he]
    exact (List.prefix_append [first, second] back).sublist.trans (List.sublist_append_right _ _)
  exact (joined_iff h (hpair.trans hs)).mp (hj he)

/-- Groups of tokens of a source do not touch where they are not joined. -/
theorem isChain_apart (h : Sliced source tokens) {groups : List (List Token)}
    (hs : groups.flatten.Sublist tokens)
    (hp : groups.IsChain fun group next =>
      ∃ (hg : group ≠ []) (hn : next ≠ []), joined (group.getLast hg) (next.head hn) = false) :
    groups.IsChain fun group next =>
      ∃ (hg : group ≠ []) (hn : next ≠ []), ¬Touches source (group.getLast hg) (next.head hn) := by
  rw [List.isChain_iff_forall_rel_of_append_cons_cons] at hp ⊢
  intro group next front back he
  obtain ⟨hg, hn, hj⟩ := hp he
  have hpair : [group.getLast hg, next.head hn].Sublist (group ++ next) :=
    (List.singleton_sublist.mpr (List.getLast_mem hg)).append
      (List.singleton_sublist.mpr (List.head_mem hn))
  have hboth : (group ++ next).Sublist groups.flatten := by
    rw [he, List.flatten_append, List.flatten_cons, List.flatten_cons, ← List.append_assoc group]
    exact (List.prefix_append _ _).sublist.trans (List.sublist_append_right _ _)
  refine ⟨hg, hn, fun ht => Bool.eq_false_iff.mp hj ?_⟩
  exact (joined_iff h (hpair.trans (hboth.trans hs))).mpr ht

/-- The tokens that are left somewhere in a source are cut into the values of a line. -/
theorem cut_of_sliced (h : Sliced source tokens)
    (hv : ∀ token ∈ tokens, token.kind = .string → ∃ points, token.value = .text points)
    (line : Int) {rest : List Token} (hs : rest <:+ tokens) (hn : rest ≠ []) :
    Cut source line rest (groupJoined (rest.takeWhile (onLine line))) (lineValues line rest)
      (afterLine line rest) := by
  have hcut := List.splitBy_eq_iff.mp (groupJoined_eq_splitBy (rest.takeWhile (onLine line))).symm
  unfold lineValues
  generalize groupJoined (rest.takeWhile (onLine line)) = groups at hcut ⊢
  obtain ⟨hflat, hne, hjoined, hparted⟩ := hcut
  have hrun : groups.flatten.Sublist tokens :=
    hflat ▸ (List.takeWhile_sublist _).trans hs.sublist
  have hgroup : ∀ group ∈ groups, group.Sublist tokens := fun group hm =>
    (List.sublist_flatten_of_mem hm).trans hrun
  refine ⟨?_, ?_, ?_, hne, ?_, isChain_apart h hrun hparted, ?_⟩
  · rw [← hflat]
    exact List.takeWhile_append_dropWhile
  · rw [← hflat]
    exact fun token hm => onLine_iff.mp (List.all_eq_true.mp List.all_takeWhile token hm)
  · obtain ⟨next, more, he, hc⟩ := exists_next_afterLine h line hs hn
    refine ⟨next, more, he, ?_⟩
    simp only [ContinuesLine, not_and_or, not_not] at hc
    exact hc
  · exact fun group hm => isChain_touches h (hgroup group hm) (hjoined group hm)
  · rw [List.forall₂_map_right_iff, List.forall₂_same]
    exact fun group hm => isValue_valueText h hv (hgroup group hm)
      (fun he => hne (he ▸ hm)) (hjoined group hm)

/-- Wherever reading has come in the tokens of a source, and on whatever line: the values that are
read are the tokens of the line up to a brace, cut where the source has a character between two
neighbours and around string literals. Each value is a piece of the source or the text of a literal.
Reading goes on behind them, and nothing else changes. -/
theorem takeValues_cuts {source : String} {stream : TokenStream}
    (h : TokenStream.ofString source = .ok stream) (line : Int) {p : Progress}
    (hs : p.rest <:+ stream.tokens) (hn : p.rest ≠ []) :
    ∃ groups values left,
      (takeValues line).run.run p = (.ok values, { p with rest := left }) ∧
        Cut source.toList line p.rest groups values left :=
  ⟨_, _, _, rfl, cut_of_sliced (sliced_of_ofString h)
    (fun _ hm hk => exists_text_of_ofChars h hm hk) line hs hn⟩

/-- A directive with values behind it: among them are a character that no token starts with, a
literal with a surrogate next to a word, and a comment between two words. -/
def directiveSource : String := "!docs docs/adrs #1§68 'a\\ud800'b/**/c \x7b\nd"

/-- The values behind the directive. -/
def directiveValues : List Text :=
  [.ofString "docs/adrs", .ofString "#1", .ofString "68", [.character 'a', .surrogate 0],
    .ofString "b", .ofString "c"]

/-- The values behind the directive are cut from its source. -/
theorem takeValues_cuts_directive :
    ∃ stream, TokenStream.ofString directiveSource = .ok stream ∧
      stream.tokens.drop 1 <:+ stream.tokens ∧ stream.tokens.drop 1 ≠ [] ∧
      ∀ p : Progress, p.rest = stream.tokens.drop 1 → ∃ groups left,
        (takeValues 1).run.run p = (.ok directiveValues, { p with rest := left }) ∧
        Cut directiveSource.toList 1 p.rest groups directiveValues left := by
  have hd : (TokenStream.ofString directiveSource).toOption.map
      (fun stream => (lineValues 1 (stream.tokens.drop 1), (stream.tokens.drop 1).isEmpty)) =
      some (directiveValues, false) := by
    decide +kernel
  obtain ⟨stream, hs, he⟩ := exists_ok_of_map hd
  obtain ⟨hvalues, hempty⟩ := Prod.mk.inj he
  have hn : stream.tokens.drop 1 ≠ [] := List.isEmpty_eq_false_iff.mp hempty
  refine ⟨stream, hs, List.drop_suffix 1 _, hn, fun p hp => ?_⟩
  obtain ⟨groups, values, left, hr, hc⟩ := @takeValues_cuts _ _ hs 1 p
    (hp ▸ List.drop_suffix 1 _) (hp ▸ hn)
  have hread : (takeValues 1).run.run p =
      (.ok (lineValues 1 p.rest), { p with rest := afterLine 1 p.rest }) := rfl
  obtain rfl : values = directiveValues := by
    rw [hread, hp, hvalues] at hr
    exact (Except.ok.inj (Prod.mk.inj hr).1).symm
  exact ⟨groups, left, hr, hc⟩

end Grammar

end Blueprint
